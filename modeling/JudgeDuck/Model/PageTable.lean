/-
`lib/memory.cpp`: how the kernel finds the entries of its page tables.

While the tables are built they are walked with physical addresses, through a mapping of
all physical memory.  Afterwards the last entry of the topmost table, which points to that
table itself, makes every entry appear at a virtual address that is computed from the
address it is for.
-/
import JudgeDuck.Base.Mem
import JudgeDuck.Model.Memory

namespace JudgeDuck.PageTable

open Memory

/-! ### The explicit walk -/

/-- The physical address that `PTE` refers to. -/
def pteAddr (pageTablePaddr index : UInt64) : UInt64 := pageTablePaddr ||| (index * 8)

def p4Index (vaddr : UInt64) : UInt64 := (vaddr >>> (39 : UInt64)) &&& (pageSize / 8 - 1)
def p3Index (vaddr : UInt64) : UInt64 := (vaddr >>> (30 : UInt64)) &&& (pageSize / 8 - 1)
def p2Index (vaddr : UInt64) : UInt64 := (vaddr >>> (21 : UInt64)) &&& (pageSize / 8 - 1)
def p1Index (vaddr : UInt64) : UInt64 := (vaddr >>> (12 : UInt64)) &&& (pageSize / 8 - 1)

/-- The table that an entry leads to: `clear_page_flags`, which leaves the bits that are available
for the OS. -/
def tableOf (e : UInt64) : UInt64 := .ofBitVec (clearPageFlags e.toBitVec)

section

variable (table : UInt64 → UInt64) (m : Mem) (p4 vaddr : UInt64)

/-- Where the entries for an address are, by nested calls of `PTE`; `table` takes the address of the
next table from an entry. -/
def p4Entry : UInt64 := pteAddr p4 (p4Index vaddr)
def p3Entry : UInt64 := pteAddr (table (m.read64 (p4Entry p4 vaddr).toNat)) (p3Index vaddr)
def p2Entry : UInt64 := pteAddr (table (m.read64 (p3Entry table m p4 vaddr).toNat)) (p2Index vaddr)
def p1Entry : UInt64 := pteAddr (table (m.read64 (p2Entry table m p4 vaddr).toNat)) (p1Index vaddr)

end

/-! ### The recursive mapping -/

/-- The addresses that `get_P1`, `get_P2`, `get_P3` and `get_P4` refer to. -/
def getP1 (vaddr : UInt64) : UInt64 :=
  ((vaddr >>> (9 : UInt64)) &&& (-8)) ||| (-((1 : UInt64) <<< (39 : UInt64)))
def getP2 (vaddr : UInt64) : UInt64 :=
  ((vaddr >>> (18 : UInt64)) &&& (-8)) ||| (-((1 : UInt64) <<< (30 : UInt64)))
def getP3 (vaddr : UInt64) : UInt64 :=
  ((vaddr >>> (27 : UInt64)) &&& (-8)) ||| (-((1 : UInt64) <<< (21 : UInt64)))
def getP4 (vaddr : UInt64) : UInt64 :=
  ((vaddr >>> (36 : UInt64)) &&& (-8)) ||| (-((1 : UInt64) <<< (12 : UInt64)))

end JudgeDuck.PageTable
