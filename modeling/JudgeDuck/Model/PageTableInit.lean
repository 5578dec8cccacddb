/-
`lib/memory.cpp`: how the page tables are built, and the functions that change flags in them.

Memory is physical here: the source reaches a table through a mapping of all physical memory
(`remap`), except in the page loops, which find their entries through the recursive mapping.
The tables are taken one after another from the lowest registered huge pages.  A failed
assert, a read behind the end of `huge_page_map` and a page fault are `none`.
-/
import JudgeDuck.Base.Paging
import JudgeDuck.Model.PageTable

namespace JudgeDuck.PageTable

open Memory

/-- `P3_PAGE_SIZE`, 1 GiB. -/
def p3PageSize : UInt64 := (1 : UInt64) <<< (30 : UInt64)

/-- `MAX_N_HUGE_PAGES`, the length of `huge_page_map`. -/
def maxNHugePages : Nat := (maxMemorySize / hugePageSize).toNat

/-! ### The allocator -/

/-- Physical memory and `next_page_table_address`. -/
structure Tables where
  mem : Mem
  next : UInt64

/-- At most `k` rounds of `while (!huge_page_map[next / HUGE_PAGE_SIZE]) next += HUGE_PAGE_SIZE`. -/
def skipHoles (map : Nat → Bool) : Nat → UInt64 → Option UInt64
  | 0, _ => none
  | k + 1, next =>
    let i := (next / hugePageSize).toNat
    if maxNHugePages ≤ i then none
    else if map i then some next
    else skipHoles map k (next + hugePageSize)

/-- `page_table_alloc`; after as many rounds as the array is long the index has left it. -/
def pageTableAlloc (h : HugePages) (s : Tables) : Option (UInt64 × Tables) := do
  let ret ← skipHoles h.map maxNHugePages s.next
  let next := ret + pageSize
  if next ≤ h.pageTableBreak then some (ret, { s with next := next }) else none

def pageTableAllocZeroed (h : HugePages) (s : Tables) : Option (UInt64 × Tables) := do
  let (ret, s) ← pageTableAlloc h s
  some (ret, { s with mem := s.mem.memset ret.toNat 0 4096 })

/-- `PTE(table, index) = value`. -/
def setPte (table index value : UInt64) (m : Mem) : Mem :=
  m.write64 (pteAddr table index).toNat value

/-- `PTE_create`, with the value of the entry that it refers to. -/
def pteCreate (h : HugePages) (table index flags : UInt64) (s : Tables) :
    Option (UInt64 × Tables) := do
  let e := s.mem.read64 (pteAddr table index).toNat
  if e ≠ 0 then some (e, s)
  else
    let (ret, s) ← pageTableAllocZeroed h s
    some (ret ||| flags, { s with mem := setPte table index (ret ||| flags) s.mem })

/-- `for (j = 0; j < n; j++) PTE(table, j) = f(j)`. -/
def fillTable (table : UInt64) (f : UInt64 → UInt64) (n : Nat) (m : Mem) : Mem :=
  (List.range n).foldl (fun m j => setPte table (.ofNat j) (f (.ofNat j)) m) m

/-- `PAGE_SIZE / 8`. -/
def entriesPerTable : Nat := (pageSize / 8).toNat

/-! ### The tables -/

def kernelFlags : UInt64 := .ofBitVec (PTE.present ||| PTE.writable ||| PTE.dirty ||| PTE.accessed)

def userFlags : UInt64 :=
  .ofBitVec (PTE.present ||| PTE.writable ||| PTE.user ||| PTE.accessed ||| PTE.dirty)

/-- Entry `i` of the mapping of all physical memory. -/
def remapEntry (i : UInt64) : UInt64 := (i * p3PageSize) ||| kernelFlags ||| .ofBitVec PTE.huge

/-- Entry `j` for 2 MiB number `i` of the kernel. -/
def kernelEntry (i j : UInt64) : UInt64 := (i * hugePageSize + j * pageSize) ||| kernelFlags

/-- Entry `j` for the huge page of the user at `paddr`: without `PTE_USER`, and to
be cleared later. -/
def userEntry (paddr j : UInt64) : UInt64 :=
  let e := (paddr + j * pageSize) ||| userFlags
  let e := e &&& ~~~(.ofBitVec PTE.user)
  e ||| .ofBitVec PTE.duckWritten

/-- The loop for `[0, 4 MiB)` at `i`. -/
def mapKernelPage (h : HugePages) (p2Low i : UInt64) (s : Tables) : Option Tables := do
  let (p1, s) ← pageTableAllocZeroed h s
  let m := setPte p2Low i (p1 ||| kernelFlags) s.mem
  some { s with mem := fillTable p1 (kernelEntry i) entriesPerTable m }

def initEmptyKernelPageTable (h : HugePages) (s : Tables) : Option (UInt64 × Tables) := do
  let (p4, s) ← pageTableAllocZeroed h s
  let (p3High, s) ← pageTableAllocZeroed h s
  let (p3Low, s) ← pageTableAllocZeroed h s
  let (p2Low, s) ← pageTableAllocZeroed h s
  let m := setPte p4 511 (p4 ||| kernelFlags) s.mem
  let m := setPte p4 510 (p3High ||| kernelFlags) m
  let m := fillTable p3High remapEntry entriesPerTable m
  let m := setPte p4 0 (p3Low ||| userFlags) m
  let m := setPte p3Low 0 (p2Low ||| userFlags) m
  guard (kernelBreak % hugePageSize = 0)
  let s ← (List.range (kernelBreak / hugePageSize).toNat).foldlM
    (fun s i => mapKernelPage h p2Low (.ofNat i) s) { s with mem := m }
  some (p4, s)

/-- The loop for the user's pages at one registered huge page. -/
def mapUserPage (h : HugePages) (p4 paddr vaddr : UInt64) (s : Tables) : Option Tables := do
  let (e4, s) ← pteCreate h p4 (p4Index vaddr) userFlags s
  let p3 := tableOf e4
  let (e3, s) ← pteCreate h p3 (p3Index vaddr) userFlags s
  let p2 := tableOf e3
  let (e2, s) ← pteCreate h p2 (p2Index vaddr) userFlags s
  let p1 := tableOf e2
  some { s with mem := fillTable p1 (userEntry paddr) entriesPerTable s.mem }

/-- The loop for the user's pages from index `i` on, with `k` rounds to go. -/
def mapUserPages (h : HugePages) (p4 : UInt64) : Nat → Nat → UInt64 → Tables →
    Option (UInt64 × Tables)
  | 0, _, vaddr, s => some (vaddr, s)
  | k + 1, i, vaddr, s =>
    if h.map i then do
      let s ← mapUserPage h p4 (.ofNat i * hugePageSize) vaddr s
      mapUserPages h p4 k (i + 1) (vaddr + hugePageSize) s
    else mapUserPages h p4 k (i + 1) vaddr s

/-- What `CR3` gets, `vaddr_break` and physical memory. -/
structure Built where
  p4 : UInt64
  vaddrBreak : UInt64
  mem : Mem

def initPageTable4k (h : HugePages) (m : Mem) : Option Built := do
  let (p4, s) ← initEmptyKernelPageTable h ⟨m, kernelBreak⟩
  let i := (h.pageTableBreak / hugePageSize).toNat
  let (vaddr, s) ← mapUserPages h p4 (maxNHugePages - i) i kernelBreak s
  some ⟨p4, vaddr, s.mem⟩

/-! ### The page loops -/

/-- The body of a page loop at `start`. -/
def pageAt (op : PageOp) (p4 start : UInt64) (m : Mem) : Option Mem := do
  let p1 ← Paging.translate m.read64 p4.toNat (getP1 start)
  let m ← if op.wipes (m.read64 p1).toBitVec then do
      let page ← Paging.translate m.read64 p4.toNat start
      some (m.memset page 0 4096)
    else some m
  some (m.write64 p1 (.ofBitVec (op.entry (m.read64 p1).toBitVec)))

/-- `k` rounds of a page loop. -/
def pagesAt (op : PageOp) (p4 : UInt64) : Nat → UInt64 → Mem → Option Mem
  | 0, _, m => some m
  | k + 1, start, m => do
    let m ← pageAt op p4 start m
    pagesAt op p4 k (start + pageSize) m

/-- A page loop after its two asserts. -/
def runAt (op : PageOp) (p4 start stop : UInt64) (m : Mem) : Option Mem :=
  if start % pageSize = 0 ∧ stop % pageSize = 0 then
    pagesAt op p4 ((stop - start).toNat / 4096) start m
  else none

/-- The functions that change the flags of pages. -/
inductive FlagFunction
  | setPageFlagsUserWritable
  | setPageFlagsUserReadonly
  | setPageFlagsUserExecutable
  | setPageFlagsKernel
  | addPageFlagsWritable
  | addPageFlagsExecutable
  | clearAccessAndDirtyFlags
  | setDuckWrittenByDirty
  | setDuckWritten
  | clearDuckWrittenPages
  deriving DecidableEq

def FlagFunction.op : FlagFunction → PageOp
  | setPageFlagsUserWritable => Memory.setPageFlagsUserWritable
  | setPageFlagsUserReadonly => Memory.setPageFlagsUserReadonly
  | setPageFlagsUserExecutable => Memory.setPageFlagsUserExecutable
  | setPageFlagsKernel => Memory.setPageFlagsKernel
  | addPageFlagsWritable => Memory.addPageFlagsWritable
  | addPageFlagsExecutable => Memory.addPageFlagsExecutable
  | clearAccessAndDirtyFlags => Memory.clearAccessAndDirtyFlags
  | setDuckWrittenByDirty => Memory.setDuckWrittenByDirty
  | setDuckWritten => Memory.setDuckWritten
  | clearDuckWrittenPages => Memory.clearDuckWrittenPages

structure FlagCall where
  function : FlagFunction
  start : UInt64
  stop : UInt64

/-- Calls one after another. -/
def runCalls (p4 : UInt64) : List FlagCall → Mem → Option Mem
  | [], m => some m
  | c :: calls, m => do
    let m ← runAt c.function.op p4 c.start c.stop m
    runCalls p4 calls m

end JudgeDuck.PageTable
