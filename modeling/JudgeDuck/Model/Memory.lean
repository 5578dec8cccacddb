/-
`lib/memory.cpp`: page flags, the page loops and the virtual memory allocator.

The kernel reaches every first-level entry through the recursive mapping; here
`p1` is that mapping, the entry of each virtual page.  The loops of the source are
one loop over a page operation, run for as many pages as lie between the two
addresses modulo 2^64, because the source tests `start != end` and not `<`.  The
two alignment asserts come first, and a failed assert is `none`.
-/
import JudgeDuck.Base.Mem

namespace JudgeDuck

namespace Utils

def roundUp (x r : UInt64) : UInt64 := (x + r - 1) / r * r

def roundDown (x r : UInt64) : UInt64 := x / r * r

end Utils

namespace Memory

open Utils

def pageSize : UInt64 := 4096
def hugePageSize : UInt64 := 2097152

/-- Lower bound of the user's address space, 4 MiB. -/
def kernelBreak : UInt64 := (4 : UInt64) <<< 20

/-- A first-level page table entry. -/
abbrev PTE := BitVec 64

namespace PTE

def present : PTE := 1#64 <<< 0
def writable : PTE := 1#64 <<< 1
def user : PTE := 1#64 <<< 2
def accessed : PTE := 1#64 <<< 5
def dirty : PTE := 1#64 <<< 6
def huge : PTE := 1#64 <<< 7
def noExecute : PTE := 1#64 <<< 63

/-- Bit 9 is free for the operating system: the page may be nonzero. -/
def duckWritten : PTE := 1#64 <<< 9

end PTE

/-- Clears bits 0 to 8 and bit 63; bits 9 to 11 are available for the OS and stay. -/
def clearPageFlags (a : PTE) : PTE := ((a <<< 1) >>> 10) <<< 9

/-- What the loader and a user program share: the bytes, the page entries and the upper
bound of the user's address space. -/
structure Machine where
  mem : Mem
  p1 : Nat → PTE
  vaddrBreak : UInt64

/-- What a page loop does to one page: its new entry, and whether it is filled with zeros first. -/
structure PageOp where
  entry : PTE → PTE
  wipes : PTE → Bool := fun _ => false

/-- The body of a page loop at page number `p`. -/
def PageOp.page (op : PageOp) (p : Nat) (s : Machine) : Machine :=
  { s with
    mem := if op.wipes (s.p1 p) then s.mem.memset (4096 * p) 0 4096 else s.mem
    p1 := Function.update s.p1 p (op.entry (s.p1 p)) }

/-- `k` rounds of `{ body(start); start += PAGE_SIZE; }`. -/
def PageOp.loop (op : PageOp) : Nat → UInt64 → Machine → Machine
  | 0, _, s => s
  | k + 1, start, s => op.loop k (start + pageSize) (op.page (start.toNat / 4096) s)

/-- `while (start != end)`, after the two asserts. -/
def PageOp.run (op : PageOp) (start stop : UInt64) (s : Machine) : Option Machine :=
  if start % pageSize = 0 ∧ stop % pageSize = 0 then
    some (op.loop ((stop - start).toNat / 4096) start s)
  else none

/-! ### The page operations of the source -/

def setPageFlagsUserWritable : PageOp where
  entry p1 := clearPageFlags p1 ||| PTE.present ||| PTE.user ||| PTE.writable ||| PTE.noExecute

def setPageFlagsUserReadonly : PageOp where
  entry p1 := clearPageFlags p1 ||| PTE.present ||| PTE.user ||| PTE.noExecute

def setPageFlagsUserExecutable : PageOp where
  entry p1 := clearPageFlags p1 ||| PTE.present ||| PTE.user

def setPageFlagsKernel : PageOp where
  entry p1 := clearPageFlags p1 ||| PTE.present ||| PTE.writable

def addPageFlagsWritable : PageOp where
  entry p1 := p1 ||| PTE.writable

def addPageFlagsExecutable : PageOp where
  entry p1 := p1 &&& ~~~PTE.noExecute

def clearAccessAndDirtyFlags : PageOp where
  entry p1 := p1 &&& ~~~(PTE.accessed ||| PTE.dirty)

def setDuckWrittenByDirty : PageOp where
  entry p1 := if p1 &&& PTE.dirty ≠ 0 then p1 ||| PTE.duckWritten else p1

def setDuckWritten : PageOp where
  entry p1 := p1 ||| PTE.duckWritten

def clearDuckWrittenPages : PageOp where
  entry p1 := if p1 &&& PTE.duckWritten ≠ 0 then p1 &&& ~~~(PTE.dirty ||| PTE.duckWritten) else p1
  wipes p1 := p1 &&& PTE.duckWritten ≠ 0

/-- The number of pages in a range whose entries have a flag set. -/
def countPages (flag : PTE) : Nat → UInt64 → Machine → UInt64
  | 0, _, _ => 0
  | k + 1, start, s =>
    (if s.p1 (start.toNat / 4096) &&& flag ≠ 0 then 1 else 0)
      + countPages flag k (start + pageSize) s

def countDirtyPages (start stop : UInt64) (s : Machine) : UInt64 :=
  countPages PTE.dirty ((stop - start).toNat / 4096) start s

def countAccessedPages (start stop : UInt64) (s : Machine) : UInt64 :=
  countPages PTE.accessed ((stop - start).toNat / 4096) start s

/-! ### The virtual memory allocator

The kernel takes its own memory from the top of the user's address space, so the
address returned is at the same time the new `vaddr_break`.
-/

def allocateVirtualMemory (vaddrBreak size : UInt64) : Option UInt64 :=
  let size := roundUp size hugePageSize
  if vaddrBreak - kernelBreak < size then none else some (vaddrBreak - size)

def canAllocateVirtualMemory (vaddrBreak size : UInt64) : Bool :=
  let size := roundUp size hugePageSize
  vaddrBreak - kernelBreak ≥ size

/-! ### Huge pages

Physical memory in units of 2 MiB; the page tables come first, in the lowest of them.
-/

/-- `MAX_MEMORY_SIZE`, 511 GiB. -/
def maxMemorySize : UInt64 := (511 : UInt64) <<< 30

/-- `huge_page_map`, `n_huge_pages` and `page_table_break`. -/
structure HugePages where
  map : Nat → Bool
  n : UInt64
  pageTableBreak : UInt64

namespace HugePages

/-- The static variables before anything is registered. -/
def empty : HugePages := ⟨fun _ => false, 0, 0⟩

/-- `register_available_huge_page`; `none` is a failed assert. -/
def register (h : HugePages) (addr : UInt64) : Option HugePages :=
  if addr % hugePageSize ≠ 0 ∨ addr ≥ maxMemorySize then none
  else if addr < kernelBreak then some h
  else
    let pageNum := (addr / hugePageSize).toNat
    if h.map pageNum then some h
    else some { h with map := Function.update h.map pageNum true, n := h.n + 1 }

/-- `page_table_size` for `n` huge pages: reserved pages and the four levels of the tables. -/
def pageTableSize (n : UInt64) : UInt64 :=
  let size := pageSize * 4
  let size := size + n * pageSize
  let size := size + roundUp (n * 8) pageSize
  let size := size + pageSize * 2
  roundUp size hugePageSize

/-- The loop of `init_page_table_break` from index `i` on, with `k` rounds to go; the variable
keeps its value when the loop ends without `break`. -/
def breakLoop (map : Nat → Bool) (size pageTableBreak : UInt64) : Nat → Nat → UInt64 → UInt64
  | 0, _, _ => pageTableBreak
  | k + 1, i, curSize =>
    if map i then
      let curSize := curSize + hugePageSize
      if curSize ≥ size then UInt64.ofNat (i + 1) * hugePageSize
      else breakLoop map size pageTableBreak k (i + 1) curSize
    else breakLoop map size pageTableBreak k (i + 1) curSize

/-- `init_page_table_break`. -/
def initPageTableBreak (h : HugePages) : HugePages :=
  { h with
    pageTableBreak := breakLoop h.map (pageTableSize h.n) h.pageTableBreak h.n.toNat 0 0 }

end HugePages

end Memory

end JudgeDuck
