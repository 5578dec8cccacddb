/-
`user_lib/duck64_syscall_handler.cpp`: the system calls for memory.

`brk` moves the end of the heap, which starts behind the image of the program, and
`mmap` takes its blocks from a pool inside of the image.  No call checks a size, and
nothing is ever returned.
-/
import JudgeDuck.Base.Blocks

namespace JudgeDuck.DuckHeap

/-- What the linker and the kernel decide: the address of `__mmap_pool`, that of `_end`, and the
`AT_PAGESZ` entry. -/
structure Layout where
  mmapPool : UInt64
  endAddr : UInt64
  pageSize : UInt64

/-- `sizeof(__mmap_pool)`. -/
def poolSize : Nat := 10240 <<< 10

/-- The static variables. -/
structure State where
  inited : Bool
  heapBrk : UInt64
  mmapP : UInt64

/-- The static variables before the first call. -/
def State.start (l : Layout) : State := ⟨false, 0, l.mmapPool⟩

/-- The first page behind the image. -/
def heapStart (l : Layout) : UInt64 := (l.endAddr + l.pageSize - 1) / l.pageSize * l.pageSize

/-- `init`, the part for the heap. -/
def init (l : Layout) (s : State) : State := { s with inited := true, heapBrk := heapStart l }

/-- `duck_brk`. -/
def brk (addr : UInt64) (s : State) : UInt64 × State :=
  if addr = 0 then (s.heapBrk, s)
  else if addr > s.heapBrk then (addr, { s with heapBrk := addr })
  else (s.heapBrk, s)

/-- `duck_mmap_temp`. -/
def mmapTemp (size : UInt64) (s : State) : UInt64 × State :=
  let size := (size + 4095) &&& (-4096)
  (s.mmapP, { s with mmapP := s.mmapP + size })

/-- The calls of `__duck64__syscall_handler` for memory. -/
inductive Call where
  | brk (addr : UInt64)
  | mmap (size : UInt64)
deriving DecidableEq

/-- `__duck64__syscall_handler`. -/
def syscallHandler (l : Layout) (c : Call) (s : State) : UInt64 × State :=
  let s := if s.inited then s else init l s
  match c with
  | .brk addr => brk addr s
  | .mmap size => mmapTemp size s

end JudgeDuck.DuckHeap
