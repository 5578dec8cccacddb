/-
`user_lib/duck64_syscall_handler.cpp` and `user_lib32/duck32_syscall_handler.cpp`: the
system calls for input and output.

A program has them linked in; they only move bytes between its buffers and the regions
that the loader has prepared.  The two versions are one text over words of 64 and 32
bits, and differ in what a truncated write returns.  A call is modelled by the copies it
makes, in order; the input is read-only for the program, and the buffers that it writes
from are given by their contents.
-/
import JudgeDuck.Base.Mem

namespace JudgeDuck.DuckSyscalls

variable {w : Nat}

/-- `DuckInfo_t`, the part that these calls use; `stdin` is what `stdin_ptr` points to. -/
structure DuckInfo (w : Nat) where
  stdin : Nat → UInt8
  stdinSize : BitVec w
  stdoutPtr : BitVec w
  stdoutLimit : BitVec w
  stdoutSize : BitVec w
  stderrPtr : BitVec w
  stderrLimit : BitVec w
  stderrSize : BitVec w

/-- `duckinfo` and the static variables. -/
structure State (w : Nat) where
  inited : Bool
  duckinfo : DuckInfo w
  stdoutMaxSize : BitVec w
  stderrMaxSize : BitVec w
  stdinCurrPos : BitVec w

/-- A `memcpy` to an address. -/
structure Store (w : Nat) where
  addr : BitVec w
  bytes : List UInt8
deriving DecidableEq

/-- What a call returns, the copies it makes and the state after it. -/
structure Result (w : Nat) where
  ret : BitVec w
  stores : List (Store w)
  state : State w

/-- `init`. -/
def init (s : State w) : State w :=
  { s with
    inited := true
    stdinCurrPos := 0
    stdoutMaxSize := s.duckinfo.stdoutLimit
    stderrMaxSize := s.duckinfo.stderrLimit
    duckinfo := { s.duckinfo with stdoutSize := 0, stderrSize := 0 } }

/-- The `n` bytes of an array from index `i` on. -/
def slice (a : Nat → UInt8) (i n : Nat) : List UInt8 := (List.range n).map fun k => a (i + k)

/-! ### Input -/

/-- `duck_read`. -/
def duckRead (fd : BitVec 32) (buf len : BitVec w) (s : State w) : Result w :=
  if fd = 0 then
    let availableLen := s.duckinfo.stdinSize - s.stdinCurrPos
    let actualLen := if len < availableLen then len else availableLen
    { ret := actualLen
      stores := [⟨buf, slice s.duckinfo.stdin s.stdinCurrPos.toNat actualLen.toNat⟩]
      state := { s with stdinCurrPos := s.stdinCurrPos + actualLen } }
  else ⟨0, [], s⟩

/-- `struct iovec`. -/
structure IoVec (w : Nat) where
  base : BitVec w
  len : BitVec w

/-- The loop of `duck_readv` over the remaining vectors. -/
def readvLoop (fd : BitVec 32) : List (IoVec w) → BitVec w → List (Store w) → State w → Result w
  | [], ret, stores, s => ⟨ret, stores, s⟩
  | v :: vs, ret, stores, s =>
    let r := duckRead fd v.base v.len s
    let ret := if r.ret ≤ v.len then ret + r.ret else ret
    if r.ret ≠ v.len then ⟨ret, stores ++ r.stores, r.state⟩
    else readvLoop fd vs ret (stores ++ r.stores) r.state

/-- The first `cnt` elements of an array; none if `cnt` is negative. -/
def vectors {α : Type} (iov : Nat → α) (cnt : BitVec 32) : List α :=
  (List.range cnt.toInt.toNat).map iov

/-- `duck_readv`. -/
def duckReadv (fd : BitVec 32) (iov : Nat → IoVec w) (cnt : BitVec 32) (s : State w) : Result w :=
  readvLoop fd (vectors iov cnt) 0 [] s

/-! ### Output -/

/-- `duck_write`; `result` is what it returns for the length and the length that was written. -/
def duckWrite (result : BitVec w → BitVec w → BitVec w) (fd : BitVec 32) (buf : Nat → UInt8)
    (len : BitVec w) (s : State w) : Result w :=
  if fd = 1 then
    let availableLen := s.stdoutMaxSize - s.duckinfo.stdoutSize
    let actualLen := if len < availableLen then len else availableLen
    { ret := result len actualLen
      stores := [⟨s.duckinfo.stdoutPtr + s.duckinfo.stdoutSize, slice buf 0 actualLen.toNat⟩]
      state := { s with
        duckinfo := { s.duckinfo with stdoutSize := s.duckinfo.stdoutSize + actualLen } } }
  else if fd = 2 then
    let availableLen := s.stderrMaxSize - s.duckinfo.stderrSize
    let actualLen := if len < availableLen then len else availableLen
    { ret := result len actualLen
      stores := [⟨s.duckinfo.stderrPtr + s.duckinfo.stderrSize, slice buf 0 actualLen.toNat⟩]
      state := { s with
        duckinfo := { s.duckinfo with stderrSize := s.duckinfo.stderrSize + actualLen } } }
  else ⟨0, [], s⟩

/-- A `struct iovec` with the contents of its buffer. -/
structure OutVec (w : Nat) where
  base : Nat → UInt8
  len : BitVec w

/-- The loop of `duck_writev`. -/
def writevLoop (result : BitVec w → BitVec w → BitVec w) (fd : BitVec 32) :
    List (OutVec w) → BitVec w → List (Store w) → State w → Result w
  | [], ret, stores, s => ⟨ret, stores, s⟩
  | v :: vs, ret, stores, s =>
    let r := duckWrite result fd v.base v.len s
    let ret := if r.ret ≤ v.len then ret + r.ret else ret
    if r.ret ≠ v.len then ⟨ret, stores ++ r.stores, r.state⟩
    else writevLoop result fd vs ret (stores ++ r.stores) r.state

/-- `duck_writev`. -/
def duckWritev (result : BitVec w → BitVec w → BitVec w) (fd : BitVec 32) (iov : Nat → OutVec w)
    (cnt : BitVec 32) (s : State w) : Result w :=
  writevLoop result fd (vectors iov cnt) 0 [] s

/-! ### The handlers -/

/-- The four system calls, with the arguments as they are passed. -/
inductive Syscall (w : Nat) where
  | read (a1 : BitVec w) (buf a3 : BitVec w)
  | readv (a1 : BitVec w) (iov : Nat → IoVec w) (a3 : BitVec w)
  | write (a1 : BitVec w) (buf : Nat → UInt8) (a3 : BitVec w)
  | writev (a1 : BitVec w) (iov : Nat → OutVec w) (a3 : BitVec w)

/-- `(int)` of an argument. -/
def int (a : BitVec w) : BitVec 32 := a.setWidth 32

/-- The common text of the handlers; the length of a read is an `int`, that of a write is not. -/
def syscallHandler (result : BitVec w → BitVec w → BitVec w) (c : Syscall w) (s : State w) :
    Result w :=
  let s := if s.inited then s else init s
  match c with
  | .read a1 buf a3 => duckRead (int a1) buf ((int a3).signExtend w) s
  | .readv a1 iov a3 => duckReadv (int a1) iov (int a3) s
  | .write a1 buf a3 => duckWrite result (int a1) buf a3 s
  | .writev a1 iov a3 => duckWritev result (int a1) iov (int a3) s

/-- `__duck64__syscall_handler`: output is truncated silently. -/
def duck64SyscallHandler : Syscall 64 → State 64 → Result 64 := syscallHandler fun len _ => len

/-- `__duck32__syscall_handler`: a truncated write is a short write. -/
def duck32SyscallHandler : Syscall 32 → State 32 → Result 32 :=
  syscallHandler fun _ actualLen => actualLen

/-- The state after some calls. -/
def run (handler : Syscall w → State w → Result w) : List (Syscall w) → State w → State w
  | [], s => s
  | c :: cs, s => run handler cs (handler c s).state

/-- Every call of a run has the property, in the state in which it is made. -/
def AllCalls (handler : Syscall w → State w → Result w) (P : Syscall w → State w → Prop) :
    List (Syscall w) → State w → Prop
  | [], _ => True
  | c :: cs, s => P c s ∧ AllCalls handler P cs (handler c s).state

end JudgeDuck.DuckSyscalls
