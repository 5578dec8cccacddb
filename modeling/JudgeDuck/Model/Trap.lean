/-
`kern/trap.cpp`: how a program is entered and left, and the timer that ends it.

A program runs until a trap.  The trap handler saves the registers of the program and
returns to `run_user_64` or `run_user_32`, which classify the trap.  Their output
variables belong to the caller, `ELF::run`, which has not initialised them.
-/
import JudgeDuck.Model.Judger

namespace JudgeDuck.Trap

def trapIrq : UInt8 := 32
def trapAbort : UInt8 := 253
def trapInvalidSyscall : UInt8 := 254
def trapSyscall : UInt8 := 255
def trapSyscall32 : UInt8 := 128

/-- `SYS_tkill` of `sys/syscall.h`. -/
def sysTkill : Int32 := 200

/-- `ABI::DUCK_sys_exit` and `ABI::DUCK_sys_exit_32`. -/
def duckSysExit : Int32 := 60
def duckSysExit32 : Int32 := 1

/-- The frame of a trap from user mode, with CR2; `num` is `tf_num`. -/
structure Trapframe where
  num : UInt64
  rax : UInt64
  rdi : UInt64
  rbx : UInt64
  tsc : UInt64
  rip : UInt64
  cr2 : UInt64

/-- The output parameters of `run_user_64` and `run_user_32`. -/
structure Outputs where
  tsc : UInt64
  trapNum : UInt8
  returnCode : Int32

/-- `(int)` of a register. -/
def int (reg : UInt64) : Int32 := reg.toUInt32.toInt32

/-- The `int` instruction and the handlers: `rax` is the number of the trap, and `tsc` is
`tf_run_user.tf_regs.tsc`. -/
def enter (tscToUser : UInt64) (tf : Trapframe) (out : Outputs) : Outputs :=
  { out with trapNum := tf.num.toUInt8, tsc := tf.tsc - tscToUser }

/-- `run_user_64`, for a program that is left with the frame `tf`. -/
def runUser64 (tscToUser : UInt64) (tf : Trapframe) (out : Outputs) : Outputs :=
  let out := enter tscToUser tf out
  if out.trapNum = trapSyscall then
    let syscallNum := int tf.rax
    if syscallNum = sysTkill then { out with trapNum := trapAbort }
    else if syscallNum ≠ duckSysExit then
      { out with trapNum := trapInvalidSyscall, returnCode := 0 }
    else { out with returnCode := int tf.rdi }
  else { out with returnCode := 0 }

/-- `run_user_32`. -/
def runUser32 (tscToUser : UInt64) (tf : Trapframe) (out : Outputs) : Outputs :=
  let out := enter tscToUser tf out
  if out.trapNum = trapSyscall32 then
    let out := { out with trapNum := trapSyscall }
    let syscallNum := int tf.rax
    if syscallNum ≠ duckSysExit32 then
      { out with trapNum := trapInvalidSyscall, returnCode := 0 }
    else { out with returnCode := int tf.rbx }
  else if out.trapNum = trapSyscall then
    { out with trapNum := trapInvalidSyscall, returnCode := 0 }
  else { out with returnCode := 0 }

/-- The call in `ELF::run`, by the class of the program. -/
def runUser (elfClass : Elf.ElfClass) (tscToUser : UInt64) (tf : Trapframe) (out : Outputs) :
    Outputs :=
  match elfClass with
  | .elf64 => runUser64 tscToUser tf out
  | .elf32 => runUser32 tscToUser tf out

/-- The performance counters after the run. -/
structure Counters where
  countInst : UInt64
  clkThread : UInt64
  clkRefTsc : UInt64

/-- `ELF::run` up to the counters; `uninit` is what is in `res` before. -/
def outcome (elfClass : Elf.ElfClass) (accesses : List Elf.Access) (counters : Counters)
    (tscToUser : UInt64) (tf : Trapframe) (uninit : Outputs) : Outcome :=
  let out := runUser elfClass tscToUser tf uninit
  { accesses
    countInst := counters.countInst
    clkThread := counters.clkThread
    clkRefTsc := counters.clkRefTsc
    timeTsc := out.tsc
    trapNum := out.trapNum
    returnCode := out.returnCode
    trapEpc := tf.rip
    trapCr2 := tf.cr2 }

end JudgeDuck.Trap
