/-
`kern/trap.cpp`: `set_thread_area`, the one system call of 32-bit programs that does not
end them.

The descriptor lies in the memory of the program, which hands over a pointer to it.
The return to the program loads a stack segment with a base of its own, so that the upper
half of the stack pointer is not the kernel's.
-/
import JudgeDuck.Base.Blocks
import JudgeDuck.Model.Trap

namespace JudgeDuck

namespace Memory

/-- `user_writable_check`. -/
def userWritableCheck (s : Machine) (addr : UInt64) : Bool :=
  if addr < kernelBreak then false
  else if addr ≥ s.vaddrBreak then false
  else
    let flags := PTE.user ||| PTE.writable
    if s.p1 (addr.toNat / 4096) &&& flags ≠ flags then false else true

end Memory

namespace Trap

open Memory

/-- `ABI::DUCK_sys_set_thread_area`. -/
def duckSysSetThreadArea : Int32 := 243

/-- `-EFAULT` and `-EINVAL`. -/
def negEfault : UInt64 := -14
def negEinval : UInt64 := -22

/-- `GDT_USER32_SS`. -/
def gdtUser32Ss : UInt64 := 48

/-- The indices `GDT_USER32_TLS >> 3` and `GDT_ESPFIX_SS >> 3`. -/
def user32Tls : Fin 12 := 7
def espfixSs : Fin 12 := 8

/-- The machine and the static variables that these functions write. -/
structure Kernel where
  machine : Machine
  gdt : Fin 12 → UInt64
  espfixNewKernelRsp : UInt64

/-- The parts of the trap frame that these functions use. -/
structure Frame32 where
  rax : UInt64
  rbx : UInt64
  rsp : UInt64
  ss : UInt64

/-- `prepare_espfix`. -/
def prepareEspfix (origRsp newRsp : UInt64) (k : Kernel) : Kernel :=
  let baseAddr := ((origRsp >>> (16 : UInt64)) - (newRsp >>> (16 : UInt64))) <<< (16 : UInt64)
  let baseAddr := baseAddr.toUInt32.toUInt64
  let tmp : UInt64 := 0xffff
  let tmp := tmp ||| (baseAddr &&& 0xffffff) <<< (16 : UInt64)
  let tmp := tmp ||| (baseAddr >>> (24 : UInt64)) <<< (56 : UInt64)
  let tmp := tmp ||| 0x00cf920000000000
  { k with
    gdt := Function.update k.gdt espfixSs tmp
    espfixNewKernelRsp := (origRsp - baseAddr).toUInt32.toUInt64 }

/-- `sizeof(user_desc)`: three words and a byte of flags. -/
def userDescSize : UInt64 := 13

/-- The parts of a `user_desc` that are read. -/
structure UserDesc where
  entryNumber : UInt32
  baseAddr : UInt32
  limit : UInt32

def readUserDesc (m : Mem) (addr : UInt64) : UserDesc where
  entryNumber := m.read32 addr.toNat
  baseAddr := m.read32 (addr.toNat + 4)
  limit := m.read32 (addr.toNat + 8)

/-- The word for the slot of the program. -/
def tlsDescriptor (desc : UserDesc) : UInt64 :=
  let tmp := (desc.limit &&& 0xffff).toUInt64
  let tmp := tmp ||| (desc.baseAddr.toUInt64 &&& 0xffffff) <<< (16 : UInt64)
  let tmp := tmp ||| (desc.baseAddr >>> (24 : UInt32)).toUInt64 <<< (56 : UInt64)
  tmp ||| 0x00cff20000000000

/-- What the handler leaves; `accesses` are the fields of the descriptor that it reads or writes, by
address and length. -/
structure Handled where
  frame : Frame32
  kernel : Kernel
  accesses : List Block

/-- The branch for `set_thread_area`; `origRsp` is the address of `tf_rip` in the frame. -/
def setThreadArea (origRsp : UInt64) (tf : Frame32) (k : Kernel) : Handled :=
  let rbx := tf.rbx.toUInt32.toUInt64
  let k := prepareEspfix origRsp tf.rsp k
  let leave (ret : UInt64) (k : Kernel) (accesses : List Block) : Handled :=
    ⟨{ tf with rax := ret, ss := gdtUser32Ss ||| 3 }, k, accesses⟩
  if !userWritableCheck k.machine rbx then leave negEfault k []
  else if !userWritableCheck k.machine (rbx + userDescSize - 1) then leave negEfault k []
  else
    let desc := readUserDesc k.machine.mem rbx
    let entryNumber : Block := ⟨rbx.toNat, 4⟩
    if desc.entryNumber ≠ -1 ∧ desc.entryNumber ≠ 7 then leave negEinval k [entryNumber]
    else
      let mem := k.machine.mem.write32 rbx.toNat 7
      leave 0
        { k with
          gdt := Function.update k.gdt user32Tls (tlsDescriptor desc)
          machine := { k.machine with mem } }
        [entryNumber, ⟨rbx.toNat + 8, 4⟩, ⟨rbx.toNat + 4, 4⟩, entryNumber]

/-- `trap_0x80_handler`; `none` hands the frame over to `trap_handler`, which ends the program. -/
def trap0x80Handler (origRsp : UInt64) (tf : Frame32) (k : Kernel) : Option Handled :=
  if int tf.rax = duckSysSetThreadArea then some (setThreadArea origRsp tf k) else none

end Trap

end JudgeDuck
