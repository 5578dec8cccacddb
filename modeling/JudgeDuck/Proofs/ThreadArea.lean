/-
`set_thread_area` and the kernel's own memory.

The two ends of the descriptor lie in the same page or in two pages side by side, so
looking at both ends is looking at every page.  What is put into the table has fixed
flags, and only the base and the limit come from the program.
-/
import JudgeDuck.Base.Segment
import JudgeDuck.Model.ThreadArea
import JudgeDuck.Proofs.Elf.Flags
import JudgeDuck.Proofs.Rounding

namespace JudgeDuck

namespace Memory

/-- An address of the program, in a page that it may write. -/
structure UserWritable (s : Machine) (x : Nat) : Prop where
  low : kernelBreak.toNat ≤ x
  high : x < s.vaddrBreak.toNat
  user : (s.p1 (x / 4096))[2] = true
  writable : (s.p1 (x / 4096))[1] = true

variable {s : Machine} {addr : UInt64} {x : Nat}

/-- With the present bit, which every page of a program has, the processor allows the write. -/
theorem UserWritable.userWritable (h : UserWritable s x)
    (hpresent : ∀ p, UserPresent (s.p1 p)) :
    Elf.userWritable (s.p1 (x / 4096)) = true := by
  rw [Elf.userWritable_iff]
  exact ⟨⟨hpresent _ h.user, h.user⟩, h.writable⟩

theorem userWritableCheck_iff : userWritableCheck s addr = true ↔ UserWritable s addr.toNat := by
  unfold userWritableCheck
  dsimp only
  by_cases hlow : addr < kernelBreak
  · rw [if_pos hlow]
    rw [UInt64.lt_iff_toNat_lt] at hlow
    exact ⟨fun h => (Bool.false_ne_true h).elim, fun h => by have := h.low; omega⟩
  · rw [if_neg hlow]
    by_cases hhigh : addr ≥ s.vaddrBreak
    · rw [if_pos hhigh]
      rw [ge_iff_le, UInt64.le_iff_toNat_le] at hhigh
      exact ⟨fun h => (Bool.false_ne_true h).elim, fun h => by have := h.high; omega⟩
    · rw [if_neg hhigh]
      rw [UInt64.not_lt, UInt64.le_iff_toNat_le] at hlow
      rw [ge_iff_le, UInt64.not_le, UInt64.lt_iff_toNat_lt] at hhigh
      by_cases hflags : s.p1 (addr.toNat / 4096) &&& (PTE.user ||| PTE.writable)
          = PTE.user ||| PTE.writable
      · rw [if_neg (not_not_intro hflags)]
        obtain ⟨huser, hwritable⟩ := (and_user_writable _).mp hflags
        exact ⟨fun _ => ⟨hlow, hhigh, huser, hwritable⟩, fun _ => rfl⟩
      · rw [if_pos hflags]
        exact ⟨fun h => (Bool.false_ne_true h).elim,
          fun h => (hflags ((and_user_writable _).mpr ⟨h.user, h.writable⟩)).elim⟩

/-- Between two addresses less than a page apart there is no third page. -/
theorem UserWritable.between {y z : Nat} (hx : UserWritable s x) (hz : UserWritable s z)
    (hxy : x ≤ y) (hyz : y ≤ z) (hspan : z < x + 4096) : UserWritable s y := by
  have hlow := hx.low
  have hhigh := hz.high
  have hpage : y / 4096 = x / 4096 ∨ y / 4096 = z / 4096 := by omega
  refine ⟨by omega, by omega, ?_, ?_⟩
  · rcases hpage with h | h <;> rw [h]
    · exact hx.user
    · exact hz.user
  · rcases hpage with h | h <;> rw [h]
    · exact hx.writable
    · exact hz.writable

end Memory

namespace Trap

open Memory

variable {origRsp : UInt64} {tf : Frame32} {k : Kernel} {h : Handled}

/-! ### The descriptor -/

/-- The pointer, of which only 32 bits count. -/
def pointer (tf : Frame32) : Nat := tf.rbx.toUInt32.toNat

/-- What the program has put at the pointer. -/
def userDesc (tf : Frame32) (k : Kernel) : UserDesc :=
  readUserDesc k.machine.mem tf.rbx.toUInt32.toUInt64

/-- The fields stand in the word where the processor reads them. -/
theorem tlsDescriptor_word (desc : UserDesc) : (tlsDescriptor desc).toNat
    = Segment.word (desc.limit.toNat % 2 ^ 16) desc.baseAddr.toNat (0xcf92 + 3 * 32) := by
  have hlimit : (desc.limit &&& 0xffff).toUInt64.toNat = desc.limit.toNat % 2 ^ 16 := by
    rw [UInt32.toNat_toUInt64, UInt32.toNat_and]
    exact Nat.and_two_pow_sub_one_eq_mod _ 16
  have hbase : desc.baseAddr.toUInt64.toNat = desc.baseAddr.toNat := UInt32.toNat_toUInt64 _
  have hshift : (desc.baseAddr >>> (24 : UInt32)).toUInt64
      = desc.baseAddr.toUInt64 >>> (24 : UInt64) := by
    rw [← UInt64.toNat_inj, UInt32.toNat_toUInt64, UInt32.toNat_shiftRight, UInt64.toNat_shiftRight,
      UInt32.toNat_toUInt64]
    rfl
  have hflags : (0x00cff20000000000 : UInt64).toNat = (0xcf92 + 3 * 32) * 2 ^ 40 := by decide
  have hlow : (desc.limit &&& 0xffff).toUInt64.toNat < 2 ^ 16 := by
    rw [hlimit]
    omega
  have hlt : desc.baseAddr.toUInt64.toNat < 2 ^ 32 := by
    rw [hbase]
    exact desc.baseAddr.toNat_lt
  have hword := Segment.toNat_or_word hlow hlt (by decide) hflags
  rw [hlimit, hbase] at hword
  rw [tlsDescriptor, hshift]
  exact hword

/-! ### What the handler leaves -/

/-- The memory and every slot but that of the return path are as before. -/
structure Refused (k : Kernel) (h : Handled) : Prop where
  machine : h.kernel.machine = k.machine
  gdt : ∀ i, i ≠ espfixSs → h.kernel.gdt i = k.gdt i

/-- The slot of the program holds its segment, and its descriptor the number of the slot. -/
structure Installed (tf : Frame32) (k : Kernel) (h : Handled) : Prop where
  gdt : ∀ i, i ≠ user32Tls → i ≠ espfixSs → h.kernel.gdt i = k.gdt i
  segment : Segment.DataSegment 3 (h.kernel.gdt user32Tls)
  base : Segment.base (h.kernel.gdt user32Tls) = (userDesc tf k).baseAddr.toNat
  limit : Segment.limit (h.kernel.gdt user32Tls) % 2 ^ 16 = (userDesc tf k).limit.toNat % 2 ^ 16
  entryNumber : (readUserDesc h.kernel.machine.mem tf.rbx.toUInt32.toUInt64).entryNumber = 7
  mem : ∀ x, x < pointer tf ∨ pointer tf + 4 ≤ x → h.kernel.machine.mem x = k.machine.mem x
  p1 : h.kernel.machine.p1 = k.machine.p1
  vaddrBreak : h.kernel.machine.vaddrBreak = k.machine.vaddrBreak

/-- The parts of the descriptor that are read or written. -/
structure Touches (tf : Frame32) (k : Kernel) (h : Handled) : Prop where
  within : ∀ b ∈ h.accesses, b.Within (pointer tf) (pointer tf + 13)
  writable : h.accesses ≠ [] → ∀ x, pointer tf ≤ x → x < pointer tf + 13 → UserWritable k.machine x

theorem prepareEspfix_machine (origRsp newRsp : UInt64) (k : Kernel) :
    (prepareEspfix origRsp newRsp k).machine = k.machine := rfl

theorem prepareEspfix_gdt {newRsp : UInt64} {i : Fin 12} (hi : i ≠ espfixSs) :
    (prepareEspfix origRsp newRsp k).gdt i = k.gdt i :=
  Function.update_of_ne hi _ _

theorem Refused.mk' {ret : UInt64} {accesses : List Block} :
    Refused k ⟨{ tf with rax := ret, ss := gdtUser32Ss ||| 3 }, prepareEspfix origRsp tf.rsp k,
      accesses⟩ :=
  ⟨rfl, fun _ hi => prepareEspfix_gdt hi⟩

/-- The last byte of the descriptor. -/
theorem toNat_last (tf : Frame32) :
    (tf.rbx.toUInt32.toUInt64 + userDescSize - 1).toNat = pointer tf + 12 := by
  have hlt := tf.rbx.toUInt32.toNat_lt
  have hsize : userDescSize.toNat = 13 := rfl
  rw [UInt64.toNat_sub, UInt64.toNat_add, UInt32.toNat_toUInt64, hsize, UInt64.toNat_one, pointer]
  omega

/-- The two checks together. -/
theorem userWritable_desc (hfirst : userWritableCheck k.machine tf.rbx.toUInt32.toUInt64 = true)
    (hlast : userWritableCheck k.machine (tf.rbx.toUInt32.toUInt64 + userDescSize - 1) = true) :
    ∀ x, pointer tf ≤ x → x < pointer tf + 13 → UserWritable k.machine x := by
  intro x hlow hhigh
  rw [userWritableCheck_iff, UInt32.toNat_toUInt64] at hfirst
  rw [userWritableCheck_iff, toNat_last] at hlast
  exact hfirst.between hlast hlow (by omega) (by unfold pointer; omega)

/-- Every way through the handler. -/
theorem setThreadArea_cases (origRsp : UInt64) (tf : Frame32) (k : Kernel) :
    let h := setThreadArea origRsp tf k
    Touches tf k h ∧
      (h.frame.rax ≠ 0 ∧ Refused k h ∨ h.frame.rax = 0 ∧ Installed tf k h) := by
  have hefault : negEfault ≠ 0 := by decide
  have heinval : negEinval ≠ 0 := by decide
  have hnone : Touches tf k ⟨{ tf with rax := negEfault, ss := gdtUser32Ss ||| 3 },
      prepareEspfix origRsp tf.rsp k, []⟩ :=
    ⟨fun b hb => (List.not_mem_nil hb).elim, fun hne => (hne rfl).elim⟩
  unfold setThreadArea
  dsimp only
  rw [prepareEspfix_machine]
  by_cases hfirst : userWritableCheck k.machine tf.rbx.toUInt32.toUInt64 = true
  · rw [if_neg (by rw [hfirst]; decide)]
    by_cases hlast : userWritableCheck k.machine (tf.rbx.toUInt32.toUInt64 + userDescSize - 1)
      = true
    · rw [if_neg (by rw [hlast]; decide)]
      have hwritable := userWritable_desc hfirst hlast
      have hstart : tf.rbx.toUInt32.toUInt64.toNat = pointer tf := UInt32.toNat_toUInt64 _
      by_cases hentry : (readUserDesc k.machine.mem tf.rbx.toUInt32.toUInt64).entryNumber ≠ -1 ∧
          (readUserDesc k.machine.mem tf.rbx.toUInt32.toUInt64).entryNumber ≠ 7
      · rw [if_pos hentry]
        refine ⟨⟨?_, fun _ => hwritable⟩, .inl ⟨heinval, Refused.mk'⟩⟩
        intro b hb
        rw [List.mem_singleton.mp hb, hstart]
        exact ⟨Nat.le_refl _, Nat.add_le_add_left (by decide : 4 ≤ 13) _⟩
      · rw [if_neg hentry]
        have htls := tlsDescriptor_word (userDesc tf k)
        refine ⟨⟨?_, fun _ => hwritable⟩, .inr ⟨rfl, ?_⟩⟩
        · rw [hstart]
          simp only [List.forall_mem_cons, Block.Within]
          exact ⟨by omega, by omega, by omega, by omega, fun b hb => (List.not_mem_nil hb).elim⟩
        · constructor
          · intro i htls hespfix
            exact (Function.update_of_ne htls _ _).trans (prepareEspfix_gdt hespfix)
          · dsimp only
            rw [Function.update_self]
            exact Segment.dataSegment_word htls (Nat.mod_lt _ (by decide)) (by decide)
          · dsimp only
            rw [Function.update_self]
            exact Segment.base_word htls (Nat.mod_lt _ (by decide)) (UInt32.toNat_lt _) (by decide)
          · dsimp only
            rw [Function.update_self]
            exact Segment.limit_word htls (Nat.mod_lt _ (by decide)) (by decide)
          · exact Mem.read32_write32_self _ _ _
          · intro x hx
            exact Mem.write32_out (by rw [hstart]; exact hx)
          · rfl
          · rfl
    · rw [if_pos (by rw [Bool.eq_false_iff.mpr hlast]; decide)]
      exact ⟨hnone, .inl ⟨hefault, Refused.mk'⟩⟩
  · rw [if_pos (by rw [Bool.eq_false_iff.mpr hfirst]; decide)]
    exact ⟨hnone, .inl ⟨hefault, Refused.mk'⟩⟩

/-- The handler reads and writes the descriptor only where the program may, and either changes
nothing of the program's, or installs a data segment for ring 3 and writes the number
of its slot. -/
theorem trap0x80Handler_guarded (hh : trap0x80Handler origRsp tf k = some h) :
    Touches tf k h ∧ (h.frame.rax ≠ 0 ∧ Refused k h ∨ h.frame.rax = 0 ∧ Installed tf k h) := by
  unfold trap0x80Handler at hh
  split at hh
  · cases hh
    exact setThreadArea_cases origRsp tf k
  · cases hh

/-- A machine whose pages all belong to the program, with a descriptor that crosses a page. -/
def straddling : Kernel :=
  ⟨⟨fun x => if x < 4198398 then 255 else 0, fun _ => 7, 8388608⟩, fun _ => 0, 0⟩

theorem trap0x80Handler_guarded_straddling :
    let tf : Frame32 := ⟨243, 4198394, 0, 0⟩
    let h := setThreadArea 1000000 tf straddling
    Touches tf straddling h ∧
      (h.frame.rax ≠ 0 ∧ Refused straddling h ∨ h.frame.rax = 0 ∧ Installed tf straddling h) :=
  trap0x80Handler_guarded (if_pos (by decide))

example : (setThreadArea 1000000 ⟨243, 4198394, 0, 0⟩ straddling).frame.rax = 0 := by decide +kernel

/-! ### The stack segment of the return -/

/-- The base that `prepare_espfix` computes. -/
def espfixBase (origRsp newRsp : UInt64) : UInt64 :=
  (((origRsp >>> (16 : UInt64)) - (newRsp >>> (16 : UInt64))) <<< (16 : UInt64)).toUInt32.toUInt64

/-- What the return path finds: a segment of the kernel over 4 GiB, in which the new stack pointer
reaches the frame, and the upper half of that pointer is the program's. -/
structure Espfix (origRsp newRsp : UInt64) (k k' : Kernel) : Prop where
  machine : k'.machine = k.machine
  gdt : ∀ i, i ≠ espfixSs → k'.gdt i = k.gdt i
  segment : Segment.DataSegment 0 (k'.gdt espfixSs)
  limit : Segment.limit (k'.gdt espfixSs) = 0xfffff
  congruent : Segment.base (k'.gdt espfixSs) + k'.espfixNewKernelRsp.toNat ≡ origRsp.toNat
    [MOD 2 ^ 32]
  frame : ∀ i, origRsp.toNat + i < 2 ^ 32 →
    Segment.linear (k'.gdt espfixSs) (k'.espfixNewKernelRsp.toNat + i) = origRsp.toNat + i
  noLeak : k'.espfixNewKernelRsp.toNat / 2 ^ 16 % 2 ^ 16 = newRsp.toNat / 2 ^ 16 % 2 ^ 16

section

variable (origRsp newRsp : UInt64)

theorem espfixBase_lt : (espfixBase origRsp newRsp).toNat < 2 ^ 32 := by
  rw [espfixBase, UInt32.toNat_toUInt64]
  exact UInt32.toNat_lt _

/-- The difference may be negative; modulo 2^32 the base takes one upper half to the other. -/
theorem espfixBase_add :
    ((espfixBase origRsp newRsp).toNat + newRsp.toNat / 2 ^ 16 * 2 ^ 16) % 2 ^ 32
    = origRsp.toNat / 2 ^ 16 * 2 ^ 16 % 2 ^ 32 := by
  have h16 : (16 : UInt64).toNat % 64 = 16 := rfl
  have horig := origRsp.toNat_lt
  have hnew := newRsp.toNat_lt
  rw [espfixBase, UInt32.toNat_toUInt64, UInt64.toNat_toUInt32, UInt64.toNat_shiftLeft, h16,
    UInt64.toNat_sub, UInt64.toNat_shiftRight, UInt64.toNat_shiftRight, h16, Nat.shiftLeft_eq,
    Nat.shiftRight_eq_div_pow, Nat.shiftRight_eq_div_pow]
  omega

/-- The pointer of the return path is the old one without the base. -/
theorem espfixNewKernelRsp_add (k : Kernel) :
    ((espfixBase origRsp newRsp).toNat + (prepareEspfix origRsp newRsp k).espfixNewKernelRsp.toNat)
      % 2 ^ 32 = origRsp.toNat % 2 ^ 32 := by
  have hrsp : (prepareEspfix origRsp newRsp k).espfixNewKernelRsp
      = (origRsp - espfixBase origRsp newRsp).toUInt32.toUInt64 := rfl
  have hbase := espfixBase_lt origRsp newRsp
  have horig := origRsp.toNat_lt
  rw [hrsp, UInt32.toNat_toUInt64, UInt64.toNat_toUInt32, UInt64.toNat_sub]
  omega

/-- The descriptor of the return path, with the base in its two fields. -/
theorem espfixDescriptor_word (k : Kernel) :
    ((prepareEspfix origRsp newRsp k).gdt espfixSs).toNat
      = Segment.word 0xffff (espfixBase origRsp newRsp).toNat (0xcf92 + 0 * 32) := by
  have hslot : (prepareEspfix origRsp newRsp k).gdt espfixSs
      = 0xffff ||| (espfixBase origRsp newRsp &&& 0xffffff) <<< (16 : UInt64)
        ||| (espfixBase origRsp newRsp >>> (24 : UInt64)) <<< (56 : UInt64)
        ||| 0x00cf920000000000 := by
    rw [prepareEspfix]
    dsimp only
    rw [Function.update_self]
    rfl
  rw [hslot]
  exact Segment.toNat_or_word (by decide) (espfixBase_lt origRsp newRsp) (by decide) (by decide)

/-- The return path reads its frame where the handler left it, and a 16-bit stack segment of the
program sees its own upper half. -/
theorem prepareEspfix_exact (h : origRsp.toNat < 2 ^ 32) (k : Kernel) :
    Espfix origRsp newRsp k (prepareEspfix origRsp newRsp k) := by
  have hword := espfixDescriptor_word origRsp newRsp k
  have hbase := Segment.base_word hword (by decide) (espfixBase_lt origRsp newRsp) (by decide)
  have hhalf := espfixBase_add origRsp newRsp
  have hsum := espfixNewKernelRsp_add origRsp newRsp k
  constructor
  · exact prepareEspfix_machine origRsp newRsp k
  · exact fun i hi => prepareEspfix_gdt hi
  · exact Segment.dataSegment_word hword (by decide) (by decide)
  · exact Segment.limit_word_eq hword (by decide) (by decide)
  · rw [hbase]
    exact hsum
  · intro i hi
    rw [Segment.linear, hbase]
    omega
  · omega

/-- A pointer of the program whose upper half is larger than that of the kernel's. -/
theorem prepareEspfix_exact_borrow : Espfix 0x123ff8 0xdeadbeef ⟨⟨fun _ => 0, fun _ => 0, 0⟩,
    fun _ => 0, 0⟩
    (prepareEspfix 0x123ff8 0xdeadbeef ⟨⟨fun _ => 0, fun _ => 0, 0⟩, fun _ => 0, 0⟩) :=
  prepareEspfix_exact 0x123ff8 0xdeadbeef (by decide) _

end

end Trap

end JudgeDuck
