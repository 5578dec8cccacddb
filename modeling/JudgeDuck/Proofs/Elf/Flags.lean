/-
The flags of a page entry, bit by bit.

Three questions about an entry matter: may the user read or write the page (bits 0
to 2), did the processor see a write (bit 6), and may the page be nonzero (bit 9,
`PTE_DUCK_WRITTEN`).  `clear_page_flags` keeps bit 9, so every flag rewrite does;
only `set_duck_written` and the sweep by the dirty bit set it, and only
`clear_duck_written_pages` clears it.
-/
import JudgeDuck.Proofs.Elf.Ranges

namespace JudgeDuck

namespace Memory

/-! ### Single flags -/

theorem and_flag_ne_zero (a : PTE) {k : Nat} (hk : k < 64) : a &&& 1#64 <<< k ≠ 0 ↔
    a[k] = true := by
  have h : a &&& 1#64 <<< k = if a.getLsbD k then BitVec.twoPow 64 k else 0#64 :=
    BitVec.and_twoPow a k
  have hne : BitVec.twoPow 64 k ≠ 0#64 := by
    intro hc
    have hb : (BitVec.twoPow 64 k).getLsbD k = true := by simp [hk]
    rw [hc] at hb
    simp at hb
  rw [h, BitVec.getLsbD_eq_getElem hk]
  cases hb : a[k] with
  | true => simp [hne]
  | false => simp

theorem and_dirty (a : PTE) : a &&& PTE.dirty ≠ 0 ↔ a[6] = true := and_flag_ne_zero a (by decide)

theorem and_duckWritten (a : PTE) : a &&& PTE.duckWritten ≠ 0 ↔ a[9] = true :=
  and_flag_ne_zero a (by decide)

/-- The processor has seen a write to the page. -/
def isDirty (a : PTE) : Bool := a &&& PTE.dirty ≠ 0

/-- The page may be nonzero. -/
def isDuckWritten (a : PTE) : Bool := a &&& PTE.duckWritten ≠ 0

theorem isDirty_eq (a : PTE) : isDirty a = a[6] := by
  rw [Bool.eq_iff_iff, isDirty, decide_eq_true_iff, and_dirty]

theorem isDuckWritten_eq (a : PTE) : isDuckWritten a = a[9] := by
  rw [Bool.eq_iff_iff, isDuckWritten, decide_eq_true_iff, and_duckWritten]

/-- The bits that are available for the OS stay. -/
@[simp] theorem getElem_clearPageFlags (a : PTE) {i : Nat} (h : i < 64) :
    (clearPageFlags a)[i] = (decide (9 ≤ i ∧ i < 63) && a[i]) := by
  unfold clearPageFlags
  rw [BitVec.getElem_shiftLeft]
  by_cases hi : 9 ≤ i ∧ i < 63
  · have h1 : ¬ i < 9 := by omega
    have h3 : 10 + (i - 9) < 64 := by omega
    have h4 : 10 + (i - 9) - 1 = i := by omega
    simp [hi, h1, h3, h4]
  · by_cases h9 : i < 9
    · simp [hi, h9]
    · have h3 : ¬ 10 + (i - 9) < 64 := by omega
      simp [hi, h3]

end Memory

namespace Elf

open Memory

theorem userReadable_iff (a : PTE) : userReadable a = true ↔ a[0] = true ∧ a[2] = true := by
  rw [userReadable, decide_eq_true_iff]
  exact and_congr (and_flag_ne_zero a (by decide)) (and_flag_ne_zero a (by decide))

theorem userWritable_iff (a : PTE) :
    userWritable a = true ↔ (a[0] = true ∧ a[2] = true) ∧ a[1] = true := by
  rw [userWritable, decide_eq_true_iff]
  exact and_congr (userReadable_iff a) (and_flag_ne_zero a (by decide))

theorem and_user (a : PTE) : a &&& PTE.user ≠ 0 ↔ a[2] = true := and_flag_ne_zero a (by decide)

theorem and_noExecute (a : PTE) : a &&& PTE.noExecute ≠ 0 ↔ a[63] = true :=
  and_flag_ne_zero a (by decide)

/-- Nobody can write to the page in user mode. -/
def NotWritable (a : PTE) : Prop := a[1] = false

/-- Nobody can execute the page in user mode. -/
def NoUserCode (a : PTE) : Prop := a[2] = true → a[63] = true

theorem not_userWritable_of_not_writable {a : PTE} (h : NotWritable a) :
    userWritable a = false := by
  rw [← Bool.not_eq_true, userWritable_iff]
  simp [show a[1] = false from h]

end Elf

namespace Memory

open Elf

theorem and_user_writable (a : PTE) :
    a &&& (PTE.user ||| PTE.writable) = PTE.user ||| PTE.writable ↔ a[2] = true ∧ a[1] = true := by
  have huser : PTE.user = BitVec.twoPow 64 2 := by decide
  have hwritable : PTE.writable = BitVec.twoPow 64 1 := by decide
  rw [BitVec.eq_of_getElem_eq_iff]
  refine ⟨fun h => ?_, fun ⟨h2, h1⟩ i hi => ?_⟩
  · have h2 := h 2 (by decide)
    have h1 := h 1 (by decide)
    rw [huser, hwritable] at h1 h2
    simp only [BitVec.getElem_and, BitVec.getElem_or, BitVec.getElem_twoPow] at h1 h2
    simp at h1 h2
    exact ⟨h2, h1⟩
  · rw [huser, hwritable]
    simp only [BitVec.getElem_and, BitVec.getElem_or, BitVec.getElem_twoPow]
    by_cases hi2 : i = 2
    · simp [hi2, h2]
    · by_cases hi1 : i = 1
      · simp [hi1, h1]
      · simp [hi1, hi2]

/-! ### What the operations do to the flags -/

/-- The operation never clears bit 9, and fills no page with zeros. -/
structure PageOp.Keeps (op : PageOp) : Prop where
  duckWritten : ∀ a : PTE, a[9] = true → (op.entry a)[9] = true
  noWipe : ∀ a : PTE, op.wipes a = false

theorem setPageFlagsUserWritable_duckWritten (a : PTE) :
    (setPageFlagsUserWritable.entry a)[9] = a[9] := by
  simp [setPageFlagsUserWritable, PTE.present, PTE.user, PTE.writable, PTE.noExecute]

theorem setPageFlagsKernel_duckWritten (a : PTE) : (setPageFlagsKernel.entry a)[9] = a[9] := by
  simp [setPageFlagsKernel, PTE.present, PTE.writable]

theorem setPageFlagsKernel_not_userReadable (a : PTE) :
    userReadable (setPageFlagsKernel.entry a) = false := by
  rw [← Bool.not_eq_true, userReadable_iff]
  simp [setPageFlagsKernel, PTE.present, PTE.writable]

theorem setPageFlagsUserReadonly_not_userWritable (a : PTE) :
    userWritable (setPageFlagsUserReadonly.entry a) = false := by
  rw [← Bool.not_eq_true, userWritable_iff]
  simp [setPageFlagsUserReadonly, PTE.present, PTE.user, PTE.noExecute]

theorem setPageFlagsUserReadonly_notWritable (a : PTE) :
    NotWritable (setPageFlagsUserReadonly.entry a) := by
  simp [NotWritable, setPageFlagsUserReadonly, PTE.present, PTE.user, PTE.noExecute]

theorem setPageFlagsUserReadonly_keeps : setPageFlagsUserReadonly.Keeps where
  duckWritten a h := by
    simp [setPageFlagsUserReadonly, PTE.present, PTE.user, PTE.noExecute, h]
  noWipe _ := rfl

theorem addPageFlagsWritable_keeps : addPageFlagsWritable.Keeps where
  duckWritten a h := by simp [addPageFlagsWritable, h]
  noWipe _ := rfl

theorem addPageFlagsExecutable_keeps : addPageFlagsExecutable.Keeps where
  duckWritten a h := by simp [addPageFlagsExecutable, PTE.noExecute, h]
  noWipe _ := rfl

theorem clearAccessAndDirtyFlags_keeps : clearAccessAndDirtyFlags.Keeps where
  duckWritten a h := by simp [clearAccessAndDirtyFlags, PTE.accessed, PTE.dirty, h]
  noWipe _ := rfl

theorem setDuckWritten_keeps : setDuckWritten.Keeps where
  duckWritten a h := by simp [setDuckWritten, h]
  noWipe _ := rfl

theorem setDuckWritten_duckWritten (a : PTE) : (setDuckWritten.entry a)[9] = true := by
  simp [setDuckWritten, PTE.duckWritten]

theorem setDuckWrittenByDirty_duckWritten (a : PTE) :
    (setDuckWrittenByDirty.entry a)[9] = (a[9] || a[6]) := by
  simp only [setDuckWrittenByDirty]
  split
  · rename_i hd
    rw [and_dirty] at hd
    simp [PTE.duckWritten, hd]
  · rename_i hd
    rw [and_dirty, Bool.not_eq_true] at hd
    simp [hd]

theorem clearDuckWrittenPages_duckWritten (a : PTE) :
    (clearDuckWrittenPages.entry a)[9] = false := by
  simp only [clearDuckWrittenPages]
  split
  · simp [PTE.dirty, PTE.duckWritten]
  · rename_i hd
    rw [and_duckWritten, Bool.not_eq_true] at hd
    exact hd

theorem clearDuckWrittenPages_wipes (a : PTE) : clearDuckWrittenPages.wipes a = a[9] := by
  rw [Bool.eq_iff_iff]
  show decide (a &&& PTE.duckWritten ≠ 0) = true ↔ _
  rw [decide_eq_true_iff, and_duckWritten]

/-- A page of the program is there. -/
def UserPresent (a : PTE) : Prop := a[2] = true → a[0] = true

/-- No page operation takes a page of the program away. -/
theorem entry_userPresent : ∀ op ∈ [setPageFlagsUserWritable, setPageFlagsUserReadonly,
    setPageFlagsKernel, addPageFlagsWritable, addPageFlagsExecutable, clearAccessAndDirtyFlags,
    setDuckWrittenByDirty, setDuckWritten, clearDuckWrittenPages],
    ∀ a, UserPresent a → UserPresent (op.entry a) := by
  unfold UserPresent
  simp only [List.forall_mem_cons]
  refine ⟨fun a h => ?_, fun a h => ?_, fun a h => ?_, fun a h => ?_, fun a h => ?_, fun a h => ?_,
    fun a h => ?_, fun a h => ?_, fun a h => ?_, fun _ hop => (List.not_mem_nil hop).elim⟩
  · simp [setPageFlagsUserWritable, PTE.present]
  · simp [setPageFlagsUserReadonly, PTE.present]
  · simp [setPageFlagsKernel, PTE.present]
  · simpa [addPageFlagsWritable, PTE.writable] using h
  · simpa [addPageFlagsExecutable, PTE.noExecute] using h
  · simpa [clearAccessAndDirtyFlags, PTE.accessed, PTE.dirty] using h
  · simp only [setDuckWrittenByDirty]
    split
    · simpa [PTE.duckWritten] using h
    · exact h
  · simpa [setDuckWritten, PTE.duckWritten] using h
  · simp only [clearDuckWrittenPages]
    split
    · simpa [PTE.dirty, PTE.duckWritten] using h
    · exact h

end Memory

namespace Elf

open Memory

/-! ### The page flags that the loaders set first -/

section

variable {F : Format} {buf : Mem} {len : UInt32} {config : AppConfig} {vaddrBreak : UInt64}
  {l : Layout}

/-- The flags of the program's pages, of the kernel's, and of all others. -/
theorem p1_flagEffects (h : LayoutOk F buf len config vaddrBreak l) (s : Machine) (p : Nat) :
    (applyAll (flagEffects l vaddrBreak) s).p1 p
      = if l.loadVaddrStart.toNat / 4096 ≤ p ∧ p < l.specialRegionBreak.toNat / 4096 then
          clearDuckWrittenPages.entry (setPageFlagsUserWritable.entry (s.p1 p))
        else if kernelBreak.toNat / 4096 ≤ p ∧ p < vaddrBreak.toNat / 4096 then
          setPageFlagsKernel.entry (s.p1 p)
        else s.p1 p := by
  have h1 := h.kernel
  have h2 := h.special_le
  have h3 := h.special
  have h4 := h.room
  obtain ⟨h5, h6, h7, h8, h9, h10⟩ := h.breaks_le
  simp only [flagEffects, applyAll_cons, applyAll_nil, Effect.apply, PageOp.range]
  by_cases hu : l.loadVaddrStart.toNat / 4096 ≤ p ∧ p < l.specialRegionBreak.toNat / 4096
  · have hk : ¬(l.specialRegionBreak.toNat / 4096 ≤ p ∧ p < vaddrBreak.toNat / 4096) := by omega
    have hlow : ¬(kernelBreak.toNat / 4096 ≤ p ∧ p < l.loadVaddrStart.toNat / 4096) := by omega
    rw [if_pos hu, if_pos hu, if_pos hu, if_neg hk, if_neg hlow]
  · rw [if_neg hu, if_neg hu, if_neg hu]
    by_cases hk : l.specialRegionBreak.toNat / 4096 ≤ p ∧ p < vaddrBreak.toNat / 4096
    · rw [if_pos hk, if_neg (by omega), if_pos (by omega)]
    · rw [if_neg hk]
      by_cases hlow : kernelBreak.toNat / 4096 ≤ p ∧ p < l.loadVaddrStart.toNat / 4096
      · rw [if_pos hlow, if_pos (by omega)]
      · rw [if_neg hlow, if_neg (by omega)]

/-- Only pages of the program that may be nonzero are filled with zeros. -/
theorem mem_flagEffects (h : LayoutOk F buf len config vaddrBreak l) (s : Machine) (x : Nat) :
    (applyAll (flagEffects l vaddrBreak) s).mem x
      = if l.loadVaddrStart.toNat ≤ x ∧ x < l.specialRegionBreak.toNat ∧
          (s.p1 (x / 4096))[9] = true then 0
        else s.mem x := by
  have h1 := h.aligned
  have h2 := h.special_aligned
  simp only [flagEffects, applyAll_cons, applyAll_nil, Effect.apply, PageOp.range]
  have hk : ∀ a, setPageFlagsKernel.wipes a = false := fun _ => rfl
  have hu : ∀ a, setPageFlagsUserWritable.wipes a = false := fun _ => rfl
  simp only [hk, hu, Bool.false_eq_true, and_false, if_false, clearDuckWrittenPages_wipes]
  by_cases hin : l.loadVaddrStart.toNat ≤ x ∧ x < l.specialRegionBreak.toNat
  · have hp : l.loadVaddrStart.toNat / 4096 ≤ x / 4096 ∧
        x / 4096 < l.specialRegionBreak.toNat / 4096 := by omega
    have h3 : ¬(kernelBreak.toNat / 4096 ≤ x / 4096 ∧
      x / 4096 < l.loadVaddrStart.toNat / 4096) := by
      omega
    have h4 : ¬(l.specialRegionBreak.toNat / 4096 ≤ x / 4096 ∧
        x / 4096 < vaddrBreak.toNat / 4096) := by omega
    rw [if_neg h4, if_pos hp, if_neg h3, setPageFlagsUserWritable_duckWritten]
    simp only [hp, hin, true_and]
  · rw [if_neg (by omega), if_neg (by omega)]

end

end Elf

end JudgeDuck
