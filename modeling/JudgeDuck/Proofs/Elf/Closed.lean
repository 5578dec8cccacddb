/-
Pages that no program reaches.

A page that the user may not write stays so while a program runs, and the loaders make
none from `vaddr_break` on writable.  So nothing there changes, apart from the one page
after `vaddr_break` that the image of a 32-bit program can take.
-/
import JudgeDuck.Proofs.Elf.Access

namespace JudgeDuck

open Memory

namespace Elf

/-! ### Pages that the user may not write -/

theorem Loop.keeps_not_userWritable {headers : List Phdr} {p : Nat} {op : PageOp}
    (h : Loop headers p op) (hw : ¬Grants headers 2 p) {a : PTE} (ha : userWritable a = false) :
    userWritable (op.entry a) = false := by
  rw [← Bool.not_eq_true, userWritable_iff] at ha ⊢
  cases h with
  | written => simpa [setDuckWritten, PTE.duckWritten] using ha
  | readonly => simp [setPageFlagsUserReadonly, PTE.present, PTE.user, PTE.noExecute]
  | access => simpa [clearAccessAndDirtyFlags, PTE.accessed, PTE.dirty] using ha
  | executable ph hph ht hp hx => simpa [addPageFlagsExecutable, PTE.noExecute] using ha
  | writable ph hph ht hp hf => exact absurd ⟨ph, hph, ht, hp, hf⟩ hw

/-- The user may write no page from `b` on. -/
def Closed (b : Nat) (s : Machine) : Prop := ∀ p, b ≤ p → userWritable (s.p1 p) = false

/-- Nothing from page `b` on has changed, and it is still closed. -/
structure Spares (b : Nat) (s s' : Machine) : Prop where
  closed : Closed b s'
  mem : ∀ x, 4096 * b ≤ x → s'.mem x = s.mem x

variable {b : Nat} {s s' : Machine}

theorem userWritable_or_accessed (a : PTE) :
    userWritable (a ||| PTE.accessed) = userWritable a := by
  rw [Bool.eq_iff_iff, userWritable_iff, userWritable_iff]
  simp [PTE.accessed]

theorem userWritable_setDuckWrittenByDirty (a : PTE) :
    userWritable (setDuckWrittenByDirty.entry a) = userWritable a := by
  simp only [setDuckWrittenByDirty]
  split
  · rw [Bool.eq_iff_iff, userWritable_iff, userWritable_iff]
    simp [PTE.duckWritten]
  · rfl

theorem Access.run_spares (x : Access) (h : Closed b s) : Spares b s (x.run s) := by
  cases x with
  | read addr =>
      by_cases hr : userReadable (s.p1 (addr / 4096)) = true
      · rw [Access.run, if_pos hr]
        refine ⟨fun p hp => ?_, fun _ _ => rfl⟩
        show userWritable (Function.update s.p1 _ _ p) = false
        by_cases hpe : p = addr / 4096
        · rw [hpe, Function.update_self, userWritable_or_accessed]
          exact h _ (hpe ▸ hp)
        · rw [Function.update_of_ne hpe]
          exact h p hp
      · rw [Access.run, if_neg hr]
        exact ⟨h, fun _ _ => rfl⟩
  | write addr val =>
      by_cases hw : userWritable (s.p1 (addr / 4096)) = true
      · have hlow : addr / 4096 < b := by
          by_contra hge
          rw [h _ (by omega)] at hw
          cases hw
        rw [Access.run, if_pos hw]
        refine ⟨fun p hp => ?_, fun y hy => ?_⟩
        · show userWritable (Function.update s.p1 _ _ p) = false
          rw [Function.update_of_ne (by omega)]
          exact h p hp
        · exact Function.update_of_ne (by omega) _ _
      · rw [Access.run, if_neg hw]
        exact ⟨h, fun _ _ => rfl⟩

theorem runUser_spares (accesses : List Access) (h : Closed b s) :
    Spares b s (runUser accesses s) := by
  induction accesses generalizing s with
  | nil => exact ⟨h, fun _ _ => rfl⟩
  | cons x xs ih =>
      have hx := x.run_spares h
      have hxs := ih hx.closed
      exact ⟨hxs.closed, fun y hy => (hxs.mem y hy).trans (hx.mem y hy)⟩

theorem setDuckWrittenByDirty_spares : ∀ (k : Nat) (start : UInt64) {s : Machine}, Closed b s →
    Spares b s (setDuckWrittenByDirty.loop k start s) := by
  intro k
  induction k with
  | zero => intro start s h; exact ⟨h, fun _ _ => rfl⟩
  | succ k ih =>
      intro start s h
      have hpage : Spares b s (setDuckWrittenByDirty.page (start.toNat / 4096) s) := by
        refine ⟨fun p hp => ?_, fun _ _ => rfl⟩
        show userWritable (Function.update s.p1 _ _ p) = false
        by_cases hpe : p = start.toNat / 4096
        · rw [hpe, Function.update_self, userWritable_setDuckWrittenByDirty]
          exact h _ (hpe ▸ hp)
        · rw [Function.update_of_ne hpe]
          exact h p hp
      have hloop := ih (start + pageSize) hpage.closed
      exact ⟨hloop.closed, fun y hy => (hloop.mem y hy).trans (hpage.mem y hy)⟩

/-- A program can not reach a closed page. -/
theorem run_spares {a : App} {accesses : List Access} {res : RunOutput}
    (h : run a accesses s = some (res, s')) (hc : Closed b s) : Spares b s s' := by
  obtain ⟨m, hm, hr⟩ := Option.bind_eq_some_iff.mp h
  obtain ⟨-, rfl⟩ := Prod.mk.inj (Option.some.inj hr)
  have huser := runUser_spares accesses hc
  unfold PageOp.run at hm
  split at hm
  · obtain rfl := Option.some.inj hm
    have hsweep := setDuckWrittenByDirty_spares
      ((a.specialRegionBreakAddr - a.startAddr).toNat / 4096) a.startAddr huser.closed
    exact ⟨hsweep.closed, fun y hy => (hsweep.mem y hy).trans (huser.mem y hy)⟩
  · cases hm

/-- The sizes are those of the `DuckInfo` of the program, up to the limits. -/
theorem run_sizes {a : App} {accesses : List Access} {res : RunOutput}
    (h : run a accesses s = some (res, s')) :
    res.stdoutSize ≤ a.duckinfoOrig.stdoutLimit ∧ res.stderrSize ≤ a.duckinfoOrig.stderrLimit := by
  have hmin : ∀ x y : UInt64, (if x ≤ y then x else y) ≤ x := by
    intro x y
    split
    · exact UInt64.le_refl x
    · rename_i hxy
      exact UInt64.le_of_lt (UInt64.not_le.mp hxy)
  obtain ⟨m, -, hr⟩ := Option.bind_eq_some_iff.mp h
  obtain ⟨rfl, -⟩ := Prod.mk.inj (Option.some.inj hr)
  exact ⟨hmin _ _, hmin _ _⟩

/-! ### The loaders -/

section

variable {F : Format} {buf : Mem} {len : UInt32} {config : AppConfig} {vaddrBreak : UInt64}
  {l : Layout} {random : List Effect} {stack : List UInt8} {infoSize : Nat}

/-- A loader changes nothing after the first page of the kernel's memory, and makes none of its
pages writable. -/
theorem Accepted.spares (h : Accepted F buf len config vaddrBreak l random stack infoSize)
    (hvb : vaddrBreak.toNat % 4096 = 0) (hc : Closed (vaddrBreak.toNat / 4096) s) {s' : Machine}
    (hexec : exec (flagEffects l vaddrBreak
      ++ loading (phdrs F buf l.ehdr) buf len config l random stack infoSize) s = some s') :
    Closed (vaddrBreak.toNat / 4096) s' ∧
      ∀ x, vaddrBreak.toNat + 4096 ≤ x → s'.mem x = s.mem x := by
  have hspecial := h.special
  have hspecial' := h.special_le
  have himage := h.image
  have hbreak := h.break_le
  rw [h.exec_eq hvb] at hexec
  obtain rfl := Option.some.inj hexec
  refine ⟨fun p hp => ?_, fun x hx => ?_⟩
  · refine keeps_applyAll (K := fun a => userWritable a = false) (fun _ _ _ he hin _ ha =>
      (h.loop_of_mem he hin).keeps_not_userWritable (h.not_grants (by omega)) ha) ?_
    rw [p1_applyAll_out (within_flags h.toLayoutOk hvb) _ (by omega)]
    exact hc p hp
  · rw [mem_applyAll_out h.within_loading _ (by omega),
      mem_applyAll_out (within_flags h.toLayoutOk hvb) _ (by omega)]

theorem load_spares {tscFreq : UInt64} {a : App} {es : List Effect}
    (h : load buf len config tscFreq vaddrBreak = some (a, es)) (hvb : vaddrBreak.toNat % 4096 = 0)
    (hc : Closed (vaddrBreak.toNat / 4096) s) (hexec : exec es s = some s') :
    Closed (vaddrBreak.toNat / 4096) s' ∧
      ∀ x, vaddrBreak.toNat + 4096 ≤ x → s'.mem x = s.mem x := by
  rcases load_cases h with h | h
  · obtain ⟨l, hl, -, rfl⟩ := loadElf64_eq_some h
    rw [effects64_eq] at hexec
    exact (accepted64 tscFreq hl).spares hvb hc hexec
  · obtain ⟨l, hl, -, rfl⟩ := loadElf32_eq_some h
    rw [effects32_eq_loading] at hexec
    exact (accepted32 tscFreq hl).spares hvb hc hexec

/-- The limits are those of the request. -/
theorem load_limits {tscFreq : UInt64} {a : App} {es : List Effect}
    (h : load buf len config tscFreq vaddrBreak = some (a, es)) :
    a.duckinfoOrig.stdoutLimit = config.stdoutMaxSize ∧
      a.duckinfoOrig.stderrLimit = config.stderrMaxSize := by
  rcases load_cases h with h | h
  · obtain ⟨l, -, rfl, -⟩ := loadElf64_eq_some h
    exact ⟨rfl, rfl⟩
  · obtain ⟨l, -, rfl, -⟩ := loadElf32_eq_some h
    exact ⟨rfl, rfl⟩

end

end Elf

end JudgeDuck
