/-
Page loops and copies in closed form.

A page loop between two page-aligned addresses, the first not above the second,
treats every page of the range once and stops (`PageOp.run_eq`).  So an effect of
the loader that lies inside a range is a function of the machine (`apply`) that
changes bytes and entries of that range only.  What an entry operation does to the
flags that matter later is stated bit by bit.
-/
import JudgeDuck.Model.Elf
import JudgeDuck.Proofs.Rounding

namespace JudgeDuck

namespace Memory

/-! ### One pass over a range of pages -/

/-- Every page of `[lo, hi)` is treated once. -/
def PageOp.range (op : PageOp) (lo hi : Nat) (s : Machine) : Machine where
  mem x := if lo ≤ x / 4096 ∧ x / 4096 < hi ∧ op.wipes (s.p1 (x / 4096)) = true then 0 else s.mem x
  p1 p := if lo ≤ p ∧ p < hi then op.entry (s.p1 p) else s.p1 p
  vaddrBreak := s.vaddrBreak

theorem Machine.ext_iff' {s t : Machine} (hmem : ∀ x, s.mem x = t.mem x)
    (hp1 : ∀ p, s.p1 p = t.p1 p) (hb : s.vaddrBreak = t.vaddrBreak) : s = t := by
  obtain ⟨m, p, b⟩ := s
  obtain ⟨m', p', b'⟩ := t
  obtain rfl : m = m' := funext hmem
  obtain rfl : p = p' := funext hp1
  obtain rfl : b = b' := hb
  rfl

theorem PageOp.range_empty (op : PageOp) (lo : Nat) (s : Machine) : op.range lo lo s = s := by
  refine Machine.ext_iff' (fun x => if_neg ?_) (fun p => if_neg ?_) rfl
  · omega
  · omega

/-- The first page, then the rest. -/
theorem PageOp.range_succ (op : PageOp) (lo k : Nat) (s : Machine) :
    op.range (lo + 1) (lo + 1 + k) (op.page lo s) = op.range lo (lo + (k + 1)) s := by
  refine Machine.ext_iff' (fun x => ?_) (fun p => ?_) rfl
  · unfold range page
    dsimp only
    by_cases hx : x / 4096 = lo
    · rw [if_neg (by omega), hx]
      by_cases hw : op.wipes (s.p1 lo) = true
      · rw [if_pos hw, if_pos ⟨Nat.le_refl _, by omega, hw⟩]
        exact Mem.put_in (by omega) (by omega)
      · rw [if_neg hw, if_neg fun hc => hw hc.2.2]
    · simp only [Function.update_of_ne hx]
      have hmem : (if op.wipes (s.p1 lo) = true then s.mem.memset (4096 * lo) 0 4096 else s.mem) x
          = s.mem x := by
        split
        · exact Mem.memset_out (by omega)
        · rfl
      rw [hmem]
      by_cases hin : lo + 1 ≤ x / 4096 ∧ x / 4096 < lo + 1 + k
      · by_cases hw : op.wipes (s.p1 (x / 4096)) = true
        · rw [if_pos ⟨hin.1, hin.2, hw⟩, if_pos ⟨by omega, by omega, hw⟩]
        · rw [if_neg fun hc => hw hc.2.2, if_neg fun hc => hw hc.2.2]
      · rw [if_neg fun hc => hin ⟨hc.1, hc.2.1⟩, if_neg (by omega)]
  · unfold range page
    dsimp only
    by_cases hp : p = lo
    · subst hp
      rw [if_neg (by omega), Function.update_self, if_pos (by omega)]
    · rw [Function.update_of_ne hp]
      by_cases hin : lo + 1 ≤ p ∧ p < lo + 1 + k
      · rw [if_pos hin, if_pos (by omega)]
      · rw [if_neg hin, if_neg (by omega)]

theorem PageOp.loop_eq (op : PageOp) : ∀ (k : Nat) (start : UInt64) (s : Machine),
    start.toNat % 4096 = 0 → start.toNat + k * 4096 < 2 ^ 64 →
    op.loop k start s = op.range (start.toNat / 4096) (start.toNat / 4096 + k) s := by
  intro k
  induction k with
  | zero => intro start s _ _; exact (op.range_empty _ s).symm
  | succ k ih =>
      intro start s ha hb
      have hnext : (start + pageSize).toNat = start.toNat + 4096 :=
        Utils.toNat_add_of_lt (by rw [toNat_pageSize]; omega)
      have hpage : (start.toNat + 4096) / 4096 = start.toNat / 4096 + 1 := by omega
      rw [loop, ih (start + pageSize) _ (by omega) (by omega), hnext, hpage, op.range_succ]

/-- The loop of the source, entered with aligned addresses in order. -/
theorem PageOp.run_eq (op : PageOp) {start stop : UInt64} (s : Machine)
    (h1 : start.toNat % 4096 = 0) (h2 : stop.toNat % 4096 = 0) (h : start.toNat ≤ stop.toNat) :
    op.run start stop s = some (op.range (start.toNat / 4096) (stop.toNat / 4096) s) := by
  have hmod : ∀ a : UInt64, a.toNat % 4096 = 0 → a % pageSize = 0 := by
    intro a ha
    refine UInt64.toNat.inj ?_
    rw [UInt64.toNat_mod, toNat_pageSize, ha]
    rfl
  have hk : (stop - start).toNat = stop.toNat - start.toNat :=
    UInt64.toNat_sub_of_le _ _ (UInt64.le_iff_toNat_le.mpr h)
  have hend : start.toNat / 4096 + (stop.toNat - start.toNat) / 4096 = stop.toNat / 4096 := by omega
  have := stop.toNat_lt
  rw [run, if_pos ⟨hmod _ h1, hmod _ h2⟩, op.loop_eq _ _ _ h1 (by omega), hk, hend]

end Memory

namespace Elf

open Memory

/-! ### Effects inside a range -/

namespace Effect

/-- The effect, when it lies inside `[lo, hi)`: a page loop is entered with aligned addresses in
order. -/
def Within (lo hi : Nat) : Effect → Prop
  | pages _ start stop => start.toNat % 4096 = 0 ∧ stop.toNat % 4096 = 0 ∧
      start.toNat ≤ stop.toNat ∧ lo ≤ start.toNat ∧ stop.toNat ≤ hi
  | copy dst n _ => lo ≤ dst.toNat ∧ dst.toNat + n ≤ hi

/-- What the effect does when its asserts hold. -/
def apply : Effect → Machine → Machine
  | pages op start stop, s => op.range (start.toNat / 4096) (stop.toNat / 4096) s
  | copy dst n src, s => { s with mem := s.mem.put dst.toNat n src }

theorem Within.mono {lo hi lo' hi' : Nat} {e : Effect} (h : e.Within lo hi) (hlo : lo' ≤ lo)
    (hhi : hi ≤ hi') : e.Within lo' hi' := by
  cases e with
  | pages op start stop => exact ⟨h.1, h.2.1, h.2.2.1, by have := h.2.2.2.1; omega,
      by have := h.2.2.2.2; omega⟩
  | copy dst n src => exact ⟨by have := h.1; omega, by have := h.2; omega⟩

theorem run_eq {lo hi : Nat} {e : Effect} (h : e.Within lo hi) (s : Machine) :
    e.run s = some (e.apply s) := by
  cases e with
  | pages op start stop => exact op.run_eq s h.1 h.2.1 h.2.2.1
  | copy dst n src => rfl

theorem vaddrBreak_apply (e : Effect) (s : Machine) : (e.apply s).vaddrBreak = s.vaddrBreak := by
  cases e <;> rfl

/-- Outside its range an effect changes no byte. -/
theorem mem_apply_out {lo hi : Nat} {e : Effect} (h : e.Within lo hi) (s : Machine) {x : Nat}
    (hx : x < lo ∨ hi ≤ x) : (e.apply s).mem x = s.mem x := by
  cases e with
  | pages op start stop =>
      obtain ⟨h1, h2, h3, h4, h5⟩ := h
      exact if_neg (by omega)
  | copy dst n src =>
      obtain ⟨h1, h2⟩ := h
      exact Mem.put_out (by omega)

/-- Outside its range an effect changes no entry. -/
theorem p1_apply_out {lo hi : Nat} {e : Effect} (h : e.Within lo hi) (s : Machine) {p : Nat}
    (hp : 4096 * p + 4096 ≤ lo ∨ hi ≤ 4096 * p) : (e.apply s).p1 p = s.p1 p := by
  cases e with
  | pages op start stop =>
      obtain ⟨h1, h2, h3, h4, h5⟩ := h
      exact if_neg (by omega)
  | copy dst n src => rfl

end Effect

/-! ### Lists of effects -/

/-- Apply effects in order. -/
def applyAll (es : List Effect) (s : Machine) : Machine := es.foldl (fun s e => e.apply s) s

@[simp] theorem applyAll_nil (s : Machine) : applyAll [] s = s := rfl

@[simp] theorem applyAll_cons (e : Effect) (es : List Effect) (s : Machine) :
    applyAll (e :: es) s = applyAll es (e.apply s) := rfl

theorem applyAll_append (es fs : List Effect) (s : Machine) :
    applyAll (es ++ fs) s = applyAll fs (applyAll es s) := List.foldl_append

/-- All effects of the list lie inside `[lo, hi)`. -/
def Within (lo hi : Nat) (es : List Effect) : Prop := ∀ e ∈ es, e.Within lo hi

theorem Within.append {lo hi : Nat} {es fs : List Effect} (h1 : Within lo hi es)
    (h2 : Within lo hi fs) : Within lo hi (es ++ fs) := by
  intro e he
  rcases List.mem_append.mp he with h | h
  · exact h1 e h
  · exact h2 e h

theorem Within.mono {lo hi lo' hi' : Nat} {es : List Effect} (h : Within lo hi es) (hlo : lo' ≤ lo)
    (hhi : hi ≤ hi') : Within lo' hi' es := fun e he => (h e he).mono hlo hhi

/-- Effects whose asserts hold are all performed. -/
theorem exec_eq {es : List Effect} (h : ∀ e ∈ es, ∃ lo hi, e.Within lo hi) (s : Machine) :
    exec es s = some (applyAll es s) := by
  induction es generalizing s with
  | nil => rfl
  | cons e es ih =>
      obtain ⟨lo, hi, he⟩ := h e (by simp)
      rw [exec, Effect.run_eq he, Option.bind_some, ih fun f hf => h f (by simp [hf])]
      rfl

theorem Within.exec_eq {lo hi : Nat} {es : List Effect} (h : Within lo hi es) (s : Machine) :
    exec es s = some (applyAll es s) := Elf.exec_eq (fun e he => ⟨lo, hi, h e he⟩) s

theorem vaddrBreak_applyAll (es : List Effect) (s : Machine) :
    (applyAll es s).vaddrBreak = s.vaddrBreak := by
  induction es generalizing s with
  | nil => rfl
  | cons e es ih => rw [applyAll_cons, ih, e.vaddrBreak_apply]

theorem mem_applyAll_out {lo hi : Nat} {es : List Effect} (h : Within lo hi es) (s : Machine)
    {x : Nat} (hx : x < lo ∨ hi ≤ x) : (applyAll es s).mem x = s.mem x := by
  induction es generalizing s with
  | nil => rfl
  | cons e es ih =>
      rw [applyAll_cons, ih (fun f hf => h f (by simp [hf])),
        Effect.mem_apply_out (h e (by simp)) s hx]

theorem p1_applyAll_out {lo hi : Nat} {es : List Effect} (h : Within lo hi es) (s : Machine)
    {p : Nat} (hp : 4096 * p + 4096 ≤ lo ∨ hi ≤ 4096 * p) : (applyAll es s).p1 p = s.p1 p := by
  induction es generalizing s with
  | nil => rfl
  | cons e es ih =>
      rw [applyAll_cons, ih (fun f hf => h f (by simp [hf])),
        Effect.p1_apply_out (h e (by simp)) s hp]

end Elf

end JudgeDuck
