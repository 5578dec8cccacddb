/-
Partial correctness of computations with a state that may not return.

`Sound I Q x` says that `x` keeps the invariant `I` of the state and that its
value satisfies `Q`, whenever it returns.  There is one rule for each construct.
-/
import Mathlib

namespace Partial

variable {σ α β : Type} {I : σ → Prop} {P Q : α → Prop} {R : β → Prop}

def Sound (I : σ → Prop) (Q : α → Prop) (x : StateT σ Option α) : Prop :=
  ∀ s, I s → ∀ a s', x.run s = some (a, s') → I s' ∧ Q a

theorem Sound.pure {a : α} (h : Q a) : Sound I Q (Pure.pure a : StateT σ Option α) := by
  intro s hs b s' hb
  rw [StateT.run_pure] at hb
  obtain ⟨rfl, rfl⟩ := Prod.mk.inj (Option.some.inj hb)
  exact ⟨hs, h⟩

theorem Sound.bind {x : StateT σ Option α} {f : α → StateT σ Option β} (hx : Sound I P x)
    (hf : ∀ a, P a → Sound I R (f a)) : Sound I R (x >>= f) := by
  intro s hs b s' hb
  rw [StateT.run_bind] at hb
  obtain ⟨⟨a, s1⟩, ha, hfa⟩ := Option.bind_eq_some_iff.mp hb
  obtain ⟨hs1, hP⟩ := hx s hs a s1 ha
  exact hf a hP s1 hs1 b s' hfa

/-- A statement whose value says nothing. -/
theorem Sound.seq {x : StateT σ Option α} {f : α → StateT σ Option β}
    (hx : Sound I (fun _ => True) x)
    (hf : ∀ a, Sound I R (f a)) : Sound I R (x >>= f) :=
  hx.bind fun a _ => hf a

theorem Sound.ite {c : Prop} [Decidable c] {x y : StateT σ Option α} (hx : c → Sound I Q x)
    (hy : ¬c → Sound I Q y) : Sound I Q (if c then x else y) := by
  by_cases hc : c
  · rw [if_pos hc]
    exact hx hc
  · rw [if_neg hc]
    exact hy hc

theorem Sound.weaken {x : StateT σ Option α} (hx : Sound I P x) (h : ∀ a, P a → Q a) :
    Sound I Q x := fun s hs a s' ha =>
  ⟨(hx s hs a s' ha).1, h a (hx s hs a s' ha).2⟩

end Partial
