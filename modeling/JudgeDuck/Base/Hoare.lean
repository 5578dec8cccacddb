/-
Pre- and postconditions of computations on a state.

The postcondition speaks of the result too, so what a computation has read is known to
the rest of it.  The rules follow the shape of the program.
-/
import Mathlib

namespace Hoare

variable {S α β : Type} {P P' : S → Prop}

/-- From a state with `P`, the computation ends with a result and a state that satisfy `Q`. -/
def Ensures (P : S → Prop) (x : StateM S α) (Q : α → S → Prop) : Prop :=
  ∀ s, P s → Q (x s).1 (x s).2

theorem Ensures.pure {a : α} {Q : α → S → Prop} (h : ∀ s, P s → Q a s) :
    Ensures P (Pure.pure a : StateM S α) Q := h

theorem Ensures.bind {x : StateM S α} {f : α → StateM S β} {Q : α → S → Prop}
    {R : β → S → Prop} (hx : Ensures P x Q) (hf : ∀ a, Ensures (Q a) (f a) R) :
    Ensures P (x >>= f) R :=
  fun s hs => hf (x s).1 (x s).2 (hx s hs)

theorem Ensures.ite {c : Prop} [Decidable c] {x y : StateM S α} {Q : α → S → Prop}
    (hx : c → Ensures P x Q) (hy : ¬c → Ensures P y Q) : Ensures P (if c then x else y) Q := by
  by_cases hc : c
  · rw [if_pos hc]
    exact hx hc
  · rw [if_neg hc]
    exact hy hc

theorem Ensures.weaken {x : StateM S α} {Q Q' : α → S → Prop} (h : Ensures P x Q)
    (hP : ∀ s, P' s → P s) (hQ : ∀ a s, Q a s → Q' a s) : Ensures P' x Q' :=
  fun s hs => hQ _ _ (h s (hP s hs))

end Hoare
