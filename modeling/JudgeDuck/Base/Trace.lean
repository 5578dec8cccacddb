/-
Computations that append to a log.

`Emits log I Q J x` is a Hoare triple with a trace: from a state where `I` holds,
`x` ends in a state where `J` holds, and what it appended to the log satisfies
`Q`.  The rules follow the shape of the program, and the appended lists are put
together along it, so a property of lists that is closed under appending is
proved of a program by going through its statements.
-/
import Mathlib

namespace Trace

variable {S ε α β : Type} {log : S → List ε} {I J K : S → Prop} {P Q R : List ε → Prop}

/-- From `I` to `J`, appending a list with `Q`. -/
def Emits (log : S → List ε) (I : S → Prop) (Q : List ε → Prop) (J : S → Prop)
    (x : StateM S α) : Prop :=
  ∀ s, I s → J (x s).2 ∧ ∃ l, log (x s).2 = log s ++ l ∧ Q l

theorem Emits.pure (a : α) (hIJ : ∀ s, I s → J s) (hQ : Q []) :
    Emits log I Q J (Pure.pure a : StateM S α) :=
  fun s hs => ⟨hIJ s hs, [], (List.append_nil _).symm, hQ⟩

theorem Emits.bind {x : StateM S α} {f : α → StateM S β} (hx : Emits log I P J x)
    (hf : ∀ a, Emits log J Q K (f a)) (happend : ∀ l l', P l → Q l' → R (l ++ l')) :
    Emits log I R K (x >>= f) := by
  intro s hs
  obtain ⟨hJ, l, hl, hP⟩ := hx s hs
  obtain ⟨hK, l', hl', hQ⟩ := hf (x s).1 (x s).2 hJ
  refine ⟨hK, l ++ l', ?_, happend l l' hP hQ⟩
  calc log (f (x s).1 (x s).2).2 = log (x s).2 ++ l' := hl'
    _ = log s ++ (l ++ l') := by rw [hl, List.append_assoc]

theorem Emits.ite {c : Prop} [Decidable c] {x y : StateM S α} (hx : c → Emits log I Q J x)
    (hy : ¬c → Emits log I Q J y) : Emits log I Q J (if c then x else y) := by
  by_cases hc : c
  · rw [if_pos hc]
    exact hx hc
  · rw [if_neg hc]
    exact hy hc

theorem Emits.weaken {x : StateM S α} (hx : Emits log I P J x) {I' J' : S → Prop}
    (hI : ∀ s, I' s → I s) (hJ : ∀ s, J s → J' s) (hPQ : ∀ l, P l → Q l) :
    Emits log I' Q J' x := by
  intro s hs
  obtain ⟨hJs, l, hl, hP⟩ := hx s (hI s hs)
  exact ⟨hJ _ hJs, l, hl, hPQ l hP⟩

end Trace
