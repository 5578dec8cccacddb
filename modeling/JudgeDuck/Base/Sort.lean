/-
Sorting by an unspecified algorithm.

`std::sort` promises a sorted permutation and nothing about the order of equal
elements.  `StdSort` is any such algorithm: its two promises are fields, so what
is proved of a program that sorts holds whichever algorithm its library uses.
-/
import Mathlib

/-- `lt` is a strict weak order, what a comparator must be. -/
structure StrictWeak {α : Type} (lt : α → α → Bool) : Prop where
  asymm : ∀ a b, lt a b = true → lt b a = false
  trans : ∀ a b c, lt b a = false → lt c b = false → lt c a = false

/-- A sorting algorithm: a permutation, sorted whenever the comparator is a strict weak order. -/
structure StdSort where
  sort : {α : Type} → (α → α → Bool) → List α → List α
  perm : ∀ {α : Type} (lt : α → α → Bool) (l : List α), (sort lt l).Perm l
  sorted : ∀ {α : Type} (lt : α → α → Bool) (l : List α), StrictWeak lt →
    (sort lt l).Pairwise fun a b => lt b a = false

namespace StdSort

/-- Insertion sort is one. -/
def insertion : StdSort where
  sort lt l := l.insertionSort fun a b => lt b a = false
  perm lt l := List.perm_insertionSort _ l
  sorted {α} lt l h := by
    have htotal : Std.Total fun a b : α => lt b a = false := by
      refine ⟨fun a b => ?_⟩
      cases hab : lt a b
      · exact Or.inr rfl
      · exact Or.inl (h.asymm a b hab)
    have htrans : IsTrans α fun a b : α => lt b a = false :=
      ⟨fun a b c h1 h2 => h.trans a b c h1 h2⟩
    exact List.pairwise_insertionSort _ l

@[simp] theorem length_sort (S : StdSort) {α : Type} (lt : α → α → Bool) (l : List α) :
    (S.sort lt l).length = l.length := (S.perm lt l).length_eq

end StdSort
