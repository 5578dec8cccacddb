/-
Binary search for a partition point.

Every search over a sorted array looks for the place where a predicate that
holds of a prefix stops holding.  `partitionPoint` is the halving loop of
`std::lower_bound` and `std::upper_bound`; `bisect` is the closed-interval loop
`while (l < r)`, which never looks at the element at `r`.  Both return the
partition point of the range they are given, whatever the predicate is on the
rest, and both stay inside that range even when the predicate has none.
-/
import Mathlib

namespace Search

/-- `p` holds of a prefix of `[lo, hi)` and of nothing after it. -/
def Partitioned (p : Nat → Bool) (lo hi : Nat) : Prop :=
  ∀ i j, lo ≤ i → i ≤ j → j < hi → p j = true → p i = true

/-- `r` is where `p` stops holding on `[lo, hi)`. -/
structure IsPoint (p : Nat → Bool) (lo hi r : Nat) : Prop where
  lower : lo ≤ r
  upper : r ≤ hi
  below : ∀ i, lo ≤ i → i < r → p i = true
  above : ∀ i, r ≤ i → i < hi → p i = false

/-- A range has at most one partition point. -/
theorem IsPoint.unique {p : Nat → Bool} {lo hi r s : Nat} (hr : IsPoint p lo hi r)
    (hs : IsPoint p lo hi s) : r = s := by
  have key : ∀ {r s : Nat}, IsPoint p lo hi r → IsPoint p lo hi s → ¬r < s := by
    intro r s hr hs hlt
    have h1 := hs.below r hr.lower hlt
    rw [hr.above r (Nat.le_refl r) (Nat.lt_of_lt_of_le hlt hs.upper)] at h1
    exact Bool.noConfusion h1
  exact Nat.le_antisymm (Nat.le_of_not_lt (key hs hr)) (Nat.le_of_not_lt (key hr hs))

/-- The partition point is the number of elements before it. -/
theorem IsPoint.count {p : Nat → Bool} {n r : Nat} (h : IsPoint p 0 n r) :
    Nat.count (fun i => p i = true) n = r := by
  have hfilter : (Finset.range n).filter (fun i => p i = true) = Finset.range r := by
    ext i
    rw [Finset.mem_filter, Finset.mem_range, Finset.mem_range]
    constructor
    · rintro ⟨hi, hp⟩
      by_contra hge
      rw [h.above i (by omega) hi] at hp
      exact Bool.false_ne_true hp
    · intro hi
      exact ⟨Nat.lt_of_lt_of_le hi h.upper, h.below i (Nat.zero_le i) hi⟩
  rw [Nat.count_eq_card_filter_range, hfilter, Finset.card_range]

/-! ### The halving search over `len` elements from `first` -/

/-- `fuel` bounds the number of halvings; `len` of it is always enough. -/
def partitionLoop (p : Nat → Bool) : Nat → Nat → Nat → Nat
  | 0, first, _ => first
  | fuel + 1, first, len =>
    if len = 0 then first
    else
      let half := len / 2
      if p (first + half) then partitionLoop p fuel (first + half + 1) (len - half - 1)
      else partitionLoop p fuel first half

def partitionPoint (p : Nat → Bool) (first len : Nat) : Nat := partitionLoop p len first len

theorem partitionLoop_mem (p : Nat → Bool) : ∀ (fuel first len : Nat),
    first ≤ partitionLoop p fuel first len ∧ partitionLoop p fuel first len ≤ first + len := by
  intro fuel
  induction fuel with
  | zero => intro first len; exact ⟨Nat.le_refl _, Nat.le_add_right _ _⟩
  | succ fuel ih =>
      intro first len
      rw [partitionLoop]
      by_cases hlen : len = 0
      · rw [if_pos hlen]; omega
      · rw [if_neg hlen]
        dsimp only
        split
        · have := ih (first + len / 2 + 1) (len - len / 2 - 1)
          omega
        · have := ih first (len / 2)
          omega

/-- The search never leaves its range. -/
theorem partitionPoint_mem (p : Nat → Bool) (first len : Nat) :
    first ≤ partitionPoint p first len ∧ partitionPoint p first len ≤ first + len :=
  partitionLoop_mem p len first len

theorem partitionLoop_isPoint {p : Nat → Bool} : ∀ (fuel first len : Nat), len ≤ fuel →
    Partitioned p first (first + len) →
    IsPoint p first (first + len) (partitionLoop p fuel first len) := by
  intro fuel
  induction fuel with
  | zero =>
      intro first len hfuel _
      exact ⟨Nat.le_refl _,
        Nat.le_add_right _ _, by intro i h1 h2; simp [partitionLoop] at h2; omega,
        by intro i h1 h2; simp [partitionLoop] at h1; omega⟩
  | succ fuel ih =>
      intro first len hfuel hp
      rw [partitionLoop]
      by_cases hlen : len = 0
      · rw [if_pos hlen]
        exact ⟨Nat.le_refl _, by omega, by intro i h1 h2; omega, by intro i h1 h2; omega⟩
      · rw [if_neg hlen]
        dsimp only
        have hmid : first + len / 2 < first + len := by omega
        by_cases hpm : p (first + len / 2) = true
        · -- everything up to the middle satisfies `p`, so the point is to its right
          rw [if_pos hpm]
          have hsub := ih (first + len / 2 + 1) (len - len / 2 - 1) (by omega)
            fun i j h1 h2 h3 h4 => hp i j (by omega) h2 (by omega) h4
          have hend : first + len / 2 + 1 + (len - len / 2 - 1) = first + len := by omega
          rw [hend] at hsub
          refine ⟨by have := hsub.lower; omega, hsub.upper, ?_, hsub.above⟩
          intro i h1 h2
          rcases Nat.lt_or_ge i (first + len / 2 + 1) with hi | hi
          · exact hp i (first + len / 2) h1 (by omega) hmid hpm
          · exact hsub.below i hi h2
        · rw [if_neg hpm]
          have hsub := ih first (len / 2) (by omega)
            fun i j h1 h2 h3 h4 => hp i j h1 h2 (by omega) h4
          refine ⟨hsub.lower, by have := hsub.upper; omega, hsub.below, ?_⟩
          intro i h1 h2
          rcases Nat.lt_or_ge i (first + len / 2) with hi | hi
          · exact hsub.above i h1 hi
          · by_contra hc
            exact hpm (hp (first + len / 2) i (by omega) hi h2 (by simpa using hc))

/-- On a partitioned range the search returns its partition point. -/
theorem partitionPoint_isPoint {p : Nat → Bool} {first len : Nat}
    (hp : Partitioned p first (first + len)) :
    IsPoint p first (first + len) (partitionPoint p first len) :=
  partitionLoop_isPoint len first len (Nat.le_refl len) hp

/-! ### The closed-interval search -/

/-- `while (l < r) { mid = (l + r) >> 1; if (p mid) l = mid + 1; else r = mid; }`, then `l`. -/
def bisectLoop (p : Nat → Bool) : Nat → Nat → Nat → Nat
  | 0, l, _ => l
  | fuel + 1, l, r =>
    if l < r then
      if p ((l + r) / 2) then bisectLoop p fuel ((l + r) / 2 + 1) r
      else bisectLoop p fuel l ((l + r) / 2)
    else l

def bisect (p : Nat → Bool) (l r : Nat) : Nat := bisectLoop p (r - l) l r

theorem bisectLoop_isPoint {p : Nat → Bool} : ∀ (fuel l r : Nat), l ≤ r → r - l ≤ fuel →
    Partitioned p l r → IsPoint p l r (bisectLoop p fuel l r) := by
  intro fuel
  induction fuel with
  | zero =>
      intro l r hlr hfuel _
      exact ⟨Nat.le_refl _, hlr, by intro i h1 h2; simp [bisectLoop] at h2; omega,
        by intro i h1 h2; simp [bisectLoop] at h1; omega⟩
  | succ fuel ih =>
      intro l r hlr hfuel hp
      rw [bisectLoop]
      by_cases hlt : l < r
      · rw [if_pos hlt]
        by_cases hpm : p ((l + r) / 2) = true
        · rw [if_pos hpm]
          have hsub := ih ((l + r) / 2 + 1) r (by omega) (by omega)
            fun i j h1 h2 h3 h4 => hp i j (by omega) h2 h3 h4
          refine ⟨by have := hsub.lower; omega, hsub.upper, ?_, hsub.above⟩
          intro i h1 h2
          rcases Nat.lt_or_ge i ((l + r) / 2 + 1) with hi | hi
          · exact hp i ((l + r) / 2) h1 (by omega) (by omega) hpm
          · exact hsub.below i hi h2
        · rw [if_neg hpm]
          have hsub := ih l ((l + r) / 2) (by omega) (by omega)
            fun i j h1 h2 h3 h4 => hp i j h1 h2 (by omega) h4
          refine ⟨hsub.lower, by have := hsub.upper; omega, hsub.below, ?_⟩
          intro i h1 h2
          rcases Nat.lt_or_ge i ((l + r) / 2) with hi | hi
          · exact hsub.above i h1 hi
          · by_contra hc
            exact hpm (hp ((l + r) / 2) i (by omega) hi h2 (by simpa using hc))
      · rw [if_neg hlt]
        exact ⟨Nat.le_refl _, hlr, by intro i h1 h2; omega, by intro i h1 h2; omega⟩

/-- The closed-interval search returns the partition point of `[l, r)`; in particular it
returns `r` when `p` holds of every element it looked at. -/
theorem bisect_isPoint {p : Nat → Bool} {l r : Nat} (hlr : l ≤ r) (hp : Partitioned p l r) :
    IsPoint p l r (bisect p l r) :=
  bisectLoop_isPoint (r - l) l r hlr (Nat.le_refl _) hp

/-! ### Inserting at a partition point -/

section Insert

variable {α : Type}

theorem insertIdx_eq_take_append (a : α) : ∀ (l : List α) (i : Nat), i ≤ l.length →
    l.insertIdx i a = l.take i ++ a :: l.drop i := by
  intro l
  induction l with
  | nil => intro i hi; simp at hi; simp [hi]
  | cons b l ih =>
      intro i hi
      cases i with
      | zero => simp
      | succ i => simp [ih i (by simpa using hi)]

/-- An element that belongs between its neighbours keeps a list in order. -/
theorem pairwise_insertIdx {R : α → α → Prop} {l : List α} (h : l.Pairwise R) {i : Nat}
    (hi : i ≤ l.length) {e : α} (hbelow : ∀ a ∈ l.take i, R a e) (habove : ∀ a ∈ l.drop i, R e a)
    (htrans : ∀ a b c, R a b → R b c → R a c) : (l.insertIdx i e).Pairwise R := by
  rw [insertIdx_eq_take_append e l i hi, List.pairwise_append, List.pairwise_cons]
  refine ⟨h.sublist (List.take_sublist _ _), ⟨habove, h.sublist (List.drop_sublist _ _)⟩,
    fun a ha b hb => ?_⟩
  rcases List.mem_cons.mp hb with rfl | hb
  · exact hbelow a ha
  · exact htrans _ _ _ (hbelow a ha) (habove b hb)

end Insert

/-- A new element goes to its partition point. -/
theorem IsPoint.pairwise_insertIdx {α : Type} [LinearOrder α] {f : Nat → α} {n r : Nat} {a : α}
    (h : IsPoint (fun i => decide (f i < a)) 0 n r) (hs : ∀ i j, i < j → j < n → f i < f j)
    (hne : ∀ i, i < n → f i ≠ a) :
    (((List.range n).map f).insertIdx r a).Pairwise (· < ·) := by
  have hle : r ≤ ((List.range n).map f).length := by simpa using h.upper
  refine Search.pairwise_insertIdx ?_ hle (fun b hb => ?_) (fun b hb => ?_)
    fun _ _ _ => lt_trans
  · refine List.pairwise_iff_getElem.mpr fun i j hi hj hij => ?_
    rw [List.length_map, List.length_range] at hi hj
    simpa using hs i j hij hj
  · obtain ⟨i, hi, rfl⟩ := List.mem_iff_getElem.mp hb
    rw [List.length_take] at hi
    have hlt := h.below i (Nat.zero_le i) (by omega)
    simpa using hlt
  · obtain ⟨i, hi, rfl⟩ := List.mem_iff_getElem.mp hb
    rw [List.length_drop, List.length_map, List.length_range] at hi
    have hge := h.above (r + i) (Nat.le_add_right r i) (by omega)
    have hnot : a ≤ f (r + i) := by simpa using hge
    simpa using lt_of_le_of_ne hnot (hne (r + i) (by omega)).symm

end Search
