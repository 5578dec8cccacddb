/-
Decimal numbers and separators in strings of bytes.

A string with a given number of separators is cut at them in exactly one way
(`cut_unique`), and the value of a run of digits grows by a power of ten with what is
put behind it.
-/
import Mathlib

namespace Decimal

def IsDigit (c : UInt8) : Prop := 48 ≤ c.toNat ∧ c.toNat ≤ 57

instance (c : UInt8) : Decidable (IsDigit c) := inferInstanceAs (Decidable (_ ∧ _))

/-- The number that digits behind the number `n` stand for. -/
def value (n : Nat) (r : List UInt8) : Nat := r.foldl (fun n c => n * 10 + (c.toNat - 48)) n

theorem value_append (n : Nat) (r t : List UInt8) : value n (r ++ t) = value (value n r) t :=
  List.foldl_append

theorem mul_le_value (r : List UInt8) : ∀ n, n * 10 ^ r.length ≤ value n r := by
  induction r with
  | nil => exact fun n => by rw [List.length_nil, Nat.pow_zero, Nat.mul_one]; exact Nat.le_refl n
  | cons c r ih =>
      intro n
      have hle := ih (n * 10 + (c.toNat - 48))
      calc n * 10 ^ (c :: r).length = n * 10 * 10 ^ r.length := by
            rw [List.length_cons, Nat.pow_succ', Nat.mul_assoc]
        _ ≤ (n * 10 + (c.toNat - 48)) * 10 ^ r.length :=
            Nat.mul_le_mul_right _ (Nat.le_add_right _ _)
        _ ≤ value n (c :: r) := hle

/-- A number with digits behind it is no smaller. -/
theorem le_value (n : Nat) (r : List UInt8) : n ≤ value n r :=
  Nat.le_trans (Nat.le_mul_of_pos_right n (Nat.pow_pos (by decide))) (mul_le_value r n)

section

variable {α : Type} {sep : α} {r r' t t' : List α}

/-- The first separator is in one place. -/
theorem cut_unique (hr : sep ∉ r) (hr' : sep ∉ r') (h : r ++ sep :: t = r' ++ sep :: t') :
    r = r' ∧ t = t' := by
  induction r generalizing r' with
  | nil =>
      cases r' with
      | nil => exact ⟨rfl, (List.cons.inj h).2⟩
      | cons c r' =>
          obtain ⟨hc, -⟩ := List.cons.inj h
          exact (hr' (hc ▸ List.mem_cons_self)).elim
  | cons c r ih =>
      cases r' with
      | nil =>
          obtain ⟨hc, -⟩ := List.cons.inj h
          exact (hr (hc ▸ List.mem_cons_self)).elim
      | cons c' r' =>
          obtain ⟨hc, h⟩ := List.cons.inj h
          obtain ⟨hrr, htt⟩ := ih (fun hm => hr (List.mem_cons_of_mem c hm))
            (fun hm => hr' (List.mem_cons_of_mem c' hm)) h
          exact ⟨by rw [hc, hrr], htt⟩

variable [DecidableEq α]

/-- A string with separators is cut at the first one. -/
theorem exists_cut {s : List α} {n : Nat} (h : s.count sep = n + 1) :
    ∃ r t, s = r ++ sep :: t ∧ sep ∉ r ∧ t.count sep = n := by
  have hmem : sep ∈ s := List.count_pos_iff.mp (by omega)
  obtain ⟨r, t, hs, hr⟩ := List.eq_append_cons_of_mem hmem
  refine ⟨r, t, hs, hr, ?_⟩
  rw [hs, List.count_append, List.count_eq_zero_of_not_mem hr, List.count_cons_self] at h
  omega

end

end Decimal
