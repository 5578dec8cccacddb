/-
Fields of bits.

A mask of consecutive ones selects a field of a number where it stands (`and_field`):
the field is read with a division and a remainder, so the rest of an argument about
packed words is arithmetic.
-/
import Mathlib

namespace Bits

/-- `n` ones from bit `k` on. -/
def mask (n k : Nat) : Nat := (2 ^ n - 1) * 2 ^ k

theorem and_field (x n k : Nat) : x &&& mask n k = x / 2 ^ k % 2 ^ n * 2 ^ k := by
  refine Nat.eq_of_testBit_eq fun i => ?_
  rw [mask, Nat.testBit_and, Nat.testBit_mul_two_pow, Nat.testBit_mul_two_pow,
    Nat.testBit_two_pow_sub_one, Nat.testBit_mod_two_pow, Nat.testBit_div_two_pow]
  by_cases hk : k ≤ i
  · rw [Nat.sub_add_cancel hk]
    simp only [hk, decide_true, Bool.true_and]
    exact Bool.and_comm _ _
  · simp only [hk, decide_false, Bool.false_and, Bool.and_false]

/-- The bits from `k` on, of a number below `2 ^ (k + n)`. -/
theorem and_high {x n k : Nat} (h : x < 2 ^ (k + n)) : x &&& mask n k = x / 2 ^ k * 2 ^ k := by
  rw [and_field, Nat.mod_eq_of_lt]
  rw [Nat.div_lt_iff_lt_mul (Nat.two_pow_pos k), Nat.mul_comm, ← Nat.pow_add]
  exact h

/-- A field above all the others. -/
theorem or_field {a k : Nat} (h : a < 2 ^ k) (b : Nat) : a ||| b * 2 ^ k = a + b * 2 ^ k := by
  rw [Nat.lor_comm, Nat.mul_comm, ← Nat.two_pow_add_eq_or_of_lt h, Nat.add_comm]

/-- Ones from bit `k` on leave the bits below. -/
theorem or_high {x n k : Nat} (h : x < 2 ^ (k + n)) : x ||| mask n k = x % 2 ^ k + mask n k := by
  have hlow : x % 2 ^ k < 2 ^ k := Nat.mod_lt _ (Nat.two_pow_pos k)
  rw [mask, ← or_field hlow]
  refine Nat.eq_of_testBit_eq fun i => ?_
  rw [Nat.testBit_or, Nat.testBit_or, Nat.testBit_mul_two_pow, Nat.testBit_two_pow_sub_one,
    Nat.testBit_mod_two_pow]
  by_cases hk : i < k
  · simp only [hk, decide_true, Bool.true_and]
  · by_cases hi : i < k + n
    · have h1 : k ≤ i := by omega
      have h2 : i - k < n := by omega
      simp only [h1, h2, decide_true, Bool.and_self, Bool.or_true]
    · have hbit : x.testBit i = false :=
        Nat.testBit_lt_two_pow (Nat.lt_of_lt_of_le h (Nat.pow_le_pow_right (by decide) (by omega)))
      simp only [hbit, hk, decide_false, Bool.false_and]

end Bits
