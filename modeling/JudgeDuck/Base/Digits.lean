/-
Words as fixed numbers of digits.

A word that is put together digit by digit, least significant first, with `or` and
shifts is the number with these digits (`or_shift`), and every number is that of its
digits (`ofDigits_div_mod`).  That the digits are determined by the number is
`Nat.ofDigits_inj_of_len_eq`.
-/
import Mathlib

namespace Digits

/-- The digits of a number, up to a power of the base. -/
theorem ofDigits_div_mod (b n : Nat) : ∀ k,
    Nat.ofDigits b ((List.range k).map fun i => n / b ^ i % b) = n % b ^ k := by
  intro k
  induction k with
  | zero => simp [Nat.mod_one]
  | succ k ih =>
      rw [List.range_succ, List.map_append, Nat.ofDigits_append, ih, List.length_map,
        List.length_range, List.map_singleton, Nat.ofDigits_singleton, Nat.mod_pow_succ]

/-- A digit above all the others. -/
theorem or_shift {a v : UInt64} {j : Nat} (hj : j < 16) (ha : a.toNat < 16 ^ j)
    (hv : v.toNat < 16) :
    (a ||| v <<< UInt64.ofNat (j * 4)).toNat = a.toNat + 16 ^ j * v.toNat := by
  have hshift : (UInt64.ofNat (j * 4)).toNat % 64 = 4 * j := by
    rw [UInt64.toNat_ofNat_of_lt' (by simp only [UInt64.size]; omega)]
    omega
  have hpow : 2 ^ (4 * j) = 16 ^ j := by rw [Nat.pow_mul]
  have hle : 16 ^ j * 16 ≤ 2 ^ 64 := by
    rw [← Nat.pow_succ, (by decide : 2 ^ 64 = 16 ^ 16)]
    exact Nat.pow_le_pow_right (by decide) hj
  have hlt : v.toNat * 16 ^ j < 2 ^ 64 := by
    calc v.toNat * 16 ^ j < 16 * 16 ^ j := Nat.mul_lt_mul_of_pos_right hv (Nat.pow_pos (by decide))
      _ ≤ 2 ^ 64 := by omega
  rw [UInt64.toNat_or, UInt64.toNat_shiftLeft, hshift, Nat.shiftLeft_eq, hpow, Nat.mod_eq_of_lt hlt,
    Nat.lor_comm, Nat.mul_comm, ← hpow, ← Nat.two_pow_add_eq_or_of_lt (hpow ▸ ha), Nat.add_comm]

/-- The digits up to the next one. -/
theorem add_mul_lt {a v j : Nat} (ha : a < 16 ^ j) (hv : v < 16) :
    a + 16 ^ j * v < 16 ^ (j + 1) := by
  have hle : 16 ^ j * v ≤ 16 ^ j * 15 := Nat.mul_le_mul_left _ (by omega)
  rw [Nat.pow_succ]
  omega

end Digits
