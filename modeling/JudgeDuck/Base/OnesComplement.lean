/-
One's complement sums of 16-bit words.

The words are little-endian, and a last odd byte is a word of its own.  Folding the
carries of a sum back in leaves its residue modulo 65535, where only the sum 0 has the
residue 0: another multiple of 65535 is folded to 65535.  A field with the complement of
the folded sum makes the whole sum such a multiple.
-/
import JudgeDuck.Base.Mem

namespace JudgeDuck

/-- The exact sum of the words of a list of bytes. -/
def wordSum : List UInt8 → Nat
  | [] => 0
  | [b] => b.toNat
  | b0 :: b1 :: bs => b0.toNat + 256 * b1.toNat + wordSum bs

/-- What is left when all carries are folded back in. -/
def folded (n : Nat) : Nat := if n = 0 then 0 else (n - 1) % 65535 + 1

theorem wordSum_append : ∀ (bs cs : List UInt8), bs.length % 2 = 0 →
    wordSum (bs ++ cs) = wordSum bs + wordSum cs
  | [], cs, _ => by rw [List.nil_append, wordSum, Nat.zero_add]
  | [b], cs, h => by simp at h
  | b0 :: b1 :: bs, cs, h => by
    have heven : bs.length % 2 = 0 := by
      simp only [List.length_cons] at h
      omega
    rw [List.cons_append, List.cons_append, wordSum, wordSum, wordSum_append bs cs heven]
    omega

theorem wordSum_le : ∀ bs : List UInt8, wordSum bs ≤ 65535 * ((bs.length + 1) / 2)
  | [] => Nat.zero_le _
  | [b] => by
    have := b.toNat_lt
    simp only [wordSum, List.length_singleton]
    omega
  | b0 :: b1 :: bs => by
    have ih := wordSum_le bs
    have := b0.toNat_lt
    have := b1.toNat_lt
    simp only [wordSum, List.length_cons]
    omega

theorem folded_le (n : Nat) : folded n ≤ 65535 := by
  unfold folded
  split <;> omega

theorem folded_of_lt {n : Nat} (h : n < 65536) : folded n = n := by
  unfold folded
  split <;> omega

/-- One round of folding. -/
theorem folded_fold (n : Nat) : folded (n % 65536 + n / 65536) = folded n := by
  unfold folded
  split <;> split <;> omega

/-- The complement fills the sum up to a multiple of 65535. -/
theorem folded_add_complement (n : Nat) : folded (n + (65535 - folded n)) = 65535 := by
  unfold folded
  split <;> split <;> omega

theorem folded_eq_max_iff (n : Nat) : folded n = 65535 ↔ n ≠ 0 ∧ 65535 ∣ n := by
  unfold folded
  split <;> omega

end JudgeDuck
