/-
Counters modulo the size of a ring.

A ring of `n` slots is driven by 32-bit indices that wrap.  Each index stands for an
ever growing counter: `At n x k` says that `x` is the counter `k` modulo `n`.
Advancing the index advances the counter, and two indices whose counters are less
than `n` apart are equal exactly when the counters are, so full and empty cannot be
confused as long as one slot stays free.
-/
import Mathlib

namespace Ring

/-- The index `x` is the counter `k`, modulo the size of the ring. -/
def At (n x : UInt32) (k : Nat) : Prop := x.toNat = k % n.toNat

theorem At.lt {n x : UInt32} {k : Nat} (h : At n x k) (hn : 0 < n.toNat) : x.toNat < n.toNat := by
  rw [h]
  exact Nat.mod_lt _ hn

/-- `x = (x + 1) % n`. -/
theorem At.next {n x : UInt32} {k : Nat} (h : At n x k) (hn : 0 < n.toNat) :
    At n ((x + 1) % n) (k + 1) := by
  have hlt := h.lt hn
  have htop := n.toNat_lt
  have hadd : (x + 1).toNat = x.toNat + 1 := by
    rw [UInt32.toNat_add, UInt32.toNat_one]
    omega
  unfold At at h ⊢
  rw [UInt32.toNat_mod, hadd, h, Nat.mod_add_mod]

/-- Counters less than a round apart that fall on one slot are equal. -/
theorem eq_of_mod_eq {n i j : Nat} (hij : i ≤ j) (hj : j < i + n) (h : i % n = j % n) : i = j := by
  have hdvd : n ∣ j - i := (Nat.modEq_iff_dvd' hij).mp h
  have hzero : j - i = 0 := Nat.eq_zero_of_dvd_of_lt hdvd (by omega)
  omega

theorem At.eq_iff {n x y : UInt32} {i j : Nat} (hx : At n x i) (hy : At n y j) (hij : i ≤ j)
    (hj : j < i + n.toNat) : x = y ↔ i = j := by
  constructor
  · intro h
    refine eq_of_mod_eq hij hj ?_
    rw [← hx, ← hy, h]
  · intro h
    subst h
    exact UInt32.toNat.inj (hx.trans hy.symm)

/-- A divisor of the size divides the index exactly when it divides the counter. -/
theorem At.mod_eq_zero_iff {n x d : UInt32} {k : Nat} (h : At n x k) (hd : d.toNat ∣ n.toNat) :
    x % d = 0 ↔ k % d.toNat = 0 := by
  have hmod : (x % d).toNat = k % d.toNat := by
    rw [UInt32.toNat_mod, h, Nat.mod_mod_of_dvd _ hd]
  rw [← hmod]
  constructor
  · intro h0
    rw [h0]
    rfl
  · intro h0
    exact UInt32.toNat.inj h0

end Ring
