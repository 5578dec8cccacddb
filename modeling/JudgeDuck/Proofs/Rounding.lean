/-
Rounding in 64 bits and the virtual memory allocator.

`round_up` is exact as long as `x + r - 1` does not pass 2^64, and in every case
its result is a multiple of `r`.  The allocator takes its block from the top of
the user's space, so with an exact rounding the block lies between the kernel's
break and the old `vaddr_break`.
-/
import JudgeDuck.Model.Memory

namespace JudgeDuck

namespace Utils

/-- A sum that does not wrap. -/
theorem toNat_add_of_lt {a b : UInt64} (h : a.toNat + b.toNat < 2 ^ 64) :
    (a + b).toNat = a.toNat + b.toNat := by
  rw [UInt64.toNat_add, Nat.mod_eq_of_lt h]

theorem roundUp_toNat {x r : UInt64} (hr : 0 < r.toNat) (h : x.toNat + r.toNat ≤ 2 ^ 64) :
    (roundUp x r).toNat = (x.toNat + (r.toNat - 1)) / r.toNat * r.toNat := by
  have hadd : (x + r - 1).toNat = x.toNat + (r.toNat - 1) := by
    rw [UInt64.toNat_sub, UInt64.toNat_add, UInt64.toNat_one]
    have := r.toNat_lt
    omega
  have hle : (x.toNat + (r.toNat - 1)) / r.toNat * r.toNat ≤ x.toNat + (r.toNat - 1) :=
    Nat.div_mul_le_self _ _
  rw [roundUp, UInt64.toNat_mul, UInt64.toNat_div, hadd, Nat.mod_eq_of_lt (by omega)]

/-- `n` rounded up to whole pages. -/
def pageUp (n : Nat) : Nat := (n + 4095) / 4096 * 4096

theorem le_pageUp (n : Nat) : n ≤ pageUp n := by
  unfold pageUp
  omega

theorem pageUp_mod (n : Nat) : pageUp n % 4096 = 0 := Nat.mul_mod_left _ _

theorem pageUp_le {n k : Nat} (h : n ≤ k) (hk : k % 4096 = 0) : pageUp n ≤ k := by
  unfold pageUp
  omega

/-- Rounding up to pages is exact, or it wraps to 0. -/
theorem roundUp_page (x : UInt64) :
    x.toNat + 4095 < 2 ^ 64 ∧ (roundUp x Memory.pageSize).toNat = pageUp x.toNat ∨
    2 ^ 64 ≤ x.toNat + 4095 ∧ (roundUp x Memory.pageSize).toNat = 0 := by
  have hp : Memory.pageSize.toNat = 4096 := rfl
  have hx := x.toNat_lt
  have hadd : (x + Memory.pageSize - 1).toNat = (x.toNat + 4095) % 2 ^ 64 := by
    rw [UInt64.toNat_sub, UInt64.toNat_add, UInt64.toNat_one, hp]
    omega
  have hdiv : (roundUp x Memory.pageSize).toNat = (x.toNat + 4095) % 2 ^ 64 / 4096 * 4096 := by
    rw [roundUp, UInt64.toNat_mul, UInt64.toNat_div, hadd, hp]
    omega
  rw [hdiv, pageUp]
  by_cases h : x.toNat + 4095 < 2 ^ 64
  · exact Or.inl ⟨h, by rw [Nat.mod_eq_of_lt h]⟩
  · exact Or.inr ⟨by omega, by omega⟩

/-- A rounding that is not 0 did not wrap. -/
theorem roundUp_of_pos {x : UInt64} (h : 0 < (roundUp x Memory.pageSize).toNat) :
    (roundUp x Memory.pageSize).toNat = pageUp x.toNat := by
  rcases roundUp_page x with ⟨_, hr⟩ | ⟨_, hr⟩
  · exact hr
  · omega

theorem roundDown_toNat (x r : UInt64) : (roundDown x r).toNat = x.toNat / r.toNat * r.toNat := by
  have hle : x.toNat / r.toNat * r.toNat ≤ x.toNat := Nat.div_mul_le_self _ _
  have := x.toNat_lt
  rw [roundDown, UInt64.toNat_mul, UInt64.toNat_div, Nat.mod_eq_of_lt (by omega)]

end Utils

namespace Memory

open Utils

@[simp] theorem toNat_pageSize : pageSize.toNat = 4096 := rfl

@[simp] theorem toNat_hugePageSize : hugePageSize.toNat = 2097152 := rfl

@[simp] theorem toNat_kernelBreak : kernelBreak.toNat = 4194304 := rfl

/-- A block fits below the old break and above the kernel's, and starts at the new one. -/
theorem allocateVirtualMemory_bounds {vaddrBreak size a : UInt64}
    (hsize : size.toNat + 2097152 ≤ 2 ^ 64) (hbreak : kernelBreak ≤ vaddrBreak)
    (h : allocateVirtualMemory vaddrBreak size = some a) :
    kernelBreak.toNat ≤ a.toNat ∧ a.toNat + size.toNat ≤ vaddrBreak.toNat := by
  have hround := roundUp_toNat (r := hugePageSize) (by decide) hsize
  rw [toNat_hugePageSize] at hround
  rw [UInt64.le_iff_toNat_le] at hbreak
  unfold allocateVirtualMemory at h
  dsimp only at h
  split at h
  · cases h
  · rename_i hfit
    rw [UInt64.not_lt, UInt64.le_iff_toNat_le, UInt64.toNat_sub_of_le _ _
      (UInt64.le_iff_toNat_le.mpr hbreak)] at hfit
    rw [Option.some.injEq] at h
    have hle : roundUp size hugePageSize ≤ vaddrBreak := by
      rw [UInt64.le_iff_toNat_le]
      omega
    have ha : a.toNat = vaddrBreak.toNat - (roundUp size hugePageSize).toNat := by
      rw [← h, UInt64.toNat_sub_of_le _ _ hle]
    omega

/-- A block starts at a page if the old break is one. -/
theorem allocateVirtualMemory_aligned {vaddrBreak size a : UInt64}
    (hvb : vaddrBreak.toNat % 4096 = 0) (h : allocateVirtualMemory vaddrBreak size = some a) :
    a.toNat % 4096 = 0 := by
  unfold allocateVirtualMemory at h
  dsimp only at h
  split at h
  · cases h
  · rw [← Option.some.inj h, UInt64.toNat_sub, roundUp, UInt64.toNat_mul, toNat_hugePageSize]
    omega

end Memory

end JudgeDuck
