/-
The conversions of ticks and the timer of a run.

A product of two words is divided in two ways: `mul_div` splits both factors, the timer
splits one of them.  The exact quotient is the sum of the parts, and only the division
inside of it must not wrap.  The timer rounds the period down and the number of periods
as well, and the 20 periods on top of them pay for both.
-/
import JudgeDuck.Model.Timer
import JudgeDuck.Model.DuckNet.Arp

namespace JudgeDuck

/-! ### Quotients of split products -/

/-- One factor is split by the divisor. -/
theorem mul_div_split (a b d : Nat) : a * b / d = a / d * b + a % d * b / d := by
  rcases Nat.eq_zero_or_pos d with rfl | hd
  · simp
  · have ha : a * b = d * (a / d * b) + a % d * b := by
      conv_lhs => rw [← Nat.div_add_mod a d]
      rw [Nat.add_mul, Nat.mul_assoc]
    rw [ha, Nat.mul_add_div hd]

/-- Both factors are split. -/
theorem mul_div_split_both (a b d : Nat) :
    a * b / d = a / d * (b / d) * d + a / d * (b % d) + a % d * (b / d) + a % d * (b % d) / d := by
  have hb : a / d * b = a / d * (b / d) * d + a / d * (b % d) := by
    conv_lhs => rw [← Nat.div_add_mod b d]
    ring
  have hr : a % d * b / d = a % d * (b / d) + a % d * (b % d) / d := by
    rw [Nat.mul_comm, mul_div_split, Nat.mul_comm (b / d), Nat.mul_comm (b % d)]
  rw [mul_div_split, hb, hr]
  omega

namespace Timer

/-- The conversion is the exact quotient modulo 2^64. -/
theorem ticksToNs_eq {freq : UInt64} (h0 : 0 < freq) (hmax : freq ≤ 18446744073) (ticks : UInt64) :
    ticksToNs freq ticks = UInt64.ofNat (ticks.toNat * 1000000000 / freq.toNat) := by
  rw [UInt64.lt_iff_toNat_lt] at h0
  rw [UInt64.le_iff_toNat_le] at hmax
  have hfreq : (18446744073 : UInt64).toNat = 18446744073 := rfl
  have hns : (1000000000 : UInt64).toNat = 1000000000 := rfl
  have hr : ticks.toNat % freq.toNat < freq.toNat := Nat.mod_lt _ h0
  have hfit : ticks.toNat % freq.toNat * 1000000000 < 2 ^ 64 := by omega
  refine UInt64.toNat_inj.mp ?_
  rw [ticksToNs, UInt64.toNat_add, UInt64.toNat_mul, UInt64.toNat_div, UInt64.toNat_div,
    UInt64.toNat_mul, UInt64.toNat_mod, hns, Nat.mod_eq_of_lt hfit, UInt64.toNat_ofNat',
    mul_div_split ticks.toNat, Nat.mod_add_mod]

end Timer

namespace DuckNet

/-- `mul_div` is the exact quotient modulo 2^64. -/
theorem mulDiv_eq {d : UInt64} (h0 : 0 < d) (hmax : d ≤ 4294967296) (a b : UInt64) :
    mulDiv a b d = UInt64.ofNat (a.toNat * b.toNat / d.toNat) := by
  rw [UInt64.lt_iff_toNat_lt] at h0
  rw [UInt64.le_iff_toNat_le] at hmax
  have hd : (4294967296 : UInt64).toNat = 2 ^ 32 := rfl
  rw [hd] at hmax
  have hy : a.toNat % d.toNat < d.toNat := Nat.mod_lt _ h0
  have hv : b.toNat % d.toNat < d.toNat := Nat.mod_lt _ h0
  -- the product under the division does not wrap
  have hfit : a.toNat % d.toNat * (b.toNat % d.toNat) < 2 ^ 64 :=
    calc a.toNat % d.toNat * (b.toNat % d.toNat)
        < d.toNat * d.toNat := Nat.mul_lt_mul_of_lt_of_lt hy hv
      _ ≤ 2 ^ 32 * 2 ^ 32 := Nat.mul_le_mul hmax hmax
      _ = 2 ^ 64 := by norm_num
  refine UInt64.toNat_inj.mp ?_
  rw [mul_div_split_both]
  simp only [mulDiv, UInt64.toNat_add, UInt64.toNat_mul, UInt64.toNat_div, UInt64.toNat_mod,
    UInt64.toNat_ofNat', Nat.mod_eq_of_lt hfit]
  simp only [Nat.mod_add_mod, Nat.add_mod_mod, Nat.mod_mul_mod]

end DuckNet

namespace Timer

open DuckNet

/-- The quotients are in the order of the ticks, and so are the words that hold them. -/
theorem ofNat_div_mono {freq t t' : UInt64} (h : t ≤ t')
    (hfit : t'.toNat * 1000000000 / freq.toNat < 2 ^ 64) :
    UInt64.ofNat (t.toNat * 1000000000 / freq.toNat)
      ≤ UInt64.ofNat (t'.toNat * 1000000000 / freq.toNat) := by
  have hle : t.toNat * 1000000000 / freq.toNat ≤ t'.toNat * 1000000000 / freq.toNat :=
    Nat.div_le_div_right (Nat.mul_le_mul_right _ (UInt64.le_iff_toNat_le.mp h))
  rw [UInt64.le_iff_toNat_le, UInt64.toNat_ofNat', UInt64.toNat_ofNat', Nat.mod_eq_of_lt hfit,
    Nat.mod_eq_of_lt (Nat.lt_of_le_of_lt hle hfit)]
  exact hle

/-- Both conversions are exact modulo 2^64; so they agree, and are monotone as long as the exact
quotient is a word. -/
theorem conversions_exact :
    (∀ a b d : UInt64, 0 < d → d ≤ 4294967296 →
      mulDiv a b d = UInt64.ofNat (a.toNat * b.toNat / d.toNat)) ∧
    (∀ f t : UInt64, 0 < f → f ≤ 18446744073 →
      tscToNs f t = UInt64.ofNat (t.toNat * 1000000000 / f.toNat) ∧
      clkToNs f t = UInt64.ofNat (t.toNat * 1000000000 / f.toNat)) ∧
    ∀ f : UInt64, 0 < f → f ≤ 4294967296 →
      (∀ t, tscToNs f t = timeToNs f t) ∧
      ∀ t t', t ≤ t' → t'.toNat * 1000000000 / f.toNat < 2 ^ 64 →
        tscToNs f t ≤ tscToNs f t' ∧ timeToNs f t ≤ timeToNs f t' := by
  refine ⟨fun a b d h0 hmax => mulDiv_eq h0 hmax a b,
    fun f t h0 hmax => ⟨ticksToNs_eq h0 hmax t, ticksToNs_eq h0 hmax t⟩, fun f h0 hmax => ?_⟩
  have hwide : f ≤ 18446744073 := UInt64.le_trans hmax (by decide)
  have htsc : ∀ t, tscToNs f t = UInt64.ofNat (t.toNat * 1000000000 / f.toNat) := fun t =>
    ticksToNs_eq h0 hwide t
  have htime : ∀ t, timeToNs f t = UInt64.ofNat (t.toNat * 1000000000 / f.toNat) := fun t =>
    mulDiv_eq h0 hmax t 1000000000
  refine ⟨fun t => (htsc t).trans (htime t).symm, fun t t' hle hfit => ?_⟩
  rw [htsc, htsc, htime, htime]
  exact ⟨ofNat_div_mono hle hfit, ofNat_div_mono hle hfit⟩

theorem conversions_exact_one : tscToNs 3000000000 18446744073709551615
    = timeToNs 3000000000 18446744073709551615 ∧ tscToNs 3000000000 1 ≤ tscToNs 3000000000 2 := by
  obtain ⟨heq, hmono⟩ := conversions_exact.2.2 3000000000 (by decide) (by decide)
  exact ⟨heq _, (hmono 1 2 (by decide) (by decide)).1⟩

/-! ### The timer of a run -/

theorem trap32_some {cnt : UInt64} (h : 1 < cnt.toNat) :
    trap32 cnt = some (cnt - 1) ∧ (cnt - 1).toNat = cnt.toNat - 1 := by
  have hsub : (cnt - 1).toNat = cnt.toNat - 1 :=
    UInt64.toNat_sub_of_le cnt 1 (UInt64.le_iff_toNat_le.mpr (Nat.le_of_lt h))
  refine ⟨if_neg fun h0 => ?_, hsub⟩
  rw [h0] at hsub
  have : (0 : UInt64).toNat = 0 := rfl
  omega

theorem trap32_none {cnt : UInt64} (h : cnt.toNat = 1) : trap32 cnt = none := by
  have hone : cnt = 1 := UInt64.toNat_inj.mp h
  rw [hone]
  rfl

/-- The handler returns as long as the counter is larger than the number of interrupts. -/
theorem interrupts_some : ∀ (k : Nat) (cnt : UInt64), k < cnt.toNat →
    (interrupts k cnt).isSome := by
  intro k
  induction k with
  | zero => intro cnt _; rfl
  | succ k ih =>
      intro cnt hk
      obtain ⟨htrap, hsub⟩ := trap32_some (show 1 < cnt.toNat by omega)
      rw [interrupts, htrap, Option.bind_some]
      exact ih _ (by omega)

/-- The interrupt with the number of the counter becomes a trap. -/
theorem interrupts_none : ∀ (k : Nat) (cnt : UInt64), cnt.toNat = k + 1 →
    interrupts (k + 1) cnt = none := by
  intro k
  induction k with
  | zero =>
      intro cnt hk
      rw [interrupts, trap32_none hk, Option.bind_none]
  | succ k ih =>
      intro cnt hk
      obtain ⟨htrap, hsub⟩ := trap32_some (show 1 < cnt.toNat by omega)
      rw [interrupts, htrap, Option.bind_some]
      exact ih _ (by omega)

/-- The time of interrupt `k` in ns, for a counter with `extFreq` ticks per second. -/
def interruptNs (extFreq : UInt32) (p : Periodic) (k : Nat) : ℚ :=
  k * p.ticr.toNat * 1000000000 / extFreq.toNat

/-- The number of interrupts for a limit. -/
def userTicks (userTimeLimitNs : Nat) : Nat :=
  userTimeLimitNs / 500000 + userTimeLimitNs / 500000 / 100 + 20

theorem userTimer_eq (extFreq : UInt32) {userTimeLimitNs : UInt64}
    (hmax : userTimeLimitNs ≤ 500000000000) : ∃ p, userTimer extFreq userTimeLimitNs = some p ∧
      p.ticr.toNat = extFreq.toNat / 2000 ∧ p.cnt.toNat = userTicks userTimeLimitNs.toNat := by
  rw [UInt64.le_iff_toNat_le] at hmax
  have hlimit : (500000000000 : UInt64).toNat = 500000000000 := rfl
  have hfreq := extFreq.toNat_lt
  -- the period in ticks
  have hset : (UInt64.ofNat
    ((500000 : UInt64).toNat * extFreq.toNat / (timerEx * 1000000000))).toNat
      = extFreq.toNat / 2000 := by
    have hns : (500000 : UInt64).toNat = 500000 := rfl
    rw [UInt64.toNat_ofNat', hns, timerEx]
    omega
  have hassert : UInt64.ofNat ((500000 : UInt64).toNat * extFreq.toNat / (timerEx * 1000000000))
      < 4000000000 := by
    have hbound : (4000000000 : UInt64).toNat = 4000000000 := rfl
    rw [UInt64.lt_iff_toNat_lt, hset, hbound]
    omega
  refine ⟨_, if_pos hassert, ?_, ?_⟩
  · show (UInt64.ofNat _).toUInt32.toNat = _
    rw [UInt64.toNat_toUInt32, hset]
    omega
  · show (userTimeLimitNs / 500000 + userTimeLimitNs / 500000 / 100 + 20).toNat = _
    have h1 : (500000 : UInt64).toNat = 500000 := rfl
    have h2 : (100 : UInt64).toNat = 100 := rfl
    have h3 : (20 : UInt64).toNat = 20 := rfl
    simp only [UInt64.toNat_add, UInt64.toNat_div, h1, h2, h3, userTicks]
    omega

/-- The period loses at most 2 in 1002, and the ticks on top pay for it. -/
theorem userTicks_enough {f L : Nat} (hf : 1000000 ≤ f) :
    L * f ≤ userTicks L * (f / 2000) * 1000000000 := by
  have hL : L ≤ 500000 * (L / 500000 + 1) := by omega
  have hperiod : f ≤ 2004 * (f / 2000) := by omega
  have hticks : 1002 * (L / 500000 + 1) ≤ 1000 * userTicks L := by
    unfold userTicks
    omega
  calc L * f ≤ 500000 * (L / 500000 + 1) * (2004 * (f / 2000)) := Nat.mul_le_mul hL hperiod
    _ = 1002 * (L / 500000 + 1) * (f / 2000 * 1000000) := by ring
    _ ≤ 1000 * userTicks L * (f / 2000 * 1000000) := Nat.mul_le_mul_right _ hticks
    _ = userTicks L * (f / 2000) * 1000000000 := by ring

/-- The period is never longer than half a millisecond. -/
theorem userTicks_late (f L : Nat) :
    100 * (userTicks L * (f / 2000) * 1000000000) ≤ (101 * L + 1000000000) * f := by
  have hticks : 50000000 * userTicks L ≤ 101 * L + 1000000000 := by
    unfold userTicks
    omega
  have hperiod : 2000 * (f / 2000) ≤ f := Nat.mul_div_le f 2000
  calc 100 * (userTicks L * (f / 2000) * 1000000000)
      = 50000000 * userTicks L * (2000 * (f / 2000)) := by ring
    _ ≤ (101 * L + 1000000000) * f := Nat.mul_le_mul hticks hperiod

/-- The trap comes after the limit and at most 1 % and 10 ms later. -/
theorem user_timer_bounds (extFreq : UInt32) (userTimeLimitNs : UInt64)
    (hfreq : 1000000 ≤ extFreq) (hmax : userTimeLimitNs ≤ 500000000000) :
    ∃ p, userTimer extFreq userTimeLimitNs = some p ∧
      p.cnt.toNat = userTicks userTimeLimitNs.toNat ∧
      (∀ k, k < p.cnt.toNat → (interrupts k p.cnt).isSome) ∧ interrupts p.cnt.toNat p.cnt = none ∧
      (userTimeLimitNs.toNat : ℚ) ≤ interruptNs extFreq p p.cnt.toNat ∧
      interruptNs extFreq p p.cnt.toNat ≤ 101 / 100 * userTimeLimitNs.toNat + 10000000 := by
  rw [UInt32.le_iff_toNat_le] at hfreq
  have hmin : (1000000 : UInt32).toNat = 1000000 := rfl
  rw [hmin] at hfreq
  obtain ⟨p, hp, hticr, hcnt⟩ := userTimer_eq extFreq hmax
  have hpos : (0 : ℚ) < extFreq.toNat := by
    have : 0 < extFreq.toNat := by omega
    exact_mod_cast this
  have hearly : (userTimeLimitNs.toNat * extFreq.toNat : ℚ)
      ≤ userTicks userTimeLimitNs.toNat * (extFreq.toNat / 2000 : Nat) * 1000000000 := by
    exact_mod_cast userTicks_enough hfreq
  have hlate : (100 *
    (userTicks userTimeLimitNs.toNat * (extFreq.toNat / 2000 : Nat) * 1000000000) : ℚ)
      ≤ (101 * userTimeLimitNs.toNat + 1000000000) * extFreq.toNat := by
    exact_mod_cast userTicks_late extFreq.toNat userTimeLimitNs.toNat
  refine ⟨p, hp, hcnt, fun k hk => interrupts_some k p.cnt hk, ?_, ?_, ?_⟩
  · obtain ⟨k, hk⟩ : ∃ k, p.cnt.toNat = k + 1 :=
      Nat.exists_eq_succ_of_ne_zero (by rw [hcnt, userTicks]; omega)
    rw [hk]
    exact interrupts_none k p.cnt hk
  · rw [interruptNs, hticr, hcnt, le_div_iff₀ hpos]
    exact hearly
  · rw [interruptNs, hticr, hcnt, div_le_iff₀ hpos]
    linarith

theorem user_timer_bounds_second : ∃ p, userTimer 100000000 1000000000 = some p ∧
    (1000000000 : ℚ) ≤ interruptNs 100000000 p p.cnt.toNat := by
  obtain ⟨p, hp, -, -, -, hearly, -⟩ := user_timer_bounds 100000000 1000000000
    (by decide) (by decide)
  exact ⟨p, hp, by exact_mod_cast hearly⟩

end Timer

end JudgeDuck
