/-
Where the page tables end.

`init_page_table_break` walks over the huge pages in the order of their addresses
until it has seen as many registered ones as the tables need, but it looks at the
first `n_huge_pages` indices only, of which the lowest two belong to the kernel.  It
is right just when enough registered pages lie among them
(`initPageTableBreak_exact_iff`).
-/
import Mathlib.Order.Interval.Finset.Nat
import Mathlib.Data.Nat.Count
import JudgeDuck.Proofs.Rounding

namespace JudgeDuck

namespace Memory

namespace HugePages

open Utils

/-- Registered before index `i`. -/
def below (h : HugePages) (i : Nat) : Nat := Nat.count (fun j => h.map j = true) i

/-- The huge pages that the page tables take. -/
def needed (h : HugePages) : Nat := (pageTableSize h.n / hugePageSize).toNat

/-- `page_table_break` is the end of a registered huge page, and as many as are needed lie below. -/
structure Exact (h : HugePages) : Prop where
  count : h.below (h.pageTableBreak.toNat / 2097152) = h.needed
  highest : ∃ i, h.map i = true ∧ h.pageTableBreak.toNat = (i + 1) * 2097152

/-- Register the huge pages at these addresses, in any order, some of them more than once. -/
def registerAll : List UInt64 → HugePages → Option HugePages
  | [], h => some h
  | addr :: addrs, h => (h.register addr).bind (registerAll addrs)

/-! ### What is registered -/

/-- The state before `init`. -/
structure Ok (h : HugePages) : Prop where
  inside : ∀ i, h.map i = true → i < 261632
  counter : h.n.toNat = h.below 261632
  start : h.pageTableBreak = 0

theorem ok_empty : empty.Ok where
  inside i hi := Bool.noConfusion hi
  counter := by simp [empty, below]
  start := rfl

theorem below_le (h : HugePages) (i : Nat) : h.below i ≤ i := Nat.count_le _

/-- One more page is one more below every index after it. -/
theorem count_update {map : Nat → Bool} {p : Nat} (hp : map p = false) :
    ∀ i, Nat.count (fun j => Function.update map p true j = true) i
      = Nat.count (fun j => map j = true) i + if p < i then 1 else 0 := by
  intro i
  induction i with
  | zero => simp
  | succ i ih =>
      rw [Nat.count_succ, Nat.count_succ, ih]
      rcases Nat.lt_trichotomy p i with hlt | rfl | hgt
      · rw [Function.update_of_ne (Nat.ne_of_gt hlt), if_pos hlt,
          if_pos (show p < i + 1 by omega)]
        omega
      · rw [Function.update_self, hp, if_neg (Nat.lt_irrefl p), if_pos (Nat.lt_succ_self p)]
        simp
      · rw [Function.update_of_ne (Nat.ne_of_lt hgt), if_neg (show ¬p < i by omega),
          if_neg (show ¬p < i + 1 by omega)]
        omega

theorem Ok.register {h h' : HugePages} (hok : h.Ok) {addr : UInt64}
    (hr : h.register addr = some h') : h'.Ok := by
  unfold HugePages.register at hr
  split at hr
  · cases hr
  · next hassert =>
    split at hr
    · cases hr
      exact hok
    · dsimp only at hr
      split at hr
      · cases hr
        exact hok
      · next hnew =>
        cases hr
        have hlt : addr.toNat < 261632 * 2097152 :=
          UInt64.lt_iff_toNat_lt.mp (UInt64.not_le.mp (not_or.mp hassert).2)
        have hnum : (addr / hugePageSize).toNat = addr.toNat / 2097152 := by
          rw [UInt64.toNat_div, toNat_hugePageSize]
        have hpage : (addr / hugePageSize).toNat < 261632 := by omega
        have hold : h.map (addr / hugePageSize).toNat = false := Bool.not_eq_true _ |>.mp hnew
        have hcount := count_update hold 261632
        rw [if_pos hpage] at hcount
        have hle := h.below_le 261632
        refine ⟨fun i hi => ?_, ?_, hok.start⟩
        · by_cases hi' : i = (addr / hugePageSize).toNat
          · rw [hi']
            exact hpage
          · have hmap : Function.update h.map (addr / hugePageSize).toNat true i = true := hi
            rw [Function.update_of_ne hi'] at hmap
            exact hok.inside i hmap
        · show (h.n + 1).toNat = _
          rw [toNat_add_of_lt (by rw [hok.counter, UInt64.toNat_one]; omega), hok.counter]
          exact hcount.symm

theorem ok_registerAll : ∀ {addrs : List UInt64} {h h' : HugePages}, h.Ok →
    registerAll addrs h = some h' → h'.Ok
  | [], h, h', hok, hr => by
      cases hr
      exact hok
  | addr :: addrs, h, h', hok, hr => by
      rw [registerAll, Option.bind_eq_some_iff] at hr
      obtain ⟨h1, hr1, hr⟩ := hr
      exact ok_registerAll (hok.register hr1) hr

/-! ### The loop -/

/-- The loop stops at the first index with enough registered pages up to it, or leaves the variable
as it was. -/
theorem breakLoop_spec {h : HugePages} {size : UInt64} (old : UInt64) {need : Nat}
    (hsize : size.toNat = need * 2097152) :
    ∀ (k i : Nat) (cur : UInt64), cur.toNat = h.below i * 2097152 → h.below i < need →
      i + k ≤ 261632 →
      (need ≤ h.below (i + k) → ∃ j, h.map j = true ∧ h.below (j + 1) = need ∧
        (breakLoop h.map size old k i cur).toNat = (j + 1) * 2097152) ∧
      (h.below (i + k) < need → breakLoop h.map size old k i cur = old) := by
  intro k
  induction k with
  | zero =>
      intro i cur _ hlt _
      exact ⟨fun hc => absurd hlt (Nat.not_lt.mpr hc), fun _ => rfl⟩
  | succ k ih =>
      intro i cur hcur hlt hbound
      have hadd : i + (k + 1) = i + 1 + k := by omega
      have hle := h.below_le i
      have hsucc : h.below (i + 1) = h.below i + if h.map i = true then 1 else 0 :=
        Nat.count_succ ..
      rw [breakLoop, hadd]
      by_cases hmap : h.map i = true
      · rw [if_pos hmap] at hsucc ⊢
        dsimp only
        have hnext : (cur + hugePageSize).toNat = h.below (i + 1) * 2097152 := by
          rw [toNat_add_of_lt (by rw [toNat_hugePageSize]; omega), toNat_hugePageSize]
          omega
        by_cases hge : cur + hugePageSize ≥ size
        · rw [if_pos hge]
          rw [ge_iff_le, UInt64.le_iff_toNat_le, hnext, hsize] at hge
          have hneed : h.below (i + 1) = need := by omega
          refine ⟨fun _ => ⟨i, hmap, hneed, ?_⟩, fun hc => ?_⟩
          · have hi : (UInt64.ofNat (i + 1)).toNat = i + 1 :=
              UInt64.toNat_ofNat_of_lt' (show i + 1 < 2 ^ 64 by omega)
            rw [UInt64.toNat_mul, toNat_hugePageSize, hi, Nat.mod_eq_of_lt (by omega)]
          · have hmono : h.below (i + 1) ≤ h.below (i + 1 + k) := Nat.count_monotone _ (by omega)
            omega
        · rw [if_neg hge]
          rw [ge_iff_le, UInt64.le_iff_toNat_le, hnext, hsize] at hge
          exact ih (i + 1) _ hnext (by omega) (by omega)
      · rw [if_neg hmap] at hsucc ⊢
        exact ih (i + 1) cur (by rw [hcur, hsucc, Nat.add_zero]) (by omega) (by omega)

/-! ### The result -/

/-- The tables take at least one huge page, and whole ones: enough for six tables, one for each huge
page and one for each 512 of them. -/
theorem pageTableSize_toNat {h : HugePages} (hn : h.n.toNat ≤ 261632) :
    (pageTableSize h.n).toNat = h.needed * 2097152 ∧ 0 < h.needed ∧
      6 + h.n.toNat + (h.n.toNat + 511) / 512 ≤ 512 * h.needed := by
  have hmul8 : (h.n * 8).toNat = h.n.toNat * 8 := by
    rw [UInt64.toNat_mul]
    exact Nat.mod_eq_of_lt (show h.n.toNat * 8 < 2 ^ 64 by omega)
  have hmul : (h.n * pageSize).toNat = h.n.toNat * 4096 := by
    rw [UInt64.toNat_mul, toNat_pageSize]
    exact Nat.mod_eq_of_lt (show h.n.toNat * 4096 < 2 ^ 64 by omega)
  have hround : (roundUp (h.n * 8) pageSize).toNat = pageUp (h.n.toNat * 8) := by
    rcases roundUp_page (h.n * 8) with ⟨-, hr⟩ | ⟨hw, -⟩
    · rw [hr, hmul8]
    · omega
  have hpage : pageUp (h.n.toNat * 8) ≤ h.n.toNat * 8 + 4096 := by
    unfold pageUp
    omega
  have h4 : (pageSize * 4).toNat = 16384 := rfl
  have h2 : (pageSize * 2).toNat = 8192 := rfl
  have hsum : (pageSize * 4 + h.n * pageSize + roundUp (h.n * 8) pageSize + pageSize * 2).toNat
      = 16384 + h.n.toNat * 4096 + pageUp (h.n.toNat * 8) + 8192 := by
    have ha : (pageSize * 4 + h.n * pageSize).toNat = 16384 + h.n.toNat * 4096 := by
      rw [toNat_add_of_lt (by omega), h4, hmul]
    have hb : (pageSize * 4 + h.n * pageSize + roundUp (h.n * 8) pageSize).toNat
        = 16384 + h.n.toNat * 4096 + pageUp (h.n.toNat * 8) := by
      rw [toNat_add_of_lt (by omega), ha, hround]
    rw [toNat_add_of_lt (by omega), hb, h2]
  have hsize := roundUp_toNat (r := hugePageSize) (by decide)
    (x := pageSize * 4 + h.n * pageSize + roundUp (h.n * 8) pageSize + pageSize * 2)
    (by rw [hsum, toNat_hugePageSize]; omega)
  rw [hsum, toNat_hugePageSize] at hsize
  have hneeded : h.needed = (pageTableSize h.n).toNat / 2097152 := by
    rw [needed, UInt64.toNat_div, toNat_hugePageSize]
  have hdef : (pageTableSize h.n).toNat
      = (16384 + h.n.toNat * 4096 + pageUp (h.n.toNat * 8) + 8192 + (2097152 - 1)) / 2097152
        * 2097152 := hsize
  have hup : pageUp (h.n.toNat * 8) = (h.n.toNat + 511) / 512 * 4096 := by
    unfold pageUp
    omega
  omega

/-- Whatever has been registered, `page_table_break` is right just when enough of the registered
huge pages have an index below the number of registered ones. -/
theorem initPageTableBreak_exact_iff {addrs : List UInt64} {h : HugePages}
    (hreg : registerAll addrs empty = some h) :
    h.initPageTableBreak.Exact ↔ h.needed ≤ h.below h.n.toNat := by
  have hok := ok_registerAll ok_empty hreg
  have hn : h.n.toNat ≤ 261632 := by
    rw [hok.counter]
    exact h.below_le 261632
  obtain ⟨hsize, hpos, -⟩ := pageTableSize_toNat hn
  have h0 : h.below 0 = 0 := Nat.count_zero _
  obtain ⟨hfound, hmissed⟩ := breakLoop_spec (h := h) h.pageTableBreak hsize h.n.toNat 0 0
    (by rw [h0]; rfl) (by rw [h0]; exact hpos) (by omega)
  rw [Nat.zero_add] at hfound hmissed
  constructor
  · intro he
    by_contra hlt
    have hcount := he.count
    have hbreak : h.initPageTableBreak.pageTableBreak = 0 :=
      (hmissed (Nat.lt_of_not_le hlt)).trans hok.start
    rw [hbreak] at hcount
    have hzero : h.below 0 = h.needed := hcount
    omega
  · intro hle
    obtain ⟨j, hmap, hcount, hbreak⟩ := hfound hle
    have hbreak' : h.initPageTableBreak.pageTableBreak.toNat = (j + 1) * 2097152 := hbreak
    refine ⟨?_, j, hmap, hbreak'⟩
    rw [hbreak', Nat.mul_div_cancel _ (by decide)]
    exact hcount

/-- Three huge pages from 4 MiB on. -/
theorem initPageTableBreak_exact_three : ∃ h,
    registerAll [0x400000, 0x600000, 0x800000] empty = some h ∧
    h.initPageTableBreak.Exact := by
  obtain ⟨h, hreg⟩ : ∃ h, registerAll [0x400000, 0x600000, 0x800000] empty = some h := ⟨_, rfl⟩
  refine ⟨h, hreg, (initPageTableBreak_exact_iff hreg).mpr ?_⟩
  cases hreg
  decide

/-- One huge page at 4 MiB is enough for the tables, and is not found. -/
theorem initPageTableBreak_misses_one : ∃ h, registerAll [0x400000] empty = some h ∧
    h.needed ≤ h.n.toNat ∧ ¬h.initPageTableBreak.Exact := by
  obtain ⟨h, hreg⟩ : ∃ h, registerAll [0x400000] empty = some h := ⟨_, rfl⟩
  refine ⟨h, hreg, ?_, fun he => ?_⟩
  · cases hreg
    decide
  · have hcount := he.count
    cases hreg
    revert hcount
    decide

end HugePages

end Memory

end JudgeDuck
