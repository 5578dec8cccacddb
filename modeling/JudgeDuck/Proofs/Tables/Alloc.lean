/-
The page table allocator.

The registered huge pages are taken in the order of their addresses, 512 tables from each,
so the address of a table is a function of how many were taken before it (`slot`).  A table
is found, and the assert holds, as long as the huge page it falls into lies below
`page_table_break` (`pageTableAlloc_eq`).
-/
import Mathlib.Data.Nat.Nth
import JudgeDuck.Model.PageTableInit
import JudgeDuck.Proofs.HugePages

namespace JudgeDuck

namespace Memory.HugePages

variable {h : HugePages} {i q : Nat}

/-- The registered huge page with `q` others before it. -/
noncomputable def nthPage (h : HugePages) (q : Nat) : Nat := Nat.nth (fun i => h.map i = true) q

theorem nthPage_lt (hq : q < h.below i) : h.nthPage q < i := Nat.nth_lt_of_lt_count hq

theorem map_nthPage (hq : q < h.below i) : h.map (h.nthPage q) = true :=
  Nat.nth_mem q fun hf => Nat.lt_of_lt_of_le hq (Nat.count_le_card hf i)

theorem below_nthPage (hq : q < h.below i) : h.below (h.nthPage q) = q :=
  Nat.count_nth fun hf => Nat.lt_of_lt_of_le hq (Nat.count_le_card hf i)

theorem nthPage_below (hi : h.map i = true) : h.nthPage (h.below i) = i := Nat.nth_count hi

theorem below_succ (hi : h.map i = true) : h.below (i + 1) = h.below i + 1 := by
  rw [below, Nat.count_succ, if_pos hi]
  rfl

theorem below_succ_of_not (hi : h.map i = false) : h.below (i + 1) = h.below i := by
  rw [below, Nat.count_succ, if_neg (by rw [hi]; decide)]
  rfl

theorem below_mono {j : Nat} (hij : i ≤ j) : h.below i ≤ h.below j := Nat.count_monotone _ hij

end Memory.HugePages

namespace PageTable

open Memory

variable {h : HugePages}

/-- The address of the table that `c` others were taken before. -/
noncomputable def slot (h : HugePages) (c : Nat) : Nat :=
  h.nthPage (c / 512) * 2097152 + c % 512 * 4096

/-- The pages below `page_table_break`, of 4 KiB. -/
def capacity (h : HugePages) : Nat := 512 * h.below (h.pageTableBreak.toNat / 2097152)

/-- `page_table_break` lies between two huge pages, inside the array. -/
structure Bounded (h : HugePages) : Prop where
  aligned : h.pageTableBreak.toNat % 2097152 = 0
  inside : h.pageTableBreak.toNat ≤ 261632 * 2097152

theorem Bounded.slot_lt (hb : Bounded h) {c : Nat} (hc : c < capacity h) :
    slot h c + 4096 ≤ h.pageTableBreak.toNat := by
  have haligned := hb.aligned
  unfold capacity at hc
  have hlt := HugePages.nthPage_lt
    (show c / 512 < h.below (h.pageTableBreak.toNat / 2097152) by omega)
  unfold slot
  omega

theorem map_slot {c : Nat} (hc : c < capacity h) : h.map (slot h c / 2097152) = true := by
  unfold capacity at hc
  have hmap := HugePages.map_nthPage
    (show c / 512 < h.below (h.pageTableBreak.toNat / 2097152) by omega)
  have hdiv : slot h c / 2097152 = h.nthPage (c / 512) := by
    unfold slot
    omega
  rw [hdiv]
  exact hmap

/-- Tables are taken from different pages. -/
theorem slot_inj {c d : Nat} (hc : c < capacity h) (hd : d < capacity h)
    (he : slot h c = slot h d) :
    c = d := by
  unfold capacity at hc hd
  have hbc := HugePages.below_nthPage
    (show c / 512 < h.below (h.pageTableBreak.toNat / 2097152) by omega)
  have hbd := HugePages.below_nthPage
    (show d / 512 < h.below (h.pageTableBreak.toNat / 2097152) by omega)
  unfold slot at he
  have hpage : h.nthPage (c / 512) = h.nthPage (d / 512) := by omega
  rw [hpage, hbd] at hbc
  omega

theorem slot_mod (h : HugePages) (c : Nat) : slot h c % 4096 = 0 := by
  unfold slot
  omega

/-! ### Holes -/

theorem maxNHugePages_eq : maxNHugePages = 261632 := by decide

/-- Between two huge pages the loop goes on to the next registered one. -/
theorem skipHoles_eq {q : Nat} (hq : q < h.below 261632) :
    ∀ (k i : Nat) (next : UInt64), next.toNat = i * 2097152 → h.below i = q → 261632 ≤ i + k →
      ∃ ret, skipHoles h.map k next = some ret ∧ ret.toNat = h.nthPage q * 2097152 := by
  have hlt := HugePages.nthPage_lt hq
  intro k
  induction k with
  | zero =>
      intro i next _ hi hk
      have hmono := h.below_mono (show 261632 ≤ i by omega)
      omega
  | succ k ih =>
      intro i next hnext hi hk
      have hindex : (next / hugePageSize).toNat = i := by
        rw [UInt64.toNat_div, toNat_hugePageSize, hnext, Nat.mul_div_cancel _ (by decide)]
      have hinside : i < 261632 := by
        by_contra hc
        have hmono := h.below_mono (Nat.not_lt.mp hc)
        omega
      rw [skipHoles, hindex, maxNHugePages_eq, if_neg (Nat.not_le.mpr hinside)]
      by_cases hmap : h.map i = true
      · rw [if_pos hmap]
        exact ⟨next, rfl, by rw [hnext, ← hi, HugePages.nthPage_below hmap]⟩
      · have hsize : (next + hugePageSize).toNat = (i + 1) * 2097152 := by
          rw [Utils.toNat_add_of_lt (by rw [toNat_hugePageSize]; omega), toNat_hugePageSize, hnext]
          omega
        rw [if_neg hmap]
        exact ih (i + 1) _ hsize
          (by rw [HugePages.below_succ_of_not (Bool.not_eq_true _ |>.mp hmap), hi]) (by omega)

/-- `next` stands where the table after `c` others comes from, or in a hole before it. -/
structure Next (h : HugePages) (next : UInt64) (c : Nat) : Prop where
  below : h.below (next.toNat / 2097152) = c / 512
  offset : next.toNat % 2097152 = c % 512 * 4096
  inside : c % 512 ≠ 0 → h.map (next.toNat / 2097152) = true

theorem Next.skipHoles {next : UInt64} {c : Nat} (hn : Next h next c)
    (hc : c / 512 < h.below 261632) :
    ∃ ret, skipHoles h.map maxNHugePages next = some ret ∧ ret.toNat = slot h c := by
  have hoffset := hn.offset
  by_cases h0 : c % 512 = 0
  · obtain ⟨ret, hret, haddr⟩ :=
      skipHoles_eq hc maxNHugePages (next.toNat / 2097152) next (by omega)
      hn.below (by rw [maxNHugePages_eq]; omega)
    exact ⟨ret, hret, by rw [haddr, slot, h0, Nat.zero_mul, Nat.add_zero]⟩
  · have hmap := hn.inside h0
    have hindex : (next / hugePageSize).toNat = next.toNat / 2097152 := by
      rw [UInt64.toNat_div, toNat_hugePageSize]
    have hpage := HugePages.nthPage_below hmap
    have hlt := HugePages.nthPage_lt hc
    rw [hn.below] at hpage
    have hinside : next.toNat / 2097152 < 261632 := by omega
    have hrounds : maxNHugePages = 261631 + 1 := maxNHugePages_eq
    refine ⟨next, ?_, ?_⟩
    · rw [hrounds, PageTable.skipHoles, hindex, maxNHugePages_eq, if_neg (Nat.not_le.mpr hinside),
        if_pos hmap]
    · unfold slot
      omega

/-- The allocator finds the next table, and its assert holds. -/
theorem Bounded.pageTableAlloc_eq (hb : Bounded h) {s : Tables} {c : Nat} (hn : Next h s.next c)
    (hc : c < capacity h) :
    ∃ next, pageTableAlloc h s = some (.ofNat (slot h c), { s with next := next }) ∧
      Next h next (c + 1) := by
  have hinside := hb.inside
  have hlt := hb.slot_lt hc
  have hmap := map_slot hc
  unfold capacity at hc
  have hmono := h.below_mono (show h.pageTableBreak.toNat / 2097152 ≤ 261632 by omega)
  obtain ⟨ret, hret, haddr⟩ := hn.skipHoles (show c / 512 < h.below 261632 by omega)
  have hnext : (ret + pageSize).toNat = slot h c + 4096 := by
    rw [Utils.toNat_add_of_lt (by rw [toNat_pageSize]; omega), toNat_pageSize, haddr]
  refine ⟨ret + pageSize, ?_, ?_⟩
  · have hle : ret + pageSize ≤ h.pageTableBreak := by
      rw [UInt64.le_iff_toNat_le, hnext]
      exact hlt
    have hofNat : UInt64.ofNat (slot h c) = ret := by rw [← haddr, UInt64.ofNat_toNat]
    rw [pageTableAlloc, hret, hofNat, Option.bind_eq_bind, Option.bind_some, if_pos hle]
  · have hpage : h.below (slot h c / 2097152) = c / 512 := by
      have hdiv : slot h c / 2097152 = h.nthPage (c / 512) := by
        unfold slot
        omega
      rw [hdiv]
      exact HugePages.below_nthPage (i := 261632) (by omega)
    have hoffset : slot h c % 2097152 = c % 512 * 4096 := by
      unfold slot
      omega
    by_cases hlast : c % 512 = 511
    · -- the next table is the first one of another huge page
      have hdiv : (slot h c + 4096) / 2097152 = slot h c / 2097152 + 1 := by omega
      refine ⟨?_, ?_, fun hc' => absurd hc' (by omega)⟩
      · rw [hnext, hdiv, HugePages.below_succ hmap]
        omega
      · rw [hnext]
        omega
    · have hdiv : (slot h c + 4096) / 2097152 = slot h c / 2097152 := by omega
      refine ⟨?_, ?_, fun _ => ?_⟩
      · rw [hnext, hdiv]
        omega
      · rw [hnext]
        omega
      · rw [hnext, hdiv]
        exact hmap

theorem Bounded.pageTableAllocZeroed_eq (hb : Bounded h) {s : Tables} {c : Nat}
    (hn : Next h s.next c) (hc : c < capacity h) :
    ∃ next, pageTableAllocZeroed h s
        = some (.ofNat (slot h c), ⟨s.mem.memset (slot h c) 0 4096, next⟩) ∧
      Next h next (c + 1) := by
  obtain ⟨next, halloc, hnext⟩ := hb.pageTableAlloc_eq hn hc
  have hinside := hb.inside
  have hlt := hb.slot_lt hc
  have hslot : (UInt64.ofNat (slot h c)).toNat = slot h c :=
    UInt64.toNat_ofNat_of_lt' (show slot h c < 2 ^ 64 by omega)
  refine ⟨next, ?_, hnext⟩
  rw [pageTableAllocZeroed, halloc]
  show some (UInt64.ofNat (slot h c),
    Tables.mk (s.mem.memset (UInt64.ofNat (slot h c)).toNat 0 4096) next)
    = _
  rw [hslot]

end PageTable

end JudgeDuck
