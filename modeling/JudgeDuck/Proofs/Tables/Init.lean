/-
From the registered huge pages to the mapped pages.

`init_page_table_4k` relies on the reserved size: it was an estimate from the number of
registered huge pages, and it covers the tables that are made on demand, since at least one
of these huge pages is not the user's (`ready_of_enough`).  So wherever
`init_page_table_break` finds a break, the tables are as they should be and remain so.
-/
import JudgeDuck.Proofs.Tables.Machine

namespace JudgeDuck.PageTable

open Memory Paging

/-- Only pages above the kernel are registered. -/
theorem two_le_of_registerAll : ∀ {addrs : List UInt64} {h h' : HugePages},
    (∀ i, h.map i = true → 2 ≤ i) → HugePages.registerAll addrs h = some h' →
    ∀ i, h'.map i = true → 2 ≤ i
  | [], h, h', habove, hreg => by
      cases hreg
      exact habove
  | addr :: addrs, h, h', habove, hreg => by
      rw [HugePages.registerAll, Option.bind_eq_some_iff] at hreg
      obtain ⟨h1, hr1, hreg⟩ := hreg
      refine two_le_of_registerAll (fun i hi => ?_) hreg
      unfold HugePages.register at hr1
      split at hr1
      · cases hr1
      · split at hr1
        · cases hr1
          exact habove i hi
        · next hkernel =>
          dsimp only at hr1
          split at hr1
          · cases hr1
            exact habove i hi
          · cases hr1
            by_cases hi' : i = (addr / hugePageSize).toNat
            · rw [UInt64.lt_iff_toNat_lt, toNat_kernelBreak] at hkernel
              rw [hi', UInt64.toNat_div, toNat_hugePageSize]
              omega
            · have hmap : Function.update h.map (addr / hugePageSize).toNat true i = true := hi
              rw [Function.update_of_ne hi'] at hmap
              exact habove i hmap

/-- `init_page_table_break` has found a break with enough huge pages below it. -/
def Enough (h : HugePages) : Prop :=
  (HugePages.pageTableSize h.n).toNat ≤ h.below (h.pageTableBreak.toNat / 2097152) * 2097152

theorem ready_of_enough {addrs : List UInt64} {h : HugePages}
    (hreg : HugePages.registerAll addrs .empty = some h) (henough : Enough h.initPageTableBreak) :
    Ready h.initPageTableBreak := by
  have hok := HugePages.ok_registerAll HugePages.ok_empty hreg
  have hn : h.n.toNat ≤ 261632 := by
    rw [hok.counter]
    exact h.below_le 261632
  obtain ⟨hsize, hpos, hroom⟩ := HugePages.pageTableSize_toNat hn
  have h0 : h.below 0 = 0 := Nat.count_zero _
  obtain ⟨hfound, hmissed⟩ := HugePages.breakLoop_spec (h := h) h.pageTableBreak hsize h.n.toNat 0 0
    (by rw [h0]; rfl) (by rw [h0]; exact hpos) (by omega)
  rw [Nat.zero_add] at hfound hmissed
  have henough' : (HugePages.pageTableSize h.n).toNat
      ≤ h.below (h.initPageTableBreak.pageTableBreak.toNat / 2097152) * 2097152 := henough
  by_cases hle : h.needed ≤ h.below h.n.toNat
  · obtain ⟨j, hmap, hcount, hbreak⟩ := hfound hle
    have hbreak' : h.initPageTableBreak.pageTableBreak.toNat = (j + 1) * 2097152 := hbreak
    have hj := hok.inside j hmap
    have hreserved : reserved h.initPageTableBreak = h.needed := by
      unfold reserved
      rw [hbreak', Nat.mul_div_cancel _ (by decide)]
      exact hcount
    have hall : h.initPageTableBreak.below 261632 = h.n.toNat := hok.counter.symm
    have habove := two_le_of_registerAll (fun i hi => Bool.noConfusion hi) hreg
    refine ⟨⟨?_, ?_⟩, habove, hok.inside, ?_⟩
    · rw [hbreak']
      exact Nat.mul_mod_left _ _
    · rw [hbreak']
      exact Nat.mul_le_mul_right _ hj
    · have hcapacity : capacity h.initPageTableBreak = 512 * h.needed := by
        rw [← hreserved]
        rfl
      rw [hall, hreserved, hcapacity]
      unfold tablesFor
      omega
  · -- the variable still has its first value, 0
    have hbreak : h.initPageTableBreak.pageTableBreak = 0 :=
      (hmissed (Nat.lt_of_not_le hle)).trans hok.start
    have hzero : (0 : UInt64).toNat / 2097152 = 0 := rfl
    rw [hbreak, hzero, h0, hsize] at henough'
    omega

/-- The calls that may follow: those between mapped pages do not fault, and none that starts below
the kernel's half, where the tables themselves appear, changes where an address goes. -/
structure Stable (t : Built) : Prop where
  runs : ∀ calls : List FlagCall, (∀ c ∈ calls, c.Mapped t.vaddrBreak) →
    ∃ m', runCalls t.p4 calls t.mem = some m'
  keeps : ∀ (calls : List FlagCall) (m' : Mem), (∀ c ∈ calls, c.start.toNat < 2 ^ 47) →
    runCalls t.p4 calls t.mem = some m' → ∀ va, translate m'.read64 t.p4.toNat va = t.phys va

/-- Whatever has been registered: where enough huge pages lie below `page_table_break`, the tables
are built without a failed assert, the user has all huge pages above it, and no sequence of calls
of the functions that change flags moves a page. -/
theorem initPageTable4k_maps {addrs : List UInt64} {h : HugePages}
    (hreg : HugePages.registerAll addrs .empty = some h) (henough : Enough h.initPageTableBreak)
    (m : Mem) :
    ∃ t, initPageTable4k h.initPageTableBreak m = some t ∧ Maps h.initPageTableBreak t ∧
      Stable t := by
  have hr := ready_of_enough hreg henough
  obtain ⟨t, ht, hvb, hs⟩ := hr.initPageTable4k_eq m
  have hl := hr.bounded.leaves_firstLeaf
  refine ⟨t, ht, hr.maps hvb hs, fun calls hmapped => ?_, fun calls m' hlow hrun va => ?_⟩
  · obtain ⟨s, -, hshows⟩ := hr.shows hs
    obtain ⟨m', -, hrun, -, -⟩ := hshows.runCalls hr hvb calls t.mem s hmapped
    exact ⟨m', hrun⟩
  · obtain ⟨leaf', hs', hl'⟩ := hr.runCalls_kept calls _ _ hs hl hlow hrun
    exact hr.translate_congr hs hl hs' hl' va

/-- Three huge pages from 4 MiB on: the tables are in the first one. -/
theorem initPageTable4k_maps_three :
    ∃ h, HugePages.registerAll [0x400000, 0x600000, 0x800000] .empty = some h ∧
    ∃ t, initPageTable4k h.initPageTableBreak (fun _ => 0) = some t ∧ Maps h.initPageTableBreak t ∧
      Stable t := by
  obtain ⟨h, hreg⟩ : ∃ h, HugePages.registerAll [0x400000, 0x600000, 0x800000] .empty = some h :=
    ⟨_, rfl⟩
  refine ⟨h, hreg, initPageTable4k_maps hreg ?_ fun _ => 0⟩
  cases hreg
  unfold Enough
  decide

end JudgeDuck.PageTable
