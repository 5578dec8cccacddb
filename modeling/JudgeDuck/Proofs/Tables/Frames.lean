/-
The frames of the mapped pages.

The first 4 MiB are mapped to themselves.  Behind them come the registered huge pages from
`page_table_break` on, in the order of their addresses, so no frame is mapped twice, none is
left out and none is that of a table (`Ready.maps`).
-/
import JudgeDuck.Proofs.Tables.Walk

namespace JudgeDuck.PageTable

open Memory Paging

variable {h : HugePages} {leaf : Nat → UInt64} {p4 : UInt64} {m : Mem} {va : UInt64}

/-! ### The huge pages of the user -/

theorem total_eq (h : HugePages) : total h = 2 + (h.below 261632 - reserved h) := rfl

/-- A huge page of the user is registered, and not below `page_table_break`. -/
theorem Bounded.hugePageOf_spec (hb : Bounded h) {k : Nat} (hk2 : 2 ≤ k) (hk : k < total h) :
    h.map (hugePageOf h k) = true ∧ hugePageOf h k < 261632 ∧
      h.below (hugePageOf h k) = reserved h + (k - 2) ∧
      h.pageTableBreak.toNat ≤ hugePageOf h k * 2097152 := by
  rw [total_eq] at hk
  have hq : reserved h + (k - 2) < h.below 261632 := by omega
  have hbelow := HugePages.below_nthPage hq
  have hmap := HugePages.map_nthPage hq
  refine ⟨hmap, HugePages.nthPage_lt hq, hbelow, ?_⟩
  by_contra hlow
  have haligned := hb.aligned
  have hmono :=
    h.below_mono (show h.nthPage (reserved h + (k - 2)) + 1 ≤ h.pageTableBreak.toNat / 2097152
    by unfold hugePageOf at hlow; omega)
  rw [HugePages.below_succ hmap, hbelow] at hmono
  unfold reserved at hmono
  omega

theorem Bounded.hugePageOf_inj (hb : Bounded h) {k l : Nat} (hk2 : 2 ≤ k) (hk : k < total h)
    (hl2 : 2 ≤ l) (hl : l < total h) (he : hugePageOf h k = hugePageOf h l) : k = l := by
  obtain ⟨-, -, hbk, -⟩ := hb.hugePageOf_spec hk2 hk
  obtain ⟨-, -, hbl, -⟩ := hb.hugePageOf_spec hl2 hl
  rw [he] at hbk
  omega

/-- Every registered huge page from `page_table_break` on is one of them. -/
theorem Bounded.hugePageOf_onto (hb : Bounded h) {i : Nat} (hi : h.map i = true) (hmax : i < 261632)
    (hbreak : h.pageTableBreak.toNat ≤ i * 2097152) :
    ∃ k, 2 ≤ k ∧ k < total h ∧ hugePageOf h k = i := by
  have haligned := hb.aligned
  have hlow : reserved h ≤ h.below i := h.below_mono (by omega)
  have hhigh := h.below_mono (show i + 1 ≤ 261632 by omega)
  rw [HugePages.below_succ hi] at hhigh
  refine ⟨2 + (h.below i - reserved h), by omega, by rw [total_eq]; omega, ?_⟩
  have hindex : reserved h + (2 + (h.below i - reserved h) - 2) = h.below i := by omega
  rw [hugePageOf, hindex, HugePages.nthPage_below hi]

/-! ### Frames -/

/-- The frame of page `p`. -/
noncomputable def frameOfPage (h : HugePages) (p : Nat) : Nat :=
  if p < 1024 then 4096 * p else hugePageOf h (p / 512) * 2097152 + p % 512 * 4096

theorem frameOfPage_mod (h : HugePages) (p : Nat) : frameOfPage h p % 4096 = 0 := by
  unfold frameOfPage
  split
  · omega
  · omega

/-- The mapped pages are there, and their frames are these. -/
structure Leaves (h : HugePages) (leaf : Nat → UInt64) : Prop where
  present : ∀ p, p < 512 * total h → present (leaf p) = true
  frame : ∀ p, p < 512 * total h → frame 12 (leaf p) = frameOfPage h p

/-- An entry for a page of the user: supervisor only, and perhaps nonzero. -/
theorem Bounded.firstLeaf_user_toNat (hb : Bounded h) {p : Nat} (h2 : 1024 ≤ p)
    (hp : p < 512 * total h) :
    (firstLeaf h p).toNat = hugePageOf h (p / 512) * 2097152 + p % 512 * 4096 + 0x263 := by
  obtain ⟨-, hlt, -, -⟩ := hb.hugePageOf_spec (show 2 ≤ p / 512 by omega) (by omega)
  rw [firstLeaf, if_neg (by omega), userEntry_toNat hlt (Nat.mod_lt _ (by decide))]

theorem firstLeaf_kernel_toNat {p : Nat} (hp : p < 1024) :
    (firstLeaf h p).toNat = 4096 * p + 0x63 := by
  rw [firstLeaf, if_pos hp, kernelEntry_toNat (by omega) (Nat.mod_lt _ (by decide))]
  omega

theorem Bounded.leaves_firstLeaf (hb : Bounded h) : Leaves h (firstLeaf h) := by
  refine ⟨fun p hp => decide_eq_true ?_, fun p hp => ?_⟩
  · by_cases h2 : p < 1024
    · rw [firstLeaf_kernel_toNat h2]
      omega
    · rw [hb.firstLeaf_user_toNat (Nat.le_of_not_lt h2) hp]
      omega
  · unfold frame frameOfPage
    by_cases h2 : p < 1024
    · rw [firstLeaf_kernel_toNat h2, if_pos h2]
      omega
    · obtain ⟨-, hlt, -, -⟩ := hb.hugePageOf_spec (show 2 ≤ p / 512 by omega) (by omega)
      rw [hb.firstLeaf_user_toNat (Nat.le_of_not_lt h2) hp, if_neg h2]
      omega

/-- The frame of a page of the user is in a registered huge page from `page_table_break` on. -/
theorem Bounded.frameOfPage_registered (hb : Bounded h) {p : Nat} (h2 : 1024 ≤ p)
    (hp : p < 512 * total h) : h.map (frameOfPage h p / 2097152) = true ∧
      h.pageTableBreak.toNat ≤ frameOfPage h p := by
  obtain ⟨hmap, -, -, hbreak⟩ := hb.hugePageOf_spec (show 2 ≤ p / 512 by omega) (by omega)
  have hdiv : frameOfPage h p / 2097152 = hugePageOf h (p / 512) := by
    rw [frameOfPage, if_neg (by omega)]
    omega
  rw [hdiv, frameOfPage, if_neg (by omega)]
  exact ⟨hmap, Nat.le_add_right_of_le hbreak⟩

/-- Every frame there is that of a page of the user. -/
theorem Ready.frameOfPage_onto (hr : Ready h) {f : Nat} (hf : f % 4096 = 0)
    (hmap : h.map (f / 2097152) = true) (hbreak : h.pageTableBreak.toNat ≤ f) :
    ∃ p, 1024 ≤ p ∧ p < 512 * total h ∧ frameOfPage h p = f := by
  have haligned := hr.bounded.aligned
  obtain ⟨k, hk2, hk, hpage⟩ := hr.bounded.hugePageOf_onto hmap (hr.inside _ hmap) (by omega)
  have hdiv : (512 * k + f % 2097152 / 4096) / 512 = k := by omega
  refine ⟨512 * k + f % 2097152 / 4096, by omega, by omega, ?_⟩
  rw [frameOfPage, if_neg (by omega), hdiv, hpage]
  omega

/-- No two pages have the same frame. -/
theorem Ready.frameOfPage_inj (hr : Ready h) {p q : Nat} (hp : p < 512 * total h)
    (hq : q < 512 * total h) (he : frameOfPage h p = frameOfPage h q) : p = q := by
  have hb := hr.bounded
  -- the huge pages of the user are above the kernel
  have habove : ∀ {p}, ¬p < 1024 → p < 512 * total h → 2 ≤ hugePageOf h (p / 512) :=
    fun h2 hp => hr.above _ (hb.hugePageOf_spec (by omega) (by omega)).1
  unfold frameOfPage at he
  by_cases hp2 : p < 1024
  · by_cases hq2 : q < 1024
    · rw [if_pos hp2, if_pos hq2] at he
      omega
    · have hlow := habove hq2 hq
      rw [if_pos hp2, if_neg hq2] at he
      omega
  · by_cases hq2 : q < 1024
    · have hlow := habove hp2 hp
      rw [if_neg hp2, if_pos hq2] at he
      omega
    · rw [if_neg hp2, if_neg hq2] at he
      have hhuge :=
        hb.hugePageOf_inj (show 2 ≤ p / 512 by omega) (by omega) (show 2 ≤ q / 512 by omega)
        (by omega) (by omega)
      omega

/-- No frame of a mapped page is that of a table. -/
theorem Ready.frameOfPage_ne (hr : Ready h) {p : Nat} (hp : p < 512 * total h) {t : Tab}
    (ht : t.Taken (count h)) : t.addr h ≠ frameOfPage h p := by
  have hslot : t.number < capacity h := Nat.lt_of_lt_of_le ht hr.room
  have hlt := hr.bounded.slot_lt hslot
  have habove := hr.above _ (map_slot hslot)
  unfold Tab.addr frameOfPage
  by_cases h2 : p < 1024
  · rw [if_pos h2]
    omega
  · obtain ⟨-, -, -, hbreak⟩ := hr.bounded.hugePageOf_spec (show 2 ≤ p / 512 by omega)
      (show p / 512 < total h by omega)
    rw [if_neg h2]
    omega

/-- The physical address for an address of a mapped page. -/
theorem Ready.translate_frame (hr : Ready h) (hs : Shape h leaf p4 m) (hl : Leaves h leaf)
    (hp : pageOf va < 512 * total h) :
    translate m.read64 p4.toNat va = some (frameOfPage h (pageOf va) + va.toNat % 4096) := by
  rw [hr.translate_page hs hp (hl.present _ hp), hl.frame _ hp]

/-! ### What the tables are for -/

/-- An address of the user. -/
def User (t : Built) (va : UInt64) : Prop := kernelBreak ≤ va ∧ va < t.vaddrBreak

/-- Where the tables lead an address. -/
def Built.phys (t : Built) (va : UInt64) : Option Nat := translate t.mem.read64 t.p4.toNat va

/-- The user has the registered huge pages from `page_table_break` on, each byte once, in pages
that are still the supervisor's and to be cleared; the tables are elsewhere. -/
structure Maps (h : HugePages) (t : Built) : Prop where
  identity : ∀ va, va < kernelBreak → t.phys va = some va.toNat
  user : ∀ va, User t va → ∃ f, f % 4096 = 0 ∧ h.map (f / 2097152) = true ∧
    h.pageTableBreak.toNat ≤ f ∧
    ∀ vb, pageOf vb = pageOf va → t.phys vb = some (f + vb.toNat % 4096)
  injective : ∀ va vb, User t va → User t vb → t.phys va = t.phys vb → va = vb
  onto : ∀ pa, h.map (pa / 2097152) = true → h.pageTableBreak.toNat ≤ pa →
    ∃ va, User t va ∧ t.phys va = some pa
  apart : ∀ level a, Table t.mem.read64 t.p4.toNat level a → ∀ va pa, User t va →
    t.phys va = some pa → pa / 4096 ≠ a / 4096
  flags : ∀ va, User t va → ∃ a, t.phys (getP1 va) = some a ∧
    (t.mem.read64 a).toBitVec &&& PTE.user = 0 ∧ (t.mem.read64 a).toBitVec &&& PTE.duckWritten ≠ 0

/-- The user's pages are the mapped ones from number 1024 on. -/
theorem user_iff {t : Built} (hvb : t.vaddrBreak.toNat = total h * 2097152) (va : UInt64) :
    User t va ↔ 1024 ≤ pageOf va ∧ pageOf va < 512 * total h := by
  unfold User pageOf
  rw [UInt64.le_iff_toNat_le, UInt64.lt_iff_toNat_lt, toNat_kernelBreak, hvb]
  omega

theorem two_le_total (h : HugePages) : 2 ≤ total h := Nat.le_add_right 2 _

/-- The flags of a first leaf. -/
theorem Bounded.firstLeaf_flags (hb : Bounded h) {p : Nat} (h2 : 1024 ≤ p)
    (hp : p < 512 * total h) :
    (firstLeaf h p).toBitVec &&& PTE.user = 0 ∧
      (firstLeaf h p).toBitVec &&& PTE.duckWritten ≠ 0 := by
  have hnat : (firstLeaf h p).toBitVec.toNat = _ := hb.firstLeaf_user_toNat h2 hp
  have huser : PTE.user.toNat = Bits.mask 1 2 := by decide
  have hwritten : PTE.duckWritten.toNat = Bits.mask 1 9 := by decide
  refine ⟨BitVec.eq_of_toNat_eq ?_, fun hc => ?_⟩
  · rw [BitVec.toNat_and, huser, Bits.and_field, hnat]
    show _ = 0
    omega
  · have hzero : ((firstLeaf h p).toBitVec &&& PTE.duckWritten).toNat = 0 := by
      rw [hc]
      rfl
    rw [BitVec.toNat_and, hwritten, Bits.and_field, hnat] at hzero
    omega

/-- The lowest entries as the recursive mapping shows them. -/
theorem Ready.read_leaf (hr : Ready h) (hs : Shape h leaf p4 m) (hp : pageOf va < 512 * total h) :
    ∃ a, translate m.read64 p4.toNat (getP1 va) = some a ∧ m.read64 a = leaf (pageOf va) := by
  refine ⟨_, hr.translate_getP1 hs hp, ?_⟩
  rw [hs.holds (.p1 (pageOf va / 512)) (taken_p1.mpr (by omega)) _ (Nat.mod_lt _ (by decide))]
  show leaf (512 * (pageOf va / 512) + pageOf va % 512) = _
  rw [Nat.div_add_mod]

theorem Ready.maps (hr : Ready h) {t : Built} (hvb : t.vaddrBreak.toNat = total h * 2097152)
    (hs : Shape h (firstLeaf h) t.p4 t.mem) : Maps h t := by
  have hb := hr.bounded
  have hl := hb.leaves_firstLeaf
  have htotal := hr.total_le
  have htwo := two_le_total h
  have hphys : ∀ va, pageOf va < 512 * total h →
      t.phys va = some (frameOfPage h (pageOf va) + va.toNat % 4096) :=
    fun va hp => hr.translate_frame hs hl hp
  have hmod := frameOfPage_mod h
  constructor
  case identity =>
    intro va hva
    rw [UInt64.lt_iff_toNat_lt, toNat_kernelBreak] at hva
    rw [hphys va (by unfold pageOf; omega), frameOfPage, if_pos (by unfold pageOf; omega)]
    congr 1
    unfold pageOf
    omega
  case user =>
    intro va hva
    rw [user_iff hvb] at hva
    obtain ⟨hmap, hbreak⟩ := hb.frameOfPage_registered hva.1 hva.2
    refine ⟨frameOfPage h (pageOf va), hmod _, hmap, hbreak, fun vb hvb' => ?_⟩
    rw [hphys vb (by rw [hvb']; exact hva.2), hvb']
  case injective =>
    intro va vb hva hvb' he
    rw [user_iff hvb] at hva hvb'
    rw [hphys va hva.2, hphys vb hvb'.2, Option.some.injEq] at he
    have ha := hmod (pageOf va)
    have hb' := hmod (pageOf vb)
    have hpage := hr.frameOfPage_inj hva.2 hvb'.2 (by omega)
    refine UInt64.toNat.inj ?_
    rw [hpage] at he
    unfold pageOf at hpage
    omega
  case onto =>
    intro pa hmap hbreak
    have haligned := hb.aligned
    have hindex : pa / 4096 * 4096 / 2097152 = pa / 2097152 := by omega
    obtain ⟨p, hp2, hp, hframe⟩ := hr.frameOfPage_onto (Nat.mul_mod_left (pa / 4096) 4096)
      (by rw [hindex]; exact hmap) (by omega)
    have hva : (UInt64.ofNat (4096 * p + pa % 4096)).toNat = 4096 * p + pa % 4096 :=
      UInt64.toNat_ofNat_of_lt' (show 4096 * p + pa % 4096 < 2 ^ 64 by omega)
    have hpage : pageOf (.ofNat (4096 * p + pa % 4096)) = p := by
      unfold pageOf
      omega
    refine ⟨.ofNat (4096 * p + pa % 4096), ?_, ?_⟩
    · rw [user_iff hvb, hpage]
      exact ⟨hp2, hp⟩
    · rw [hphys _ (by rw [hpage]; exact hp), hpage, hframe, hva]
      congr 1
      omega
  case apart =>
    intro level a htable va pa hva hpa
    rw [user_iff hvb] at hva
    rw [hphys va hva.2, Option.some.injEq] at hpa
    rw [hs.p4] at htable
    obtain ⟨u, hu, rfl, -⟩ := (hr.ranked _).table hs.holds (taken_top h (by decide)) rfl htable
    have hne := hr.frameOfPage_ne hva.2 hu
    have hm := hmod (pageOf va)
    have haddr : u.addr h % 4096 = 0 := slot_mod h u.number
    omega
  case flags =>
    intro va hva
    rw [user_iff hvb] at hva
    obtain ⟨a, ha, hread⟩ := hr.read_leaf hs hva.2
    exact ⟨a, ha, by rw [hread]; exact hb.firstLeaf_flags hva.1 hva.2⟩

end JudgeDuck.PageTable
