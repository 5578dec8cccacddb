/-
`init_page_table_4k`, step by step.

The kernel's tables come first, then one lowest table for each 2 MiB of the user and, where a
GiB begins, the table above it.  So the number of tables in use is known when the first `n`
pages of 2 MiB are mapped (`tablesFor`), and one round of either loop goes from `n` to
`n + 1`.  The lowest entries are those of `firstLeaf` from the round that maps them on.
-/
import JudgeDuck.Proofs.Tables.Layout

namespace JudgeDuck.PageTable

open Memory Paging

variable {h : HugePages} {c : Nat} {s : Tables}

/-! ### The lowest entries -/

/-- The registered huge pages that the tables may use. -/
def reserved (h : HugePages) : Nat := h.below (h.pageTableBreak.toNat / 2097152)

/-- The huge page for 2 MiB number `k` of the addresses, from 2 on. -/
noncomputable def hugePageOf (h : HugePages) (k : Nat) : Nat := h.nthPage (reserved h + (k - 2))

/-- The entry of page `p` after `init_page_table_4k`. -/
noncomputable def firstLeaf (h : HugePages) (p : Nat) : UInt64 :=
  if p < 1024 then kernelEntry (.ofNat (p / 512)) (.ofNat (p % 512))
  else userEntry (.ofNat (hugePageOf h (p / 512)) * hugePageSize) (.ofNat (p % 512))

theorem firstLeaf_kernel {i j : Nat} (hi : i < 2) (hj : j < 512) :
    firstLeaf h (512 * i + j) = kernelEntry (.ofNat i) (.ofNat j) := by
  have hdiv : (512 * i + j) / 512 = i := by omega
  have hmod : (512 * i + j) % 512 = j := by omega
  rw [firstLeaf, if_pos (by omega), hdiv, hmod]

theorem firstLeaf_user {k j : Nat} (hk : 2 ≤ k) (hj : j < 512) :
    firstLeaf h (512 * k + j) = userEntry (.ofNat (hugePageOf h k) * hugePageSize) (.ofNat j) := by
  have hdiv : (512 * k + j) / 512 = k := by omega
  have hmod : (512 * k + j) % 512 = j := by omega
  rw [firstLeaf, if_neg (by omega), hdiv, hmod]

/-- The tables in use when the first `n` pages of 2 MiB are mapped. -/
def tablesFor (n : Nat) : Nat := 3 + (n + 511) / 512 + n

/-! ### The kernel's part -/

theorem ofNat_toNat_of_lt {i : Nat} (hi : i < 512) : (UInt64.ofNat i).toNat = i :=
  UInt64.toNat_ofNat_of_lt' (show i < 2 ^ 64 by omega)

/-- One round of the loop for `[0, 4 MiB)`. -/
theorem State.mapKernelPage {i : Nat} {p2Low : UInt64}
    (hs : State h (4 + i) (entries h (4 + i) (firstLeaf h)) s) (hb : Bounded h)
    (hc : 4 + i < capacity h) (hi : i < 2) (hp2 : p2Low.toNat = (Tab.p2 0).addr h) :
    ∃ s', mapKernelPage h p2Low (.ofNat i) s = some s' ∧
      State h (4 + i + 1) (entries h (4 + i + 1) (firstLeaf h)) s' := by
  have hnum : (Tab.p1 i).number = 4 + i := by
    show 4 + i + i / 512 = 4 + i
    omega
  have htaken : (Tab.p1 i).Taken (4 + i + 1) := Nat.lt_succ_of_le (Nat.le_of_eq hnum)
  have hlow : (Tab.p2 0).Taken (4 + i + 1) := show 3 + 513 * 0 < 4 + i + 1 by omega
  obtain ⟨s1, halloc, hs1⟩ := hs.alloc hb hc hnum
  have hs2 := hs1.setPte hc hlow hp2 (ofNat_toNat_of_lt (show i < 512 by omega)) (by omega)
    (entryTo h (.p1 i) kernelFlags)
  have hs3 := hs2.fill hc htaken (hb.addr_toNat htaken hc) (kernelEntry (.ofNat i))
  refine ⟨_, ?_, hs3.congr fun v hv k hk => ?_⟩
  · rw [PageTable.mapKernelPage, halloc]
    rfl
  · by_cases hvu : v = .p1 i
    · rw [hvu, Function.update_self]
      exact firstLeaf_kernel hi hk
    · have hold := (Tab.taken_succ hnum hv).resolve_left hvu
      rw [Function.update_of_ne hvu]
      by_cases hv2 : v = .p2 0
      · have hne : Tab.p2 0 ≠ .p1 i := fun he => Tab.noConfusion he
        rw [hv2, Function.update_self, Function.update_of_ne hne]
        by_cases hki : k = i
        · rw [hki, Function.update_self]
          have hlink := entries_p2 (h := h) htaken (firstLeaf h)
          rw [if_pos hi] at hlink
          have hdiv : i / 512 = 0 := by omega
          have hmod : i % 512 = i := by omega
          rwa [hdiv, hmod] at hlink
        · rw [Function.update_of_ne hki]
          refine entries_succ hnum (fun g hg => Tab.noConfusion hg) (fun l hl g hg => ?_)
            fun l hl => Tab.noConfusion hl
          cases hl
          cases hg
          omega
      · rw [Function.update_of_ne hv2, Function.update_of_ne hvu]
        refine entries_succ hnum (fun g hg => Tab.noConfusion hg)
          (fun l hl g hg => ?_) fun _ _ => rfl
        cases hl
        have hg0 : g ≠ 0 := fun h0 => hv2 (by rw [hg, h0])
        omega

/-- Before the first table the allocator stands at `kernel_break`. -/
theorem next_kernelBreak (habove : ∀ i, h.map i = true → 2 ≤ i) : Next h kernelBreak 0 := by
  have hbelow : h.below 2 = 0 := by
    by_contra hne
    have hpos : 0 < h.below 2 := Nat.pos_of_ne_zero hne
    have hlt := HugePages.nthPage_lt hpos
    have hle := habove _ (HugePages.map_nthPage hpos)
    omega
  refine ⟨?_, ?_, fun hc => absurd rfl hc⟩
  · rw [toNat_kernelBreak]
    exact hbelow
  · rw [toNat_kernelBreak]

/-- A table without entries, next to others without entries. -/
theorem State.alloc_blank {u : Tab} (hs : State h c (fun _ _ => 0) s) (hb : Bounded h)
    (hc : c < capacity h) (hu : u.number = c) :
    ∃ s', pageTableAllocZeroed h s = some (.ofNat (u.addr h), s') ∧
      State h (c + 1) (fun _ _ => 0) s' := by
  obtain ⟨s', halloc, hs'⟩ := hs.alloc hb hc hu
  rw [Function.update_eq_self u (fun (_ : Tab) (_ : Nat) => (0 : UInt64))] at hs'
  exact ⟨s', halloc, hs'⟩

/-- What is in the first four tables when they are linked. -/
theorem entries_four {T : Tab → Nat → UInt64} (leaf : Nat → UInt64)
    (hp4 : ∀ j, T .p4 j = if j = 0 then entryTo h .p3Low userFlags
      else if j = 510 then entryTo h .p3High kernelFlags
      else if j = 511 then entryTo h .p4 kernelFlags else 0)
    (hhigh : ∀ j, T .p3High j = remapEntry (.ofNat j))
    (hlow : ∀ j, T .p3Low j = if j = 0 then entryTo h (.p2 0) userFlags else 0)
    (hp2 : ∀ j, T (.p2 0) j = 0) {t : Tab} (ht : t.Taken 4) (j : Nat) :
    entries h 4 leaf t j = T t j := by
  unfold Tab.Taken at ht
  cases t with
  | p4 =>
      rw [hp4, entries]
      by_cases h0 : j = 0
      · rw [if_pos h0, if_neg (by omega), if_neg (by omega), if_pos h0]
      · rw [if_neg h0, if_neg h0]
        by_cases h510 : j = 510
        · rw [if_pos h510, if_neg (by omega), if_pos h510]
        · rw [if_neg h510, if_neg h510]
  | p3High => exact (hhigh j).symm
  | p3Low =>
      rw [hlow, entries, Tab.number_p2]
      by_cases hj : j = 0
      · rw [hj, if_pos (by decide), if_pos rfl]
      · rw [if_neg (by omega), if_neg hj]
  | p2 g =>
      rw [Tab.number_p2] at ht
      have hg : g = 0 := by omega
      rw [hg, hp2, entries, Tab.number_p1, if_neg (by omega)]
  | p1 k =>
      rw [Tab.number_p1] at ht
      omega

/-- The tables of the kernel's upper levels are taken and linked, and `[0, 4 MiB)` is mapped. -/
theorem initEmptyKernelPageTable_eq (hb : Bounded h) (habove : ∀ i, h.map i = true → 2 ≤ i)
    (hc : 6 ≤ capacity h) (m : Mem) :
    ∃ s, initEmptyKernelPageTable h ⟨m, kernelBreak⟩ = some (.ofNat (Tab.p4.addr h), s) ∧
      State h 6 (entries h 6 (firstLeaf h)) s := by
  have hs0 : State h 0 (fun _ _ => 0) ⟨m, kernelBreak⟩ :=
    ⟨next_kernelBreak habove, fun t ht => absurd ht (Nat.not_lt_zero _)⟩
  have h4 : 4 ≤ capacity h := by omega
  obtain ⟨s1, ha1, hs1⟩ := hs0.alloc_blank hb (by omega) (show Tab.p4.number = 0 from rfl)
  obtain ⟨s2, ha2, hs2⟩ := hs1.alloc_blank hb (by omega) (show Tab.p3High.number = 1 from rfl)
  obtain ⟨s3, ha3, hs3⟩ := hs2.alloc_blank hb (by omega) (show Tab.p3Low.number = 2 from rfl)
  obtain ⟨s4, ha4, hs4⟩ := hs3.alloc_blank hb (by omega) (show (Tab.p2 0).number = 3 from rfl)
  have htaken : ∀ t : Tab, t.number < 4 → t.Taken 4 ∧ (UInt64.ofNat (t.addr h)).toNat = t.addr h :=
    fun t ht => ⟨ht, hb.addr_toNat ht h4⟩
  obtain ⟨ht4, hp4⟩ := htaken .p4 (by decide)
  obtain ⟨hth, hph⟩ := htaken .p3High (by decide)
  obtain ⟨htl, hpl⟩ := htaken .p3Low (by decide)
  have hs5 := hs4.setPte h4 ht4 hp4 (show (511 : UInt64).toNat = 511 from rfl) (by decide)
    (entryTo h .p4 kernelFlags)
  have hs6 := hs5.setPte h4 ht4 hp4 (show (510 : UInt64).toNat = 510 from rfl) (by decide)
    (entryTo h .p3High kernelFlags)
  rw [Function.update_idem, Function.update_self] at hs6
  have hs7 := hs6.fill h4 hth hph remapEntry
  have hs8 := hs7.setPte h4 ht4 hp4 (show (0 : UInt64).toNat = 0 from rfl) (by decide)
    (entryTo h .p3Low userFlags)
  rw [Function.update_of_ne (show Tab.p4 ≠ .p3High by decide), Function.update_self] at hs8
  have hs9 := hs8.setPte h4 htl hpl (show (0 : UInt64).toNat = 0 from rfl) (by decide)
    (entryTo h (.p2 0) userFlags)
  have hs10 := hs9.congr fun t ht j _ => entries_four (h := h) (firstLeaf h)
    (by simp [Function.update_apply]) (by simp) (by simp [Function.update_apply]) (by simp) ht j
  dsimp only at hs10
  obtain ⟨s11, hk0, hs11⟩ := hs10.mapKernelPage hb (by omega) (show 0 < 2 by decide)
    (htaken (.p2 0) (by decide)).2
  obtain ⟨s12, hk1, hs12⟩ := hs11.mapKernelPage hb (by omega) (show 1 < 2 by decide)
    (htaken (.p2 0) (by decide)).2
  refine ⟨s12, ?_, hs12⟩
  have hrounds : (kernelBreak / hugePageSize).toNat = 2 := by decide
  have hassert : kernelBreak % hugePageSize = 0 := by decide
  have hloop : ∀ s10, mapKernelPage h (.ofNat ((Tab.p2 0).addr h)) (.ofNat 0) s10 = some s11 →
      (List.range 2).foldlM
        (fun s i => mapKernelPage h (.ofNat ((Tab.p2 0).addr h)) (.ofNat i) s) s10
        = some s12 := by
    intro s10 hfirst
    rw [show List.range 2 = [0, 1] from rfl, List.foldlM_cons, hfirst, Option.bind_eq_bind,
      Option.bind_some, List.foldlM_cons, hk1]
    rfl
  rw [initEmptyKernelPageTable, ha1]
  simp only [Option.bind_eq_bind, Option.bind_some, ha2, ha3, ha4]
  rw [hrounds, guard, if_pos hassert, Option.pure_def, Option.bind_some, hloop, Option.bind_some]
  exact hk0

/-! ### The user's part -/

/-- The indices of a page of 2 MiB in the lowest 512 GiB. -/
theorem indices_toNat {n : Nat} {vaddr : UInt64} (hn : n < 261632)
    (hv : vaddr.toNat = n * 2097152) :
    (p4Index vaddr).toNat = 0 ∧ (p3Index vaddr).toNat = n / 512 ∧
      (p2Index vaddr).toNat = n % 512 := by
  rw [p4Index_toNat, p3Index_toNat, p2Index_toNat]
  unfold index
  rw [hv]
  omega

/-- The table above is there, unless a GiB begins. -/
theorem State.createP2 {n : Nat} {p3 index : UInt64}
    (hs : State h (tablesFor n) (entries h (tablesFor n) (firstLeaf h)) s) (hb : Bounded h)
    (hn2 : 2 ≤ n) (hn : n < 261632) (hc : tablesFor (n + 1) ≤ capacity h)
    (hp3 : p3.toNat = Tab.p3Low.addr h) (hindex : index.toNat = n / 512) :
    ∃ s', pteCreate h p3 index userFlags s = some (entryTo h (.p2 (n / 512)) userFlags, s') ∧
      State h (4 + n + n / 512) (entries h (4 + n + n / 512) (firstLeaf h)) s' := by
  unfold tablesFor at hs hc
  have htaken : Tab.p3Low.Taken (3 + (n + 511) / 512 + n) := show 2 < _ by omega
  by_cases h0 : n % 512 = 0
  · -- the first page of a GiB
    have hnum : (Tab.p2 (n / 512)).number = 3 + (n + 511) / 512 + n := by
      rw [Tab.number_p2]
      omega
    have hsucc : 3 + (n + 511) / 512 + n + 1 = 4 + n + n / 512 := by omega
    obtain ⟨s', hcreate, hs'⟩ := hs.create hb (by omega) htaken hnum hp3 hindex
      (by omega)
      (if_neg (by rw [hnum]; exact Nat.lt_irrefl _))
      (entries_p3Low (Nat.lt_succ_of_le (Nat.le_of_eq hnum)) (firstLeaf h))
      (fun v k hv _ hvk => entries_succ hnum (fun g hg hv3 => by cases hg; exact hvk hv3)
        (fun k hk => Tab.noConfusion hk) fun _ _ => rfl)
      (fun k hk => if_neg (by rw [Tab.number_p1]; omega))
    rw [hsucc] at hs'
    exact ⟨s', hcreate, hs'⟩
  · have hsame : 3 + (n + 511) / 512 + n = 4 + n + n / 512 := by omega
    rw [hsame] at hs htaken
    have hlow : (Tab.p2 (n / 512)).Taken (4 + n + n / 512) := by
      show 3 + 513 * (n / 512) < _
      omega
    have hentry := entries_p3Low (h := h) hlow (firstLeaf h)
    have hne := (hb.entryTo_spec hlow (by omega) (Or.inr rfl)).2.2.1
    refine ⟨s, ?_, hs⟩
    rw [hs.found htaken hp3 hindex (by omega) (by rw [hentry]; exact hne), hentry]

/-- The leaves before the table for 2 MiB number `n` is filled. -/
noncomputable def blankLeaf (h : HugePages) (n p : Nat) : UInt64 :=
    if p / 512 = n then 0 else firstLeaf h p

/-- The lowest table is new. -/
theorem State.createP1 {n : Nat} {p2 index : UInt64}
    (hs : State h (4 + n + n / 512) (entries h (4 + n + n / 512) (firstLeaf h)) s) (hb : Bounded h)
    (hn2 : 2 ≤ n) (hc : 4 + n + n / 512 < capacity h)
    (hp2 : p2.toNat = (Tab.p2 (n / 512)).addr h) (hindex : index.toNat = n % 512) :
    ∃ s', pteCreate h p2 index userFlags s = some (entryTo h (.p1 n) userFlags, s') ∧
      State h (4 + n + n / 512 + 1) (entries h (4 + n + n / 512 + 1) (blankLeaf h n)) s' := by
  have hnum : (Tab.p1 n).number = 4 + n + n / 512 := rfl
  have hlow : (Tab.p2 (n / 512)).Taken (4 + n + n / 512) := by
    show 3 + 513 * (n / 512) < _
    omega
  have hsum : 512 * (n / 512) + n % 512 = n := Nat.div_add_mod n 512
  have hlink := entries_p2 (h := h) (Nat.lt_succ_of_le (Nat.le_of_eq hnum)) (blankLeaf h n)
  rw [if_neg (by omega)] at hlink
  refine hs.create hb hc hlow hnum hp2 hindex (by omega) ?_ hlink (fun v k hv hk hvk => ?_)
    fun k hk => ?_
  · exact if_neg (by rw [hsum, hnum]; exact Nat.lt_irrefl _)
  · refine entries_succ hnum (fun g hg => Tab.noConfusion hg) (fun l hl g hg => ?_) fun l hl => ?_
    · cases hl
      intro he
      exact hvk (by rw [hg, ← he]; congr 1; omega) (by omega)
    · rw [hl, Tab.Taken, Tab.number_p1] at hv
      exact if_neg (by omega)
  · exact if_pos (by omega)

/-- One round of the loop for the user's pages. -/
theorem State.mapUserPage {n : Nat} {paddr vaddr : UInt64}
    (hs : State h (tablesFor n) (entries h (tablesFor n) (firstLeaf h)) s) (hb : Bounded h)
    (hn2 : 2 ≤ n) (hn : n < 261632) (hc : tablesFor (n + 1) ≤ capacity h)
    (hv : vaddr.toNat = n * 2097152) (hp : paddr = .ofNat (hugePageOf h n) * hugePageSize) :
    ∃ s', mapUserPage h (.ofNat (Tab.p4.addr h)) paddr vaddr s = some s' ∧
      State h (tablesFor (n + 1)) (entries h (tablesFor (n + 1)) (firstLeaf h)) s' := by
  obtain ⟨hi4, hi3, hi2⟩ := indices_toNat hn hv
  have hnext : tablesFor (n + 1) = 4 + n + n / 512 + 1 := by
    unfold tablesFor
    omega
  have hc0 : tablesFor n ≤ capacity h := by
    unfold tablesFor at hc ⊢
    omega
  have ht4 : Tab.p4.Taken (tablesFor n) := show 0 < 3 + (n + 511) / 512 + n by omega
  have htl : Tab.p3Low.Taken (tablesFor n) := show 2 < 3 + (n + 511) / 512 + n by omega
  have htn : (Tab.p1 n).Taken (tablesFor (n + 1)) := by
    rw [hnext]
    exact Nat.lt_succ_self _
  have ht2 : (Tab.p2 (n / 512)).Taken (tablesFor (n + 1)) := by
    rw [hnext]
    show 3 + 513 * (n / 512) < _
    omega
  -- the links that are followed, and their addresses
  obtain ⟨-, -, hne3, hp3⟩ := hb.entryTo_spec htl hc0 (Or.inr rfl)
  obtain ⟨-, -, -, hp2⟩ := hb.entryTo_spec ht2 hc (Or.inr rfl)
  obtain ⟨-, -, -, hp1⟩ := hb.entryTo_spec htn hc (Or.inr rfl)
  have hlow := entries_p4_low h (tablesFor n) (firstLeaf h)
  have h4 : pteCreate h (.ofNat (Tab.p4.addr h)) (p4Index vaddr) userFlags s
      = some (entryTo h .p3Low userFlags, s) := by
    rw [hs.found ht4 (hb.addr_toNat ht4 hc0) hi4 (by decide) (by rw [hlow]; exact hne3), hlow]
  obtain ⟨s1, h3, hs1⟩ := hs.createP2 hb hn2 hn hc hp3 hi3
  obtain ⟨s2, h2, hs2⟩ := hs1.createP1 hb hn2 (by omega) hp2 hi2
  rw [← hnext] at hs2
  have hs3 := hs2.fill hc htn hp1 (userEntry paddr)
  refine ⟨_, ?_, hs3.congr fun v hv' k hk => ?_⟩
  · simp only [PageTable.mapUserPage, h4, h3, h2, Option.bind_eq_bind, Option.bind_some]
  · by_cases hvn : v = .p1 n
    · rw [hvn, Function.update_self, hp]
      exact firstLeaf_user hn2 hk
    · rw [Function.update_of_ne hvn]
      refine entries_leaf fun l hl => ?_
      have hln : l ≠ n := fun he => hvn (by rw [hl, he])
      rw [blankLeaf, if_neg (by omega)]

/-- What `init_page_table_4k` relies on. -/
structure Ready (h : HugePages) : Prop where
  bounded : Bounded h
  above : ∀ i, h.map i = true → 2 ≤ i
  inside : ∀ i, h.map i = true → i < 261632
  room : tablesFor (2 + (h.below 261632 - reserved h)) ≤ capacity h

/-- The pages of 2 MiB that are mapped before the loop looks at huge page `i`. -/
def mapped (h : HugePages) (i : Nat) : Nat := 2 + (h.below i - reserved h)

/-- All of them. -/
def total (h : HugePages) : Nat := mapped h 261632

theorem Ready.below_le (hr : Ready h) {i : Nat} (hi : 2 ≤ i) : h.below i + 2 ≤ i := by
  induction i, hi using Nat.le_induction with
  | base =>
      have h0 := (next_kernelBreak hr.above).below
      rw [toNat_kernelBreak] at h0
      have h2 : h.below 2 = 0 := h0
      omega
  | succ i hi ih =>
      by_cases hmap : h.map i = true
      · rw [HugePages.below_succ hmap]
        omega
      · rw [HugePages.below_succ_of_not (Bool.not_eq_true _ |>.mp hmap)]
        omega

theorem tablesFor_mono {n k : Nat} (hnk : n ≤ k) : tablesFor n ≤ tablesFor k := by
  unfold tablesFor
  omega

/-- The loop for the user's pages: each registered huge page is mapped behind the ones before it. -/
theorem Ready.mapUserPages_eq (hr : Ready h) : ∀ (k i : Nat) (vaddr : UInt64) (s : Tables),
    i + k = 261632 → reserved h ≤ h.below i → vaddr.toNat = mapped h i * 2097152 →
    State h (tablesFor (mapped h i)) (entries h (tablesFor (mapped h i)) (firstLeaf h)) s →
    ∃ vb s', mapUserPages h (.ofNat (Tab.p4.addr h)) k i vaddr s = some (vb, s') ∧
      vb.toNat = total h * 2097152 ∧
      State h (tablesFor (total h)) (entries h (tablesFor (total h)) (firstLeaf h)) s' := by
  intro k
  induction k with
  | zero =>
      intro i vaddr s hik _ hv hs
      obtain rfl : i = 261632 := hik
      exact ⟨vaddr, s, rfl, hv, hs⟩
  | succ k ih =>
      intro i vaddr s hik hle hv hs
      by_cases hmap : h.map i = true
      · have hsucc := HugePages.below_succ hmap
        have hnext : mapped h (i + 1) = mapped h i + 1 := by
          unfold mapped
          omega
        have hi := hr.below_le (hr.above i hmap)
        have hlt : mapped h i < 261632 := by
          unfold mapped
          omega
        have htotal : mapped h (i + 1) ≤ total h := by
          have hmono := h.below_mono (show i + 1 ≤ 261632 by omega)
          unfold total mapped
          omega
        have hroom : tablesFor (mapped h i + 1) ≤ capacity h := by
          rw [← hnext]
          exact Nat.le_trans (tablesFor_mono htotal) hr.room
        have hpage : hugePageOf h (mapped h i) = i := by
          have hindex : reserved h + (mapped h i - 2) = h.below i := by
            unfold mapped
            omega
          rw [hugePageOf, hindex, HugePages.nthPage_below hmap]
        obtain ⟨s1, hround, hs1⟩ := hs.mapUserPage hr.bounded (Nat.le_add_right 2 _) hlt hroom hv
          (show UInt64.ofNat i * hugePageSize = _ by rw [hpage])
        have hv1 : (vaddr + hugePageSize).toNat = mapped h (i + 1) * 2097152 := by
          rw [Utils.toNat_add_of_lt (by rw [toNat_hugePageSize]; omega), toNat_hugePageSize]
          omega
        rw [← hnext] at hs1
        obtain ⟨vb, s', hrest, hvb, hs'⟩ := ih (i + 1) _ s1 (by omega) (by omega) hv1 hs1
        refine ⟨vb, s', ?_, hvb, hs'⟩
        rw [mapUserPages, if_pos hmap, hround]
        exact hrest
      · have hsame := HugePages.below_succ_of_not (Bool.not_eq_true _ |>.mp hmap)
        have hmapped : mapped h (i + 1) = mapped h i := by
          unfold mapped
          rw [hsame]
        obtain ⟨vb, s', hrest, hvb, hs'⟩ := ih (i + 1) vaddr s (by omega) (by omega)
          (by rw [hmapped]; exact hv) (by rw [hmapped]; exact hs)
        refine ⟨vb, s', ?_, hvb, hs'⟩
        rw [mapUserPages, if_neg hmap]
        exact hrest

/-- The number of tables in the end. -/
def count (h : HugePages) : Nat := tablesFor (total h)

/-- The tables that are built, `leaf` being their lowest entries. -/
structure Shape (h : HugePages) (leaf : Nat → UInt64) (p4 : UInt64) (m : Mem) : Prop where
  p4 : p4.toNat = Tab.p4.addr h
  holds : Holds (Tab.addr h) (Tab.Taken (count h)) (entries h (count h) leaf) m

/-- No assert fails, and the tables are these. -/
theorem Ready.initPageTable4k_eq (hr : Ready h) (m : Mem) :
    ∃ t, initPageTable4k h m = some t ∧ t.vaddrBreak.toNat = total h * 2097152 ∧
      Shape h (firstLeaf h) t.p4 t.mem := by
  have hb := hr.bounded
  have hinside := hb.inside
  have haligned := hb.aligned
  have hroom := hr.room
  have hsix : 6 ≤ capacity h := by
    unfold tablesFor at hroom
    omega
  obtain ⟨s, hkernel, hs⟩ := initEmptyKernelPageTable_eq hb hr.above hsix m
  have hindex : (h.pageTableBreak / hugePageSize).toNat = h.pageTableBreak.toNat / 2097152 := by
    rw [UInt64.toNat_div, toNat_hugePageSize]
  have hfirst : mapped h (h.pageTableBreak.toNat / 2097152) = 2 := by
    unfold mapped reserved
    omega
  obtain ⟨vb, s', huser, hvb, hs'⟩ := hr.mapUserPages_eq
    (261632 - h.pageTableBreak.toNat / 2097152) (h.pageTableBreak.toNat / 2097152) kernelBreak s
    (by omega) (Nat.le_refl _) (by rw [hfirst, toNat_kernelBreak]) (by rw [hfirst]; exact hs)
  refine ⟨⟨.ofNat (Tab.p4.addr h), vb, s'.mem⟩, ?_, hvb, ?_, hs'.holds⟩
  · rw [initPageTable4k, hkernel, hindex, maxNHugePages_eq, Option.bind_eq_bind, Option.bind_some]
    dsimp only
    rw [huser]
    rfl
  · exact hb.addr_toNat (show Tab.p4.Taken 6 from (by decide : 0 < 6)) hsix

end JudgeDuck.PageTable
