/-
Where the addresses go.

In tables of the shape that `init_page_table_4k` builds, an address of the lower half has a
lowest entry exactly if its page is mapped, and the recursive mapping finds that entry.  So
the frame of a page is the frame of its leaf.  The other addresses of the upper half go to
tables of higher levels or past all tables; for them it is enough that the ranks go down.
-/
import JudgeDuck.Proofs.Tables.Build

namespace JudgeDuck.PageTable

open Memory Paging

variable {h : HugePages} {leaf : Nat → UInt64} {p4 : UInt64} {m : Mem} {va : UInt64}

/-! ### Links -/

theorem taken_p1 {k : Nat} : (Tab.p1 k).Taken (count h) ↔ k < total h := by
  unfold Tab.Taken count tablesFor
  rw [Tab.number_p1]
  omega

theorem taken_p2 {g : Nat} : (Tab.p2 g).Taken (count h) ↔ 512 * g < total h := by
  unfold Tab.Taken count tablesFor
  rw [Tab.number_p2]
  omega

theorem taken_top (h : HugePages) {t : Tab} (ht : t.number < 3) : t.Taken (count h) := by
  unfold Tab.Taken count tablesFor
  omega

theorem Ready.link (hr : Ready h) {t u : Tab} {j : Nat} {flags : UInt64} (hu : u.Taken (count h))
    (hf : LinkFlags flags) (he : entries h (count h) leaf t j = entryTo h u flags) :
    Link (Tab.addr h) (Tab.Taken (count h)) (entries h (count h) leaf) t j u := by
  obtain ⟨htable, hframe, -, -⟩ := hr.bounded.entryTo_spec hu hr.room hf
  exact ⟨by rw [he]; exact htable, by rw [he]; exact hframe, hu⟩

theorem Ready.link_self (hr : Ready h) (leaf : Nat → UInt64) :
    Link (Tab.addr h) (Tab.Taken (count h)) (entries h (count h) leaf) .p4 511 .p4 :=
  hr.link (taken_top h (by decide)) (Or.inl rfl) (entries_p4_self h _ leaf)

theorem Ready.link_low (hr : Ready h) (leaf : Nat → UInt64) :
    Link (Tab.addr h) (Tab.Taken (count h)) (entries h (count h) leaf) .p4 0 .p3Low :=
  hr.link (taken_top h (by decide)) (Or.inr rfl) (entries_p4_low h _ leaf)

theorem Ready.link_p2 (hr : Ready h) {g : Nat} (hg : 512 * g < total h) (leaf : Nat → UInt64) :
    Link (Tab.addr h) (Tab.Taken (count h)) (entries h (count h) leaf) .p3Low g (.p2 g) :=
  hr.link (taken_p2.mpr hg) (Or.inr rfl) (entries_p3Low (taken_p2.mpr hg) leaf)

theorem Ready.link_p1 (hr : Ready h) {k : Nat} (hk : k < total h) (leaf : Nat → UInt64) :
    Link (Tab.addr h) (Tab.Taken (count h)) (entries h (count h) leaf) (.p2 (k / 512)) (k % 512)
      (.p1 k) := by
  refine hr.link (taken_p1.mpr hk) ?_ (entries_p2 (taken_p1.mpr hk) leaf)
  split
  · exact Or.inl rfl
  · exact Or.inr rfl

/-! ### Addresses of the lower half -/

/-- The page of an address. -/
def pageOf (va : UInt64) : Nat := va.toNat / 4096

theorem indices (hva : va.toNat < 2 ^ 47) :
    index va 3 = pageOf va / 134217728 ∧ index va 2 = pageOf va / 512 / 512 % 512 ∧
      index va 1 = pageOf va / 512 % 512 ∧ index va 0 = pageOf va % 512 := by
  unfold index pageOf
  omega

/-- Fewer pages are mapped than one table of the third level is for. -/
theorem Ready.total_le (hr : Ready h) : total h ≤ 261632 := by
  have hle := hr.below_le (show 2 ≤ 261632 by decide)
  have hroom := hr.room
  unfold capacity tablesFor at hroom
  unfold total mapped
  unfold reserved at hroom ⊢
  omega

/-- The indices of a mapped page. -/
theorem Ready.indices (hr : Ready h) (hp : pageOf va < 512 * total h) :
    va.toNat < 2 ^ 47 ∧ index va 3 = 0 ∧ index va 2 = pageOf va / 512 / 512 ∧
      index va 1 = pageOf va / 512 % 512 ∧ index va 0 = pageOf va % 512 := by
  have htotal := hr.total_le
  unfold index
  unfold pageOf at hp ⊢
  omega

/-- A mapped page goes where its leaf says. -/
theorem Ready.translate_page (hr : Ready h) (hs : Shape h leaf p4 m)
    (hp : pageOf va < 512 * total h) (hleaf : present (leaf (pageOf va)) = true) :
    translate m.read64 p4.toNat va = some (frame 12 (leaf (pageOf va)) + va.toNat % 4096) := by
  obtain ⟨hva, h3, h2, h1, h0⟩ := hr.indices hp
  have htable : entries h (count h) leaf (.p1 (pageOf va / 512)) (pageOf va % 512)
      = leaf (pageOf va) := by
    show leaf (512 * (pageOf va / 512) + pageOf va % 512) = _
    rw [Nat.div_add_mod]
  have htop := taken_top h (show Tab.p4.number < 3 by decide)
  have hlow := hr.link_low leaf
  have hlink2 := hr.link_p2 (show 512 * (pageOf va / 512 / 512) < total h by omega) leaf
  have hlink1 := hr.link_p1 (show pageOf va / 512 < total h by omega) leaf
  rw [hs.p4, hs.holds.translate_link (Or.inl hva) htop h3 hlow,
    hs.holds.walk_link hlow.live h2 hlink2, hs.holds.walk_link hlink2.live h1 hlink1,
    hs.holds.walk_page hlink1.live h0 (by rw [htable]; exact hleaf), htable]
  rfl

/-- The recursive mapping finds the leaf of a mapped page. -/
theorem Ready.translate_getP1 (hr : Ready h) (hs : Shape h leaf p4 m)
    (hp : pageOf va < 512 * total h) :
    translate m.read64 p4.toNat (getP1 va)
      = some ((Tab.p1 (pageOf va / 512)).addr h + 8 * (pageOf va % 512)) := by
  obtain ⟨hva, h3, h2, h1, h0⟩ := hr.indices hp
  have hf := getP1_fields va
  have htop := taken_top h (show Tab.p4.number < 3 by decide)
  have hself := hr.link_self leaf
  have hlow := hr.link_low leaf
  have hlink2 := hr.link_p2 (show 512 * (pageOf va / 512 / 512) < total h by omega) leaf
  have hlink1 := hr.link_p1 (show pageOf va / 512 < total h by omega) leaf
  rw [hs.p4, hs.holds.translate_link hf.canonical htop hf.index3 hself,
    hs.holds.walk_link htop (hf.index2.trans h3) hlow,
    hs.holds.walk_link hlow.live (hf.index1.trans h2) hlink2,
    hs.holds.walk_page hlink2.live (hf.index0.trans h1) hlink1.isTable.present, hlink1.frame,
    hf.offset, h0]

/-- A page that is not mapped has no leaf. -/
theorem Ready.translate_getP1_none (hr : Ready h) (hs : Shape h leaf p4 m) (hva : va.toNat < 2 ^ 47)
    (hp : 512 * total h ≤ pageOf va) : translate m.read64 p4.toNat (getP1 va) = none := by
  have hf := getP1_fields va
  have htop := taken_top h (show Tab.p4.number < 3 by decide)
  have hself := hr.link_self leaf
  have hlow := hr.link_low leaf
  have hzero : present 0 = false := by decide
  have hempty : ∀ t j, entries h (count h) leaf t j = 0 →
      present (entries h (count h) leaf t j) = false := by
    intro t j he
    rw [he]
    exact hzero
  obtain ⟨h3, h2, h1, h0⟩ := PageTable.indices hva
  rw [hs.p4, hs.holds.translate_link hf.canonical htop hf.index3 hself]
  by_cases hi3 : index va 3 = 0
  · rw [hs.holds.walk_link htop (hf.index2.trans hi3) hlow]
    by_cases hi2 : 512 * index va 2 < total h
    · have hlink2 := hr.link_p2 hi2 leaf
      rw [hs.holds.walk_link hlow.live hf.index1 hlink2]
      refine hs.holds.walk_absent hlink2.live hf.index0 (hempty _ _ (entries_p2_empty ?_ leaf))
      rw [taken_p1]
      unfold pageOf at h2 h1 h3 hp
      omega
    · exact hs.holds.walk_absent hlow.live hf.index1
        (hempty _ _ (entries_p3Low_empty (mt taken_p2.mp hi2) leaf))
  · -- the lower half has no other entry in the topmost table
    have hlt : index va 3 < 256 := by
      unfold pageOf at h3
      omega
    refine hs.holds.walk_absent htop hf.index2 (hempty _ _ ?_)
    rw [entries, if_neg (by omega), if_neg (by omega), if_neg hi3]

/-! ### Ranks -/

/-- The mapping of physical memory has no tables below. -/
theorem huge_remapEntry {j : Nat} (hj : j < 512) : huge (remapEntry (.ofNat j)) = true := by
  have hindex := ofNat_toNat_of_lt hj
  have hsize : p3PageSize.toNat = 2 ^ 30 := by decide
  have hflags : (kernelFlags ||| .ofBitVec PTE.huge).toNat = 0xe3 := by decide
  have hbase : (UInt64.ofNat j * p3PageSize).toNat = j * 2 ^ 30 := by
    rw [UInt64.toNat_mul, hindex, hsize, Nat.mod_eq_of_lt (by omega)]
  have hnat : (remapEntry (.ofNat j)).toNat = j * 2 ^ 30 + 0xe3 := by
    rw [remapEntry, UInt64.or_assoc,
      toNat_or_flags (by rw [hbase]; omega) (by rw [hflags]; decide), hbase,
      hflags]
  exact decide_eq_true (by omega)

theorem not_isTable_zero : ¬IsTable 0 := fun ht => absurd ht.present (by decide)

/-- No table leads to one that is more than one level below it. -/
theorem Ready.ranked (hr : Ready h) (leaf : Nat → UInt64) :
    Ranked (Tab.addr h) (Tab.Taken (count h)) (entries h (count h) leaf) Tab.rank := by
  intro t ht r hrank j hj hentry
  cases t with
  | p4 =>
      by_cases h511 : j = 511
      · rw [h511]
        exact ⟨.p4, ht, (hr.link_self leaf).frame, by rw [hrank]; omega⟩
      · by_cases h510 : j = 510
        · rw [entries, if_neg h511, if_pos h510]
          have hhigh := taken_top h (show Tab.p3High.number < 3 by decide)
          obtain ⟨-, hframe, -, -⟩ := hr.bounded.entryTo_spec hhigh hr.room (Or.inl rfl)
          exact ⟨.p3High, hhigh, hframe,
            show r ≤ 2 from Nat.le_of_succ_le_succ (Nat.le_of_eq hrank.symm)⟩
        · by_cases h0 : j = 0
          · rw [h0]
            exact ⟨.p3Low, (hr.link_low leaf).live, (hr.link_low leaf).frame,
              show r ≤ 2 from Nat.le_of_succ_le_succ (Nat.le_of_eq hrank.symm)⟩
          · rw [entries, if_neg h511, if_neg h510, if_neg h0] at hentry
            exact absurd hentry not_isTable_zero
  | p3High =>
      have hhuge : huge (remapEntry (.ofNat j)) = false := hentry.huge
      rw [huge_remapEntry hj] at hhuge
      cases hhuge
  | p3Low =>
      by_cases hg : 512 * j < total h
      · exact ⟨.p2 j, (hr.link_p2 hg leaf).live, (hr.link_p2 hg leaf).frame,
          show r ≤ 1 from Nat.le_of_succ_le_succ (Nat.le_of_eq hrank.symm)⟩
      · rw [entries_p3Low_empty (mt taken_p2.mp hg)] at hentry
        exact absurd hentry not_isTable_zero
  | p2 g =>
      by_cases hk : 512 * g + j < total h
      · have hlink := hr.link_p1 hk leaf
        have hdiv : (512 * g + j) / 512 = g := by omega
        have hmod : (512 * g + j) % 512 = j := by omega
        rw [hdiv, hmod] at hlink
        exact ⟨.p1 (512 * g + j), hlink.live, hlink.frame,
          show r ≤ 0 from Nat.le_of_succ_le_succ (Nat.le_of_eq hrank.symm)⟩
      · rw [entries_p2_empty (mt taken_p1.mp hk)] at hentry
        exact absurd hentry not_isTable_zero
  | p1 k => cases hrank

/-! ### The first leaves -/

theorem kernelEntry_toNat {i j : Nat} (hi : i < 2) (hj : j < 512) :
    (kernelEntry (.ofNat i) (.ofNat j)).toNat = i * 2097152 + j * 4096 + 0x63 := by
  have hmul1 : (UInt64.ofNat i * hugePageSize).toNat = i * 2097152 := by
    rw [UInt64.toNat_mul, ofNat_toNat_of_lt (by omega), toNat_hugePageSize,
      Nat.mod_eq_of_lt (by omega)]
  have hmul2 : (UInt64.ofNat j * pageSize).toNat = j * 4096 := by
    rw [UInt64.toNat_mul, ofNat_toNat_of_lt hj, toNat_pageSize, Nat.mod_eq_of_lt (by omega)]
  have hbase : (UInt64.ofNat i * hugePageSize + UInt64.ofNat j * pageSize).toNat
      = i * 2097152 + j * 4096 := by
    rw [Utils.toNat_add_of_lt (by omega), hmul1, hmul2]
  rw [kernelEntry, toNat_or_flags (by rw [hbase]; omega) (by rw [kernelFlags_toNat]; decide), hbase,
    kernelFlags_toNat]

/-- Taking a flag away from an address with flags. -/
theorem or_and_not {a f g : UInt64} (hag : a &&& g = 0) :
    (a ||| f) &&& ~~~g = a ||| (f &&& ~~~g) := by
  have hdistrib : (a ||| f) &&& ~~~g = (a &&& ~~~g) ||| (f &&& ~~~g) :=
    UInt64.toBitVec_inj.mp BitVec.and_or_distrib_right
  have hsplit : a &&& (g ||| ~~~g) = (a &&& g) ||| (a &&& ~~~g) :=
    UInt64.toBitVec_inj.mp BitVec.and_or_distrib_left
  rw [UInt64.or_not_self, UInt64.and_neg_one, hag, UInt64.zero_or] at hsplit
  rw [hdistrib, ← hsplit]

theorem userEntry_toNat {i j : Nat} (hi : i < 261632) (hj : j < 512) :
    (userEntry (.ofNat i * hugePageSize) (.ofNat j)).toNat = i * 2097152 + j * 4096 + 0x263 := by
  have hmul1 : (UInt64.ofNat i * hugePageSize).toNat = i * 2097152 := by
    rw [UInt64.toNat_mul, UInt64.toNat_ofNat_of_lt' (show i < 2 ^ 64 by omega), toNat_hugePageSize,
      Nat.mod_eq_of_lt (by omega)]
  have hmul2 : (UInt64.ofNat j * pageSize).toNat = j * 4096 := by
    rw [UInt64.toNat_mul, ofNat_toNat_of_lt hj, toNat_pageSize, Nat.mod_eq_of_lt (by omega)]
  have hbase : (UInt64.ofNat i * hugePageSize + UInt64.ofNat j * pageSize).toNat
      = i * 2097152 + j * 4096 := by
    rw [Utils.toNat_add_of_lt (by omega), hmul1, hmul2]
  have huser : (UInt64.ofNat i * hugePageSize + UInt64.ofNat j * pageSize) &&& .ofBitVec PTE.user
      = 0 := by
    have hmask : (UInt64.ofBitVec PTE.user).toNat = Bits.mask 1 2 := by decide
    refine UInt64.toNat.inj ?_
    rw [UInt64.toNat_and, hbase, hmask, Bits.and_field]
    show _ = 0
    omega
  have hflags : ((userFlags &&& ~~~(.ofBitVec PTE.user)) ||| .ofBitVec PTE.duckWritten).toNat
      = 0x263 := by
    decide
  rw [userEntry, or_and_not huser, UInt64.or_assoc,
    toNat_or_flags (by rw [hbase]; omega) (by rw [hflags]; decide),
    hbase, hflags]

end JudgeDuck.PageTable
