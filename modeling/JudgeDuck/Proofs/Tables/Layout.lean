/-
Which tables there are, and what is in them.

A table is named after what it is for, and its number says how many are taken before it.
With the first `c` tables taken every entry of theirs is known (`entries`): the links in the
upper three levels follow from `c`, and the lowest entries are a function of the page.  One
call of `PTE_create` that finds no table takes the next one and links it.
-/
import JudgeDuck.Base.Tables
import JudgeDuck.Proofs.PageTable
import JudgeDuck.Proofs.Tables.Alloc

namespace JudgeDuck.PageTable

open Memory Paging

/-- The tables: one for all addresses, one for the mapping of physical memory and one for the lowest
512 GiB, and below the latter one for each GiB and one for each 2 MiB. -/
inductive Tab
  | p4
  | p3High
  | p3Low
  | p2 (g : Nat)
  | p1 (k : Nat)
  deriving DecidableEq

namespace Tab

/-- How many tables are taken before it. -/
def number : Tab → Nat
  | p4 => 0
  | p3High => 1
  | p3Low => 2
  | p2 g => 3 + 513 * g
  | p1 k => 4 + k + k / 512

@[simp] theorem number_p2 (g : Nat) : (p2 g).number = 3 + 513 * g := rfl
@[simp] theorem number_p1 (k : Nat) : (p1 k).number = 4 + k + k / 512 := rfl

/-- The number of levels below it. -/
def rank : Tab → Nat
  | p4 => 3
  | p3High => 2
  | p3Low => 2
  | p2 _ => 1
  | p1 _ => 0

theorem number_inj {t u : Tab} (he : t.number = u.number) : t = u := by
  cases t <;> cases u <;> simp only [number] at he <;> first | rfl | omega | (congr 1; omega)

noncomputable def addr (h : HugePages) (t : Tab) : Nat := slot h t.number

/-- The first `c` tables are taken. -/
def Taken (c : Nat) (t : Tab) : Prop := t.number < c

end Tab

variable {h : HugePages} {c : Nat}

theorem Tab.taken_succ {t u : Tab} (hu : u.number = c) (ht : t.Taken (c + 1)) :
    t = u ∨ t.Taken c := by
  by_cases he : t.number = c
  · exact Or.inl (Tab.number_inj (he.trans hu.symm))
  · refine Or.inr ?_
    unfold Tab.Taken at ht ⊢
    omega

theorem placed (hc : c ≤ capacity h) : Placed (Tab.addr h) (Tab.Taken c) where
  aligned t _ := slot_mod h t.number
  inj _ _ ht hu he :=
    Tab.number_inj (slot_inj (Nat.lt_of_lt_of_le ht hc) (Nat.lt_of_lt_of_le hu hc) he)

/-! ### Links -/

theorem kernelFlags_toNat : kernelFlags.toNat = 0x63 := by decide
theorem userFlags_toNat : userFlags.toNat = 0x67 := by decide

/-- An entry that leads to a table. -/
noncomputable def entryTo (h : HugePages) (t : Tab) (flags : UInt64) : UInt64 :=
  .ofNat (t.addr h) ||| flags

/-- Flags in the lower bits of an address. -/
theorem toNat_or_flags {a flags : UInt64} (ha : a.toNat % 4096 = 0) (hf : flags.toNat < 4096) :
    (a ||| flags).toNat = a.toNat + flags.toNat := by
  have hsplit : a.toNat = a.toNat / 4096 * 2 ^ 12 := by omega
  rw [UInt64.toNat_or, hsplit, Nat.lor_comm, Bits.or_field (by omega)]
  omega

theorem Bounded.addr_lt (hb : Bounded h) {t : Tab} (ht : t.Taken c) (hc : c ≤ capacity h) :
    t.addr h + 4096 ≤ 2 ^ 39 := by
  have hlt := hb.slot_lt (Nat.lt_of_lt_of_le ht hc)
  have hinside := hb.inside
  unfold Tab.addr
  omega

theorem Bounded.addr_toNat (hb : Bounded h) {t : Tab} (ht : t.Taken c) (hc : c ≤ capacity h) :
    (UInt64.ofNat (t.addr h)).toNat = t.addr h := by
  have hlt := hb.addr_lt ht hc
  exact UInt64.toNat_ofNat_of_lt' (show t.addr h < 2 ^ 64 by omega)

theorem Bounded.entryTo_toNat (hb : Bounded h) {t : Tab} (ht : t.Taken c) (hc : c ≤ capacity h)
    {flags : UInt64} (hf : flags.toNat < 4096) :
    (entryTo h t flags).toNat = t.addr h + flags.toNat := by
  have haddr := hb.addr_toNat ht hc
  rw [entryTo, toNat_or_flags (by rw [haddr]; exact slot_mod h t.number) hf, haddr]

/-- The two sets of flags in the upper levels. -/
def LinkFlags (flags : UInt64) : Prop := flags = kernelFlags ∨ flags = userFlags

theorem LinkFlags.toNat {flags : UInt64} (hf : LinkFlags flags) :
    flags.toNat = 0x63 ∨ flags.toNat = 0x67 := by
  rcases hf with rfl | rfl
  · exact Or.inl kernelFlags_toNat
  · exact Or.inr userFlags_toNat

/-- With them an entry leads to the table, and `clear_page_flags` gets its address back. -/
theorem Bounded.entryTo_spec (hb : Bounded h) {t : Tab} (ht : t.Taken c) (hc : c ≤ capacity h)
    {flags : UInt64} (hf : LinkFlags flags) :
    IsTable (entryTo h t flags) ∧ frame 12 (entryTo h t flags) = t.addr h ∧
      entryTo h t flags ≠ 0 ∧ (tableOf (entryTo h t flags)).toNat = t.addr h := by
  have hflags := hf.toNat
  have hnat := hb.entryTo_toNat ht hc (show flags.toNat < 4096 by omega)
  have hmod : t.addr h % 4096 = 0 := slot_mod h t.number
  have hlt := hb.addr_lt ht hc
  have hframe : frame 12 (entryTo h t flags) = t.addr h := by
    unfold frame
    omega
  refine ⟨⟨?_, ?_⟩, hframe, ?_, ?_⟩
  · exact decide_eq_true (by omega)
  · exact decide_eq_false (by omega)
  · intro h0
    rw [h0] at hnat
    have hzero : (0 : UInt64).toNat = 0 := rfl
    omega
  · rw [tableOf_toNat ⟨by omega, by omega⟩, hframe]

/-! ### Entries -/

/-- The entries with `c` tables taken; `leaf` gives the lowest ones, by page. -/
noncomputable def entries (h : HugePages) (c : Nat) (leaf : Nat → UInt64) : Tab → Nat → UInt64
  | .p4, j =>
    if j = 511 then entryTo h .p4 kernelFlags
    else if j = 510 then entryTo h .p3High kernelFlags
    else if j = 0 then entryTo h .p3Low userFlags
    else 0
  | .p3High, j => remapEntry (.ofNat j)
  | .p3Low, j => if (Tab.p2 j).number < c then entryTo h (.p2 j) userFlags else 0
  | .p2 g, j =>
    if (Tab.p1 (512 * g + j)).number < c then
      entryTo h (.p1 (512 * g + j)) (if 512 * g + j < 2 then kernelFlags else userFlags)
    else 0
  | .p1 k, j => leaf (512 * k + j)

theorem entries_p4_self (h : HugePages) (c : Nat) (leaf : Nat → UInt64) :
    entries h c leaf .p4 511 = entryTo h .p4 kernelFlags := by
  rw [entries, if_pos rfl]

theorem entries_p4_low (h : HugePages) (c : Nat) (leaf : Nat → UInt64) :
    entries h c leaf .p4 0 = entryTo h .p3Low userFlags := by
  rw [entries, if_neg (by decide), if_neg (by decide), if_pos rfl]

theorem entries_p3Low {g : Nat} (hg : (Tab.p2 g).Taken c) (leaf : Nat → UInt64) :
    entries h c leaf .p3Low g = entryTo h (.p2 g) userFlags := if_pos hg

theorem entries_p3Low_empty {g : Nat} (hg : ¬(Tab.p2 g).Taken c) (leaf : Nat → UInt64) :
    entries h c leaf .p3Low g = 0 := if_neg hg

theorem entries_p2_empty {g j : Nat} (hk : ¬(Tab.p1 (512 * g + j)).Taken c) (leaf : Nat → UInt64) :
    entries h c leaf (.p2 g) j = 0 := if_neg hk

theorem entries_p2 {k : Nat} (hk : (Tab.p1 k).Taken c) (leaf : Nat → UInt64) :
    entries h c leaf (.p2 (k / 512)) (k % 512)
      = entryTo h (.p1 k) (if k < 2 then kernelFlags else userFlags) := by
  have hsum : 512 * (k / 512) + k % 512 = k := Nat.div_add_mod k 512
  unfold entries
  dsimp only
  rw [hsum, if_pos (show (Tab.p1 k).number < c from hk)]

/-- The first `c` tables are taken, with these entries. -/
structure State (h : HugePages) (c : Nat) (T : Tab → Nat → UInt64) (s : Tables) : Prop where
  next : Next h s.next c
  holds : Holds (Tab.addr h) (Tab.Taken c) T s.mem

variable {T T' : Tab → Nat → UInt64} {leaf leaf' : Nat → UInt64} {s : Tables}

theorem State.congr (hs : State h c T s)
    (hT : ∀ t, t.Taken c → ∀ j, j < 512 → T' t j = T t j) : State h c T' s :=
  ⟨hs.next, hs.holds.congr hT⟩

/-- The upper levels do not depend on the lowest entries. -/
theorem entries_leaf {v : Tab} {j : Nat}
    (hleaf : ∀ k, v = .p1 k → leaf' (512 * k + j) = leaf (512 * k + j)) :
    entries h c leaf' v j = entries h c leaf v j := by
  cases v with
  | p4 => rfl
  | p3High => rfl
  | p3Low => rfl
  | p2 g => rfl
  | p1 k => exact hleaf k rfl

/-- Another table changes the entry that is to link it, and no other of the upper levels. -/
theorem entries_succ {u v : Tab} {j : Nat} (hu : u.number = c)
    (hp2 : ∀ g, u = .p2 g → v = .p3Low → j ≠ g)
    (hp1 : ∀ k, u = .p1 k → ∀ g, v = .p2 g → 512 * g + j ≠ k)
    (hleaf : ∀ k, v = .p1 k → leaf' (512 * k + j) = leaf (512 * k + j)) :
    entries h (c + 1) leaf' v j = entries h c leaf v j := by
  have hsame : ∀ t : Tab, t ≠ u → (t.number < c + 1 ↔ t.number < c) := by
    intro t ht
    have hne : t.number ≠ c := fun he => ht (Tab.number_inj (he.trans hu.symm))
    omega
  cases v with
  | p4 => rfl
  | p3High => rfl
  | p3Low =>
      have hne : Tab.p2 j ≠ u := fun he => hp2 j he.symm rfl rfl
      unfold entries
      simp only [hsame _ hne]
  | p2 g =>
      have hne : Tab.p1 (512 * g + j) ≠ u := fun he => hp1 _ he.symm g rfl rfl
      unfold entries
      simp only [hsame _ hne]
  | p1 k => exact hleaf k rfl

/-! ### Steps -/

/-- A page of zeros has no entries. -/
theorem read64_memset_zero (m : Mem) {a j : Nat} (hj : j < 512) :
    (m.memset a 0 4096).read64 (a + 8 * j) = 0 := by
  have hbytes : (m.memset a 0 4096).readLE (a + 8 * j) 8 = 0 % 256 ^ 8 := by
    refine Mem.readLE_byteLE 8 fun i hi => ?_
    rw [Nat.add_assoc, Mem.memset, Mem.put_add (by omega), Mem.byteLE, Nat.zero_div]
    rfl
  rw [Mem.read64, hbytes]
  rfl

/-- `page_table_alloc_zeroed` takes the next table. -/
theorem State.alloc {u : Tab} (hs : State h c T s) (hb : Bounded h) (hc : c < capacity h)
    (hu : u.number = c) :
    ∃ s', pageTableAllocZeroed h s = some (.ofNat (u.addr h), s') ∧
      State h (c + 1) (Function.update T u fun _ => 0) s' := by
  obtain ⟨next, halloc, hnext⟩ := hb.pageTableAllocZeroed_eq hs.next hc
  rw [← hu] at halloc
  refine ⟨_, halloc, hnext, ?_⟩
  exact hs.holds.replace (placed hc) (Nat.lt_succ_of_le (Nat.le_of_eq hu))
    (fun t ht => Tab.taken_succ hu ht) (fun j hj => read64_memset_zero _ hj)
    fun x hx => Mem.memset_out hx

/-- Where an entry of a table is. -/
theorem pteAddr_tab {t : Tab} {j : Nat} {table index : UInt64} (htable : table.toNat = t.addr h)
    (hindex : index.toNat = j) (hj : j < 512) : (pteAddr table index).toNat = t.addr h + 8 * j := by
  rw [pteAddr_toNat (by rw [htable]; exact slot_mod h t.number) (by omega), htable, hindex]

theorem State.setPte {t : Tab} {j : Nat} {table index : UInt64} (hs : State h c T s)
    (hc : c ≤ capacity h) (ht : t.Taken c) (htable : table.toNat = t.addr h)
    (hindex : index.toNat = j)
    (hj : j < 512) (v : UInt64) :
    State h c (Function.update T t (Function.update (T t) j v))
      { s with mem := setPte table index v s.mem } := by
  refine ⟨hs.next, ?_⟩
  show Holds _ _ _ (s.mem.write64 (pteAddr table index).toNat v)
  rw [pteAddr_tab htable hindex hj]
  exact hs.holds.set (placed hc) ht hj v

/-- An entry that is there. -/
theorem State.found {t : Tab} {j : Nat} {table index flags : UInt64} (hs : State h c T s)
    (ht : t.Taken c) (htable : table.toNat = t.addr h) (hindex : index.toNat = j) (hj : j < 512)
    (hentry : T t j ≠ 0) : pteCreate h table index flags s = some (T t j, s) := by
  rw [pteCreate, pteAddr_tab htable hindex hj, hs.holds t ht j hj, if_pos hentry]

/-- An entry that is not there gets the next table. -/
theorem State.create {t u : Tab} {j : Nat} {table index flags : UInt64}
    (hs : State h c (entries h c leaf) s) (hb : Bounded h) (hc : c < capacity h) (ht : t.Taken c)
    (hu : u.number = c) (htable : table.toNat = t.addr h) (hindex : index.toNat = j) (hj : j < 512)
    (hold : entries h c leaf t j = 0) (hnew : entries h (c + 1) leaf' t j = entryTo h u flags)
    (hother : ∀ v k, v.Taken c → k < 512 → (v = t → k ≠ j) →
      entries h (c + 1) leaf' v k = entries h c leaf v k)
    (hempty : ∀ k, k < 512 → entries h (c + 1) leaf' u k = 0) :
    ∃ s', pteCreate h table index flags s = some (entryTo h u flags, s') ∧
      State h (c + 1) (entries h (c + 1) leaf') s' := by
  have htu : t ≠ u := by
    rintro rfl
    exact Nat.lt_irrefl _ (hu ▸ ht)
  obtain ⟨s', halloc, hs'⟩ := hs.alloc hb hc hu
  refine ⟨{ s' with mem := PageTable.setPte table index (.ofNat (u.addr h) ||| flags) s'.mem }, ?_,
    ?_⟩
  · rw [pteCreate, pteAddr_tab htable hindex hj, hs.holds t ht j hj, hold,
      if_neg (not_not_intro rfl),
      halloc]
    rfl
  · refine (hs'.setPte hc (Nat.lt_succ_of_lt ht) htable hindex hj _).congr fun v hv k hk => ?_
    by_cases hvt : v = t
    · subst hvt
      rw [Function.update_self, Function.update_of_ne htu]
      by_cases hkj : k = j
      · rw [hkj, Function.update_self, hnew]
        rfl
      · rw [Function.update_of_ne hkj]
        exact hother v k ht hk fun _ => hkj
    · rw [Function.update_of_ne hvt]
      by_cases hvu : v = u
      · rw [hvu, Function.update_self, hempty k hk]
      · rw [Function.update_of_ne hvu]
        exact hother v k ((Tab.taken_succ hu hv).resolve_left hvu) hk fun hc' => absurd hc' hvt

/-! ### Loops over a table -/

/-- The loop has written the first `n` entries. -/
theorem fillTable_spec {table : UInt64} (f : UInt64 → UInt64) (m : Mem)
    (ht : table.toNat % 4096 = 0) :
    ∀ n, n ≤ 512 →
      (∀ j, j < n → (fillTable table f n m).read64 (table.toNat + 8 * j) = f (.ofNat j)) ∧
      (∀ x, x < table.toNat ∨ table.toNat + 8 * n ≤ x → fillTable table f n m x = m x) := by
  intro n
  induction n with
  | zero => exact fun _ => ⟨fun j hj => absurd hj (Nat.not_lt_zero j), fun x _ => rfl⟩
  | succ n ih =>
      intro hn
      obtain ⟨hin, hout⟩ := ih (by omega)
      have hindex : (UInt64.ofNat n).toNat = n :=
        UInt64.toNat_ofNat_of_lt' (show n < 2 ^ 64 by omega)
      have haddr : (pteAddr table (.ofNat n)).toNat = table.toNat + 8 * n := by
        rw [pteAddr_toNat ht (by omega), hindex]
      have hstep : fillTable table f (n + 1) m
          = (fillTable table f n m).write64 (table.toNat + 8 * n) (f (.ofNat n)) := by
        rw [← haddr, fillTable, List.range_succ, List.foldl_append]
        rfl
      rw [hstep]
      refine ⟨fun j hj => ?_, fun x hx => ?_⟩
      · by_cases hjn : j = n
        · rw [hjn, Mem.read64_write64_self]
        · rw [Mem.read64_congr fun x h1 h2 => Mem.write64_out (by omega), hin j (by omega)]
      · rw [Mem.write64_out (by omega), hout x (by omega)]

theorem entriesPerTable_eq : entriesPerTable = 512 := by decide

/-- All entries of a table are written. -/
theorem State.fill {t : Tab} {table : UInt64} (hs : State h c T s) (hc : c ≤ capacity h)
    (ht : t.Taken c) (htable : table.toNat = t.addr h) (f : UInt64 → UInt64) :
    State h c (Function.update T t fun j => f (.ofNat j))
      { s with mem := fillTable table f entriesPerTable s.mem } := by
  have hmod : table.toNat % 4096 = 0 := by
    rw [htable]
    exact slot_mod h t.number
  obtain ⟨hin, hout⟩ := fillTable_spec f s.mem hmod 512 (Nat.le_refl _)
  rw [htable] at hin hout
  have hholds := hs.holds.replace (placed hc) ht (fun u hu => Or.inr hu) hin
    fun x hx => hout x (by omega)
  rw [entriesPerTable_eq]
  refine ⟨hs.next, ?_⟩
  dsimp only
  exact hholds

end JudgeDuck.PageTable
