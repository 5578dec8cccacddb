/-
The sorted tables of `arp.cpp`.

On a table in strictly increasing order the search stops at the first entry that
is not below the address, but never past the last entry: the loop runs over
`[0, n - 1]`.  So a search finds every address that is there, and an insertion
keeps the order exactly when the table is empty or has an entry that is not
below the new address; otherwise the new entry lands in front of the last one.
-/
import JudgeDuck.Model.DuckNet.Arp

namespace JudgeDuck

namespace DuckNet

section Table

variable {α : Type} {key : α → UInt32} {table : List α} {ip : UInt32}

/-- Strictly increasing in the key, so no key occurs twice. -/
def KeySorted (key : α → UInt32) (table : List α) : Prop :=
  table.Pairwise fun a b => key a < key b

/-- An insertion of this key has an entry in front of which it belongs, or an empty table. -/
def KeyFits (key : α → UInt32) (table : List α) (ip : UInt32) : Prop :=
  table = [] ∨ ∃ e ∈ table, ip ≤ key e

theorem KeySorted.getElem_lt (h : KeySorted key table) {i j : Nat} (hij : i < j)
    (hj : j < table.length) : key table[i] < key table[j] :=
  List.pairwise_iff_getElem.mp h i j (by omega) hj hij

/-- No key occurs at two places. -/
theorem KeySorted.getElem_inj (h : KeySorted key table) {i j : Nat} (hi : i < table.length)
    (hj : j < table.length) (hij : key table[i] = key table[j]) : i = j := by
  rcases Nat.lt_trichotomy i j with hlt | heq | hlt
  · have hkey := h.getElem_lt hlt hj
    rw [hij] at hkey
    exact absurd hkey (UInt32.lt_irrefl _)
  · exact heq
  · have hkey := h.getElem_lt hlt hi
    rw [hij] at hkey
    exact absurd hkey (UInt32.lt_irrefl _)

/-! ### The search -/

/-- What the search decides about each entry in front of the last. -/
theorem below_iff {i : Nat} (hi : i < table.length) :
    ((table[i]?).any fun e => key e < ip) = true ↔ key table[i] < ip := by
  simp [List.getElem?_eq_getElem hi]

variable (ip) in
theorem KeySorted.tableSearch_isPoint (h : KeySorted key table) :
    Search.IsPoint (fun i => (table[i]?).any fun e => key e < ip) 0 (table.length - 1)
      (tableSearch key table ip) := by
  refine Search.bisect_isPoint (Nat.zero_le _) fun i j _ hij hj hp => ?_
  have hj' : j < table.length := by omega
  rw [below_iff hj'] at hp
  rw [below_iff (by omega)]
  rcases Nat.lt_or_ge i j with hlt | hge
  · exact UInt32.lt_trans (h.getElem_lt hlt hj') hp
  · have hij : i = j := by omega
    subst hij
    exact hp

theorem tableFind_eq_some {e : α} (h : tableFind key table ip = some e) :
    table[tableSearch key table ip]? = some e ∧ key e = ip := by
  rw [tableFind, Option.filter_eq_some_iff] at h
  simpa using h

/-- A search finds the entry of an address, if the table has one. -/
theorem KeySorted.tableFind_iff (h : KeySorted key table) {e : α} :
    tableFind key table ip = some e ↔ e ∈ table ∧ key e = ip := by
  constructor
  · intro hf
    obtain ⟨hget, hkey⟩ := tableFind_eq_some hf
    exact ⟨List.mem_of_getElem? hget, hkey⟩
  · rintro ⟨he, hkey⟩
    obtain ⟨i, hi, rfl⟩ := List.mem_iff_getElem.mp he
    have hp := h.tableSearch_isPoint ip
    -- the entry is neither below the partition point nor above it
    have hle : tableSearch key table ip ≤ i := by
      by_contra hlt
      have hb := hp.below i (Nat.zero_le i) (by omega)
      rw [below_iff hi, hkey] at hb
      exact UInt32.lt_irrefl _ hb
    have hge : i ≤ tableSearch key table ip := by
      by_contra hlt
      have hl : tableSearch key table ip < table.length := by omega
      have ha := hp.above (tableSearch key table ip) (Nat.le_refl _) (by omega)
      rw [← Bool.not_eq_true, below_iff hl] at ha
      have hlt' := h.getElem_lt (i := tableSearch key table ip) (j := i) (by omega) hi
      rw [hkey] at hlt'
      exact ha hlt'
    have hii : tableSearch key table ip = i := Nat.le_antisymm hle hge
    rw [tableFind, hii, List.getElem?_eq_getElem hi]
    simpa using hkey

theorem KeySorted.tableFind_isSome (h : KeySorted key table) :
    (tableFind key table ip).isSome ↔ ∃ e ∈ table, key e = ip := by
  rw [Option.isSome_iff_exists]
  exact exists_congr fun e => h.tableFind_iff

/-! ### Storing an entry -/

theorem tablePut_eq_none {e : α} : tablePut key table ip e = none ↔
    (tableFind key table ip).isSome = false ∧ table.length = arpTableSize := by
  unfold tablePut
  cases (tableFind key table ip).isSome <;> simp

/-- What storing the entry `e` under its key does to the table. -/
structure Stored (key : α → UInt32) (table : List α) (e : α) (table' : List α) : Prop where
  sorted : KeySorted key table'
  mem_iff : ∀ a, a ∈ table' ↔ a = e ∨ a ∈ table ∧ key a ≠ key e

/-- Overwriting the entry of an address. -/
theorem KeySorted.stored_set (h : KeySorted key table) {i : Nat} (hi : i < table.length) {e : α}
    (hkey : key table[i] = key e) : Stored key table e (table.set i e) := by
  constructor
  · refine List.pairwise_iff_getElem.mpr fun j k hj hk hjk => ?_
    have hk' : k < table.length := by simpa using hk
    have hlt := h.getElem_lt hjk hk'
    rw [List.getElem_set, List.getElem_set]
    split <;> split
    · exact absurd hjk (by omega)
    · next hij _ => subst hij; rwa [hkey] at hlt
    · next _ hik => subst hik; rwa [hkey] at hlt
    · exact hlt
  · intro a
    rw [List.mem_iff_getElem]
    constructor
    · rintro ⟨j, hj, rfl⟩
      rw [List.getElem_set]
      split
      · exact .inl rfl
      · next hij =>
        have hj' : j < table.length := by simpa using hj
        exact .inr ⟨List.getElem_mem _, fun hc => hij (h.getElem_inj hi hj' (hkey.trans hc.symm))⟩
    · rintro (rfl | ⟨ha, hne⟩)
      · exact ⟨i, by simpa using hi, by simp⟩
      · obtain ⟨j, hj, rfl⟩ := List.mem_iff_getElem.mp ha
        refine ⟨j, by simpa using hj, ?_⟩
        rw [List.getElem_set, if_neg]
        intro hij
        subst hij
        exact hne hkey

/-- Inserting an entry in front of the first one that is not below it. -/
theorem KeySorted.stored_insertIdx (h : KeySorted key table) {i : Nat} (hi : i ≤ table.length)
    {e : α} (hbelow : ∀ a ∈ table.take i, key a < key e)
    (habove : ∀ a ∈ table.drop i, key e < key a) :
    Stored key table e (table.insertIdx i e) := by
  constructor
  · exact Search.pairwise_insertIdx h hi hbelow habove fun _ _ _ => UInt32.lt_trans
  · intro a
    rw [List.mem_insertIdx hi]
    refine or_congr_right ⟨fun ha => ⟨ha, ?_⟩, fun ha => ha.1⟩
    rw [← List.take_append_drop i table, List.mem_append] at ha
    rcases ha with ha | ha
    · exact UInt32.ne_of_lt (hbelow a ha)
    · exact (UInt32.ne_of_lt (habove a ha)).symm

theorem KeySorted.lt_of_mem_take (h : KeySorted key table) {a : α}
    (ha : a ∈ table.take (tableSearch key table ip)) : key a < ip := by
  obtain ⟨i, hi, rfl⟩ := List.mem_iff_getElem.mp ha
  rw [List.length_take] at hi
  rw [List.getElem_take]
  exact (below_iff (by omega)).mp ((h.tableSearch_isPoint ip).below i (Nat.zero_le i) (by omega))

/-- When the address has a place, nothing after it is below the address. -/
theorem KeySorted.le_of_mem_drop (h : KeySorted key table) (hfit : KeyFits key table ip) {a : α}
    (ha : a ∈ table.drop (tableSearch key table ip)) : ip ≤ key a := by
  obtain ⟨j, hj, rfl⟩ := List.mem_iff_getElem.mp ha
  rw [List.length_drop] at hj
  rw [List.getElem_drop]
  rcases hfit with rfl | ⟨e, he, hle⟩
  · simp at hj
  · by_cases hlast : tableSearch key table ip + j < table.length - 1
    · have habove := (h.tableSearch_isPoint ip).above _ (Nat.le_add_right _ j) hlast
      rw [← Bool.not_eq_true, below_iff (by omega)] at habove
      exact UInt32.not_lt.mp habove
    · -- the last entry is at least any other
      obtain ⟨k, hk, rfl⟩ := List.mem_iff_getElem.mp he
      rcases Nat.lt_or_ge k (tableSearch key table ip + j) with hlt | hge
      · exact UInt32.le_trans hle (UInt32.le_of_lt (h.getElem_lt hlt (by omega)))
      · have hkj : k = tableSearch key table ip + j := by omega
        subst hkj
        exact hle

theorem KeySorted.stored_tablePut (h : KeySorted key table) (hfit : KeyFits key table ip) {e : α}
    (hkey : key e = ip) {table' : List α} (hput : tablePut key table ip e = some table') :
    Stored key table e table' := by
  unfold tablePut at hput
  split at hput
  · next hfound =>
    obtain ⟨a, ha⟩ := Option.isSome_iff_exists.mp hfound
    obtain ⟨hget, hka⟩ := tableFind_eq_some ha
    obtain ⟨hi, hgi⟩ := List.getElem?_eq_some_iff.mp hget
    rw [← Option.some.inj hput]
    exact h.stored_set hi (by rw [hgi, hka, hkey])
  · next hmiss =>
    split at hput
    · exact absurd hput (by simp)
    · rw [← Option.some.inj hput]
      have hle : tableSearch key table ip ≤ table.length :=
        Nat.le_trans (h.tableSearch_isPoint ip).upper (Nat.sub_le _ _)
      refine h.stored_insertIdx hle (fun a ha => hkey ▸ h.lt_of_mem_take ha) fun a ha => ?_
      have hne : ip ≠ key a := fun hc => hmiss (h.tableFind_isSome.mpr
        ⟨a, List.mem_of_mem_drop ha, hc.symm⟩)
      rw [hkey]
      exact UInt32.lt_of_le_of_ne (h.le_of_mem_drop hfit ha) hne

/-- An address above every entry lands in front of the last one. -/
theorem KeySorted.not_keySorted_tablePut (h : KeySorted key table) (hfit : ¬KeyFits key table ip)
    {e : α} (hkey : key e = ip) {table' : List α} (hput : tablePut key table ip e = some table') :
    ¬KeySorted key table' := by
  obtain ⟨hne, habove⟩ := not_or.mp hfit
  have hlt : ∀ a ∈ table, key a < ip := by
    intro a ha
    rw [← UInt32.not_le]
    exact fun hc => habove ⟨a, ha, hc⟩
  have hmiss : ¬(tableFind key table ip).isSome = true := by
    rw [h.tableFind_isSome]
    rintro ⟨a, ha, hc⟩
    exact UInt32.lt_irrefl _ (hc ▸ hlt a ha)
  have hpos : 0 < table.length := List.length_pos_iff.mpr hne
  -- every entry that the loop looks at is below the address
  have hsearch : tableSearch key table ip = table.length - 1 := by
    have hp := h.tableSearch_isPoint ip
    by_contra hc
    have hup := hp.upper
    have ha := hp.above _ (Nat.le_refl _) (by omega)
    rw [← Bool.not_eq_true, below_iff (by omega)] at ha
    exact ha (hlt _ (List.getElem_mem _))
  unfold tablePut at hput
  rw [if_neg hmiss] at hput
  split at hput
  · exact absurd hput (by simp)
  · rw [← Option.some.inj hput, hsearch]
    intro hs
    have hlast := hs.getElem_lt (i := table.length - 1) (j := table.length) (by omega)
      (by rw [List.length_insertIdx]; split <;> omega)
    rw [List.getElem_insertIdx_self, List.getElem_insertIdx_of_gt (by omega), hkey] at hlast
    exact UInt32.lt_irrefl _ (UInt32.lt_trans hlast (hlt _ (List.getElem_mem _)))

/-! ### Sweeping -/

theorem KeySorted.tableSweep (h : KeySorted key table) (expireTime : α → UInt64) (now : UInt64) :
    KeySorted key (tableSweep expireTime now table) :=
  h.sublist List.filter_sublist

theorem mem_tableSweep {expireTime : α → UInt64} {now : UInt64} {a : α} :
    a ∈ tableSweep expireTime now table ↔ a ∈ table ∧ ¬now > expireTime a := by
  simp [tableSweep]

/-! ### Tables with more in each entry

The functions see an entry through its key only, so a table whose entries carry
something more goes through the same states. -/

section Map

variable {β : Type} (f : β → α) (l : List β)

theorem tableSearch_map : tableSearch key (l.map f) ip = tableSearch (key ∘ f) l ip := by
  simp [tableSearch, Option.any_map]

theorem tableFind_map : tableFind key (l.map f) ip = (tableFind (key ∘ f) l ip).map f := by
  rw [tableFind, tableFind, tableSearch_map, List.getElem?_map, Option.filter_map]
  rfl

variable (key ip) in
theorem tablePut_map (e : β) :
    tablePut key (l.map f) ip (f e) = (tablePut (key ∘ f) l ip e).map (List.map f) := by
  unfold tablePut
  rw [tableFind_map, tableSearch_map, Option.isSome_map, List.length_map]
  split
  · simp [List.map_set]
  · split
    · rfl
    · simp [List.map_insertIdx]

theorem tableSweep_map (expireTime : α → UInt64) (now : UInt64) :
    tableSweep expireTime now (l.map f) = (tableSweep (expireTime ∘ f) now l).map f := by
  simp [tableSweep, List.filter_map, Function.comp_def]

end Map

/-- An entry of the new table is the one that was stored or an old one. -/
theorem mem_of_tablePut {e a : α} {table' : List α} (h : tablePut key table ip e = some table')
    (ha : a ∈ table') : a = e ∨ a ∈ table := by
  unfold tablePut at h
  split at h
  · rw [← Option.some.inj h] at ha
    exact (List.mem_or_eq_of_mem_set ha).symm
  · split at h
    · exact absurd h (by simp)
    · rw [← Option.some.inj h] at ha
      by_cases hle : tableSearch key table ip ≤ table.length
      · exact (List.mem_insertIdx hle).mp ha
      · rw [List.insertIdx_of_length_lt (by omega)] at ha
        exact .inr ha

end Table

end DuckNet

end JudgeDuck
