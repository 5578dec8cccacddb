/-
The three tables of a cache, read as one list of entries.

`obj_hash`, `obj_digest` and `obj_metadata` are parallel arrays: every operation
of the cache does the same thing to all three.  `entryAt` reads one slot of each
and `entries` is the list of the slots in use.  The operations on the tables are
then operations on that list: opening a slot and filling it is `insertIdx`,
changing the metadata of an object is `modify`, and the defragmentation loop is a
`filter`.

`Layout` is what `init` leaves and nothing changes: the tables, the ids and the
page pool lie one after the other inside the block of the cache.  It is what makes
a write to one of them invisible to the others.
-/
import JudgeDuck.Model.DuckCache

namespace JudgeDuck.DuckCache

/-- The address of the first page. -/
def pool (c : DuckCache) : Nat := c.objHash + c.cacheSize - 4096 * c.nTotalPages

/-- Where the parts of a cache lie. -/
structure Layout (c : DuckCache) : Prop where
  hash : c.objHash + 8 * c.nMaxObjects ≤ c.objDigest
  digest : c.objDigest + 32 * c.nMaxObjects ≤ c.objMetadata
  metadata : c.objMetadata + 24 * c.nMaxObjects ≤ c.sortIds
  ids : c.sortIds + 8 * c.nMaxObjects ≤ c.pool
  pages : c.pool + 4096 * c.nTotalPages = c.objHash + c.cacheSize
  bound : c.objHash + c.cacheSize < 2 ^ 64
  maxPos : 0 < c.nMaxObjects
  pagesPos : 0 < c.nTotalPages

/-- The layout does not mention what the operations change. -/
theorem Layout.update {c : DuckCache} (h : Layout c) (n f : Nat) (a : UInt64) :
    Layout { c with nCurObjects := n, nFreePages := f, freeListAddr := a } :=
  ⟨h.hash, h.digest, h.metadata, h.ids, h.pages, h.bound, h.maxPos, h.pagesPos⟩

/-! ### One table does not see a write to another -/

variable {c : DuckCache} {m m' : Mem} {i j : Nat}

theorem hashAt_congr (hi : i < c.nMaxObjects)
    (h : ∀ x, c.objHash ≤ x → x < c.objHash + 8 * c.nMaxObjects → m' x = m x) :
    c.hashAt m' i = c.hashAt m i := by
  refine Mem.get_congr fun x h1 h2 => ?_
  have h3 : c.objHash + 8 * i ≤ x := h1
  have h4 : x < c.objHash + 8 * i + 8 := h2
  exact h x (by omega) (by omega)

theorem digestAt_congr (hi : i < c.nMaxObjects)
    (h : ∀ x, c.objDigest ≤ x → x < c.objDigest + 32 * c.nMaxObjects → m' x = m x) :
    c.digestAt m' i = c.digestAt m i := by
  refine Mem.get_congr fun x h1 h2 => ?_
  have h3 : c.objDigest + 32 * i ≤ x := h1
  have h4 : x < c.objDigest + 32 * i + 32 := h2
  exact h x (by omega) (by omega)

theorem metadataAt_congr (hi : i < c.nMaxObjects)
    (h : ∀ x, c.objMetadata ≤ x → x < c.objMetadata + 24 * c.nMaxObjects → m' x = m x) :
    c.metadataAt m' i = c.metadataAt m i := by
  refine Mem.get_congr fun x h1 h2 => ?_
  have h3 : c.objMetadata + 24 * i ≤ x := h1
  have h4 : x < c.objMetadata + 24 * i + 24 := h2
  exact h x (by omega) (by omega)

theorem setHash_out {v : UInt64} {x : Nat} (hi : i < c.nMaxObjects)
    (h : x < c.objHash ∨ c.objHash + 8 * c.nMaxObjects ≤ x) :
    m.set c.objHash i v x = m x := Mem.set_out_array hi h

theorem setDigest_out {v : Digest256} {x : Nat} (hi : i < c.nMaxObjects)
    (h : x < c.objDigest ∨ c.objDigest + 32 * c.nMaxObjects ≤ x) :
    m.set c.objDigest i v x = m x := Mem.set_out_array hi h

theorem setMetadata_out {v : Metadata} {x : Nat} (hi : i < c.nMaxObjects)
    (h : x < c.objMetadata ∨ c.objMetadata + 24 * c.nMaxObjects ≤ x) :
    m.set c.objMetadata i v x = m x := Mem.set_out_array hi h

theorem openHash_out {x idx : Nat} (hn : c.nCurObjects < c.nMaxObjects) (hidx : idx ≤ c.nCurObjects)
    (h : x < c.objHash ∨ c.objHash + 8 * c.nMaxObjects ≤ x) :
    m.openSlot UInt64 c.objHash c.nCurObjects idx x = m x := by
  refine Mem.openSlot_out hidx ?_
  show x < c.objHash ∨ c.objHash + 8 * (c.nCurObjects + 1) ≤ x
  omega

theorem openDigest_out {x idx : Nat} (hn : c.nCurObjects < c.nMaxObjects)
    (hidx : idx ≤ c.nCurObjects) (h : x < c.objDigest ∨ c.objDigest + 32 * c.nMaxObjects ≤ x) :
    m.openSlot Digest256 c.objDigest c.nCurObjects idx x = m x := by
  refine Mem.openSlot_out hidx ?_
  show x < c.objDigest ∨ c.objDigest + 32 * (c.nCurObjects + 1) ≤ x
  omega

theorem openMetadata_out {x idx : Nat} (hn : c.nCurObjects < c.nMaxObjects)
    (hidx : idx ≤ c.nCurObjects) (h : x < c.objMetadata ∨ c.objMetadata + 24 * c.nMaxObjects ≤ x) :
    m.openSlot Metadata c.objMetadata c.nCurObjects idx x = m x := by
  refine Mem.openSlot_out hidx ?_
  show x < c.objMetadata ∨ c.objMetadata + 24 * (c.nCurObjects + 1) ≤ x
  omega

/-! ### Entries -/

/-- One slot of the three tables. -/
@[ext] structure Entry where
  hash : UInt64
  digest : Digest256
  metadata : Metadata

def entryAt (c : DuckCache) (m : Mem) (i : Nat) : Entry :=
  ⟨c.hashAt m i, c.digestAt m i, c.metadataAt m i⟩

/-- The slots in use. -/
def entries (c : DuckCache) (m : Mem) : List Entry := (List.range c.nCurObjects).map (c.entryAt m)

@[simp] theorem length_entries (c : DuckCache) (m : Mem) :
    (c.entries m).length = c.nCurObjects := by
  simp [entries]

@[simp] theorem getElem_entries (h : i < (c.entries m).length) :
    (c.entries m)[i] = c.entryAt m i := by
  simp [entries]

/-- The entries are the bytes of the tables. -/
theorem entryAt_congr (hL : Layout c) (hi : i < c.nMaxObjects)
    (h : ∀ x, c.objHash ≤ x → x < c.sortIds → m' x = m x) :
    c.entryAt m' i = c.entryAt m i := by
  obtain ⟨h1, h2, h3, -, -, -, -, -⟩ := hL
  simp only [entryAt, Entry.mk.injEq]
  exact ⟨hashAt_congr hi fun x _ _ => h x (by omega) (by omega),
    digestAt_congr hi fun x _ _ => h x (by omega) (by omega),
    metadataAt_congr hi fun x _ _ => h x (by omega) (by omega)⟩

theorem entries_congr (hL : Layout c) (hn : c.nCurObjects ≤ c.nMaxObjects)
    (h : ∀ x, c.objHash ≤ x → x < c.sortIds → m' x = m x) : c.entries m' = c.entries m := by
  unfold entries
  refine List.map_congr_left fun i hi => entryAt_congr hL ?_ h
  have := List.mem_range.mp hi
  omega

/-! ### Changing the metadata of one object -/

theorem entryAt_setMetadata (hL : Layout c) (hi : i < c.nMaxObjects) (hj : j < c.nMaxObjects)
    (v : Metadata) : c.entryAt (m.set c.objMetadata i v) j
      = if j = i then { c.entryAt m j with metadata := v } else c.entryAt m j := by
  obtain ⟨h1, h2, h3, -, -, -, -, -⟩ := hL
  have hh : c.hashAt (m.set c.objMetadata i v) j = c.hashAt m j :=
    hashAt_congr hj fun x _ _ => setMetadata_out hi (by omega)
  have hd : c.digestAt (m.set c.objMetadata i v) j = c.digestAt m j :=
    digestAt_congr hj fun x _ _ => setMetadata_out hi (by omega)
  have hm : c.metadataAt (m.set c.objMetadata i v) j
      = if j = i then v else c.metadataAt m j := Mem.get_set
  unfold entryAt
  rw [hh, hd, hm]
  by_cases h : j = i
  · rw [if_pos h, if_pos h]
  · rw [if_neg h, if_neg h]

/-! ### Inserting an entry -/

/-- The writes of `insert` to the tables. -/
def insertEntry (c : DuckCache) (m : Mem) (idx : Nat) (e : Entry) : Mem :=
  (((c.openSlots m idx).set c.objHash idx e.hash).set c.objDigest idx e.digest).set
    c.objMetadata idx e.metadata

theorem insertEntry_out {idx x : Nat} {e : Entry} (hL : Layout c)
    (hn : c.nCurObjects < c.nMaxObjects) (hidx : idx ≤ c.nCurObjects)
    (h : x < c.objHash ∨ c.sortIds ≤ x) : c.insertEntry m idx e x = m x := by
  obtain ⟨h1, h2, h3, -, -, -, -, -⟩ := hL
  unfold insertEntry openSlots
  rw [setMetadata_out (by omega) (by omega), setDigest_out (by omega) (by omega),
    setHash_out (by omega) (by omega), openMetadata_out hn hidx (by omega),
    openDigest_out hn hidx (by omega), openHash_out hn hidx (by omega)]

/-- What an array reads after a slot was opened and filled. -/
private theorem get_openSlot {α : Type} [Record α] {m : Mem} {base n idx j : Nat}
    (hj : j ≤ n) (hne : j ≠ idx) : (m.openSlot α base n idx).get α base j
      = if j < idx then m.get α base j else m.get α base (j - 1) := by
  rcases Nat.lt_or_gt_of_ne hne with hlt | hgt
  · rw [if_pos hlt, Mem.get_openSlot_lt hlt]
  · rw [if_neg (by omega)]
    obtain ⟨k, rfl⟩ : ∃ k, j = k + 1 := ⟨j - 1, by omega⟩
    exact Mem.get_openSlot_gt (by omega) (by omega)

theorem hashAt_insertEntry {idx : Nat} {e : Entry} (hL : Layout c)
    (hn : c.nCurObjects < c.nMaxObjects) (hidx : idx ≤ c.nCurObjects) (hj : j ≤ c.nCurObjects) :
    c.hashAt (c.insertEntry m idx e) j = if j < idx then c.hashAt m j
      else if j = idx then e.hash else c.hashAt m (j - 1) := by
  obtain ⟨h1, h2, h3, -, -, -, -, -⟩ := hL
  unfold insertEntry openSlots
  rw [hashAt_congr (by omega) fun x _ _ => setMetadata_out (by omega) (by omega),
    hashAt_congr (by omega) fun x _ _ => setDigest_out (by omega) (by omega)]
  by_cases heq : j = idx
  · subst heq
    rw [if_neg (Nat.lt_irrefl _), if_pos rfl]
    exact Mem.get_set_self _ _ _ _
  · have hset : ∀ (μ : Mem), c.hashAt (μ.set c.objHash idx e.hash) j = c.hashAt μ j :=
      fun μ => Mem.get_set_ne fun hc => heq hc.symm
    rw [hset, hashAt_congr (by omega) fun x _ _ => openMetadata_out hn hidx (by omega),
      hashAt_congr (by omega) fun x _ _ => openDigest_out hn hidx (by omega), if_neg heq]
    exact get_openSlot hj heq

theorem digestAt_insertEntry {idx : Nat} {e : Entry} (hL : Layout c)
    (hn : c.nCurObjects < c.nMaxObjects) (hidx : idx ≤ c.nCurObjects) (hj : j ≤ c.nCurObjects) :
    c.digestAt (c.insertEntry m idx e) j = if j < idx then c.digestAt m j
      else if j = idx then e.digest else c.digestAt m (j - 1) := by
  obtain ⟨h1, h2, h3, -, -, -, -, -⟩ := hL
  unfold insertEntry openSlots
  rw [digestAt_congr (by omega) fun x _ _ => setMetadata_out (by omega) (by omega)]
  by_cases heq : j = idx
  · subst heq
    rw [if_neg (Nat.lt_irrefl _), if_pos rfl]
    exact Mem.get_set_self _ _ _ _
  · have hset : ∀ (μ : Mem), c.digestAt (μ.set c.objDigest idx e.digest) j = c.digestAt μ j :=
      fun μ => Mem.get_set_ne fun hc => heq hc.symm
    have hbase : ∀ k, k < c.nMaxObjects →
        c.digestAt (m.openSlot UInt64 c.objHash c.nCurObjects idx) k = c.digestAt m k :=
      fun k hk => digestAt_congr hk fun x _ _ => openHash_out hn hidx (by omega)
    rw [hset, digestAt_congr (by omega) fun x _ _ => setHash_out (by omega) (by omega),
      digestAt_congr (by omega) fun x _ _ => openMetadata_out hn hidx (by omega), if_neg heq,
      ← hbase j (by omega), ← hbase (j - 1) (by omega)]
    exact get_openSlot hj heq

theorem metadataAt_insertEntry {idx : Nat} {e : Entry} (hL : Layout c)
    (hn : c.nCurObjects < c.nMaxObjects) (hidx : idx ≤ c.nCurObjects) (hj : j ≤ c.nCurObjects) :
    c.metadataAt (c.insertEntry m idx e) j = if j < idx then c.metadataAt m j
      else if j = idx then e.metadata else c.metadataAt m (j - 1) := by
  obtain ⟨h1, h2, h3, -, -, -, -, -⟩ := hL
  unfold insertEntry openSlots
  by_cases heq : j = idx
  · subst heq
    rw [if_neg (Nat.lt_irrefl _), if_pos rfl]
    exact Mem.get_set_self _ _ _ _
  · have hset : ∀ (μ : Mem),
      c.metadataAt (μ.set c.objMetadata idx e.metadata) j = c.metadataAt μ j :=
      fun μ => Mem.get_set_ne fun hc => heq hc.symm
    have hbase : ∀ k, k < c.nMaxObjects →
        c.metadataAt ((m.openSlot UInt64 c.objHash c.nCurObjects idx).openSlot Digest256
          c.objDigest c.nCurObjects idx) k = c.metadataAt m k := by
      intro k hk
      rw [metadataAt_congr hk fun x _ _ => openDigest_out hn hidx (by omega)]
      exact metadataAt_congr hk fun x _ _ => openHash_out hn hidx (by omega)
    rw [hset, metadataAt_congr (by omega) fun x _ _ => setDigest_out (by omega) (by omega),
      metadataAt_congr (by omega) fun x _ _ => setHash_out (by omega) (by omega), if_neg heq,
      ← hbase j (by omega), ← hbase (j - 1) (by omega)]
    exact get_openSlot hj heq

/-- Filling an opened slot inserts an entry. -/
theorem entries_insertEntry {idx : Nat} {e : Entry} (hL : Layout c)
    (hn : c.nCurObjects < c.nMaxObjects) (hidx : idx ≤ c.nCurObjects) :
    (List.range (c.nCurObjects + 1)).map (c.entryAt (c.insertEntry m idx e))
      = (c.entries m).insertIdx idx e := by
  refine List.ext_getElem (by simp [List.length_insertIdx, hidx]) fun k h1 h2 => ?_
  have hk : k ≤ c.nCurObjects := by simpa [Nat.lt_succ_iff] using h1
  rw [List.getElem_insertIdx]
  simp only [List.getElem_map, List.getElem_range]
  unfold entryAt
  rw [hashAt_insertEntry hL hn hidx hk, digestAt_insertEntry hL hn hidx hk,
    metadataAt_insertEntry hL hn hidx hk]
  by_cases hlt : k < idx
  · rw [if_pos hlt, if_pos hlt, if_pos hlt, dif_pos hlt, getElem_entries, entryAt]
  · rw [if_neg hlt, if_neg hlt, if_neg hlt, dif_neg hlt]
    by_cases heq : k = idx
    · rw [if_pos heq, if_pos heq, if_pos heq, dif_pos heq]
    · rw [if_neg heq, if_neg heq, if_neg heq, dif_neg heq, getElem_entries, entryAt]

/-! ### The defragmentation loop -/

theorem moveObject_out {x : Nat} (hL : Layout c) (hj : j < c.nMaxObjects)
    (h : x < c.objHash ∨ c.sortIds ≤ x) : c.moveObject m j i x = m x := by
  obtain ⟨h1, h2, h3, -, -, -, -, -⟩ := hL
  unfold moveObject
  rw [setMetadata_out hj (by omega), setDigest_out hj (by omega), setHash_out hj (by omega)]

theorem entryAt_moveObject {k : Nat} (hL : Layout c) (hi : i < c.nMaxObjects)
    (hj : j < c.nMaxObjects) (hk : k < c.nMaxObjects) :
    c.entryAt (c.moveObject m j i) k = if k = j then c.entryAt m i else c.entryAt m k := by
  obtain ⟨h1, h2, h3, -, -, -, -, -⟩ := hL
  have hh : c.hashAt (c.moveObject m j i) k = if k = j then c.hashAt m i else c.hashAt m k := by
    unfold moveObject
    rw [hashAt_congr hk fun x _ _ => setMetadata_out hj (by omega),
      hashAt_congr hk fun x _ _ => setDigest_out hj (by omega)]
    exact Mem.get_set
  have hd : c.digestAt (c.moveObject m j i) k
      = if k = j then c.digestAt m i else c.digestAt m k := by
    have hbase : ∀ l, l < c.nMaxObjects →
        c.digestAt (m.set c.objHash j (c.hashAt m i)) l = c.digestAt m l :=
      fun l hl => digestAt_congr hl fun x _ _ => setHash_out hj (by omega)
    unfold moveObject
    rw [digestAt_congr hk fun x _ _ => setMetadata_out hj (by omega), hbase i hi, ← hbase k hk]
    exact Mem.get_set
  have hm : c.metadataAt (c.moveObject m j i) k
      = if k = j then c.metadataAt m i else c.metadataAt m k := by
    have hbase : ∀ l, l < c.nMaxObjects →
        c.metadataAt ((m.set c.objHash j (c.hashAt m i)).set c.objDigest j
          (c.digestAt (m.set c.objHash j (c.hashAt m i)) i)) l = c.metadataAt m l := by
      intro l hl
      rw [metadataAt_congr hl fun x _ _ => setDigest_out hj (by omega)]
      exact metadataAt_congr hl fun x _ _ => setHash_out hj (by omega)
    unfold moveObject
    rw [← hbase i hi, ← hbase k hk]
    exact Mem.get_set
  unfold entryAt
  rw [hh, hd, hm]
  by_cases h : k = j
  · rw [if_pos h, if_pos h, if_pos h, if_pos h]
  · rw [if_neg h, if_neg h, if_neg h, if_neg h]

/-- An entry the removal loop has not invalidated. -/
def Entry.valid (e : Entry) : Bool := e.metadata.lastUsedTsc ≠ 0

theorem defragLoop_out {x : Nat} (hL : Layout c) (h : x < c.objHash ∨ c.sortIds ≤ x) :
    ∀ (k i j : Nat) (m : Mem), j ≤ i → i + k ≤ c.nMaxObjects → c.defragLoop k i j m x = m x := by
  intro k
  induction k with
  | zero => intro i j m _ _; rfl
  | succ k ih =>
      intro i j m hij hk
      rw [defragLoop]
      split
      · exact ih (i + 1) j m (by omega) (by omega)
      · rw [ih (i + 1) (j + 1) _ (by omega) (by omega), moveObject_out hL (by omega) h]

/-- The loop keeps the slots below `j` and appends the valid ones of the `k` from `i` on. -/
theorem defragLoop_entries (hL : Layout c) : ∀ (k i j : Nat) (m : Mem), j ≤ i →
    i + k ≤ c.nMaxObjects → ∃ n,
      (List.range n).map (c.entryAt (c.defragLoop k i j m))
        = (List.range j).map (c.entryAt m)
          ++ ((List.range' i k).map (c.entryAt m)).filter Entry.valid := by
  intro k
  induction k with
  | zero => intro i j m _ _; exact ⟨j, by simp [defragLoop]⟩
  | succ k ih =>
      intro i j m hij hk
      rw [defragLoop, List.range'_succ, List.map_cons]
      by_cases h0 : (c.metadataAt m i).lastUsedTsc = 0
      · rw [if_pos h0]
        obtain ⟨n, hn⟩ := ih (i + 1) j m (by omega) (by omega)
        refine ⟨n, ?_⟩
        rw [hn, List.filter_cons_of_neg (by simp [Entry.valid, entryAt, h0])]
      · rw [if_neg h0]
        obtain ⟨n, hn⟩ := ih (i + 1) (j + 1) (c.moveObject m j i) (by omega) (by omega)
        refine ⟨n, ?_⟩
        have hlow : (List.range j).map (c.entryAt (c.moveObject m j i))
            = (List.range j).map (c.entryAt m) := by
          refine List.map_congr_left fun l hl => ?_
          have := List.mem_range.mp hl
          rw [entryAt_moveObject hL (by omega) (by omega) (by omega), if_neg (by omega)]
        have hhigh : (List.range' (i + 1) k).map (c.entryAt (c.moveObject m j i))
            = (List.range' (i + 1) k).map (c.entryAt m) := by
          refine List.map_congr_left fun l hl => ?_
          have := List.mem_range'_1.mp hl
          rw [entryAt_moveObject hL (by omega) (by omega) (by omega), if_neg (by omega)]
        rw [hn, hhigh, List.range_succ, List.map_append, hlow, List.map_singleton,
          entryAt_moveObject hL (by omega) (by omega) (by omega), if_pos rfl,
          List.filter_cons_of_pos (by simp [Entry.valid, entryAt, h0]), List.append_assoc]
        rfl

/-! ### The scratch ids -/

theorem writeIds_out {x : Nat} (h : x < c.sortIds ∨ c.sortIds + 8 * c.nMaxObjects ≤ x) :
    ∀ (ids : List Nat) (i : Nat) (m : Mem), i + ids.length ≤ c.nMaxObjects →
      c.writeIds ids i m x = m x := by
  intro ids
  induction ids with
  | nil => intro i m _; rfl
  | cons id ids ih =>
      intro i m hlen
      rw [List.length_cons] at hlen
      rw [writeIds, ih (i + 1) _ (by omega)]
      exact Mem.set_out_array (n := c.nMaxObjects) (by omega) h

end JudgeDuck.DuckCache
