/-
What one call of `load` or `store` does to a well-formed cache.

`load` either misses and changes nothing, or marks one object as used and copies
its data out.  `store` finds the digest and changes nothing, refuses an object
larger than the whole pool and changes nothing, or inserts the object into what an
eviction left, or into the cache as it was when there is room.
-/
import JudgeDuck.Proofs.DuckCache.Evict
import JudgeDuck.Proofs.DuckCache.Find
import JudgeDuck.Proofs.DuckCache.Insert

namespace JudgeDuck.DuckCache

variable {c : DuckCache} {m : Mem} {objs : List Obj} {free : List UInt64}
  {digest : Digest256} {len tsc : UInt64}

/-! ### Sorted objects -/

/-- The digests of the objects are strictly increasing and the hashes are their first words. -/
structure Sorted (objs : List Obj) : Prop where
  increasing : objs.Pairwise fun a b => a.digest < b.digest
  hash : ∀ o ∈ objs, o.entry.hash = o.digest.a0

theorem Rep.digestAt (h : Rep c m objs free) {i : Nat} (hi : i < objs.length) :
    c.digestAt m i = objs[i].digest := congrArg Entry.digest (h.entryAt hi)

theorem Rep.hashAt (h : Rep c m objs free) {i : Nat} (hi : i < objs.length) :
    c.hashAt m i = objs[i].entry.hash := congrArg Entry.hash (h.entryAt hi)

theorem Sorted.tables (hs : Sorted objs) (h : Rep c m objs free) : SortedTables c m := by
  have hlen := h.length_objs
  refine ⟨fun i j hij hj => ?_, fun i hi => ?_⟩
  · rw [h.digestAt (by omega), h.digestAt (by omega)]
    exact List.pairwise_iff_getElem.mp hs.increasing i j (by omega) (by omega) hij
  · rw [h.digestAt (by omega), h.hashAt (by omega)]
    exact hs.hash _ (List.getElem_mem _)

theorem Sorted.sublist {kept : List Obj} (hs : Sorted objs) (hk : kept.Sublist objs) :
    Sorted kept :=
  ⟨hs.increasing.sublist hk, fun o ho => hs.hash o (hk.subset ho)⟩

/-- The digests are those of the objects. -/
theorem Rep.exists_digestAt (h : Rep c m objs free) {d : Digest256} :
    (∃ i, i < c.nCurObjects ∧ c.digestAt m i = d) ↔ ∃ o ∈ objs, o.digest = d := by
  have hlen := h.length_objs
  constructor
  · rintro ⟨i, hi, rfl⟩
    exact ⟨objs[i], List.getElem_mem _, (h.digestAt (by omega)).symm⟩
  · rintro ⟨o, ho, rfl⟩
    obtain ⟨i, hi, rfl⟩ := List.mem_iff_getElem.mp ho
    exact ⟨i, by omega, h.digestAt hi⟩

/-- On sorted objects `find` decides whether the digest is stored. -/
theorem Sorted.find_iff (hs : Sorted objs) (h : Rep c m objs free) (digest : Digest256) :
    (c.find m digest).1 = true ↔ ∃ o ∈ objs, o.digest = digest := by
  rw [DuckCache.find_iff (hs.tables h), h.exists_digestAt]

/-- Inserting a new digest where `find` says keeps the objects sorted. -/
theorem Sorted.insertIdx (hs : Sorted objs) (h : Rep c m objs free) {o : Obj}
    (hhash : o.entry.hash = o.digest.a0) (hnew : (c.find m o.digest).1 = false) :
    Sorted (objs.insertIdx (c.find m o.digest).2 o) := by
  have hlen := h.length_objs
  obtain ⟨hp, -⟩ := find_isPoint (hs.tables h) o.digest
  have hle : (c.find m o.digest).2 ≤ objs.length := by
    rw [hlen]
    exact hp.upper
  have hne : ∀ a ∈ objs, a.digest ≠ o.digest := by
    intro a ha hc
    rw [(hs.find_iff h o.digest).mpr ⟨a, ha, hc⟩] at hnew
    exact Bool.noConfusion hnew
  have hbelow : ∀ a ∈ objs.take (c.find m o.digest).2, a.digest < o.digest := by
    intro a ha
    obtain ⟨i, hi, rfl⟩ := List.mem_iff_getElem.mp ha
    rw [List.length_take] at hi
    rw [List.getElem_take]
    have := hp.below i (Nat.zero_le i) (by omega)
    rw [decide_eq_true_eq, h.digestAt (by omega)] at this
    exact this
  have habove : ∀ a ∈ objs.drop (c.find m o.digest).2, o.digest < a.digest := by
    intro a ha
    obtain ⟨i, hi, rfl⟩ := List.mem_iff_getElem.mp ha
    rw [List.length_drop] at hi
    rw [List.getElem_drop]
    have := hp.above ((c.find m o.digest).2 + i) (by omega) (by omega)
    rw [decide_eq_false_iff_not, h.digestAt (by omega), not_lt] at this
    exact lt_of_le_of_ne this (hne _ (List.getElem_mem _)).symm
  constructor
  · exact Search.pairwise_insertIdx hs.increasing hle hbelow habove fun _ _ _ => lt_trans
  · intro a ha
    rcases (List.mem_insertIdx hle).mp ha with rfl | ha
    · exact hhash
    · exact hs.hash a ha

/-! ### `load` -/

/-- The object is there, with the length that was asked for. -/
def Hit (c : DuckCache) (m : Mem) (digest : Digest256) (len : UInt64) : Prop :=
  (c.find m digest).1 = true ∧ (c.metadataAt m (c.find m digest).2).len = len

instance : Decidable (Hit c m digest len) := inferInstanceAs (Decidable (_ ∧ _))

/-- The index of a hit is that of an object with this digest and length. -/
theorem Hit.obj (h : Rep c m objs free) (hit : Hit c m digest len) :
    ∃ hi : (c.find m digest).2 < objs.length, objs[(c.find m digest).2].digest = digest ∧
      objs[(c.find m digest).2].len = len.toNat := by
  have hlen := h.length_objs
  obtain ⟨hi, hd⟩ := (find_bounds c m digest).2 hit.1
  have hi' : (c.find m digest).2 < objs.length := by omega
  refine ⟨hi', ?_, ?_⟩
  · rw [← h.digestAt hi', hd]
  · rw [Obj.len, ← h.metadataAt hi', hit.2]

theorem load_miss (hmiss : ¬Hit c m digest len) (dst : Nat) :
    c.load m digest dst len tsc = some (false, m) := by
  unfold load
  cases hf : c.find m digest with
  | mk found idx =>
      cases found with
      | false => rfl
      | true =>
          dsimp only
          rw [if_pos]
          intro hl
          exact hmiss ⟨by rw [hf], by rw [hf]; exact hl⟩

/-- The memory in which the object at `idx` has been used at time `tsc`. -/
def touched (c : DuckCache) (m : Mem) (idx : Nat) (tsc : UInt64) : Mem :=
  m.set c.objMetadata idx { c.metadataAt m idx with lastUsedTsc := tsc }

theorem load_hit (hit : Hit c m digest len) (hsmall : len.toNat + 4087 < 2 ^ 64) (dst : Nat) :
    c.load m digest dst len tsc = some (true, copyOut (c.touched m (c.find m digest).2 tsc)
      (c.metadataAt m (c.find m digest).2).startAddr dst len.toNat) := by
  obtain ⟨h1, h2⟩ := hit
  unfold load
  cases hf : c.find m digest with
  | mk found idx =>
      rw [hf] at h1 h2
      cases found with
      | false => exact Bool.noConfusion h1
      | true =>
          dsimp only at h2 ⊢
          rw [if_neg (not_not.mpr h2), not_endless hsmall, if_neg Bool.false_ne_true]
          rfl

/-- The destination or source of a call does not overlap the block of the cache. -/
def Outside (c : DuckCache) (addr n : Nat) : Prop :=
  addr + n ≤ c.objHash ∨ c.objHash + c.cacheSize ≤ addr

/-- A hit whose destination is not in the chain of the object copies the data there. -/
theorem load_hit_far (h : Rep c m objs free) (hit : Hit c m digest len) (htsc : tsc ≠ 0) {dst : Nat}
    (hi : (c.find m digest).2 < objs.length)
    (hfar : ∀ p ∈ objs[(c.find m digest).2].pages,
      dst + len.toNat ≤ p.toNat ∨ p.toNat + 4096 ≤ dst) :
    objs[(c.find m digest).2].data.length = len.toNat ∧
    c.load m digest dst len tsc = some (true, (c.touched m (c.find m digest).2 tsc).putBytes dst
      objs[(c.find m digest).2].data) := by
  obtain ⟨_, _, hl⟩ := hit.obj h
  set idx := (c.find m digest).2 with hidx
  have hobj : objs[idx] ∈ objs := List.getElem_mem hi
  have hst := h.stored _ hobj
  have hdata : objs[idx].data.length = len.toNat := hst.length_data.trans hl
  have hrep : Rep c (c.touched m idx tsc) (objs.modify idx (Obj.touch tsc)) free :=
    h.touch hi htsc
  -- the chain of the object is still there, with the same contents
  have hmem : objs[idx].touch tsc ∈ objs.modify idx (Obj.touch tsc) := by
    have hi' : idx < (objs.modify idx (Obj.touch tsc)).length := by simpa using hi
    have := List.getElem_mem hi'
    rwa [List.getElem_modify, if_pos rfl] at this
  have hst1 := hrep.stored _ hmem
  obtain ⟨e, hseg⟩ : ∃ e, Seg (nextPage (c.touched m idx tsc)) objs[idx].entry.metadata.startAddr
      objs[idx].pages e := hst1.chain
  have hcopy : copyOut (c.touched m idx tsc) objs[idx].entry.metadata.startAddr dst len.toNat
      = (c.touched m idx tsc).putBytes dst objs[idx].data := by
    have hle : len.toNat ≤ 4088 * objs[idx].pages.length := by
      rw [← hl]
      exact hst.len_le
    have hc : contents (c.touched m idx tsc) objs[idx].pages len.toNat = objs[idx].data := by
      rw [← hl]
      exact hst1.data
    rw [copyOut_eq objs[idx].pages _ _ e dst len.toNat hseg hle hfar, hc]
  refine ⟨hdata, ?_⟩
  rw [load_hit hit (by rw [← hl]; exact hst.small), h.metadataAt hi, hcopy]

/-- A hit whose destination is outside the cache copies the data there; the cache holds the
same objects, one of them just used. -/
theorem load_hit_rep (h : Rep c m objs free) (hit : Hit c m digest len) (htsc : tsc ≠ 0)
    {dst : Nat} (hdst : c.Outside dst len.toNat) :
    ∃ hi : (c.find m digest).2 < objs.length,
      objs[(c.find m digest).2].digest = digest ∧
      objs[(c.find m digest).2].data.length = len.toNat ∧
      c.load m digest dst len tsc = some (true, (c.touched m (c.find m digest).2 tsc).putBytes dst
        objs[(c.find m digest).2].data) ∧
      Rep c ((c.touched m (c.find m digest).2 tsc).putBytes dst objs[(c.find m digest).2].data)
        (objs.modify (c.find m digest).2 (Obj.touch tsc)) free := by
  obtain ⟨hi, hd, -⟩ := hit.obj h
  have hpl := h.layout.pool_le
  have hfar : ∀ p ∈ objs[(c.find m digest).2].pages,
      dst + len.toNat ≤ p.toNat ∨ p.toNat + 4096 ≤ dst := by
    intro p hp
    have hb := page_bounds h.layout (h.pages_subset (List.getElem_mem hi) hp)
    rcases hdst with hlo | hhi
    · exact Or.inl (by omega)
    · exact Or.inr (by omega)
  obtain ⟨hdata, hload⟩ := load_hit_far h hit htsc hi hfar
  refine ⟨hi, hd, hdata, hload, (h.touch hi htsc).frame fun x hx1 hx2 => Mem.putBytes_out ?_⟩
  rw [hdata]
  rcases hdst with hlo | hhi <;> omega

/-! ### `store` -/

theorem store_found (S : StdSort) (hf : (c.find m digest).1 = true) (src : Nat) :
    c.store S m digest src len tsc = some (true, c, m) := by
  unfold store
  cases h : c.find m digest with
  | mk found idx =>
      rw [h] at hf
      cases found with
      | false => exact Bool.noConfusion hf
      | true => rfl

theorem store_large (S : StdSort) (hf : (c.find m digest).1 = false)
    (hn : c.nTotalPages < nPages len) (src : Nat) :
    c.store S m digest src len tsc = some (false, c, m) := by
  unfold store
  cases h : c.find m digest with
  | mk found idx =>
      rw [h] at hf
      cases found with
      | false => exact if_pos hn
      | true => exact Bool.noConfusion hf

/-- The cache has room for `n` more pages and one more object; what it holds was there before. -/
structure Prepared (c : DuckCache) (m : Mem) (objs : List Obj) (n : Nat) (c1 : DuckCache)
    (m1 : Mem) (kept : List Obj) (free1 : List UInt64) : Prop where
  rep : Rep c1 m1 kept free1
  kept : kept.Sublist objs
  room : c1.needRemove n = false
  static : ∃ nCur nFree addr,
    c1 = { c with nCurObjects := nCur, nFreePages := nFree, freeListAddr := addr }
  frame : ∀ x, x < c.objHash ∨ c.objHash + c.cacheSize ≤ x → m1 x = m x

/-- The insertion into a cache with room, at the index that `find` answers. -/
private theorem insert_find {c1 : DuckCache} {m1 : Mem} {kept : List Obj} {free1 : List UInt64}
    (h : Rep c1 m1 kept free1) (hroom : c1.needRemove (nPages len) = false)
    (hsmall : len.toNat + 4087 < 2 ^ 64) (htsc : tsc ≠ 0) (digest : Digest256) (src : Nat) :
    ∃ c' m', c1.insert m1 (c1.find m1 digest).2 digest src len tsc = some (c', m') ∧
      Inserted c1 m1 kept free1 (c1.find m1 digest).2 digest src len tsc c' m' := by
  refine insert_spec h ?_ hroom hsmall htsc
  rw [h.length_objs]
  exact (find_bounds c1 m1 digest).1

/-- A new digest that fits in the pool, but not beside the objects that are there: evict, then
insert.  The assert of the source is the first alternative. -/
theorem store_evicting (S : StdSort) (h : Rep c m objs free) (hf : (c.find m digest).1 = false)
    (hn : nPages len ≤ c.nTotalPages) (hneed : c.needRemove (nPages len) = true)
    (hsmall : len.toNat + 4087 < 2 ^ 64) (htsc : tsc ≠ 0) (src : Nat) :
    ∃ c1 m1 k ids, Evicted c m objs free (nPages len) c1 m1 k ids ∧
      ((c1.find m1 digest).1 = true ∧ c.store S m digest src len tsc = none ∨
       (c1.find m1 digest).1 = false ∧ ∃ c' m',
         c.store S m digest src len tsc = some (true, c', m') ∧
        Inserted c1 m1 (survivors objs (ids.take k))
          ((ids.take k).reverse.flatMap (pagesAt objs) ++ free) (c1.find m1 digest).2 digest src len
          tsc c' m') := by
  have hfind : c.find m digest = (false, (c.find m digest).2) := by rw [← hf]
  obtain ⟨k, ids, he⟩ := evict_spec S h hn
  set c1 := (c.evict S m (nPages len)).1 with hc1
  set m1 := (c.evict S m (nPages len)).2 with hm1
  refine ⟨c1, m1, k, ids, he, ?_⟩
  have hstore : ∀ {found idx}, c1.find m1 digest = (found, idx) →
      c.store S m digest src len tsc = if found = true then none
        else (c1.insert m1 idx digest src len tsc).map fun r => (true, r) := by
    intro found idx hfind1
    unfold store
    rw [hfind]
    dsimp only
    rw [if_neg (Nat.not_lt.mpr hn), if_pos hneed, ← hc1, ← hm1, hfind1]
    cases found with
    | true => rfl
    | false => rfl
  by_cases hf1 : (c1.find m1 digest).1 = true
  · have hfind1 : c1.find m1 digest = (true, (c1.find m1 digest).2) := by rw [← hf1]
    exact Or.inl ⟨hf1, (hstore hfind1).trans (if_pos rfl)⟩
  · have hf1 : (c1.find m1 digest).1 = false := by simpa using hf1
    have hfind1 : c1.find m1 digest = (false, (c1.find m1 digest).2) := by rw [← hf1]
    obtain ⟨c', m', hi, hins⟩ := insert_find he.rep he.room hsmall htsc digest src
    refine Or.inr ⟨hf1, c', m', ?_, hins⟩
    rw [hstore hfind1, if_neg Bool.false_ne_true, hi]
    rfl

/-- A new digest that fits beside the objects that are there. -/
theorem store_fitting (S : StdSort) (h : Rep c m objs free) (hf : (c.find m digest).1 = false)
    (hn : nPages len ≤ c.nTotalPages) (hroom : c.needRemove (nPages len) = false)
    (hsmall : len.toNat + 4087 < 2 ^ 64) (htsc : tsc ≠ 0) (src : Nat) :
    ∃ c' m', c.store S m digest src len tsc = some (true, c', m') ∧
      Inserted c m objs free (c.find m digest).2 digest src len tsc c' m' := by
  have hfind : c.find m digest = (false, (c.find m digest).2) := by rw [← hf]
  obtain ⟨c', m', hi, hins⟩ := insert_find h hroom hsmall htsc digest src
  refine ⟨c', m', ?_, hins⟩
  unfold store
  rw [hfind]
  dsimp only
  rw [if_neg (Nat.not_lt.mpr hn), if_neg (ne_true_of_eq_false hroom), hi]
  rfl

/-- A new digest that fits in the pool: make room, then insert. -/
theorem store_new (S : StdSort) (h : Rep c m objs free) (hf : (c.find m digest).1 = false)
    (hn : nPages len ≤ c.nTotalPages) (hsmall : len.toNat + 4087 < 2 ^ 64) (htsc : tsc ≠ 0)
    (src : Nat) :
    ∃ c1 m1 kept free1, Prepared c m objs (nPages len) c1 m1 kept free1 ∧
      ((c1.find m1 digest).1 = true ∧ c.store S m digest src len tsc = none ∨
       (c1.find m1 digest).1 = false ∧ ∃ c' m',
         c.store S m digest src len tsc = some (true, c', m') ∧
        Inserted c1 m1 kept free1 (c1.find m1 digest).2 digest src len tsc c' m') := by
  by_cases hneed : c.needRemove (nPages len) = true
  · obtain ⟨c1, m1, k, ids, he, halt⟩ := store_evicting S h hf hn hneed hsmall htsc src
    exact ⟨c1, m1, _, _, ⟨he.rep, survivors_sublist _ _, he.room, he.static, he.frame⟩, halt⟩
  · have hroom : c.needRemove (nPages len) = false := by simpa using hneed
    obtain ⟨c', m', hs, hins⟩ := store_fitting S h hf hn hroom hsmall htsc src
    exact ⟨c, m, objs, free, ⟨h, List.Sublist.refl _, hroom, ⟨_, _, _, rfl⟩, fun _ _ => rfl⟩,
      Or.inr ⟨hf, c', m', hs, hins⟩⟩

end JudgeDuck.DuckCache
