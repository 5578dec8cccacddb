/-
Storing a new digest.

`store` takes `max(1, ceil(len / 4088))` pages when the pool is that large, and
refuses otherwise; the rounding of the source is exact for every length up to
2^64 - 4088 (`store_exact_iff`).  When the object does not fit beside the others,
the least recently used ones go first, and no more of them than needed
(`store_lru`).
-/
import JudgeDuck.Proofs.DuckCache.Refine

namespace JudgeDuck.DuckCache

open Memory

variable {S : StdSort} {c c' : DuckCache} {m m' : Mem} {live : Contents} {objs : List Obj}
  {free : List UInt64} {digest : Digest256} {len tsc : UInt64}

/-! ### The number of pages -/

/-- The pages of an object of `len` bytes: `max(1, ceil(len / 4088))`, as integers. -/
def neededPages (len : Nat) : Nat := max ((len + 4087) / 4088) 1

/-- The new object is in the cache, with exactly the pages it needs; `kept` is what is left of the
objects that were there. -/
structure Allocates (c : DuckCache) (m : Mem) (digest : Digest256) (len : Nat) (c' : DuckCache)
    (m' : Mem) (objs kept : List Obj) (o : Obj) (idx : Nat) : Prop where
  before : ∃ free, Rep c m objs free
  sublist : kept.Sublist objs
  place : idx ≤ kept.length
  after : ∃ free, Rep c' m' (kept.insertIdx idx o) free
  key : o.digest = digest
  size : o.len = len
  pages : o.pages.length = neededPages len
  total : c'.nTotalPages = c.nTotalPages
  most : c'.nMaxObjects = c.nMaxObjects
  counter : c'.nFreePages + neededPages len + (kept.flatMap Obj.pages).length = c.nTotalPages

/-- A call of `store` for a new digest is exact about the number of pages. -/
def StoreExact (S : StdSort) (c : DuckCache) (m : Mem) (digest : Digest256) (src : Nat)
    (len tsc : UInt64) : Prop :=
  ∃ ok c' m', c.store S m digest src len tsc = some (ok, c', m') ∧
    (neededPages len.toNat ≤ c.nTotalPages → ok = true ∧
      ∃ objs kept o idx, Allocates c m digest len.toNat c' m' objs kept o idx) ∧
    (c.nTotalPages < neededPages len.toNat → ok = false ∧ c' = c ∧ m' = m)

theorem nPages_eq_needed (h : len.toNat + 4087 < 2 ^ 64) : nPages len = neededPages len.toNat :=
  nPages_eq h

/-- The sum wraps, and the quotient is 0. -/
theorem nPages_wrapped (h : 2 ^ 64 ≤ len.toNat + 4087) : nPages len = 1 := by
  have hlt := len.toNat_lt
  have hlen : (len + onePageContentSize - 1).toNat = len.toNat + 4087 - 2 ^ 64 := by
    rw [UInt64.toNat_sub, UInt64.toNat_add, toNat_onePageContentSize, UInt64.toNat_one]
    omega
  rw [nPages, UInt64.toNat_div, hlen, toNat_onePageContentSize]
  omega

/-- An insertion leaves the pages of the objects that were there, and takes its own. -/
theorem Inserted.length_pages {kept : List Obj} {free1 : List UInt64} {idx src : Nat}
    {c1 : DuckCache} {m1 : Mem} (h : Rep c1 m1 kept free1)
    (hins : Inserted c1 m1 kept free1 idx digest src len tsc c' m')
    (hroom : c1.needRemove (nPages len) = false) :
    (newObj c1 m' free1 digest len tsc).pages.length = nPages len ∧
      c'.nFreePages + nPages len = c1.nFreePages := by
  have hn : nPages len ≤ free1.length := by
    simp only [needRemove, decide_eq_false_iff_not, not_or, not_lt] at hroom
    rw [h.nFree]
    exact hroom.1
  refine ⟨by rw [newObj, List.length_take]; omega, ?_⟩
  rw [← hins.rep.nFree, List.length_drop, ← h.nFree]
  omega

/-- A store that fits in the pool allocates its pages. -/
theorem Holds.allocates (h : Holds c m live objs free) (hnew : (c.find m digest).1 = false)
    (hn : nPages len ≤ c.nTotalPages) (hsmall : len.toNat + 4087 < 2 ^ 64) (htsc : tsc ≠ 0)
    (src : Nat) : ∃ c' m', c.store S m digest src len tsc = some (true, c', m') ∧
      ∃ kept o idx, Allocates c m digest len.toNat c' m' objs kept o idx := by
  obtain ⟨c1, m1, kept, free1, hp, halt⟩ := store_new S h.rep hnew hn hsmall htsc src
  have hf1 : (c1.find m1 digest).1 = false := by
    rw [← Bool.not_eq_true, (h.sorted.sublist hp.kept).find_iff hp.rep]
    rintro ⟨o, ho, hod⟩
    rw [(h.sorted.find_iff h.rep digest).mpr ⟨o, hp.kept.subset ho, hod⟩] at hnew
    exact Bool.noConfusion hnew
  rcases halt with ⟨hc, -⟩ | ⟨-, c', m', hstore, hins⟩
  · rw [hf1] at hc
    exact Bool.noConfusion hc
  obtain ⟨hpages, hcounter⟩ := hins.length_pages hp.rep hp.room
  obtain ⟨nCur, nFree, addr, hstatic⟩ := hp.static
  obtain ⟨nCur', nFree', addr', hstatic'⟩ := hins.static
  have htotal1 : c1.nTotalPages = c.nTotalPages := by rw [hstatic]
  refine ⟨c', m', hstore, kept, _, _,
    { before := ⟨free, h.rep⟩
      sublist := hp.kept
      place := by rw [hp.rep.length_objs]; exact (find_bounds c1 m1 digest).1
      after := ⟨_, hins.rep⟩
      key := rfl
      size := rfl
      pages := by rw [hpages, nPages_eq_needed hsmall]
      total := by rw [hstatic', htotal1]
      most := by rw [hstatic', hstatic]
      counter := ?_ }⟩
  have hall := hp.rep.length_partition
  rw [← nPages_eq_needed hsmall]
  omega

/-- When the rounding wraps, a store is not refused, and no pool has the pages it needs. -/
theorem StoreExact.small {src : Nat} (hL : Layout c) (hf : (c.find m digest).1 = false)
    (h : StoreExact S c m digest src len tsc) : len.toNat + 4087 < 2 ^ 64 := by
  obtain ⟨ok, c', m', hstore, -, hlarge⟩ := h
  by_contra hwrap
  have hwrap := Nat.le_of_not_lt hwrap
  have hbound := hL.bound
  have hpages := hL.pages
  have hpos := hL.pagesPos
  have hneed : c.nTotalPages < neededPages len.toNat := by
    unfold neededPages
    omega
  obtain ⟨rfl, -⟩ := hlarge hneed
  have hfind : c.find m digest = (false, (c.find m digest).2) := by rw [← hf]
  unfold store at hstore
  rw [hfind, nPages_wrapped hwrap] at hstore
  dsimp only at hstore
  rw [if_neg (by omega)] at hstore
  split at hstore
  · split at hstore
    · cases hstore
    · cases hi : DuckCache.insert _ _ _ digest src len tsc with
      | none => rw [hi] at hstore; cases hstore
      | some r => rw [hi] at hstore; cases hstore
  · cases hi : DuckCache.insert _ _ _ digest src len tsc with
    | none => rw [hi] at hstore; cases hstore
    | some r => rw [hi] at hstore; cases hstore

/-- In every state of a run, a store of a new digest is exact just when the rounding does not
wrap. -/
theorem store_exact_iff {nMaxObjects cacheSize : UInt64} (hfit : SizesFit nMaxObjects cacheSize)
    (h : Run S nMaxObjects cacheSize c m live) (hnew : ¬InArray c m digest) (htsc : tsc ≠ 0)
    (src : Nat) : StoreExact S c m digest src len tsc ↔ len.toNat + 4087 < 2 ^ 64 := by
  obtain ⟨objs, free, hh⟩ := h.holds hfit
  have hf : (c.find m digest).1 = false := by
    rw [← Bool.not_eq_true, hh.sorted.find_iff hh.rep, ← hh.inArray]
    exact hnew
  refine ⟨fun hc => hc.small hh.rep.layout hf, ?_⟩
  intro hsmall
  by_cases hn : nPages len ≤ c.nTotalPages
  · obtain ⟨c', m', hstore, hall⟩ := hh.allocates (S := S) hf hn hsmall htsc src
    refine ⟨true, c', m', hstore, fun _ => ⟨rfl, objs, hall⟩, fun hc => ?_⟩
    rw [nPages_eq_needed hsmall] at hn
    exact absurd hn (Nat.not_le.mpr hc)
  · have hn := Nat.lt_of_not_le hn
    refine ⟨false, c, m, store_large S hf hn src, fun hc => ?_, fun _ => ⟨rfl, rfl, rfl⟩⟩
    rw [nPages_eq_needed hsmall] at hn
    exact absurd hc (Nat.not_le.mpr hn)

private theorem fitsOne : SizesFit 1 24576 := ⟨by decide, by decide, by decide, by decide⟩

/-- A fresh cache of one object in six pages. -/
private theorem fresh : ∃ c m, Run StdSort.insertion 1 24576 c m (fun _ => none) ∧
    Holds c m (fun _ => none) [] c.poolPages ∧ c.nMaxObjects = 1 ∧ c.objHash = 4194304 := by
  obtain ⟨c, m, a, hmax, h⟩ : ∃ c m a, (c.nMaxObjects = 1 ∧ c.objHash = 4194304) ∧
      init 1 24576 (fun _ => 0) 6291456 = .ok (c, m, a) := by
    rw [init, (by decide : allocateVirtualMemory 6291456 24576 = some 4194304), Option.elim_some,
      initBlock]
    dsimp only
    rw [if_neg (by decide)]
    exact ⟨_, _, _, ⟨rfl, rfl⟩, rfl⟩
  have hi := init_spec fitsOne (by decide) h
  exact ⟨c, m, Run.init (by decide) (by decide) (by decide) h,
    ⟨hi.rep, ⟨List.Pairwise.nil, by simp⟩, by simp⟩, hmax⟩

theorem store_exact_ten : ∃ c m, Run StdSort.insertion 1 24576 c m (fun _ => none) ∧
    StoreExact StdSort.insertion c m ⟨5, 0, 0, 0⟩ 0 10 1 := by
  obtain ⟨c, m, hrun, hh, -, -⟩ := fresh
  have hnew : ¬InArray c m ⟨5, 0, 0, 0⟩ := by simp [hh.inArray]
  exact ⟨c, m, hrun, (store_exact_iff fitsOne hrun hnew (by decide) 0).mpr (by decide)⟩

/-- 2^64 - 1 bytes are taken for one page. -/
theorem store_wraps : ∃ c m, Run StdSort.insertion 1 24576 c m (fun _ => none) ∧
    ¬InArray c m ⟨5, 0, 0, 0⟩ ∧
    ¬StoreExact StdSort.insertion c m ⟨5, 0, 0, 0⟩ 0 18446744073709551615 1 := by
  obtain ⟨c, m, hrun, hh, -, -⟩ := fresh
  have hnew : ¬InArray c m ⟨5, 0, 0, 0⟩ := by simp [hh.inArray]
  have hf : (c.find m ⟨5, 0, 0, 0⟩).1 = false := by
    rw [← Bool.not_eq_true, hh.sorted.find_iff hh.rep, ← hh.inArray]
    exact hnew
  exact ⟨c, m, hrun, hnew, fun hc => absurd (hc.small hh.rep.layout hf) (by decide)⟩

/-! ### Eviction -/

/-- A new object replaces the least recently used ones: `ids` are the objects in order of last use,
and the first `k` of them go. -/
structure Lru (c : DuckCache) (m : Mem) (objs : List Obj) (free : List UInt64)
    (digest : Digest256) (len tsc : UInt64) (c' : DuckCache) (m' : Mem) (ids : List Nat) (k : Nat)
    (o : Obj) (idx : Nat) (free' : List UInt64) : Prop where
  before : Rep c m objs free
  all : ids.Perm (List.range objs.length)
  oldest : ids.Pairwise fun i j => timeAt objs i ≤ timeAt objs j
  fits : Fits c objs (neededPages len.toNat) (ids.take k)
  shortest : ∀ j, j < k → ¬Fits c objs (neededPages len.toNat) (ids.take j)
  -- the others are what they were, in the order in which they were
  place : idx ≤ (survivors objs (ids.take k)).length
  after : Rep c' m' ((survivors objs (ids.take k)).insertIdx idx o) free'
  key : o.digest = digest
  size : o.len = len.toNat
  time : o.entry.metadata.lastUsedTsc = tsc
  -- all pages of the others went to the front of the free list, and the new object takes its own
  freed : o.pages ++ free' = (ids.take k).reverse.flatMap (pagesAt objs) ++ free

theorem needRemove_nil {n : Nat} : c.needRemove n = false ↔ Fits c objs n [] := by
  simp [needRemove, Fits]

/-- An eviction makes room. -/
theorem Evicted.fits (h : Rep c m objs free) {n k : Nat} {ids : List Nat}
    (he : Evicted c m objs free n c' m' k ids) : Fits c objs n (ids.take k) := by
  have hnd : (ids.take k).Nodup :=
    (he.perm.nodup_iff.mpr List.nodup_range).sublist (List.take_sublist k ids)
  have hb : ∀ i ∈ ids.take k, i < objs.length := fun i hi =>
    List.mem_range.mp (he.perm.subset (mem_take hi))
  have hsurv := length_survivors hnd hb
  have hle : (ids.take k).length ≤ objs.length := by
    have := hnd.subperm fun i hi => List.mem_range.mpr (hb i hi)
    simpa using this.length_le
  have hcur := he.rep.length_objs
  have hcur0 := h.length_objs
  have hfree := he.rep.nFree
  have hfree0 := h.nFree
  rw [List.length_append, ((List.reverse_perm (ids.take k)).flatMap_right _).length_eq] at hfree
  obtain ⟨nCur, nFree, addr, hstatic⟩ := he.static
  have hmax : c'.nMaxObjects = c.nMaxObjects := by rw [hstatic]
  have hroom := he.room
  simp only [needRemove, decide_eq_false_iff_not, not_or, not_lt] at hroom
  unfold Fits
  omega

theorem Evicted.shortest {n k : Nat} {ids : List Nat} (he : Evicted c m objs free n c' m' k ids)
    (hneed : c.needRemove n = true) : ∀ j, j < k → ¬Fits c objs n (ids.take j) := by
  intro j hj
  by_cases h0 : j = 0
  · subst h0
    rw [List.take_zero, ← needRemove_nil, hneed]
    exact Bool.noConfusion
  · exact he.least j (Nat.pos_of_ne_zero h0) hj

/-- Eviction in a state that holds the objects `objs`. -/
theorem Holds.lru (h : Holds c m live objs free) (hf : (c.find m digest).1 = false)
    (hn : nPages len ≤ c.nTotalPages) (hneed : c.needRemove (nPages len) = true)
    (hsmall : len.toNat + 4087 < 2 ^ 64) (htsc : tsc ≠ 0) (src : Nat) :
    ∃ c' m' ids k o idx free', c.store S m digest src len tsc = some (true, c', m') ∧
      Lru c m objs free digest len tsc c' m' ids k o idx free' := by
  obtain ⟨c1, m1, k, ids, he, halt⟩ := store_evicting S h.rep hf hn hneed hsmall htsc src
  have hf1 : (c1.find m1 digest).1 = false := by
    have hsub := survivors_sublist objs (ids.take k)
    rw [← Bool.not_eq_true, (h.sorted.sublist hsub).find_iff he.rep]
    rintro ⟨o, ho, hod⟩
    rw [(h.sorted.find_iff h.rep digest).mpr ⟨o, hsub.subset ho, hod⟩] at hf
    exact Bool.noConfusion hf
  rcases halt with ⟨hc, -⟩ | ⟨-, c', m', hstore, hins⟩
  · rw [hf1] at hc
    exact Bool.noConfusion hc
  refine ⟨c', m', ids, k, _, _, _, hstore,
    { before := h.rep
      all := he.perm
      oldest := he.sorted
      fits := ?_
      shortest := ?_
      place := by rw [he.rep.length_objs]; exact (find_bounds c1 m1 digest).1
      after := hins.rep
      key := rfl
      size := rfl
      time := rfl
      freed := List.take_append_drop _ _ }⟩
  · rw [← nPages_eq_needed hsmall]
    exact he.fits h.rep
  · rw [← nPages_eq_needed hsmall]
    exact he.shortest hneed

/-- In every state of a run, a store of a new digest that fits in the pool but not beside the
objects in the cache evicts the shortest prefix of them in order of last use. -/
theorem store_lru {nMaxObjects cacheSize : UInt64} (hfit : SizesFit nMaxObjects cacheSize)
    (h : Run S nMaxObjects cacheSize c m live) : ∃ objs free, Rep c m objs free ∧
      ∀ (digest : Digest256) (src : Nat) (len tsc : UInt64), ¬InArray c m digest → tsc ≠ 0 →
        neededPages len.toNat ≤ c.nTotalPages → ¬Fits c objs (neededPages len.toNat) [] →
        ∃ c' m' ids k o idx free', c.store S m digest src len tsc = some (true, c', m') ∧
          Lru c m objs free digest len tsc c' m' ids k o idx free' := by
  obtain ⟨objs, free, hh⟩ := h.holds hfit
  refine ⟨objs, free, hh.rep, fun digest src len tsc hnew htsc hn hfull => ?_⟩
  have hf : (c.find m digest).1 = false := by
    rw [← Bool.not_eq_true, hh.sorted.find_iff hh.rep, ← hh.inArray]
    exact hnew
  have hsmall : len.toNat + 4087 < 2 ^ 64 := by
    have hbound := hh.rep.layout.bound
    have hpages := hh.rep.layout.pages
    unfold neededPages at hn
    omega
  rw [← nPages_eq_needed hsmall] at hn hfull
  refine hh.lru hf hn ?_ hsmall htsc src
  rw [← Bool.not_eq_false, needRemove_nil]
  exact hfull

/-- The cache of one object evicts it for the next one. -/
theorem store_lru_one : ∃ c m live objs free c' m' ids k o idx free',
    Run StdSort.insertion 1 24576 c m live ∧
    c.store StdSort.insertion m ⟨6, 0, 0, 0⟩ 0 20 2 = some (true, c', m') ∧
    Lru c m objs free ⟨6, 0, 0, 0⟩ 20 2 c' m' ids k o idx free' := by
  obtain ⟨c0, m0, hrun0, hh0, hmax0, haddr0⟩ := fresh
  have hf0 : (c0.find m0 ⟨5, 0, 0, 0⟩).1 = false := by
    rw [← Bool.not_eq_true, hh0.sorted.find_iff hh0.rep]
    simp
  have hn0 : nPages 10 ≤ c0.nTotalPages := hh0.rep.layout.pagesPos
  obtain ⟨c, m, hstore, kept, o, idx, ha⟩ :=
    hh0.allocates (S := StdSort.insertion) hf0 hn0 (by decide) (by decide : (1 : UInt64) ≠ 0) 0
  have hout : c0.Outside 0 (10 : UInt64).toNat := by
    refine Or.inl ?_
    rw [haddr0]
    decide
  have hrun := hrun0.store (by decide) (by decide) hout hstore
  obtain ⟨free0, hrep⟩ := ha.after
  have hkept : kept = [] := List.sublist_nil.mp ha.sublist
  subst hkept
  have hidx : idx = 0 := Nat.le_zero.mp ha.place
  subst hidx
  have hcur : c.nCurObjects = 1 := hrep.length_objs.symm
  have hmax : c.nMaxObjects = 1 := ha.most.trans hmax0
  have hnew : ¬InArray c m ⟨6, 0, 0, 0⟩ := by
    intro hc
    obtain ⟨o', ho', hd⟩ := hrep.exists_digestAt.mp hc
    rw [List.mem_singleton.mp ho', ha.key] at hd
    exact absurd hd (by decide)
  have hfit : neededPages (20 : UInt64).toNat ≤ c.nTotalPages := by
    rw [(by decide : neededPages (20 : UInt64).toNat = 1)]
    exact hrep.layout.pagesPos
  obtain ⟨objs, free, -, hall⟩ := store_lru fitsOne hrun
  have hfull : ¬Fits c objs (neededPages (20 : UInt64).toNat) [] := by
    rintro ⟨-, h⟩
    rw [List.length_nil] at h
    omega
  obtain ⟨c', m', ids, k, o', idx', free', hs, hlru⟩ :=
    hall ⟨6, 0, 0, 0⟩ 0 20 2 hnew (by decide) hfit hfull
  exact ⟨c, m, _, objs, free, c', m', ids, k, o', idx', free', hrun, hs, hlru⟩

end JudgeDuck.DuckCache
