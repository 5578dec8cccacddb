/-
Eviction keeps the representation.

The removal loop walks a list of ids and gives each object's chain back to the
free list; the table keeps the dead entries, marked by the time 0, until the
defragmentation loop drops them.  `Removed` is the state in between: `dead` are
the ids removed so far, the last one first, which is also the order in which their
chains stand in front of the free list.

The result (`evict_spec`) is stated for the ids the sort returned: a prefix of
them is removed, the shortest one that makes the new object fit.
-/
import JudgeDuck.Proofs.DuckCache.Rep

namespace JudgeDuck.DuckCache

variable {c : DuckCache} {m : Mem} {objs : List Obj} {free : List UInt64}

/-- The chain of the object with this id. -/
def pagesAt (objs : List Obj) (i : Nat) : List UInt64 := objs[i]!.pages

/-- The objects whose ids are not in `dead`, in table order. -/
def survivors (objs : List Obj) (dead : List Nat) : List Obj :=
  ((List.range objs.length).filter (· ∉ dead)).map (objs[·]!)

theorem getElem!_mem {i : Nat} (h : i < objs.length) : objs[i]! ∈ objs := by
  rw [getElem!_pos objs i h]
  exact List.getElem_mem h

theorem map_range_getElem! (objs : List Obj) : (List.range objs.length).map (objs[·]!) = objs := by
  refine List.ext_getElem (by simp) fun i h1 h2 => ?_
  rw [List.getElem_map, List.getElem_range, getElem!_pos objs i h2]

theorem survivors_sublist (objs : List Obj) (dead : List Nat) :
    (survivors objs dead).Sublist objs := by
  have h := (List.filter_sublist (l := List.range objs.length) (p := (· ∉ dead))).map (objs[·]!)
  rwa [map_range_getElem!] at h

/-- The ids in use are those that survive and those that are dead. -/
theorem ids_perm {dead : List Nat} (hnd : dead.Nodup) (hb : ∀ i ∈ dead, i < objs.length) :
    ((List.range objs.length).filter (· ∉ dead) ++ dead).Perm (List.range objs.length) := by
  have hdead : ((List.range objs.length).filter (· ∈ dead)).Perm dead := by
    rw [List.perm_ext_iff_of_nodup (List.nodup_range.filter _) hnd]
    intro i
    simp only [List.mem_filter, List.mem_range, decide_eq_true_eq]
    exact ⟨fun h => h.2, fun h => ⟨hb i h, h⟩⟩
  have hsplit := List.filter_append_perm (fun i => decide (i ∈ dead)) (List.range objs.length)
  have hneg : (List.range objs.length).filter (fun i => !decide (i ∈ dead))
      = (List.range objs.length).filter (· ∉ dead) :=
    List.filter_congr fun i _ => by simp
  rw [hneg] at hsplit
  exact (List.perm_append_comm.trans (hdead.symm.append_right _)).trans hsplit

theorem length_survivors {dead : List Nat} (hnd : dead.Nodup)
    (hb : ∀ i ∈ dead, i < objs.length) :
    (survivors objs dead).length = objs.length - dead.length := by
  have := (ids_perm hnd hb).length_eq
  rw [List.length_append, List.length_range] at this
  rw [survivors, List.length_map]
  omega

/-- The chains of the survivors and of the dead are all the chains. -/
theorem pages_perm {dead : List Nat} (hnd : dead.Nodup) (hb : ∀ i ∈ dead, i < objs.length) :
    ((survivors objs dead).flatMap Obj.pages ++ dead.flatMap (pagesAt objs)).Perm
      (objs.flatMap Obj.pages) := by
  have h := (ids_perm hnd hb).flatMap_right (pagesAt objs)
  rw [List.flatMap_append] at h
  have hall : (List.range objs.length).flatMap (pagesAt objs) = objs.flatMap Obj.pages := by
    have hmap := List.flatMap_map (objs[·]!) Obj.pages (List.range objs.length)
    rw [map_range_getElem!] at hmap
    exact hmap.symm
  rw [survivors, List.flatMap_map, ← hall]
  exact h

/-! ### The removal loop -/

/-- The entry of an object that is being removed. -/
def Entry.invalidate (e : Entry) : Entry :=
  { e with metadata := { e.metadata with lastUsedTsc := 0 } }

/-- The state of the removal loop when the ids `dead` are gone, the last one first. -/
structure Removed (c : DuckCache) (m : Mem) (objs : List Obj) (free : List UInt64)
    (dead : List Nat) (r : Removal) : Prop where
  bound : ∀ i ∈ dead, i < objs.length
  nodup : dead.Nodup
  entries : ∀ i, i < objs.length →
    c.entryAt r.mem i = if i ∈ dead then objs[i]!.entry.invalidate else objs[i]!.entry
  stored : ∀ i, i < objs.length → i ∉ dead → objs[i]!.Stored r.mem
  freeList : Seg (nextPage r.mem) r.freeListAddr (dead.flatMap (pagesAt objs) ++ free) 0
  nPages : r.nRemovedPages = (dead.flatMap (pagesAt objs)).length
  nObjects : r.nRemovedObjects = dead.length
  frame : ∀ x, x < c.objHash ∨ c.objHash + c.cacheSize ≤ x → r.mem x = m x

theorem Removed.start (h : Rep c m objs free) :
    Removed c m objs free [] ⟨m, c.freeListAddr, 0, 0⟩ := by
  refine ⟨by simp, List.nodup_nil, ?_, ?_, h.freeList, rfl, rfl, fun _ _ => rfl⟩
  · intro i hi
    rw [if_neg List.not_mem_nil, h.entryAt hi, getElem!_pos objs i hi]
  · exact fun i hi _ => h.stored _ (getElem!_mem hi)

/-- The free list of the loop is made of pages of the pool. -/
theorem Removed.freeList_subset (h : Rep c m objs free) {dead : List Nat}
    (hb : ∀ i ∈ dead, i < objs.length) :
    ∀ p ∈ dead.flatMap (pagesAt objs) ++ free, p ∈ c.poolPages := by
  intro p hp
  rcases List.mem_append.mp hp with hd | hf
  · obtain ⟨i, hi, hpi⟩ := List.mem_flatMap.mp hd
    exact h.pages_subset (getElem!_mem (hb i hi)) hpi
  · exact h.free_subset hf

/-- A page of an object that is still there is not on it. -/
theorem Removed.not_freed (h : Rep c m objs free) {dead : List Nat}
    (hb : ∀ i ∈ dead, i < objs.length) {id : Nat} (hid : id < objs.length) (hnew : id ∉ dead)
    {q : UInt64} (hq : q ∈ objs[id]!.pages) : q ∉ dead.flatMap (pagesAt objs) ++ free := by
  intro hc
  rcases List.mem_append.mp hc with hd | hf
  · obtain ⟨i, hi, hqi⟩ := List.mem_flatMap.mp hd
    have hib := hb i hi
    have hne : id ≠ i := by rintro rfl; exact hnew hi
    rw [getElem!_pos objs id hid] at hq
    rw [pagesAt, getElem!_pos objs i hib] at hqi
    exact h.pages_ne hid hib hne hq hqi
  · exact h.pages_free (getElem!_mem hid) hq hf

/-- An object has a last page. -/
theorem exists_last_page {o : Obj} (hst : o.Stored m) : ∃ ps q, o.pages = ps ++ [q] ∧
    DuckCache.nPages o.entry.metadata.len - 1 = ps.length := by
  have hpos := nPages_pos o.entry.metadata.len
  rw [← hst.pages] at hpos
  have hlast := (List.dropLast_append_getLast (List.ne_nil_of_length_pos hpos)).symm
  refine ⟨_, _, hlast, ?_⟩
  rw [← hst.pages, List.length_dropLast]

/-- A chain is put in front of another by the link of its last page. -/
theorem seg_splice (hL : Layout c) {a b e : UInt64} {ps fs : List UInt64} {q : UInt64}
    (hs : Seg (nextPage m) a (ps ++ [q]) e) (hsub : ∀ p ∈ ps ++ [q], p ∈ c.poolPages)
    (hnd : (ps ++ [q]).Nodup) (hfree : Seg (nextPage m) b fs 0) (hfsub : ∀ p ∈ fs, p ∈ c.poolPages)
    (hqf : q ∉ fs) : Seg (nextPage (m.write64 q.toNat b)) a (ps ++ [q] ++ fs) 0 := by
  have hq : q ∈ c.poolPages := hsub q (by simp)
  have hkeep : ∀ p ∈ c.poolPages, p ≠ q →
      nextPage (m.write64 q.toNat b) p = nextPage m p := fun p hp hne => by
    have := page_disjoint hL hp hq hne
    exact nextPage_congr fun x hx1 hx2 => Mem.write64_out (by omega)
  refine Seg.append (b := b) (Seg.redirect hs (fun p hp => hkeep p (hsub p (by simp [hp])) ?_)
    (Mem.read64_write64_self _ _ _)) (hfree.congr fun p hp => hkeep p (hfsub p hp) ?_)
  · rintro rfl
    exact List.disjoint_of_nodup_append hnd hp (by simp)
  · rintro rfl
    exact hqf hp

/-- One object goes. -/
theorem Removed.step (h : Rep c m objs free) {dead : List Nat} {r : Removal}
    (hr : Removed c m objs free dead r) {id : Nat} (hid : id < objs.length) (hnew : id ∉ dead) :
    Removed c m objs free (id :: dead) (c.removeObject id r) := by
  have hlen := h.length_objs
  have hcur := h.cur_le
  have hL := h.layout
  obtain ⟨h1, h2, h3, h4, h5, -, -, -⟩ := h.layout
  have hobj : objs[id]! ∈ objs := getElem!_mem hid
  have hst := hr.stored id hid hnew
  have hmeta : c.metadataAt r.mem id = objs[id]!.entry.metadata := by
    have := hr.entries id hid
    rw [if_neg hnew] at this
    exact congrArg Entry.metadata this
  -- the chain of the object, with its last page apart
  obtain ⟨ps, q, hps, hcount⟩ := exists_last_page hst
  obtain ⟨e, hseg⟩ := hst.chain
  rw [hps] at hseg
  have hsub : ∀ p ∈ ps ++ [q], p ∈ c.poolPages := by
    intro p hp
    rw [← hps] at hp
    exact h.pages_subset hobj hp
  have hq : q ∈ c.poolPages := hsub q (by simp)
  -- the write to the table leaves the pool alone
  set m1 := r.mem.set c.objMetadata id
    { objs[id]!.entry.metadata with lastUsedTsc := 0 } with hm1
  have hpool1 : ∀ p ∈ c.poolPages, ∀ x, p.toNat ≤ x → x < p.toNat + 4096 → m1 x = r.mem x := by
    intro p hp x hx1 hx2
    have := page_bounds hL hp
    exact setMetadata_out (by omega) (by omega)
  have hseg1 : Seg (nextPage m1) objs[id]!.entry.metadata.startAddr (ps ++ [q]) e :=
    seg_congr hseg fun p hp => hpool1 p (hsub p hp)
  -- and the new link touches only the last page
  have hlast : ∀ p ∈ c.poolPages, p ≠ q → ∀ x, p.toNat ≤ x → x < p.toNat + 4096 →
      (m1.write64 q.toNat r.freeListAddr) x = r.mem x := by
    intro p hp hne x hx1 hx2
    have := page_disjoint hL hp hq hne
    rw [Mem.write64_out (by omega), hpool1 p hp x hx1 hx2]
  have hremove : c.removeObject id r =
      { mem := m1.write64 q.toNat r.freeListAddr
        freeListAddr := objs[id]!.entry.metadata.startAddr
        nRemovedPages := r.nRemovedPages + DuckCache.nPages objs[id]!.entry.metadata.len
        nRemovedObjects := r.nRemovedObjects + 1 } := by
    unfold removeObject
    rw [hmeta]
    dsimp only
    rw [hcount, (Seg.iterate_last hseg1).1]
  have hqold := Removed.not_freed h hr.bound hid hnew (q := q) (by rw [hps]; simp)
  have holdsub := Removed.freeList_subset h hr.bound
  rw [hremove]
  refine ⟨?_, List.nodup_cons.mpr ⟨hnew, hr.nodup⟩, ?_, ?_, ?_, ?_, ?_, ?_⟩
  · intro i hi
    rcases List.mem_cons.mp hi with rfl | hi
    · exact hid
    · exact hr.bound i hi
  · intro i hi
    have htab : c.entryAt (m1.write64 q.toNat r.freeListAddr) i = c.entryAt m1 i := by
      refine entryAt_congr hL (by omega) fun x hx1 hx2 => Mem.write64_out ?_
      have := page_bounds hL hq
      omega
    rw [htab, hm1, entryAt_setMetadata hL (by omega) (by omega), hr.entries i hi]
    by_cases hii : i = id
    · subst hii
      rw [if_pos rfl, if_neg hnew, if_pos List.mem_cons_self]
      rfl
    · rw [if_neg hii]
      by_cases hd : i ∈ dead
      · rw [if_pos hd, if_pos (List.mem_cons_of_mem _ hd)]
      · rw [if_neg hd, if_neg fun hc => (List.mem_cons.mp hc).elim hii hd]
  · intro i hi hni
    have hii : i ≠ id := fun hc => hni (hc ▸ List.mem_cons_self)
    refine (hr.stored i hi fun hc => hni (List.mem_cons_of_mem _ hc)).congr fun p hp => ?_
    have hpne : p ≠ q := by
      rintro rfl
      have hpid : p ∈ objs[id]!.pages := by rw [hps]; simp
      rw [getElem!_pos objs id hid] at hpid
      rw [getElem!_pos objs i hi] at hp
      exact h.pages_ne hi hid hii hp hpid
    exact hlast p (h.pages_subset (getElem!_mem hi) hp) hpne
  · have hfree1 := seg_congr hr.freeList fun p hp => hpool1 p (holdsub p hp)
    have hnd := h.pages_nodup hobj
    rw [hps] at hnd
    rw [List.flatMap_cons, pagesAt, hps, List.append_assoc]
    exact seg_splice hL hseg1 hsub hnd hfree1 holdsub hqold
  · rw [List.flatMap_cons, List.length_append, hr.nPages, pagesAt, hst.pages, Nat.add_comm]
  · rw [List.length_cons, hr.nObjects]
  · intro x hx
    have := page_bounds hL hq
    dsimp only
    rw [Mem.write64_out (by omega), hm1, setMetadata_out (by omega) (by omega), hr.frame x hx]

/-- With the objects `dead` gone, the new object has its pages and its slot. -/
def Fits (c : DuckCache) (objs : List Obj) (nNeedPages : Nat) (dead : List Nat) : Prop :=
  nNeedPages ≤ c.nFreePages + (dead.flatMap (pagesAt objs)).length ∧
    c.nCurObjects + 1 ≤ c.nMaxObjects + dead.length

theorem Removed.stillNeedRemove {dead : List Nat} {r : Removal}
    (hr : Removed c m objs free dead r) {n : Nat} :
    c.stillNeedRemove n r = false ↔ Fits c objs n dead := by
  rw [Fits, DuckCache.stillNeedRemove, hr.nPages, hr.nObjects]
  simp

/-- The loop removes the shortest nonempty prefix of the ids after which the new object fits,
or all of them. -/
theorem removeLoop_removed (h : Rep c m objs free) (n : Nat) :
    ∀ (ids dead : List Nat) (r : Removal), Removed c m objs free dead r →
      (∀ i ∈ ids, i < objs.length) → ids.Nodup → (∀ i ∈ ids, i ∉ dead) →
      ∃ k, k ≤ ids.length ∧
        Removed c m objs free ((ids.take k).reverse ++ dead) (c.removeLoop n ids r) ∧
        (k < ids.length → Fits c objs n ((ids.take k).reverse ++ dead)) ∧
        (ids ≠ [] → 0 < k) ∧
        ∀ j, 0 < j → j < k → ¬Fits c objs n ((ids.take j).reverse ++ dead) := by
  intro ids
  induction ids with
  | nil =>
      intro dead r hr _ _ _
      exact ⟨0, Nat.le_refl _, by simpa [removeLoop] using hr, by simp, by simp, by omega⟩
  | cons id ids ih =>
      intro dead r hr hb hnd hnew
      rw [List.nodup_cons] at hnd
      have hr1 := hr.step h (hb id (by simp)) (hnew id (by simp))
      rw [removeLoop]
      by_cases hneed : c.stillNeedRemove n (c.removeObject id r) = true
      · rw [if_pos hneed]
        have hnofit : ¬Fits c objs n (id :: dead) := by
          rw [← hr1.stillNeedRemove, hneed]
          exact Bool.noConfusion
        obtain ⟨k, hk, hrem, hfit, -, hmin⟩ :=
          ih (id :: dead) _ hr1 (fun i hi => hb i (by simp [hi]))
          hnd.2 fun i hi => by
            rw [List.mem_cons]
            rintro (rfl | hd)
            · exact hnd.1 hi
            · exact hnew i (by simp [hi]) hd
        refine ⟨k + 1, by simpa using hk, ?_, ?_, fun _ => Nat.succ_pos k, ?_⟩
        · simpa using hrem
        · intro hlt
          simpa using hfit (by simpa using hlt)
        · intro j hj1 hj2
          obtain ⟨j, rfl⟩ : ∃ j', j = j' + 1 := ⟨j - 1, by omega⟩
          by_cases hj0 : j = 0
          · subst hj0
            simpa using hnofit
          · simpa using hmin j (by omega) (by omega)
      · rw [if_neg hneed]
        have hfit := hr1.stillNeedRemove.mp (by simpa using hneed)
        exact ⟨1, by simp, by simpa using hr1, fun _ => by simpa using hfit, by simp, by omega⟩

/-! ### Eviction as a whole -/

/-- The tables of the cache after the loops: the survivors, in order. -/
private theorem survivors_entries (h : Rep c m objs free) {dead : List Nat} {r : Removal}
    (hr : Removed c m objs free dead r) :
    ((List.range' 0 c.nCurObjects).map (c.entryAt r.mem)).filter Entry.valid
      = (survivors objs dead).map Obj.entry := by
  have hlen := h.length_objs
  rw [← hlen, ← List.range_eq_range', List.filter_map, survivors, List.map_map]
  have hfilter : (List.range objs.length).filter (Entry.valid ∘ c.entryAt r.mem)
      = (List.range objs.length).filter (· ∉ dead) := by
    refine List.filter_congr fun i hi => ?_
    have hi' := List.mem_range.mp hi
    rw [Function.comp_apply, hr.entries i hi']
    by_cases hd : i ∈ dead
    · rw [if_pos hd]
      simp [Entry.invalidate, Entry.valid, hd]
    · rw [if_neg hd, (h.stored _ (getElem!_mem hi')).valid]
      simp [hd]
  rw [hfilter]
  refine List.map_congr_left fun i hi => ?_
  obtain ⟨hi1, hi2⟩ := List.mem_filter.mp hi
  rw [hr.entries i (List.mem_range.mp hi1), if_neg (by simpa using hi2)]
  rfl

theorem cmpObjMetadataTime_strictWeak (c : DuckCache) (m : Mem) :
    StrictWeak (c.cmpObjMetadataTime m) where
  asymm i j h := by
    simp only [cmpObjMetadataTime, decide_eq_true_eq, decide_eq_false_iff_not] at h ⊢
    exact UInt64.not_lt.mpr (UInt64.le_of_lt h)
  trans i j k h1 h2 := by
    simp only [cmpObjMetadataTime, decide_eq_false_iff_not, UInt64.not_lt] at h1 h2 ⊢
    exact UInt64.le_trans h1 h2

/-- The time of the last use of the object with this id. -/
def timeAt (objs : List Obj) (i : Nat) : UInt64 := objs[i]!.entry.metadata.lastUsedTsc

/-- What eviction does: the first `k` of the ids `ids`, which are in order of last use, go. -/
structure Evicted (c : DuckCache) (m : Mem) (objs : List Obj) (free : List UInt64) (n : Nat)
    (c' : DuckCache) (m' : Mem) (k : Nat) (ids : List Nat) : Prop where
  perm : ids.Perm (List.range objs.length)
  sorted : ids.Pairwise fun i j => timeAt objs i ≤ timeAt objs j
  rep : Rep c' m' (survivors objs (ids.take k))
    ((ids.take k).reverse.flatMap (pagesAt objs) ++ free)
  room : c'.needRemove n = false
  least : ∀ j, 0 < j → j < k → ¬Fits c objs n (ids.take j)
  static : ∃ nCur nFree addr,
    c' = { c with nCurObjects := nCur, nFreePages := nFree, freeListAddr := addr }
  frame : ∀ x, x < c.objHash ∨ c.objHash + c.cacheSize ≤ x → m' x = m x

theorem mem_take {α : Type} {l : List α} {k : Nat} {a : α} (h : a ∈ l.take k) : a ∈ l :=
  (List.take_sublist k l).subset h

/-- Whether an object fits does not depend on the order in which the others went. -/
theorem fits_reverse {n : Nat} {dead : List Nat} :
    Fits c objs n dead.reverse ↔ Fits c objs n dead := by
  have hl : (dead.reverse.flatMap (pagesAt objs)).length = (dead.flatMap (pagesAt objs)).length :=
    ((List.reverse_perm dead).flatMap_right _).length_eq
  rw [Fits, Fits, hl, List.length_reverse]

theorem survivors_reverse (objs : List Obj) (dead : List Nat) :
    survivors objs dead.reverse = survivors objs dead := by
  simp [survivors]

/-- Removing every object makes any object fit that fits at all. -/
theorem fits_all (h : Rep c m objs free) {n : Nat} (hn : n ≤ c.nTotalPages) {ids : List Nat}
    (hperm : ids.Perm (List.range objs.length)) : Fits c objs n ids := by
  have hnd := hperm.nodup_iff.mpr List.nodup_range
  have hb : ∀ i ∈ ids, i < objs.length := fun i hi => List.mem_range.mp (hperm.subset hi)
  have hempty : survivors objs ids = [] := by
    rw [← List.length_eq_zero_iff, length_survivors hnd hb, hperm.length_eq, List.length_range,
      Nat.sub_self]
  have hp := (pages_perm hnd hb).length_eq
  rw [hempty, List.flatMap_nil, List.nil_append] at hp
  have hpos := h.layout.maxPos
  have hall := h.length_partition
  have hcur := h.length_objs
  refine ⟨?_, ?_⟩
  · rw [hp]
    omega
  · rw [hperm.length_eq, List.length_range]
    omega

/-- The scratch ids change no table and no page. -/
theorem Rep.writeIds_scratch (h : Rep c m objs free) {ids : List Nat}
    (hl : ids.length = c.nCurObjects) (μ : Mem) {x : Nat} (hx : x < c.sortIds ∨ c.pool ≤ x) :
    c.writeIds ids 0 μ x = μ x := by
  have hcur := h.cur_le
  have hpl := h.layout.pool_le
  obtain ⟨-, -, -, h4, h5, -, -, -⟩ := h.layout
  exact writeIds_out (by omega) ids 0 μ (by omega)

/-- The ids in order of last use. -/
theorem Rep.sorted_ids (h : Rep c m objs free) (S : StdSort) :
    (S.sort (c.cmpObjMetadataTime m) (List.range c.nCurObjects)).Perm (List.range objs.length) ∧
      (S.sort (c.cmpObjMetadataTime m) (List.range c.nCurObjects)).Pairwise
        fun i j => timeAt objs i ≤ timeAt objs j := by
  have hperm := S.perm (c.cmpObjMetadataTime m) (List.range c.nCurObjects)
  rw [← h.length_objs] at hperm ⊢
  refine ⟨hperm, ?_⟩
  have hb : ∀ {i}, i ∈ S.sort (c.cmpObjMetadataTime m) (List.range objs.length) → i < objs.length :=
    fun hi => List.mem_range.mp (hperm.subset hi)
  refine (S.sorted _ _ (cmpObjMetadataTime_strictWeak c m)).imp_of_mem fun {i j} hi hj hij => ?_
  simp only [cmpObjMetadataTime, decide_eq_false_iff_not, UInt64.not_lt] at hij
  rw [h.metadataAt (hb hi), h.metadataAt (hb hj)] at hij
  rwa [timeAt, timeAt, getElem!_pos objs i (hb hi), getElem!_pos objs j (hb hj)]

/-- After the defragmentation the survivors are in front, in order, and the chains of the others
are free. -/
theorem Removed.defrag (h : Rep c m objs free) {dead : List Nat} {r : Removal}
    (hr : Removed c m objs free dead r) :
    Rep { c with
          nCurObjects := c.nCurObjects - r.nRemovedObjects
          nFreePages := c.nFreePages + r.nRemovedPages
          freeListAddr := r.freeListAddr }
        (c.defragLoop c.nCurObjects 0 0 r.mem) (survivors objs dead)
        (dead.flatMap (pagesAt objs) ++ free) ∧
      ∀ x, x < c.objHash ∨ c.sortIds ≤ x → c.defragLoop c.nCurObjects 0 0 r.mem x = r.mem x := by
  have hcur := h.cur_le
  have hL := h.layout
  have hpl := hL.pool_le
  have hsurv : (survivors objs dead).length = c.nCurObjects - r.nRemovedObjects := by
    rw [length_survivors hr.nodup hr.bound, h.length_objs, hr.nObjects]
  -- the loop leaves exactly the survivors in the tables
  obtain ⟨l, hl⟩ := defragLoop_entries hL c.nCurObjects 0 0 r.mem (Nat.le_refl 0) (by omega)
  rw [survivors_entries h hr, List.range_zero, List.map_nil, List.nil_append] at hl
  have hll : l = c.nCurObjects - r.nRemovedObjects := by
    have := congrArg List.length hl
    rw [List.length_map, List.length_map, List.length_range, hsurv] at this
    exact this
  have hout : ∀ x, x < c.objHash ∨ c.sortIds ≤ x →
      c.defragLoop c.nCurObjects 0 0 r.mem x = r.mem x := fun x hx =>
    defragLoop_out hL hx c.nCurObjects 0 0 r.mem (Nat.le_refl 0) (by omega)
  set m3 := c.defragLoop c.nCurObjects 0 0 r.mem
  have hpage : ∀ p ∈ c.poolPages, ∀ x, p.toNat ≤ x → x < p.toNat + 4096 → m3 x = r.mem x := by
    intro p hp x hx1 _
    have := page_bounds hL hp
    exact hout x (by omega)
  refine ⟨⟨hL.update _ _ _, ?_, ?_, ?_, ?_, ?_, ?_⟩, hout⟩
  · show c.nCurObjects - r.nRemovedObjects ≤ c.nMaxObjects
    omega
  · show (List.range (c.nCurObjects - r.nRemovedObjects)).map (c.entryAt m3) = _
    rw [← hll]
    exact hl
  · intro o ho
    obtain ⟨i, hi, rfl⟩ := List.mem_map.mp ho
    obtain ⟨hi1, hi2⟩ := List.mem_filter.mp hi
    have hi3 := List.mem_range.mp hi1
    refine (hr.stored i hi3 (by simpa using hi2)).congr fun p hp => hpage p ?_
    exact h.pages_subset (getElem!_mem hi3) hp
  · exact seg_congr hr.freeList fun p hp => hpage p (Removed.freeList_subset h hr.bound p hp)
  · show _ = c.nFreePages + r.nRemovedPages
    rw [List.length_append, h.nFree, ← hr.nPages, Nat.add_comm]
  · have hperm := pages_perm hr.nodup hr.bound
    rw [← List.append_assoc]
    exact (hperm.append_right free).trans h.partition

theorem evict_spec (S : StdSort) (h : Rep c m objs free) {n : Nat} (hn : n ≤ c.nTotalPages) :
    ∃ k ids, Evicted c m objs free n (c.evict S m n).1 (c.evict S m n).2 k ids := by
  have hlen := h.length_objs
  have hcur := h.cur_le
  have hpl := h.layout.pool_le
  obtain ⟨-, -, -, h4, h5, -, -, -⟩ := h.layout
  set m1 := c.writeIds (List.range c.nCurObjects) 0 m with hm1
  have hm1out : ∀ x, (x < c.sortIds ∨ c.pool ≤ x) → m1 x = m x :=
    fun x hx => h.writeIds_scratch List.length_range m hx
  have hrep1 : Rep c m1 objs free :=
    h.congr (fun x _ hx => hm1out x (Or.inl hx)) fun x hx _ => hm1out x (Or.inr hx)
  obtain ⟨hperm, hsorted⟩ := hrep1.sorted_ids S
  set ids := S.sort (c.cmpObjMetadataTime m1) (List.range c.nCurObjects) with hids
  have hlength : ids.length = c.nCurObjects := by rw [hperm.length_eq, List.length_range, hlen]
  have hnd : ids.Nodup := hperm.nodup_iff.mpr List.nodup_range
  have hb : ∀ i ∈ ids, i < objs.length := fun i hi => List.mem_range.mp (hperm.subset hi)
  set m2 := c.writeIds ids 0 m1 with hm2
  have hm2out : ∀ x, (x < c.sortIds ∨ c.pool ≤ x) → m2 x = m x := fun x hx => by
    rw [hm2, h.writeIds_scratch hlength m1 hx, hm1out x hx]
  have hrep2 : Rep c m2 objs free :=
    h.congr (fun x _ hx => hm2out x (Or.inl hx)) fun x hx _ => hm2out x (Or.inr hx)
  obtain ⟨k, hk, hrem, hfit, -, hmin⟩ := removeLoop_removed hrep2 n ids []
    ⟨m2, c.freeListAddr, 0, 0⟩ (Removed.start hrep2) hb hnd (by simp)
  simp only [List.append_nil, fits_reverse] at hrem hfit hmin
  set r := c.removeLoop n ids ⟨m2, c.freeListAddr, 0, 0⟩ with hr
  obtain ⟨hrep3, hm3out⟩ := hrem.defrag hrep2
  rw [survivors_reverse] at hrep3
  set m3 := c.defragLoop c.nCurObjects 0 0 r.mem with hm3
  have hroom : Fits c objs n (ids.take k) := by
    by_cases hlt : k < ids.length
    · exact hfit hlt
    · rw [List.take_of_length_le (by omega)]
      exact fits_all h hn hperm
  have hevict : c.evict S m n =
      ({ c with
         nCurObjects := c.nCurObjects - r.nRemovedObjects
         nFreePages := c.nFreePages + r.nRemovedPages
         freeListAddr := r.freeListAddr }, m3) := rfl
  have hobjects : r.nRemovedObjects = (ids.take k).length := by
    rw [hrem.nObjects, List.length_reverse]
  have hpages : r.nRemovedPages = ((ids.take k).flatMap (pagesAt objs)).length := by
    rw [hrem.nPages]
    exact ((List.reverse_perm _).flatMap_right _).length_eq
  have hkle : (ids.take k).length ≤ c.nCurObjects := by
    rw [List.length_take, hlength]
    omega
  refine ⟨k, ids, hperm, hsorted, ?_, ?_, hmin, ?_, ?_⟩
  · rw [hevict]
    exact hrep3
  · obtain ⟨hr1, hr2⟩ := hroom
    rw [hevict]
    simp only [needRemove, hpages, hobjects, decide_eq_false_iff_not, not_or, Nat.not_lt,
      gt_iff_lt]
    omega
  · exact ⟨_, _, _, by rw [hevict]⟩
  · intro x hx
    rw [hevict]
    show m3 x = m x
    rw [hm3out x (by omega), hrem.frame x hx, hm2out x (by omega)]

end JudgeDuck.DuckCache
