/-
The representation invariant of a cache.

`Rep c m objs free` says that the memory `m` holds, in the block of the cache `c`,
the objects `objs` in table order and the free list `free`: each object is a chain
of exactly as many pages as its length needs, the free list ends at the null
pointer, and the chains together with the free list are all the pages of the pool,
each once.  It says nothing about the digests; that they are sorted is `Sorted`, a
property of the objects alone.

The invariant reads the tables and the pool and nothing else, so every write
outside the block keeps it (`Rep.congr`).
-/
import JudgeDuck.Proofs.DuckCache.Pages

namespace JudgeDuck

/-- A cached object: its table entry, its chain of pages and the bytes they hold. -/
structure Obj where
  entry : DuckCache.Entry
  pages : List UInt64
  data : List UInt8

instance : Inhabited Obj := ⟨⟨⟨0, ⟨0, 0, 0, 0⟩, ⟨0, 0, 0⟩⟩, [], []⟩⟩

namespace Obj

def digest (o : Obj) : Digest256 := o.entry.digest

def len (o : Obj) : Nat := o.entry.metadata.len.toNat

/-- The object lies in memory. -/
structure Stored (m : Mem) (o : Obj) : Prop where
  chain : ∃ e, Seg (DuckCache.nextPage m) o.entry.metadata.startAddr o.pages e
  pages : o.pages.length = DuckCache.nPages o.entry.metadata.len
  small : o.len + 4087 < 2 ^ 64
  data : DuckCache.contents m o.pages o.len = o.data
  valid : o.entry.valid = true

theorem Stored.congr {m m' : Mem} {o : Obj} (h : o.Stored m)
    (hm : ∀ p ∈ o.pages, ∀ x, p.toNat ≤ x → x < p.toNat + 4096 → m' x = m x) : o.Stored m' := by
  obtain ⟨e, he⟩ := h.chain
  refine ⟨⟨e, DuckCache.seg_congr he hm⟩, h.pages, h.small, ?_, h.valid⟩
  rw [DuckCache.contents_congr o.pages o.len fun p hp x h1 h2 => hm p hp x (by omega) h2]
  exact h.data

/-- The chain has room for the data. -/
theorem Stored.len_le {m : Mem} {o : Obj} (h : o.Stored m) : o.len ≤ 4088 * o.pages.length := by
  rw [h.pages]
  exact DuckCache.le_nPages h.small

theorem Stored.length_data {m : Mem} {o : Obj} (h : o.Stored m) : o.data.length = o.len := by
  rw [← h.data, DuckCache.length_contents m o.pages o.len h.len_le]

/-- The object after a use at time `tsc`. -/
def touch (tsc : UInt64) (o : Obj) : Obj :=
  { o with entry := { o.entry with metadata := { o.entry.metadata with lastUsedTsc := tsc } } }

theorem Stored.touch {m : Mem} {o : Obj} {tsc : UInt64} (h : o.Stored m) (htsc : tsc ≠ 0) :
    (o.touch tsc).Stored m :=
  ⟨h.chain, h.pages, h.small, h.data, by simp [DuckCache.Entry.valid, Obj.touch, htsc]⟩

/-- Using an object changes the time of its last use and nothing else. -/
theorem map_touch {β : Type} (f : Obj → β) (tsc : UInt64) (hf : ∀ o : Obj, f (o.touch tsc) = f o)
    (objs : List Obj) (i : Nat) : (objs.modify i (Obj.touch tsc)).map f = objs.map f := by
  refine List.ext_getElem (by simp) fun k hk1 hk2 => ?_
  rw [List.getElem_map, List.getElem_map, List.getElem_modify]
  split
  · exact hf _
  · rfl

end Obj

namespace DuckCache

structure Rep (c : DuckCache) (m : Mem) (objs : List Obj) (free : List UInt64) : Prop where
  layout : Layout c
  cur_le : c.nCurObjects ≤ c.nMaxObjects
  entries : c.entries m = objs.map Obj.entry
  stored : ∀ o ∈ objs, o.Stored m
  freeList : Seg (nextPage m) c.freeListAddr free 0
  nFree : free.length = c.nFreePages
  partition : (objs.flatMap Obj.pages ++ free).Perm c.poolPages

variable {c : DuckCache} {m m' : Mem} {objs : List Obj} {free : List UInt64}

namespace Rep

theorem length_objs (h : Rep c m objs free) : objs.length = c.nCurObjects := by
  have := congrArg List.length h.entries
  rw [length_entries, List.length_map] at this
  exact this.symm

theorem entryAt (h : Rep c m objs free) {i : Nat} (hi : i < objs.length) :
    c.entryAt m i = objs[i].entry := by
  have hi' : i < (c.entries m).length := by rw [length_entries, ← h.length_objs]; exact hi
  have h1 : (c.entries m)[i]? = (objs.map Obj.entry)[i]? := by rw [h.entries]
  rw [List.getElem?_eq_getElem hi', getElem_entries, List.getElem?_map,
    List.getElem?_eq_getElem hi] at h1
  exact Option.some.inj h1

theorem metadataAt (h : Rep c m objs free) {i : Nat} (hi : i < objs.length) :
    c.metadataAt m i = objs[i].entry.metadata := congrArg Entry.metadata (h.entryAt hi)

theorem nodup (h : Rep c m objs free) : (objs.flatMap Obj.pages ++ free).Nodup :=
  h.partition.nodup_iff.mpr (nodup_poolPages h.layout)

theorem pages_subset (h : Rep c m objs free) {o : Obj} (ho : o ∈ objs) : o.pages ⊆ c.poolPages := by
  intro p hp
  exact h.partition.subset (List.mem_append_left _ (List.mem_flatMap.mpr ⟨o, ho, hp⟩))

theorem free_subset (h : Rep c m objs free) : free ⊆ c.poolPages := fun _ hp =>
  h.partition.subset (List.mem_append_right _ hp)

/-- No page is both in use and free. -/
theorem pages_free (h : Rep c m objs free) {o : Obj} (ho : o ∈ objs) {p : UInt64}
    (hp : p ∈ o.pages) : p ∉ free := fun hf =>
  List.disjoint_of_nodup_append h.nodup (List.mem_flatMap.mpr ⟨o, ho, hp⟩) hf

/-- No page is in two chains. -/
theorem pages_ne (h : Rep c m objs free) {i j : Nat} (hi : i < objs.length) (hj : j < objs.length)
    (hij : i ≠ j) {p : UInt64} (hp : p ∈ objs[i].pages) : p ∉ objs[j].pages := by
  have hpw := List.pairwise_iff_getElem.mp
    (List.nodup_flatMap.mp (List.Nodup.of_append_left h.nodup)).2
  rcases Nat.lt_or_gt_of_ne hij with hlt | hgt
  · exact fun hq => hpw i j hi hj hlt hp hq
  · exact fun hq => hpw j i hj hi hgt hq hp

theorem pages_nodup (h : Rep c m objs free) {o : Obj} (ho : o ∈ objs) : o.pages.Nodup :=
  (List.nodup_flatMap.mp (List.Nodup.of_append_left h.nodup)).1 o ho

theorem free_nodup (h : Rep c m objs free) : free.Nodup := List.Nodup.of_append_right h.nodup

/-- The pages in use and the free pages are all the pages. -/
theorem length_partition (h : Rep c m objs free) :
    (objs.flatMap Obj.pages).length + c.nFreePages = c.nTotalPages := by
  have := h.partition.length_eq
  rwa [List.length_append, length_poolPages, h.nFree] at this

/-- The invariant is about the tables and the pool. -/
theorem congr (h : Rep c m objs free)
    (htab : ∀ x, c.objHash ≤ x → x < c.sortIds → m' x = m x)
    (hpool : ∀ x, c.pool ≤ x → x < c.objHash + c.cacheSize → m' x = m x) :
    Rep c m' objs free := by
  have hpage : ∀ p ∈ c.poolPages, ∀ x, p.toNat ≤ x → x < p.toNat + 4096 → m' x = m x := by
    intro p hp x h1 h2
    have := page_bounds h.layout hp
    exact hpool x (by omega) (by omega)
  refine ⟨h.layout, h.cur_le, ?_, ?_, ?_, h.nFree, h.partition⟩
  · rw [entries_congr h.layout h.cur_le htab, h.entries]
  · exact fun o ho => (h.stored o ho).congr fun p hp => hpage p (h.pages_subset ho hp)
  · exact seg_congr h.freeList fun p hp => hpage p (h.free_subset hp)

/-- What happens outside the block of the cache does not matter. -/
theorem frame (h : Rep c m objs free)
    (hm : ∀ x, c.objHash ≤ x → x < c.objHash + c.cacheSize → m' x = m x) :
    Rep c m' objs free := by
  have hp := h.layout.pool_le
  have he := h.layout.pages
  exact h.congr (fun x h1 h2 => hm x h1 (by omega)) fun x h1 h2 => hm x (by omega) h2

end Rep

/-! ### Using an object -/

/-- The time of the last use of an object may change to any nonzero value. -/
theorem Rep.touch (h : Rep c m objs free) {i : Nat} (hi : i < objs.length) {tsc : UInt64}
    (htsc : tsc ≠ 0) :
    Rep c (m.set c.objMetadata i { c.metadataAt m i with lastUsedTsc := tsc })
      (objs.modify i (Obj.touch tsc)) free := by
  have hlen := h.length_objs
  have hcur := h.cur_le
  obtain ⟨h1, h2, h3, h4, h5, -, -, -⟩ := h.layout
  have hout : ∀ p ∈ c.poolPages, ∀ x, p.toNat ≤ x → x < p.toNat + 4096 →
      m.set c.objMetadata i { c.metadataAt m i with lastUsedTsc := tsc } x = m x := by
    intro p hp x hx1 hx2
    have := page_bounds h.layout hp
    exact setMetadata_out (by omega) (by omega)
  have hpages : (objs.modify i (Obj.touch tsc)).map Obj.pages = objs.map Obj.pages :=
    Obj.map_touch Obj.pages tsc (fun _ => rfl) objs i
  refine ⟨h.layout, hcur, ?_, ?_, ?_, h.nFree, ?_⟩
  · refine List.ext_getElem (by simp [hlen]) fun k hk1 hk2 => ?_
    rw [length_entries] at hk1
    rw [getElem_entries, List.getElem_map, List.getElem_modify,
      entryAt_setMetadata h.layout (by omega) (by omega), h.entryAt (by omega),
      h.metadataAt (by omega)]
    by_cases hki : k = i
    · subst hki
      rw [if_pos rfl, if_pos rfl]
      rfl
    · rw [if_neg hki, if_neg fun hc => hki hc.symm]
  · intro o ho
    obtain ⟨k, hk, rfl⟩ := List.mem_iff_getElem.mp ho
    have hk' : k < objs.length := by simpa using hk
    have hkm : objs[k] ∈ objs := List.getElem_mem hk'
    have hs := (h.stored _ hkm).congr fun p hp => hout p (h.pages_subset hkm hp)
    rw [List.getElem_modify]
    split
    · exact hs.touch htsc
    · exact hs
  · exact seg_congr h.freeList fun p hp => hout p (h.free_subset hp)
  · rw [List.flatMap_def, hpages, ← List.flatMap_def]
    exact h.partition

end DuckCache

end JudgeDuck
