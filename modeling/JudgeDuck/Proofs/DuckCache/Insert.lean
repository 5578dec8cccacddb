/-
Inserting a new object keeps the representation.

The chain of the new object is the front of the free list, exactly as many pages
as its length needs; the copy loop fills it and stops where the rest of the free
list begins.  A length of 0 still takes one page, which the source skips by hand
after the loop.
-/
import JudgeDuck.Proofs.DuckCache.Rep

namespace JudgeDuck.DuckCache

variable {c : DuckCache} {m : Mem} {objs : List Obj} {free : List UInt64}

/-! ### Filling the chain -/

/-- The chain after the copy, and where the free list goes on. -/
def fillChain (m : Mem) (addr : UInt64) (src : Nat) (len : UInt64) : Mem × UInt64 :=
  let r := copyIn m addr src len.toNat
  (r.1, if len = 0 then nextPage r.1 r.2 else r.2)

theorem filledPages_eq {len : UInt64} (hsmall : len.toNat + 4087 < 2 ^ 64) (h0 : len ≠ 0) :
    filledPages len.toNat = nPages len := by
  have hpos : len.toNat ≠ 0 := fun hc => h0 (UInt64.toNat.inj hc)
  rw [nPages_eq hsmall, filledPages]
  omega

theorem fillChain_frame (hL : Layout c) {ps : List UInt64} {addr e : UInt64} (src : Nat)
    {len : UInt64} (hsmall : len.toNat + 4087 < 2 ^ 64) (hs : Seg (nextPage m) addr ps e)
    (hlen : ps.length = nPages len) (hsub : ps ⊆ c.poolPages) (hnd : ps.Nodup) :
    (fillChain m addr src len).2 = e ∧
    ∀ x, (∀ p ∈ ps, x < p.toNat + 8 ∨ p.toNat + 4096 ≤ x) →
      (fillChain m addr src len).1 x = m x := by
  by_cases h0 : len = 0
  · -- one page, and nothing to copy
    subst h0
    obtain ⟨p, rfl⟩ := List.length_eq_one_iff.mp (hlen.trans nPages_zero)
    obtain ⟨rfl, hnext⟩ := hs
    have hz : copyIn m addr src (0 : UInt64).toNat = (m, addr) := copyIn_zero m addr src
    rw [fillChain, hz]
    exact ⟨by rw [if_pos rfl]; exact hnext, fun _ _ => rfl⟩
  · obtain ⟨hend, hout⟩ := copyIn_frame hL ps m addr e src len.toNat hs
      (hlen.trans (filledPages_eq hsmall h0).symm) hsub hnd
    rw [fillChain]
    exact ⟨by rw [if_neg h0]; exact hend, hout⟩

theorem fillChain_contents (hL : Layout c) {ps : List UInt64} {addr e : UInt64} {src : Nat}
    {len : UInt64} (hsmall : len.toNat + 4087 < 2 ^ 64) (hs : Seg (nextPage m) addr ps e)
    (hlen : ps.length = nPages len) (hsub : ps ⊆ c.poolPages) (hnd : ps.Nodup)
    (hsrc : ∀ p ∈ ps, src + len.toNat ≤ p.toNat ∨ p.toNat + 4096 ≤ src) :
    contents (fillChain m addr src len).1 ps len.toNat = m.bytes src len.toNat := by
  by_cases h0 : len = 0
  · subst h0
    simp [Mem.bytes]
  · exact copyIn_contents hL ps m addr e src len.toNat hs
      (hlen.trans (filledPages_eq hsmall h0).symm) hsub hnd hsrc

/-! ### What the fill leaves alone -/

section
variable {m' : Mem} {ps : List UInt64}

theorem filled_link (hL : Layout c) (hsub : ps ⊆ c.poolPages)
    (hout : ∀ x, (∀ p ∈ ps, x < p.toNat + 8 ∨ p.toNat + 4096 ≤ x) → m' x = m x) {p : UInt64}
    (hp : p ∈ c.poolPages) : nextPage m' p = nextPage m p := by
  refine nextPage_congr fun x hx1 hx2 => hout x fun q hq => ?_
  by_cases hpq : p = q
  · subst hpq
    omega
  · have := page_disjoint hL hp (hsub hq) hpq
    omega

theorem filled_other (hL : Layout c) (hsub : ps ⊆ c.poolPages)
    (hout : ∀ x, (∀ p ∈ ps, x < p.toNat + 8 ∨ p.toNat + 4096 ≤ x) → m' x = m x) {p : UInt64}
    (hp : p ∈ c.poolPages) (hnp : p ∉ ps) {x : Nat} (hx1 : p.toNat ≤ x)
    (hx2 : x < p.toNat + 4096) : m' x = m x := by
  refine hout x fun q hq => ?_
  have := page_disjoint hL hp (hsub hq) (by rintro rfl; exact hnp hq)
  omega

theorem filled_out (hL : Layout c) (hsub : ps ⊆ c.poolPages)
    (hout : ∀ x, (∀ p ∈ ps, x < p.toNat + 8 ∨ p.toNat + 4096 ≤ x) → m' x = m x) {x : Nat}
    (hx : x < c.pool ∨ c.objHash + c.cacheSize ≤ x) : m' x = m x := by
  have hend := hL.pages
  refine hout x fun q hq => ?_
  have := page_bounds hL (hsub hq)
  omega

end

/-! ### The new object -/

/-- What `insert` puts at `idx`, when the chain is filled in the memory `m`. -/
def newObj (c : DuckCache) (m : Mem) (free : List UInt64) (digest : Digest256)
    (len tsc : UInt64) : Obj where
  entry := ⟨digest.a0, digest, ⟨tsc, c.freeListAddr, len⟩⟩
  pages := free.take (nPages len)
  data := contents m (free.take (nPages len)) len.toNat

/-- What an insertion does. -/
structure Inserted (c : DuckCache) (m : Mem) (objs : List Obj) (free : List UInt64) (idx : Nat)
    (digest : Digest256) (src : Nat) (len tsc : UInt64) (c' : DuckCache) (m' : Mem) : Prop where
  rep : Rep c' m' (objs.insertIdx idx (newObj c m' free digest len tsc)) (free.drop (nPages len))
  data : (src + len.toNat ≤ c.objHash ∨ c.objHash + c.cacheSize ≤ src) →
    (newObj c m' free digest len tsc).data = m.bytes src len.toNat
  static : ∃ nCur nFree addr,
    c' = { c with nCurObjects := nCur, nFreePages := nFree, freeListAddr := addr }
  frame : ∀ x, x < c.objHash ∨ c.objHash + c.cacheSize ≤ x → m' x = m x

/-- The pages of the new object come from the free list, and no page is lost. -/
theorem insert_partition (h : Rep c m objs free) {idx n : Nat} (hidx : idx ≤ objs.length) {o : Obj}
    (ho : o.pages = free.take n) :
    ((objs.insertIdx idx o).flatMap Obj.pages ++ free.drop n).Perm c.poolPages := by
  have hflat := (List.perm_insertIdx o objs hidx).flatMap_right Obj.pages
  rw [List.flatMap_cons, ho] at hflat
  refine (hflat.append_right _).trans (List.Perm.trans ?_ h.partition)
  have hsplit : (objs.flatMap Obj.pages ++ free).Perm
      (objs.flatMap Obj.pages ++ (free.take n ++ free.drop n)) := by rw [List.take_append_drop]
  refine List.Perm.trans ?_ hsplit.symm
  rw [← List.append_assoc]
  exact List.perm_append_comm.append_right _

theorem insert_spec (h : Rep c m objs free) {idx : Nat} (hidx : idx ≤ objs.length)
    {digest : Digest256} {src : Nat} {len tsc : UInt64} (hroom : c.needRemove (nPages len) = false)
    (hsmall : len.toNat + 4087 < 2 ^ 64) (htsc : tsc ≠ 0) :
    ∃ c' m', c.insert m idx digest src len tsc = some (c', m') ∧
      Inserted c m objs free idx digest src len tsc c' m' := by
  have hlen := h.length_objs
  have hL := h.layout
  have hpl := hL.pool_le
  have hend := hL.pages
  have hidx' : idx ≤ c.nCurObjects := hlen ▸ hidx
  obtain ⟨hpages, hslot⟩ : nPages len ≤ free.length ∧ c.nCurObjects < c.nMaxObjects := by
    simp only [needRemove, decide_eq_false_iff_not, not_or, Nat.not_lt, gt_iff_lt] at hroom
    have := h.nFree
    omega
  set e : Entry := ⟨digest.a0, digest, ⟨tsc, c.freeListAddr, len⟩⟩ with he
  set m1 := c.insertEntry m idx e with hm1
  have hm1out : ∀ x, x < c.objHash ∨ c.sortIds ≤ x → m1 x = m x := fun x hx =>
    insertEntry_out hL hslot hidx' hx
  have hpage1 : ∀ p ∈ c.poolPages, ∀ x, p.toNat ≤ x → x < p.toNat + 4096 → m1 x = m x := by
    intro p hp x hx1 _
    have := page_bounds hL hp
    exact hm1out x (by omega)
  -- the front of the free list and the rest of it
  set ps := free.take (nPages len) with hps
  have hsplit : free = ps ++ free.drop (nPages len) := (List.take_append_drop _ free).symm
  have hpsub : ps ⊆ c.poolPages := fun p hp => h.free_subset ((List.take_sublist _ free).subset hp)
  have hrsub : ∀ p ∈ free.drop (nPages len), p ∈ c.poolPages := fun p hp =>
    h.free_subset ((List.drop_sublist _ free).subset hp)
  have hfree1 : Seg (nextPage m1) c.freeListAddr (ps ++ free.drop (nPages len)) 0 := by
    rw [← hsplit]
    exact seg_congr h.freeList fun p hp => hpage1 p (h.free_subset hp)
  obtain ⟨b, hseg, hrest⟩ := Seg.split hfree1
  have hpslen : ps.length = nPages len := List.length_take_of_le hpages
  have hnd : (ps ++ free.drop (nPages len)).Nodup := by
    rw [← hsplit]
    exact h.free_nodup
  have hpnd : ps.Nodup := List.Nodup.of_append_left hnd
  obtain ⟨hfend, hfout⟩ := fillChain_frame hL src hsmall hseg hpslen hpsub hpnd
  set m2 := (fillChain m1 c.freeListAddr src len).1 with hm2
  -- the fill changes contents of the chain only: no table, no link, no other page
  have hlink : ∀ p ∈ c.poolPages, nextPage m2 p = nextPage m1 p := fun p hp =>
    filled_link hL hpsub hfout hp
  have hother : ∀ p ∈ c.poolPages, p ∉ ps → ∀ x, p.toNat ≤ x → x < p.toNat + 4096 →
      m2 x = m x := fun p hp hnp x hx1 hx2 => by
    rw [filled_other hL hpsub hfout hp hnp hx1 hx2, hpage1 p hp x hx1 hx2]
  have hm2out : ∀ x, x < c.pool ∨ c.objHash + c.cacheSize ≤ x → m2 x = m1 x := fun x hx =>
    filled_out hL hpsub hfout hx
  have hinsert : c.insert m idx digest src len tsc = some
      ({ c with
         nCurObjects := c.nCurObjects + 1
         nFreePages := c.nFreePages - nPages len
         freeListAddr := b }, m2) := by
    unfold insert
    dsimp only
    rw [not_endless hsmall, if_neg Bool.false_ne_true, ← hfend]
    rfl
  refine ⟨_, _, hinsert, ⟨?_, ?_, ?_, ?_, ?_, ?_, ?_⟩, ?_, ⟨_, _, _, rfl⟩, ?_⟩
  · exact hL.update _ _ _
  · show c.nCurObjects + 1 ≤ c.nMaxObjects
    omega
  · have htab : (List.range (c.nCurObjects + 1)).map (c.entryAt m2)
        = (List.range (c.nCurObjects + 1)).map (c.entryAt m1) := by
      refine List.map_congr_left fun i hi => entryAt_congr hL ?_ fun x _ hx => hm2out x (by omega)
      have := List.mem_range.mp hi
      omega
    show (List.range (c.nCurObjects + 1)).map (c.entryAt m2) = _
    rw [htab, hm1, entries_insertEntry hL hslot hidx', h.entries, List.map_insertIdx]
    rfl
  · intro o ho
    rcases (List.mem_insertIdx hidx).mp ho with rfl | ho
    · refine ⟨⟨b, ?_⟩, hpslen, hsmall, rfl, by simp [newObj, Entry.valid, htsc]⟩
      exact hseg.congr fun p hp => hlink p (hpsub hp)
    · refine (h.stored o ho).congr fun p hp => hother p (h.pages_subset ho hp) ?_
      intro hpp
      exact h.pages_free ho hp ((List.take_sublist _ free).subset hpp)
  · show Seg (nextPage m2) b (free.drop (nPages len)) 0
    exact hrest.congr fun p hp => hlink p (hrsub p hp)
  · show (free.drop (nPages len)).length = c.nFreePages - nPages len
    rw [List.length_drop, h.nFree]
  · exact insert_partition (o := newObj c m2 free digest len tsc) h hidx rfl
  · intro hsrc
    have hbytes : m1.bytes src len.toNat = m.bytes src len.toNat :=
      Mem.bytes_congr fun x hx1 hx2 => hm1out x (by omega)
    rw [← hbytes]
    refine fillChain_contents hL hsmall hseg hpslen hpsub hpnd fun p hp => ?_
    have := page_bounds hL (hpsub hp)
    omega
  · intro x hx
    rw [hm2out x (by omega), hm1out x (by omega)]

end JudgeDuck.DuckCache
