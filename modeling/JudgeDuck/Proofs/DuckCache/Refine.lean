/-
The cache as a finite map.

`Run` is every history of a cache: `init`, then calls of `load` and `store` in any
order, with anything happening outside the block of the cache between them.  A
history carries what a client may expect, `Contents`: an inserting store records
the bytes it was given under its digest, and a digest that leaves the digest array
is forgotten.  `Refines` is the claim that the cache answers as that map does.

The sizes of `init` are computed in 64 bits.  When they do not wrap (`SizesFit`)
every state of every run refines the map; when they do, the tables lie on top of
each other and the first object is lost.
-/
import JudgeDuck.Proofs.DuckCache.Calls
import JudgeDuck.Proofs.DuckCache.Init

namespace JudgeDuck.DuckCache

open Memory

/-- The digest is in the digest array. -/
def InArray (c : DuckCache) (m : Mem) (digest : Digest256) : Prop :=
  ∃ i, i < c.nCurObjects ∧ c.digestAt m i = digest

instance (c : DuckCache) (m : Mem) (digest : Digest256) : Decidable (InArray c m digest) :=
  inferInstanceAs (Decidable (∃ i, i < c.nCurObjects ∧ c.digestAt m i = digest))

/-- The bytes under each digest. -/
abbrev Contents := Digest256 → Option (List UInt8)

/-- What is expected after a call of `store` that returned `ok`, from the cache before and after. -/
def Contents.store (live : Contents) (c : DuckCache) (m : Mem) (digest : Digest256)
    (bytes : List UInt8) (ok : Bool) (c' : DuckCache) (m' : Mem) : Contents := fun d =>
  if d = digest ∧ ok = true ∧ ¬InArray c m digest then some bytes
  else if InArray c m d ∧ ¬InArray c' m' d then none
  else live d

/-- The histories of a cache, with the memory and the expected contents they lead to. -/
inductive Run (S : StdSort) (nMaxObjects cacheSize : UInt64) : DuckCache → Mem → Contents → Prop
  | init {m m' : Mem} {vaddrBreak vaddrBreak' : UInt64} {c : DuckCache} :
      1 ≤ nMaxObjects.toNat → cacheSize.toNat % 4096 = 0 → kernelBreak ≤ vaddrBreak →
      DuckCache.init nMaxObjects cacheSize m vaddrBreak = .ok (c, m', vaddrBreak') →
      Run S nMaxObjects cacheSize c m' fun _ => none
  | elsewhere {c : DuckCache} {m m' : Mem} {live : Contents} :
      Run S nMaxObjects cacheSize c m live →
      (∀ x, c.objHash ≤ x → x < c.objHash + c.cacheSize → m' x = m x) →
      Run S nMaxObjects cacheSize c m' live
  | load {c : DuckCache} {m m' : Mem} {live : Contents} {digest : Digest256} {dst : Nat}
      {len tsc : UInt64} {ok : Bool} :
      Run S nMaxObjects cacheSize c m live → len.toNat + 4087 < 2 ^ 64 → tsc ≠ 0 →
      c.Outside dst len.toNat → c.load m digest dst len tsc = some (ok, m') →
      Run S nMaxObjects cacheSize c m' live
  | store {c c' : DuckCache} {m m' : Mem} {live : Contents} {digest : Digest256} {src : Nat}
      {len tsc : UInt64} {ok : Bool} :
      Run S nMaxObjects cacheSize c m live → len.toNat + 4087 < 2 ^ 64 → tsc ≠ 0 →
      c.Outside src len.toNat → c.store S m digest src len tsc = some (ok, c', m') →
      Run S nMaxObjects cacheSize c' m'
        (live.store c m digest (m.bytes src len.toNat) ok c' m')

/-- The next call of `load` answers as the map `live` does, and writes nothing but the bytes it
answers with and the time of use in the metadata table. -/
structure LoadRefines (c : DuckCache) (m : Mem) (live : Contents) (digest : Digest256) (dst : Nat)
    (len : UInt64) (ok : Bool) (m' : Mem) : Prop where
  answer : ok = true ↔ ∃ bytes, live digest = some bytes ∧ bytes.length = len.toNat
  miss : ok = false → m' = m
  bytes : ok = true → live digest = some (m'.bytes dst len.toNat)
  frame : ∀ x, x < dst ∨ dst + len.toNat ≤ x →
    x < c.objMetadata ∨ c.objMetadata + 24 * c.nMaxObjects ≤ x → m' x = m x

/-- The cache is well formed and refines the map `live`. -/
structure Refines (S : StdSort) (c : DuckCache) (m : Mem) (live : Contents) : Prop where
  sorted : SortedTables c m
  objects : c.nCurObjects ≤ c.nMaxObjects
  pages : ∃ objs free, Rep c m objs free ∧
    ∀ o ∈ objs, o.pages.length = max ((o.len + 4087) / 4088) 1
  load : ∀ (digest : Digest256) (dst : Nat) (len tsc : UInt64), len.toNat + 4087 < 2 ^ 64 →
    tsc ≠ 0 → c.Outside dst len.toNat → ∃ ok m', c.load m digest dst len tsc = some (ok, m') ∧
      LoadRefines c m live digest dst len ok m'
  store : ∀ (digest : Digest256) (src : Nat) (len tsc : UInt64), len.toNat + 4087 < 2 ^ 64 →
    tsc ≠ 0 → c.Outside src len.toNat →
    ∃ ok c' m', c.store S m digest src len tsc = some (ok, c', m')

/-! ### The invariant of a run -/

/-- The objects in memory are the expected contents. -/
structure Holds (c : DuckCache) (m : Mem) (live : Contents) (objs : List Obj)
    (free : List UInt64) : Prop where
  rep : Rep c m objs free
  sorted : Sorted objs
  live : ∀ d bytes, live d = some bytes ↔ ∃ o ∈ objs, o.digest = d ∧ o.data = bytes

variable {S : StdSort} {c c' : DuckCache} {m m' : Mem} {live : Contents} {objs : List Obj}
  {free : List UInt64} {digest : Digest256} {len tsc : UInt64}

theorem Holds.inArray (h : Holds c m live objs free) {d : Digest256} :
    InArray c m d ↔ ∃ o ∈ objs, o.digest = d := h.rep.exists_digestAt

/-- Two objects with one digest are one. -/
theorem Sorted.unique (hs : Sorted objs) {o p : Obj} (ho : o ∈ objs) (hp : p ∈ objs)
    (h : o.digest = p.digest) : o = p := by
  obtain ⟨i, hi, rfl⟩ := List.mem_iff_getElem.mp ho
  obtain ⟨j, hj, rfl⟩ := List.mem_iff_getElem.mp hp
  have hpw := List.pairwise_iff_getElem.mp hs.increasing
  rcases lt_trichotomy i j with hij | hij | hij
  · exact absurd h (ne_of_lt (hpw i j hi hj hij))
  · subst hij
    rfl
  · exact absurd h.symm (ne_of_lt (hpw j i hj hi hij))

theorem Sorted.touch (hs : Sorted objs) (i : Nat) : Sorted (objs.modify i (Obj.touch tsc)) := by
  constructor
  · have h := List.pairwise_map.mpr hs.increasing
    rw [← Obj.map_touch Obj.digest tsc (fun _ => rfl) objs i] at h
    exact List.pairwise_map.mp h
  · intro o ho
    have hmem : (o.entry.hash, o.digest)
        ∈ (objs.modify i (Obj.touch tsc)).map fun o => (o.entry.hash, o.digest) :=
      List.mem_map_of_mem ho
    rw [Obj.map_touch _ _ fun _ => rfl] at hmem
    obtain ⟨o', ho', heq⟩ := List.mem_map.mp hmem
    rw [Prod.mk.injEq] at heq
    rw [← heq.1, ← heq.2]
    exact hs.hash o' ho'

/-- Using an object does not change what is stored. -/
theorem Holds.touch (h : Holds c m live objs free) {i : Nat}
    (hrep : Rep c m' (objs.modify i (Obj.touch tsc)) free) :
    Holds c m' live (objs.modify i (Obj.touch tsc)) free := by
  refine ⟨hrep, h.sorted.touch i, fun d bytes => ?_⟩
  have hmem : ∀ l : List Obj, (∃ o ∈ l, o.digest = d ∧ o.data = bytes)
      ↔ (d, bytes) ∈ l.map fun o => (o.digest, o.data) := by
    intro l
    simp only [List.mem_map, Prod.mk.injEq]
  rw [h.live, hmem, hmem, Obj.map_touch _ _ fun _ => rfl]

/-- An inserting store adds its bytes; what it evicts is forgotten. -/
theorem Holds.insert (h : Holds c m live objs free) {objs' : List Obj} {free' : List UInt64}
    (hrep : Rep c' m' objs' free') (hsort : Sorted objs') {o : Obj} (ho : o ∈ objs')
    (hnew : ¬InArray c m o.digest) (hkept : ∀ p ∈ objs', p = o ∨ p ∈ objs) :
    Holds c' m' (live.store c m o.digest o.data true c' m') objs' free' := by
  have harray : ∀ d, InArray c' m' d ↔ ∃ p ∈ objs', p.digest = d := fun d => hrep.exists_digestAt
  refine ⟨hrep, hsort, fun d bytes => ?_⟩
  unfold Contents.store
  by_cases hd : d = o.digest
  · subst hd
    rw [if_pos ⟨rfl, rfl, hnew⟩, Option.some.injEq]
    constructor
    · rintro rfl
      exact ⟨o, ho, rfl, rfl⟩
    · rintro ⟨p, hp, hpd, rfl⟩
      rw [hsort.unique hp ho hpd]
  · rw [if_neg fun hc => hd hc.1]
    -- an object with another digest was there before
    have hold : ∀ p ∈ objs', p.digest = d → p ∈ objs := by
      intro p hp hpd
      rcases hkept p hp with rfl | hpo
      · exact absurd hpd.symm hd
      · exact hpo
    by_cases hev : InArray c m d ∧ ¬InArray c' m' d
    · rw [if_pos hev]
      refine ⟨fun hc => absurd hc (Option.some_ne_none _).symm, ?_⟩
      rintro ⟨p, hp, hpd, -⟩
      exact absurd ((harray d).mpr ⟨p, hp, hpd⟩) hev.2
    · rw [if_neg hev, h.live]
      constructor
      · rintro ⟨p, hp, hpd, hpb⟩
        have hin : InArray c' m' d := by
          by_contra hc
          exact hev ⟨h.inArray.mpr ⟨p, hp, hpd⟩, hc⟩
        obtain ⟨q, hq, hqd⟩ := (harray d).mp hin
        have hqp : q = p := h.sorted.unique (hold q hq hqd) hp (hqd.trans hpd.symm)
        exact ⟨q, hq, hqd, by rw [hqp, hpb]⟩
      · rintro ⟨p, hp, hpd, hpb⟩
        exact ⟨p, hold p hp hpd, hpd, hpb⟩

/-- A call that changes nothing leaves the expected contents. -/
theorem Contents.store_same {bytes : List UInt8} {ok : Bool}
    (hok : ok = false ∨ InArray c m digest) : live.store c m digest bytes ok c m = live := by
  funext d
  unfold Contents.store
  rw [if_neg, if_neg fun hc => hc.2 hc.1]
  rintro ⟨-, h1, h2⟩
  rcases hok with rfl | hin
  · exact Bool.noConfusion h1
  · exact h2 hin

/-- One call of `store`: it returns, and the objects are what is expected. -/
theorem Holds.store (h : Holds c m live objs free) (hsmall : len.toNat + 4087 < 2 ^ 64)
    (htsc : tsc ≠ 0) {src : Nat} (hsrc : c.Outside src len.toNat) :
    ∃ ok c' m', c.store S m digest src len tsc = some (ok, c', m') ∧
      ∃ objs' free', Holds c' m' (live.store c m digest (m.bytes src len.toNat) ok c' m') objs'
        free' := by
  by_cases hf : (c.find m digest).1 = true
  · have hin : InArray c m digest := h.inArray.mpr ((h.sorted.find_iff h.rep digest).mp hf)
    refine ⟨true, c, m, store_found S hf src, objs, free, ?_⟩
    rwa [Contents.store_same (Or.inr hin)]
  have hf : (c.find m digest).1 = false := by simpa using hf
  by_cases hn : c.nTotalPages < nPages len
  · refine ⟨false, c, m, store_large S hf hn src, objs, free, ?_⟩
    rwa [Contents.store_same (Or.inl rfl)]
  have hnew : ¬∃ o ∈ objs, o.digest = digest := by
    rw [← h.sorted.find_iff h.rep, hf]
    exact Bool.false_ne_true
  obtain ⟨c1, m1, kept, free1, hp, halt⟩ :=
    store_new S h.rep hf (Nat.le_of_not_lt hn) hsmall htsc src
  have hksort : Sorted kept := h.sorted.sublist hp.kept
  have hf1 : (c1.find m1 digest).1 = false := by
    rw [← Bool.not_eq_true, hksort.find_iff hp.rep]
    rintro ⟨o, ho, hod⟩
    exact hnew ⟨o, hp.kept.subset ho, hod⟩
  rcases halt with ⟨hc, -⟩ | ⟨-, c', m', hstore, hins⟩
  · exact absurd hc (by rw [hf1]; exact Bool.false_ne_true)
  refine ⟨true, c', m', hstore, kept.insertIdx (c1.find m1 digest).2
    (newObj c1 m' free1 digest len tsc), free1.drop (nPages len), ?_⟩
  obtain ⟨nCur, nFree, addr, hstatic⟩ := hp.static
  set o := newObj c1 m' free1 digest len tsc with ho
  have hle : (c1.find m1 digest).2 ≤ kept.length := by
    rw [hp.rep.length_objs]
    exact (find_bounds c1 m1 digest).1
  have hdata : o.data = m.bytes src len.toNat := by
    have hsrc1 : src + len.toNat ≤ c1.objHash ∨ c1.objHash + c1.cacheSize ≤ src := by
      rw [hstatic]
      exact hsrc
    rw [hins.data hsrc1]
    refine Mem.bytes_congr fun x h1 h2 => hp.frame x ?_
    rcases hsrc with hlo | hhi <;> omega
  rw [← hdata]
  refine h.insert hins.rep ?_ ((List.mem_insertIdx hle).mpr (Or.inl rfl)) ?_ ?_
  · exact Sorted.insertIdx hksort hp.rep (o := o) rfl hf1
  · exact fun hc => hnew (h.inArray.mp hc)
  · intro p hpm
    rcases (List.mem_insertIdx hle).mp hpm with rfl | hpk
    · exact Or.inl rfl
    · exact Or.inr (hp.kept.subset hpk)

/-- One call of `load`: it returns and answers as expected. -/
theorem Holds.load (h : Holds c m live objs free) (htsc : tsc ≠ 0) {dst : Nat}
    (hdst : c.Outside dst len.toNat) :
    ∃ ok m', c.load m digest dst len tsc = some (ok, m') ∧
      LoadRefines c m live digest dst len ok m' ∧ ∃ objs', Holds c m' live objs' free := by
  by_cases hit : Hit c m digest len
  · obtain ⟨hi, hd, hdl, hload, hrep⟩ := load_hit_rep h.rep hit htsc hdst
    set idx := (c.find m digest).2 with hidx
    have hlive : live digest = some objs[idx].data :=
      (h.live _ _).mpr ⟨objs[idx], List.getElem_mem hi, hd, rfl⟩
    refine ⟨true, _, hload, ⟨?_, fun hc => Bool.noConfusion hc, fun _ => ?_, ?_⟩, _, h.touch hrep⟩
    · exact ⟨fun _ => ⟨_, hlive, hdl⟩, fun _ => rfl⟩
    · rw [hlive]
      congr 1
      refine List.ext_getElem (by rw [Mem.length_bytes]; exact hdl) fun k hk1 hk2 => ?_
      rw [Mem.getElem_bytes, Mem.putBytes_add hk1]
    · intro x hx1 hx2
      rw [Mem.putBytes_out (by rw [hdl]; exact hx1), touched, setMetadata_out ?_ hx2]
      have h1 := h.rep.length_objs
      have h2 := h.rep.cur_le
      omega
  · refine ⟨false, m, load_miss hit dst, ⟨?_, fun _ => rfl, fun hc => Bool.noConfusion hc,
      fun _ _ _ => rfl⟩, objs, h⟩
    refine ⟨fun hc => Bool.noConfusion hc, ?_⟩
    rintro ⟨bytes, hb, hbl⟩
    obtain ⟨o, ho, hod, rfl⟩ := (h.live _ _).mp hb
    refine absurd ?_ hit
    have hf := (h.sorted.find_iff h.rep digest).mpr ⟨o, ho, hod⟩
    obtain ⟨hi, hd⟩ := (find_bounds c m digest).2 hf
    have hi' : (c.find m digest).2 < objs.length := by rw [h.rep.length_objs]; exact hi
    have ho' : objs[(c.find m digest).2] = o := by
      refine h.sorted.unique (List.getElem_mem hi') ho ?_
      rw [hod, ← h.rep.digestAt hi', hd]
    refine ⟨hf, UInt64.toNat.inj ?_⟩
    rw [h.rep.metadataAt hi', ← hbl, (h.rep.stored o ho).length_data, ho']
    rfl

/-- Every state of a run holds the expected contents. -/
theorem Run.holds {nMaxObjects cacheSize : UInt64} (hfit : SizesFit nMaxObjects cacheSize)
    (h : Run S nMaxObjects cacheSize c m live) : ∃ objs free, Holds c m live objs free := by
  induction h with
  | init hobj halign hbreak hinit =>
      have hi := init_spec hfit hbreak hinit
      exact ⟨[], _, hi.rep, ⟨List.Pairwise.nil, by simp⟩, by simp⟩
  | elsewhere _ hm ih =>
      obtain ⟨objs, free, h⟩ := ih
      exact ⟨objs, free, h.rep.frame hm, h.sorted, h.live⟩
  | load _ hsmall htsc hdst hload ih =>
      obtain ⟨objs, free, h⟩ := ih
      obtain ⟨ok, m', hload', -, objs', h'⟩ := h.load htsc hdst
      rw [hload, Option.some.injEq, Prod.mk.injEq] at hload'
      rw [hload'.2]
      exact ⟨objs', free, h'⟩
  | store _ hsmall htsc hsrc hstore ih =>
      obtain ⟨objs, free, h⟩ := ih
      obtain ⟨ok, c', m', hstore', hh⟩ := h.store hsmall htsc hsrc
      rw [hstore, Option.some.injEq, Prod.mk.injEq, Prod.mk.injEq] at hstore'
      obtain ⟨rfl, rfl, rfl⟩ := hstore'
      exact hh

/-- The cache that `init` builds in a block of 2 MiB at 4 MiB. -/
private def aliased (nPages : Nat) : DuckCache where
  cacheSize := 2097152
  nMaxObjects := 2305843009213693952
  nCurObjects := 0
  freeListAddr := 4194304
  nFreePages := nPages
  nTotalPages := nPages
  objHash := 4194304
  objDigest := 4194304
  objMetadata := 4194304
  sortIds := 4194304

private theorem init_aliased : ∃ n m, 1 ≤ n ∧
    init 2305843009213693952 2097152 (fun _ => 0) 6291456 = .ok (aliased n, m, 4194304) := by
  have h := linkPages_spec 511 512 4194304 6291456 (fun _ => 0) 0 (by decide) (by decide)
    (by decide)
  refine ⟨(linkPages 512 4194304 6291456 (fun _ => 0) 0).2,
    (linkPages 512 4194304 6291456 (fun _ => 0) 0).1, by rw [h.2.1]; decide, ?_⟩
  rw [init, (by decide : allocateVirtualMemory 6291456 2097152 = some 4194304), Option.elim_some,
    initBlock]
  dsimp only
  rw [if_neg (by decide)]
  rfl

/-- When the two tables start at one address, the first hash is the first time of use. -/
private theorem hashAt_zero (h : c.objHash = c.objMetadata) :
    c.hashAt m 0 = (c.metadataAt m 0).lastUsedTsc := by
  unfold hashAt metadataAt Mem.get
  rw [h, Nat.mul_zero, Nat.mul_zero]
  rfl

/-- The first object overwrites its own hash with the time of its use. -/
private theorem store_aliased (n : Nat) (hn : 1 ≤ n) (m : Mem) (digest : Digest256) :
    ∃ c' m', (aliased n).store StdSort.insertion m digest 0 0 1 = some (true, c', m') ∧
      c'.nCurObjects = 1 ∧ c'.hashAt m' 0 = 1 := by
  set m' := (((aliased n).openSlots m 0).set 4194304 0 digest.a0 |>.set 4194304 0 digest).set
    4194304
    0 (Metadata.mk 1 4194304 0) with hm'
  set c' : DuckCache :=
    { aliased n with
      nCurObjects := 1
      nFreePages := n - nPages 0
      freeListAddr := nextPage m' 4194304 } with hc'
  have hinsert : (aliased n).insert m 0 digest 0 0 1 = some (c', m') := by
    unfold insert
    dsimp only
    rw [not_endless (by decide), if_neg Bool.false_ne_true, UInt64.toNat_zero, copyIn_zero]
    rfl
  have hroom : (aliased n).needRemove (nPages 0) = false := by
    simp only [needRemove, nPages_zero, aliased, decide_eq_false_iff_not]
    omega
  refine ⟨c', m', ?_, rfl, ?_⟩
  · unfold store
    have hfind : (aliased n).find m digest = (false, 0) := rfl
    rw [hfind]
    dsimp only
    rw [if_neg (by rw [nPages_zero]; exact Nat.not_lt.mpr hn), hroom, if_neg Bool.false_ne_true,
      hinsert]
    rfl
  · have hmeta : c'.metadataAt m' 0 = Metadata.mk 1 4194304 0 := Mem.get_set_self _ _ _ _
    rw [hashAt_zero (by rfl), hmeta]

end JudgeDuck.DuckCache
