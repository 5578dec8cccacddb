/-
`init` builds an empty cache.

The size check of the source computes the sizes of the tables in 64 bits.
`SizesFit` is that check over the integers; under it the four tables and the page
pool are disjoint, the pool is linked into one free list, and the representation
holds with no object.
-/
import JudgeDuck.Proofs.DuckCache.Rep
import JudgeDuck.Proofs.Rounding

namespace JudgeDuck.DuckCache

open Utils Memory

/-! ### Linking the pages -/

/-- The pages from `cache` on. -/
def pagesFrom (cache n : Nat) : List UInt64 :=
  (List.range n).map fun k => UInt64.ofNat (cache + 4096 * k)

private theorem pagesFrom_succ (cache n : Nat) :
    pagesFrom cache (n + 1) = UInt64.ofNat cache :: pagesFrom (cache + 4096) n := by
  rw [pagesFrom, List.range_succ_eq_map, List.map_cons, List.map_map, pagesFrom]
  refine congrArg₂ _ (by rw [Nat.mul_zero, Nat.add_zero]) (List.map_congr_left fun k _ => ?_)
  simp only [Function.comp_apply, Nat.succ_eq_add_one]
  congr 1
  omega

private theorem toNat_ofNat_lt {a : Nat} (h : a < 2 ^ 64) : (UInt64.ofNat a).toNat = a :=
  UInt64.toNat_ofNat_of_lt' h

/-- The loop links `k + 1` pages into a chain that ends at the null pointer. -/
theorem linkPages_spec : ∀ (k fuel cache cacheEnd : Nat) (m : Mem) (n : Nat), k ≤ fuel →
    cacheEnd = cache + 4096 * k + 4096 → cacheEnd < 2 ^ 64 →
    Seg (nextPage (linkPages fuel cache cacheEnd m n).1) (UInt64.ofNat cache)
      (pagesFrom cache (k + 1)) 0 ∧
    (linkPages fuel cache cacheEnd m n).2 = n + (k + 1) ∧
    ∀ x, x < cache ∨ cacheEnd ≤ x → (linkPages fuel cache cacheEnd m n).1 x = m x := by
  intro k
  induction k with
  | zero =>
      intro fuel cache cacheEnd m n _ hend hb
      have hlast : linkPages fuel cache cacheEnd m n = (m.write64 cache 0, n + 1) := by
        cases fuel with
        | zero => rfl
        | succ fuel => rw [linkPages, if_neg (by omega)]
      rw [hlast]
      refine ⟨?_, rfl, fun x hx => Mem.write64_out (by omega)⟩
      rw [pagesFrom_succ, Seg.cons]
      refine ⟨rfl, ?_⟩
      rw [nextPage, toNat_ofNat_lt (by omega), Mem.read64_write64_self]
      exact Seg.nil.mpr rfl
  | succ k ih =>
      intro fuel cache cacheEnd m n hf hend hb
      obtain ⟨fuel, rfl⟩ : ∃ f, fuel = f + 1 := ⟨fuel - 1, by omega⟩
      rw [linkPages, if_pos (by omega)]
      obtain ⟨hs, hn, hout⟩ := ih fuel (cache + 4096) cacheEnd
        (m.write64 cache (UInt64.ofNat (cache + 4096))) (n + 1) (by omega) (by omega) hb
      set r := linkPages fuel (cache + 4096) cacheEnd
        (m.write64 cache (UInt64.ofNat (cache + 4096))) (n + 1)
      have hnext : nextPage r.1 (UInt64.ofNat cache) = UInt64.ofNat (cache + 4096) := by
        have hkeep : r.1.read64 cache
            = (m.write64 cache (UInt64.ofNat (cache + 4096))).read64 cache :=
          Mem.read64_congr fun x _ _ => hout x (by omega)
        rw [nextPage, toNat_ofNat_lt (by omega), hkeep, Mem.read64_write64_self]
      refine ⟨?_, by omega, fun x hx => ?_⟩
      · rw [pagesFrom_succ, Seg.cons, hnext]
        exact ⟨rfl, hs⟩
      · rw [hout x (by omega), Mem.write64_out (by omega)]

/-! ### The sizes -/

/-- The pages of a table of `n` records of `s` bytes, in bytes. -/
def tableBytes (s n : Nat) : Nat := (n * s + 4095) / 4096 * 4096

/-- The four tables together. -/
def tablesBytes (n : Nat) : Nat :=
  tableBytes 8 n + tableBytes 32 n + tableBytes 24 n + tableBytes 8 n

/-- The size check of `init` over the integers, and a rounding of the block that is exact. -/
structure SizesFit (nMaxObjects cacheSize : UInt64) : Prop where
  objects : 1 ≤ nMaxObjects.toNat
  aligned : cacheSize.toNat % 4096 = 0
  check : tablesBytes nMaxObjects.toNat + 4096 < cacheSize.toNat
  block : cacheSize.toNat + 2097152 ≤ 2 ^ 64

theorem le_tableBytes (s n : Nat) : s * n ≤ tableBytes s n := by
  rw [Nat.mul_comm, tableBytes]
  omega

private theorem roundUp_table (n size : UInt64) {s : Nat} (hs : size.toNat = s)
    (h : tableBytes s n.toNat + 4096 < 2 ^ 64) :
    (roundUp (n * size) pageSize).toNat = tableBytes s n.toNat := by
  have hle := le_tableBytes s n.toNat
  have hmul : (n * size).toNat = n.toNat * s := by
    rw [UInt64.toNat_mul, hs, Nat.mod_eq_of_lt (by rw [Nat.mul_comm]; omega)]
  rw [roundUp_toNat (by decide) (by rw [hmul, toNat_pageSize, Nat.mul_comm]; omega), hmul,
    toNat_pageSize, tableBytes]

/-- What a successful `init` leaves. -/
structure Initialised (nMaxObjects cacheSize : UInt64) (m : Mem) (vaddrBreak : UInt64)
    (c : DuckCache) (m' : Mem) (vaddrBreak' : UInt64) : Prop where
  rep : Rep c m' [] c.poolPages
  maxObjects : c.nMaxObjects = nMaxObjects.toNat
  size : c.cacheSize = cacheSize.toNat
  start : c.objHash = vaddrBreak'.toNat
  low : kernelBreak.toNat ≤ c.objHash
  high : c.objHash + c.cacheSize ≤ vaddrBreak.toNat
  pages : c.nTotalPages = (cacheSize.toNat - tablesBytes nMaxObjects.toNat) / 4096
  frame : ∀ x, x < c.objHash ∨ c.objHash + c.cacheSize ≤ x → m' x = m x

/-- The new `vaddr_break` is the start of the block. -/
theorem init_allocates {nMaxObjects cacheSize vaddrBreak vaddrBreak' : UInt64} {m m' : Mem}
    {c : DuckCache} (h : init nMaxObjects cacheSize m vaddrBreak = .ok (c, m', vaddrBreak')) :
    allocateVirtualMemory vaddrBreak cacheSize = some vaddrBreak' := by
  rw [init] at h
  cases ha : allocateVirtualMemory vaddrBreak cacheSize with
  | none =>
      rw [ha] at h
      cases h
  | some a =>
      rw [ha, Option.elim_some, initBlock] at h
      dsimp only at h
      split at h
      · cases h
      · rw [Except.ok.injEq, Prod.mk.injEq, Prod.mk.injEq] at h
        rw [h.2.2]

/-- The tables and the pages, one behind the other. -/
structure Starts (nMaxObjects objHash objDigest objMetadata sortIds cache : UInt64) : Prop where
  digest : objDigest.toNat = objHash.toNat + tableBytes 8 nMaxObjects.toNat
  metadata : objMetadata.toNat = objDigest.toNat + tableBytes 32 nMaxObjects.toNat
  ids : sortIds.toNat = objMetadata.toNat + tableBytes 24 nMaxObjects.toNat
  pages : cache.toNat = sortIds.toNat + tableBytes 8 nMaxObjects.toNat

/-- No sum of the source wraps. -/
theorem SizesFit.starts {nMaxObjects cacheSize a : UInt64} (hfit : SizesFit nMaxObjects cacheSize)
    (hend : a.toNat + cacheSize.toNat < 2 ^ 64) :
    Starts nMaxObjects a (a + roundUp (nMaxObjects * 8) pageSize)
      (a + roundUp (nMaxObjects * 8) pageSize + roundUp (nMaxObjects * 32) pageSize)
      (a + roundUp (nMaxObjects * 8) pageSize + roundUp (nMaxObjects * 32) pageSize
        + roundUp (nMaxObjects * 24) pageSize)
      (a + roundUp (nMaxObjects * 8) pageSize + roundUp (nMaxObjects * 32) pageSize
        + roundUp (nMaxObjects * 24) pageSize + roundUp (nMaxObjects * 8) pageSize) := by
  have hcheck := hfit.check
  unfold tablesBytes at hcheck
  have h8 := roundUp_table nMaxObjects 8 (s := 8) rfl (by omega)
  have h32 := roundUp_table nMaxObjects 32 (s := 32) rfl (by omega)
  have h24 := roundUp_table nMaxObjects 24 (s := 24) rfl (by omega)
  have hD := toNat_add_of_lt (a := a) (b := roundUp (nMaxObjects * 8) pageSize) (by omega)
  set objDigest := a + roundUp (nMaxObjects * 8) pageSize
  have hM := toNat_add_of_lt (a := objDigest) (b := roundUp (nMaxObjects * 32) pageSize) (by omega)
  set objMetadata := objDigest + roundUp (nMaxObjects * 32) pageSize
  have hI := toNat_add_of_lt (a := objMetadata) (b := roundUp (nMaxObjects * 24) pageSize)
    (by omega)
  set sortIds := objMetadata + roundUp (nMaxObjects * 24) pageSize
  have hC := toNat_add_of_lt (a := sortIds) (b := roundUp (nMaxObjects * 8) pageSize) (by omega)
  exact ⟨hD.trans (by rw [h8]), hM.trans (by rw [h32]), hI.trans (by rw [h24]),
    hC.trans (by rw [h8])⟩

/-- The layout of the cache with `k + 1` pages behind these tables. -/
theorem Starts.layout {nMaxObjects objHash objDigest objMetadata sortIds cache : UInt64}
    (h : Starts nMaxObjects objHash objDigest objMetadata sortIds cache)
    (hobj : 1 ≤ nMaxObjects.toNat) {k : Nat} (hk : 1 ≤ k) {c : DuckCache}
    (hend : objHash.toNat + c.cacheSize < 2 ^ 64)
    (hpages : objHash.toNat + c.cacheSize = cache.toNat + 4096 * (k + 1))
    (hobjects : c.nMaxObjects = nMaxObjects.toNat) (htotal : c.nTotalPages = k + 1)
    (htables : c.objHash = objHash.toNat ∧ c.objDigest = objDigest.toNat ∧
      c.objMetadata = objMetadata.toNat ∧ c.sortIds = sortIds.toNat) :
    c.pool = cache.toNat ∧ Layout c := by
  obtain ⟨hH, hD, hM, hI⟩ := htables
  have hdigest := h.digest
  have hmetadata := h.metadata
  have hids := h.ids
  have hcache := h.pages
  have l8 := le_tableBytes 8 nMaxObjects.toNat
  have l32 := le_tableBytes 32 nMaxObjects.toNat
  have l24 := le_tableBytes 24 nMaxObjects.toNat
  have hpool : c.pool = cache.toNat := by
    rw [pool]
    omega
  refine ⟨hpool, ?_, ?_, ?_, ?_, ?_, ?_, ?_, ?_⟩ <;> omega

theorem initBlock_spec {nMaxObjects cacheSize a : UInt64} (hfit : SizesFit nMaxObjects cacheSize)
    {vaddrBreak : UInt64} (hlow : kernelBreak.toNat ≤ a.toNat)
    (hhigh : a.toNat + cacheSize.toNat ≤ vaddrBreak.toNat) {m m' : Mem} {c : DuckCache}
    {vaddrBreak' : UInt64} (h : initBlock nMaxObjects cacheSize m a = .ok (c, m', vaddrBreak')) :
    Initialised nMaxObjects cacheSize m vaddrBreak c m' vaddrBreak' := by
  have htop := vaddrBreak.toNat_lt
  have hend : a.toNat + cacheSize.toNat < 2 ^ 64 := by omega
  have hS := hfit.starts hend
  obtain ⟨hobj, halign, hcheck, hblock⟩ := hfit
  rw [tablesBytes] at hcheck
  rw [initBlock] at h
  set objDigest := a + roundUp (nMaxObjects * 8) pageSize
  set objMetadata := objDigest + roundUp (nMaxObjects * 32) pageSize
  set sortIds := objMetadata + roundUp (nMaxObjects * 24) pageSize
  set cache := sortIds + roundUp (nMaxObjects * 8) pageSize
  have hE := toNat_add_of_lt (a := a) (b := cacheSize) hend
  set cacheEnd := a + cacheSize
  obtain ⟨hD, hM, hI, hC⟩ := id hS
  have hpage : (cache + pageSize).toNat = cache.toNat + 4096 :=
    toNat_add_of_lt (by rw [toNat_pageSize]; omega)
  by_cases hsmall : cache + pageSize ≥ cacheEnd
  · rw [if_pos hsmall] at h
    cases h
  · rw [if_neg hsmall, Except.ok.injEq, Prod.mk.injEq, Prod.mk.injEq] at h
    obtain ⟨rfl, rfl, rfl⟩ := h
    have hK : (cacheEnd - cache).toNat = cacheEnd.toNat - cache.toNat :=
      UInt64.toNat_sub_of_le _ _ (by rw [UInt64.le_iff_toNat_le]; omega)
    have hmod : (cacheEnd.toNat - cache.toNat) % 4096 = 0 := by
      unfold tableBytes at *
      omega
    -- the pool has `k + 1` pages, with `k` at least one
    obtain ⟨k, hk⟩ : ∃ k, cacheEnd.toNat = cache.toNat + 4096 * k + 4096 :=
      ⟨(cacheEnd.toNat - cache.toNat) / 4096 - 1, by
        rw [ge_iff_le, UInt64.le_iff_toNat_le] at hsmall
        omega⟩
    obtain ⟨hs, hn, hout⟩ := linkPages_spec k ((cacheEnd - cache).toNat / 4096) cache.toNat
      cacheEnd.toNat m 0 (by omega) hk cacheEnd.toNat_lt
    set r := linkPages ((cacheEnd - cache).toNat / 4096) cache.toNat cacheEnd.toNat m 0
    set c : DuckCache :=
      { cacheSize := cacheSize.toNat
        nMaxObjects := nMaxObjects.toNat
        nCurObjects := 0
        freeListAddr := cache
        nFreePages := r.2
        nTotalPages := r.2
        objHash := a.toNat
        objDigest := objDigest.toNat
        objMetadata := objMetadata.toNat
        sortIds := sortIds.toNat } with hc
    have htotal : c.nTotalPages = k + 1 := by
      show r.2 = k + 1
      omega
    have hone : 1 ≤ k := by
      rw [ge_iff_le, UInt64.le_iff_toNat_le] at hsmall
      omega
    have hblockEnd : a.toNat + cacheSize.toNat = cache.toNat + 4096 * (k + 1) := by omega
    obtain ⟨hpool, hL⟩ := hS.layout (c := c) hobj hone hend hblockEnd rfl htotal
      ⟨rfl, rfl, rfl, rfl⟩
    have hpages : pagesFrom cache.toNat (k + 1) = c.poolPages := by
      rw [pagesFrom, poolPages, hpool, htotal]
    refine ⟨⟨hL, Nat.zero_le _, rfl, by simp, ?_, ?_, ?_⟩, rfl, rfl, rfl, hlow, hhigh, ?_, ?_⟩
    · rw [← hpages]
      rw [UInt64.ofNat_toNat] at hs
      exact hs
    · rw [length_poolPages]
    · simp
    · rw [htotal, tablesBytes]
      omega
    · intro x hx
      refine hout x ?_
      rcases hx with hx | hx
      · have : x < a.toNat := hx
        omega
      · have : a.toNat + cacheSize.toNat ≤ x := hx
        omega

theorem init_spec {nMaxObjects cacheSize : UInt64} (hfit : SizesFit nMaxObjects cacheSize)
    {vaddrBreak : UInt64} (hbreak : kernelBreak ≤ vaddrBreak) {m m' : Mem} {c : DuckCache}
    {vaddrBreak' : UInt64}
    (h : init nMaxObjects cacheSize m vaddrBreak = .ok (c, m', vaddrBreak')) :
    Initialised nMaxObjects cacheSize m vaddrBreak c m' vaddrBreak' := by
  rw [init] at h
  cases ha : allocateVirtualMemory vaddrBreak cacheSize with
  | none =>
      rw [ha] at h
      cases h
  | some a =>
      rw [ha, Option.elim_some] at h
      obtain ⟨hlow, hhigh⟩ := allocateVirtualMemory_bounds hfit.block hbreak ha
      exact initBlock_spec hfit hlow hhigh h

/-- The check passes for such a block. -/
theorem initBlock_ok {nMaxObjects cacheSize a : UInt64} (hfit : SizesFit nMaxObjects cacheSize)
    (hend : a.toNat + cacheSize.toNat < 2 ^ 64) (m : Mem) :
    ∃ c m', initBlock nMaxObjects cacheSize m a = .ok (c, m', a) := by
  obtain ⟨hD, hM, hI, hC⟩ := hfit.starts hend
  have hcheck := hfit.check
  rw [tablesBytes] at hcheck
  have hE := toNat_add_of_lt (a := a) (b := cacheSize) hend
  rw [initBlock]
  dsimp only
  set cache := a + roundUp (nMaxObjects * 8) pageSize + roundUp (nMaxObjects * 32) pageSize
      + roundUp (nMaxObjects * 24) pageSize + roundUp (nMaxObjects * 8) pageSize
  have hpage : (cache + pageSize).toNat = cache.toNat + 4096 :=
    toNat_add_of_lt (by rw [toNat_pageSize]; omega)
  rw [if_neg]
  · exact ⟨_, _, rfl⟩
  · rw [ge_iff_le, UInt64.le_iff_toNat_le]
    omega

/-- `init` succeeds whenever there is room for the block. -/
theorem init_ok {nMaxObjects cacheSize vaddrBreak a : UInt64}
    (hfit : SizesFit nMaxObjects cacheSize) (hbreak : kernelBreak ≤ vaddrBreak)
    (ha : allocateVirtualMemory vaddrBreak cacheSize = some a) (m : Mem) :
    ∃ c m', init nMaxObjects cacheSize m vaddrBreak = .ok (c, m', a) := by
  have hhigh := (allocateVirtualMemory_bounds hfit.block hbreak ha).2
  have htop := vaddrBreak.toNat_lt
  rw [init, ha, Option.elim_some]
  exact initBlock_ok hfit (by omega) m

end JudgeDuck.DuckCache
