/-
Pages, chains of pages and the copies between a chain and a flat range.

The pool is `n_total_pages` pages one after the other, so two different pages do
not overlap, and the link word of a page is apart from its 4088 bytes of content.
`contents` is what a chain of pages holds.  `copyOut` puts the contents of a chain
at its destination and nothing else; `copyIn` fills a chain and leaves every link
as it was, so the chain that was filled is still a chain.
-/
import JudgeDuck.Base.Chain
import JudgeDuck.Proofs.DuckCache.Tables

namespace JudgeDuck.DuckCache

variable {c : DuckCache} {m m' : Mem}

/-! ### The pages of the pool -/

def poolPages (c : DuckCache) : List UInt64 :=
  (List.range c.nTotalPages).map fun k => UInt64.ofNat (c.pool + 4096 * k)

@[simp] theorem length_poolPages (c : DuckCache) : c.poolPages.length = c.nTotalPages := by
  simp [poolPages]

theorem toNat_page (hL : Layout c) {k : Nat} (hk : k < c.nTotalPages) :
    (UInt64.ofNat (c.pool + 4096 * k)).toNat = c.pool + 4096 * k := by
  have h1 := hL.pages
  have h2 := hL.bound
  exact UInt64.toNat_ofNat_of_lt' (by simp only [UInt64.size]; omega)

theorem exists_of_mem_poolPages (hL : Layout c) {p : UInt64} (hp : p ∈ c.poolPages) :
    ∃ k, k < c.nTotalPages ∧ p.toNat = c.pool + 4096 * k := by
  obtain ⟨k, hk, rfl⟩ := List.mem_map.mp hp
  have hk' := List.mem_range.mp hk
  exact ⟨k, hk', toNat_page hL hk'⟩

theorem nodup_poolPages (hL : Layout c) : c.poolPages.Nodup := by
  refine List.Nodup.map_on ?_ List.nodup_range
  intro j hj k hk heq
  have h := congrArg UInt64.toNat heq
  rw [toNat_page hL (List.mem_range.mp hj), toNat_page hL (List.mem_range.mp hk)] at h
  omega

/-- A page lies inside the pool. -/
theorem page_bounds (hL : Layout c) {p : UInt64} (hp : p ∈ c.poolPages) :
    c.pool ≤ p.toNat ∧ p.toNat + 4096 ≤ c.objHash + c.cacheSize := by
  obtain ⟨k, hk, hpk⟩ := exists_of_mem_poolPages hL hp
  have := hL.pages
  omega

/-- Two different pages do not overlap. -/
theorem page_disjoint (hL : Layout c) {p q : UInt64} (hp : p ∈ c.poolPages)
    (hq : q ∈ c.poolPages) (hne : p ≠ q) :
    p.toNat + 4096 ≤ q.toNat ∨ q.toNat + 4096 ≤ p.toNat := by
  obtain ⟨j, _, hpj⟩ := exists_of_mem_poolPages hL hp
  obtain ⟨k, _, hqk⟩ := exists_of_mem_poolPages hL hq
  have hjk : j ≠ k := by
    intro hjk
    exact hne (UInt64.toNat.inj (by rw [hpj, hqk, hjk]))
  omega

/-- The pool lies behind the tables and the ids. -/
theorem Layout.pool_le (hL : Layout c) : c.objHash ≤ c.objDigest ∧ c.objDigest ≤ c.objMetadata ∧
    c.objMetadata ≤ c.sortIds ∧ c.sortIds ≤ c.pool := by
  obtain ⟨h1, h2, h3, h4, -, -, -, -⟩ := hL
  omega

/-! ### Links -/

theorem nextPage_congr {p : UInt64} (h : ∀ x, p.toNat ≤ x → x < p.toNat + 8 → m' x = m x) :
    nextPage m' p = nextPage m p := Mem.read64_congr h

/-- A chain of pages is kept when its pages keep their bytes. -/
theorem seg_congr {ps : List UInt64} {a e : UInt64} (hs : Seg (nextPage m) a ps e)
    (h : ∀ p ∈ ps, ∀ x, p.toNat ≤ x → x < p.toNat + 4096 → m' x = m x) :
    Seg (nextPage m') a ps e :=
  hs.congr fun p hp => nextPage_congr fun x h1 h2 => h p hp x h1 (by omega)

/-! ### The contents of a chain -/

/-- The first `n` bytes of content: 4088 of every page but the last. -/
def contents (m : Mem) : List UInt64 → Nat → List UInt8
  | [], _ => []
  | p :: ps, n => m.bytes (p.toNat + 8) (min n 4088) ++ contents m ps (n - 4088)

@[simp] theorem contents_zero (m : Mem) (ps : List UInt64) : contents m ps 0 = [] := by
  induction ps with
  | nil => rfl
  | cons p ps ih => simp [contents, ih, Mem.bytes]

theorem length_contents (m : Mem) : ∀ (ps : List UInt64) (n : Nat), n ≤ 4088 * ps.length →
    (contents m ps n).length = n := by
  intro ps
  induction ps with
  | nil => intro n hn; simp at hn; simp [hn]
  | cons p ps ih =>
      intro n hn
      rw [List.length_cons] at hn
      rw [contents, List.length_append, Mem.length_bytes, ih _ (by omega)]
      omega

theorem contents_congr : ∀ (ps : List UInt64) (n : Nat),
    (∀ p ∈ ps, ∀ x, p.toNat + 8 ≤ x → x < p.toNat + 4096 → m' x = m x) →
    contents m' ps n = contents m ps n := by
  intro ps
  induction ps with
  | nil => intro n _; rfl
  | cons p ps ih =>
      intro n h
      rw [contents, contents, ih _ fun q hq => h q (by simp [hq])]
      congr 1
      exact Mem.bytes_congr fun x h1 h2 => h p (by simp) x h1 (by omega)

/-! ### The number of pages -/

theorem toNat_onePageContentSize : onePageContentSize.toNat = 4088 := rfl

theorem nPages_eq {len : UInt64} (h : len.toNat + 4087 < 2 ^ 64) :
    nPages len = max ((len.toNat + 4087) / 4088) 1 := by
  have hlen : (len + onePageContentSize - 1).toNat = len.toNat + 4087 := by
    rw [UInt64.toNat_sub, UInt64.toNat_add, toNat_onePageContentSize, UInt64.toNat_one]
    omega
  rw [nPages, UInt64.toNat_div, hlen, toNat_onePageContentSize]

theorem nPages_zero : nPages 0 = 1 := by decide

theorem nPages_pos (len : UInt64) : 1 ≤ nPages len := Nat.le_max_right _ _

theorem not_endless {len : UInt64} (h : len.toNat + 4087 < 2 ^ 64) : endless len = false := by
  simp only [endless, decide_eq_false_iff_not]
  omega

/-- The pages of an object have room for its bytes. -/
theorem le_nPages {len : UInt64} (h : len.toNat + 4087 < 2 ^ 64) :
    len.toNat ≤ 4088 * nPages len := by
  rw [nPages_eq h]
  omega

/-! ### Copying out -/

@[simp] theorem copyOut_zero (m : Mem) (addr : UInt64) (dst : Nat) : copyOut m addr dst 0 = m := by
  rw [copyOut, if_pos rfl]

theorem copyOut_step {m : Mem} {addr : UInt64} {dst rem : Nat} (h : rem ≠ 0) :
    copyOut m addr dst rem
      = copyOut (m.memcpy dst (addr.toNat + 8) (min rem 4088))
          (nextPage (m.memcpy dst (addr.toNat + 8) (min rem 4088)) addr) (dst + 4088)
          (rem - 4088) := by
  rw [copyOut, if_neg h]

/-- The contents of a chain arrive at the destination, if it does not overlap the chain. -/
theorem copyOut_eq : ∀ (ps : List UInt64) (m : Mem) (addr e : UInt64) (dst rem : Nat),
    Seg (nextPage m) addr ps e → rem ≤ 4088 * ps.length →
    (∀ p ∈ ps, dst + rem ≤ p.toNat ∨ p.toNat + 4096 ≤ dst) →
    copyOut m addr dst rem = m.putBytes dst (contents m ps rem) := by
  intro ps
  induction ps with
  | nil =>
      intro m addr e dst rem _ hrem _
      have h0 : rem = 0 := by simpa using hrem
      rw [h0, copyOut_zero]
      simp [contents, Mem.putBytes]
  | cons p ps ih =>
      intro m addr e dst rem hs hrem hdst
      rw [List.length_cons] at hrem
      obtain ⟨rfl, hs⟩ := hs
      by_cases h0 : rem = 0
      · rw [h0, copyOut_zero, contents_zero]
        simp [Mem.putBytes]
      · have hfar : ∀ q ∈ addr :: ps, ∀ x, q.toNat ≤ x → x < q.toNat + 4096 →
            m.memcpy dst (addr.toNat + 8) (min rem 4088) x = m x := by
          intro q hq x h1 h2
          have := hdst q hq
          exact Mem.memcpy_out (by omega)
        have hnext : nextPage (m.memcpy dst (addr.toNat + 8) (min rem 4088)) addr
            = nextPage m addr :=
          nextPage_congr fun x h1 h2 => hfar addr (by simp) x h1 (by omega)
        rw [copyOut_step h0, hnext, contents]
        by_cases hlast : rem ≤ 4088
        · -- the last page: nothing is left for the rest of the chain
          have hz : rem - 4088 = 0 := by omega
          have hmin : min rem 4088 = rem := by omega
          rw [hz, contents_zero, List.append_nil, hmin, copyOut_zero, Mem.memcpy_eq_putBytes]
        · have hmin : min rem 4088 = 4088 := by omega
          rw [hmin] at hfar ⊢
          rw [ih _ _ e (dst + 4088) (rem - 4088)
              (seg_congr hs fun q hq => hfar q (by simp [hq])) (by omega)
              (fun q hq => by have := hdst q (by simp [hq]); omega),
            contents_congr ps _ fun q hq x h1 h2 => hfar q (by simp [hq]) x (by omega) h2,
            Mem.memcpy_eq_putBytes, ← Mem.putBytes_append, Mem.length_bytes]

/-! ### Copying in -/

@[simp] theorem copyIn_zero (m : Mem) (addr : UInt64) (src : Nat) :
    copyIn m addr src 0 = (m, addr) := by
  rw [copyIn, if_pos rfl]

theorem copyIn_step {m : Mem} {addr : UInt64} {src rem : Nat} (h : rem ≠ 0) :
    copyIn m addr src rem
      = copyIn (m.memcpy (addr.toNat + 8) src (min rem 4088))
          (nextPage (m.memcpy (addr.toNat + 8) src (min rem 4088)) addr) (src + 4088)
          (rem - 4088) := by
  rw [copyIn, if_neg h]

/-- Filling a page does not touch the other pages, nor its own link. -/
private theorem fill_out (hL : Layout c) {p q : UInt64} {src n x : Nat} (hp : p ∈ c.poolPages)
    (hq : q ∈ c.poolPages) (hne : q ≠ p) (h1 : q.toNat ≤ x) (h2 : x < q.toNat + 4096)
    (hn : n ≤ 4088) : m.memcpy (p.toNat + 8) src n x = m x := by
  have := page_disjoint hL hq hp hne
  exact Mem.memcpy_out (by omega)

private theorem fill_link {p : UInt64} {src n : Nat} :
    nextPage (m.memcpy (p.toNat + 8) src n) p = nextPage m p :=
  nextPage_congr fun _ _ _ => Mem.memcpy_out (by omega)

/-- The number of pages the loop visits. -/
def filledPages (rem : Nat) : Nat := (rem + 4087) / 4088

/-- Filling a chain ends where the chain ends and changes only contents. -/
theorem copyIn_frame (hL : Layout c) : ∀ (ps : List UInt64) (m : Mem) (addr e : UInt64)
    (src rem : Nat), Seg (nextPage m) addr ps e → ps.length = filledPages rem →
    ps ⊆ c.poolPages → ps.Nodup →
    (copyIn m addr src rem).2 = e ∧
    ∀ x, (∀ p ∈ ps, x < p.toNat + 8 ∨ p.toNat + 4096 ≤ x) → (copyIn m addr src rem).1 x = m x := by
  intro ps
  induction ps with
  | nil =>
      intro m addr e src rem hs hrem _ _
      have h0 : rem = 0 := by rw [List.length_nil, filledPages] at hrem; omega
      rw [h0, copyIn_zero]
      exact ⟨hs, fun _ _ => rfl⟩
  | cons p ps ih =>
      intro m addr e src rem hs hrem hsub hnd
      rw [List.length_cons, filledPages] at hrem
      obtain ⟨rfl, hs⟩ := hs
      rw [List.nodup_cons] at hnd
      have hs1 : Seg (nextPage (m.memcpy (addr.toNat + 8) src (min rem 4088))) (nextPage m addr)
          ps e := by
        refine seg_congr hs fun q hq x h1 h2 => ?_
        have hne : q ≠ addr := by rintro rfl; exact hnd.1 hq
        exact fill_out hL (hsub (by simp)) (hsub (by simp [hq])) hne h1 h2 (by omega)
      rw [copyIn_step (by omega), fill_link]
      obtain ⟨hend, hout⟩ := ih _ (nextPage m addr) e (src + 4088) (rem - 4088) hs1
        (by rw [filledPages]; omega) (fun q hq => hsub (by simp [hq])) hnd.2
      refine ⟨hend, fun x hx => ?_⟩
      have hx0 := hx addr (by simp)
      rw [hout x fun q hq => hx q (by simp [hq]), Mem.memcpy_out (by omega)]

/-- The bytes of the source arrive in the chain, if the source does not overlap it. -/
theorem copyIn_contents (hL : Layout c) : ∀ (ps : List UInt64) (m : Mem) (addr e : UInt64)
    (src rem : Nat), Seg (nextPage m) addr ps e → ps.length = filledPages rem →
    ps ⊆ c.poolPages → ps.Nodup →
    (∀ p ∈ ps, src + rem ≤ p.toNat ∨ p.toNat + 4096 ≤ src) →
    contents (copyIn m addr src rem).1 ps rem = m.bytes src rem := by
  intro ps
  induction ps with
  | nil =>
      intro m addr e src rem _ hrem _ _ _
      have h0 : rem = 0 := by rw [List.length_nil, filledPages] at hrem; omega
      rw [h0]
      simp [Mem.bytes]
  | cons p ps ih =>
      intro m addr e src rem hs hrem hsub hnd hsrc
      rw [List.length_cons, filledPages] at hrem
      obtain ⟨rfl, hs⟩ := hs
      rw [List.nodup_cons] at hnd
      have hne : ∀ q ∈ ps, q ≠ addr := by rintro q hq rfl; exact hnd.1 hq
      have hs1 : Seg (nextPage (m.memcpy (addr.toNat + 8) src (min rem 4088))) (nextPage m addr)
          ps e :=
        seg_congr hs fun q hq x h1 h2 =>
          fill_out hL (hsub (by simp)) (hsub (by simp [hq])) (hne q hq) h1 h2 (by omega)
      have hlen : ps.length = filledPages (rem - 4088) := by rw [filledPages]; omega
      have hsub1 : ps ⊆ c.poolPages := fun q hq => hsub (by simp [hq])
      obtain ⟨-, hout⟩ := copyIn_frame hL ps _ (nextPage m addr) e (src + 4088) (rem - 4088) hs1
        hlen hsub1 hnd.2
      rw [copyIn_step (by omega), fill_link, contents]
      -- the first page keeps what was copied into it
      have hfirst : Mem.bytes (copyIn (m.memcpy (addr.toNat + 8) src (min rem 4088))
            (nextPage m addr) (src + 4088) (rem - 4088)).1 (addr.toNat + 8) (min rem 4088)
          = m.bytes src (min rem 4088) := by
        refine List.ext_getElem (by simp) fun i h1 h2 => ?_
        have hi : i < min rem 4088 := by simpa using h1
        rw [Mem.getElem_bytes, Mem.getElem_bytes, hout _ fun q hq => ?_, Mem.memcpy_add hi]
        have := page_disjoint hL (hsub (by simp [hq])) (hsub (by simp)) (hne q hq)
        omega
      rw [hfirst]
      by_cases hlast : rem ≤ 4088
      · have hz : rem - 4088 = 0 := by omega
        have hmin : min rem 4088 = rem := by omega
        rw [hz, hmin, contents_zero, List.append_nil]
      · have hmin : min rem 4088 = 4088 := by omega
        rw [hmin] at hs1 ⊢
        -- the rest of the source is not touched by the first page
        have hkeep : Mem.bytes (m.memcpy (addr.toNat + 8) src 4088) (src + 4088) (rem - 4088)
            = m.bytes (src + 4088) (rem - 4088) := by
          refine Mem.bytes_congr fun x h1 h2 => Mem.memcpy_out ?_
          have := hsrc addr (by simp)
          omega
        rw [ih _ _ _ (src + 4088) (rem - 4088) hs1 hlen hsub1 hnd.2
          (fun q hq => by have := hsrc q (by simp [hq]); omega), hkeep]
        obtain ⟨k, rfl⟩ : ∃ k, rem = 4088 + k := ⟨rem - 4088, by omega⟩
        rw [Nat.add_sub_cancel_left]
        exact (Mem.bytes_add m src 4088 k).symm

end JudgeDuck.DuckCache
