/-
The range of a cache command.

The other commands compare their offset and length with the size of the buffer;
`load_cache` and `store_cache` pass them on, and the copy loops of the caches do not
know the buffer.  What these loops touch is said by the ranges of their `memcpy` calls
(`chunks`).  So a cache command is lawful for a range in the buffer, and otherwise only
when the cache refuses it for another reason.
-/
import JudgeDuck.Proofs.Judger.Outputs

namespace JudgeDuck

namespace DuckCache

/-! ### What the copy loops touch -/

/-- The ranges of the buffer in the copy loops of `load` and `store`: where each one begins and its
length. -/
def chunks (start rem : Nat) : List (Nat × Nat) :=
  if rem = 0 then [] else (start, min rem 4088) :: chunks (start + 4088) (rem - 4088)
termination_by rem

/-- The address lies in one of the ranges. -/
def Touches (ranges : List (Nat × Nat)) (x : Nat) : Prop := ∃ r ∈ ranges, Mem.Range r.1 r.2 x

theorem touches_chunks (start rem : Nat) {x : Nat} :
    Touches (chunks start rem) x ↔ Mem.Range start rem x := by
  induction rem using Nat.strong_induction_on generalizing start with
  | _ rem ih =>
      rw [chunks]
      by_cases h0 : rem = 0
      · rw [if_pos h0]
        constructor
        · rintro ⟨r, hr, -⟩
          exact (List.not_mem_nil hr).elim
        · rintro ⟨h1, h2⟩
          omega
      · rw [if_neg h0]
        have hrest := ih (rem - 4088) (by omega) (start + 4088)
        constructor
        · rintro ⟨r, hr, h1, h2⟩
          rcases List.mem_cons.mp hr with rfl | hr
          · dsimp only at h1 h2
            exact ⟨by omega, by omega⟩
          · obtain ⟨h3, h4⟩ := hrest.mp ⟨r, hr, h1, h2⟩
            exact ⟨by omega, by omega⟩
        · rintro ⟨h1, h2⟩
          by_cases hx : x < start + min rem 4088
          · exact ⟨_, List.mem_cons_self, h1, hx⟩
          · obtain ⟨r, hr, hrx⟩ := hrest.mpr ⟨by omega, by omega⟩
            exact ⟨r, List.mem_cons_of_mem _ hr, hrx⟩

/-- The copy loop of `load` writes nothing else. -/
theorem copyOut_untouched (m : Mem) (addr : UInt64) (dst rem : Nat) {x : Nat}
    (h : ¬Touches (chunks dst rem) x) : copyOut m addr dst rem x = m x := by
  induction rem using Nat.strong_induction_on generalizing m addr dst with
  | _ rem ih =>
      rw [touches_chunks, Mem.Range] at h
      rw [copyOut]
      by_cases h0 : rem = 0
      · rw [if_pos h0]
      · rw [if_neg h0, ih (rem - 4088) (by omega), Mem.memcpy_out (by omega)]
        rw [touches_chunks, Mem.Range]
        omega

/-- An object of this length is cached under the digest. -/
def hit (c : DuckCache) (m : Mem) (digest : Digest256) (len : UInt64) : Bool :=
  (c.find m digest).1 && (c.metadataAt m (c.find m digest).2).len = len

/-- What `load` writes apart from the time of its last use. -/
def loadWrites (c : DuckCache) (m : Mem) (digest : Digest256) (dst : Nat) (requiredLen : UInt64) :
    List (Nat × Nat) :=
  if c.hit m digest requiredLen then chunks dst requiredLen.toNat else []

/-- `store` returns false for an object that is not cached and needs more pages than there are. -/
def refuses (c : DuckCache) (m : Mem) (digest : Digest256) (len : UInt64) : Bool :=
  !(c.find m digest).1 && nPages len > c.nTotalPages

/-- What `store` reads for the contents of the object. -/
def storeReads (c : DuckCache) (m : Mem) (digest : Digest256) (src : Nat) (len : UInt64) :
    List (Nat × Nat) :=
  if (c.find m digest).1 || c.refuses m digest len then [] else chunks src len.toNat

variable {c : DuckCache} {m : Mem} {digest : Digest256} {len : UInt64}

theorem load_of_not_hit (h : c.hit m digest len = false) (dst : Nat) (tsc : UInt64) :
    c.load m digest dst len tsc = some (false, m) := by
  unfold hit at h
  unfold load
  rcases hf : c.find m digest with ⟨found, idx⟩
  rw [hf] at h
  cases found with
  | false => rfl
  | true =>
      dsimp only at h ⊢
      rw [Bool.true_and, decide_eq_false_iff_not] at h
      rw [if_pos h]

/-- It returns true, if it returns. -/
theorem load_of_hit (h : c.hit m digest len = true) (dst : Nat) (tsc : UInt64) :
    ∀ r, c.load m digest dst len tsc = some r → r.1 = true := by
  intro r hr
  unfold hit at h
  unfold load at hr
  rcases hf : c.find m digest with ⟨found, idx⟩
  rw [hf] at h hr
  cases found with
  | false => exact nomatch h
  | true =>
      dsimp only at h hr
      rw [Bool.true_and, decide_eq_true_iff] at h
      rw [if_neg (not_not.mpr h)] at hr
      split at hr
      · cases hr
      · rw [← Option.some.inj hr]

/-- Apart from these ranges and the entry of the object, `load` changes nothing. -/
theorem load_untouched {dst : Nat} {tsc : UInt64} {ok : Bool} {m' : Mem}
    (h : c.load m digest dst len tsc = some (ok, m')) {x : Nat}
    (hx : ¬Touches (c.loadWrites m digest dst len) x)
    (hentry : ¬Mem.Range (c.objMetadata + 24 * (c.find m digest).2) 24 x) : m' x = m x := by
  cases hhit : c.hit m digest len with
  | false =>
      rw [load_of_not_hit hhit] at h
      rw [← (Prod.mk.inj (Option.some.inj h)).2]
  | true =>
      rw [loadWrites, if_pos hhit] at hx
      unfold hit at hhit
      unfold load at h
      rcases hf : c.find m digest with ⟨found, idx⟩
      rw [hf] at h hhit hentry
      cases found with
      | false => exact nomatch hhit
      | true =>
          dsimp only at h hhit hentry
          rw [Bool.true_and, decide_eq_true_iff] at hhit
          rw [if_neg (not_not.mpr hhit)] at h
          split at h
          · cases h
          · rw [← (Prod.mk.inj (Option.some.inj h)).2, copyOut_untouched _ _ _ _ hx]
            refine Mem.set_out ?_
            unfold Mem.Range at hentry
            show x < _ + 24 * idx ∨ _ + 24 * idx + 24 ≤ x
            omega

theorem store_of_refuses {S : StdSort} (h : c.refuses m digest len = true) (src : Nat)
    (tsc : UInt64) : c.store S m digest src len tsc = some (false, c, m) := by
  unfold refuses at h
  unfold store
  rcases hf : c.find m digest with ⟨found, idx⟩
  rw [hf] at h
  cases found with
  | true => exact nomatch h
  | false =>
      dsimp only at h ⊢
      rw [Bool.not_false, Bool.true_and, decide_eq_true_iff] at h
      rw [if_pos h]

/-- Otherwise it returns true, if it returns. -/
theorem store_of_not_refuses {S : StdSort} (h : c.refuses m digest len = false) (src : Nat)
    (tsc : UInt64) : ∀ r, c.store S m digest src len tsc = some r → r.1 = true := by
  intro r hr
  unfold refuses at h
  unfold store at hr
  rcases hf : c.find m digest with ⟨found, idx⟩
  rw [hf] at h hr
  cases found with
  | true =>
      rw [← Option.some.inj hr]
  | false =>
      dsimp only at h hr
      rw [Bool.not_false, Bool.true_and, decide_eq_false_iff_not] at h
      rw [if_neg h] at hr
      split at hr
      · split at hr
        · cases hr
        · obtain ⟨_, -, rfl⟩ := Option.map_eq_some_iff.mp hr
          rfl
      · obtain ⟨_, -, rfl⟩ := Option.map_eq_some_iff.mp hr
        rfl

end DuckCache

namespace Judger

variable {S : StdSort} {t : TimerConfig} {s s' : Judger} {last : Option Last} {name : String}
  {off len tsc : UInt64} {hex : Nat → UInt8}

/-! ### The commands -/

/-- The cache and the digest that a command names. -/
def target (name : String) (hex : Nat → UInt8) (s : Judger) : Option (DuckCache × Digest256) :=
  (digestFromHex hex).bind fun digest =>
    if name = "elf" then some (s.elfCache, digest)
    else if name = "data" then some (s.dataCache, digest)
    else none

/-- What `load_cache` writes for the contents of the object. -/
def loadCacheWrites (name : String) (off len : UInt64) (hex : Nat → UInt8) (s : Judger) :
    List (Nat × Nat) :=
  (s.target name hex).elim [] fun x => x.1.loadWrites s.mem x.2 (s.addr off) len

/-- What `store_cache` reads for the contents of the object. -/
def storeCacheReads (name : String) (off len : UInt64) (hex : Nat → UInt8) (s : Judger) :
    List (Nat × Nat) :=
  (s.target name hex).elim [] fun x => x.1.storeReads s.mem x.2 (s.addr off) len

/-- The named object is cached with this length. -/
def cacheHit (name : String) (len : UInt64) (hex : Nat → UInt8) (s : Judger) : Bool :=
  (s.target name hex).elim false fun x => x.1.hit s.mem x.2 len

/-- There is no such cache or no such digest, or the cache is too small. -/
def cacheRefuses (name : String) (len : UInt64) (hex : Nat → UInt8) (s : Judger) : Bool :=
  (s.target name hex).elim true fun x => x.1.refuses s.mem x.2 len

theorem loadCache_eq : loadCache name off len hex tsc s =
    (s.target name hex).elim (some (false, s)) fun x =>
      (x.1.load s.mem x.2 (s.addr off) len tsc).map fun r =>
        (r.1, if r.1 then (s.setMem r.2).clearJudgeResult else s.setMem r.2) := by
  unfold loadCache target
  cases digestFromHex hex with
  | none => rfl
  | some digest =>
      dsimp only [Option.bind_some]
      split
      · rfl
      · split <;> rfl

theorem loadCache_of_not_hit (h : s.cacheHit name len hex = false) :
    loadCache name off len hex tsc s = some (false, s) := by
  rw [loadCache_eq]
  unfold cacheHit at h
  cases ht : s.target name hex with
  | none => rfl
  | some x =>
      rw [ht] at h
      dsimp only [Option.elim_some] at h ⊢
      rw [DuckCache.load_of_not_hit h]
      rfl

theorem loadCache_of_hit (h : s.cacheHit name len hex = true) :
    ∀ r, loadCache name off len hex tsc s = some r → r.1 = true := by
  intro r hr
  rw [loadCache_eq] at hr
  unfold cacheHit at h
  cases ht : s.target name hex with
  | none =>
      rw [ht] at h
      cases h
  | some x =>
      rw [ht] at h hr
      obtain ⟨r', hl, rfl⟩ := Option.map_eq_some_iff.mp hr
      exact DuckCache.load_of_hit h _ _ r' hl

theorem storeCache_of_refuses (h : s.cacheRefuses name len hex = true) :
    storeCache S name off len hex tsc s = some (false, s) := by
  unfold storeCache
  unfold cacheRefuses target at h
  cases hd : digestFromHex hex with
  | none => rfl
  | some digest =>
      rw [hd, Option.bind_some] at h
      dsimp only
      split
      · rename_i hname
        rw [if_pos hname, Option.elim_some] at h
        rw [DuckCache.store_of_refuses h]
        rfl
      · rename_i hname
        rw [if_neg hname] at h
        split
        · rename_i hname'
          rw [if_pos hname', Option.elim_some] at h
          rw [DuckCache.store_of_refuses h]
          rfl
        · rfl

theorem storeCache_of_not_refuses (h : s.cacheRefuses name len hex = false) :
    ∀ r, storeCache S name off len hex tsc s = some r → r.1 = true := by
  intro r hr
  unfold storeCache at hr
  unfold cacheRefuses target at h
  cases hd : digestFromHex hex with
  | none =>
      rw [hd] at h
      cases h
  | some digest =>
      rw [hd, Option.bind_some] at h
      rw [hd] at hr
      dsimp only at hr
      split at hr
      · rename_i hname
        rw [if_pos hname, Option.elim_some] at h
        obtain ⟨r', hs, rfl⟩ := Option.map_eq_some_iff.mp hr
        exact DuckCache.store_of_not_refuses h _ _ r' hs
      · rename_i hname
        rw [if_neg hname] at h
        split at hr
        · rename_i hname'
          rw [if_pos hname', Option.elim_some] at h
          obtain ⟨r', hs, rfl⟩ := Option.map_eq_some_iff.mp hr
          exact DuckCache.store_of_not_refuses h _ _ r' hs
        · rename_i hname'
          rw [if_neg hname'] at h
          cases h

/-! ### The law of the buffer commands -/

/-- The range lies in the buffer, as exact integers. -/
def RangeOk (s : Judger) (off len : UInt64) : Prop :=
  off.toNat + len.toNat ≤ s.bufferSize.toNat

/-- Only bytes of the buffer are touched. -/
def TouchesBuffer (s : Judger) (ranges : List (Nat × Nat)) : Prop :=
  ∀ x, DuckCache.Touches ranges x → Mem.Range s.buffer.toNat s.bufferSize.toNat x

structure LoadLawful (name : String) (off len : UInt64) (hex : Nat → UInt8) (tsc : UInt64)
    (s : Judger) : Prop where
  writes : s.TouchesBuffer (s.loadCacheWrites name off len hex)
  rejects : ¬s.RangeOk off len → loadCache name off len hex tsc s = some (false, s)

structure StoreLawful (S : StdSort) (name : String) (off len : UInt64) (hex : Nat → UInt8)
    (tsc : UInt64) (s : Judger) : Prop where
  reads : s.TouchesBuffer (s.storeCacheReads name off len hex)
  rejects : ¬s.RangeOk off len → storeCache S name off len hex tsc s = some (false, s)

theorem touchesBuffer_nil (s : Judger) : s.TouchesBuffer [] := by
  rintro x ⟨r, hr, -⟩
  exact (List.not_mem_nil hr).elim

theorem Placed.touchesBuffer (h : Placed s) (hr : s.RangeOk off len) :
    s.TouchesBuffer (DuckCache.chunks (s.addr off) len.toNat) := by
  intro x hx
  unfold RangeOk at hr
  obtain ⟨h1, h2⟩ := (DuckCache.touches_chunks _ _).mp hx
  rw [h.addr_toNat (by omega)] at h1 h2
  exact ⟨by omega, by omega⟩

theorem loadCacheWrites_of_not_hit (h : s.cacheHit name len hex = false) :
    s.loadCacheWrites name off len hex = [] := by
  unfold cacheHit at h
  unfold loadCacheWrites
  cases ht : s.target name hex with
  | none => rfl
  | some x =>
      rw [ht] at h
      dsimp only [Option.elim_some] at h ⊢
      rw [DuckCache.loadWrites, if_neg (by rw [h]; exact Bool.false_ne_true)]

/-- A load touches nothing, or the range of the request. -/
theorem loadCacheWrites_cases (name : String) (off len : UInt64) (hex : Nat → UInt8) (s : Judger) :
    s.loadCacheWrites name off len hex = [] ∨
    s.loadCacheWrites name off len hex = DuckCache.chunks (s.addr off) len.toNat := by
  unfold loadCacheWrites
  cases s.target name hex with
  | none => exact .inl rfl
  | some x =>
      dsimp only [Option.elim_some, DuckCache.loadWrites]
      split
      · exact .inr rfl
      · exact .inl rfl

theorem storeCacheReads_cases (name : String) (off len : UInt64) (hex : Nat → UInt8) (s : Judger) :
    s.storeCacheReads name off len hex = [] ∨
    s.storeCacheReads name off len hex = DuckCache.chunks (s.addr off) len.toNat := by
  unfold storeCacheReads
  cases s.target name hex with
  | none => exact .inl rfl
  | some x =>
      dsimp only [Option.elim_some, DuckCache.storeReads]
      split
      · exact .inl rfl
      · exact .inr rfl

theorem storeCacheReads_of_refuses (h : s.cacheRefuses name len hex = true) :
    s.storeCacheReads name off len hex = [] := by
  unfold cacheRefuses at h
  unfold storeCacheReads
  cases ht : s.target name hex with
  | none => rfl
  | some x =>
      rw [ht] at h
      dsimp only [Option.elim_some] at h ⊢
      rw [DuckCache.storeReads, if_pos (by rw [h, Bool.or_true])]

theorem Placed.loadLawful_iff (h : Placed s) : LoadLawful name off len hex tsc s ↔
    (s.cacheHit name len hex = true → s.RangeOk off len) := by
  constructor
  · intro hl hhit
    by_contra hr
    exact Bool.false_ne_true (loadCache_of_hit hhit _ (hl.rejects hr))
  · intro hcond
    cases hhit : s.cacheHit name len hex with
    | false =>
        refine ⟨?_, fun _ => loadCache_of_not_hit hhit⟩
        rw [loadCacheWrites_of_not_hit hhit]
        exact s.touchesBuffer_nil
    | true =>
        have hr := hcond hhit
        refine ⟨?_, fun hno => absurd hr hno⟩
        obtain he | he := loadCacheWrites_cases name off len hex s
        · rw [he]
          exact s.touchesBuffer_nil
        · rw [he]
          exact h.touchesBuffer hr

theorem Placed.storeLawful_iff (h : Placed s) : StoreLawful S name off len hex tsc s ↔
    (s.cacheRefuses name len hex = false → s.RangeOk off len) := by
  constructor
  · intro hl hno
    by_contra hr
    exact Bool.false_ne_true (storeCache_of_not_refuses hno _ (hl.rejects hr))
  · intro hcond
    cases hrefuses : s.cacheRefuses name len hex with
    | true =>
        refine ⟨?_, fun _ => storeCache_of_refuses hrefuses⟩
        rw [storeCacheReads_of_refuses hrefuses]
        exact s.touchesBuffer_nil
    | false =>
        have hr := hcond hrefuses
        refine ⟨?_, fun hno => absurd hr hno⟩
        obtain he | he := storeCacheReads_cases name off len hex s
        · rw [he]
          exact s.touchesBuffer_nil
        · rw [he]
          exact h.touchesBuffer hr

/-- A digest of zeros. -/
def zeroHex : Nat → UInt8 := fun _ => 48

theorem digestFromHex_zeroHex : digestFromHex zeroHex = some ⟨0, 0, 0, 0⟩ := by decide

/-- The cache is empty after `init`, and has room for a byte. -/
theorem init_find_nil {machine : Memory.Machine} (hb : Booted machine) (hi : init machine = some s)
    (digest : Digest256) : s.elfCache.find s.mem digest = (false, 0) ∧
      1 ≤ s.elfCache.nTotalPages := by
  obtain ⟨_, _, hinit⟩ := init_initial hb.low hi
  obtain ⟨_, _, _, helf⟩ := hinit.elf
  have hcur : s.elfCache.nCurObjects = 0 := helf.rep.length_objs.symm
  obtain ⟨-, -, hcheck, -⟩ := hinit.sizes.elf
  have hpages := helf.pages
  refine ⟨?_, by omega⟩
  rw [DuckCache.find, if_pos hcur]

end Judger

end JudgeDuck
