/-
A replay and the buffer.

A request with the number of the kept result is answered with it and changes nothing,
whatever happened before (`judge_replays`).  That the buffer is still the one of the
execution needs more: `store_cache` keeps the result and writes to the chains of a
cache.  So the caches have to be well formed (`Intact`), which a load outside the buffer
or a length that wraps can end.  The image of a 32-bit program may overwrite hashes of
the data cache; that spoils the search and not the chains.
-/
import JudgeDuck.Proofs.DuckCache.Refine
import JudgeDuck.Proofs.Judger.CacheRange

namespace JudgeDuck

open Memory

namespace DuckCache

variable {S : StdSort} {c c' : DuckCache} {m m' : Mem} {digest : Digest256} {len tsc : UInt64}

/-- The block of the cache. -/
def InBlock (c : DuckCache) (x : Nat) : Prop := c.objHash ≤ x ∧ x < c.objHash + c.cacheSize

/-- The chains of the cache are whole. -/
def WellFormed (c : DuckCache) (m : Mem) : Prop := ∃ objs free, Rep c m objs free

theorem WellFormed.frame (h : WellFormed c m) (hm : ∀ x, c.InBlock x → m' x = m x) :
    WellFormed c m' := by
  obtain ⟨objs, free, hrep⟩ := h
  exact ⟨objs, free, hrep.frame fun x h1 h2 => hm x ⟨h1, h2⟩⟩

/-- The hashes may be anything. -/
theorem WellFormed.hash (h : WellFormed c m)
    (hm : ∀ x, c.objDigest ≤ x → x < c.objHash + c.cacheSize → m' x = m x) :
    WellFormed c m' := by
  obtain ⟨objs, free, hrep⟩ := h
  have hlen := hrep.length_objs
  have hcur := hrep.cur_le
  have hL := hrep.layout
  have hp := hL.pool_le
  have hend := hL.pages
  obtain ⟨h1, h2, h3, h4, -, -, -, -⟩ := hrep.layout
  set objs' := (List.range c.nCurObjects).map fun i => { objs[i]! with entry := c.entryAt m' i }
    with hobjs'
  have hpages : objs'.flatMap Obj.pages = objs.flatMap Obj.pages := by
    conv_rhs => rw [← map_range_getElem! objs]
    rw [hobjs', hlen, List.flatMap_def, List.flatMap_def, List.map_map, List.map_map]
    rfl
  have hpage : ∀ p ∈ c.poolPages, ∀ x, p.toNat ≤ x → x < p.toNat + 4096 → m' x = m x := by
    intro p hpp x hx1 hx2
    have := page_bounds hL hpp
    exact hm x (by omega) (by omega)
  refine ⟨objs', free, hL, hcur, ?_, ?_, ?_, hrep.nFree, ?_⟩
  · rw [hobjs', List.map_map]
    rfl
  · intro o ho
    obtain ⟨i, hi, rfl⟩ := List.mem_map.mp ho
    have hi' : i < objs.length := by
      have := List.mem_range.mp hi
      omega
    have hmem : objs[i]! ∈ objs := getElem!_mem hi'
    have hmeta : c.metadataAt m' i = objs[i]!.entry.metadata := by
      rw [metadataAt_congr (m := m) (by omega) fun x hx1 hx2 => hm x (by omega) (by omega),
        hrep.metadataAt hi', getElem!_pos objs i hi']
    obtain ⟨hchain, hcount, hsmall, hdata, hvalid⟩ := (hrep.stored _ hmem).congr
      fun p hpp => hpage p (hrep.pages_subset hmem hpp)
    have he : (c.entryAt m' i).metadata = objs[i]!.entry.metadata := hmeta
    refine ⟨?_, ?_, ?_, ?_, ?_⟩
    · rw [he]
      exact hchain
    · rw [he]
      exact hcount
    · unfold Obj.len
      rw [he]
      exact hsmall
    · unfold Obj.len
      rw [he]
      exact hdata
    · unfold Entry.valid
      rw [he]
      exact hvalid
  · exact seg_congr hrep.freeList fun p hpp => hpage p (hrep.free_subset hpp)
  · rw [hpages]
    exact hrep.partition

/-- The object is new and there are pages for it. -/
def stores (c : DuckCache) (m : Mem) (digest : Digest256) (len : UInt64) : Bool :=
  !(c.find m digest).1 && nPages len ≤ c.nTotalPages

/-- A call leaves the cache well formed and where it was. -/
structure Keeps (c c' : DuckCache) (m' : Mem) : Prop where
  wellFormed : WellFormed c' m'
  objHash : c'.objHash = c.objHash
  cacheSize : c'.cacheSize = c.cacheSize
  nMaxObjects : c'.nMaxObjects = c.nMaxObjects

theorem WellFormed.keeps (h : WellFormed c m) (hm : ∀ x, c.InBlock x → m' x = m x) :
    Keeps c c m' :=
  ⟨h.frame hm, rfl, rfl, rfl⟩

/-- A store writes in the block of the cache only. -/
theorem store_keeps (h : WellFormed c m)
    (hsmall : c.stores m digest len = true → len.toNat + 4087 < 2 ^ 64 ∧ tsc ≠ 0)
    {src : Nat} {ok : Bool} (hs : c.store S m digest src len tsc = some (ok, c', m')) :
    Keeps c c' m' ∧ ∀ x, ¬c.InBlock x → m' x = m x := by
  have hsame : c' = c → m' = m → Keeps c c' m' ∧ ∀ x, ¬c.InBlock x → m' x = m x := by
    rintro rfl rfl
    exact ⟨⟨h, rfl, rfl, rfl⟩, fun _ _ => rfl⟩
  obtain ⟨objs, free, hrep⟩ := h
  by_cases hf : (c.find m digest).1 = true
  · rw [store_found S hf] at hs
    obtain ⟨-, rfl, rfl⟩ := Option.some.inj hs
    exact hsame rfl rfl
  · have hf : (c.find m digest).1 = false := by simpa using hf
    by_cases hn : nPages len ≤ c.nTotalPages
    · have hstores : c.stores m digest len = true := by
        rw [stores, hf, Bool.not_false, Bool.true_and, decide_eq_true_iff]
        exact hn
      obtain ⟨hlen, htsc⟩ := hsmall hstores
      obtain ⟨c1, m1, kept, free1, hp, halt⟩ := store_new S hrep hf hn hlen htsc src
      rcases halt with ⟨-, hnone⟩ | ⟨-, c2, m2, hsome, hins⟩
      · rw [hnone] at hs
        cases hs
      · rw [hsome] at hs
        obtain ⟨-, rfl, rfl⟩ := Option.some.inj hs
        obtain ⟨_, _, _, hstatic⟩ := hp.static
        obtain ⟨_, _, _, hstatic'⟩ := hins.static
        have hhash : c1.objHash = c.objHash := by rw [hstatic]
        have hsize : c1.cacheSize = c.cacheSize := by rw [hstatic]
        refine ⟨⟨⟨_, _, hins.rep⟩, by rw [hstatic', hstatic], by rw [hstatic', hstatic],
          by rw [hstatic', hstatic]⟩, fun x hx => ?_⟩
        unfold InBlock at hx
        rw [hins.frame x (by omega), hp.frame x (by omega)]
    · rw [store_large S hf (Nat.lt_of_not_le hn)] at hs
      obtain ⟨-, rfl, rfl⟩ := Option.some.inj hs
      exact hsame rfl rfl

/-- A load outside the block writes there and in the range. -/
theorem load_keeps (h : WellFormed c m) {dst : Nat}
    (hdst : c.hit m digest len = true → c.Outside dst len.toNat ∧ tsc ≠ 0) {ok : Bool}
    (hl : c.load m digest dst len tsc = some (ok, m')) :
    Keeps c c m' ∧ ∀ x, ¬c.InBlock x → ¬(ok = true ∧ Mem.Range dst len.toNat x) → m' x = m x := by
  cases hhit : c.hit m digest len with
  | false =>
      rw [load_of_not_hit hhit] at hl
      obtain ⟨-, rfl⟩ := Prod.mk.inj (Option.some.inj hl)
      exact ⟨⟨h, rfl, rfl, rfl⟩, fun _ _ _ => rfl⟩
  | true =>
      obtain ⟨hout, htsc⟩ := hdst hhit
      obtain ⟨objs, free, hrep⟩ := h
      have hcur := hrep.cur_le
      have hp := hrep.layout.pool_le
      have hend := hrep.layout.pages
      have hlen := hrep.length_objs
      have hit : Hit c m digest len := by
        unfold hit at hhit
        rwa [Bool.and_eq_true, decide_eq_true_iff] at hhit
      obtain ⟨hi, -, hdata, hload, hrep'⟩ := load_hit_rep hrep hit htsc hout
      rw [hload] at hl
      obtain ⟨rfl, rfl⟩ := Prod.mk.inj (Option.some.inj hl)
      refine ⟨⟨⟨_, _, hrep'⟩, rfl, rfl, rfl⟩, fun x hx hr => ?_⟩
      unfold InBlock at hx
      unfold Mem.Range at hr
      rw [Mem.putBytes_out (by rw [hdata]; simp at hr; omega), touched]
      exact setMetadata_out (by omega) (by obtain ⟨_, _, hmeta, hids, _⟩ := hrep.layout; omega)

/-- When the link of the first free page has been overwritten, the second part of an object goes to
where it points. -/
theorem store_stray (S : StdSort) (hL : Layout c) (hf : (c.find m digest).1 = false)
    (hn : 2 ≤ c.nTotalPages) (hroom : c.needRemove 2 = false) (hp : c.freeListAddr ∈ c.poolPages)
    {src : Nat} (hsrc : c.objHash + c.cacheSize ≤ src + 4088) (tsc : UInt64) :
    ∃ c' m', c.store S m digest src 4089 tsc = some (true, c', m') ∧
      m' ((nextPage m c.freeListAddr).toNat + 8) = m (src + 4088) := by
  have hbounds := page_bounds hL hp
  have hpool := hL.pool_le
  have hslot : c.nCurObjects < c.nMaxObjects := by
    simp only [needRemove, decide_eq_false_iff_not, not_or, Nat.not_lt, gt_iff_lt] at hroom
    omega
  have hfind : c.find m digest = (false, (c.find m digest).2) := by rw [← hf]
  have hpages : nPages 4089 = 2 := by decide
  have hend : endless 4089 = false := by decide
  set e : Entry := ⟨digest.a0, digest, ⟨tsc, c.freeListAddr, 4089⟩⟩ with he
  set m1 := c.insertEntry m (c.find m digest).2 e with hm1
  have hout : ∀ x, c.sortIds ≤ x → m1 x = m x := fun x hx =>
    insertEntry_out hL hslot (find_bounds c m digest).1 (.inr hx)
  set m2 := m1.memcpy (c.freeListAddr.toNat + 8) src 4088 with hm2
  have hlink : nextPage m2 c.freeListAddr = nextPage m c.freeListAddr :=
    nextPage_congr fun x _ _ => by rw [hm2, Mem.memcpy_out (by omega), hout x (by omega)]
  set m3 := m2.memcpy ((nextPage m c.freeListAddr).toNat + 8) (src + 4088) 1 with hm3
  have hcopy : copyIn m1 c.freeListAddr src 4089
      = (m3, nextPage m3 (nextPage m c.freeListAddr)) := by
    have hfirst : min 4089 4088 = 4088 ∧ 4089 - 4088 = 1 := by decide
    have hsecond : min 1 4088 = 1 ∧ 1 - 4088 = 0 := by decide
    rw [copyIn_step (by decide), hfirst.1, hfirst.2, ← hm2, copyIn_step (by decide), hsecond.1,
      hsecond.2, copyIn_zero, hlink]
  have hstore : ∃ c', c.store S m digest src 4089 tsc = some (true, c', m3) := by
    unfold store insert
    rw [hfind]
    dsimp only
    rw [hpages, if_neg (Nat.not_lt.mpr hn), if_neg (ne_true_of_eq_false hroom), hend,
      if_neg Bool.false_ne_true]
    have hlen : (4089 : UInt64).toNat = 4089 := rfl
    have hm1' : ((((c.openSlots m (c.find m digest).2).set c.objHash (c.find m digest).2
        digest.a0).set c.objDigest (c.find m digest).2 digest).set c.objMetadata
        (c.find m digest).2 (Metadata.mk tsc c.freeListAddr 4089)) = m1 := rfl
    rw [hlen, hm1', hcopy, Option.map_some]
    exact ⟨_, rfl⟩
  obtain ⟨c', hstore⟩ := hstore
  have hbyte : m3 ((nextPage m c.freeListAddr).toNat + 8 + 0) = m2 (src + 4088 + 0) :=
    Mem.memcpy_add (by omega)
  rw [Nat.add_zero, Nat.add_zero] at hbyte
  refine ⟨c', m3, hstore, ?_⟩
  rw [hbyte, hm2, Mem.memcpy_out (by omega), hout _ (by omega)]

end DuckCache

namespace Judger

variable {S : StdSort} {t : TimerConfig} {s s' : Judger} {last : Option Last} {c : Call}
    {a : Answer}
  {req : JudgeRequest} {o : Outcome} {r : JudgeResult} {name : String} {off len tsc : UInt64}
  {hex : Nat → UInt8}

/-! ### The blocks of the kernel -/

/-- The address lies in the buffer. -/
def InBuffer (s : Judger) (x : Nat) : Prop := Mem.Range s.buffer.toNat s.bufferSize.toNat x

/-- Both caches are well formed; from `vaddr_break` on lie the data cache, the ELF cache and the
buffer. -/
structure Intact (s : Judger) : Prop where
  placed : Placed s
  elf : s.elfCache.WellFormed s.mem
  data : s.dataCache.WellFormed s.mem
  start : s.dataCache.objHash = s.machine.vaddrBreak.toNat
  /-- The hashes of the data cache take the first page at least. -/
  page : 4096 ≤ 8 * s.dataCache.nMaxObjects
  below : s.dataCache.objHash + s.dataCache.cacheSize ≤ s.elfCache.objHash
  top : s.elfCache.objHash + s.elfCache.cacheSize ≤ s.buffer.toNat

theorem intact_of_init {machine : Memory.Machine} (hb : Booted machine)
    (hi : init machine = some s) : Intact s := by
  obtain ⟨_, _, m, a, hinit⟩ := init_inits hi
  obtain ⟨helf, hdata⟩ := hinit.initialised hb.low
  have hbelow := hdata.high
  rw [← helf.start] at hbelow
  refine ⟨placed_of_init hb hi, ?_, ⟨_, _, hdata.rep⟩, hdata.start, ?_, hbelow, helf.high⟩
  · exact ⟨_, _, helf.rep.frame fun x hx _ => hdata.frame x (by omega)⟩
  · rw [hdata.maxObjects]
    decide

/-- The blocks do not overlap. -/
theorem Intact.apart (h : Intact s) {x : Nat} :
    (s.elfCache.InBlock x → ¬s.dataCache.InBlock x ∧ ¬s.InBuffer x) ∧
    (s.dataCache.InBlock x → ¬s.elfCache.InBlock x ∧ ¬s.InBuffer x) := by
  have hbelow := h.below
  have htop := h.top
  unfold DuckCache.InBlock InBuffer Mem.Range
  omega

/-- After a call that leaves both caches well formed everything is where it was. -/
theorem Intact.update (h : Intact s) (hc : c.run S t s = some (a, s'))
    (helf : DuckCache.Keeps s.elfCache s'.elfCache s'.mem)
    (hdata : DuckCache.Keeps s.dataCache s'.dataCache s'.mem) : Intact s' := by
  refine ⟨h.placed.run hc, helf.wellFormed, hdata.wellFormed, ?_, ?_, ?_, ?_⟩
  · rw [hdata.objHash, Call.run_vaddrBreak hc]
    exact h.start
  · rw [hdata.nMaxObjects]
    exact h.page
  · rw [hdata.objHash, hdata.cacheSize, helf.objHash]
    exact h.below
  · rw [helf.objHash, helf.cacheSize, (Call.run_same hc).buffer]
    exact h.top

/-- Both caches are well formed after a step, and so is the note of the last execution. -/
structure Steps (c : Call) (a : Answer) (s s' : Judger) (last : Option Last) : Prop where
  elf : DuckCache.Keeps s.elfCache s'.elfCache s'.mem
  data : DuckCache.Keeps s.dataCache s'.dataCache s'.mem
  note : ∀ l, c.note a s s' last = some l →
    last = some l ∧ s'.contents = s.contents ∨ s'.contents = l.buffer

theorem contents_congr (hs : SameBuffer s s') (hm : ∀ x, s.InBuffer x → s'.mem x = s.mem x) :
    s'.contents = s.contents := by
  unfold contents
  rw [hs.buffer, hs.bufferSize]
  exact Mem.bytes_congr fun x h1 h2 => hm x ⟨h1, h2⟩

/-- Nothing has changed. -/
theorem Intact.idle (h : Intact s) (hn : c.note a s s last = last) : Steps c a s s last :=
  ⟨h.elf.keeps fun _ _ => rfl, h.data.keeps fun _ _ => rfl, fun _ hl => .inl ⟨hn ▸ hl, rfl⟩⟩

/-! ### The commands -/

/-- A command of the buffer writes there only. -/
theorem Command.run_mem (hp : Placed s) (c : Command) {x : Nat} (hx : ¬s.InBuffer x) :
    (c.run s).2.mem x = s.mem x := by
  have hrange : ∀ {off len : UInt64}, s.inRange off len = true →
      x < s.addr off ∨ s.addr off + len.toNat ≤ x := by
    intro off len hin
    have hinside := inside_of_inRange hin
    unfold InBuffer Mem.Range at hx
    rw [hp.addr_toNat (by omega)]
    omega
  cases c with
  | clear off len =>
      simp only [Command.run, clearBuffer]
      split
      · rename_i hin
        rw [clearJudgeResult_mem, setMem_mem, Mem.memset_out (hrange hin)]
      · rfl
  | read off len => rfl
  | write off data len =>
      simp only [Command.run, writeBuffer]
      split
      · rename_i hin
        rw [clearJudgeResult_mem, setMem_mem, Mem.put_out (hrange hin)]
      · rfl
  | copy dstOff srcOff len =>
      simp only [Command.run, copyBuffer]
      split
      · rename_i hin
        rw [clearJudgeResult_mem, setMem_mem, Mem.memcpy_out (hrange hin.1)]
      · rfl
  | compare off1 off2 len => rfl

theorem clearJudgeResult_caches (s : Judger) : s.clearJudgeResult.elfCache = s.elfCache ∧
    s.clearJudgeResult.dataCache = s.dataCache := by
  unfold clearJudgeResult
  split <;> exact ⟨rfl, rfl⟩

theorem Intact.command (h : Intact s) (c : Command) :
    Steps (.buffer c) (c.run s).1 s (c.run s).2 last := by
  obtain ⟨he, hf⟩ | ⟨hm, ha, m, he⟩ := c.run_cases s
  · rw [he]
    refine h.idle ?_
    by_cases hm : c.Mutates
    · rw [hf hm]
      rfl
    · cases c with
      | clear | write | copy => exact absurd trivial hm
      | read off len => rfl
      | compare off1 off2 len => rfl
  · obtain ⟨helf, hdata⟩ := (s.setMem m).clearJudgeResult_caches
    have hmem : ∀ x, ¬s.InBuffer x → (c.run s).2.mem x = s.mem x := fun x => c.run_mem h.placed
    have hn : (Call.buffer c).note (c.run s).1 s (c.run s).2 last = none := by
      rw [ha]
      exact if_pos hm
    refine ⟨?_, ?_, fun l hl => nomatch hn.symm.trans hl⟩
    · rw [he, helf, ← he]
      exact h.elf.keeps fun x hx => hmem x (h.apart.1 hx).2
    · rw [he, hdata, ← he]
      exact h.data.keeps fun x hx => hmem x (h.apart.2 hx).2

/-- The command adds an object to a cache. -/
def cacheStores (name : String) (len : UInt64) (hex : Nat → UInt8) (s : Judger) : Bool :=
  (s.target name hex).elim false fun x => x.1.stores s.mem x.2 len

/-- The condition on a cache command: a load that finds its object stays in the buffer, and the
length of an object that is added does not wrap; the time is never zero. -/
def CacheCallOk (s : Judger) : Call → Prop
  | .loadCache name off len hex tsc =>
    s.cacheHit name len hex = true → s.RangeOk off len ∧ tsc ≠ 0
  | .storeCache name _ len hex tsc =>
    s.cacheStores name len hex = true → len.toNat + 4087 < 2 ^ 64 ∧ tsc ≠ 0
  | .buffer _ | .judge .. => True

theorem target_eq_some {x : DuckCache × Digest256} (h : s.target name hex = some x) :
    x.1 = s.elfCache ∨ x.1 = s.dataCache := by
  unfold target at h
  obtain ⟨digest, -, h⟩ := Option.bind_eq_some_iff.mp h
  split at h
  · rw [← Option.some.inj h]
    exact .inl rfl
  · split at h
    · rw [← Option.some.inj h]
      exact .inr rfl
    · cases h

theorem Intact.loadCache (h : Intact s) (hok : CacheCallOk s (.loadCache name off len hex tsc))
    {ok : Bool} (hl : Judger.loadCache name off len hex tsc s = some (ok, s')) :
    Steps (.loadCache name off len hex tsc) (.done ok) s s' last := by
  cases hhit : s.cacheHit name len hex with
  | false =>
      rw [loadCache_of_not_hit hhit] at hl
      obtain ⟨rfl, rfl⟩ := Prod.mk.inj (Option.some.inj hl)
      exact h.idle rfl
  | true =>
      obtain ⟨hrange, htsc⟩ := hok hhit
      obtain rfl : ok = true := loadCache_of_hit hhit _ hl
      rw [loadCache_eq] at hl
      unfold cacheHit at hhit
      cases ht : s.target name hex with
      | none =>
          rw [ht] at hhit
          cases hhit
      | some x =>
          rw [ht] at hl hhit
          obtain ⟨⟨ok, m⟩, hload, hr⟩ := Option.map_eq_some_iff.mp hl
          obtain ⟨rfl, rfl⟩ := Prod.mk.inj hr
          have haddr : s.addr off = s.buffer.toNat + off.toNat := by
            unfold RangeOk at hrange
            exact h.placed.addr_toNat (by omega)
          have hin : ∀ {y}, Mem.Range (s.addr off) len.toNat y → s.InBuffer y := by
            rintro y ⟨h1, h2⟩
            unfold RangeOk at hrange
            exact ⟨by omega, by omega⟩
          have hbelow := h.below
          have htop := h.top
          have hwell : x.1.WellFormed s.mem := by
            rcases target_eq_some ht with hx | hx
            · rw [hx]
              exact h.elf
            · rw [hx]
              exact h.data
          have hout : x.1.Outside (s.addr off) len.toNat := by
            unfold DuckCache.Outside
            rcases target_eq_some ht with hx | hx <;> rw [hx] <;> omega
          obtain ⟨hkeeps, hframe⟩ := DuckCache.load_keeps hwell (fun _ => ⟨hout, htsc⟩) hload
          obtain ⟨helf, hdata⟩ := (s.setMem m).clearJudgeResult_caches
          refine ⟨?_, ?_, fun l hl => nomatch hl⟩
          · rw [if_pos rfl, helf, clearJudgeResult_mem, setMem_mem]
            rcases target_eq_some ht with hx | hx
            · rw [hx] at hkeeps
              exact hkeeps
            · refine h.elf.keeps fun y hy => hframe y ?_ fun hr => (h.apart.1 hy).2 (hin hr.2)
              rw [hx]
              exact (h.apart.1 hy).1
          · rw [if_pos rfl, hdata, clearJudgeResult_mem, setMem_mem]
            rcases target_eq_some ht with hx | hx
            · refine h.data.keeps fun y hy => hframe y ?_ fun hr => (h.apart.2 hy).2 (hin hr.2)
              rw [hx]
              exact (h.apart.2 hy).1
            · rw [hx] at hkeeps
              exact hkeeps

theorem Intact.storeCache (h : Intact s) (hok : CacheCallOk s (.storeCache name off len hex tsc))
    {ok : Bool} (hs : Judger.storeCache S name off len hex tsc s = some (ok, s')) :
    Steps (.storeCache name off len hex tsc) (.done ok) s s' last := by
  have hsame : SameBuffer s s' := (storeCache_only hs).toSameBuffer
  change s.cacheStores name len hex = true → len.toNat + 4087 < 2 ^ 64 ∧ tsc ≠ 0 at hok
  unfold cacheStores target at hok
  unfold Judger.storeCache at hs
  cases hd : digestFromHex hex with
  | none =>
      rw [hd] at hs
      obtain ⟨-, rfl⟩ := Prod.mk.inj (Option.some.inj hs)
      exact h.idle rfl
  | some digest =>
      rw [hd] at hs hok
      dsimp only at hs
      rw [Option.bind_some] at hok
      split at hs
      · rename_i hname
        rw [if_pos hname, Option.elim_some] at hok
        obtain ⟨⟨ok, c', m⟩, hstore, hr⟩ := Option.map_eq_some_iff.mp hs
        obtain ⟨rfl, rfl⟩ := Prod.mk.inj hr
        obtain ⟨hkeeps, hframe⟩ := DuckCache.store_keeps h.elf hok hstore
        refine ⟨hkeeps, h.data.keeps fun x hx => hframe x (h.apart.2 hx).1, fun l hl =>
          .inl ⟨hl, contents_congr hsame fun x hx => hframe x fun hin => (h.apart.1 hin).2 hx⟩⟩
      · rename_i hname
        rw [if_neg hname] at hok
        split at hs
        · rename_i hname'
          rw [if_pos hname', Option.elim_some] at hok
          obtain ⟨⟨ok, c', m⟩, hstore, hr⟩ := Option.map_eq_some_iff.mp hs
          obtain ⟨rfl, rfl⟩ := Prod.mk.inj hr
          obtain ⟨hkeeps, hframe⟩ := DuckCache.store_keeps h.data hok hstore
          refine ⟨h.elf.keeps fun x hx => hframe x (h.apart.1 hx).1, hkeeps, fun l hl =>
            .inl ⟨hl, contents_congr hsame fun x hx => hframe x fun hin => (h.apart.2 hin).2 hx⟩⟩
        · obtain ⟨-, rfl⟩ := Prod.mk.inj (Option.some.inj hs)
          exact h.idle rfl

/-! ### The judge -/

/-- A judge leaves the rest of the kernel's memory, from the second page on. -/
theorem judgeAfresh_mem (h : s.judgeAfresh t req o = some (r, s')) (hp : Placed s) {x : Nat}
    (hx : s.machine.vaddrBreak.toNat + 4096 ≤ x) (hbuffer : ¬s.InBuffer x) :
    s'.mem x = s.mem x := by
  obtain ⟨hf, -⟩ | ⟨hf, -⟩ | ⟨app, es, start, res, stop, hf⟩ := judgeAfresh_cases h
  · rw [(fail_mem hf).2]
  · rw [(fail_mem hf).2]
  · obtain ⟨hinside, -⟩ := checkBuffers_spec hf.passes.buffers
    obtain ⟨houtSize, herrSize⟩ := Elf.run_sizes hf.run
    obtain ⟨houtLimit, herrLimit⟩ := Elf.load_limits hf.load
    have hout : BufferDesc.Inside req.stdout s.bufferSize :=
      hinside _ (by simp [JudgeRequest.buffers])
    have herr : BufferDesc.Inside req.stderr s.bufferSize :=
      hinside _ (by simp [JudgeRequest.buffers])
    have hob : BufferDesc.Inside req.ob s.bufferSize := hinside _ (by simp [JudgeRequest.buffers])
    rw [houtLimit, UInt64.le_iff_toNat_le] at houtSize
    rw [herrLimit, UInt64.le_iff_toNat_le] at herrSize
    change res.stdoutSize.toNat ≤ req.stdout.len.toNat at houtSize
    change res.stderrSize.toNat ≤ req.stderr.len.toNat at herrSize
    unfold BufferDesc.Inside at hout herr hob
    unfold InBuffer Mem.Range at hbuffer
    rw [hf.state]
    show s.copyOutputs req res stop.mem x = _
    rw [copyOutputs, hp.addr_toNat (by omega), hp.addr_toNat (by omega), hp.addr_toNat (by omega),
      Mem.memcpy_out (by omega), Mem.memcpy_out (by omega), Mem.memcpy_out (by omega)]
    exact (hf.spares hp).2 x hx

theorem Intact.judge (h : Intact s) (hj : Judger.judge t req o s = some (r, s')) :
    Steps (.judge req o) (.result r) s s' last := by
  unfold Judger.judge at hj
  split at hj
  · obtain ⟨-, rfl⟩ := Prod.mk.inj (Option.some.inj hj)
    exact h.idle (if_pos rfl)
  · have he := judgeAfresh_executed hj
    have hstart := h.start
    have hpage := h.page
    have hbelow := h.below
    obtain ⟨objs, free, hrep⟩ := h.data
    have hp := hrep.layout.pool_le
    obtain ⟨hhash, -, -, -, hend, -, -, -⟩ := hrep.layout
    refine ⟨?_, ⟨?_, ?_, ?_, ?_⟩, fun l hl => ?_⟩
    · rw [he.elfCache]
      refine h.elf.keeps fun x hx => judgeAfresh_mem hj h.placed ?_ (h.apart.1 hx).2
      have := hx.1
      omega
    · rw [he.dataCache]
      refine h.data.hash fun x h1 h2 => judgeAfresh_mem hj h.placed (by omega) ?_
      exact (h.apart.2 ⟨by omega, h2⟩).2
    · rw [he.dataCache]
    · rw [he.dataCache]
    · rw [he.dataCache]
    · have hn : (Call.judge req o).note (.result r) s s' last
          = some ⟨req.seqNum, r, s'.contents⟩ := by
        refine if_neg ?_
        rw [he.nJudges]
        exact add_one_ne _
      rw [hn] at hl
      rw [← Option.some.inj hl]
      exact .inr rfl

/-! ### Runs -/

theorem Intact.steps (h : Intact s) (hok : CacheCallOk s c) (hc : c.run S t s = some (a, s')) :
    Steps c a s s' last := by
  cases c with
  | buffer c =>
      obtain ⟨rfl, rfl⟩ := Call.run_buffer hc
      exact h.command c
  | loadCache name off len hex tsc =>
      obtain ⟨⟨ok, s1⟩, hl, hr⟩ := Option.map_eq_some_iff.mp hc
      obtain ⟨rfl, rfl⟩ := Prod.mk.inj hr
      exact h.loadCache hok hl
  | storeCache name off len hex tsc =>
      obtain ⟨⟨ok, s1⟩, hs, hr⟩ := Option.map_eq_some_iff.mp hc
      obtain ⟨rfl, rfl⟩ := Prod.mk.inj hr
      exact h.storeCache hok hs
  | judge req o =>
      obtain ⟨⟨r, s1⟩, hj, hr⟩ := Option.map_eq_some_iff.mp hc
      obtain ⟨rfl, rfl⟩ := Prod.mk.inj hr
      exact h.judge hj

/-- The kept result belongs to the buffer as it is. -/
theorem Run.intact (h : Run S t CacheCallOk s last) :
    Intact s ∧ ∀ l, last = some l → s.contents = l.buffer := by
  induction h with
  | init hb hi => exact ⟨intact_of_init hb hi, fun l hl => nomatch hl⟩
  | @call s s' last c a _ hok hc ih =>
      obtain ⟨hintact, hkept⟩ := ih
      have hsteps : Steps c a s s' last := hintact.steps hok hc
      refine ⟨hintact.update hc hsteps.elf hsteps.data, fun l hl => ?_⟩
      rcases hsteps.note l hl with ⟨hlast, hsame⟩ | hnew
      · rw [hsame]
        exact hkept l hlast
      · exact hnew

theorem Run.mono {P Q : Judger → Call → Prop} (h : Run S t P s last)
    (hPQ : ∀ s c, P s c → Q s c) : Run S t Q s last := by
  induction h with
  | init hb hi => exact .init hb hi
  | call c a _ hc hr ih => exact .call c a ih (hPQ _ _ hc) hr

/-- Eight zeros, and the address of a page that has them as its contents. -/
def strayBytes : Mem := Mem.write64 (fun _ => 0) 8 4831842280

/-- The bytes are in the buffer, and the ELF cache holds these objects. -/
structure Stray (s : Judger) (objs : List Obj) (free : List UInt64) : Prop where
  reach : Reachable StdSort.insertion unitTimer s none
  buffer : s.buffer = 4831838208
  bufferSize : s.bufferSize = 536870912
  rep : DuckCache.Rep s.elfCache s.mem objs free
  pages : s.elfCache.nTotalPages = 65518
  objects : s.elfCache.nMaxObjects = 1000
  top : s.elfCache.objHash + s.elfCache.cacheSize ≤ 4831838208
  bytes : ∀ i, i < 16 → s.mem (4831842288 + i) = strayBytes i

theorem stray_written : ∃ s, Stray s [] s.elfCache.poolPages := by
  obtain ⟨s, hi, hbuffer, hsize, -⟩ := init_fiveGiB
  obtain ⟨elfCacheSize, dataCacheSize, m, a, hinit⟩ := init_inits hi
  obtain ⟨helf, hdata⟩ := hinit.initialised fiveGiB_booted.low
  have hreach : Reachable StdSort.insertion unitTimer s none := Run.init fiveGiB_booted hi
  have hplaced := hreach.placed
  have htop := helf.high
  have hbelow := hdata.high
  rw [← helf.start] at hbelow
  have haddr : s.addr 4080 = 4831842288 := by
    rw [hplaced.addr_toNat (by rw [hsize]; decide), hbuffer]
    rfl
  have hclear : (s.setMem (s.mem.put 4831842288 16 strayBytes)).clearJudgeResult
      = s.setMem (s.mem.put 4831842288 16 strayBytes) := if_pos hreach.kept.1
  have hin : s.inRange 4080 16 = true := by
    rw [inRange_iff, hsize]
    decide
  have hwrite : (Call.buffer (.write 4080 strayBytes 16)).run StdSort.insertion unitTimer s
      = some (.done true, s.setMem (s.mem.put 4831842288 16 strayBytes)) := by
    rw [Call.run, Command.run, writeBuffer, if_pos hin, haddr]
    exact congrArg (fun s => some (Answer.done true, s)) hclear
  refine ⟨_, Run.call _ _ hreach trivial hwrite, hbuffer, hsize, ?_, ?_, helf.maxObjects, ?_,
    fun i h => Mem.put_add h⟩
  · refine helf.rep.frame fun x h1 h2 => ?_
    rw [hbuffer] at htop
    show s.mem.put 4831842288 16 strayBytes x = m x
    change s.elfCache.objHash ≤ x at h1
    change x < s.elfCache.objHash + s.elfCache.cacheSize at h2
    change _ ≤ 4831838208 at htop
    rw [Mem.put_out (by omega), hdata.frame x (by omega)]
  · have hsizes := hinit.sizes
    rw [chooseSizes_fiveGiB] at hsizes
    have helfSize : elfCacheSize = 268435456 := (Prod.mk.inj (Prod.mk.inj hsizes).2).1.symm
    show s.elfCache.nTotalPages = 65518
    rw [helf.pages, helfSize]
    decide
  · rw [hbuffer] at htop
    exact htop

theorem stray_stored : ∃ s o q free, Stray s [o] (q :: free) ∧ o.digest = ⟨0, 0, 0, 0⟩ ∧
    o.entry.hash = 0 ∧ o.len = 8 ∧ o.data = strayBytes.bytes 8 8 := by
  obtain ⟨s, h⟩ := stray_written
  have hpages := h.pages
  have hobjects := h.objects
  have hcur : s.elfCache.nCurObjects = 0 := h.rep.length_objs.symm
  have hfree : s.elfCache.nFreePages = 65518 := by
    rw [← h.rep.nFree, DuckCache.length_poolPages, hpages]
  have hfind : s.elfCache.find s.mem ⟨0, 0, 0, 0⟩ = (false, 0) := by
    rw [DuckCache.find, if_pos hcur]
  have hone : DuckCache.nPages 8 = 1 := by decide
  have hroom : s.elfCache.needRemove (DuckCache.nPages 8) = false := by
    rw [DuckCache.needRemove, hone, decide_eq_false_iff_not]
    omega
  have haddr : s.addr 4088 = 4831842296 := by
    rw [h.reach.placed.addr_toNat (by rw [h.bufferSize]; decide), h.buffer]
    rfl
  obtain ⟨c, m, hstore, hins⟩ := DuckCache.store_fitting StdSort.insertion h.rep
    (by rw [hfind]) (by rw [hone]; omega) hroom (by decide)
      (by decide : (1 : UInt64) ≠ 0) 4831842296
  have hcall : (Call.storeCache "elf" 4088 8 zeroHex 1).run StdSort.insertion unitTimer s
      = some (.done true, { s.setMem m with elfCache := c }) := by
    rw [Call.run, Judger.storeCache, digestFromHex_zeroHex]
    dsimp only
    rw [if_pos rfl, haddr, hstore]
    rfl
  have htop := h.top
  have hrep := hins.rep
  rw [hfind, hone] at hrep
  set o := DuckCache.newObj s.elfCache m s.elfCache.poolPages ⟨0, 0, 0, 0⟩ 8 1 with ho
  obtain ⟨q, free, hq⟩ : ∃ q free, s.elfCache.poolPages.drop 1 = q :: free := by
    refine List.exists_cons_of_length_pos ?_
    rw [List.length_drop, DuckCache.length_poolPages]
    omega
  rw [hq] at hrep
  have hdata := hins.data (.inr (by omega))
  obtain ⟨_, _, _, hstatic⟩ := hins.static
  refine ⟨_, o, q, free, ⟨Run.call _ _ h.reach trivial hcall, h.buffer, h.bufferSize, hrep, ?_, ?_,
    ?_, fun i hi => ?_⟩, rfl, rfl, rfl, ?_⟩
  · show c.nTotalPages = _
    rw [hstatic]
    exact hpages
  · show c.nMaxObjects = _
    rw [hstatic]
    exact hobjects
  · show c.objHash + c.cacheSize ≤ _
    rw [hstatic]
    exact htop
  · show m (4831842288 + i) = _
    rw [hins.frame _ (.inr (by omega))]
    exact h.bytes i hi
  · rw [hdata]
    refine List.ext_getElem (by simp) fun i h1 h2 => ?_
    rw [Mem.getElem_bytes, Mem.getElem_bytes, ← h.bytes (8 + i) (by simp at h1; omega)]
    exact congrArg s.mem (by omega)

/-- The digest of ones. -/
def onesHex : Nat → UInt8 := fun _ => 49

/-- The first free page of the ELF cache leads into the buffer. -/
structure Astray (s : Judger) : Prop where
  reach : Reachable StdSort.insertion unitTimer s none
  buffer : s.buffer = 4831838208
  bufferSize : s.bufferSize = 536870912
  layout : s.elfCache.Layout
  pages : 2 ≤ s.elfCache.nTotalPages
  room : s.elfCache.needRemove 2 = false
  top : s.elfCache.objHash + s.elfCache.cacheSize ≤ 4831838208
  bytes : ∀ i, i < 16 → s.mem (4831842288 + i) = strayBytes i
  free : s.elfCache.freeListAddr ∈ s.elfCache.poolPages
  link : DuckCache.nextPage s.mem s.elfCache.freeListAddr = 4831842280
  misses : ∃ d, digestFromHex onesHex = some d ∧ (s.elfCache.find s.mem d).1 = false

theorem digestFromHex_onesHex : digestFromHex onesHex
    = some ⟨1229782938247303441, 1229782938247303441, 1229782938247303441,
      1229782938247303441⟩ := by
  decide

/-- The stored object is the one that is found. -/
theorem Stray.hit {s : Judger} {o : Obj} {free : List UInt64} (h : Stray s [o] free)
    (hdigest : o.digest = ⟨0, 0, 0, 0⟩) (hhash : o.entry.hash = 0) (hlen : o.len = 8) :
    DuckCache.Hit s.elfCache s.mem ⟨0, 0, 0, 0⟩ 8 ∧
      (s.elfCache.find s.mem ⟨0, 0, 0, 0⟩).2 = 0 := by
  have hsorted : DuckCache.Sorted [o] :=
    ⟨List.pairwise_singleton _ _, fun o' ho' => by rw [List.mem_singleton.mp ho', hhash, hdigest]⟩
  have hcur : s.elfCache.nCurObjects = 1 := h.rep.length_objs.symm
  have hfound := (hsorted.find_iff h.rep ⟨0, 0, 0, 0⟩).mpr
    ⟨o, List.mem_singleton_self o, hdigest⟩
  obtain ⟨hi, -⟩ := (DuckCache.find_bounds s.elfCache s.mem ⟨0, 0, 0, 0⟩).2 hfound
  have hidx : (s.elfCache.find s.mem ⟨0, 0, 0, 0⟩).2 = 0 := by omega
  refine ⟨⟨hfound, ?_⟩, hidx⟩
  rw [hidx, h.rep.metadataAt (i := 0) (by simp)]
  exact UInt64.toNat.inj hlen

/-- A load onto the first free page writes the link of the page, and one time stamp. -/
theorem Stray.load {s : Judger} {o : Obj} {q : UInt64} {free : List UInt64}
    (h : Stray s [o] (q :: free)) (hdigest : o.digest = ⟨0, 0, 0, 0⟩) (hhash : o.entry.hash = 0)
    (hlen : o.len = 8) :
    ∃ m, (Call.loadCache "elf" (q - s.buffer) 8 zeroHex 1).run StdSort.insertion unitTimer s
        = some (.done true, s.setMem m) ∧
      m.bytes q.toNat 8 = o.data ∧
      ∀ x, x < s.elfCache.objMetadata ∨ s.elfCache.sortIds ≤ x →
        (x < q.toNat ∨ q.toNat + 8 ≤ x) → m x = s.mem x := by
  have hL := h.rep.layout
  have hcur : s.elfCache.nCurObjects = 1 := h.rep.length_objs.symm
  have hmem : o ∈ [o] := List.mem_singleton_self o
  have hq : q ∈ s.elfCache.poolPages := h.rep.free_subset List.mem_cons_self
  obtain ⟨hit, hidx⟩ := h.hit hdigest hhash hlen
  obtain ⟨hi, -⟩ := hit.obj h.rep
  have hobj : [o][(s.elfCache.find s.mem ⟨0, 0, 0, 0⟩).2] = o := by simp
  -- the page of the object is not the free one
  have hfar : ∀ p ∈ o.pages, q.toNat + (8 : UInt64).toNat ≤ p.toNat ∨ p.toNat + 4096 ≤ q.toNat := by
    intro p hp
    have hpq : p ≠ q := by
      rintro rfl
      exact h.rep.pages_free hmem hp List.mem_cons_self
    have hapart := DuckCache.page_disjoint hL (h.rep.pages_subset hmem hp) hq hpq
    have height : (8 : UInt64).toNat = 8 := rfl
    omega
  obtain ⟨hlength, hload⟩ := DuckCache.load_hit_far h.rep hit (by decide : (1 : UInt64) ≠ 0) hi
    (by rw [hobj]; exact hfar)
  rw [hobj] at hlength hload
  have height : o.data.length = 8 := hlength
  set m := (s.elfCache.touched s.mem (s.elfCache.find s.mem ⟨0, 0, 0, 0⟩).2 1).putBytes q.toNat
    o.data with hm
  have haddr : s.addr (q - s.buffer) = q.toNat := by
    rw [addr]
    congr 1
    exact add_sub_cancel _ _
  have hclear : (s.setMem m).clearJudgeResult = s.setMem m := if_pos h.reach.kept.1
  refine ⟨m, ?_, ?_, fun x hx hxq => ?_⟩
  · rw [Call.run, Judger.loadCache, digestFromHex_zeroHex]
    dsimp only
    rw [if_pos rfl, haddr, hload]
    exact congrArg (fun s => some (Answer.done true, s)) hclear
  · rw [hm, ← height]
    exact Mem.bytes_putBytes _ q.toNat o.data
  · have hmeta := hL.metadata
    have hobjects := h.objects
    rw [hm, Mem.putBytes_out (by omega), DuckCache.touched]
    exact DuckCache.setMetadata_out (by omega) (by omega)

/-- Every other digest is missed as long as the tables stand. -/
theorem Stray.misses {s : Judger} {o : Obj} {free : List UInt64} (h : Stray s [o] free)
    (hdigest : o.digest = ⟨0, 0, 0, 0⟩) (hhash : o.entry.hash = 0) {m : Mem}
    (hout : ∀ x, s.elfCache.objHash ≤ x → x < s.elfCache.objMetadata → m x = s.mem x)
    {d : Digest256} (hd : d ≠ ⟨0, 0, 0, 0⟩) : (s.elfCache.find m d).1 = false := by
  have hL := h.rep.layout
  have hpool := hL.pool_le
  have hobjects := h.objects
  have hcur : s.elfCache.nCurObjects = 1 := h.rep.length_objs.symm
  have hdigests := hL.digest
  have hhashes := hL.hash
  have hdig : DuckCache.digestAt s.elfCache m 0 = ⟨0, 0, 0, 0⟩ := by
    rw [← hdigest, DuckCache.digestAt_congr (m := s.mem) (by omega) fun x h1 h2 =>
      hout x (by omega) (by omega)]
    exact h.rep.digestAt (by simp)
  have hh : DuckCache.hashAt s.elfCache m 0 = 0 := by
    rw [← hhash, DuckCache.hashAt_congr (m := s.mem) (by omega) fun x h1 h2 =>
      hout x (by omega) (by omega)]
    exact h.rep.hashAt (by simp)
  have htables : DuckCache.SortedTables s.elfCache m := by
    refine ⟨fun i j hij hj => by omega, fun i hi => ?_⟩
    obtain rfl : i = 0 := by omega
    rw [hdig, hh]
  rw [Bool.eq_false_iff]
  intro hfound
  obtain ⟨i, hi, hi'⟩ := (DuckCache.find_iff htables d).mp hfound
  obtain rfl : i = 0 := by omega
  exact hd (hi'.symm.trans hdig)

/-- The load of the address onto the link of a page. -/
theorem astray_loaded : ∃ s, Astray s := by
  obtain ⟨s, o, q, free, h, hdigest, hhash, hlen, hdata⟩ := stray_stored
  obtain ⟨m, hcall, hput, hout⟩ := h.load hdigest hhash hlen
  have hL := h.rep.layout
  have hpool := hL.pool_le
  have hpages := h.pages
  have hobjects := h.objects
  have htop := h.top
  have hcur : s.elfCache.nCurObjects = 1 := h.rep.length_objs.symm
  have hmem : o ∈ [o] := List.mem_singleton_self o
  have hq : q ∈ s.elfCache.poolPages := h.rep.free_subset List.mem_cons_self
  have hqb := DuckCache.page_bounds hL hq
  have hfirst : s.elfCache.freeListAddr = q := h.rep.freeList.1
  have hlink : DuckCache.nextPage m q = 4831842280 := by
    have hread : m.read64 q.toNat = strayBytes.read64 8 := by
      refine Mem.read64_shift fun i hi => ?_
      have hget := congrArg (·[i]?) (hput.trans hdata)
      simpa [Mem.bytes, hi] using hget
    rw [DuckCache.nextPage, hread, strayBytes, Mem.read64_write64_self]
  refine ⟨s.setMem m, Run.call _ _ h.reach trivial hcall, h.buffer, h.bufferSize, hL, ?_, ?_, htop,
    fun i hi => ?_, ?_, ?_, _, digestFromHex_onesHex, ?_⟩
  · show 2 ≤ s.elfCache.nTotalPages
    omega
  · show s.elfCache.needRemove 2 = false
    have hfree := h.rep.length_partition
    have hused : o.pages.length = 1 := by
      rw [(h.rep.stored o hmem).pages, show o.entry.metadata.len = 8 from UInt64.toNat.inj hlen]
      decide
    rw [List.flatMap_singleton, hused] at hfree
    rw [DuckCache.needRemove, decide_eq_false_iff_not]
    omega
  · show m _ = _
    rw [hout _ (by omega) (by omega)]
    exact h.bytes i hi
  · show s.elfCache.freeListAddr ∈ s.elfCache.poolPages
    rw [hfirst]
    exact hq
  · show DuckCache.nextPage m s.elfCache.freeListAddr = _
    rw [hfirst]
    exact hlink
  · exact h.misses hdigest hhash (fun x _ hx => hout x (.inl hx) (by omega)) (by decide)

/-- A request without buffers is executed and fails. -/
theorem judgeAfresh_empty (seqNum : UInt64) (s : Judger) : ∃ error,
    s.judgeAfresh t (emptyRequest seqNum) o
      = some (fail error (count (emptyRequest seqNum) s)) := by
  unfold judgeAfresh
  dsimp only
  split
  · exact ⟨_, rfl⟩
  · split
    · exact ⟨_, rfl⟩
    · split
      · exact ⟨_, rfl⟩
      · rename_i htime
        exact absurd (.inl rfl) htime

/-- It is noted, and nothing else changes. -/
theorem Run.judge_empty {P : Judger → Call → Prop} (h : Run S unitTimer P s none)
    (hP : P s (.judge (emptyRequest 5) idle)) :
    ∃ s' r, Run S unitTimer P s' (some ⟨5, r, s'.contents⟩) ∧ SameBuffer s s' ∧ s'.mem = s.mem ∧
      s'.elfCache = s.elfCache := by
  obtain ⟨error, hafresh⟩ := judgeAfresh_empty (t := unitTimer) (o := idle) 5 s
  have hseq : ¬(emptyRequest 5).seqNum = s.judgeSeqNum := by
    rw [h.kept.2.1]
    decide
  have hjudge : (Call.judge (emptyRequest 5) idle).run S unitTimer s
      = some (.result (fail error (count (emptyRequest 5) s)).1,
        (fail error (count (emptyRequest 5) s)).2) := by
    rw [Call.run, judge, if_neg hseq, hafresh]
    rfl
  have hrun := Run.call _ _ h hP hjudge
  have hnote : (Call.judge (emptyRequest 5) idle).note
      (.result (fail error (count (emptyRequest 5) s)).1) s
      (fail error (count (emptyRequest 5) s)).2 none
      = some ⟨5, (fail error (count (emptyRequest 5) s)).1,
        (fail error (count (emptyRequest 5) s)).2.contents⟩ :=
    if_neg (add_one_ne s.nJudges)
  rw [hnote] at hrun
  exact ⟨_, _, hrun, ⟨rfl, rfl⟩, rfl, rfl⟩

end Judger

end JudgeDuck
