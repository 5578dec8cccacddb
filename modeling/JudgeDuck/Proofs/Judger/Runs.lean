/-
Histories of the judge.

A history starts with `init` on a machine as `Memory::init` leaves it and continues
with calls in any order.  Beside the code it carries the last executed request, with
its answer and the buffer when it returned, until the buffer is changed (`Last`).
The sequence number, the result and the flag in the static variables are that
request, or the values that stand for none (`Kept`).
-/
import JudgeDuck.Model.Judger
import JudgeDuck.Proofs.DuckCache.Init

namespace JudgeDuck

namespace Judger

open Memory

/-! ### Calls -/

/-- The commands of the buffer. -/
inductive Command where
  | clear (off len : UInt64)
  | read (off len : UInt64)
  | write (off : UInt64) (data : Nat → UInt8) (len : UInt64)
  | copy (dstOff srcOff len : UInt64)
  | compare (off1 off2 len : UInt64)

inductive Answer where
  | done (ok : Bool)
  | data (bytes : Option (List UInt8))
  | equal (result : Option Bool)
  | result (r : JudgeResult)
deriving DecidableEq

def Command.run : Command → Judger → Answer × Judger
  | .clear off len, s => ((.done (clearBuffer off len s).1), (clearBuffer off len s).2)
  | .read off len, s => (.data (readBuffer off len s), s)
  | .write off data len, s =>
    (.done (writeBuffer off data len s).1, (writeBuffer off data len s).2)
  | .copy dstOff srcOff len, s =>
    (.done (copyBuffer dstOff srcOff len s).1, (copyBuffer dstOff srcOff len s).2)
  | .compare off1 off2 len, s => (.equal (compareBuffer off1 off2 len s), s)

inductive Call where
  | buffer (c : Command)
  | loadCache (cacheName : String) (dstOff dstLen : UInt64) (hex : Nat → UInt8) (tsc : UInt64)
  | storeCache (cacheName : String) (srcOff srcLen : UInt64) (hex : Nat → UInt8) (tsc : UInt64)
  | judge (req : JudgeRequest) (o : Outcome)

def Call.run (S : StdSort) (t : TimerConfig) : Call → Judger → Option (Answer × Judger)
  | .buffer c, s => some (c.run s)
  | .loadCache cacheName dstOff dstLen hex tsc, s =>
    (Judger.loadCache cacheName dstOff dstLen hex tsc s).map fun r => (.done r.1, r.2)
  | .storeCache cacheName srcOff srcLen hex tsc, s =>
    (Judger.storeCache S cacheName srcOff srcLen hex tsc s).map fun r => (.done r.1, r.2)
  | .judge req o, s => (Judger.judge t req o s).map fun r => (.result r.1, r.2)

/-- The judge buffer. -/
def contents (s : Judger) : List UInt8 := s.mem.bytes s.buffer.toNat s.bufferSize.toNat

/-! ### Histories -/

/-- An executed request: its sequence number, its answer and the buffer when it returned. -/
structure Last where
  seqNum : UInt64
  result : JudgeResult
  buffer : List UInt8

/-- The commands that change the buffer. -/
def Command.Mutates : Command → Prop
  | .clear .. | .write .. | .copy .. => True
  | .read .. | .compare .. => False

instance (c : Command) : Decidable c.Mutates := by
  cases c <;> (unfold Command.Mutates; infer_instance)

/-- The last executed request after a call: a successful change of the buffer forgets it, and a
judge that counted the request as executed replaces it. -/
def Call.note (c : Call) (a : Answer) (s s' : Judger) (last : Option Last) : Option Last :=
  match c, a with
  | .buffer c, .done true => if c.Mutates then none else last
  | .loadCache .., .done true => none
  | .judge req _, .result r =>
    if s'.nJudges = s.nJudges then last else some ⟨req.seqNum, r, s'.contents⟩
  | _, _ => last

/-- A machine after `Memory::init`: all pages above the kernel belong to the kernel. -/
structure Booted (machine : Machine) : Prop where
  aligned : machine.vaddrBreak.toNat % 4096 = 0
  low : kernelBreak ≤ machine.vaddrBreak
  high : machine.vaddrBreak.toNat ≤ 2 ^ 39
  closed : ∀ p, 1024 ≤ p → Elf.userWritable (machine.p1 p) = false

/-- The histories in which every call meets the condition `P` in the state before it. -/
inductive Run (S : StdSort) (t : TimerConfig) (P : Judger → Call → Prop) :
    Judger → Option Last → Prop
  | init {machine : Machine} {s : Judger} : Booted machine → init machine = some s →
    Run S t P s none
  | call {s s' : Judger} {last : Option Last} (c : Call) (a : Answer) : Run S t P s last → P s c →
      c.run S t s = some (a, s') → Run S t P s' (c.note a s s' last)

/-! ### What is kept -/

/-- The static variables hold the last executed request. -/
def Kept (s : Judger) : Option Last → Prop
  | none => s.judgeResultCleared = true ∧ s.judgeSeqNum = -1 ∧ s.judgeResult = notJudged
  | some l => s.judgeResultCleared = false ∧ s.judgeSeqNum = l.seqNum ∧ s.judgeResult = l.result

variable {S : StdSort} {t : TimerConfig} {P : Judger → Call → Prop} {s s' : Judger}
  {last : Option Last}

/-- The buffer stays where `init` put it. -/
structure SameBuffer (s s' : Judger) : Prop where
  buffer : s'.buffer = s.buffer
  bufferSize : s'.bufferSize = s.bufferSize

theorem SameBuffer.refl (s : Judger) : SameBuffer s s := ⟨rfl, rfl⟩

@[simp] theorem setMem_mem (s : Judger) (m : Mem) : (s.setMem m).mem = m := rfl

theorem clearJudgeResult_machine (s : Judger) : s.clearJudgeResult.machine = s.machine := by
  unfold clearJudgeResult
  split <;> rfl

@[simp] theorem clearJudgeResult_mem (s : Judger) : s.clearJudgeResult.mem = s.mem :=
  congrArg Machine.mem s.clearJudgeResult_machine

theorem clearJudgeResult_same (s : Judger) (m : Mem) :
    SameBuffer s (s.setMem m).clearJudgeResult := by
  unfold clearJudgeResult
  split <;> exact ⟨rfl, rfl⟩

/-- Nothing is kept after a change. -/
theorem Kept.clear (h : Kept s last) (m : Mem) : Kept (s.setMem m).clearJudgeResult none := by
  unfold clearJudgeResult
  cases last with
  | none =>
      have hc : (s.setMem m).judgeResultCleared = true := h.1
      rw [if_pos hc]
      exact h
  | some l =>
      have hc : ¬(s.setMem m).judgeResultCleared = true := by
        show ¬s.judgeResultCleared = true
        rw [h.1]
        exact Bool.false_ne_true
      rw [if_neg hc]
      exact ⟨rfl, rfl, rfl⟩

/-! ### Calls, one by one -/

/-- A command fails without a change, or changes memory and clears the result if it is one of those
that do. -/
theorem Command.run_cases (c : Command) (s : Judger) :
    (c.run s).2 = s ∧ (c.Mutates → (c.run s).1 = .done false) ∨
    c.Mutates ∧ (c.run s).1 = .done true ∧ ∃ m, (c.run s).2 = (s.setMem m).clearJudgeResult := by
  cases c with
  | clear off len =>
      simp only [Command.run, clearBuffer]
      split
      · exact .inr ⟨trivial, rfl, _, rfl⟩
      · exact .inl ⟨rfl, fun _ => rfl⟩
  | read off len => exact .inl ⟨rfl, fun h => h.elim⟩
  | write off data len =>
      simp only [Command.run, writeBuffer]
      split
      · exact .inr ⟨trivial, rfl, _, rfl⟩
      · exact .inl ⟨rfl, fun _ => rfl⟩
  | copy dstOff srcOff len =>
      simp only [Command.run, copyBuffer]
      split
      · exact .inr ⟨trivial, rfl, _, rfl⟩
      · exact .inl ⟨rfl, fun _ => rfl⟩
  | compare off1 off2 len => exact .inl ⟨rfl, fun h => h.elim⟩

/-- `load_cache` fails with at most a change of memory, or changes memory and clears the result. -/
theorem loadCache_cases {name : String} {off len tsc : UInt64} {hex : Nat → UInt8} {ok : Bool}
    (h : loadCache name off len hex tsc s = some (ok, s')) :
    ok = false ∧ (∃ m, s' = s.setMem m) ∨
    ok = true ∧ ∃ m, s' = (s.setMem m).clearJudgeResult := by
  have key : ∀ {r : Option (Bool × Mem)}, (r.map fun r => (r.1, if r.1 then
      (s.setMem r.2).clearJudgeResult else s.setMem r.2)) = some (ok, s') →
      ok = false ∧ (∃ m, s' = s.setMem m) ∨
      ok = true ∧ ∃ m, s' = (s.setMem m).clearJudgeResult := by
    intro r hr
    obtain ⟨⟨b, m⟩, -, hb⟩ := Option.map_eq_some_iff.mp hr
    obtain ⟨rfl, rfl⟩ := Prod.mk.inj hb
    cases b with
    | false => exact .inl ⟨rfl, m, rfl⟩
    | true => exact .inr ⟨rfl, m, rfl⟩
  have same : some (false, s) = some (ok, s') → ok = false ∧ ∃ m, s' = s.setMem m := by
    intro hs
    obtain ⟨rfl, rfl⟩ := Prod.mk.inj (Option.some.inj hs)
    exact ⟨rfl, s.mem, rfl⟩
  unfold loadCache at h
  cases hd : digestFromHex hex with
  | none =>
      rw [hd] at h
      exact .inl (same h)
  | some digest =>
      rw [hd] at h
      dsimp only at h
      split at h
      · exact key h
      · split at h
        · exact key h
        · exact .inl (same h)

/-- What `store_cache` does not touch. -/
structure StoredOnly (s s' : Judger) : Prop extends SameBuffer s s' where
  nJudges : s'.nJudges = s.nJudges
  cleared : s'.judgeResultCleared = s.judgeResultCleared
  seqNum : s'.judgeSeqNum = s.judgeSeqNum
  result : s'.judgeResult = s.judgeResult
  totalTimeNs : s'.totalTimeNs = s.totalTimeNs
  vaddrBreak : s'.machine.vaddrBreak = s.machine.vaddrBreak

theorem storeCache_only {name : String} {off len tsc : UInt64} {hex : Nat → UInt8} {ok : Bool}
    (h : storeCache S name off len hex tsc s = some (ok, s')) : StoredOnly s s' := by
  unfold storeCache at h
  cases hd : digestFromHex hex with
  | none =>
      rw [hd] at h
      obtain ⟨-, rfl⟩ := Prod.mk.inj (Option.some.inj h)
      exact ⟨⟨rfl, rfl⟩, rfl, rfl, rfl, rfl, rfl, rfl⟩
  | some digest =>
      rw [hd] at h
      dsimp only at h
      split at h
      · obtain ⟨r, -, hr⟩ := Option.map_eq_some_iff.mp h
        obtain ⟨-, rfl⟩ := Prod.mk.inj hr
        exact ⟨⟨rfl, rfl⟩, rfl, rfl, rfl, rfl, rfl, rfl⟩
      · split at h
        · obtain ⟨r, -, hr⟩ := Option.map_eq_some_iff.mp h
          obtain ⟨-, rfl⟩ := Prod.mk.inj hr
          exact ⟨⟨rfl, rfl⟩, rfl, rfl, rfl, rfl, rfl, rfl⟩
        · obtain ⟨-, rfl⟩ := Prod.mk.inj (Option.some.inj h)
          exact ⟨⟨rfl, rfl⟩, rfl, rfl, rfl, rfl, rfl, rfl⟩

variable {req : JudgeRequest} {o : Outcome} {r : JudgeResult}

/-! ### The exits of `judge` -/

/-- A request that is executed is counted. -/
def count (req : JudgeRequest) (s : Judger) : Judger :=
  { s with
    nJudges := s.nJudges + 1
    judgeResultCleared := false
    judgeSeqNum := req.seqNum }

/-- The checks before the loader. -/
structure Passes (s : Judger) (req : JudgeRequest) : Prop where
  limit : ¬req.memoryHardLimitKb * 1024 < req.memoryHardLimitKb
  buffers : s.checkBuffers [] req.buffers = true
  time : ¬(req.timeLimitNs = 0 ∨ req.timeLimitNs > maxTimeLimitNs)

/-- What the loader answers. -/
def loaded (t : TimerConfig) (req : JudgeRequest) (s : Judger) : Elf.Loaded :=
  Elf.load (fun i => s.mem (s.addr req.elf.off + i)) req.elf.len.toUInt32 (s.appConfig req)
    t.tscFreq s.machine.vaddrBreak

/-- A request that passes the checks gets to the loader. -/
theorem judgeAfresh_of_passes {t : TimerConfig} {req : JudgeRequest} {o : Outcome}
    (h : Passes s req) : s.judgeAfresh t req o = (count req s).execute t req o :=
  (if_neg h.limit).trans ((if_neg (not_not.mpr h.buffers)).trans (if_neg h.time))

/-- A program was loaded and has run. -/
structure Finished (t : TimerConfig) (req : JudgeRequest) (o : Outcome) (s : Judger) (a : Elf.App)
    (es : List Elf.Effect) (start : Machine) (res : Elf.RunOutput) (stop : Machine)
    (r : JudgeResult) (s' : Judger) : Prop where
  passes : Passes s req
  load : loaded t req s = some (a, es)
  exec : Elf.exec es s.machine = some start
  run : Elf.run a o.accesses start = some (res, stop)
  result : r = limitTime req (runResult t o res)
  state : s' = { count req s with
    judgeResult := r
    machine := { stop with mem := s.copyOutputs req res stop.mem }
    totalTimeNs := s.totalTimeNs + r.timeNs }

/-- An executed request fails in one of two ways, or its program has run. -/
theorem judgeAfresh_cases (h : s.judgeAfresh t req o = some (r, s')) :
    (canNotLoadElf (count req s) = (r, s') ∧ ¬(Passes s req ∧ (loaded t req s).isSome)) ∨
    (invalidTimeLimit (count req s) = (r, s') ∧
      (req.timeLimitNs = 0 ∨ req.timeLimitNs > maxTimeLimitNs)) ∨
    ∃ a es start res stop, Finished t req o s a es start res stop r s' := by
  unfold judgeAfresh at h
  dsimp only at h
  split at h
  · rename_i hlimit
    exact .inl ⟨Option.some.inj h, fun hc => hc.1.limit hlimit⟩
  · rename_i hlimit
    split at h
    · rename_i hbuf
      exact .inl ⟨Option.some.inj h, fun hc => hbuf hc.1.buffers⟩
    · rename_i hbuf
      split at h
      · rename_i htime
        exact .inr (.inl ⟨Option.some.inj h, htime⟩)
      · rename_i htime
        unfold execute at h
        split at h
        · rename_i hload
          refine .inl ⟨Option.some.inj h, fun hc => ?_⟩
          have hsome := hc.2
          rw [loaded] at hsome
          exact Bool.false_ne_true ((congrArg Option.isSome hload).symm.trans hsome)
        · rename_i a es hload
          obtain ⟨start, hexec, hm⟩ := Option.bind_eq_some_iff.mp h
          obtain ⟨⟨res, stop⟩, hrun, hr⟩ := Option.map_eq_some_iff.mp hm
          obtain ⟨rfl, rfl⟩ := Prod.mk.inj hr
          exact .inr (.inr ⟨a, es, start, res, stop, ⟨hlimit, not_not.mp hbuf, htime⟩, hload, hexec,
            hrun, rfl, rfl⟩)

/-- What holds of every executed request, on all exits. -/
structure Executed (s : Judger) (req : JudgeRequest) (r : JudgeResult) (s' : Judger) : Prop
    extends SameBuffer s s' where
  nJudges : s'.nJudges = s.nJudges + 1
  cleared : s'.judgeResultCleared = false
  seqNum : s'.judgeSeqNum = req.seqNum
  result : s'.judgeResult = r
  elfCache : s'.elfCache = s.elfCache
  dataCache : s'.dataCache = s.dataCache

private theorem fail_executed {error : String} (h : fail error (count req s) = (r, s')) :
    Executed s req r s' := by
  obtain ⟨rfl, rfl⟩ := Prod.mk.inj h
  exact ⟨⟨rfl, rfl⟩, rfl, rfl, rfl, rfl, rfl, rfl⟩

theorem judgeAfresh_executed (h : s.judgeAfresh t req o = some (r, s')) : Executed s req r s' := by
  obtain ⟨hf, -⟩ | ⟨hf, -⟩ | ⟨a, es, start, res, stop, hf⟩ := judgeAfresh_cases h
  · exact fail_executed hf
  · exact fail_executed hf
  · obtain rfl := hf.state
    exact ⟨⟨rfl, rfl⟩, rfl, rfl, rfl, rfl, rfl, rfl⟩

theorem judge_cases (h : s.judge t req o = some (r, s')) :
    req.seqNum = s.judgeSeqNum ∧ r = s.judgeResult ∧ s' = s ∨ Executed s req r s' := by
  unfold judge at h
  split at h
  · rename_i hseq
    obtain ⟨rfl, rfl⟩ := Prod.mk.inj (Option.some.inj h)
    exact .inl ⟨hseq, rfl, rfl⟩
  · exact .inr (judgeAfresh_executed h)

/-! ### Steps and runs -/

variable {c : Call} {a : Answer}

theorem Call.run_buffer {c : Command} (h : (Call.buffer c).run S t s = some (a, s')) :
    a = (c.run s).1 ∧ s' = (c.run s).2 := by
  have hc : c.run s = (a, s') := Option.some.inj h
  rw [hc]
  exact ⟨rfl, rfl⟩

theorem Call.run_same (h : c.run S t s = some (a, s')) : SameBuffer s s' := by
  cases c with
  | buffer c =>
      obtain ⟨-, rfl⟩ := Call.run_buffer h
      obtain ⟨he, -⟩ | ⟨-, -, m, he⟩ := c.run_cases s
      · rw [he]
        exact .refl s
      · rw [he]
        exact s.clearJudgeResult_same m
  | loadCache name off len hex tsc =>
      obtain ⟨⟨ok, s1⟩, hl, hr⟩ := Option.map_eq_some_iff.mp h
      obtain ⟨-, rfl⟩ := Prod.mk.inj hr
      obtain ⟨-, m, rfl⟩ | ⟨-, m, rfl⟩ := loadCache_cases hl
      · exact ⟨rfl, rfl⟩
      · exact s.clearJudgeResult_same m
  | storeCache name off len hex tsc =>
      obtain ⟨⟨ok, s1⟩, hl, hr⟩ := Option.map_eq_some_iff.mp h
      obtain ⟨-, rfl⟩ := Prod.mk.inj hr
      exact (storeCache_only hl).toSameBuffer
  | judge req o =>
      obtain ⟨⟨r, s1⟩, hj, hr⟩ := Option.map_eq_some_iff.mp h
      obtain ⟨-, rfl⟩ := Prod.mk.inj hr
      obtain ⟨-, -, rfl⟩ | he := judge_cases hj
      · exact .refl _
      · exact he.toSameBuffer

theorem add_one_ne (n : UInt64) : n + 1 ≠ n := by
  intro h
  have := congrArg UInt64.toNat h
  rw [UInt64.toNat_add] at this
  have := n.toNat_lt
  have : (1 : UInt64).toNat = 1 := rfl
  omega

/-- One call keeps track of the last executed request. -/
theorem Kept.run (hk : Kept s last) (h : c.run S t s = some (a, s')) :
    Kept s' (c.note a s s' last) := by
  cases c with
  | buffer c =>
      obtain ⟨rfl, rfl⟩ := Call.run_buffer h
      obtain ⟨he, hf⟩ | ⟨hm, ha, m, he⟩ := c.run_cases s
      · have hn : (Call.buffer c).note (c.run s).1 s (c.run s).2 last = last := by
          by_cases hm : c.Mutates
          · rw [hf hm]
            rfl
          · cases c with
            | clear | write | copy => exact absurd trivial hm
            | read off len => rfl
            | compare off1 off2 len => rfl
        rw [hn, he]
        exact hk
      · have hn : (Call.buffer c).note (c.run s).1 s (c.run s).2 last = none := by
          rw [ha]
          exact if_pos hm
        rw [hn, he]
        exact hk.clear m
  | loadCache name off len hex tsc =>
      obtain ⟨⟨ok, s1⟩, hl, hr⟩ := Option.map_eq_some_iff.mp h
      obtain ⟨rfl, rfl⟩ := Prod.mk.inj hr
      obtain ⟨rfl, m, rfl⟩ | ⟨rfl, m, rfl⟩ := loadCache_cases hl
      · exact hk
      · exact hk.clear m
  | storeCache name off len hex tsc =>
      obtain ⟨⟨ok, s1⟩, hl, hr⟩ := Option.map_eq_some_iff.mp h
      obtain ⟨rfl, rfl⟩ := Prod.mk.inj hr
      have ho := storeCache_only hl
      show Kept s1 last
      unfold Kept
      rw [ho.cleared, ho.seqNum, ho.result]
      exact hk
  | judge req o =>
      obtain ⟨⟨r, s1⟩, hj, hr⟩ := Option.map_eq_some_iff.mp h
      obtain ⟨rfl, rfl⟩ := Prod.mk.inj hr
      show Kept s1 (if s1.nJudges = s.nJudges then last else some ⟨req.seqNum, r, s1.contents⟩)
      obtain ⟨-, -, rfl⟩ | he := judge_cases hj
      · rw [if_pos rfl]
        exact hk
      · rw [if_neg (by rw [he.nJudges]; exact add_one_ne _)]
        exact ⟨he.cleared, he.seqNum, he.result⟩

/-! ### The state after `init` -/

/-- The buffer is a block that ends at 2^64 at most. -/
def Fits (s : Judger) : Prop := s.buffer.toNat + s.bufferSize.toNat ≤ 2 ^ 64

theorem SameBuffer.fits (h : SameBuffer s s') (hf : s.Fits) : s'.Fits := by
  unfold Fits
  rw [h.buffer, h.bufferSize]
  exact hf

theorem getD_find?_mem {α : Type} {l : List α} {p : α → Bool} {d : α} (h : d ∈ l) :
    (l.find? p).getD d ∈ l := by
  cases hf : l.find? p with
  | some x => exact List.mem_of_find?_eq_some hf
  | none => exact h

/-- The sizes in bytes are one of thirteen rows. -/
theorem chooseSizes_mem (vaddrBreak : UInt64) :
    chooseSizes vaddrBreak ∈ bufferCacheSizes.map fun x =>
      (x.1 <<< (20 : UInt64), x.2.1 <<< (20 : UInt64), x.2.2 <<< (20 : UInt64)) :=
  getD_find?_mem (by decide +kernel)

/-- Sizes for which nothing wraps. -/
structure Sizes (bufferSize elfCacheSize dataCacheSize : UInt64) : Prop where
  buffer : bufferSize.toNat + 2097152 ≤ 2 ^ 64
  elf : DuckCache.SizesFit elfCacheN elfCacheSize
  data : DuckCache.SizesFit dataCacheN dataCacheSize

theorem chooseSizes_sizes (vaddrBreak : UInt64) :
    Sizes (chooseSizes vaddrBreak).1 (chooseSizes vaddrBreak).2.1 (chooseSizes vaddrBreak).2.2 := by
  have rows : ((bufferCacheSizes.map fun x =>
      (x.1 <<< (20 : UInt64), x.2.1 <<< (20 : UInt64), x.2.2 <<< (20 : UInt64))).all fun x =>
      decide (x.1.toNat + 2097152 ≤ 2 ^ 64 ∧ (x.2.1.toNat % 4096 = 0 ∧
        DuckCache.tablesBytes elfCacheN.toNat + 4096 < x.2.1.toNat ∧
        x.2.1.toNat + 2097152 ≤ 2 ^ 64) ∧ x.2.2.toNat % 4096 = 0 ∧
        DuckCache.tablesBytes dataCacheN.toNat + 4096 < x.2.2.toNat ∧
        x.2.2.toNat + 2097152 ≤ 2 ^ 64)) = true := by decide +kernel
  obtain ⟨hb, ⟨ha, hc, hl⟩, ha', hc', hl'⟩ :=
    of_decide_eq_true (List.all_eq_true.mp rows _ (chooseSizes_mem vaddrBreak))
  exact ⟨hb, ⟨by decide, ha, hc, hl⟩, ⟨by decide, ha', hc', hl'⟩⟩

/-- What `init` leaves: three blocks, one below the other, and no result. -/
structure Initial (machine : Machine) (elfCacheSize dataCacheSize : UInt64)
    (s : Judger) : Prop where
  sizes : Sizes s.bufferSize elfCacheSize dataCacheSize
  top : s.buffer.toNat + s.bufferSize.toNat ≤ machine.vaddrBreak.toNat
  elf : ∃ m m' a, DuckCache.Initialised elfCacheN elfCacheSize m s.buffer s.elfCache m' a
  data : ∃ m a, a.toNat = s.elfCache.objHash ∧
    DuckCache.Initialised dataCacheN dataCacheSize m a s.dataCache s.mem s.machine.vaddrBreak
  p1 : s.machine.p1 = machine.p1
  kept : Kept s none
  nJudges : s.nJudges = 0
  totalTimeNs : s.totalTimeNs = 0
  aligned : machine.vaddrBreak.toNat % 4096 = 0 → s.machine.vaddrBreak.toNat % 4096 = 0

theorem toOption_eq_some {ε α : Type} {x : Except ε α} {a : α} :
    x.toOption = some a ↔ x = .ok a := by
  cases x <;> simp [Except.toOption]

/-- The steps of a successful `init`. -/
structure Inits (machine : Machine) (elfCacheSize dataCacheSize : UInt64) (m : Mem) (a : UInt64)
    (s : Judger) : Prop where
  sizes : chooseSizes machine.vaddrBreak = (s.bufferSize, elfCacheSize, dataCacheSize)
  buffer : allocateVirtualMemory machine.vaddrBreak s.bufferSize = some s.buffer
  elf : DuckCache.init elfCacheN elfCacheSize
    (machine.mem.memset s.buffer.toNat 0 s.bufferSize.toNat) s.buffer = .ok (s.elfCache, m, a)
  data : DuckCache.init dataCacheN dataCacheSize m a
    = .ok (s.dataCache, s.mem, s.machine.vaddrBreak)
  p1 : s.machine.p1 = machine.p1
  kept : Kept s none
  nJudges : s.nJudges = 0
  totalTimeNs : s.totalTimeNs = 0

theorem init_inits {machine : Machine} (h : init machine = some s) :
    ∃ elfCacheSize dataCacheSize m a, Inits machine elfCacheSize dataCacheSize m a s := by
  unfold init at h
  generalize hs : chooseSizes machine.vaddrBreak = sizes at h
  obtain ⟨bufferSize, elfCacheSize, dataCacheSize⟩ := sizes
  dsimp only [Option.bind_eq_bind] at h
  obtain ⟨buffer, ha, h⟩ := Option.bind_eq_some_iff.mp h
  obtain ⟨⟨elfCache, m1, vb1⟩, he, h⟩ := Option.bind_eq_some_iff.mp h
  obtain ⟨⟨dataCache, m2, vb2⟩, hd, h⟩ := Option.bind_eq_some_iff.mp h
  rw [toOption_eq_some] at he hd
  have hs' := Option.some.inj h
  subst hs'
  exact ⟨elfCacheSize, dataCacheSize, m1, vb1, hs, ha, he, hd, rfl, ⟨rfl, rfl, rfl⟩, rfl, rfl⟩

/-- The blocks of the caches after `init`, with the memory between the two. -/
theorem Inits.initialised {machine : Machine} {elfCacheSize dataCacheSize a : UInt64} {m : Mem}
    (h : Inits machine elfCacheSize dataCacheSize m a s) (hb : kernelBreak ≤ machine.vaddrBreak) :
    DuckCache.Initialised elfCacheN elfCacheSize
      (machine.mem.memset s.buffer.toNat 0 s.bufferSize.toNat) s.buffer s.elfCache m a ∧
    DuckCache.Initialised dataCacheN dataCacheSize m a s.dataCache s.mem s.machine.vaddrBreak := by
  have hsizes := chooseSizes_sizes machine.vaddrBreak
  rw [h.sizes] at hsizes
  obtain ⟨hlow, -⟩ := allocateVirtualMemory_bounds hsizes.buffer hb h.buffer
  have hi := DuckCache.init_spec hsizes.elf (UInt64.le_iff_toNat_le.mpr hlow) h.elf
  have hlow1 : kernelBreak ≤ a := by
    rw [UInt64.le_iff_toNat_le, ← hi.start]
    exact hi.low
  exact ⟨hi, DuckCache.init_spec hsizes.data hlow1 h.data⟩

theorem init_initial {machine : Machine} (hb : kernelBreak ≤ machine.vaddrBreak)
    (h : init machine = some s) : ∃ elfCacheSize dataCacheSize,
      Initial machine elfCacheSize dataCacheSize s := by
  obtain ⟨elfCacheSize, dataCacheSize, m, a, hinit⟩ := init_inits h
  have hsizes := chooseSizes_sizes machine.vaddrBreak
  rw [hinit.sizes] at hsizes
  obtain ⟨hi, hj⟩ := hinit.initialised hb
  obtain ⟨-, hhigh⟩ := allocateVirtualMemory_bounds hsizes.buffer hb hinit.buffer
  refine ⟨elfCacheSize, dataCacheSize, hsizes, hhigh, ⟨_, _, _, hi⟩, ⟨m, a, hi.start.symm, hj⟩,
    hinit.p1, hinit.kept, hinit.nJudges, hinit.totalTimeNs, fun hvb => ?_⟩
  exact allocateVirtualMemory_aligned (allocateVirtualMemory_aligned
    (allocateVirtualMemory_aligned hvb hinit.buffer) (DuckCache.init_allocates hinit.elf))
    (DuckCache.init_allocates hinit.data)

theorem Run.kept (h : Run S t P s last) : Kept s last := by
  induction h with
  | init hb hi =>
      obtain ⟨_, _, h⟩ := init_initial hb.low hi
      exact h.kept
  | call c a _ _ hc ih => exact ih.run hc

theorem Run.fits (h : Run S t P s last) : s.Fits := by
  induction h with
  | @init machine s hb hi =>
      obtain ⟨_, _, h⟩ := init_initial hb.low hi
      have htop := h.top
      have := machine.vaddrBreak.toNat_lt
      unfold Fits
      omega
  | call c a _ _ hc ih => exact (Call.run_same hc).fits ih

/-! ### A machine with 5 GiB -/

def fiveGiB : Machine := ⟨fun _ => 0, fun _ => 0, 5368709120⟩

private theorem userWritable_zero : Elf.userWritable 0 = false := by decide

theorem fiveGiB_booted : Booted fiveGiB :=
  ⟨by decide, by decide, by decide, fun _ _ => userWritable_zero⟩

theorem chooseSizes_fiveGiB :
    chooseSizes fiveGiB.vaddrBreak = (536870912, 268435456, 1073741824) := by decide +kernel

private theorem elfCache_fiveGiB (m : Mem) : ∃ c m', DuckCache.init elfCacheN 268435456 m 4831838208
    = .ok (c, m', 4563402752) := by
  rw [DuckCache.init, (by decide : allocateVirtualMemory 4831838208 268435456 = some 4563402752),
    Option.elim_some, DuckCache.initBlock]
  dsimp only
  rw [if_neg (by decide)]
  exact ⟨_, _, rfl⟩

private theorem dataCache_fiveGiB (m : Mem) :
    ∃ c m', DuckCache.init dataCacheN 1073741824 m 4563402752 = .ok (c, m', 3489660928) := by
  rw [DuckCache.init, (by decide : allocateVirtualMemory 4563402752 1073741824 = some 3489660928),
    Option.elim_some, DuckCache.initBlock]
  dsimp only
  rw [if_neg (by decide)]
  exact ⟨_, _, rfl⟩

/-- The judge starts on it, with a buffer of 512 MiB. -/
theorem init_fiveGiB :
    ∃ s, init fiveGiB = some s ∧ s.buffer = 4831838208 ∧ s.bufferSize = 536870912 ∧
      s.machine.vaddrBreak = 3489660928 := by
  obtain ⟨c1, m1, h1⟩ := elfCache_fiveGiB (fiveGiB.mem.memset 4831838208 0 536870912)
  obtain ⟨c2, m2, h2⟩ := dataCache_fiveGiB m1
  refine ⟨⟨0, 0, 4831838208, 536870912, c1, c2, -1, notJudged, true, ⟨m2, fiveGiB.p1, 3489660928⟩⟩,
    ?_, rfl, rfl, rfl⟩
  unfold init
  rw [chooseSizes_fiveGiB]
  dsimp only [Option.bind_eq_bind]
  rw [(by decide : allocateVirtualMemory fiveGiB.vaddrBreak 536870912 = some 4831838208),
    Option.bind_some]
  refine Option.bind_eq_some_iff.mpr ⟨(c1, m1, 4563402752), toOption_eq_some.mpr h1, ?_⟩
  exact Option.bind_eq_some_iff.mpr ⟨(c2, m2, 3489660928), toOption_eq_some.mpr h2, rfl⟩

end Judger

end JudgeDuck
