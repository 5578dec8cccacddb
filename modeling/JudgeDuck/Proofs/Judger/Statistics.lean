/-
The verdict on a run and the statistics.

The time limit bounds the reported time: a program that exceeds it, or that the timer
has stopped, gets the limit as its time.  A history with all executed requests
(`Counted`) shows that the statistics are their number and the sum of their times.  A
replay repeats the answer of the request that was executed, also when its own limit is
another one.
-/
import JudgeDuck.Proofs.Judger.Limits
import JudgeDuck.Proofs.Elf.Access
import JudgeDuck.Model.DuckReply

namespace JudgeDuck

open Memory

namespace Elf

variable {buf : Mem} {len : UInt32} {config : AppConfig} {tscFreq vaddrBreak : UInt64} {a : App}
  {es : List Effect}

/-- A loaded program can be run: its region starts and ends at a page. -/
theorem load_aligned (h : load buf len config tscFreq vaddrBreak = some (a, es)) :
    a.startAddr.toNat % 4096 = 0 ∧ a.specialRegionBreakAddr.toNat % 4096 = 0 := by
  rcases load_cases h with h | h
  · obtain ⟨l, hl, rfl, -⟩ := loadElf64_eq_some h
    obtain ⟨hok, -⟩ := layout64_spec hl
    exact ⟨hok.aligned, hok.special_aligned⟩
  · obtain ⟨l, hl, rfl, -⟩ := loadElf32_eq_some h
    obtain ⟨hok, -⟩ := layout32_spec hl
    exact ⟨hok.aligned, hok.special_aligned⟩

theorem run_eq_some (h : load buf len config tscFreq vaddrBreak = some (a, es))
    (accesses : List Access) (s : Machine) : ∃ res s', run a accesses s = some (res, s') := by
  obtain ⟨h1, h2⟩ := load_aligned h
  have hop : ∃ m, setDuckWrittenByDirty.run a.startAddr a.specialRegionBreakAddr
      (runUser accesses s) = some m := by
    refine ⟨_, if_pos ⟨?_, ?_⟩⟩
    · exact UInt64.toNat_inj.mp ((UInt64.toNat_mod _ _).trans h1)
    · exact UInt64.toNat_inj.mp ((UInt64.toNat_mod _ _).trans h2)
  obtain ⟨m, hm⟩ := hop
  unfold run
  dsimp only
  rw [hm]
  exact ⟨_, _, rfl⟩

end Elf

namespace Judger

variable {S : StdSort} {t : TimerConfig} {P : Judger → Call → Prop} {s s' : Judger}
  {last : Option Last} {req : JudgeRequest} {o : Outcome} {r : JudgeResult}

/-! ### The verdict -/

/-- The text of the answer ends with the status of a finished run. -/
def ReportsFinished (w : DuckReply.World) (r : JudgeResult) : Prop :=
  DuckServer.ascii "\nstatus Run Finished\n" <:+ DuckReply.resultText w r

private theorem flatten_drop {α : Type} (n : Nat) (l : List (List α)) :
    l.flatten = (l.take n).flatten ++ (l.drop n).flatten := by
  rw [← List.flatten_append, List.take_append_drop]

/-- The last line of an answer. -/
def statusLine (status : String) : List UInt8 :=
  DuckServer.ascii "\nstatus " ++ (DuckServer.ascii status ++ (DuckServer.ascii "\n" ++ []))

theorem resultText_statusLine (w : DuckReply.World) (r : JudgeResult) :
    ∃ front, DuckReply.resultText w r = front ++ statusLine (if r.isRE then "Runtime Error" else
      if r.isTLE then "Time Limit Exceeded" else "Run Finished") := by
  unfold DuckReply.resultText
  exact ⟨_, flatten_drop 36 _⟩

theorem suffix_statusLine (front : List UInt8) :
    ∀ status ∈ ["Runtime Error", "Time Limit Exceeded", "Run Finished"],
      (DuckServer.ascii "\nstatus Run Finished\n" <:+ front ++ statusLine status ↔
        status = "Run Finished") := by
  -- no line is shorter than the one in question
  have lines : ∀ status ∈ ["Runtime Error", "Time Limit Exceeded", "Run Finished"],
      21 ≤ (statusLine status).length ∧
      (DuckServer.ascii "\nstatus Run Finished\n" <:+ statusLine status ↔
        status = "Run Finished") := by decide +kernel
  intro status hs
  obtain ⟨hlen, hiff⟩ := lines status hs
  rw [← hiff]
  constructor
  · exact fun h => List.suffix_of_suffix_length_le h (List.suffix_append _ _) hlen
  · exact fun h => h.trans (List.suffix_append _ _)

theorem reportsFinished_iff (w : DuckReply.World) (r : JudgeResult) :
    ReportsFinished w r ↔ r.isRE = false ∧ r.isTLE = false := by
  obtain ⟨front, hfront⟩ := resultText_statusLine w r
  unfold ReportsFinished
  rw [hfront]
  cases r.isRE with
  | true =>
      exact (suffix_statusLine front "Runtime Error" (by decide)).trans
        (iff_of_false (by decide) fun h => Bool.false_ne_true h.1.symm)
  | false =>
      cases r.isTLE with
      | true => exact (suffix_statusLine front "Time Limit Exceeded" (by decide)).trans (by decide)
      | false => exact (suffix_statusLine front "Run Finished" (by decide)).trans (by decide)

/-- What an answer says about the run. -/
structure Verdict (t : TimerConfig) (req : JudgeRequest) (o : Outcome)
    (r : JudgeResult) : Prop where
  time_le : r.timeNs ≤ req.timeLimitNs
  not_both : ¬(r.isRE = true ∧ r.isTLE = true)
  tle_iff : r.isTLE = true ↔ o.trapNum = 32 ∨ t.clkToNs o.clkThread > req.timeLimitNs
  tle_time : r.isTLE = true → r.timeNs = req.timeLimitNs
  finished_iff : ∀ w, ReportsFinished w r ↔
    o.trapNum = 255 ∧ t.clkToNs o.clkThread ≤ req.timeLimitNs

theorem limitTime_verdict (t : TimerConfig) (req : JudgeRequest) (o : Outcome)
    (res : Elf.RunOutput) :
    Verdict t req o (limitTime req (runResult t o res)) := by
  by_cases h : (runResult t o res).timeNs > req.timeLimitNs ∨ (runResult t o res).isTLE
  · have hlimit : limitTime req (runResult t o res) = { runResult t o res with
      isRE := false, isTLE := true, timeNs := req.timeLimitNs } := if_pos h
    have hout : o.trapNum = 32 ∨ t.clkToNs o.clkThread > req.timeLimitNs := by
      rcases h with h | h
      · exact .inr h
      · exact .inl (of_decide_eq_true h)
    rw [hlimit]
    refine ⟨UInt64.le_refl _, fun h => Bool.false_ne_true h.1, iff_of_true rfl hout, fun _ => rfl,
      fun w => ?_⟩
    rw [reportsFinished_iff]
    refine iff_of_false (fun h => Bool.false_ne_true h.2.symm) ?_
    rintro ⟨htrap, hle⟩
    rcases hout with h32 | hgt
    · rw [htrap] at h32
      exact absurd h32 (by decide)
    · exact UInt64.not_lt.mpr hle hgt
  · have hlimit : limitTime req (runResult t o res) = runResult t o res := if_neg h
    obtain ⟨htime, htle⟩ := not_or.mp h
    have hle : t.clkToNs o.clkThread ≤ req.timeLimitNs := UInt64.not_lt.mp htime
    have htle' : (runResult t o res).isTLE = false := Bool.not_eq_true _ ▸ htle
    rw [hlimit]
    refine ⟨hle, fun h => htle h.2, ?_, fun h => absurd h htle, fun w => ?_⟩
    · constructor
      · exact fun h => absurd h htle
      · rintro (h32 | hgt)
        · exact decide_eq_true h32
        · exact absurd hgt htime
    · rw [reportsFinished_iff, htle']
      constructor
      · exact fun h => ⟨not_not.mp (of_decide_eq_false h.1), hle⟩
      · exact fun h => ⟨decide_eq_false (not_not.mpr h.1), rfl⟩

/-! ### The statistics -/

/-- An executed request, what its run was and the answer. -/
structure Execution where
  req : JudgeRequest
  outcome : Outcome
  result : JudgeResult

/-- A request is executed unless it has the number of the kept result. -/
def Call.record (c : Call) (a : Answer) (s : Judger) (xs : List Execution) : List Execution :=
  match c, a with
  | .judge req o, .result r => if req.seqNum = s.judgeSeqNum then xs else ⟨req, o, r⟩ :: xs
  | _, _ => xs

/-- The histories with all executed requests, the newest one first. -/
inductive Counted (S : StdSort) (t : TimerConfig) : Judger → List Execution → Prop
  | init {machine : Machine} {s : Judger} : Booted machine → init machine = some s →
    Counted S t s []
  | call {s s' : Judger} {xs : List Execution} (c : Call) (a : Answer) : Counted S t s xs →
      c.run S t s = some (a, s') → Counted S t s' (c.record a s xs)

/-- The time of all runs, as an exact sum. -/
def totalTime (xs : List Execution) : Nat :=
  ((xs.filter fun x => x.result.error.isNone).map fun x => x.result.timeNs.toNat).sum

/-- The statistics count the executed requests, and a kept result without an error is that of the
newest one. -/
structure Statistics (t : TimerConfig) (s : Judger) (xs : List Execution) : Prop where
  nJudges : s.nJudges = UInt64.ofNat xs.length
  totalTimeNs : s.totalTimeNs = UInt64.ofNat (totalTime xs)
  kept : s.judgeResult.error = none → ∃ x, xs.head? = some x ∧ s.judgeSeqNum = x.req.seqNum ∧
    s.judgeResult = x.result ∧ Verdict t x.req x.outcome x.result

variable {xs : List Execution}

theorem Statistics.setMem (h : Statistics t s xs) (m : Mem) : Statistics t (s.setMem m) xs :=
  ⟨h.nJudges, h.totalTimeNs, h.kept⟩

theorem Statistics.clear (h : Statistics t s xs) : Statistics t s.clearJudgeResult xs := by
  unfold clearJudgeResult
  split
  · exact h
  · exact ⟨h.nJudges, h.totalTimeNs, fun hn => nomatch hn⟩

theorem Statistics.stored (h : Statistics t s xs) (hs : StoredOnly s s') : Statistics t s' xs where
  nJudges := hs.nJudges.trans h.nJudges
  totalTimeNs := hs.totalTimeNs.trans h.totalTimeNs
  kept := by
    rw [hs.seqNum, hs.result]
    exact h.kept

theorem totalTime_cons (x : Execution) (xs : List Execution) : totalTime (x :: xs) =
    (if x.result.error.isNone then x.result.timeNs.toNat else 0) + totalTime xs := by
  rw [totalTime, List.filter_cons]
  split
  · rw [List.map_cons, List.sum_cons]
    rfl
  · exact (Nat.zero_add _).symm

/-- An execution without an error adds its time, and its answer is the verdict on its run. -/
theorem judgeAfresh_time (h : s.judgeAfresh t req o = some (r, s')) :
    s'.totalTimeNs = s.totalTimeNs + (if r.error.isNone then r.timeNs else 0) ∧
    (r.error = none → Verdict t req o r) := by
  obtain ⟨hf, -⟩ | ⟨hf, -⟩ | ⟨a, es, start, res, stop, hf⟩ := judgeAfresh_cases h
  · obtain ⟨rfl, rfl⟩ := Prod.mk.inj hf
    exact ⟨(UInt64.add_zero _).symm, fun hn => nomatch hn⟩
  · obtain ⟨rfl, rfl⟩ := Prod.mk.inj hf
    exact ⟨(UInt64.add_zero _).symm, fun hn => nomatch hn⟩
  · have herror : r.error = none := by
      rw [hf.result, limitTime_error]
      rfl
    rw [hf.state, herror]
    refine ⟨rfl, fun _ => ?_⟩
    rw [hf.result]
    exact limitTime_verdict t req o res

theorem Statistics.executed (h : Statistics t s xs) (hj : s.judgeAfresh t req o = some (r, s')) :
    Statistics t s' (⟨req, o, r⟩ :: xs) := by
  have he := judgeAfresh_executed hj
  obtain ⟨htime, hverdict⟩ := judgeAfresh_time hj
  refine ⟨?_, ?_, fun hn => ⟨_, rfl, he.seqNum, he.result, hverdict ?_⟩⟩
  · rw [he.nJudges, h.nJudges, List.length_cons, UInt64.ofNat_add]
    rfl
  · rw [htime, h.totalTimeNs, totalTime_cons, UInt64.ofNat_add, UInt64.add_comm]
    cases r.error.isNone with
    | true => exact congrArg (· + _) UInt64.ofNat_toNat.symm
    | false => rfl
  · rw [← he.result]
    exact hn

theorem Statistics.run {c : Call} {a : Answer} (h : Statistics t s xs)
    (hc : c.run S t s = some (a, s')) : Statistics t s' (c.record a s xs) := by
  cases c with
  | buffer c =>
      obtain ⟨-, rfl⟩ := Call.run_buffer hc
      obtain ⟨he, -⟩ | ⟨-, -, m, he⟩ := c.run_cases s
      · rw [he]
        exact h
      · rw [he]
        exact (h.setMem m).clear
  | loadCache name off len hex tsc =>
      obtain ⟨⟨ok, s1⟩, hl, hr⟩ := Option.map_eq_some_iff.mp hc
      obtain ⟨rfl, rfl⟩ := Prod.mk.inj hr
      obtain ⟨-, m, rfl⟩ | ⟨-, m, rfl⟩ := loadCache_cases hl
      · exact h.setMem m
      · exact (h.setMem m).clear
  | storeCache name off len hex tsc =>
      obtain ⟨⟨ok, s1⟩, hl, hr⟩ := Option.map_eq_some_iff.mp hc
      obtain ⟨rfl, rfl⟩ := Prod.mk.inj hr
      exact h.stored (storeCache_only hl)
  | judge req o =>
      obtain ⟨⟨r, s1⟩, hj, hr⟩ := Option.map_eq_some_iff.mp hc
      obtain ⟨rfl, rfl⟩ := Prod.mk.inj hr
      unfold judge at hj
      by_cases hseq : req.seqNum = s.judgeSeqNum
      · rw [if_pos hseq] at hj
        rw [← (Prod.mk.inj (Option.some.inj hj)).2, Call.record, if_pos hseq]
        exact h
      · rw [if_neg hseq] at hj
        rw [Call.record, if_neg hseq]
        exact h.executed hj

theorem Counted.statistics (h : Counted S t s xs) : Statistics t s xs := by
  induction h with
  | init hb hi =>
      obtain ⟨_, _, hinit⟩ := init_initial hb.low hi
      refine ⟨hinit.nJudges, hinit.totalTimeNs, fun hn => ?_⟩
      rw [hinit.kept.2.2] at hn
      nomatch hn
  | call c a _ hc ih => exact ih.run hc

theorem Counted.reachable (h : Counted S t s xs) : ∃ last, Reachable S t s last := by
  induction h with
  | init hb hi => exact ⟨none, .init hb hi⟩
  | call c a _ hc ih =>
      obtain ⟨last, hr⟩ := ih
      exact ⟨_, .call c a hr trivial hc⟩

/-- The statistics, and every answer without an error: it is the verdict on the run of the newest
executed request, which has the number of the request that is answered. -/
theorem answers_correct (h : Counted S t s xs) :
    s.nJudges = UInt64.ofNat xs.length ∧ s.totalTimeNs = UInt64.ofNat (totalTime xs) ∧
    ∀ req o r s', s.judge t req o = some (r, s') → r.error = none →
      ∃ x, ((Call.judge req o).record (.result r) s xs).head? = some x ∧
        x.req.seqNum = req.seqNum ∧ x.result = r ∧ Verdict t x.req x.outcome r := by
  have hs := h.statistics
  refine ⟨hs.nJudges, hs.totalTimeNs, fun req o r s' hj hn => ?_⟩
  have hcall : (Call.judge req o).run S t s = some (.result r, s') := by
    rw [Call.run, hj]
    rfl
  have hs' := hs.run hcall
  have hkept : s'.judgeSeqNum = req.seqNum ∧ s'.judgeResult = r := by
    obtain ⟨hseq, hr, rfl⟩ | he := judge_cases hj
    · exact ⟨hseq.symm, hr.symm⟩
    · exact ⟨he.seqNum, he.result⟩
  obtain ⟨hseq, hr⟩ := hkept
  obtain ⟨x, hx, hnum, hres, hv⟩ := hs'.kept (by rw [hr]; exact hn)
  have hxr : x.result = r := hres.symm.trans hr
  rw [hxr] at hv
  exact ⟨x, hx, hnum.symm.trans hseq, hxr, hv⟩

/-! ### A replay with another limit -/

/-- The upper bound of the user's address space is a page boundary. -/
theorem Run.vaddrBreak_aligned (h : Run S t P s last) : s.machine.vaddrBreak.toNat % 4096 = 0 := by
  induction h with
  | init hb hi =>
      obtain ⟨_, _, hinit⟩ := init_initial hb.low hi
      exact hinit.aligned hb.aligned
  | call c a _ _ hc ih =>
      rw [Call.run_vaddrBreak hc]
      exact ih

/-- A loaded program runs to its end. -/
theorem execute_runs (h : Run S t P s last) (req : JudgeRequest) (o : Outcome)
    (hseq : req.seqNum ≠ s.judgeSeqNum) (hp : Passes s req) {a : Elf.App} {es : List Elf.Effect}
    (hl : loaded t req s = some (a, es)) :
    ∃ res s', s.judge t req o = some (limitTime req (runResult t o res), s') := by
  obtain ⟨_, start, -, hexec, -⟩ := Elf.load_rights h.vaddrBreak_aligned hl s.machine
  obtain ⟨res, stop, hrun⟩ := Elf.run_eq_some hl o.accesses start
  rw [judge, if_neg hseq, judgeAfresh_of_passes hp, execute]
  split
  · rename_i hnone
    cases hl.symm.trans hnone
  · rename_i app effects hsome
    obtain ⟨rfl, rfl⟩ := Prod.mk.inj (Option.some.inj (hl.symm.trans hsome))
    have hcount : Elf.exec es (count req s).machine = some start := hexec
    rw [hcount, Option.bind_some, hrun]
    exact ⟨res, _, rfl⟩

/-- The layout of a file that starts with the tiny one. -/
theorem regions_tiny {buf : Mem} (h : ∀ i, i < 120 → buf i = Elf.tinyFile64 i)
    (config : Elf.AppConfig)
    (vaddrBreak : UInt64) : Elf.regions Elf.elf64 buf 120 config vaddrBreak
      = Elf.regions Elf.elf64 Elf.tinyFile64 120 config vaddrBreak := by
  have h16 : ∀ a, a + 2 ≤ 120 → buf.read16 a = Elf.tinyFile64.read16 a := fun a ha =>
    Mem.read16_congr fun x _ hx => h x (by omega)
  have h32 : ∀ a, a + 4 ≤ 120 → buf.read32 a = Elf.tinyFile64.read32 a := fun a ha =>
    Mem.read32_congr fun x _ hx => h x (by omega)
  have h64 : ∀ a, a + 8 ≤ 120 → buf.read64 a = Elf.tinyFile64.read64 a := fun a ha =>
    Mem.read64_congr fun x _ hx => h x (by omega)
  have hident : Elf.identOk Elf.elf64 buf = Elf.identOk Elf.elf64 Elf.tinyFile64 := by
    simp only [Elf.identOk, h 0 (by decide), h 1 (by decide), h 2 (by decide), h 3 (by decide),
      h 4 (by decide), h 5 (by decide), h 6 (by decide), h 7 (by decide), h16 16 (by decide),
      h16 18 (by decide), h32 20 (by decide)]
  have hehdr : Elf.elf64.ehdr buf = Elf.elf64.ehdr Elf.tinyFile64 := by
    simp only [Elf.elf64, h16 54 (by decide), h16 56 (by decide), h64 24 (by decide),
      h64 32 (by decide)]
  have hphdr : Elf.elf64.phdr buf 64 = Elf.elf64.phdr Elf.tinyFile64 64 := by
    simp only [Elf.elf64, h32 64 (by decide), h32 68 (by decide), h64 72 (by decide),
      h64 80 (by decide), h64 96 (by decide), h64 104 (by decide), h64 112 (by decide)]
  have hnum : (Elf.elf64.ehdr Elf.tinyFile64).phnum.toNat = 1 := by decide +kernel
  have hoff : (Elf.phdrOffset (Elf.elf64.ehdr Elf.tinyFile64) 0).toNat = 64 := by decide +kernel
  have hscan : ∀ n acc, Elf.scanPhdrs Elf.elf64 buf n (Elf.elf64.ehdr Elf.tinyFile64) 1 0 acc
      = Elf.scanPhdrs Elf.elf64 Elf.tinyFile64 n (Elf.elf64.ehdr Elf.tinyFile64) 1 0 acc := by
    intro n acc
    simp only [Elf.scanPhdrs, hoff, hphdr]
  simp only [Elf.regions, hident, hehdr, hnum, hscan]

/-- A request for the tiny program, with a limit of 8 KiB. -/
def tinyRequest (timeLimitNs : UInt64) : JudgeRequest :=
  { emptyRequest 5 with
    timeLimitNs
    memoryHardLimitKb := 8
    elf := ⟨0, 120⟩
    stdin := ⟨120, 0⟩
    stdout := ⟨120, 0⟩
    stderr := ⟨120, 0⟩
    ib := ⟨120, 0⟩
    ob := ⟨120, 0⟩ }

theorem tinyRequest_passes (h : s.bufferSize = 536870912) : Passes s (tinyRequest 10) := by
  refine ⟨by decide, ?_, by decide⟩
  have hrange : ∀ b,
    s.isValidBuffer b = decide (b.off < 536870912 ∧ b.len ≤ 536870912 - b.off) := by
    intro b
    rw [isValidBuffer, inRange, h]
  simp only [checkBuffers, JudgeRequest.buffers, hrange]
  decide +kernel

theorem tinyRequest_loaded (h : ∀ i, i < 120 → s.mem (s.addr 0 + i) = Elf.tinyFile64 i)
    (hvb : s.machine.vaddrBreak = 3489660928) :
    ∃ a es, loaded unitTimer (tinyRequest 10) s = some (a, es) := by
  have hsome : (Elf.layout64 (fun i => s.mem (s.addr 0 + i)) 120 (s.appConfig (tinyRequest 10))
      3489660928).isSome = true := by
    have hregions : Elf.regions Elf.elf64 Elf.tinyFile64 120
      (s.appConfig (tinyRequest 10)) 3489660928
        = Elf.regions Elf.elf64 Elf.tinyFile64 120 Elf.tinyConfig 3489660928 := rfl
    rw [Elf.layout64, regions_tiny h, hregions]
    decide +kernel
  obtain ⟨l, hl⟩ := Option.isSome_iff_exists.mp hsome
  rw [← hvb] at hl
  have hclass : s.mem (s.addr 0 + 4) = 2 := (h 4 (by decide)).trans (by decide)
  have hload : loaded unitTimer (tinyRequest 10) s
      = Elf.loadElf64 (fun i => s.mem (s.addr 0 + i)) 120 (s.appConfig (tinyRequest 10)) 1000000000
        s.machine.vaddrBreak := (if_pos hclass)
  exact ⟨_, _, hload.trans (Elf.loadElf64_of_layout _ hl)⟩

/-- The tiny program takes 5 ns. -/
def fiveTicks : Outcome := { idle with clkThread := 5 }

/-- The judge starts, the program is written to the start of the buffer, and it runs. -/
theorem tiny_judge : ∃ s r s', Counted StdSort.insertion unitTimer s [] ∧
    (tinyRequest 10).seqNum ≠ s.judgeSeqNum ∧
    s.judge unitTimer (tinyRequest 10) fiveTicks = some (r, s') ∧ r.error = none ∧
      r.timeNs = 5 := by
  obtain ⟨s0, hi, -, hsize, hvb⟩ := init_fiveGiB
  have hrun0 : Counted StdSort.insertion unitTimer s0 [] := Counted.init fiveGiB_booted hi
  obtain ⟨s1, hs1⟩ : ∃ s1, s1 = (writeBuffer 0 Elf.tinyFile64 120 s0).2 := ⟨_, rfl⟩
  have hin : s0.inRange 0 120 = true := by
    rw [inRange, hsize]
    decide
  have hwrite : s1 = (s0.setMem (s0.mem.put (s0.addr 0) 120 Elf.tinyFile64)).clearJudgeResult := by
    rw [hs1, writeBuffer, if_pos hin]
    rfl
  have hrun1 : Counted StdSort.insertion unitTimer s1 [] :=
    hrun0.call (.buffer (.write 0 Elf.tinyFile64 120)) _ (by rw [hs1]; rfl)
  have hsame : SameBuffer s0 s1 := hwrite ▸ s0.clearJudgeResult_same _
  have haddr : s1.addr 0 = s0.addr 0 := by rw [addr, addr, hsame.buffer]
  have hfile : ∀ i, i < 120 → s1.mem (s1.addr 0 + i) = Elf.tinyFile64 i := by
    intro i hlt
    rw [haddr, hwrite, clearJudgeResult_mem]
    exact Mem.put_add hlt
  have hvb1 : s1.machine.vaddrBreak = 3489660928 := by
    rw [hwrite, clearJudgeResult_machine]
    exact hvb
  have hnone : s1.judgeSeqNum = -1 := by
    obtain ⟨_, _, hinit⟩ := init_initial fiveGiB_booted.low hi
    rw [hwrite]
    exact (hinit.kept.clear _).2.1
  obtain ⟨last, hreach⟩ := hrun1.reachable
  obtain ⟨a, es, hload⟩ := tinyRequest_loaded hfile hvb1
  have hseq : (tinyRequest 10).seqNum ≠ s1.judgeSeqNum := by
    rw [hnone]
    decide
  obtain ⟨res, s2, hj⟩ := execute_runs hreach (tinyRequest 10) fiveTicks hseq
    (tinyRequest_passes (hsame.bufferSize.trans hsize)) hload
  have hlimit : limitTime (tinyRequest 10) (runResult unitTimer fiveTicks res)
      = runResult unitTimer fiveTicks res :=
    if_neg (by decide : ¬((5 : UInt64) > 10 ∨ decide ((255 : UInt8) = 32) = true))
  rw [hlimit] at hj
  exact ⟨s1, _, s2, hrun1, hseq, hj, rfl, rfl⟩

theorem tiny_run : ∃ s r, Counted StdSort.insertion unitTimer s [⟨tinyRequest 10, fiveTicks, r⟩] ∧
    (tinyRequest 1).seqNum = s.judgeSeqNum ∧ s.judgeResult = r ∧ r.error = none ∧ r.timeNs = 5 := by
  obtain ⟨s, r, s', hrun, hseq, hj, herror, htime⟩ := tiny_judge
  have he : Executed s (tinyRequest 10) r s' := (judge_cases hj).resolve_left fun h => hseq h.1
  have hrun' :=
    hrun.call (.judge (tinyRequest 10) fiveTicks) (.result r) (by rw [Call.run, hj]; rfl)
  rw [Call.record, if_neg hseq] at hrun'
  exact ⟨s', r, hrun', he.seqNum.symm, he.result, herror, htime⟩

theorem answers_correct_tiny : ∃ (s : Judger) (r : JudgeResult), s.nJudges = 1 ∧ s.totalTimeNs = 5 ∧
    s.judge unitTimer (tinyRequest 1) idle = some (r, s) ∧
    Verdict unitTimer (tinyRequest 10) fiveTicks r := by
  obtain ⟨s, r, hrun, hseq, hr, herror, htime⟩ := tiny_run
  have hreplay : s.judge unitTimer (tinyRequest 1) idle = some (r, s) := by
    rw [judge, if_pos hseq, hr]
  obtain ⟨hn, htotal, hall⟩ := answers_correct hrun
  obtain ⟨x, hx, -, -, hv⟩ := hall (tinyRequest 1) idle r s hreplay herror
  rw [Call.record, if_pos hseq] at hx
  obtain rfl := Option.some.inj hx
  refine ⟨s, r, hn, ?_, hreplay, hv⟩
  rw [htotal, totalTime_cons, herror, htime]
  rfl

/-- A program with a limit of 10 ns takes 5 ns; the same number with a limit of 1 ns gets the same
answer. -/
theorem replay_over_limit : ¬∀ (S : StdSort) (t : TimerConfig) (s : Judger) (xs : List Execution),
    Counted S t s xs → ∀ req o r s', s.judge t req o = some (r, s') → r.error = none →
      r.timeNs ≤ req.timeLimitNs := by
  intro hall
  obtain ⟨s, r, hrun, hseq, hr, herror, htime⟩ := tiny_run
  have hreplay : s.judge unitTimer (tinyRequest 1) idle = some (r, s) := by
    rw [judge, if_pos hseq, hr]
  have hle := hall _ _ s _ hrun (tinyRequest 1) idle r s hreplay herror
  rw [htime] at hle
  exact absurd hle (by decide : ¬(5 : UInt64) ≤ 1)

end Judger

end JudgeDuck
