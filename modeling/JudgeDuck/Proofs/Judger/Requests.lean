/-
Which requests are executed.

A request is executed unless the last executed request had its sequence number and
the buffer has not been changed since.  The value that stands for no request is a
sequence number too, 2^64 - 1: a request with it is not executed while no result is
kept, and is answered with "Not Judged".
-/
import JudgeDuck.Proofs.Judger.Flat

namespace JudgeDuck

namespace Judger

variable {S : StdSort} {t : TimerConfig} {s s' : Judger} {last : Option Last}

/-- The sequence number that is not executed: that of the last executed request, or the value for
none. -/
def answered : Option Last → UInt64
  | none => -1
  | some l => l.seqNum

theorem Kept.seqNum (h : Kept s last) : s.judgeSeqNum = answered last := by
  cases last with
  | none => exact h.2.1
  | some l => exact h.2.1

/-- A request with any other number is executed: it is counted, its number is kept, and the answer
is that of the execution. -/
theorem judge_executes (h : Reachable S t s last) (req : JudgeRequest) (o : Outcome)
    (hne : ∀ l, last = some l → req.seqNum ≠ l.seqNum) (hnone : last = none → req.seqNum ≠ -1) :
    s.judge t req o = s.judgeAfresh t req o ∧
    ∀ r s', s.judge t req o = some (r, s') → Executed s req r s' := by
  have hseq : req.seqNum ≠ s.judgeSeqNum := by
    rw [h.kept.seqNum]
    cases last with
    | none => exact hnone rfl
    | some l => exact hne l rfl
  have hj : s.judge t req o = s.judgeAfresh t req o := if_neg hseq
  refine ⟨hj, fun r s' hr => ?_⟩
  rw [hj] at hr
  exact judgeAfresh_executed hr

/-- A request without any buffers, that is executed and fails. -/
def emptyRequest (seqNum : UInt64) : JudgeRequest where
  seqNum
  timeLimitNs := 0
  memoryHardLimitKb := 0
  elf := ⟨0, 0⟩
  stdin := ⟨0, 0⟩
  stdout := ⟨0, 0⟩
  stderr := ⟨0, 0⟩
  ib := ⟨0, 0⟩
  ob := ⟨0, 0⟩
  obNeedClear := 0

/-- A program that does nothing. -/
def idle : Outcome where
  accesses := []
  countInst := 0
  clkThread := 0
  clkRefTsc := 0
  timeTsc := 0
  trapNum := 255
  returnCode := 0
  trapEpc := 0
  trapCr2 := 0

/-- A timer that counts nanoseconds. -/
def unitTimer : TimerConfig := ⟨1000000000, id, id⟩

theorem judge_executes_first : ∃ s, Reachable StdSort.insertion unitTimer s none ∧
    s.judge unitTimer (emptyRequest 5) idle = s.judgeAfresh unitTimer (emptyRequest 5) idle := by
  obtain ⟨s, hi, -⟩ := init_fiveGiB
  have hrun : Reachable StdSort.insertion unitTimer s none := Run.init fiveGiB_booted hi
  exact ⟨s, hrun, (judge_executes hrun (emptyRequest 5) idle (fun _ hl => nomatch hl)
    (fun _ => by decide)).1⟩

/-- Right after `init`, a request with the number 2^64 - 1 is not executed. -/
theorem judge_skips : ¬∀ (S : StdSort) (t : TimerConfig) (s : Judger) (last : Option Last),
    Reachable S t s last → ∀ (req : JudgeRequest) (o : Outcome),
      (∀ l, last = some l → req.seqNum ≠ l.seqNum) →
      ∀ r s', s.judge t req o = some (r, s') → s'.nJudges = s.nJudges + 1 := by
  intro h
  obtain ⟨s, hi, -⟩ := init_fiveGiB
  have hrun : Reachable StdSort.insertion unitTimer s none := Run.init fiveGiB_booted hi
  have hseq : (emptyRequest 18446744073709551615).seqNum = s.judgeSeqNum := hrun.kept.2.1.symm
  have hj : s.judge unitTimer (emptyRequest 18446744073709551615) idle = some (s.judgeResult, s) :=
    if_pos hseq
  have hgrow :=
    h _ _ _ _ hrun (emptyRequest 18446744073709551615) idle (fun _ hl => nomatch hl) _ _ hj
  exact add_one_ne _ hgrow.symm

/-! ### Replays -/

/-- A repeated request is answered with the kept result, and nothing changes. -/
theorem judge_replays {l : Last} (h : Kept s (some l)) {req : JudgeRequest} (o : Outcome)
    (hseq : req.seqNum = l.seqNum) : s.judge t req o = some (l.result, s) := by
  have hs : req.seqNum = s.judgeSeqNum := hseq.trans h.2.1.symm
  rw [judge, if_pos hs, h.2.2]

/-! ### Errors -/

/-- The error of the kept result is one of three, if there is one. -/
def KnownError (s : Judger) : Prop :=
  s.judgeResult.error ∈ [none, some "Not Judged", some "Can't load ELF", some "Invalid time limit"]

theorem KnownError.clear (h : KnownError s) (m : Mem) :
    KnownError (s.setMem m).clearJudgeResult := by
  unfold clearJudgeResult
  split
  · exact h
  · show some "Not Judged" ∈ _
    simp

theorem Command.run_knownError (h : KnownError s) (c : Command) : KnownError (c.run s).2 := by
  obtain ⟨he, -⟩ | ⟨-, -, m, he⟩ := c.run_cases s
  · rw [he]
    exact h
  · rw [he]
    exact h.clear m

theorem loadCache_knownError (h : KnownError s) {name : String} {off len tsc : UInt64}
    {hex : Nat → UInt8} {ok : Bool} (hl : loadCache name off len hex tsc s = some (ok, s')) :
    KnownError s' := by
  obtain ⟨-, m, rfl⟩ | ⟨-, m, rfl⟩ := loadCache_cases hl
  · exact h
  · exact h.clear m

theorem storeCache_knownError (h : KnownError s) {name : String} {off len tsc : UInt64}
    {hex : Nat → UInt8} {ok : Bool} (hs : storeCache S name off len hex tsc s = some (ok, s')) :
    KnownError s' := by
  unfold KnownError
  rw [(storeCache_only hs).result]
  exact h

theorem limitTime_error (req : JudgeRequest) (r : JudgeResult) :
    (limitTime req r).error = r.error := by
  unfold limitTime
  split <;> rfl

theorem judgeAfresh_error {req : JudgeRequest} {o : Outcome} {r : JudgeResult}
    (h : s.judgeAfresh t req o = some (r, s')) :
    r.error ∈ [none, some "Not Judged", some "Can't load ELF", some "Invalid time limit"] := by
  obtain ⟨hf, -⟩ | ⟨hf, -⟩ | ⟨a, es, start, res, stop, hf⟩ := judgeAfresh_cases h
  · rw [← (Prod.mk.inj hf).1]
    simp
  · rw [← (Prod.mk.inj hf).1]
    simp
  · rw [hf.result, limitTime_error]
    exact List.mem_cons_self

theorem judge_knownError (h : KnownError s) {req : JudgeRequest} {o : Outcome} {r : JudgeResult}
    (hj : s.judge t req o = some (r, s')) : KnownError s' ∧ s'.judgeResult = r := by
  unfold judge at hj
  split at hj
  · obtain ⟨rfl, rfl⟩ := Prod.mk.inj (Option.some.inj hj)
    exact ⟨h, rfl⟩
  · have he := judgeAfresh_executed hj
    refine ⟨?_, he.result⟩
    unfold KnownError
    rw [he.result]
    exact judgeAfresh_error hj

theorem Run.knownError {P : Judger → Call → Prop} (h : Run S t P s last) : KnownError s := by
  induction h with
  | init hb hi =>
      obtain ⟨_, _, hinit⟩ := init_initial hb.low hi
      unfold KnownError
      rw [hinit.kept.2.2]
      simp [notJudged]
  | call c a _ _ hc ih =>
      cases c with
      | buffer c =>
          obtain ⟨-, rfl⟩ := Call.run_buffer hc
          exact Command.run_knownError ih c
      | loadCache name off len hex tsc =>
          obtain ⟨⟨ok, s1⟩, hl, hr⟩ := Option.map_eq_some_iff.mp hc
          obtain ⟨-, rfl⟩ := Prod.mk.inj hr
          exact loadCache_knownError ih hl
      | storeCache name off len hex tsc =>
          obtain ⟨⟨ok, s1⟩, hl, hr⟩ := Option.map_eq_some_iff.mp hc
          obtain ⟨-, rfl⟩ := Prod.mk.inj hr
          exact storeCache_knownError ih hl
      | judge req o =>
          obtain ⟨⟨r, s1⟩, hj, hr⟩ := Option.map_eq_some_iff.mp hc
          obtain ⟨-, rfl⟩ := Prod.mk.inj hr
          exact (judge_knownError ih hj).1

end Judger

end JudgeDuck
