/-
What a judged program can change in the buffer.

The kernel's memory begins at `vaddr_break`, first with the tables of the data cache, and
the buffer lies at the top of it.  No page from `vaddr_break` on is ever writable for a
user, and the loaders write one page after it at most.  So a run reaches the buffer by
the three copies at its end only, and these stay in the ranges of the request.
-/
import JudgeDuck.Proofs.Elf.Closed
import JudgeDuck.Proofs.Judger.Statistics

namespace JudgeDuck

open Memory

namespace Judger

variable {S : StdSort} {t : TimerConfig} {P : Judger → Call → Prop} {s s' : Judger}
  {last : Option Last} {req : JudgeRequest} {o : Outcome} {r : JudgeResult} {c : Call} {a : Answer}

/-! ### The descriptors of a request -/

namespace BufferDesc

/-- The range of a descriptor lies in a buffer of this size. -/
def Inside (b : BufferDesc) (size : UInt64) : Prop := b.off.toNat + b.len.toNat ≤ size.toNat

def Disjoint (b b' : BufferDesc) : Prop :=
  b.off.toNat + b.len.toNat ≤ b'.off.toNat ∨ b'.off.toNat + b'.len.toNat ≤ b.off.toNat

end BufferDesc

/-- Both comparisons together exclude a sum that wraps. -/
theorem inside_of_inRange {off len : UInt64} (h : s.inRange off len = true) :
    off.toNat + len.toNat ≤ s.bufferSize.toNat := by
  obtain ⟨h1, h2⟩ := of_decide_eq_true h
  rw [UInt64.lt_iff_toNat_lt] at h1
  rw [UInt64.le_iff_toNat_le, UInt64.toNat_sub_of_le _ _ (UInt64.le_iff_toNat_le.mpr (by omega))]
    at h2
  omega

theorem disjoint_of_not_overlap {b b' : BufferDesc} {size : UInt64} (hb : BufferDesc.Inside b size)
    (hb' : BufferDesc.Inside b' size) (h : checkOverlap b b' = false) :
    BufferDesc.Disjoint b b' := by
  have hsize := size.toNat_lt
  unfold BufferDesc.Inside at hb hb'
  have hor := not_not.mp (of_decide_eq_false h)
  rw [UInt64.le_iff_toNat_le, UInt64.le_iff_toNat_le, Utils.toNat_add_of_lt (by omega),
    Utils.toNat_add_of_lt (by omega)] at hor
  exact hor

/-- The descriptors that passed the two loops. -/
theorem checkBuffers_spec {before bs : List BufferDesc} (h : s.checkBuffers before bs = true) :
    (∀ b ∈ bs, BufferDesc.Inside b s.bufferSize) ∧
    (∀ b ∈ before, ∀ b' ∈ bs, checkOverlap b' b = false) ∧
    bs.Pairwise fun b b' => checkOverlap b' b = false := by
  induction bs generalizing before with
  | nil =>
      exact ⟨fun b hb => (List.not_mem_nil hb).elim, fun _ _ b hb => (List.not_mem_nil hb).elim,
        .nil⟩
  | cons b bs ih =>
      rw [checkBuffers, Bool.and_eq_true, Bool.and_eq_true] at h
      obtain ⟨⟨hvalid, hbefore⟩, hrest⟩ := h
      obtain ⟨h1, h2, h3⟩ := ih hrest
      refine ⟨?_, ?_, ?_⟩
      · intro b' hb'
        rcases List.mem_cons.mp hb' with rfl | hb'
        · exact inside_of_inRange hvalid
        · exact h1 b' hb'
      · intro b' hb' b'' hb''
        rcases List.mem_cons.mp hb'' with rfl | hb''
        · exact (Bool.not_eq_true' _).mp (List.all_eq_true.mp hbefore b' hb')
        · exact h2 b' (List.mem_append_left _ hb') b'' hb''
      · exact List.pairwise_cons.mpr
          ⟨fun b' hb' => h2 b (List.mem_append_right _ List.mem_cons_self) b' hb', h3⟩

theorem checkBuffers_disjoint {bs : List BufferDesc} (h : s.checkBuffers [] bs = true) :
    bs.Pairwise BufferDesc.Disjoint := by
  obtain ⟨hin, -, hno⟩ := checkBuffers_spec h
  refine hno.imp_of_mem fun hb hb' hoverlap => ?_
  exact (disjoint_of_not_overlap (hin _ hb') (hin _ hb) hoverlap).symm

/-! ### Where the buffer is -/

/-- The kernel's memory above `vaddr_break`. -/
structure Placed (s : Judger) : Prop where
  aligned : s.machine.vaddrBreak.toNat % 4096 = 0
  /-- The first page belongs to the data cache. -/
  above : s.machine.vaddrBreak.toNat + 4096 ≤ s.buffer.toNat
  fits : s.buffer.toNat + s.bufferSize.toNat < 2 ^ 64
  closed : Elf.Closed (s.machine.vaddrBreak.toNat / 4096) s.machine

/-- The machine of another state, with other memory. -/
structure SameEntries (s s' : Judger) : Prop extends SameBuffer s s' where
  vaddrBreak : s'.machine.vaddrBreak = s.machine.vaddrBreak
  p1 : s'.machine.p1 = s.machine.p1

theorem Placed.same (h : Placed s) (hs : SameEntries s s') : Placed s' where
  aligned := by
    rw [hs.vaddrBreak]
    exact h.aligned
  above := by
    rw [hs.vaddrBreak, hs.buffer]
    exact h.above
  fits := by
    rw [hs.buffer, hs.bufferSize]
    exact h.fits
  closed := by
    rw [Elf.Closed, hs.vaddrBreak, hs.p1]
    exact h.closed

theorem placed_of_init {machine : Machine} (hb : Booted machine) (hi : init machine = some s) :
    Placed s := by
  obtain ⟨_, _, hinit⟩ := init_initial hb.low hi
  obtain ⟨_, _, _, helf⟩ := hinit.elf
  obtain ⟨_, m, hm, hdata⟩ := hinit.data
  obtain ⟨-, -, hcap, -⟩ := hinit.sizes.data
  have h1 := hdata.start
  have h2 := hdata.high
  have h3 := helf.high
  have h4 := hinit.top
  have h5 := machine.vaddrBreak.toNat_lt
  have h6 := hdata.low
  have h7 := hdata.size
  rw [toNat_kernelBreak] at h6
  refine ⟨hinit.aligned hb.aligned, by omega, by omega, fun p hp => ?_⟩
  rw [hinit.p1]
  exact hb.closed p (by omega)

theorem clearJudgeResult_sameEntries (s : Judger) (m : Mem) :
    SameEntries s (s.setMem m).clearJudgeResult := by
  unfold clearJudgeResult
  split <;> exact ⟨⟨rfl, rfl⟩, rfl, rfl⟩

theorem storeCache_p1 {name : String} {off len tsc : UInt64} {hex : Nat → UInt8} {ok : Bool}
    (h : storeCache S name off len hex tsc s = some (ok, s')) : s'.machine.p1 = s.machine.p1 := by
  unfold storeCache at h
  cases hd : digestFromHex hex with
  | none =>
      rw [hd] at h
      rw [← (Prod.mk.inj (Option.some.inj h)).2]
  | some digest =>
      rw [hd] at h
      dsimp only at h
      split at h
      · obtain ⟨_, -, hr⟩ := Option.map_eq_some_iff.mp h
        rw [← (Prod.mk.inj hr).2]
        rfl
      · split at h
        · obtain ⟨_, -, hr⟩ := Option.map_eq_some_iff.mp h
          rw [← (Prod.mk.inj hr).2]
          rfl
        · rw [← (Prod.mk.inj (Option.some.inj h)).2]

/-! ### A run that is finished -/

section

variable {app : Elf.App} {es : List Elf.Effect} {start stop : Machine} {res : Elf.RunOutput}

theorem Finished.spares (h : Finished t req o s app es start res stop r s') (hp : Placed s) :
    Elf.Closed (s.machine.vaddrBreak.toNat / 4096) stop ∧
      ∀ x, s.machine.vaddrBreak.toNat + 4096 ≤ x → stop.mem x = s.mem x := by
  obtain ⟨hclosed, hmem⟩ := Elf.load_spares h.load hp.aligned hp.closed h.exec
  have hrun := Elf.run_spares h.run hclosed
  refine ⟨hrun.closed, fun x hx => (hrun.mem x (by omega)).trans (hmem x hx)⟩

theorem Finished.placed (h : Finished t req o s app es start res stop r s') (hp : Placed s) :
    Placed s' := by
  have hclosed := (h.spares hp).1
  have hvb := h.vaddrBreak
  obtain rfl := h.state
  exact ⟨hvb ▸ hp.aligned, hvb ▸ hp.above, hp.fits, hvb ▸ hclosed⟩

end

/-- The three ranges that the outputs are copied to. -/
def InOutputs (req : JudgeRequest) (r : JudgeResult) (i : Nat) : Prop :=
  Mem.Range req.stdout.off.toNat r.stdoutSize.toNat i ∨
    Mem.Range req.stderr.off.toNat r.stderrSize.toNat i ∨
    Mem.Range req.ob.off.toNat req.ob.len.toNat i

/-- What a finished run has done to the buffer. -/
structure OutputsOnly (s : Judger) (req : JudgeRequest) (r : JudgeResult) (s' : Judger) : Prop where
  changed : ∀ i, i < s.bufferSize.toNat →
    s'.mem (s.buffer.toNat + i) ≠ s.mem (s.buffer.toNat + i) → InOutputs req r i
  stdoutSize : r.stdoutSize ≤ req.stdout.len
  stderrSize : r.stderrSize ≤ req.stderr.len
  inside : ∀ b ∈ req.buffers, BufferDesc.Inside b s.bufferSize
  disjoint : req.buffers.Pairwise BufferDesc.Disjoint

theorem limitTime_sizes (req : JudgeRequest) (r : JudgeResult) :
    (limitTime req r).stdoutSize = r.stdoutSize ∧ (limitTime req r).stderrSize = r.stderrSize := by
  unfold limitTime
  split <;> exact ⟨rfl, rfl⟩

/-- An offset of the buffer as an address. -/
theorem Placed.addr_toNat (h : Placed s) {off : UInt64} (hoff : off.toNat ≤ s.bufferSize.toNat) :
    (s.addr off) = s.buffer.toNat + off.toNat := by
  have hfits := h.fits
  rw [addr, Utils.toNat_add_of_lt (by omega)]

theorem Finished.outputs {app : Elf.App} {es : List Elf.Effect} {start stop : Machine}
    {res : Elf.RunOutput} (h : Finished t req o s app es start res stop r s') (hp : Placed s) :
    OutputsOnly s req r s' := by
  obtain ⟨hinside, -⟩ := checkBuffers_spec h.passes.buffers
  obtain ⟨houtSize, herrSize⟩ := Elf.run_sizes h.run
  obtain ⟨houtLimit, herrLimit⟩ := Elf.load_limits h.load
  obtain ⟨hresOut, hresErr⟩ := limitTime_sizes req (runResult t o res)
  have hrout : r.stdoutSize = res.stdoutSize := by
    rw [h.result, hresOut]
    rfl
  have hrerr : r.stderrSize = res.stderrSize := by
    rw [h.result, hresErr]
    rfl
  refine ⟨fun i hi hne => ?_, ?_, ?_, hinside, checkBuffers_disjoint h.passes.buffers⟩
  · have hmem := (h.spares hp).2 (s.buffer.toNat + i) (by have := hp.above; omega)
    have hout : BufferDesc.Inside req.stdout s.bufferSize :=
      hinside _ (by simp [JudgeRequest.buffers])
    have herr : BufferDesc.Inside req.stderr s.bufferSize :=
      hinside _ (by simp [JudgeRequest.buffers])
    have hob : BufferDesc.Inside req.ob s.bufferSize := hinside _ (by simp [JudgeRequest.buffers])
    unfold BufferDesc.Inside at hout herr hob
    by_contra hno
    unfold InOutputs Mem.Range at hno
    rw [hrout, hrerr] at hno
    refine hne ?_
    rw [h.state]
    show s.copyOutputs req res stop.mem _ = _
    rw [copyOutputs, hp.addr_toNat (by omega), hp.addr_toNat (by omega), hp.addr_toNat (by omega),
      Mem.memcpy_out (by omega), Mem.memcpy_out (by omega), Mem.memcpy_out (by omega)]
    exact hmem
  · rw [houtLimit] at houtSize
    rw [hrout]
    exact houtSize
  · rw [herrLimit] at herrSize
    rw [hrerr]
    exact herrSize

theorem fail_mem {error : String} (h : fail error (count req s) = (r, s')) :
    SameEntries s s' ∧ s'.mem = s.mem := by
  obtain ⟨-, rfl⟩ := Prod.mk.inj h
  exact ⟨⟨⟨rfl, rfl⟩, rfl, rfl⟩, rfl⟩

/-- An executed request fails without a change of the memory, or leaves the outputs. -/
theorem judgeAfresh_outputs (h : s.judgeAfresh t req o = some (r, s')) (hp : Placed s) :
    Placed s' ∧ (r.error ≠ none → s'.mem = s.mem) ∧ (r.error = none → OutputsOnly s req r s') := by
  obtain ⟨hf, -⟩ | ⟨hf, -⟩ | ⟨app, es, start, res, stop, hf⟩ := judgeAfresh_cases h
  · refine ⟨hp.same (fail_mem hf).1, fun _ => (fail_mem hf).2, fun hn => ?_⟩
    rw [← (Prod.mk.inj hf).1] at hn
    nomatch hn
  · refine ⟨hp.same (fail_mem hf).1, fun _ => (fail_mem hf).2, fun hn => ?_⟩
    rw [← (Prod.mk.inj hf).1] at hn
    nomatch hn
  · refine ⟨hf.placed hp, fun hn => absurd ?_ hn, fun _ => hf.outputs hp⟩
    rw [hf.result, limitTime_error]
    rfl

theorem Placed.run (h : Placed s) (hc : c.run S t s = some (a, s')) : Placed s' := by
  cases c with
  | buffer c =>
      obtain ⟨-, rfl⟩ := Call.run_buffer hc
      obtain ⟨he, -⟩ | ⟨-, -, m, he⟩ := c.run_cases s
      · rw [he]
        exact h
      · rw [he]
        exact h.same (s.clearJudgeResult_sameEntries m)
  | loadCache name off len hex tsc =>
      obtain ⟨⟨ok, s1⟩, hl, hr⟩ := Option.map_eq_some_iff.mp hc
      obtain ⟨-, rfl⟩ := Prod.mk.inj hr
      obtain ⟨-, m, rfl⟩ | ⟨-, m, rfl⟩ := loadCache_cases hl
      · exact h.same ⟨⟨rfl, rfl⟩, rfl, rfl⟩
      · exact h.same (s.clearJudgeResult_sameEntries m)
  | storeCache name off len hex tsc =>
      obtain ⟨⟨ok, s1⟩, hl, hr⟩ := Option.map_eq_some_iff.mp hc
      obtain ⟨-, rfl⟩ := Prod.mk.inj hr
      exact h.same ⟨(storeCache_only hl).toSameBuffer, (storeCache_only hl).vaddrBreak,
        storeCache_p1 hl⟩
  | judge req o =>
      obtain ⟨⟨r, s1⟩, hj, hr⟩ := Option.map_eq_some_iff.mp hc
      obtain ⟨-, rfl⟩ := Prod.mk.inj hr
      unfold judge at hj
      split at hj
      · rw [← (Prod.mk.inj (Option.some.inj hj)).2]
        exact h
      · exact (judgeAfresh_outputs hj h).1

theorem Run.placed (h : Run S t P s last) : Placed s := by
  induction h with
  | init hb hi => exact placed_of_init hb hi
  | call c a _ _ hc ih => exact ih.run hc

/-- **A judge changes the buffer in the ranges of the outputs only, and not at all when it answers
with an error.** -/
theorem judge_outputs (h : Reachable S t s last) {req : JudgeRequest} {o : Outcome}
    {r : JudgeResult} {s' : Judger} (hj : s.judge t req o = some (r, s')) :
    (r.error ≠ none → s'.contents = s.contents) ∧
    (req.seqNum = s.judgeSeqNum → s' = s) ∧
    (req.seqNum ≠ s.judgeSeqNum → r.error = none → OutputsOnly s req r s') := by
  by_cases hseq : req.seqNum = s.judgeSeqNum
  · rw [judge, if_pos hseq] at hj
    obtain ⟨-, rfl⟩ := Prod.mk.inj (Option.some.inj hj)
    exact ⟨fun _ => rfl, fun _ => rfl, fun hne => absurd hseq hne⟩
  · rw [judge, if_neg hseq] at hj
    obtain ⟨-, herror, hfinished⟩ := judgeAfresh_outputs hj h.placed
    have hsame := (judgeAfresh_executed hj).toSameBuffer
    refine ⟨fun hn => ?_, fun hs => absurd hs hseq, fun _ => hfinished⟩
    rw [contents, contents, hsame.buffer, hsame.bufferSize, herror hn]

theorem judge_outputs_tiny : ∃ s r s',
    s.judge unitTimer (tinyRequest 10) fiveTicks = some (r, s') ∧
    OutputsOnly s (tinyRequest 10) r s' := by
  obtain ⟨s, r, s', hrun, hseq, hj, herror, -⟩ := tiny_judge
  obtain ⟨last, hreach⟩ := hrun.reachable
  exact ⟨s, r, s', hj, (judge_outputs hreach hj).2.2 hseq herror⟩

end Judger

end JudgeDuck
