/-
The memory limit of a request.

The limit is multiplied and rounded modulo 2^64.  The one overflow test does not catch
every product that wraps, but a product that it lets through is at least the number of
KiB, and an address space of 512 GiB has no room for one that wrapped.
-/
import JudgeDuck.Proofs.Judger.Requests
import JudgeDuck.Proofs.Elf.Loading

namespace JudgeDuck

open Memory Utils

/-! ### The upper bound of the user's address space -/

theorem Memory.PageOp.loop_vaddrBreak (op : PageOp) : ∀ (k : Nat) (start : UInt64) (s : Machine),
    (op.loop k start s).vaddrBreak = s.vaddrBreak := by
  intro k
  induction k with
  | zero => intro start s; rfl
  | succ k ih => intro start s; exact ih _ _

theorem Memory.PageOp.run_vaddrBreak {op : PageOp} {start stop : UInt64} {s s' : Machine}
    (h : op.run start stop s = some s') : s'.vaddrBreak = s.vaddrBreak := by
  unfold PageOp.run at h
  split at h
  · rw [← Option.some.inj h, op.loop_vaddrBreak]
  · cases h

namespace Elf

theorem Effect.run_vaddrBreak {e : Effect} {s s' : Machine} (h : e.run s = some s') :
    s'.vaddrBreak = s.vaddrBreak := by
  cases e with
  | pages op start stop => exact op.run_vaddrBreak h
  | copy dst n src => rw [← Option.some.inj h]

theorem exec_vaddrBreak {es : List Effect} {s s' : Machine} (h : exec es s = some s') :
    s'.vaddrBreak = s.vaddrBreak := by
  induction es generalizing s with
  | nil => rw [← Option.some.inj h]
  | cons e es ih =>
      obtain ⟨m, he, hes⟩ := Option.bind_eq_some_iff.mp h
      exact (ih hes).trans (Effect.run_vaddrBreak he)

theorem Access.run_vaddrBreak (x : Access) (s : Machine) : (x.run s).vaddrBreak = s.vaddrBreak := by
  cases x with
  | read addr => exact (apply_ite Machine.vaddrBreak _ _ _).trans (ite_self _)
  | write addr val => exact (apply_ite Machine.vaddrBreak _ _ _).trans (ite_self _)

theorem runUser_vaddrBreak (accesses : List Access) (s : Machine) :
    (runUser accesses s).vaddrBreak = s.vaddrBreak := by
  induction accesses generalizing s with
  | nil => rfl
  | cons x xs ih => exact (ih (x.run s)).trans (x.run_vaddrBreak s)

theorem run_vaddrBreak {a : App} {accesses : List Access} {s s' : Machine} {res : RunOutput}
    (h : run a accesses s = some (res, s')) : s'.vaddrBreak = s.vaddrBreak := by
  obtain ⟨m, hm, hr⟩ := Option.bind_eq_some_iff.mp h
  obtain ⟨-, rfl⟩ := Prod.mk.inj (Option.some.inj hr)
  exact (PageOp.run_vaddrBreak hm).trans (runUser_vaddrBreak accesses s)

end Elf

namespace Judger

variable {S : StdSort} {t : TimerConfig} {P : Judger → Call → Prop} {s s' : Judger}
  {last : Option Last} {req : JudgeRequest} {o : Outcome} {r : JudgeResult}

theorem Finished.vaddrBreak {a : Elf.App} {es : List Elf.Effect} {start stop : Machine}
    {res : Elf.RunOutput} (h : Finished t req o s a es start res stop r s') :
    s'.machine.vaddrBreak = s.machine.vaddrBreak := by
  rw [h.state]
  exact (Elf.run_vaddrBreak h.run).trans (Elf.exec_vaddrBreak h.exec)

theorem judge_vaddrBreak (h : s.judge t req o = some (r, s')) :
    s'.machine.vaddrBreak = s.machine.vaddrBreak := by
  unfold judge at h
  split at h
  · rw [(Prod.mk.inj (Option.some.inj h)).2]
  · obtain ⟨hf, -⟩ | ⟨hf, -⟩ | ⟨a, es, start, res, stop, hf⟩ := judgeAfresh_cases h
    · rw [← (Prod.mk.inj hf).2]
      rfl
    · rw [← (Prod.mk.inj hf).2]
      rfl
    · exact hf.vaddrBreak

/-- Only `init` moves the upper bound. -/
theorem Call.run_vaddrBreak {c : Call} {a : Answer} (h : c.run S t s = some (a, s')) :
    s'.machine.vaddrBreak = s.machine.vaddrBreak := by
  have clear : ∀ m, (s.setMem m).clearJudgeResult.machine.vaddrBreak = s.machine.vaddrBreak :=
    fun m =>
    (congrArg Machine.vaddrBreak (s.setMem m).clearJudgeResult_machine : _
      = (s.setMem m).machine.vaddrBreak)
  cases c with
  | buffer c =>
      obtain ⟨-, rfl⟩ := Call.run_buffer h
      obtain ⟨he, -⟩ | ⟨-, -, m, he⟩ := c.run_cases s
      · rw [he]
      · rw [he]
        exact clear m
  | loadCache name off len hex tsc =>
      obtain ⟨⟨ok, s1⟩, hl, hr⟩ := Option.map_eq_some_iff.mp h
      obtain ⟨-, rfl⟩ := Prod.mk.inj hr
      obtain ⟨-, m, rfl⟩ | ⟨-, m, rfl⟩ := loadCache_cases hl
      · rfl
      · exact clear m
  | storeCache name off len hex tsc =>
      obtain ⟨⟨ok, s1⟩, hl, hr⟩ := Option.map_eq_some_iff.mp h
      obtain ⟨-, rfl⟩ := Prod.mk.inj hr
      exact (storeCache_only hl).vaddrBreak
  | judge req o =>
      obtain ⟨⟨r, s1⟩, hj, hr⟩ := Option.map_eq_some_iff.mp h
      obtain ⟨-, rfl⟩ := Prod.mk.inj hr
      exact judge_vaddrBreak hj

/-- The user's address space ends below 512 GiB. -/
theorem Run.vaddrBreak_le (h : Run S t P s last) : s.machine.vaddrBreak.toNat ≤ 2 ^ 39 := by
  induction h with
  | init hb hi =>
      obtain ⟨_, _, hinit⟩ := init_initial hb.low hi
      obtain ⟨_, _, _, helf⟩ := hinit.elf
      obtain ⟨_, a, ha, hdata⟩ := hinit.data
      have h1 := hdata.high
      have h2 := hdata.start
      have h3 := helf.high
      have h4 := hinit.top
      have h5 := hb.high
      omega
  | call c a _ _ hc ih =>
      rw [Call.run_vaddrBreak hc]
      exact ih

/-! ### The memory limit -/

/-- The loader that a file selects. -/
def fileFormat (buf : Mem) : Option Elf.Format :=
  if buf 4 = 2 then some Elf.elf64 else if buf 4 = 1 then some Elf.elf32 else none

theorem load_break {buf : Mem} {len : UInt32} {config : Elf.AppConfig} {tscFreq vaddrBreak : UInt64}
    {a : Elf.App} {es : List Elf.Effect}
    (h : Elf.load buf len config tscFreq vaddrBreak = some (a, es)) :
    ∃ F, fileFormat buf = some F ∧ a.startAddr = F.loadVaddrStart ∧
      a.breakAddr.toNat = a.startAddr.toNat + pageUp config.memoryHardLimit.toNat ∧
      a.breakAddr.toNat ≤ vaddrBreak.toNat := by
  unfold Elf.load at h
  unfold fileFormat
  split at h
  · cases h
  · split at h
    · rename_i hclass
      obtain ⟨l, hl, rfl, -⟩ := Elf.loadElf64_eq_some h
      obtain ⟨hok, -⟩ := Elf.layout64_spec hl
      exact ⟨_, if_pos hclass, hok.start, hok.break_eq, hok.break_le⟩
    · rename_i hclass
      split at h
      · rename_i hclass'
        obtain ⟨l, hl, rfl, -⟩ := Elf.loadElf32_eq_some h
        obtain ⟨hok, -⟩ := Elf.layout32_spec hl
        exact ⟨_, by rw [if_neg hclass, if_pos hclass'], hok.start, hok.break_eq, hok.break_le⟩
      · cases h

/-- A limit that passed the test and fits an address space is exact. -/
theorem limit_exact {kb : UInt64} (h : ¬kb * 1024 < kb) (hfit : (kb * 1024).toNat ≤ 2 ^ 39) :
    (kb * 1024).toNat = 1024 * kb.toNat := by
  rw [UInt64.lt_iff_toNat_lt] at h
  have hmul : (kb * 1024).toNat = kb.toNat * 1024 % 2 ^ 64 := UInt64.toNat_mul kb 1024
  omega

/-- A loaded program has exactly its limit, and a request whose limit has no room fails. -/
theorem load_limit (h : Reachable S t s last) (req : JudgeRequest) :
    (∀ a es, Passes s req → loaded t req s = some (a, es) →
      a.breakAddr.toNat = a.startAddr.toNat + pageUp (1024 * req.memoryHardLimitKb.toNat)) ∧
    ∀ o, req.seqNum ≠ s.judgeSeqNum → req.timeLimitNs ≠ 0 → req.timeLimitNs ≤ maxTimeLimitNs →
      (∀ F, fileFormat (fun i => s.mem (s.addr req.elf.off + i)) = some F →
        s.machine.vaddrBreak.toNat < F.loadVaddrStart.toNat + 1024 * req.memoryHardLimitKb.toNat) →
      ∃ r s', s.judge t req o = some (r, s') ∧ r.error = some "Can't load ELF" := by
  have hvb := h.vaddrBreak_le
  have exact : ∀ a es, Passes s req → loaded t req s = some (a, es) → ∃ F,
      fileFormat (fun i => s.mem (s.addr req.elf.off + i)) = some F ∧
      a.startAddr = F.loadVaddrStart ∧ a.breakAddr.toNat ≤ s.machine.vaddrBreak.toNat ∧
      a.breakAddr.toNat = a.startAddr.toNat + pageUp (1024 * req.memoryHardLimitKb.toNat) := by
    intro a es hp hl
    obtain ⟨F, hF, hstart, hbreak, hle⟩ := load_break hl
    have hfit := le_pageUp (s.appConfig req).memoryHardLimit.toNat
    have hlimit : (s.appConfig req).memoryHardLimit.toNat = 1024 * req.memoryHardLimitKb.toNat :=
      limit_exact hp.limit (by show (s.appConfig req).memoryHardLimit.toNat ≤ _; omega)
    rw [hlimit] at hbreak
    exact ⟨F, hF, hstart, hle, hbreak⟩
  refine ⟨fun a es hp hl => ?_, fun o hseq h0 hmax hroom => ?_⟩
  · obtain ⟨-, -, -, -, hbreak⟩ := exact a es hp hl
    exact hbreak
  · have htime : ¬(req.timeLimitNs = 0 ∨ req.timeLimitNs > maxTimeLimitNs) := by
      rintro (hz | hgt)
      · exact h0 hz
      · exact UInt64.not_lt.mpr hmax hgt
    have hnone : Passes s req → loaded t req s = none := by
      intro hp
      rw [Option.eq_none_iff_forall_ne_some]
      rintro ⟨a, es⟩ hl
      obtain ⟨F, hF, hstart, hle, hbreak⟩ := exact a es hp hl
      have := hroom F hF
      have := le_pageUp (1024 * req.memoryHardLimitKb.toNat)
      rw [hstart] at hbreak
      omega
    have hj : s.judge t req o = some (canNotLoadElf (count req s)) := by
      rw [judge, if_neg hseq]
      unfold judgeAfresh
      dsimp only
      by_cases hlimit : req.memoryHardLimitKb * 1024 < req.memoryHardLimitKb
      · exact if_pos hlimit
      · rw [if_neg hlimit]
        by_cases hbuf : s.checkBuffers [] req.buffers = true
        · have hl := hnone ⟨hlimit, hbuf, htime⟩
          refine (if_neg (not_not.mpr hbuf)).trans ((if_neg htime).trans ?_)
          unfold execute
          split
          · rfl
          · rename_i hload
            cases hl.symm.trans hload
        · exact if_pos hbuf
    exact ⟨_, _, hj, rfl⟩

/-- A limit whose product wraps and that still passes the test. -/
def wrappingRequest : JudgeRequest :=
  { emptyRequest 5 with timeLimitNs := 1, memoryHardLimitKb := 18446744073709551 }

example : ¬wrappingRequest.memoryHardLimitKb * 1024 < wrappingRequest.memoryHardLimitKb := by decide

theorem load_limit_wrapping : ∃ s r s', Reachable StdSort.insertion unitTimer s none ∧
    s.judge unitTimer wrappingRequest idle = some (r, s') ∧ r.error = some "Can't load ELF" := by
  obtain ⟨s, hi, -⟩ := init_fiveGiB
  have hrun : Reachable StdSort.insertion unitTimer s none := Run.init fiveGiB_booted hi
  have hvb := hrun.vaddrBreak_le
  have hseq : wrappingRequest.seqNum ≠ s.judgeSeqNum := by
    rw [hrun.kept.2.1]
    decide
  obtain ⟨r, s', hj, hr⟩ := (load_limit hrun wrappingRequest).2 idle hseq (by decide) (by decide)
    (fun F _ => by
      have : wrappingRequest.memoryHardLimitKb.toNat = 18446744073709551 := rfl
      omega)
  exact ⟨s, r, s', hrun, hj, hr⟩

end Judger

end JudgeDuck
