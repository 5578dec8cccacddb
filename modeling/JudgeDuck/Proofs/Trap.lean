/-
The classification of traps.

`run_user_64` and `run_user_32` agree on what they report: the exit argument after the
exit system call of the program's own word size, and 0 otherwise.  One branch of
`run_user_64` does not assign the return code, that of `abort()`, and what was in the
caller's memory before gets into the answer.
-/
import JudgeDuck.Model.Trap

namespace JudgeDuck.Trap

open Elf

variable {elfClass : ElfClass} {tf : Trapframe}

/-- The program has called the exit of its own word size. -/
def Exits : ElfClass → Trapframe → Prop
  | .elf64, tf => tf.num.toUInt8 = trapSyscall ∧ int tf.rax = duckSysExit
  | .elf32, tf => tf.num.toUInt8 = trapSyscall32 ∧ int tf.rax = duckSysExit32

instance (elfClass : ElfClass) (tf : Trapframe) : Decidable (Exits elfClass tf) := by
  cases elfClass <;> (unfold Exits; infer_instance)

/-- The exit argument. -/
def exitArg : ElfClass → Trapframe → UInt64
  | .elf64, tf => tf.rdi
  | .elf32, tf => tf.rbx

/-- A 64-bit program has called `abort()`. -/
def Aborts (elfClass : ElfClass) (tf : Trapframe) : Prop :=
  elfClass = .elf64 ∧ tf.num.toUInt8 = trapSyscall ∧ int tf.rax = sysTkill

/-- The return code is the exit argument or 0, and `TRAP_SYSCALL` is reported after an exit only. -/
structure Classified (elfClass : ElfClass) (tscToUser : UInt64) (tf : Trapframe) (out : Outputs) :
    Prop where
  returnCode : (runUser elfClass tscToUser tf out).returnCode
    = if Exits elfClass tf then int (exitArg elfClass tf) else 0
  trapNum : (runUser elfClass tscToUser tf out).trapNum = trapSyscall ↔ Exits elfClass tf

/-! ### The two functions -/

private theorem invalid_ne : trapInvalidSyscall ≠ trapSyscall := by decide

/-- What `run_user_64` leaves, case by case. -/
theorem runUser64_cases (tscToUser : UInt64) (tf : Trapframe) (out : Outputs) :
    (Aborts .elf64 tf ∧ (runUser64 tscToUser tf out).trapNum = trapAbort ∧
      (runUser64 tscToUser tf out).returnCode = out.returnCode) ∨
    (Exits .elf64 tf ∧ (runUser64 tscToUser tf out).trapNum = trapSyscall ∧
      (runUser64 tscToUser tf out).returnCode = int tf.rdi) ∨
    (¬Aborts .elf64 tf ∧ ¬Exits .elf64 tf ∧ (runUser64 tscToUser tf out).trapNum ≠ trapSyscall ∧
      (runUser64 tscToUser tf out).returnCode = 0) := by
  by_cases hnum : tf.num.toUInt8 = trapSyscall
  · by_cases hkill : int tf.rax = sysTkill
    · have hrun : runUser64 tscToUser tf out
          = { enter tscToUser tf out with trapNum := trapAbort } :=
        (if_pos hnum).trans (if_pos hkill)
      exact .inl ⟨⟨rfl, hnum, hkill⟩, by rw [hrun], by rw [hrun]; rfl⟩
    · by_cases hexit : int tf.rax = duckSysExit
      · have hrun : runUser64 tscToUser tf out
            = { enter tscToUser tf out with returnCode := int tf.rdi } :=
          (if_pos hnum).trans ((if_neg hkill).trans (if_neg (not_not.mpr hexit)))
        exact .inr (.inl ⟨⟨hnum, hexit⟩, by rw [hrun]; exact hnum, by rw [hrun]⟩)
      · have hrun : runUser64 tscToUser tf out
            = { enter tscToUser tf out with trapNum := trapInvalidSyscall, returnCode := 0 } :=
          (if_pos hnum).trans ((if_neg hkill).trans (if_pos hexit))
        exact .inr (.inr ⟨fun h => hkill h.2.2,
          fun h => hexit h.2, by rw [hrun]; exact invalid_ne, by rw [hrun]⟩)
  · have hrun : runUser64 tscToUser tf out = { enter tscToUser tf out with returnCode := 0 } :=
      if_neg hnum
    exact .inr (.inr ⟨fun h => hnum h.2.1,
      fun h => hnum h.1, by rw [hrun]; exact hnum, by rw [hrun]⟩)

/-- `run_user_32` has no case of its own for `abort()`. -/
theorem runUser32_cases (tscToUser : UInt64) (tf : Trapframe) (out : Outputs) :
    (Exits .elf32 tf ∧ (runUser32 tscToUser tf out).trapNum = trapSyscall ∧
      (runUser32 tscToUser tf out).returnCode = int tf.rbx) ∨
    (¬Exits .elf32 tf ∧ (runUser32 tscToUser tf out).trapNum ≠ trapSyscall ∧
      (runUser32 tscToUser tf out).returnCode = 0) := by
  by_cases hnum : tf.num.toUInt8 = trapSyscall32
  · by_cases hexit : int tf.rax = duckSysExit32
    · have hrun : runUser32 tscToUser tf out
          = { enter tscToUser tf out with trapNum := trapSyscall, returnCode := int tf.rbx } :=
        (if_pos hnum).trans (if_neg (not_not.mpr hexit))
      exact .inl ⟨⟨hnum, hexit⟩, by rw [hrun], by rw [hrun]⟩
    · have hrun : runUser32 tscToUser tf out
          = { enter tscToUser tf out with trapNum := trapInvalidSyscall, returnCode := 0 } :=
        (if_pos hnum).trans (if_pos hexit)
      exact .inr ⟨fun h => hexit h.2, by rw [hrun]; exact invalid_ne, by rw [hrun]⟩
  · by_cases hother : tf.num.toUInt8 = trapSyscall
    · have hrun : runUser32 tscToUser tf out
          = { enter tscToUser tf out with trapNum := trapInvalidSyscall, returnCode := 0 } :=
        (if_neg hnum).trans (if_pos hother)
      exact .inr ⟨fun h => hnum h.1, by rw [hrun]; exact invalid_ne, by rw [hrun]⟩
    · have hrun : runUser32 tscToUser tf out = { enter tscToUser tf out with returnCode := 0 } :=
        (if_neg hnum).trans (if_neg hother)
      exact .inr ⟨fun h => hnum h.1, by rw [hrun]; exact hother, by rw [hrun]⟩

/-! ### The return code -/

theorem Aborts.not_exits (h : Aborts elfClass tf) : ¬Exits elfClass tf := by
  obtain ⟨rfl, -, hkill⟩ := h
  intro hexit
  exact absurd (hkill.symm.trans hexit.2) (by decide)

theorem classified_iff (elfClass : ElfClass) (tscToUser : UInt64) (tf : Trapframe) (out : Outputs) :
    Classified elfClass tscToUser tf out ↔ ¬Aborts elfClass tf ∨ out.returnCode = 0 := by
  cases elfClass with
  | elf64 =>
      obtain ⟨habort, htrap, hcode⟩ | ⟨hexit, htrap, hcode⟩ | ⟨habort, hexit, htrap, hcode⟩ :=
        runUser64_cases tscToUser tf out
      · constructor
        · intro h
          have hzero := h.returnCode
          rw [if_neg habort.not_exits] at hzero
          exact .inr (hcode.symm.trans hzero)
        · rintro (h | h)
          · exact absurd habort h
          · refine ⟨hcode.trans (h.trans (if_neg habort.not_exits).symm), ?_⟩
            refine iff_of_false (fun h => ?_) habort.not_exits
            exact absurd (htrap.symm.trans h) (by decide)
      · refine iff_of_true ⟨hcode.trans (if_pos hexit).symm, iff_of_true htrap hexit⟩ ?_
        exact .inl fun h => h.not_exits hexit
      · exact iff_of_true ⟨hcode.trans (if_neg hexit).symm, iff_of_false htrap hexit⟩ (.inl habort)
  | elf32 =>
      have habort : ¬Aborts .elf32 tf := fun h => nomatch h.1
      obtain ⟨hexit, htrap, hcode⟩ | ⟨hexit, htrap, hcode⟩ := runUser32_cases tscToUser tf out
      · exact iff_of_true ⟨hcode.trans (if_pos hexit).symm, iff_of_true htrap hexit⟩ (.inl habort)
      · exact iff_of_true ⟨hcode.trans (if_neg hexit).symm, iff_of_false htrap hexit⟩ (.inl habort)

/-- What `run_user_64` or `run_user_32` leaves does not depend on what was there before, unless the
program has called `abort()`. -/
theorem runUser_eq_of_not_aborts (h : ¬Aborts elfClass tf) (tscToUser : UInt64)
    (out out' : Outputs) :
    runUser elfClass tscToUser tf out = runUser elfClass tscToUser tf out' := by
  cases elfClass with
  | elf64 =>
      show runUser64 tscToUser tf out = runUser64 tscToUser tf out'
      by_cases hnum : tf.num.toUInt8 = trapSyscall
      · have hkill : ¬int tf.rax = sysTkill := fun hkill => h ⟨rfl, hnum, hkill⟩
        have hrun : ∀ o, runUser64 tscToUser tf o = if int tf.rax ≠ duckSysExit then
            ⟨tf.tsc - tscToUser, trapInvalidSyscall, 0⟩
            else ⟨tf.tsc - tscToUser, tf.num.toUInt8, int tf.rdi⟩ :=
          fun _ => (if_pos hnum).trans (if_neg hkill)
        rw [hrun, hrun]
      · have hrun : ∀ o, runUser64 tscToUser tf o = ⟨tf.tsc - tscToUser, tf.num.toUInt8, 0⟩ :=
          fun _ => if_neg hnum
        rw [hrun, hrun]
  | elf32 => rfl

/-- After `abort()` the return code is what was there before. -/
theorem Aborts.keeps (h : Aborts elfClass tf) (tscToUser : UInt64) (out : Outputs) :
    (runUser elfClass tscToUser tf out).returnCode = out.returnCode := by
  obtain ⟨rfl, hnum, hkill⟩ := h
  have hrun : runUser64 tscToUser tf out = { enter tscToUser tf out with trapNum := trapAbort } :=
    (if_pos hnum).trans (if_pos hkill)
  show (runUser64 tscToUser tf out).returnCode = out.returnCode
  rw [hrun]
  rfl

theorem limitTime_returnCode (req : JudgeRequest) (r : JudgeResult) :
    (Judger.limitTime req r).returnCode = r.returnCode := by
  unfold Judger.limitTime
  split <;> rfl

/-- The classification is right, and the answer of the judge does not depend on what was in the
caller's memory, exactly unless a 64-bit program has called `abort()`. -/
theorem runUser_classified_iff (elfClass : ElfClass) (tscToUser : UInt64) (tf : Trapframe) :
    (∀ out, Classified elfClass tscToUser tf out ↔ ¬Aborts elfClass tf ∨ out.returnCode = 0) ∧
    ∀ t req accesses counters res, (∀ out out',
      Judger.limitTime req (Judger.runResult t
        (outcome elfClass accesses counters tscToUser tf out) res)
      = Judger.limitTime req (Judger.runResult t
        (outcome elfClass accesses counters tscToUser tf out') res)) ↔ ¬Aborts elfClass tf := by
  refine ⟨classified_iff elfClass tscToUser tf, fun t req accesses counters res => ?_⟩
  constructor
  · intro hall habort
    have hcode := congrArg JudgeResult.returnCode (hall ⟨0, 0, 0⟩ ⟨0, 0, 1⟩)
    rw [limitTime_returnCode, limitTime_returnCode] at hcode
    have hkeep : ∀ out, (Judger.runResult t
        (outcome elfClass accesses counters tscToUser tf out) res).returnCode = out.returnCode :=
      habort.keeps tscToUser
    rw [hkeep, hkeep] at hcode
    exact absurd hcode (by decide)
  · intro habort out out'
    rw [outcome, outcome, runUser_eq_of_not_aborts habort tscToUser out out']

/-- `abort()` of a 64-bit program, while 7 is in the caller's memory. -/
theorem abort_keeps_garbage : ¬∀ (elfClass : ElfClass) (tscToUser : UInt64) (tf : Trapframe)
    (out : Outputs), Classified elfClass tscToUser tf out := by
  intro hall
  have h := (hall .elf64 0 ⟨255, 200, 0, 0, 0, 0, 0⟩ ⟨0, 0, 7⟩).returnCode
  exact absurd h (by decide)

end JudgeDuck.Trap
