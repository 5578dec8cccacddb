/-
Memory between two judgements.

Memory is not wiped when a program ends.  Bit 9 of a page entry, `PTE_DUCK_WRITTEN`, says
that the page may be nonzero, and the next loader fills exactly such pages with zeros.  The
invariant is that a page without the bit is zero (`Clean`).  Whatever writes to a page of
the user sets the bit: the loaders for every copy, and the sweep after the run by the dirty
bits of the processor.
-/
import JudgeDuck.Proofs.Elf.Closed
import JudgeDuck.Proofs.Elf.Placed

namespace JudgeDuck.Elf

open Utils Memory

/-- Every page of the user without `PTE_DUCK_WRITTEN` is zero. -/
def Clean (s : Machine) : Prop :=
  ∀ x, kernelBreak.toNat ≤ x → x < s.vaddrBreak.toNat → isDuckWritten (s.p1 (x / 4096)) = false →
    s.mem x = 0

/-! ### The run of a program -/

/-- What the program and the processor have changed: a byte only in a writable page, which is
dirty then; the rights and the bit of the OS stay. -/
structure Ran (s s' : Machine) : Prop where
  vaddrBreak : s'.vaddrBreak = s.vaddrBreak
  userWritable : ∀ p, userWritable (s'.p1 p) = userWritable (s.p1 p)
  duckWritten : ∀ p, isDuckWritten (s'.p1 p) = isDuckWritten (s.p1 p)
  dirty : ∀ p, isDirty (s.p1 p) = true → isDirty (s'.p1 p) = true
  mem : ∀ x, s'.mem x ≠ s.mem x →
    Elf.userWritable (s.p1 (x / 4096)) = true ∧ isDirty (s'.p1 (x / 4096)) = true

variable {s s' s'' : Machine}

theorem Ran.refl (s : Machine) : Ran s s :=
  ⟨rfl, fun _ => rfl, fun _ => rfl, fun _ h => h, fun _ h => absurd rfl h⟩

theorem Ran.trans (h : Ran s s') (h' : Ran s' s'') : Ran s s'' where
  vaddrBreak := h'.vaddrBreak.trans h.vaddrBreak
  userWritable p := (h'.userWritable p).trans (h.userWritable p)
  duckWritten p := (h'.duckWritten p).trans (h.duckWritten p)
  dirty p hp := h'.dirty p (h.dirty p hp)
  mem x hx := by
    by_cases hlast : s''.mem x = s'.mem x
    · rw [hlast] at hx
      obtain ⟨hw, hd⟩ := h.mem x hx
      exact ⟨hw, h'.dirty _ hd⟩
    · obtain ⟨hw, hd⟩ := h'.mem x hlast
      rw [h.userWritable] at hw
      exact ⟨hw, hd⟩

/-- New bits of one entry, among them neither the rights nor the bit of the OS. -/
theorem Ran.of_update {q : Nat} {a : PTE} {m : Mem}
    (hw : Elf.userWritable a = Elf.userWritable (s.p1 q))
    (h9 : isDuckWritten a = isDuckWritten (s.p1 q))
    (h6 : isDirty (s.p1 q) = true → isDirty a = true)
    (hm : ∀ x, m x ≠ s.mem x →
      x / 4096 = q ∧ Elf.userWritable (s.p1 q) = true ∧ isDirty a = true) :
    Ran s { s with mem := m, p1 := Function.update s.p1 q a } := by
  refine ⟨rfl, fun p => ?_, fun p => ?_, fun p hp => ?_, fun x hx => ?_⟩
  · by_cases hpq : p = q
    · subst hpq
      exact (congrArg Elf.userWritable (Function.update_self p a s.p1)).trans hw
    · exact congrArg Elf.userWritable (Function.update_of_ne hpq a s.p1)
  · by_cases hpq : p = q
    · subst hpq
      simp only [Function.update_self]
      exact h9
    · simp only [Function.update_of_ne hpq]
  · by_cases hpq : p = q
    · subst hpq
      simp only [Function.update_self]
      exact h6 hp
    · simp only [Function.update_of_ne hpq]
      exact hp
  · obtain ⟨rfl, hwq, hd⟩ := hm x hx
    refine ⟨hwq, ?_⟩
    simp only [Function.update_self]
    exact hd

theorem Access.run_ran (x : Access) (s : Machine) : Ran s (x.run s) := by
  cases x with
  | read addr =>
      by_cases hr : userReadable (s.p1 (addr / 4096)) = true
      · rw [Access.run, if_pos hr]
        refine Ran.of_update (userWritable_or_accessed _) ?_ (fun h => ?_)
          (fun x hx => absurd rfl hx)
        · simp [isDuckWritten_eq, PTE.accessed]
        · rw [isDirty_eq] at h ⊢
          simp [h]
      · rw [Access.run, if_neg hr]
        exact Ran.refl s
  | write addr val =>
      by_cases hw : userWritable (s.p1 (addr / 4096)) = true
      · rw [Access.run, if_pos hw]
        refine Ran.of_update ?_ ?_ (fun h => ?_) (fun x hx => ?_)
        · rw [Bool.eq_iff_iff, userWritable_iff, userWritable_iff]
          simp [PTE.accessed, PTE.dirty]
        · simp [isDuckWritten_eq, PTE.accessed, PTE.dirty]
        · rw [isDirty_eq] at h ⊢
          simp [h]
        · have hxa : x = addr := by
            by_contra hne
            exact hx (Function.update_of_ne hne _ _)
          refine ⟨by rw [hxa], hw, ?_⟩
          simp [isDirty_eq, PTE.dirty]
      · rw [Access.run, if_neg hw]
        exact Ran.refl s

theorem runUser_ran (accesses : List Access) (s : Machine) : Ran s (runUser accesses s) := by
  induction accesses generalizing s with
  | nil => exact Ran.refl s
  | cons x xs ih => exact (x.run_ran s).trans (ih (x.run s))

/-- After the sweep over the pages that the program could write, memory is clean again. -/
theorem Ran.clean {lo hi : Nat} (h : Ran s s') (hs : Clean s) (ha : s.vaddrBreak.toNat % 4096 = 0)
    (hw : ∀ p, InPages kernelBreak s.vaddrBreak p → Elf.userWritable (s.p1 p) = true →
      lo ≤ p ∧ p < hi) : Clean (setDuckWrittenByDirty.range lo hi s') := by
  intro x hlow hhigh hbit
  have hvb : x < s.vaddrBreak.toNat := by
    rw [← h.vaddrBreak]
    exact hhigh
  have hkernel := toNat_kernelBreak
  have hmem : (setDuckWrittenByDirty.range lo hi s').mem x = s'.mem x :=
    if_neg fun hc => nomatch hc.2.2
  have hp1 : (setDuckWrittenByDirty.range lo hi s').p1 (x / 4096)
      = if lo ≤ x / 4096 ∧ x / 4096 < hi then setDuckWrittenByDirty.entry (s'.p1 (x / 4096))
        else s'.p1 (x / 4096) := rfl
  rw [hp1] at hbit
  rw [hmem]
  by_cases hin : lo ≤ x / 4096 ∧ x / 4096 < hi
  · rw [if_pos hin, isDuckWritten_eq, setDuckWrittenByDirty_duckWritten, Bool.or_eq_false_iff,
      ← isDuckWritten_eq, ← isDirty_eq, h.duckWritten] at hbit
    by_cases hsame : s'.mem x = s.mem x
    · rw [hsame]
      exact hs x hlow hvb hbit.1
    · rw [(h.mem x hsame).2] at hbit
      exact nomatch hbit.2
  · rw [if_neg hin, h.duckWritten] at hbit
    by_cases hsame : s'.mem x = s.mem x
    · rw [hsame]
      exact hs x hlow hvb hbit
    · exact absurd (hw _ ⟨by omega, by omega⟩ (h.mem x hsame).1) hin

/-! ### The copies of the loaders -/

/-- A byte that no copy of the list writes to stays. -/
theorem stores_of_not_copied {es : List Effect} {x : Nat} {m : Mem}
    (h : ∀ dst n src, Effect.copy dst n src ∈ es → ¬(dst.toNat ≤ x ∧ x < dst.toNat + n)) :
    stores es m x = m x := by
  induction es generalizing m with
  | nil => rfl
  | cons e es ih =>
      rw [stores_cons, ih fun dst n src he => h dst n src (List.mem_cons_of_mem e he)]
      cases e with
      | pages op start stop => rfl
      | copy dst n src => exact if_neg (h dst n src List.mem_cons_self)

/-- Every page that a copy of the list writes to is marked by a loop of the list. -/
def Marks (es : List Effect) : Prop := ∀ dst n src x, Effect.copy dst n src ∈ es →
  dst.toNat ≤ x → x < dst.toNat + n →
    ∃ start stop, Effect.pages setDuckWritten start stop ∈ es ∧ InPages start stop (x / 4096)

namespace Marks

theorem append {es fs : List Effect} (h : Marks es) (h' : Marks fs) : Marks (es ++ fs) := by
  intro dst n src x he hlo hhi
  rcases List.mem_append.mp he with he | he
  · obtain ⟨start, stop, hmem, hp⟩ := h dst n src x he hlo hhi
    exact ⟨start, stop, List.mem_append_left fs hmem, hp⟩
  · obtain ⟨start, stop, hmem, hp⟩ := h' dst n src x he hlo hhi
    exact ⟨start, stop, List.mem_append_right es hmem, hp⟩

theorem flatMap {α : Type} {f : α → List Effect} {xs : List α} (h : ∀ a ∈ xs, Marks (f a)) :
    Marks (xs.flatMap f) := by
  intro dst n src x he hlo hhi
  obtain ⟨a, ha, he⟩ := List.mem_flatMap.mp he
  obtain ⟨start, stop, hmem, hp⟩ := h a ha dst n src x he hlo hhi
  exact ⟨start, stop, List.mem_flatMap.mpr ⟨a, ha, hmem⟩, hp⟩

/-- Loops alone copy nothing. -/
theorem of_pages {es : List Effect} (h : ∀ dst n src, Effect.copy dst n src ∉ es) : Marks es :=
  fun dst n src _ he => absurd he (h dst n src)

/-- The copies of a list lie in pages that one loop marks. -/
theorem of_within {lo hi : Nat} {es : List Effect} (h : Within lo hi es) (start stop : UInt64)
    (hmem : Effect.pages setDuckWritten start stop ∈ es) (hstart : start.toNat / 4096 = lo / 4096)
    (hstop : stop.toNat = hi) (ha : stop.toNat % 4096 = 0) : Marks es := by
  intro dst n src x he hlo hhi
  have hin := h _ he
  obtain ⟨h1, h2⟩ : lo ≤ dst.toNat ∧ dst.toNat + n ≤ hi := hin
  refine ⟨start, stop, hmem, ?_, ?_⟩
  · omega
  · omega

end Marks

section

variable {F : Format} {buf : Mem} {len : UInt32} {config : AppConfig} {vaddrBreak : UInt64}
  {l : Layout} {random : List Effect} {stack : List UInt8} {infoSize : Nat}

theorem marks_segment (h : LayoutOk F buf len config vaddrBreak l) {ph : Phdr}
    (hph : ph ∈ phdrs F buf l.ehdr) : Marks (segmentEffects buf ph) := by
  unfold segmentEffects
  by_cases ht : ph.type = 1 ∧ ph.filesz ≠ 0
  · rw [if_pos ht]
    have hs := h.segments ph hph ht.1
    have hb := l.loadVaddrBreak.toNat_lt
    have hroom := h.room
    obtain ⟨h1, h2, -, -⟩ := hs.pages h.aligned (by omega) hs.filesz_le
    have h3 := le_pageUp (ph.vaddr.toNat + ph.filesz.toNat)
    have h4 := pageUp_mod (ph.vaddr.toNat + ph.filesz.toNat)
    intro dst n src x he hlo hhi
    rcases List.mem_pair.mp he with he | he
    · obtain ⟨rfl, rfl, -⟩ := Effect.copy.inj he
      refine ⟨_, _, List.mem_cons_of_mem _ List.mem_cons_self, ?_, ?_⟩
      · omega
      · omega
    · cases he
  · rw [if_neg ht]
    exact .of_pages fun _ _ _ => List.not_mem_nil

theorem marks_stdin (h : LayoutOk F buf len config vaddrBreak l) :
    Marks (stdinEffects l.toRegions config) := by
  obtain ⟨-, h1, -⟩ := h.breaks_aligned
  exact .of_within (within_stdin h) _ _ (List.mem_cons_of_mem _ List.mem_cons_self) rfl rfl h1

theorem marks_ib (h : LayoutOk F buf len config vaddrBreak l) :
    Marks (ibEffects l.toRegions config) := by
  obtain ⟨-, -, -, -, h1, -⟩ := h.breaks_aligned
  exact .of_within (within_ib h) _ _ (List.mem_cons_of_mem _ List.mem_cons_self) rfl rfl h1

theorem marks_ob (h : LayoutOk F buf len config vaddrBreak l) :
    Marks (obEffects l.toRegions config) := by
  obtain ⟨-, -, -, -, -, h1⟩ := h.breaks_aligned
  have hend := obStop_toNat h
  by_cases hclear : config.obNeedClear = true
  · rw [obEffects, if_pos hclear]
    exact .of_pages fun _ _ _ => List.not_mem_nil
  · refine .of_within (within_ob h) l.obLoadVaddr
      (l.obLoadVaddr + roundUp config.obSize pageSize) ?_
      rfl hend (by rw [hend, h1])
    rw [obEffects, if_neg hclear]
    exact List.mem_cons_self

theorem marks_elfImage (h : LayoutOk F buf len config vaddrBreak l) :
    Marks (elfImageEffects l buf len) := by
  obtain ⟨-, -, -, -, -, h1⟩ := h.breaks_aligned
  have h2 := h.image
  exact .of_within (within_elfImage h) _ _ (List.mem_cons_of_mem _ List.mem_cons_self) rfl rfl
    (by omega)

theorem Accepted.marks_random (h : Accepted F buf len config vaddrBreak l random stack infoSize) :
    Marks random := by
  have hwithin := h.within_random
  rcases h.random with rfl | ⟨rfl, -⟩
  · exact .of_pages fun _ _ _ => List.not_mem_nil
  · exact .of_within hwithin _ _
      (List.mem_cons_of_mem _ List.mem_cons_self) rfl rfl h.special_aligned

theorem Accepted.marks_stack (h : Accepted F buf len config vaddrBreak l random stack infoSize) :
    Marks (stackEffects l.toRegions stack infoSize) := by
  obtain ⟨h1, -⟩ := h.breaks_aligned
  have hroom := h.room
  have hpage : (l.loadVaddrBreak - pageSize).toNat = l.loadVaddrBreak.toNat - 4096 :=
    UInt64.toNat_sub_of_le _ _ (UInt64.le_iff_toNat_le.mpr (by rw [toNat_pageSize]; omega))
  refine .of_within (within_stack h.toLayoutOk h.stack_le h.info_le) (l.loadVaddrBreak - pageSize)
    l.loadVaddrBreak ?_ (by rw [hpage]) rfl h1
  unfold stackEffects
  exact List.mem_append_right _ (List.mem_singleton.mpr rfl)

theorem marks_segmentFlags (ph : Phdr) : Marks (segmentFlagEffects ph) := by
  refine .of_pages fun dst n src he => ?_
  unfold segmentFlagEffects at he
  split at he
  · dsimp only at he
    rcases List.mem_append.mp he with he | he
    · rcases List.mem_append.mp he with he | he
      · cases List.mem_singleton.mp he
      · split at he
        · cases List.mem_singleton.mp he
        · cases he
    · split at he
      · cases List.mem_singleton.mp he
      · cases he
  · cases he

namespace Accepted

variable (h : Accepted F buf len config vaddrBreak l random stack infoSize)
include h

theorem marks_loading :
    Marks (loading (phdrs F buf l.ehdr) buf len config l random stack infoSize) := by
  have hl := h.toLayoutOk
  unfold loading
  refine Marks.append ?segments (Marks.append ?stdin (Marks.append ?ib (Marks.append ?ob
    (Marks.append ?image (Marks.append ?random (Marks.append ?stack (Marks.append ?segmentFlags
      ?access)))))))
  case segments => exact Marks.flatMap fun ph hph => marks_segment hl hph
  case stdin => exact marks_stdin hl
  case ib => exact marks_ib hl
  case ob => exact marks_ob hl
  case image => exact marks_elfImage hl
  case random => exact h.marks_random
  case stack => exact h.marks_stack
  case segmentFlags => exact Marks.flatMap fun ph _ => marks_segmentFlags ph
  case access => exact .of_pages fun _ _ _ he => nomatch List.mem_singleton.mp he

end Accepted

/-! ### The loaders -/

/-- The operations after the first page flags never clear the bit. -/
theorem Loop.keeps {headers : List Phdr} {p : Nat} {op : PageOp} (h : Loop headers p op) :
    op.Keeps := by
  cases h with
  | written => exact setDuckWritten_keeps
  | readonly => exact setPageFlagsUserReadonly_keeps
  | access => exact clearAccessAndDirtyFlags_keeps
  | executable => exact addPageFlagsExecutable_keeps
  | writable => exact addPageFlagsWritable_keeps

/-- A list of effects that clears no bit and marks what it writes keeps memory clean. -/
theorem applyAll_clean {es : List Effect} (hs : Clean s) (hmarks : Marks es)
    (hkeeps : ∀ op start stop p, Effect.pages op start stop ∈ es → InPages start stop p →
      op.Keeps) :
    Clean (applyAll es s) := by
  intro x hlow hhigh hbit
  rw [vaddrBreak_applyAll] at hhigh
  have hset : ∀ op start stop, Effect.pages op start stop ∈ es → InPages start stop (x / 4096) →
      ∀ a, isDuckWritten a = true → isDuckWritten (op.entry a) = true := by
    intro op start stop he hp a ha
    rw [isDuckWritten_eq] at ha ⊢
    exact (hkeeps op start stop _ he hp).duckWritten a ha
  rw [mem_applyAll fun op start stop he hp => (hkeeps op start stop _ he hp).noWipe]
  -- A copy to this byte would have left the bit set.
  have hcopy : ∀ dst n src, Effect.copy dst n src ∈ es → ¬(dst.toNat ≤ x ∧ x < dst.toNat + n) := by
    rintro dst n src he ⟨h1, h2⟩
    obtain ⟨start, stop, hmem, hp⟩ := hmarks dst n src x he h1 h2
    have hmarked := established_applyAll (K := fun a => isDuckWritten a = true) hset hmem hp
      (fun a => by rw [isDuckWritten_eq, setDuckWritten_duckWritten]) s
    rw [hbit] at hmarked
    cases hmarked
  rw [stores_of_not_copied hcopy]
  refine hs x hlow hhigh ?_
  by_contra hne
  rw [Bool.not_eq_false] at hne
  rw [keeps_applyAll (K := fun a => isDuckWritten a = true) hset hne] at hbit
  cases hbit

/-- The first page flags change no bit of the OS outside the program, and leave the program's own
pages zero. -/
theorem flagEffects_clean (hs : Clean s) (h : LayoutOk F buf len config s.vaddrBreak l) :
    Clean (applyAll (flagEffects l s.vaddrBreak) s) ∧
    ∀ x, l.loadVaddrStart.toNat ≤ x → x < l.specialRegionBreak.toNat →
      (applyAll (flagEffects l s.vaddrBreak) s).mem x = 0 := by
  have hkernel := h.kernel
  have hle := h.special_le
  have halign := h.aligned
  have hspecial := h.special_aligned
  have hbit : ∀ b : Bool, ¬b = true → b = false := fun b => Bool.eq_false_of_not_eq_true
  have hzero : ∀ x, l.loadVaddrStart.toNat ≤ x → x < l.specialRegionBreak.toNat →
      (applyAll (flagEffects l s.vaddrBreak) s).mem x = 0 := by
    intro x hlo hhi
    rw [mem_flagEffects h, ← isDuckWritten_eq]
    by_cases hset : isDuckWritten (s.p1 (x / 4096)) = true
    · rw [if_pos ⟨hlo, hhi, hset⟩]
    · rw [if_neg fun hc => hset hc.2.2]
      exact hs x (Nat.le_trans hkernel hlo) (Nat.lt_of_lt_of_le hhi hle) (hbit _ hset)
  refine ⟨fun x hlow hhigh hclear => ?_, hzero⟩
  rw [vaddrBreak_applyAll] at hhigh
  by_cases hin : l.loadVaddrStart.toNat ≤ x ∧ x < l.specialRegionBreak.toNat
  · exact hzero x hin.1 hin.2
  · rw [p1_flagEffects h, if_neg (by omega)] at hclear
    rw [mem_flagEffects h, if_neg fun hc => hin ⟨hc.1, hc.2.1⟩]
    refine hs x hlow hhigh ?_
    split at hclear
    · rwa [isDuckWritten_eq, setPageFlagsKernel_duckWritten, ← isDuckWritten_eq] at hclear
    · exact hclear

theorem Accepted.clean (h : Accepted F buf len config s.vaddrBreak l random stack infoSize)
    (hs : Clean s) :
    Clean (applyAll (loading (phdrs F buf l.ehdr) buf len config l random stack infoSize)
      (applyAll (flagEffects l s.vaddrBreak) s)) :=
  applyAll_clean (flagEffects_clean hs h.toLayoutOk).1 h.marks_loading
    fun _ _ _ _ he hp => (h.loop_of_mem he hp).keeps

/-- Where the request puts no byte, there is a zero. -/
theorem Accepted.mem_fresh (h : Accepted F buf len config s.vaddrBreak l random stack infoSize)
    {bytes : List UInt8} (hrandom : PlacesRandom l random bytes) (hs : Clean s) {x : Nat}
    (hlo : l.loadVaddrStart.toNat ≤ x) (hhi : x < l.specialRegionBreak.toNat) :
    (applyAll (loading (phdrs F buf l.ehdr) buf len config l random stack infoSize)
        (applyAll (flagEffects l s.vaddrBreak) s)).mem x
      = (placed (phdrs F buf l.ehdr) buf len config l bytes
          (movedStack l.toRegions stack infoSize) x).getD 0 := by
  rw [mem_applyAll fun op start stop he hp => (h.loop_of_mem he hp).noWipe,
    h.stores_loading hrandom, (flagEffects_clean hs h.toLayoutOk).2 x hlo hhi]

end

/-- What `ELF::run` finds: memory is clean, and the program can write to its own pages only, which
the sweep is going to visit. -/
structure Ready (a : App) (s : Machine) : Prop where
  clean : Clean s
  start_aligned : a.startAddr.toNat % 4096 = 0
  break_aligned : a.specialRegionBreakAddr.toNat % 4096 = 0
  start_le : a.startAddr.toNat ≤ a.specialRegionBreakAddr.toNat
  writable : ∀ p, InPages kernelBreak s.vaddrBreak p → userWritable (s.p1 p) = true →
    InPages a.startAddr a.specialRegionBreakAddr p

/-- The pages of an accepted program. -/
theorem Rights.writable_inPages {c : ElfClass} {headers : List Phdr} {vaddrBreak : UInt64}
    {l : Layout}
    {F : Format} {buf : Mem} {len : UInt32} {config : AppConfig}
    (h : Rights c headers vaddrBreak l s)
    (hl : LayoutOk F buf len config vaddrBreak l) {p : Nat} (hp : InPages kernelBreak vaddrBreak p)
    (hw : userWritable (s.p1 p) = true) : InPages l.loadVaddrStart l.specialRegionBreak p := by
  have hspecial := hl.special
  have hroom := hl.room
  obtain ⟨h5, h6, h7, h8, h9, h10⟩ := hl.breaks_le
  have huser : s.p1 p &&& PTE.user ≠ 0 := (and_user _).mpr ((userWritable_iff _).mp hw).1.2
  rcases h.user p hp huser with hin | hin | himage
  · exact ⟨hin.1, by have := hin.2; omega⟩
  · have h1 : l.loadVaddrBreak.toNat / 4096 ≤ p := hin.1
    exact ⟨by omega, hin.2⟩
  · rw [h.readonly p (.inr (.inr (.inl himage)))] at hw
    cases hw

theorem Accepted.ready {c : ElfClass} {buf : Mem} {len : UInt32} {config : AppConfig} {l : Layout}
    {random : List Effect} {stack : List UInt8} {infoSize : Nat} {a : App}
    (h : Accepted c.format buf len config s.vaddrBreak l random stack infoSize)
    (hrandom : c = .elf64 → random = randomBytesEffects l) (hstart : a.startAddr = l.loadVaddrStart)
    (hbreak : a.specialRegionBreakAddr = l.specialRegionBreak) (hs : Clean s) :
    Ready a (applyAll (loading (phdrs c.format buf l.ehdr) buf len config l random stack infoSize)
      (applyAll (flagEffects l s.vaddrBreak) s)) := by
  have hrights := h.rights hrandom s
  have hspecial := h.special
  have hroom := h.room
  obtain ⟨h5, h6, h7, h8, h9, h10⟩ := h.breaks_le
  refine
    { clean := h.clean hs
      start_aligned := by rw [hstart, h.aligned]
      break_aligned := by rw [hbreak, h.special_aligned]
      start_le := by rw [hstart, hbreak]; omega
      writable := fun p hp hw => ?_ }
  rw [vaddrBreak_applyAll, vaddrBreak_applyAll] at hp
  rw [hstart, hbreak]
  exact hrights.writable_inPages h.toLayoutOk hp hw

theorem load_ready {buf : Mem} {len : UInt32} {config : AppConfig} {tscFreq : UInt64} {a : App}
    {es : List Effect} (ha : s.vaddrBreak.toNat % 4096 = 0)
    (h : load buf len config tscFreq s.vaddrBreak = some (a, es)) (hs : Clean s) :
    ∃ s', exec es s = some s' ∧ s'.vaddrBreak = s.vaddrBreak ∧ Ready a s' := by
  rcases load_cases h with h | h
  · obtain ⟨l, hl, rfl, rfl⟩ := loadElf64_eq_some h
    have hacc := accepted64 tscFreq hl
    rw [effects64_eq]
    exact ⟨_, hacc.exec_eq ha s, by rw [vaddrBreak_applyAll, vaddrBreak_applyAll],
      hacc.ready (c := .elf64) (fun _ => rfl) rfl rfl hs⟩
  · obtain ⟨l, hl, rfl, rfl⟩ := loadElf32_eq_some h
    have hacc := accepted32 tscFreq hl
    rw [effects32_eq_loading]
    exact ⟨_, hacc.exec_eq ha s, by rw [vaddrBreak_applyAll, vaddrBreak_applyAll],
      hacc.ready (c := .elf32) (fun hc => nomatch hc) rfl rfl hs⟩

/-- The sweep after the run. -/
def sweep (a : App) (s : Machine) : Machine := setDuckWrittenByDirty.range
  (a.startAddr.toNat / 4096) (a.specialRegionBreakAddr.toNat / 4096) s

@[simp] theorem vaddrBreak_sweep (a : App) (s : Machine) : (sweep a s).vaddrBreak = s.vaddrBreak :=
    rfl

@[simp] theorem mem_sweep (a : App) (s : Machine) : (sweep a s).mem = s.mem :=
  funext fun _ => if_neg fun hc => nomatch hc.2.2

theorem Ready.run_eq {a : App} (h : Ready a s) (accesses : List Access) :
    ∃ out, run a accesses s = some (out, sweep a (runUser accesses s)) := by
  rw [run, setDuckWrittenByDirty.run_eq
    (runUser accesses s) h.start_aligned h.break_aligned h.start_le]
  exact ⟨_, rfl⟩

theorem Ready.run_clean {a : App} (h : Ready a s) (ha : s.vaddrBreak.toNat % 4096 = 0)
    (accesses : List Access) : Clean (sweep a (runUser accesses s)) :=
  (runUser_ran accesses s).clean h.clean ha h.writable

/-! ### Histories -/

/-- A request, and what its program does to memory if it is loaded. -/
structure Job where
  buf : Mem
  len : UInt32
  config : AppConfig
  accesses : List Access

/-- `ELF::load`, and `ELF::run` when it returns `true`. -/
def Job.step (tscFreq : UInt64) (j : Job) (s : Machine) : Option Machine :=
  match load j.buf j.len j.config tscFreq s.vaddrBreak with
  | none => some s
  | some (a, es) => do
    let s ← exec es s
    let (_, s) ← run a j.accesses s
    return s

def history (tscFreq : UInt64) : List Job → Machine → Option Machine
  | [], s => some s
  | j :: js, s => (j.step tscFreq s).bind (history tscFreq js)

/-- The state that `Memory::init` leaves: whatever is in memory, every page of the user may be
nonzero. -/
structure Initial (s : Machine) : Prop where
  aligned : s.vaddrBreak.toNat % 4096 = 0
  written : ∀ p, InPages kernelBreak s.vaddrBreak p → isDuckWritten (s.p1 p) = true

theorem Initial.clean (h : Initial s) : Clean s := by
  intro x hlow hhigh hbit
  have hkernel := toNat_kernelBreak
  have ha := h.aligned
  rw [h.written _ ⟨by omega, by omega⟩] at hbit
  cases hbit

/-- The step of a job that is accepted. -/
theorem Job.step_loaded {tscFreq : UInt64} {j : Job} {a : App} {es : List Effect}
    (hload : load j.buf j.len j.config tscFreq s.vaddrBreak = some (a, es))
    (hexec : exec es s = some s')
    (h : Ready a s') : j.step tscFreq s = some (sweep a (runUser j.accesses s')) := by
  obtain ⟨out, hrun⟩ := h.run_eq j.accesses
  rw [step, hload]
  simp only [hexec, hrun, Option.bind_eq_bind, Option.bind_some]
  rfl

theorem Job.step_clean (tscFreq : UInt64) (j : Job) (ha : s.vaddrBreak.toNat % 4096 = 0)
    (hs : Clean s) :
    ∃ s', j.step tscFreq s = some s' ∧ s'.vaddrBreak = s.vaddrBreak ∧ Clean s' := by
  cases hload : load j.buf j.len j.config tscFreq s.vaddrBreak with
  | none => exact ⟨s, by rw [step, hload], rfl, hs⟩
  | some r =>
      obtain ⟨a, es⟩ := r
      obtain ⟨s₁, hexec, hvb, hready⟩ := load_ready ha hload hs
      refine ⟨_, step_loaded hload hexec hready, ?_, hready.run_clean (by rw [hvb, ha]) j.accesses⟩
      exact ((runUser_ran j.accesses s₁).vaddrBreak).trans hvb

theorem history_clean (tscFreq : UInt64) (jobs : List Job) (ha : s.vaddrBreak.toNat % 4096 = 0)
    (hs : Clean s) :
    ∃ s', history tscFreq jobs s = some s' ∧ s'.vaddrBreak = s.vaddrBreak ∧ Clean s' := by
  induction jobs generalizing s with
  | nil => exact ⟨s, rfl, rfl, hs⟩
  | cons j js ih =>
      obtain ⟨s₁, hstep, hvb₁, hclean₁⟩ := j.step_clean tscFreq ha hs
      obtain ⟨s₂, hrest, hvb₂, hclean₂⟩ := ih (by rw [hvb₁, ha]) hclean₁
      exact ⟨s₂, by rw [history, hstep, Option.bind_some, hrest], hvb₂.trans hvb₁, hclean₂⟩

/-! ### 64-bit programs -/

/-- The memory of a 64-bit program when it starts: the bytes that the request puts somewhere, and
zeros everywhere else. -/
def image64 (buf : Mem) (len : UInt32) (config : AppConfig) (tscFreq : UInt64) (l : Layout)
    (x : Nat) : UInt8 :=
  (placed (phdrs elf64 buf l.ehdr) buf len config l randomBytes
    (movedStack l.toRegions (stack64 l config tscFreq) 112) x).getD 0

/-- After any history memory is clean, and the next 64-bit program finds nothing of it. -/
theorem loadElf64_fresh (h : Initial s) (tscFreq : UInt64) (jobs : List Job) :
    ∃ s₁, history tscFreq jobs s = some s₁ ∧ s₁.vaddrBreak = s.vaddrBreak ∧ Clean s₁ ∧
      ∀ buf len config a es, loadElf64 buf len config tscFreq s.vaddrBreak = some (a, es) →
        ∃ l s₂, layout64 buf len config s.vaddrBreak = some l ∧ exec es s₁ = some s₂ ∧ Clean s₂ ∧
          ∀ x, 0x400000 ≤ x → x < l.specialRegionBreak.toNat →
            s₂.mem x = image64 buf len config tscFreq l x := by
  obtain ⟨s₁, hrun, hvb, hclean⟩ := history_clean tscFreq jobs h.aligned h.clean
  refine ⟨s₁, hrun, hvb, hclean, fun buf len config a es hload => ?_⟩
  rw [← hvb] at hload ⊢
  obtain ⟨l, hl, -, rfl⟩ := loadElf64_eq_some hload
  have hacc := accepted64 tscFreq hl
  have hstart : l.loadVaddrStart.toNat = 0x400000 := congrArg UInt64.toNat hacc.start
  rw [effects64_eq]
  refine ⟨l, _, hl, hacc.exec_eq (by rw [hvb, h.aligned]) s₁, hacc.clean hclean,
    fun x hlo hhi => ?_⟩
  exact hacc.mem_fresh (placesRandom64 l) hclean (by rw [hstart]; exact hlo) hhi

/-- A machine with four pages for the user, all bytes set. -/
def usedMachine : Machine := ⟨fun _ => 0xff, fun _ => PTE.duckWritten, 0x404000⟩

theorem usedMachine_initial : Initial usedMachine :=
    ⟨by decide, fun _ _ => by simp [usedMachine, isDuckWritten_eq, PTE.duckWritten]⟩

/-- A program that writes to the page of its stack, and the same program again. -/
theorem loadElf64_fresh_again : ∃ s₁ a es s₂,
    history 1000000000 [⟨tinyFile64, 120, tinyConfig, [.write 0x401000 7]⟩] usedMachine = some s₁ ∧
    loadElf64 tinyFile64 120 tinyConfig 1000000000 0x404000 = some (a, es) ∧
    exec es s₁ = some s₂ ∧ s₂.mem 0x401000 = 0 := by
  have hsome : (layout64 tinyFile64 120 tinyConfig 0x404000).isSome = true := by decide +kernel
  obtain ⟨l₀, hl₀⟩ := Option.isSome_iff_exists.mp hsome
  have hload := loadElf64_of_layout 1000000000 hl₀
  obtain ⟨s₁, hrun, -, -, hall⟩ := loadElf64_fresh usedMachine_initial 1000000000
    [⟨tinyFile64, 120, tinyConfig, [.write 0x401000 7]⟩]
  obtain ⟨l, s₂, hl, hexec, -, hmem⟩ := hall _ _ _ _ _ hload
  have himage : (layout64 tinyFile64 120 tinyConfig 0x404000).map
      (fun l => (decide (0x401000 < l.specialRegionBreak.toNat),
        image64 tinyFile64 120 tinyConfig 1000000000 l 0x401000)) = some (true, 0) := by
    decide +kernel
  rw [show layout64 tinyFile64 120 tinyConfig 0x404000 = some l from hl, Option.map_some,
    Option.some.injEq, Prod.mk.injEq, decide_eq_true_iff] at himage
  exact ⟨s₁, _, _, s₂, hrun, hload, hexec, (hmem _ (by decide) himage.1).trans himage.2⟩

end JudgeDuck.Elf
