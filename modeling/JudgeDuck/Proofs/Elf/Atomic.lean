/-
The loaders in source order do what their layout and their effects say.

All checks come first: a computation that only checks (`Checks`) answers as the
layout does and leaves the machine and the caller's `App` alone, whether it rejects
or not.  What comes after them performs the list of effects (`Performs`).  Both
relations also say that every byte of the file that is read lies below its length,
and both are closed under the way the loaders are put together.
-/
import JudgeDuck.Model.ElfLoad
import JudgeDuck.Proofs.Elf.Loading

namespace JudgeDuck.Elf

open Utils Memory

/-- The ranges lie in a file of `len` bytes. -/
def InFile (len : Nat) (reads : List (Nat × Nat)) : Prop := ∀ r ∈ reads, r.1 + r.2 ≤ len

theorem InFile.append {len : Nat} {l l' : List (Nat × Nat)} (h : InFile len l)
    (h' : InFile len l') :
    InFile len (l ++ l') := by
  intro r hr
  rcases List.mem_append.mp hr with hr | hr
  · exact h r hr
  · exact h' r hr

theorem inFile_nil {len : Nat} : InFile len [] := by
  intro r hr
  cases hr

/-! ### Checks -/

/-- The result of a check: a value, or `return false`. -/
def outcome {α : Type} : Option α → Except Exit α
  | some a => .ok a
  | none => .error .rejected

/-- The computation answers `o`, and only reads. -/
def Checks {α : Type} (len : Nat) (x : LoadM α) (o : Option α) : Prop :=
  ∀ st, ∃ l, InFile len l ∧ x st = (outcome o, { st with reads := st.reads ++ l })

section

variable {α β : Type} {len : Nat}

theorem Checks.pure (a : α) : Checks len (pure a : LoadM α) (some a) :=
  fun st => ⟨[], inFile_nil, by rw [List.append_nil]; rfl⟩

theorem Checks.bind {x : LoadM α} {o : Option α} {f : α → LoadM β} {g : α → Option β}
    (hx : Checks len x o) (hf : ∀ a, o = some a → Checks len (f a) (g a)) :
    Checks len (x >>= f) (o.bind g) := by
  intro st
  obtain ⟨l, hl, hrun⟩ := hx st
  cases o with
  | none =>
      refine ⟨l, hl, ?_⟩
      show LoadM.bind x f st = _
      rw [LoadM.bind, hrun]
      rfl
  | some a =>
      obtain ⟨l', hl', hrun'⟩ := hf a rfl { st with reads := st.reads ++ l }
      refine ⟨l ++ l', hl.append hl', ?_⟩
      show LoadM.bind x f st = _
      rw [LoadM.bind, hrun]
      dsimp only [outcome]
      rw [hrun', List.append_assoc]
      rfl

theorem Checks.rejectIf (c : Prop) [Decidable c] : Checks len (rejectIf c) (reject c) := by
  intro st
  refine ⟨[], inFile_nil, ?_⟩
  rw [List.append_nil]
  unfold Elf.rejectIf reject
  split <;> rfl

theorem Checks.readBuf {buf : Mem} {off n : Nat} (f : Mem → α) (h : off + n ≤ len) :
    Checks len (readBuf buf off n f) (some (f buf)) := by
  refine fun st => ⟨[(off, n)], ?_, rfl⟩
  intro r hr
  rw [List.mem_singleton.mp hr]
  exact h

/-- The layout does not see that the file is read. -/
theorem Checks.read {buf : Mem} {off n : Nat} {g : Mem → α} {f : α → LoadM β} {o : Option β}
    (h : off + n ≤ len) (hf : Checks len (f (g buf)) o) :
    Checks len (Elf.readBuf buf off n g >>= f) o := by
  refine (Checks.readBuf g h).bind (g := fun _ => o) fun a ha => ?_
  cases ha
  exact hf

theorem Checks.ite {c : Prop} [Decidable c] {x y : LoadM α} {o p : Option α}
    (hx : c → Checks len x o) (hy : ¬c → Checks len y p) :
    Checks len (if c then x else y) (if c then o else p) := by
  by_cases hc : c
  · rw [if_pos hc, if_pos hc]
    exact hx hc
  · rw [if_neg hc, if_neg hc]
    exact hy hc

end

/-- The first loop reads headers that the check before has bounded. -/
theorem checks_scanHeaders {F : Format} {buf : Mem} {len : UInt32} {h : Ehdr}
    (hF : F.phdrSize.toNat ≤ 64) (h1 : h.phoff.toNat < len.toNat)
    (h2 : h.phentsize.toNat < len.toNat) (h3 : h.phnum.toNat < len.toNat) :
    ∀ (k i : Nat) (acc : UInt64 × UInt64), i + k ≤ h.phnum.toNat →
      Checks len.toNat (scanHeaders F buf len.toUInt64 h k i acc)
        (scanPhdrs F buf len.toUInt64 h k i acc) := by
  intro k
  induction k with
  | zero => intro i acc _; exact Checks.pure acc
  | succ k ih =>
      intro i acc hik
      have hl : len.toUInt64.toNat = len.toNat := UInt32.toNat_toUInt64 len
      by_cases hoff : phdrOffset h i + F.phdrSize > len.toUInt64
      · have hscan : scanPhdrs F buf len.toUInt64 h (k + 1) i acc
            = (reject (phdrOffset h i + F.phdrSize > len.toUInt64)).bind fun _ => none := by
          rw [scanPhdrs]
          dsimp only
          rw [if_pos hoff, reject, if_pos hoff]
          rfl
        rw [hscan]
        exact (Checks.rejectIf _).bind fun _ hc => absurd hoff (reject_eq_some.mp hc)
      · have hin : (phdrOffset h i + F.phdrSize).toNat ≤ len.toNat := by
          rw [gt_iff_lt, UInt64.not_lt, UInt64.le_iff_toNat_le, hl] at hoff
          exact hoff
        obtain ⟨ho1, ho2⟩ := phdrOffset_spec hF h1 h2 h3 (show i < h.phnum.toNat by omega) hin
        have hscan : scanPhdrs F buf len.toUInt64 h (k + 1) i acc
            = (reject (phdrOffset h i + F.phdrSize > len.toUInt64)).bind fun _ =>
              (some (F.phdr buf (phdrOffset h i).toNat)).bind fun ph =>
                if ph.type ≠ 1 then scanPhdrs F buf len.toUInt64 h k (i + 1) acc
                else (reject (¬phdrOk F len.toUInt64 ph)).bind fun _ =>
                  scanPhdrs F buf len.toUInt64 h k (i + 1)
                    (min acc.1 ph.vaddr, max acc.2 (ph.vaddr + ph.memsz)) := by
          rw [scanPhdrs]
          dsimp only
          rw [if_neg hoff, reject, if_neg hoff]
          simp only [Option.bind_some, reject]
          split
          · rfl
          · split <;> rfl
        rw [hscan]
        refine (Checks.rejectIf _).bind fun _ _ => (Checks.readBuf _ (by omega)).bind fun ph _ => ?_
        exact Checks.ite (fun _ => ih (i + 1) acc (by omega)) fun _ =>
          (Checks.rejectIf _).bind fun _ _ => ih (i + 1) _ (by omega)

theorem checks_allocRegion {len : Nat} (start size : UInt64) :
    Checks len (allocRegion start size) (allocateRegion start size) :=
  (Checks.rejectIf _).bind fun _ _ => (Checks.rejectIf _).bind fun _ _ => Checks.pure _

theorem checks_allocPage {len : Nat} (start : UInt64) :
    Checks len (allocPage start) (allocatePage start) :=
  (Checks.rejectIf _).bind fun _ _ => Checks.pure _

section

variable {buf : Mem} {len : UInt32} {config : AppConfig} {vaddrBreak : UInt64}

/-- The header is read after the check of its size, and the program headers after the checks of
their place. -/
theorem checks_regions {F : Format} (hF : F.phdrSize.toNat ≤ 64) :
    Checks len.toNat (checkRegions F buf len config vaddrBreak)
      (regions F buf len config vaddrBreak) := by
  have hl : len.toUInt64.toNat = len.toNat := UInt32.toNat_toUInt64 len
  refine (Checks.rejectIf _).bind fun _ hsize => ?_
  have hsize : F.ehdrSize.toNat ≤ len.toNat := by
    have := reject_eq_some.mp hsize
    rw [UInt64.not_lt, UInt64.le_iff_toNat_le, hl] at this
    exact this
  have hread : 0 + F.ehdrSize.toNat ≤ len.toNat := by omega
  have hlt : ∀ {x : UInt64} {u : Unit}, reject (x ≥ len.toUInt64) = some u →
    x.toNat < len.toNat := by
    intro x u hx
    have := reject_eq_some.mp hx
    rw [ge_iff_le, UInt64.not_le, UInt64.lt_iff_toNat_lt, hl] at this
    exact this
  refine Checks.read hread ((Checks.rejectIf _).bind fun _ _ => Checks.read hread ?_)
  refine (Checks.rejectIf _).bind fun _ h1 => (Checks.rejectIf _).bind fun _ h2 =>
    (Checks.rejectIf _).bind fun _ h3 => ?_
  refine (checks_scanHeaders hF (hlt h1) (hlt h2) (hlt h3) _ 0 _ (by omega)).bind fun bounds _ => ?_
  refine (Checks.rejectIf _).bind fun _ _ => (Checks.rejectIf _).bind fun _ _ =>
    (Checks.rejectIf _).bind fun _ _ => (Checks.rejectIf _).bind fun _ _ =>
    (Checks.rejectIf _).bind fun _ _ => (Checks.rejectIf _).bind fun _ _ =>
    (Checks.rejectIf _).bind fun _ _ => ?_
  refine (checks_allocRegion _ _).bind fun stdinBreak _ => (checks_allocRegion _ _).bind fun
    stdoutBreak _ => (checks_allocRegion _ _).bind fun stderrBreak _ => ?_
  exact (checks_allocRegion _ _).bind fun ibBreak _ => (checks_allocRegion _ _).bind
    fun obBreak _ =>
    Checks.pure _

theorem checks_check64 : Checks len.toNat (check64 buf len config vaddrBreak)
    (layout64 buf len config vaddrBreak) :=
  (checks_regions (by decide)).bind fun _ _ => (checks_allocPage _).bind fun _ _ =>
    (checks_allocPage _).bind fun _ _ => (Checks.rejectIf _).bind fun _ _ =>
    (Checks.rejectIf _).bind fun _ _ => Checks.pure _

theorem checks_check32 : Checks len.toNat (check32 buf len config vaddrBreak)
    (layout32 buf len config vaddrBreak) :=
  (checks_regions (by decide)).bind fun _ _ => (Checks.rejectIf _).bind fun _ _ =>
    (Checks.rejectIf _).bind fun _ _ => (checks_allocPage _).bind fun _ _ =>
    (Checks.rejectIf _).bind fun _ _ => (Checks.rejectIf _).bind fun _ _ => Checks.pure _

end

/-! ### The loading -/

/-- The computation performs the effects, and otherwise only reads. -/
def Performs (len : Nat) (x : LoadM Unit) (es : List Effect) : Prop :=
  ∀ st, ∃ l, InFile len l ∧
    (∀ s, exec es st.machine = some s →
      x st = (.ok (), { st with machine := s, reads := st.reads ++ l })) ∧
    (exec es st.machine = none →
      ∃ s, x st = (.error .assertFailed, { st with machine := s, reads := st.reads ++ l }))

section

variable {len : Nat}

theorem Performs.nil : Performs len (pure ()) [] := by
  intro st
  refine ⟨[], inFile_nil, ?_, fun h => nomatch h⟩
  intro s hs
  cases hs
  rw [List.append_nil]
  rfl

theorem Performs.one (e : Effect) : Performs len (perform e) [e] := by
  intro st
  refine ⟨[], inFile_nil, ?_, ?_⟩
  · intro s hs
    have hrun : e.run st.machine = some s := by
      cases hr : e.run st.machine with
      | none => rw [exec, hr] at hs; cases hs
      | some t => rw [exec, hr] at hs; exact hs
    rw [List.append_nil]
    unfold perform
    rw [hrun]
  · intro hn
    have hrun : e.run st.machine = none := by
      cases hr : e.run st.machine with
      | none => rfl
      | some t => rw [exec, hr] at hn; cases hn
    refine ⟨st.machine, ?_⟩
    rw [List.append_nil]
    unfold perform
    rw [hrun]

theorem exec_append (es fs : List Effect) (s : Machine) :
    exec (es ++ fs) s = (exec es s).bind (exec fs) := by
  induction es generalizing s with
  | nil => rfl
  | cons e es ih =>
      show (e.run s).bind (exec (es ++ fs)) = ((e.run s).bind (exec es)).bind (exec fs)
      cases e.run s with
      | none => rfl
      | some t => exact ih t

theorem Performs.append {x y : LoadM Unit} {es fs : List Effect} (hx : Performs len x es)
    (hy : Performs len y fs) : Performs len (do x; y) (es ++ fs) := by
  intro st
  obtain ⟨l, hl, hok, hfail⟩ := hx st
  cases he : exec es st.machine with
  | none =>
      refine ⟨l, hl, fun s hs => ?_, fun _ => ?_⟩
      · rw [exec_append, he] at hs
        cases hs
      · obtain ⟨s, hs⟩ := hfail he
        refine ⟨s, ?_⟩
        show LoadM.bind x (fun _ => y) st = _
        rw [LoadM.bind, hs]
  | some t =>
      obtain ⟨l', hl', hok', hfail'⟩ := hy { st with machine := t, reads := st.reads ++ l }
      have hrun : LoadM.bind x (fun _ => y) st
          = y { st with machine := t, reads := st.reads ++ l } := by
        rw [LoadM.bind, hok t he]
      refine ⟨l ++ l', hl.append hl', fun s hs => ?_, fun hn => ?_⟩
      · rw [exec_append, he] at hs
        refine hrun.trans ?_
        rw [hok' s hs, List.append_assoc]
      · rw [exec_append, he] at hn
        obtain ⟨s, hs⟩ := hfail' hn
        refine ⟨s, hrun.trans ?_⟩
        rw [hs, List.append_assoc]

theorem Performs.read {α : Type} {buf : Mem} {off n : Nat} {g : Mem → α} {f : α → LoadM Unit}
    {es : List Effect} (h : off + n ≤ len) (hf : Performs len (f (g buf)) es) :
    Performs len (readBuf buf off n g >>= f) es := by
  intro st
  obtain ⟨l, hl, hok, hfail⟩ := hf { st with reads := st.reads ++ [(off, n)] }
  have hin : InFile len [(off, n)] := by
    intro r hr
    rw [List.mem_singleton.mp hr]
    exact h
  have hrun : LoadM.bind (readBuf buf off n g) f st
      = f (g buf) { st with reads := st.reads ++ [(off, n)] } := rfl
  refine ⟨[(off, n)] ++ l, hin.append hl, fun s hs => hrun.trans ?_, fun hn => ?_⟩
  · rw [hok s hs, List.append_assoc]
  · obtain ⟨s, hs⟩ := hfail hn
    refine ⟨s, hrun.trans ?_⟩
    rw [hs, List.append_assoc]

theorem Performs.all : ∀ es : List Effect, Performs len (performAll es) es
  | [] => .nil
  | e :: es => (Performs.one e).append (Performs.all es)

theorem Performs.forHeaders {body : Nat → LoadM Unit} {eff : Nat → List Effect} :
    ∀ is : List Nat, (∀ i ∈ is, Performs len (body i) (eff i)) →
      Performs len (forHeaders body is) (is.flatMap eff)
  | [], _ => .nil
  | i :: is, h => (h i (List.mem_cons_self ..)).append
      (Performs.forHeaders is fun j hj => h j (List.mem_cons_of_mem _ hj))

end

section

variable {F : Format} {buf : Mem} {len : UInt32} {config : AppConfig} {vaddrBreak : UInt64}
  {l : Layout} {random : List Effect} {stack : List UInt8} {infoSize : Nat}

/-- A header that was checked can be read again. -/
theorem LayoutOk.phdr_inFile (h : LayoutOk F buf len config vaddrBreak l) {i : Nat}
    (hi : i ∈ List.range l.ehdr.phnum.toNat) :
    (phdrOffset l.ehdr i).toNat + F.phdrSize.toNat ≤ len.toNat := by
  obtain ⟨h1, h2⟩ := h.inFile i (List.mem_range.mp hi)
  omega

theorem performs_loadSegment (h : LayoutOk F buf len config vaddrBreak l)
    (htop : vaddrBreak.toNat ≤ 2 ^ 39) {i : Nat} (hi : i ∈ List.range l.ehdr.phnum.toNat) :
    Performs len.toNat (loadSegment F buf l.ehdr i)
      (segmentEffects buf (F.phdr buf (phdrOffset l.ehdr i).toNat)) := by
  refine Performs.read (h.phdr_inFile hi) ?_
  split
  · rename_i hc
    refine Performs.read ?_ (Performs.all _)
    exact h.segment_inFile htop (List.mem_map.mpr ⟨i, hi, rfl⟩) hc.1 hc.2
  · rename_i hc
    rw [segmentEffects, if_neg hc]
    exact .nil

/-- The effects of the loaders in the order of the source. -/
theorem performs_loadInto (h : Accepted F buf len config vaddrBreak l random stack infoSize)
    (htop : vaddrBreak.toNat ≤ 2 ^ 39) :
    Performs len.toNat (loadInto F buf len config vaddrBreak l random stack infoSize)
      (flagEffects l vaddrBreak
        ++ loading (phdrs F buf l.ehdr) buf len config l random stack infoSize) := by
  have hl := h.toLayoutOk
  unfold loading phdrs
  rw [List.flatMap_map, List.flatMap_map]
  refine (Performs.all _).append ((Performs.forHeaders _ fun i hi => ?segments).append
    ((Performs.all _).append ((Performs.all _).append ((Performs.all _).append
    (Performs.read ?image ((Performs.all _).append ((Performs.all _).append ((Performs.all _).append
    ((Performs.forHeaders _ fun i hi => ?flags).append (Performs.all _))))))))))
  case segments => exact performs_loadSegment hl htop hi
  case image => omega
  case flags => exact Performs.read (hl.phdr_inFile hi) (Performs.all _)

end

/-! ### `ELF::load` -/

/-- The computation rejects, or performs the effects of `o` and returns its application. -/
def Runs (len : Nat) (x : LoadM Unit) (o : Loaded) : Prop :=
  ∀ st, ∃ l, InFile len l ∧
    (o = none → x st = (.error .rejected, { st with reads := st.reads ++ l })) ∧
    ∀ a es, o = some (a, es) →
      (∀ s, exec es st.machine = some s →
        x st = (.ok (), { machine := s, app := a, reads := st.reads ++ l })) ∧
      (exec es st.machine = none →
        ∃ s, x st = (.error .assertFailed, { st with machine := s, reads := st.reads ++ l }))

/-- First all checks, then all effects. -/
theorem runs_of_checks {len : Nat} {check : LoadM Layout} {o : Option Layout}
    {body : Layout → LoadM Unit} {a : Layout → App} {es : Layout → List Effect}
    (hcheck : Checks len check o) (hbody : ∀ l, o = some l → Performs len (body l) (es l)) :
    Runs len (do let l ← check; body l; returnApp (a l)) (o.bind fun l => some (a l, es l)) := by
  intro st
  obtain ⟨r, hr, hrun⟩ := hcheck st
  have hbind : (do let l ← check; body l; returnApp (a l) : LoadM Unit) st
      = LoadM.bind check (fun l => LoadM.bind (body l) fun _ => returnApp (a l)) st := rfl
  rw [hbind]
  cases o with
  | none =>
      refine ⟨r, hr, fun _ => ?_, fun a es h => nomatch h⟩
      rw [LoadM.bind, hrun]
      rfl
  | some l =>
      obtain ⟨r', hr', hok, hfail⟩ := hbody l rfl { st with reads := st.reads ++ r }
      have hrest : LoadM.bind check (fun l => LoadM.bind (body l) fun _ => returnApp (a l)) st
          = LoadM.bind (body l) (fun _ => returnApp (a l)) { st with reads := st.reads ++ r } := by
        rw [LoadM.bind, hrun]
        rfl
      refine ⟨r ++ r', hr.append hr', (fun h => nomatch h), fun a' es' h => ?_⟩
      cases h
      refine ⟨fun s hs => hrest.trans ?_, fun hn => ?_⟩
      · rw [LoadM.bind, hok s hs, List.append_assoc]
        rfl
      · obtain ⟨s, hs⟩ := hfail hn
        refine ⟨s, hrest.trans ?_⟩
        rw [LoadM.bind, hs, List.append_assoc]

section

variable (buf : Mem) {len : UInt32} (config : AppConfig) (tscFreq : UInt64) {vaddrBreak : UInt64}

theorem runs_elf64 (htop : vaddrBreak.toNat ≤ 2 ^ 39) :
    Runs len.toNat (runElf64 buf len config tscFreq vaddrBreak)
      (loadElf64 buf len config tscFreq vaddrBreak) := by
  refine runs_of_checks checks_check64 fun l hl => ?_
  rw [effects64_eq]
  exact performs_loadInto (accepted64 tscFreq hl) htop

theorem runs_elf32 (htop : vaddrBreak.toNat ≤ 2 ^ 39) :
    Runs len.toNat (runElf32 buf len config tscFreq vaddrBreak)
      (loadElf32 buf len config tscFreq vaddrBreak) := by
  refine runs_of_checks checks_check32 fun l hl => ?_
  rw [effects32_eq_loading]
  exact performs_loadInto (accepted32 tscFreq hl) htop

theorem runs_rejected {len : Nat} : Runs len (rejectIf True) none :=
  fun st => ⟨[], inFile_nil, fun _ => by rw [List.append_nil]; rfl, fun a es h => nomatch h⟩

theorem runs_load (htop : vaddrBreak.toNat ≤ 2 ^ 39) :
    Runs len.toNat (runLoad buf len config tscFreq vaddrBreak)
      (load buf len config tscFreq vaddrBreak) := by
  intro st
  by_cases hlen : len < 52
  · refine ⟨[], inFile_nil, fun _ => ?_, fun a es h => ?_⟩
    · show LoadM.bind (rejectIf (len < 52)) _ st = _
      rw [LoadM.bind, rejectIf, if_pos hlen, List.append_nil]
    · rw [load, if_pos hlen] at h
      cases h
  · -- the class is the first byte that is read
    have h4 : InFile len.toNat [(4, 1)] := by
      intro r hr
      rw [List.mem_singleton.mp hr]
      have := UInt32.le_iff_toNat_le.mp (UInt32.not_lt.mp hlen)
      have h52 : (52 : UInt32).toNat = 52 := rfl
      show 4 + 1 ≤ len.toNat
      omega
    have hrest : Runs len.toNat (if buf 4 = 2 then runElf64 buf len config tscFreq vaddrBreak
        else if buf 4 = 1 then runElf32 buf len config tscFreq vaddrBreak else rejectIf True)
        (load buf len config tscFreq vaddrBreak) := by
      rw [load, if_neg hlen]
      split
      · exact runs_elf64 buf config tscFreq htop
      · split
        · exact runs_elf32 buf config tscFreq htop
        · exact runs_rejected
    have hrun : runLoad buf len config tscFreq vaddrBreak st
        = (if buf 4 = 2 then runElf64 buf len config tscFreq vaddrBreak
          else if buf 4 = 1 then runElf32 buf len config tscFreq vaddrBreak else rejectIf True)
            { st with reads := st.reads ++ [(4, 1)] } := by
      show LoadM.bind (rejectIf (len < 52)) _ st = _
      rw [LoadM.bind, rejectIf, if_neg hlen]
      rfl
    obtain ⟨r, hr, hnone, hsome⟩ := hrest { st with reads := st.reads ++ [(4, 1)] }
    refine ⟨[(4, 1)] ++ r, h4.append hr, fun hn => hrun.trans ?_, fun a es h => ?_⟩
    · rw [hnone hn, List.append_assoc]
    · obtain ⟨hok, hfail⟩ := hsome a es h
      refine ⟨fun s hs => hrun.trans ?_, fun hn => ?_⟩
      · rw [hok s hs, List.append_assoc]
      · obtain ⟨s, hs⟩ := hfail hn
        refine ⟨s, hrun.trans ?_⟩
        rw [hs, List.append_assoc]

/-- `ELF::load` on any file in any state: it reads the file below its length only, it returns
`false` just when the layout is rejected, with the machine and the `App` of the caller as they
were, and otherwise it has performed the effects of the layout. -/
theorem load_atomic (htop : vaddrBreak.toNat ≤ 2 ^ 39) (st : LoadState) :
    (∃ reads, (runLoad buf len config tscFreq vaddrBreak st).2.reads = st.reads ++ reads ∧
      ∀ r ∈ reads, r.1 + r.2 ≤ len.toNat) ∧
    ((runLoad buf len config tscFreq vaddrBreak st).1 = .error .rejected ↔
      load buf len config tscFreq vaddrBreak = none) ∧
    ((runLoad buf len config tscFreq vaddrBreak st).1 = .error .rejected →
      (runLoad buf len config tscFreq vaddrBreak st).2.machine = st.machine ∧
      (runLoad buf len config tscFreq vaddrBreak st).2.app = st.app) ∧
    ((runLoad buf len config tscFreq vaddrBreak st).1 = .ok () →
      ∃ a es, load buf len config tscFreq vaddrBreak = some (a, es) ∧
        (runLoad buf len config tscFreq vaddrBreak st).2.app = a ∧
        exec es st.machine = some (runLoad buf len config tscFreq vaddrBreak st).2.machine) := by
  obtain ⟨l, hl, hnone, hsome⟩ := runs_load buf config tscFreq htop st
  cases hload : load buf len config tscFreq vaddrBreak with
  | none =>
      rw [hnone hload]
      exact ⟨⟨l, rfl, hl⟩, ⟨fun _ => rfl, fun _ => rfl⟩, fun _ => ⟨rfl, rfl⟩, fun h => nomatch h⟩
  | some p =>
      obtain ⟨a, es⟩ := p
      obtain ⟨hok, hfail⟩ := hsome a es hload
      cases hex : exec es st.machine with
      | none =>
          obtain ⟨s, hs⟩ := hfail hex
          rw [hs]
          exact ⟨⟨l, rfl, hl⟩, ⟨(fun h => nomatch h), fun h => nomatch h⟩, (fun h => nomatch h),
            fun h => nomatch h⟩
      | some s =>
          rw [hok s hex]
          exact ⟨⟨l, rfl, hl⟩, ⟨(fun h => nomatch h), fun h => nomatch h⟩, (fun h => nomatch h),
            fun _ => ⟨a, es, rfl, rfl, hex⟩⟩

end

/-- A byte less, and the segment ends behind the file. -/
theorem load_atomic_truncated : ∃ st : LoadState,
    (runLoad tinyFile64 119 tinyConfig 1000000000 0x404000 st).1 = .error .rejected ∧
    (runLoad tinyFile64 119 tinyConfig 1000000000 0x404000 st).2.machine = st.machine ∧
    (runLoad tinyFile64 119 tinyConfig 1000000000 0x404000 st).2.app = st.app := by
  have hnone : (load tinyFile64 119 tinyConfig 1000000000 0x404000).isNone = true := by
    decide +kernel
  have st : LoadState :=
    { machine := ⟨fun _ => 0, fun _ => 0, 0x404000⟩
      app := ⟨.elf64, 0, 0, 0, 0, 0, 0, 0, 0, ⟨0, 0, 0, 0, 0, 0, 0, 0, 0, 0, 0⟩, 0⟩
      reads := [] }
  obtain ⟨-, hiff, hkept, -⟩ :=
    load_atomic tinyFile64 tinyConfig 1000000000
      (show (0x404000 : UInt64).toNat ≤ 2 ^ 39 by decide) st
  have h := hiff.mpr (Option.isNone_iff_eq_none.mp hnone)
  exact ⟨st, h, hkept h⟩

end JudgeDuck.Elf
