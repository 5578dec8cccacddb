/-
Where `load_elf32` writes.

The 32-bit loader looks at the end of the special region before it places the ELF
image, so nothing checks the page of the image: it is the page after the end, which
may be the first page of the kernel's memory at `vaddr_break`.  Everything else
stays inside the user's address space.  The page flags of the pages above 4 GiB are
reset to the kernel's, which changes those that an earlier 64-bit program had.
-/
import JudgeDuck.Proofs.Elf.Accept
import JudgeDuck.Proofs.Elf.Flags

namespace JudgeDuck.Elf

open Utils Memory

/-! ### The bytes that effects write -/

/-- The byte at `x` is written by the effect. -/
def Effect.Writes (e : Effect) (s : Machine) (x : Nat) : Prop :=
  match e with
  | .pages op start stop => start.toNat / 4096 ≤ x / 4096 ∧ x / 4096 < stop.toNat / 4096 ∧
      op.wipes (s.p1 (x / 4096)) = true
  | .copy dst n _ => dst.toNat ≤ x ∧ x < dst.toNat + n

/-- The byte at `x` is written by one of the effects. -/
def Writes : List Effect → Machine → Nat → Prop
  | [], _, _ => False
  | e :: es, s, x => e.Writes s x ∨ ∃ s', e.run s = some s' ∧ Writes es s' x

theorem Effect.Within.of_writes {lo hi : Nat} {e : Effect} (h : e.Within lo hi) {s : Machine}
    {x : Nat} (hx : e.Writes s x) : lo ≤ x ∧ x < hi := by
  cases e with
  | pages op start stop =>
      obtain ⟨h1, h2, -, h4, h5⟩ := h
      obtain ⟨hx1, hx2, -⟩ := hx
      omega
  | copy dst n src =>
      obtain ⟨h1, h2⟩ := h
      obtain ⟨hx1, hx2⟩ := hx
      omega

theorem Within.of_writes {lo hi : Nat} {es : List Effect} (h : Within lo hi es) {s : Machine}
    {x : Nat} (hx : Writes es s x) : lo ≤ x ∧ x < hi := by
  induction es generalizing s with
  | nil => exact hx.elim
  | cons e es ih =>
      rcases hx with hx | ⟨s', -, hx⟩
      · exact (h e (by simp)).of_writes hx
      · exact ih (fun f hf => h f (by simp [hf])) hx

theorem Within.writes_append {lo hi : Nat} {es fs : List Effect} (h : Within lo hi es)
    {s : Machine} {x : Nat} :
    Writes (es ++ fs) s x ↔ Writes es s x ∨ Writes fs (applyAll es s) x := by
  induction es generalizing s with
  | nil => simp [Writes]
  | cons e es ih =>
      have he := Effect.run_eq (h e (by simp)) s
      have ih' := ih (fun f hf => h f (by simp [hf])) (s := e.apply s)
      simp only [List.cons_append, Writes, he, Option.some.injEq, exists_eq_left', ih',
        applyAll_cons, or_assoc]

/-- A copy writes its bytes. -/
theorem Within.writes_copy {lo hi : Nat} {es : List Effect} (h : Within lo hi es) {dst : UInt64}
    {n : Nat} {src : Nat → UInt8} (hmem : Effect.copy dst n src ∈ es) (s : Machine) {x : Nat}
    (h1 : dst.toNat ≤ x) (h2 : x < dst.toNat + n) : Writes es s x := by
  induction es generalizing s with
  | nil => cases hmem
  | cons e es ih =>
      rcases List.mem_cons.mp hmem with rfl | hmem
      · exact Or.inl ⟨h1, h2⟩
      · exact Or.inr ⟨e.apply s, Effect.run_eq (h e (by simp)) s,
          ih (fun f hf => h f (by simp [hf])) hmem _⟩

/-! ### The 32-bit loader -/

section

variable {buf : Mem} {len : UInt32} {config : AppConfig} {vaddrBreak : UInt64} {l : Layout}

/-- What the 32-bit loader does after the first page flags. -/
def loading32 (buf : Mem) (len : UInt32) (config : AppConfig) (tscFreq : UInt64) (l : Layout) :
    List Effect :=
  (phdrs elf32 buf l.ehdr).flatMap (segmentEffects buf) ++ (stdinEffects l.toRegions config
    ++ (ibEffects l.toRegions config ++ (obEffects l.toRegions config
    ++ (elfImageEffects l buf len ++ (stackEffects l.toRegions (stack32 l config tscFreq) 60
    ++ ((phdrs elf32 buf l.ehdr).flatMap segmentFlagEffects
    ++ [.pages clearAccessAndDirtyFlags l.loadVaddrStart l.specialRegionBreak]))))))

theorem effects32_eq (tscFreq : UInt64) : effects32 buf len config tscFreq vaddrBreak l
    = flagEffects l vaddrBreak ++ loading32 buf len config tscFreq l := by
  simp only [effects32, loading32, List.append_assoc]

theorem loading32_eq (tscFreq : UInt64) : loading32 buf len config tscFreq l
    = loading (phdrs elf32 buf l.ehdr) buf len config l [] (stack32 l config tscFreq) 60 := by
  simp only [loading32, loading, List.nil_append]

theorem loadElf32_eq_some {tscFreq : UInt64} {a : App} {es : List Effect}
    (h : loadElf32 buf len config tscFreq vaddrBreak = some (a, es)) :
    ∃ l, layout32 buf len config vaddrBreak = some l ∧
      a = app .elf32 l (duckInfo l.toRegions config tscFreq)
        (duckInfo l.toRegions config tscFreq).bytes32 (stack32 l config tscFreq) ∧
      es = effects32 buf len config tscFreq vaddrBreak l := by
  unfold loadElf32 at h
  simp only [Option.bind_eq_bind, Option.bind_eq_some_iff, Option.pure_def, Option.some.injEq,
    Prod.mk.injEq] at h
  obtain ⟨l, hl, rfl, rfl⟩ := h
  exact ⟨l, hl, rfl, rfl⟩

theorem loadElf32_of_layout (tscFreq : UInt64) (h : layout32 buf len config vaddrBreak = some l) :
    loadElf32 buf len config tscFreq vaddrBreak
      = some (app .elf32 l (duckInfo l.toRegions config tscFreq)
          (duckInfo l.toRegions config tscFreq).bytes32 (stack32 l config tscFreq),
        effects32 buf len config tscFreq vaddrBreak l) := by
  rw [loadElf32, h]
  rfl

/-- Everything after the first page flags stays in the program's pages and the page of the
image, which comes after them. -/
theorem within_loading32 (tscFreq : UInt64) (h : LayoutOk elf32 buf len config vaddrBreak l)
    (hend : l.specialRegionBreak = l.obLoadBreak) :
    Within l.loadVaddrStart.toNat (l.specialRegionBreak.toNat + 4096)
      (loading32 buf len config tscFreq l) := by
  have himage := h.image
  rw [loading32_eq]
  refine (h.accepted32 tscFreq).within_loading.mono (Nat.le_refl _) ?_
  rw [hend]
  omega

/-- The first page flags and the rest, each inside its range. -/
theorem within_effects32 (tscFreq : UInt64) (h : LayoutOk elf32 buf len config vaddrBreak l)
    (hend : l.specialRegionBreak = l.obLoadBreak) (hvb : vaddrBreak.toNat % 4096 = 0) :
    Within kernelBreak.toNat (max vaddrBreak.toNat (l.specialRegionBreak.toNat + 4096))
      (effects32 buf len config tscFreq vaddrBreak l) := by
  rw [effects32_eq]
  exact ((within_flags h hvb).mono (Nat.le_refl _) (by omega)).append
    ((within_loading32 tscFreq h hend).mono h.kernel (by omega))

/-- The end of the special region, from the sizes of the request. -/
def specialEnd32 (config : AppConfig) : Nat :=
  0x8048000 + pageUp config.memoryHardLimit.toNat + pageUp config.stdinSize.toNat
    + pageUp config.stdoutMaxSize.toNat + pageUp config.stderrMaxSize.toNat
    + pageUp config.ibSize.toNat + pageUp config.obSize.toNat

theorem specialRegionBreak_eq32 (h : LayoutOk elf32 buf len config vaddrBreak l)
    (hend : l.specialRegionBreak = l.obLoadBreak) :
    l.specialRegionBreak.toNat = specialEnd32 config := by
  have h0 : l.loadVaddrStart.toNat = 0x8048000 := by
    rw [h.start]
    rfl
  have h1 := h.break_eq
  have h2 := h.stdin
  have h3 := h.stdout
  have h4 := h.stderr
  have h5 := h.ib
  have h6 := h.ob
  rw [hend]
  unfold specialEnd32
  omega

/-- The page flags alone write zeros, and only to pages of the program. -/
theorem writes_flagEffects {F : Format} (h : LayoutOk F buf len config vaddrBreak l) {s : Machine}
    {x : Nat} (hx : Writes (flagEffects l vaddrBreak) s x) :
    l.loadVaddrStart.toNat ≤ x ∧ x < l.specialRegionBreak.toNat := by
  have h1 := h.aligned
  have h2 := h.special_aligned
  simp only [flagEffects, Writes, Effect.Writes] at hx
  obtain ⟨-, -, hx⟩ | ⟨_, -, ⟨-, -, hx⟩ | ⟨_, -, ⟨-, -, hx⟩ | ⟨_, -, hx | ⟨_, -, hx⟩⟩⟩⟩ := hx
  · cases hx
  · cases hx
  · cases hx
  · omega
  · exact hx.elim

/-- The first byte of the image is written, wherever the image is. -/
theorem writes_elfImage (tscFreq : UInt64) (h : LayoutOk elf32 buf len config vaddrBreak l)
    (hend : l.specialRegionBreak = l.obLoadBreak) (hvb : vaddrBreak.toNat % 4096 = 0)
    (s : Machine) : Writes (effects32 buf len config tscFreq vaddrBreak l) s
      l.specialRegionBreak.toNat := by
  have hsize : 52 ≤ len.toNat := h.size
  have hmem : Effect.copy l.elfImageLoadVaddr (min len.toNat 4096) buf
      ∈ effects32 buf len config tscFreq vaddrBreak l := by
    simp [effects32, elfImageEffects, readonlyEffects]
  have haddr : l.elfImageLoadVaddr.toNat = l.specialRegionBreak.toNat := by
    rw [hend]
    rfl
  exact (within_effects32 tscFreq h hend hvb).writes_copy hmem s (by omega) (by omega)

/-- A page at or above 4 GiB is a page of the kernel afterwards. -/
theorem p1_effects32_high (tscFreq : UInt64) (h : LayoutOk elf32 buf len config vaddrBreak l)
    (hend : l.specialRegionBreak = l.obLoadBreak) (hlow : l.specialRegionBreak.toNat < 2 ^ 32)
    (s : Machine) {p : Nat} (h1 : 2 ^ 32 ≤ 4096 * p) (h2 : 4096 * p < vaddrBreak.toNat)
    (hvb : vaddrBreak.toNat % 4096 = 0) :
    (applyAll (effects32 buf len config tscFreq vaddrBreak l) s).p1 p
      = setPageFlagsKernel.entry (s.p1 p) := by
  have h3 := h.special_aligned
  have h4 := h.kernel
  rw [toNat_kernelBreak] at h4
  rw [effects32_eq, applyAll_append, p1_applyAll_out (within_loading32 tscFreq h hend) _ (by omega),
    p1_flagEffects h, if_neg (by omega), if_pos]
  rw [toNat_kernelBreak]
  omega

/-- An address of the user below 4 GiB. -/
def UserLow (vaddrBreak : UInt64) (x : Nat) : Prop :=
  kernelBreak.toNat ≤ x ∧ x < vaddrBreak.toNat ∧ x < 2 ^ 32

/-- The 32-bit loader stays in the user's address space below 4 GiB exactly when there is room
for the image after the special region, and the pages above 4 GiB are the kernel's already. -/
theorem loadElf32_userLow_iff {tscFreq : UInt64} {a : App} {es : List Effect}
    (hvb : vaddrBreak.toNat % 4096 = 0)
    (h : loadElf32 buf len config tscFreq vaddrBreak = some (a, es)) (s : Machine) :
    ∃ s', exec es s = some s' ∧
      (((∀ x, Writes es s x → UserLow vaddrBreak x) ∧
          ∀ p, s'.p1 p ≠ s.p1 p → UserLow vaddrBreak (4096 * p)) ↔
        specialEnd32 config < vaddrBreak.toNat ∧ specialEnd32 config < 2 ^ 32 ∧
          ∀ p, 2 ^ 32 ≤ 4096 * p → 4096 * p < vaddrBreak.toNat →
            setPageFlagsKernel.entry (s.p1 p) = s.p1 p) := by
  obtain ⟨l, hl, -, rfl⟩ := loadElf32_eq_some h
  obtain ⟨hok, hend, -⟩ := layout32_spec hl
  have hall := within_effects32 tscFreq hok hend hvb
  have heq := specialRegionBreak_eq32 hok hend
  rw [← heq]
  refine ⟨_, hall.exec_eq s, ?_, ?_⟩
  · rintro ⟨hbytes, hentries⟩
    obtain ⟨-, h1, h2⟩ := hbytes _ (writes_elfImage tscFreq hok hend hvb s)
    refine ⟨h1, h2, fun p hp1 hp2 => ?_⟩
    have hp := p1_effects32_high tscFreq hok hend h2 s hp1 hp2 hvb
    by_contra hne
    obtain ⟨-, -, hp3⟩ := hentries p (by rw [hp]; exact hne)
    omega
  · rintro ⟨h1, h2, h3⟩
    have h4 := hok.special_aligned
    have h5 := hok.kernel
    have hmax : max vaddrBreak.toNat (l.specialRegionBreak.toNat + 4096) = vaddrBreak.toNat := by
      omega
    rw [hmax] at hall
    constructor
    · intro x hx
      rw [effects32_eq, (within_flags hok hvb).writes_append] at hx
      rcases hx with hx | hx
      · have := writes_flagEffects hok hx
        exact ⟨by omega, by omega, by omega⟩
      · have := (within_loading32 tscFreq hok hend).of_writes hx
        exact ⟨by omega, by omega, by omega⟩
    · intro p hp
      have hin : kernelBreak.toNat ≤ 4096 * p ∧ 4096 * p < vaddrBreak.toNat := by
        by_contra hout
        refine hp (p1_applyAll_out hall s ?_)
        rw [toNat_kernelBreak] at hout ⊢
        omega
      refine ⟨hin.1, hin.2, ?_⟩
      by_contra hhigh
      rw [p1_effects32_high tscFreq hok hend h2 s (by omega) hin.2 hvb] at hp
      exact hp (h3 p (by omega) hin.2)

end

/-- A 32-bit file of 84 bytes: the header and one program header, for a segment that is the
file itself. -/
def tinyFile32 : Mem := fun i =>
  ([0x7f, 0x45, 0x4c, 0x46, 1, 1, 1, 0] ++ le 8 0 ++ le 2 2 ++ le 2 3 ++ le 4 1 ++ le 4 0x8048054
    ++ le 4 52 ++ le 4 0 ++ le 4 0 ++ le 2 52 ++ le 2 32 ++ le 2 1 ++ le 6 0
    ++ le 4 1 ++ le 4 0 ++ le 4 0x8048000 ++ le 4 0 ++ le 4 84 ++ le 4 84 ++ le 4 5
    ++ le 4 4096).getD i 0

theorem loadElf32_userLow_tiny : ∃ a es,
    loadElf32 tinyFile32 84 tinyConfig 1000000000 0xc0400000 = some (a, es) ∧
    ∀ s, ∃ s', exec es s = some s' ∧ (∀ x, Writes es s x → UserLow 0xc0400000 x) ∧
      ∀ p, s'.p1 p ≠ s.p1 p → UserLow 0xc0400000 (4096 * p) := by
  have hsome : (layout32 tinyFile32 84 tinyConfig 0xc0400000).isSome = true := by decide +kernel
  obtain ⟨l, hl⟩ := Option.isSome_iff_exists.mp hsome
  have h := loadElf32_of_layout 1000000000 hl
  refine ⟨_, _, h, fun s => ?_⟩
  obtain ⟨s', hs', hiff⟩ := loadElf32_userLow_iff (by decide) h s
  refine ⟨s', hs', hiff.mpr ⟨by decide, by decide, fun p h1 h2 => ?_⟩⟩
  have htop : (0xc0400000 : UInt64).toNat = 0xc0400000 := rfl
  omega

/-- All memory of the user up to a `vaddr_break` of 4 MiB + 3072 MiB, and nothing else. -/
def wholeMemoryConfig : AppConfig := { tinyConfig with memoryHardLimit := 0xc0400000 - 0x8048000 }

/-- The image overwrites the first page of the kernel's memory. -/
theorem loadElf32_escapes : ¬∀ (buf : Mem) (len : UInt32) (config : AppConfig)
    (tscFreq vaddrBreak : UInt64) (a : App) (es : List Effect) (s : Machine),
    vaddrBreak.toNat % 4096 = 0 → loadElf32 buf len config tscFreq vaddrBreak = some (a, es) →
    ∃ s', exec es s = some s' ∧ (∀ x, Writes es s x → UserLow vaddrBreak x) ∧
      ∀ p, s'.p1 p ≠ s.p1 p → UserLow vaddrBreak (4096 * p) := by
  intro hall
  have hsome : (layout32 tinyFile32 84 wholeMemoryConfig 0xc0400000).isSome = true := by
    decide +kernel
  obtain ⟨l, hl⟩ := Option.isSome_iff_exists.mp hsome
  obtain ⟨hok, hend, -⟩ := layout32_spec hl
  let s : Machine := ⟨fun _ => 0, fun _ => 0, 0xc0400000⟩
  have hvb : (0xc0400000 : UInt64).toNat % 4096 = 0 := by decide
  obtain ⟨-, -, hbytes, -⟩ := hall _ _ _ _ _ _ _ s hvb (loadElf32_of_layout 1000000000 hl)
  obtain ⟨-, hlt, -⟩ := hbytes _ (writes_elfImage 1000000000 hok hend hvb s)
  rw [specialRegionBreak_eq32 hok hend] at hlt
  exact absurd hlt (by decide +kernel)

end JudgeDuck.Elf
