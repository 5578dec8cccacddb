/-
What a 32-bit program finds of the programs before it.

Its memory is filled with zeros like that of a 64-bit program.  But the page of the image
lies behind the special region, and `clear_duck_written_pages` stops before it.  The loader
copies the first page of the file there, so a shorter file leaves the rest of the page as
it was, and the program may read it.
-/
import JudgeDuck.Proofs.Elf.Fresh

namespace JudgeDuck.Elf

open Utils Memory

/-! ### A longer file -/

/-- What the header functions of a class read. -/
structure Format.Local (F : Format) : Prop where
  ident : 24 ≤ F.ehdrSize.toNat
  ehdr : ∀ {buf buf' : Mem}, (∀ i, i < F.ehdrSize.toNat → buf' i = buf i) → F.ehdr buf' = F.ehdr buf
  phdr : ∀ {buf buf' : Mem} {off : Nat},
    (∀ i, off ≤ i → i < off + F.phdrSize.toNat → buf' i = buf i) → F.phdr buf' off = F.phdr buf off

theorem elf32_local : elf32.Local where
  ident := by decide
  ehdr {buf buf'} h := by
    have h16 : ∀ a, a + 2 ≤ 52 → buf'.read16 a = buf.read16 a := fun a ha =>
      Mem.read16_congr fun i _ hi => h i (Nat.lt_of_lt_of_le hi ha)
    have h32 : ∀ a, a + 4 ≤ 52 → buf'.read32 a = buf.read32 a := fun a ha =>
      Mem.read32_congr fun i _ hi => h i (Nat.lt_of_lt_of_le hi ha)
    simp only [elf32, h32 24 (by decide), h32 28 (by decide), h16 42 (by decide),
      h16 44 (by decide)]
  phdr {buf buf' off} h := by
    have h32 : ∀ k, k + 4 ≤ 32 → buf'.read32 (off + k) = buf.read32 (off + k) := fun k hk =>
      Mem.read32_congr fun i hlo hhi => h i (by omega) (by
        have hsize : elf32.phdrSize.toNat = 32 := rfl
        omega)
    have h0 : buf'.read32 off = buf.read32 off := h32 0 (by decide)
    simp only [elf32, h0, h32 4 (by decide), h32 8 (by decide), h32 16 (by decide),
      h32 20 (by decide), h32 24 (by decide), h32 28 (by decide)]

section

variable {F : Format} {buf buf' : Mem} {len len' : UInt32} {config : AppConfig}
    {vaddrBreak : UInt64}

theorem identOk_congr (h : ∀ i, i < 24 → buf' i = buf i) : identOk F buf' = identOk F buf := by
  have h16 : ∀ a, a + 2 ≤ 24 → buf'.read16 a = buf.read16 a := fun a ha =>
    Mem.read16_congr fun i _ hi => h i (Nat.lt_of_lt_of_le hi ha)
  have h32 : buf'.read32 20 = buf.read32 20 := Mem.read32_congr fun i _ hi => h i hi
  simp only [identOk, h 0 (by decide), h 1 (by decide), h 2 (by decide), h 3 (by decide),
    h 4 (by decide), h 5 (by decide), h 6 (by decide), h 7 (by decide), h16 16 (by decide),
    h16 18 (by decide), h32]

/-- The checks of a header only become weaker. -/
theorem phdrOk_mono {n n' : UInt64} (hle : n.toNat ≤ n'.toNat) {ph : Phdr}
    (h : phdrOk F n ph = true) : phdrOk F n' ph = true := by
  rw [phdrOk_iff] at h ⊢
  obtain ⟨h1, h2⟩ := h
  exact ⟨fun hne => ⟨Nat.le_trans (h1 hne).1 hle, Nat.le_trans (h1 hne).2 hle⟩, h2⟩

theorem scanPhdrs_mono {n n' : UInt64} (hle : n.toNat ≤ n'.toNat) {h : Ehdr}
    {r : UInt64 × UInt64} : ∀ (k i : Nat) (acc : UInt64 × UInt64),
    (∀ j, i ≤ j → j < i + k →
      F.phdr buf' (phdrOffset h j).toNat = F.phdr buf (phdrOffset h j).toNat) →
    scanPhdrs F buf n h k i acc = some r → scanPhdrs F buf' n' h k i acc = some r := by
  intro k
  induction k with
  | zero => exact fun _ _ _ hr => hr
  | succ k ih =>
      intro i acc hsame hr
      have hrest : ∀ j, i + 1 ≤ j → j < i + 1 + k →
          F.phdr buf' (phdrOffset h j).toNat = F.phdr buf (phdrOffset h j).toNat :=
        fun j h1 h2 => hsame j (by omega) (by omega)
      rw [scanPhdrs] at hr ⊢
      dsimp only at hr ⊢
      rw [hsame i (Nat.le_refl i) (by omega)]
      by_cases hoff : phdrOffset h i + F.phdrSize > n
      · rw [if_pos hoff] at hr
        cases hr
      · have hoff' : ¬phdrOffset h i + F.phdrSize > n' := by
          rw [gt_iff_lt, UInt64.lt_iff_toNat_lt] at hoff ⊢
          omega
        rw [if_neg hoff] at hr
        rw [if_neg hoff']
        by_cases ht : (F.phdr buf (phdrOffset h i).toNat).type ≠ 1
        · rw [if_pos ht] at hr ⊢
          exact ih _ _ hrest hr
        · rw [if_neg ht] at hr ⊢
          by_cases hok : phdrOk F n (F.phdr buf (phdrOffset h i).toNat) = true
          · rw [if_neg (not_not.mpr hok)] at hr
            rw [if_neg (not_not.mpr (phdrOk_mono hle hok))]
            exact ih _ _ hrest hr
          · rw [if_pos hok] at hr
            cases hr

/-- A longer file with the same beginning has the same regions. -/
theorem regions_mono (hF : F.Local) (hsize : F.phdrSize.toNat ≤ 64) (hle : len.toNat ≤ len'.toNat)
    (hsame : ∀ i, i < len.toNat → buf' i = buf i) {r : Regions}
    (h : regions F buf len config vaddrBreak = some r) :
    regions F buf' len' config vaddrBreak = some r := by
  have hok := regions_spec hsize h
  have hehdr : F.ehdr buf' = F.ehdr buf :=
    hF.ehdr fun i hi => hsame i (Nat.lt_of_lt_of_le hi hok.size)
  have hident : identOk F buf' = identOk F buf := identOk_congr fun i hi =>
    hsame i (Nat.lt_of_lt_of_le hi (Nat.le_trans hF.ident hok.size))
  have hphdr : ∀ j, j < (F.ehdr buf).phnum.toNat →
      F.phdr buf' (phdrOffset (F.ehdr buf) j).toNat
        = F.phdr buf (phdrOffset (F.ehdr buf) j).toNat := by
    intro j hj
    rw [← hok.ehdr] at hj ⊢
    obtain ⟨hoff, hin⟩ := hok.inFile j hj
    exact hF.phdr fun i _ hi => hsame i (by omega)
  have hn : len.toUInt64.toNat ≤ len'.toUInt64.toNat := by
    rwa [UInt32.toNat_toUInt64, UInt32.toNat_toUInt64]
  unfold regions at h ⊢
  simp only [hehdr, hident]
  simp only [Option.bind_eq_bind, Option.bind_eq_some_iff, reject_eq_some, exists_const,
    ge_iff_le, UInt64.le_iff_toNat_le, UInt64.lt_iff_toNat_lt] at h ⊢
  obtain ⟨h1, h2, h3, h4, h5, bounds, hscan, hrest⟩ := h
  refine ⟨by omega, h2, by omega, by omega, by omega, bounds, ?_, hrest⟩
  exact scanPhdrs_mono hn _ _ _ (fun j _ hj => hphdr j (by omega)) hscan

theorem layout32_mono (hle : len.toNat ≤ len'.toNat) (hsame : ∀ i, i < len.toNat → buf' i = buf i)
    {l : Layout} (h : layout32 buf len config vaddrBreak = some l) :
    layout32 buf' len' config vaddrBreak = some l := by
  unfold layout32 at h ⊢
  obtain ⟨r, hr, hrest⟩ := Option.bind_eq_some_iff.mp h
  exact Option.bind_eq_some_iff.mpr
    ⟨r, regions_mono elf32_local (by decide) hle hsame hr, hrest⟩

end

/-! ### The page of the image -/

section

variable {F : Format} {buf : Mem} {len : UInt32} {config : AppConfig} {l : Layout}
  {random : List Effect} {stack : List UInt8} {infoSize : Nat} {s : Machine}

/-- Behind the bytes of the file the page of the image is as it was. -/
theorem Accepted.mem_leftover (h : Accepted F buf len config s.vaddrBreak l random stack infoSize)
    {bytes : List UInt8} (hrandom : PlacesRandom l random bytes)
    (hend : l.specialRegionBreak.toNat = l.obLoadBreak.toNat) {i : Nat} (hlo : len.toNat ≤ i)
    (hhi : i < 4096) :
    (applyAll (loading (phdrs F buf l.ehdr) buf len config l random stack infoSize)
        (applyAll (flagEffects l s.vaddrBreak) s)).mem (l.elfImageLoadVaddr.toNat + i)
      = s.mem (l.elfImageLoadVaddr.toNat + i) := by
  have himage := h.image
  have haddr : l.elfImageLoadVaddr.toNat = l.obLoadBreak.toNat := rfl
  obtain ⟨b1, b2, b3, b4, b5, b6⟩ := h.breaks_le
  have hroom := h.room
  rw [mem_applyAll fun op start stop he hp => (h.loop_of_mem he hp).noWipe,
    h.stores_loading hrandom, placed, if_neg (by omega), if_neg (by omega), if_neg (by omega),
    if_neg (by omega), if_neg (by omega), if_neg (by omega), if_pos (by omega), regionByte,
    if_neg (by omega), Option.getD_none, mem_flagEffects h.toLayoutOk, if_neg (by omega)]

end

/-- What a 32-bit program can read: its own pages, and the page of the image. -/
def Readable32 (l : Layout) (x : Nat) : Prop :=
  0x8048000 ≤ x ∧ x < l.specialRegionBreak.toNat ∨
    l.elfImageLoadVaddr.toNat ≤ x ∧ x < l.elfImageLoadBreak.toNat

/-- Whatever ran before, the request makes the same readable memory. -/
def Forgets (tscFreq : UInt64) (s : Machine) (buf : Mem) (len : UInt32)
    (config : AppConfig) : Prop :=
  ∀ jobs jobs' s₁ s₁' a es l s₂ s₂', history tscFreq jobs s = some s₁ →
    history tscFreq jobs' s = some s₁' →
    loadElf32 buf len config tscFreq s.vaddrBreak = some (a, es) →
    layout32 buf len config s.vaddrBreak = some l → exec es s₁ = some s₂ → exec es s₁' = some s₂' →
    ∀ x, Readable32 l x → s₂.mem x = s₂'.mem x

/-- The file, continued with another byte. -/
def continued (buf : Mem) (len : UInt32) (c : UInt8) : Mem := fun i =>
  if i < len.toNat then buf i else c

/-- The request with a file of a whole page, and a program that does nothing. -/
def Job.continued (buf : Mem) (len : UInt32) (config : AppConfig) (c : UInt8) : Job :=
  ⟨Elf.continued buf len c, 4096, config, []⟩

/-- The memory of a 32-bit program up to the end of the special region. -/
def image32 (buf : Mem) (len : UInt32) (config : AppConfig) (tscFreq : UInt64) (l : Layout)
    (x : Nat) : UInt8 :=
  (placed (phdrs elf32 buf l.ehdr) buf len config l []
    (movedStack l.toRegions (stack32 l config tscFreq) 60) x).getD 0

section

variable {buf : Mem} {len : UInt32} {config : AppConfig} {l : Layout} {s : Machine}

/-- Everything that a 32-bit program can read, after the loader. -/
theorem exec_effects32 (tscFreq : UInt64) (ha : s.vaddrBreak.toNat % 4096 = 0) (hs : Clean s)
    (hl : layout32 buf len config s.vaddrBreak = some l) :
    ∃ s', exec (effects32 buf len config tscFreq s.vaddrBreak l) s = some s' ∧
      (∀ x, 0x8048000 ≤ x → x < l.specialRegionBreak.toNat →
        s'.mem x = image32 buf len config tscFreq l x) ∧
      (∀ i, i < min len.toNat 4096 → s'.mem (l.elfImageLoadVaddr.toNat + i) = buf i) ∧
      ∀ i, len.toNat ≤ i → i < 4096 →
        s'.mem (l.elfImageLoadVaddr.toNat + i) = s.mem (l.elfImageLoadVaddr.toNat + i) := by
  obtain ⟨-, hend, -⟩ := layout32_spec hl
  have hacc := accepted32 tscFreq hl
  have hstart : l.loadVaddrStart.toNat = 0x8048000 := congrArg UInt64.toNat hacc.start
  rw [effects32_eq_loading]
  refine ⟨_, hacc.exec_eq ha s, fun x hlo hhi => ?_, fun i hi => ?_, fun i hlo hhi => ?_⟩
  · exact hacc.mem_fresh (placesRandom32 l) hs (by rw [hstart]; exact hlo) hhi
  · exact hacc.mem_image (placesRandom32 l) _ hi
  · exact hacc.mem_leftover (placesRandom32 l) (by rw [hend]) hlo hhi

/-- The continued file leaves its other byte behind the image. -/
theorem history_continued (tscFreq : UInt64) (ha : s.vaddrBreak.toNat % 4096 = 0) (hs : Clean s)
    (hl : layout32 buf len config s.vaddrBreak = some l) (hlen : len.toNat < 4096) (c : UInt8) :
    ∃ s', history tscFreq [.continued buf len config c] s = some s' ∧
      s'.vaddrBreak = s.vaddrBreak ∧ Clean s' ∧
      s'.mem (l.elfImageLoadVaddr.toNat + len.toNat) = c := by
  have hl' : layout32 (continued buf len c) 4096 config s.vaddrBreak = some l :=
    layout32_mono (Nat.le_of_lt hlen) (fun i hi => if_pos hi) hl
  have hident := (layout32_spec hl').1.ident
  have hclass : continued buf len c 4 = 1 := by
    rw [identOk, decide_eq_true_iff] at hident
    exact hident.2.2.2.2.1
  have hload : load (continued buf len c) 4096 config tscFreq s.vaddrBreak
      = loadElf32 (continued buf len c) 4096 config tscFreq s.vaddrBreak := by
    rw [load, if_neg (by decide), hclass, if_neg (by decide), if_pos rfl]
  have happ := hload.trans (loadElf32_of_layout tscFreq hl')
  obtain ⟨s', hexec, -, hready⟩ := load_ready ha happ hs
  obtain ⟨s'', hexec', -, himage, -⟩ := exec_effects32 tscFreq ha hs hl'
  obtain rfl := Option.some.inj (hexec.symm.trans hexec')
  have hstep := Job.step_loaded (j := .continued buf len config c) happ hexec hready
  obtain ⟨s₁, hrun, hvb, hclean⟩ := history_clean tscFreq [.continued buf len config c] ha hs
  have hlast : s₁.mem = s'.mem := by
    rw [history, hstep] at hrun
    rw [← Option.some.inj hrun]
    exact mem_sweep _ _
  have hbyte := himage len.toNat (by
    show len.toNat < min 4096 4096
    omega)
  refine ⟨s₁, hrun, hvb, hclean, ?_⟩
  rw [hlast, hbyte]
  exact if_neg (Nat.lt_irrefl _)

theorem not_forgets (tscFreq : UInt64) (h : Initial s)
    (hl : layout32 buf len config s.vaddrBreak = some l) (hlen : len.toNat < 4096) :
    ¬Forgets tscFreq s buf len config := by
  intro hforgets
  have ha := h.aligned
  have himage := (layout32_spec hl).1.image
  have haddr : l.elfImageLoadVaddr.toNat = l.obLoadBreak.toNat := rfl
  obtain ⟨s₀, hrun₀, hvb₀, hclean₀, hbyte₀⟩ := history_continued tscFreq ha h.clean hl hlen 0
  obtain ⟨s₁, hrun₁, hvb₁, hclean₁, hbyte₁⟩ := history_continued tscFreq ha h.clean hl hlen 1
  obtain ⟨t₀, hexec₀, -, -, hleft₀⟩ := exec_effects32 tscFreq (by rw [hvb₀, ha]) hclean₀
    (by rw [hvb₀]; exact hl)
  obtain ⟨t₁, hexec₁, -, -, hleft₁⟩ := exec_effects32 tscFreq (by rw [hvb₁, ha]) hclean₁
    (by rw [hvb₁]; exact hl)
  rw [hvb₀] at hexec₀
  rw [hvb₁] at hexec₁
  have hsame :=
    hforgets _ _ s₀ s₁ _ _ l t₀ t₁ hrun₀ hrun₁ (loadElf32_of_layout tscFreq hl) hl hexec₀
    hexec₁ (l.elfImageLoadVaddr.toNat + len.toNat) (.inr ⟨by omega, by omega⟩)
  rw [hleft₀ _ (Nat.le_refl _) hlen, hleft₁ _ (Nat.le_refl _) hlen, hbyte₀, hbyte₁] at hsame
  cases hsame

/-- A 32-bit program finds nothing of the programs before it if and only if its file fills the page
of the image. -/
theorem loadElf32_forgets_iff {tscFreq : UInt64} {a : App} {es : List Effect} (h : Initial s)
    (hload : loadElf32 buf len config tscFreq s.vaddrBreak = some (a, es)) :
    Forgets tscFreq s buf len config ↔ 4096 ≤ len.toNat := by
  obtain ⟨l, hl, -, -⟩ := loadElf32_eq_some hload
  refine ⟨fun hforgets => ?_, fun hlen => ?_⟩
  · by_contra hlt
    exact not_forgets tscFreq h hl (Nat.lt_of_not_le hlt) hforgets
  · intro jobs jobs' s₁ s₁' a' es' l' s₂ s₂' hrun hrun' hload' hl' hexec hexec' x hx
    obtain rfl := Option.some.inj (hl.symm.trans hl')
    rw [loadElf32_of_layout tscFreq hl] at hload'
    obtain ⟨-, rfl⟩ := Prod.mk.inj (Option.some.inj hload')
    have himage := (layout32_spec hl).1.image
    have haddr : l.elfImageLoadVaddr.toNat = l.obLoadBreak.toNat := rfl
    -- Both histories end in a clean machine, and the loader makes the same of them.
    have hafter : ∀ {jobs : List Job} {s₁ s₂ : Machine}, history tscFreq jobs s = some s₁ →
        exec (effects32 buf len config tscFreq s.vaddrBreak l) s₁ = some s₂ →
        (∀ x, 0x8048000 ≤ x → x < l.specialRegionBreak.toNat →
          s₂.mem x = image32 buf len config tscFreq l x) ∧
        ∀ i, i < min len.toNat 4096 → s₂.mem (l.elfImageLoadVaddr.toNat + i) = buf i := by
      intro jobs s₁ s₂ hrun hexec
      obtain ⟨s', hrun', hvb, hclean⟩ := history_clean tscFreq jobs h.aligned h.clean
      obtain rfl := Option.some.inj (hrun.symm.trans hrun')
      rw [← hvb] at hexec hl
      obtain ⟨t, hexec', hmem, hbuf, -⟩ := exec_effects32 tscFreq (by rw [hvb, h.aligned]) hclean hl
      obtain rfl := Option.some.inj (hexec.symm.trans hexec')
      exact ⟨hmem, hbuf⟩
    obtain ⟨hmem, hbuf⟩ := hafter hrun hexec
    obtain ⟨hmem', hbuf'⟩ := hafter hrun' hexec'
    rcases hx with ⟨hlo, hhi⟩ | ⟨hlo, hhi⟩
    · rw [hmem x hlo hhi, hmem' x hlo hhi]
    · obtain ⟨i, rfl⟩ := Nat.exists_eq_add_of_le hlo
      rw [hbuf i (by omega), hbuf' i (by omega)]

end

/-- A machine with 3 GiB for the user. -/
def wholeMachine : Machine := ⟨fun _ => 0, fun _ => PTE.duckWritten, 0xc0400000⟩

theorem wholeMachine_initial : Initial wholeMachine :=
  ⟨by decide, fun _ _ => by simp [wholeMachine, isDuckWritten_eq, PTE.duckWritten]⟩

theorem loadElf32_forgets_page :
    Forgets 1000000000 wholeMachine (continued tinyFile32 84 0) 4096 tinyConfig := by
  have hsome : (layout32 (continued tinyFile32 84 0) 4096 tinyConfig 0xc0400000).isSome = true := by
    decide +kernel
  obtain ⟨l, hl⟩ := Option.isSome_iff_exists.mp hsome
  exact (loadElf32_forgets_iff wholeMachine_initial (loadElf32_of_layout 1000000000 hl)).mpr
    (by decide)

/-- The file of 84 bytes finds the last bytes of the page. -/
theorem loadElf32_remembers : ¬∀ (tscFreq : UInt64) (s : Machine) (buf : Mem) (len : UInt32)
    (config : AppConfig), Initial s → Forgets tscFreq s buf len config := by
  intro hall
  have hsome : (layout32 tinyFile32 84 tinyConfig 0xc0400000).isSome = true := by decide +kernel
  obtain ⟨l, hl⟩ := Option.isSome_iff_exists.mp hsome
  exact not_forgets 1000000000 wholeMachine_initial hl (by decide)
    (hall 1000000000 wholeMachine tinyFile32 84 tinyConfig wholeMachine_initial)

end JudgeDuck.Elf
