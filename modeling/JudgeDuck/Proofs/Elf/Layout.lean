/-
What the checks of the loaders guarantee.

All arithmetic of the source is modulo 2^64, and the overflow checks are spread
over two passes.  An accepted layout is exact: every sum in it is the sum of the
integers (`RegionsOk`).  `p_offset + p_filesz` and `round_up` of the largest
address may wrap when they are computed, and are caught later, by the checks of the
address range.
-/
import JudgeDuck.Proofs.PageLoops

namespace JudgeDuck.Elf

open Utils Memory

/-! ### Checks -/

theorem reject_eq_some {c : Prop} [Decidable c] {u : Unit} : reject c = some u ↔ ¬c := by
  unfold reject
  split
  · rename_i h
    simp [h]
  · rename_i h
    simp [h]

/-! ### Regions -/

/-- A region that was allocated has the rounded size of the request, without overflow. -/
theorem allocateRegion_spec {start size stop : UInt64} (h : allocateRegion start size = some stop) :
    stop.toNat = start.toNat + pageUp size.toNat := by
  unfold allocateRegion at h
  simp only [Option.bind_eq_bind, Option.bind_eq_some_iff, reject_eq_some, exists_const,
    Option.pure_def, Option.some.injEq, UInt64.not_lt, UInt64.le_iff_toNat_le] at h
  obtain ⟨h1, h2, rfl⟩ := h
  have hs := size.toNat_lt
  have ha := start.toNat_lt
  rw [UInt64.toNat_add] at h2 ⊢
  rcases roundUp_page size with ⟨_, hr⟩ | ⟨_, hr⟩
  · rw [hr] at h2 ⊢
    have hle : pageUp size.toNat < 2 ^ 64 := by
      rw [← hr]
      exact (roundUp size pageSize).toNat_lt
    omega
  · omega

theorem allocatePage_spec {start stop : UInt64} (h : allocatePage start = some stop) :
    stop.toNat = start.toNat + 4096 := by
  unfold allocatePage at h
  simp only [Option.bind_eq_bind, Option.bind_eq_some_iff, reject_eq_some, exists_const,
    Option.pure_def, Option.some.injEq, UInt64.not_lt, UInt64.le_iff_toNat_le] at h
  obtain ⟨h1, rfl⟩ := h
  have ha := start.toNat_lt
  rw [UInt64.toNat_add, toNat_pageSize] at h1 ⊢
  omega

/-! ### The first loop over the program headers -/

/-- What the loop has checked of header `i`, and how it is bounded. -/
structure HeaderOk (F : Format) (buf : Mem) (len : UInt64) (h : Ehdr) (lo hi : UInt64) (i : Nat) :
    Prop where
  inFile : (phdrOffset h i + F.phdrSize).toNat ≤ len.toNat
  segment : (F.phdr buf (phdrOffset h i).toNat).type = 1 →
    phdrOk F len (F.phdr buf (phdrOffset h i).toNat) = true ∧
    lo.toNat ≤ (F.phdr buf (phdrOffset h i).toNat).vaddr.toNat ∧
    ((F.phdr buf (phdrOffset h i).toNat).vaddr
      + (F.phdr buf (phdrOffset h i).toNat).memsz).toNat ≤ hi.toNat

theorem HeaderOk.mono {F : Format} {buf : Mem} {len lo hi lo' hi' : UInt64} {h : Ehdr} {i : Nat}
    (hk : HeaderOk F buf len h lo hi i) (hlo : lo'.toNat ≤ lo.toNat) (hhi : hi.toNat ≤ hi'.toNat) :
    HeaderOk F buf len h lo' hi' i := by
  refine ⟨hk.inFile, fun ht => ?_⟩
  obtain ⟨h1, h2, h3⟩ := hk.segment ht
  exact ⟨h1, by omega, by omega⟩

private theorem toNat_min (a b : UInt64) : (min a b).toNat = min a.toNat b.toNat := by
  show (if a ≤ b then a else b).toNat = _
  simp only [UInt64.le_iff_toNat_le]
  split <;> omega

private theorem toNat_max (a b : UInt64) : (max a b).toNat = max a.toNat b.toNat := by
  show (if a ≤ b then b else a).toNat = _
  simp only [UInt64.le_iff_toNat_le]
  split <;> omega

/-- The loop checks the headers it visits and only widens the bounds. -/
theorem scanPhdrs_spec {F : Format} {buf : Mem} {len : UInt64} {h : Ehdr} :
    ∀ (k i : Nat) (acc r : UInt64 × UInt64), scanPhdrs F buf len h k i acc = some r →
      r.1.toNat ≤ acc.1.toNat ∧ acc.2.toNat ≤ r.2.toNat ∧
      ∀ j, i ≤ j → j < i + k → HeaderOk F buf len h r.1 r.2 j := by
  intro k
  induction k with
  | zero =>
      intro i acc r hr
      rw [scanPhdrs, Option.some.injEq] at hr
      subst hr
      exact ⟨Nat.le_refl _, Nat.le_refl _, fun j h1 h2 => by omega⟩
  | succ k ih =>
      intro i acc r hr
      rw [scanPhdrs] at hr
      dsimp only at hr
      by_cases hoff : phdrOffset h i + F.phdrSize > len
      · rw [if_pos hoff] at hr
        cases hr
      rw [if_neg hoff] at hr
      have hin : (phdrOffset h i + F.phdrSize).toNat ≤ len.toNat := by
        rw [gt_iff_lt, UInt64.not_lt, UInt64.le_iff_toNat_le] at hoff
        exact hoff
      by_cases ht : (F.phdr buf (phdrOffset h i).toNat).type ≠ 1
      · rw [if_pos ht] at hr
        obtain ⟨h1, h2, h3⟩ := ih _ _ _ hr
        refine ⟨h1, h2, fun j hj1 hj2 => ?_⟩
        rcases Nat.eq_or_lt_of_le hj1 with rfl | hj
        · exact ⟨hin, fun hc => absurd hc ht⟩
        · exact h3 j hj (by omega)
      rw [if_neg ht] at hr
      by_cases hok : phdrOk F len (F.phdr buf (phdrOffset h i).toNat) = true
      · rw [if_neg (not_not.mpr hok)] at hr
        obtain ⟨h1, h2, h3⟩ := ih _ _ _ hr
        rw [toNat_min] at h1
        rw [toNat_max] at h2
        refine ⟨by omega, by omega, fun j hj1 hj2 => ?_⟩
        rcases Nat.eq_or_lt_of_le hj1 with rfl | hj
        · exact ⟨hin, fun _ => ⟨hok, by omega, by omega⟩⟩
        · exact h3 j hj (by omega)
      · rw [if_pos hok] at hr
        cases hr

/-! ### The layout up to the output buffer -/

/-- A segment that the checks have accepted, as integers. -/
structure SegmentOk (F : Format) (len : UInt64) (lo hi : Nat) (ph : Phdr) : Prop where
  checks : phdrOk F len ph = true
  filesz_le : ph.filesz.toNat ≤ ph.memsz.toNat
  low : lo ≤ ph.vaddr.toNat
  high : pageUp (ph.vaddr.toNat + ph.memsz.toNat) ≤ hi

/-- An accepted layout: what was checked, with exact sums. -/
structure RegionsOk (F : Format) (buf : Mem) (len : UInt32) (config : AppConfig)
    (vaddrBreak : UInt64) (r : Regions) : Prop where
  ident : identOk F buf = true
  size : F.ehdrSize.toNat ≤ len.toNat
  ehdr : r.ehdr = F.ehdr buf
  phoff : r.ehdr.phoff.toNat < len.toNat
  phentsize : r.ehdr.phentsize.toNat < len.toNat
  phnum : r.ehdr.phnum.toNat < len.toNat
  inFile : ∀ i, i < r.ehdr.phnum.toNat →
    (phdrOffset r.ehdr i).toNat = r.ehdr.phoff.toNat + i * r.ehdr.phentsize.toNat ∧
    r.ehdr.phoff.toNat + i * r.ehdr.phentsize.toNat + F.phdrSize.toNat ≤ len.toNat
  start : r.loadVaddrStart = F.loadVaddrStart
  aligned : r.loadVaddrStart.toNat % 4096 = 0
  kernel : kernelBreak.toNat ≤ r.loadVaddrStart.toNat
  break_eq : r.loadVaddrBreak.toNat = r.loadVaddrStart.toNat + pageUp config.memoryHardLimit.toNat
  break_le : r.loadVaddrBreak.toNat ≤ vaddrBreak.toNat
  -- the last page before the break is the stack
  segments : ∀ ph ∈ phdrs F buf r.ehdr, ph.type = 1 →
    SegmentOk F len.toUInt64 r.loadVaddrStart.toNat (r.loadVaddrBreak.toNat - 4096) ph
  room : r.loadVaddrStart.toNat + 4096 < r.loadVaddrBreak.toNat
  stdin : r.stdinLoadBreak.toNat = r.loadVaddrBreak.toNat + pageUp config.stdinSize.toNat
  stdout : r.stdoutLoadBreak.toNat = r.stdinLoadBreak.toNat + pageUp config.stdoutMaxSize.toNat
  stderr : r.stderrLoadBreak.toNat = r.stdoutLoadBreak.toNat + pageUp config.stderrMaxSize.toNat
  ib : r.ibLoadBreak.toNat = r.stderrLoadBreak.toNat + pageUp config.ibSize.toNat
  ob : r.obLoadBreak.toNat = r.ibLoadBreak.toNat + pageUp config.obSize.toNat

theorem phdrOk_iff {F : Format} {len : UInt64} {ph : Phdr} : phdrOk F len ph = true ↔
    (ph.filesz ≠ 0 → ph.offset.toNat ≤ len.toNat ∧ (ph.offset + ph.filesz).toNat ≤ len.toNat) ∧
    F.alignOk ph.align = true ∧ ph.filesz.toNat ≤ ph.memsz.toNat ∧
    ph.vaddr.toNat ≤ (ph.vaddr + ph.memsz).toNat := by
  unfold phdrOk
  simp only [decide_eq_true_eq, not_and, not_or, gt_iff_lt, UInt64.not_lt,
    UInt64.le_iff_toNat_le]

/-- The bytes of header `i` lie in the file, as integers. -/
theorem phdrOffset_spec {F : Format} {h : Ehdr} {len : UInt32} (hF : F.phdrSize.toNat ≤ 64)
    (h1 : h.phoff.toNat < len.toNat) (h2 : h.phentsize.toNat < len.toNat)
    (h3 : h.phnum.toNat < len.toNat) {i : Nat} (hi : i < h.phnum.toNat)
    (hin : (phdrOffset h i + F.phdrSize).toNat ≤ len.toNat) :
    (phdrOffset h i).toNat = h.phoff.toNat + i * h.phentsize.toNat ∧
    h.phoff.toNat + i * h.phentsize.toNat + F.phdrSize.toNat ≤ len.toNat := by
  have hlen := len.toNat_lt
  have hmul : i * h.phentsize.toNat ≤ 4294967294 * 4294967295 :=
    Nat.mul_le_mul (by omega) (by omega)
  have hii : (UInt64.ofNat i).toNat = i :=
    UInt64.toNat_ofNat_of_lt' (Nat.lt_trans hi h.phnum.toNat_lt)
  have hprod : (UInt64.ofNat i * h.phentsize).toNat = i * h.phentsize.toNat := by
    rw [UInt64.toNat_mul, hii, Nat.mod_eq_of_lt (by omega)]
  have hoff : (phdrOffset h i).toNat = h.phoff.toNat + i * h.phentsize.toNat := by
    rw [phdrOffset, toNat_add_of_lt (by rw [hprod]; omega), hprod]
  refine ⟨hoff, ?_⟩
  rw [toNat_add_of_lt (by omega), hoff] at hin
  exact hin

/-- The pages between two bounds and one more. -/
theorem pages_needed {a b : UInt64}
    (h : (roundDown a pageSize).toNat < (roundUp b pageSize).toNat)
    (ha : 4096 ≤ (roundDown a pageSize).toNat) :
    (roundUp b pageSize - roundDown a pageSize + pageSize).toNat
      = (roundUp b pageSize).toNat - (roundDown a pageSize).toNat + 4096 := by
  have hneeded : (roundUp b pageSize - roundDown a pageSize).toNat
      = (roundUp b pageSize).toNat - (roundDown a pageSize).toNat :=
    UInt64.toNat_sub_of_le _ _ (UInt64.le_iff_toNat_le.mpr (Nat.le_of_lt h))
  have htop := (roundUp b pageSize).toNat_lt
  rw [toNat_add_of_lt (by rw [hneeded, toNat_pageSize]; omega), hneeded, toNat_pageSize]

theorem regions_spec {F : Format} (hF : F.phdrSize.toNat ≤ 64) {buf : Mem} {len : UInt32}
    {config : AppConfig} {vaddrBreak : UInt64} {r : Regions}
    (h : regions F buf len config vaddrBreak = some r) :
    RegionsOk F buf len config vaddrBreak r := by
  unfold regions at h
  simp only [Option.bind_eq_bind, Option.bind_eq_some_iff, reject_eq_some, exists_const,
    Option.pure_def, Option.some.injEq, ge_iff_le, gt_iff_lt, not_or, not_not,
    UInt64.le_iff_toNat_le, UInt64.lt_iff_toNat_lt, ne_eq] at h
  obtain ⟨hsize, hident, hphoff, hphent, hphnum, bounds, hscan, hkernel, hrange, hlim1, hlim2,
    hstart,
    hb1, hb2, stdinB, hstdin, stdoutB, hstdout, stderrB, hstderr, ibB, hib, obB, hob, rfl⟩ := h
  obtain ⟨hmm, hmv⟩ := hrange
  have hl : len.toUInt64.toNat = len.toNat := UInt32.toNat_toUInt64 len
  rw [hl] at hsize hphoff hphent hphnum
  obtain ⟨hlo, hhi, hheaders⟩ := scanPhdrs_spec _ _ _ _ hscan
  have hmin : (roundDown bounds.1 pageSize).toNat = bounds.1.toNat / 4096 * 4096 :=
    roundDown_toNat _ _
  rw [toNat_kernelBreak] at hkernel
  -- a `max_vaddr` that wrapped is 0 and was rejected
  have hmax := roundUp_of_pos (x := bounds.2) (by omega)
  have hmaxmod : (roundUp bounds.2 pageSize).toNat % 4096 = 0 := by
    rw [hmax]
    exact pageUp_mod _
  have hneeded := pages_needed (a := bounds.1) (b := bounds.2) (by omega) (by omega)
  rw [hneeded] at hlim2
  have hlimit := roundUp_of_pos (x := config.memoryHardLimit) (by omega)
  have hbreak : (F.loadVaddrStart + roundUp config.memoryHardLimit pageSize).toNat
      = F.loadVaddrStart.toNat + pageUp config.memoryHardLimit.toNat := by
    rw [← hlimit]
    rw [UInt64.toNat_add] at hb1 ⊢
    have h1 := F.loadVaddrStart.toNat_lt
    have h2 := (roundUp config.memoryHardLimit pageSize).toNat_lt
    omega
  have hstart' : F.loadVaddrStart.toNat = bounds.1.toNat / 4096 * 4096 := by rw [← hstart, hmin]
  have hmaxb : (roundUp bounds.2 pageSize).toNat + 4096
      ≤ (F.loadVaddrStart + roundUp config.memoryHardLimit pageSize).toNat := by omega
  have hheader : ∀ i, i < (F.ehdr buf).phnum.toNat → HeaderOk F buf len.toUInt64 (F.ehdr buf)
      bounds.1 bounds.2 i := fun i hi => hheaders i (Nat.zero_le i) (by omega)
  refine
    { ident := by simpa using hident
      size := by omega
      ehdr := rfl
      phoff := by dsimp only; omega
      phentsize := by dsimp only; omega
      phnum := by dsimp only; omega
      inFile := fun i hi => phdrOffset_spec hF (by dsimp only; omega) (by dsimp only; omega)
        (by dsimp only; omega) hi (by rw [← hl]; exact (hheader i hi).inFile)
      start := rfl
      aligned := by rw [hstart']; exact Nat.mul_mod_left _ _
      kernel := by rw [toNat_kernelBreak, hstart', ← hmin]; omega
      break_eq := hbreak
      break_le := by dsimp only; omega
      segments := ?_
      room := by dsimp only; omega
      stdin := allocateRegion_spec hstdin
      stdout := allocateRegion_spec hstdout
      stderr := allocateRegion_spec hstderr
      ib := allocateRegion_spec hib
      ob := allocateRegion_spec hob }
  intro ph hph ht
  obtain ⟨i, hi, rfl⟩ := List.mem_map.mp hph
  obtain ⟨hok, h1, h2⟩ := (hheader i (List.mem_range.mp hi)).segment ht
  obtain ⟨-, -, hfm, hsum⟩ := phdrOk_iff.mp hok
  have hlimmod := pageUp_mod config.memoryHardLimit.toNat
  refine ⟨hok, hfm, by dsimp only; omega, pageUp_le ?_ (by dsimp only; rw [hbreak]; omega)⟩
  rw [UInt64.toNat_add] at h2 hsum
  have := le_pageUp bounds.2.toNat
  have hv := (F.phdr buf (phdrOffset (F.ehdr buf) i).toNat).vaddr.toNat_lt
  have hm := (F.phdr buf (phdrOffset (F.ehdr buf) i).toNat).memsz.toNat_lt
  dsimp only
  omega

/-! ### The whole layout -/

/-- What both loaders guarantee about the rest of the layout. -/
structure LayoutOk (F : Format) (buf : Mem) (len : UInt32) (config : AppConfig)
    (vaddrBreak : UInt64) (l : Layout) : Prop extends
    RegionsOk F buf len config vaddrBreak l.toRegions where
  image : l.elfImageLoadBreak.toNat = l.obLoadBreak.toNat + 4096
  special : l.obLoadBreak.toNat ≤ l.specialRegionBreak.toNat
  special_aligned : l.specialRegionBreak.toNat % 4096 = 0
  special_le : l.specialRegionBreak.toNat ≤ vaddrBreak.toNat

namespace RegionsOk

variable {F : Format} {buf : Mem} {len : UInt32} {config : AppConfig} {vaddrBreak : UInt64}
  {r : Regions}

/-- Every region starts and ends at a page. -/
theorem breaks_aligned (h : RegionsOk F buf len config vaddrBreak r) :
    r.loadVaddrBreak.toNat % 4096 = 0 ∧ r.stdinLoadBreak.toNat % 4096 = 0 ∧
    r.stdoutLoadBreak.toNat % 4096 = 0 ∧ r.stderrLoadBreak.toNat % 4096 = 0 ∧
    r.ibLoadBreak.toNat % 4096 = 0 ∧ r.obLoadBreak.toNat % 4096 = 0 := by
  have h0 := h.aligned
  have h1 := h.break_eq
  have h2 := h.stdin
  have h3 := h.stdout
  have h4 := h.stderr
  have h5 := h.ib
  have h6 := h.ob
  have e1 := pageUp_mod config.memoryHardLimit.toNat
  have e2 := pageUp_mod config.stdinSize.toNat
  have e3 := pageUp_mod config.stdoutMaxSize.toNat
  have e4 := pageUp_mod config.stderrMaxSize.toNat
  have e5 := pageUp_mod config.ibSize.toNat
  have e6 := pageUp_mod config.obSize.toNat
  have a1 : r.loadVaddrBreak.toNat % 4096 = 0 := by omega
  have a2 : r.stdinLoadBreak.toNat % 4096 = 0 := by omega
  have a3 : r.stdoutLoadBreak.toNat % 4096 = 0 := by omega
  have a4 : r.stderrLoadBreak.toNat % 4096 = 0 := by omega
  have a5 : r.ibLoadBreak.toNat % 4096 = 0 := by omega
  exact ⟨a1, a2, a3, a4, a5, by omega⟩

/-- The regions follow one another. -/
theorem breaks_le (h : RegionsOk F buf len config vaddrBreak r) :
    r.loadVaddrStart.toNat ≤ r.loadVaddrBreak.toNat - 4096 ∧
    r.loadVaddrBreak.toNat ≤ r.stdinLoadBreak.toNat ∧
    r.stdinLoadBreak.toNat ≤ r.stdoutLoadBreak.toNat ∧
    r.stdoutLoadBreak.toNat ≤ r.stderrLoadBreak.toNat ∧
    r.stderrLoadBreak.toNat ≤ r.ibLoadBreak.toNat ∧
    r.ibLoadBreak.toNat ≤ r.obLoadBreak.toNat := by
  have h1 := h.room
  have h2 := h.stdin
  have h3 := h.stdout
  have h4 := h.stderr
  have h5 := h.ib
  have h6 := h.ob
  exact ⟨by omega, by omega, by omega, by omega, by omega, by omega⟩

end RegionsOk

/-- The bytes of a segment lie in the file: the sum of the source can wrap, but the size of the
segment in memory excludes it. -/
theorem LayoutOk.segment_inFile {F : Format} {buf : Mem} {len : UInt32} {config : AppConfig}
    {vaddrBreak : UInt64} {l : Layout} (h : LayoutOk F buf len config vaddrBreak l)
    (htop : vaddrBreak.toNat ≤ 2 ^ 39) {ph : Phdr} (hph : ph ∈ phdrs F buf l.ehdr)
    (ht : ph.type = 1) (hne : ph.filesz ≠ 0) : ph.offset.toNat + ph.filesz.toNat ≤ len.toNat := by
  have hs := h.segments ph hph ht
  obtain ⟨hfile, -⟩ := phdrOk_iff.mp hs.checks
  obtain ⟨hoff, hsum⟩ := hfile hne
  have hlen := len.toNat_lt
  have hl : len.toUInt64.toNat = len.toNat := UInt32.toNat_toUInt64 len
  have hfm := hs.filesz_le
  have hhigh := hs.high
  have hmem := le_pageUp (ph.vaddr.toNat + ph.memsz.toNat)
  have hbreak := h.break_le
  rw [toNat_add_of_lt (by omega)] at hsum
  omega


/-- The 64-bit loader adds the page of random bytes, and checks the end after it. -/
theorem layout64_spec {buf : Mem} {len : UInt32} {config : AppConfig} {vaddrBreak : UInt64}
    {l : Layout} (h : layout64 buf len config vaddrBreak = some l) :
    LayoutOk elf64 buf len config vaddrBreak l ∧
    l.specialRegionBreak.toNat = l.elfImageLoadBreak.toNat + 4096 := by
  unfold layout64 at h
  simp only [Option.bind_eq_bind, Option.bind_eq_some_iff, reject_eq_some, exists_const,
    Option.pure_def, Option.some.injEq, gt_iff_lt, UInt64.not_lt, UInt64.le_iff_toNat_le] at h
  obtain ⟨r, hr, imageB, himage, randomB, hrandom, -, hle, rfl⟩ := h
  have hok := regions_spec (by decide) hr
  have h1 : imageB.toNat = r.obLoadBreak.toNat + 4096 := allocatePage_spec himage
  have h2 := allocatePage_spec hrandom
  obtain ⟨-, -, -, -, -, hob⟩ := hok.breaks_aligned
  exact ⟨{ hok with
    image := h1
    special := by dsimp only; omega
    special_aligned := by dsimp only; omega
    special_le := hle }, h2⟩

/-- The 32-bit loader checks the end before it places the image, so the page of the image is
the page after the end. -/
theorem layout32_spec {buf : Mem} {len : UInt32} {config : AppConfig} {vaddrBreak : UInt64}
    {l : Layout} (h : layout32 buf len config vaddrBreak = some l) :
    LayoutOk elf32 buf len config vaddrBreak l ∧ l.specialRegionBreak = l.obLoadBreak ∧
    l.specialRegionBreak.toNat ≤ 2 ^ 32 := by
  unfold layout32 at h
  simp only [Option.bind_eq_bind, Option.bind_eq_some_iff, reject_eq_some, exists_const,
    Option.pure_def, Option.some.injEq, gt_iff_lt, UInt64.not_lt, UInt64.le_iff_toNat_le] at h
  obtain ⟨r, hr, -, hle, imageB, himage, -, hmax, rfl⟩ := h
  have hok := regions_spec (by decide) hr
  have h1 : imageB.toNat = r.obLoadBreak.toNat + 4096 := allocatePage_spec himage
  obtain ⟨-, -, -, -, -, hob⟩ := hok.breaks_aligned
  exact ⟨{ hok with
    image := h1
    special := Nat.le_refl _
    special_aligned := hob
    special_le := hle }, rfl, hmax⟩

end JudgeDuck.Elf
