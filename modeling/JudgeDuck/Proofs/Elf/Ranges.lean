/-
Where the loaders work.

Each group of effects lies inside the region it is about: the segments below the
page of the stack, the stack in the last page before `load_vaddr_break`, the
special regions after it.  So every page loop is entered with aligned addresses in
order, its asserts hold, and `exec` performs all effects.
-/
import JudgeDuck.Proofs.Elf.Layout

namespace JudgeDuck.Elf

open Utils Memory

/-! ### The stack -/

theorem length_le (n v : Nat) : (le n v).length = n := by simp [le]

theorem length_foldl_pushq (xs : List UInt64) (stack : List UInt8) :
    (xs.foldl pushq stack).length = 8 * xs.length + stack.length := by
  induction xs generalizing stack with
  | nil => simp
  | cons x xs ih =>
      rw [List.foldl_cons, ih, pushq, List.length_append, length_le, List.length_cons]
      omega

theorem length_foldl_pushl (xs : List UInt64) (stack : List UInt8) :
    (xs.foldl pushl stack).length = 4 * xs.length + stack.length := by
  induction xs generalizing stack with
  | nil => simp
  | cons x xs ih =>
      rw [List.foldl_cons, ih, pushl, List.length_append, length_le, List.length_cons]
      omega

theorem DuckInfo.length_bytes64 (d : DuckInfo) : d.bytes64.length = 112 := by
  simp [bytes64, words, length_le]

theorem DuckInfo.length_bytes32 (d : DuckInfo) : d.bytes32.length = 60 := by
  simp [bytes32, words, length_le]

theorem length_stack64 (l : Layout) (config : AppConfig) (tscFreq : UInt64) :
    (stack64 l config tscFreq).length = 384 := by
  rw [stack64, length_foldl_pushq, DuckInfo.length_bytes64]
  rfl

theorem length_stack32 (l : Layout) (config : AppConfig) (tscFreq : UInt64) :
    (stack32 l config tscFreq).length = 172 := by
  rw [stack32, length_foldl_pushl, length_foldl_pushq, length_foldl_pushl, DuckInfo.length_bytes32]
  rfl

theorem length_randomBytes : randomBytes.length = 16 := by
  simp [randomBytes, length_le]

/-- The stack pointer after the pushes. -/
theorem stackPointer_toNat (r : Regions) (stack : List UInt8)
    (h : stack.length ≤ r.loadVaddrBreak.toNat) :
    (stackPointer r stack).toNat = r.loadVaddrBreak.toNat - stack.length := by
  have hb := r.loadVaddrBreak.toNat_lt
  have hlen : (UInt64.ofNat stack.length).toNat = stack.length :=
    UInt64.toNat_ofNat_of_lt' (Nat.lt_of_le_of_lt h hb)
  rw [stackPointer, UInt64.toNat_sub_of_le _ _ (UInt64.le_iff_toNat_le.mpr (by omega)), hlen]

theorem alignedStackPointer_toNat (r : Regions) (stack : List UInt8)
    (h : stack.length ≤ r.loadVaddrBreak.toNat) :
    (alignedStackPointer r stack).toNat = (r.loadVaddrBreak.toNat - stack.length) / 16 * 16 := by
  rw [alignedStackPointer, roundDown_toNat, stackPointer_toNat _ _ h]
  rfl

/-! ### The segments -/

namespace SegmentOk

variable {F : Format} {len : UInt64} {lo hi : Nat} {ph : Phdr}

/-- Both loops over the pages of a segment: from the page of its first byte to the end of the
page of its last one. -/
theorem pages (h : SegmentOk F len lo hi ph) (hlo : lo % 4096 = 0) (hhi : hi + 4096 ≤ 2 ^ 64)
    {n : UInt64} (hn : n.toNat ≤ ph.memsz.toNat) :
    (roundDown ph.vaddr pageSize).toNat = ph.vaddr.toNat / 4096 * 4096 ∧
    (roundUp (ph.vaddr + n) pageSize).toNat = pageUp (ph.vaddr.toNat + n.toNat) ∧
    lo ≤ ph.vaddr.toNat / 4096 * 4096 ∧ pageUp (ph.vaddr.toNat + n.toNat) ≤ hi := by
  have hlow := h.low
  have hhigh := h.high
  have hmem := le_pageUp (ph.vaddr.toNat + ph.memsz.toNat)
  have hadd : (ph.vaddr + n).toNat = ph.vaddr.toNat + n.toNat := toNat_add_of_lt (by omega)
  have hle : pageUp (ph.vaddr.toNat + n.toNat) ≤ hi :=
    Nat.le_trans (pageUp_le (by omega) (pageUp_mod _)) hhigh
  refine ⟨roundDown_toNat _ _, ?_, by omega, hle⟩
  rcases roundUp_page (ph.vaddr + n) with ⟨_, hr⟩ | ⟨hr, _⟩
  · rw [hr, hadd]
  · omega

end SegmentOk

/-! ### The groups of effects -/

section Groups

variable {F : Format} {buf : Mem} {len : UInt32} {config : AppConfig} {vaddrBreak : UInt64}
  {l : Layout}

private theorem within_segment (h : LayoutOk F buf len config vaddrBreak l) {ph : Phdr}
    (hph : ph ∈ phdrs F buf l.ehdr) (ht : ph.type = 1) {n : UInt64}
    (hn : n.toNat ≤ ph.memsz.toNat) (op : PageOp) :
    (Effect.pages op (roundDown ph.vaddr pageSize) (roundUp (ph.vaddr + n) pageSize)).Within
      l.loadVaddrStart.toNat (l.loadVaddrBreak.toNat - 4096) := by
  have hb := l.loadVaddrBreak.toNat_lt
  have hroom := h.room
  obtain ⟨h1, h2, h3, h4⟩ := (h.segments ph hph ht).pages h.aligned (by omega) hn
  have h5 := le_pageUp (ph.vaddr.toNat + n.toNat)
  have h6 := pageUp_mod (ph.vaddr.toNat + n.toNat)
  refine ⟨?_, ?_, ?_, ?_, ?_⟩
  · rw [h1]
    exact Nat.mul_mod_left _ _
  · rw [h2, h6]
  · rw [h1, h2]
    omega
  · rw [h1]
    exact h3
  · rw [h2]
    exact h4

theorem within_segments (h : LayoutOk F buf len config vaddrBreak l) :
    Within l.loadVaddrStart.toNat (l.loadVaddrBreak.toNat - 4096)
      ((phdrs F buf l.ehdr).flatMap (segmentEffects buf)) := by
  intro e he
  obtain ⟨ph, hph, he⟩ := List.mem_flatMap.mp he
  unfold segmentEffects at he
  split at he
  · rename_i ht
    have hs := h.segments ph hph ht.1
    rcases List.mem_pair.mp he with rfl | rfl
    · have h1 := hs.filesz_le
      have h2 := hs.high
      have h3 := le_pageUp (ph.vaddr.toNat + ph.memsz.toNat)
      exact ⟨hs.low, by omega⟩
    · exact within_segment h hph ht.1 hs.filesz_le _
  · cases he

theorem within_segmentFlags (h : LayoutOk F buf len config vaddrBreak l) :
    Within l.loadVaddrStart.toNat (l.loadVaddrBreak.toNat - 4096)
      ((phdrs F buf l.ehdr).flatMap segmentFlagEffects) := by
  intro e he
  obtain ⟨ph, hph, he⟩ := List.mem_flatMap.mp he
  unfold segmentFlagEffects at he
  split at he
  · rename_i ht
    dsimp only at he
    have hop := within_segment h hph ht (Nat.le_refl _)
    rcases List.mem_append.mp he with he | he
    · rcases List.mem_append.mp he with he | he
      · obtain rfl := List.mem_singleton.mp he
        exact hop _
      · split at he
        · obtain rfl := List.mem_singleton.mp he
          exact hop _
        · cases he
    · split at he
      · obtain rfl := List.mem_singleton.mp he
        exact hop _
      · cases he
  · cases he

/-- A region that the program may only read. -/
theorem within_readonly (start stop : UInt64) {size : Nat} {src : Nat → UInt8}
    (h1 : start.toNat % 4096 = 0) (h2 : stop.toNat % 4096 = 0)
    (h : start.toNat + size ≤ stop.toNat) :
    Within start.toNat stop.toNat (readonlyEffects start stop size src) := by
  have hle : start.toNat ≤ stop.toNat := by omega
  intro e he
  simp only [readonlyEffects, List.mem_cons, List.not_mem_nil, or_false] at he
  rcases he with rfl | rfl | rfl
  · exact ⟨Nat.le_refl _, h⟩
  · exact ⟨h1, h2, hle, Nat.le_refl _, Nat.le_refl _⟩
  · exact ⟨h1, h2, hle, Nat.le_refl _, Nat.le_refl _⟩

theorem within_stdin (h : LayoutOk F buf len config vaddrBreak l) :
    Within l.loadVaddrBreak.toNat l.stdinLoadBreak.toNat
      (stdinEffects l.toRegions config) := by
  obtain ⟨h1, h2, -⟩ := h.breaks_aligned
  refine within_readonly _ _ h1 h2 ?_
  rw [h.stdin]
  exact Nat.add_le_add_left (le_pageUp _) _

theorem within_ib (h : LayoutOk F buf len config vaddrBreak l) :
    Within l.stderrLoadBreak.toNat l.ibLoadBreak.toNat (ibEffects l.toRegions config) := by
  obtain ⟨-, -, -, h1, h2, -⟩ := h.breaks_aligned
  refine within_readonly _ _ h1 h2 ?_
  rw [h.ib]
  exact Nat.add_le_add_left (le_pageUp _) _

/-- The loop over the output buffer ends where the region does. -/
theorem obStop_toNat (h : LayoutOk F buf len config vaddrBreak l) :
    (l.obLoadVaddr + roundUp config.obSize pageSize).toNat = l.obLoadBreak.toNat := by
  obtain ⟨-, -, -, -, -, ha⟩ := h.breaks_aligned
  have hob := h.ob
  have hle := le_pageUp config.obSize.toNat
  have hlt := l.obLoadBreak.toNat_lt
  have hround : (roundUp config.obSize pageSize).toNat = pageUp config.obSize.toNat := by
    rcases roundUp_page config.obSize with ⟨_, hr⟩ | ⟨hr, _⟩
    · exact hr
    · omega
  rw [Regions.obLoadVaddr, toNat_add_of_lt (by omega), hround, hob]

theorem within_ob (h : LayoutOk F buf len config vaddrBreak l) :
    Within l.ibLoadBreak.toNat l.obLoadBreak.toNat (obEffects l.toRegions config) := by
  obtain ⟨-, -, -, -, h1, h2⟩ := h.breaks_aligned
  have hob := h.ob
  have hle := le_pageUp config.obSize.toNat
  have hend := obStop_toNat h
  intro e he
  unfold obEffects at he
  split at he
  · cases he
  · rcases List.mem_pair.mp he with rfl | rfl
    · refine ⟨h1, ?_, ?_, Nat.le_refl _, ?_⟩
      · rw [hend, h2]
      · rw [hend]
        show l.ibLoadBreak.toNat ≤ _
        omega
      · rw [hend]
    · exact ⟨Nat.le_refl _, by show l.ibLoadBreak.toNat + _ ≤ _; omega⟩

theorem within_elfImage (h : LayoutOk F buf len config vaddrBreak l) :
    Within l.obLoadBreak.toNat l.elfImageLoadBreak.toNat (elfImageEffects l buf len) := by
  obtain ⟨-, -, -, -, -, h1⟩ := h.breaks_aligned
  have h2 := h.image
  exact within_readonly _ _ h1 (by omega) (by
    show l.obLoadBreak.toNat + _ ≤ _
    omega)

theorem within_stack (h : LayoutOk F buf len config vaddrBreak l) {stack : List UInt8}
    {infoSize : Nat} (hlen : stack.length + 16 ≤ 4096) (hinfo : infoSize + 16 ≤ stack.length) :
    Within (l.loadVaddrBreak.toNat - 4096) l.loadVaddrBreak.toNat
      (stackEffects l.toRegions stack infoSize) := by
  have hroom := h.room
  obtain ⟨h1, -⟩ := h.breaks_aligned
  have hsp := stackPointer_toNat l.toRegions stack (by omega)
  have hasp := alignedStackPointer_toNat l.toRegions stack (by omega)
  have hpage : (l.loadVaddrBreak - pageSize).toNat = l.loadVaddrBreak.toNat - 4096 :=
    UInt64.toNat_sub_of_le _ _ (UInt64.le_iff_toNat_le.mpr (by rw [toNat_pageSize]; omega))
  intro e he
  unfold stackEffects at he
  dsimp only at he
  rcases List.mem_append.mp he with he | he
  · rcases List.mem_append.mp he with he | he
    · obtain rfl := List.mem_singleton.mp he
      exact ⟨by omega, by omega⟩
    · split at he
      · obtain rfl := List.mem_singleton.mp he
        refine ⟨by omega, ?_⟩
        rw [List.length_take]
        omega
      · cases he
  · obtain rfl := List.mem_singleton.mp he
    exact ⟨by omega, h1, by omega, by omega, Nat.le_refl _⟩

theorem within_random (h : LayoutOk F buf len config vaddrBreak l)
    (hr : l.specialRegionBreak.toNat = l.elfImageLoadBreak.toNat + 4096) :
    Within l.elfImageLoadBreak.toNat l.specialRegionBreak.toNat (randomBytesEffects l) := by
  obtain ⟨-, -, -, -, -, h1⟩ := h.breaks_aligned
  have h2 := h.image
  refine within_readonly l.elfImageLoadBreak l.specialRegionBreak (by omega) (by omega) ?_
  rw [length_randomBytes]
  omega

/-- The pages of the user: the program's, and the kernel's before and after them. -/
theorem within_flags (h : LayoutOk F buf len config vaddrBreak l)
    (hvb : vaddrBreak.toNat % 4096 = 0) :
    Within kernelBreak.toNat vaddrBreak.toNat (flagEffects l vaddrBreak) := by
  have h1 := h.aligned
  have h2 := h.special_aligned
  have h3 := h.kernel
  have h4 := h.special_le
  have h5 := h.special
  have h6 := h.room
  obtain ⟨h7, h8, h9, h10, h11, h12⟩ := h.breaks_le
  rw [toNat_kernelBreak] at h3 ⊢
  intro e he
  simp only [flagEffects, List.mem_cons, List.not_mem_nil, or_false] at he
  rcases he with rfl | rfl | rfl | rfl
  · exact ⟨rfl, h1, h3, Nat.le_refl _, by omega⟩
  · exact ⟨h1, h2, by omega, h3, h4⟩
  · exact ⟨h2, hvb, h4, by omega, Nat.le_refl _⟩
  · exact ⟨h1, h2, by omega, h3, h4⟩

/-- The last loop. -/
theorem within_clearAccess (h : LayoutOk F buf len config vaddrBreak l) :
    Within l.loadVaddrStart.toNat l.specialRegionBreak.toNat
      [.pages clearAccessAndDirtyFlags l.loadVaddrStart l.specialRegionBreak] := by
  have h5 := h.special
  have h6 := h.room
  obtain ⟨h7, h8, h9, h10, h11, h12⟩ := h.breaks_le
  intro e he
  obtain rfl := List.mem_singleton.mp he
  exact ⟨h.aligned, h.special_aligned, by omega, Nat.le_refl _, Nat.le_refl _⟩

end Groups

/-! ### Everything after the first page flags

The 64-bit loader adds a page of random bytes and has another stack; everything else is the
same list of effects.
-/

/-- Everything after the first page flags. -/
def loading (headers : List Phdr) (buf : Mem) (len : UInt32) (config : AppConfig) (l : Layout)
    (random : List Effect) (stack : List UInt8) (infoSize : Nat) : List Effect :=
  headers.flatMap (segmentEffects buf) ++ (stdinEffects l.toRegions config
    ++ (ibEffects l.toRegions config ++ (obEffects l.toRegions config
    ++ (elfImageEffects l buf len ++ (random ++ (stackEffects l.toRegions stack infoSize
    ++ (headers.flatMap segmentFlagEffects
    ++ [.pages clearAccessAndDirtyFlags l.loadVaddrStart l.specialRegionBreak])))))))

/-- An accepted request: what the two loaders have in common. -/
structure Accepted (F : Format) (buf : Mem) (len : UInt32) (config : AppConfig)
    (vaddrBreak : UInt64) (l : Layout) (random : List Effect) (stack : List UInt8)
    (infoSize : Nat) : Prop extends LayoutOk F buf len config vaddrBreak l where
  random : random = [] ∨ random = randomBytesEffects l ∧
    l.specialRegionBreak.toNat = l.elfImageLoadBreak.toNat + 4096
  stack_le : stack.length + 16 ≤ 4096
  info_le : infoSize + 16 ≤ stack.length

section

variable {F : Format} {buf : Mem} {len : UInt32} {config : AppConfig} {vaddrBreak : UInt64}
  {l : Layout} {random : List Effect} {stack : List UInt8} {infoSize : Nat}

/-! ### The two loaders -/

theorem effects64_eq (tscFreq : UInt64) : effects64 buf len config tscFreq vaddrBreak l
    = flagEffects l vaddrBreak ++ loading (phdrs elf64 buf l.ehdr) buf len config l
        (randomBytesEffects l) (stack64 l config tscFreq) 112 := by
  simp only [effects64, loading, List.append_assoc]

theorem effects32_eq_loading (tscFreq : UInt64) : effects32 buf len config tscFreq vaddrBreak l
    = flagEffects l vaddrBreak ++ loading (phdrs elf32 buf l.ehdr) buf len config l
        [] (stack32 l config tscFreq) 60 := by
  simp only [effects32, loading, List.append_assoc, List.nil_append]

theorem LayoutOk.accepted64 (tscFreq : UInt64) (h : LayoutOk elf64 buf len config vaddrBreak l)
    (hr : l.specialRegionBreak.toNat = l.elfImageLoadBreak.toNat + 4096) :
    Accepted elf64 buf len config vaddrBreak l (randomBytesEffects l) (stack64 l config tscFreq)
      112 := by
  refine { h with random := .inr ⟨rfl, hr⟩, stack_le := ?_, info_le := ?_ }
  · rw [length_stack64]
    decide
  · rw [length_stack64]
    decide

theorem accepted64 (tscFreq : UInt64) (h : layout64 buf len config vaddrBreak = some l) :
    Accepted elf64 buf len config vaddrBreak l (randomBytesEffects l) (stack64 l config tscFreq)
      112 :=
  (layout64_spec h).1.accepted64 tscFreq (layout64_spec h).2

theorem LayoutOk.accepted32 (tscFreq : UInt64) (h : LayoutOk elf32 buf len config vaddrBreak l) :
    Accepted elf32 buf len config vaddrBreak l [] (stack32 l config tscFreq) 60 := by
  refine { h with random := .inl rfl, stack_le := ?_, info_le := ?_ }
  · rw [length_stack32]
    decide
  · rw [length_stack32]
    decide

theorem accepted32 (tscFreq : UInt64) (h : layout32 buf len config vaddrBreak = some l) :
    Accepted elf32 buf len config vaddrBreak l [] (stack32 l config tscFreq) 60 :=
  (layout32_spec h).1.accepted32 tscFreq

/-! ### Where the effects are -/

namespace Accepted

variable (h : Accepted F buf len config vaddrBreak l random stack infoSize)
include h

theorem within_random : Within l.elfImageLoadBreak.toNat l.specialRegionBreak.toNat random := by
  rcases h.random with rfl | ⟨rfl, hr⟩
  · intro e he
    cases he
  · exact Elf.within_random h.toLayoutOk hr

/-- The segments, the special regions, the stack, and the page of the image, which may come
after all of them. -/
theorem within_loading : Within l.loadVaddrStart.toNat
    (max l.specialRegionBreak.toNat l.elfImageLoadBreak.toNat)
    (loading (phdrs F buf l.ehdr) buf len config l random stack infoSize) := by
  have hl := h.toLayoutOk
  have h1 := h.special
  have h2 := h.image
  have h3 := h.room
  obtain ⟨h5, h6, h7, h8, h9, h10⟩ := h.breaks_le
  unfold loading
  refine Within.append ?segments (Within.append ?stdin (Within.append ?ib (Within.append ?ob
    (Within.append ?image (Within.append ?random (Within.append ?stack (Within.append ?segmentFlags
      ?access)))))))
  case segments => exact (within_segments hl).mono (Nat.le_refl _) (by omega)
  case stdin => exact (within_stdin hl).mono (by omega) (by omega)
  case ib => exact (within_ib hl).mono (by omega) (by omega)
  case ob => exact (within_ob hl).mono (by omega) (by omega)
  case image => exact (within_elfImage hl).mono (by omega) (by omega)
  case random => exact h.within_random.mono (by omega) (by omega)
  case stack => exact (within_stack hl h.stack_le h.info_le).mono (by omega) (by omega)
  case segmentFlags => exact (within_segmentFlags hl).mono (Nat.le_refl _) (by omega)
  case access => exact (within_clearAccess hl).mono (Nat.le_refl _) (by omega)

/-- The loaders perform all their effects. -/
theorem exec_eq (hvb : vaddrBreak.toNat % 4096 = 0) (s : Machine) :
    exec (flagEffects l vaddrBreak
        ++ loading (phdrs F buf l.ehdr) buf len config l random stack infoSize) s
      = some (applyAll (loading (phdrs F buf l.ehdr) buf len config l random stack infoSize)
          (applyAll (flagEffects l vaddrBreak) s)) := by
  have hall := (((within_flags h.toLayoutOk hvb).mono (Nat.le_refl _)
    (Nat.le_max_left _ (max l.specialRegionBreak.toNat l.elfImageLoadBreak.toNat))).append
    (h.within_loading.mono h.kernel (Nat.le_max_right vaddrBreak.toNat _)))
  rw [hall.exec_eq, applyAll_append]

end Accepted

end

end JudgeDuck.Elf
