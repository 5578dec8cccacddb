/-
What an accepted program may do with each page.

The loaders set the flags of a page several times.  Two properties of an entry are
followed through all of it: that the page is not writable, which only a segment
with `PF_W` ends and every read-only pass establishes again, and that the user
cannot execute it, which only a segment with `PF_X` ends.  A page that neither the
load region, nor the special region, nor the image contains has the kernel's flags
from the first pass on.
-/
import JudgeDuck.Proofs.Elf.Loading

namespace JudgeDuck.Elf

open Utils Memory

/-- A segment that covers the page, with a flag of the program header. -/
def Grants (headers : List Phdr) (flag : UInt32) (p : Nat) : Prop :=
  ∃ ph ∈ headers, ph.type = 1 ∧ ph.Covers p ∧ ph.flags &&& flag ≠ 0

section

variable {headers : List Phdr} {p : Nat} {op : PageOp}

/-- Only a segment with `PF_W` makes a page writable. -/
theorem Loop.keeps_not_writable (h : Loop headers p op) (hw : ¬Grants headers 2 p) {a : PTE}
    (ha : NotWritable a) : NotWritable (op.entry a) := by
  unfold NotWritable at ha ⊢
  cases h with
  | written => simp [setDuckWritten, PTE.duckWritten, ha]
  | readonly => simp [setPageFlagsUserReadonly, PTE.present, PTE.user, PTE.noExecute]
  | access => simp [clearAccessAndDirtyFlags, ha]
  | executable ph hph ht hp hx => simp [addPageFlagsExecutable, ha]
  | writable ph hph ht hp hf => exact absurd ⟨ph, hph, ht, hp, hf⟩ hw

/-- Only a segment with `PF_X` makes a page executable. -/
theorem Loop.keeps_noUserCode (h : Loop headers p op) (hx : ¬Grants headers 1 p) {a : PTE}
    (ha : NoUserCode a) : NoUserCode (op.entry a) := by
  unfold NoUserCode at ha ⊢
  cases h with
  | written => simpa [setDuckWritten, PTE.duckWritten] using ha
  | readonly => simp [setPageFlagsUserReadonly, PTE.present, PTE.user, PTE.noExecute]
  | access => simpa [clearAccessAndDirtyFlags, PTE.accessed, PTE.dirty] using ha
  | executable ph hph ht hp hf => exact absurd ⟨ph, hph, ht, hp, hf⟩ hx
  | writable ph hph ht hp hw => simpa [addPageFlagsWritable, PTE.writable] using ha

end

/-! ### One effect of many -/

/-- A loop that establishes what all loops over the page keep. -/
theorem established_applyAll {K : PTE → Prop} {es : List Effect} {p : Nat}
    (hes : ∀ op start stop, Effect.pages op start stop ∈ es → InPages start stop p →
      ∀ a, K a → K (op.entry a)) {op : PageOp} {start stop : UInt64}
    (hmem : Effect.pages op start stop ∈ es) (hp : InPages start stop p)
    (hK : ∀ a, K (op.entry a)) (s : Machine) : K ((applyAll es s).p1 p) := by
  obtain ⟨before, after, rfl⟩ := List.append_of_mem hmem
  rw [applyAll_append, applyAll_cons]
  refine keeps_applyAll (fun op start stop he => hes op start stop (by simp [he])) ?_
  show K (if _ then _ else _)
  rw [if_pos (show _ ∧ _ from hp)]
  exact hK _

/-! ### The pages of an accepted program -/

namespace Accepted

variable {F : Format} {buf : Mem} {len : UInt32} {config : AppConfig} {vaddrBreak : UInt64}
  {l : Layout} {random : List Effect} {stack : List UInt8} {infoSize : Nat}
  (h : Accepted F buf len config vaddrBreak l random stack infoSize)
include h

/-- After its last read-only pass a page is writable only by a segment with `PF_W`. -/
theorem not_writable {start stop : UInt64} {p : Nat}
    (hmem : Effect.pages setPageFlagsUserReadonly start stop
      ∈ loading (phdrs F buf l.ehdr) buf len config l random stack infoSize)
    (hp : InPages start stop p) (hw : ¬Grants (phdrs F buf l.ehdr) 2 p) (s : Machine) :
    NotWritable
      ((applyAll (loading (phdrs F buf l.ehdr) buf len config l random stack infoSize) s).p1 p) :=
  established_applyAll (K := NotWritable)
    (fun _ _ _ he hin _ ha => (h.loop_of_mem he hin).keeps_not_writable hw ha) hmem hp
    setPageFlagsUserReadonly_notWritable s

/-- A page of the special region belongs to no segment. -/
theorem not_grants {flag : UInt32} {p : Nat} (hp : l.loadVaddrBreak.toNat / 4096 ≤ p) :
    ¬Grants (phdrs F buf l.ehdr) flag p := by
  rintro ⟨ph, hph, ht, ⟨h1, h2⟩, -⟩
  have hs := (h.segments ph hph ht).high
  have hroom := h.room
  have hle := le_pageUp (ph.vaddr.toNat + ph.memsz.toNat)
  omega

/-- A region that was made read-only stays so. -/
theorem not_userWritable_of_readonly {start stop : UInt64} {p : Nat}
    (hmem : Effect.pages setPageFlagsUserReadonly start stop
      ∈ loading (phdrs F buf l.ehdr) buf len config l random stack infoSize)
    (hstart : l.loadVaddrBreak.toNat ≤ start.toNat) (hp : InPages start stop p) (s : Machine) :
    userWritable ((applyAll (loading (phdrs F buf l.ehdr) buf len config l random stack infoSize)
      s).p1 p) = false := by
  have hlow : l.loadVaddrBreak.toNat / 4096 ≤ p := by
    have h1 := hp.1
    omega
  exact not_userWritable_of_not_writable (h.not_writable hmem hp (h.not_grants hlow) s)

/-- A segment without `PF_W` makes its pages read-only, and the segments after it keep them so. -/
theorem not_userWritable_of_covers {ph : Phdr} (hph : ph ∈ phdrs F buf l.ehdr) (ht : ph.type = 1)
    {p : Nat} (hp : ph.Covers p) (hw : ¬Grants (phdrs F buf l.ehdr) 2 p) (s : Machine) :
    userWritable ((applyAll (loading (phdrs F buf l.ehdr) buf len config l random stack infoSize)
      s).p1 p) = false := by
  have hmem : Effect.pages setPageFlagsUserReadonly (roundDown ph.vaddr pageSize)
      (roundUp (ph.vaddr + ph.memsz) pageSize)
        ∈ loading (phdrs F buf l.ehdr) buf len config l random stack infoSize := by
    have hseg : Effect.pages setPageFlagsUserReadonly (roundDown ph.vaddr pageSize)
        (roundUp (ph.vaddr + ph.memsz) pageSize)
          ∈ (phdrs F buf l.ehdr).flatMap segmentFlagEffects :=
      List.mem_flatMap.mpr ⟨ph, hph, by simp [segmentFlagEffects, ht]⟩
    simp [loading, hseg]
  exact not_userWritable_of_not_writable
    (h.not_writable hmem ((covers_iff h.toLayoutOk hph ht p).mpr hp) hw s)

/-- Without a segment that grants it, no user page is executable. -/
theorem noUserCode {p : Nat} (hp : InPages kernelBreak vaddrBreak p)
    (hx : ¬Grants (phdrs F buf l.ehdr) 1 p) (s : Machine) :
    NoUserCode ((applyAll (loading (phdrs F buf l.ehdr) buf len config l random stack infoSize)
      (applyAll (flagEffects l vaddrBreak) s)).p1 p) := by
  refine keeps_applyAll
    (fun _ _ _ he hin _ ha => (h.loop_of_mem he hin).keeps_noUserCode hx ha) ?_
  rw [p1_flagEffects h.toLayoutOk, if_pos (show _ ∧ _ from hp), NoUserCode]
  split
  · simp only [clearDuckWrittenPages]
    split
    · simp [setPageFlagsUserWritable, PTE.present, PTE.user, PTE.writable, PTE.noExecute, PTE.dirty,
        PTE.duckWritten]
    · simp [setPageFlagsUserWritable, PTE.present, PTE.user, PTE.writable, PTE.noExecute]
  · simp [setPageFlagsKernel, PTE.present, PTE.writable]

/-- Outside the program's regions a page of the user's address space is the kernel's. -/
theorem p1_of_outside {p : Nat} (hp : InPages kernelBreak vaddrBreak p)
    (hload : ¬InPages l.loadVaddrStart l.loadVaddrBreak p)
    (hspecial : ¬InPages l.specialRegionVaddr l.specialRegionBreak p)
    (himage : ¬InPages l.elfImageLoadVaddr l.elfImageLoadBreak p) (s : Machine) :
    (applyAll (loading (phdrs F buf l.ehdr) buf len config l random stack infoSize)
      (applyAll (flagEffects l vaddrBreak) s)).p1 p = setPageFlagsKernel.entry (s.p1 p) := by
  have h1 := h.special
  have h2 := h.image
  have h3 := h.special_aligned
  have h4 := h.aligned
  obtain ⟨-, -, -, -, -, h5⟩ := h.breaks_aligned
  obtain ⟨h6, h7, h8, h9, h10, h11⟩ := h.breaks_le
  have h12 := h.room
  rw [InPages] at hload hspecial himage
  rw [Regions.specialRegionVaddr] at hspecial
  rw [Regions.elfImageLoadVaddr] at himage
  rw [p1_applyAll_out h.within_loading _ (by omega), p1_flagEffects h.toLayoutOk,
    if_neg (by omega), if_pos (show _ ∧ _ from hp)]

end Accepted

/-! ### The statement -/

def ElfClass.format : ElfClass → Format
  | .elf32 => Elf.elf32
  | .elf64 => Elf.elf64

def ElfClass.layout : ElfClass → Mem → UInt32 → AppConfig → UInt64 → Option Layout
  | .elf32 => layout32
  | .elf64 => layout64

/-- The pages that no program may write: the input, the image, and the random bytes of a 64-bit
program. -/
def ReadonlyPage (c : ElfClass) (l : Layout) (p : Nat) : Prop :=
  InPages l.stdinLoadVaddr l.stdinLoadBreak p ∨ InPages l.ibLoadVaddr l.ibLoadBreak p ∨
    InPages l.elfImageLoadVaddr l.elfImageLoadBreak p ∨
    c = .elf64 ∧ InPages l.randomBytesLoadVaddr l.randomBytesLoadBreak p

/-- What the page flags of an accepted program allow. -/
structure Rights (c : ElfClass) (headers : List Phdr) (vaddrBreak : UInt64) (l : Layout)
    (s : Machine) : Prop where
  user : ∀ p, InPages kernelBreak vaddrBreak p → s.p1 p &&& PTE.user ≠ 0 →
    InPages l.loadVaddrStart l.loadVaddrBreak p ∨
    InPages l.specialRegionVaddr l.specialRegionBreak p ∨
    InPages l.elfImageLoadVaddr l.elfImageLoadBreak p
  readonly : ∀ p, ReadonlyPage c l p → userWritable (s.p1 p) = false
  writable : ∀ p, userWritable (s.p1 p) = true →
    (¬∃ ph ∈ headers, ph.type = 1 ∧ ph.Covers p) ∧ ¬ReadonlyPage c l p ∨ Grants headers 2 p
  executable : ∀ p, InPages kernelBreak vaddrBreak p → s.p1 p &&& PTE.user ≠ 0 →
    s.p1 p &&& PTE.noExecute = 0 → Grants headers 1 p

theorem Accepted.rights {c : ElfClass} {buf : Mem} {len : UInt32} {config : AppConfig}
    {vaddrBreak : UInt64} {l : Layout} {random : List Effect} {stack : List UInt8} {infoSize : Nat}
    (h : Accepted c.format buf len config vaddrBreak l random stack infoSize)
    (hrandom : c = .elf64 → random = randomBytesEffects l) (s : Machine) :
    Rights c (phdrs c.format buf l.ehdr) vaddrBreak l
      (applyAll (loading (phdrs c.format buf l.ehdr) buf len config l random stack infoSize)
        (applyAll (flagEffects l vaddrBreak) s)) := by
  obtain ⟨-, h1, h2, h3, h4, h5⟩ := h.breaks_le
  have h6 := h.image
  have hreadonly : ∀ p, ReadonlyPage c l p →
      userWritable ((applyAll (loading (phdrs c.format buf l.ehdr) buf len config l random stack
        infoSize) (applyAll (flagEffects l vaddrBreak) s)).p1 p) = false := by
    rintro p (hp | hp | hp | ⟨hc, hp⟩)
    · refine h.not_userWritable_of_readonly ?_ ?_ hp _
      · simp [loading, stdinEffects, readonlyEffects]
      · exact Nat.le_refl l.loadVaddrBreak.toNat
    · refine h.not_userWritable_of_readonly ?_ ?_ hp _
      · simp [loading, ibEffects, readonlyEffects]
      · show _ ≤ l.stderrLoadBreak.toNat
        omega
    · refine h.not_userWritable_of_readonly ?_ ?_ hp _
      · simp [loading, elfImageEffects, readonlyEffects]
      · show _ ≤ l.obLoadBreak.toNat
        omega
    · refine h.not_userWritable_of_readonly ?_ ?_ hp _
      · rw [hrandom hc]
        simp [loading, randomBytesEffects, readonlyEffects]
      · show _ ≤ l.elfImageLoadBreak.toNat
        omega
  refine
    { user := fun p hp hu => ?_
      readonly := hreadonly
      writable := fun p hp => ?_
      executable := fun p hp hu hx => ?_ }
  · by_contra hout
    rw [not_or, not_or] at hout
    rw [h.p1_of_outside hp hout.1 hout.2.1 hout.2.2, and_user] at hu
    simp [setPageFlagsKernel, PTE.present, PTE.writable] at hu
  · by_cases hw : Grants (phdrs c.format buf l.ehdr) 2 p
    · exact .inr hw
    · refine .inl ⟨?_, fun hr => ?_⟩
      · rintro ⟨ph, hph, ht, hcovers⟩
        rw [h.not_userWritable_of_covers hph ht hcovers hw] at hp
        cases hp
      · rw [hreadonly p hr] at hp
        cases hp
  · by_contra hno
    have hcode := h.noUserCode hp hno s
    rw [NoUserCode, ← and_user, ← and_noExecute] at hcode
    exact hcode hu hx

/-- The page flags on return, for every file that `ELF::load` accepts and every earlier state. -/
theorem load_rights {buf : Mem} {len : UInt32} {config : AppConfig} {tscFreq vaddrBreak : UInt64}
    {a : App} {es : List Effect} (hvb : vaddrBreak.toNat % 4096 = 0)
    (h : load buf len config tscFreq vaddrBreak = some (a, es)) (s : Machine) :
    ∃ l s', a.elfClass.layout buf len config vaddrBreak = some l ∧ exec es s = some s' ∧
      Rights a.elfClass (phdrs a.elfClass.format buf l.ehdr) vaddrBreak l s' := by
  rcases load_cases h with h | h
  · obtain ⟨l, hl, rfl, rfl⟩ := loadElf64_eq_some h
    have hacc := accepted64 tscFreq hl
    rw [effects64_eq]
    exact ⟨l, _, hl, hacc.exec_eq hvb s, hacc.rights (c := .elf64) (fun _ => rfl) s⟩
  · obtain ⟨l, hl, rfl, rfl⟩ := loadElf32_eq_some h
    have hacc := accepted32 tscFreq hl
    rw [effects32_eq_loading]
    exact ⟨l, _, hl, hacc.exec_eq hvb s, hacc.rights (c := .elf32) (fun hc => by cases hc) s⟩

theorem load_tiny64 : ∃ a es,
    load tinyFile64 120 tinyConfig 1000000000 0x404000 = some (a, es) := by
  have hsome : (layout64 tinyFile64 120 tinyConfig 0x404000).isSome = true := by decide +kernel
  obtain ⟨l, hl⟩ := Option.isSome_iff_exists.mp hsome
  have hload : load tinyFile64 120 tinyConfig 1000000000 0x404000
      = loadElf64 tinyFile64 120 tinyConfig 1000000000 0x404000 := by
    rw [load, if_neg (by decide), if_pos (by decide)]
  exact ⟨_, _, hload.trans (loadElf64_of_layout 1000000000 hl)⟩

theorem load_rights_tiny : ∃ a es l s',
    load tinyFile64 120 tinyConfig 1000000000 0x404000 = some (a, es) ∧
    exec es ⟨fun _ => 0, fun _ => 0, 0x404000⟩ = some s' ∧
    Rights a.elfClass (phdrs a.elfClass.format tinyFile64 l.ehdr) 0x404000 l s' := by
  obtain ⟨a, es, h⟩ := load_tiny64
  obtain ⟨l, s', -, hs', hr⟩ := load_rights (by decide) h ⟨fun _ => 0, fun _ => 0, 0x404000⟩
  exact ⟨a, es, l, s', h, hs', hr⟩

end JudgeDuck.Elf
