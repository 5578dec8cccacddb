/-
What `load_elf64` returning true means.

The checks of the headers and of the sizes are spread over two passes and computed
modulo 2^64.  Together they leave only layouts in which every sum is exact: headers
and file ranges inside the file, segments below the page of the stack, regions that
follow one another, and page loops that run from a page to a later one inside the
user's address space.
-/
import JudgeDuck.Proofs.Elf.Ranges

namespace JudgeDuck.Elf

open Utils Memory

/-- A special region: where it starts and ends, and how many bytes it is for. -/
structure Span where
  start : Nat
  stop : Nat
  size : Nat

/-- The special regions of the 64-bit loader. -/
def spans64 (l : Layout) (config : AppConfig) : List Span :=
  [⟨l.stdinLoadVaddr.toNat, l.stdinLoadBreak.toNat, config.stdinSize.toNat⟩,
    ⟨l.stdoutLoadVaddr.toNat, l.stdoutLoadBreak.toNat, config.stdoutMaxSize.toNat⟩,
    ⟨l.stderrLoadVaddr.toNat, l.stderrLoadBreak.toNat, config.stderrMaxSize.toNat⟩,
    ⟨l.ibLoadVaddr.toNat, l.ibLoadBreak.toNat, config.ibSize.toNat⟩,
    ⟨l.obLoadVaddr.toNat, l.obLoadBreak.toNat, config.obSize.toNat⟩,
    ⟨l.elfImageLoadVaddr.toNat, l.elfImageLoadBreak.toNat, 4096⟩,
    ⟨l.randomBytesLoadVaddr.toNat, l.randomBytesLoadBreak.toNat, 4096⟩]

/-- An accepted request, with the layout and the effects of the loader. -/
structure Accepted64 (buf : Mem) (len : UInt32) (config : AppConfig) (vaddrBreak : UInt64)
    (l : Layout) (es : List Effect) : Prop where
  /-- The program headers lie in the file. -/
  headers : ∀ i, i < l.ehdr.phnum.toNat →
    (phdrOffset l.ehdr i).toNat = l.ehdr.phoff.toNat + i * l.ehdr.phentsize.toNat ∧
    l.ehdr.phoff.toNat + i * l.ehdr.phentsize.toNat + 56 ≤ len.toNat
  /-- So do the bytes of the segments. -/
  inFile : ∀ ph ∈ phdrs elf64 buf l.ehdr, ph.type = 1 → ph.filesz ≠ 0 →
    ph.offset.toNat + ph.filesz.toNat ≤ len.toNat
  /-- The segments end before the page of the stack. -/
  segments : ∀ ph ∈ phdrs elf64 buf l.ehdr, ph.type = 1 →
    0x400000 ≤ ph.vaddr.toNat ∧
    ph.vaddr.toNat + ph.memsz.toNat ≤ l.loadVaddrBreak.toNat - 4096
  aligned : ∀ r ∈ spans64 l config, r.start % 4096 = 0 ∧ r.stop % 4096 = 0
  large : ∀ r ∈ spans64 l config, r.start + r.size ≤ r.stop
  consecutive : (spans64 l config).IsChain fun a b => a.stop = b.start
  disjoint : (spans64 l config).Pairwise fun a b => a.stop ≤ b.start
  /-- The load region and the special regions after it lie in the user's address space. -/
  inside : kernelBreak.toNat ≤ l.loadVaddrStart.toNat ∧
    l.loadVaddrStart.toNat < l.loadVaddrBreak.toNat ∧
    ∀ r ∈ spans64 l config, l.loadVaddrBreak.toNat ≤ r.start ∧ r.stop ≤ vaddrBreak.toNat
  /-- Every page loop is entered with aligned addresses in order. -/
  loops : ∀ op start stop, Effect.pages op start stop ∈ es →
    start.toNat % 4096 = 0 ∧ stop.toNat % 4096 = 0 ∧ start.toNat ≤ stop.toNat ∧
    kernelBreak.toNat ≤ start.toNat ∧ stop.toNat ≤ vaddrBreak.toNat
  /-- So all asserts hold. -/
  performed : ∀ s, ∃ s', exec es s = some s'

section

variable {buf : Mem} {len : UInt32} {config : AppConfig} {vaddrBreak : UInt64} {l : Layout}

/-- Everything the 64-bit loader does stays in the user's address space. -/
theorem within_effects64 (tscFreq : UInt64) (h : LayoutOk elf64 buf len config vaddrBreak l)
    (hr : l.specialRegionBreak.toNat = l.elfImageLoadBreak.toNat + 4096)
    (hvb : vaddrBreak.toNat % 4096 = 0) :
    Within kernelBreak.toNat vaddrBreak.toNat (effects64 buf len config tscFreq vaddrBreak l) := by
  have hle := h.special_le
  rw [effects64_eq]
  exact (within_flags h hvb).append
    ((h.accepted64 tscFreq hr).within_loading.mono h.kernel (by omega))

theorem loadElf64_eq_some {tscFreq : UInt64} {a : App} {es : List Effect}
    (h : loadElf64 buf len config tscFreq vaddrBreak = some (a, es)) :
    ∃ l, layout64 buf len config vaddrBreak = some l ∧
      a = app .elf64 l (duckInfo l.toRegions config tscFreq)
        (duckInfo l.toRegions config tscFreq).bytes64 (stack64 l config tscFreq) ∧
      es = effects64 buf len config tscFreq vaddrBreak l := by
  unfold loadElf64 at h
  simp only [Option.bind_eq_bind, Option.bind_eq_some_iff, Option.pure_def, Option.some.injEq,
    Prod.mk.injEq] at h
  obtain ⟨l, hl, rfl, rfl⟩ := h
  exact ⟨l, hl, rfl, rfl⟩

theorem loadElf64_of_layout (tscFreq : UInt64) (h : layout64 buf len config vaddrBreak = some l) :
    loadElf64 buf len config tscFreq vaddrBreak
      = some (app .elf64 l (duckInfo l.toRegions config tscFreq)
          (duckInfo l.toRegions config tscFreq).bytes64 (stack64 l config tscFreq),
        effects64 buf len config tscFreq vaddrBreak l) := by
  rw [loadElf64, h]
  rfl

/-- The special regions as spans: what the layout says about each of them. -/
theorem spans64_ok (h : LayoutOk elf64 buf len config vaddrBreak l)
    (hr : l.specialRegionBreak.toNat = l.elfImageLoadBreak.toNat + 4096) :
    ∀ r ∈ spans64 l config, r.start % 4096 = 0 ∧ r.stop % 4096 = 0 ∧ r.start + r.size ≤ r.stop ∧
      l.loadVaddrBreak.toNat ≤ r.start ∧ r.stop ≤ vaddrBreak.toNat := by
  have himage := h.image
  have hle := h.special_le
  obtain ⟨a1, a2, a3, a4, a5, a6⟩ := h.breaks_aligned
  obtain ⟨-, b2, b3, b4, b5, b6⟩ := h.breaks_le
  intro r hmem
  simp only [spans64, List.mem_cons, List.not_mem_nil, or_false] at hmem
  rcases hmem with rfl | rfl | rfl | rfl | rfl | rfl | rfl
  all_goals dsimp only [Regions.stdinLoadVaddr, Regions.stdoutLoadVaddr, Regions.stderrLoadVaddr,
    Regions.ibLoadVaddr, Regions.obLoadVaddr, Regions.elfImageLoadVaddr,
    Layout.randomBytesLoadVaddr, Layout.randomBytesLoadBreak]
  · have hs := h.stdin
    have hp := le_pageUp config.stdinSize.toNat
    exact ⟨a1, a2, by omega, Nat.le_refl _, by omega⟩
  · have hs := h.stdout
    have hp := le_pageUp config.stdoutMaxSize.toNat
    exact ⟨a2, a3, by omega, b2, by omega⟩
  · have hs := h.stderr
    have hp := le_pageUp config.stderrMaxSize.toNat
    exact ⟨a3, a4, by omega, by omega, by omega⟩
  · have hs := h.ib
    have hp := le_pageUp config.ibSize.toNat
    exact ⟨a4, a5, by omega, by omega, by omega⟩
  · have hs := h.ob
    have hp := le_pageUp config.obSize.toNat
    exact ⟨a5, a6, by omega, by omega, by omega⟩
  · exact ⟨a6, by omega, by omega, by omega, by omega⟩
  · exact ⟨by omega, by omega, by omega, by omega, hle⟩

/-- Spans of which each one starts where the one before it ends are disjoint. -/
theorem Span.pairwise_of_isChain : ∀ {rs : List Span}, (∀ r ∈ rs, r.start ≤ r.stop) →
    (rs.IsChain fun a b => a.stop = b.start) → rs.Pairwise fun a b => a.stop ≤ b.start := by
  intro rs
  induction rs with
  | nil => intro _ _; exact List.Pairwise.nil
  | cons a rs ih =>
      intro hle hchain
      have htail := ih (fun r hr => hle r (List.mem_cons_of_mem a hr)) hchain.tail
      refine List.pairwise_cons.mpr ⟨fun r hr => ?_, htail⟩
      cases rs with
      | nil => cases hr
      | cons b rs =>
          have hab : a.stop = b.start := (List.isChain_cons_cons.mp hchain).1
          rcases List.mem_cons.mp hr with rfl | hr
          · exact Nat.le_of_eq hab
          · have hb := hle b (by simp)
            have hbr := (List.pairwise_cons.mp htail).1 r hr
            omega

/-- Acceptance by the 64-bit loader, for every file, every sizes and every `vaddr_break` up to
512 GiB. -/
theorem loadElf64_accepted {tscFreq : UInt64} {a : App} {es : List Effect}
    (hvb : vaddrBreak.toNat % 4096 = 0)
    (htop : vaddrBreak.toNat ≤ 2 ^ 39)
    (h : loadElf64 buf len config tscFreq vaddrBreak = some (a, es)) :
    ∃ l, layout64 buf len config vaddrBreak = some l ∧
      Accepted64 buf len config vaddrBreak l es := by
  obtain ⟨l, hl, -, rfl⟩ := loadElf64_eq_some h
  obtain ⟨hok, hr⟩ := layout64_spec hl
  have hwithin := within_effects64 tscFreq hok hr hvb
  have hspans := spans64_ok hok hr
  have hchain : (spans64 l config).IsChain fun a b => a.stop = b.start := by
    unfold spans64
    simp only [List.isChain_cons_cons, List.isChain_singleton, and_true]
    exact ⟨rfl, rfl, rfl, rfl, rfl, rfl⟩
  refine ⟨l, hl, ?_⟩
  refine
    { headers := hok.inFile
      inFile := fun ph hph ht hne => ?_
      segments := fun ph hph ht => ?_
      aligned := fun r hr => ⟨(hspans r hr).1, (hspans r hr).2.1⟩
      large := fun r hr => (hspans r hr).2.2.1
      consecutive := hchain
      disjoint := Span.pairwise_of_isChain (fun r hr => ?_) hchain
      inside := ⟨hok.kernel, by have := hok.room; omega, fun r hr => (hspans r hr).2.2.2⟩
      loops := fun op start stop he => hwithin _ he
      performed := fun s => ⟨_, hwithin.exec_eq s⟩ }
  · exact hok.segment_inFile htop hph ht hne
  · have hs := hok.segments ph hph ht
    have hlow := hs.low
    have hhigh := hs.high
    have hmem := le_pageUp (ph.vaddr.toNat + ph.memsz.toNat)
    rw [hok.start] at hlow
    exact ⟨hlow, by omega⟩
  · have := hspans r hr
    omega

end

/-- A 64-bit file of 120 bytes: the header and one program header, for a segment that is the
file itself. -/
def tinyFile64 : Mem := fun i =>
  ([0x7f, 0x45, 0x4c, 0x46, 2, 1, 1, 0] ++ le 8 0 ++ le 2 2 ++ le 2 62 ++ le 4 1 ++ le 8 0x400078
    ++ le 8 64 ++ le 8 0 ++ le 4 0 ++ le 2 64 ++ le 2 56 ++ le 2 1 ++ le 6 0
    ++ le 4 1 ++ le 4 5 ++ le 8 0 ++ le 8 0x400000 ++ le 8 0 ++ le 8 120 ++ le 8 120
    ++ le 8 4096).getD i 0

/-- A request without input and output, for two pages of memory. -/
def tinyConfig : AppConfig where
  memoryHardLimit := 8192
  stdinPtr _ := 0
  stdinSize := 0
  stdoutMaxSize := 0
  stderrMaxSize := 0
  ibPtr _ := 0
  ibSize := 0
  obPtr _ := 0
  obSize := 0
  obNeedClear := true

theorem loadElf64_accepted_tiny : ∃ a es l,
    loadElf64 tinyFile64 120 tinyConfig 1000000000 0x404000 = some (a, es) ∧
    Accepted64 tinyFile64 120 tinyConfig 0x404000 l es := by
  have hsome : (layout64 tinyFile64 120 tinyConfig 0x404000).isSome = true := by decide +kernel
  obtain ⟨l, hl⟩ := Option.isSome_iff_exists.mp hsome
  have h := loadElf64_of_layout 1000000000 hl
  obtain ⟨l', -, hacc⟩ := loadElf64_accepted (by decide) (by decide) h
  exact ⟨_, _, l', h, hacc⟩

end JudgeDuck.Elf
