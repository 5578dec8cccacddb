/-
What a program learns of its own headers.

The entry point is taken from the header as it is, and so is the offset of the
program-header table, which is turned into an address in the page of the image.
The checks of the loaders bound neither: an entry may be any 64-bit value, and the
table may lie behind the first page of the file.
-/
import JudgeDuck.Proofs.Elf.InitialStack

namespace JudgeDuck.Elf

open Utils Memory

/-! ### The entry point -/

/-- The program is entered at an address of the user's half, and entering it does not fault. -/
structure EntryOk (a : App) : Prop where
  low : a.entry.toNat < 2 ^ 47
  returns : sysretFaults a.elfClass a.trapframe = false

theorem entryOk_iff (a : App) : EntryOk a ↔ a.entry.toNat < 2 ^ 47 := by
  refine ⟨fun h => h.low, fun h => ⟨h, ?_⟩⟩
  unfold sysretFaults
  cases a.elfClass with
  | elf32 => rfl
  | elf64 =>
      have hlow : a.entry < 0x800000000000 := UInt64.lt_iff_toNat_lt.mpr h
      simp [canonical, App.trapframe, makeTrapframe, hlow]

/-- A 64-bit file that is accepted is entered safely exactly when its header says so; a 32-bit
file always is. -/
theorem load_entryOk_iff {buf : Mem} {len : UInt32} {config : AppConfig}
    {tscFreq vaddrBreak : UInt64} {a : App} {es : List Effect}
    (h : load buf len config tscFreq vaddrBreak = some (a, es)) :
    EntryOk a ↔ buf 4 = 1 ∨ (buf.read64 24).toNat < 2 ^ 47 := by
  rw [entryOk_iff]
  rcases load_cases h with h | h
  · obtain ⟨l, hl, rfl, -⟩ := loadElf64_eq_some h
    obtain ⟨hok, -⟩ := layout64_spec hl
    have hident := hok.ident
    simp only [identOk, decide_eq_true_eq] at hident
    have hclass : buf 4 = 2 := hident.2.2.2.2.1
    have hentry : (app .elf64 l (duckInfo l.toRegions config tscFreq)
        (duckInfo l.toRegions config tscFreq).bytes64 (stack64 l config tscFreq)).entry
        = buf.read64 24 := congrArg Ehdr.entry hok.ehdr
    rw [hentry, hclass]
    simp
  · obtain ⟨l, hl, rfl, -⟩ := loadElf32_eq_some h
    obtain ⟨hok, -⟩ := layout32_spec hl
    have hident := hok.ident
    simp only [identOk, decide_eq_true_eq] at hident
    have hclass : buf 4 = 1 := hident.2.2.2.2.1
    have hentry : (app .elf32 l (duckInfo l.toRegions config tscFreq)
        (duckInfo l.toRegions config tscFreq).bytes32 (stack32 l config tscFreq)).entry
        = (buf.read32 24).toUInt64 := congrArg Ehdr.entry hok.ehdr
    have hlt := (buf.read32 24).toNat_lt
    rw [hentry, UInt32.toNat_toUInt64]
    exact ⟨fun _ => .inl hclass, fun _ => by omega⟩

theorem load_entryOk_tiny : ∃ a es,
    load tinyFile64 120 tinyConfig 1000000000 0x404000 = some (a, es) ∧ EntryOk a := by
  obtain ⟨a, es, h⟩ := load_tiny64
  exact ⟨a, es, h, (load_entryOk_iff h).mpr (.inr (by decide +kernel))⟩

/-- The file with another entry point, 2^47. -/
def highEntryFile : Mem := tinyFile64.write64 24 0x800000000000

theorem load_entry_unchecked : ¬∀ (buf : Mem) (len : UInt32) (config : AppConfig)
    (tscFreq vaddrBreak : UInt64) (a : App) (es : List Effect),
    load buf len config tscFreq vaddrBreak = some (a, es) → EntryOk a := by
  intro hall
  have hsome : (layout64 highEntryFile 120 tinyConfig 0x404000).isSome = true := by decide +kernel
  obtain ⟨l, hl⟩ := Option.isSome_iff_exists.mp hsome
  have hload : load highEntryFile 120 tinyConfig 1000000000 0x404000
      = loadElf64 highEntryFile 120 tinyConfig 1000000000 0x404000 := by
    rw [load, if_neg (by decide), if_pos (by decide)]
  have h := hload.trans (loadElf64_of_layout 1000000000 hl)
  rcases (load_entryOk_iff h).mp (hall _ _ _ _ _ _ _ h) with hc | hc
  · exact absurd hc (by decide)
  · exact absurd hc (by decide +kernel)

/-! ### The program-header table -/

/-- The table at the address of `AT_PHDR`: every byte lies in the page of the image and is the
byte of the table in the file. -/
def TableOk (buf : Mem) (len : UInt32) (h : Ehdr) (image : UInt64) (m : Mem) : Prop :=
  ∀ i, i < h.phnum.toNat * h.phentsize.toNat →
    image.toNat ≤ (image + h.phoff).toNat + i ∧ (image + h.phoff).toNat + i < image.toNat + 4096 ∧
    h.phoff.toNat + i < len.toNat ∧ m ((image + h.phoff).toNat + i) = buf (h.phoff.toNat + i)

section

variable {F : Format} {buf : Mem} {len : UInt32} {config : AppConfig} {vaddrBreak : UInt64}
  {l : Layout} {random : List Effect} {stack : List UInt8} {infoSize : Nat}

/-- The table is where it should be exactly when it lies in the first page of the file. -/
theorem Accepted.tableOk_iff (h : Accepted F buf len config vaddrBreak l random stack infoSize)
    {bytes : List UInt8} (hrandom : PlacesRandom l random bytes)
    (hpos : l.ehdr.phnum.toNat ≠ 0) (s : Machine) :
    TableOk buf len l.ehdr l.elfImageLoadVaddr
        (applyAll (loading (phdrs F buf l.ehdr) buf len config l random stack infoSize) s).mem ↔
      l.ehdr.phentsize.toNat = 0 ∨ l.ehdr.phoff.toNat + l.ehdr.phnum.toNat * l.ehdr.phentsize.toNat
        ≤ min len.toNat 4096 := by
  have himage := h.image
  have haddr : l.elfImageLoadVaddr.toNat = l.obLoadBreak.toNat := rfl
  have hlt := l.elfImageLoadBreak.toNat_lt
  have hphoff := l.ehdr.phoff.toNat_lt
  have hsum : (l.elfImageLoadVaddr + l.ehdr.phoff).toNat
      = (l.elfImageLoadVaddr.toNat + l.ehdr.phoff.toNat) % 2 ^ 64 := UInt64.toNat_add _ _
  constructor
  · intro hok
    by_cases hsize : l.ehdr.phentsize.toNat = 0
    · exact .inl hsize
    · have hmul : 0 < l.ehdr.phnum.toNat * l.ehdr.phentsize.toNat :=
        Nat.mul_pos (Nat.pos_of_ne_zero hpos) (Nat.pos_of_ne_zero hsize)
      -- the address does not wrap, because the first byte lies in the image
      obtain ⟨h1, h2, -, -⟩ := hok 0 hmul
      obtain ⟨-, h3, h4, -⟩ := hok (l.ehdr.phnum.toNat * l.ehdr.phentsize.toNat - 1) (by omega)
      exact .inr (by omega)
  · intro hcond i hi
    rcases hcond with hsize | hle
    · rw [hsize] at hi
      omega
    · have hmem := h.mem_image hrandom s (i := l.ehdr.phoff.toNat + i) (by omega)
      rw [show (l.elfImageLoadVaddr + l.ehdr.phoff).toNat + i
        = l.elfImageLoadVaddr.toNat + (l.ehdr.phoff.toNat + i) by omega]
      exact ⟨by omega, by omega, by omega, hmem⟩

end

/-- For every accepted file of either class. -/
theorem load_tableOk_iff {buf : Mem} {len : UInt32} {config : AppConfig}
    {tscFreq vaddrBreak : UInt64} {a : App} {es : List Effect} (hvb : vaddrBreak.toNat % 4096 = 0)
    (h : load buf len config tscFreq vaddrBreak = some (a, es)) (s : Machine) :
    ∃ l s', a.elfClass.layout buf len config vaddrBreak = some l ∧ exec es s = some s' ∧
      (TableOk buf len (a.elfClass.format.ehdr buf) l.elfImageLoadVaddr s'.mem ↔
        (a.elfClass.format.ehdr buf).phentsize.toNat = 0 ∨
        (a.elfClass.format.ehdr buf).phoff.toNat
            + (a.elfClass.format.ehdr buf).phnum.toNat *
              (a.elfClass.format.ehdr buf).phentsize.toNat
          ≤ min len.toNat 4096) := by
  rcases load_cases h with h | h
  · obtain ⟨l, hl, rfl, rfl⟩ := loadElf64_eq_some h
    have hacc := accepted64 tscFreq hl
    rw [effects64_eq]
    refine ⟨l, _, hl, hacc.exec_eq hvb s, ?_⟩
    show TableOk buf len (elf64.ehdr buf) _ _ ↔ (elf64.ehdr buf).phentsize.toNat = 0 ∨
      (elf64.ehdr buf).phoff.toNat + (elf64.ehdr buf).phnum.toNat
        * (elf64.ehdr buf).phentsize.toNat ≤ _
    rw [← hacc.ehdr]
    exact hacc.tableOk_iff (placesRandom64 l) (phnum_pos64 hl) _
  · obtain ⟨l, hl, rfl, rfl⟩ := loadElf32_eq_some h
    have hacc := accepted32 tscFreq hl
    rw [effects32_eq_loading]
    refine ⟨l, _, hl, hacc.exec_eq hvb s, ?_⟩
    show TableOk buf len (elf32.ehdr buf) _ _ ↔ (elf32.ehdr buf).phentsize.toNat = 0 ∨
      (elf32.ehdr buf).phoff.toNat + (elf32.ehdr buf).phnum.toNat
        * (elf32.ehdr buf).phentsize.toNat ≤ _
    rw [← hacc.ehdr]
    exact hacc.tableOk_iff (placesRandom32 l) (phnum_pos32 hl) _

theorem load_tableOk_tiny : ∃ (a : App) (es : List Effect) (l : Layout) (s' : Machine),
    load tinyFile64 120 tinyConfig 1000000000 0x404000 = some (a, es) ∧
    exec es ⟨fun _ => 0, fun _ => 0, 0x404000⟩ = some s' ∧
    TableOk tinyFile64 120 (a.elfClass.format.ehdr tinyFile64) l.elfImageLoadVaddr s'.mem := by
  obtain ⟨a, es, h⟩ := load_tiny64
  obtain ⟨l, s', hl, hs', hiff⟩ := load_tableOk_iff (by decide) h ⟨fun _ => 0, fun _ => 0, 0x404000⟩
  refine ⟨a, es, l, s', h, hs', hiff.mpr (.inr ?_)⟩
  have hclass : a.elfClass = .elf64 := by
    rcases load_cases h with h | h
    · obtain ⟨l, -, rfl, -⟩ := loadElf64_eq_some h
      rfl
    · obtain ⟨l, hl, -, -⟩ := loadElf32_eq_some h
      have hident := (layout32_spec hl).1.ident
      exact absurd hident (by decide)
  rw [hclass]
  decide +kernel

/-- The file with its program headers in the second page. -/
def farTableFile : Mem := (tinyFile64.write64 32 4096).put 4096 56 fun i => tinyFile64 (64 + i)

/-- Headers behind the first page of the file are accepted, and the program cannot find them. -/
theorem load_table_outside : ¬∀ (buf : Mem) (len : UInt32) (config : AppConfig)
    (tscFreq vaddrBreak : UInt64) (a : App) (es : List Effect) (s s' : Machine) (l : Layout),
    vaddrBreak.toNat % 4096 = 0 → load buf len config tscFreq vaddrBreak = some (a, es) →
    a.elfClass.layout buf len config vaddrBreak = some l → exec es s = some s' →
    TableOk buf len (a.elfClass.format.ehdr buf) l.elfImageLoadVaddr s'.mem := by
  intro hall
  have hsome : (layout64 farTableFile 8192 tinyConfig 0x404000).isSome = true := by decide +kernel
  obtain ⟨l₀, hl₀⟩ := Option.isSome_iff_exists.mp hsome
  have hload : load farTableFile 8192 tinyConfig 1000000000 0x404000
      = loadElf64 farTableFile 8192 tinyConfig 1000000000 0x404000 := by
    rw [load, if_neg (by decide), if_pos (by decide)]
  have h := hload.trans (loadElf64_of_layout 1000000000 hl₀)
  obtain ⟨l, s', hl, hs', hiff⟩ := load_tableOk_iff (by decide) h ⟨fun _ => 0, fun _ => 0, 0x404000⟩
  have hc : (elf64.ehdr farTableFile).phentsize.toNat = 0 ∨ (elf64.ehdr farTableFile).phoff.toNat
      + (elf64.ehdr farTableFile).phnum.toNat * (elf64.ehdr farTableFile).phentsize.toNat
        ≤ min (8192 : UInt32).toNat 4096 :=
    hiff.mp (hall _ _ _ _ _ _ _ _ s' l (by decide) h hl hs')
  exact absurd hc (by decide +kernel)

end JudgeDuck.Elf
