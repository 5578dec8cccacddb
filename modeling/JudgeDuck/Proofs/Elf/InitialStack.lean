/-
What a program finds on its initial stack.

The 64-bit loader pushes words of eight bytes only, so the stack is the list of its
words from the last push to the first, and below the `DuckInfo` it is exactly a
System V process stack.  The 32-bit loader pushes the ten words of the ELF headers
with `pushq`: a 32-bit program sees each of them as two words, and with them
`AT_PHNUM` has the value 0, whatever the file says.
-/
import JudgeDuck.Base.ProcessStack
import JudgeDuck.Proofs.Elf.Access
import JudgeDuck.Proofs.Elf.Placed

namespace JudgeDuck.Elf

open Utils Memory ProcessStack

/-! ### Pushes -/

theorem foldl_pushq (xs : List UInt64) (stack : List UInt8) :
    xs.foldl pushq stack = (xs.reverse.flatMap fun w => le 8 w.toNat) ++ stack := by
  induction xs generalizing stack with
  | nil => rfl
  | cons x xs ih => simp [ih, pushq]

/-- The bytes of word `k` of a list of words. -/
theorem getElem?_flatMap_le {n : Nat} {ws : List UInt64} (rest : List UInt8) {k j : Nat}
    (hk : k < ws.length) (hj : j < n) :
    ((ws.flatMap fun w => le n w.toNat) ++ rest)[n * k + j]? = some (Mem.byteLE ws[k].toNat j) := by
  induction ws generalizing k with
  | nil => simp at hk
  | cons w ws ih =>
      rw [List.flatMap_cons, List.append_assoc]
      cases k with
      | zero =>
          rw [List.getElem?_append_left (by simp [length_le, hj])]
          simp [le, hj]
      | succ k =>
          rw [List.getElem?_append_right (by rw [length_le, Nat.mul_add]; omega), length_le,
            show n * (k + 1) + j - n = n * k + j by rw [Nat.mul_add]; omega]
          exact ih (by simpa using hk)

/-! ### Reading the stack -/

def ElfClass.wordSize : ElfClass → Nat
  | .elf32 => 4
  | .elf64 => 8

/-- The words from an address upward, `n` bytes each. -/
def wordsFrom (m : Mem) (n sp i : Nat) : Nat := m.readLE (sp + n * i) n

/-- The `DuckInfo` in the layout of the class. -/
def App.infoBytes (a : App) : List UInt8 :=
  match a.elfClass with
  | .elf32 => a.duckinfoOrig.bytes32
  | .elf64 => a.duckinfoOrig.bytes64

/-- The stack that the ABI prescribes, with the entries that the program looks for. -/
structure StackOk (a : App) (h : Ehdr) (image : UInt64) (m : Mem) : Prop where
  aligned : a.rsp.toNat % 16 = 0
  info : m.bytes a.duckinfoPtr.toNat a.infoBytes.length = a.infoBytes
  reads : ∃ auxv, Reads (wordsFrom m a.elfClass.wordSize a.rsp.toNat) 0 [] [] auxv ∧
    auxv.lookup atDuck.toNat = some a.duckinfoPtr.toNat ∧
    auxv.lookup atPagesz.toNat = some 4096 ∧
    auxv.lookup atEntry.toNat = some h.entry.toNat ∧
    auxv.lookup atPhnum.toNat = some h.phnum.toNat ∧
    auxv.lookup atPhent.toNat = some h.phentsize.toNat ∧
    auxv.lookup atPhdr.toNat = some (image + h.phoff).toNat

/-! ### The bytes of the stack -/

section

variable {F : Format} {buf : Mem} {len : UInt32} {config : AppConfig} {vaddrBreak : UInt64}
  {l : Layout} {random : List Effect} {stack : List UInt8} {infoSize : Nat}

/-- After the load the stack ends at `load_vaddr_break`. -/
theorem Accepted.mem_stack (h : Accepted F buf len config vaddrBreak l random stack infoSize)
    {bytes : List UInt8} (hrandom : PlacesRandom l random bytes) (s : Machine) {i : Nat}
    (hi : i < (movedStack l.toRegions stack infoSize).length) :
    (applyAll (loading (phdrs F buf l.ehdr) buf len config l random stack infoSize) s).mem
        ((alignedStackPointer l.toRegions stack).toNat + i)
      = (movedStack l.toRegions stack infoSize)[i] := by
  have hroom := h.room
  have hlen := length_movedStack l.toRegions h.info_le
  have hs := h.stack_le
  have hinfo := h.info_le
  have hsp := stackPointer_toNat l.toRegions stack (by omega)
  have hasp := alignedStackPointer_toNat l.toRegions stack (by omega)
  obtain ⟨a1, -⟩ := h.breaks_aligned
  rw [mem_applyAll fun op start stop he hp => (h.loop_of_mem he hp).noWipe,
    h.stores_loading hrandom, placed, if_neg (by omega), if_pos (by omega)]
  dsimp only
  rw [if_pos (by omega), List.getElem?_eq_getElem (by omega), Option.getD_some]
  congr 1
  omega

/-- The stack pointer is aligned, and the `DuckInfo` is where the loader says. -/
theorem Accepted.mem_info (h : Accepted F buf len config vaddrBreak l random stack infoSize)
    {bytes : List UInt8} (hrandom : PlacesRandom l random bytes) {below info : List UInt8}
    (hstack : stack = below ++ info) (hinfo : info.length = infoSize) (s : Machine) :
    (applyAll (loading (phdrs F buf l.ehdr) buf len config l random stack infoSize) s).mem.bytes
        (duckInfoPtr l.toRegions info).toNat info.length = info := by
  have hroom := h.room
  have hs := h.stack_le
  have hi := h.info_le
  obtain ⟨a1, -⟩ := h.breaks_aligned
  have hlen := length_movedStack l.toRegions h.info_le
  have hsp := stackPointer_toNat l.toRegions stack (by omega)
  have hasp := alignedStackPointer_toNat l.toRegions stack (by omega)
  have hbelow : stack.length = below.length + infoSize := by
    rw [hstack, List.length_append, hinfo]
  have hptr : (duckInfoPtr l.toRegions info).toNat = l.loadVaddrBreak.toNat - infoSize := by
    rw [← hinfo]
    exact stackPointer_toNat l.toRegions info (by omega)
  refine List.ext_getElem (by simp) fun i h1 h2 => ?_
  rw [Mem.getElem_bytes, hptr]
  have hi' : i < infoSize := by omega
  have hmem := h.mem_stack hrandom s
    (i := below.length + (stackPointer l.toRegions stack).toNat % 16 + i) (by omega)
  rw [show l.loadVaddrBreak.toNat - infoSize + i = (alignedStackPointer l.toRegions stack).toNat
    + (below.length + (stackPointer l.toRegions stack).toNat % 16 + i) by omega, hmem]
  have hk : stack.length - infoSize = below.length := by omega
  unfold movedStack
  rw [List.getElem_append_right (by rw [List.length_take]; omega), List.getElem_drop]
  simp only [hstack, List.length_take, List.length_append, hinfo]
  rw [List.getElem_append_right (by omega)]
  congr 1
  omega

end

/-- A stack that needs no move. -/
theorem movedStack_of_aligned {r : Regions} {stack : List UInt8} (infoSize : Nat)
    (h : (stackPointer r stack).toNat % 16 = 0) : movedStack r stack infoSize = stack := by
  rw [movedStack, h, Nat.sub_zero, List.take_append_drop]

theorem alignedStackPointer_mod (r : Regions) (stack : List UInt8) :
    (alignedStackPointer r stack).toNat % 16 = 0 := by
  rw [alignedStackPointer, roundDown_toNat]
  exact Nat.mul_mod_left _ _

/-! ### The 64-bit stack -/

/-- The auxiliary vector of a 64-bit program. -/
def auxv64 (l : Layout) (infoPtr : UInt64) : List (Nat × Nat) :=
  [(atRandom.toNat, l.randomBytesLoadVaddr.toNat), (atSecure.toNat, 0), (atEgid.toNat, 1000),
    (atGid.toNat, 1000), (atEuid.toNat, 1000), (atUid.toNat, 1000), (atHwcap.toNat, 2),
    (atHwcap.toNat, 0xbfebfbff), (atPhnum.toNat, l.ehdr.phnum.toNat),
    (atPhent.toNat, l.ehdr.phentsize.toNat), (atEntry.toNat, l.ehdr.entry.toNat),
    (atPhdr.toNat, (l.elfImageLoadVaddr + l.ehdr.phoff).toNat),
    (atBase.toNat, l.elfImageLoadVaddr.toNat), (atDuck.toNat, infoPtr.toNat),
    (atPagesz.toNat, 4096)]

/-- The words of the 64-bit stack below the `DuckInfo`, from the lowest one up. -/
theorem stack64_eq (l : Layout) (config : AppConfig) (tscFreq : UInt64) :
    ∃ ws : List UInt64, stack64 l config tscFreq = (ws.flatMap fun w => le 8 w.toNat)
        ++ (duckInfo l.toRegions config tscFreq).bytes64 ∧
      ws.map UInt64.toNat = 0 :: 0 :: 0 :: flatten (auxv64 l
        (duckInfoPtr l.toRegions (duckInfo l.toRegions config tscFreq).bytes64)) := by
  refine ⟨_, foldl_pushq _ _, ?_⟩
  rfl

/-- Words of eight bytes, one after the other. -/
theorem wordsFrom_of_bytes {m : Mem} {sp : Nat} {ws : List UInt64} {rest : List UInt8}
    (hm : ∀ i (h : i < ((ws.flatMap fun w => le 8 w.toNat) ++ rest).length),
      m (sp + i) = ((ws.flatMap fun w => le 8 w.toNat) ++ rest)[i]) {k : Nat} (hk : k < ws.length) :
    wordsFrom m 8 sp k = ws[k].toNat := by
  have hread : wordsFrom m 8 sp k = ws[k].toNat % 256 ^ 8 := by
    refine Mem.readLE_byteLE 8 fun j hj => ?_
    obtain ⟨hlt, hbyte⟩ := List.getElem?_eq_some_iff.mp (getElem?_flatMap_le rest hk hj)
    rw [Nat.add_assoc, hm _ hlt, hbyte]
  rw [hread, Nat.mod_eq_of_lt]
  exact ws[k].toNat_lt

section

variable {buf : Mem} {len : UInt32} {config : AppConfig} {vaddrBreak : UInt64} {l : Layout}
  (tscFreq : UInt64)

/-- The 64-bit loader leaves the stack that the ABI prescribes. -/
theorem stackOk64 (hl : layout64 buf len config vaddrBreak = some l) (s : Machine) :
    StackOk (app .elf64 l (duckInfo l.toRegions config tscFreq)
        (duckInfo l.toRegions config tscFreq).bytes64 (stack64 l config tscFreq))
      l.ehdr l.elfImageLoadVaddr
      (applyAll (loading (phdrs elf64 buf l.ehdr) buf len config l (randomBytesEffects l)
        (stack64 l config tscFreq) 112) s).mem := by
  have hacc := accepted64 tscFreq hl
  have hroom := hacc.room
  obtain ⟨a1, -⟩ := hacc.breaks_aligned
  have hlen := length_stack64 l config tscFreq
  have hsp := stackPointer_toNat l.toRegions (stack64 l config tscFreq) (by omega)
  have hmoved : movedStack l.toRegions (stack64 l config tscFreq) 112 = stack64 l config tscFreq :=
    movedStack_of_aligned 112 (by omega)
  obtain ⟨ws, hws, hflat⟩ := stack64_eq l config tscFreq
  refine
    { aligned := alignedStackPointer_mod _ _
      info := hacc.mem_info (placesRandom64 l) hws (DuckInfo.length_bytes64 _) s
      reads := ⟨auxv64 l _, reads_of_flatten ?_ fun k hk => ?_, rfl, rfl, rfl, rfl, rfl, rfl⟩ }
  · simp [auxv64, atRandom, atSecure, atEgid, atGid, atEuid, atUid, atHwcap, atPhnum, atPhent,
      atEntry, atPhdr, atBase, atDuck, atPagesz]
  · have hkw : k < ws.length := by
      rw [← List.length_map (f := UInt64.toNat), hflat]
      exact hk
    have hmem := fun i (hi : i < (stack64 l config tscFreq).length) =>
      hacc.mem_stack (placesRandom64 l) s (i := i) (by rw [hmoved]; exact hi)
    simp only [hmoved] at hmem
    have hword := wordsFrom_of_bytes (fun i hi => (hmem i (by rw [hws]; exact hi)).trans
      (by simp only [hws])) hkw
    have hkm : k < (ws.map UInt64.toNat).length := by simpa using hkw
    calc wordsFrom _ 8 _ k = ws[k].toNat := hword
      _ = (ws.map UInt64.toNat)[k] := (List.getElem_map UInt64.toNat).symm
      _ = _ := List.getElem_of_eq hflat _

/-! ### The 32-bit stack -/

/-- The three words of the arguments, then `AT_PHNUM` in eight bytes. -/
theorem stack32_eq (l : Layout) (config : AppConfig) (tscFreq : UInt64) :
    ∃ rest, stack32 l config tscFreq = pushl (pushl (pushl (le 8 atPhnum.toNat ++ rest) 0) 0) 0 :=
  ⟨(elfHeaderEntries l.toRegions).dropLast.foldl pushq
    ([0, pageSize, atPagesz, duckInfoPtr l.toRegions (duckInfo l.toRegions config tscFreq).bytes32,
      atDuck].foldl pushl (duckInfo l.toRegions config tscFreq).bytes32), rfl⟩

/-- The value next to `AT_PHNUM` is the upper half of the pushed type. -/
theorem words32 (hl : layout32 buf len config vaddrBreak = some l) (s : Machine) :
    let m := (applyAll (loading (phdrs elf32 buf l.ehdr) buf len config l []
      (stack32 l config tscFreq) 60) s).mem
    let sp := (alignedStackPointer l.toRegions (stack32 l config tscFreq)).toNat
    wordsFrom m 4 sp 3 = 5 ∧ wordsFrom m 4 sp 4 = 0 := by
  have hacc := accepted32 tscFreq hl
  have hlen := length_stack32 l config tscFreq
  have hmoved : (movedStack l.toRegions (stack32 l config tscFreq) 60).length
      = (stack32 l config tscFreq).length
        + (stackPointer l.toRegions (stack32 l config tscFreq)).toNat % 16 :=
    length_movedStack _ (by omega)
  obtain ⟨rest, hrest⟩ := stack32_eq l config tscFreq
  have hbyte : ∀ j < 8, (applyAll (loading (phdrs elf32 buf l.ehdr) buf len config l []
      (stack32 l config tscFreq) 60) s).mem
        ((alignedStackPointer l.toRegions (stack32 l config tscFreq)).toNat + (12 + j))
      = Mem.byteLE 5 j := by
    intro j hj
    have hget : (stack32 l config tscFreq)[12 + j]? = some (Mem.byteLE 5 j) := by
      rw [hrest, pushl, List.getElem?_append_right (by rw [length_le]; omega), pushl,
        List.getElem?_append_right (by simp only [length_le]; omega), pushl,
        List.getElem?_append_right (by simp only [length_le]; omega),
        List.getElem?_append_left (by simp only [length_le]; omega)]
      simp only [length_le]
      rw [show 12 + j - 4 - 4 - 4 = j by omega]
      simp [le, hj]
      rfl
    obtain ⟨hlt, hval⟩ := List.getElem?_eq_some_iff.mp hget
    rw [hacc.mem_stack (placesRandom32 l) s (by omega), ← hval]
    unfold movedStack
    rw [List.getElem_append_left (by rw [List.length_take]; omega), List.getElem_take]
  have hhigh : ∀ i < 4, Mem.byteLE 5 (4 + i) = Mem.byteLE 0 i := by decide
  constructor
  · exact Mem.readLE_byteLE (v := 5) 4 fun i hi => by
      rw [Nat.add_assoc, hbyte i (by omega)]
  · refine Mem.readLE_byteLE (v := 0) 4 fun i hi => ?_
    rw [Nat.add_assoc, show 4 * 4 + i = 12 + (4 + i) by omega, hbyte (4 + i) (by omega), hhigh i hi]

/-- A file without program headers is not accepted. -/
theorem phnum_pos {F : Format} {r : Regions} (h : regions F buf len config vaddrBreak = some r) :
    r.ehdr.phnum.toNat ≠ 0 := by
  unfold regions at h
  simp only [Option.bind_eq_bind, Option.bind_eq_some_iff, reject_eq_some, exists_const,
    Option.pure_def, Option.some.injEq, not_or, UInt64.not_le] at h
  obtain ⟨-, -, -, -, -, bounds, hscan, -, hrange, -, -, -, -, -, -, -, -, -, -, -, -, -, -, -,
    rfl⟩ := h
  intro h0
  -- the bounds are the initial ones, and rounding turns them into an empty range
  rw [show (F.ehdr buf).phnum.toNat = 0 from h0, scanPhdrs, Option.some.injEq] at hscan
  rw [← hscan] at hrange
  exact absurd hrange.1 (by decide)

theorem phnum_pos64 (hl : layout64 buf len config vaddrBreak = some l) :
    l.ehdr.phnum.toNat ≠ 0 := by
  unfold layout64 at hl
  simp only [Option.bind_eq_bind, Option.bind_eq_some_iff, Option.pure_def,
    Option.some.injEq] at hl
  obtain ⟨r, hr, -, -, -, -, -, -, -, -, rfl⟩ := hl
  exact phnum_pos hr

theorem phnum_pos32 (hl : layout32 buf len config vaddrBreak = some l) :
    l.ehdr.phnum.toNat ≠ 0 := by
  unfold layout32 at hl
  simp only [Option.bind_eq_bind, Option.bind_eq_some_iff, Option.pure_def,
    Option.some.injEq] at hl
  obtain ⟨r, hr, -, -, -, -, -, -, -, -, -, -, rfl⟩ := hl
  exact phnum_pos hr

/-- The 32-bit loader never does. -/
theorem not_stackOk32 (hl : layout32 buf len config vaddrBreak = some l) (s : Machine) :
    ¬StackOk (app .elf32 l (duckInfo l.toRegions config tscFreq)
        (duckInfo l.toRegions config tscFreq).bytes32 (stack32 l config tscFreq))
      l.ehdr l.elfImageLoadVaddr
      (applyAll (loading (phdrs elf32 buf l.ehdr) buf len config l []
        (stack32 l config tscFreq) 60) s).mem := by
  intro hok
  obtain ⟨htype, hvalue⟩ := words32 tscFreq hl s
  obtain ⟨auxv, hreads, -, -, -, hphnum, -, -⟩ := hok.reads
  have hpairs : Pairs _ 3 auxv := hreads.vector
  have hpos := phnum_pos32 hl
  cases auxv with
  | nil => exact absurd (hpairs.symm.trans htype) (by decide)
  | cons p ps =>
      obtain ⟨h1, -, h2, -⟩ := hpairs
      have hp : p = (5, 0) := Prod.ext (h1.symm.trans htype) (h2.symm.trans hvalue)
      rw [hp] at hphnum
      simp [atPhnum] at hphnum
      exact hpos hphnum.symm

end

/-! ### The statement -/

/-- The program finds what the ABI prescribes exactly when it is a 64-bit program. -/
theorem load_stack_iff {buf : Mem} {len : UInt32} {config : AppConfig} {tscFreq vaddrBreak : UInt64}
    {a : App} {es : List Effect} (hvb : vaddrBreak.toNat % 4096 = 0)
    (h : load buf len config tscFreq vaddrBreak = some (a, es)) (s : Machine) :
    ∃ l s', a.elfClass.layout buf len config vaddrBreak = some l ∧ exec es s = some s' ∧
      (StackOk a (a.elfClass.format.ehdr buf) l.elfImageLoadVaddr s'.mem ↔ buf 4 = 2) := by
  rcases load_cases h with h | h
  · obtain ⟨l, hl, rfl, rfl⟩ := loadElf64_eq_some h
    have hacc := accepted64 tscFreq hl
    have hident : buf 4 = 2 := by
      have hi := hacc.ident
      simp only [identOk, decide_eq_true_eq] at hi
      exact hi.2.2.2.2.1
    rw [effects64_eq]
    refine ⟨l, _, hl, hacc.exec_eq hvb s, fun _ => hident, fun _ => ?_⟩
    show StackOk _ (elf64.ehdr buf) _ _
    rw [← hacc.ehdr]
    exact stackOk64 tscFreq hl (applyAll (flagEffects l vaddrBreak) s)
  · obtain ⟨l, hl, rfl, rfl⟩ := loadElf32_eq_some h
    have hacc := accepted32 tscFreq hl
    have hident : buf 4 = 1 := by
      have hi := hacc.ident
      simp only [identOk, decide_eq_true_eq] at hi
      exact hi.2.2.2.2.1
    rw [effects32_eq_loading]
    refine ⟨l, _, hl, hacc.exec_eq hvb s, fun hok => ?_, fun hc => ?_⟩
    · change StackOk _ (elf32.ehdr buf) _ _ at hok
      rw [← hacc.ehdr] at hok
      exact absurd hok (not_stackOk32 tscFreq hl (applyAll (flagEffects l vaddrBreak) s))
    · rw [hident] at hc
      exact absurd hc (by decide)

theorem load_stack_tiny : ∃ (a : App) (es : List Effect) (l : Layout) (s' : Machine),
    load tinyFile64 120 tinyConfig 1000000000 0x404000 = some (a, es) ∧
    exec es ⟨fun _ => 0, fun _ => 0, 0x404000⟩ = some s' ∧
    StackOk a (a.elfClass.format.ehdr tinyFile64) l.elfImageLoadVaddr s'.mem := by
  obtain ⟨a, es, h⟩ := load_tiny64
  obtain ⟨l, s', -, hs', hiff⟩ := load_stack_iff (by decide) h ⟨fun _ => 0, fun _ => 0, 0x404000⟩
  exact ⟨a, es, l, s', h, hs', hiff.mpr (by decide)⟩

theorem load_tiny32 : ∃ a es,
    load tinyFile32 84 tinyConfig 1000000000 0xc0400000 = some (a, es) := by
  have hsome : (layout32 tinyFile32 84 tinyConfig 0xc0400000).isSome = true := by decide +kernel
  obtain ⟨l, hl⟩ := Option.isSome_iff_exists.mp hsome
  have hload : load tinyFile32 84 tinyConfig 1000000000 0xc0400000
      = loadElf32 tinyFile32 84 tinyConfig 1000000000 0xc0400000 := by
    rw [load, if_neg (by decide), if_neg (by decide), if_pos (by decide)]
  exact ⟨_, _, hload.trans (loadElf32_of_layout 1000000000 hl)⟩

/-- A 32-bit program does not find the number of its program headers. -/
theorem load_stack_misread : ¬∀ (buf : Mem) (len : UInt32) (config : AppConfig)
    (tscFreq vaddrBreak : UInt64) (a : App) (es : List Effect) (s s' : Machine) (l : Layout),
    vaddrBreak.toNat % 4096 = 0 → load buf len config tscFreq vaddrBreak = some (a, es) →
    a.elfClass.layout buf len config vaddrBreak = some l → exec es s = some s' →
    StackOk a (a.elfClass.format.ehdr buf) l.elfImageLoadVaddr s'.mem := by
  intro hall
  obtain ⟨a, es, h⟩ := load_tiny32
  obtain ⟨l, s', hl, hs', hiff⟩ := load_stack_iff (by decide) h ⟨fun _ => 0, fun _ => 0, 0xc0400000⟩
  have hok := hall _ _ _ _ _ a es _ s' l (by decide) h hl hs'
  exact absurd (hiff.mp hok) (by decide)

end JudgeDuck.Elf
