/-
`lib/elf.cpp`: the loaders in the order of the source.

`Elf.load` computes the layout and lists the effects.  Here the same functions run
statement by statement on the machine, on the `App` of the caller and on a log of
the bytes of `buf` that are read, so that what a loader has done when it returns
`false` can be seen.  A header is read as a whole: every field that a statement
reads lies in the range that is logged.
-/
import JudgeDuck.Model.Elf

namespace JudgeDuck

namespace Elf

open Utils Memory

/-- How a loader ends early: `return false`, or an assert of a page loop. -/
inductive Exit where
  | rejected
  | assertFailed
deriving DecidableEq

/-- What a loader works on; `reads` are the ranges of `buf` that were read, offset and size. -/
structure LoadState where
  machine : Machine
  app : App
  reads : List (Nat × Nat)

def LoadM (α : Type) : Type := LoadState → Except Exit α × LoadState

namespace LoadM

/-- `x; f` -/
def bind {α β : Type} (x : LoadM α) (f : α → LoadM β) : LoadM β := fun st =>
  match x st with
  | (.ok a, st') => f a st'
  | (.error e, st') => (.error e, st')

instance : Monad LoadM where
  pure a := fun st => (.ok a, st)
  bind := LoadM.bind

end LoadM

/-- `if (c) return false;` -/
def rejectIf (c : Prop) [Decidable c] : LoadM Unit := fun st =>
  (if c then .error .rejected else .ok (), st)

/-- Read `n` bytes of `buf` at offset `off`. -/
def readBuf {α : Type} (buf : Mem) (off n : Nat) (f : Mem → α) : LoadM α := fun st =>
  (.ok (f buf), { st with reads := st.reads ++ [(off, n)] })

/-- A page loop or a copy. -/
def perform (e : Effect) : LoadM Unit := fun st =>
  match e.run st.machine with
  | some machine => (.ok (), { st with machine })
  | none => (.error .assertFailed, st)

def performAll : List Effect → LoadM Unit
  | [] => pure ()
  | e :: es => do
    perform e
    performAll es

def returnApp (a : App) : LoadM Unit := fun st => (.ok (), { st with app := a })

/-! ### The checks -/

/-- The first loop over the program headers. -/
def scanHeaders (F : Format) (buf : Mem) (len : UInt64) (h : Ehdr) :
    Nat → Nat → UInt64 × UInt64 → LoadM (UInt64 × UInt64)
  | 0, _, acc => pure acc
  | k + 1, i, acc => do
    let off := phdrOffset h i
    rejectIf (off + F.phdrSize > len)
    let ph ← readBuf buf off.toNat F.phdrSize.toNat fun m => F.phdr m off.toNat
    if ph.type ≠ 1 then scanHeaders F buf len h k (i + 1) acc
    else do
      rejectIf (¬phdrOk F len ph)
      scanHeaders F buf len h k (i + 1) (min acc.1 ph.vaddr, max acc.2 (ph.vaddr + ph.memsz))

/-- A region, with both overflow checks. -/
def allocRegion (start size : UInt64) : LoadM UInt64 := do
  let allocSize := roundUp size pageSize
  rejectIf (allocSize < size)
  rejectIf (start + allocSize < start)
  return start + allocSize

def allocPage (start : UInt64) : LoadM UInt64 := do
  rejectIf (start + pageSize < start)
  return start + pageSize

/-- The checks of both loaders up to the output buffer. -/
def checkRegions (F : Format) (buf : Mem) (len : UInt32) (config : AppConfig)
    (vaddrBreak : UInt64) : LoadM Regions := do
  let len := len.toUInt64
  rejectIf (len < F.ehdrSize)
  let ident ← readBuf buf 0 F.ehdrSize.toNat (identOk F)
  rejectIf (¬ident)
  let h ← readBuf buf 0 F.ehdrSize.toNat F.ehdr
  rejectIf (h.phoff ≥ len)
  rejectIf (h.phentsize ≥ len)
  rejectIf (h.phnum ≥ len)
  let bounds ← scanHeaders F buf len h h.phnum.toNat 0 (-1, 0)
  let minVaddr := roundDown bounds.1 pageSize
  let maxVaddr := roundUp bounds.2 pageSize
  rejectIf (minVaddr < kernelBreak)
  rejectIf (maxVaddr ≤ minVaddr ∨ maxVaddr > vaddrBreak)
  let memoryLimit := roundUp config.memoryHardLimit pageSize
  let memoryNeeded := maxVaddr - minVaddr
  rejectIf (memoryLimit < memoryNeeded)
  rejectIf (memoryLimit < memoryNeeded + pageSize)
  rejectIf (minVaddr ≠ F.loadVaddrStart)
  let loadVaddrBreak := F.loadVaddrStart + memoryLimit
  rejectIf (loadVaddrBreak < F.loadVaddrStart)
  rejectIf (loadVaddrBreak > vaddrBreak)
  let stdinLoadBreak ← allocRegion loadVaddrBreak config.stdinSize
  let stdoutLoadBreak ← allocRegion stdinLoadBreak config.stdoutMaxSize
  let stderrLoadBreak ← allocRegion stdoutLoadBreak config.stderrMaxSize
  let ibLoadBreak ← allocRegion stderrLoadBreak config.ibSize
  let obLoadBreak ← allocRegion ibLoadBreak config.obSize
  return {
    ehdr := h
    loadVaddrStart := F.loadVaddrStart
    loadVaddrBreak
    stdinLoadBreak
    stdoutLoadBreak
    stderrLoadBreak
    ibLoadBreak
    obLoadBreak }

/-- The checks of `load_elf64`. -/
def check64 (buf : Mem) (len : UInt32) (config : AppConfig) (vaddrBreak : UInt64) :
    LoadM Layout := do
  let r ← checkRegions elf64 buf len config vaddrBreak
  let elfImageLoadBreak ← allocPage r.elfImageLoadVaddr
  let randomBytesLoadBreak ← allocPage elfImageLoadBreak
  rejectIf (randomBytesLoadBreak < r.specialRegionVaddr)
  rejectIf (randomBytesLoadBreak > vaddrBreak)
  return { r with elfImageLoadBreak, specialRegionBreak := randomBytesLoadBreak }

/-- The checks of `load_elf32`. -/
def check32 (buf : Mem) (len : UInt32) (config : AppConfig) (vaddrBreak : UInt64) :
    LoadM Layout := do
  let r ← checkRegions elf32 buf len config vaddrBreak
  let specialRegionBreak := r.obLoadBreak
  rejectIf (specialRegionBreak < r.specialRegionVaddr)
  rejectIf (specialRegionBreak > vaddrBreak)
  let elfImageLoadBreak ← allocPage r.elfImageLoadVaddr
  rejectIf (r.loadVaddrStart > 0x100000000)
  rejectIf (specialRegionBreak > 0x100000000)
  return { r with elfImageLoadBreak, specialRegionBreak }

/-! ### The loading -/

/-- Program header `i`, read again. -/
def readPhdr (F : Format) (buf : Mem) (h : Ehdr) (i : Nat) : LoadM Phdr :=
  readBuf buf (phdrOffset h i).toNat F.phdrSize.toNat fun m => F.phdr m (phdrOffset h i).toNat

/-- The body of the second loop: copy the bytes of a segment from the file. -/
def loadSegment (F : Format) (buf : Mem) (h : Ehdr) (i : Nat) : LoadM Unit := do
  let ph ← readPhdr F buf h i
  if ph.type = 1 ∧ ph.filesz ≠ 0 then do
    readBuf buf ph.offset.toNat ph.filesz.toNat fun _ => ()
    performAll (segmentEffects buf ph)
  else pure ()

/-- The body of the third loop. -/
def flagSegment (F : Format) (buf : Mem) (h : Ehdr) (i : Nat) : LoadM Unit := do
  let ph ← readPhdr F buf h i
  performAll (segmentFlagEffects ph)

/-- `for (i = 0; i < e_phnum; i++)` -/
def forHeaders (body : Nat → LoadM Unit) : List Nat → LoadM Unit
  | [] => pure ()
  | i :: is => do
    body i
    forHeaders body is

/-- Everything after the last check; the 32-bit loader has no page of random bytes. -/
def loadInto (F : Format) (buf : Mem) (len : UInt32) (config : AppConfig) (vaddrBreak : UInt64)
    (l : Layout) (random : List Effect) (stack : List UInt8) (infoSize : Nat) : LoadM Unit := do
  let headers := List.range l.ehdr.phnum.toNat
  performAll (flagEffects l vaddrBreak)
  forHeaders (loadSegment F buf l.ehdr) headers
  performAll (stdinEffects l.toRegions config)
  performAll (ibEffects l.toRegions config)
  performAll (obEffects l.toRegions config)
  readBuf buf 0 (min len.toNat 4096) fun _ => ()
  performAll (elfImageEffects l buf len)
  performAll random
  performAll (stackEffects l.toRegions stack infoSize)
  forHeaders (flagSegment F buf l.ehdr) headers
  performAll [.pages clearAccessAndDirtyFlags l.loadVaddrStart l.specialRegionBreak]

/-- `load_elf64`. -/
def runElf64 (buf : Mem) (len : UInt32) (config : AppConfig) (tscFreq vaddrBreak : UInt64) :
    LoadM Unit := do
  let l ← check64 buf len config vaddrBreak
  let info := duckInfo l.toRegions config tscFreq
  loadInto elf64 buf len config vaddrBreak l (randomBytesEffects l) (stack64 l config tscFreq) 112
  returnApp (app .elf64 l info info.bytes64 (stack64 l config tscFreq))

/-- `load_elf32`. -/
def runElf32 (buf : Mem) (len : UInt32) (config : AppConfig) (tscFreq vaddrBreak : UInt64) :
    LoadM Unit := do
  let l ← check32 buf len config vaddrBreak
  let info := duckInfo l.toRegions config tscFreq
  loadInto elf32 buf len config vaddrBreak l [] (stack32 l config tscFreq) 60
  returnApp (app .elf32 l info info.bytes32 (stack32 l config tscFreq))

/-- `ELF::load`. -/
def runLoad (buf : Mem) (len : UInt32) (config : AppConfig) (tscFreq vaddrBreak : UInt64) :
    LoadM Unit := do
  rejectIf (len < 52)
  let eiClass ← readBuf buf 4 1 fun m => m 4
  if eiClass = 2 then runElf64 buf len config tscFreq vaddrBreak
  else if eiClass = 1 then runElf32 buf len config tscFreq vaddrBreak
  else rejectIf True

end Elf

end JudgeDuck
