/-
`lib/elf.cpp`: the ELF loader and the run of a loaded program.

Both loaders first compute everything they are going to do and then do it; nothing
is written before the last `return false`.  Here the first part is a `Layout`, and
the second part is the list of the page loops and copies in the order of the
source (`Effect`), which `exec` performs.

`load_elf64` and `load_elf32` check the header and lay out the regions in the same
way, with other sizes and offsets (`Format`).  What differs keeps its own body: the
64-bit loader places the ELF image before it looks at the end of the special
region and adds a page of random bytes, the 32-bit loader places the image after
that check.

The file and the buffers of a request are functions from offsets to bytes: the
loader reads them from memory it does not write to.
-/
import JudgeDuck.Model.Memory

namespace JudgeDuck

namespace Elf

open Utils Memory

/-- `if (c) return false;` -/
def reject (c : Prop) [Decidable c] : Option Unit := if c then none else some ()

/-! ### The structures -/

inductive ElfClass where
  | elf32
  | elf64
deriving DecidableEq

/-- The fields of the file header that the loaders use, widened to 64 bits. -/
structure Ehdr where
  entry : UInt64
  phoff : UInt64
  phentsize : UInt64
  phnum : UInt64
deriving DecidableEq

/-- A program header, widened to 64 bits. -/
structure Phdr where
  type : UInt32
  flags : UInt32
  offset : UInt64
  vaddr : UInt64
  filesz : UInt64
  memsz : UInt64
  align : UInt64
deriving DecidableEq

/-- What distinguishes the two classes up to the end of the special region. -/
structure Format where
  ehdrSize : UInt64
  eiClass : UInt8
  machine : UInt16
  ehdr : Mem → Ehdr
  phdrSize : UInt64
  phdr : Mem → Nat → Phdr
  alignOk : UInt64 → Bool
  loadVaddrStart : UInt64

def elf64 : Format where
  ehdrSize := 64
  eiClass := 2
  machine := 62
  ehdr buf :=
    { entry := buf.read64 24
      phoff := buf.read64 32
      phentsize := (buf.read16 54).toUInt64
      phnum := (buf.read16 56).toUInt64 }
  phdrSize := 56
  phdr buf off :=
    { type := buf.read32 off
      flags := buf.read32 (off + 4)
      offset := buf.read64 (off + 8)
      vaddr := buf.read64 (off + 16)
      filesz := buf.read64 (off + 32)
      memsz := buf.read64 (off + 40)
      align := buf.read64 (off + 48) }
  alignOk align := align = pageSize ∨ align = hugePageSize
  loadVaddrStart := 0x400000

def elf32 : Format where
  ehdrSize := 52
  eiClass := 1
  machine := 3
  ehdr buf :=
    { entry := (buf.read32 24).toUInt64
      phoff := (buf.read32 28).toUInt64
      phentsize := (buf.read16 42).toUInt64
      phnum := (buf.read16 44).toUInt64 }
  phdrSize := 32
  phdr buf off :=
    { type := buf.read32 off
      flags := buf.read32 (off + 24)
      offset := (buf.read32 (off + 4)).toUInt64
      vaddr := (buf.read32 (off + 8)).toUInt64
      filesz := (buf.read32 (off + 16)).toUInt64
      memsz := (buf.read32 (off + 20)).toUInt64
      align := (buf.read32 (off + 28)).toUInt64 }
  alignOk align := align = pageSize
  loadVaddrStart := 0x8048000

/-- `AppConfig`. -/
structure AppConfig where
  memoryHardLimit : UInt64
  stdinPtr : Nat → UInt8
  stdinSize : UInt64
  stdoutMaxSize : UInt64
  stderrMaxSize : UInt64
  ibPtr : Nat → UInt8
  ibSize : UInt64
  obPtr : Nat → UInt8
  obSize : UInt64
  obNeedClear : Bool

/-! ### The checks of the headers -/

/-- The checks of `e_ident`, the type, the machine and the version. -/
def identOk (F : Format) (buf : Mem) : Bool :=
  buf 0 = 0x7f ∧ buf 1 = 0x45 ∧ buf 2 = 0x4c ∧ buf 3 = 0x46 ∧ buf 4 = F.eiClass ∧ buf 5 = 1 ∧
    buf 6 = 1 ∧ (buf 7 = 0 ∨ buf 7 = 3) ∧ buf.read16 16 = 2 ∧ buf.read16 18 = F.machine ∧
    buf.read32 20 = 1

/-- The checks of one `PT_LOAD` header. -/
def phdrOk (F : Format) (len : UInt64) (ph : Phdr) : Bool :=
  ¬(ph.filesz ≠ 0 ∧ (ph.offset > len ∨ ph.offset + ph.filesz > len)) ∧ F.alignOk ph.align = true ∧
    ¬ph.memsz < ph.filesz ∧ ¬ph.vaddr + ph.memsz < ph.vaddr

/-- The offset of program header `i`. -/
def phdrOffset (h : Ehdr) (i : Nat) : UInt64 := h.phoff + UInt64.ofNat i * h.phentsize

/-- The first loop over the program headers, from header `i` on: the smallest and the largest
address of a segment so far. -/
def scanPhdrs (F : Format) (buf : Mem) (len : UInt64) (h : Ehdr) :
    Nat → Nat → UInt64 × UInt64 → Option (UInt64 × UInt64)
  | 0, _, acc => some acc
  | k + 1, i, acc =>
    let off := phdrOffset h i
    if off + F.phdrSize > len then none
    else
      let ph := F.phdr buf off.toNat
      if ph.type ≠ 1 then scanPhdrs F buf len h k (i + 1) acc
      else if ¬phdrOk F len ph then none
      else scanPhdrs F buf len h k (i + 1) (min acc.1 ph.vaddr, max acc.2 (ph.vaddr + ph.memsz))

/-! ### The regions -/

/-- `alloc_size = round_up(size)`, both overflow checks, and the end of the region. -/
def allocateRegion (start size : UInt64) : Option UInt64 := do
  let allocSize := roundUp size pageSize
  reject (allocSize < size)
  reject (start + allocSize < start)
  return start + allocSize

/-- A region of one page. -/
def allocatePage (start : UInt64) : Option UInt64 := do
  reject (start + pageSize < start)
  return start + pageSize

/-- The regions up to the output buffer; each one starts where the one before it ends. -/
structure Regions where
  ehdr : Ehdr
  loadVaddrStart : UInt64
  loadVaddrBreak : UInt64
  stdinLoadBreak : UInt64
  stdoutLoadBreak : UInt64
  stderrLoadBreak : UInt64
  ibLoadBreak : UInt64
  obLoadBreak : UInt64
deriving DecidableEq

namespace Regions

def specialRegionVaddr (r : Regions) : UInt64 := r.loadVaddrBreak
def stdinLoadVaddr (r : Regions) : UInt64 := r.loadVaddrBreak
def stdoutLoadVaddr (r : Regions) : UInt64 := r.stdinLoadBreak
def stderrLoadVaddr (r : Regions) : UInt64 := r.stdoutLoadBreak
def ibLoadVaddr (r : Regions) : UInt64 := r.stderrLoadBreak
def obLoadVaddr (r : Regions) : UInt64 := r.ibLoadBreak
def elfImageLoadVaddr (r : Regions) : UInt64 := r.obLoadBreak

end Regions

/-- Everything both loaders check and compute before they place the ELF image. -/
def regions (F : Format) (buf : Mem) (len : UInt32) (config : AppConfig) (vaddrBreak : UInt64) :
    Option Regions := do
  let len := len.toUInt64
  reject (len < F.ehdrSize)
  reject (¬identOk F buf)
  let h := F.ehdr buf
  reject (h.phoff ≥ len)
  reject (h.phentsize ≥ len)
  reject (h.phnum ≥ len)
  let bounds ← scanPhdrs F buf len h h.phnum.toNat 0 (-1, 0)
  let minVaddr := roundDown bounds.1 pageSize
  let maxVaddr := roundUp bounds.2 pageSize
  reject (minVaddr < kernelBreak)
  reject (maxVaddr ≤ minVaddr ∨ maxVaddr > vaddrBreak)
  let memoryLimit := roundUp config.memoryHardLimit pageSize
  let memoryNeeded := maxVaddr - minVaddr
  reject (memoryLimit < memoryNeeded)
  reject (memoryLimit < memoryNeeded + pageSize)
  reject (minVaddr ≠ F.loadVaddrStart)
  let loadVaddrBreak := F.loadVaddrStart + memoryLimit
  reject (loadVaddrBreak < F.loadVaddrStart)
  reject (loadVaddrBreak > vaddrBreak)
  let stdinLoadBreak ← allocateRegion loadVaddrBreak config.stdinSize
  let stdoutLoadBreak ← allocateRegion stdinLoadBreak config.stdoutMaxSize
  let stderrLoadBreak ← allocateRegion stdoutLoadBreak config.stderrMaxSize
  let ibLoadBreak ← allocateRegion stderrLoadBreak config.ibSize
  let obLoadBreak ← allocateRegion ibLoadBreak config.obSize
  return {
    ehdr := h
    loadVaddrStart := F.loadVaddrStart
    loadVaddrBreak
    stdinLoadBreak
    stdoutLoadBreak
    stderrLoadBreak
    ibLoadBreak
    obLoadBreak }

/-- The whole layout. -/
structure Layout extends Regions where
  elfImageLoadBreak : UInt64
  specialRegionBreak : UInt64
deriving DecidableEq

/-- The page of random bytes is the last region of the 64-bit loader. -/
def Layout.randomBytesLoadVaddr (l : Layout) : UInt64 := l.elfImageLoadBreak
def Layout.randomBytesLoadBreak (l : Layout) : UInt64 := l.specialRegionBreak

/-- `load_elf64` up to the page flags. -/
def layout64 (buf : Mem) (len : UInt32) (config : AppConfig) (vaddrBreak : UInt64) :
    Option Layout := do
  let r ← regions elf64 buf len config vaddrBreak
  let elfImageLoadBreak ← allocatePage r.elfImageLoadVaddr
  let randomBytesLoadBreak ← allocatePage elfImageLoadBreak
  reject (randomBytesLoadBreak < r.specialRegionVaddr)
  reject (randomBytesLoadBreak > vaddrBreak)
  return { r with elfImageLoadBreak, specialRegionBreak := randomBytesLoadBreak }

/-- `load_elf32` up to the page flags: the image comes after the check of the special region. -/
def layout32 (buf : Mem) (len : UInt32) (config : AppConfig) (vaddrBreak : UInt64) :
    Option Layout := do
  let r ← regions elf32 buf len config vaddrBreak
  let specialRegionBreak := r.obLoadBreak
  reject (specialRegionBreak < r.specialRegionVaddr)
  reject (specialRegionBreak > vaddrBreak)
  let elfImageLoadBreak ← allocatePage r.elfImageLoadVaddr
  reject (r.loadVaddrStart > 0x100000000)
  reject (specialRegionBreak > 0x100000000)
  return { r with elfImageLoadBreak, specialRegionBreak }

/-! ### The stack

A stack is the list of its bytes from the stack pointer up to `load_vaddr_break`.
-/

/-- The `n` bytes of a value, the lowest one first. -/
def le (n v : Nat) : List UInt8 := (List.range n).map (Mem.byteLE v)

def pushq (stack : List UInt8) (val : UInt64) : List UInt8 := le 8 val.toNat ++ stack

/-- The value is truncated to 32 bits. -/
def pushl (stack : List UInt8) (val : UInt64) : List UInt8 := le 4 val.toNat ++ stack

/-- `DuckInfo_t` as it is before the run; `DuckInfo32_t` has the same fields. -/
structure DuckInfo where
  stdinPtr : UInt64
  stdinSize : UInt64
  stdoutPtr : UInt64
  stdoutLimit : UInt64
  stderrPtr : UInt64
  stderrLimit : UInt64
  ibPtr : UInt64
  ibLimit : UInt64
  obPtr : UInt64
  obLimit : UInt64
  tscFrequency : UInt64
deriving DecidableEq

/-- `ABI::version`. -/
def abiVersion : UInt64 := 40

namespace DuckInfo

/-- The fields before `tsc_frequency`; both output sizes start at 0. -/
def words (d : DuckInfo) : List UInt64 :=
  [abiVersion, d.stdinPtr, d.stdinSize, d.stdoutPtr, d.stdoutLimit, 0, d.stderrPtr, d.stderrLimit,
    0,
    d.ibPtr, d.ibLimit, d.obPtr, d.obLimit]

/-- `DuckInfo_t`, 112 bytes. -/
def bytes64 (d : DuckInfo) : List UInt8 :=
  (d.words.flatMap fun w => le 8 w.toNat) ++ le 8 d.tscFrequency.toNat

/-- `DuckInfo32_t`, 60 bytes: the fields truncated to 32 bits, but a 64-bit frequency. -/
def bytes32 (d : DuckInfo) : List UInt8 :=
  (d.words.flatMap fun w => le 4 w.toNat) ++ le 8 d.tscFrequency.toNat

end DuckInfo

def duckInfo (r : Regions) (config : AppConfig) (tscFreq : UInt64) : DuckInfo where
  stdinPtr := r.stdinLoadVaddr
  stdinSize := config.stdinSize
  stdoutPtr := r.stdoutLoadVaddr
  stdoutLimit := config.stdoutMaxSize
  stderrPtr := r.stderrLoadVaddr
  stderrLimit := config.stderrMaxSize
  ibPtr := r.ibLoadVaddr
  ibLimit := config.ibSize
  obPtr := r.obLoadVaddr
  obLimit := config.obSize
  tscFrequency := tscFreq

/-- `ABI::AT_DUCK` and the keys of `sys/auxv.h`. -/
def atDuck : UInt64 := 0x6b637564
def atPhdr : UInt64 := 3
def atPhent : UInt64 := 4
def atPhnum : UInt64 := 5
def atPagesz : UInt64 := 6
def atBase : UInt64 := 7
def atEntry : UInt64 := 9
def atUid : UInt64 := 11
def atEuid : UInt64 := 12
def atGid : UInt64 := 13
def atEgid : UInt64 := 14
def atHwcap : UInt64 := 16
def atSecure : UInt64 := 23
def atRandom : UInt64 := 25

/-- The entries that both loaders push for the image of the ELF headers. -/
def elfHeaderEntries (r : Regions) : List UInt64 :=
  [r.elfImageLoadVaddr, atBase, r.elfImageLoadVaddr + r.ehdr.phoff, atPhdr, r.ehdr.entry, atEntry,
    r.ehdr.phentsize, atPhent, r.ehdr.phnum, atPhnum]

/-- The address of the `DuckInfo`: it is pushed first. -/
def duckInfoPtr (r : Regions) (info : List UInt8) : UInt64 :=
  r.loadVaddrBreak - UInt64.ofNat info.length

def stack64 (l : Layout) (config : AppConfig) (tscFreq : UInt64) : List UInt8 :=
  let info := (duckInfo l.toRegions config tscFreq).bytes64
  let entries := [0, pageSize, atPagesz, duckInfoPtr l.toRegions info, atDuck]
    ++ elfHeaderEntries l.toRegions
    ++ [0xbfebfbff, atHwcap, 2, atHwcap, 1000, atUid, 1000, atEuid, 1000, atGid, 1000, atEgid,
      0, atSecure, l.randomBytesLoadVaddr, atRandom]
  -- the end of the environment, the end of the arguments and their count
  let arguments := [0, 0, 0]
  (entries ++ arguments).foldl pushq info

/-- The header entries are pushed with `pushq` here as well. -/
def stack32 (l : Layout) (config : AppConfig) (tscFreq : UInt64) : List UInt8 :=
  let info := (duckInfo l.toRegions config tscFreq).bytes32
  let entries := [0, pageSize, atPagesz, duckInfoPtr l.toRegions info, atDuck].foldl pushl info
  let headers := (elfHeaderEntries l.toRegions).foldl pushq entries
  [0, 0, 0].foldl pushl headers

/-- The stack pointer after the pushes, and after it was rounded down to 16 bytes. -/
def stackPointer (r : Regions) (stack : List UInt8) : UInt64 :=
  r.loadVaddrBreak - UInt64.ofNat stack.length

def alignedStackPointer (r : Regions) (stack : List UInt8) : UInt64 :=
  roundDown (stackPointer r stack) 16

/-! ### What the loaders do -/

/-- A page loop or a copy into the user's memory. -/
inductive Effect where
  | pages (op : PageOp) (start stop : UInt64)
  | copy (dst : UInt64) (n : Nat) (src : Nat → UInt8)

namespace Effect

/-- `none` is a failed assert of a page loop. -/
def run : Effect → Machine → Option Machine
  | pages op start stop, s => op.run start stop s
  | copy dst n src, s => some { s with mem := s.mem.put dst.toNat n src }

/-- A copy of a list of bytes. -/
def copyBytes (dst : UInt64) (bytes : List UInt8) : Effect :=
  copy dst bytes.length fun i => bytes.getD i 0

end Effect

/-- Perform effects in order. -/
def exec : List Effect → Machine → Option Machine
  | [], s => some s
  | e :: es, s => (e.run s).bind (exec es)

/-- The program headers of a file. -/
def phdrs (F : Format) (buf : Mem) (h : Ehdr) : List Phdr :=
  (List.range h.phnum.toNat).map fun i => F.phdr buf (phdrOffset h i).toNat

/-- The user's pages between the kernel's, all of them zero. -/
def flagEffects (l : Layout) (vaddrBreak : UInt64) : List Effect :=
  [.pages setPageFlagsKernel kernelBreak l.loadVaddrStart,
    .pages setPageFlagsUserWritable l.loadVaddrStart l.specialRegionBreak,
    .pages setPageFlagsKernel l.specialRegionBreak vaddrBreak,
    .pages clearDuckWrittenPages l.loadVaddrStart l.specialRegionBreak]

/-- The second loop over the program headers. -/
def segmentEffects (buf : Mem) (ph : Phdr) : List Effect :=
  if ph.type = 1 ∧ ph.filesz ≠ 0 then
    [.copy ph.vaddr ph.filesz.toNat fun i => buf (ph.offset.toNat + i),
      .pages setDuckWritten (roundDown ph.vaddr pageSize) (roundUp (ph.vaddr + ph.filesz) pageSize)]
  else []

/-- A region of the request that the program may read: `stdin` and the input buffer. -/
def readonlyEffects (start stop : UInt64) (size : Nat) (src : Nat → UInt8) : List Effect :=
  [.copy start size src, .pages setDuckWritten start stop,
    .pages setPageFlagsUserReadonly start stop]

def stdinEffects (r : Regions) (config : AppConfig) : List Effect :=
  readonlyEffects r.stdinLoadVaddr r.stdinLoadBreak config.stdinSize.toNat config.stdinPtr

def ibEffects (r : Regions) (config : AppConfig) : List Effect :=
  readonlyEffects r.ibLoadVaddr r.ibLoadBreak config.ibSize.toNat config.ibPtr

def obEffects (r : Regions) (config : AppConfig) : List Effect :=
  if config.obNeedClear then []
  else
    [.pages setDuckWritten r.obLoadVaddr (r.obLoadVaddr + roundUp config.obSize pageSize),
      .copy r.obLoadVaddr config.obSize.toNat config.obPtr]

/-- The first page of the file, or all of a shorter file. -/
def elfImageEffects (l : Layout) (buf : Mem) (len : UInt32) : List Effect :=
  readonlyEffects l.elfImageLoadVaddr l.elfImageLoadBreak (min len.toNat 4096) buf

/-- The two words that `AT_RANDOM` points to. -/
def randomBytes : List UInt8 := le 8 0xf44c01c8 ++ le 8 0x22b64652

def randomBytesEffects (l : Layout) : List Effect :=
  readonlyEffects l.randomBytesLoadVaddr l.randomBytesLoadBreak randomBytes.length
    fun i => randomBytes.getD i 0

/-- Store the stack; when its address is not a multiple of 16, move everything below the
`DuckInfo`, which has `infoSize` bytes, down to one that is. -/
def stackEffects (r : Regions) (stack : List UInt8) (infoSize : Nat) : List Effect :=
  let rsp := stackPointer r stack
  [Effect.copyBytes rsp stack]
    ++ (if rsp % 16 ≠ 0 then
          [Effect.copyBytes (alignedStackPointer r stack) (stack.take (stack.length - infoSize))]
        else [])
    ++ [.pages setDuckWritten (r.loadVaddrBreak - pageSize) r.loadVaddrBreak]

/-- The third loop over the program headers: the page flags of one segment. -/
def segmentFlagEffects (ph : Phdr) : List Effect :=
  if ph.type = 1 then
    let start := roundDown ph.vaddr pageSize
    let stop := roundUp (ph.vaddr + ph.memsz) pageSize
    [.pages setPageFlagsUserReadonly start stop]
      ++ (if ph.flags &&& 1 ≠ 0 then [.pages addPageFlagsExecutable start stop] else [])
      ++ (if ph.flags &&& 2 ≠ 0 then [.pages addPageFlagsWritable start stop] else [])
  else []

/-- Everything `load_elf64` does after the last check. -/
def effects64 (buf : Mem) (len : UInt32) (config : AppConfig) (tscFreq vaddrBreak : UInt64)
    (l : Layout) : List Effect :=
  let headers := phdrs elf64 buf l.ehdr
  flagEffects l vaddrBreak ++ headers.flatMap (segmentEffects buf)
    ++ stdinEffects l.toRegions config ++ ibEffects l.toRegions config
    ++ obEffects l.toRegions config ++ elfImageEffects l buf len ++ randomBytesEffects l
    ++ stackEffects l.toRegions (stack64 l config tscFreq) 112
    ++ headers.flatMap segmentFlagEffects
    ++ [.pages clearAccessAndDirtyFlags l.loadVaddrStart l.specialRegionBreak]

/-- Everything `load_elf32` does after the last check. -/
def effects32 (buf : Mem) (len : UInt32) (config : AppConfig) (tscFreq vaddrBreak : UInt64)
    (l : Layout) : List Effect :=
  let headers := phdrs elf32 buf l.ehdr
  flagEffects l vaddrBreak ++ headers.flatMap (segmentEffects buf)
    ++ stdinEffects l.toRegions config ++ ibEffects l.toRegions config
    ++ obEffects l.toRegions config ++ elfImageEffects l buf len
    ++ stackEffects l.toRegions (stack32 l config tscFreq) 60
    ++ headers.flatMap segmentFlagEffects
    ++ [.pages clearAccessAndDirtyFlags l.loadVaddrStart l.specialRegionBreak]

/-- `App`; `duckinfo_ptr` and `duckinfo32_ptr` are the class and one address. -/
structure App where
  elfClass : ElfClass
  entry : UInt64
  rsp : UInt64
  startAddr : UInt64
  breakAddr : UInt64
  specialRegionStartAddr : UInt64
  specialRegionBreakAddr : UInt64
  stdinStartAddr : UInt64
  stdinBreakAddr : UInt64
  duckinfoOrig : DuckInfo
  duckinfoPtr : UInt64
deriving DecidableEq

def app (elfClass : ElfClass) (l : Layout) (info : DuckInfo)
    (infoBytes stack : List UInt8) : App where
  elfClass := elfClass
  entry := l.ehdr.entry
  rsp := alignedStackPointer l.toRegions stack
  startAddr := l.loadVaddrStart
  breakAddr := l.loadVaddrBreak
  specialRegionStartAddr := l.specialRegionVaddr
  specialRegionBreakAddr := l.specialRegionBreak
  stdinStartAddr := l.stdinLoadVaddr
  stdinBreakAddr := l.stdinLoadBreak
  duckinfoOrig := info
  duckinfoPtr := Elf.duckInfoPtr l.toRegions infoBytes

/-- What a loader answers: `none` is `false`, and otherwise the application and what the loader
has done. -/
abbrev Loaded := Option (App × List Effect)

def loadElf64 (buf : Mem) (len : UInt32) (config : AppConfig) (tscFreq vaddrBreak : UInt64) :
    Loaded := do
  let l ← layout64 buf len config vaddrBreak
  let info := duckInfo l.toRegions config tscFreq
  return (app .elf64 l info info.bytes64 (stack64 l config tscFreq),
    effects64 buf len config tscFreq vaddrBreak l)

def loadElf32 (buf : Mem) (len : UInt32) (config : AppConfig) (tscFreq vaddrBreak : UInt64) :
    Loaded := do
  let l ← layout32 buf len config vaddrBreak
  let info := duckInfo l.toRegions config tscFreq
  return (app .elf32 l info info.bytes32 (stack32 l config tscFreq),
    effects32 buf len config tscFreq vaddrBreak l)

def load (buf : Mem) (len : UInt32) (config : AppConfig) (tscFreq vaddrBreak : UInt64) : Loaded :=
  if len < 52 then none
  else if buf 4 = 2 then loadElf64 buf len config tscFreq vaddrBreak
  else if buf 4 = 1 then loadElf32 buf len config tscFreq vaddrBreak
  else none

/-! ### Entering a program

`run_user_64` and `run_user_32` put the entry and the stack pointer into a trap frame and
return through it.
-/

/-- The part of `Trapframe` that the program determines. -/
structure Trapframe where
  rip : UInt64
  rsp : UInt64

def makeTrapframe (rip rsp : UInt64) : Trapframe := { rip, rsp }

def App.trapframe (a : App) : Trapframe := makeTrapframe a.entry a.rsp

/-- Bits 47 to 63 of an address are equal. -/
def canonical (addr : UInt64) : Bool := addr < 0x800000000000 ∨ addr ≥ 0xffff800000000000

/-- `sysretq` to an address that is not canonical faults in ring 0, when the stack pointer is the
program's already; the return to a 32-bit program loads 32 bits of the address. -/
def sysretFaults (elfClass : ElfClass) (tf : Trapframe) : Bool :=
  match elfClass with
  | .elf64 => !canonical tf.rip
  | .elf32 => false

/-! ### The run of a program

A program is the list of its memory accesses, in any order and with any values.  An
access that the page flags do not allow ends the program; leaving it out of the list
has the same effect on memory.
-/

inductive Access where
  | read (addr : Nat)
  | write (addr : Nat) (val : UInt8)

def userReadable (p1 : PTE) : Bool := p1 &&& PTE.present ≠ 0 ∧ p1 &&& PTE.user ≠ 0

def userWritable (p1 : PTE) : Bool := userReadable p1 ∧ p1 &&& PTE.writable ≠ 0

/-- An access and the bits the processor sets for it. -/
def Access.run : Access → Machine → Machine
  | read addr, s =>
    if userReadable (s.p1 (addr / 4096)) then
      { s with p1 := Function.update s.p1 (addr / 4096) (s.p1 (addr / 4096) ||| PTE.accessed) }
    else s
  | write addr val, s =>
    if userWritable (s.p1 (addr / 4096)) then
      { s with
        mem := Function.update s.mem addr val
        p1 := Function.update s.p1 (addr / 4096)
          (s.p1 (addr / 4096) ||| PTE.accessed ||| PTE.dirty) }
    else s

def runUser (accesses : List Access) (s : Machine) : Machine :=
  accesses.foldl (fun s a => a.run s) s

/-- What `ELF::run` reads from the machine after the program; the counters and the trap are
inputs of the caller. -/
structure RunOutput where
  memoryBytes : UInt64
  memoryKb : UInt64
  memoryKbAccessed : UInt64
  stdoutPtr : UInt64
  stdoutSize : UInt64
  stderrPtr : UInt64
  stderrSize : UInt64
  obPtr : UInt64

/-- `stdout_size` and `stderr_size` of the program's `DuckInfo`, which it may have overwritten. -/
def stdoutSizeField (a : App) (m : Mem) : UInt64 :=
  match a.elfClass with
  | .elf64 => m.read64 (a.duckinfoPtr.toNat + 40)
  | .elf32 => (m.read32 (a.duckinfoPtr.toNat + 20)).toUInt64

def stderrSizeField (a : App) (m : Mem) : UInt64 :=
  match a.elfClass with
  | .elf64 => m.read64 (a.duckinfoPtr.toNat + 64)
  | .elf32 => (m.read32 (a.duckinfoPtr.toNat + 32)).toUInt64

/-- `ELF::run` with a given program. -/
def run (a : App) (accesses : List Access) (s : Machine) : Option (RunOutput × Machine) := do
  let s := runUser accesses s
  let s ← setDuckWrittenByDirty.run a.startAddr a.specialRegionBreakAddr s
  let memoryBytes := pageSize * countDirtyPages a.startAddr a.specialRegionBreakAddr s
  let tempPages := countAccessedPages a.startAddr a.specialRegionBreakAddr s
    - countAccessedPages a.stdinStartAddr a.stdinBreakAddr s
  return ({
    memoryBytes
    memoryKb := memoryBytes / 1024
    memoryKbAccessed := pageSize * tempPages / 1024
    stdoutPtr := a.duckinfoOrig.stdoutPtr
    stdoutSize := min a.duckinfoOrig.stdoutLimit (stdoutSizeField a s.mem)
    stderrPtr := a.duckinfoOrig.stderrPtr
    stderrSize := min a.duckinfoOrig.stderrLimit (stderrSizeField a s.mem)
    obPtr := a.duckinfoOrig.obPtr }, s)

end Elf

end JudgeDuck
