/-
`lib/multiboot2_loader.cpp`: the memory map that the boot loader hands over.

The entries are laid one behind the other, at a distance that the map itself gives.  All
loops have fuel; `none` is a failed assert, or not enough of it.
-/
import JudgeDuck.Base.Mem
import JudgeDuck.Model.Memory

namespace JudgeDuck.Multiboot

open Memory Utils

/-- `multiboot_mmap_entry`. -/
structure MmapEntry where
  addr : UInt64
  len : UInt64
  type : UInt32

/-- `multiboot_tag_mmap`, with its address. -/
structure MmapTag where
  mmap : UInt64
  size : UInt32
  entrySize : UInt32

/-- `MULTIBOOT_MEMORY_AVAILABLE`. -/
def memoryAvailable : UInt32 := 1

def readEntry (m : Mem) (e : UInt64) : MmapEntry where
  addr := m.read64 e.toNat
  len := m.read64 (e + 8).toNat
  type := m.read32 (e + 16).toNat

/-- The loop over the huge pages of an entry. -/
def registerPages : Nat → UInt64 → UInt64 → HugePages → Option HugePages
  | 0, _, _, _ => none
  | fuel + 1, va, stop, h =>
    if va < stop then (h.register va).bind (registerPages fuel (va + hugePageSize) stop)
    else some h

/-- The body of the loop over the entries; `ebss` is the address behind the kernel. -/
def loadEntry (fuel : Nat) (ebss : UInt64) (e : MmapEntry) (h : HugePages) : Option HugePages :=
  if e.type = memoryAvailable then
    let start := roundUp e.addr hugePageSize
    let stop := roundDown (e.addr + e.len) hugePageSize
    let start := if start < ebss then roundUp ebss hugePageSize else start
    registerPages fuel start stop h
  else some h

/-- The loop over the entries, with fuel for each entry. -/
def loadEntries (pages : Nat) (ebss : UInt64) (m : Mem) (tag : MmapTag) :
    Nat → UInt64 → HugePages → Option HugePages
  | 0, _, _ => none
  | fuel + 1, e, h =>
    if e ≠ tag.mmap + tag.size.toUInt64 then
      (loadEntry pages ebss (readEntry m e) h).bind
        (loadEntries pages ebss m tag fuel (e + tag.entrySize.toUInt64))
    else some h

/-- `load_mmap`; the entries start behind the four words of the tag. -/
def loadMmap (fuel : Nat) (ebss : UInt64) (m : Mem) (tag : MmapTag) (h : HugePages) :
    Option HugePages :=
  loadEntries fuel ebss m tag fuel (tag.mmap + 16) h

end JudgeDuck.Multiboot
