/-
Segment descriptors of the x86.

The fields of a descriptor are scattered over a word of 64 bits.  `Segment.word` is the
word with given fields, and the functions before it are what the processor reads.
-/
import JudgeDuck.Base.Bits

namespace Segment

/-! ### What the processor reads -/

def base (d : UInt64) : Nat := d.toNat / 2 ^ 16 % 2 ^ 24 + d.toNat / 2 ^ 56 % 2 ^ 8 * 2 ^ 24

/-- The 20 bits of the limit. -/
def limit (d : UInt64) : Nat := d.toNat % 2 ^ 16 + d.toNat / 2 ^ 48 % 2 ^ 4 * 2 ^ 16

def type (d : UInt64) : Nat := d.toNat / 2 ^ 40 % 2 ^ 4

/-- The bit S: a code or data segment, no system segment. -/
def isSegment (d : UInt64) : Bool := d.toNat / 2 ^ 44 % 2 = 1

def dpl (d : UInt64) : Nat := d.toNat / 2 ^ 45 % 2 ^ 2

def present (d : UInt64) : Bool := d.toNat / 2 ^ 47 % 2 = 1

/-- The bit D/B. -/
def is32Bit (d : UInt64) : Bool := d.toNat / 2 ^ 54 % 2 = 1

/-- The bit G: the limit counts pages. -/
def granularity (d : UInt64) : Bool := d.toNat / 2 ^ 55 % 2 = 1

/-- The linear address of an offset, outside of 64-bit mode. -/
def linear (d : UInt64) (offset : Nat) : Nat := (base d + offset % 2 ^ 32) % 2 ^ 32

/-- A data segment that may be written and expands upwards, for a ring. -/
structure DataSegment (ring : Nat) (d : UInt64) : Prop where
  present : present d = true
  isSegment : isSegment d = true
  type : type d = 2
  dpl : dpl d = ring
  is32Bit : is32Bit d = true
  granularity : granularity d = true

/-! ### A word with given fields -/

/-- The limit's low bits, the base and the bits from 40 to 55, as numbers. -/
def word (limit16 base flags : Nat) : Nat :=
  limit16 + base % 2 ^ 24 * 2 ^ 16 + flags * 2 ^ 40 + base / 2 ^ 24 * 2 ^ 56

/-- A word that is put together with shifts and masks. -/
theorem toNat_or_word {limit16 b flags : UInt64} (hlimit : limit16.toNat < 2 ^ 16)
    (hb : b.toNat < 2 ^ 32) {f : Nat} (hf : f < 2 ^ 16) (hflags : flags.toNat = f * 2 ^ 40) :
    (limit16 ||| (b &&& 0xffffff) <<< (16 : UInt64) ||| (b >>> (24 : UInt64)) <<< (56 : UInt64) |||
      flags).toNat = word limit16.toNat b.toNat f := by
  have h16 : (16 : UInt64).toNat % 64 = 16 := rfl
  have h24 : (24 : UInt64).toNat % 64 = 24 := rfl
  have h56 : (56 : UInt64).toNat % 64 = 56 := rfl
  have hmask : (0xffffff : UInt64).toNat = 2 ^ 24 - 1 := rfl
  have hlow : ((b &&& 0xffffff) <<< (16 : UInt64)).toNat = b.toNat % 2 ^ 24 * 2 ^ 16 := by
    rw [UInt64.toNat_shiftLeft, h16, UInt64.toNat_and, hmask, Nat.and_two_pow_sub_one_eq_mod,
      Nat.shiftLeft_eq]
    omega
  have hhigh : ((b >>> (24 : UInt64)) <<< (56 : UInt64)).toNat = b.toNat / 2 ^ 24 * 2 ^ 56 := by
    rw [UInt64.toNat_shiftLeft, h56, UInt64.toNat_shiftRight, h24, Nat.shiftLeft_eq,
      Nat.shiftRight_eq_div_pow]
    omega
  have hfirst := Bits.or_field hlimit (b.toNat % 2 ^ 24)
  -- The flags stand below the high byte of the base.
  have hlast : b.toNat / 2 ^ 24 * 2 ^ 56 ||| f * 2 ^ 40
      = (f + b.toNat / 2 ^ 24 * 2 ^ 16) * 2 ^ 40 := by
    rw [Nat.lor_comm, Bits.or_field (by omega)]
    omega
  rw [UInt64.toNat_or, UInt64.toNat_or, UInt64.toNat_or, hlow, hhigh, hflags, hfirst, Nat.lor_assoc,
    hlast, Bits.or_field (by omega), word]
  omega

section

variable {d : UInt64} {limit16 b f : Nat}

theorem base_word (hd : d.toNat = word limit16 b f) (hlimit : limit16 < 2 ^ 16) (hb : b < 2 ^ 32)
    (hf : f < 2 ^ 16) : base d = b := by
  unfold base
  rw [hd, word]
  omega

theorem limit_word_eq (hd : d.toNat = word limit16 b f) (hlimit : limit16 < 2 ^ 16)
    (hf : f < 2 ^ 16) : limit d = limit16 + f / 2 ^ 8 % 2 ^ 4 * 2 ^ 16 := by
  unfold limit
  rw [hd, word]
  omega

theorem limit_word (hd : d.toNat = word limit16 b f) (hlimit : limit16 < 2 ^ 16)
    (hf : f < 2 ^ 16) : limit d % 2 ^ 16 = limit16 := by
  rw [limit_word_eq hd hlimit hf]
  omega

/-- The bits from 40 to 55. -/
theorem flags_word (hd : d.toNat = word limit16 b f) (hlimit : limit16 < 2 ^ 16)
    (hf : f < 2 ^ 16) : d.toNat / 2 ^ 40 % 2 ^ 16 = f := by
  rw [hd, word]
  omega

/-- `0xcf` and `0x92` with the ring between them. -/
theorem dataSegment_word {ring : Nat} (hd : d.toNat = word limit16 b (0xcf92 + ring * 32))
    (hlimit : limit16 < 2 ^ 16) (hring : ring < 4) : DataSegment ring d := by
  have hflags := flags_word hd hlimit (by omega)
  constructor
  · exact decide_eq_true (by omega)
  · exact decide_eq_true (by omega)
  · unfold type
    omega
  · unfold dpl
    omega
  · exact decide_eq_true (by omega)
  · exact decide_eq_true (by omega)

end

end Segment
