/-
Address translation of the x86-64, with four levels of tables.

Physical memory is given by its words, `word a` for the eight bytes at `a`.  The level of
an entry is 3 in the topmost table and 0 in the lowest.
-/
import Mathlib

namespace Paging

/-- The number of an entry in the table of its level. -/
def index (va : UInt64) (level : Nat) : Nat := va.toNat / 2 ^ (12 + 9 * level) % 512

/-- Bits 47 to 63 are all the same. -/
def Canonical (va : UInt64) : Prop := va.toNat < 2 ^ 47 ∨ 2 ^ 64 - 2 ^ 47 ≤ va.toNat

instance (va : UInt64) : Decidable (Canonical va) := inferInstanceAs (Decidable (_ ∨ _))

/-! ### Entries -/

def present (e : UInt64) : Bool := e.toNat % 2 = 1

/-- The bit PS, in the upper three levels. -/
def huge (e : UInt64) : Bool := e.toNat / 2 ^ 7 % 2 = 1

/-- The address in bits `k` to 51. -/
def frame (k : Nat) (e : UInt64) : Nat := e.toNat / 2 ^ k % 2 ^ (52 - k) * 2 ^ k

/-- The entry leads to a table. -/
structure IsTable (e : UInt64) : Prop where
  present : present e = true
  huge : huge e = false

/-! ### Translation -/

variable (word : Nat → UInt64)

/-- What the processor does with an entry of a level: a page ends the walk, with the lower bits of
the address as offset, and a table goes on. -/
def walk (va : UInt64) : Nat → Nat → Option Nat
  | 0, table =>
    let e := word (table + 8 * index va 0)
    if present e then some (frame 12 e + va.toNat % 2 ^ 12) else none
  | level + 1, table =>
    let e := word (table + 8 * index va (level + 1))
    if !present e then none
    else if huge e then
      some (frame (12 + 9 * (level + 1)) e + va.toNat % 2 ^ (12 + 9 * (level + 1)))
    else walk va level (frame 12 e)

/-- The physical address for a virtual one; `p4` is the address in CR3.  The bit PS is reserved in
the topmost level. -/
def translate (p4 : Nat) (va : UInt64) : Option Nat :=
  if Canonical va ∧ huge (word (p4 + 8 * index va 3)) = false then walk word va 3 p4 else none

variable {word} {va : UInt64} {i table level : Nat}

/-- One step down, through entry `i`. -/
theorem walk_table (hi : index va (level + 1) = i) (h : IsTable (word (table + 8 * i))) :
    walk word va (level + 1) table = walk word va level (frame 12 (word (table + 8 * i))) := by
  rw [walk, hi, h.present, h.huge]
  rfl

theorem walk_page (hi : index va 0 = i) (h : present (word (table + 8 * i)) = true) :
    walk word va 0 table = some (frame 12 (word (table + 8 * i)) + va.toNat % 2 ^ 12) := by
  rw [walk, hi, if_pos h]

/-- An address by the numbers of its four entries and its offset. -/
structure Fields (va : UInt64) (i3 i2 i1 i0 offset : Nat) : Prop where
  canonical : Canonical va
  index3 : index va 3 = i3
  index2 : index va 2 = i2
  index1 : index va 1 = i1
  index0 : index va 0 = i0
  offset : va.toNat % 2 ^ 12 = offset

/-- Three tables and a page. -/
theorem translate_fields {i3 i2 i1 i0 offset p4 t3 t2 t1 : Nat}
    (hf : Fields va i3 i2 i1 i0 offset)
    (h3 : IsTable (word (p4 + 8 * i3))) (ht3 : frame 12 (word (p4 + 8 * i3)) = t3)
    (h2 : IsTable (word (t3 + 8 * i2))) (ht2 : frame 12 (word (t3 + 8 * i2)) = t2)
    (h1 : IsTable (word (t2 + 8 * i1))) (ht1 : frame 12 (word (t2 + 8 * i1)) = t1)
    (h0 : present (word (t1 + 8 * i0)) = true) :
    translate word p4 va = some (frame 12 (word (t1 + 8 * i0)) + offset) := by
  rw [translate, if_pos ⟨hf.canonical, by rw [hf.index3]; exact h3.huge⟩,
    walk_table hf.index3 h3, ht3, walk_table hf.index2 h2, ht2, walk_table hf.index1 h1, ht1,
    walk_page hf.index0 h0, hf.offset]

theorem index_lt (va : UInt64) (level : Nat) : index va level < 512 := Nat.mod_lt _ (by decide)

theorem frame_mod (e : UInt64) : frame 12 e % 4096 = 0 := Nat.mul_mod_left _ _

end Paging
