/-
Arrays of fixed-size records in a flat memory.

`Record α` is a byte encoding of `α`: how to read one, how to write one, and the
three laws that make arrays of them behave: a read depends only on its own bytes
(and follows them when they are moved), a write touches only its own bytes, and
what was written is read back.  The laws are fields, so an instance cannot be
built without them, and products of records are records.

The two array updates of a C program that keeps an array sorted are here: the
assignment of one slot, and the `memmove` that opens a slot in the middle.
-/
import JudgeDuck.Base.Mem

/-- A fixed-size encoding of the values of a type in memory. -/
class Record (α : Type) where
  size : Nat
  read : Mem → Nat → α
  write : Mem → Nat → α → Mem
  read_shift : ∀ {m m' : Mem} {a b : Nat},
    (∀ i, i < size → m' (a + i) = m (b + i)) → read m' a = read m b
  write_out : ∀ {m : Mem} {a : Nat} {v : α} {x : Nat}, x < a ∨ a + size ≤ x → write m a v x = m x
  read_write : ∀ (m : Mem) (a : Nat) (v : α), read (write m a v) a = v

namespace Record

instance : Record UInt64 where
  size := 8
  read := Mem.read64
  write := Mem.write64
  read_shift := Mem.read64_shift
  write_out := Mem.write64_out
  read_write := Mem.read64_write64_self

/-- Two records one after the other. -/
instance {α β : Type} [Record α] [Record β] : Record (α × β) where
  size := size α + size β
  read m a := (read m a, read m (a + size α))
  write m a v := write (write m a v.1) (a + size α) v.2
  read_shift {m m' a b} h := by
    have h1 : read (α := α) m' a = read m b := read_shift fun i hi => h i (by omega)
    have h2 : read (α := β) m' (a + size α) = read m (b + size α) := by
      refine read_shift fun i hi => ?_
      rw [Nat.add_assoc, Nat.add_assoc]
      exact h _ (by omega)
    rw [h1, h2]
  write_out {m a v x} h := by
    rw [write_out (by omega), write_out (by omega)]
  read_write m a v := by
    refine Prod.ext ?_ (read_write _ _ _)
    show read (write (write m a v.1) (a + size α) v.2) a = v.1
    rw [read_shift (b := a) fun i hi => write_out (by omega), read_write]

/-- A type stored as another one. -/
@[reducible] def ofEquiv {α β : Type} [Record β] (e : α ≃ β) : Record α where
  size := size β
  read m a := e.symm (read m a)
  write m a v := write m a (e v)
  read_shift h := by rw [read_shift h]
  write_out h := write_out h
  read_write m a v := by rw [read_write, Equiv.symm_apply_apply]

end Record

namespace Mem

variable {α : Type} [Record α]

/-- `base[i]` for an array of records at `base`. -/
def get (α : Type) [Record α] (m : Mem) (base i : Nat) : α :=
  Record.read m (base + Record.size α * i)

/-- `base[i] = v`. -/
def set (m : Mem) (base i : Nat) (v : α) : Mem :=
  Record.write m (base + Record.size α * i) v

/-- `memmove(base + idx + 1, base + idx, (n - idx) * sizeof(*base))`: open slot `idx` of `n`. -/
def openSlot (α : Type) [Record α] (m : Mem) (base n idx : Nat) : Mem :=
  m.memcpy (base + Record.size α * (idx + 1)) (base + Record.size α * idx)
    ((n - idx) * Record.size α)

/-- A slot below another ends before it starts. -/
theorem slot_le (s : Nat) {i j : Nat} (h : i < j) : s * i + s ≤ s * j := by
  have := Nat.mul_le_mul_left s (Nat.succ_le_of_lt h)
  rwa [Nat.mul_succ] at this

theorem get_congr {m m' : Mem} {base i : Nat}
    (h : ∀ x, base + Record.size α * i ≤ x → x < base + Record.size α * i + Record.size α →
      m' x = m x) : m'.get α base i = m.get α base i :=
  Record.read_shift fun k hk => h _ (by omega) (by omega)

@[simp] theorem get_set_self (m : Mem) (base i : Nat) (v : α) :
    (m.set base i v).get α base i = v := Record.read_write _ _ _

theorem set_out {m : Mem} {base i x : Nat} {v : α}
    (h : x < base + Record.size α * i ∨ base + Record.size α * i + Record.size α ≤ x) :
    m.set base i v x = m x := Record.write_out h

/-- Assigning a slot changes nothing outside the array. -/
theorem set_out_array {m : Mem} {base i n x : Nat} {v : α} (hi : i < n)
    (h : x < base ∨ base + Record.size α * n ≤ x) : m.set base i v x = m x := by
  have := slot_le (Record.size α) hi
  exact set_out (by omega)

theorem get_set_ne {m : Mem} {base i j : Nat} {v : α} (h : i ≠ j) :
    (m.set base i v).get α base j = m.get α base j := by
  refine get_congr fun x h1 h2 => set_out ?_
  rcases Nat.lt_or_gt_of_ne h with hlt | hgt
  · have := slot_le (Record.size α) hlt
    omega
  · have := slot_le (Record.size α) hgt
    omega

theorem get_set {m : Mem} {base i j : Nat} {v : α} :
    (m.set base i v).get α base j = if j = i then v else m.get α base j := by
  by_cases h : j = i
  · rw [if_pos h, h, get_set_self]
  · rw [if_neg h, get_set_ne fun hc => h hc.symm]

/-! ### Opening a slot -/

theorem openSlot_span {n idx : Nat} (h : idx ≤ n) :
    Record.size α * (idx + 1) + (n - idx) * Record.size α = Record.size α * (n + 1) := by
  rw [Nat.mul_comm (n - idx), ← Nat.mul_add]
  congr 1
  omega

/-- Opening a slot changes nothing outside the array with one more slot. -/
theorem openSlot_out {m : Mem} {base n idx x : Nat} (hidx : idx ≤ n)
    (h : x < base ∨ base + Record.size α * (n + 1) ≤ x) : m.openSlot α base n idx x = m x := by
  have := openSlot_span (α := α) hidx
  exact memcpy_out (by omega)

theorem get_openSlot_lt {m : Mem} {base n idx j : Nat} (h : j < idx) :
    (m.openSlot α base n idx).get α base j = m.get α base j := by
  refine get_congr fun x h1 h2 => memcpy_out (Or.inl ?_)
  have h3 := slot_le (Record.size α) h
  have h4 := slot_le (Record.size α) (show idx < idx + 1 by omega)
  omega

theorem get_openSlot_gt {m : Mem} {base n idx j : Nat} (h1 : idx ≤ j) (h2 : j < n) :
    (m.openSlot α base n idx).get α base (j + 1) = m.get α base j := by
  refine Record.read_shift fun k hk => ?_
  have hj : Record.size α * idx ≤ Record.size α * j := Nat.mul_le_mul_left _ h1
  have hj1 : Record.size α * (j + 1) = Record.size α * j + Record.size α := Nat.mul_succ ..
  have hi1 : Record.size α * (idx + 1) = Record.size α * idx + Record.size α := Nat.mul_succ ..
  have hend := slot_le (Record.size α) h2
  have hspan := openSlot_span (α := α) (show idx ≤ n by omega)
  have hn1 : Record.size α * (n + 1) = Record.size α * n + Record.size α := Nat.mul_succ ..
  -- the byte sits at this offset of the block that moves
  have hoff : base + Record.size α * (j + 1) + k
      = base + Record.size α * (idx + 1) + (Record.size α * j - Record.size α * idx + k) := by
    omega
  have hsrc : base + Record.size α * idx + (Record.size α * j - Record.size α * idx + k)
      = base + Record.size α * j + k := by omega
  rw [hoff, openSlot, memcpy_add (by omega), hsrc]

/-- The array as a list. -/
def toList (α : Type) [Record α] (m : Mem) (base n : Nat) : List α :=
  (List.range n).map (m.get α base)

@[simp] theorem length_toList (m : Mem) (base n : Nat) : (m.toList α base n).length = n := by
  simp [toList]

@[simp] theorem getElem_toList (m : Mem) (base n i : Nat) (h : i < (m.toList α base n).length) :
    (m.toList α base n)[i] = m.get α base i := by
  simp [toList]

end Mem
