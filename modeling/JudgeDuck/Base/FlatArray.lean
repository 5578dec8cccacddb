/-
A block of memory as a flat array.

`overwrite` replaces a part of a list and `slice` is a part of it; both are what a
`put` into a block and a read from it look like from outside.
-/
import JudgeDuck.Base.Mem

namespace FlatArray

variable {α : Type}

/-- The `len` elements from `off` on. -/
def slice (xs : List α) (off len : Nat) : List α := (xs.drop off).take len

/-- The list with `new` from `off` on. -/
def overwrite (xs : List α) (off : Nat) (new : List α) : List α :=
  xs.take off ++ new ++ xs.drop (off + new.length)

theorem length_overwrite {xs new : List α} {off : Nat} (h : off + new.length ≤ xs.length) :
    (overwrite xs off new).length = xs.length := by
  simp only [overwrite, List.length_append, List.length_take, List.length_drop]
  omega

/-- What was written is read back. -/
theorem slice_overwrite {xs new : List α} {off : Nat} (h : off ≤ xs.length) :
    slice (overwrite xs off new) off new.length = new := by
  have htake : (xs.take off).length = off := List.length_take_of_le h
  rw [slice, overwrite, List.append_assoc, List.drop_left' htake, List.take_left' rfl]

theorem bytes_slice (m : Mem) {a n off len : Nat} (h : off + len ≤ n) :
    slice (m.bytes a n) off len = m.bytes (a + off) len := by
  obtain ⟨k, rfl⟩ := Nat.exists_eq_add_of_le h
  have hoff : (m.bytes a off).length = off := m.length_bytes a off
  have hlen : (m.bytes (a + off) len).length = len := m.length_bytes (a + off) len
  rw [slice, Nat.add_assoc, Mem.bytes_add, List.drop_left' hoff, Mem.bytes_add,
    List.take_left' hlen]

/-- An update inside the block changes its own part only. -/
theorem bytes_put (m : Mem) {a n off len : Nat} (f : Nat → UInt8) (h : off + len ≤ n) :
    (m.put (a + off) len f).bytes a n = overwrite (m.bytes a n) off ((List.range len).map f) := by
  obtain ⟨k, rfl⟩ := Nat.exists_eq_add_of_le h
  have hbefore : (m.put (a + off) len f).bytes a off = m.bytes a off :=
    Mem.bytes_congr fun x _ hx => Mem.put_out (by omega)
  have hpart : (m.put (a + off) len f).bytes (a + off) len = (List.range len).map f :=
    List.map_congr_left fun i hi => Mem.put_add (List.mem_range.mp hi)
  have hafter : (m.put (a + off) len f).bytes (a + (off + len)) k = m.bytes (a + (off + len)) k :=
    Mem.bytes_congr fun x hx _ => Mem.put_out (by omega)
  have htake : (m.bytes a off ++ (m.bytes (a + off) len ++ m.bytes (a + (off + len)) k)).take off
      = m.bytes a off := List.take_left' (m.length_bytes a off)
  have hdrop : (m.bytes a (off + len) ++ m.bytes (a + (off + len)) k).drop (off + len)
      = m.bytes (a + (off + len)) k := List.drop_left' (m.length_bytes a (off + len))
  rw [overwrite, List.length_map, List.length_range, Mem.bytes_add _ a (off + len),
    Mem.bytes_add _ a off, hbefore, hpart, hafter, Mem.bytes_add m a (off + len), hdrop,
    Mem.bytes_add m a off, List.append_assoc (m.bytes a off) (m.bytes (a + off) len), htake,
    List.append_assoc]

end FlatArray
