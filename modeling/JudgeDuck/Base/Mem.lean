/-
A flat byte-addressed memory.

A memory is a total function from addresses to bytes.  Every update in the
development is one `put`: the `n` bytes from `a` on are replaced by a given
function of the offset and every other byte keeps its value.  Words are
little-endian; `readLE` and the bytes of `byteLE` are inverse, and a word read
depends only on the bytes it covers, so two accesses whose ranges are disjoint
commute with no side condition beyond the disjointness.
-/
import Mathlib

/-- A memory: the byte at every address. -/
abbrev Mem := Nat → UInt8

namespace Mem

/-! ### Updates -/

/-- Replace the `n` bytes from `a` on by `f 0`, `f 1`, ... -/
def put (m : Mem) (a n : Nat) (f : Nat → UInt8) : Mem :=
  fun x => if a ≤ x ∧ x < a + n then f (x - a) else m x

/-- The address range `[a, a + n)`. -/
def Range (a n : Nat) (x : Nat) : Prop := a ≤ x ∧ x < a + n

theorem put_in {m : Mem} {a n x : Nat} {f : Nat → UInt8} (h1 : a ≤ x) (h2 : x < a + n) :
    m.put a n f x = f (x - a) := by
  simp [put, h1, h2]

theorem put_add {m : Mem} {a n i : Nat} {f : Nat → UInt8} (h : i < n) :
    m.put a n f (a + i) = f i := by
  rw [put_in (Nat.le_add_right a i) (by omega)]
  congr 1
  omega

theorem put_out {m : Mem} {a n x : Nat} {f : Nat → UInt8} (h : x < a ∨ a + n ≤ x) :
    m.put a n f x = m x := by
  have hn : ¬(a ≤ x ∧ x < a + n) := by omega
  simp [put, hn]

@[simp] theorem put_zero (m : Mem) (a : Nat) (f : Nat → UInt8) : m.put a 0 f = m := by
  funext x
  exact put_out (by omega)

/-- An update is determined by the bytes it writes. -/
theorem put_congr {m : Mem} {a n : Nat} {f g : Nat → UInt8} (h : ∀ i, i < n → f i = g i) :
    m.put a n f = m.put a n g := by
  funext x
  by_cases hx : a ≤ x ∧ x < a + n
  · rw [put_in hx.1 hx.2, put_in hx.1 hx.2, h _ (by omega)]
  · rw [put_out (by omega), put_out (by omega)]

/-- `memset(a, v, n)`. -/
def memset (m : Mem) (a : Nat) (v : UInt8) (n : Nat) : Mem := m.put a n fun _ => v

/-- `memcpy(dst, src, n)`; the source bytes are those before the copy, so this is `memmove` too. -/
def memcpy (m : Mem) (dst src n : Nat) : Mem := m.put dst n fun i => m (src + i)

/-- Store the bytes of a list from `a` on. -/
def putBytes (m : Mem) (a : Nat) (bs : List UInt8) : Mem :=
  m.put a bs.length fun i => bs.getD i 0

/-- The `n` bytes from `a` on. -/
def bytes (m : Mem) (a n : Nat) : List UInt8 := (List.range n).map fun i => m (a + i)

@[simp] theorem length_bytes (m : Mem) (a n : Nat) : (m.bytes a n).length = n := by
  simp [bytes]

@[simp] theorem getElem_bytes (m : Mem) (a n i : Nat) (h : i < (m.bytes a n).length) :
    (m.bytes a n)[i] = m (a + i) := by
  simp [bytes]

theorem bytes_congr {m m' : Mem} {a n : Nat} (h : ∀ x, a ≤ x → x < a + n → m' x = m x) :
    m'.bytes a n = m.bytes a n := by
  refine List.ext_getElem (by simp) fun i h1 h2 => ?_
  rw [getElem_bytes, getElem_bytes]
  exact h _ (by omega) (by simp at h1; omega)

theorem bytes_add (m : Mem) (a n k : Nat) :
    m.bytes a (n + k) = m.bytes a n ++ m.bytes (a + n) k := by
  simp [bytes, List.range_add, Nat.add_assoc]

theorem putBytes_out {m : Mem} {a x : Nat} {bs : List UInt8} (h : x < a ∨ a + bs.length ≤ x) :
    m.putBytes a bs x = m x := put_out h

theorem putBytes_add {m : Mem} {a i : Nat} {bs : List UInt8} (h : i < bs.length) :
    m.putBytes a bs (a + i) = bs[i] := by
  rw [putBytes, put_add h, List.getD_eq_getElem _ _ h]

/-- Storing a list in two pieces. -/
theorem putBytes_append (m : Mem) (a : Nat) (bs cs : List UInt8) :
    (m.putBytes a bs).putBytes (a + bs.length) cs = m.putBytes a (bs ++ cs) := by
  funext x
  by_cases h1 : a ≤ x ∧ x < a + bs.length
  · obtain ⟨i, rfl⟩ := Nat.exists_eq_add_of_le h1.1
    have hi : i < bs.length := by omega
    rw [putBytes_out (by omega), putBytes_add hi,
      putBytes_add (by rw [List.length_append]; omega), List.getElem_append_left hi]
  · by_cases h2 : a + bs.length ≤ x ∧ x < a + bs.length + cs.length
    · obtain ⟨i, rfl⟩ := Nat.exists_eq_add_of_le h2.1
      have hi : i < cs.length := by omega
      rw [putBytes_add hi, Nat.add_assoc,
        putBytes_add (by rw [List.length_append]; omega),
        List.getElem_append_right (by omega)]
      congr 1
      omega
    · rw [putBytes_out (by omega), putBytes_out (by omega),
        putBytes_out (by rw [List.length_append]; omega)]

theorem bytes_putBytes (m : Mem) (a : Nat) (bs : List UInt8) :
    (m.putBytes a bs).bytes a bs.length = bs := by
  refine List.ext_getElem (length_bytes _ _ _) fun i _ h => ?_
  rw [getElem_bytes, putBytes_add h]

theorem putBytes_comm (m : Mem) {a b : Nat} {bs cs : List UInt8}
    (h : a + bs.length ≤ b ∨ b + cs.length ≤ a) :
    (m.putBytes a bs).putBytes b cs = (m.putBytes b cs).putBytes a bs := by
  funext x
  by_cases ha : x < a ∨ a + bs.length ≤ x
  · rw [putBytes_out ha]
    by_cases hb : x < b ∨ b + cs.length ≤ x
    · rw [putBytes_out hb, putBytes_out hb, putBytes_out ha]
    · obtain ⟨i, rfl⟩ := Nat.exists_eq_add_of_le (show b ≤ x by omega)
      have hi : i < cs.length := by omega
      rw [putBytes_add hi, putBytes_add hi]
  · obtain ⟨i, rfl⟩ := Nat.exists_eq_add_of_le (show a ≤ x by omega)
    have hi : i < bs.length := by omega
    rw [putBytes_out (by omega), putBytes_add hi, putBytes_add hi]

theorem memcpy_eq_putBytes (m : Mem) (dst src n : Nat) :
    m.memcpy dst src n = m.putBytes dst (m.bytes src n) := by
  unfold memcpy putBytes
  rw [length_bytes]
  refine put_congr fun i hi => ?_
  rw [List.getD_eq_getElem _ _ (by simpa using hi), getElem_bytes]

/-! ### Little-endian words -/

/-- The `k`-byte little-endian number at `a`. -/
def readLE (m : Mem) (a : Nat) : Nat → Nat
  | 0 => 0
  | k + 1 => (m a).toNat + 256 * readLE m (a + 1) k

/-- Byte `i` of the little-endian encoding of `v`. -/
def byteLE (v i : Nat) : UInt8 := UInt8.ofNat (v / 256 ^ i)

theorem readLE_congr {m m' : Mem} : ∀ (k : Nat) {a : Nat},
    (∀ x, a ≤ x → x < a + k → m' x = m x) → readLE m' a k = readLE m a k := by
  intro k
  induction k with
  | zero => intro a _; rfl
  | succ k ih =>
      intro a h
      rw [readLE, readLE, h a (Nat.le_refl a) (by omega),
        ih fun x h1 h2 => h x (by omega) (by omega)]

theorem readLE_byteLE {m : Mem} : ∀ (k : Nat) {a v : Nat},
    (∀ i, i < k → m (a + i) = byteLE v i) → readLE m a k = v % 256 ^ k := by
  intro k
  induction k with
  | zero => intro a v _; simp [readLE, Nat.mod_one]
  | succ k ih =>
      intro a v h
      have h0 : m a = byteLE v 0 := h 0 (Nat.succ_pos k)
      have hrest : readLE m (a + 1) k = v / 256 % 256 ^ k := by
        refine ih fun i hi => ?_
        rw [Nat.add_assoc, h (1 + i) (by omega)]
        unfold byteLE
        rw [Nat.div_div_eq_div_mul, Nat.add_comm 1 i, Nat.pow_succ, Nat.mul_comm]
      rw [readLE, h0, hrest, Nat.pow_succ', Nat.mod_mul]
      simp [byteLE]

/-- The words of the machine: two, four and eight bytes. -/
def read16 (m : Mem) (a : Nat) : UInt16 := UInt16.ofNat (readLE m a 2)
def read32 (m : Mem) (a : Nat) : UInt32 := UInt32.ofNat (readLE m a 4)
def read64 (m : Mem) (a : Nat) : UInt64 := UInt64.ofNat (readLE m a 8)

def write8 (m : Mem) (a : Nat) (v : UInt8) : Mem := m.put a 1 fun _ => v
def write16 (m : Mem) (a : Nat) (v : UInt16) : Mem := m.put a 2 (byteLE v.toNat)
def write32 (m : Mem) (a : Nat) (v : UInt32) : Mem := m.put a 4 (byteLE v.toNat)
def write64 (m : Mem) (a : Nat) (v : UInt64) : Mem := m.put a 8 (byteLE v.toNat)

theorem read16_congr {m m' : Mem} {a : Nat} (h : ∀ x, a ≤ x → x < a + 2 → m' x = m x) :
    m'.read16 a = m.read16 a := by
  rw [read16, read16, readLE_congr 2 h]

theorem read32_congr {m m' : Mem} {a : Nat} (h : ∀ x, a ≤ x → x < a + 4 → m' x = m x) :
    m'.read32 a = m.read32 a := by
  rw [read32, read32, readLE_congr 4 h]

@[simp] theorem read16_write16_self (m : Mem) (a : Nat) (v : UInt16) :
    (m.write16 a v).read16 a = v := by
  have h := readLE_byteLE (m := m.write16 a v) 2 (a := a) (v := v.toNat)
    fun i hi => put_add hi
  have hv : v.toNat < 2 ^ 16 := v.toNat_lt
  rw [read16, h, Nat.mod_eq_of_lt (by simpa using hv), UInt16.ofNat_toNat]

@[simp] theorem read32_write32_self (m : Mem) (a : Nat) (v : UInt32) :
    (m.write32 a v).read32 a = v := by
  have h := readLE_byteLE (m := m.write32 a v) 4 (a := a) (v := v.toNat)
    fun i hi => put_add hi
  have hv : v.toNat < 2 ^ 32 := v.toNat_lt
  rw [read32, h, Nat.mod_eq_of_lt (by simpa using hv), UInt32.ofNat_toNat]

theorem read64_congr {m m' : Mem} {a : Nat} (h : ∀ x, a ≤ x → x < a + 8 → m' x = m x) :
    m'.read64 a = m.read64 a := by
  rw [read64, read64, readLE_congr 8 h]

/-- A number that is moved byte by byte reads the same at its new place. -/
theorem readLE_shift {m m' : Mem} : ∀ (k : Nat) {a b : Nat},
    (∀ i, i < k → m' (a + i) = m (b + i)) → readLE m' a k = readLE m b k := by
  intro k
  induction k with
  | zero => intro a b _; rfl
  | succ k ih =>
      intro a b h
      rw [readLE, readLE, ih fun i hi => ?_]
      · have h0 : m' a = m b := h 0 (by omega)
        rw [h0]
      · rw [Nat.add_assoc, Nat.add_assoc]
        exact h (1 + i) (by omega)

theorem read64_shift {m m' : Mem} {a b : Nat} (h : ∀ i, i < 8 → m' (a + i) = m (b + i)) :
    m'.read64 a = m.read64 b := by
  rw [read64, read64, readLE_shift 8 h]

theorem read16_shift {m m' : Mem} {a b : Nat} (h : ∀ i, i < 2 → m' (a + i) = m (b + i)) :
    m'.read16 a = m.read16 b := by
  rw [read16, read16, readLE_shift 2 h]

@[simp] theorem read64_write64_self (m : Mem) (a : Nat) (v : UInt64) :
    (m.write64 a v).read64 a = v := by
  have h := readLE_byteLE (m := m.write64 a v) 8 (a := a) (v := v.toNat)
    fun i hi => put_add hi
  have hv : v.toNat < 2 ^ 64 := v.toNat_lt
  rw [read64, h, Nat.mod_eq_of_lt (by simpa using hv), UInt64.ofNat_toNat]

/-! ### Words next to each other -/

section Disjoint

variable {m : Mem} {a b : Nat}

theorem write16_out {v : UInt16} (h : b < a ∨ a + 2 ≤ b) : m.write16 a v b = m b := put_out h

theorem write32_out {v : UInt32} (h : b < a ∨ a + 4 ≤ b) : m.write32 a v b = m b := put_out h

theorem write8_out {v : UInt8} (h : b < a ∨ a + 1 ≤ b) : m.write8 a v b = m b := put_out h

@[simp] theorem write8_self (m : Mem) (a : Nat) (v : UInt8) : m.write8 a v a = v := by
  simp [write8, put]

theorem read16_write8_of_disjoint {v : UInt8} (h : b + 2 ≤ a ∨ a + 1 ≤ b) :
    (m.write8 a v).read16 b = m.read16 b := read16_congr fun _ _ _ => write8_out (by omega)

theorem read16_write16_of_disjoint {v : UInt16} (h : b + 2 ≤ a ∨ a + 2 ≤ b) :
    (m.write16 a v).read16 b = m.read16 b := read16_congr fun _ _ _ => write16_out (by omega)

theorem read16_write32_of_disjoint {v : UInt32} (h : b + 2 ≤ a ∨ a + 4 ≤ b) :
    (m.write32 a v).read16 b = m.read16 b := read16_congr fun _ _ _ => write32_out (by omega)

theorem read16_putBytes_of_disjoint {v : List UInt8} (h : b + 2 ≤ a ∨ a + v.length ≤ b) :
    (m.putBytes a v).read16 b = m.read16 b := read16_congr fun _ _ _ => putBytes_out (by omega)

theorem read32_write8_of_disjoint {v : UInt8} (h : b + 4 ≤ a ∨ a + 1 ≤ b) :
    (m.write8 a v).read32 b = m.read32 b := read32_congr fun _ _ _ => write8_out (by omega)

theorem read32_write16_of_disjoint {v : UInt16} (h : b + 4 ≤ a ∨ a + 2 ≤ b) :
    (m.write16 a v).read32 b = m.read32 b := read32_congr fun _ _ _ => write16_out (by omega)

theorem read32_write32_of_disjoint {v : UInt32} (h : b + 4 ≤ a ∨ a + 4 ≤ b) :
    (m.write32 a v).read32 b = m.read32 b := read32_congr fun _ _ _ => write32_out (by omega)

theorem read32_putBytes_of_disjoint {v : List UInt8} (h : b + 4 ≤ a ∨ a + v.length ≤ b) :
    (m.putBytes a v).read32 b = m.read32 b := read32_congr fun _ _ _ => putBytes_out (by omega)

end Disjoint

theorem write64_out {m : Mem} {a x : Nat} {v : UInt64} (h : x < a ∨ a + 8 ≤ x) :
    m.write64 a v x = m x := put_out h

theorem memcpy_out {m : Mem} {dst src n x : Nat} (h : x < dst ∨ dst + n ≤ x) :
    m.memcpy dst src n x = m x := put_out h

theorem memcpy_add {m : Mem} {dst src n i : Nat} (h : i < n) :
    m.memcpy dst src n (dst + i) = m (src + i) := put_add h

theorem memset_out {m : Mem} {a n x : Nat} {v : UInt8} (h : x < a ∨ a + n ≤ x) :
    m.memset a v n x = m x := put_out h

end Mem
