/-
Formatted input and output on byte strings.

`digits` prints a number, and `scan` is `sscanf`: it goes through the directives of
a format and the input together and returns the arguments that were converted.  A
word that `%s` converts is a part of the input, so it is no longer than what the
directives before it have left.
-/
import Mathlib

namespace Format

/-! ### Printing -/

/-- One digit of a base up to 16. -/
def digit (d : Nat) : UInt8 := UInt8.ofNat (if d < 10 then 48 + d else 87 + d)

/-- A number, most significant digit first. -/
def digits (b n : Nat) : List UInt8 :=
  if n = 0 then [48] else (b.digits n).reverse.map digit

theorem length_digits_le {b n k : Nat} (hb : 1 < b) (hk : 0 < k) (h : n < b ^ k) :
    (digits b n).length ≤ k := by
  unfold digits
  split
  · exact hk
  · rw [List.length_map, List.length_reverse]
    exact (Nat.digits_length_le_iff hb n).mpr h

/-- `%lu` -/
def lu (n : UInt64) : List UInt8 := digits 10 n.toNat

/-- `%lx` -/
def lx (n : UInt64) : List UInt8 := digits 16 n.toNat

/-- `%d` -/
def d (n : Int) : List UInt8 :=
  if n < 0 then 45 :: digits 10 n.natAbs else digits 10 n.natAbs

/-- `%02x` -/
def x02 (n : UInt32) : List UInt8 :=
  if n < 16 then 48 :: digits 16 n.toNat else digits 16 n.toNat

theorem length_lu (n : UInt64) : (lu n).length ≤ 20 :=
  length_digits_le (by omega) (by omega) (Nat.lt_of_lt_of_le n.toNat_lt (by norm_num))

theorem length_lx (n : UInt64) : (lx n).length ≤ 16 :=
  length_digits_le (by omega) (by omega) (Nat.lt_of_lt_of_le n.toNat_lt (by norm_num))

theorem length_d {n : Int} (h : n.natAbs < 10 ^ 10) : (d n).length ≤ 11 := by
  have hdigits := length_digits_le (b := 10) (by omega) (by omega) h
  unfold d
  split
  · rw [List.length_cons]
    omega
  · omega

theorem length_x02 (n : UInt32) : (x02 n).length ≤ 9 := by
  have hdigits : (digits 16 n.toNat).length ≤ 8 :=
    length_digits_le (by omega) (by omega) (Nat.lt_of_lt_of_le n.toNat_lt (by norm_num))
  unfold x02
  split
  · rw [List.length_cons]
    omega
  · omega

/-! ### Scanning -/

inductive Directive where
  | char (c : UInt8)
  | space
  | lu
  | d
  | s
deriving DecidableEq

def isSpace (c : UInt8) : Bool := c = 32 ∨ 9 ≤ c ∧ c ≤ 13

/-- The directives of a format. -/
def directives : List UInt8 → List Directive
  | [] => []
  | 37 :: 108 :: 117 :: cs => .lu :: directives cs
  | 37 :: 100 :: cs => .d :: directives cs
  | 37 :: 115 :: cs => .s :: directives cs
  | c :: cs => (if isSpace c then .space else .char c) :: directives cs

inductive Arg where
  | number (n : UInt64)
  | integer (n : Int)
  | string (word : List UInt8)

def isDigit (c : UInt8) : Bool := 48 ≤ c ∧ c ≤ 57

/-- The input without a sign. -/
def skipSign (xs : List UInt8) : List UInt8 :=
  if xs.head? = some 43 ∨ xs.head? = some 45 then xs.tail else xs

/-- An optional sign and at least one digit: whether there is a minus, the number, and the rest. -/
def number (xs : List UInt8) : Option (Bool × Nat × List UInt8) :=
  let xs := xs.dropWhile isSpace
  let ds := (skipSign xs).takeWhile isDigit
  if ds = [] then none
  else some (xs.head? = some 45, ds.foldl (fun n c => 10 * n + (c.toNat - 48)) 0,
    (skipSign xs).dropWhile isDigit)

/-- The value of `strtoul`: the largest one when the number is out of range. -/
def toULong (minus : Bool) (n : Nat) : UInt64 :=
  if 2 ^ 64 ≤ n then -1 else if minus then -UInt64.ofNat n else UInt64.ofNat n

/-- The value of an `int`; the standard leaves open what a number out of range gives, here it is the
nearest one. -/
def toInt (minus : Bool) (n : Nat) : Int :=
  if minus then max (-(n : Int)) (-(2 ^ 31)) else min (n : Int) (2 ^ 31 - 1)

/-- The arguments that are converted; the scan ends at the first directive that fails. -/
def scan : List Directive → List UInt8 → List Arg
  | [], _ => []
  | .char c :: ds, xs =>
    match xs with
    | [] => []
    | x :: xs => if x = c then scan ds xs else []
  | .space :: ds, xs => scan ds (xs.dropWhile isSpace)
  | .lu :: ds, xs =>
    match number xs with
    | none => []
    | some (minus, n, xs) => .number (toULong minus n) :: scan ds xs
  | .d :: ds, xs =>
    match number xs with
    | none => []
    | some (minus, n, xs) => .integer (toInt minus n) :: scan ds xs
  | .s :: ds, xs =>
    let xs := xs.dropWhile isSpace
    let word := xs.takeWhile fun c => !isSpace c
    if word = [] then [] else .string word :: scan ds (xs.dropWhile fun c => !isSpace c)

theorem length_dropWhile_le {α : Type} (p : α → Bool) (xs : List α) :
    (xs.dropWhile p).length ≤ xs.length := (List.dropWhile_suffix p).length_le

theorem length_skipSign_le (xs : List UInt8) : (skipSign xs).length ≤ xs.length := by
  unfold skipSign
  split
  · rw [List.length_tail]
    omega
  · exact Nat.le_refl _

theorem number_rest {xs rest : List UInt8} {minus : Bool} {n : Nat}
    (h : number xs = some (minus, n, rest)) : rest.length ≤ xs.length := by
  unfold number at h
  dsimp only at h
  split at h
  · cases h
  · rw [Option.some.injEq, Prod.mk.injEq, Prod.mk.injEq] at h
    calc rest.length = ((skipSign (xs.dropWhile isSpace)).dropWhile isDigit).length := by rw [h.2.2]
      _ ≤ (skipSign (xs.dropWhile isSpace)).length := length_dropWhile_le _ _
      _ ≤ (xs.dropWhile isSpace).length := length_skipSign_le _
      _ ≤ xs.length := length_dropWhile_le _ _

/-- A word is a part of the input. -/
theorem length_word {ds : List Directive} {xs word : List UInt8} (h : .string word ∈ scan ds xs) :
    word.length ≤ xs.length := by
  induction ds generalizing xs with
  | nil => cases h
  | cons dir ds ih =>
      cases dir with
      | char c =>
          cases xs with
          | nil => cases h
          | cons x xs =>
              rw [scan] at h
              split at h
              · exact Nat.le_succ_of_le (ih h)
              · cases h
      | space => exact (ih h).trans (length_dropWhile_le _ _)
      | lu =>
          rw [scan] at h
          split at h
          · cases h
          · rename_i minus n rest hn
            rcases List.mem_cons.mp h with heq | h
            · cases heq
            · exact (ih h).trans (number_rest hn)
      | d =>
          rw [scan] at h
          split at h
          · cases h
          · rename_i minus n rest hn
            rcases List.mem_cons.mp h with heq | h
            · cases heq
            · exact (ih h).trans (number_rest hn)
      | s =>
          rw [scan] at h
          have hspace := length_dropWhile_le isSpace xs
          split at h
          · cases h
          · rcases List.mem_cons.mp h with heq | h
            · cases heq
              exact ((List.takeWhile_prefix _).length_le).trans hspace
            · exact (ih h).trans ((length_dropWhile_le _ _).trans hspace)

/-- Characters of the format are found in the input before anything is converted. -/
theorem scan_chars {cs : List UInt8} {ds : List Directive} {xs : List UInt8} {a : Arg}
    (h : a ∈ scan (cs.map .char ++ ds) xs) : ∃ rest, xs = cs ++ rest ∧ a ∈ scan ds rest := by
  induction cs generalizing xs with
  | nil => exact ⟨xs, rfl, h⟩
  | cons c cs ih =>
      cases xs with
      | nil => cases h
      | cons x xs =>
          rw [List.map_cons, List.cons_append, scan] at h
          split at h
          · rename_i hx
            obtain ⟨rest, rfl, ha⟩ := ih h
            exact ⟨rest, by rw [hx, List.cons_append], ha⟩
          · cases h

/-- A word after the characters of a command. -/
theorem length_word_chars {cs : List UInt8} {ds : List Directive} {xs word : List UInt8}
    (h : .string word ∈ scan (cs.map .char ++ ds) xs) : cs.length + word.length ≤ xs.length := by
  obtain ⟨rest, rfl, hw⟩ := scan_chars h
  rw [List.length_append]
  exact Nat.add_le_add_left (length_word hw) _

example : scan (directives [97, 32, 37, 115, 32, 37, 108, 117]) [97, 32, 98, 99, 32, 45, 49]
    = [.string [98, 99], .number 18446744073709551615] := by rfl

end Format
