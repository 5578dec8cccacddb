/-
`digest_from_hex` as a map of strings to digests.

The sixteen characters of a word are its digits in base 16, least significant first, so
a digest determines the values of all 64 characters, and those determine the characters
up to their case.
-/
import JudgeDuck.Base.Digits
import JudgeDuck.Model.Judger

namespace JudgeDuck.DuckCache

/-! ### Characters -/

/-- A hexadecimal digit of either case. -/
def IsHexDigit (c : UInt8) : Prop :=
  48 ≤ c ∧ c ≤ 57 ∨ 65 ≤ c ∧ c ≤ 70 ∨ 97 ≤ c ∧ c ≤ 102

/-- The lower-case version of a letter. -/
def lower (c : UInt8) : UInt8 := if 65 ≤ c ∧ c ≤ 90 then c + 32 else c

/-- The value of a character, 0 if it is no digit. -/
def hexValue (c : UInt8) : Nat := ((hexDigit c).getD 0).toNat

/-- The lower-case digit with a value. -/
def hexChar (n : Nat) : UInt8 := if n < 10 then UInt8.ofNat (48 + n) else UInt8.ofNat (87 + n)

instance (c : UInt8) : Decidable (IsHexDigit c) := inferInstanceAs (Decidable (_ ∨ _ ∨ _))

/-- A fact about all characters, by looking at each of them. -/
theorem forall_uint8 {p : UInt8 → Prop} [DecidablePred p]
    (h : ∀ n : Fin 256, p (UInt8.ofNat n)) (c : UInt8) : p c := by
  have hc := h ⟨c.toNat, c.toNat_lt⟩
  rwa [UInt8.ofNat_toNat] at hc

theorem hexDigit_isSome (c : UInt8) : (hexDigit c).isSome = true ↔ IsHexDigit c := by
  revert c
  exact forall_uint8 (by decide +kernel)

theorem hexDigit_hexChar : ∀ n : Fin 16, hexDigit (hexChar n) = some (UInt64.ofNat n) := by decide

theorem hexValue_lt (c : UInt8) : hexValue c < 16 := by
  revert c
  exact forall_uint8 (by decide +kernel)

theorem hexValue_lower (c : UInt8) : hexValue (lower c) = hexValue c := by
  revert c
  exact forall_uint8 (by decide +kernel)

theorem lower_eq_hexChar (c : UInt8) : IsHexDigit c → lower c = hexChar (hexValue c) := by
  revert c
  exact forall_uint8 (by decide +kernel)

/-- Two digits have the same value if they differ in case at most. -/
theorem hexValue_eq_iff {c d : UInt8} (hc : IsHexDigit c) (hd : IsHexDigit d) :
    hexValue c = hexValue d ↔ lower c = lower d := by
  constructor
  · intro h
    rw [lower_eq_hexChar c hc, lower_eq_hexChar d hd, h]
  · intro h
    rw [← hexValue_lower c, h, hexValue_lower]

/-! ### Words -/

/-- The values of the characters of a word. -/
def nibbles (hex : Nat → UInt8) (i k : Nat) : List Nat :=
  (List.range k).map fun j => hexValue (hex (i + j))

theorem nibbles_succ (hex : Nat → UInt8) (i k : Nat) :
    nibbles hex i (k + 1) = hexValue (hex i) :: nibbles hex (i + 1) k := by
  rw [nibbles, List.range_succ_eq_map, List.map_cons, List.map_map, nibbles]
  refine congrArg (_ :: ·) (List.map_congr_left fun j _ => ?_)
  show hexValue (hex (i + (j + 1))) = _
  rw [Nat.add_right_comm, Nat.add_assoc]

/-- What the inner loop adds from character `j` of word `w` on. -/
theorem wordFromHex_spec (hex : Nat → UInt8) (w : Nat) : ∀ (k j : Nat) (sum : UInt64),
    j + k = 16 → sum.toNat < 16 ^ j →
    ((wordFromHex hex k (16 * w + j) sum).isSome = true ↔
      ∀ i, i < k → IsHexDigit (hex (16 * w + j + i))) ∧
    ∀ r, wordFromHex hex k (16 * w + j) sum = some r →
      r.toNat = sum.toNat + 16 ^ j * Nat.ofDigits 16 (nibbles hex (16 * w + j) k) := by
  intro k
  induction k with
  | zero =>
      intro j sum _ _
      refine ⟨by simp [wordFromHex], fun r hr => ?_⟩
      rw [← Option.some.inj hr]
      simp [nibbles]
  | succ k ih =>
      intro j sum hjk hsum
      have hmod : (16 * w + j) % 16 = j := by omega
      rw [wordFromHex, hmod]
      cases hd : hexDigit (hex (16 * w + j)) with
      | none =>
          have hno : ¬IsHexDigit (hex (16 * w + j)) := by
            rw [← hexDigit_isSome, hd]
            exact Bool.false_ne_true
          refine ⟨⟨fun h => ?_, fun h => absurd (h 0 (by omega)) hno⟩, fun r hr => ?_⟩
          · cases h
          · cases hr
      | some val =>
          have hyes : IsHexDigit (hex (16 * w + j)) := by
            rw [← hexDigit_isSome, hd]
            rfl
          have hval : hexValue (hex (16 * w + j)) = val.toNat := by
            rw [hexValue, hd]
            rfl
          have hlt := hexValue_lt (hex (16 * w + j))
          rw [hval] at hlt
          have hor := Digits.or_shift (by omega : j < 16) hsum hlt
          have hnext := Digits.add_mul_lt hsum hlt
          rw [← hor] at hnext
          obtain ⟨hsome, hvalue⟩ :=
            ih (j + 1) (sum ||| val <<< UInt64.ofNat (j * 4)) (by omega) hnext
          constructor
          · refine hsome.trans ⟨fun h i hi => ?_, fun h i hi => ?_⟩
            · cases i with
              | zero => exact hyes
              | succ i =>
                  have hi' := h i (by omega)
                  rwa [(by omega : 16 * w + (j + 1) + i = 16 * w + j + (i + 1))] at hi'
            · have hi' := h (i + 1) (by omega)
              rwa [(by omega : 16 * w + j + (i + 1) = 16 * w + (j + 1) + i)] at hi'
          · intro r hr
            rw [hvalue r hr, hor, nibbles_succ, Nat.ofDigits_cons, hval, Nat.pow_succ]
            have hassoc : 16 * w + (j + 1) = 16 * w + j + 1 := by omega
            rw [hassoc]
            ring

/-- A word of sixteen digits. -/
theorem wordFromHex_word (hex : Nat → UInt8) (w : Nat) :
    ((wordFromHex hex 16 (16 * w) 0).isSome = true ↔
      ∀ i, i < 16 → IsHexDigit (hex (16 * w + i))) ∧
    ∀ r, wordFromHex hex 16 (16 * w) 0 = some r →
      r.toNat = Nat.ofDigits 16 (nibbles hex (16 * w) 16) := by
  obtain ⟨hsome, hvalue⟩ := wordFromHex_spec hex w 16 0 0 rfl (by decide)
  refine ⟨hsome, fun r hr => ?_⟩
  rw [hvalue r hr, Nat.pow_zero, Nat.one_mul, UInt64.toNat_zero, Nat.zero_add, Nat.add_zero]

/-- The digest has the values of the characters as its digits. -/
structure Spells (hex : Nat → UInt8) (d : Digest256) : Prop where
  a0 : d.a0.toNat = Nat.ofDigits 16 (nibbles hex 0 16)
  a1 : d.a1.toNat = Nat.ofDigits 16 (nibbles hex 16 16)
  a2 : d.a2.toNat = Nat.ofDigits 16 (nibbles hex 32 16)
  a3 : d.a3.toNat = Nat.ofDigits 16 (nibbles hex 48 16)

theorem Spells.unique {hex : Nat → UInt8} {d d' : Digest256} (h : Spells hex d)
    (h' : Spells hex d') : d = d' := by
  obtain ⟨a0, a1, a2, a3⟩ := d
  obtain ⟨b0, b1, b2, b3⟩ := d'
  rw [Digest256.mk.injEq]
  exact ⟨UInt64.toNat.inj (h.a0.trans h'.a0.symm), UInt64.toNat.inj (h.a1.trans h'.a1.symm),
    UInt64.toNat.inj (h.a2.trans h'.a2.symm), UInt64.toNat.inj (h.a3.trans h'.a3.symm)⟩

theorem digestFromHex_spec (hex : Nat → UInt8) :
    ((digestFromHex hex).isSome = true ↔ ∀ i, i < 64 → IsHexDigit (hex i)) ∧
    ∀ d, digestFromHex hex = some d → Spells hex d := by
  obtain ⟨h0, v0⟩ := wordFromHex_word hex 0
  obtain ⟨h1, v1⟩ := wordFromHex_word hex 1
  obtain ⟨h2, v2⟩ := wordFromHex_word hex 2
  obtain ⟨h3, v3⟩ := wordFromHex_word hex 3
  constructor
  · have hwords : (digestFromHex hex).isSome = true ↔
        (wordFromHex hex 16 (16 * 0) 0).isSome = true ∧
          (wordFromHex hex 16 (16 * 1) 0).isSome = true ∧
        (wordFromHex hex 16 (16 * 2) 0).isSome = true ∧
        (wordFromHex hex 16 (16 * 3) 0).isSome = true := by
      simp only [digestFromHex, Option.bind_eq_bind, Nat.mul_zero, Nat.mul_one, Nat.reduceMul]
      cases wordFromHex hex 16 0 0 <;> cases wordFromHex hex 16 16 0 <;>
        cases wordFromHex hex 16 32 0 <;> cases wordFromHex hex 16 48 0 <;> simp
    rw [hwords, h0, h1, h2, h3]
    constructor
    · rintro ⟨g0, g1, g2, g3⟩ i hi
      -- the character is in one of the four words
      rcases (by omega : i < 16 ∨ 16 ≤ i ∧ i < 32 ∨ 32 ≤ i ∧ i < 48 ∨ 48 ≤ i) with
        h | ⟨h, h'⟩ | ⟨h, h'⟩ | h
      · simpa using g0 i h
      · have := g1 (i - 16) (by omega)
        rwa [(by omega : 16 * 1 + (i - 16) = i)] at this
      · have := g2 (i - 32) (by omega)
        rwa [(by omega : 16 * 2 + (i - 32) = i)] at this
      · have := g3 (i - 48) (by omega)
        rwa [(by omega : 16 * 3 + (i - 48) = i)] at this
    · intro h
      exact ⟨fun i hi => h _ (by omega), fun i hi => h _ (by omega), fun i hi => h _ (by omega),
        fun i hi => h _ (by omega)⟩
  · intro d hd
    obtain ⟨a0, g0, hd⟩ := Option.bind_eq_some_iff.mp hd
    obtain ⟨a1, g1, hd⟩ := Option.bind_eq_some_iff.mp hd
    obtain ⟨a2, g2, hd⟩ := Option.bind_eq_some_iff.mp hd
    obtain ⟨a3, g3, hd⟩ := Option.bind_eq_some_iff.mp hd
    rw [← Option.some.inj hd]
    exact ⟨v0 a0 g0, v1 a1 g1, v2 a2 g2, v3 a3 g3⟩

/-! ### Strings and digests -/

/-- The two strings are equal up to the case of their letters. -/
def SameUpToCase (hex hex' : Nat → UInt8) : Prop := ∀ i, i < 64 → lower (hex i) = lower (hex' i)

/-- The same number, the same digits. -/
theorem nibbles_inj {hex hex' : Nat → UInt8} {i k : Nat}
    (h : Nat.ofDigits 16 (nibbles hex i k) = Nat.ofDigits 16 (nibbles hex' i k)) :
    ∀ j, j < k → hexValue (hex (i + j)) = hexValue (hex' (i + j)) := by
  have hlt : ∀ (hex : Nat → UInt8) (v : Nat), v ∈ nibbles hex i k → v < 16 := by
    intro hex v hv
    obtain ⟨j, -, rfl⟩ := List.mem_map.mp hv
    exact hexValue_lt _
  have heq := Nat.ofDigits_inj_of_len_eq (by decide : 1 < 16) (by simp [nibbles]) (hlt hex)
    (hlt hex') h
  intro j hj
  have hget := congrArg (·[j]?) heq
  simpa [nibbles, hj] using hget

theorem Spells.values {hex hex' : Nat → UInt8} {d : Digest256} (h : Spells hex d)
    (h' : Spells hex' d) {i : Nat} (hi : i < 64) : hexValue (hex i) = hexValue (hex' i) := by
  rcases (by omega : i < 16 ∨ 16 ≤ i ∧ i < 32 ∨ 32 ≤ i ∧ i < 48 ∨ 48 ≤ i) with
    hi | ⟨hi, hi'⟩ | ⟨hi, hi'⟩ | hi
  · have hv := nibbles_inj (h.a0.symm.trans h'.a0) i hi
    rwa [Nat.zero_add] at hv
  · have hv := nibbles_inj (h.a1.symm.trans h'.a1) (i - 16) (by omega)
    rwa [(by omega : 16 + (i - 16) = i)] at hv
  · have hv := nibbles_inj (h.a2.symm.trans h'.a2) (i - 32) (by omega)
    rwa [(by omega : 32 + (i - 32) = i)] at hv
  · have hv := nibbles_inj (h.a3.symm.trans h'.a3) (i - 48) (by omega)
    rwa [(by omega : 48 + (i - 48) = i)] at hv

/-- The values are all that matters. -/
theorem Spells.congr {hex hex' : Nat → UInt8} {d : Digest256} (h : Spells hex d)
    (hv : ∀ i, i < 64 → hexValue (hex i) = hexValue (hex' i)) : Spells hex' d := by
  have hnibbles : ∀ i, i + 16 ≤ 64 → nibbles hex i 16 = nibbles hex' i 16 := by
    intro i hi
    refine List.map_congr_left fun j hj => hv _ ?_
    have := List.mem_range.mp hj
    omega
  exact ⟨hnibbles 0 (by omega) ▸ h.a0, hnibbles 16 (by omega) ▸ h.a1, hnibbles 32 (by omega) ▸ h.a2,
    hnibbles 48 (by omega) ▸ h.a3⟩

theorem digestFromHex_eq_iff {hex hex' : Nat → UInt8} {d d' : Digest256}
    (hd : digestFromHex hex = some d) (hd' : digestFromHex hex' = some d') :
    d = d' ↔ SameUpToCase hex hex' := by
  have hdigits := (digestFromHex_spec hex).1.mp (by rw [hd]; rfl)
  have hdigits' := (digestFromHex_spec hex').1.mp (by rw [hd']; rfl)
  have hspells := (digestFromHex_spec hex).2 d hd
  have hspells' := (digestFromHex_spec hex').2 d' hd'
  constructor
  · rintro rfl i hi
    exact (hexValue_eq_iff (hdigits i hi) (hdigits' i hi)).mp (hspells.values hspells' hi)
  · intro hsame
    refine (hspells.congr fun i hi => ?_).unique hspells'
    exact (hexValue_eq_iff (hdigits i hi) (hdigits' i hi)).mpr (hsame i hi)

/-- The digest in lower case. -/
def toHex (d : Digest256) (i : Nat) : UInt8 :=
  let word := if i < 16 then d.a0 else if i < 32 then d.a1 else if i < 48 then d.a2 else d.a3
  hexChar (word.toNat / 16 ^ (i % 16) % 16)

theorem hexValue_hexChar {n : Nat} (hn : n < 16) : hexValue (hexChar n) = n := by
  rw [hexValue, hexDigit_hexChar ⟨n, hn⟩]
  exact UInt64.toNat_ofNat_of_lt' (by simp only [UInt64.size]; omega)

/-- The digits of a word. -/
theorem ofDigits_toHex {hex : Nat → UInt8} {i : Nat} {word : UInt64}
    (h : ∀ j, j < 16 → hex (i + j) = hexChar (word.toNat / 16 ^ j % 16)) :
    Nat.ofDigits 16 (nibbles hex i 16) = word.toNat := by
  have hnibbles : nibbles hex i 16 = (List.range 16).map fun j => word.toNat / 16 ^ j % 16 := by
    refine List.map_congr_left fun j hj => ?_
    rw [h j (List.mem_range.mp hj), hexValue_hexChar (Nat.mod_lt _ (by decide))]
  rw [hnibbles, Digits.ofDigits_div_mod]
  exact Nat.mod_eq_of_lt word.toNat_lt

theorem digestFromHex_toHex (d : Digest256) : digestFromHex (toHex d) = some d := by
  have hdigits : ∀ i, i < 64 → IsHexDigit (toHex d i) := by
    intro i _
    rw [← hexDigit_isSome, toHex, hexDigit_hexChar ⟨_, Nat.mod_lt _ (by decide)⟩]
    rfl
  obtain ⟨d', hd'⟩ := Option.isSome_iff_exists.mp ((digestFromHex_spec (toHex d)).1.mpr hdigits)
  have hspells : Spells (toHex d) d := by
    refine ⟨(ofDigits_toHex fun j hj => ?_).symm, (ofDigits_toHex fun j hj => ?_).symm,
      (ofDigits_toHex fun j hj => ?_).symm, (ofDigits_toHex fun j hj => ?_).symm⟩
    · rw [toHex, if_pos (by omega), (by omega : (0 + j) % 16 = j)]
    · rw [toHex, if_neg (by omega), if_pos (by omega), (by omega : (16 + j) % 16 = j)]
    · rw [toHex, if_neg (by omega), if_neg (by omega), if_pos (by omega),
        (by omega : (32 + j) % 16 = j)]
    · rw [toHex, if_neg (by omega), if_neg (by omega), if_neg (by omega),
        (by omega : (48 + j) % 16 = j)]
  rw [hd', ((digestFromHex_spec (toHex d)).2 d' hd').unique hspells]

/-- **Exactly the strings of 64 hexadecimal digits are accepted; their digests differ unless the
strings are equal up to case, and every digest has a string.  A string that is
rejected changes nothing.** -/
theorem digestFromHex_exact :
    (∀ hex, (digestFromHex hex).isSome = true ↔ ∀ i, i < 64 → IsHexDigit (hex i)) ∧
    (∀ hex hex' d d', digestFromHex hex = some d → digestFromHex hex' = some d' →
      (d = d' ↔ SameUpToCase hex hex')) ∧
    (∀ d, ∃ hex, digestFromHex hex = some d) ∧
    ∀ (S : StdSort) (name : String) (off len tsc : UInt64) (hex : Nat → UInt8) (s : Judger),
      digestFromHex hex = none →
      Judger.loadCache name off len hex tsc s = some (false, s) ∧
      Judger.storeCache S name off len hex tsc s = some (false, s) := by
  refine ⟨fun hex => (digestFromHex_spec hex).1, fun hex hex' d d' hd hd' => ?_,
    fun d => ⟨toHex d, digestFromHex_toHex d⟩, fun S name off len tsc hex s hnone => ⟨?_, ?_⟩⟩
  · exact digestFromHex_eq_iff hd hd'
  · rw [Judger.loadCache, hnone]
  · rw [Judger.storeCache, hnone]

end JudgeDuck.DuckCache
