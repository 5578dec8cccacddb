/-
What `ducknet_parse_ipv4` accepts.

The automaton checks at a dot that there is a number before it, and nothing checks it at
the end of the string: the last number may be missing.  The length of the string is an
`int`, and from 2^31 characters on only a part of the string is looked at, or nothing.
-/
import JudgeDuck.Base.Decimal
import JudgeDuck.Model.DuckNet.ParseIpv4

namespace JudgeDuck.DuckNet

open Decimal

/-! ### The grammar -/

/-- Digits that stand for a number of one byte; there may be none. -/
structure Digits (r : List UInt8) : Prop where
  digit : ∀ c ∈ r, IsDigit c
  byte : value 0 r ≤ 255

/-- A nonempty run of digits. -/
structure Run (r : List UInt8) : Prop extends Digits r where
  nonempty : r ≠ []

/-- Three runs, each with a dot behind it, and the rest. -/
structure Head (s r1 r2 r3 r4 : List UInt8) : Prop where
  eq : s = r1 ++ 46 :: (r2 ++ 46 :: (r3 ++ 46 :: r4))
  run1 : Run r1
  run2 : Run r2
  run3 : Run r3

/-- Four runs between three dots. -/
structure Dotted (s r1 r2 r3 r4 : List UInt8) : Prop extends Head s r1 r2 r3 r4 where
  run4 : Run r4

/-- Four runs between three dots, of which the last one may be empty. -/
structure Loose (s r1 r2 r3 r4 : List UInt8) : Prop extends Head s r1 r2 r3 r4 where
  digits4 : Digits r4

/-- The bytes for four runs; the first number goes into the last byte. -/
def bytesOf (r1 r2 r3 r4 : List UInt8) : IPv4Bytes :=
  ⟨UInt8.ofNat (value 0 r4), UInt8.ofNat (value 0 r3), UInt8.ofNat (value 0 r2),
    UInt8.ofNat (value 0 r1)⟩

variable {s r r1 r2 r3 r4 t : List UInt8} {st : ParseState} {c : UInt8}

/-! ### Runs of the automaton -/

theorem not_dot_of_isDigit (h : IsDigit c) : c ≠ 46 := by
  rintro rfl
  exact absurd h (by decide)

theorem Digits.not_mem (h : Digits r) : 46 ∉ r := fun hm => not_dot_of_isDigit (h.digit _ hm) rfl

theorem parseStep_digit (hc : IsDigit c) (hle : (st.a st.idx).toNat * 10 + (c.toNat - 48) ≤ 255) :
    parseStep st c = some ⟨Function.update st.a st.idx
      (UInt8.ofNat ((st.a st.idx).toNat * 10 + (c.toNat - 48))), st.idx, true⟩ := by
  obtain ⟨hlow, hhigh⟩ := hc
  have h10 : (10 : UInt8).toNat = 10 := rfl
  have h48 : (48 : UInt8).toNat = 48 := rfl
  have h57 : (57 : UInt8).toNat = 57 := rfl
  have hword : st.a st.idx * 10 + c - 48
      = UInt8.ofNat ((st.a st.idx).toNat * 10 + (c.toNat - 48)) := by
    rw [← UInt8.toNat_inj, UInt8.toNat_sub, UInt8.toNat_add, UInt8.toNat_mul, h10, h48,
      UInt8.toNat_ofNat_of_lt' (by simp only [UInt8.size]; omega)]
    omega
  unfold parseStep
  rw [if_neg (not_dot_of_isDigit ⟨hlow, hhigh⟩), if_neg, if_neg (by omega), hword]
  rw [UInt8.lt_iff_toNat_lt, gt_iff_lt, UInt8.lt_iff_toNat_lt]
  omega

theorem parseStep_refused (hdot : c ≠ 46)
    (h : ¬(IsDigit c ∧ (st.a st.idx).toNat * 10 + (c.toNat - 48) ≤ 255)) :
    parseStep st c = none := by
  unfold parseStep
  rw [if_neg hdot]
  by_cases hc : c < 48 ∨ c > 57
  · rw [if_pos hc]
  · rw [if_neg hc, if_pos]
    rw [UInt8.lt_iff_toNat_lt, gt_iff_lt, UInt8.lt_iff_toNat_lt] at hc
    have h48 : (48 : UInt8).toNat = 48 := rfl
    have h57 : (57 : UInt8).toNat = 57 := rfl
    unfold IsDigit at h
    omega

/-- The number that is in the current byte after a run. -/
theorem foldlM_digits : ∀ (r : List UInt8) (st : ParseState), (∀ c ∈ r, IsDigit c) →
    value (st.a st.idx).toNat r ≤ 255 → r.foldlM parseStep st =
      some ⟨Function.update st.a st.idx (UInt8.ofNat (value (st.a st.idx).toNat r)), st.idx,
        st.hasNum || !r.isEmpty⟩ := by
  intro r
  induction r with
  | nil =>
      intro st _ _
      rw [List.foldlM_nil, value, List.foldl_nil, UInt8.ofNat_toNat, Function.update_eq_self]
      simp
  | cons c r ih =>
      intro st hdigit hle
      have hnext : (st.a st.idx).toNat * 10 + (c.toNat - 48) ≤ 255 :=
        Nat.le_trans (le_value _ r) hle
      rw [List.foldlM_cons, parseStep_digit (hdigit c List.mem_cons_self) hnext]
      have hbyte : (UInt8.ofNat ((st.a st.idx).toNat * 10 + (c.toNat - 48))).toNat
          = (st.a st.idx).toNat * 10 + (c.toNat - 48) :=
        UInt8.toNat_ofNat_of_lt' (by simp only [UInt8.size]; omega)
      have hrest := ih ⟨Function.update st.a st.idx
        (UInt8.ofNat ((st.a st.idx).toNat * 10 + (c.toNat - 48))), st.idx, true⟩
        (fun c hc => hdigit c (List.mem_cons_of_mem _ hc))
      dsimp only at hrest
      rw [Function.update_self, hbyte, Function.update_idem] at hrest
      exact (hrest hle).trans (by simp [value])

/-- A run that is not one of digits, or stands for too large a number, ends the loop. -/
theorem foldlM_refused : ∀ (r : List UInt8) (st : ParseState), 46 ∉ r →
    ¬((∀ c ∈ r, IsDigit c) ∧ value (st.a st.idx).toNat r ≤ 255) → ∀ t,
      (r ++ t).foldlM parseStep st = none := by
  intro r
  induction r with
  | nil =>
      intro st _ h
      have hlt := (st.a st.idx).toNat_lt
      refine (h ⟨fun c hc => (List.not_mem_nil hc).elim, ?_⟩).elim
      exact Nat.le_of_lt_succ hlt
  | cons c r ih =>
      intro st hdot h t
      have hc : c ≠ 46 := fun hc => hdot (hc ▸ List.mem_cons_self)
      rw [List.cons_append, List.foldlM_cons]
      by_cases hstep : IsDigit c ∧ (st.a st.idx).toNat * 10 + (c.toNat - 48) ≤ 255
      · rw [parseStep_digit hstep.1 hstep.2]
        have hbyte : (UInt8.ofNat ((st.a st.idx).toNat * 10 + (c.toNat - 48))).toNat
            = (st.a st.idx).toNat * 10 + (c.toNat - 48) :=
          UInt8.toNat_ofNat_of_lt' (by simp only [UInt8.size]; omega)
        refine ih ⟨_, st.idx, true⟩ (fun hm => hdot (List.mem_cons_of_mem c hm)) ?_ t
        dsimp only
        rw [Function.update_self, hbyte]
        exact fun ⟨hdigit, hle⟩ => h ⟨List.forall_mem_cons.mpr ⟨hstep.1, hdigit⟩, hle⟩
      · rw [parseStep_refused hc hstep]
        rfl

/-- A run and its dot move on to the next byte. -/
theorem foldlM_run_dot (hr : Run r) (h0 : st.a st.idx = 0) (t : List UInt8) :
    (r ++ 46 :: t).foldlM parseStep st =
      t.foldlM parseStep ⟨Function.update st.a st.idx (UInt8.ofNat (value 0 r)), st.idx + 1,
        false⟩ := by
  have hzero : (st.a st.idx).toNat = 0 := by
    rw [h0]
    rfl
  have hdigits := foldlM_digits r st hr.digit (by rw [hzero]; exact hr.byte)
  have hnum : (st.hasNum || !r.isEmpty) = true := by
    rw [List.isEmpty_eq_false_iff.mpr hr.nonempty]
    simp
  rw [List.foldlM_append, hdigits, hzero, hnum]
  rfl

theorem foldlM_no_run (hdot : 46 ∉ r) (hr : ¬Run r) (h0 : st.a st.idx = 0)
    (hnum : st.hasNum = false) (t : List UInt8) : (r ++ 46 :: t).foldlM parseStep st = none := by
  have hzero : (st.a st.idx).toNat = 0 := by
    rw [h0]
    rfl
  by_cases hdigits : (∀ c ∈ r, IsDigit c) ∧ value (st.a st.idx).toNat r ≤ 255
  · have hnil : r = [] := by
      by_contra hne
      exact hr ⟨⟨hdigits.1, hzero ▸ hdigits.2⟩, hne⟩
    rw [hnil, List.nil_append, List.foldlM_cons, parseStep, if_pos rfl, hnum]
    rfl
  · exact foldlM_refused r st hdot hdigits _

/-- The state before the loop. -/
def parseStart : ParseState := ⟨fun _ => 0, 0, false⟩

/-- The state after three runs. -/
def headState (r1 r2 r3 : List UInt8) : ParseState :=
  ⟨Function.update (Function.update (Function.update (fun _ => 0) 0 (UInt8.ofNat (value 0 r1))) 1
    (UInt8.ofNat (value 0 r2))) 2 (UInt8.ofNat (value 0 r3)), 3, false⟩

theorem Head.foldlM (h : Head s r1 r2 r3 r4) :
    s.foldlM parseStep parseStart = r4.foldlM parseStep (headState r1 r2 r3) := by
  rw [h.eq, foldlM_run_dot h.run1 rfl, foldlM_run_dot h.run2 rfl, foldlM_run_dot h.run3 rfl]
  rfl

theorem Head.count (h : Head s r1 r2 r3 r4) (h4 : 46 ∉ r4) : s.count 46 = 3 := by
  rw [h.eq]
  simp only [List.count_append, List.count_cons_self,
    List.count_eq_zero_of_not_mem h.run1.not_mem, List.count_eq_zero_of_not_mem h.run2.not_mem,
    List.count_eq_zero_of_not_mem h.run3.not_mem, List.count_eq_zero_of_not_mem h4]

/-- The loop goes to the end of a string in the looser grammar. -/
theorem Loose.foldlM (h : Loose s r1 r2 r3 r4) : ∃ st, s.foldlM parseStep parseStart = some st ∧
    (⟨st.a 3, st.a 2, st.a 1, st.a 0⟩ : IPv4Bytes) = bytesOf r1 r2 r3 r4 := by
  have hrest := foldlM_digits r4 (headState r1 r2 r3) h.digits4.digit h.digits4.byte
  refine ⟨_, h.toHead.foldlM.trans hrest, ?_⟩
  rfl

/-- The loop ends early for every other string with three dots. -/
theorem foldlM_not_loose (hcount : s.count 46 = 3) (h : ¬∃ r1 r2 r3 r4, Loose s r1 r2 r3 r4) :
    s.foldlM parseStep parseStart = none := by
  obtain ⟨r1, t1, hs, hr1, hcount⟩ := exists_cut hcount
  obtain ⟨r2, t2, ht1, hr2, hcount⟩ := exists_cut hcount
  obtain ⟨r3, r4, ht2, hr3, hcount⟩ := exists_cut hcount
  have hr4 := List.count_eq_zero.mp hcount
  rw [ht2] at ht1
  rw [ht1] at hs
  by_cases h1 : Run r1
  · by_cases h2 : Run r2
    · by_cases h3 : Run r3
      · have hhead : Head s r1 r2 r3 r4 := ⟨hs, h1, h2, h3⟩
        rw [hhead.foldlM, ← List.append_nil r4]
        refine foldlM_refused r4 _ hr4 (fun ⟨hdigit, hbyte⟩ => ?_) []
        exact h ⟨r1, r2, r3, r4, hhead, hdigit, hbyte⟩
      · rw [hs, foldlM_run_dot h1 rfl, foldlM_run_dot h2 rfl]
        exact foldlM_no_run hr3 h3 rfl rfl _
    · rw [hs, foldlM_run_dot h1 rfl]
      exact foldlM_no_run hr2 h2 rfl rfl _
  · rw [hs]
    exact foldlM_no_run hr1 h1 rfl rfl _

/-! ### The function -/

variable {cs : CString} {addr : IPv4Bytes}

theorem parseIpv4_loose (h : Loose (scanned cs) r1 r2 r3 r4) :
    parseIpv4 cs addr = (0, bytesOf r1 r2 r3 r4) := by
  obtain ⟨st, hst, hbytes⟩ := h.foldlM
  unfold parseStart at hst
  rw [parseIpv4, if_neg (not_not_intro (h.count h.digits4.not_mem)), hst]
  dsimp only
  rw [hbytes]

theorem parseIpv4_not_loose (h : ¬∃ r1 r2 r3 r4, Loose (scanned cs) r1 r2 r3 r4) :
    parseIpv4 cs addr = (-1, addr) := by
  by_cases hcount : (scanned cs).count 46 = 3
  · have hnone := foldlM_not_loose hcount h
    unfold parseStart at hnone
    rw [parseIpv4, if_neg (not_not_intro hcount), hnone]
  · rw [parseIpv4, if_pos hcount]

/-! ### Lengths that an `int` cannot hold -/

/-- How much of a string of `n` characters is looked at. -/
def looked (n : Nat) : Nat := if n % 2 ^ 32 < 2 ^ 31 then n % 2 ^ 32 else 0

theorem scanned_eq (cs : CString) : scanned cs = cs.chars.take (looked cs.chars.length) := by
  have hlen : (UInt32.ofNat cs.chars.length).toInt32.toInt.toNat = looked cs.chars.length := by
    have hint : (UInt32.ofNat cs.chars.length).toInt32.toInt
        = (BitVec.ofNat 32 cs.chars.length).toInt := rfl
    rw [hint, BitVec.toInt_eq_toNat_cond, BitVec.toNat_ofNat]
    unfold looked
    split <;> split <;> omega
  unfold scanned
  dsimp only
  rw [hlen]

theorem looked_short {n : Nat} (h : n < 2 ^ 31) : looked n = n := by
  unfold looked
  rw [Nat.mod_eq_of_lt (by omega), if_pos h]

theorem looked_long {n : Nat} (h : 2 ^ 31 ≤ n) : looked n + 3 ≤ n := by
  unfold looked
  split <;> omega

/-! ### Exactly when the function is right -/

/-- `0` and the bytes for the strings of the grammar, and `-1` and nothing for all others. -/
structure Parses (cs : CString) : Prop where
  accept : ∀ r1 r2 r3 r4, Dotted cs.chars r1 r2 r3 r4 → ∀ addr,
    parseIpv4 cs addr = (0, bytesOf r1 r2 r3 r4)
  refuse : (¬∃ r1 r2 r3 r4, Dotted cs.chars r1 r2 r3 r4) → ∀ addr, parseIpv4 cs addr = (-1, addr)

/-- Three numbers, each with a dot behind it, and nothing else. -/
def TrailingDot (s : List UInt8) : Prop := ∃ r1 r2 r3, Head s r1 r2 r3 []

/-- The beginning of a string is in the looser grammar just when the string is in the grammar, and
then the last number is 0. -/
structure Prefix (s p : List UInt8) : Prop where
  accept : ∀ r1 r2 r3 r4, Dotted s r1 r2 r3 r4 →
    (∃ r1 r2 r3 r4, Loose p r1 r2 r3 r4) ∧ value 0 r4 = 0
  refuse : (∃ r1 r2 r3 r4, Loose p r1 r2 r3 r4) → ∃ r1 r2 r3 r4, Dotted s r1 r2 r3 r4

/-- The strings that the function is right about. -/
def Parseable (s : List UInt8) : Prop :=
  if s.length < 2 ^ 31 then ¬TrailingDot s else Prefix s (s.take (looked s.length))

theorem Head.unique {r1' r2' r3' r4' : List UInt8} (h : Head s r1 r2 r3 r4)
    (h' : Head s r1' r2' r3' r4') : r1 = r1' ∧ r2 = r2' ∧ r3 = r3' ∧ r4 = r4' := by
  have heq := h.eq.symm.trans h'.eq
  obtain ⟨h1, heq⟩ := cut_unique h.run1.not_mem h'.run1.not_mem heq
  obtain ⟨h2, heq⟩ := cut_unique h.run2.not_mem h'.run2.not_mem heq
  obtain ⟨h3, h4⟩ := cut_unique h.run3.not_mem h'.run3.not_mem heq
  exact ⟨h1, h2, h3, h4⟩

/-- What follows a beginning goes to the last run. -/
theorem Head.append (h : Head s r1 r2 r3 r4) (t : List UInt8) :
    Head (s ++ t) r1 r2 r3 (r4 ++ t) := by
  refine ⟨?_, h.run1, h.run2, h.run3⟩
  rw [h.eq]
  simp only [List.append_assoc, List.cons_append]

theorem not_dotted_of_trailingDot (h : Head s r1 r2 r3 []) :
    ¬∃ r1 r2 r3 r4, Dotted s r1 r2 r3 r4 := by
  rintro ⟨_, _, _, _, h'⟩
  exact h'.run4.nonempty (h.unique h'.toHead).2.2.2.symm

theorem fst_ne {a b : IPv4Bytes} : ((0 : Int32), a) ≠ (-1, b) := by
  intro h
  have hfst : (0 : Int32) = -1 := congrArg Prod.fst h
  exact absurd hfst (by decide)

theorem parses_short (hlen : cs.chars.length < 2 ^ 31) :
    Parses cs ↔ ¬TrailingDot cs.chars := by
  have hscan : scanned cs = cs.chars := by
    rw [scanned_eq, looked_short hlen, List.take_length]
  refine ⟨fun h ⟨r1, r2, r3, hhead⟩ => ?_,
    fun h => ⟨fun r1 r2 r3 r4 hd addr => ?_, fun hno addr => ?_⟩⟩
  · have hloose : Loose (scanned cs) r1 r2 r3 [] :=
      ⟨hscan ▸ hhead, fun c hc => (List.not_mem_nil hc).elim, Nat.zero_le _⟩
    have hrefuse := h.refuse (not_dotted_of_trailingDot hhead) ⟨0, 0, 0, 0⟩
    rw [parseIpv4_loose hloose] at hrefuse
    exact fst_ne hrefuse
  · exact parseIpv4_loose ⟨hscan ▸ hd.toHead, hd.run4.toDigits⟩
  · refine parseIpv4_not_loose fun ⟨r1, r2, r3, r4, hloose⟩ => ?_
    rw [hscan] at hloose
    by_cases hnil : r4 = []
    · exact h ⟨r1, r2, r3, hnil ▸ hloose.toHead⟩
    · exact hno ⟨r1, r2, r3, r4, hloose.toHead, hloose.digits4, hnil⟩

/-- Two runs that are one number, of which one goes on for three digits more. -/
theorem value_prefix_eq_zero (ht : 3 ≤ t.length) (h : value 0 (r ++ t) ≤ 255) : value 0 r = 0 := by
  rw [value_append] at h
  by_contra hne
  have hpow : 10 ^ 3 ≤ 10 ^ t.length := Nat.pow_le_pow_right (by decide) ht
  have hmul := Nat.mul_le_mul (Nat.one_le_iff_ne_zero.mpr hne) hpow
  have hle := mul_le_value t (value 0 r)
  omega

theorem parses_long (hlen : 2 ^ 31 ≤ cs.chars.length) :
    Parses cs ↔ Prefix cs.chars (cs.chars.take (looked cs.chars.length)) := by
  have hscan := scanned_eq cs
  have hrest : 3 ≤ (cs.chars.drop (looked cs.chars.length)).length := by
    have hlooked := looked_long hlen
    rw [List.length_drop]
    omega
  have hsplit := List.take_append_drop (looked cs.chars.length) cs.chars
  -- The last run of the string goes on where that of the beginning ends.
  have hlast : ∀ {r1 r2 r3 r4 r1' r2' r3' r4' : List UInt8}, Dotted cs.chars r1 r2 r3 r4 →
      Loose (scanned cs) r1' r2' r3' r4' →
        (bytesOf r1' r2' r3' r4' = bytesOf r1 r2 r3 r4 ↔ value 0 r4 = 0) := by
    intro r1 r2 r3 r4 r1' r2' r3' r4' hd hl
    have hhead := hl.toHead.append (cs.chars.drop (looked cs.chars.length))
    rw [hscan, hsplit] at hhead
    obtain ⟨rfl, rfl, rfl, rfl⟩ := hhead.unique hd.toHead
    have hzero := value_prefix_eq_zero hrest hd.run4.byte
    have hbyte := hd.run4.byte
    unfold bytesOf
    rw [IPv4Bytes.mk.injEq, hzero]
    refine ⟨fun ⟨h, _⟩ => ?_, fun h => ⟨by rw [h], rfl, rfl, rfl⟩⟩
    have hnat := congrArg UInt8.toNat h
    rw [UInt8.toNat_ofNat', UInt8.toNat_ofNat'] at hnat
    omega
  refine ⟨fun h => ⟨fun r1 r2 r3 r4 hd => ?_, fun ⟨r1, r2, r3, r4, hl⟩ => ?_⟩,
    fun h => ⟨fun r1 r2 r3 r4 hd addr => ?_, fun hno addr => ?_⟩⟩
  · have haccept := h.accept r1 r2 r3 r4 hd ⟨0, 0, 0, 0⟩
    by_cases hloose : ∃ r1 r2 r3 r4, Loose (scanned cs) r1 r2 r3 r4
    · obtain ⟨r1', r2', r3', r4', hl⟩ := hloose
      rw [parseIpv4_loose hl] at haccept
      exact ⟨⟨r1', r2', r3', r4', hscan ▸ hl⟩, (hlast hd hl).mp (congrArg Prod.snd haccept)⟩
    · rw [parseIpv4_not_loose hloose] at haccept
      exact (fst_ne haccept.symm).elim
  · by_contra hno
    have hrefuse := h.refuse hno ⟨0, 0, 0, 0⟩
    rw [parseIpv4_loose (hscan ▸ hl)] at hrefuse
    exact fst_ne hrefuse
  · obtain ⟨⟨r1', r2', r3', r4', hl⟩, hzero⟩ := h.accept r1 r2 r3 r4 hd
    rw [← hscan] at hl
    rw [parseIpv4_loose hl, (hlast hd hl).mpr hzero]
  · exact parseIpv4_not_loose fun hloose => hno (h.refuse (hscan ▸ hloose))

/-- The function is right about every string but those that end with the third dot, and those whose
length does not fit and whose beginning is read as something else. -/
theorem parseIpv4_exact (cs : CString) : Parses cs ↔ Parseable cs.chars := by
  unfold Parseable
  by_cases hlen : cs.chars.length < 2 ^ 31
  · rw [if_pos hlen]
    exact parses_short hlen
  · rw [if_neg hlen]
    exact parses_long (by omega)

theorem Run.singleton (h : IsDigit c) : Run [c] := by
  obtain ⟨hlow, hhigh⟩ := h
  refine ⟨⟨fun d hd => ?_, ?_⟩, List.cons_ne_nil _ _⟩
  · rw [List.mem_singleton.mp hd]
    exact ⟨hlow, hhigh⟩
  · rw [value, List.foldl_cons, List.foldl_nil]
    omega

/-- `1.2.3.` is read as `1.2.3.0`. -/
theorem parseIpv4_trailing_dot : ¬∀ cs, Parses cs := by
  intro h
  have hhead : Head [49, 46, 50, 46, 51, 46] [49] [50] [51] [] :=
    ⟨rfl, Run.singleton (by decide), Run.singleton (by decide), Run.singleton (by decide)⟩
  have hrefuse := (h ⟨[49, 46, 50, 46, 51, 46], by decide⟩).refuse (not_dotted_of_trailingDot hhead)
    ⟨0, 0, 0, 0⟩
  exact absurd hrefuse (by decide)

end JudgeDuck.DuckNet
