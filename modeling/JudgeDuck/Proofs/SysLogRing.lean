/-
The log as a string.

The ring holds the last 32767 characters.  `head` and `tail` are counters of characters
modulo the size of the ring (`Refines`); a read is then a piece of the string, and a loop
that goes on by what it has read goes through the string once.
-/
import JudgeDuck.Model.DuckReply
import JudgeDuck.Model.SysLogRing

namespace JudgeDuck.SysLogRing

/-! ### The string -/

/-- The last characters of what has been written, as many as the ring can hold. -/
def last (w : List UInt8) : List UInt8 := w.drop (w.length - 32767)

/-- The index of the first character that is read: from the end for a negative `start`, and kept
inside of the string. -/
def position (start : Int) (size : Nat) : Nat :=
  if start < 0 then (size + start).toNat else min start.toNat size

/-- The calls of `putchar`, one for each character. -/
def puts (w : List UInt8) (s : State) : State := w.foldl (fun s c => putchar c s) s

/-- The number of characters that have left the ring. -/
def dropped (w : List UInt8) : Nat := w.length - 32767

/-- The ring after the characters `w`: both indices are counters, and the slots between them hold
what is left of `w`. -/
structure Refines (s : State) (w : List UInt8) : Prop where
  head : s.head = ((dropped w % 32768 : Nat) : Int)
  tail : s.tail = ((w.length % 32768 : Nat) : Int)
  slots : ∀ i, dropped w ≤ i → ∀ h : i < w.length, s.buffer (i % 32768) = w[i]

variable {s : State} {w : List UInt8} {start len : Int}

theorem dropped_eq_zero (h : w.length ≤ 32767) : dropped w = 0 := Nat.sub_eq_zero_of_le h

theorem dropped_add (h : 32767 ≤ w.length) : dropped w + 32767 = w.length := Nat.sub_add_cancel h

theorem dropped_le_append (w : List UInt8) (c : UInt8) : dropped w ≤ dropped (w ++ [c]) :=
  Nat.sub_le_sub_right (List.length_append ▸ Nat.le_add_right _ _) _

theorem length_last (w : List UInt8) : (last w).length = w.length - dropped w := List.length_drop

theorem tmod_natCast (n : Nat) : ((n : Int)).tmod maxLogLen = ((n % 32768 : Nat) : Int) := by
  rw [Int.tmod_eq_emod_of_nonneg (Int.natCast_nonneg n)]
  rfl

theorem refines_init (s : State) : Refines (init s) [] :=
  ⟨rfl, rfl, fun _ _ h => (Nat.not_lt_zero _ h).elim⟩

/-- A slot is used again only after its character has left the ring. -/
theorem Refines.putchar (h : Refines s w) (c : UInt8) : Refines (putchar c s) (w ++ [c]) := by
  obtain ⟨hhead, htail, hslots⟩ := h
  have htail' : (s.tail + 1).tmod maxLogLen = (((w.length + 1) % 32768 : Nat) : Int) := by
    have hcast : s.tail + 1 = ((w.length % 32768 + 1 : Nat) : Int) := by
      rw [htail]
      rfl
    rw [hcast, tmod_natCast, Nat.mod_add_mod]
  have hhead' : (s.head + 1).tmod maxLogLen = (((dropped w + 1) % 32768 : Nat) : Int) := by
    have hcast : s.head + 1 = ((dropped w % 32768 + 1 : Nat) : Int) := by
      rw [hhead]
      rfl
    rw [hcast, tmod_natCast, Nat.mod_add_mod]
  have hlen : (w ++ [c]).length = w.length + 1 := List.length_append
  have hslots' : ∀ i, dropped (w ++ [c]) ≤ i → ∀ hi : i < (w ++ [c]).length,
      Function.update s.buffer s.tail.toNat c (i % 32768) = (w ++ [c])[i] := by
    intro i hlow hi
    have hnat : s.tail.toNat = w.length % 32768 := by rw [htail, Int.toNat_natCast]
    have hle := dropped_le_append w c
    rw [hnat]
    by_cases hlt : i < w.length
    · have hne : i % 32768 ≠ w.length % 32768 := by
        by_cases hfull : w.length < 32767
        · omega
        · have hdrop := dropped_add (w := w ++ [c]) (by omega)
          omega
      rw [List.getElem_append_left hlt, Function.update_of_ne hne]
      exact hslots i (by omega) hlt
    · have hi' : i = w.length := by omega
      subst hi'
      rw [Function.update_self, List.getElem_concat_length rfl]
  unfold SysLogRing.putchar
  dsimp only
  rw [htail', hhead', hhead]
  by_cases hfull : w.length < 32767
  · have hzero : dropped w = 0 := dropped_eq_zero (by omega)
    have hzero' : dropped (w ++ [c]) = 0 := dropped_eq_zero (by omega)
    rw [if_neg (by rw [hzero]; omega)]
    exact ⟨by rw [hzero', hzero], by rw [hlen], hslots'⟩
  · have hdrop : dropped w + 32767 = w.length := dropped_add (by omega)
    have hdrop' : dropped (w ++ [c]) + 32767 = (w ++ [c]).length := dropped_add (by omega)
    have hnext : dropped (w ++ [c]) = dropped w + 1 := by omega
    rw [if_pos (by omega)]
    exact ⟨by rw [hnext], by rw [hlen], hslots'⟩

theorem refines_puts (w : List UInt8) (s : State) : Refines (puts w (init s)) w := by
  induction w using List.reverseRecOn with
  | nil => exact refines_init s
  | append_singleton w c ih =>
      rw [puts, List.foldl_append]
      exact ih.putchar c

/-! ### Reading -/

/-- `buf_len`. -/
theorem Refines.bufLen (h : Refines s w) :
    (s.tail - s.head + maxLogLen).tmod maxLogLen = ((last w).length : Int) := by
  have hlen := length_last w
  have hle : dropped w ≤ w.length := Nat.sub_le _ _
  have hroom : w.length ≤ dropped w + 32767 := Nat.sub_le_iff_le_add.mp (Nat.le_refl _)
  have hcast : s.tail - s.head + maxLogLen
      = ((w.length % 32768 + 32768 - dropped w % 32768 : Nat) : Int) := by
    rw [h.head, h.tail, maxLogLen]
    omega
  rw [hcast, tmod_natCast, hlen]
  omega

/-- The slot of a character that is in the ring. -/
theorem Refines.slot (h : Refines s w) {i : Nat} (hi : i < (last w).length) :
    s.buffer ((s.head + (i : Int)).tmod maxLogLen).toNat = (last w)[i] := by
  have hlen := length_last w
  have hcast : s.head + (i : Int) = ((dropped w % 32768 + i : Nat) : Int) := by
    rw [h.head]
    rfl
  have hlast : (last w)[i] = w[dropped w + i] := List.getElem_drop
  rw [hcast, tmod_natCast, Int.toNat_natCast, Nat.mod_add_mod,
    h.slots (dropped w + i) (Nat.le_add_right _ _) (by omega), hlast]

/-- The string that is in the ring. -/
def log (s : State) : List UInt8 :=
  (List.range ((s.tail - s.head + maxLogLen).tmod maxLogLen).toNat).map fun i : Nat =>
    s.buffer ((s.head + i).tmod maxLogLen).toNat

theorem Refines.log (h : Refines s w) : log s = last w := by
  unfold SysLogRing.log
  rw [h.bufLen, Int.toNat_natCast]
  refine List.ext_getElem (by rw [List.length_map, List.length_range]) fun i hi hi' => ?_
  rw [List.getElem_map, List.getElem_range]
  exact h.slot hi'

/-- The two tests of `start`. -/
theorem position_eq (start : Int) (size : Nat) :
    (let start := if start < 0 then (size : Int) + start else start
     let start := if start < 0 then 0 else start
     if start > size then (size : Int) else start) = (position start size : Int) := by
  unfold position
  dsimp only
  by_cases h : start < 0
  · rw [if_pos h, if_pos h]
    by_cases h' : (size : Int) + start < 0
    · rw [if_pos h']
      omega
    · rw [if_neg h']
      omega
  · rw [if_neg h, if_neg h, if_neg h]
    by_cases h' : start > size
    · rw [if_pos h']
      omega
    · rw [if_neg h']
      omega

theorem position_le (start : Int) (size : Nat) : position start size ≤ size := by
  unfold position
  split <;> omega

/-- `get` copies a piece of the string and returns its length. -/
theorem Refines.get (h : Refines s w) (hlen : 0 ≤ len) : get start len s =
    (min len ((last w).length - position start (last w).length),
      ((last w).drop (position start (last w).length)).take len.toNat) := by
  have hpos := position_eq start (last w).length
  have hle := position_le start (last w).length
  dsimp only at hpos
  unfold SysLogRing.get
  rw [h.bufLen]
  dsimp only
  rw [hpos]
  generalize position start (last w).length = p at hle ⊢
  have hmin : (if len > ((last w).length : Int) - p then ((last w).length : Int) - p else len)
      = min len ((last w).length - p) := by omega
  rw [hmin]
  refine Prod.ext rfl (List.ext_getElem ?_ fun i hi hi' => ?_)
  · rw [List.length_map, List.length_range, List.length_take, List.length_drop]
    omega
  · rw [List.length_map, List.length_range] at hi
    rw [List.getElem_map, List.getElem_range, List.getElem_take, List.getElem_drop, Int.add_assoc]
    exact h.slot (i := p + i) (by omega)

/-! ### Replaying -/

/-- The rest of the string from a position on, in chunks. -/
theorem Refines.replay (h : Refines s w) : ∀ (fuel p : Nat), p ≤ (last w).length →
    (last w).length - p + 32 ≤ 32 * fuel → replay s fuel p = some ((last w).drop p) := by
  intro fuel
  induction fuel with
  | zero => exact fun p _ hf => by omega
  | succ fuel ih =>
      intro p hp hf
      have hpos : position (p : Int) (last w).length = p := by
        rw [position, if_neg (by omega)]
        omega
      rw [SysLogRing.replay, h.get (by decide), hpos]
      dsimp only
      by_cases hend : p = (last w).length
      · rw [if_pos (by omega), hend, List.drop_length]
      · have hnext : (p : Int) + min 32 (((last w).length : Int) - p)
            = ((p + min 32 ((last w).length - p) : Nat) : Int) := by omega
        rw [if_neg (by omega), hnext, ih _ (by omega) (by omega), Option.map_some]
        -- What follows the chunk is what the next round starts with.
        have hrest : (last w).drop (p + min 32 ((last w).length - p))
            = ((last w).drop p).drop 32 := by
          rw [List.drop_drop]
          by_cases hchunk : 32 ≤ (last w).length - p
          · rw [Nat.min_eq_left hchunk]
          · rw [List.drop_eq_nil_of_le (by omega), List.drop_eq_nil_of_le (by omega)]
        rw [hrest]
        exact congrArg some (List.take_append_drop 32 _)

/-- The log is the string of the last characters; `get` reads pieces of it, and the replay reads
all of it and stops. -/
theorem log_last (s : State) (w : List UInt8) :
    log (puts w (init s)) = last w ∧
    (∀ start len : Int, 0 ≤ len → get start len (puts w (init s)) =
      (min len ((last w).length - position start (last w).length),
        ((last w).drop (position start (last w).length)).take len.toNat)) ∧
    ∀ fuel, (last w).length + 32 ≤ 32 * fuel → replay (puts w (init s)) fuel 0 = some (last w) := by
  have h := refines_puts w s
  refine ⟨h.log, fun _ _ hlen => h.get hlen, fun fuel hf => ?_⟩
  have hall := h.replay fuel 0 (Nat.zero_le _)
  rw [Nat.sub_zero, Nat.cast_zero, List.drop_zero] at hall
  exact hall hf

theorem log_last_hey :
    get (-2) 5 (puts [104, 101, 121] (init ⟨fun _ => 0, 0, 0⟩)) = (2, [101, 121]) ∧
    replay (puts [104, 101, 121] (init ⟨fun _ => 0, 0, 0⟩)) 2 0 = some [104, 101, 121] := by
  obtain ⟨-, hget, hreplay⟩ := log_last ⟨fun _ => 0, 0, 0⟩ [104, 101, 121]
  exact ⟨(hget (-2) 5 (by decide)).trans (by decide), hreplay 2 (by decide)⟩

end JudgeDuck.SysLogRing
