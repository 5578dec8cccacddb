/-
`tosend_free` as a set of slots.

Setting and clearing the bit of a slot changes the slot and no other, and the
search returns a slot whose bit is set.
-/
import JudgeDuck.Model.DuckNet.Ipv4

namespace JudgeDuck

namespace DuckNet

variable {free : Nat → UInt32} {i j : Nat}

/-- Bit `k` of a word. -/
def wordBit (x : UInt32) (k : Nat) : Bool := x.toBitVec.getLsbD k

theorem toBitVec_slotBit (i : Nat) : (slotBit i).toBitVec = BitVec.twoPow 32 (i % 32) := by
  have hlt : i % 32 % 4294967296 = i % 32 := by omega
  rw [slotBit, UInt32.toBitVec_shiftLeft]
  apply BitVec.eq_of_toNat_eq
  simp [BitVec.toNat_twoPow, Nat.shiftLeft_eq, hlt]

theorem wordBit_slotBit (i k : Nat) (hk : k < 32) :
    wordBit (slotBit i) k = decide (i % 32 = k) := by
  rw [wordBit, toBitVec_slotBit, BitVec.getLsbD_twoPow]
  simp
  omega

/-- A word is zero when all its bits are. -/
theorem exists_wordBit {x : UInt32} (hx : x ≠ 0) : ∃ k, k < 32 ∧ wordBit x k = true := by
  by_contra hc
  push Not at hc
  refine hx (UInt32.toBitVec_inj.mp (BitVec.eq_of_getLsbD_eq fun k hk => ?_))
  simpa [wordBit] using hc k hk

theorem slotFree_eq (free : Nat → UInt32) (i : Nat) :
    slotFree free i = wordBit (free (i / 32)) (i % 32) := by
  have hlt : i % 32 < 32 := Nat.mod_lt _ (by decide)
  have hand : ∀ k, k < 32 → wordBit (free (i / 32) &&& slotBit i) k =
      (wordBit (free (i / 32)) k && decide (i % 32 = k)) := by
    intro k hk
    rw [← wordBit_slotBit i k hk]
    simp [wordBit]
  rw [slotFree, Bool.eq_iff_iff, decide_eq_true_iff]
  constructor
  · intro hne
    obtain ⟨k, hk, hb⟩ := exists_wordBit hne
    rw [hand k hk] at hb
    simp at hb
    rw [hb.2]
    exact hb.1
  · intro hb hz
    have h := hand (i % 32) hlt
    rw [hz, hb] at h
    simp [wordBit] at h

/-- Two slots with one word and one bit are the same. -/
theorem slot_eq_iff : i = j ↔ i / 32 = j / 32 ∧ i % 32 = j % 32 := by omega

theorem slotFree_setFree :
    slotFree (setFree free i) j = true ↔ i = j ∨ slotFree free j = true := by
  have hlt : j % 32 < 32 := Nat.mod_lt _ (by decide)
  rw [slotFree_eq, slotFree_eq, setFree, slot_eq_iff]
  by_cases hw : i / 32 = j / 32
  · have hor : wordBit (free (j / 32) ||| slotBit i) (j % 32) =
        (wordBit (free (j / 32)) (j % 32) || wordBit (slotBit i) (j % 32)) := by simp [wordBit]
    rw [hw, Function.update_self, hor, wordBit_slotBit i _ hlt]
    simp [or_comm]
  · rw [Function.update_of_ne (Ne.symm hw)]
    simp [hw]

theorem slotFree_clearFree :
    slotFree (clearFree free i) j = true ↔ i ≠ j ∧ slotFree free j = true := by
  have hlt : j % 32 < 32 := Nat.mod_lt _ (by decide)
  rw [slotFree_eq, slotFree_eq, clearFree, ne_eq, slot_eq_iff]
  by_cases hw : i / 32 = j / 32
  · have hand : wordBit (free (j / 32) &&& ~~~slotBit i) (j % 32) =
        (wordBit (free (j / 32)) (j % 32) && !wordBit (slotBit i) (j % 32)) := by
      simp [wordBit, hlt]
    rw [hw, Function.update_self, hand, wordBit_slotBit i _ hlt]
    simp [and_comm]
  · rw [Function.update_of_ne (Ne.symm hw)]
    simp [hw]

/-- After `ducknet_ipv4_init` every slot is free. -/
theorem slotFree_foldl_setFree (n : Nat) :
    slotFree ((List.range n).foldl setFree fun _ => 0) j = true ↔ j < n := by
  induction n with
  | zero => rw [slotFree_eq]; simp [wordBit]
  | succ n ih =>
      rw [List.range_succ, List.foldl_append, List.foldl_cons, List.foldl_nil, slotFree_setFree, ih]
      omega

/-! ### The search -/

theorem getLowerBitIndex_spec {x : UInt32} (hx : x ≠ 0) :
    getLowerBitIndex x < 32 ∧ wordBit x (getLowerBitIndex x) = true := by
  have hbit : ∀ k, k < 32 → ((x >>> UInt32.ofNat k) &&& (1 : UInt32) ≠ 0 ↔ wordBit x k = true) := by
    intro k hk
    have hz : (x >>> UInt32.ofNat k) &&& (1 : UInt32) = 0 ↔
        ((x >>> UInt32.ofNat k) &&& (1 : UInt32)).toNat = 0 := by
      rw [← UInt32.toNat_inj]
      rfl
    rw [Ne, hz, wordBit]
    have hk' : k % 32 = k := Nat.mod_eq_of_lt hk
    simp [hk', Nat.and_one_is_mod, Nat.shiftRight_eq_div_pow, Nat.testBit, BitVec.getLsbD]
  have hsome : ((List.range 32).find? fun i =>
      decide ((x >>> UInt32.ofNat i) &&& (1 : UInt32) ≠ 0)).isSome := by
    obtain ⟨k, hk, hb⟩ := exists_wordBit hx
    rw [List.find?_isSome]
    exact ⟨k, List.mem_range.mpr hk, decide_eq_true ((hbit k hk).mpr hb)⟩
  obtain ⟨k, hk⟩ := Option.isSome_iff_exists.mp hsome
  have hlt : k < 32 := List.mem_range.mp (List.mem_of_find?_eq_some hk)
  have hval : getLowerBitIndex x = k := by
    rw [getLowerBitIndex, hk]
    rfl
  rw [hval]
  have hne := List.find?_some hk
  exact ⟨hlt, (hbit k hlt).mp (of_decide_eq_true hne)⟩

theorem findTosendFree_some (h : findTosendFree free = some i) :
    i < tosendTableSize ∧ slotFree free i = true := by
  have key : ∀ w, free w ≠ 0 → ∀ i, w <<< 5 ||| getLowerBitIndex (free w) = i →
      i / 32 = w ∧ slotFree free i = true := by
    intro w hw i hi
    obtain ⟨hlt, hb⟩ := getLowerBitIndex_spec hw
    have hor := Nat.shiftLeft_add_eq_or_of_lt (i := 5) hlt w
    rw [hi, Nat.shiftLeft_eq] at hor
    have hdiv : i / 32 = w := by omega
    have hmod : i % 32 = getLowerBitIndex (free w) := by omega
    exact ⟨hdiv, by rw [slotFree_eq, hdiv, hmod, hb]⟩
  rw [findTosendFree, List.findSome?_eq_some_iff] at h
  obtain ⟨l, w, l', hl, hw, -⟩ := h
  have hmem : w ∈ List.range 2 := by rw [hl]; simp
  rw [List.mem_range] at hmem
  split at hw
  · next hne =>
    obtain ⟨hdiv, hfree⟩ := key w hne i (Option.some.inj hw)
    exact ⟨by rw [tosendTableSize]; omega, hfree⟩
  · exact absurd hw (by simp)

end DuckNet

end JudgeDuck
