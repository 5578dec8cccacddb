/-
The recursive mapping finds the entries of the explicit walk.

Each address has the number of the last entry in as many of its upper fields as levels
are to be skipped, and the fields of the address that it is for below them.  The walk of
the processor stays in the topmost table for the former and goes down for the latter.
-/
import JudgeDuck.Base.Bits
import JudgeDuck.Base.Paging
import JudgeDuck.Model.PageTable

namespace JudgeDuck.PageTable

open Paging

variable {v : UInt64}

/-! ### The fields of the addresses -/

/-- The high bits of the shifted address disappear in the ones. -/
theorem toNat_recursive {shift ones : UInt64} {s t : Nat} (hs : shift.toNat % 64 = s)
    (ht : t ≤ 64) (hones : ones.toNat = Bits.mask (64 - t) t) (v : UInt64) :
    (((v >>> shift) &&& (-8)) ||| ones).toNat
      = v.toNat / 2 ^ s / 8 * 8 % 2 ^ t + Bits.mask (64 - t) t := by
  have height : (-8 : UInt64).toNat = Bits.mask 61 3 := by decide
  have hlt : v.toNat / 2 ^ s < 2 ^ (3 + 61) := Nat.lt_of_le_of_lt (Nat.div_le_self _ _) v.toNat_lt
  have hand : v.toNat / 2 ^ s &&& Bits.mask 61 3 = v.toNat / 2 ^ s / 8 * 8 := Bits.and_high hlt
  have hpow : t + (64 - t) = 64 := by omega
  rw [UInt64.toNat_or, UInt64.toNat_and, UInt64.toNat_shiftRight, hs, Nat.shiftRight_eq_div_pow,
    height,
    hones, hand, Bits.or_high]
  rw [hpow]
  exact Nat.lt_of_le_of_lt (Nat.div_mul_le_self _ _) hlt

theorem getP1_fields (v : UInt64) :
    Fields (getP1 v) 511 (index v 3) (index v 2) (index v 1) (8 * index v 0) := by
  have hs : (9 : UInt64).toNat % 64 = 9 := rfl
  have hones : (-((1 : UInt64) <<< (39 : UInt64))).toNat = Bits.mask (64 - 39) 39 := by decide
  have h : (getP1 v).toNat = _ := toNat_recursive hs (by decide) hones v
  have hv := v.toNat_lt
  unfold Bits.mask at h
  constructor
  · right
    omega
  all_goals
    unfold index
    omega

theorem getP2_fields (v : UInt64) :
    Fields (getP2 v) 511 511 (index v 3) (index v 2) (8 * index v 1) := by
  have hs : (18 : UInt64).toNat % 64 = 18 := rfl
  have hones : (-((1 : UInt64) <<< (30 : UInt64))).toNat = Bits.mask (64 - 30) 30 := by decide
  have h : (getP2 v).toNat = _ := toNat_recursive hs (by decide) hones v
  have hv := v.toNat_lt
  unfold Bits.mask at h
  constructor
  · right
    omega
  all_goals
    unfold index
    omega

theorem getP3_fields (v : UInt64) :
    Fields (getP3 v) 511 511 511 (index v 3) (8 * index v 2) := by
  have hs : (27 : UInt64).toNat % 64 = 27 := rfl
  have hones : (-((1 : UInt64) <<< (21 : UInt64))).toNat = Bits.mask (64 - 21) 21 := by decide
  have h : (getP3 v).toNat = _ := toNat_recursive hs (by decide) hones v
  have hv := v.toNat_lt
  unfold Bits.mask at h
  constructor
  · right
    omega
  all_goals
    unfold index
    omega

theorem getP4_fields (v : UInt64) :
    Fields (getP4 v) 511 511 511 511 (8 * index v 3) := by
  have hs : (36 : UInt64).toNat % 64 = 36 := rfl
  have hones : (-((1 : UInt64) <<< (12 : UInt64))).toNat = Bits.mask (64 - 12) 12 := by decide
  have h : (getP4 v).toNat = _ := toNat_recursive hs (by decide) hones v
  have hv := v.toNat_lt
  unfold Bits.mask at h
  constructor
  · right
    omega
  all_goals
    unfold index
    omega

/-! ### The explicit walk -/

theorem pteAddr_toNat {t i : UInt64} (ht : t.toNat % 4096 = 0) (hi : i.toNat < 512) :
    (pteAddr t i).toNat = t.toNat + 8 * i.toNat := by
  have h8 : (8 : UInt64).toNat = 8 := rfl
  have hsplit : t.toNat = t.toNat / 4096 * 2 ^ 12 := by omega
  rw [pteAddr, UInt64.toNat_or, UInt64.toNat_mul, h8, Nat.mod_eq_of_lt (by omega), hsplit,
    Nat.lor_comm,
    Bits.or_field (by omega)]
  omega

theorem index_toNat {shift : UInt64} {s : Nat} (hs : shift.toNat % 64 = s) (v : UInt64) :
    ((v >>> shift) &&& (Memory.pageSize / 8 - 1)).toNat = v.toNat / 2 ^ s % 512 := by
  have hmask : (Memory.pageSize / 8 - 1).toNat = 2 ^ 9 - 1 := by decide
  rw [UInt64.toNat_and, UInt64.toNat_shiftRight, hs, hmask, Nat.and_two_pow_sub_one_eq_mod,
    Nat.shiftRight_eq_div_pow]

theorem p4Index_toNat (v : UInt64) : (p4Index v).toNat = index v 3 := index_toNat rfl v
theorem p3Index_toNat (v : UInt64) : (p3Index v).toNat = index v 2 := index_toNat rfl v
theorem p2Index_toNat (v : UInt64) : (p2Index v).toNat = index v 1 := index_toNat rfl v
theorem p1Index_toNat (v : UInt64) : (p1Index v).toNat = index v 0 := index_toNat rfl v

/-- The address in an entry: bits 12 to 51. -/
def frameOf (e : UInt64) : UInt64 := e &&& 0x000ffffffffff000

theorem frameOf_toNat (e : UInt64) : (frameOf e).toNat = frame 12 e := by
  have hmask : (0x000ffffffffff000 : UInt64).toNat = Bits.mask 40 12 := by decide
  rw [frameOf, UInt64.toNat_and, hmask, Bits.and_field]
  rfl

/-- The bits that neither belong to the address nor are cleared by `clear_page_flags`. -/
def Clean (e : UInt64) : Prop := e.toNat / 2 ^ 9 % 8 = 0 ∧ e.toNat / 2 ^ 52 % 2 ^ 11 = 0

theorem tableOf_toNat {e : UInt64} (h : Clean e) : (tableOf e).toNat = frame 12 e := by
  obtain ⟨hlow, hhigh⟩ := h
  have hshift : (tableOf e).toNat = e.toNat * 2 % 2 ^ 64 / 2 ^ 10 * 2 ^ 9 % 2 ^ 64 := by
    show (Memory.clearPageFlags e.toBitVec).toNat = _
    rw [Memory.clearPageFlags, BitVec.toNat_shiftLeft, BitVec.toNat_ushiftRight,
      BitVec.toNat_shiftLeft, Nat.shiftLeft_eq, Nat.shiftLeft_eq, Nat.shiftRight_eq_div_pow]
    rfl
  have hlt := e.toNat_lt
  rw [hshift]
  unfold frame
  omega

/-! ### The last entry -/

/-- The entry at a physical address. -/
def word (m : Mem) (a : Nat) : UInt64 := m.read64 a

/-- The last entry of the topmost table leads to that table. -/
structure Recursive (m : Mem) (p4 : UInt64) : Prop where
  aligned : p4.toNat % 4096 = 0
  isTable : IsTable (word m (p4.toNat + 8 * 511))
  self : frame 12 (word m (p4.toNat + 8 * 511)) = p4.toNat

/-- The walk for an address takes the tables from the address bits of the entries. -/
structure Follows (table : UInt64 → UInt64) (m : Mem) (p4 v : UInt64) : Prop where
  e4 : (table (word m (p4Entry p4 v).toNat)).toNat = frame 12 (word m (p4Entry p4 v).toNat)
  e3 : (table (word m (p3Entry table m p4 v).toNat)).toNat
    = frame 12 (word m (p3Entry table m p4 v).toNat)
  e2 : (table (word m (p2Entry table m p4 v).toNat)).toNat
    = frame 12 (word m (p2Entry table m p4 v).toNat)

/-- The four addresses lead to the entries that the walk finds, as far as the entries above them
lead to tables. -/
structure Reaches (table : UInt64 → UInt64) (m : Mem) (p4 v : UInt64) : Prop where
  atP4 : Paging.translate (word m) p4.toNat (getP4 v) = some (p4Entry p4 v).toNat
  atP3 : IsTable (word m (p4Entry p4 v).toNat) →
    Paging.translate (word m) p4.toNat (getP3 v) = some (p3Entry table m p4 v).toNat
  atP2 : IsTable (word m (p4Entry p4 v).toNat) → IsTable (word m (p3Entry table m p4 v).toNat) →
    Paging.translate (word m) p4.toNat (getP2 v) = some (p2Entry table m p4 v).toNat
  atP1 : IsTable (word m (p4Entry p4 v).toNat) → IsTable (word m (p3Entry table m p4 v).toNat) →
    IsTable (word m (p2Entry table m p4 v).toNat) →
    Paging.translate (word m) p4.toNat (getP1 v) = some (p1Entry table m p4 v).toNat

variable {m : Mem} {p4 : UInt64} {table : UInt64 → UInt64}

/-- An entry of the table that an entry leads to. -/
theorem entry_toNat {t i : UInt64} {e : UInt64} {level : Nat} (ht : t.toNat = frame 12 e)
    (hi : i.toNat = index v level) : (pteAddr t i).toNat = frame 12 e + 8 * index v level := by
  have hlt := index_lt v level
  rw [pteAddr_toNat (by rw [ht]; exact frame_mod e) (by omega), ht, hi]

theorem Recursive.p4Entry_toNat (h : Recursive m p4) (v : UInt64) :
    (p4Entry p4 v).toNat = p4.toNat + 8 * index v 3 := by
  have hlt := index_lt v 3
  rw [p4Entry, pteAddr_toNat h.aligned (by rw [p4Index_toNat]; exact hlt), p4Index_toNat]

/-- Every `get_P` stays in the topmost table for as many levels as it skips. -/
theorem Recursive.reaches (h : Recursive m p4) {v : UInt64} (hf : Follows table m p4 v) :
    Reaches table m p4 v := by
  have hself := h.self
  have hown := h.isTable
  have h4 := h.p4Entry_toNat v
  have h3 : (p3Entry table m p4 v).toNat = _ := entry_toNat hf.e4 (p3Index_toNat v)
  have h2 : (p2Entry table m p4 v).toNat = _ := entry_toNat hf.e3 (p2Index_toNat v)
  have h1 : (p1Entry table m p4 v).toNat = _ := entry_toNat hf.e2 (p1Index_toNat v)
  constructor
  · rw [translate_fields (getP4_fields v) hown hself hown hself hown hself hown.present, hself, h4]
  · intro e4
    rw [h4] at e4 h3
    rw [translate_fields (getP3_fields v) hown hself hown hself hown hself e4.present, h3]
  · intro e4 e3
    rw [h4] at e4 h3
    rw [h3] at e3 h2
    rw [translate_fields (getP2_fields v) hown hself hown hself e4 rfl e3.present, h2]
  · intro e4 e3 e2
    rw [h4] at e4 h3
    rw [h3] at e3 h2
    rw [h2] at e2 h1
    rw [translate_fields (getP1_fields v) hown hself e4 rfl e3 rfl e2.present, h1]

theorem follows_frameOf (m : Mem) (p4 v : UInt64) : Follows frameOf m p4 v :=
  ⟨frameOf_toNat _, frameOf_toNat _, frameOf_toNat _⟩

/-- The entries for an address in the upper three levels, as the kernel makes them. -/
structure CleanWalk (m : Mem) (p4 v : UInt64) : Prop where
  e4 : Clean (word m (p4Entry p4 v).toNat)
  e3 : Clean (word m (p3Entry tableOf m p4 v).toNat)
  e2 : Clean (word m (p2Entry tableOf m p4 v).toNat)

theorem CleanWalk.follows {v : UInt64} (h : CleanWalk m p4 v) : Follows tableOf m p4 v :=
  ⟨tableOf_toNat h.e4, tableOf_toNat h.e3, tableOf_toNat h.e2⟩

/-- The recursive mapping and the explicit walk find the same entries, for every address and all
tables; a walk with `clear_page_flags` does where the entries have no bits of the OS. -/
theorem getP_translate (h : Recursive m p4) (v : UInt64) :
    Reaches frameOf m p4 v ∧ (CleanWalk m p4 v → Reaches tableOf m p4 v) :=
  ⟨h.reaches (follows_frameOf m p4 v), fun hclean => h.reaches hclean.follows⟩

/-- What `init_empty_kernel_page_table` puts into the last entry: present, writable, dirty and
accessed. -/
theorem recursive_of_entry (halign : p4.toNat % 4096 = 0) (hlt : p4.toNat < 2 ^ 52)
    (hentry : word m (p4.toNat + 8 * 511) = p4 ||| 0x63) : Recursive m p4 := by
  have hsplit : p4.toNat = p4.toNat / 4096 * 2 ^ 12 := by omega
  have hword : (word m (p4.toNat + 8 * 511)).toNat = p4.toNat + 0x63 := by
    have hlow : (0x63 : UInt64).toNat = 0x63 := rfl
    rw [hentry, UInt64.toNat_or, hlow, hsplit, Nat.lor_comm, Bits.or_field (by omega)]
    omega
  refine ⟨halign, ⟨?_, ?_⟩, ?_⟩
  · exact decide_eq_true (by omega)
  · exact decide_eq_false (by omega)
  · unfold frame
    omega

/-- A topmost table at 4 MiB with no entry but the last. -/
def onlyLast : Mem := Mem.write64 (fun _ => 0) 0x400ff8 0x400063

theorem getP_translate_onlyLast : Reaches frameOf onlyLast 0x400000 0x123456789abc ∧
    (CleanWalk onlyLast 0x400000 0x123456789abc →
      Reaches tableOf onlyLast 0x400000 0x123456789abc) :=
  getP_translate (recursive_of_entry (by decide) (by decide) (by decide +kernel)) _

end JudgeDuck.PageTable
