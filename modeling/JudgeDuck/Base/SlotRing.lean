/-
Rings whose slots say themselves whether they are full.

The two sides of such a ring share no counters.  Each looks at the slot of its own
index: who fills it finds it free or waits, who empties it finds it full or waits.
`Holds` says that the slots hold a queue, from the slot of a counter on.  Filling the
first free slot appends to the queue, and emptying its first slot takes the head
off (`Holds.push`, `Holds.pop`); in a ring that is full both are the same slot.
-/
import Mathlib

namespace SlotRing

variable {α : Type} {n first : Nat} {Slot Slot' : Nat → Option α → Prop} {queue : List α}

/-- `Slot i o` says that slot `i` holds `o`, or is free. -/
structure Holds (n : Nat) (Slot : Nat → Option α → Prop) (first : Nat) (queue : List α) :
    Prop where
  fits : queue.length ≤ n
  slot : ∀ i, i < n → Slot ((first + i) % n) queue[i]?

theorem Holds.empty (h : ∀ i, i < n → Slot i none) : Holds n Slot 0 [] where
  fits := Nat.zero_le n
  slot i hi := by
    rw [Nat.zero_add, Nat.mod_eq_of_lt hi]
    exact h i hi

/-- The slot that is emptied next. -/
theorem Holds.head (h : Holds n Slot first queue) (hn : 0 < n) :
    Slot (first % n) queue.head? := by
  have h0 := h.slot 0 hn
  rwa [Nat.add_zero, ← List.head?_eq_getElem?] at h0

/-- The slot that is filled next, as long as there is room. -/
theorem Holds.free (h : Holds n Slot first queue) (hroom : queue.length < n) :
    Slot ((first + queue.length) % n) none := by
  have hslot := h.slot _ hroom
  rwa [List.getElem?_eq_none (Nat.le_refl _)] at hslot

/-- In a full ring, the slot that is filled next is the one that is emptied next. -/
theorem Holds.full (h : Holds n Slot first queue) (hn : 0 < n) (hfull : queue.length = n) :
    Slot ((first + queue.length) % n) queue.head? := by
  rw [hfull, Nat.add_mod_right]
  exact h.head hn

/-- Two places of the ring are two slots. -/
theorem slot_ne (first : Nat) {i j : Nat} (hi : i < n) (hj : j < n) (hij : i ≠ j) :
    (first + i) % n ≠ (first + j) % n := by
  intro heq
  have hmod : i % n = j % n := Nat.ModEq.add_left_cancel' first heq
  rw [Nat.mod_eq_of_lt hi, Nat.mod_eq_of_lt hj] at hmod
  exact hij hmod

/-- Nothing happens to any slot. -/
theorem Holds.keep (h : Holds n Slot first queue)
    (hkeep : ∀ i o, i < n → Slot i o → Slot' i o) : Holds n Slot' first queue where
  fits := h.fits
  slot i hi := hkeep _ _ (Nat.mod_lt _ (Nat.zero_lt_of_lt hi)) (h.slot i hi)

/-- The first free slot is filled. -/
theorem Holds.push (h : Holds n Slot first queue) (hroom : queue.length < n) {a : α}
    (hfill : Slot' ((first + queue.length) % n) (some a))
    (hkeep : ∀ i o, i < n → i ≠ (first + queue.length) % n → Slot i o → Slot' i o) :
    Holds n Slot' first (queue ++ [a]) where
  fits := by simpa using hroom
  slot i hi := by
    by_cases hlast : i = queue.length
    · subst hlast
      simpa using hfill
    · have hplace := slot_ne first hi hroom hlast
      refine hkeep _ _ (Nat.mod_lt _ (Nat.zero_lt_of_lt hi)) hplace ?_
      have hold := h.slot i hi
      rcases Nat.lt_or_gt_of_ne hlast with hlt | hgt
      · rwa [List.getElem?_append_left hlt]
      · rw [List.getElem?_eq_none (Nat.le_of_lt hgt)] at hold
        rwa [List.getElem?_eq_none (by simpa using hgt)]

/-- The first full slot is emptied. -/
theorem Holds.pop {a : α} (h : Holds n Slot first (a :: queue))
    (hempty : Slot' (first % n) none)
    (hkeep : ∀ i o, i < n → i ≠ first % n → Slot i o → Slot' i o) :
    Holds n Slot' (first + 1) queue where
  fits := by
    have hfits := h.fits
    rw [List.length_cons] at hfits
    omega
  slot i hi := by
    have hfits := h.fits
    rw [List.length_cons] at hfits
    have hn : 0 < n := Nat.zero_lt_of_lt hi
    rw [Nat.add_assoc, Nat.add_comm 1 i]
    by_cases hlast : i + 1 = n
    · rw [hlast, Nat.add_mod_right, List.getElem?_eq_none (by omega)]
      exact hempty
    · have hlt : i + 1 < n := by omega
      have hplace := slot_ne first hlt hn (Nat.succ_ne_zero i)
      refine hkeep _ _ (Nat.mod_lt _ hn) hplace ?_
      have hold := h.slot (i + 1) hlt
      rwa [List.getElem?_cons_succ] at hold

end SlotRing
