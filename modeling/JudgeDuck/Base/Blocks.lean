/-
Blocks of an address space, taken one after the other.

An allocator that only moves a bound gives out blocks in order: from a lower bound
upwards (`Ascending`) or from an upper bound downwards (`Descending`).  Either way the
blocks stay between the old and the new bound, and no two of them overlap.
-/
import Mathlib

/-- `len` addresses from `start` on. -/
structure Block where
  start : Nat
  len : Nat
deriving DecidableEq

namespace Block

/-- One block ends before the other one begins. -/
def Disjoint (a b : Block) : Prop := a.start + a.len ≤ b.start ∨ b.start + b.len ≤ a.start

/-- The block lies between two addresses. -/
def Within (lo hi : Nat) (b : Block) : Prop := lo ≤ b.start ∧ b.start + b.len ≤ hi

theorem Disjoint.symm {a b : Block} (h : Disjoint a b) : Disjoint b a := Or.symm h

theorem Within.mono {lo hi lo' hi' : Nat} {b : Block} (h : Within lo hi b) (hlo : lo' ≤ lo)
    (hhi : hi ≤ hi') : Within lo' hi' b :=
  ⟨Nat.le_trans hlo h.1, Nat.le_trans h.2 hhi⟩

/-- A block above a bound and one below it. -/
theorem Within.disjoint {lo mid hi : Nat} {a b : Block} (ha : Within lo mid a)
    (hb : Within mid hi b) : Disjoint a b :=
  Or.inl (Nat.le_trans ha.2 hb.1)

/-- Each block begins at the end of the one before it, or later. -/
def Ascending : Nat → List Block → Nat → Prop
  | lo, [], hi => lo ≤ hi
  | lo, b :: bs, hi => lo ≤ b.start ∧ Ascending (b.start + b.len) bs hi

/-- Each block ends where the one before it begins, or earlier. -/
def Descending : Nat → List Block → Nat → Prop
  | hi, [], lo => lo ≤ hi
  | hi, b :: bs, lo => b.start + b.len ≤ hi ∧ Descending b.start bs lo

theorem Ascending.le {bs : List Block} {lo hi : Nat} (h : Ascending lo bs hi) : lo ≤ hi := by
  induction bs generalizing lo with
  | nil => exact h
  | cons b bs ih =>
      have hle := ih h.2
      have hstart := h.1
      omega

/-- Blocks from a bound on are blocks from any lower one on. -/
theorem Ascending.mono_left {bs : List Block} {lo lo' hi : Nat} (h : Ascending lo bs hi)
    (hle : lo' ≤ lo) : Ascending lo' bs hi := by
  cases bs with
  | nil => exact Nat.le_trans hle h
  | cons b bs => exact ⟨Nat.le_trans hle h.1, h.2⟩

theorem Ascending.within {bs : List Block} {lo hi : Nat} (h : Ascending lo bs hi) :
    ∀ b ∈ bs, Within lo hi b := by
  induction bs generalizing lo with
  | nil => exact fun b hb => (List.not_mem_nil hb).elim
  | cons c bs ih =>
      intro b hb
      rcases List.mem_cons.mp hb with rfl | hb
      · exact ⟨h.1, h.2.le⟩
      · have hstart := h.1
        exact (ih h.2 b hb).mono (by omega) (Nat.le_refl hi)

theorem Ascending.disjoint {bs : List Block} {lo hi : Nat} (h : Ascending lo bs hi) :
    bs.Pairwise Disjoint := by
  induction bs generalizing lo with
  | nil => exact .nil
  | cons b bs ih =>
      refine List.pairwise_cons.mpr ⟨fun c hc => ?_, ih h.2⟩
      exact Or.inl (h.2.within c hc).1

theorem Descending.le {bs : List Block} {hi lo : Nat} (h : Descending hi bs lo) : lo ≤ hi := by
  induction bs generalizing hi with
  | nil => exact h
  | cons b bs ih =>
      have hle := ih h.2
      have hend := h.1
      omega

theorem Descending.within {bs : List Block} {hi lo : Nat} (h : Descending hi bs lo) :
    ∀ b ∈ bs, Within lo hi b := by
  induction bs generalizing hi with
  | nil => exact fun b hb => (List.not_mem_nil hb).elim
  | cons c bs ih =>
      intro b hb
      rcases List.mem_cons.mp hb with rfl | hb
      · exact ⟨h.2.le, h.1⟩
      · have hend := h.1
        exact (ih h.2 b hb).mono (Nat.le_refl lo) (by omega)

theorem Descending.disjoint {bs : List Block} {hi lo : Nat} (h : Descending hi bs lo) :
    bs.Pairwise Disjoint := by
  induction bs generalizing hi with
  | nil => exact .nil
  | cons b bs ih =>
      refine List.pairwise_cons.mpr ⟨fun c hc => ?_, ih h.2⟩
      exact Or.inr (h.2.within c hc).2

end Block
