/-
Singly linked chains.

`Seg next a ps e` says that following `next` from `a` visits exactly the nodes
`ps` and then stands at `e`.  Nothing is assumed about how the links are stored:
`next` is any function, and a memory in which the links of the visited nodes are
the same has the same chain (`Seg.congr`).  The two edits of an intrusive list
are splitting off a prefix and redirecting the last link of a chain.
-/
import Mathlib

/-- From `a`, the links visit `ps` and end at `e`. -/
def Seg {α : Type} (next : α → α) : α → List α → α → Prop
  | a, [], e => a = e
  | a, p :: ps, e => a = p ∧ Seg next (next p) ps e

namespace Seg

variable {α : Type} {next next' : α → α}

@[simp] theorem nil {a e : α} : Seg next a [] e ↔ a = e := Iff.rfl

@[simp] theorem cons {a p e : α} {ps : List α} :
    Seg next a (p :: ps) e ↔ a = p ∧ Seg next (next p) ps e := Iff.rfl

/-- A chain reads only the links of the nodes it visits. -/
theorem congr : ∀ {ps : List α} {a e : α}, Seg next a ps e →
    (∀ p ∈ ps, next' p = next p) → Seg next' a ps e := by
  intro ps
  induction ps with
  | nil => intro a e h _; exact h
  | cons p ps ih =>
      intro a e h hagree
      refine ⟨h.1, ?_⟩
      rw [hagree p (by simp)]
      exact ih h.2 fun q hq => hagree q (by simp [hq])

theorem append : ∀ {ps qs : List α} {a b e : α}, Seg next a ps b → Seg next b qs e →
    Seg next a (ps ++ qs) e := by
  intro ps
  induction ps with
  | nil => intro qs a b e h1 h2; rw [nil] at h1; rw [h1]; exact h2
  | cons p ps ih => intro qs a b e h1 h2; exact ⟨h1.1, ih h1.2 h2⟩

theorem split : ∀ {ps qs : List α} {a e : α}, Seg next a (ps ++ qs) e →
    ∃ b, Seg next a ps b ∧ Seg next b qs e := by
  intro ps
  induction ps with
  | nil => intro qs a e h; exact ⟨a, rfl, h⟩
  | cons p ps ih =>
      intro qs a e h
      obtain ⟨b, h1, h2⟩ := ih h.2
      exact ⟨b, ⟨h.1, h1⟩, h2⟩

/-- Following one link per visited node arrives at the end of the chain. -/
theorem iterate_length : ∀ {ps : List α} {a e : α}, Seg next a ps e →
    next^[ps.length] a = e := by
  intro ps
  induction ps with
  | nil => intro a e h; exact h
  | cons p ps ih =>
      intro a e h
      rw [List.length_cons, Function.iterate_succ_apply, h.1]
      exact ih h.2

/-- One link fewer arrives at the last node. -/
theorem iterate_last {ps : List α} {q a e : α} (h : Seg next a (ps ++ [q]) e) :
    next^[ps.length] a = q ∧ next q = e := by
  obtain ⟨b, h1, h2⟩ := split h
  rw [cons, nil] at h2
  exact ⟨(iterate_length h1).trans h2.1, h2.2⟩

/-- Redirecting the last link of a chain changes only where it ends. -/
theorem redirect {ps : List α} {q a b e : α} (h : Seg next a (ps ++ [q]) e)
    (hps : ∀ p ∈ ps, next' p = next p) (hq : next' q = b) : Seg next' a (ps ++ [q]) b := by
  obtain ⟨c, h1, h2⟩ := split h
  exact append (congr h1 hps) ⟨h2.1, hq⟩

end Seg
