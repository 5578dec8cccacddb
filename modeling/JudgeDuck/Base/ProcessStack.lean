/-
The initial process stack of the System V ABI.

From the stack pointer upward stand the number of arguments, the arguments and the
environment, each list ended by a 0, and the auxiliary vector: pairs of a type and
a value up to the first type 0.  A stack is given by its words; what is read from it
is a relation that determines its result.
-/
import Mathlib

namespace ProcessStack

/-- The words from `i` on up to the first 0. -/
def Words (w : Nat → Nat) : Nat → List Nat → Prop
  | i, [] => w i = 0
  | i, x :: xs => w i = x ∧ x ≠ 0 ∧ Words w (i + 1) xs

/-- The pairs of words from `i` on up to the first one that begins with 0. -/
def Pairs (w : Nat → Nat) : Nat → List (Nat × Nat) → Prop
  | i, [] => w i = 0
  | i, p :: ps => w i = p.1 ∧ p.1 ≠ 0 ∧ w (i + 1) = p.2 ∧ Pairs w (i + 2) ps

/-- What a program finds on its stack. -/
structure Reads (w : Nat → Nat) (argc : Nat) (argv envp : List Nat) (auxv : List (Nat × Nat)) :
    Prop where
  count : w 0 = argc
  arguments : Words w 1 argv
  environment : Words w (argv.length + 2) envp
  vector : Pairs w (argv.length + envp.length + 3) auxv

theorem Words.unique {w : Nat → Nat} {i : Nat} {xs ys : List Nat} (hx : Words w i xs)
    (hy : Words w i ys) : xs = ys := by
  induction xs generalizing i ys with
  | nil =>
      cases ys with
      | nil => rfl
      | cons y ys => exact absurd (hy.1.symm.trans hx) hy.2.1
  | cons x xs ih =>
      cases ys with
      | nil => exact absurd (hx.1.symm.trans hy) hx.2.1
      | cons y ys => rw [ih hx.2.2 hy.2.2, ← hx.1, hy.1]

theorem Pairs.unique {w : Nat → Nat} {i : Nat} {ps qs : List (Nat × Nat)} (hp : Pairs w i ps)
    (hq : Pairs w i qs) : ps = qs := by
  induction ps generalizing i qs with
  | nil =>
      cases qs with
      | nil => rfl
      | cons q qs => exact absurd (hq.1.symm.trans hp) hq.2.1
  | cons p ps ih =>
      cases qs with
      | nil => exact absurd (hp.1.symm.trans hq) hp.2.1
      | cons q qs =>
          have hfst : p.1 = q.1 := hp.1.symm.trans hq.1
          have hsnd : p.2 = q.2 := hp.2.2.1.symm.trans hq.2.2.1
          rw [ih hp.2.2.2 hq.2.2.2, Prod.ext hfst hsnd]

/-- A stack has one reading. -/
theorem Reads.unique {w : Nat → Nat} {argc argc' : Nat} {argv argv' envp envp' : List Nat}
    {auxv auxv' : List (Nat × Nat)} (h : Reads w argc argv envp auxv)
    (h' : Reads w argc' argv' envp' auxv') :
    argc = argc' ∧ argv = argv' ∧ envp = envp' ∧ auxv = auxv' := by
  obtain rfl := h.arguments.unique h'.arguments
  obtain rfl := h.environment.unique h'.environment
  exact ⟨h.count.symm.trans h'.count, rfl, rfl, h.vector.unique h'.vector⟩

/-- Pairs written one after the other, and the type 0 after them. -/
def flatten (ps : List (Nat × Nat)) : List Nat := ps.flatMap (fun p => [p.1, p.2]) ++ [0]

theorem pairs_of_flatten {w : Nat → Nat} {i : Nat} {ps : List (Nat × Nat)}
    (hne : ∀ p ∈ ps, p.1 ≠ 0)
    (hw : ∀ k (h : k < (flatten ps).length), w (i + k) = (flatten ps)[k]) :
    Pairs w i ps := by
  induction ps generalizing i with
  | nil => exact hw 0 (by simp [flatten])
  | cons p ps ih =>
      have hlen : (flatten (p :: ps)).length = (flatten ps).length + 2 := by simp [flatten]
      refine ⟨?_, hne p (by simp), ?_, ih (fun q hq => hne q (by simp [hq])) fun k hk => ?_⟩
      · exact hw 0 (by omega)
      · exact hw 1 (by rw [hlen]; simp [flatten])
      · have h := hw (k + 2) (by omega)
        rw [show i + 2 + k = i + (k + 2) by omega, h]
        simp [flatten]

/-- A stack without arguments and environment. -/
theorem reads_of_flatten {w : Nat → Nat} {ps : List (Nat × Nat)} (hne : ∀ p ∈ ps, p.1 ≠ 0)
    (hw : ∀ k (h : k < (0 :: 0 :: 0 :: flatten ps).length),
      w k = (0 :: 0 :: 0 :: flatten ps)[k]) : Reads w 0 [] [] ps where
  count := hw 0 (by simp)
  arguments := hw 1 (by simp)
  environment := hw 2 (by simp)
  vector := pairs_of_flatten hne fun k hk => by
    rw [List.length_nil, Nat.add_comm, hw (k + 3) (by simpa using hk)]
    rfl

end ProcessStack
