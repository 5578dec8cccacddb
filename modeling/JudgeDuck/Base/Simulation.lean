/-
Machines that answer requests.

A machine goes from state to state and answers every request.  Two machines that are
related by a simulation give the same answers to every list of requests, so what one
sees of the first can be read off the second (`Simulates.answers`).
-/
import Mathlib

namespace Simulation

variable {I O S T : Type}

/-- What a machine answers to a list of requests, and where it ends. -/
def run (step : I → S → O × S) : List I → S → List O × S
  | [], s => ([], s)
  | i :: rest, s =>
    let first := step i s
    let out := run step rest first.2
    (first.1 :: out.1, out.2)

/-- On the requests with `ok`, both machines answer the same, and go to related states. -/
structure Simulates (step : I → S → O × S) (spec : I → T → O × T) (ok : I → Prop)
    (R : S → T → Prop) : Prop where
  answer : ∀ i s t, ok i → R s t → (step i s).1 = (spec i t).1
  keeps : ∀ i s t, ok i → R s t → R (step i s).2 (spec i t).2

variable {step : I → S → O × S} {spec : I → T → O × T} {ok : I → Prop} {R : S → T → Prop}

/-- **The answers are the same, however long the machines run.** -/
theorem Simulates.answers (h : Simulates step spec ok R) : ∀ (requests : List I) {s : S} {t : T},
    (∀ i ∈ requests, ok i) → R s t →
      (run step requests s).1 = (run spec requests t).1 ∧
        R (run step requests s).2 (run spec requests t).2 := by
  intro requests
  induction requests with
  | nil => intro s t _ hR; exact ⟨rfl, hR⟩
  | cons i rest ih =>
      intro s t hok hR
      have hi : ok i := hok i (by simp)
      obtain ⟨hout, hend⟩ := ih (fun j hj => hok j (by simp [hj])) (h.keeps i s t hi hR)
      refine ⟨?_, hend⟩
      simp only [run]
      rw [h.answer i s t hi hR, hout]

end Simulation
