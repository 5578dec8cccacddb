/-
Parties that exchange messages over a network that may lose, repeat, delay and reorder them.

A message that was sent stays in flight: a party may read it at any time, any number of
times, or never.  Others, who are not among the parties, may send messages too.  What
every step of every party keeps, and what every message satisfies, holds in all states
that any interleaving reaches (`Invariant.reachable`).
-/
import Mathlib

namespace Network

variable {ι S M : Type}

/-- The states that the parties start in, and their steps: a party may read a message, goes to
another state and sends some messages. -/
structure Parties (ι S M : Type) where
  Start : ι → S → Prop
  Acts : ι → S → Option M → S → List M → Prop

/-- The states of the parties, and the messages that were ever sent. -/
structure World (ι S M : Type) where
  party : ι → S
  flight : Set M

variable [DecidableEq ι]

/-- One step: of a party, or of someone outside. -/
inductive Step (P : Parties ι S M) (foreign : Set M) (w : World ι S M) : World ι S M → Prop
  | act (i : ι) (read : Option M) (s : S) (out : List M) (hread : ∀ m ∈ read, m ∈ w.flight)
      (h : P.Acts i (w.party i) read s out) :
      Step P foreign w ⟨Function.update w.party i s, w.flight ∪ {m | m ∈ out}⟩
  | outside (m : M) (h : m ∈ foreign) : Step P foreign w ⟨w.party, insert m w.flight⟩

/-- What any interleaving reaches. -/
inductive Reachable (P : Parties ι S M) (foreign : Set M) : World ι S M → Prop
  | start (party : ι → S) (h : ∀ i, P.Start i (party i)) : Reachable P foreign ⟨party, ∅⟩
  | step {w w' : World ι S M} (h : Reachable P foreign w) (hs : Step P foreign w w') :
      Reachable P foreign w'

/-- `I` of the parties and `Q` of the messages are kept. -/
structure Invariant (P : Parties ι S M) (foreign : Set M) (I : ι → S → Prop) (Q : M → Prop) :
    Prop where
  start : ∀ i s, P.Start i s → I i s
  outside : ∀ m ∈ foreign, Q m
  act : ∀ i s read s' out, I i s → (∀ m ∈ read, Q m) → P.Acts i s read s' out →
    I i s' ∧ ∀ m ∈ out, Q m

variable {P : Parties ι S M} {foreign : Set M} {I : ι → S → Prop} {Q : M → Prop}

theorem Invariant.step (h : Invariant P foreign I Q) {w w' : World ι S M}
    (hI : ∀ i, I i (w.party i)) (hQ : ∀ m ∈ w.flight, Q m) (hs : Step P foreign w w') :
    (∀ i, I i (w'.party i)) ∧ ∀ m ∈ w'.flight, Q m := by
  cases hs with
  | act i read s out hread hact =>
      obtain ⟨hi, hout⟩ := h.act i _ read s out (hI i) (fun m hm => hQ m (hread m hm)) hact
      refine ⟨fun j => ?_, fun m hm => hm.elim (hQ m) (hout m)⟩
      show I j (Function.update w.party i s j)
      by_cases hj : j = i
      · subst hj
        rw [Function.update_self]
        exact hi
      · rw [Function.update_of_ne hj]
        exact hI j
  | outside m hm =>
      refine ⟨hI, fun m' hm' => ?_⟩
      rcases hm' with rfl | hm'
      · exact h.outside _ hm
      · exact hQ m' hm'

/-- **The invariant holds in every state that is reached.** -/
theorem Invariant.reachable (h : Invariant P foreign I Q) {w : World ι S M}
    (hw : Reachable P foreign w) : (∀ i, I i (w.party i)) ∧ ∀ m ∈ w.flight, Q m := by
  induction hw with
  | start party hstart => exact ⟨fun i => h.start i _ (hstart i), fun m hm => nomatch hm⟩
  | step _ hs ih => exact h.step ih.1 ih.2 hs

end Network
