/-
What `find` answers on any sorted tables, with any number of digests that share their
first word: whether the digest is there, and how many are smaller.
-/
import JudgeDuck.Proofs.DuckCache.Find

namespace JudgeDuck.DuckCache

variable {c : DuckCache} {m : Mem}

/-- The digests of a cache, in table order. -/
def digests (c : DuckCache) (m : Mem) : List Digest256 :=
  (List.range c.nCurObjects).map (c.digestAt m)

/-- **`find` decides whether the digest is stored, and its index is the number of smaller ones, so
that a new digest goes there.** -/
theorem find_lowerBound (h : SortedTables c m) (digest : Digest256) :
    ((c.find m digest).1 = true ↔ digest ∈ c.digests m) ∧
    (c.find m digest).2 = Nat.count (fun i => c.digestAt m i < digest) c.nCurObjects ∧
    ((c.find m digest).1 = false →
      ((c.digests m).insertIdx (c.find m digest).2 digest).Pairwise (· < ·)) := by
  obtain ⟨hpoint, -⟩ := find_isPoint h digest
  have hfind : (c.find m digest).1 = true ↔ digest ∈ c.digests m := by
    rw [find_iff h, digests, List.mem_map]
    simp only [List.mem_range]
  refine ⟨hfind, ?_, fun hnew => ?_⟩
  · rw [← hpoint.count]
    simp only [decide_eq_true_eq]
  · refine hpoint.pairwise_insertIdx h.increasing fun i hi heq => ?_
    rw [hfind.mpr (List.mem_map.mpr ⟨i, List.mem_range.mpr hi, heq⟩)] at hnew
    exact Bool.noConfusion hnew

/-- Two objects whose digests differ in the last word. -/
def collidingCache : DuckCache := ⟨0, 2, 2, 0, 0, 0, 0, 16, 80, 128⟩

/-- The last word of the second digest is 2. -/
def collidingMem : Mem := fun x => if x = 72 then 2 else 0

theorem colliding_sorted : SortedTables collidingCache collidingMem := by
  have h0 : collidingCache.digestAt collidingMem 0 = ⟨0, 0, 0, 0⟩ := by decide
  have h1 : collidingCache.digestAt collidingMem 1 = ⟨0, 0, 0, 2⟩ := by decide
  have hhash : ∀ i, i < 2 → collidingCache.hashAt collidingMem i = 0 := by decide
  refine ⟨fun i j hij hj => ?_, fun i hi => ?_⟩
  · change j < 2 at hj
    obtain ⟨rfl, rfl⟩ : i = 0 ∧ j = 1 := by omega
    rw [h0, h1, Digest256.lt_iff]
    decide
  · change i < 2 at hi
    rw [hhash i hi]
    obtain rfl | rfl : i = 0 ∨ i = 1 := by omega
    · rw [h0]
    · rw [h1]

/-- The digest between the two is not there, and belongs at index 1. -/
theorem find_lowerBound_colliding :
    ((collidingCache.find collidingMem ⟨0, 0, 0, 1⟩).1 = true ↔
      ⟨0, 0, 0, 1⟩ ∈ collidingCache.digests collidingMem) ∧
    (collidingCache.find collidingMem ⟨0, 0, 0, 1⟩).2
      = Nat.count (fun i => collidingCache.digestAt collidingMem i < ⟨0, 0, 0, 1⟩) 2 :=
  ⟨(find_lowerBound colliding_sorted _).1, (find_lowerBound colliding_sorted _).2.1⟩

end JudgeDuck.DuckCache
