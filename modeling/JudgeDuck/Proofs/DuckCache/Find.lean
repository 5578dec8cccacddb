/-
Finding a digest.

`cmp_digest` is the lexicographic order of the four words, so digests are a linear
order and the tables are sorted in it.  Without any assumption `find` stays inside
the tables and answers yes only at a slot that holds the digest (`find_bounds`).
On sorted tables it returns the number of smaller digests (`find_isPoint`), and
the answer is whether the digest is there (`find_iff`).
-/
import JudgeDuck.Proofs.DuckCache.Rep

namespace JudgeDuck

/-! ### The order of digests -/

/-- The words of a digest, the first one most significant. -/
def Digest256.key (d : Digest256) : ℕ ×ₗ ℕ ×ₗ ℕ ×ₗ ℕ :=
  toLex (d.a0.toNat, toLex (d.a1.toNat, toLex (d.a2.toNat, d.a3.toNat)))

theorem Digest256.key_injective : Function.Injective Digest256.key := by
  intro a b h
  simp only [Digest256.key, toLex_inj, Prod.mk.injEq] at h
  obtain ⟨h0, h1, h2, h3⟩ := h
  cases a
  cases b
  simp only [Digest256.mk.injEq]
  exact ⟨UInt64.toNat.inj h0, UInt64.toNat.inj h1, UInt64.toNat.inj h2, UInt64.toNat.inj h3⟩

instance : LinearOrder Digest256 := LinearOrder.lift' Digest256.key Digest256.key_injective

theorem Digest256.lt_iff {a b : Digest256} : a < b ↔
    a.a0.toNat < b.a0.toNat ∨ a.a0.toNat = b.a0.toNat ∧
      (a.a1.toNat < b.a1.toNat ∨ a.a1.toNat = b.a1.toNat ∧
        (a.a2.toNat < b.a2.toNat ∨ a.a2.toNat = b.a2.toNat ∧ a.a3.toNat < b.a3.toNat)) := by
  show Digest256.key a < Digest256.key b ↔ _
  simp only [Digest256.key, Prod.Lex.toLex_lt_toLex]

theorem Digest256.a0_le {a b : Digest256} (h : a < b) : a.a0 ≤ b.a0 := by
  rw [Digest256.lt_iff] at h
  rw [UInt64.le_iff_toNat_le]
  omega

theorem Digest256.lt_of_a0_lt {a b : Digest256} (h : a.a0 < b.a0) : a < b :=
  Digest256.lt_iff.mpr (Or.inl (UInt64.lt_iff_toNat_lt.mp h))

namespace DuckCache

theorem cmpDigest_self (a : Digest256) : cmpDigest a a = 0 := by
  simp [cmpDigest]

theorem cmpDigest_of_lt {a b : Digest256} (h : a < b) : cmpDigest a b = -1 := by
  rw [Digest256.lt_iff] at h
  unfold cmpDigest
  simp only [gt_iff_lt, UInt64.lt_iff_toNat_lt]
  split_ifs <;> first | rfl | omega

theorem cmpDigest_of_gt {a b : Digest256} (h : b < a) : cmpDigest a b = 1 := by
  rw [Digest256.lt_iff] at h
  unfold cmpDigest
  simp only [gt_iff_lt, UInt64.lt_iff_toNat_lt]
  split_ifs <;> first | rfl | omega

theorem cmpDigest_nonneg_iff {a b : Digest256} : cmpDigest a b ≥ 0 ↔ b ≤ a := by
  rcases lt_trichotomy a b with h | h | h
  · rw [cmpDigest_of_lt h]
    exact ⟨fun hc => absurd hc (by decide), fun hc => absurd h (not_lt.mpr hc)⟩
  · subst h
    rw [cmpDigest_self]
    exact ⟨fun _ => le_refl a, fun _ => by decide⟩
  · rw [cmpDigest_of_gt h]
    exact ⟨fun _ => le_of_lt h, fun _ => by decide⟩

theorem cmpDigest_eq_zero_iff {a b : Digest256} : cmpDigest a b = 0 ↔ a = b := by
  rcases lt_trichotomy a b with h | h | h
  · rw [cmpDigest_of_lt h]
    exact ⟨fun hc => absurd hc (by decide), fun hc => absurd hc (ne_of_lt h)⟩
  · subst h
    rw [cmpDigest_self]
    exact ⟨fun _ => rfl, fun _ => rfl⟩
  · rw [cmpDigest_of_gt h]
    exact ⟨fun hc => absurd hc (by decide), fun hc => absurd hc.symm (ne_of_lt h)⟩

variable {c : DuckCache} {m : Mem} {digest : Digest256}

/-! ### The scan -/

/-- The loop stops at the first digest that is not smaller, or at the end. -/
theorem findLoop_spec (c : DuckCache) (m : Mem) (digest : Digest256) : ∀ (k idx : Nat),
    idx ≤ (c.findLoop m digest k idx).2 ∧ (c.findLoop m digest k idx).2 ≤ idx + k ∧
    (∀ i, idx ≤ i → i < (c.findLoop m digest k idx).2 → c.digestAt m i < digest) ∧
    ((c.findLoop m digest k idx).2 < idx + k →
      digest ≤ c.digestAt m (c.findLoop m digest k idx).2) ∧
    ((c.findLoop m digest k idx).1 = true ↔ (c.findLoop m digest k idx).2 < idx + k ∧
      c.digestAt m (c.findLoop m digest k idx).2 = digest) := by
  intro k
  induction k with
  | zero =>
      intro idx
      refine ⟨Nat.le_refl _, Nat.le_refl _, ?_, ?_, ?_⟩
      · intro i h1 h2
        exact absurd h2 (Nat.not_lt.mpr h1)
      · intro h
        exact absurd h (Nat.lt_irrefl _)
      · simp [findLoop]
  | succ k ih =>
      intro idx
      rw [findLoop]
      by_cases hr : cmpDigest (c.digestAt m idx) digest ≥ 0
      · rw [if_pos hr]
        refine ⟨Nat.le_refl _, Nat.le_add_right _ _, ?_, fun _ => cmpDigest_nonneg_iff.mp hr, ?_⟩
        · intro i h1 h2
          exact absurd h2 (Nat.not_lt.mpr h1)
        · dsimp only
          rw [decide_eq_true_iff, cmpDigest_eq_zero_iff]
          exact ⟨fun h => ⟨by omega, h⟩, fun h => h.2⟩
      · rw [if_neg hr]
        have hlt : c.digestAt m idx < digest :=
          not_le.mp fun hc => hr (cmpDigest_nonneg_iff.mpr hc)
        have hend : idx + 1 + k = idx + (k + 1) := by omega
        obtain ⟨h1, h2, h3, h4, h5⟩ := ih (idx + 1)
        rw [hend] at h2 h4 h5
        refine ⟨by omega, h2, ?_, h4, h5⟩
        intro i hi1 hi2
        rcases Nat.eq_or_lt_of_le hi1 with rfl | hi
        · exact hlt
        · exact h3 i hi hi2

/-! ### `find` without assumptions -/

/-- The bounds of the scan. -/
private theorem scan_bounds (c : DuckCache) (m : Mem) (hash : UInt64) :
    let idx1 := Search.partitionPoint (fun i => c.hashAt m i < hash) 0 c.nCurObjects
    let idx2 := Search.partitionPoint (fun i => ¬hash < c.hashAt m i) idx1 (c.nCurObjects - idx1)
    idx1 ≤ idx2 ∧ idx2 ≤ c.nCurObjects := by
  intro idx1 idx2
  have h1 := Search.partitionPoint_mem (fun i => c.hashAt m i < hash) 0 c.nCurObjects
  have h2 := Search.partitionPoint_mem (fun i => ¬hash < c.hashAt m i) idx1 (c.nCurObjects - idx1)
  exact ⟨h2.1, by have := h2.2; omega⟩

theorem find_bounds (c : DuckCache) (m : Mem) (digest : Digest256) :
    (c.find m digest).2 ≤ c.nCurObjects ∧
    ((c.find m digest).1 = true →
      (c.find m digest).2 < c.nCurObjects ∧ c.digestAt m (c.find m digest).2 = digest) := by
  unfold find
  by_cases h0 : c.nCurObjects = 0
  · rw [if_pos h0]
    exact ⟨Nat.zero_le _, fun h => Bool.noConfusion h⟩
  · rw [if_neg h0]
    dsimp only
    obtain ⟨hle, hn⟩ := scan_bounds c m digest.a0
    obtain ⟨-, h2, -, -, h5⟩ := findLoop_spec c m digest
      (Search.partitionPoint (fun i => ¬digest.a0 < c.hashAt m i)
        (Search.partitionPoint (fun i => c.hashAt m i < digest.a0) 0 c.nCurObjects)
        (c.nCurObjects - Search.partitionPoint (fun i => c.hashAt m i < digest.a0) 0 c.nCurObjects)
        - Search.partitionPoint (fun i => c.hashAt m i < digest.a0) 0 c.nCurObjects)
      (Search.partitionPoint (fun i => c.hashAt m i < digest.a0) 0 c.nCurObjects)
    refine ⟨by omega, fun h => ?_⟩
    obtain ⟨h6, h7⟩ := h5.mp h
    exact ⟨by omega, h7⟩

/-! ### `find` on sorted tables -/

/-- The digests are strictly increasing and the hashes are their first words. -/
structure SortedTables (c : DuckCache) (m : Mem) : Prop where
  increasing : ∀ i j, i < j → j < c.nCurObjects → c.digestAt m i < c.digestAt m j
  hash : ∀ i, i < c.nCurObjects → c.hashAt m i = (c.digestAt m i).a0

namespace SortedTables

theorem hash_le (h : SortedTables c m) {i j : Nat} (hij : i ≤ j) (hj : j < c.nCurObjects) :
    c.hashAt m i ≤ c.hashAt m j := by
  rcases Nat.eq_or_lt_of_le hij with rfl | hlt
  · exact UInt64.le_refl _
  · rw [h.hash i (by omega), h.hash j hj]
    exact Digest256.a0_le (h.increasing i j hlt hj)

theorem digest_le (h : SortedTables c m) {i j : Nat} (hij : i ≤ j) (hj : j < c.nCurObjects) :
    c.digestAt m i ≤ c.digestAt m j := by
  rcases Nat.eq_or_lt_of_le hij with rfl | hlt
  · exact le_refl _
  · exact le_of_lt (h.increasing i j hlt hj)

end SortedTables

/-- `find` returns the place of the digest: what is before it is smaller, what is from there on
is not. -/
theorem find_isPoint (h : SortedTables c m) (digest : Digest256) :
    Search.IsPoint (fun i => decide (c.digestAt m i < digest)) 0 c.nCurObjects
      (c.find m digest).2 ∧
    ((c.find m digest).1 = true ↔
      (c.find m digest).2 < c.nCurObjects ∧ c.digestAt m (c.find m digest).2 = digest) := by
  unfold find
  by_cases h0 : c.nCurObjects = 0
  · rw [if_pos h0]
    refine ⟨⟨Nat.le_refl 0, Nat.zero_le _, ?_, ?_⟩, ?_⟩
    · intro i _ hi
      exact absurd hi (Nat.not_lt_zero i)
    · intro i _ hi
      omega
    · rw [h0]
      simp
  · rw [if_neg h0]
    dsimp only
    obtain ⟨hle, hn⟩ := scan_bounds c m digest.a0
    set idx1 := Search.partitionPoint (fun i => c.hashAt m i < digest.a0) 0 c.nCurObjects
      with hidx1
    set idx2 := Search.partitionPoint (fun i => ¬digest.a0 < c.hashAt m i) idx1
      (c.nCurObjects - idx1) with hidx2
    obtain ⟨h1, h2, h3, h4, h5⟩ := findLoop_spec c m digest (idx2 - idx1) idx1
    set r := c.findLoop m digest (idx2 - idx1) idx1 with hr
    have hend : idx1 + (idx2 - idx1) = idx2 := by omega
    rw [hend] at h2 h4 h5
    have hp1 : Search.IsPoint (fun i => decide (c.hashAt m i < digest.a0)) 0 (0 + c.nCurObjects)
        idx1 := by
      refine Search.partitionPoint_isPoint fun i j _ hij hj hpj => ?_
      simp only [decide_eq_true_eq] at hpj ⊢
      exact UInt64.lt_of_le_of_lt (h.hash_le hij (by omega)) hpj
    have hp2 : Search.IsPoint (fun i => decide ¬digest.a0 < c.hashAt m i) idx1
        (idx1 + (c.nCurObjects - idx1)) idx2 := by
      refine Search.partitionPoint_isPoint fun i j _ hij hj hpj => ?_
      simp only [decide_eq_true_eq, UInt64.not_lt] at hpj ⊢
      exact UInt64.le_trans (h.hash_le hij (by omega)) hpj
    refine ⟨⟨Nat.zero_le _, by omega, ?_, ?_⟩, ?_⟩
    · -- smaller hashes first, then the scan
      intro i _ hi
      rw [decide_eq_true_eq]
      rcases Nat.lt_or_ge i idx1 with hlt | hge
      · have := hp1.below i (Nat.zero_le i) hlt
        simp only [decide_eq_true_eq] at this
        rw [h.hash i (by omega)] at this
        exact Digest256.lt_of_a0_lt this
      · exact h3 i hge hi
    · intro i hi1 hi2
      rw [decide_eq_false_iff_not, not_lt]
      rcases Nat.lt_or_ge r.2 idx2 with hlt | hge
      · exact le_trans (h4 hlt) (h.digest_le hi1 hi2)
      · -- larger hashes after the scan
        have := hp2.above i (by omega) (by omega)
        simp only [decide_eq_false_iff_not, not_not] at this
        rw [h.hash i hi2] at this
        exact le_of_lt (Digest256.lt_of_a0_lt this)
    · rw [h5]
      refine ⟨fun hc => ⟨by omega, hc.2⟩, fun hc => ⟨?_, hc.2⟩⟩
      by_contra hge
      have := hp2.above r.2 (by omega) (by omega)
      simp only [decide_eq_false_iff_not, not_not] at this
      rw [h.hash r.2 hc.1, hc.2] at this
      exact absurd this (UInt64.lt_irrefl _)

/-- On sorted tables `find` decides whether the digest is stored. -/
theorem find_iff (h : SortedTables c m) (digest : Digest256) :
    (c.find m digest).1 = true ↔ ∃ i, i < c.nCurObjects ∧ c.digestAt m i = digest := by
  obtain ⟨hp, hf⟩ := find_isPoint h digest
  rw [hf]
  refine ⟨fun hc => ⟨_, hc⟩, ?_⟩
  rintro ⟨i, hi, rfl⟩
  -- the slot of the digest is the first one that is not smaller
  have hle : (c.find m (c.digestAt m i)).2 ≤ i := by
    by_contra hgt
    have := hp.below i (Nat.zero_le i) (by omega)
    simp only [decide_eq_true_eq] at this
    exact absurd this (lt_irrefl _)
  refine ⟨by omega, le_antisymm (h.digest_le hle hi) ?_⟩
  have := hp.above (c.find m (c.digestAt m i)).2 (Nat.le_refl _) (by omega)
  simpa only [decide_eq_false_iff_not, not_lt] using this

end DuckCache

end JudgeDuck
