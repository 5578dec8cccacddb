/-
Page tables in memory.

Tables have names, of any type, and each has an address; `Holds` says which entries the
live tables have.  A table is replaced as a whole or in one entry and the others stay, since
no two share an address.  A rank on the tables that goes down by at most one from a table
to the next bounds the levels at which the walk of the processor can meet a table, so a
change to tables of rank 0 is a change to lowest entries only.
-/
import JudgeDuck.Base.Mem
import JudgeDuck.Base.Paging

namespace Paging

variable {ι : Type} {addr : ι → Nat} {live live' : ι → Prop} {T T' : ι → Nat → UInt64} {m m' : Mem}

/-- The live tables have pages of their own. -/
structure Placed (addr : ι → Nat) (live : ι → Prop) : Prop where
  aligned : ∀ t, live t → addr t % 4096 = 0
  inj : ∀ t u, live t → live u → addr t = addr u → t = u

/-- The entries of the live tables. -/
def Holds (addr : ι → Nat) (live : ι → Prop) (T : ι → Nat → UInt64) (m : Mem) : Prop :=
  ∀ t, live t → ∀ j, j < 512 → m.read64 (addr t + 8 * j) = T t j

/-! ### Changes -/

/-- Two tables have no byte in common. -/
theorem Placed.disjoint (hp : Placed addr live) {t u : ι} (ht : live t) (hu : live u) (h : t ≠ u) :
    addr t + 4096 ≤ addr u ∨ addr u + 4096 ≤ addr t := by
  have hne : addr t ≠ addr u := fun he => h (hp.inj t u ht hu he)
  have h1 := hp.aligned t ht
  have h2 := hp.aligned u hu
  omega

theorem Holds.congr (h : Holds addr live T m)
    (hT : ∀ t, live t → ∀ j, j < 512 → T' t j = T t j) : Holds addr live T' m := by
  intro t ht j hj
  rw [h t ht j hj, hT t ht j hj]

theorem Holds.unchanged (h : Holds addr live T m)
    (hm : ∀ t, live t → ∀ x, addr t ≤ x → x < addr t + 4096 → m' x = m x) :
    Holds addr live T m' := by
  intro t ht j hj
  rw [Mem.read64_congr fun x h1 h2 => hm t ht x (by omega) (by omega), h t ht j hj]

section

variable [DecidableEq ι]

/-- A table gets new entries; it may have been no table before. -/
theorem Holds.replace {t : ι} {f : Nat → UInt64} (h : Holds addr live T m)
    (hp : Placed addr live') (ht : live' t) (hlive : ∀ u, live' u → u = t ∨ live u)
    (hin : ∀ j, j < 512 → m'.read64 (addr t + 8 * j) = f j)
    (hout : ∀ x, x < addr t ∨ addr t + 4096 ≤ x → m' x = m x) :
    Holds addr live' (Function.update T t f) m' := by
  intro u hu j hj
  by_cases hut : u = t
  · rw [hut, Function.update_self, hin j hj]
  · have hdisj := hp.disjoint hu ht hut
    have hold : live u := (hlive u hu).resolve_left hut
    rw [Function.update_of_ne hut,
      Mem.read64_congr fun x h1 h2 => hout x (by omega), h u hold j hj]

/-- A table gets a new entry. -/
theorem Holds.set {t : ι} {j : Nat} (h : Holds addr live T m) (hp : Placed addr live)
    (ht : live t) (hj : j < 512) (v : UInt64) :
    Holds addr live (Function.update T t (Function.update (T t) j v))
      (m.write64 (addr t + 8 * j) v) := by
  refine h.replace hp ht (fun u hu => Or.inr hu) (fun k hk => ?_) fun x hx => ?_
  · by_cases hkj : k = j
    · rw [hkj, Mem.read64_write64_self, Function.update_self]
    · rw [Function.update_of_ne hkj,
        Mem.read64_congr fun x h1 h2 => Mem.write64_out (by omega), h t ht k hk]
  · exact Mem.write64_out (by omega)

end

/-! ### Translation -/

/-- An entry of a live table that leads to a live table. -/
structure Link (addr : ι → Nat) (live : ι → Prop) (T : ι → Nat → UInt64) (t : ι) (j : Nat) (u : ι) :
    Prop where
  isTable : IsTable (T t j)
  frame : frame 12 (T t j) = addr u
  live : live u

theorem Holds.walk_link {va : UInt64} {level j : Nat} {t u : ι} (h : Holds addr live T m)
    (ht : live t) (hj : index va (level + 1) = j) (hl : Link addr live T t j u) :
    walk m.read64 va (level + 1) (addr t) = walk m.read64 va level (addr u) := by
  have he := h t ht j (hj ▸ index_lt va _)
  rw [walk_table hj (by rw [he]; exact hl.isTable), he, hl.frame]

theorem Holds.walk_page {va : UInt64} {j : Nat} {t : ι} (h : Holds addr live T m) (ht : live t)
    (hj : index va 0 = j) (hp : present (T t j) = true) :
    walk m.read64 va 0 (addr t) = some (frame 12 (T t j) + va.toNat % 2 ^ 12) := by
  have he := h t ht j (hj ▸ index_lt va _)
  rw [Paging.walk_page hj (by rw [he]; exact hp), he]

theorem Holds.walk_absent {va : UInt64} {level j : Nat} {t : ι} (h : Holds addr live T m)
    (ht : live t) (hj : index va level = j) (hp : present (T t j) = false) :
    walk m.read64 va level (addr t) = none := by
  have he := h t ht j (hj ▸ index_lt va _)
  cases level with
  | zero =>
      rw [walk, hj, he, hp]
      rfl
  | succ level =>
      rw [walk, hj, he, hp]
      rfl

/-- The first step. -/
theorem Holds.translate_link {va : UInt64} {j : Nat} {t u : ι} (h : Holds addr live T m)
    (hc : Canonical va) (ht : live t) (hj : index va 3 = j) (hl : Link addr live T t j u) :
    translate m.read64 (addr t) va = walk m.read64 va 2 (addr u) := by
  have he := h t ht j (hj ▸ index_lt va _)
  rw [translate, hj, he, if_pos ⟨hc, hl.isTable.huge⟩, h.walk_link ht hj hl]

/-! ### Ranks -/

/-- From a table the walk goes to one whose rank is at least one less. -/
def Ranked (addr : ι → Nat) (live : ι → Prop) (T : ι → Nat → UInt64) (rank : ι → Nat) : Prop :=
  ∀ t, live t → ∀ r, rank t = r + 1 → ∀ j, j < 512 → IsTable (T t j) →
    ∃ u, live u ∧ frame 12 (T t j) = addr u ∧ r ≤ rank u

/-- The tables that the walk can meet: at each level, their addresses. -/
inductive Table (word : Nat → UInt64) (p4 : Nat) : Nat → Nat → Prop
  | top : Table word p4 3 p4
  | next {level a j : Nat} : Table word p4 (level + 1) a → j < 512 → IsTable (word (a + 8 * j)) →
      Table word p4 level (frame 12 (word (a + 8 * j)))

/-- Each of them is a live table, and its rank is not below the level. -/
theorem Ranked.table {rank : ι → Nat} {t4 : ι} (hr : Ranked addr live T rank)
    (h : Holds addr live T m) (h4 : live t4) (htop : rank t4 = 3) {level a : Nat}
    (ht : Table m.read64 (addr t4) level a) : ∃ t, live t ∧ a = addr t ∧ level ≤ rank t := by
  induction ht with
  | top => exact ⟨t4, h4, rfl, by omega⟩
  | @next level a j _ hj hentry ih =>
      obtain ⟨t, ht, rfl, hle⟩ := ih
      rw [h t ht j hj] at hentry ⊢
      obtain ⟨r, hr'⟩ : ∃ r, rank t = r + 1 := ⟨rank t - 1, by omega⟩
      obtain ⟨u, hu, hframe, hru⟩ := hr t ht r hr' j hj hentry
      exact ⟨u, hu, hframe, by omega⟩

/-- Other entries in the tables of rank 0, with the same addresses: the walk comes to the same
result from every table. -/
theorem Ranked.walk_congr {rank : ι → Nat} (hr : Ranked addr live T rank)
    (h : Holds addr live T m) (h' : Holds addr live T' m')
    (hupper : ∀ t, live t → 0 < rank t → ∀ j, j < 512 → T' t j = T t j)
    (hlowest : ∀ t, live t → rank t = 0 → ∀ j, j < 512 →
      present (T' t j) = present (T t j) ∧ frame 12 (T' t j) = frame 12 (T t j))
    (va : UInt64) : ∀ (level : Nat) (t : ι), live t → level ≤ rank t →
      walk m'.read64 va level (addr t) = walk m.read64 va level (addr t) := by
  intro level
  induction level with
  | zero =>
      intro t ht _
      have hi := index_lt va 0
      have hsame : present (T' t (index va 0)) = present (T t (index va 0)) ∧
          frame 12 (T' t (index va 0)) = frame 12 (T t (index va 0)) := by
        by_cases h0 : rank t = 0
        · exact hlowest t ht h0 _ hi
        · rw [hupper t ht (by omega) _ hi]
          exact ⟨rfl, rfl⟩
      rw [walk, walk, h t ht _ hi, h' t ht _ hi, hsame.1, hsame.2]
  | succ level ih =>
      intro t ht hle
      have hi := index_lt va (level + 1)
      rw [walk, walk, h t ht _ hi, h' t ht _ hi, hupper t ht (by omega) _ hi]
      by_cases hentry : IsTable (T t (index va (level + 1)))
      · obtain ⟨r, hr'⟩ : ∃ r, rank t = r + 1 := ⟨rank t - 1, by omega⟩
        obtain ⟨u, hu, hframe, hru⟩ := hr t ht r hr' _ hi hentry
        rw [hframe, ih u hu (by omega)]
      · -- the walk ends here, with the same entry
        by_cases hpresent : present (T t (index va (level + 1))) = true
        · have hhuge : huge (T t (index va (level + 1))) = true := by
            by_contra hc
            exact hentry ⟨hpresent, by simpa using hc⟩
          simp only [hpresent, hhuge, Bool.not_true, Bool.false_eq_true, if_false, if_true]
        · rw [if_pos (by simpa using hpresent), if_pos (by simpa using hpresent)]

theorem Ranked.translate_congr {rank : ι → Nat} {t4 : ι} (hr : Ranked addr live T rank)
    (h : Holds addr live T m) (h' : Holds addr live T' m') (h4 : live t4) (htop : rank t4 = 3)
    (hupper : ∀ t, live t → 0 < rank t → ∀ j, j < 512 → T' t j = T t j)
    (hlowest : ∀ t, live t → rank t = 0 → ∀ j, j < 512 →
      present (T' t j) = present (T t j) ∧ frame 12 (T' t j) = frame 12 (T t j)) (va : UInt64) :
    translate m'.read64 (addr t4) va = translate m.read64 (addr t4) va := by
  have hi := index_lt va 3
  rw [translate, translate, h t4 h4 _ hi, h' t4 h4 _ hi, hupper t4 h4 (by omega) _ hi,
    hr.walk_congr h h' hupper hlowest va 3 t4 h4 (by omega)]

end Paging
