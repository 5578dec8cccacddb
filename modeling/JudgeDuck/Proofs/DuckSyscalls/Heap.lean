/-
What `mmap` gives out.

The pool is taken from below, and what is left of it is never looked at.  So the blocks
are pages of the pool, apart from each other and from the heap, exactly as long as the
sizes, each rounded up to pages over the integers, have room in it together.
-/
import JudgeDuck.Base.Bits
import JudgeDuck.Model.DuckHeap
import JudgeDuck.Proofs.Rounding

namespace JudgeDuck.DuckHeap

open Utils

/-! ### Runs -/

/-- The blocks that the calls of `mmap` return, with the sizes that were asked for, and the state
after all calls. -/
def blocks (l : Layout) : List Call → State → List Block × State
  | [], s => ([], s)
  | .brk addr :: calls, s => blocks l calls (syscallHandler l (.brk addr) s).2
  | .mmap size :: calls, s =>
    let r := syscallHandler l (.mmap size) s
    let rest := blocks l calls r.2
    (⟨r.1.toNat, size.toNat⟩ :: rest.1, rest.2)

/-- The pages that the calls of `mmap` ask for, in bytes. -/
def demand : List Call → Nat
  | [] => 0
  | .brk _ :: calls => demand calls
  | .mmap size :: calls => pageUp size.toNat + demand calls

/-- The image of the program holds the pool, and the heap starts behind the image. -/
structure Linked (l : Layout) : Prop where
  aligned : l.mmapPool.toNat % 4096 = 0
  image : l.mmapPool.toNat + poolSize ≤ l.endAddr.toNat
  pageSize : 0 < l.pageSize.toNat
  space : l.endAddr.toNat + l.pageSize.toNat ≤ 2 ^ 64

def poolEnd (l : Layout) : Nat := l.mmapPool.toNat + poolSize

/-- The heap that `brk` has made. -/
def heap (l : Layout) (s : State) : Block :=
  ⟨(heapStart l).toNat, s.heapBrk.toNat - (heapStart l).toNat⟩

/-- Every call has returned pages of the pool that no other call has returned, and none
of the heap. -/
structure Apart (l : Layout) (calls : List Call) : Prop where
  aligned : ∀ b ∈ (blocks l calls (.start l)).1, b.start % 4096 = 0
  within : ∀ b ∈ (blocks l calls (.start l)).1, b.Within l.mmapPool.toNat (poolEnd l)
  disjoint : (blocks l calls (.start l)).1.Pairwise Block.Disjoint
  heap : ∀ b ∈ (blocks l calls (.start l)).1, b.Disjoint (heap l (blocks l calls (.start l)).2)

/-! ### One call -/

variable {l : Layout} {s : State} {calls : List Call} {size addr : UInt64}

theorem toNat_poolSize : poolSize = 10485760 := rfl

/-- The rounding of the source, on words. -/
theorem roundPages_toNat (size : UInt64) :
    ((size + 4095) &&& (-4096)).toNat = (size.toNat + 4095) % 2 ^ 64 / 4096 * 4096 := by
  have hmask : (-4096 : UInt64).toNat = Bits.mask 52 12 := by decide
  have hlt : (size.toNat + 4095) % 2 ^ 64 < 2 ^ (12 + 52) := Nat.mod_lt _ (by decide)
  rw [UInt64.toNat_and, UInt64.toNat_add, hmask]
  exact Bits.and_high hlt

@[simp] theorem brk_mmapP (addr : UInt64) (s : State) : (brk addr s).2.mmapP = s.mmapP := by
  unfold brk
  by_cases h0 : addr = 0
  · rw [if_pos h0]
  · by_cases hgt : addr > s.heapBrk
    · rw [if_neg h0, if_pos hgt]
    · rw [if_neg h0, if_neg hgt]

/-- `init` leaves the pool alone. -/
@[simp] theorem ready_mmapP (l : Layout) (s : State) :
    (if s.inited then s else init l s).mmapP = s.mmapP := by
  by_cases h : s.inited
  · rw [if_pos h]
  · rw [if_neg h]
    rfl

@[simp] theorem syscallHandler_brk_mmapP : (syscallHandler l (.brk addr) s).2.mmapP = s.mmapP := by
  rw [syscallHandler, brk_mmapP, ready_mmapP]

@[simp] theorem syscallHandler_mmap_fst : (syscallHandler l (.mmap size) s).1 = s.mmapP := by
  rw [syscallHandler, mmapTemp, ready_mmapP]

@[simp] theorem syscallHandler_mmap_mmapP :
    (syscallHandler l (.mmap size) s).2.mmapP = s.mmapP + ((size + 4095) &&& (-4096)) := by
  rw [syscallHandler, mmapTemp, ready_mmapP]

/-- The call moves the pool by the pages that it asks for, unless they reach past all addresses. -/
theorem mmapP_toNat (l : Layout) {s : State} {size : UInt64}
    (hroom : s.mmapP.toNat + pageUp size.toNat < 2 ^ 64) :
    (syscallHandler l (.mmap size) s).2.mmapP.toNat = s.mmapP.toNat + pageUp size.toNat := by
  rw [syscallHandler_mmap_mmapP, UInt64.toNat_add, roundPages_toNat]
  unfold pageUp at hroom ⊢
  omega

/-! ### A run -/

/-- As long as there is room, each block starts at a page and lies above those before it. -/
theorem blocks_ascending (l : Layout) : ∀ (calls : List Call) (s : State),
    s.mmapP.toNat % 4096 = 0 → s.mmapP.toNat + demand calls < 2 ^ 64 →
      (∀ b ∈ (blocks l calls s).1, b.start % 4096 = 0) ∧
      Block.Ascending s.mmapP.toNat (blocks l calls s).1 (s.mmapP.toNat + demand calls) := by
  intro calls
  induction calls with
  | nil => exact fun s _ _ => ⟨fun b hb => (List.not_mem_nil hb).elim, Nat.le_refl _⟩
  | cons c calls ih =>
      intro s halign hroom
      cases c with
      | brk addr =>
          have hnext := ih (syscallHandler l (.brk addr) s).2
          rw [syscallHandler_brk_mmapP] at hnext
          exact hnext halign hroom
      | mmap size =>
          rw [demand] at hroom
          have hfits : s.mmapP.toNat + pageUp size.toNat < 2 ^ 64 := by omega
          have hmove := mmapP_toNat l hfits
          have hpages := pageUp_mod size.toNat
          have hle := le_pageUp size.toNat
          obtain ⟨haligned, hasc⟩ := ih (syscallHandler l (.mmap size) s).2 (by omega) (by omega)
          rw [hmove, Nat.add_assoc] at hasc
          rw [blocks, demand]
          dsimp only
          rw [syscallHandler_mmap_fst]
          refine ⟨List.forall_mem_cons.mpr ⟨halign, haligned⟩, Nat.le_refl _, ?_⟩
          exact hasc.mono_left (Nat.add_le_add_left hle _)

/-- Blocks below the end of a page are blocks with room for their pages. -/
theorem demand_le (l : Layout) {hi : Nat} (hhi : hi % 4096 = 0) (hlt : hi < 2 ^ 64) :
    ∀ (calls : List Call) (s : State), s.mmapP.toNat % 4096 = 0 → s.mmapP.toNat ≤ hi →
      (∀ b ∈ (blocks l calls s).1, b.start + b.len ≤ hi) → s.mmapP.toNat + demand calls ≤ hi := by
  intro calls
  induction calls with
  | nil => exact fun s _ hle _ => hle
  | cons c calls ih =>
      intro s halign hle hbelow
      cases c with
      | brk addr =>
          have hnext := ih (syscallHandler l (.brk addr) s).2
          rw [syscallHandler_brk_mmapP] at hnext
          exact hnext halign hle hbelow
      | mmap size =>
          rw [blocks] at hbelow
          dsimp only at hbelow
          rw [syscallHandler_mmap_fst, List.forall_mem_cons] at hbelow
          obtain ⟨hfirst, hrest⟩ := hbelow
          dsimp only at hfirst
          -- The block starts at a page and ends before one, so its pages do.
          have hpages : s.mmapP.toNat + pageUp size.toNat ≤ hi := by
            unfold pageUp
            omega
          have hfits : s.mmapP.toNat + pageUp size.toNat < 2 ^ 64 := by omega
          have hmove := mmapP_toNat l hfits
          have hmod := pageUp_mod size.toNat
          have hnext := ih (syscallHandler l (.mmap size) s).2 (by omega) (by omega) hrest
          rw [demand]
          omega

theorem Linked.heapStart_le (h : Linked l) : l.endAddr.toNat ≤ (heapStart l).toNat := by
  have hround : heapStart l = roundUp l.endAddr l.pageSize := rfl
  have hmod := Nat.mod_lt (l.endAddr.toNat + (l.pageSize.toNat - 1)) h.pageSize
  have hdiv := Nat.div_add_mod' (l.endAddr.toNat + (l.pageSize.toNat - 1)) l.pageSize.toNat
  rw [hround, roundUp_toNat h.pageSize h.space]
  omega

/-- The blocks of `mmap` are pages of the pool, apart from each other and from the heap, if and only
if the pool has room for the pages of all calls. -/
theorem mmap_apart (h : Linked l) (calls : List Call) :
    Apart l calls ↔ demand calls ≤ poolSize := by
  obtain ⟨halign, himage, hpage, hspace⟩ := h
  have hheap := Linked.heapStart_le ⟨halign, himage, hpage, hspace⟩
  rw [toNat_poolSize] at *
  have hend : poolEnd l = l.mmapPool.toNat + 10485760 := rfl
  refine ⟨fun ⟨_, hwithin, _, _⟩ => ?_, fun hroom => ?_⟩
  · have hmod : poolEnd l % 4096 = 0 := by omega
    have hlt : poolEnd l < 2 ^ 64 := by omega
    have hle := demand_le l hmod hlt calls (.start l) halign
      (by rw [hend]; exact Nat.le_add_right _ _) (fun b hb => (hwithin b hb).2)
    have hstart : (State.start l).mmapP = l.mmapPool := rfl
    rw [hstart] at hle
    omega
  · obtain ⟨haligned, hasc⟩ := blocks_ascending l calls (.start l) halign (by
      show l.mmapPool.toNat + demand calls < 2 ^ 64
      omega)
    have hwithin : ∀ b ∈ (blocks l calls (.start l)).1,
        b.Within l.mmapPool.toNat (poolEnd l) := fun b hb =>
      (hasc.within b hb).mono (Nat.le_refl _) (by rw [hend]; exact Nat.add_le_add_left hroom _)
    refine ⟨haligned, hwithin, hasc.disjoint, fun b hb => ?_⟩
    have hbelow := (hwithin b hb).2
    exact Or.inl (Nat.le_trans hbelow (Nat.le_trans himage hheap))

/-- A program of 16 MiB, with its pool from 8 MiB on. -/
def sixteenMiB : Layout := ⟨8388608, 18874368, 4096⟩

theorem sixteenMiB_linked : Linked sixteenMiB :=
  ⟨by decide, by decide, by decide, by decide⟩

theorem mmap_apart_sixteenMiB :
    Apart sixteenMiB [.mmap 10477569, .brk 0, .mmap 4095, .mmap 0] :=
  (mmap_apart sixteenMiB_linked _).mpr (by decide)

/-- After the whole pool, a call for one byte returns what lies behind the pool. -/
theorem mmap_behind_pool :
    ¬∀ l calls, Linked l → Apart l calls := by
  intro h
  have hmem : (⟨18874368, 1⟩ : Block) ∈
      (blocks sixteenMiB [.mmap 10485760, .mmap 1] (.start sixteenMiB)).1 := by decide
  have hwithin := (h sixteenMiB _ sixteenMiB_linked).within _ hmem
  exact absurd hwithin.2 (by decide)

end JudgeDuck.DuckHeap
