/-
What both loaders do after the first page flags, as one list.

The 64-bit loader adds a page of random bytes and has another stack; everything
else is the same list of effects (`loading`).  Which page loops the list contains
is said once (`Loop`): apart from the loops of the segments they mark pages as
written, make them read-only, or clear the bits of the processor.
-/
import JudgeDuck.Proofs.Elf.Escape

namespace JudgeDuck.Elf

open Utils Memory

section

variable {F : Format} {buf : Mem} {len : UInt32} {config : AppConfig} {vaddrBreak : UInt64}
  {l : Layout} {random : List Effect} {stack : List UInt8} {infoSize : Nat}

/-- `ELF::load` is the loader of the class of the file. -/
theorem load_cases {tscFreq : UInt64} {a : App} {es : List Effect}
    (h : load buf len config tscFreq vaddrBreak = some (a, es)) :
    loadElf64 buf len config tscFreq vaddrBreak = some (a, es) ∨
      loadElf32 buf len config tscFreq vaddrBreak = some (a, es) := by
  unfold load at h
  split at h
  · cases h
  · split at h
    · exact .inl h
    · split at h
      · exact .inr h
      · cases h

/-! ### The page loops -/

/-- The pages of a segment: from the page of its first byte on. -/
def Phdr.Covers (ph : Phdr) (p : Nat) : Prop :=
  ph.vaddr.toNat / 4096 ≤ p ∧ 4096 * p < ph.vaddr.toNat + ph.memsz.toNat

/-- The page operations that occur after the first page flags, at page `p`. -/
inductive Loop (headers : List Phdr) (p : Nat) : PageOp → Prop
  | written : Loop headers p setDuckWritten
  | readonly : Loop headers p setPageFlagsUserReadonly
  | access : Loop headers p clearAccessAndDirtyFlags
  | executable (ph : Phdr) (hph : ph ∈ headers) (ht : ph.type = 1) (hp : ph.Covers p)
      (hx : ph.flags &&& 1 ≠ 0) : Loop headers p addPageFlagsExecutable
  | writable (ph : Phdr) (hph : ph ∈ headers) (ht : ph.type = 1) (hp : ph.Covers p)
      (hw : ph.flags &&& 2 ≠ 0) : Loop headers p addPageFlagsWritable

/-- Page `p` lies between two addresses. -/
def InPages (start stop : UInt64) (p : Nat) : Prop :=
  start.toNat / 4096 ≤ p ∧ p < stop.toNat / 4096

/-- The loop over the pages of a segment. -/
theorem covers_iff (h : LayoutOk F buf len config vaddrBreak l) {ph : Phdr}
    (hph : ph ∈ phdrs F buf l.ehdr) (ht : ph.type = 1) (p : Nat) :
    InPages (roundDown ph.vaddr pageSize) (roundUp (ph.vaddr + ph.memsz) pageSize) p
      ↔ ph.Covers p := by
  have hb := l.loadVaddrBreak.toNat_lt
  have hroom := h.room
  obtain ⟨h1, h2, -, -⟩ :=
    (h.segments ph hph ht).pages h.aligned (by omega) (Nat.le_refl ph.memsz.toNat)
  rw [InPages, Phdr.Covers, h1, h2, pageUp]
  omega

theorem loop_of_mem_segmentFlags (h : LayoutOk F buf len config vaddrBreak l) {op : PageOp}
    {start stop : UInt64} {p : Nat}
    (he : Effect.pages op start stop ∈ (phdrs F buf l.ehdr).flatMap segmentFlagEffects)
    (hp : InPages start stop p) : Loop (phdrs F buf l.ehdr) p op := by
  obtain ⟨ph, hph, he⟩ := List.mem_flatMap.mp he
  unfold segmentFlagEffects at he
  split at he
  · rename_i ht
    have hcovers := covers_iff h hph ht p
    simp only [List.cons_append, List.nil_append, List.mem_cons, List.mem_append,
      Effect.pages.injEq] at he
    rcases he with ⟨rfl, -⟩ | he | he
    · exact .readonly
    · split at he
      · rename_i hx
        simp only [List.mem_singleton, Effect.pages.injEq] at he
        obtain ⟨rfl, rfl, rfl⟩ := he
        exact .executable ph hph ht (hcovers.mp hp) hx
      · cases he
    · split at he
      · rename_i hw
        simp only [List.mem_singleton, Effect.pages.injEq] at he
        obtain ⟨rfl, rfl, rfl⟩ := he
        exact .writable ph hph ht (hcovers.mp hp) hw
      · cases he
  · cases he

theorem loop_of_mem_readonly {start stop start' stop' : UInt64} {size : Nat} {src : Nat → UInt8}
    {op : PageOp} {headers : List Phdr} {p : Nat}
    (he : Effect.pages op start' stop' ∈ readonlyEffects start stop size src) :
    Loop headers p op := by
  simp only [readonlyEffects, List.mem_cons, List.not_mem_nil, or_false, reduceCtorEq, false_or,
    Effect.pages.injEq] at he
  rcases he with ⟨rfl, -⟩ | ⟨rfl, -⟩
  · exact .written
  · exact .readonly

/-- The page loops of everything after the first page flags. -/
theorem Accepted.loop_of_mem (h : Accepted F buf len config vaddrBreak l random stack infoSize)
    {op : PageOp} {start stop : UInt64} {p : Nat}
    (he : Effect.pages op start stop
      ∈ loading (phdrs F buf l.ehdr) buf len config l random stack infoSize)
    (hp : InPages start stop p) : Loop (phdrs F buf l.ehdr) p op := by
  unfold loading at he
  simp only [List.mem_append] at he
  rcases he with he | he | he | he | he | he | he | he | he
  · obtain ⟨ph, -, he⟩ := List.mem_flatMap.mp he
    unfold segmentEffects at he
    split at he
    · simp only [List.mem_cons, List.not_mem_nil, or_false, reduceCtorEq, false_or,
        Effect.pages.injEq] at he
      obtain ⟨rfl, -⟩ := he
      exact .written
    · cases he
  · exact loop_of_mem_readonly he
  · exact loop_of_mem_readonly he
  · unfold obEffects at he
    split at he
    · cases he
    · simp only [List.mem_cons, List.not_mem_nil, or_false, reduceCtorEq,
        Effect.pages.injEq] at he
      obtain ⟨rfl, -⟩ := he
      exact .written
  · exact loop_of_mem_readonly he
  · rcases h.random with rfl | ⟨rfl, -⟩
    · cases he
    · exact loop_of_mem_readonly he
  · simp only [stackEffects, Effect.copyBytes, List.mem_append, List.mem_singleton, reduceCtorEq,
      false_or, Effect.pages.injEq] at he
    rcases he with he | ⟨rfl, -⟩
    · split at he
      · simp at he
      · cases he
    · exact .written
  · exact loop_of_mem_segmentFlags h.toLayoutOk he hp
  · simp only [List.mem_singleton, Effect.pages.injEq] at he
    obtain ⟨rfl, -⟩ := he
    exact .access

/-- An invariant of one entry: the operations of all loops over its page keep it. -/
theorem keeps_applyAll {K : PTE → Prop} {es : List Effect} {p : Nat}
    (hes : ∀ op start stop, Effect.pages op start stop ∈ es → InPages start stop p →
      ∀ a, K a → K (op.entry a)) {s : Machine} (h : K (s.p1 p)) : K ((applyAll es s).p1 p) := by
  induction es generalizing s with
  | nil => exact h
  | cons e es ih =>
      rw [applyAll_cons]
      refine ih (fun op start stop he => hes op start stop (List.mem_cons_of_mem e he)) ?_
      cases e with
      | copy dst n src => exact h
      | pages op start stop =>
          show K (if _ then _ else _)
          split
          · rename_i hp
            exact hes op start stop List.mem_cons_self hp _ h
          · exact h

end

end JudgeDuck.Elf
