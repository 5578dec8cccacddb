/-
The functions that change flags.

Each of them changes a lowest entry in bits outside the address and takes the page away
from nobody (`FlagFunction.keeps`).  Below the kernel's half the recursive mapping leads
to lowest entries only, or to none and the loop ends with a page fault; the pages filled
with zeros are mapped pages, so the tables keep their shape.  The ranks then say that no
address, of either half, goes anywhere else than before.
-/
import JudgeDuck.Proofs.Tables.Frames

namespace JudgeDuck.PageTable

open Memory Paging

variable {h : HugePages} {leaf : Nat → UInt64} {p4 : UInt64} {m m' : Mem}

/-! ### Entries -/

/-- The bits of an entry that hold the address. -/
def frameMask : PTE := 0x000ffffffffff000

theorem or_masked {a c mask : PTE} (hc : c &&& mask = 0#64) : (a ||| c) &&& mask = a &&& mask := by
  rw [BitVec.and_or_distrib_right, hc, BitVec.or_zero]

theorem and_not_masked {a c mask : PTE} (hc : c &&& mask = 0#64) :
    (a &&& ~~~c) &&& mask = a &&& mask := by
  have hsplit : mask &&& (c ||| ~~~c) = (mask &&& c) ||| (mask &&& ~~~c) :=
    BitVec.and_or_distrib_left
  rw [BitVec.or_not_self, BitVec.and_allOnes, BitVec.and_comm mask c, hc, BitVec.zero_or] at hsplit
  rw [BitVec.and_assoc, BitVec.and_comm (~~~c) mask, ← hsplit]

theorem clearPageFlags_masked (a : PTE) : clearPageFlags a &&& frameMask = a &&& frameMask := by
  have hmask : frameMask.toNat = Bits.mask 40 12 := by decide
  have hclear : (clearPageFlags a).toNat = a.toNat * 2 % 2 ^ 64 / 2 ^ 10 * 2 ^ 9 % 2 ^ 64 := by
    rw [clearPageFlags, BitVec.toNat_shiftLeft, BitVec.toNat_ushiftRight, BitVec.toNat_shiftLeft,
      Nat.shiftLeft_eq, Nat.shiftLeft_eq, Nat.shiftRight_eq_div_pow]
  have ha := a.isLt
  refine BitVec.eq_of_toNat_eq ?_
  rw [BitVec.toNat_and, BitVec.toNat_and, hmask, Bits.and_field, Bits.and_field, hclear]
  omega

/-- Setting a flag that the mask is. -/
theorem or_self_masked (a mask : PTE) : (a ||| mask) &&& mask = mask := by
  refine BitVec.eq_of_toNat_eq (Nat.eq_of_testBit_eq fun i => ?_)
  rw [BitVec.toNat_and, BitVec.toNat_or, Nat.testBit_and, Nat.testBit_or]
  cases mask.toNat.testBit i
  · rw [Bool.and_false]
  · rw [Bool.or_true, Bool.and_self]

/-- An operation on entries that keeps the address, and the page where there is one. -/
structure Keeps (f : PTE → PTE) : Prop where
  frame : ∀ a, f a &&& frameMask = a &&& frameMask
  present : ∀ a, a &&& PTE.present = PTE.present → f a &&& PTE.present = PTE.present

theorem keeps_or {c : PTE} (hc : c &&& frameMask = 0) (hp : c &&& PTE.present = 0) :
    Keeps fun a => a ||| c :=
  ⟨fun _ => or_masked hc, fun _ ha => by rw [or_masked hp, ha]⟩

theorem keeps_and_not {c : PTE} (hc : c &&& frameMask = 0) (hp : c &&& PTE.present = 0) :
    Keeps fun a => a &&& ~~~c :=
  ⟨fun _ => and_not_masked hc, fun _ ha => by rw [and_not_masked hp, ha]⟩

theorem keeps_set_present : Keeps fun a => clearPageFlags a ||| PTE.present :=
  ⟨fun a => by rw [or_masked (by decide), clearPageFlags_masked], fun _ _ => or_self_masked _ _⟩

theorem Keeps.comp {f g : PTE → PTE} (hf : Keeps f) (hg : Keeps g) : Keeps fun a => g (f a) :=
  ⟨fun a => by rw [hg.frame, hf.frame], fun a ha => hg.present _ (hf.present a ha)⟩

theorem keeps_ite {f : PTE → PTE} (hf : Keeps f) (c : PTE → Prop) [DecidablePred c] :
    Keeps fun a => if c a then f a else a := by
  refine ⟨fun a => ?_, fun a ha => ?_⟩
  · split
    · exact hf.frame a
    · rfl
  · split
    · exact hf.present a ha
    · exact ha

theorem FlagFunction.keeps (f : FlagFunction) : Keeps f.op.entry := by
  have hw : Keeps fun a => a ||| PTE.writable := keeps_or (by decide) (by decide)
  have hu : Keeps fun a => a ||| PTE.user := keeps_or (by decide) (by decide)
  have hx : Keeps fun a => a ||| PTE.noExecute := keeps_or (by decide) (by decide)
  cases f with
  | setPageFlagsUserWritable => exact ((keeps_set_present.comp hu).comp hw).comp hx
  | setPageFlagsUserReadonly => exact (keeps_set_present.comp hu).comp hx
  | setPageFlagsUserExecutable => exact keeps_set_present.comp hu
  | setPageFlagsKernel => exact keeps_set_present.comp hw
  | addPageFlagsWritable => exact hw
  | addPageFlagsExecutable => exact keeps_and_not (by decide) (by decide)
  | clearAccessAndDirtyFlags => exact keeps_and_not (by decide) (by decide)
  | setDuckWrittenByDirty => exact keeps_ite (keeps_or (by decide) (by decide)) _
  | setDuckWritten => exact keeps_or (by decide) (by decide)
  | clearDuckWrittenPages => exact keeps_ite (keeps_and_not (by decide) (by decide)) _

/-- An operation on entries, as the loops write it back. -/
theorem keeps_entry {f : PTE → PTE} (hf : Keeps f) {e : UInt64} (he : present e = true) :
    present (.ofBitVec (f e.toBitVec)) = true ∧
      frame 12 (.ofBitVec (f e.toBitVec)) = frame 12 e := by
  have hflag : PTE.present.toNat = Bits.mask 1 0 := by decide
  have hmask : frameMask.toNat = Bits.mask 40 12 := by decide
  have hpresent : ∀ a : PTE, a &&& PTE.present = PTE.present ↔ a.toNat % 2 = 1 := by
    intro a
    rw [← BitVec.toNat_inj, BitVec.toNat_and, hflag, Bits.and_field]
    unfold Bits.mask
    omega
  have hframe : ∀ a : PTE, (a &&& frameMask).toNat = a.toNat / 2 ^ 12 % 2 ^ 40 * 2 ^ 12 := by
    intro a
    rw [BitVec.toNat_and, hmask, Bits.and_field]
  refine ⟨?_, ?_⟩
  · refine decide_eq_true ?_
    show (f e.toBitVec).toNat % 2 = 1
    rw [← hpresent]
    exact hf.present _ ((hpresent _).mpr (of_decide_eq_true he))
  · show (f e.toBitVec).toNat / 2 ^ 12 % 2 ^ 40 * 2 ^ 12
      = e.toBitVec.toNat / 2 ^ 12 % 2 ^ 40 * 2 ^ 12
    rw [← hframe, ← hframe, hf.frame]

/-! ### Pages -/

/-- A new leaf. -/
theorem Shape.write (hr : Ready h) (hs : Shape h leaf p4 m) {p : Nat} (hp : p < 512 * total h)
    (e : UInt64) :
    Shape h (Function.update leaf p e) p4
      (m.write64 ((Tab.p1 (p / 512)).addr h + 8 * (p % 512)) e) := by
  have htaken : (Tab.p1 (p / 512)).Taken (count h) := taken_p1.mpr (by omega)
  refine ⟨hs.p4, (hs.holds.set (placed hr.room) htaken (Nat.mod_lt _ (by decide)) e).congr
    fun t _ j hj => ?_⟩
  by_cases ht : t = .p1 (p / 512)
  · rw [ht, Function.update_self]
    show Function.update leaf p e (512 * (p / 512) + j) = _
    by_cases hj' : j = p % 512
    · rw [hj', Function.update_self, Nat.div_add_mod, Function.update_self]
    · rw [Function.update_of_ne hj', Function.update_of_ne (by omega)]
      rfl
  · rw [Function.update_of_ne ht]
    refine entries_leaf fun k hk => Function.update_of_ne (fun he => ht ?_) e leaf
    rw [hk, ← he]
    congr 1
    omega

theorem Leaves.update (hl : Leaves h leaf) {f : PTE → PTE} (hf : Keeps f) (p : Nat)
    (hp : p < 512 * total h) :
    Leaves h (Function.update leaf p (.ofBitVec (f (leaf p).toBitVec))) := by
  obtain ⟨hpresent, hframe⟩ := keeps_entry hf (hl.present p hp)
  refine ⟨fun q hq => ?_, fun q hq => ?_⟩
  · by_cases hqp : q = p
    · rw [hqp, Function.update_self, hpresent]
    · rw [Function.update_of_ne hqp, hl.present q hq]
  · by_cases hqp : q = p
    · rw [hqp, Function.update_self, hframe, hl.frame p hp]
    · rw [Function.update_of_ne hqp, hl.frame q hq]

/-- A byte on a mapped page is in no table. -/
theorem Ready.apart (hr : Ready h) {p x : Nat} (hp : p < 512 * total h) (h1 : frameOfPage h p ≤ x)
    (h2 : x < frameOfPage h p + 4096) {t : Tab} (ht : t.Taken (count h)) :
    x < t.addr h ∨ t.addr h + 4096 ≤ x := by
  have hne := hr.frameOfPage_ne hp ht
  have hmod := frameOfPage_mod h p
  have haddr : t.addr h % 4096 = 0 := slot_mod h t.number
  omega

/-- A mapped page filled with zeros. -/
theorem Shape.memset (hr : Ready h) (hs : Shape h leaf p4 m) {p : Nat} (hp : p < 512 * total h) :
    Shape h leaf p4 (m.memset (frameOfPage h p) 0 4096) := by
  refine ⟨hs.p4, hs.holds.unchanged fun t ht x h1 h2 => Mem.memset_out ?_⟩
  by_contra hin
  have hout := hr.apart hp (show frameOfPage h p ≤ x by omega) (by omega) ht
  omega

/-- What the body of a page loop does at a mapped page: a new leaf, zeros on the page if the
operation fills it, and nothing else on the mapped pages. -/
structure PageDone (h : HugePages) (leaf : Nat → UInt64) (p4 : UInt64) (op : PageOp) (p : Nat)
    (m m' : Mem) : Prop where
  shape : Shape h (Function.update leaf p (.ofBitVec (op.entry (leaf p).toBitVec))) p4 m'
  bytes : ∀ q x, q < 512 * total h → frameOfPage h q ≤ x → x < frameOfPage h q + 4096 →
    m' x = if op.wipes (leaf p).toBitVec = true ∧ q = p then 0 else m x

theorem Ready.pageAt_eq (hr : Ready h) (hs : Shape h leaf p4 m) (hl : Leaves h leaf) (op : PageOp)
    {start : UInt64} (hp : pageOf start < 512 * total h) (halign : start.toNat % 4096 = 0) :
    ∃ m', pageAt op p4 start m = some m' ∧ PageDone h leaf p4 op (pageOf start) m m' := by
  have haddr := hr.translate_getP1 hs hp
  have hread : ∀ {m}, Shape h leaf p4 m →
      m.read64 ((Tab.p1 (pageOf start / 512)).addr h + 8 * (pageOf start % 512))
        = leaf (pageOf start) := by
    intro m hs
    obtain ⟨a, ha, hleaf⟩ := hr.read_leaf hs hp
    rw [hr.translate_getP1 hs hp, Option.some.injEq] at ha
    rw [ha, hleaf]
  have htaken : (Tab.p1 (pageOf start / 512)).Taken (count h) := taken_p1.mpr (by omega)
  have hmod : pageOf start % 512 < 512 := Nat.mod_lt _ (by decide)
  by_cases hw : op.wipes (leaf (pageOf start)).toBitVec = true
  · have hs1 := hs.memset hr hp
    refine ⟨_, ?_, hs1.write hr hp _, fun q x hq h1 h2 => ?_⟩
    · rw [pageAt, haddr, Option.bind_eq_bind, Option.bind_some, hread hs, if_pos hw,
        hr.translate_frame hs hl hp, halign]
      show some _ = some _
      rw [Nat.add_zero, hread hs1]
    · have hout := hr.apart hq h1 h2 htaken
      rw [Mem.write64_out (by omega)]
      by_cases hqp : q = pageOf start
      · rw [if_pos ⟨hw, hqp⟩]
        subst hqp
        exact Mem.put_in h1 h2
      · rw [if_neg fun hc => hqp hc.2]
        refine Mem.memset_out ?_
        have hne : frameOfPage h q ≠ frameOfPage h (pageOf start) :=
          fun he => hqp (hr.frameOfPage_inj hq hp he)
        have hmod1 := frameOfPage_mod h q
        have hmod2 := frameOfPage_mod h (pageOf start)
        omega
  · refine ⟨_, ?_, hs.write hr hp _, fun q x hq h1 h2 => ?_⟩
    · rw [pageAt, haddr, Option.bind_eq_bind, Option.bind_some, hread hs, if_neg hw]
      show some _ = some _
      rw [hread hs]
    · have hout := hr.apart hq h1 h2 htaken
      rw [Mem.write64_out (by omega), if_neg fun hc => hw hc.1]

/-! ### Loops and calls -/

/-- A page loop below the kernel's half ends with a page fault, or keeps the shape of the tables. -/
theorem Ready.pagesAt_kept (hr : Ready h) {op : PageOp} (hop : Keeps op.entry) :
    ∀ (k : Nat) (start : UInt64) (leaf : Nat → UInt64) (m : Mem), Shape h leaf p4 m →
      Leaves h leaf →
      start.toNat < 2 ^ 47 → start.toNat % 4096 = 0 → pagesAt op p4 k start m = some m' →
      ∃ leaf', Shape h leaf' p4 m' ∧ Leaves h leaf' := by
  have htotal := hr.total_le
  intro k
  induction k with
  | zero =>
      intro start leaf m hs hl _ _ hrun
      cases hrun
      exact ⟨leaf, hs, hl⟩
  | succ k ih =>
      intro start leaf m hs hl hlow halign hrun
      rw [pagesAt] at hrun
      by_cases hp : pageOf start < 512 * total h
      · obtain ⟨m1, hpage, hdone⟩ := hr.pageAt_eq hs hl op hp halign
        have hnext : (start + pageSize).toNat = start.toNat + 4096 :=
          Utils.toNat_add_of_lt (by rw [toNat_pageSize]; omega)
        rw [hpage, Option.bind_eq_bind, Option.bind_some] at hrun
        unfold pageOf at hp
        exact ih (start + pageSize) _ m1 hdone.shape (hl.update hop _ hp) (by omega) (by omega) hrun
      · -- no table for the lowest entry
        rw [pageAt, hr.translate_getP1_none hs hlow (Nat.le_of_not_lt hp)] at hrun
        cases hrun

theorem toNat_mod_pageSize {a : UInt64} (ha : a % pageSize = 0) : a.toNat % 4096 = 0 := by
  have hmod := congrArg UInt64.toNat ha
  rw [UInt64.toNat_mod, toNat_pageSize] at hmod
  exact hmod

theorem Ready.runCalls_kept (hr : Ready h) : ∀ (calls : List FlagCall) (leaf : Nat → UInt64)
    (m : Mem),
    Shape h leaf p4 m → Leaves h leaf → (∀ c ∈ calls, c.start.toNat < 2 ^ 47) →
    runCalls p4 calls m = some m' → ∃ leaf', Shape h leaf' p4 m' ∧ Leaves h leaf' := by
  intro calls
  induction calls with
  | nil =>
      intro leaf m hs hl _ hrun
      cases hrun
      exact ⟨leaf, hs, hl⟩
  | cons c calls ih =>
      intro leaf m hs hl hlow hrun
      rw [runCalls, Option.bind_eq_bind, Option.bind_eq_some_iff] at hrun
      obtain ⟨m1, hcall, hrest⟩ := hrun
      rw [runAt] at hcall
      split at hcall
      · next halign =>
        obtain ⟨leaf1, hs1, hl1⟩ := hr.pagesAt_kept c.function.keeps _ _ leaf m hs hl
          (hlow c List.mem_cons_self) (toNat_mod_pageSize halign.1) hcall
        exact ih leaf1 m1 hs1 hl1 (fun d hd => hlow d (List.mem_cons_of_mem c hd)) hrest
      · cases hcall

/-- Tables of one shape lead every address to the same place. -/
theorem Ready.translate_congr (hr : Ready h) {leaf' : Nat → UInt64} (hs : Shape h leaf p4 m)
    (hl : Leaves h leaf) (hs' : Shape h leaf' p4 m') (hl' : Leaves h leaf') (va : UInt64) :
    translate m'.read64 p4.toNat va = translate m.read64 p4.toNat va := by
  rw [hs.p4]
  refine (hr.ranked leaf).translate_congr hs.holds hs'.holds (taken_top h (by decide)) rfl ?_ ?_ va
  · intro t _ hrank j _
    refine entries_leaf fun k hk => ?_
    rw [hk] at hrank
    exact absurd hrank (Nat.lt_irrefl 0)
  · intro t ht hrank j hj
    cases t with
    | p1 k =>
        have hk := taken_p1.mp ht
        have hp : 512 * k + j < 512 * total h := by omega
        show present (leaf' _) = present (leaf _) ∧ frame 12 (leaf' _) = frame 12 (leaf _)
        rw [hl.present _ hp, hl'.present _ hp, hl.frame _ hp, hl'.frame _ hp]
        exact ⟨rfl, rfl⟩
    | p4 => cases hrank
    | p3High => cases hrank
    | p3Low => cases hrank
    | p2 g => cases hrank

end JudgeDuck.PageTable
