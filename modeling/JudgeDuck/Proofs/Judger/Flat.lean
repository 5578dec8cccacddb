/-
The judge buffer is a flat array.

`Flat` is the array with the last executed request, and its commands are stated in
exact integers.  A command of the judge gives the same answer and the same array
after every history, no other byte of memory changes, and the request is forgotten
exactly when a command changes the array.
-/
import JudgeDuck.Base.FlatArray
import JudgeDuck.Proofs.Judger.Runs

namespace JudgeDuck

namespace Judger

open Memory FlatArray

/-! ### The array -/

structure Flat where
  bytes : List UInt8
  stored : Option Last

namespace Flat

/-- The offset is in the array and the part ends in it. -/
def Inside (f : Flat) (off len : Nat) : Prop :=
  off < f.bytes.length ∧ off + len ≤ f.bytes.length

instance (f : Flat) (off len : Nat) : Decidable (f.Inside off len) := by
  unfold Inside
  infer_instance

/-- A change forgets the last executed request. -/
def change (f : Flat) (off : Nat) (new : List UInt8) : Flat := ⟨overwrite f.bytes off new, none⟩

def run (f : Flat) : Command → Answer × Flat
  | .clear off len =>
    if f.Inside off.toNat len.toNat then
      (.done true, f.change off.toNat (List.replicate len.toNat 0))
    else (.done false, f)
  | .read off len =>
    (.data (if f.Inside off.toNat len.toNat then some (slice f.bytes off.toNat len.toNat)
      else none), f)
  | .write off data len =>
    if f.Inside off.toNat len.toNat then
      (.done true, f.change off.toNat ((List.range len.toNat).map data))
    else (.done false, f)
  | .copy dst src len =>
    if f.Inside dst.toNat len.toNat ∧ f.Inside src.toNat len.toNat ∧
        (dst.toNat + len.toNat ≤ src.toNat ∨ src.toNat + len.toNat ≤ dst.toNat) then
      (.done true, f.change dst.toNat (slice f.bytes src.toNat len.toNat))
    else (.done false, f)
  | .compare off1 off2 len =>
    (.equal (if f.Inside off1.toNat len.toNat ∧ f.Inside off2.toNat len.toNat then
      some (slice f.bytes off1.toNat len.toNat = slice f.bytes off2.toNat len.toNat)
      else none), f)

/-- The answers to commands in a row, and the array after them. -/
def runAll : List Command → Flat → List Answer × Flat
  | [], f => ([], f)
  | c :: cs, f =>
    let r := runAll cs (f.run c).2
    ((f.run c).1 :: r.1, r.2)

end Flat

/-- The same for the judge. -/
def Command.runAll : List Command → Judger → List Answer × Judger
  | [], s => ([], s)
  | c :: cs, s =>
    let r := Command.runAll cs (c.run s).2
    ((c.run s).1 :: r.1, r.2)

/-- The judge and the array agree. -/
structure Refines (s : Judger) (f : Flat) : Prop where
  bytes : s.contents = f.bytes
  stored : Kept s f.stored

/-! ### Offsets -/

variable {S : StdSort} {t : TimerConfig} {s s' : Judger} {f : Flat} {off len : UInt64}

theorem Refines.length (h : Refines s f) : f.bytes.length = s.bufferSize.toNat := by
  rw [← h.bytes, contents, Mem.length_bytes]

theorem inRange_iff : s.inRange off len = true ↔
    off.toNat < s.bufferSize.toNat ∧ off.toNat + len.toNat ≤ s.bufferSize.toNat := by
  unfold inRange
  rw [decide_eq_true_iff, UInt64.lt_iff_toNat_lt, UInt64.le_iff_toNat_le]
  refine and_congr_right fun h => ?_
  rw [UInt64.toNat_sub_of_le _ _ (UInt64.le_iff_toNat_le.mpr (Nat.le_of_lt h))]
  omega

theorem Refines.inRange_iff (h : Refines s f) :
    s.inRange off len = true ↔ f.Inside off.toNat len.toNat := by
  rw [Judger.inRange_iff, Flat.Inside, h.length]

theorem Fits.addr (h : s.Fits) (hoff : off.toNat < s.bufferSize.toNat) :
    s.addr off = s.buffer.toNat + off.toNat := by
  unfold Fits at h
  rw [Judger.addr, UInt64.toNat_add, Nat.mod_eq_of_lt (by omega)]

/-! ### One command -/

/-- Only the buffer may change. -/
def Elsewhere (s s' : Judger) : Prop :=
  ∀ x, x < s.buffer.toNat ∨ s.buffer.toNat + s.bufferSize.toNat ≤ x → s'.mem x = s.mem x

theorem contents_clear (s : Judger) (m : Mem) : (s.setMem m).clearJudgeResult.contents
    = m.bytes s.buffer.toNat s.bufferSize.toNat := by
  have h := s.clearJudgeResult_same m
  rw [contents, h.buffer, h.bufferSize, clearJudgeResult_mem, setMem_mem]

/-- Every change is an update of memory. -/
theorem Refines.change (h : Refines s f) (hf : s.Fits) (hin : f.Inside off.toNat len.toNat)
    (g : Nat → UInt8) :
    Refines (s.setMem (s.mem.put (s.addr off) len.toNat g)).clearJudgeResult
      (f.change off.toNat ((List.range len.toNat).map g)) ∧
    Elsewhere s (s.setMem (s.mem.put (s.addr off) len.toNat g)).clearJudgeResult := by
  rw [Flat.Inside, h.length] at hin
  rw [hf.addr hin.1]
  refine ⟨⟨?_, h.stored.clear _⟩, fun x hx => ?_⟩
  · rw [contents_clear, bytes_put _ _ hin.2, Flat.change, ← h.bytes, contents]
  · rw [clearJudgeResult_mem, setMem_mem]
    exact Mem.put_out (by omega)

theorem Refines.slice (h : Refines s f) (hf : s.Fits) (hin : f.Inside off.toNat len.toNat) :
    FlatArray.slice f.bytes off.toNat len.toNat = s.mem.bytes (s.addr off) len.toNat := by
  rw [Flat.Inside, h.length] at hin
  rw [← h.bytes, contents, bytes_slice _ hin.2, hf.addr hin.1]

/-- The sum of the overlap test is exact when the part lies in the array. -/
theorem Refines.add_le_iff (h : Refines s f) (hin : f.Inside off.toNat len.toNat) (b : UInt64) :
    off + len ≤ b ↔ off.toNat + len.toNat ≤ b.toNat := by
  have hn := s.bufferSize.toNat_lt
  rw [Flat.Inside, h.length] at hin
  rw [UInt64.le_iff_toNat_le, UInt64.toNat_add, Nat.mod_eq_of_lt (by omega)]

theorem Command.refines (h : Refines s f) (hf : s.Fits) (c : Command) :
    (c.run s).1 = (f.run c).1 ∧ Refines (c.run s).2 (f.run c).2 ∧ Elsewhere s (c.run s).2 := by
  cases c with
  | clear off len =>
      simp only [Command.run, clearBuffer, Flat.run]
      by_cases hin : f.Inside off.toNat len.toNat
      · have hzero : List.replicate len.toNat (0 : UInt8)
          = (List.range len.toNat).map fun _ => 0 := by
          rw [List.map_const', List.length_range]
        rw [if_pos (h.inRange_iff.mpr hin), if_pos hin, hzero]
        exact ⟨rfl, h.change hf hin _⟩
      · rw [if_neg (h.inRange_iff.not.mpr hin), if_neg hin]
        exact ⟨rfl, h, fun _ _ => rfl⟩
  | read off len =>
      refine ⟨?_, h, fun _ _ => rfl⟩
      simp only [Command.run, readBuffer, Flat.run]
      by_cases hin : f.Inside off.toNat len.toNat
      · rw [if_pos (h.inRange_iff.mpr hin), if_pos hin, h.slice hf hin]
      · rw [if_neg (h.inRange_iff.not.mpr hin), if_neg hin]
  | write off data len =>
      simp only [Command.run, writeBuffer, Flat.run]
      by_cases hin : f.Inside off.toNat len.toNat
      · rw [if_pos (h.inRange_iff.mpr hin), if_pos hin]
        exact ⟨rfl, h.change hf hin data⟩
      · rw [if_neg (h.inRange_iff.not.mpr hin), if_neg hin]
        exact ⟨rfl, h, fun _ _ => rfl⟩
  | copy dst src len =>
      simp only [Command.run, copyBuffer, Flat.run, h.inRange_iff]
      by_cases hin : f.Inside dst.toNat len.toNat ∧ f.Inside src.toNat len.toNat
      · simp only [h.add_le_iff hin.1, h.add_le_iff hin.2]
        split
        · rw [h.slice hf hin.2]
          exact ⟨rfl, h.change hf hin.1 fun i => s.mem (s.addr src + i)⟩
        · exact ⟨rfl, h, fun _ _ => rfl⟩
      · rw [if_neg (fun hc => hin ⟨hc.1, hc.2.1⟩), if_neg (fun hc => hin ⟨hc.1, hc.2.1⟩)]
        exact ⟨rfl, h, fun _ _ => rfl⟩
  | compare off1 off2 len =>
      refine ⟨?_, h, fun _ _ => rfl⟩
      simp only [Command.run, compareBuffer, Flat.run, h.inRange_iff]
      by_cases hin : f.Inside off1.toNat len.toNat ∧ f.Inside off2.toNat len.toNat
      · rw [if_pos hin, if_pos hin, h.slice hf hin.1, h.slice hf hin.2]
      · rw [if_neg hin, if_neg hin]

/-! ### Commands in a row -/

theorem Command.run_same (c : Command) (s : Judger) : SameBuffer s (c.run s).2 :=
  Call.run_same (S := StdSort.insertion) (t := ⟨0, id, id⟩) (c := .buffer c) rfl

theorem Command.runAll_refines (cs : List Command) (h : Refines s f) (hf : s.Fits) :
    (Command.runAll cs s).1 = (f.runAll cs).1 ∧
    Refines (Command.runAll cs s).2 (f.runAll cs).2 ∧ Elsewhere s (Command.runAll cs s).2 := by
  induction cs generalizing s f with
  | nil => exact ⟨rfl, h, fun _ _ => rfl⟩
  | cons c cs ih =>
      obtain ⟨ha, hr, he⟩ := Command.refines h hf c
      have hs := c.run_same s
      obtain ⟨has, hrs, hes⟩ := ih hr (hs.fits hf)
      rw [Elsewhere, hs.buffer, hs.bufferSize] at hes
      refine ⟨?_, hrs, fun x hx => (hes x hx).trans (he x hx)⟩
      show (c.run s).1 :: _ = (f.run c).1 :: _
      rw [ha, has]

/-- A history without a condition on the calls. -/
abbrev Reachable (S : StdSort) (t : TimerConfig) : Judger → Option Last → Prop :=
  Run S t fun _ _ => True

/-- After every history, commands in a row are commands of the array. -/
theorem buffer_refines {last : Option Last} (h : Reachable S t s last) (cs : List Command) :
    (Command.runAll cs s).1 = (Flat.runAll cs ⟨s.contents, last⟩).1 ∧
    Refines (Command.runAll cs s).2 (Flat.runAll cs ⟨s.contents, last⟩).2 ∧
    Elsewhere s (Command.runAll cs s).2 ∧ s.contents.length = s.bufferSize.toNat :=
  have hr : Refines s ⟨s.contents, last⟩ := ⟨rfl, h.kept⟩
  have ⟨ha, hr', he⟩ := Command.runAll_refines cs hr h.fits
  ⟨ha, hr', he, hr.length⟩

theorem buffer_refines_write : ∃ s, Reachable StdSort.insertion ⟨0, id, id⟩ s none ∧
    (Command.runAll [.write 5 (fun _ => 7) 1, .read 5 1] s).1 = [.done true, .data (some [7])] := by
  obtain ⟨s, hi, -, hsize, -⟩ := init_fiveGiB
  have hrun : Reachable StdSort.insertion ⟨0, id, id⟩ s none := Run.init fiveGiB_booted hi
  obtain ⟨ha, -, -, hlen⟩ := buffer_refines hrun [.write 5 (fun _ => 7) 1, .read 5 1]
  rw [hsize, (by decide : (536870912 : UInt64).toNat = 536870912)] at hlen
  refine ⟨s, hrun, ?_⟩
  have hin : Flat.Inside ⟨s.contents, none⟩ (5 : UInt64).toNat (1 : UInt64).toNat := by
    rw [Flat.Inside, hlen]
    decide
  have hwrite : Flat.run ⟨s.contents, none⟩ (.write 5 (fun _ => 7) 1)
      = (.done true, ⟨overwrite s.contents 5 [7], none⟩) := by
    rw [Flat.run, if_pos hin]
    rfl
  have hin' : Flat.Inside ⟨overwrite s.contents 5 [7], none⟩ (5 : UInt64).toNat
      (1 : UInt64).toNat := by
    rw [Flat.Inside, length_overwrite (by rw [hlen]; decide), hlen]
    decide
  have hread : (Flat.run ⟨overwrite s.contents 5 [7], none⟩ (.read 5 1)).1 = .data (some [7]) := by
    have hpart : slice (overwrite s.contents 5 [7]) 5 1 = [7] := slice_overwrite (by omega)
    rw [Flat.run, if_pos hin']
    exact congrArg (fun bs => Answer.data (some bs)) hpart
  rw [ha, Flat.runAll, hwrite]
  exact congrArg (fun a => [Answer.done true, a]) hread

end Judger

end JudgeDuck
