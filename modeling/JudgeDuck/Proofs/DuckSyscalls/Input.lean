/-
Reading from standard input.

What is left of the input is a list of bytes (`rest`).  A read of some vectors takes
them from its front, fills the vectors in order (`scatter`) and returns their number, as
long as the length of the call gets to `duck_read` unchanged.  The length of a single
read is converted to `int` on the way, so it can become shorter or much longer.
-/
import JudgeDuck.Model.DuckSyscalls

namespace JudgeDuck.DuckSyscalls

variable {w : Nat}

/-! ### Slices -/

theorem length_slice (a : Nat → UInt8) (i n : Nat) : (slice a i n).length = n := by
  rw [slice, List.length_map, List.length_range]

theorem slice_add (a : Nat → UInt8) (i n k : Nat) :
    slice a i (n + k) = slice a i n ++ slice a (i + n) k := by
  unfold slice
  rw [List.range_add, List.map_append, List.map_map]
  congr 1
  refine List.map_congr_left fun j _ => ?_
  rw [Function.comp_apply, Nat.add_assoc]

theorem take_slice (a : Nat → UInt8) (i : Nat) {n k : Nat} (h : n ≤ k) :
    (slice a i k).take n = slice a i n := by
  obtain ⟨d, rfl⟩ := Nat.exists_eq_add_of_le h
  rw [slice_add, List.take_left' (length_slice a i n)]

theorem drop_slice (a : Nat → UInt8) (i : Nat) {n k : Nat} (h : n ≤ k) :
    (slice a i k).drop n = slice a (i + n) (k - n) := by
  obtain ⟨d, rfl⟩ := Nat.exists_eq_add_of_le h
  rw [slice_add, List.drop_left' (length_slice a i n), Nat.add_sub_cancel_left]

/-! ### Vectors -/

/-- The bytes that the vectors have room for. -/
def total (vs : List (IoVec w)) : Nat := (vs.map fun v => v.len.toNat).sum

/-- The copies that fill the vectors from the front of the data; a vector that is not filled is the
last one. -/
def scatter : List (IoVec w) → List UInt8 → List (Store w)
  | [], _ => []
  | v :: vs, data =>
    ⟨v.base, data.take v.len.toNat⟩ ::
      if v.len.toNat ≤ data.length then scatter vs (data.drop v.len.toNat) else []

/-- The bytes of some copies, in order. -/
def copied (stores : List (Store w)) : List UInt8 := stores.flatMap Store.bytes

theorem copied_scatter (vs : List (IoVec w)) (data : List UInt8) :
    copied (scatter vs data) = data.take (total vs) := by
  induction vs generalizing data with
  | nil => exact (List.take_zero).symm
  | cons v vs ih =>
      have htotal : total (v :: vs) = v.len.toNat + total vs := rfl
      rw [scatter, htotal, List.take_add]
      show data.take v.len.toNat ++ copied _ = _
      split
      · rw [ih]
      · rename_i hlen
        rw [List.drop_eq_nil_of_le (by omega), List.take_nil]
        rfl

theorem scatter_single (v : IoVec w) (data : List UInt8) :
    scatter [v] data = [⟨v.base, data.take v.len.toNat⟩] := by
  rw [scatter]
  split <;> rfl

/-! ### `duck_read` and `duck_readv` -/

/-- The input that is left. -/
def rest (s : State w) : List UInt8 :=
  slice s.duckinfo.stdin s.stdinCurrPos.toNat (s.duckinfo.stdinSize.toNat - s.stdinCurrPos.toNat)

theorem length_rest (s : State w) :
    (rest s).length = s.duckinfo.stdinSize.toNat - s.stdinCurrPos.toNat := length_slice _ _ _

/-- The whole input. -/
def stdinBytes (s : State w) : List UInt8 := slice s.duckinfo.stdin 0 s.duckinfo.stdinSize.toNat

/-- The position is inside the input. -/
def PosOk (s : State w) : Prop := s.stdinCurrPos.toNat ≤ s.duckinfo.stdinSize.toNat

/-- The result of a read of some vectors. -/
structure Delivers (s : State w) (vs : List (IoVec w)) (r : Result w) : Prop where
  ret : r.ret.toNat = min (total vs) (rest s).length
  stores : r.stores = scatter vs (rest s)
  rest_eq : rest r.state = (rest s).drop (total vs)
  duckinfo : r.state.duckinfo = s.duckinfo
  inited : r.state.inited = s.inited
  posOk : PosOk r.state

theorem min_toNat (a b : BitVec w) : (if a < b then a else b).toNat = min a.toNat b.toNat := by
  split
  · rename_i h
    rw [BitVec.lt_def] at h
    omega
  · rename_i h
    rw [BitVec.lt_def] at h
    omega

theorem take_rest (s : State w) (n : Nat) : (rest s).take n
    = slice s.duckinfo.stdin s.stdinCurrPos.toNat (min n (rest s).length) := by
  by_cases h : n ≤ (rest s).length
  · rw [Nat.min_eq_left h]
    exact take_slice _ _ (by rw [← length_rest]; exact h)
  · rw [Nat.min_eq_right (by omega), List.take_of_length_le (by omega), length_rest]
    rfl

theorem drop_rest (s : State w) (n : Nat) : (rest s).drop n
    = slice s.duckinfo.stdin (s.stdinCurrPos.toNat + min n (rest s).length)
      ((rest s).length - min n (rest s).length) := by
  by_cases h : n ≤ (rest s).length
  · rw [Nat.min_eq_left h, length_rest]
    exact drop_slice _ _ (by rw [← length_rest]; exact h)
  · rw [Nat.min_eq_right (by omega), List.drop_eq_nil_of_le (by omega), Nat.sub_self]
    rfl

theorem duckRead_delivers (buf len : BitVec w) {s : State w} (h : PosOk s) :
    Delivers s [⟨buf, len⟩] (duckRead 0 buf len s) := by
  have hsub : (s.duckinfo.stdinSize - s.stdinCurrPos).toNat = (rest s).length := by
    rw [length_rest]
    exact BitVec.toNat_sub_of_le (BitVec.le_def.mpr h)
  have hlen : (rest s).length + s.stdinCurrPos.toNat = s.duckinfo.stdinSize.toNat := by
    rw [length_rest]
    unfold PosOk at h
    omega
  have hret : (duckRead 0 buf len s).ret.toNat = min len.toNat (rest s).length := by
    rw [duckRead, if_pos rfl, ← hsub]
    exact min_toNat _ _
  have hpos : (duckRead 0 buf len s).state.stdinCurrPos.toNat
      = s.stdinCurrPos.toNat + min len.toNat (rest s).length := by
    have hlt := s.duckinfo.stdinSize.isLt
    rw [← hret]
    show (s.stdinCurrPos + (duckRead 0 buf len s).ret).toNat = _
    rw [BitVec.toNat_add, Nat.mod_eq_of_lt (by omega)]
  have htotal : total [(⟨buf, len⟩ : IoVec w)] = len.toNat := Nat.add_zero _
  refine ⟨by rw [htotal]; exact hret, ?_, ?_, rfl, rfl, ?_⟩
  · rw [scatter_single, take_rest, ← hret]
    rfl
  · rw [htotal, drop_rest, rest, hpos]
    show slice s.duckinfo.stdin _ (s.duckinfo.stdinSize.toNat - _) = _
    congr 1
    omega
  · show (duckRead 0 buf len s).state.stdinCurrPos.toNat ≤ s.duckinfo.stdinSize.toNat
    rw [hpos]
    omega

/-- A vector that was filled, and the vectors after it. -/
theorem Delivers.append {s : State w} {v : IoVec w} {vs : List (IoVec w)} {d r : Result w}
    (hd : Delivers s [v] d) (hfull : d.ret = v.len) (hr : Delivers d.state vs r) :
    Delivers s (v :: vs) ⟨d.ret + r.ret, d.stores ++ r.stores, r.state⟩ := by
  have htotal : total (v :: vs) = v.len.toNat + total vs := rfl
  have hone : total [v] = v.len.toNat := Nat.add_zero _
  have hret := hd.ret
  have hrest := hd.rest_eq
  rw [hone] at hret hrest
  have hle : v.len.toNat ≤ (rest s).length := by
    rw [hfull] at hret
    omega
  have hlength : (rest d.state).length = (rest s).length - v.len.toNat := by
    rw [hrest, List.length_drop]
  have hr' := hr.ret
  rw [hlength] at hr'
  refine ⟨?_, ?_, ?_, hr.duckinfo.trans hd.duckinfo, hr.inited.trans hd.inited, hr.posOk⟩
  · have hlt := s.duckinfo.stdinSize.isLt
    have hsize := length_rest s
    show (d.ret + r.ret).toNat = _
    rw [BitVec.toNat_add, Nat.mod_eq_of_lt (by omega), htotal]
    omega
  · show d.stores ++ r.stores = _
    rw [hd.stores, hr.stores, scatter_single, hrest, scatter, if_pos hle]
    rfl
  · show rest r.state = _
    rw [hr.rest_eq, hrest, List.drop_drop, htotal]

/-- A vector that was not filled ends the call. -/
theorem Delivers.stop {s : State w} {v : IoVec w} {d : Result w} (hd : Delivers s [v] d)
    (hshort : d.ret ≠ v.len) (vs : List (IoVec w)) : Delivers s (v :: vs) d := by
  have htotal : total (v :: vs) = v.len.toNat + total vs := rfl
  have hone : total [v] = v.len.toNat := Nat.add_zero _
  have hret := hd.ret
  rw [hone] at hret
  have hlt : (rest s).length < v.len.toNat := by
    by_contra hle
    exact hshort (BitVec.eq_of_toNat_eq (hret.trans (Nat.min_eq_left (by omega))))
  refine ⟨?_, ?_, ?_, hd.duckinfo, hd.inited, hd.posOk⟩
  · rw [hret, htotal]
    omega
  · rw [hd.stores, scatter_single, scatter, if_neg (by omega)]
  · rw [hd.rest_eq, hone, htotal, List.drop_eq_nil_of_le (by omega),
      List.drop_eq_nil_of_le (by omega)]

/-- The loop of `duck_readv`, with what it has done before. -/
theorem readvLoop_delivers (vs : List (IoVec w)) {s : State w} (h : PosOk s) (ret : BitVec w)
    (stores : List (Store w)) : ∃ r, Delivers s vs r ∧
      readvLoop 0 vs ret stores s = ⟨ret + r.ret, stores ++ r.stores, r.state⟩ := by
  induction vs generalizing s ret stores with
  | nil =>
      refine ⟨⟨0, [], s⟩, ⟨(Nat.zero_min _).symm, rfl, rfl, rfl, rfl, h⟩, ?_⟩
      dsimp only
      rw [readvLoop, List.append_nil]
      congr 1
      exact (BitVec.add_zero ret).symm
  | cons v vs ih =>
      have hd := duckRead_delivers v.base v.len h
      have hle : (duckRead 0 v.base v.len s).ret ≤ v.len := by
        have hone : total [(⟨v.base, v.len⟩ : IoVec w)] = v.len.toNat := Nat.add_zero _
        rw [BitVec.le_def, hd.ret, hone]
        exact Nat.min_le_left _ _
      rw [readvLoop, if_pos hle]
      by_cases hfull : (duckRead 0 v.base v.len s).ret = v.len
      · rw [if_neg (not_not.mpr hfull)]
        obtain ⟨r, hr, heq⟩ := ih hd.posOk (ret + (duckRead 0 v.base v.len s).ret)
          (stores ++ (duckRead 0 v.base v.len s).stores)
        refine ⟨_, hd.append hfull hr, heq.trans ?_⟩
        rw [BitVec.add_assoc, List.append_assoc]
      · rw [if_pos hfull]
        exact ⟨_, hd.stop hfull vs, rfl⟩

theorem duckReadv_delivers (iov : Nat → IoVec w) (cnt : BitVec 32) {s : State w} (h : PosOk s) :
    Delivers s (vectors iov cnt) (duckReadv 0 iov cnt s) := by
  obtain ⟨r, hr, heq⟩ := readvLoop_delivers (vectors iov cnt) h 0 []
  have hret : 0 + r.ret = r.ret := BitVec.zero_add r.ret
  rw [duckReadv, heq, hret, List.nil_append]
  exact hr

/-! ### Calls that do not read the input -/

/-- The input and the position are the same. -/
structure KeepsInput (s s' : State w) : Prop where
  inited : s'.inited = s.inited
  stdin : s'.duckinfo.stdin = s.duckinfo.stdin
  stdinSize : s'.duckinfo.stdinSize = s.duckinfo.stdinSize
  pos : s'.stdinCurrPos = s.stdinCurrPos

theorem KeepsInput.refl (s : State w) : KeepsInput s s := ⟨rfl, rfl, rfl, rfl⟩

theorem KeepsInput.trans {s s' s'' : State w} (h : KeepsInput s s') (h' : KeepsInput s' s'') :
    KeepsInput s s'' :=
  ⟨h'.inited.trans h.inited, h'.stdin.trans h.stdin, h'.stdinSize.trans h.stdinSize,
    h'.pos.trans h.pos⟩

theorem KeepsInput.rest_eq {s s' : State w} (h : KeepsInput s s') : rest s' = rest s := by
  rw [rest, rest, h.stdin, h.stdinSize, h.pos]

theorem KeepsInput.posOk {s s' : State w} (h : KeepsInput s s') (hp : PosOk s) : PosOk s' := by
  unfold PosOk
  rw [h.pos, h.stdinSize]
  exact hp

variable {result : BitVec w → BitVec w → BitVec w}

theorem duckWrite_keepsInput (fd : BitVec 32) (buf : Nat → UInt8) (len : BitVec w) (s : State w) :
    KeepsInput s (duckWrite result fd buf len s).state := by
  unfold duckWrite
  split
  · exact ⟨rfl, rfl, rfl, rfl⟩
  · split
    · exact ⟨rfl, rfl, rfl, rfl⟩
    · exact .refl s

theorem writevLoop_keepsInput (fd : BitVec 32) (vs : List (OutVec w)) (ret : BitVec w)
    (stores : List (Store w)) (s : State w) :
    KeepsInput s (writevLoop result fd vs ret stores s).state := by
  induction vs generalizing ret stores s with
  | nil => exact .refl s
  | cons v vs ih =>
      rw [writevLoop]
      split
      · exact duckWrite_keepsInput fd v.base v.len s
      · exact (duckWrite_keepsInput fd v.base v.len s).trans (ih _ _ _)

theorem duckRead_of_ne {fd : BitVec 32} (h : fd ≠ 0) (buf len : BitVec w) (s : State w) :
    duckRead fd buf len s = ⟨0, [], s⟩ := if_neg h

theorem readvLoop_keepsInput {fd : BitVec 32} (h : fd ≠ 0) (vs : List (IoVec w)) (ret : BitVec w)
    (stores : List (Store w)) (s : State w) :
    KeepsInput s (readvLoop fd vs ret stores s).state := by
  induction vs generalizing ret stores with
  | nil => exact .refl s
  | cons v vs ih =>
      rw [readvLoop, duckRead_of_ne h]
      split
      · exact .refl s
      · exact ih _ _

/-! ### The handler -/

/-- The state in which a call is handled. -/
def started (s : State w) : State w := if s.inited then s else init s

theorem started_inited (s : State w) : (started s).inited = true := by
  unfold started
  split
  · assumption
  · rfl

/-- The position is inside the input as soon as there is one. -/
def InputOk (s : State w) : Prop := s.inited = true → PosOk s

theorem InputOk.started {s : State w} (h : InputOk s) : PosOk (started s) := by
  unfold DuckSyscalls.started
  split
  · rename_i hi
    exact h hi
  · exact Nat.zero_le _

/-- A read of standard input, and the vectors that it asks for. -/
def Syscall.ReadsStdin : Syscall w → Prop
  | .read a1 _ _ => int a1 = 0
  | .readv a1 _ _ => int a1 = 0
  | .write .. | .writev .. => False

instance (c : Syscall w) : Decidable c.ReadsStdin := by
  cases c <;> (unfold Syscall.ReadsStdin; infer_instance)

def Syscall.requested : Syscall w → List (IoVec w)
  | .read _ buf a3 => [⟨buf, a3⟩]
  | .readv _ iov a3 => vectors iov (int a3)
  | .write .. | .writev .. => []

/-- The vectors that get to `duck_read`. -/
def Syscall.passed : Syscall w → List (IoVec w)
  | .read _ buf a3 => [⟨buf, (int a3).signExtend w⟩]
  | c => c.requested

variable {c : Syscall w} {s : State w}

theorem syscallHandler_delivers (hc : c.ReadsStdin) (h : InputOk s) :
    Delivers (started s) c.passed (syscallHandler result c s) := by
  cases c with
  | read a1 buf a3 =>
      have ha1 : int a1 = 0 := hc
      show Delivers (started s) _ (duckRead (int a1) buf _ (started s))
      rw [ha1]
      exact duckRead_delivers _ _ h.started
  | readv a1 iov a3 =>
      have ha1 : int a1 = 0 := hc
      show Delivers (started s) _ (duckReadv (int a1) iov _ (started s))
      rw [ha1]
      exact duckReadv_delivers _ _ h.started
  | write a1 buf a3 => exact hc.elim
  | writev a1 iov a3 => exact hc.elim

theorem syscallHandler_keepsInput (hc : ¬c.ReadsStdin) (s : State w) :
    KeepsInput (started s) (syscallHandler result c s).state := by
  cases c with
  | read a1 buf a3 =>
      show KeepsInput _ (duckRead (int a1) buf _ (started s)).state
      rw [duckRead_of_ne hc]
      exact .refl _
  | readv a1 iov a3 => exact readvLoop_keepsInput hc _ _ _ _
  | write a1 buf a3 => exact duckWrite_keepsInput _ _ _ _
  | writev a1 iov a3 => exact writevLoop_keepsInput _ _ _ _ _

theorem syscallHandler_inputOk (c : Syscall w) (h : InputOk s) :
    InputOk (syscallHandler result c s).state := by
  intro _
  by_cases hc : c.ReadsStdin
  · exact (syscallHandler_delivers hc h).posOk
  · exact (syscallHandler_keepsInput hc s).posOk h.started

/-! ### Runs of the 64-bit handler -/

/-- The bytes that the reads of a run have stored, in order. -/
def delivered : List (Syscall 64) → State 64 → List UInt8
  | [], _ => []
  | c :: cs, s =>
    (if c.ReadsStdin then copied (duck64SyscallHandler c s).stores else []) ++
      delivered cs (duck64SyscallHandler c s).state

/-- What a read promises to a program that asks for some vectors. -/
structure Lawful (c : Syscall 64) (s : State 64) : Prop where
  delivers : Delivers (started s) c.requested (duck64SyscallHandler c s)
  zero : (duck64SyscallHandler c s).ret = 0 → total c.requested = 0 ∨ rest (started s) = []

/-- The conversion to `int` does not change a length, or it does not matter: there are no more bytes
than either length. -/
def LengthKept : Syscall 64 → State 64 → Prop
  | .read _ _ a3, s => (int a3).signExtend 64 = a3 ∨
      (rest (started s)).length ≤ min a3.toNat ((int a3).signExtend 64).toNat
  | .readv .., _ | .write .., _ | .writev .., _ => True

theorem started_of_inited {s : State w} (h : s.inited = true) : started s = s := if_pos h

theorem rest_started {s : State w} (h : s.inited = false) : rest (started s) = stdinBytes s := by
  rw [started, if_neg (by rw [h]; exact Bool.false_ne_true)]
  rfl

/-- A call takes what it copies from the front of what is left. -/
theorem handler_takes (c : Syscall 64) {s : State 64} (h : InputOk s) :
    rest (started s) = (if c.ReadsStdin then copied (duck64SyscallHandler c s).stores else []) ++
      rest (started (duck64SyscallHandler c s).state) := by
  by_cases hc : c.ReadsStdin
  · have hd : Delivers (started s) c.passed (duck64SyscallHandler c s) :=
      syscallHandler_delivers hc h
    rw [if_pos hc, started_of_inited (hd.inited.trans (started_inited s)), hd.rest_eq, hd.stores,
      copied_scatter, List.take_append_drop]
  · have hk : KeepsInput (started s) (duck64SyscallHandler c s).state :=
      syscallHandler_keepsInput hc s
    rw [if_neg hc, List.nil_append, started_of_inited (hk.inited.trans (started_inited s)),
      hk.rest_eq]

theorem run_takes (calls : List (Syscall 64)) {s : State 64} (h : InputOk s) :
    rest (started s) = delivered calls s ++ rest (started (run duck64SyscallHandler calls s)) := by
  induction calls generalizing s with
  | nil => rfl
  | cons c cs ih =>
      have hok : InputOk (duck64SyscallHandler c s).state := syscallHandler_inputOk c h
      rw [handler_takes c h, ih hok, delivered, run, List.append_assoc]

/-- The law of a call is that of the vectors that get to `duck_read`, when they hold as much. -/
theorem Delivers.lawful {c : Syscall 64} {s : State 64}
    (h : Delivers (started s) c.requested (duck64SyscallHandler c s)) : Lawful c s := by
  refine ⟨h, fun hzero => ?_⟩
  have hret := h.ret
  rw [hzero] at hret
  by_cases hrest : (rest (started s)).length = 0
  · exact .inr (List.eq_nil_of_length_eq_zero hrest)
  · have hz : (0 : BitVec 64).toNat = 0 := rfl
    exact .inl (by omega)

theorem lawful_iff {c : Syscall 64} {s : State 64} (h : InputOk s) (hc : c.ReadsStdin) :
    Lawful c s ↔ LengthKept c s := by
  have hd : Delivers (started s) c.passed (duck64SyscallHandler c s) :=
    syscallHandler_delivers hc h
  cases c with
  | read a1 buf a3 =>
      have hpassed := hd.ret
      change _ = min (((int a3).signExtend 64).toNat + 0) _ at hpassed
      constructor
      · intro hl
        have hret := hl.delivers.ret
        change _ = min (a3.toNat + 0) _ at hret
        by_cases heq : (int a3).signExtend 64 = a3
        · exact .inl heq
        · have hne : ((int a3).signExtend 64).toNat ≠ a3.toNat :=
            fun h => heq (BitVec.eq_of_toNat_eq h)
          exact .inr (by omega)
      · intro hk
        refine Delivers.lawful ?_
        rcases hk with heq | hle
        · rw [show (Syscall.read a1 buf a3).requested = (Syscall.read a1 buf a3).passed by
            show [_] = [_]
            rw [heq]]
          exact hd
        · have htotal : total (Syscall.read a1 buf a3).requested = a3.toNat + 0 := rfl
          have hpassed' : total (Syscall.read a1 buf a3).passed
            = ((int a3).signExtend 64).toNat + 0 := rfl
          refine ⟨?_, ?_, ?_, hd.duckinfo, hd.inited, hd.posOk⟩
          · rw [htotal]
            omega
          · refine hd.stores.trans ?_
            show scatter [_] _ = scatter [_] _
            rw [scatter_single, scatter_single, List.take_of_length_le (by dsimp only; omega),
              List.take_of_length_le (by dsimp only; omega)]
          · rw [hd.rest_eq, hpassed', htotal, List.drop_eq_nil_of_le (by omega),
              List.drop_eq_nil_of_le (by omega)]
  | readv a1 iov a3 => exact ⟨fun _ => trivial, fun _ => Delivers.lawful hd⟩
  | write a1 buf a3 => exact hc.elim
  | writev a1 iov a3 => exact hc.elim

theorem run_lawful_iff (calls : List (Syscall 64)) {s : State 64} (h : InputOk s) :
    AllCalls duck64SyscallHandler (fun c s => c.ReadsStdin → Lawful c s) calls s ↔
      AllCalls duck64SyscallHandler (fun c s => c.ReadsStdin → LengthKept c s) calls s := by
  induction calls generalizing s with
  | nil => exact Iff.rfl
  | cons c cs ih =>
      exact and_congr (forall_congr' fun hc => lawful_iff h hc) (ih (syscallHandler_inputOk c h))

/-- **The reads of a run take the input from its front, with no byte lost or repeated, and every
read is lawful exactly if no length changes to one that matters.** -/
theorem stdin_reads_lawful_iff (calls : List (Syscall 64)) {s : State 64}
    (h : s.inited = false) :
    stdinBytes s = delivered calls s ++ rest (started (run duck64SyscallHandler calls s)) ∧
      (AllCalls duck64SyscallHandler (fun c s => c.ReadsStdin → Lawful c s) calls s ↔
        AllCalls duck64SyscallHandler (fun c s => c.ReadsStdin → LengthKept c s) calls s) := by
  have hok : InputOk s := fun hi => by
    rw [h] at hi
    exact nomatch hi
  rw [← rest_started h]
  exact ⟨run_takes calls hok, run_lawful_iff calls hok⟩

/-- A program that has been given one byte of input. -/
def oneByte : State 64 :=
  { inited := false
    duckinfo :=
      { stdin := fun _ => 65, stdinSize := 1, stdoutPtr := 0, stdoutLimit := 0, stdoutSize := 0,
        stderrPtr := 0, stderrLimit := 0, stderrSize := 0 }
    stdoutMaxSize := 0
    stderrMaxSize := 0
    stdinCurrPos := 0 }

theorem stdin_reads_lawful_oneByte :
    AllCalls duck64SyscallHandler (fun c s => c.ReadsStdin → Lawful c s) [.read 0 0x1000 10]
      oneByte :=
  (stdin_reads_lawful_iff [.read 0 0x1000 10] rfl).2.mpr ⟨fun _ => .inl (by decide), trivial⟩

/-- A read of `2 ^ 32` bytes returns 0 before the end of the input. -/
theorem long_read_unlawful :
    (duck64SyscallHandler (.read 0 0x1000 0x100000000) oneByte).ret = 0 ∧
      rest (started oneByte) = [65] ∧
      ¬AllCalls duck64SyscallHandler (fun c s => c.ReadsStdin → Lawful c s)
        [.read 0 0x1000 0x100000000] oneByte := by
  refine ⟨by decide, by decide, fun h => ?_⟩
  rcases (h.1 rfl).zero (by decide) with h0 | h0
  · exact absurd h0 (by decide)
  · exact absurd h0 (by decide)

end JudgeDuck.DuckSyscalls
