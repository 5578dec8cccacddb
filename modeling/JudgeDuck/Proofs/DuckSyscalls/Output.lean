/-
Writing to standard output and to standard error.

Everything that a program writes to a descriptor is one list of bytes, of which the
region of the descriptor holds as many as it has room for.  A write that was cut off has
filled the region, so it does not matter that the 32-bit version stops there with the
vectors after it.
-/
import JudgeDuck.Proofs.DuckSyscalls.Input
import JudgeDuck.Proofs.Elf.Layout

namespace JudgeDuck.DuckSyscalls

variable {w : Nat}

/-! ### A region -/

/-- The region that the loader has prepared for a descriptor. -/
structure Region (w : Nat) where
  ptr : BitVec w
  limit : BitVec w
  fits : ptr.toNat + limit.toNat ≤ 2 ^ w

/-- A region with the number of bytes in it. -/
structure Stream (w : Nat) where
  ptr : BitVec w
  maxSize : BitVec w
  size : BitVec w

namespace Stream

def availableLen (st : Stream w) : BitVec w := st.maxSize - st.size

def actualLen (st : Stream w) (len : BitVec w) : BitVec w :=
  if len < st.availableLen then len else st.availableLen

/-- The copy of a write. -/
def store (st : Stream w) (buf : Nat → UInt8) (len : BitVec w) : Store w :=
  ⟨st.ptr + st.size, slice buf 0 (st.actualLen len).toNat⟩

def push (st : Stream w) (len : BitVec w) : Stream w :=
  { st with size := st.size + st.actualLen len }

end Stream

/-- `memcpy`. -/
def Store.perform (m : Mem) (st : Store w) : Mem := m.putBytes st.addr.toNat st.bytes

/-- The copy writes to the region only. -/
def Store.Inside (r : Region w) (st : Store w) : Prop :=
  ∀ x, Mem.Range st.addr.toNat st.bytes.length x → Mem.Range r.ptr.toNat r.limit.toNat x

namespace Region

variable (r : Region w) {out : List UInt8}

/-- What the region keeps of the bytes that are written. -/
def kept (out : List UInt8) : List UInt8 := out.take r.limit.toNat

/-- The region after some bytes have been written. -/
def after (out : List UInt8) : Stream w := ⟨r.ptr, r.limit, BitVec.ofNat w (r.kept out).length⟩

theorem length_kept (out : List UInt8) :
    (r.kept out).length = min r.limit.toNat out.length := List.length_take

theorem toNat_size (out : List UInt8) : (r.after out).size.toNat = (r.kept out).length := by
  have hlt := r.limit.isLt
  have hlen := r.length_kept out
  show (BitVec.ofNat w _).toNat = _
  rw [BitVec.toNat_ofNat, Nat.mod_eq_of_lt (by omega)]

theorem toNat_availableLen (out : List UInt8) :
    (r.after out).availableLen.toNat = r.limit.toNat - (r.kept out).length := by
  have hlen := r.length_kept out
  rw [Stream.availableLen, BitVec.toNat_sub_of_le, r.toNat_size]
  · rfl
  · rw [BitVec.le_def, r.toNat_size]
    show _ ≤ r.limit.toNat
    omega

theorem toNat_actualLen (out : List UInt8) (len : BitVec w) :
    ((r.after out).actualLen len).toNat = min len.toNat (r.limit.toNat - (r.kept out).length) := by
  rw [Stream.actualLen, min_toNat, toNat_availableLen]

/-- What is kept of more bytes. -/
theorem kept_append (out data : List UInt8) :
    r.kept (out ++ data) = r.kept out ++ data.take (r.limit.toNat - (r.kept out).length) := by
  have hlen := r.length_kept out
  rw [kept, List.take_append]
  congr 2
  omega

/-- The copy of a write has the bytes that are kept of it. -/
theorem store_bytes (out : List UInt8) (buf : Nat → UInt8) (len : BitVec w) :
    ((r.after out).store buf len).bytes
      = (slice buf 0 len.toNat).take (r.limit.toNat - (r.kept out).length) := by
  show slice buf 0 _ = _
  rw [toNat_actualLen]
  by_cases h : r.limit.toNat - (r.kept out).length ≤ len.toNat
  · rw [Nat.min_eq_right h, take_slice _ _ h]
  · rw [Nat.min_eq_left (by omega), List.take_of_length_le]
    rw [length_slice]
    omega

theorem after_push (out : List UInt8) (buf : Nat → UInt8) (len : BitVec w) :
    (r.after out).push len = r.after (out ++ slice buf 0 len.toNat) := by
  have hbytes := congrArg List.length (r.store_bytes out buf len)
  rw [show ((r.after out).store buf len).bytes
    = slice buf 0 ((r.after out).actualLen len).toNat from rfl, length_slice] at hbytes
  show (⟨_, _, BitVec.ofNat w _ + (r.after out).actualLen len⟩ : Stream w) = ⟨_, _, _⟩
  rw [r.kept_append, List.length_append, ← hbytes, BitVec.ofNat_add, BitVec.ofNat_toNat,
    BitVec.setWidth_eq]
  rfl

/-- An address in the region, or the end of it, when there is something to copy. -/
theorem toNat_store_addr (out : List UInt8) (buf : Nat → UInt8) (len : BitVec w)
    (h : ((r.after out).store buf len).bytes ≠ []) :
    ((r.after out).store buf len).addr.toNat = r.ptr.toNat + (r.kept out).length := by
  have hfits := r.fits
  have hlen := r.length_kept out
  have hpos := List.length_pos_iff.mpr h
  rw [store_bytes, List.length_take] at hpos
  show (r.ptr + (r.after out).size).toNat = _
  rw [BitVec.toNat_add, toNat_size, Nat.mod_eq_of_lt (by omega)]

theorem store_inside (out : List UInt8) (buf : Nat → UInt8) (len : BitVec w) :
    ((r.after out).store buf len).Inside r := by
  intro x hx
  have hne : ((r.after out).store buf len).bytes ≠ [] := by
    intro h
    rw [h] at hx
    exact absurd hx.2 (Nat.not_lt.mpr hx.1)
  have hlen := r.length_kept out
  have hbytes := congrArg List.length (r.store_bytes out buf len)
  rw [List.length_take] at hbytes
  obtain ⟨h1, h2⟩ := hx
  rw [r.toNat_store_addr out buf len hne] at h1 h2
  exact ⟨by omega, by omega⟩

/-- The copy puts the new bytes after those that the region holds. -/
theorem store_perform (m : Mem) (out : List UInt8) (buf : Nat → UInt8) (len : BitVec w) :
    ((r.after out).store buf len).perform (m.putBytes r.ptr.toNat (r.kept out))
      = m.putBytes r.ptr.toNat (r.kept (out ++ slice buf 0 len.toNat)) := by
  have hbytes := r.store_bytes out buf len
  unfold Store.perform
  by_cases h : ((r.after out).store buf len).bytes = []
  · rw [r.kept_append, ← hbytes, h, List.append_nil]
    exact Mem.put_zero _ _ _
  · rw [r.toNat_store_addr out buf len h, Mem.putBytes_append, hbytes, ← r.kept_append]

/-- A write that is cut off fills the region. -/
theorem full_of_actualLen_ne {buf : Nat → UInt8} {len : BitVec w}
    (h : (r.after out).actualLen len ≠ len) :
    r.limit.toNat ≤ (out ++ slice buf 0 len.toNat).length := by
  have hlen := r.length_kept out
  have hne : ((r.after out).actualLen len).toNat ≠ len.toNat :=
    fun heq => h (BitVec.eq_of_toNat_eq heq)
  rw [toNat_actualLen] at hne
  rw [List.length_append, length_slice]
  omega

theorem kept_of_full (h : r.limit.toNat ≤ out.length) (more : List UInt8) :
    r.kept (out ++ more) = r.kept out := List.take_append_of_le_length h

end Region

/-! ### Both regions -/

/-- The regions for output; they do not overlap. -/
structure Regions (w : Nat) where
  stdout : Region w
  stderr : Region w
  disjoint : stdout.ptr.toNat + stdout.limit.toNat ≤ stderr.ptr.toNat ∨
    stderr.ptr.toNat + stderr.limit.toNat ≤ stdout.ptr.toNat

/-- The bytes that are written to every descriptor. -/
abbrev Out := BitVec 32 → List UInt8

/-- The bytes of one write. -/
def Out.single (fd : BitVec 32) (data : List UInt8) : Out := fun d => if d = fd then data else []

def Out.append (o o' : Out) : Out := fun d => o d ++ o' d

theorem Out.append_assoc (o o' o'' : Out) : (o.append o').append o'' = o.append (o'.append o'') :=
  funext fun _ => List.append_assoc _ _ _

theorem Out.append_single_self (o : Out) (fd : BitVec 32) (data : List UInt8) :
    o.append (Out.single fd data) fd = o fd ++ data := by
  rw [Out.append, Out.single, if_pos rfl]

theorem Out.append_single_of_ne (o : Out) {fd d : BitVec 32} (h : d ≠ fd) (data : List UInt8) :
    o.append (Out.single fd data) d = o d := by
  rw [Out.append, Out.single, if_neg h, List.append_nil]

theorem Out.single_append (fd : BitVec 32) (xs ys : List UInt8) :
    Out.single fd (xs ++ ys) = (Out.single fd xs).append (Out.single fd ys) := by
  funext d
  by_cases h : d = fd
  · simp only [Out.single, Out.append, if_pos h]
  · simp only [Out.single, Out.append, if_neg h, List.append_nil]

def stdoutOf (s : State w) : Stream w :=
  ⟨s.duckinfo.stdoutPtr, s.stdoutMaxSize, s.duckinfo.stdoutSize⟩

def stderrOf (s : State w) : Stream w :=
  ⟨s.duckinfo.stderrPtr, s.stderrMaxSize, s.duckinfo.stderrSize⟩

namespace Regions

variable (R : Regions w)

/-- The memory with the output in it. -/
def mem (o : Out) (m : Mem) : Mem :=
  (m.putBytes R.stdout.ptr.toNat (R.stdout.kept (o 1))).putBytes R.stderr.ptr.toNat
    (R.stderr.kept (o 2))

/-- The state in which the bytes have been written. -/
structure At (o : Out) (s : State w) : Prop where
  stdout : stdoutOf s = R.stdout.after (o 1)
  stderr : stderrOf s = R.stderr.after (o 2)

/-- The result of writing more bytes. -/
structure Writes (o d : Out) (stores : List (Store w)) (s : State w) : Prop where
  state : R.At (o.append d) s
  mem : ∀ m, stores.foldl Store.perform (R.mem o m) = R.mem (o.append d) m
  inside : ∀ st ∈ stores, st.Inside R.stdout ∨ st.Inside R.stderr

variable {R} {o d : Out}

theorem Writes.append {d' : Out} {xs ys : List (Store w)} {s s' : State w}
    (h : R.Writes o d xs s) (h' : R.Writes (o.append d) d' ys s') :
    R.Writes o (d.append d') (xs ++ ys) s' := by
  refine ⟨?_, fun m => ?_, fun st hst => ?_⟩
  · rw [← Out.append_assoc]
    exact h'.state
  · rw [List.foldl_append, h.mem, h'.mem, Out.append_assoc]
  · rcases List.mem_append.mp hst with hst | hst
    · exact h.inside st hst
    · exact h'.inside st hst

/-- Bytes that the regions do not keep make no difference. -/
theorem Writes.full {d' : Out} {xs : List (Store w)} {s : State w} (h : R.Writes o d xs s)
    (h1 : R.stdout.kept ((o.append d).append d' 1) = R.stdout.kept (o.append d 1))
    (h2 : R.stderr.kept ((o.append d).append d' 2) = R.stderr.kept (o.append d 2)) :
    R.Writes o (d.append d') xs s := by
  refine ⟨⟨?_, ?_⟩, fun m => ?_, h.inside⟩
  · rw [← Out.append_assoc, Region.after, h1]
    exact h.state.stdout
  · rw [← Out.append_assoc, Region.after, h2]
    exact h.state.stderr
  · have hmem : R.mem ((o.append d).append d') m = R.mem (o.append d) m := by
      rw [Regions.mem, Regions.mem, h1, h2]
    rw [← Out.append_assoc, hmem]
    exact h.mem m

theorem writes_nil {s : State w} (h : R.At o s) {d : Out} (h1 : d 1 = []) (h2 : d 2 = []) :
    R.Writes o d [] s := by
  have e1 : o.append d 1 = o 1 := by
    rw [Out.append, h1, List.append_nil]
  have e2 : o.append d 2 = o 2 := by
    rw [Out.append, h2, List.append_nil]
  refine ⟨⟨?_, ?_⟩, fun m => ?_, fun st hst => nomatch hst⟩
  · rw [e1]
    exact h.stdout
  · rw [e2]
    exact h.stderr
  · rw [mem, mem, e1, e2]
    rfl

/-- The two regions can be filled in either order. -/
theorem mem_comm (o : Out) (m : Mem) : R.mem o m
    = (m.putBytes R.stderr.ptr.toNat (R.stderr.kept (o 2))).putBytes R.stdout.ptr.toNat
      (R.stdout.kept (o 1)) := by
  have h1 := R.stdout.length_kept (o 1)
  have h2 := R.stderr.length_kept (o 2)
  have hd := R.disjoint
  exact Mem.putBytes_comm m (by omega)

theorem mem_empty (m : Mem) : R.mem (fun _ => []) m = m := by
  rw [mem, Region.kept, Region.kept, List.take_nil, List.take_nil]
  exact (Mem.put_zero _ _ _).trans (Mem.put_zero _ _ _)

theorem bytes_stdout (o : Out) (m : Mem) :
    (R.mem o m).bytes R.stdout.ptr.toNat (R.stdout.kept (o 1)).length = R.stdout.kept (o 1) := by
  rw [mem_comm]
  exact Mem.bytes_putBytes _ _ _

theorem bytes_stderr (o : Out) (m : Mem) :
    (R.mem o m).bytes R.stderr.ptr.toNat (R.stderr.kept (o 2)).length = R.stderr.kept (o 2) :=
  Mem.bytes_putBytes _ _ _

theorem mem_out {o : Out} {m : Mem} {x : Nat}
    (h1 : ¬Mem.Range R.stdout.ptr.toNat (R.stdout.kept (o 1)).length x)
    (h2 : ¬Mem.Range R.stderr.ptr.toNat (R.stderr.kept (o 2)).length x) : R.mem o m x = m x := by
  unfold Mem.Range at h1 h2
  rw [mem, Mem.putBytes_out (by omega), Mem.putBytes_out (by omega)]

/-- The state in which a program is started; both regions are empty. -/
theorem At.init {s : State w} (hout : s.duckinfo.stdoutPtr = R.stdout.ptr)
    (houtLimit : s.duckinfo.stdoutLimit = R.stdout.limit)
    (herr : s.duckinfo.stderrPtr = R.stderr.ptr)
    (herrLimit : s.duckinfo.stderrLimit = R.stderr.limit) :
    R.At (fun _ => []) (init s) := by
  constructor
  · show (⟨s.duckinfo.stdoutPtr, s.duckinfo.stdoutLimit, 0⟩ : Stream w) = _
    rw [hout, houtLimit, Region.after, Region.kept, List.take_nil]
    rfl
  · show (⟨s.duckinfo.stderrPtr, s.duckinfo.stderrLimit, 0⟩ : Stream w) = _
    rw [herr, herrLimit, Region.after, Region.kept, List.take_nil]
    rfl

end Regions

/-! ### `duck_write` and `duck_writev` -/

section

variable {R : Regions w} {o : Out} {result : BitVec w → BitVec w → BitVec w} {s : State w}

theorem duckWrite_stdout_writes (buf : Nat → UInt8) (len : BitVec w) (h : R.At o s) :
    R.Writes o (Out.single 1 (slice buf 0 len.toNat)) (duckWrite result 1 buf len s).stores
      (duckWrite result 1 buf len s).state := by
  have hstores : (duckWrite result 1 buf len s).stores
      = [(R.stdout.after (o 1)).store buf len] := by
    rw [← h.stdout]
    rfl
  have hone := o.append_single_self 1 (slice buf 0 len.toNat)
  have htwo := o.append_single_of_ne (show 2 ≠ 1 by decide) (slice buf 0 len.toNat)
  refine ⟨⟨?_, ?_⟩, fun m => ?_, fun st hst => ?_⟩
  · show (stdoutOf s).push len = _
    rw [h.stdout, hone, Region.after_push]
  · rw [htwo]
    exact h.stderr
  · rw [hstores, Regions.mem_comm, Regions.mem_comm, hone, htwo]
    exact R.stdout.store_perform _ _ _ _
  · rw [hstores] at hst
    rw [List.mem_singleton.mp hst]
    exact .inl (R.stdout.store_inside _ _ _)

theorem duckWrite_stderr_writes (buf : Nat → UInt8) (len : BitVec w) (h : R.At o s) :
    R.Writes o (Out.single 2 (slice buf 0 len.toNat)) (duckWrite result 2 buf len s).stores
      (duckWrite result 2 buf len s).state := by
  have hstores : (duckWrite result 2 buf len s).stores
      = [(R.stderr.after (o 2)).store buf len] := by
    rw [← h.stderr]
    rfl
  have hone := o.append_single_of_ne (show 1 ≠ 2 by decide) (slice buf 0 len.toNat)
  have htwo := o.append_single_self 2 (slice buf 0 len.toNat)
  refine ⟨⟨?_, ?_⟩, fun m => ?_, fun st hst => ?_⟩
  · rw [hone]
    exact h.stdout
  · show (stderrOf s).push len = _
    rw [h.stderr, htwo, Region.after_push]
  · rw [hstores, Regions.mem, Regions.mem, hone, htwo]
    exact R.stderr.store_perform _ _ _ _
  · rw [hstores] at hst
    rw [List.mem_singleton.mp hst]
    exact .inr (R.stderr.store_inside _ _ _)

theorem duckWrite_of_ne {fd : BitVec 32} (h1 : fd ≠ 1) (h2 : fd ≠ 2) (buf : Nat → UInt8)
    (len : BitVec w) (s : State w) : duckWrite result fd buf len s = ⟨0, [], s⟩ := by
  rw [duckWrite, if_neg h1, if_neg h2]

theorem duckWrite_writes (fd : BitVec 32) (buf : Nat → UInt8) (len : BitVec w) (h : R.At o s) :
    R.Writes o (Out.single fd (slice buf 0 len.toNat)) (duckWrite result fd buf len s).stores
      (duckWrite result fd buf len s).state := by
  by_cases h1 : fd = 1
  · rw [h1]
    exact duckWrite_stdout_writes buf len h
  by_cases h2 : fd = 2
  · rw [h2]
    exact duckWrite_stderr_writes buf len h
  rw [duckWrite_of_ne h1 h2]
  exact Regions.writes_nil h (if_neg fun h => h1 h.symm) (if_neg fun h => h2 h.symm)

/-- A write that reports less than its length has filled its region, or has none. -/
theorem duckWrite_short (hresult : ∀ n : BitVec w, result n n = n) {fd : BitVec 32}
    {buf : Nat → UInt8} {len : BitVec w} (h : R.At o s)
    (hshort : (duckWrite result fd buf len s).ret ≠ len) (more : List UInt8) :
    R.Writes o ((Out.single fd (slice buf 0 len.toNat)).append (Out.single fd more))
      (duckWrite result fd buf len s).stores (duckWrite result fd buf len s).state := by
  refine (duckWrite_writes fd buf len h).full ?_ ?_
  · by_cases h1 : fd = 1
    · subst h1
      rw [Out.append_single_self, Out.append_single_self]
      refine R.stdout.kept_of_full (R.stdout.full_of_actualLen_ne fun hlen => hshort ?_) more
      rw [← h.stdout] at hlen
      show result len ((stdoutOf s).actualLen len) = len
      rw [hlen, hresult]
    · rw [Out.append_single_of_ne _ (Ne.symm h1)]
  · by_cases h2 : fd = 2
    · subst h2
      rw [Out.append_single_self, Out.append_single_self]
      refine R.stderr.kept_of_full (R.stderr.full_of_actualLen_ne fun hlen => hshort ?_) more
      rw [← h.stderr] at hlen
      show result len ((stderrOf s).actualLen len) = len
      rw [hlen, hresult]
    · rw [Out.append_single_of_ne _ (Ne.symm h2)]

/-- The loop of `duck_writev`, with what it has done before. -/
theorem writevLoop_writes (hresult : ∀ n : BitVec w, result n n = n) (fd : BitVec 32)
    (vs : List (OutVec w)) (ret : BitVec w) (stores : List (Store w)) (h : R.At o s) :
    ∃ r : Result w, R.Writes o (Out.single fd (vs.flatMap fun v => slice v.base 0 v.len.toNat))
        r.stores r.state ∧
      (writevLoop result fd vs ret stores s).stores = stores ++ r.stores ∧
      (writevLoop result fd vs ret stores s).state = r.state := by
  induction vs generalizing o s ret stores with
  | nil =>
      refine ⟨⟨0, [], s⟩, Regions.writes_nil h ?_ ?_, (List.append_nil _).symm, rfl⟩
      · exact ite_self _
      · exact ite_self _
  | cons v vs ih =>
      have hd : R.Writes o (Out.single fd (slice v.base 0 v.len.toNat))
          (duckWrite result fd v.base v.len s).stores
          (duckWrite result fd v.base v.len s).state := duckWrite_writes fd v.base v.len h
      rw [List.flatMap_cons, Out.single_append, writevLoop]
      by_cases hshort : (duckWrite result fd v.base v.len s).ret = v.len
      · rw [if_neg (not_not.mpr hshort)]
        obtain ⟨r, hr, hstores, hstate⟩ :=
          ih _ (stores ++ (duckWrite result fd v.base v.len s).stores)
          hd.state
        refine ⟨⟨0, _, r.state⟩, hd.append hr, ?_, hstate⟩
        rw [hstores, List.append_assoc]
      · rw [if_pos hshort]
        exact ⟨_, duckWrite_short hresult h hshort _, rfl, rfl⟩

/-! ### The handlers -/

/-- What a call asks to write. -/
def Syscall.output : Syscall w → Out
  | .write a1 buf a3 => Out.single (int a1) (slice buf 0 a3.toNat)
  | .writev a1 iov a3 =>
    Out.single (int a1) ((vectors iov (int a3)).flatMap fun v => slice v.base 0 v.len.toNat)
  | .read .. | .readv .. => fun _ => []

/-- The calls that write. -/
def Syscall.IsWrite : Syscall w → Prop
  | .write .. | .writev .. => True
  | .read .. | .readv .. => False

theorem Syscall.IsWrite.keepsInput {c : Syscall w} (hc : c.IsWrite) (s : State w) :
    KeepsInput (started s) (syscallHandler result c s).state := by
  refine syscallHandler_keepsInput (fun hr => ?_) s
  cases c with
  | read | readv => exact hc.elim
  | write | writev => exact hr.elim

theorem Syscall.IsWrite.inited {c : Syscall w} (hc : c.IsWrite) (s : State w) :
    (syscallHandler result c s).state.inited = true :=
  (hc.keepsInput s).inited.trans (started_inited s)

theorem syscallHandler_writes (hresult : ∀ n : BitVec w, result n n = n) {c : Syscall w}
    (hc : c.IsWrite) (h : R.At o (started s)) :
    R.Writes o c.output (syscallHandler result c s).stores
      (started (syscallHandler result c s).state) := by
  rw [started_of_inited (hc.inited s)]
  cases c with
  | read | readv => exact hc.elim
  | write a1 buf a3 => exact duckWrite_writes _ _ _ h
  | writev a1 iov a3 =>
      obtain ⟨r, hr, hstores, hstate⟩ :=
        writevLoop_writes hresult (int a1) (vectors iov (int a3)) 0 [] h
      show R.Writes _ _ (writevLoop result _ _ 0 [] (started s)).stores
        (writevLoop result _ _ 0 [] (started s)).state
      rw [hstores, hstate]
      exact hr

/-! ### Runs -/

/-- The bytes that some calls ask to write. -/
def written : List (Syscall w) → Out
  | [] => fun _ => []
  | c :: cs => c.output.append (written cs)

/-- The copies of a run. -/
def storesOf (handler : Syscall w → State w → Result w) : List (Syscall w) → State w →
    List (Store w)
  | [], _ => []
  | c :: cs, s => (handler c s).stores ++ storesOf handler cs (handler c s).state

theorem run_writes (hresult : ∀ n : BitVec w, result n n = n) (calls : List (Syscall w))
    (hc : ∀ c ∈ calls, c.IsWrite) (h : R.At o (started s)) :
    R.Writes o (written calls) (storesOf (syscallHandler result) calls s)
      (started (run (syscallHandler result) calls s)) := by
  induction calls generalizing o s with
  | nil => exact Regions.writes_nil h rfl rfl
  | cons c cs ih =>
      have hstep := syscallHandler_writes hresult (hc c List.mem_cons_self) h
      exact hstep.append (ih (fun c' hc' => hc c' (List.mem_cons_of_mem _ hc')) hstep.state)

/-- The state in which the loader starts a program: the regions are disjoint and the sizes are 0. -/
structure Fresh (s : State w) : Prop where
  inited : s.inited = false
  stdoutSize : s.duckinfo.stdoutSize = 0
  stderrSize : s.duckinfo.stderrSize = 0
  stdoutFits : s.duckinfo.stdoutPtr.toNat + s.duckinfo.stdoutLimit.toNat ≤ 2 ^ w
  stderrFits : s.duckinfo.stderrPtr.toNat + s.duckinfo.stderrLimit.toNat ≤ 2 ^ w
  disjoint : s.duckinfo.stdoutPtr.toNat + s.duckinfo.stdoutLimit.toNat
      ≤ s.duckinfo.stderrPtr.toNat ∨
    s.duckinfo.stderrPtr.toNat + s.duckinfo.stderrLimit.toNat ≤ s.duckinfo.stdoutPtr.toNat

def Fresh.regions (h : Fresh s) : Regions w where
  stdout := ⟨s.duckinfo.stdoutPtr, s.duckinfo.stdoutLimit, h.stdoutFits⟩
  stderr := ⟨s.duckinfo.stderrPtr, s.duckinfo.stderrLimit, h.stderrFits⟩
  disjoint := h.disjoint

/-- What a run of writes has done to the memory and to the sizes. -/
structure OutputOk (handler : Syscall w → State w → Result w) (calls : List (Syscall w))
    (s : State w) (m : Mem) : Prop where
  stdout : ((storesOf handler calls s).foldl Store.perform m).bytes s.duckinfo.stdoutPtr.toNat
    (min s.duckinfo.stdoutLimit.toNat (written calls 1).length)
      = (written calls 1).take s.duckinfo.stdoutLimit.toNat
  stderr : ((storesOf handler calls s).foldl Store.perform m).bytes s.duckinfo.stderrPtr.toNat
    (min s.duckinfo.stderrLimit.toNat (written calls 2).length)
      = (written calls 2).take s.duckinfo.stderrLimit.toNat
  stdoutSize : (run handler calls s).duckinfo.stdoutSize.toNat
    = min s.duckinfo.stdoutLimit.toNat (written calls 1).length
  stderrSize : (run handler calls s).duckinfo.stderrSize.toNat
    = min s.duckinfo.stderrLimit.toNat (written calls 2).length
  /-- No other byte has changed. -/
  frame : ∀ x,
    ¬Mem.Range s.duckinfo.stdoutPtr.toNat
      (min s.duckinfo.stdoutLimit.toNat (written calls 1).length) x →
    ¬Mem.Range s.duckinfo.stderrPtr.toNat
      (min s.duckinfo.stderrLimit.toNat (written calls 2).length) x →
    (storesOf handler calls s).foldl Store.perform m x = m x
  /-- No copy leaves the regions, not even for a while. -/
  inside : ∀ st ∈ storesOf handler calls s, ∀ x, Mem.Range st.addr.toNat st.bytes.length x →
    Mem.Range s.duckinfo.stdoutPtr.toNat s.duckinfo.stdoutLimit.toNat x ∨
      Mem.Range s.duckinfo.stderrPtr.toNat s.duckinfo.stderrLimit.toNat x

theorem run_inited (calls : List (Syscall w)) (h : s.inited = true) (hc : ∀ c ∈ calls, c.IsWrite) :
    (run (syscallHandler result) calls s).inited = true := by
  induction calls generalizing s with
  | nil => exact h
  | cons c cs ih =>
      exact ih ((hc c List.mem_cons_self).inited s) fun c' hc' => hc c' (List.mem_cons_of_mem _ hc')

/-- The sizes are 0 before the first call too. -/
theorem Fresh.run_duckinfo (h : Fresh s) (calls : List (Syscall w)) (hc : ∀ c ∈ calls, c.IsWrite) :
    (started (run (syscallHandler result) calls s)).duckinfo
      = (run (syscallHandler result) calls s).duckinfo := by
  cases calls with
  | nil =>
      show (started s).duckinfo = s.duckinfo
      rw [started, if_neg (by rw [h.inited]; exact Bool.false_ne_true)]
      exact (congrArg₂ (fun out err => { s.duckinfo with stdoutSize := out, stderrSize := err })
        h.stdoutSize h.stderrSize).symm
  | cons c cs =>
      have hi : (syscallHandler result c s).state.inited = true :=
        (hc c List.mem_cons_self).inited s
      rw [run, started_of_inited
        (run_inited cs hi fun c' hc' => hc c' (List.mem_cons_of_mem _ hc'))]

theorem Fresh.outputOk (h : Fresh s) (hresult : ∀ n : BitVec w, result n n = n)
    (calls : List (Syscall w)) (hc : ∀ c ∈ calls, c.IsWrite) (m : Mem) :
    OutputOk (syscallHandler result) calls s m := by
  have hat : h.regions.At (fun _ => []) (started s) := by
    rw [started, if_neg (by rw [h.inited]; exact Bool.false_ne_true)]
    exact .init rfl rfl rfl rfl
  have hrun := run_writes hresult calls hc hat
  have hmem := hrun.mem m
  rw [Regions.mem_empty] at hmem
  have hlen1 := h.regions.stdout.length_kept (written calls 1)
  have hlen2 := h.regions.stderr.length_kept (written calls 2)
  have hinfo : (started (run (syscallHandler result) calls s)).duckinfo = _ :=
    h.run_duckinfo calls hc
  constructor
  case stdout =>
    rw [hmem]
    exact hlen1 ▸ h.regions.bytes_stdout (written calls) m
  case stderr =>
    rw [hmem]
    exact hlen2 ▸ h.regions.bytes_stderr (written calls) m
  case stdoutSize =>
    rw [← hinfo]
    exact (congrArg (fun st => st.size.toNat) hrun.state.stdout).trans
      ((h.regions.stdout.toNat_size _).trans hlen1)
  case stderrSize =>
    rw [← hinfo]
    exact (congrArg (fun st => st.size.toNat) hrun.state.stderr).trans
      ((h.regions.stderr.toNat_size _).trans hlen2)
  case frame =>
    intro x hx1 hx2
    rw [hmem]
    exact Regions.mem_out (hlen1 ▸ hx1) (hlen2 ▸ hx2)
  case inside =>
    intro st hst x hx
    exact (hrun.inside st hst).imp (fun hin => hin x hx) fun hin => hin x hx

end

/-! ### The program as it is loaded -/

/-- `duckinfo` as a program finds it, with its input in the memory. -/
def loadedInfo (w : Nat) (d : Elf.DuckInfo) (m : Mem) : DuckInfo w where
  stdin i := m (d.stdinPtr.toNat + i)
  stdinSize := BitVec.ofNat w d.stdinSize.toNat
  stdoutPtr := BitVec.ofNat w d.stdoutPtr.toNat
  stdoutLimit := BitVec.ofNat w d.stdoutLimit.toNat
  stdoutSize := 0
  stderrPtr := BitVec.ofNat w d.stderrPtr.toNat
  stderrLimit := BitVec.ofNat w d.stderrLimit.toNat
  stderrSize := 0

def loadedState (w : Nat) (d : Elf.DuckInfo) (m : Mem) : State w where
  inited := false
  duckinfo := loadedInfo w d m
  stdoutMaxSize := 0
  stderrMaxSize := 0
  stdinCurrPos := 0

/-- The end of the address space is 0. -/
theorem toNat_ofNat_of_le {x : Nat} (h : x ≤ 2 ^ w) :
    (BitVec.ofNat w x).toNat = x ∨ x = 2 ^ w ∧ (BitVec.ofNat w x).toNat = 0 := by
  rw [BitVec.toNat_ofNat]
  rcases Nat.lt_or_ge x (2 ^ w) with hlt | hge
  · exact .inl (Nat.mod_eq_of_lt hlt)
  · have heq : x = 2 ^ w := by omega
    exact .inr ⟨heq, by rw [heq, Nat.mod_self]⟩

section

variable {F : Elf.Format} {buf : Mem} {len : UInt32} {config : Elf.AppConfig} {vaddrBreak : UInt64}

theorem fresh_loadedState {r : Elf.Regions} (h : Elf.RegionsOk F buf len config vaddrBreak r)
    (hend : r.obLoadBreak.toNat ≤ 2 ^ w) (tscFreq : UInt64) (m : Mem) :
    Fresh (loadedState w (Elf.duckInfo r config tscFreq) m) := by
  obtain ⟨-, b1, b2, b3, b4, b5⟩ := h.breaks_le
  have hroom := h.room
  have hout := h.stdout
  have herr := h.stderr
  have hout' := Utils.le_pageUp config.stdoutMaxSize.toNat
  have herr' := Utils.le_pageUp config.stderrMaxSize.toNat
  have p1 := toNat_ofNat_of_le (w := w) (x := r.stdinLoadBreak.toNat) (by omega)
  have p2 := toNat_ofNat_of_le (w := w) (x := r.stdoutLoadBreak.toNat) (by omega)
  have l1 := toNat_ofNat_of_le (w := w) (x := config.stdoutMaxSize.toNat) (by omega)
  have l2 := toNat_ofNat_of_le (w := w) (x := config.stderrMaxSize.toNat) (by omega)
  refine ⟨rfl, rfl, rfl, ?_, ?_, ?_⟩
  · show (BitVec.ofNat w r.stdinLoadBreak.toNat).toNat
      + (BitVec.ofNat w config.stdoutMaxSize.toNat).toNat ≤ 2 ^ w
    omega
  · show (BitVec.ofNat w r.stdoutLoadBreak.toNat).toNat
      + (BitVec.ofNat w config.stderrMaxSize.toNat).toNat ≤ 2 ^ w
    omega
  · show (BitVec.ofNat w r.stdinLoadBreak.toNat).toNat
        + (BitVec.ofNat w config.stdoutMaxSize.toNat).toNat
          ≤ (BitVec.ofNat w r.stdoutLoadBreak.toNat).toNat ∨
      (BitVec.ofNat w r.stdoutLoadBreak.toNat).toNat
        + (BitVec.ofNat w config.stderrMaxSize.toNat).toNat
          ≤ (BitVec.ofNat w r.stdinLoadBreak.toNat).toNat
    omega

/-- The loader starts every program that it accepts in such a state. -/
theorem fresh_of_layout64 {l : Elf.Layout} (h : Elf.layout64 buf len config vaddrBreak = some l)
    (tscFreq : UInt64) (m : Mem) :
    Fresh (loadedState 64 (Elf.duckInfo l.toRegions config tscFreq) m) :=
  fresh_loadedState (Elf.layout64_spec h).1.toRegionsOk
    (Nat.le_of_lt l.obLoadBreak.toNat_lt) tscFreq m

theorem fresh_of_layout32 {l : Elf.Layout} (h : Elf.layout32 buf len config vaddrBreak = some l)
    (tscFreq : UInt64) (m : Mem) :
    Fresh (loadedState 32 (Elf.duckInfo l.toRegions config tscFreq) m) := by
  obtain ⟨hok, hend, hle⟩ := Elf.layout32_spec h
  rw [hend] at hle
  exact fresh_loadedState hok.toRegionsOk hle tscFreq m

end

/-! ### What the 64-bit handler returns -/

/-- The descriptor of a call. -/
def Syscall.fd : Syscall w → BitVec 32
  | .read a1 _ _ | .readv a1 _ _ | .write a1 _ _ | .writev a1 _ _ => int a1

theorem duckWrite_ret {fd : BitVec 32} (hfd : fd = 1 ∨ fd = 2) (buf : Nat → UInt8)
    (len : BitVec w) (s : State w) : (duckWrite (fun len _ => len) fd buf len s).ret = len := by
  rcases hfd with rfl | rfl <;> rfl

theorem writevLoop_ret {fd : BitVec 32} (hfd : fd = 1 ∨ fd = 2) (vs : List (OutVec w))
    (ret : BitVec w) (stores : List (Store w)) (s : State w) :
    (writevLoop (fun len _ => len) fd vs ret stores s).ret
      = ret + BitVec.ofNat w (vs.flatMap fun v => slice v.base 0 v.len.toNat).length := by
  induction vs generalizing ret stores s with
  | nil => exact (BitVec.add_zero ret).symm
  | cons v vs ih =>
      rw [writevLoop, duckWrite_ret hfd, if_pos (BitVec.le_refl _), if_neg (not_not.mpr rfl), ih,
        List.flatMap_cons, List.length_append, length_slice, BitVec.ofNat_add, BitVec.ofNat_toNat,
        BitVec.setWidth_eq, BitVec.add_assoc]

/-- The full length, also of what has been cut off. -/
theorem duck64_ret {c : Syscall 64} (hc : c.IsWrite) (hfd : c.fd = 1 ∨ c.fd = 2) (s : State 64) :
    (duck64SyscallHandler c s).ret = BitVec.ofNat 64 (c.output c.fd).length := by
  cases c with
  | read | readv => exact hc.elim
  | write a1 buf a3 =>
      have hout : (Syscall.write a1 buf a3).output (int a1) = slice buf 0 a3.toNat := if_pos rfl
      have hret : (duckWrite (fun len _ => len) (int a1) buf a3 (started s)).ret = a3 :=
        duckWrite_ret hfd buf a3 _
      refine hret.trans ?_
      show _ = BitVec.ofNat 64 ((Syscall.write a1 buf a3).output (int a1)).length
      rw [hout, length_slice, BitVec.ofNat_toNat, BitVec.setWidth_eq]
  | writev a1 iov a3 =>
      have hout : (Syscall.writev a1 iov a3).output (int a1)
        = (vectors iov (int a3)).flatMap fun v => slice v.base 0 v.len.toNat := if_pos rfl
      refine (writevLoop_ret hfd (vectors iov (int a3)) 0 [] (started s)).trans ?_
      show _ = BitVec.ofNat 64 ((Syscall.writev a1 iov a3).output (int a1)).length
      rw [hout]
      exact BitVec.zero_add _

/-- **Both handlers keep the first bytes of everything that is written to a descriptor, as many as
its region has room for, and no others; the 64-bit one reports full lengths.** -/
theorem output_kept :
    (∀ (calls : List (Syscall 64)) (s : State 64) (m : Mem), Fresh s → (∀ c ∈ calls, c.IsWrite) →
      OutputOk duck64SyscallHandler calls s m) ∧
    (∀ (calls : List (Syscall 32)) (s : State 32) (m : Mem), Fresh s → (∀ c ∈ calls, c.IsWrite) →
      OutputOk duck32SyscallHandler calls s m) ∧
    ∀ (c : Syscall 64) (s : State 64), c.IsWrite → c.fd = 1 ∨ c.fd = 2 →
      (duck64SyscallHandler c s).ret = BitVec.ofNat 64 (c.output c.fd).length :=
  ⟨fun calls _ m h hc => h.outputOk (fun _ => rfl) calls hc m,
    fun calls _ m h hc => h.outputOk (fun _ => rfl) calls hc m,
    fun _ s hc hfd => duck64_ret hc hfd s⟩

/-- A program with room for three bytes of output and one of errors. -/
def threeBytes (w : Nat) : State w where
  inited := false
  duckinfo :=
    { stdin := fun _ => 0, stdinSize := 0, stdoutPtr := 0x1000, stdoutLimit := 3, stdoutSize := 0,
      stderrPtr := 0x2000, stderrLimit := 1, stderrSize := 0 }
  stdoutMaxSize := 0
  stderrMaxSize := 0
  stdinCurrPos := 0

/-- Two vectors of which the second is cut off, in both versions. -/
theorem output_kept_threeBytes :
    OutputOk duck64SyscallHandler
        [.writev 1 (fun _ => ⟨fun _ => 65, 2⟩) 2, .write 2 (fun _ => 66) 1] (threeBytes 64)
        (fun _ => 0) ∧
      OutputOk duck32SyscallHandler
        [.writev 1 (fun _ => ⟨fun _ => 65, 2⟩) 3, .write 2 (fun _ => 66) 1] (threeBytes 32)
        (fun _ => 0) ∧
      (duck64SyscallHandler (.writev 1 (fun _ => ⟨fun _ => 65, 2⟩) 2) (threeBytes 64)).ret = 4 :=
  ⟨output_kept.1 _ _ _ ⟨rfl, rfl, rfl, by decide, by decide, by decide⟩ (by
      intro c hc
      rcases List.mem_cons.mp hc with rfl | hc
      · trivial
      · rw [List.mem_singleton.mp hc]
        trivial),
    output_kept.2.1 _ _ _ ⟨rfl, rfl, rfl, by decide, by decide, by decide⟩ (by
      intro c hc
      rcases List.mem_cons.mp hc with rfl | hc
      · trivial
      · rw [List.mem_singleton.mp hc]
        trivial),
    output_kept.2.2 _ _ trivial (.inl rfl)⟩

end JudgeDuck.DuckSyscalls
