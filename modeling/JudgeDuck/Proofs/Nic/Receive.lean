/-
The receive rings of `e1000` and `i211`.

Two counters describe a run: how many frames the NIC has stored and how many of them
`receive` has returned.  Consumed descriptors go back to the NIC in batches: RDT is
written when the index is a multiple of the period, so it lags behind by less than a
period, and the NIC keeps at least `256 - period` descriptors when everything is
consumed.  `i211::receive` stays at a descriptor whose length it refuses.
-/
import JudgeDuck.Base.Ring
import JudgeDuck.Proofs.Nic.Transmit
import JudgeDuck.Model.DuckServer

namespace JudgeDuck.Nic

open Ring

variable {S D : Type}

/-- What the invariant says about single descriptors: one that the NIC can fill, and one that
holds a frame of a length. -/
structure RxSlots (D : Type) where
  buffer : Nat → UInt64
  armed : Nat → D → Prop
  done : Nat → D → Nat → Prop

/-- How many descriptors had been consumed when RDT was last written. -/
def returnedAt (period taken : Nat) : Nat :=
  if taken = 0 then 0 else (taken - 1) / period * period + 1

theorem returnedAt_le (period taken : Nat) : returnedAt period taken ≤ taken := by
  unfold returnedAt
  split
  · omega
  · have := Nat.div_mul_le_self (taken - 1) period
    omega

theorem lt_returnedAt {period : Nat} (h : 0 < period) (taken : Nat) :
    taken ≤ returnedAt period taken + (period - 1) := by
  unfold returnedAt
  split
  · omega
  · have h1 := Nat.div_add_mod (taken - 1) period
    have h2 := Nat.mod_lt (taken - 1) h
    rw [Nat.mul_comm] at h1
    omega

/-- RDT is written after the descriptors whose index is a multiple of the period. -/
theorem returnedAt_succ {period : Nat} (h : 0 < period) (taken : Nat) :
    returnedAt period (taken + 1)
      = if taken % period = 0 then taken + 1 else returnedAt period taken := by
  unfold returnedAt
  rw [if_neg (Nat.succ_ne_zero taken), Nat.add_sub_cancel]
  have h1 := Nat.div_add_mod taken period
  rw [Nat.mul_comm] at h1
  split
  · omega
  · rename_i hmod
    have h0 : taken ≠ 0 := by
      intro hc
      rw [hc, Nat.zero_mod] at hmod
      exact hmod rfl
    have hdiv : (taken - 1) / period = taken / period := by
      have h2 := Nat.mod_lt taken h
      have h3 : taken - 1 = taken / period * period + (taken % period - 1) := by omega
      rw [h3, Nat.add_comm, Nat.add_mul_div_right _ _ h,
        Nat.div_eq_of_lt (by omega), Nat.zero_add]
    rw [if_neg h0, hdiv]

/-- The state of a ring in which `stored` frames have arrived and the first `taken` of them have
been returned. -/
structure RxInv (slots : RxSlots D) (period : Nat) (s : RxRing D) (stored : List (List UInt8))
    (taken : Nat) : Prop where
  rdt : At ringSize s.rdt (taken + 255)
  regRDT : At ringSize s.regRDT (returnedAt period taken + 255)
  regRDH : At ringSize s.regRDH stored.length
  taken_le : taken ≤ stored.length
  room : stored.length ≤ returnedAt period taken + 255
  lengths : ∀ f ∈ stored, 1 ≤ f.length ∧ f.length ≤ 1500
  full : ∀ i (h : i < stored.length), taken ≤ i →
    slots.done (i % 256) (s.rq (i % 256)) stored[i].length ∧
    s.mem.bytes (slots.buffer (i % 256)).toNat stored[i].length = stored[i]
  free : ∀ i, stored.length ≤ i → i < taken + 256 → slots.armed (i % 256) (s.rq (i % 256))

namespace RxInv

variable {slots : RxSlots D} {period : Nat} {s : RxRing D} {stored : List (List UInt8)}
  {taken : Nat}

/-- The NIC owns a descriptor as long as it has not caught up with RDT. -/
theorem canFill_iff (h : RxInv slots period s stored taken) :
    s.canFill = true ↔ stored.length < returnedAt period taken + 255 := by
  have h1 := h.room
  have h2 := returnedAt_le period taken
  have h3 := h.taken_le
  unfold RxRing.canFill
  rw [decide_eq_true_iff, Ne, h.regRDH.eq_iff h.regRDT h1 (by rw [toNat_ringSize]; omega)]
  omega

/-- With everything consumed, the NIC still owns descriptors. -/
theorem canFill_of_consumed (h : RxInv slots period s stored taken) (hp : 0 < period)
    (hp' : period < 256) (he : taken = stored.length) : s.canFill = true := by
  rw [h.canFill_iff]
  have := lt_returnedAt hp taken
  omega

/-- The descriptor that the NIC fills next is not one that the driver has not consumed. -/
theorem head_ne (h : RxInv slots period s stored taken) (hc : s.canFill = true) {i : Nat}
    (h1 : taken ≤ i) (h2 : i < stored.length) : i % 256 ≠ s.regRDH.toNat := by
  rw [h.canFill_iff] at hc
  have h3 := returnedAt_le period taken
  have hhead : s.regRDH.toNat = stored.length % 256 := h.regRDH
  intro he
  have := eq_of_mod_eq (Nat.le_of_lt h2) (by omega) (he.trans hhead)
  omega

/-- A frame arrives. -/
theorem fill (h : RxInv slots period s stored taken) {nic : RxNic D}
    (hnic : ∀ i rd n extra, i < 256 → slots.armed i rd → 1 ≤ n → n ≤ 1500 →
      nic.address rd = slots.buffer i ∧ slots.done i (nic.writeBack rd (UInt16.ofNat n) extra) n)
    (hapart : ∀ i j, i < 256 → j < 256 → i ≠ j →
      (slots.buffer i).toNat + bufferSize ≤ (slots.buffer j).toNat ∨
      (slots.buffer j).toNat + bufferSize ≤ (slots.buffer i).toNat)
    (hc : s.canFill = true) {frame : List UInt8} (extra : UInt64 × UInt64)
    (hf : 1 ≤ frame.length ∧ frame.length ≤ 1500) :
    RxInv slots period (s.fill nic frame extra) (stored ++ [frame]) taken := by
  have hroom := h.canFill_iff.mp hc
  have hle := returnedAt_le period taken
  have htaken := h.taken_le
  have hhead : s.regRDH.toNat = stored.length % 256 := h.regRDH
  have hlt : s.regRDH.toNat < 256 := h.regRDH.lt (by decide)
  have harmed : slots.armed s.regRDH.toNat (s.rq s.regRDH.toNat) := by
    rw [hhead]
    exact h.free _ (Nat.le_refl _) (by omega)
  obtain ⟨haddr, hdone⟩ := hnic _ _ _ extra hlt harmed hf.1 hf.2
  refine
    { rdt := h.rdt
      regRDT := h.regRDT
      regRDH := by
        rw [List.length_append]
        exact h.regRDH.next (by decide)
      taken_le := by rw [List.length_append]; omega
      room := by rw [List.length_append, List.length_singleton]; omega
      lengths := fun f hmem => ?_
      full := fun i hi ht => ?_
      free := fun i hi ht => ?_ }
  · rcases List.mem_append.mp hmem with hmem | hmem
    · exact h.lengths f hmem
    · rw [List.mem_singleton.mp hmem]
      exact hf
  · by_cases hi' : i < stored.length
    · obtain ⟨hd, hb⟩ := h.full i hi' ht
      have hne := h.head_ne hc ht hi'
      rw [List.getElem_append_left hi']
      refine ⟨?_, ?_⟩
      · show slots.done _ (Function.update s.rq _ _ (i % 256)) _
        rw [Function.update_of_ne hne]
        exact hd
      · refine (Mem.bytes_congr fun x hx1 hx2 => ?_).trans hb
        have hlen := (h.lengths _ (List.getElem_mem hi')).2
        have := hapart _ _ (Nat.mod_lt i (by decide)) hlt hne
        show s.mem.putBytes (nic.address _).toNat frame x = _
        rw [haddr]
        exact Mem.putBytes_out (by unfold bufferSize at this; omega)
    · have hi'' : i = stored.length := by
        rw [List.length_append, List.length_singleton] at hi
        omega
      subst hi''
      rw [List.getElem_append_right (Nat.le_refl _)]
      simp only [Nat.sub_self, List.getElem_cons_zero]
      rw [← hhead]
      refine ⟨?_, ?_⟩
      · show slots.done _ (Function.update s.rq _ _ s.regRDH.toNat) _
        rw [Function.update_self]
        exact hdone
      · refine List.ext_getElem (by simp) fun j hj1 hj2 => ?_
        rw [Mem.getElem_bytes]
        show s.mem.putBytes (nic.address _).toNat frame _ = _
        rw [haddr, Mem.putBytes_add hj2]
  · rw [List.length_append, List.length_singleton] at hi
    have hne : i % 256 ≠ s.regRDH.toNat := by
      intro he
      have := eq_of_mod_eq (n := 256) (i := stored.length) (j := i) (by omega) (by omega)
        (hhead.symm.trans he.symm)
      omega
    show slots.armed _ (Function.update s.rq _ _ (i % 256))
    rw [Function.update_of_ne hne]
    exact h.free i (by omega) ht

/-- The driver takes the next frame and gives its descriptor back. -/
theorem take (h : RxInv slots period s stored taken) (hlt : taken < stored.length) {p : UInt32}
    (hp : p.toNat = period) (hpos : 0 < period) (hdvd : period ∣ 256) {s' : RxRing D} {rd : D}
    (hrd : slots.armed (taken % 256) rd)
    (hrq : s'.rq = Function.update s.rq (taken % 256) rd) (hmem : s'.mem = s.mem)
    (hrdh : s'.regRDH = s.regRDH) (hrdt : s'.rdt = (s.rdt + 1) % ringSize)
    (hreg : s'.regRDT = if (s.rdt + 1) % ringSize % p = 0 then (s.rdt + 1) % ringSize
      else s.regRDT) : RxInv slots period s' stored (taken + 1) := by
  have hnext : At ringSize ((s.rdt + 1) % ringSize) (taken + 1 + 255) := by
    have := h.rdt.next (by decide)
    rwa [Nat.add_right_comm] at this
  have hroom := h.room
  have hmono : returnedAt period taken ≤ returnedAt period (taken + 1) := by
    rw [returnedAt_succ hpos]
    have := returnedAt_le period taken
    split <;> omega
  have hzero : (s.rdt + 1) % ringSize % p = 0 ↔ taken % period = 0 := by
    obtain ⟨k, hk⟩ := hdvd
    have hsum : taken + 1 + 255 = taken + period * k := by omega
    rw [hnext.mod_eq_zero_iff (by rw [hp, toNat_ringSize]; exact ⟨k, hk⟩), hp, hsum,
      Nat.add_mul_mod_self_left]
  refine
    { rdt := by rw [hrdt]; exact hnext
      regRDT := ?_
      regRDH := by rw [hrdh]; exact h.regRDH
      taken_le := hlt
      room := by omega
      lengths := h.lengths
      full := fun i hi ht => ?_
      free := fun i hi ht => ?_ }
  · rw [hreg, returnedAt_succ hpos]
    by_cases hz : taken % period = 0
    · rw [if_pos (hzero.mpr hz), if_pos hz]
      exact hnext
    · rw [if_neg (fun hc => hz (hzero.mp hc)), if_neg hz]
      exact h.regRDT
  · have hle := returnedAt_le period taken
    have hne : i % 256 ≠ taken % 256 := by
      intro he
      have := eq_of_mod_eq (n := 256) (i := taken) (j := i) (by omega) (by omega) he.symm
      omega
    rw [hrq, hmem, Function.update_of_ne hne]
    exact h.full i hi (by omega)
  · rw [hrq]
    by_cases he : i % 256 = taken % 256
    · rw [he, Function.update_self]
      exact hrd
    · rw [Function.update_of_ne he]
      refine h.free i hi ?_
      by_contra hc
      have hi' : i = taken + 256 := by omega
      exact he (by rw [hi', Nat.add_mod_right])

end RxInv

/-! ### Runs -/

/-- A run of a driver and its NIC: the frames that the NIC has stored and those that `receive` has
returned. -/
inductive RxRun (r : RxDriver S D) : S → List (List UInt8) → List (List UInt8) → Prop
  | start (mem : Mem) : RxRun r (r.start mem) [] []
  | fill {s stored returned} (frame : List UInt8) (extra : UInt64 × UInt64)
      (h : RxRun r s stored returned) (hc : (r.ring s).canFill = true)
      (hf : 1 ≤ frame.length ∧ frame.length ≤ 1500) :
      RxRun r (r.fill frame extra s) (stored ++ [frame]) returned
  | receive {s stored returned} (h : RxRun r s stored returned) :
      RxRun r (r.receive s).2 stored (returned ++ (r.receive s).1.toList)

/-- What a driver has to do for its invariant, with what it keeps beside the ring. -/
structure RxDriver.Ok (r : RxDriver S D) (slots : RxSlots D) (period : Nat)
    (beside : S → Nat → Prop) :
    Prop where
  start : ∀ mem, RxInv slots period (r.ring (r.start mem)) [] 0 ∧ beside (r.start mem) 0
  fill : ∀ frame extra s stored taken, RxInv slots period (r.ring s) stored taken →
    beside s taken → (r.ring s).canFill = true → 1 ≤ frame.length ∧ frame.length ≤ 1500 →
    RxInv slots period (r.ring (r.fill frame extra s)) (stored ++ [frame]) taken ∧
    beside (r.fill frame extra s) taken
  receive : ∀ s stored taken, RxInv slots period (r.ring s) stored taken → beside s taken →
    ∀ hlt : taken < stored.length, (r.receive s).1 = some stored[taken] ∧
      RxInv slots period (r.ring (r.receive s).2) stored (taken + 1) ∧
      beside (r.receive s).2 (taken + 1)
  idle : ∀ s stored taken, RxInv slots period (r.ring s) stored taken → beside s taken →
    taken = stored.length → r.receive s = (none, s)

/-- A receive ring that loses, repeats, reorders and corrupts nothing, and never gets stuck. -/
structure RxSafe (r : RxDriver S D) (s : S) (stored returned : List (List UInt8)) : Prop where
  /-- Frames are returned in the order of arrival, each at most once and unchanged. -/
  prefix_stored : returned <+: stored
  /-- As long as a stored frame is left, the next call returns the oldest one. -/
  next : ∀ h : returned.length < stored.length, (r.receive s).1 = some stored[returned.length]
  /-- With nothing left, a call does nothing and the NIC owns free descriptors. -/
  idle : returned.length = stored.length → r.receive s = (none, s) ∧ (r.ring s).canFill = true
  /-- The NIC never fills a descriptor that has not been consumed. -/
  separate : (r.ring s).canFill = true → ∀ i, returned.length ≤ i → i < stored.length →
    i % 256 ≠ (r.ring s).regRDH.toNat

theorem RxRun.inv {r : RxDriver S D} {slots : RxSlots D} {period : Nat} {beside : S → Nat → Prop}
    (hr : r.Ok slots period beside) {s : S} {stored returned : List (List UInt8)}
    (h : RxRun r s stored returned) :
    RxInv slots period (r.ring s) stored returned.length ∧ beside s returned.length ∧
      returned = stored.take returned.length := by
  induction h with
  | start mem => exact ⟨(hr.start mem).1, (hr.start mem).2, rfl⟩
  | @fill s stored returned frame extra _ hc hf ih =>
      obtain ⟨hinv, hb, hpre⟩ := ih
      obtain ⟨hinv', hb'⟩ := hr.fill frame extra s _ _ hinv hb hc hf
      refine ⟨hinv', hb', ?_⟩
      rw [List.take_append_of_le_length hinv.taken_le]
      exact hpre
  | @receive s stored returned _ ih =>
      obtain ⟨hinv, hb, hpre⟩ := ih
      rcases Nat.lt_or_eq_of_le hinv.taken_le with hlt | heq
      · obtain ⟨hsome, hinv', hb'⟩ := hr.receive s _ _ hinv hb hlt
        rw [hsome, Option.toList_some, List.length_append, List.length_singleton]
        refine ⟨hinv', hb', ?_⟩
        rw [List.take_succ_eq_append_getElem hlt, ← hpre]
      · have hidle := hr.idle s _ _ hinv hb heq
        rw [hidle, Option.toList_none, List.append_nil]
        exact ⟨hinv, hb, hpre⟩

theorem RxRun.safe {r : RxDriver S D} {slots : RxSlots D} {period : Nat} {beside : S → Nat → Prop}
    (hr : r.Ok slots period beside) (hpos : 0 < period) (hp : period < 256) {s : S}
    {stored returned : List (List UInt8)} (h : RxRun r s stored returned) :
    RxSafe r s stored returned := by
  obtain ⟨hinv, hb, hpre⟩ := h.inv hr
  refine ⟨?_, fun hlt => (hr.receive s _ _ hinv hb hlt).1, fun he => ⟨hr.idle s _ _ hinv hb he, ?_⟩,
    fun hc i h1 h2 => hinv.head_ne hc h1 h2⟩
  · rw [hpre]
    exact List.take_prefix _ _
  · exact hinv.canFill_of_consumed hpos hp he

/-! ### `e1000` -/

def e1000Slots (rqBuf : UInt64) : RxSlots E1000.RecvDesc where
  buffer := bufferAddr rqBuf
  armed i rd := rd.addr = bufferAddr rqBuf i ∧ rd.status &&& 1 = 0
  done i rd n := rd.addr = bufferAddr rqBuf i ∧ rd.status &&& 1 ≠ 0 ∧ rd.length.toNat = n

/-- The index that `receive` looks at. -/
private theorem e1000_index {rqBuf : UInt64} {s : RxRing E1000.RecvDesc}
    {stored : List (List UInt8)} {taken : Nat} (h : RxInv (e1000Slots rqBuf) 128 s stored taken) :
    ((s.rdt + 1) % ringSize).toNat = taken % 256 := by
  have hnext : ((s.rdt + 1) % ringSize).toNat = (taken + 255 + 1) % 256 := h.rdt.next (by decide)
  omega

theorem e1000_receive_some {rqBuf : UInt64} {s : RxRing E1000.RecvDesc}
    {stored : List (List UInt8)} {taken : Nat} (h : RxInv (e1000Slots rqBuf) 128 s stored taken)
    (hlt : taken < stored.length) :
    (E1000.receive rqBuf s).1 = some stored[taken] ∧
    RxInv (e1000Slots rqBuf) 128 (E1000.receive rqBuf s).2 stored (taken + 1) := by
  have hidx := e1000_index h
  obtain ⟨⟨haddr, hstatus, hlen⟩, hbytes⟩ := h.full taken hlt (Nat.le_refl _)
  have hbound := (h.lengths _ (List.getElem_mem hlt)).2
  have hlen' : ¬(s.rq (taken % 256)).length.toNat > 2048 := by
    rw [hlen]
    omega
  unfold E1000.receive
  dsimp only
  rw [hidx, if_neg hstatus, if_neg hlen', hlen]
  refine ⟨congrArg some hbytes, ?_⟩
  refine h.take hlt (p := 128) rfl (by decide) (by decide)
    (show (e1000Slots rqBuf).armed (taken % 256)
      { s.rq (taken % 256) with status := (s.rq (taken % 256)).status &&& ~~~1 } from ⟨haddr, ?_⟩)
    ?_ ?_ ?_ ?_ ?_
  · show ((s.rq (taken % 256)).status &&& ~~~1) &&& 1 = 0
    have h0 : (~~~1 : UInt8) &&& 1 = 0 := by decide
    rw [UInt8.and_assoc, h0, UInt8.and_zero]
  · split <;> rfl
  · split <;> rfl
  · split <;> rfl
  · split <;> rfl
  · unfold E1000.rqFlushCount
    split <;> rfl

theorem e1000_receive_none {rqBuf : UInt64} {s : RxRing E1000.RecvDesc}
    {stored : List (List UInt8)} {taken : Nat} (h : RxInv (e1000Slots rqBuf) 128 s stored taken)
    (he : taken = stored.length) : E1000.receive rqBuf s = (none, s) := by
  have hidx := e1000_index h
  obtain ⟨-, hstatus⟩ := h.free taken (Nat.le_of_eq he.symm) (by omega)
  unfold E1000.receive
  dsimp only
  rw [hidx, if_pos hstatus]

theorem e1000_rx_ok {rqBuf : UInt64} (hb : rqBuf.toNat + 524288 ≤ 4194304) :
    (E1000.rx rqBuf).Ok (e1000Slots rqBuf) 128 fun _ _ => True where
  start mem := by
    refine ⟨?_, trivial⟩
    refine
      { rdt := rfl
        regRDT := rfl
        regRDH := rfl
        taken_le := Nat.le_refl _
        room := Nat.zero_le _
        lengths := by simp
        full := fun i hi => absurd hi (Nat.not_lt_zero i)
        free := fun i _ hi => ⟨?_, ?_⟩ }
    · show (bufferAddr rqBuf (i % 256)).toUInt32.toUInt64 = bufferAddr rqBuf (i % 256)
      refine toUInt32_toUInt64_of_lt ?_
      rw [bufferAddr_toNat hb (Nat.mod_lt i (by decide))]
      omega
    · show (0 : UInt8) &&& 1 = 0
      decide
  fill frame extra s stored taken h _ hc hf := by
    refine ⟨RxInv.fill h ?_ (bufferAddr_apart hb) hc extra hf, trivial⟩
    rintro i rd n extra - ⟨haddr, -⟩ hn1 hn2
    refine ⟨haddr, haddr, ?_, ?_⟩
    · show (extra.1.toUInt8 ||| 1) &&& 1 ≠ 0
      intro hz
      have hz' : (extra.1.toUInt8.toNat ||| 1) &&& 1 = 0 := by
        have := congrArg UInt8.toNat hz
        rwa [UInt8.toNat_and, UInt8.toNat_or] at this
      rw [Nat.and_or_distrib_right] at hz'
      exact absurd (Nat.or_eq_zero_iff.mp hz').2 (by decide)
    · exact UInt16.toNat_ofNat_of_lt' (by
        show n < 2 ^ 16
        omega)
  receive _ _ _ h _ hlt := ⟨(e1000_receive_some h hlt).1, (e1000_receive_some h hlt).2, trivial⟩
  idle _ _ _ h _ he := e1000_receive_none h he

/-! ### `i211` -/

def i211Slots (rqBuf headerBuf : UInt64) : RxSlots I211.RecvDesc where
  buffer := bufferAddr rqBuf
  armed i rd := rd = I211.prepareRxDescriptor rqBuf headerBuf i
  done _ rd n := rd.packetLength.toNat = n

/-- The length field of a prepared descriptor is 0, because `header_buf` is below 4 GiB. -/
theorem packetLength_prepare (rqBuf : UInt64) {headerBuf : UInt64}
    (hh : headerBuf.toNat < 4194304) (i : Nat) :
    (I211.prepareRxDescriptor rqBuf headerBuf i).packetLength = 0 := by
  refine UInt16.toNat.inj ?_
  show ((headerBuf >>> 32).toUInt16).toNat = 0
  rw [UInt64.toNat_toUInt16, UInt64.toNat_shiftRight]
  show headerBuf.toNat >>> 32 % 2 ^ 16 = 0
  rw [Nat.shiftRight_eq_div_pow]
  omega

/-- The NIC's length is what the driver reads back. -/
theorem packetLength_writeBack (rd : I211.RecvDesc) (len : UInt16) (extra : UInt64 × UInt64) :
    (I211.rxNic.writeBack rd len extra).packetLength = len := by
  have hlen : len.toNat < 2 ^ 16 := len.toNat_lt
  have hmask : ∀ i, i < 16 → (0xffff0000ffffffff : Nat).testBit (32 + i) = false := by decide
  have hshift : (len.toUInt64 <<< 32).toNat = len.toNat <<< 32 := by
    rw [UInt64.toNat_shiftLeft, UInt16.toNat_toUInt64]
    show len.toNat <<< 32 % 2 ^ 64 = _
    rw [Nat.shiftLeft_eq]
    omega
  refine UInt16.toNat.inj (Nat.eq_of_testBit_eq fun i => ?_)
  show ((((extra.2 &&& (0xffff0000ffffffff : UInt64)) ||| (len.toUInt64 <<< 32)) >>>
    32).toUInt16).toNat.testBit i = _
  rw [UInt64.toNat_toUInt16, UInt64.toNat_shiftRight, UInt64.toNat_or, UInt64.toNat_and, hshift]
  show (((extra.2.toNat &&& 0xffff0000ffffffff) ||| len.toNat <<< 32) >>> 32 % 2 ^ 16).testBit i = _
  rw [Nat.testBit_mod_two_pow, Nat.testBit_shiftRight, Nat.testBit_or, Nat.testBit_and,
    Nat.testBit_shiftLeft]
  by_cases hi : i < 16
  · rw [hmask i hi]
    simp [hi]
  · rw [Nat.testBit_lt_two_pow (Nat.lt_of_lt_of_le hlen (Nat.pow_le_pow_right (by decide)
      (Nat.le_of_not_lt hi)))]
    simp [hi]

theorem i211_receive_some {rqBuf headerBuf : UInt64} {s : I211.RxState}
    {stored : List (List UInt8)} {taken : Nat}
    (h : RxInv (i211Slots rqBuf headerBuf) 32 s.toRxRing stored taken)
    (hidx : At ringSize s.nextRxIdx taken) (hlt : taken < stored.length) :
    (I211.receive rqBuf headerBuf s).1 = some stored[taken] ∧
    RxInv (i211Slots rqBuf headerBuf) 32 (I211.receive rqBuf headerBuf s).2.toRxRing stored
      (taken + 1) ∧
    At ringSize (I211.receive rqBuf headerBuf s).2.nextRxIdx (taken + 1) := by
  have hidx' : s.nextRxIdx.toNat = taken % 256 := hidx
  obtain ⟨hlen, hbytes⟩ := h.full taken hlt (Nat.le_refl _)
  obtain ⟨hpos, hbound⟩ := h.lengths _ (List.getElem_mem hlt)
  have hlen : (s.rq (taken % 256)).packetLength.toNat = stored[taken].length := hlen
  have h0 : ¬(s.rq (taken % 256)).packetLength = 0 := by
    intro hc
    rw [hc] at hlen
    have : (0 : UInt16).toNat = 0 := rfl
    omega
  have h1 : ¬(s.rq (taken % 256)).packetLength > 1500 := by
    rw [gt_iff_lt, UInt16.lt_iff_toNat_lt, hlen]
    have : (1500 : UInt16).toNat = 1500 := rfl
    omega
  unfold I211.receive
  dsimp only
  rw [hidx', if_neg h0, if_neg h1, hlen]
  refine ⟨congrArg some hbytes, ?_, ?_⟩
  · have harmed : (i211Slots rqBuf headerBuf).armed (taken % 256)
        (I211.prepareRxDescriptor rqBuf headerBuf (taken % 256)) := rfl
    refine h.take hlt (p := 32) rfl (by decide) (by decide) harmed ?_ ?_ ?_ ?_ ?_
    · split <;> rfl
    · split <;> rfl
    · split <;> rfl
    · split <;> rfl
    · unfold I211.rqFlushCount
      split <;> rfl
  · have := hidx.next (by decide)
    split
    · exact this
    · exact this

theorem i211_receive_none {rqBuf headerBuf : UInt64} (hh : headerBuf.toNat < 4194304)
    {s : I211.RxState} {stored : List (List UInt8)} {taken : Nat}
    (h : RxInv (i211Slots rqBuf headerBuf) 32 s.toRxRing stored taken)
    (hidx : At ringSize s.nextRxIdx taken) (he : taken = stored.length) :
    I211.receive rqBuf headerBuf s = (none, s) := by
  have hidx' : s.nextRxIdx.toNat = taken % 256 := hidx
  have harmed : s.rq (taken % 256) = I211.prepareRxDescriptor rqBuf headerBuf (taken % 256) :=
    h.free taken (Nat.le_of_eq he.symm) (by omega)
  unfold I211.receive
  dsimp only
  rw [hidx', harmed, if_pos (packetLength_prepare rqBuf hh _)]

theorem i211_rx_ok {rqBuf headerBuf : UInt64} (hb : rqBuf.toNat + 524288 ≤ 4194304)
    (hh : headerBuf.toNat < 4194304) :
    (I211.rx rqBuf headerBuf).Ok (i211Slots rqBuf headerBuf) 32
      fun s taken => At ringSize s.nextRxIdx taken where
  start mem := by
    refine ⟨?_, rfl⟩
    exact
      { rdt := rfl
        regRDT := rfl
        regRDH := rfl
        taken_le := Nat.le_refl _
        room := Nat.zero_le _
        lengths := by simp
        full := fun i hi => absurd hi (Nat.not_lt_zero i)
        free := fun i _ hi => rfl }
  fill frame extra s stored taken h hidx hc hf := by
    refine ⟨RxInv.fill h ?_ (bufferAddr_apart hb) hc extra hf, hidx⟩
    rintro i rd n extra - rfl hn1 hn2
    refine ⟨rfl, ?_⟩
    show (I211.rxNic.writeBack _ _ _).packetLength.toNat = n
    rw [packetLength_writeBack]
    exact UInt16.toNat_ofNat_of_lt' (by
      show n < 2 ^ 16
      omega)
  receive _ _ _ h hidx hlt := i211_receive_some h hidx hlt
  idle _ _ _ h hidx he := i211_receive_none hh h hidx he

/-! ### Both drivers -/

/-- Both drivers, in every interleaving of `receive` and the NIC.  The buffers and `header_buf` are
static memory of the kernel. -/
theorem rx_safe {rqBuf headerBuf : UInt64} (hb : rqBuf.toNat + 524288 ≤ 4194304)
    (hh : headerBuf.toNat < 4194304) :
    (∀ s stored returned, RxRun (E1000.rx rqBuf) s stored returned →
      RxSafe (E1000.rx rqBuf) s stored returned) ∧
    (∀ s stored returned, RxRun (I211.rx rqBuf headerBuf) s stored returned →
      RxSafe (I211.rx rqBuf headerBuf) s stored returned) :=
  ⟨fun _ _ _ h => h.safe (e1000_rx_ok hb) (by decide) (by decide),
    fun _ _ _ h => h.safe (i211_rx_ok hb hh) (by decide) (by decide)⟩

/-- A frame of one byte arrives, with the buffers at 2 MiB and `header_buf` at 1 MiB. -/
theorem rx_safe_one : ∃ s, RxRun (I211.rx 0x200000 0x100000) s [[7]] [] ∧
    RxSafe (I211.rx 0x200000 0x100000) s [[7]] [] := by
  have hstart : RxRun (I211.rx 0x200000 0x100000)
      ((I211.rx 0x200000 0x100000).start fun _ => 0) [] [] := RxRun.start _
  have hrun := RxRun.fill [7] (0, 0) hstart (by decide) (by decide)
  exact ⟨_, hrun, (rx_safe (by decide) (by decide)).2 _ _ _ hrun⟩

/-! ### Frames that `i211::receive` refuses -/

/-- The call consumes the descriptor at `next_rx_idx`: it is armed again, and both indices move. -/
def I211Consumes (rqBuf headerBuf : UInt64) (s : I211.RxState) : Prop :=
  let s' := (I211.receive rqBuf headerBuf s).2
  s'.rq s.nextRxIdx.toNat = I211.prepareRxDescriptor rqBuf headerBuf s.nextRxIdx.toNat ∧
    s'.nextRxIdx = (s.nextRxIdx + 1) % ringSize ∧ s'.rdt = (s.rdt + 1) % ringSize

/-- An index moves. -/
theorem next_ne (x : UInt32) : x ≠ (x + 1) % ringSize := by
  intro h
  have h' := congrArg UInt32.toNat h
  have hx := x.toNat_lt
  rw [UInt32.toNat_mod, UInt32.toNat_add, UInt32.toNat_one, toNat_ringSize] at h'
  omega

/-- A descriptor is consumed exactly when its length is at most 1500; `realtek::receive` consumes
it in every case. -/
theorem i211_consumes_iff (rqBuf headerBuf : UInt64) (s : I211.RxState)
    (hlen : (s.rq s.nextRxIdx.toNat).packetLength ≠ 0) :
    I211Consumes rqBuf headerBuf s ↔ (s.rq s.nextRxIdx.toNat).packetLength ≤ 1500 := by
  unfold I211Consumes I211.receive
  dsimp only
  rw [if_neg hlen]
  by_cases hbig : (s.rq s.nextRxIdx.toNat).packetLength > 1500
  · rw [if_pos hbig]
    constructor
    · rintro ⟨-, hnext, -⟩
      exact absurd hnext (next_ne _)
    · intro hle
      exact absurd hbig (UInt16.not_lt.mpr hle)
  · rw [if_neg hbig]
    refine ⟨fun _ => UInt16.not_lt.mp hbig, fun _ => ⟨?_, ?_, ?_⟩⟩
    · split
      · exact Function.update_self _ _ _
      · exact Function.update_self _ _ _
    · split <;> rfl
    · split <;> rfl

/-- A frame of `n` bytes in the first descriptor after the start. -/
def oneFrame (n : UInt16) : I211.RxState :=
  { I211.rxStart 0x200000 0x100000 (fun _ => 0) with
    rq := fun _ => { word0 := 0, word1 := n.toUInt64 <<< 32 } }

theorem i211_consumes_minimal : I211Consumes 0x200000 0x100000 (oneFrame 60) :=
  (i211_consumes_iff 0x200000 0x100000 (oneFrame 60) (by decide)).mpr (by decide)

/-- A full frame of 1514 bytes stays in its descriptor. -/
theorem i211_stuck : ¬∀ (rqBuf headerBuf : UInt64) (s : I211.RxState),
    (s.rq s.nextRxIdx.toNat).packetLength ≠ 0 → I211Consumes rqBuf headerBuf s := by
  intro h
  obtain ⟨-, hnext, -⟩ := h 0x200000 0x100000 (oneFrame 1514) (by decide)
  exact absurd hnext (by decide)

/-! ### Frames that do not fit the caller's buffer

`ducknet_step` receives into a buffer of 1564 bytes.  `i211::receive` never copies more than 1500,
but the bound of `e1000::receive` is that of its own buffers.
-/

/-- The result of `receive` for the caller: the length, or -1. -/
def received : Option (List UInt8) → Int
  | none => -1
  | some bs => bs.length

/-- What is copied fits the buffer of `ducknet_step`, and so does the length that is returned. -/
structure FitsPkt (r : Option (List UInt8)) : Prop where
  copied : ∀ bs, r = some bs → bs.length ≤ DuckServer.pktSize
  returned : received r ≤ DuckServer.pktSize

theorem fitsPkt_none : FitsPkt none := ⟨fun _ h => (nomatch h), by decide⟩

theorem fitsPkt_some_iff (bs : List UInt8) : FitsPkt (some bs) ↔
    bs.length ≤ DuckServer.pktSize := by
  refine ⟨fun h => h.copied bs rfl, fun h => ⟨fun bs' hbs => ?_, Int.ofNat_le.mpr h⟩⟩
  rw [← Option.some.inj hbs]
  exact h

/-- The descriptor that `e1000::receive` looks at. -/
def e1000Next (s : RxRing E1000.RecvDesc) : E1000.RecvDesc := s.rq ((s.rdt + 1) % ringSize).toNat

theorem e1000_receive_length (rqBuf : UInt64) {s : RxRing E1000.RecvDesc}
    (h : (e1000Next s).status &&& 1 ≠ 0) : ∃ bs, (E1000.receive rqBuf s).1 = some bs ∧
      bs.length = min (e1000Next s).length.toNat 2048 := by
  unfold e1000Next at h ⊢
  unfold E1000.receive
  dsimp only
  rw [if_neg h]
  refine ⟨_, rfl, ?_⟩
  rw [Mem.length_bytes]
  split <;> omega

/-- The frame fits exactly when its descriptor is not done or its length is at most 1564. -/
theorem e1000_receive_fits_iff (rqBuf : UInt64) (s : RxRing E1000.RecvDesc) :
    FitsPkt (E1000.receive rqBuf s).1 ↔
      ((e1000Next s).status &&& 1 = 0 ∨ (e1000Next s).length.toNat ≤ DuckServer.pktSize) := by
  by_cases h : (e1000Next s).status &&& 1 = 0
  · have hnone : (E1000.receive rqBuf s).1 = none := by
      unfold E1000.receive
      dsimp only
      rw [if_pos (by exact h)]
    rw [hnone]
    exact iff_of_true fitsPkt_none (.inl h)
  · obtain ⟨bs, hbs, hlen⟩ := e1000_receive_length rqBuf h
    rw [hbs, fitsPkt_some_iff, hlen, DuckServer.pktSize]
    constructor
    · intro hle
      exact .inr (by omega)
    · rintro (h0 | hle)
      · exact absurd h0 h
      · omega

/-- The NIC has stored a frame of 1565 bytes in the first descriptor. -/
def longFrame : RxRing E1000.RecvDesc :=
  (E1000.rxStart 0x200000 fun _ => 0).fill E1000.rxNic (List.replicate 1565 0) (0, 0)

theorem e1000_receive_too_long : ¬∀ (rqBuf : UInt64) (s : RxRing E1000.RecvDesc),
    FitsPkt (E1000.receive rqBuf s).1 := by
  intro hall
  obtain ⟨bs, hbs, hlen⟩ := e1000_receive_length (s := longFrame) 0x200000 (by decide +kernel)
  have hfit := (hall 0x200000 longFrame).copied bs hbs
  rw [hlen] at hfit
  exact absurd hfit (by decide +kernel)

end JudgeDuck.Nic
