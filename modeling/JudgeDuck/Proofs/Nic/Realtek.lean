/-
The rings of `realtek`.

The driver and the NIC share no indices: who owns a descriptor is said by the descriptor.
What one sees of the two rings, in any order of calls and of steps of the NIC, is two
queues of 128 places each: one of the packets that `send` has accepted, which the NIC
takes from, and one of the frames that the NIC has stored, which `receive` takes from.
-/
import JudgeDuck.Base.Simulation
import JudgeDuck.Base.SlotRing
import JudgeDuck.Model.Realtek
import JudgeDuck.Proofs.Nic.Transmit
import JudgeDuck.Proofs.Rounding

namespace JudgeDuck

/-! ### Blocks of `DMA` -/

namespace DMA

/-- The addresses of a block. -/
structure Block where
  addr : Nat
  size : Nat

/-- The blocks that a list of requests has got. -/
def blocks (sizes : List UInt64) (answers : List (Option UInt64)) : List Block :=
  (sizes.zip answers).filterMap fun p => p.2.map fun a => ⟨a.toNat, p.1.toNat⟩

/-- A block in a part of the buffer. -/
structure Block.Within (b : Block) (lo hi : Nat) : Prop where
  above : lo ≤ b.addr
  below : b.addr + b.size ≤ hi
  page : (b.addr - lo) % 4096 = 0

/-- The end of the buffer is an address, and so is that of a block that is too large for it. -/
structure Bounded (dma : DMA) (size : UInt64) : Prop where
  ptr : dma.buffer ≤ dma.ptr
  fits : dma.ptr.toNat ≤ dma.buffer.toNat + 1310720
  size : dma.buffer.toNat + 1310720 + size.toNat + 4096 ≤ 2 ^ 64

theorem toNat_end {dma : DMA} {size : UInt64} (h : Bounded dma size) :
    (dma.buffer + bufferSize).toNat = dma.buffer.toNat + 1310720 := by
  have hsize := h.size
  have hbuf : bufferSize.toNat = 1310720 := rfl
  rw [Utils.toNat_add_of_lt (by omega), hbuf]

theorem toNat_roundUp {dma : DMA} {size : UInt64} (h : Bounded dma size) :
    (Utils.roundUp size Memory.pageSize).toNat = Utils.pageUp size.toNat := by
  have hsize := h.size
  rcases Utils.roundUp_page size with ⟨-, hr⟩ | ⟨hover, -⟩
  · exact hr
  · omega

/-- What `DMA::alloc` does. -/
theorem alloc_cases {dma : DMA} {size : UInt64} (h : Bounded dma size) :
    (dma.buffer.toNat + 1310720 < dma.ptr.toNat + Utils.pageUp size.toNat ∧
      alloc size dma = (none, dma)) ∨
    ∃ ptr : UInt64, ptr.toNat = dma.ptr.toNat + Utils.pageUp size.toNat ∧
      ptr.toNat ≤ dma.buffer.toNat + 1310720 ∧
      alloc size dma = (some dma.ptr, { dma with ptr }) := by
  have hround := toNat_roundUp h
  have hend := toNat_end h
  have hfits := h.fits
  have hsize := h.size
  have hup : Utils.pageUp size.toNat ≤ size.toNat + 4095 := Nat.div_mul_le_self _ _
  have hsum : (dma.ptr + Utils.roundUp size Memory.pageSize).toNat
      = dma.ptr.toNat + Utils.pageUp size.toNat := by
    rw [Utils.toNat_add_of_lt (by omega), hround]
  have hcmp : dma.ptr + Utils.roundUp size Memory.pageSize > dma.buffer + bufferSize ↔
      dma.buffer.toNat + 1310720 < dma.ptr.toNat + Utils.pageUp size.toNat := by
    rw [gt_iff_lt, UInt64.lt_iff_toNat_lt, hend, hsum]
  unfold alloc
  by_cases hc : dma.buffer.toNat + 1310720 < dma.ptr.toNat + Utils.pageUp size.toNat
  · exact .inl ⟨hc, if_pos (hcmp.mpr hc)⟩
  · exact .inr ⟨_, hsum, by omega, if_neg fun hgt => hc (hcmp.mp hgt)⟩

theorem withBlock_some {α : Type} {size p : UInt64} {dma dma' : DMA}
    (h : alloc size dma = (some p, dma')) (next : UInt64 → DMA → Option α × DMA) :
    withBlock size next dma = next p dma' := by
  unfold withBlock
  rw [h]
  rfl

/-- Blocks lie in what is left of the buffer, one after the other. -/
theorem blocks_run : ∀ (sizes : List UInt64) (dma : DMA), (∀ size ∈ sizes, Bounded dma size) →
    (dma.ptr.toNat - dma.buffer.toNat) % 4096 = 0 →
    let got := blocks sizes (Simulation.run alloc sizes dma).1
    got.Pairwise (fun b c => b.addr + b.size ≤ c.addr) ∧
      ∀ b ∈ got, dma.ptr.toNat ≤ b.addr ∧
        b.Within dma.buffer.toNat (dma.buffer.toNat + 1310720) := by
  intro sizes
  induction sizes with
  | nil => intro dma _ _; exact ⟨List.Pairwise.nil, fun b hb => nomatch hb⟩
  | cons size rest ih =>
      intro dma hall hpage
      have h := hall size (by simp)
      have hptr : dma.buffer.toNat ≤ dma.ptr.toNat := UInt64.le_iff_toNat_le.mp h.ptr
      rcases alloc_cases h with ⟨-, hnone⟩ | ⟨ptr, hval, hle, hsome⟩
      · obtain ⟨hpair, hin⟩ := ih dma (fun s hs => hall s (by simp [hs])) hpage
        have hgot : blocks (size :: rest) (Simulation.run alloc (size :: rest) dma).1
            = blocks rest (Simulation.run alloc rest dma).1 := by
          simp only [Simulation.run, hnone, blocks, List.zip_cons_cons]
          rfl
        rw [hgot]
        exact ⟨hpair, hin⟩
      · have hup := Utils.le_pageUp size.toNat
        have hmod := Utils.pageUp_mod size.toNat
        have hnext : ∀ s ∈ rest, Bounded { dma with ptr } s := fun s hs =>
          ⟨UInt64.le_iff_toNat_le.mpr (by
            show dma.buffer.toNat ≤ ptr.toNat
            omega), hle, (hall s (by simp [hs])).size⟩
        obtain ⟨hpair, hin⟩ := ih { dma with ptr } hnext (by
          show (ptr.toNat - dma.buffer.toNat) % 4096 = 0
          omega)
        have hgot : blocks (size :: rest) (Simulation.run alloc (size :: rest) dma).1
            = ⟨dma.ptr.toNat, size.toNat⟩ :: blocks rest (Simulation.run alloc rest
              { dma with ptr }).1 := by
          simp only [Simulation.run, hsome, blocks, List.zip_cons_cons]
          rfl
        rw [hgot]
        refine ⟨List.pairwise_cons.mpr ⟨fun b hb => ?_, hpair⟩, fun b hb => ?_⟩
        · have hlo : ptr.toNat ≤ b.addr := (hin b hb).1
          show dma.ptr.toNat + size.toNat ≤ b.addr
          omega
        · rcases List.mem_cons.mp hb with rfl | hb
          · refine ⟨Nat.le_refl _, hptr, ?_, hpage⟩
            show dma.ptr.toNat + size.toNat ≤ dma.buffer.toNat + 1310720
            omega
          · have hlo : ptr.toNat ≤ b.addr := (hin b hb).1
            exact ⟨by omega, (hin b hb).2⟩

/-- **What `DMA::alloc` gives out never overlaps**, whatever was asked for before. -/
theorem blocks_apart {buffer : UInt64} {sizes : List UInt64}
    (hsizes : ∀ size ∈ sizes, buffer.toNat + 1310720 + size.toNat + 4096 ≤ 2 ^ 64) :
    let got := blocks sizes (Simulation.run alloc sizes (init buffer)).1
    got.Pairwise (fun b c => b.addr + b.size ≤ c.addr) ∧
      ∀ b ∈ got, b.Within buffer.toNat (buffer.toNat + 1310720) := by
  have hbounded : ∀ size ∈ sizes, Bounded (init buffer) size := fun size hs =>
    ⟨UInt64.le_refl buffer, Nat.le_add_right _ _, hsizes size hs⟩
  obtain ⟨hpair, hin⟩ := blocks_run sizes (init buffer) hbounded (by
    show (buffer.toNat - buffer.toNat) % 4096 = 0
    rw [Nat.sub_self])
  exact ⟨hpair, fun b hb => (hin b hb).2⟩

/-- A page and two pages, in a buffer at 2 MiB. -/
theorem blocks_apart_two :
    let got := blocks [16, 4097] (Simulation.run alloc [16, 4097] (init 0x200000)).1
    got.Pairwise (fun b c => b.addr + b.size ≤ c.addr) ∧
      ∀ b ∈ got, b.Within 2097152 (2097152 + 1310720) := by
  refine @blocks_apart 0x200000 [16, 4097] fun size hs => ?_
  rcases List.mem_cons.mp hs with rfl | hs
  · decide
  · rw [List.mem_singleton.mp hs]
    decide

end DMA

namespace Realtek

open SlotRing

/-! ### Two queues -/

/-- The packets that are not sent yet, and the frames that are not received yet, with those
marked that did not arrive well. -/
structure Queues where
  sending : List (List UInt8)
  arrived : List (List UInt8 × Bool)

/-- The functions of the driver, and the steps of the NIC. -/
inductive Request where
  | send (buf : Nat → UInt8) (len : Int)
  | receive
  | transmit
  | store (frame : List UInt8) (bits : UInt16 × UInt16)

inductive Answer where
  | status (r : Int)
  | bytes (r : Option (List UInt8))
  | stored (ok : Bool)

/-- The NIC stores no frame that is longer than a buffer: `rtl_init` sets RMS. -/
def Request.Fits : Request → Prop
  | .store frame _ => frame.length ≤ bufferSize
  | _ => True

/-- What `receive` makes of a frame. -/
def deliver (frame : List UInt8 × Bool) : Option (List UInt8) :=
  if frame.2 = true ∨ frame.1.length > 1500 then none else some frame.1

/-- Both queues have 128 places. -/
def Queues.step : Request → Queues → Answer × Queues
  | .send buf len, q =>
    if len < 0 ∨ len > 1500 ∨ q.sending.length = 128 then (.status (-1), q)
    else (.status 0, { q with sending := q.sending ++ [Nic.packet buf len] })
  | .transmit, q => (.bytes q.sending.head?, { q with sending := q.sending.tail })
  | .store frame bits, q =>
    if q.arrived.length = 128 then (.stored false, q)
    else
      (.stored true,
        { q with arrived := q.arrived ++ [(frame, decide (bits.2 &&& descFlagError ≠ 0))] })
  | .receive, q => (.bytes (q.arrived.head?.bind deliver), { q with arrived := q.arrived.tail })

/-- The device with its driver. -/
def Device.step (blocks : Blocks) : Request → Device → Answer × Device
  | .send buf len, s =>
    let out := Realtek.send blocks.txBuffer buf len s.toTxState
    (.status out.1, { s with toTxState := out.2 })
  | .transmit, s => (.bytes (transmit s).1, (transmit s).2)
  | .store frame bits, s => (.stored (store frame bits s).1, (store frame bits s).2)
  | .receive, s => (.bytes (receive blocks.rxBuffer s).1, (receive blocks.rxBuffer s).2)

/-! ### What a descriptor and its buffer hold -/

/-- A slot of the transmit ring. -/
def TxSlot (txBuffer : UInt64) (s : Device) (i : Nat) : Option (List UInt8) → Prop
  | none => (s.txDesc i).flags &&& descFlagOwn = 0
  | some p => s.txDesc i = prepareTxDescriptor txBuffer i p.length ∧ p.length ≤ 1500 ∧
      s.mem.bytes (txBuffer.toNat + i * bufferSize) p.length = p

/-- The NIC has written a frame into a descriptor. -/
structure Written (d : Descriptor) (frame : List UInt8 × Bool) : Prop where
  own : d.flags &&& descFlagOwn = 0
  error : d.flags &&& descFlagError ≠ 0 ↔ frame.2 = true
  length : (d.length &&& descLengthMask).toNat = frame.1.length

/-- A slot of the receive ring. -/
def RxSlot (rxBuffer : UInt64) (s : Device) (i : Nat) : Option (List UInt8 × Bool) → Prop
  | none => s.rxDesc i = prepareRxDescriptor rxBuffer i
  | some f => Written (s.rxDesc i) f ∧ f.1.length ≤ bufferSize ∧
      s.mem.bytes (rxBuffer.toNat + i * bufferSize) f.1.length = f.1

/-- The two blocks of buffers. -/
structure Blocks.Apart (b : Blocks) : Prop where
  tx : b.txBuffer.toNat + 196608 ≤ 2 ^ 64
  rx : b.rxBuffer.toNat + 196608 ≤ 2 ^ 64
  apart : b.txBuffer.toNat + 196608 ≤ b.rxBuffer.toNat ∨
    b.rxBuffer.toNat + 196608 ≤ b.txBuffer.toNat

/-- The device is what it looks like: `sent` packets have been sent, `taken` frames received. -/
structure Shows (b : Blocks) (s : Device) (q : Queues) (sent taken : Nat) : Prop where
  txIdx : s.txIdx = (sent + q.sending.length) % 128
  txHead : s.txHead = sent % 128
  rxIdx : s.rxIdx = taken % 128
  rxHead : s.rxHead = (taken + q.arrived.length) % 128
  tx : Holds 128 (TxSlot b.txBuffer s) sent q.sending
  rx : Holds 128 (RxSlot b.rxBuffer s) taken q.arrived

/-! ### Descriptors -/

theorem own_prepareTx (txBuffer : UInt64) (i len : Nat) :
    (prepareTxDescriptor txBuffer i len).flags &&& descFlagOwn ≠ 0 := by
  unfold prepareTxDescriptor
  by_cases h : i + 1 = nTxDesc
  · simp only [if_pos h]
    decide
  · simp only [if_neg h]
    decide

theorem own_prepareRx (rxBuffer : UInt64) (i : Nat) :
    (prepareRxDescriptor rxBuffer i).flags &&& descFlagOwn ≠ 0 := by
  unfold prepareRxDescriptor
  by_cases h : i + 1 = nRxDesc
  · simp only [if_pos h]
    decide
  · simp only [if_neg h]
    decide

/-- The flag of the last descriptor takes the NIC back to the first. -/
theorem nextDesc_prepareTx (txBuffer : UInt64) (len k : Nat) :
    nextDesc (prepareTxDescriptor txBuffer (k % 128) len) (k % 128) = (k + 1) % 128 := by
  unfold nextDesc prepareTxDescriptor nTxDesc
  by_cases h : k % 128 + 1 = 128
  · simp only [if_pos h]
    rw [if_pos (by decide)]
    omega
  · simp only [if_neg h]
    rw [if_neg (by decide)]
    omega

theorem nextDesc_prepareRx (rxBuffer : UInt64) (k : Nat) :
    nextDesc (prepareRxDescriptor rxBuffer (k % 128)) (k % 128) = (k + 1) % 128 := by
  unfold nextDesc prepareRxDescriptor nRxDesc
  by_cases h : k % 128 + 1 = 128
  · simp only [if_pos h]
    rw [if_pos (by decide)]
    omega
  · simp only [if_neg h]
    rw [if_neg (by decide)]
    omega

/-- A flag that is cleared. -/
theorem flag_cleared (x flag : UInt16) : x &&& ~~~flag &&& flag = 0 := by
  rw [UInt16.and_assoc, UInt16.not_and_self, UInt16.and_zero]

theorem written_store (d : Descriptor) {frame : List UInt8} (hf : frame.length ≤ bufferSize)
    (bits : UInt16 × UInt16) :
    Written
      { d with
        length := (UInt16.ofNat frame.length &&& descLengthMask)
          ||| (bits.1 &&& ~~~descLengthMask)
        flags := bits.2 &&& ~~~descFlagOwn }
      (frame, decide (bits.2 &&& descFlagError ≠ 0)) where
  own := flag_cleared _ _
  error := by
    have hmask : ~~~descFlagOwn &&& descFlagError = descFlagError := by decide
    show bits.2 &&& ~~~descFlagOwn &&& descFlagError ≠ 0 ↔ _
    rw [UInt16.and_assoc, hmask, decide_eq_true_iff]
  length := by
    have hlt : frame.length < 2 ^ 14 := Nat.lt_of_le_of_lt hf (by decide)
    have hnat : (UInt16.ofNat frame.length).toNat = frame.length :=
      UInt16.toNat_ofNat_of_lt' (by
        show frame.length < 2 ^ 16
        omega)
    have hother : (bits.1 &&& ~~~descLengthMask).toNat &&& descLengthMask.toNat = 0 := by
      rw [← UInt16.toNat_and, flag_cleared]
      rfl
    show ((UInt16.ofNat frame.length &&& descLengthMask ||| bits.1 &&& ~~~descLengthMask)
      &&& descLengthMask).toNat = frame.length
    rw [UInt16.toNat_and, UInt16.toNat_or, Nat.and_or_distrib_right, hother, Nat.or_zero,
      UInt16.toNat_and, hnat, Nat.and_assoc, Nat.and_self]
    exact (Nat.and_two_pow_sub_one_eq_mod _ 14).trans (Nat.mod_eq_of_lt hlt)

/-! ### Buffers -/

theorem toNat_buffer {base : UInt64} (hb : base.toNat + 196608 ≤ 2 ^ 64) {i : Nat} (hi : i < 128) :
    (base + UInt64.ofNat (i * bufferSize)).toNat = base.toNat + i * bufferSize := by
  have hoff : i * bufferSize < 196608 := by
    unfold bufferSize
    omega
  have hnat : (UInt64.ofNat (i * bufferSize)).toNat = i * bufferSize :=
    UInt64.toNat_ofNat_of_lt' (by
      show i * bufferSize < 2 ^ 64
      omega)
  rw [Utils.toNat_add_of_lt (by omega), hnat]

theorem bytes_put_disjoint {m : Mem} {a n c k : Nat} {f : Nat → UInt8}
    (h : a + n ≤ c ∨ c + k ≤ a) : (m.put a n f).bytes c k = m.bytes c k :=
  Mem.bytes_congr fun x h1 h2 => Mem.put_out (by omega)

/-- Updates inside other buffers of one block. -/
theorem bytes_put_other {m : Mem} {base i j n k : Nat} {f : Nat → UInt8} (hij : i ≠ j)
    (hn : n ≤ bufferSize) (hk : k ≤ bufferSize) :
    (m.put (base + j * bufferSize) n f).bytes (base + i * bufferSize) k
      = m.bytes (base + i * bufferSize) k := by
  refine bytes_put_disjoint ?_
  unfold bufferSize at *
  omega

/-- Updates inside the other block. -/
theorem bytes_put_apart {m : Mem} {base base' i j n k : Nat} {f : Nat → UInt8}
    (h : base + 196608 ≤ base' ∨ base' + 196608 ≤ base) (hi : i < 128) (hj : j < 128)
    (hn : n ≤ bufferSize) (hk : k ≤ bufferSize) :
    (m.put (base' + j * bufferSize) n f).bytes (base + i * bufferSize) k
      = m.bytes (base + i * bufferSize) k := by
  refine bytes_put_disjoint ?_
  unfold bufferSize at *
  omega

/-! ### One step -/

section Steps

variable {b : Blocks} {s : Device} {q : Queues} {sent taken : Nat}

/-- `send`. -/
theorem Shows.send (hb : b.Apart) (h : Shows b s q sent taken) (buf : Nat → UInt8) (len : Int) :
    (s.step b (.send buf len)).1 = (q.step (.send buf len)).1 ∧
      Shows b (s.step b (.send buf len)).2 (q.step (.send buf len)).2 sent taken := by
  by_cases hlen : len < 0 ∨ len > 1500
  · have hspec : q.step (.send buf len) = (.status (-1), q) := if_pos (by tauto)
    have hdev : s.step b (.send buf len) = (.status (-1), s) := by
      simp only [Device.step, Realtek.send, if_pos hlen]
    rw [hspec, hdev]
    exact ⟨rfl, h⟩
  by_cases hfull : q.sending.length = 128
  · have hspec : q.step (.send buf len) = (.status (-1), q) := if_pos (by tauto)
    -- the descriptor at the index is that of the packet that is sent next
    obtain ⟨p, rest, hq⟩ := List.exists_cons_of_length_pos
      (by rw [hfull]; decide : 0 < q.sending.length)
    have hslot := h.tx.full (by decide) hfull
    rw [← h.txIdx, hq, List.head?_cons] at hslot
    have hown : (s.txDesc s.txIdx).flags &&& descFlagOwn ≠ 0 := by
      rw [hslot.1]
      exact own_prepareTx _ _ _
    have hdev : s.step b (.send buf len) = (.status (-1), s) := by
      simp only [Device.step, Realtek.send, if_neg hlen, if_pos hown]
    rw [hspec, hdev]
    exact ⟨rfl, h⟩
  · have hroom : q.sending.length < 128 := Nat.lt_of_le_of_ne h.tx.fits hfull
    have hspec : q.step (.send buf len)
        = (.status 0, { q with sending := q.sending ++ [Nic.packet buf len] }) :=
      if_neg (by tauto)
    have hslot := h.tx.free hroom
    rw [← h.txIdx] at hslot
    have hown : ¬(s.txDesc s.txIdx).flags &&& descFlagOwn ≠ 0 := fun hc => hc hslot
    have hdev : s.step b (.send buf len) = (.status 0,
        { s with
          txIdx := (s.txIdx + 1) % nTxDesc
          txDesc := Function.update s.txDesc s.txIdx
            (prepareTxDescriptor b.txBuffer s.txIdx len.toNat)
          mem := s.mem.put (b.txBuffer.toNat + s.txIdx * bufferSize) len.toNat buf }) := by
      simp only [Device.step, Realtek.send, if_neg hlen, if_neg hown]
    have hidx : s.txIdx < 128 := by
      rw [h.txIdx]
      exact Nat.mod_lt _ (by decide)
    have hn : len.toNat ≤ 1500 := by omega
    have hsize : len.toNat ≤ bufferSize := hn.trans (by decide)
    rw [hspec, hdev]
    refine ⟨rfl, ?_⟩
    refine
      { txIdx := by
          show (s.txIdx + 1) % 128 = (sent + (q.sending ++ [_]).length) % 128
          rw [h.txIdx, List.length_append, List.length_singleton, Nat.mod_add_mod, Nat.add_assoc]
        txHead := h.txHead
        rxIdx := h.rxIdx
        rxHead := h.rxHead
        tx := h.tx.push hroom ?_ ?_
        rx := h.rx.keep ?_ }
    · -- the descriptor and the buffer of this packet
      rw [← h.txIdx]
      refine ⟨?_, ?_, ?_⟩
      · show Function.update s.txDesc s.txIdx _ s.txIdx = _
        rw [Function.update_self, Nic.length_packet]
      · rw [Nic.length_packet]
        exact hn
      · rw [Nic.length_packet]
        exact List.map_congr_left fun i hi => Mem.put_add (List.mem_range.mp hi)
    · -- those of the other packets
      rw [← h.txIdx]
      rintro i (_ | p) hi hne hold
      · show (Function.update s.txDesc s.txIdx _ i).flags &&& descFlagOwn = 0
        rw [Function.update_of_ne hne]
        exact hold
      · obtain ⟨hdesc, hp, hbytes⟩ := hold
        refine ⟨?_, hp, ?_⟩
        · show Function.update s.txDesc s.txIdx _ i = _
          rw [Function.update_of_ne hne]
          exact hdesc
        · show (Mem.put _ _ _ _).bytes _ _ = p
          rw [bytes_put_other hne hsize (hp.trans (by decide))]
          exact hbytes
    · rintro i (_ | f) hi hold
      · exact hold
      · refine ⟨hold.1, hold.2.1, ?_⟩
        show (Mem.put _ _ _ _).bytes _ _ = f.1
        rw [bytes_put_apart hb.apart.symm hi hidx hsize hold.2.1]
        exact hold.2.2

/-- The NIC sends a packet. -/
theorem Shows.transmit (hb : b.Apart) (h : Shows b s q sent taken) :
    (s.step b .transmit).1 = (q.step .transmit).1 ∧
      ∃ sent', Shows b (s.step b .transmit).2 (q.step .transmit).2 sent' taken := by
  have hslot := h.tx.head (by decide)
  rw [← h.txHead] at hslot
  obtain ⟨sending, arrived⟩ := q
  cases sending with
  | nil =>
      have hown : (s.txDesc s.txHead).flags &&& descFlagOwn = 0 := hslot
      have hdev : s.step b .transmit = (.bytes none, s) := by
        simp only [Device.step, Realtek.transmit, if_pos hown]
      rw [hdev]
      exact ⟨rfl, sent, h⟩
  | cons p rest =>
      obtain ⟨hdesc, hp, hbytes⟩ : TxSlot b.txBuffer s s.txHead (some p) := hslot
      have hown : ¬(s.txDesc s.txHead).flags &&& descFlagOwn = 0 := by
        rw [hdesc]
        exact own_prepareTx _ _ _
      have hhead : s.txHead < 128 := by
        rw [h.txHead]
        exact Nat.mod_lt _ (by decide)
      have haddr : (s.txDesc s.txHead).address.toNat
          = b.txBuffer.toNat + s.txHead * bufferSize := by
        rw [hdesc]
        exact toNat_buffer hb.tx hhead
      have hlength : (s.txDesc s.txHead).length.toNat = p.length := by
        rw [hdesc]
        exact UInt16.toNat_ofNat_of_lt' (by
          show p.length < 2 ^ 16
          omega)
      have hnext : nextDesc (s.txDesc s.txHead) s.txHead = (sent + 1) % 128 := by
        rw [hdesc, h.txHead]
        exact nextDesc_prepareTx _ _ _
      have hdev : s.step b .transmit = (.bytes (some p),
          { s with
            txDesc := Function.update s.txDesc s.txHead
              { s.txDesc s.txHead with
                flags := (s.txDesc s.txHead).flags &&& ~~~descFlagOwn }
            txHead := (sent + 1) % 128 }) := by
        simp only [Device.step, Realtek.transmit, if_neg hown, haddr, hlength, hbytes, hnext]
      rw [hdev]
      refine ⟨rfl, sent + 1, ?_⟩
      refine
        { txIdx := by
            rw [h.txIdx]
            show (sent + (rest.length + 1)) % 128 = (sent + 1 + rest.length) % 128
            congr 1
            omega
          txHead := rfl
          rxIdx := h.rxIdx
          rxHead := h.rxHead
          tx := h.tx.pop ?_ ?_
          rx := h.rx }
      · rw [← h.txHead]
        show (Function.update s.txDesc s.txHead _ s.txHead).flags &&& descFlagOwn = 0
        rw [Function.update_self]
        exact flag_cleared _ _
      · rw [← h.txHead]
        rintro i (_ | p') hi hne hold
        · show (Function.update s.txDesc s.txHead _ i).flags &&& descFlagOwn = 0
          rw [Function.update_of_ne hne]
          exact hold
        · refine ⟨?_, hold.2⟩
          show Function.update s.txDesc s.txHead _ i = _
          rw [Function.update_of_ne hne]
          exact hold.1

/-- The NIC stores a frame. -/
theorem Shows.store (hb : b.Apart) (h : Shows b s q sent taken) {frame : List UInt8}
    (hf : frame.length ≤ bufferSize) (bits : UInt16 × UInt16) :
    (s.step b (.store frame bits)).1 = (q.step (.store frame bits)).1 ∧
      Shows b (s.step b (.store frame bits)).2 (q.step (.store frame bits)).2 sent taken := by
  by_cases hfull : q.arrived.length = 128
  · have hspec : q.step (.store frame bits) = (.stored false, q) := if_pos hfull
    -- the NIC finds the frame that is received next
    obtain ⟨f, rest, hq⟩ := List.exists_cons_of_length_pos
      (by rw [hfull]; decide : 0 < q.arrived.length)
    have hslot := h.rx.full (by decide) hfull
    rw [← h.rxHead, hq, List.head?_cons] at hslot
    have hdev : s.step b (.store frame bits) = (.stored false, s) := by
      simp only [Device.step, Realtek.store, if_pos hslot.1.own]
    rw [hspec, hdev]
    exact ⟨rfl, h⟩
  · have hroom : q.arrived.length < 128 := Nat.lt_of_le_of_ne h.rx.fits hfull
    have hspec : q.step (.store frame bits) = (.stored true,
        { q with arrived := q.arrived ++ [(frame, decide (bits.2 &&& descFlagError ≠ 0))] }) :=
      if_neg hfull
    have hslot : s.rxDesc s.rxHead = prepareRxDescriptor b.rxBuffer s.rxHead := by
      have hfree := h.rx.free hroom
      rwa [← h.rxHead] at hfree
    have hhead : s.rxHead < 128 := by
      rw [h.rxHead]
      exact Nat.mod_lt _ (by decide)
    have hown : ¬(s.rxDesc s.rxHead).flags &&& descFlagOwn = 0 := by
      rw [hslot]
      exact own_prepareRx _ _
    have haddr : (s.rxDesc s.rxHead).address.toNat = b.rxBuffer.toNat + s.rxHead * bufferSize := by
      rw [hslot]
      exact toNat_buffer hb.rx hhead
    have hnext : nextDesc (s.rxDesc s.rxHead) s.rxHead
        = (taken + q.arrived.length + 1) % 128 := by
      rw [hslot, h.rxHead]
      exact nextDesc_prepareRx _ _
    have hdev : s.step b (.store frame bits) = (.stored true,
        { s with
          mem := s.mem.putBytes (b.rxBuffer.toNat + s.rxHead * bufferSize) frame
          rxDesc := Function.update s.rxDesc s.rxHead
            { s.rxDesc s.rxHead with
              length := (UInt16.ofNat frame.length &&& descLengthMask)
                ||| (bits.1 &&& ~~~descLengthMask)
              flags := bits.2 &&& ~~~descFlagOwn }
          rxHead := (taken + q.arrived.length + 1) % 128 }) := by
      simp only [Device.step, Realtek.store, if_neg hown, haddr, hnext]
    rw [hspec, hdev]
    refine ⟨rfl, ?_⟩
    refine
      { txIdx := h.txIdx
        txHead := h.txHead
        rxIdx := h.rxIdx
        rxHead := by
          show _ = (taken + (q.arrived ++ [_]).length) % 128
          rw [List.length_append, List.length_singleton, Nat.add_assoc]
        tx := h.tx.keep ?_
        rx := h.rx.push hroom ?_ ?_ }
    · rintro i (_ | p) hi hold
      · exact hold
      · refine ⟨hold.1, hold.2.1, ?_⟩
        show (Mem.putBytes _ _ _).bytes _ _ = p
        rw [Mem.putBytes, bytes_put_apart hb.apart hi hhead hf (hold.2.1.trans (by decide))]
        exact hold.2.2
    · rw [← h.rxHead]
      refine ⟨?_, hf, Mem.bytes_putBytes _ _ _⟩
      show Written (Function.update s.rxDesc s.rxHead _ s.rxHead) _
      rw [Function.update_self]
      exact written_store _ hf bits
    · rw [← h.rxHead]
      rintro i (_ | f) hi hne hold
      · show Function.update s.rxDesc s.rxHead _ i = _
        rw [Function.update_of_ne hne]
        exact hold
      · refine ⟨?_, hold.2.1, ?_⟩
        · show Written (Function.update s.rxDesc s.rxHead _ i) f
          rw [Function.update_of_ne hne]
          exact hold.1
        · show (Mem.putBytes _ _ _).bytes _ _ = f.1
          rw [Mem.putBytes, bytes_put_other hne hf hold.2.1]
          exact hold.2.2

/-- After `receive` has looked at a frame. -/
theorem Shows.prepareRx (hb : b.Apart) {f : List UInt8 × Bool} {rest : List (List UInt8 × Bool)}
    (h : Shows b s ⟨q.sending, f :: rest⟩ sent taken) :
    Shows b (Realtek.prepareRx b.rxBuffer s.rxIdx { s with rxIdx := (s.rxIdx + 1) % nRxDesc })
      ⟨q.sending, rest⟩ sent (taken + 1) := by
  have hidx : s.rxIdx < 128 := by
    rw [h.rxIdx]
    exact Nat.mod_lt _ (by decide)
  refine
    { txIdx := h.txIdx
      txHead := h.txHead
      rxIdx := by
        show (s.rxIdx + 1) % 128 = _
        rw [h.rxIdx, Nat.mod_add_mod]
      rxHead := by
        show s.rxHead = _
        rw [h.rxHead]
        show (taken + (rest.length + 1)) % 128 = (taken + 1 + rest.length) % 128
        congr 1
        omega
      tx := h.tx.keep ?_
      rx := h.rx.pop ?_ ?_ }
  · rintro i (_ | p) hi hold
    · exact hold
    · refine ⟨hold.1, hold.2.1, ?_⟩
      show (Mem.memset _ _ _ _).bytes _ _ = p
      rw [Mem.memset, bytes_put_apart hb.apart hi hidx (by decide) (hold.2.1.trans (by decide))]
      exact hold.2.2
  · rw [← h.rxIdx]
    show Function.update s.rxDesc s.rxIdx _ s.rxIdx = _
    rw [Function.update_self]
  · rw [← h.rxIdx]
    rintro i (_ | f') hi hne hold
    · show Function.update s.rxDesc s.rxIdx _ i = _
      rw [Function.update_of_ne hne]
      exact hold
    · refine ⟨?_, hold.2.1, ?_⟩
      · show Written (Function.update s.rxDesc s.rxIdx _ i) f'
        rw [Function.update_of_ne hne]
        exact hold.1
      · show (Mem.memset _ _ _ _).bytes _ _ = f'.1
        rw [Mem.memset, bytes_put_other hne (by decide) hold.2.1]
        exact hold.2.2

/-- `receive`. -/
theorem Shows.receive (hb : b.Apart) (h : Shows b s q sent taken) :
    (s.step b .receive).1 = (q.step .receive).1 ∧
      ∃ taken', Shows b (s.step b .receive).2 (q.step .receive).2 sent taken' := by
  have hslot := h.rx.head (by decide)
  rw [← h.rxIdx] at hslot
  obtain ⟨sending, arrived⟩ := q
  cases arrived with
  | nil =>
      have hdesc : s.rxDesc s.rxIdx = prepareRxDescriptor b.rxBuffer s.rxIdx := hslot
      have hown : (s.rxDesc s.rxIdx).flags &&& descFlagOwn ≠ 0 := by
        rw [hdesc]
        exact own_prepareRx _ _
      have hdev : s.step b .receive = (.bytes none, s) := by
        simp only [Device.step, Realtek.receive, if_pos hown]
      rw [hdev]
      exact ⟨rfl, taken, h⟩
  | cons f rest =>
      obtain ⟨hw, -, hbytes⟩ : RxSlot b.rxBuffer s s.rxIdx (some f) := hslot
      have hown : ¬(s.rxDesc s.rxIdx).flags &&& descFlagOwn ≠ 0 := fun hc => hc hw.own
      have hdev : s.step b .receive = (.bytes (deliver f),
          Realtek.prepareRx b.rxBuffer s.rxIdx { s with rxIdx := (s.rxIdx + 1) % nRxDesc }) := by
        simp only [Device.step, Realtek.receive, if_neg hown, deliver, hw.length, hw.error, hbytes]
        by_cases herr : f.2 = true
        · simp only [if_pos herr, if_pos (Or.inl herr : f.2 = true ∨ f.1.length > 1500)]
        · by_cases hlong : f.1.length > 1500
          · simp only [if_neg herr, if_pos hlong,
              if_pos (Or.inr hlong : f.2 = true ∨ f.1.length > 1500)]
          · simp only [if_neg herr, if_neg hlong,
              if_neg (fun hc => hc.elim herr hlong : ¬(f.2 = true ∨ f.1.length > 1500))]
      rw [hdev]
      exact ⟨rfl, taken + 1, h.prepareRx hb⟩

end Steps

/-! ### The rings after `rtl_init` -/

/-- The receive ring after some descriptors have been prepared. -/
theorem rxDesc_prepared (rxBuffer : UInt64) (k : Nat) (s : Device) :
    let done := (List.range k).foldl (fun s i => prepareRx rxBuffer i s) s
    (∀ i, i < k → done.rxDesc i = prepareRxDescriptor rxBuffer i) ∧
      done.txIdx = s.txIdx ∧ done.rxIdx = s.rxIdx ∧ done.txDesc = s.txDesc ∧
      done.txHead = s.txHead ∧ done.rxHead = s.rxHead := by
  induction k with
  | zero => exact ⟨fun i hi => absurd hi (Nat.not_lt_zero i), rfl, rfl, rfl, rfl, rfl⟩
  | succ k ih =>
      rw [List.range_succ, List.foldl_append]
      obtain ⟨hdesc, hrest⟩ := ih
      refine ⟨fun i hi => ?_, hrest⟩
      show Function.update _ k _ i = _
      by_cases hik : i = k
      · subst hik
        rw [Function.update_self]
      · rw [Function.update_of_ne hik]
        exact hdesc i (by omega)

theorem shows_start (b : Blocks) (mem : Mem) : Shows b (start b mem) ⟨[], []⟩ 0 0 := by
  obtain ⟨hdesc, htxIdx, hrxIdx, htxDesc, htxHead, hrxHead⟩ := rxDesc_prepared b.rxBuffer 128
    { txIdx := 0, txDesc := fun _ => zeroDescriptor, mem
      rxIdx := 0, rxDesc := fun _ => zeroDescriptor, txHead := 0, rxHead := 0 }
  refine ⟨htxIdx, htxHead, hrxIdx, hrxHead, Holds.empty fun i _ => ?_, Holds.empty hdesc⟩
  show ((start b mem).txDesc i).flags &&& descFlagOwn = 0
  have hzero : (start b mem).txDesc = fun _ => zeroDescriptor := htxDesc
  rw [hzero]
  show (0 : UInt16) &&& descFlagOwn = 0
  decide

/-- One step of the device is one step of the queues. -/
theorem simulates {b : Blocks} (hb : b.Apart) :
    Simulation.Simulates (Device.step b) Queues.step Request.Fits
      fun s q => ∃ sent taken, Shows b s q sent taken where
  answer r s q hok h := by
    obtain ⟨sent, taken, h⟩ := h
    cases r with
    | send buf len => exact (h.send hb buf len).1
    | receive => exact (h.receive hb).1
    | transmit => exact (h.transmit hb).1
    | store frame bits => exact (h.store hb hok bits).1
  keeps r s q hok h := by
    obtain ⟨sent, taken, h⟩ := h
    cases r with
    | send buf len => exact ⟨sent, taken, (h.send hb buf len).2⟩
    | receive => exact ⟨sent, (h.receive hb).2⟩
    | transmit =>
        obtain ⟨sent', h'⟩ := (h.transmit hb).2
        exact ⟨sent', taken, h'⟩
    | store frame bits => exact ⟨sent, taken, (h.store hb hok bits).2⟩

/-- The blocks lie one after the other in an empty buffer. -/
theorem allocBlocks_init {buffer : UInt64} (hfit : buffer.toNat + 1310720 ≤ 4194304) :
    ∃ blocks dma, allocBlocks (DMA.init buffer) = (some blocks, dma) ∧
      blocks.rxDesc.toNat = buffer.toNat ∧ blocks.txDesc.toNat = buffer.toNat + 4096 ∧
      blocks.rxBuffer.toNat = buffer.toNat + 8192 ∧
      blocks.txBuffer.toNat = buffer.toNat + 204800 := by
  -- one allocation, of a size that is known in pages
  have hone : ∀ (ptr size : UInt64) (n : Nat), size.toNat ≤ 2000000 →
      Utils.pageUp size.toNat = n → buffer.toNat ≤ ptr.toNat →
      ptr.toNat + n ≤ buffer.toNat + 1310720 →
      ∃ ptr' : UInt64, ptr'.toNat = ptr.toNat + n ∧
        DMA.alloc size ⟨buffer, ptr⟩ = (some ptr, ⟨buffer, ptr'⟩) := by
    rintro ptr size n hsize rfl hlo hhi
    have hbound : DMA.Bounded ⟨buffer, ptr⟩ size :=
      ⟨UInt64.le_iff_toNat_le.mpr hlo, by
        show ptr.toNat ≤ buffer.toNat + 1310720
        omega, by
        show buffer.toNat + 1310720 + size.toNat + 4096 ≤ 2 ^ 64
        omega⟩
    rcases DMA.alloc_cases hbound with ⟨hfull, -⟩ | ⟨ptr', hval, -, halloc⟩
    · have hfull' : buffer.toNat + 1310720 < ptr.toNat + Utils.pageUp size.toNat := hfull
      omega
    · exact ⟨ptr', hval, halloc⟩
  obtain ⟨p1, hp1, h1⟩ := hone buffer rxDescBytes 4096 (by decide)
    (by decide) (Nat.le_refl _) (by omega)
  obtain ⟨p2, hp2, h2⟩ := hone p1 txDescBytes 4096 (by decide)
    (by decide) (by omega) (by omega)
  obtain ⟨p3, hp3, h3⟩ := hone p2 rxBufferBytes 196608 (by decide)
    (by decide) (by omega) (by omega)
  obtain ⟨p4, hp4, h4⟩ := hone p3 txBufferBytes 196608 (by decide)
    (by decide) (by omega) (by omega)
  have hp2' : p2.toNat = buffer.toNat + 8192 := by omega
  have hp3' : p3.toNat = buffer.toNat + 204800 := by omega
  refine ⟨⟨buffer, p1, p2, p3⟩, ⟨buffer, p4⟩, ?_, rfl, hp1, hp2', hp3'⟩
  unfold allocBlocks
  rw [DMA.init, DMA.withBlock_some h1, DMA.withBlock_some h2, DMA.withBlock_some h3,
    DMA.withBlock_some h4]

/-- **The driver and the NIC are two queues**, in every order of calls and of steps of the NIC.
The buffers come from `dma_buffer`, in the kernel's own memory. -/
theorem rings_are_queues {dmaBuffer : UInt64} (hfit : dmaBuffer.toNat + 1310720 ≤ 4194304)
    (mem : Mem) :
    ∃ blocks dma, allocBlocks (DMA.init dmaBuffer) = (some blocks, dma) ∧
      ∀ requests : List Request, (∀ r ∈ requests, r.Fits) →
        (Simulation.run (Device.step blocks) requests (start blocks mem)).1
          = (Simulation.run Queues.step requests ⟨[], []⟩).1 := by
  obtain ⟨blocks, dma, halloc, -, -, hrx, htx⟩ := allocBlocks_init hfit
  have hb : blocks.Apart := ⟨by omega, by omega, .inr (by omega)⟩
  exact ⟨blocks, dma, halloc, fun requests hok =>
    ((simulates hb).answers requests hok ⟨0, 0, shows_start blocks mem⟩).1⟩

/-- With the buffer at 2 MiB, a frame of two bytes is received once. -/
theorem rings_are_queues_receive :
    ∃ blocks dma, allocBlocks (DMA.init 0x200000) = (some blocks, dma) ∧
      (Simulation.run (Device.step blocks) [.receive, .store [7, 8] (0, 0), .receive, .receive]
        (start blocks fun _ => 0)).1
        = [.bytes none, .stored true, .bytes (some [7, 8]), .bytes none] := by
  obtain ⟨blocks, dma, halloc, hrun⟩ := @rings_are_queues 0x200000 (by decide) fun _ => 0
  refine ⟨blocks, dma, halloc, (hrun _ ?_).trans rfl⟩
  intro r hr
  simp only [List.mem_cons, List.not_mem_nil, or_false] at hr
  rcases hr with rfl | rfl | rfl | rfl
  · trivial
  · show 2 ≤ 1536
    decide
  · trivial
  · trivial

end Realtek

end JudgeDuck
