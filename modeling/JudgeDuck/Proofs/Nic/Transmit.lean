/-
The transmit rings of `e1000` and `i211`.

Every index of the ring is a counter modulo 256: how many packets were accepted, how
many of them are published in TDT, how many the NIC has sent, and how many it had
sent when the driver last looked.  They are ordered, and the last one is at most 255
behind the first (`TxInv`).  From this invariant, kept by every step, the wire is a
prefix of what was accepted, and no slot between the NIC's head and the driver's
index is ever written.
-/
import JudgeDuck.Base.Ring
import JudgeDuck.Model.Nic

namespace JudgeDuck.Nic

open Ring

variable {D : Type} {d : TxDriver D}

theorem toNat_ringSize : ringSize.toNat = 256 := rfl

/-- What the driver writes for a packet is what the NIC reads, and buffers do not overlap. -/
structure TxDriver.Ok (d : TxDriver D) : Prop where
  fetch : ∀ i n, i < 256 → n ≤ 1500 → d.fetch (d.prepare i n) = (d.buffer i, n)
  apart : ∀ i j, i < 256 → j < 256 → i ≠ j →
    (d.buffer i).toNat + bufferSize ≤ (d.buffer j).toNat ∨
    (d.buffer j).toNat + bufferSize ≤ (d.buffer i).toNat

/-- The bytes of a packet given to `send`. -/
def packet (buf : Nat → UInt8) (cnt : Int) : List UInt8 := (List.range cnt.toNat).map buf

theorem length_packet (buf : Nat → UInt8) (cnt : Int) : (packet buf cnt).length = cnt.toNat := by
  simp [packet]

/-- A run of the driver and its NIC after the init function, with the packets for which `send` has
returned 0. -/
inductive TxRun (d : TxDriver D) (publish : TxRing D → TxRing D) :
    TxRing D → List (List UInt8) → Prop
  | start (tq : Nat → D) (mem : Mem) : TxRun d publish (TxRing.start tq mem) []
  | accept {s acc} (buf : Nat → UInt8) (cnt : Int) (h : TxRun d publish s acc)
      (hr : (s.send d publish buf cnt).1 = 0) :
      TxRun d publish (s.send d publish buf cnt).2 (acc ++ [packet buf cnt])
  | refuse {s acc} (buf : Nat → UInt8) (cnt : Int) (h : TxRun d publish s acc)
      (hr : (s.send d publish buf cnt).1 ≠ 0) :
      TxRun d publish (s.send d publish buf cnt).2 acc
  | flush {s acc} (h : TxRun d publish s acc) : TxRun d publish s.flush acc
  | consume {s acc} (h : TxRun d publish s acc) : TxRun d publish (s.consume d) acc

/-- The slot of counter `i` holds the packet `p`. -/
structure Slot (d : TxDriver D) (s : TxRing D) (i : Nat) (p : List UInt8) : Prop where
  length : p.length ≤ 1500
  fetch : d.fetch (s.tq (i % 256)) = (d.buffer (i % 256), p.length)
  bytes : s.mem.bytes (d.buffer (i % 256)).toNat p.length = p

/-- The counters behind the indices: `head` is what the driver last read from TDH. -/
structure TxInv (d : TxDriver D) (s : TxRing D) (acc : List (List UInt8)) (head pub : Nat) :
    Prop where
  nextIdx : At ringSize s.nextIdx acc.length
  published : At ringSize s.published pub
  regTDT : s.regTDT = s.published
  tdh : At ringSize s.tdh head
  regTDH : At ringSize s.regTDH s.wire.length
  head_le : head ≤ s.wire.length
  wire_le : s.wire.length ≤ pub
  pub_le : pub ≤ acc.length
  room : acc.length ≤ head + 255
  wire : s.wire = acc.take s.wire.length
  slots : ∀ i (h : i < acc.length), s.wire.length ≤ i → Slot d s i acc[i]

theorem TxInv.start (d : TxDriver D) (tq : Nat → D) (mem : Mem) :
    TxInv d (TxRing.start tq mem) [] 0 0 where
  nextIdx := rfl
  published := rfl
  regTDT := rfl
  tdh := rfl
  regTDH := rfl
  head_le := Nat.le_refl _
  wire_le := Nat.le_refl _
  pub_le := Nat.le_refl _
  room := Nat.zero_le _
  wire := rfl
  slots i hi := absurd hi (Nat.not_lt_zero i)

namespace TxInv

variable {s : TxRing D} {acc : List (List UInt8)} {head pub : Nat}

/-- The tail moves up to the index. -/
theorem publish (h : TxInv d s acc head pub) : TxInv d s.publish acc head acc.length where
  nextIdx := h.nextIdx
  published := h.nextIdx
  regTDT := rfl
  tdh := h.tdh
  regTDH := h.regTDH
  head_le := h.head_le
  wire_le := Nat.le_trans h.wire_le h.pub_le
  pub_le := Nat.le_refl _
  room := h.room
  wire := h.wire
  slots i hi hw := ⟨(h.slots i hi hw).length, (h.slots i hi hw).fetch, (h.slots i hi hw).bytes⟩

/-- The packet at the head of the ring goes to the wire. -/
theorem consume (h : TxInv d s acc head pub) (hne : s.wire.length < pub) :
    TxInv d (s.consume d) acc head pub ∧
    (s.consume d).wire.length = s.wire.length + 1 := by
  have hroom := h.room
  have hhead := h.head_le
  have hpub := h.pub_le
  have hTDT : At ringSize s.regTDT pub := by
    rw [h.regTDT]
    exact h.published
  have hlt : s.wire.length < acc.length := by omega
  have hneq : s.regTDH ≠ s.regTDT := by
    rw [Ne, h.regTDH.eq_iff hTDT (by omega) (by rw [toNat_ringSize]; omega)]
    omega
  obtain ⟨hlen, hfetch, hbytes⟩ := h.slots _ hlt (Nat.le_refl _)
  have hidx : s.regTDH.toNat = s.wire.length % 256 := h.regTDH
  have hc : s.consume d = { s with
      wire := s.wire ++ [acc[s.wire.length]]
      regTDH := (s.regTDH + 1) % ringSize } := by
    unfold TxRing.consume
    rw [if_neg hneq]
    dsimp only
    rw [hidx, hfetch, hbytes]
  rw [hc]
  refine ⟨?_, by simp⟩
  exact
    { nextIdx := h.nextIdx
      published := h.published
      regTDT := h.regTDT
      tdh := h.tdh
      regTDH := by
        have := h.regTDH.next (by decide)
        simpa using this
      head_le := by simp; omega
      wire_le := by simpa using hne
      pub_le := hpub
      room := hroom
      wire := by
        have hw := h.wire
        simp only [List.length_append, List.length_singleton]
        rw [List.take_succ_eq_append_getElem hlt, ← hw]
      slots := fun i hi hw => by
        have hs := h.slots i hi (by simp at hw; omega)
        exact ⟨hs.length, hs.fetch, hs.bytes⟩ }

/-- With all published packets sent, the NIC waits. -/
theorem consume_idle (h : TxInv d s acc head pub) (he : s.wire.length = pub) :
    s.consume d = s := by
  have hTDT : At ringSize s.regTDT pub := by
    rw [h.regTDT]
    exact h.published
  unfold TxRing.consume
  rw [if_pos]
  rw [h.regTDH.eq_iff hTDT (Nat.le_of_eq he) (by rw [toNat_ringSize]; omega)]
  exact he

end TxInv

/-! ### One call of `send` -/

/-- The driver looks at TDH again when the ring seems full. -/
def TxRing.refresh (s : TxRing D) : TxRing D :=
  if (s.nextIdx + 1) % ringSize = s.tdh then { s with tdh := s.regTDH } else s

/-- The packet and its descriptor, before the tail is published. -/
def TxRing.enqueue (d : TxDriver D) (buf : Nat → UInt8) (cnt : Int) (s : TxRing D) : TxRing D :=
  { s with
    mem := s.mem.put (d.buffer s.nextIdx.toNat).toNat cnt.toNat buf
    tq := Function.update s.tq s.nextIdx.toNat (d.prepare s.nextIdx.toNat cnt.toNat)
    nextIdx := (s.nextIdx + 1) % ringSize }

/-- What a call does: it refuses the length, finds the ring full, or accepts the packet. -/
theorem send_cases (d : TxDriver D) (publish : TxRing D → TxRing D) (buf : Nat → UInt8) (cnt : Int)
    (s : TxRing D) :
    ((cnt < 0 ∨ cnt > 1500) ∧ s.send d publish buf cnt = (-1, s)) ∨
    ((0 ≤ cnt ∧ cnt ≤ 1500) ∧ (s.refresh.nextIdx + 1) % ringSize = s.refresh.tdh ∧
      s.send d publish buf cnt = (-1, s.refresh)) ∨
    ((0 ≤ cnt ∧ cnt ≤ 1500) ∧ (s.refresh.nextIdx + 1) % ringSize ≠ s.refresh.tdh ∧
      s.send d publish buf cnt = (0,
        if (s.refresh.enqueue d buf cnt).nextIdx % tqFlushCount = 0 then
          publish (s.refresh.enqueue d buf cnt)
        else s.refresh.enqueue d buf cnt)) := by
  by_cases hc : cnt < 0 ∨ cnt > 1500
  · exact Or.inl ⟨hc, if_pos hc⟩
  · have hr : 0 ≤ cnt ∧ cnt ≤ 1500 := by omega
    have hsend : s.send d publish buf cnt
        = if (s.refresh.nextIdx + 1) % ringSize = s.refresh.tdh then (-1, s.refresh)
          else (0, if (s.refresh.enqueue d buf cnt).nextIdx % tqFlushCount = 0 then
            publish (s.refresh.enqueue d buf cnt) else s.refresh.enqueue d buf cnt) := if_neg hc
    by_cases hf : (s.refresh.nextIdx + 1) % ringSize = s.refresh.tdh
    · exact Or.inr (Or.inl ⟨hr, hf, by rw [hsend, if_pos hf]⟩)
    · exact Or.inr (Or.inr ⟨hr, hf, by rw [hsend, if_neg hf]⟩)

namespace TxInv

variable {s : TxRing D} {acc : List (List UInt8)} {head pub : Nat}

/-- The index is one before the head that was read exactly when 255 packets are outstanding. -/
theorem full_iff (h : TxInv d s acc head pub) :
    (s.nextIdx + 1) % ringSize = s.tdh ↔ acc.length = head + 255 := by
  have h1 := h.head_le
  have h2 := h.wire_le
  have h3 := h.pub_le
  have h4 := h.room
  have hhead : At ringSize s.tdh (head + 256) := by
    have := h.tdh
    unfold At at this ⊢
    rw [this, toNat_ringSize, Nat.add_mod_right]
  rw [(h.nextIdx.next (by decide)).eq_iff hhead (by omega) (by rw [toNat_ringSize]; omega)]
  omega

/-- Looking at TDH moves only the head that was read. -/
theorem refresh (h : TxInv d s acc head pub) :
    ∃ head', TxInv d s.refresh acc head' pub ∧
      (acc.length = head' + 255 → head' = s.wire.length) := by
  have h1 := h.head_le
  have h2 := h.wire_le
  have h3 := h.pub_le
  have h4 := h.room
  unfold TxRing.refresh
  split
  · exact ⟨s.wire.length,
      { nextIdx := h.nextIdx
        published := h.published
        regTDT := h.regTDT
        tdh := h.regTDH
        regTDH := h.regTDH
        head_le := Nat.le_refl _
        wire_le := h2
        pub_le := h3
        room := by omega
        wire := h.wire
        slots := fun i hi hw => ⟨(h.slots i hi hw).length, (h.slots i hi hw).fetch,
          (h.slots i hi hw).bytes⟩ }, fun _ => rfl⟩
  · rename_i hf
    rw [h.full_iff] at hf
    exact ⟨head, h, fun hc => absurd hc hf⟩

/-- The slot of the next packet is not one that the NIC still needs. -/
theorem index_ne (h : TxInv d s acc head pub) {i : Nat} (hi : i < acc.length)
    (hw : s.wire.length ≤ i) : i % 256 ≠ s.nextIdx.toNat := by
  have h1 := h.head_le
  have h4 := h.room
  have hidx : s.nextIdx.toNat = acc.length % 256 := h.nextIdx
  intro hc
  have := eq_of_mod_eq (Nat.le_of_lt hi) (by omega) (hc.trans hidx)
  omega

/-- A packet and its descriptor go to the free slot; all others keep theirs. -/
theorem enqueue (hd : d.Ok) (h : TxInv d s acc head pub) (hroom : acc.length ≠ head + 255)
    (buf : Nat → UInt8) {cnt : Int} (hcnt : 0 ≤ cnt ∧ cnt ≤ 1500) :
    TxInv d (s.enqueue d buf cnt) (acc ++ [packet buf cnt]) head pub := by
  have h2 := h.wire_le
  have h3 := h.pub_le
  have h4 := h.room
  have hn : cnt.toNat ≤ 1500 := by omega
  have hidx : s.nextIdx.toNat = acc.length % 256 := h.nextIdx
  have hlt : s.nextIdx.toNat < 256 := h.nextIdx.lt (by decide)
  refine
    { nextIdx := by
        have := h.nextIdx.next (by decide)
        rw [List.length_append]
        exact this
      published := h.published
      regTDT := h.regTDT
      tdh := h.tdh
      regTDH := h.regTDH
      head_le := h.head_le
      wire_le := h2
      pub_le := by rw [List.length_append]; omega
      room := by rw [List.length_append, List.length_singleton]; omega
      wire := by
        show s.wire = (acc ++ [packet buf cnt]).take s.wire.length
        rw [List.take_append_of_le_length (Nat.le_trans h2 h3)]
        exact h.wire
      slots := fun i hi hw => ?_ }
  by_cases hi' : i < acc.length
  · -- a slot that the NIC still needs: neither its descriptor nor its buffer is touched
    have hs := h.slots i hi' hw
    have hne := h.index_ne hi' hw
    rw [List.getElem_append_left hi']
    refine ⟨hs.length, ?_, ?_⟩
    · show d.fetch (Function.update s.tq _ _ (i % 256)) = _
      rw [Function.update_of_ne hne, hs.fetch]
    · refine (Mem.bytes_congr fun x hx1 hx2 => ?_).trans hs.bytes
      have hlen := hs.length
      have := hd.apart _ _ (Nat.mod_lt i (by decide)) hlt hne
      exact Mem.put_out (by unfold bufferSize at this; omega)
  · have hi'' : i = acc.length := by
      rw [List.length_append, List.length_singleton] at hi
      omega
    subst hi''
    rw [List.getElem_append_right (Nat.le_refl _)]
    simp only [Nat.sub_self, List.getElem_cons_zero]
    refine ⟨by rw [length_packet]; exact hn, ?_, ?_⟩
    · show d.fetch (Function.update s.tq _ _ (acc.length % 256)) = _
      rw [← hidx, Function.update_self, hd.fetch _ _ hlt hn, length_packet]
    · rw [← hidx, length_packet]
      refine List.ext_getElem (by simp [packet]) fun j hj1 hj2 => ?_
      rw [Mem.length_bytes] at hj1
      rw [Mem.getElem_bytes]
      show s.mem.put _ _ buf (_ + j) = _
      rw [Mem.put_add hj1]
      simp [packet]

end TxInv

/-! ### Runs -/

/-- How a driver publishes inside `send`: unconditionally, or through `flush`. -/
def Publishes (publish : TxRing D → TxRing D) : Prop :=
  ∀ s : TxRing D, s.regTDT = s.published → publish s = s.publish

theorem publishes_publish : Publishes (TxRing.publish (D := D)) := fun _ _ => rfl

theorem publishes_flush : Publishes (TxRing.flush (D := D)) := by
  intro s hs
  unfold TxRing.flush
  split
  · rename_i heq
    obtain ⟨nextIdx, published, tdh, tq, mem, regTDT, regTDH, wire⟩ := s
    dsimp only at heq hs
    subst heq hs
    rfl
  · rfl

/-- The invariant holds in every run. -/
theorem TxRun.inv {publish : TxRing D → TxRing D} (hd : d.Ok) (hp : Publishes publish)
    {s : TxRing D} {acc : List (List UInt8)} (h : TxRun d publish s acc) : ∃ head pub,
      TxInv d s acc head pub := by
  induction h with
  | start tq mem => exact ⟨0, 0, TxInv.start d tq mem⟩
  | @accept s acc buf cnt _ hr ih =>
      obtain ⟨head, pub, h⟩ := ih
      obtain ⟨head', h', -⟩ := h.refresh
      rcases send_cases d publish buf cnt s with ⟨-, hs⟩ | ⟨-, -, hs⟩ | ⟨hcnt, hf, hs⟩
      · rw [hs] at hr
        simp at hr
      · rw [hs] at hr
        simp at hr
      · rw [hs]
        rw [Ne, h'.full_iff] at hf
        have hq := h'.enqueue hd hf buf hcnt
        dsimp only
        split
        · rw [hp _ hq.regTDT]
          exact ⟨_, _, hq.publish⟩
        · exact ⟨_, _, hq⟩
  | @refuse s acc buf cnt _ hr ih =>
      obtain ⟨head, pub, h⟩ := ih
      obtain ⟨head', h', -⟩ := h.refresh
      rcases send_cases d publish buf cnt s with ⟨-, hs⟩ | ⟨-, -, hs⟩ | ⟨-, -, hs⟩
      · rw [hs]
        exact ⟨_, _, h⟩
      · rw [hs]
        exact ⟨_, _, h'⟩
      · rw [hs] at hr
        exact absurd rfl hr
  | flush _ ih =>
      obtain ⟨head, pub, h⟩ := ih
      rw [publishes_flush _ h.regTDT]
      exact ⟨_, _, h.publish⟩
  | consume _ ih =>
      obtain ⟨head, pub, h⟩ := ih
      rcases Nat.lt_or_eq_of_le h.wire_le with hlt | heq
      · exact ⟨_, _, (h.consume hlt).1⟩
      · rw [h.consume_idle heq]
        exact ⟨_, _, h⟩

/-- Once everything is published, the NIC sends it all. -/
theorem TxInv.drain {acc : List (List UInt8)} {head : Nat} :
    ∀ (k : Nat) (s : TxRing D), TxInv d s acc head acc.length → s.wire.length + k = acc.length →
      ((TxRing.consume d)^[k] s).wire = acc := by
  intro k
  induction k with
  | zero =>
      intro s h hk
      have hw := h.wire
      rw [show s.wire.length = acc.length by omega, List.take_length] at hw
      exact hw
  | succ k ih =>
      intro s h hk
      obtain ⟨h', hlen⟩ := h.consume (by omega)
      rw [Function.iterate_succ_apply]
      exact ih _ h' (by omega)

/-- A transmit ring that loses, repeats, reorders and corrupts nothing. -/
structure TxSafe (d : TxDriver D) (publish : TxRing D → TxRing D) (s : TxRing D)
    (acc : List (List UInt8)) : Prop where
  /-- The NIC has sent a prefix of the accepted packets: each at most once, in order, unchanged. -/
  wire : s.wire <+: acc
  /-- `send` writes neither a descriptor nor a buffer that the NIC has not consumed. -/
  untouched : ∀ buf cnt i, s.wire.length ≤ i → i < acc.length →
    (s.send d publish buf cnt).2.tq (i % 256) = s.tq (i % 256) ∧
    ∀ x, (d.buffer (i % 256)).toNat ≤ x → x < (d.buffer (i % 256)).toNat + bufferSize →
      (s.send d publish buf cnt).2.mem x = s.mem x
  /-- It refuses an admissible packet only when 255 descriptors are outstanding. -/
  refuses : ∀ buf (cnt : Int), 0 ≤ cnt → cnt ≤ 1500 → (s.send d publish buf cnt).1 ≠ 0 →
    acc.length = s.wire.length + 255
  /-- After `flush` the tail is behind the last accepted packet, and the NIC sends all of them. -/
  flushed : At ringSize s.flush.regTDT acc.length ∧
    ((TxRing.consume d)^[acc.length - s.wire.length] s.flush).wire = acc

theorem TxRun.safe {publish : TxRing D → TxRing D} (hd : d.Ok) (hp : Publishes publish)
    {s : TxRing D} {acc : List (List UInt8)}
    (h : TxRun d publish s acc) : TxSafe d publish s acc := by
  obtain ⟨head, pub, hinv⟩ := h.inv hd hp
  have hle : s.wire.length ≤ acc.length := Nat.le_trans hinv.wire_le hinv.pub_le
  refine ⟨?_, ?_, ?_, ?_⟩
  · rw [hinv.wire]
    exact List.take_prefix _ _
  · intro buf cnt i hw hi
    have hkeep : s.refresh.tq = s.tq ∧ s.refresh.mem = s.mem ∧ s.refresh.nextIdx = s.nextIdx := by
      unfold TxRing.refresh
      split
      · exact ⟨rfl, rfl, rfl⟩
      · exact ⟨rfl, rfl, rfl⟩
    obtain ⟨htq, hmem, hidx⟩ := hkeep
    have hne := hinv.index_ne hi hw
    rcases send_cases d publish buf cnt s with ⟨-, hs⟩ | ⟨-, -, hs⟩ | ⟨hcnt, hf, hs⟩
    · rw [hs]
      exact ⟨rfl, fun _ _ _ => rfl⟩
    · rw [hs, htq, hmem]
      exact ⟨rfl, fun _ _ _ => rfl⟩
    · obtain ⟨head', h', -⟩ := hinv.refresh
      rw [Ne, h'.full_iff] at hf
      have hq := h'.enqueue hd hf buf hcnt
      have hpub : ∀ t, t = (s.send d publish buf cnt).2 →
          t.tq = (s.refresh.enqueue d buf cnt).tq ∧ t.mem = (s.refresh.enqueue d buf cnt).mem := by
        intro t ht
        rw [ht, hs]
        dsimp only
        split
        · rw [hp _ hq.regTDT]
          exact ⟨rfl, rfl⟩
        · exact ⟨rfl, rfl⟩
      obtain ⟨htq', hmem'⟩ := hpub _ rfl
      rw [htq', hmem']
      constructor
      · show Function.update s.refresh.tq _ _ (i % 256) = _
        rw [hidx, Function.update_of_ne hne, htq]
      · intro x hx1 hx2
        have hlt : s.nextIdx.toNat < 256 := hinv.nextIdx.lt (by decide)
        have := hd.apart _ _ (Nat.mod_lt i (by decide)) hlt hne
        show s.refresh.mem.put _ _ buf x = _
        rw [hidx, hmem]
        exact Mem.put_out (by unfold bufferSize at this hx2; omega)
  · intro buf cnt h1 h2 hr
    obtain ⟨head', h', hhead⟩ := hinv.refresh
    rcases send_cases d publish buf cnt s with ⟨hc, -⟩ | ⟨-, hf, -⟩ | ⟨-, -, hs⟩
    · omega
    · rw [h'.full_iff] at hf
      have := hhead hf
      omega
    · rw [hs] at hr
      exact absurd rfl hr
  · rw [publishes_flush _ hinv.regTDT]
    exact ⟨hinv.nextIdx, TxInv.drain _ _ hinv.publish (by show s.wire.length + _ = _; omega)⟩

/-! ### The two drivers -/

/-- Buffers in the kernel's own memory, below 4 MiB. -/
theorem bufferAddr_toNat {base : UInt64} (hb : base.toNat + 524288 ≤ 4194304) {i : Nat}
    (hi : i < 256) : (bufferAddr base i).toNat = base.toNat + i * 2048 := by
  have hi' : (UInt64.ofNat i).toNat = i := UInt64.toNat_ofNat_of_lt' (by
    show i < 2 ^ 64
    omega)
  have hmul : (UInt64.ofNat i * UInt64.ofNat bufferSize).toNat = i * 2048 := by
    rw [UInt64.toNat_mul, hi']
    show i * 2048 % 2 ^ 64 = _
    omega
  rw [bufferAddr, UInt64.toNat_add, hmul, Nat.mod_eq_of_lt (by omega)]

/-- An address below 4 GiB survives the cast to 32 bits. -/
theorem toUInt32_toUInt64_of_lt {a : UInt64} (h : a.toNat < 2 ^ 32) : a.toUInt32.toUInt64 = a := by
  refine UInt64.toNat.inj ?_
  rw [UInt32.toNat_toUInt64, UInt64.toNat_toUInt32, Nat.mod_eq_of_lt h]

theorem bufferAddr_apart {base : UInt64} (hb : base.toNat + 524288 ≤ 4194304) (i j : Nat)
    (hi : i < 256) (hj : j < 256) (hne : i ≠ j) :
    (bufferAddr base i).toNat + bufferSize ≤ (bufferAddr base j).toNat ∨
    (bufferAddr base j).toNat + bufferSize ≤ (bufferAddr base i).toNat := by
  rw [bufferAddr_toNat hb hi, bufferAddr_toNat hb hj]
  unfold bufferSize
  omega

theorem e1000_ok {tqBuf : UInt64} (hb : tqBuf.toNat + 524288 ≤ 4194304) : (E1000.tx tqBuf).Ok where
  fetch i n hi hn := by
    have haddr : (bufferAddr tqBuf i).toNat < 2 ^ 32 := by
      rw [bufferAddr_toNat hb hi]
      omega
    have hlen : (UInt16.ofNat n).toNat = n := UInt16.toNat_ofNat_of_lt' (by
      show n < 2 ^ 16
      omega)
    show ((bufferAddr tqBuf i).toUInt32.toUInt64, (UInt16.ofNat n).toNat) = (bufferAddr tqBuf i, n)
    rw [toUInt32_toUInt64_of_lt haddr, hlen]
  apart := bufferAddr_apart hb

theorem i211_ok {tqBuf : UInt64} (hb : tqBuf.toNat + 524288 ≤ 4194304) : (I211.tx tqBuf).Ok where
  fetch i n _ hn := by
    have hlen : (UInt32.ofNat n).toNat = n := UInt32.toNat_ofNat_of_lt' (by
      show n < 2 ^ 32
      omega)
    -- the command bits lie above DTALEN
    have hcmd : ((I211.prepareTxDescriptor (bufferAddr tqBuf i) (UInt32.ofNat n)).cmdTypeLen
        &&& 0xffff).toNat = n := by
      have hconst : (((3 : UInt32) <<< 20).toNat ||| ((((1 : UInt32) <<< 5) ||| ((1 : UInt32) <<< 1)
          ||| ((1 : UInt32) <<< 0)) <<< 24).toNat) &&& 65535 = 0 := by decide
      show ((UInt32.ofNat n ||| _ ||| _) &&& (65535 : UInt32)).toNat = n
      rw [UInt32.toNat_and, UInt32.toNat_or, UInt32.toNat_or, hlen, Nat.or_assoc]
      show (n ||| _) &&& 65535 = n
      rw [Nat.and_or_distrib_right, hconst, Nat.or_zero]
      exact (Nat.and_two_pow_sub_one_eq_mod n 16).trans (Nat.mod_eq_of_lt (by omega))
    exact congrArg (Prod.mk (bufferAddr tqBuf i)) hcmd
  apart := bufferAddr_apart hb

/-- Both drivers, in every interleaving of `send`, `flush` and the NIC.  The buffers come from
`DMA::alloc` and are static memory of the kernel. -/
theorem tx_safe {tqBuf : UInt64} (hb : tqBuf.toNat + 524288 ≤ 4194304) :
    (∀ s acc, TxRun (E1000.tx tqBuf) TxRing.publish s acc →
      TxSafe (E1000.tx tqBuf) TxRing.publish s acc) ∧
    (∀ s acc, TxRun (I211.tx tqBuf) TxRing.flush s acc →
      TxSafe (I211.tx tqBuf) TxRing.flush s acc) :=
  ⟨fun _ _ h => h.safe (e1000_ok hb) publishes_publish,
    fun _ _ h => h.safe (i211_ok hb) publishes_flush⟩

/-- A run that accepts a packet of one byte, with the buffers at 2 MiB. -/
theorem tx_safe_one : ∃ s, TxRun (E1000.tx 0x200000) TxRing.publish s [[7]] ∧
    TxSafe (E1000.tx 0x200000) TxRing.publish s [[7]] := by
  have hstart : TxRun (E1000.tx 0x200000) TxRing.publish
      (TxRing.start (fun _ => E1000.transDesc 0 0) fun _ => 0) [] := TxRun.start _ _
  have hrun := TxRun.accept (fun _ => 7) 1 hstart (by decide)
  exact ⟨_, hrun, (tx_safe (by decide)).1 _ _ hrun⟩

end JudgeDuck.Nic
