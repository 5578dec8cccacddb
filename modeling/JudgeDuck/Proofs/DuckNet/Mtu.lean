/-
Whether the stack and the drivers agree on the MTU.

The stack compares a payload and the headers above Ethernet with `ducknet_MTU`; the
drivers compare the whole frame, with its Ethernet header, with the same 1500.  So a
frame that the stack builds is accepted by the drivers just when it has no more than
1500 bytes, and the last 14 payload lengths that the stack accepts are lost.
-/
import JudgeDuck.Proofs.DuckNet.RoundTrip
import JudgeDuck.Proofs.DuckNet.ToSend
import JudgeDuck.Proofs.Nic.Transmit

namespace JudgeDuck

/-! ### What the drivers accept -/

/-- The descriptor after the last one is not the head, when the head is read again. -/
def Nic.TxRing.Free {D : Type} (s : Nic.TxRing D) : Prop :=
  (s.nextIdx + 1) % Nic.ringSize ≠ s.tdh ∨ (s.nextIdx + 1) % Nic.ringSize ≠ s.regTDH

/-- The next descriptor belongs to the driver. -/
def Realtek.TxState.Free (s : Realtek.TxState) : Prop :=
  (s.txDesc s.txIdx).flags &&& Realtek.descFlagOwn = 0

/-- Each of the drivers queues a frame of `n` bytes when it has a free descriptor. -/
structure QueuedByAll (n : Nat) : Prop where
  e1000 : ∀ (tqBuf : UInt64) (buf : Nat → UInt8) (s : Nic.TxRing E1000.TransDesc), s.Free →
    (E1000.send tqBuf buf n s).1 = 0
  i211 : ∀ (tqBuf : UInt64) (buf : Nat → UInt8) (s : Nic.TxRing I211.TransDesc), s.Free →
    (I211.send tqBuf buf n s).1 = 0
  realtek : ∀ (txBuffer : UInt64) (buf : Nat → UInt8) (s : Realtek.TxState), s.Free →
    (Realtek.send txBuffer buf n s).1 = 0

/-- With a free descriptor only the length matters. -/
theorem Nic.TxRing.Free.send {D : Type} {s : Nic.TxRing D} (h : s.Free) (d : Nic.TxDriver D)
    (publish : Nic.TxRing D → Nic.TxRing D) (buf : Nat → UInt8) {cnt : Int} (h0 : 0 ≤ cnt)
    (h1500 : cnt ≤ 1500) : (s.send d publish buf cnt).1 = 0 := by
  rcases Nic.send_cases d publish buf cnt s with ⟨hc, -⟩ | ⟨-, hfull, -⟩ | ⟨-, -, hsend⟩
  · omega
  · exfalso
    unfold Nic.TxRing.refresh at hfull
    by_cases hread : (s.nextIdx + 1) % Nic.ringSize = s.tdh
    · rw [if_pos hread] at hfull
      rcases h with hne | hne
      · exact hne hread
      · exact hne hfull
    · rw [if_neg hread] at hfull
      exact hread hfull
  · rw [hsend]

theorem queuedByAll_iff {n : Nat} : QueuedByAll n ↔ n ≤ 1500 := by
  constructor
  · intro h
    by_contra hlarge
    have hsend := h.e1000 0 (fun _ => 0) (Nic.TxRing.start (fun _ => ⟨0, 0, 0⟩) fun _ => 0)
      (.inl (by decide))
    rw [E1000.send, Nic.TxRing.send, if_pos (by omega)] at hsend
    exact absurd hsend (by decide)
  · intro h
    refine ⟨fun _ buf s hs => hs.send _ _ buf (by omega) (by omega),
      fun _ buf s hs => hs.send _ _ buf (by omega) (by omega), fun _ buf s hs => ?_⟩
    rw [Realtek.send, if_neg (by omega), if_neg (fun hc => hc hs)]

namespace DuckNet

/-! ### What the stack passes on -/

/-- The calls that send a payload. -/
inductive Call where
  | udp (dst : UInt32) (dport sport : UInt16) (payload : Mem) (len : Int)
  | ipv4 (dst : UInt32) (protocol : UInt8) (payload : Mem) (len : Int)
  | arp (dst : MACAddress) (op : UInt16) (payload : List UInt8)

namespace Call

def run (cfg : NetConfig) : Call → Net → Int × Net
  | .udp dst dport sport payload len => udpSend cfg dst dport sport payload len
  | .ipv4 dst protocol payload len => ipv4Send cfg dst protocol payload len
  | .arp dst op payload => arpSend cfg dst op payload

/-- The length of the payload. -/
def len : Call → Int
  | .udp _ _ _ _ len => len
  | .ipv4 _ _ _ len => len
  | .arp _ _ payload => payload.length

/-- The check against `ducknet_MTU`. -/
def Accepted : Call → Prop
  | .udp _ _ _ _ len => 0 ≤ len ∧ len + udpHeaderSize + ipv4HeaderSize ≤ mtu
  | .ipv4 _ _ _ len => 0 ≤ len ∧ len + ipv4HeaderSize ≤ mtu
  | .arp _ _ payload => (payload.length + arpHeaderSize : Int) ≤ mtu

/-- All headers of the frame. -/
def headers : Call → Nat
  | .udp .. => etherHeaderSize + ipv4HeaderSize + udpHeaderSize
  | .ipv4 .. => etherHeaderSize + ipv4HeaderSize
  | .arp .. => etherHeaderSize + arpHeaderSize

/-- The call in the state `s` passes a frame of `n` bytes to `ducknet_phy_send`: at once, or when a
sweep finds the MAC address for the slot that the call has filled. -/
inductive Passes (cfg : NetConfig) (c : Call) (s : Net) (n : Nat) : Prop
  | now {b : Buffer} {frame : List UInt8} :
      (b, frame) ∈ (c.run cfg s).2.sent.drop s.sent.length → frame.length = n → Passes cfg c s n
  | later {id : Nat} {s' : Net} {mac : MACAddress} {frame : List UInt8} :
      slotFree s.tosendFree id = true → slotFree (c.run cfg s).2.tosendFree id = false →
      s'.tosend id = (c.run cfg s).2.tosend id → slotCase s' id = .found mac →
      (ipv4IdleSlot cfg s' id).sent = s'.sent ++ [(.tosend id, frame)] → frame.length = n →
      Passes cfg c s n

/-- A payload that the stack accepts is never dropped by a driver for the size of its frame. -/
def Agrees (cfg : NetConfig) (c : Call) : Prop :=
  c.Accepted → ∀ s n, c.Passes cfg s n → QueuedByAll n

end Call

/-- All frames that were passed on between the two states have at most 1500 bytes. -/
def Small (s s' : Net) : Prop :=
  ∃ calls, s'.sent = s.sent ++ calls ∧ ∀ c ∈ calls, c.2.length ≤ 1500

theorem Small.same {s s' : Net} (h : s'.sent = s.sent) : Small s s' :=
  ⟨[], by rw [h, List.append_nil], by simp⟩

theorem Small.trans {s s' s'' : Net} (h : Small s s') (h' : Small s' s'') : Small s s'' := by
  obtain ⟨l, hl, hs⟩ := h
  obtain ⟨l', hl', hs'⟩ := h'
  refine ⟨l ++ l', by rw [hl', hl, List.append_assoc], fun c hc => ?_⟩
  rcases List.mem_append.mp hc with hc | hc
  · exact hs c hc
  · exact hs' c hc

theorem small_phySend (cfg : NetConfig) (b : Buffer) {len : Nat} (h : len ≤ 1500) (s : Net) :
    Small s (phySend cfg b len s).2 := by
  refine ⟨[(b, (s.buffer b).bytes 0 len)], rfl, fun c hc => ?_⟩
  rw [List.mem_singleton.mp hc, Mem.length_bytes]
  exact h

theorem small_arpSend (cfg : NetConfig) (dst : MACAddress) (op : UInt16) {payload : List UInt8}
    (h : payload.length + 22 ≤ 1500) (s : Net) : Small s (arpSend cfg dst op payload s).2 := by
  unfold arpSend
  split
  · exact .same rfl
  · exact (Small.same rfl).trans (small_phySend cfg _ h _)

/-- A request is 42 bytes. -/
theorem small_arpQuery (cfg : NetConfig) (ip : UInt32) (s : Net) :
    Small s (s.arpQuery cfg ip).2 := by
  have hlen : (arpPayload cfg.mac cfg.ip ⟨0, 0, 0, 0, 0, 0⟩ ip).length = 20 := rfl
  unfold Net.arpQuery
  split
  · exact .same rfl
  · exact (Small.same rfl).trans (small_arpSend cfg _ _ (by omega) _)

variable {cfg : NetConfig} {s : Net}

theorem small_ipv4Send {dst : UInt32} {protocol : UInt8} {payload : Mem} {len : Int}
    (h0 : 0 ≤ len) (h : len + 34 ≤ 1500) (s : Net) :
    Small s (ipv4Send cfg dst protocol payload len s).2 := by
  unfold ipv4Send
  split
  · split
    · exact .same rfl
    · refine (Small.same rfl).trans (small_phySend cfg _ ?_ _)
      show len.toNat + 20 + 14 ≤ 1500
      omega
  · dsimp only
    have hq := small_arpQuery cfg dst s
    split
    · exact hq
    · split
      · exact hq
      · exact hq.trans (.same rfl)

/-- A slot that a call has filled holds the length of the whole frame. -/
theorem pktLen_ipv4Send {dst : UInt32} {protocol : UInt8} {payload : Mem} {len : Int} {id : Nat}
    (hfree : slotFree s.tosendFree id = true)
    (hbusy : slotFree (ipv4Send cfg dst protocol payload len s).2.tosendFree id = false) :
    ((ipv4Send cfg dst protocol payload len s).2.tosend id).pktLen = len.toNat + 34 := by
  rcases ipv4Send_cases cfg dst protocol payload len s with ⟨hq, -⟩ | ⟨-, -, i, pkt, s', -, hq,
    hout⟩
  · rw [hq.tosendFree, hfree] at hbusy
    exact Bool.noConfusion hbusy
  · rw [hout] at hbusy ⊢
    have hid : i = id := by
      by_contra hne
      rw [← Bool.not_eq_true, slotFree_clearFree, hq.tosendFree] at hbusy
      exact hbusy ⟨hne, hfree⟩
    subst hid
    dsimp only
    rw [Function.update_self]
    rfl

/-- The sweep of a slot passes on as many bytes as the slot says. -/
theorem length_of_idleSlot {i : Nat} {mac : MACAddress} {frame : List UInt8}
    (hcase : slotCase s i = .found mac)
    (hsent : (ipv4IdleSlot cfg s i).sent = s.sent ++ [(.tosend i, frame)]) :
    frame.length = (s.tosend i).pktLen := by
  rw [ipv4IdleSlot, hcase] at hsent
  dsimp only [phySend] at hsent
  have h := List.append_cancel_left hsent
  rw [List.cons.injEq, Prod.mk.injEq] at h
  rw [← h.1.2, Mem.length_bytes]

theorem udpSend_of_accepted (cfg : NetConfig) (s : Net) {dst : UInt32} {dport sport : UInt16}
    {payload : Mem} {len : Int}
    (hacc : (Call.udp dst dport sport payload len).Accepted) : ∃ udpBuf,
    udpSend cfg dst dport sport payload len s
      = ipv4Send cfg dst ipv4UDP udpBuf (len + 8) { s with udpBuf } :=
  ⟨_, udpSend_eq cfg dst dport sport payload s hacc.1 hacc.2⟩

/-- A payload for a host that is known is passed on at once. -/
theorem sent_ipv4Send (cfg : NetConfig) {dst : UInt32} (protocol : UInt8) (payload : Mem)
    {len : Int}
    {mac : MACAddress} (hlookup : arpLookup dst s.arp = some mac) (h0 : 0 ≤ len)
    (h1 : len + 20 ≤ 1500) : ∃ frame, (ipv4Send cfg dst protocol payload len s).2.sent
      = s.sent ++ [(.sendbuf, frame)] ∧ frame.length = len.toNat + 34 := by
  have hbuild : ipv4BuildPacket cfg s.sendbuf dst protocol payload len
      = some ((ipv4Stores cfg dst protocol (payload.bytes 0 len.toNat)).exec s.sendbuf) := by
    have h1' : ¬len + ipv4HeaderSize > mtu := Int.not_lt.mpr h1
    rw [ipv4BuildPacket, if_neg (Int.not_lt.mpr h0), if_neg h1']
  rw [ipv4Send, hlookup]
  dsimp only
  rw [hbuild]
  exact ⟨_, rfl, Mem.length_bytes _ _ _⟩

namespace Call

/-! ### The two limits -/

theorem passes_le {c : Call} (hacc : c.Accepted) (hlen : c.len + c.headers ≤ 1500) {n : Nat}
    (h : c.Passes cfg s n) : n ≤ 1500 := by
  have hsmall : Small s (c.run cfg s).2 ∧ ∀ id, slotFree s.tosendFree id = true →
      slotFree (c.run cfg s).2.tosendFree id = false →
      ((c.run cfg s).2.tosend id).pktLen ≤ 1500 := by
    cases c with
    | udp dst dport sport payload len =>
        have h0 : 0 ≤ len := hacc.1
        have h1 : len + ((14 + 20 + 8 : Nat) : Int) ≤ 1500 := hlen
        obtain ⟨udpBuf, hrun⟩ := udpSend_of_accepted cfg s hacc
        rw [Call.run, hrun]
        refine ⟨(Small.same rfl).trans (small_ipv4Send (by omega) (by omega) _),
          fun id hfree hbusy => ?_⟩
        have hpkt := pktLen_ipv4Send (s := { s with udpBuf }) hfree hbusy
        omega
    | ipv4 dst protocol payload len =>
        have h1 : len + ((14 + 20 : Nat) : Int) ≤ 1500 := hlen
        refine ⟨small_ipv4Send hacc.1 (by omega) s, fun id hfree hbusy => ?_⟩
        have hpkt := pktLen_ipv4Send hfree hbusy
        rw [Call.run]
        omega
    | arp dst op payload =>
        have h1 : (payload.length : Int) + ((14 + 8 : Nat) : Int) ≤ 1500 := hlen
        refine ⟨small_arpSend cfg dst op (by omega) s, fun id hfree hbusy => ?_⟩
        have hq := quiet_arpSend cfg dst op payload s
        rw [Call.run, hq.tosendFree, hfree] at hbusy
        exact Bool.noConfusion hbusy
  cases h with
  | now hmem hn =>
      obtain ⟨⟨calls, hcalls, hle⟩, -⟩ := hsmall
      rw [hcalls, List.drop_left] at hmem
      rw [← hn]
      exact hle _ hmem
  | later hfree hbusy hslot hcase hsent hn =>
      rw [← hn, length_of_idleSlot hcase hsent, hslot]
      exact hsmall.2 _ hfree hbusy

/-- The library when it has heard of one host. -/
def heard (cfg : NetConfig) (ip : UInt32) : Net :=
  { Net.init cfg 0 with arp := ⟨[⟨ip, ⟨2, 0, 0, 0, 0, 2⟩, 0⟩], [], 0, 0, 0⟩ }

theorem arpLookup_heard (cfg : NetConfig) (ip : UInt32) :
    arpLookup ip (heard cfg ip).arp = some ⟨2, 0, 0, 0, 0, 2⟩ := by
  simp [arpLookup, tableFind, tableSearch, heard, Search.bisect, Search.bisectLoop]

/-- In some state the whole frame is passed on. -/
theorem exists_passes (cfg : NetConfig) {c : Call} (hacc : c.Accepted) :
    ∃ s n, c.Passes cfg s n ∧ (n : Int) = c.len + c.headers := by
  cases c with
  | udp dst dport sport payload len =>
      have h0 : 0 ≤ len := hacc.1
      have h1 : len + 8 + 20 ≤ 1500 := hacc.2
      obtain ⟨udpBuf, hrun⟩ := udpSend_of_accepted cfg (heard cfg dst) hacc
      obtain ⟨frame, hsent, hframe⟩ :=
        sent_ipv4Send (s := { heard cfg dst with udpBuf }) cfg ipv4UDP
        udpBuf (arpLookup_heard cfg dst) (by omega) h1
      refine ⟨heard cfg dst, _, .now (b := .sendbuf) ?_ hframe, ?_⟩
      · rw [Call.run, hrun, hsent, List.drop_left]
        exact List.mem_singleton_self _
      · show (((len + 8).toNat + 34 : Nat) : Int) = len + ((14 + 20 + 8 : Nat) : Int)
        omega
  | ipv4 dst protocol payload len =>
      have h0 : 0 ≤ len := hacc.1
      obtain ⟨frame, hsent, hframe⟩ :=
        sent_ipv4Send cfg protocol payload (arpLookup_heard cfg dst) h0
        hacc.2
      refine ⟨heard cfg dst, _, .now (b := .sendbuf) ?_ hframe, ?_⟩
      · rw [Call.run, hsent, List.drop_left]
        exact List.mem_singleton_self _
      · show ((len.toNat + 34 : Nat) : Int) = len + ((14 + 20 : Nat) : Int)
        omega
  | arp dst op payload =>
      have hmtu : ¬(payload.length + arpHeaderSize : Int) > mtu := Int.not_lt.mpr hacc
      have hframe := Mem.length_bytes ((arpBuildPacket cfg dst op payload).exec fun _ => 0) 0
        (payload.length + 8 + 14)
      refine ⟨Net.init cfg 0, _, .now (b := .sendbuf) ?_ hframe, rfl⟩
      rw [Call.run, arpSend, if_neg hmtu]
      exact List.mem_singleton_self _

/-- The stack and the drivers agree about a payload just when the stack rejects it, or the frame
with all its headers has at most 1500 bytes. -/
theorem agrees_iff (cfg : NetConfig) (c : Call) :
    c.Agrees cfg ↔ (c.Accepted → c.len + c.headers ≤ 1500) := by
  refine imp_congr_right fun hacc => ⟨fun h => ?_, fun hlen s n hn => ?_⟩
  · obtain ⟨s, n, hn, hlen⟩ := exists_passes cfg hacc
    have hle := queuedByAll_iff.mp (h s n hn)
    omega
  · exact queuedByAll_iff.mpr (passes_le hacc hlen hn)

/-- The largest IPv4 payload that the stack accepts makes a frame of 1514 bytes. -/
theorem largest_payload_dropped :
    ¬∀ (cfg : NetConfig) (c : Call), c.Agrees cfg := by
  intro h
  have hacc : (Call.ipv4 0x0a000002 17 (fun _ => 0) 1480).Accepted := ⟨by decide, by decide⟩
  obtain ⟨s, n, hn, hlen⟩ :=
    exists_passes ⟨⟨2, 0, 0, 0, 0, 1⟩, 0x0a000001, 1000000000, fun _ => 0⟩ hacc
  have hle := queuedByAll_iff.mp (h _ _ hacc s n hn)
  have h1514 : (n : Int) = 1480 + ((14 + 20 : Nat) : Int) := hlen
  omega

end Call

end DuckNet

end JudgeDuck
