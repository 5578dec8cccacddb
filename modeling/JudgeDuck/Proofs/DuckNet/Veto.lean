/-
Hooks that refuse a packet.

The six packet handlers return what the hook has returned and touch nothing after it.
`ducknet_phy_send` has the comparison inside of the assignment, so a refused packet is
not sent, but what is reported for it is 1, and no caller takes that for a failure.
-/
import JudgeDuck.Model.DuckNet.Phy
import JudgeDuck.Proofs.DuckNet.RoundTrip

namespace JudgeDuck.DuckNet

variable {σ : Type}

/-! ### Receiving -/

/-- Whenever the hook, called in the state that `enter` leaves, refuses the packet, the handler
stops with its result in the state after it. -/
def Honours (handler : RecvM σ Int) (enter : RecvM σ Unit) (hook : RecvM σ Int) : Prop :=
  ∀ s, (hook (enter s).2).1 < 0 → handler s = hook (enter s).2

/-- What a handler does before it calls its hook: it takes note of the packet and converts the
header to the order of the host. -/
def enterLayer (pkt : Nat) (len : Int) (hton : BufM Unit) : RecvM σ Unit := do
  onBuf (note (.layer pkt len))
  onBuf hton

variable (cfg : NetConfig) (hooks : Hooks σ)

theorem udp_honours (src dst : UInt32) (pkt : Nat) {len : Int} (h : udpHeaderSize ≤ len) :
    Honours (udpPacketHandle hooks src dst pkt len) (enterLayer pkt len (udpHton pkt))
      (hooks.udp src dst pkt (len - udpHeaderSize)) := by
  intro s hneg
  unfold udpPacketHandle
  rw [if_neg (not_lt.mpr h), bind_apply, bind_apply, bind_apply]
  exact congrFun (if_pos hneg) _

theorem icmp_honours (src dst : UInt32) (pkt : Nat) {len : Int} (h : icmpHeaderSize ≤ len) :
    Honours (icmpPacketHandle cfg hooks src dst pkt len) (enterLayer pkt len (pure ()))
      (hooks.icmp src dst pkt (len - icmpHeaderSize)) := by
  intro s hneg
  unfold icmpPacketHandle
  rw [if_neg (not_lt.mpr h), bind_apply, bind_apply]
  exact congrFun (if_pos hneg) _

theorem ipv4_honours (pkt : Nat) {len : Int} (h : ipv4HeaderSize ≤ len) :
    Honours (ipv4PacketHandle cfg hooks pkt len) (enterLayer pkt len (ipv4Hton pkt))
      (hooks.ipv4 pkt (len - ipv4HeaderSize)) := by
  intro s hneg
  unfold ipv4PacketHandle
  rw [if_neg (not_lt.mpr h), bind_apply, bind_apply, bind_apply]
  exact congrFun (if_pos hneg) _

theorem arp_honours (pkt : Nat) {len : Int} (h : arpHeaderSize ≤ len) :
    Honours (arpPacketHandle cfg hooks pkt len) (enterLayer pkt len (arpHton pkt))
      (hooks.arp pkt (len - arpHeaderSize)) := by
  intro s hneg
  unfold arpPacketHandle
  rw [if_neg (not_lt.mpr h), bind_apply, bind_apply, bind_apply]
  exact congrFun (if_pos hneg) _

theorem ether_honours (pkt : Nat) {len : Int} (h : etherHeaderSize ≤ len) :
    Honours (etherPacketHandle cfg hooks pkt len) (enterLayer pkt len (etherHton pkt))
      (hooks.ether pkt (len - etherHeaderSize)) := by
  intro s hneg
  unfold etherPacketHandle
  rw [if_neg (not_lt.mpr h), bind_apply, bind_apply, bind_apply]
  exact congrFun (if_pos hneg) _

theorem phy_honours (len : Int) :
    Honours (packetHandle cfg hooks len) (pure ()) (hooks.phy 0 len) := by
  intro s hneg
  unfold packetHandle
  rw [bind_apply]
  exact congrFun (if_pos hneg) _

/-- All six handlers, for packets that have room for the header. -/
structure HandlersHonour : Prop where
  phy : ∀ len, Honours (packetHandle cfg hooks len) (pure ()) (hooks.phy 0 len)
  ether : ∀ pkt (len : Int), etherHeaderSize ≤ len → Honours (etherPacketHandle cfg hooks pkt len)
    (enterLayer pkt len (etherHton pkt)) (hooks.ether pkt (len - etherHeaderSize))
  arp : ∀ pkt (len : Int), arpHeaderSize ≤ len → Honours (arpPacketHandle cfg hooks pkt len)
    (enterLayer pkt len (arpHton pkt)) (hooks.arp pkt (len - arpHeaderSize))
  ipv4 : ∀ pkt (len : Int), ipv4HeaderSize ≤ len → Honours (ipv4PacketHandle cfg hooks pkt len)
    (enterLayer pkt len (ipv4Hton pkt)) (hooks.ipv4 pkt (len - ipv4HeaderSize))
  icmp : ∀ src dst pkt (len : Int), icmpHeaderSize ≤ len →
    Honours (icmpPacketHandle cfg hooks src dst pkt len) (enterLayer pkt len (pure ()))
      (hooks.icmp src dst pkt (len - icmpHeaderSize))
  udp : ∀ src dst pkt (len : Int), udpHeaderSize ≤ len →
    Honours (udpPacketHandle hooks src dst pkt len) (enterLayer pkt len (udpHton pkt))
      (hooks.udp src dst pkt (len - udpHeaderSize))

theorem handlersHonour : HandlersHonour cfg hooks where
  phy := phy_honours cfg hooks
  ether pkt _ := ether_honours cfg hooks pkt
  arp pkt _ := arp_honours cfg hooks pkt
  ipv4 pkt _ := ipv4_honours cfg hooks pkt
  icmp src dst pkt _ := icmp_honours cfg hooks src dst pkt
  udp src dst pkt _ := udp_honours hooks src dst pkt

/-! ### Sending -/

variable (conf : PhyConfig σ)

/-- The hook refuses the packet. -/
def Vetoed (pkt : List UInt8) (p : Phy σ) : Prop :=
  ∃ handle, conf.sendPacketHandle = some handle ∧ (handle pkt p.user).1 < 0

/-- A refused packet is reported with the result of the hook, and nothing happens after the hook. -/
def SendHonours (pkt : List UInt8) (p : Phy σ) : Prop :=
  ∀ handle, conf.sendPacketHandle = some handle → (handle pkt p.user).1 < 0 →
    Phy.send conf pkt p = ((handle pkt p.user).1, { p with user := (handle pkt p.user).2 })

variable {conf} {pkt : List UInt8} {p : Phy σ}

/-- A refused packet does not get to the driver, and the result is 1. -/
theorem Phy.send_vetoed {handle : List UInt8 → σ → Int × σ}
    (h : conf.sendPacketHandle = some handle) (hneg : (handle pkt p.user).1 < 0) :
    Phy.send conf pkt p = (1, { p with user := (handle pkt p.user).2 }) := by
  unfold Phy.send
  rw [h]
  dsimp only
  rw [if_pos hneg, if_pos (by decide)]

theorem sendHonours_iff : SendHonours conf pkt p ↔ ¬Vetoed conf pkt p := by
  constructor
  · rintro h ⟨handle, hhandle, hneg⟩
    have hsend := h handle hhandle hneg
    rw [Phy.send_vetoed hhandle hneg] at hsend
    have hone : 1 = (handle pkt p.user).1 := congrArg Prod.fst hsend
    omega
  · intro h handle hhandle hneg
    exact (h ⟨handle, hhandle, hneg⟩).elim

/-! ### The callers -/

theorem Phy.result_append (history : List (List UInt8)) :
    p.result conf (history ++ [pkt]) = (Phy.send conf pkt (p.after conf history)).1 := by
  unfold Phy.result
  rw [List.getLast?_concat, List.dropLast_concat]

/-- What has been handed to `ducknet_phy_send` so far. -/
def Net.history (s : Net) : List (List UInt8) := s.sent.map Prod.snd

theorem phySend_fst (cfg : NetConfig) (b : Buffer) (len : Nat) (s : Net) :
    (phySend cfg b len s).1 = cfg.phySend (s.history ++ [(s.buffer b).bytes 0 len]) := by
  have hmap : (s.sent ++ [(b, (s.buffer b).bytes 0 len)]).map Prod.snd
      = s.history ++ [(s.buffer b).bytes 0 len] := List.map_append
  rw [← hmap]
  rfl

/-- The frame that `ducknet_arp_send` hands on. -/
def arpFrame (dst : MACAddress) (op : UInt16) (payload : List UInt8) (s : Net) :
    Option (List UInt8) :=
  if (payload.length + arpHeaderSize : Int) > mtu then none
  else some (((arpBuildPacket cfg dst op payload).exec s.sendbuf).bytes 0
    (payload.length + arpHeaderSize + etherHeaderSize))

/-- The frame that `ducknet_ipv4_send` hands on; a packet that has to wait is not handed on. -/
def ipv4Frame (dst : UInt32) (protocol : UInt8) (payload : Mem) (len : Int) (s : Net) :
    Option (List UInt8) :=
  match arpLookup dst s.arp with
  | none => none
  | some dstMac =>
    (ipv4BuildPacket cfg s.sendbuf dst protocol payload len).map fun pkt =>
      (pkt.putBytes 0 dstMac.bytes).bytes 0 (len.toNat + ipv4HeaderSize + etherHeaderSize)

/-- The frame that `ducknet_udp_send` hands on. -/
def udpFrame (dst : UInt32) (dport sport : UInt16) (payload : Mem) (len : Int) (s : Net) :
    Option (List UInt8) :=
  if len < 0 then none
  else if len + udpHeaderSize + ipv4HeaderSize > mtu then none
  else
    let udpBuf := (udpStores cfg dst dport sport (payload.bytes 0 len.toNat)).exec s.udpBuf
    ipv4Frame cfg dst ipv4UDP udpBuf (len + udpHeaderSize) { s with udpBuf }

variable {cfg} {f : List UInt8} {s : Net}

theorem arpSend_frame {dst : MACAddress} {op : UInt16} {payload : List UInt8}
    (h : arpFrame cfg dst op payload s = some f) :
    (arpSend cfg dst op payload s).1 = cfg.phySend (s.history ++ [f]) := by
  unfold arpFrame at h
  unfold arpSend
  by_cases hlong : (payload.length + arpHeaderSize : Int) > mtu
  · rw [if_pos hlong] at h
    cases h
  · rw [if_neg hlong] at h
    rw [if_neg hlong, phySend_fst, ← Option.some.inj h]
    rfl

theorem ipv4Send_frame {dst : UInt32} {protocol : UInt8} {payload : Mem} {len : Int}
    (h : ipv4Frame cfg dst protocol payload len s = some f) :
    (ipv4Send cfg dst protocol payload len s).1 = cfg.phySend (s.history ++ [f]) := by
  unfold ipv4Frame at h
  unfold ipv4Send
  cases hlookup : arpLookup dst s.arp with
  | none =>
      rw [hlookup] at h
      cases h
  | some dstMac =>
      rw [hlookup] at h
      obtain ⟨m, hm, hf⟩ := Option.map_eq_some_iff.mp h
      dsimp only
      rw [hm]
      dsimp only
      rw [phySend_fst, ← hf]
      rfl

theorem udpSend_frame {dst : UInt32} {dport sport : UInt16} {payload : Mem} {len : Int}
    (h : udpFrame cfg dst dport sport payload len s = some f) :
    (udpSend cfg dst dport sport payload len s).1 = cfg.phySend (s.history ++ [f]) := by
  unfold udpFrame at h
  unfold udpSend
  by_cases hneg : len < 0
  · rw [if_pos hneg] at h
    cases h
  · by_cases hlong : len + udpHeaderSize + ipv4HeaderSize > mtu
    · rw [if_neg hneg, if_pos hlong] at h
      cases h
    · rw [if_neg hneg, if_neg hlong] at h
      rw [if_neg hneg, if_neg hlong]
      exact ipv4Send_frame h

variable (conf) (p)

/-- The hook refuses the frame that a call hands on. -/
def FrameVetoed (frame : Option (List UInt8)) (s : Net) : Prop :=
  ∃ f, frame = some f ∧ Vetoed conf f (p.after conf s.history)

variable {conf} {p}

/-- A call that returns what `ducknet_phy_send` has returned never reports a refused frame. -/
theorem reported_iff {frame : Option (List UInt8)} {r : Int}
    (h : ∀ f, frame = some f → r = p.result conf (s.history ++ [f])) :
    (FrameVetoed conf p frame s → r < 0) ↔ ¬FrameVetoed conf p frame s := by
  refine ⟨fun hneg hveto => ?_, fun hno hveto => (hno hveto).elim⟩
  have hlt := hneg hveto
  obtain ⟨f, hf, handle, hhandle, hrefused⟩ := hveto
  rw [h f hf, Phy.result_append, Phy.send_vetoed hhandle hrefused] at hlt
  exact absurd hlt (by decide : ¬(1 : Int) < 0)

/-- The handlers honour every veto.  `ducknet_phy_send` keeps a refused packet from the driver but
returns 1, so it reports the result of its hook, and the callers above it a failure, exactly if the
packet is not refused. -/
theorem veto_exact (cfg : NetConfig) (hooks : Hooks σ) (conf : PhyConfig σ) (p : Phy σ) :
    HandlersHonour cfg hooks ∧
    (∀ handle pkt p, conf.sendPacketHandle = some handle → (handle pkt p.user).1 < 0 →
      Phy.send conf pkt p = (1, { p with user := (handle pkt p.user).2 })) ∧
    (∀ pkt p, SendHonours conf pkt p ↔ ¬Vetoed conf pkt p) ∧
    (∀ dst op payload s,
      let frame := arpFrame (cfg.over conf p) dst op payload s
      (FrameVetoed conf p frame s → (arpSend (cfg.over conf p) dst op payload s).1 < 0) ↔
        ¬FrameVetoed conf p frame s) ∧
    (∀ dst protocol payload len s,
      let frame := ipv4Frame (cfg.over conf p) dst protocol payload len s
      (FrameVetoed conf p frame s →
        (ipv4Send (cfg.over conf p) dst protocol payload len s).1 < 0) ↔
        ¬FrameVetoed conf p frame s) ∧
    ∀ dst dport sport payload len s,
      let frame := udpFrame (cfg.over conf p) dst dport sport payload len s
      (FrameVetoed conf p frame s →
        (udpSend (cfg.over conf p) dst dport sport payload len s).1 < 0) ↔
        ¬FrameVetoed conf p frame s :=
  ⟨handlersHonour cfg hooks, fun _ _ _ => Phy.send_vetoed, fun _ _ => sendHonours_iff,
    fun _ _ _ _ => reported_iff fun _ hf => arpSend_frame hf,
    fun _ _ _ _ _ => reported_iff fun _ hf => ipv4Send_frame hf,
    fun _ _ _ _ _ _ => reported_iff fun _ hf => udpSend_frame hf⟩

/-- A hook that refuses every packet. -/
def refuseAll : PhyConfig Unit := ⟨none, some fun _ s => (-5, s)⟩

theorem veto_exact_refuseAll :
    Phy.send refuseAll [1, 2, 3] ⟨true, ()⟩ = (1, ⟨true, ()⟩) ∧
      ¬SendHonours refuseAll [1, 2, 3] ⟨true, ()⟩ := by
  obtain ⟨-, hsend, hiff, -⟩ := veto_exact ⟨⟨2, 0, 0, 0, 0, 1⟩, 0x0a000001, 1000000000, fun _ => 0⟩
    (Hooks.udpOnly fun _ _ _ _ => pure (-3)) refuseAll ⟨true, ()⟩
  exact ⟨hsend _ _ _ rfl (by decide), fun h => (hiff _ _).mp h ⟨_, rfl, by decide⟩⟩

theorem sendHonours_refused : ¬∀ pkt p, SendHonours refuseAll pkt p := by
  intro h
  have hsend := h [] ⟨false, ()⟩ _ rfl (by decide)
  exact absurd (congrArg Prod.fst hsend) (by decide)

end JudgeDuck.DuckNet
