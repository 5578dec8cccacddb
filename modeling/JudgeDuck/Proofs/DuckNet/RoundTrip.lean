/-
A datagram that one host sends is the datagram that another one receives.

`UdpFrame` lists what a receiver looks at in a frame.  The sender's stores
establish it, the Ethernet layer and padding keep it, and each handler of the
receiver takes it one layer up, to the call of the UDP hook.
-/
import JudgeDuck.Proofs.DuckNet.Headers

namespace JudgeDuck

namespace DuckNet

/-- The IPv4 packet that carries a datagram, in network order, at offset 14. -/
structure UdpPacket (src dst : UInt32) (sport dport : UInt16) (payload : List UInt8) (m : Mem) :
    Prop where
  version : m 14 = versionIhl 5 4
  length : m.read16 16 = htons (UInt16.ofNat (payload.length + udpHeaderSize + ipv4HeaderSize))
  flags : m.read16 20 = htons 0
  protocol : m 23 = ipv4UDP
  src : m.read32 26 = htonl src
  dst : m.read32 30 = htonl dst
  sport : m.read16 34 = htons sport
  dport : m.read16 36 = htons dport
  payload : ∀ i (hi : i < payload.length), m (42 + i) = payload[i]

/-- The Ethernet frame with that packet. -/
structure UdpFrame (src dst : UInt32) (mac : MACAddress) (sport dport : UInt16)
    (payload : List UInt8) (m : Mem) : Prop extends UdpPacket src dst sport dport payload m where
  mac : ∀ i (hi : i < mac.bytes.length), m i = mac.bytes[i]
  ethertype : m.read16 12 = htons ethertypeIPv4

variable {src dst : UInt32} {mac : MACAddress} {sport dport : UInt16} {payload : List UInt8}

/-- Only the bytes of the packet count. -/
theorem UdpPacket.congr {m m' : Mem} (h : UdpPacket src dst sport dport payload m)
    (hm : ∀ x, 14 ≤ x → x < 42 + payload.length → m' x = m x) :
    UdpPacket src dst sport dport payload m' := by
  constructor
  · rw [hm 14 (by omega) (by omega)]
    exact h.version
  · rw [Mem.read16_congr fun x _ _ => hm x (by omega) (by omega)]
    exact h.length
  · rw [Mem.read16_congr fun x _ _ => hm x (by omega) (by omega)]
    exact h.flags
  · rw [hm 23 (by omega) (by omega)]
    exact h.protocol
  · rw [Mem.read32_congr fun x _ _ => hm x (by omega) (by omega)]
    exact h.src
  · rw [Mem.read32_congr fun x _ _ => hm x (by omega) (by omega)]
    exact h.dst
  · rw [Mem.read16_congr fun x _ _ => hm x (by omega) (by omega)]
    exact h.sport
  · rw [Mem.read16_congr fun x _ _ => hm x (by omega) (by omega)]
    exact h.dport
  · intro i hi
    rw [hm _ (by omega) (by omega)]
    exact h.payload i hi

theorem UdpFrame.congr {m m' : Mem} (h : UdpFrame src dst mac sport dport payload m)
    (hm : ∀ x, x < 42 + payload.length → m' x = m x) :
    UdpFrame src dst mac sport dport payload m' := by
  have hlen : mac.bytes.length = 6 := rfl
  refine ⟨h.toUdpPacket.congr fun x _ => hm x, fun i hi => ?_, ?_⟩
  · rw [hm i (by omega)]
    exact h.mac i hi
  · rw [Mem.read16_congr fun x _ _ => hm x (by omega)]
    exact h.ethertype

/-! ### Sending -/

/-- A UDP datagram in an IPv4 packet, behind the Ethernet destination. -/
theorem udpFrame_of_built {cfg : NetConfig} {udp pkt : Mem}
    (hudp : UdpBuilt dport sport payload udp)
    (hip : Ipv4Built cfg dst ipv4UDP (udp.bytes 0 (payload.length + udpHeaderSize)) pkt) :
    UdpFrame cfg.ip dst mac sport dport payload (pkt.putBytes 0 mac.bytes) := by
  have hlen : mac.bytes.length = 6 := rfl
  have hout : ∀ x, 6 ≤ x → pkt.putBytes 0 mac.bytes x = pkt x :=
    fun x hx => Mem.putBytes_out (by omega)
  -- the datagram starts at offset 34
  have hdata : ∀ i, i < payload.length + udpHeaderSize →
      pkt.putBytes 0 mac.bytes (34 + i) = udp (0 + i) := by
    intro i hi
    rw [hout _ (by omega), hip.payload i (by rw [Mem.length_bytes]; exact hi), Mem.getElem_bytes]
  have h8 : udpHeaderSize = 8 := rfl
  refine ⟨⟨?_, ?_, ?_, ?_, ?_, ?_, ?_, ?_, ?_⟩, fun i hi => ?_, ?_⟩
  · rw [hout _ (by omega)]
    exact hip.version
  · rw [Mem.read16_congr fun x _ _ => hout x (by omega), hip.length, Mem.length_bytes]
  · rw [Mem.read16_congr fun x _ _ => hout x (by omega)]
    exact hip.flags
  · rw [hout _ (by omega)]
    exact hip.protocol
  · rw [Mem.read32_congr fun x _ _ => hout x (by omega)]
    exact hip.src
  · rw [Mem.read32_congr fun x _ _ => hout x (by omega)]
    exact hip.dst
  · rw [Mem.read16_shift fun i hi => hdata i (by omega)]
    exact hudp.sport
  · rw [Mem.read16_shift (b := 2) fun i hi => ?_]
    · exact hudp.dport
    · have hshift := hdata (2 + i) (by omega)
      rwa [← Nat.add_assoc, Nat.zero_add] at hshift
  · intro i hi
    have hshift := hdata (8 + i) (by omega)
    rw [← Nat.add_assoc, Nat.zero_add, hudp.payload i hi] at hshift
    exact hshift
  · have hput := Mem.putBytes_add (m := pkt) (a := 0) hi
    rwa [Nat.zero_add] at hput
  · rw [Mem.read16_congr fun x _ _ => hout x (by omega)]
    exact hip.ethertype

/-- `ducknet_udp_send` of an admissible length hands its datagram to the IPv4 layer. -/
theorem udpSend_eq (cfg : NetConfig) (dst : UInt32) (dport sport : UInt16) (payload : Mem)
    {len : Int}
    (s : Net) (h0 : 0 ≤ len) (hmtu : len + udpHeaderSize + ipv4HeaderSize ≤ mtu) :
    udpSend cfg dst dport sport payload len s =
      ipv4Send cfg dst ipv4UDP
        ((udpStores cfg dst dport sport (payload.bytes 0 len.toNat)).exec s.udpBuf)
        (len + udpHeaderSize)
        { s with udpBuf :=
          (udpStores cfg dst dport sport (payload.bytes 0 len.toNat)).exec s.udpBuf } :=
  (if_neg (not_lt.mpr h0)).trans (if_neg (not_lt.mpr hmtu))

/-- `ducknet_udp_send` to a host whose MAC address is known hands one frame on. -/
theorem udpSend_known (cfg : NetConfig) {s : Net} (h : arpLookup dst s.arp = some mac)
    (sport dport : UInt16) (data : Mem) {n : Nat} (hn : n ≤ 1472) :
    ∃ m, (udpSend cfg dst dport sport data n s).2.sent =
        s.sent ++ [(.sendbuf, Mem.bytes m 0 (n + 42))] ∧
      UdpFrame cfg.ip dst mac sport dport (data.bytes 0 n) m := by
  have h2 : (n : Int) + udpHeaderSize + ipv4HeaderSize ≤ mtu := by
    rw [udpHeaderSize, ipv4HeaderSize, mtu]
    omega
  have h3 : ¬((n : Int) + udpHeaderSize) < 0 := by omega
  have hlen : ((n : Int) + udpHeaderSize).toNat = (data.bytes 0 n).length + udpHeaderSize := by
    rw [Mem.length_bytes]
    omega
  have hlen' : (data.bytes 0 n).length + udpHeaderSize + ipv4HeaderSize + etherHeaderSize
      = n + 42 := by
    rw [Mem.length_bytes, udpHeaderSize, ipv4HeaderSize, etherHeaderSize]
  rw [udpSend_eq cfg dst dport sport data s (Int.natCast_nonneg n) h2, Int.toNat_natCast, ipv4Send]
  dsimp only
  rw [h, ipv4BuildPacket, if_neg h3, if_neg (not_lt.mpr h2), hlen]
  refine ⟨_, ?_, udpFrame_of_built (udpBuilt cfg dst dport sport s.udpBuf)
    (ipv4Built s.sendbuf)⟩
  dsimp only [phySend, Net.buffer]
  rw [hlen']

/-! ### Receiving -/

section Receive

variable {σ : Type} {cfg : NetConfig} {udp : UInt32 → UInt32 → Nat → Int → RecvM σ Int}

/-- The buffer has become `m`; nothing else of the state has changed but the log of accesses. -/
structure BufferBecomes (s : RecvState σ) (m : Mem) (s' : RecvState σ) : Prop where
  net : s'.net = s.net
  user : s'.user = s.user
  mem : s'.buf.mem = m

theorem bind_apply {α β : Type} (x : RecvM σ α) (f : α → RecvM σ β) (s : RecvState σ) :
    (x >>= f) s = f (x s).1 (x s).2 := rfl

/-- A hook that is `NULL`. -/
theorem if_null_hook {α : Type} {s : RecvState σ} (x y : RecvM σ α) :
    (if ((0, s) : Int × RecvState σ).1 < 0 then x else y) = y := if_neg (lt_irrefl 0)

theorem rdMac_fst {s : Buf} (h : ∀ i (hi : i < mac.bytes.length), s.mem i = mac.bytes[i]) :
    (rdMac 0 s).1 = mac := by
  have hlen : mac.bytes.length = 6 := rfl
  calc (rdMac 0 s).1 = ⟨s.mem 0, s.mem 1, s.mem 2, s.mem 3, s.mem 4, s.mem 5⟩ := rfl
    _ = mac := by
      rw [h 0 (by omega), h 1 (by omega), h 2 (by omega), h 3 (by omega), h 4 (by omega),
        h 5 (by omega)]
      rfl

variable (udp) in
/-- The Ethernet handler takes the frame to the IPv4 handler. -/
theorem etherPacketHandle_udp {s : RecvState σ}
    (h : UdpFrame src dst cfg.mac sport dport payload s.buf.mem) (len : Int)
    (hlen : 42 + payload.length ≤ len) :
    ∃ s', BufferBecomes s (swapped16 s.buf.mem 12) s' ∧
      etherPacketHandle cfg (Hooks.udpOnly udp) 0 len s =
        ipv4PacketHandle cfg (Hooks.udpOnly udp) 14 (len - etherHeaderSize) s' := by
  have hlong : ¬len < etherHeaderSize := by
    rw [etherHeaderSize]
    omega
  have hmacs : ∀ i (hi : i < cfg.mac.bytes.length),
    swapped16 s.buf.mem 12 i = cfg.mac.bytes[i] := by
    intro i hi
    have h6 : cfg.mac.bytes.length = 6 := rfl
    rw [swapped16_out (by omega)]
    exact h.mac i hi
  let b := (etherHton 0 (note (.layer 0 len) s.buf).2).2
  have hmac : (rdMac 0 b).1 = cfg.mac := rdMac_fst hmacs
  have htype : (rd16 12 (rdMac 0 b).2).1 = ethertypeIPv4 := by
    have hread : (swapped16 s.buf.mem 12).read16 12 = ethertypeIPv4 := by
      rw [read16_swapped16, h.ethertype, htons_htons]
    exact hread
  refine ⟨{ s with buf := (rd16 12 (rdMac 0 b).2).2 }, ⟨rfl, rfl, rfl⟩, ?_⟩
  unfold etherPacketHandle
  rw [bind_apply, if_neg hlong, bind_apply, bind_apply]
  erw [if_null_hook, bind_apply, if_neg (fun hc => hc.1 hmac), bind_apply]
  erw [if_neg (fun hc => absurd (htype.symm.trans hc) (by decide)), if_pos htype]
  rfl

variable (udp) in
/-- The IPv4 handler takes the packet to the UDP handler, without the padding. -/
theorem ipv4PacketHandle_udp {s : RecvState σ}
    (h : UdpPacket src dst sport dport payload s.buf.mem) (hdst : dst = cfg.ip)
    (hpayload : payload.length ≤ 1472) (len : Int) (hlen : 28 + payload.length ≤ len) :
    ∃ s', BufferBecomes s (ipv4Swapped s.buf.mem 14) s' ∧
      ipv4PacketHandle cfg (Hooks.udpOnly udp) 14 len s =
        udpPacketHandle (Hooks.udpOnly udp) src dst 34 (payload.length + udpHeaderSize) s' := by
  have hlong : ¬len < ipv4HeaderSize := by
    rw [ipv4HeaderSize]
    omega
  have hturned := ipv4Turned s.buf.mem 14
  let b := (ipv4Hton 14 (note (.layer 14 len) s.buf).2).2
  have hversion : b.mem 14 = versionIhl 4 5 := by
    have hturn : b.mem 14 = versionIhl (ihlOf (s.buf.mem 14)) (versionOf (s.buf.mem 14)) :=
      hturned.version
    rw [hturn, h.version]
    decide
  have hfour : versionOf (b.mem 14) = 4 := by rw [hversion]; decide
  have hfive : ihlOf (b.mem 14) = 5 := by rw [hversion]; decide
  have hlength : b.mem.read16 16
      = UInt16.ofNat (payload.length + udpHeaderSize + ipv4HeaderSize) := by
    have hturn : b.mem.read16 16 = htons (s.buf.mem.read16 16) := hturned.length
    rw [hturn, h.length, htons_htons]
  have hnat : (b.mem.read16 16).toNat = payload.length + udpHeaderSize + ipv4HeaderSize := by
    rw [hlength, udpHeaderSize, ipv4HeaderSize, UInt16.toNat_ofNat']
    omega
  have hfits : ¬((b.mem.read16 16).toNat : Int) > len := by
    rw [hnat, udpHeaderSize, ipv4HeaderSize]
    omega
  have hflags : ¬b.mem.read16 20 &&& ~~~ipv4FlagsDF ≠ 0 := by
    have hturn : b.mem.read16 20 = htons (s.buf.mem.read16 20) := hturned.flags
    rw [hturn, h.flags]
    decide
  have hdst' : b.mem.read32 30 = dst := by
    have hturn : b.mem.read32 30 = htonl (s.buf.mem.read32 30) := hturned.dst
    rw [hturn, h.dst, htonl_htonl]
  have hsrc : b.mem.read32 26 = src := by
    have hturn : b.mem.read32 26 = htonl (s.buf.mem.read32 26) := hturned.src
    rw [hturn, h.src, htonl_htonl]
  have hsame : ipv4Swapped s.buf.mem 14 23 = s.buf.mem 23 := ipv4Swapped_out (by omega)
  have hprotocol : b.mem 23 = ipv4UDP := hsame.trans h.protocol
  have hcontent : ((b.mem.read16 16).toNat : Int) - ipv4HeaderSize
      = payload.length + udpHeaderSize := by
    rw [hnat]
    omega
  -- the fields are read one after the other, and reading changes the log only
  let b1 := (rd32 30 (rd16 20 (rd16 16 (rd8 14 b).2).2).2).2
  refine ⟨{ s with buf := (rd8 23 (rd32 26 b1).2).2 }, ⟨rfl, rfl, rfl⟩, ?_⟩
  unfold ipv4PacketHandle
  rw [bind_apply, if_neg hlong, bind_apply, bind_apply]
  erw [if_null_hook, bind_apply, if_neg (fun hc => hc hfour), if_neg (fun hc => hc hfive),
    bind_apply, if_neg hfits, bind_apply,
    if_neg hflags, bind_apply, if_neg (fun hc => hc (.inr (hdst'.trans hdst))), bind_apply,
      bind_apply,
    if_neg (fun hc => absurd (hprotocol.symm.trans hc) (by decide)), if_pos hprotocol]
  rw [← hcontent, ← hsrc, ← hdst']
  rfl

variable (src dst udp) in
/-- The UDP handler calls its hook with the ports in host order, and does nothing after it. -/
theorem udpPacketHandle_udp (s : RecvState σ) (h n : Nat) :
    ∃ s', BufferBecomes s (udpSwapped s.buf.mem h) s' ∧
      udpPacketHandle (Hooks.udpOnly udp) src dst h (n + udpHeaderSize) s =
        let out := udp src dst h n s'
        (if out.1 < 0 then out.1 else 0, out.2) := by
  have hlong : ¬((n : Int) + udpHeaderSize < udpHeaderSize) := by omega
  have hcontent : (n : Int) + udpHeaderSize - udpHeaderSize = n := by omega
  refine ⟨{ s with buf := (udpHton h (note (.layer h (n + udpHeaderSize)) s.buf).2).2 },
    ⟨rfl, rfl, rfl⟩, ?_⟩
  unfold udpPacketHandle
  rw [bind_apply, if_neg hlong, bind_apply, bind_apply, hcontent]
  dsimp only
  split
  · next hneg => erw [if_pos hneg]; rfl
  · next hneg => erw [if_neg hneg]; rfl

end Receive

/-! ### The round trip -/

/-- Every datagram of at most 1472 bytes that is sent to a host with a known MAC address arrives
there: the frame, with any padding behind it, makes the receiver call its UDP hook once, with the
sender's and its own address, in a state where the header has the ports and the payload follows it;
what the hook returns decides the result, and the hook's state is the final state. -/
theorem udp_round_trip (cfgA cfgB : NetConfig) (a : Net) (data : Mem) (n : Nat)
    (sport dport : UInt16)
    (hn : n ≤ 1472) (hlookup : arpLookup cfgB.ip a.arp = some cfgB.mac) :
    ∃ frame, (udpSend cfgA cfgB.ip dport sport data n a).2.sent = a.sent ++ [(.sendbuf, frame)] ∧
      ∀ (σ : Type) (udp : UInt32 → UInt32 → Nat → Int → RecvM σ Int) (b : RecvState σ)
        (padding : List UInt8),
          b.buf.mem.bytes 0 (frame.length + padding.length) = frame ++ padding →
        ∃ b' : RecvState σ, b'.net = b.net ∧ b'.user = b.user ∧ b'.buf.mem.read16 34 = sport ∧
          b'.buf.mem.read16 36 = dport ∧ b'.buf.mem.bytes 42 n = data.bytes 0 n ∧
          etherPacketHandle cfgB (Hooks.udpOnly udp) 0 (frame.length + padding.length) b =
            (let out := udp cfgA.ip cfgB.ip 34 n b'
             (if out.1 < 0 then out.1 else 0, out.2)) := by
  obtain ⟨m, hsent, hframe⟩ := udpSend_known cfgA hlookup sport dport data hn
  refine ⟨Mem.bytes m 0 (n + 42), hsent, fun σ udp b padding hb => ?_⟩
  have hlen : (data.bytes 0 n).length = n := Mem.length_bytes _ _ _
  rw [Mem.length_bytes] at hb ⊢
  -- what was received agrees with what was sent on the bytes of the frame
  have hsame : ∀ x, x < 42 + (data.bytes 0 n).length → b.buf.mem x = m x := by
    intro x hx
    have hget : (b.buf.mem.bytes 0 (n + 42 + padding.length))[x]? =
        (Mem.bytes m 0 (n + 42) ++ padding)[x]? := by rw [hb]
    rw [List.getElem?_append_left (by rw [Mem.length_bytes]; omega),
      List.getElem?_eq_getElem (by rw [Mem.length_bytes]; omega),
      List.getElem?_eq_getElem (by rw [Mem.length_bytes]; omega), Mem.getElem_bytes,
      Mem.getElem_bytes, Nat.zero_add] at hget
    exact Option.some.inj hget
  have h0 := hframe.congr hsame
  obtain ⟨s1, hs1, hether⟩ := etherPacketHandle_udp udp h0
    (((n + 42 : Nat) : Int) + padding.length) (by omega)
  have h1 : UdpPacket cfgA.ip cfgB.ip sport dport (data.bytes 0 n) s1.buf.mem := by
    rw [hs1.mem]
    exact h0.toUdpPacket.congr fun x hx _ => swapped16_out (by omega)
  obtain ⟨s2, hs2, hipv4⟩ := ipv4PacketHandle_udp udp h1 rfl (by omega)
    (((n + 42 : Nat) : Int) + padding.length - etherHeaderSize)
    (by rw [hlen, etherHeaderSize]; omega)
  obtain ⟨s3, hs3, hudp⟩ := udpPacketHandle_udp cfgA.ip cfgB.ip udp s2 34 n
  -- behind the IPv4 header, only the UDP header is converted
  have hports := udpSwapped_ports s2.buf.mem 34
  have hold : ∀ x, 34 ≤ x → s2.buf.mem x = s1.buf.mem x := by
    intro x hx
    rw [hs2.mem]
    exact ipv4Swapped_out (by omega)
  refine ⟨s3, ?_, ?_, ?_, ?_, ?_, ?_⟩
  · rw [hs3.net, hs2.net, hs1.net]
  · rw [hs3.user, hs2.user, hs1.user]
  · rw [hs3.mem, hports.1, Mem.read16_congr fun x _ _ => hold x (by omega), h1.sport, htons_htons]
  · rw [hs3.mem, hports.2, Mem.read16_congr fun x _ _ => hold x (by omega), h1.dport, htons_htons]
  · refine List.ext_getElem (by rw [Mem.length_bytes, hlen]) fun i hi hi' => ?_
    rw [Mem.getElem_bytes, hs3.mem, udpSwapped_out (by omega), hold _ (by omega), h1.payload i hi']
  · rw [hlen] at hipv4
    rw [hether, hipv4, hudp]

/-- Two hosts, and the first after it heard of the second. -/
def hostA : NetConfig := ⟨⟨2, 0, 0, 0, 0, 1⟩, 0x0a000001, 1000000000, fun _ => 0⟩
def hostB : NetConfig := ⟨⟨2, 0, 0, 0, 0, 2⟩, 0x0a000002, 1000000000, fun _ => 0⟩

def hostAKnowsB : Net :=
  { Net.init hostA 0 with
    arp := (arpUpdate hostA.tscFreq 0 hostB.ip hostB.mac (arpInit hostA.tscFreq 0)).2 }

/-- Three bytes from port 1234 to port 9999. -/
theorem udp_round_trip_three :
    ∃ frame, (udpSend hostA hostB.ip 9999 1234 (fun _ => 65) (3 : Nat) hostAKnowsB).2.sent =
        [(.sendbuf, frame)] ∧
      ∀ (b : RecvState Unit), b.buf.mem.bytes 0 (frame.length + 1) = frame ++ [0] →
        (etherPacketHandle hostB (Hooks.udpOnly fun _ _ _ _ => pure 7) 0
          (frame.length + 1 : Nat) b).1 =
          0 := by
  obtain ⟨frame, hsent, hrecv⟩ := udp_round_trip hostA hostB hostAKnowsB (fun _ => 65) 3 1234 9999
    (by decide) (by decide)
  refine ⟨frame, hsent, fun b hb => ?_⟩
  obtain ⟨b', -, -, -, -, -, hether⟩ := hrecv Unit (fun _ _ _ _ => pure 7) b [0] hb
  have hcast : ((frame.length + 1 : Nat) : Int) = frame.length + ([0] : List UInt8).length := rfl
  rw [hcast, hether]
  rfl

end DuckNet

end JudgeDuck
