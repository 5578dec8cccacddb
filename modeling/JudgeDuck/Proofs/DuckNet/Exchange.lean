/-
A datagram for a host whose MAC address is not known.

The sender keeps the packet and asks for the address; the other host answers, whatever it
was doing; the sender takes the answer into its table, and its next sweep sends the
packet.  `ArpFrame` lists what the receiver of an ARP packet looks at, as `UdpFrame` does
for a datagram.  Every frame may come with padding, and any time may pass in between as
long as the packet does not expire.
-/
import JudgeDuck.Proofs.DuckNet.Link
import JudgeDuck.Proofs.DuckNet.RoundTrip

namespace JudgeDuck

namespace DuckNet

open Hoare

/-- The Ethernet frame of an ARP packet. -/
structure ArpFrame (dst : MACAddress) (op : UInt16) (sha : MACAddress) (spa tpa : UInt32)
    (m : Mem) : Prop where
  dst : ∀ i (hi : i < dst.bytes.length), m i = dst.bytes[i]
  ethertype : m.read16 12 = htons ethertypeARP
  htype : m.read16 14 = htons 1
  ptype : m.read16 16 = htons 0x0800
  hlen : m 18 = 6
  plen : m 19 = 4
  op : m.read16 20 = htons op
  sha : ∀ i (hi : i < sha.bytes.length), m (22 + i) = sha.bytes[i]
  spa : m.read32 28 = htonl spa
  tpa : m.read32 38 = htonl tpa

/-- A buffer of which `len` bytes were received: a frame and some padding. -/
structure Arrived (frame : List UInt8) (len : Int) (m : Mem) : Prop where
  length : frame.length ≤ len
  bytes : ∀ i (hi : i < frame.length), m i = frame[i]

variable {cfg : NetConfig} {dst sha : MACAddress} {op : UInt16} {spa tpa : UInt32} {m m' : Mem}

theorem ArpFrame.congr (h : ArpFrame dst op sha spa tpa m) (hm : ∀ x, x < 42 → m' x = m x) :
    ArpFrame dst op sha spa tpa m' := by
  have hdst : dst.bytes.length = 6 := rfl
  have hsha : sha.bytes.length = 6 := rfl
  refine ⟨fun i hi => ?_, ?_, ?_, ?_, ?_, ?_, ?_, fun i hi => ?_, ?_, ?_⟩
  · rw [hm i (by omega)]
    exact h.dst i hi
  · rw [Mem.read16_congr fun x _ _ => hm x (by omega)]
    exact h.ethertype
  · rw [Mem.read16_congr fun x _ _ => hm x (by omega)]
    exact h.htype
  · rw [Mem.read16_congr fun x _ _ => hm x (by omega)]
    exact h.ptype
  · rw [hm 18 (by omega)]
    exact h.hlen
  · rw [hm 19 (by omega)]
    exact h.plen
  · rw [Mem.read16_congr fun x _ _ => hm x (by omega)]
    exact h.op
  · rw [hm _ (by omega)]
    exact h.sha i hi
  · rw [Mem.read32_congr fun x _ _ => hm x (by omega)]
    exact h.spa
  · rw [Mem.read32_congr fun x _ _ => hm x (by omega)]
    exact h.tpa

/-- What was sent out of a buffer is what arrives in another one. -/
theorem Arrived.of_bytes {n : Nat} {len : Int} (h : Arrived (m.bytes 0 n) len m') :
    ∀ x, x < n → m' x = m x := by
  intro x hx
  have hlen : x < (m.bytes 0 n).length := by
    rw [Mem.length_bytes]
    exact hx
  rw [h.bytes x hlen, Mem.getElem_bytes, Nat.zero_add]

/-! ### ARP packets that are built -/

theorem arpFrame_built (dst : MACAddress) (op : UInt16) (tha : MACAddress) (tpa : UInt32)
    (m : Mem) :
    ArpFrame dst op cfg.mac cfg.ip tpa
      ((arpBuildPacket cfg dst op (arpPayload cfg.mac cfg.ip tha tpa)).exec m) := by
  have hlen := length_arpPayload cfg.mac cfg.ip tha tpa
  have hmac : cfg.mac.bytes.length = 6 := rfl
  have htha : tha.bytes.length = 6 := rfl
  have hdst : dst.bytes.length = 6 := rfl
  have hspa : (bytes32 (htonl cfg.ip)).length = 4 := rfl
  have htpa : (bytes32 (htonl tpa)).length = 4 := rfl
  -- the payload is at offset 22
  have hpayload : ∀ i (hi : i < (arpPayload cfg.mac cfg.ip tha tpa).length),
      (arpBuildPacket cfg dst op (arpPayload cfg.mac cfg.ip tha tpa)).exec m (22 + i)
        = (arpPayload cfg.mac cfg.ip tha tpa)[i] := by
    intro i hi
    rw [exec_arpBuildPacket]
    exact Mem.putBytes_add hi
  refine ⟨fun i hi => ?_, ?_, ?_, ?_, ?_, ?_, ?_, fun i hi => ?_,
    read32_of_bytes32 fun i hi => ?_, read32_of_bytes32 fun i hi => ?_⟩
  · rw [exec_arpBuildPacket]
    simp (disch := omega) only [Mem.putBytes_out, Mem.write16_out, Mem.write8_out]
    have hput := Mem.putBytes_add (m := m) (a := 0) hi
    rwa [Nat.zero_add] at hput
  · rw [exec_arpBuildPacket]
    simp (disch := omega) only [Mem.read16_putBytes_of_disjoint, Mem.read16_write16_of_disjoint,
      Mem.read16_write8_of_disjoint, Mem.read16_write16_self]
  · rw [exec_arpBuildPacket]
    simp (disch := omega) only [Mem.read16_putBytes_of_disjoint, Mem.read16_write16_of_disjoint,
      Mem.read16_write8_of_disjoint, Mem.read16_write16_self]
  · rw [exec_arpBuildPacket]
    simp (disch := omega) only [Mem.read16_putBytes_of_disjoint, Mem.read16_write16_of_disjoint,
      Mem.read16_write8_of_disjoint, Mem.read16_write16_self]
  · rw [exec_arpBuildPacket]
    simp (disch := omega) only [Mem.putBytes_out, Mem.write16_out, Mem.write8_out, Mem.write8_self]
  · rw [exec_arpBuildPacket]
    simp (disch := omega) only [Mem.putBytes_out, Mem.write16_out, Mem.write8_self]
  · rw [exec_arpBuildPacket]
    simp (disch := omega) only [Mem.read16_putBytes_of_disjoint, Mem.read16_write16_self]
  · rw [hpayload i (by omega)]
    simp only [arpPayload, List.append_assoc]
    rw [List.getElem_append_left hi]
  · have hat := hpayload (6 + i) (by omega)
    rw [← Nat.add_assoc] at hat
    rw [hat]
    simp only [arpPayload, List.append_assoc]
    rw [List.getElem_append_right (by omega), List.getElem_append_left (by omega)]
    congr 1
    omega
  · have hat := hpayload (16 + i) (by omega)
    rw [← Nat.add_assoc] at hat
    rw [hat]
    simp only [arpPayload]
    rw [List.getElem_append_right (by simp only [List.length_append]; omega)]
    congr 1
    simp only [List.length_append]
    omega

variable (cfg) in
/-- `ducknet_arp_send` of a request or a reply hands one frame on. -/
theorem arpSend_arrives (dst : MACAddress) (op : UInt16) (tha : MACAddress) (tpa : UInt32)
    (s : Net) : ∃ frame,
      (arpSend cfg dst op (arpPayload cfg.mac cfg.ip tha tpa) s).2.sent
        = s.sent ++ [(.sendbuf, frame)] ∧
      ∀ len m', Arrived frame len m' → ArpFrame dst op cfg.mac cfg.ip tpa m' ∧ 42 ≤ len := by
  have hlen : (arpPayload cfg.mac cfg.ip tha tpa).length + arpHeaderSize + etherHeaderSize
      = 42 := by
    rw [length_arpPayload, arpHeaderSize, etherHeaderSize]
  have hmtu : ¬((arpPayload cfg.mac cfg.ip tha tpa).length + arpHeaderSize : Int) > mtu := by
    rw [length_arpPayload, arpHeaderSize, mtu]
    decide
  refine ⟨Mem.bytes ((arpBuildPacket cfg dst op (arpPayload cfg.mac cfg.ip tha tpa)).exec
    s.sendbuf) 0 42, ?_, fun len m' h => ⟨?_, ?_⟩⟩
  · unfold arpSend
    rw [if_neg hmtu, hlen]
    rfl
  · exact (arpFrame_built dst op tha tpa s.sendbuf).congr h.of_bytes
  · have hle := h.length
    rw [Mem.length_bytes] at hle
    exact_mod_cast hle

/-! ### ARP packets that are received -/

section Receive

variable {σ α β : Type} {n : Net} {u : σ} {x : BufM α} {v : α} {len : Int}
  {udp : UInt32 → UInt32 → Nat → Int → RecvM σ Int}

/-- The library, the contents of the buffer and the state of the hooks. -/
structure Here (n : Net) (m : Mem) (u : σ) (s : RecvState σ) : Prop extends At n m s where
  user : s.user = u

theorem Runs.bind_here {f : α → RecvM σ β} {R : β → RecvState σ → Prop} (hx : Runs m x v m')
    (hf : Ensures (Here n m' u) (f v) R) : Ensures (Here n m u) (onBuf x >>= f) R := by
  intro s hs
  obtain ⟨hval, hmem⟩ := hx s.buf.log
  have hbuf : s.buf = ⟨m, s.buf.log⟩ := by
    rw [← hs.mem]
  rw [← hbuf] at hval hmem
  have hrun := hf { s with buf := (x s.buf).2 } ⟨⟨hs.net, hmem⟩, hs.user⟩
  rw [← hval] at hrun
  exact hrun

/-- A hook that is `NULL`. -/
theorem ensures_null {P : RecvState σ → Prop} {R : Int → RecvState σ → Prop}
    {y : RecvM σ Int} (h : Ensures P y R) :
    Ensures P (pure 0 >>= fun r => if r < 0 then pure r else y) R := h

/-- A branch that is taken. -/
theorem ensures_if_pos {P : RecvState σ → Prop} {R : Int → RecvState σ → Prop} {c : Prop}
    [Decidable c] {y z : RecvM σ Int} (hc : c) (h : Ensures P y R) :
    Ensures P (if c then y else z) R := by
  rw [if_pos hc]
  exact h

theorem ensures_if_neg {P : RecvState σ → Prop} {R : Int → RecvState σ → Prop} {c : Prop}
    [Decidable c] {y z : RecvM σ Int} (hc : ¬c) (h : Ensures P z R) :
    Ensures P (if c then y else z) R := by
  rw [if_neg hc]
  exact h

theorem mac_of_bytes {a : Nat} (h : ∀ i (hi : i < sha.bytes.length), m (a + i) = sha.bytes[i]) :
    (⟨m a, m (a + 1), m (a + 2), m (a + 3), m (a + 4), m (a + 5)⟩ : MACAddress) = sha := by
  have hlen : sha.bytes.length = 6 := rfl
  have h0 := h 0 (by omega)
  rw [Nat.add_zero] at h0
  rw [h0, h 1 (by omega), h 2 (by omega), h 3 (by omega), h 4 (by omega), h 5 (by omega)]
  rfl

/-- What the ARP handler makes of a packet: it answers a request for its own address, and takes up
a reply. -/
def arpEffect (cfg : NetConfig) (op : UInt16) (sha : MACAddress) (spa : UInt32) (s : Net) : Net :=
  if op = arpRequest then
    (arpSend cfg sha arpReply (arpPayload cfg.mac cfg.ip sha spa) s).2
  else { s with arp := (arpUpdate cfg.tscFreq s.now spa sha s.arp).2 }

variable (udp) in
/-- The ARP handler is called for a frame whose type field has been turned around. -/
theorem arpPacketHandle_frame (h : ArpFrame dst op sha spa tpa m) (hlen : 42 ≤ len)
    (hop : op = arpRequest ∧ tpa = cfg.ip ∨ op = arpReply) :
    Ensures (Here n (swapped16 m 12) u)
      (arpPacketHandle cfg (Hooks.udpOnly udp) 14 (len - etherHeaderSize))
      fun _ s => s.net = arpEffect cfg op sha spa n ∧ s.user = u := by
  let m2 := arpSwapped (swapped16 m 12) 14
  have hsame : ∀ x, 22 ≤ x ∨ 18 ≤ x ∧ x < 20 → m2 x = m x := fun x hx => by
    simp (disch := omega) only [m2, arpSwapped, swapped16_out]
  have hhtype : m2.read16 14 = 1 := by
    simp (disch := omega) only [m2, arpSwapped, read16_swapped16_of_disjoint, read16_swapped16]
    rw [h.htype, htons_htons]
  have hptype : m2.read16 16 = 0x0800 := by
    simp (disch := omega) only [m2, arpSwapped, read16_swapped16_of_disjoint, read16_swapped16]
    rw [h.ptype, htons_htons]
  have hop2 : m2.read16 20 = op := by
    simp (disch := omega) only [m2, arpSwapped, read16_swapped16_of_disjoint, read16_swapped16]
    rw [h.op, htons_htons]
  have hhlen : m2 18 = 6 := (hsame 18 (by omega)).trans h.hlen
  have hplen : m2 19 = 4 := (hsame 19 (by omega)).trans h.plen
  have hsha : (⟨m2 22, m2 23, m2 24, m2 25, m2 26, m2 27⟩ : MACAddress) = sha :=
    mac_of_bytes (a := 22) fun i hi => (hsame _ (by omega)).trans (h.sha i hi)
  have hspa : htonl (m2.read32 28) = spa := by
    rw [Mem.read32_congr fun x _ _ => hsame x (by omega), h.spa, htonl_htonl]
  have htpa : htonl (m2.read32 38) = tpa := by
    rw [Mem.read32_congr fun x _ _ => hsame x (by omega), h.tpa, htonl_htonl]
  have h8 : ¬len - (etherHeaderSize : Int) < arpHeaderSize := by
    rw [etherHeaderSize, arpHeaderSize]
    omega
  have h28 : ¬len - (etherHeaderSize : Int) - arpHeaderSize < 20 := by
    rw [etherHeaderSize, arpHeaderSize]
    omega
  refine (runs_note _ _).bind_here (ensures_if_neg h8 ?_)
  refine (runs_arpHton _ _).bind_here (ensures_null ?_)
  refine (runs_rd16 _ _).bind_here ((runs_rd16 _ _).bind_here (ensures_if_pos ⟨hhtype, hptype⟩ ?_))
  refine (runs_rd8 _ _).bind_here ((runs_rd8 _ _).bind_here ?_)
  refine ensures_if_neg (fun hc => hc hhlen) (ensures_if_neg (fun hc => hc hplen) ?_)
  refine ensures_if_neg h28 ?_
  refine (runs_rdMac _ _).bind_here ((runs_rd32 _ _).bind_here ((runs_rdMac _ _).bind_here ?_))
  refine (runs_rd32 _ _).bind_here ((runs_rd16 _ _).bind_here ?_)
  rcases hop with ⟨rfl, rfl⟩ | rfl
  · refine ensures_if_pos hop2 (ensures_if_pos htpa fun s hs => ⟨?_, hs.user⟩)
    have hnet : s.net = n := hs.net
    rw [arpEffect, if_pos rfl, ← hnet, ← hsha, ← hspa, ← htpa]
    rfl
  · have hne : ¬m2.read16 20 = arpRequest := by
      rw [hop2]
      decide
    refine ensures_if_neg hne (ensures_if_pos hop2 fun s hs => ⟨?_, hs.user⟩)
    have hnet : s.net = n := hs.net
    rw [arpEffect, if_neg (by decide), ← hnet, ← hsha, ← hspa]
    rfl

variable (cfg udp) in
/-- A frame that is for this host, or for all. -/
theorem packetHandle_arp (h : ArpFrame dst op sha spa tpa m) (hlen : 42 ≤ len)
    (hdst : dst = cfg.mac ∨ dst = broadcastAddr)
    (hop : op = arpRequest ∧ tpa = cfg.ip ∨ op = arpReply) :
    Ensures (Here n m u) (packetHandle cfg (Hooks.udpOnly udp) len)
      fun _ s => s.net = arpEffect cfg op sha spa n ∧ s.user = u := by
  have hlong : ¬len < etherHeaderSize := by
    rw [etherHeaderSize]
    omega
  have hmac : (⟨swapped16 m 12 0, swapped16 m 12 1, swapped16 m 12 2, swapped16 m 12 3,
      swapped16 m 12 4, swapped16 m 12 5⟩ : MACAddress) = dst := by
    refine mac_of_bytes (a := 0) fun i hi => ?_
    have h6 : dst.bytes.length = 6 := rfl
    rw [Nat.zero_add, swapped16_out (by omega)]
    exact h.dst i hi
  have hours : ¬((⟨swapped16 m 12 0, swapped16 m 12 1, swapped16 m 12 2, swapped16 m 12 3,
      swapped16 m 12 4, swapped16 m 12 5⟩ : MACAddress) ≠ cfg.mac ∧
      (⟨swapped16 m 12 0, swapped16 m 12 1, swapped16 m 12 2, swapped16 m 12 3,
      swapped16 m 12 4, swapped16 m 12 5⟩ : MACAddress) ≠ broadcastAddr) := by
    rw [hmac]
    exact fun hc => hdst.elim hc.1 hc.2
  have htype : (swapped16 m 12).read16 12 = ethertypeARP := by
    rw [read16_swapped16, h.ethertype, htons_htons]
  refine ensures_null ((runs_note _ _).bind_here (ensures_if_neg hlong ?_))
  refine (runs_swap16 _ _).bind_here (ensures_null ?_)
  refine (runs_rdMac _ _).bind_here (ensures_if_neg hours ?_)
  refine (runs_rd16 _ _).bind_here (ensures_if_pos htype ?_)
  exact arpPacketHandle_frame udp h hlen hop

end Receive

/-! ### Datagrams that are received -/

variable {src ip : UInt32} {mac : MACAddress} {sport dport : UInt16} {payload : List UInt8}

/-- Whoever at this host receives the frame has its UDP hook called once, in a state where the
header has the ports and the payload follows it, and nothing else happens. -/
def Delivers (src : UInt32) (cfg : NetConfig) (sport dport : UInt16) (payload frame : List UInt8) :
    Prop :=
  ∀ (σ : Type) (udp : UInt32 → UInt32 → Nat → Int → RecvM σ Int) (b : RecvState σ) (len : Int),
    Arrived frame len b.buf.mem →
    ∃ b' : RecvState σ, b'.net = b.net ∧ b'.user = b.user ∧ b'.buf.mem.read16 34 = sport ∧
      b'.buf.mem.read16 36 = dport ∧ b'.buf.mem.bytes 42 payload.length = payload ∧
      packetHandle cfg (Hooks.udpOnly udp) len b =
        (let out := udp src cfg.ip 34 payload.length b'
         (if out.1 < 0 then out.1 else 0, out.2))

theorem delivers_frame (h : UdpFrame src cfg.ip cfg.mac sport dport payload m)
    (hpayload : payload.length ≤ 1472) :
    Delivers src cfg sport dport payload (m.bytes 0 (42 + payload.length)) := by
  intro σ udp b len harrived
  have hlen := harrived.length
  rw [Mem.length_bytes] at hlen
  have h0 : UdpFrame src cfg.ip cfg.mac sport dport payload b.buf.mem :=
    h.congr harrived.of_bytes
  obtain ⟨s1, hs1, hether⟩ := etherPacketHandle_udp udp h0 len (by omega)
  have h1 : UdpPacket src cfg.ip sport dport payload s1.buf.mem := by
    rw [hs1.mem]
    exact h0.toUdpPacket.congr fun x hx _ => swapped16_out (by omega)
  obtain ⟨s2, hs2, hipv4⟩ := ipv4PacketHandle_udp udp h1 rfl hpayload
    (len - etherHeaderSize) (by rw [etherHeaderSize]; omega)
  obtain ⟨s3, hs3, hudp⟩ := udpPacketHandle_udp src cfg.ip udp s2 34 payload.length
  -- behind the IPv4 header, only the UDP header is converted
  have hports := udpSwapped_ports s2.buf.mem 34
  have hold : ∀ x, 34 ≤ x → s2.buf.mem x = s1.buf.mem x := by
    intro x hx
    rw [hs2.mem]
    exact ipv4Swapped_out (by omega)
  refine ⟨s3, ?_, ?_, ?_, ?_, ?_, ?_⟩
  · rw [hs3.net, hs2.net, hs1.net]
  · rw [hs3.user, hs2.user, hs1.user]
  · rw [hs3.mem, hports.1, Mem.read16_congr fun x _ _ => hold x (by omega), h1.sport, htons_htons]
  · rw [hs3.mem, hports.2, Mem.read16_congr fun x _ _ => hold x (by omega), h1.dport, htons_htons]
  · refine List.ext_getElem (Mem.length_bytes _ _ _) fun i hi hi' => ?_
    rw [Mem.getElem_bytes, hs3.mem, udpSwapped_out (by omega), hold _ (by omega), h1.payload i hi']
  · have hphy : packetHandle cfg (Hooks.udpOnly udp) len b
        = etherPacketHandle cfg (Hooks.udpOnly udp) 0 len b := rfl
    rw [hphy, hether, hipv4, hudp]

/-! ### The table of ARP -/

theorem arpLookup_update {a : Arp} (hsorted : KeySorted ArpEntry.ip a.table)
    (hfits : KeyFits ArpEntry.ip a.table ip) (hroom : a.table.length < arpTableSize)
    (tscFreq now : UInt64) (mac : MACAddress) :
    arpLookup ip (arpUpdate tscFreq now ip mac a).2 = some mac := by
  let e : ArpEntry := { ip, mac, expireTime := timeAddMs tscFreq now arpExpireTimeoutMs }
  cases hput : tablePut ArpEntry.ip a.table ip e with
  | none =>
      rw [tablePut_eq_none] at hput
      omega
  | some table =>
      have hstored := hsorted.stored_tablePut hfits (show e.ip = ip from rfl) hput
      have hfind : tableFind ArpEntry.ip table ip = some e :=
        hstored.sorted.tableFind_iff.mpr ⟨(hstored.mem_iff e).mpr (.inl rfl), rfl⟩
      have hupdate : (arpUpdate tscFreq now ip mac a).2 = { a with table } := by
        unfold arpUpdate
        dsimp only
        rw [hput]
      rw [hupdate]
      show (tableFind ArpEntry.ip table ip).map ArpEntry.mac = some mac
      rw [hfind]
      rfl

/-- A query for an address that no query is pending for is sent. -/
theorem arpQuery_sends {a : Arp} (hnone : tableFind ArpQuery.ip a.queryTable ip = none)
    (hroom : a.queryTable.length < arpTableSize) (tscFreq now : UInt64) :
    ∃ queryTable, DuckNet.arpQuery tscFreq now ip a = (.ok (), { a with queryTable }) := by
  let q : ArpQuery := { ip, expireTime := timeAddMs tscFreq now arpQueryTimeoutMs }
  cases hput : tablePut ArpQuery.ip a.queryTable ip q with
  | none =>
      rw [tablePut_eq_none] at hput
      omega
  | some queryTable =>
      refine ⟨queryTable, ?_⟩
      unfold DuckNet.arpQuery
      rw [hnone]
      dsimp only [Option.isSome_none]
      rw [if_neg (by decide), hput]

/-! ### The sweep -/

section Sweep

variable {s s' : Net} {i j : Nat}

/-- What other slots of a sweep leave to slot `i`. -/
structure Untouched (i : Nat) (s s' : Net) : Prop where
  now : s'.now = s.now
  table : s'.arp.table = s.arp.table
  entry : s'.tosend i = s.tosend i
  free : slotFree s'.tosendFree i = true ↔ slotFree s.tosendFree i = true

theorem untouched_idleSlot (hij : i ≠ j) (s : Net) : Untouched i s (ipv4IdleSlot cfg s j) := by
  have hsweep := TimedWorld.sweeping_idleSlot cfg s j
  refine ⟨hsweep.now, hsweep.table, ?_, ?_⟩
  · unfold ipv4IdleSlot
    split
    · rfl
    · rfl
    · exact Function.update_of_ne hij _ _
    · rw [(quiet_arpQuery cfg _ s).tosend]
  · rw [TimedWorld.slotFree_idleSlot]
    exact ⟨fun h => h.elim id fun hc => absurd hc.1 hij, .inl⟩

theorem untouched_foldl : ∀ (l : List Nat) (s : Net), i ∉ l →
    Untouched i s (l.foldl (ipv4IdleSlot cfg) s) := by
  intro l
  induction l with
  | nil => exact fun s _ => ⟨rfl, rfl, rfl, Iff.rfl⟩
  | cons j l ih =>
      intro s hi
      rw [List.mem_cons, not_or] at hi
      have hone : Untouched i s (ipv4IdleSlot cfg s j) := untouched_idleSlot hi.1 s
      have hrest := ih (ipv4IdleSlot cfg s j) hi.2
      exact ⟨hrest.now.trans hone.now, hrest.table.trans hone.table,
        hrest.entry.trans hone.entry, hrest.free.trans hone.free⟩

/-- The packet of a slot whose destination is known, in time. -/
theorem idleSlot_sends (hbusy : ¬slotFree s.tosendFree i = true)
    (hnow : s.now ≤ (s.tosend i).expireTime)
    (hmac : arpLookup (s.tosend i).dstIp s.arp = some mac) :
    (ipv4IdleSlot cfg s i).sent = s.sent ++
      [(.tosend i, ((s.tosend i).pkt.putBytes 0 mac.bytes).bytes 0 (s.tosend i).pktLen)] ∧
    slotFree (ipv4IdleSlot cfg s i).tosendFree i = true := by
  have hcase : slotCase s i = .found mac := by
    unfold slotCase
    rw [if_neg hbusy, if_neg (UInt64.not_lt.mpr hnow), hmac]
  simp only [ipv4IdleSlot, hcase, phySend, Net.buffer, Function.update_self]
  exact ⟨trivial, slotFree_setFree.mpr (.inl rfl)⟩

/-- **A sweep in time sends every packet whose destination is known.** -/
theorem ipv4Idle_sends (hi : i < tosendTableSize) (hbusy : ¬slotFree s.tosendFree i = true)
    (hnow : s.now ≤ (s.tosend i).expireTime)
    (hmac : arpLookup (s.tosend i).dstIp s.arp = some mac) (hdue : ipv4IdleDue s = true) :
    ∃ before after, (ipv4Idle cfg s).sent = s.sent ++ before ++
        (.tosend i, ((s.tosend i).pkt.putBytes 0 mac.bytes).bytes 0 (s.tosend i).pktLen) :: after ∧
      slotFree (ipv4Idle cfg s).tosendFree i = true := by
  obtain ⟨l, l', hrange⟩ := List.append_of_mem (List.mem_range.mpr hi)
  have hnodup : (l ++ i :: l').Nodup := by
    rw [← hrange]
    exact List.nodup_range
  have hl : i ∉ l := fun hmem => (List.disjoint_of_nodup_append hnodup) hmem (by simp)
  have hl' : i ∉ l' := (List.nodup_cons.mp (List.Nodup.of_append_right hnodup)).1
  let s0 : Net := { s with lastIdleTime := s.now, cnt := 0 }
  let s1 := l.foldl (ipv4IdleSlot cfg) s0
  let s2 := ipv4IdleSlot cfg s1 i
  have hsweep : ipv4Idle cfg s = l'.foldl (ipv4IdleSlot cfg) s2 := by
    unfold ipv4Idle
    rw [if_pos hdue, hrange, List.foldl_append, List.foldl_cons]
  have h1 : Untouched i s0 s1 := untouched_foldl l s0 hl
  have hentry : s1.tosend i = s.tosend i := h1.entry
  have hnow1 : s1.now = s.now := h1.now
  have htable : s1.arp.table = s.arp.table := h1.table
  obtain ⟨hsent, hfree⟩ : (ipv4IdleSlot cfg s1 i).sent = s1.sent ++
      [(.tosend i, ((s1.tosend i).pkt.putBytes 0 mac.bytes).bytes 0 (s1.tosend i).pktLen)] ∧
      slotFree (ipv4IdleSlot cfg s1 i).tosendFree i = true := by
    refine idleSlot_sends (fun hc => hbusy (h1.free.mp hc)) ?_ ?_
    · rw [hnow1, hentry]
      exact hnow
    · rw [hentry, arpLookup, htable]
      exact hmac
  obtain ⟨before, hbefore⟩ := @grows_foldl cfg l s0
  obtain ⟨after, hafter⟩ := @grows_foldl cfg l' s2
  refine ⟨before, after, ?_, ?_⟩
  · have hs0 : s0.sent = s.sent := rfl
    have hs1 : s1.sent = s.sent ++ before := by rw [← hs0]; exact hbefore.symm
    rw [hsweep, ← hafter, hsent, hs1, hentry, List.append_assoc _ [_], List.singleton_append]
  · rw [hsweep]
    exact ((untouched_foldl l' s2 hl').free).mpr hfree

end Sweep

/-! ### The exchange -/

/-- A host that does not know `ip`, has not asked for it, and has room for a packet, a query and an
entry; the search in the table can insert in front of an entry only. -/
structure Ready (ip : UInt32) (s : Net) (i : Nat) : Prop where
  unknown : arpLookup ip s.arp = none
  quiet : tableFind ArpQuery.ip s.arp.queryTable ip = none
  queryRoom : s.arp.queryTable.length < arpTableSize
  sorted : KeySorted ArpEntry.ip s.arp.table
  fits : KeyFits ArpEntry.ip s.arp.table ip
  room : s.arp.table.length < arpTableSize
  slot : findTosendFree s.tosendFree = some i

/-- The packet in slot `i`, once it has a MAC address. -/
structure Kept (cfg : NetConfig) (dst : UInt32) (sport dport : UInt16) (payload : List UInt8)
    (deadline : UInt64) (s : Net) (i : Nat) : Prop where
  busy : ¬slotFree s.tosendFree i = true
  dstIp : (s.tosend i).dstIp = dst
  expireTime : (s.tosend i).expireTime = deadline
  pktLen : (s.tosend i).pktLen = 42 + payload.length
  frame : ∀ mac : MACAddress, UdpFrame cfg.ip dst mac sport dport payload
    ((s.tosend i).pkt.putBytes 0 mac.bytes)

theorem arpQuery_ok {s : Net} {arp : Arp}
    (h : DuckNet.arpQuery cfg.tscFreq s.now ip s.arp = (.ok (), arp)) :
    s.arpQuery cfg ip = arpSend cfg broadcastAddr arpRequest
      (arpPayload cfg.mac cfg.ip ⟨0, 0, 0, 0, 0, 0⟩ ip) { s with arp } := by
  simp only [Net.arpQuery, h]

/-- A packet for a host that is not known, when there is a slot for it. -/
theorem ipv4Send_kept {s s' : Net} {i : Nat} {protocol : UInt8} {payload pkt : Mem} {len : Int}
    (hunknown : arpLookup ip s.arp = none) (hasked : (s.arpQuery cfg ip).2 = s')
    (hslot : findTosendFree s'.tosendFree = some i)
    (hbuild : ipv4BuildPacket cfg (s'.tosend i).pkt ip protocol payload len = some pkt) :
    (ipv4Send cfg ip protocol payload len s).2 =
      { s' with
        tosend := Function.update s'.tosend i
          { dstIp := ip
            expireTime := timeAddMs cfg.tscFreq s'.now tosendTimeoutMs
            pktLen := len.toNat + ipv4HeaderSize + etherHeaderSize
            pkt }
        tosendFree := clearFree s'.tosendFree i } := by
  subst hasked
  simp only [ipv4Send, hunknown, hslot, hbuild]

variable (cfg) in
/-- `ducknet_udp_send` to a host that is not known asks for it and keeps the packet. -/
theorem udpSend_asks {s : Net} {i : Nat} (h : Ready ip s i) (data : Mem) {n : Nat} (hn : n ≤ 1472)
    (sport dport : UInt16) :
    let s' := (udpSend cfg ip dport sport data n s).2
    (∃ query, s'.sent = s.sent ++ [(.sendbuf, query)] ∧
      ∀ len m, Arrived query len m →
        ArpFrame broadcastAddr arpRequest cfg.mac cfg.ip ip m ∧ 42 ≤ len) ∧
    s'.arp.table = s.arp.table ∧
    Kept cfg ip sport dport (data.bytes 0 n) (timeAddMs cfg.tscFreq s.now tosendTimeoutMs) s'
      i := by
  have h2 : (n : Int) + udpHeaderSize + ipv4HeaderSize ≤ mtu := by
    rw [udpHeaderSize, ipv4HeaderSize, mtu]
    omega
  have h3 : ¬((n : Int) + udpHeaderSize) < 0 := by omega
  have hlen : ((n : Int) + udpHeaderSize).toNat = (data.bytes 0 n).length + udpHeaderSize := by
    rw [Mem.length_bytes]
    omega
  let udpBuf := (udpStores cfg ip dport sport (data.bytes 0 n)).exec s.udpBuf
  let s0 : Net := { s with udpBuf }
  -- the request
  obtain ⟨queryTable, hquery⟩ := arpQuery_sends h.quiet h.queryRoom cfg.tscFreq s.now
  let s1 : Net := { s0 with arp := { s.arp with queryTable } }
  let s2 : Net := (arpSend cfg broadcastAddr arpRequest
    (arpPayload cfg.mac cfg.ip ⟨0, 0, 0, 0, 0, 0⟩ ip) s1).2
  have hasked : (s0.arpQuery cfg ip).2 = s2 := congrArg Prod.snd (arpQuery_ok hquery)
  obtain ⟨query, hsent, harrives⟩ := arpSend_arrives cfg broadcastAddr arpRequest
    ⟨0, 0, 0, 0, 0, 0⟩ ip s1
  have hq : Quiet s1 s2 := quiet_arpSend cfg _ _ _ s1
  obtain ⟨harp, hnow⟩ : s2.arp = s1.arp ∧ s2.now = s1.now := TimedWorld.arp_arpSend _ _ _ s1
  have hslot : findTosendFree s2.tosendFree = some i := by
    rw [hq.tosendFree]
    exact h.slot
  -- the packet
  let pkt := (ipv4Stores cfg ip ipv4UDP
    (Mem.bytes udpBuf 0 ((data.bytes 0 n).length + udpHeaderSize))).exec (s2.tosend i).pkt
  have hbuild : ipv4BuildPacket cfg (s2.tosend i).pkt ip ipv4UDP udpBuf (n + udpHeaderSize)
      = some pkt := by
    unfold ipv4BuildPacket
    rw [if_neg h3, if_neg (not_lt.mpr h2), hlen]
  have hdatagram := udpSend_eq cfg ip dport sport data s (Int.natCast_nonneg n) h2
  rw [Int.toNat_natCast] at hdatagram
  have hout := (congrArg Prod.snd hdatagram).trans
    (ipv4Send_kept (show arpLookup ip s0.arp = none from h.unknown) hasked hslot hbuild)
  dsimp only
  rw [hout]
  refine ⟨⟨query, hsent, harrives⟩, ?_, ?_, ?_, ?_, ?_, fun mac => ?_⟩
  · show s2.arp.table = s.arp.table
    rw [harp]
  · exact fun hfree => (slotFree_clearFree.mp hfree).1 rfl
  · simp only [Function.update_self]
  · simp only [Function.update_self]
    rw [hnow]
  · simp only [Function.update_self]
    rw [hlen, udpHeaderSize, ipv4HeaderSize, etherHeaderSize]
    omega
  · simp only [Function.update_self]
    exact udpFrame_of_built (udpBuilt cfg ip dport sport s.udpBuf) (ipv4Built _)

/-- **A datagram for an unknown host arrives after one exchange.**  The sender asks once; the other
host, in any state, answers with one frame and does nothing else; with the answer the sender's next
sweep, before the packet expires, sends a frame that is delivered. -/
theorem datagram_crosses (cfgA cfgB : NetConfig) {a : Net} {i : Nat} (hready : Ready cfgB.ip a i)
    (data : Mem) {n : Nat} (hn : n ≤ 1472) (sport dport : UInt16) :
    let a1 := (udpSend cfgA cfgB.ip dport sport data n a).2
    ∃ query, a1.sent = a.sent ++ [(.sendbuf, query)] ∧
      ∀ (σ : Type) (udpB : UInt32 → UInt32 → Nat → Int → RecvM σ Int) (b : RecvState σ) (len : Int),
        Arrived query len b.buf.mem →
      let b1 := (packetHandle cfgB (Hooks.udpOnly udpB) len b).2
      b1.user = b.user ∧ ∃ reply, b1.net.sent = b.net.sent ++ [(.sendbuf, reply)] ∧
      ∀ (τ : Type) (udpA : UInt32 → UInt32 → Nat → Int → RecvM τ Int) (s : RecvState τ) (len : Int)
        (t1 t2 : UInt64), s.net = { a1 with now := t1 } → Arrived reply len s.buf.mem →
      let a2 := { (packetHandle cfgA (Hooks.udpOnly udpA) len s).2.net with now := t2 }
      t2 ≤ timeAddMs cfgA.tscFreq a.now tosendTimeoutMs → ipv4IdleDue a2 = true →
      ∃ before frame after,
        (ipv4Idle cfgA a2).sent = a1.sent ++ before ++ (.tosend i, frame) :: after ∧
        slotFree (ipv4Idle cfgA a2).tosendFree i = true ∧
        Delivers cfgA.ip cfgB sport dport (data.bytes 0 n) frame := by
  intro a1
  have hi : i < tosendTableSize := (findTosendFree_some hready.slot).1
  obtain ⟨⟨query, hquery, hasks⟩, htable, hkept⟩ :=
    udpSend_asks cfgA hready data hn sport dport
  refine ⟨query, hquery, fun σ udpB b lenB hB => ?_⟩
  -- the other host
  obtain ⟨hrequest, hlenB⟩ := hasks lenB b.buf.mem hB
  obtain ⟨hnetB, huserB⟩ := packetHandle_arp cfgB udpB hrequest hlenB (.inr rfl)
    (.inl ⟨rfl, rfl⟩) b ⟨⟨rfl, rfl⟩, rfl⟩
  rw [arpEffect, if_pos rfl] at hnetB
  obtain ⟨reply, hreply, hanswers⟩ :=
    arpSend_arrives cfgB cfgA.mac arpReply cfgA.mac cfgA.ip b.net
  refine ⟨huserB, reply, ?_, fun τ udpA s lenA t1 t2 hs hA => ?_⟩
  · rw [hnetB]
    exact hreply
  -- the answer
  obtain ⟨hframe, hlenA⟩ := hanswers lenA s.buf.mem hA
  obtain ⟨hnetA, -⟩ := packetHandle_arp cfgA udpA hframe hlenA (.inl rfl) (.inr rfl) s
    ⟨⟨rfl, rfl⟩, rfl⟩
  rw [arpEffect, if_neg (by decide), hs] at hnetA
  intro a2 ht2 hdue
  let known : Net := { a1 with
    now := t2
    arp := (arpUpdate cfgA.tscFreq t1 cfgB.ip cfgB.mac a1.arp).2 }
  have ha2 : a2 = known := by
    show ({ (packetHandle cfgA (Hooks.udpOnly udpA) lenA s).2.net with now := t2 } : Net) = known
    rw [hnetA]
  have htable1 : a1.arp.table = a.arp.table := htable
  have hmac : arpLookup (known.tosend i).dstIp known.arp = some cfgB.mac := by
    rw [show (known.tosend i).dstIp = cfgB.ip from hkept.dstIp]
    refine arpLookup_update ?_ ?_ ?_ _ _ _
    · rw [htable1]
      exact hready.sorted
    · rw [htable1]
      exact hready.fits
    · rw [htable1]
      exact hready.room
  rw [ha2] at hdue ⊢
  have hintime : known.now ≤ (known.tosend i).expireTime := by
    rw [show (known.tosend i).expireTime = _ from hkept.expireTime]
    exact ht2
  obtain ⟨before, after, hsent, hfree⟩ :=
    @ipv4Idle_sends cfgA cfgB.mac known i hi hkept.busy hintime hmac hdue
  refine ⟨before, _, after, hsent, hfree, ?_⟩
  have hpayload : (data.bytes 0 n).length ≤ 1472 := by
    rw [Mem.length_bytes]
    exact hn
  rw [show (known.tosend i).pktLen = _ from hkept.pktLen]
  exact delivers_frame (hkept.frame cfgB.mac) hpayload

theorem ready_init : Ready hostB.ip (Net.init hostA 0) 0 where
  unknown := rfl
  quiet := rfl
  queryRoom := by decide
  sorted := List.Pairwise.nil
  fits := .inl rfl
  room := by decide
  slot := by decide

/-- Three bytes from a host that knows nobody: it asks, and gets an answer. -/
theorem datagram_crosses_three :
    ∃ query, (udpSend hostA hostB.ip 9999 1234 (fun _ => 65) (3 : Nat) (Net.init hostA 0)).2.sent
        = [(.sendbuf, query)] ∧
      ∀ b : RecvState Unit, Arrived query 60 b.buf.mem →
        ∃ reply, (packetHandle hostB (Hooks.udpOnly fun _ _ _ _ => pure 0) 60 b).2.net.sent
          = b.net.sent ++ [(.sendbuf, reply)] := by
  obtain ⟨query, hsent, hrest⟩ := datagram_crosses hostA hostB ready_init (fun _ => 65)
    (show 3 ≤ 1472 by decide) 1234 9999
  refine ⟨query, hsent, fun b hb => ?_⟩
  obtain ⟨-, reply, hreply, -⟩ := hrest Unit (fun _ _ _ _ => pure 0) b 60 hb
  exact ⟨reply, hreply⟩

end DuckNet

end JudgeDuck
