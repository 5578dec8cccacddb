/-
The sending half of ducknet: `phy.cpp`, `arp.cpp`, `ipv4.cpp` and `udp.cpp`.

A packet for a host whose MAC address is not known yet waits in one of the 64
slots of the to-send table; `tosend_free` has a bit for every slot.  What
`ducknet_phy_send` is called with is recorded together with the buffer it points
to, because a packet is sent from the buffer it was built in.
-/
import JudgeDuck.Model.DuckNet.Buf

namespace JudgeDuck

namespace DuckNet

/-- What stays the same after `ducknet_init`; `phySend` is the result of `ducknet_phy_send` after a
given history of calls. -/
structure NetConfig where
  mac : MACAddress
  ip : UInt32
  tscFreq : UInt64
  phySend : List (List UInt8) → Int

/-- The buffers that packets are sent from. -/
inductive Buffer where
  | sendbuf
  | tosend (i : Nat)
deriving DecidableEq

/-- An entry of `tosend_table`. -/
structure ToSend where
  dstIp : UInt32
  expireTime : UInt64
  pktLen : Nat
  pkt : Mem

/-- The static variables of the library. -/
structure Net where
  now : UInt64
  arp : Arp
  tosend : Nat → ToSend
  tosendFree : Nat → UInt32
  lastIdleTime : UInt64
  idleDelay : UInt64
  cnt : Nat
  sendbuf : Mem
  udpBuf : Mem
  sent : List (Buffer × List UInt8)

def tosendTableSize : Nat := 64
def tosendTimeoutMs : UInt64 := 5000

/-! ### `tosend_free` -/

/-- The bit of slot `i` in its word. -/
def slotBit (i : Nat) : UInt32 := (1 : UInt32) <<< UInt32.ofNat (i % 32)

def slotFree (free : Nat → UInt32) (i : Nat) : Bool := free (i / 32) &&& slotBit i ≠ 0

def setFree (free : Nat → UInt32) (i : Nat) : Nat → UInt32 :=
  Function.update free (i / 32) (free (i / 32) ||| slotBit i)

def clearFree (free : Nat → UInt32) (i : Nat) : Nat → UInt32 :=
  Function.update free (i / 32) (free (i / 32) &&& ~~~slotBit i)

/-- `get_lower_bit_index` of a word that is not zero. -/
def getLowerBitIndex (x : UInt32) : Nat :=
  ((List.range 32).find? fun i => (x >>> UInt32.ofNat i) &&& (1 : UInt32) ≠ 0).getD 32

/-- `find_tosend_free`. -/
def findTosendFree (free : Nat → UInt32) : Option Nat :=
  (List.range 2).findSome? fun i =>
    if free i ≠ 0 then some (i <<< 5 ||| getLowerBitIndex (free i)) else none

/-- `ducknet_init`, as far as sending goes. -/
def Net.init (cfg : NetConfig) (now : UInt64) : Net where
  now
  arp := arpInit cfg.tscFreq now
  tosend := fun _ => ⟨0, 0, 0, fun _ => 0⟩
  tosendFree := (List.range tosendTableSize).foldl setFree fun _ => 0
  lastIdleTime := now
  idleDelay := DuckNet.idleDelay cfg.tscFreq
  cnt := 0
  sendbuf := fun _ => 0
  udpBuf := fun _ => 0
  sent := []

/-! ### Physical layer and ARP requests -/

/-- The contents of a buffer. -/
def Net.buffer (s : Net) : Buffer → Mem
  | .sendbuf => s.sendbuf
  | .tosend i => (s.tosend i).pkt

/-- `ducknet_phy_send`. -/
def phySend (cfg : NetConfig) (b : Buffer) (len : Nat) (s : Net) : Int × Net :=
  let sent := s.sent ++ [(b, (s.buffer b).bytes 0 len)]
  (cfg.phySend (sent.map Prod.snd), { s with sent })

/-- The bytes of a word in memory. -/
def bytes32 (v : UInt32) : List UInt8 := (List.range 4).map (Mem.byteLE v.toNat)

def arpRequest : UInt16 := 1
def arpReply : UInt16 := 2

/-- The payload of an ARP packet: `sha`, `spa`, `tha`, `tpa`. -/
def arpPayload (sha : MACAddress) (spa : UInt32) (tha : MACAddress) (tpa : UInt32) : List UInt8 :=
  sha.bytes ++ bytes32 (htonl spa) ++ tha.bytes ++ bytes32 (htonl tpa)

/-- The stores of `ducknet_arp_send`. -/
def arpBuildPacket (cfg : NetConfig) (dst : MACAddress) (op : UInt16) (payload : List UInt8) :
    BufM Unit := do
  wrBytes 0 dst.bytes
  wrBytes 6 cfg.mac.bytes
  wr16 12 (htons ethertypeARP)
  wr16 14 (htons 1)
  wr16 16 (htons 0x0800)
  wr8 18 6
  wr8 19 4
  wr16 20 (htons op)
  wrBytes 22 payload

/-- `ducknet_arp_send`. -/
def arpSend (cfg : NetConfig) (dst : MACAddress) (op : UInt16) (payload : List UInt8) (s : Net) :
    Int × Net :=
  if (payload.length + arpHeaderSize : Int) > mtu then (-1, s)
  else
    phySend cfg .sendbuf (payload.length + arpHeaderSize + etherHeaderSize)
      { s with sendbuf := (arpBuildPacket cfg dst op payload).exec s.sendbuf }

/-- `ducknet_arp_query`. -/
def Net.arpQuery (cfg : NetConfig) (ip : UInt32) (s : Net) : Int × Net :=
  match DuckNet.arpQuery cfg.tscFreq s.now ip s.arp with
  | (.error r, arp) => (r, { s with arp })
  | (.ok (), arp) =>
    arpSend cfg broadcastAddr arpRequest (arpPayload cfg.mac cfg.ip ⟨0, 0, 0, 0, 0, 0⟩ ip)
      { s with arp }

/-! ### IPv4 -/

/-- The stores of `ipv4_build_packet`; the Ethernet destination is left as it is. -/
def ipv4Stores (cfg : NetConfig) (dst : UInt32) (protocol : UInt8) (payload : List UInt8) :
    BufM Unit := do
  wrBytes 6 cfg.mac.bytes
  wr16 12 (htons ethertypeIPv4)
  wr8 14 (versionIhl 4 5)
  wr8 15 0
  wr16 16 (UInt16.ofNat (payload.length + ipv4HeaderSize))
  wr16 18 2333
  wr16 20 0
  wr8 22 233
  wr8 23 protocol
  wr32 26 cfg.ip
  wr32 30 dst
  wr16 24 0
  ipv4Hton 14
  wr16 24 (checksum (← rdBytes 14 ipv4HeaderSize) 0)
  wrBytes 34 payload

/-- `ipv4_build_packet` in the buffer `pkt`; `none` is the result -1. -/
def ipv4BuildPacket (cfg : NetConfig) (pkt : Mem) (dst : UInt32) (protocol : UInt8) (payload : Mem)
    (len : Int) : Option Mem :=
  if len < 0 then none
  else if len + ipv4HeaderSize > mtu then none
  else some ((ipv4Stores cfg dst protocol (payload.bytes 0 len.toNat)).exec pkt)

/-- `ducknet_ipv4_send`. -/
def ipv4Send (cfg : NetConfig) (dst : UInt32) (protocol : UInt8) (payload : Mem) (len : Int)
    (s : Net) : Int × Net :=
  match arpLookup dst s.arp with
  | some dstMac =>
    match ipv4BuildPacket cfg s.sendbuf dst protocol payload len with
    | none => (-1, s)
    | some pkt =>
      phySend cfg .sendbuf (len.toNat + ipv4HeaderSize + etherHeaderSize)
        { s with sendbuf := pkt.putBytes 0 dstMac.bytes }
  | none =>
    let s := (s.arpQuery cfg dst).2
    match findTosendFree s.tosendFree with
    | none => (-1, s)
    | some id =>
      match ipv4BuildPacket cfg (s.tosend id).pkt dst protocol payload len with
      | none => (-1, s)
      | some pkt =>
        let e : ToSend :=
          { dstIp := dst
            expireTime := timeAddMs cfg.tscFreq s.now tosendTimeoutMs
            pktLen := len.toNat + ipv4HeaderSize + etherHeaderSize
            pkt }
        (0, { s with
          tosend := Function.update s.tosend id e
          tosendFree := clearFree s.tosendFree id })

/-- What a sweep finds in a slot. -/
inductive SlotCase where
  | free
  | expired
  | found (mac : MACAddress)
  | unknown
deriving DecidableEq

def slotCase (s : Net) (i : Nat) : SlotCase :=
  if slotFree s.tosendFree i then .free
  else if s.now > (s.tosend i).expireTime then .expired
  else
    match arpLookup (s.tosend i).dstIp s.arp with
    | some mac => .found mac
    | none => .unknown

/-- The body of the loop of `ducknet_ipv4_idle`. -/
def ipv4IdleSlot (cfg : NetConfig) (s : Net) (i : Nat) : Net :=
  match slotCase s i with
  | .free => s
  | .expired => { s with tosendFree := setFree s.tosendFree i }
  | .found mac =>
    let e := s.tosend i
    let s := { s with
      tosendFree := setFree s.tosendFree i
      tosend := Function.update s.tosend i { e with pkt := e.pkt.putBytes 0 mac.bytes } }
    (phySend cfg (.tosend i) e.pktLen s).2
  | .unknown => (s.arpQuery cfg (s.tosend i).dstIp).2

/-- Whether this call of `ducknet_ipv4_idle` sweeps. -/
def ipv4IdleDue (s : Net) : Bool := ¬(s.cnt + 1 < 1024 ∧ s.now - s.lastIdleTime ≤ s.idleDelay)

/-- `ducknet_ipv4_idle`. -/
def ipv4Idle (cfg : NetConfig) (s : Net) : Net :=
  if ipv4IdleDue s then
    (List.range tosendTableSize).foldl (ipv4IdleSlot cfg) { s with lastIdleTime := s.now, cnt := 0 }
  else { s with cnt := s.cnt + 1 }

/-! ### UDP -/

/-- The stores of `ducknet_udp_send` in its own buffer. -/
def udpStores (cfg : NetConfig) (dst : UInt32) (dport sport : UInt16) (payload : List UInt8) :
    BufM Unit := do
  let udpLen := payload.length + udpHeaderSize
  wr16 0 sport
  wr16 2 dport
  wr16 4 (UInt16.ofNat udpLen)
  wr16 6 0
  udpHton 0
  wrBytes 8 payload
  -- the pseudo header: source, destination, a zero byte, the protocol and the length
  let ph := bytes32 (htonl cfg.ip) ++ bytes32 (htonl dst) ++ [0, ipv4UDP] ++
    [Mem.byteLE (htons (UInt16.ofNat udpLen)).toNat 0,
      Mem.byteLE (htons (UInt16.ofNat udpLen)).toNat 1]
  wr16 6 (checksum (← rdBytes 0 udpLen) (checksumSum ph))

/-- `ducknet_udp_send`. -/
def udpSend (cfg : NetConfig) (dst : UInt32) (dport sport : UInt16) (payload : Mem) (len : Int)
    (s : Net) : Int × Net :=
  if len < 0 then (-1, s)
  else if len + udpHeaderSize + ipv4HeaderSize > mtu then (-1, s)
  else
    let udpBuf := (udpStores cfg dst dport sport (payload.bytes 0 len.toNat)).exec s.udpBuf
    ipv4Send cfg dst ipv4UDP udpBuf (len + udpHeaderSize) { s with udpBuf }

end DuckNet

end JudgeDuck
