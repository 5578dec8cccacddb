/-
Packet buffers: byte order, field accesses and the header fields.

A handler works on the buffer it is given through offsets from its start.  The
accesses to a buffer are logged, because what a handler may touch depends on how
much of the buffer the frame fills; so are the lengths that the handlers hand on.
The conversions of the headers between host and network order happen in place and
are used both to build packets and to take them apart.
-/
import JudgeDuck.Base.Mem
import JudgeDuck.Model.DuckNet.Arp

namespace JudgeDuck

namespace DuckNet

/-! ### Byte order -/

/-- `ducknet_htons`. -/
def htons (x : UInt16) : UInt16 := ((x &&& 0xff00) >>> 8) ||| ((x &&& 0x00ff) <<< 8)

/-- `ducknet_htonl`. -/
def htonl (x : UInt32) : UInt32 :=
  ((x &&& 0xff000000) >>> 24) ||| ((x &&& 0x00ff0000) >>> 8) |||
    ((x &&& 0x0000ff00) <<< 8) ||| ((x &&& 0x000000ff) <<< 24)

/-! ### Accesses -/

/-- An access to `n` bytes from offset `a` on; the NUL at `a` that ended a string; a handler that is
called for the bytes from `a` on and told that there are `len`; a reply that is written over the
bytes from `a` on and sent. -/
inductive Access where
  | read (a n : Nat)
  | write (a n : Nat)
  | nul (a : Nat)
  | layer (a : Nat) (len : Int)
  | reply (a : Nat)
deriving DecidableEq

/-- A buffer and the accesses to it so far. -/
structure Buf where
  mem : Mem
  log : List Access

abbrev BufM := StateM Buf

def rd8 (a : Nat) : BufM UInt8 := fun s => (s.mem a, { s with log := s.log ++ [.read a 1] })
def rd16 (a : Nat) : BufM UInt16 :=
  fun s => (s.mem.read16 a, { s with log := s.log ++ [.read a 2] })
def rd32 (a : Nat) : BufM UInt32 :=
  fun s => (s.mem.read32 a, { s with log := s.log ++ [.read a 4] })
def rd64 (a : Nat) : BufM UInt64 :=
  fun s => (s.mem.read64 a, { s with log := s.log ++ [.read a 8] })
def rdBytes (a n : Nat) : BufM (List UInt8) :=
  fun s => (s.mem.bytes a n, { s with log := s.log ++ [.read a n] })

def wr8 (a : Nat) (v : UInt8) : BufM Unit :=
  fun s => ((), { mem := s.mem.write8 a v, log := s.log ++ [.write a 1] })
def wr16 (a : Nat) (v : UInt16) : BufM Unit :=
  fun s => ((), { mem := s.mem.write16 a v, log := s.log ++ [.write a 2] })
def wr32 (a : Nat) (v : UInt32) : BufM Unit :=
  fun s => ((), { mem := s.mem.write32 a v, log := s.log ++ [.write a 4] })
def wrBytes (a : Nat) (bs : List UInt8) : BufM Unit :=
  fun s => ((), { mem := s.mem.putBytes a bs, log := s.log ++ [.write a bs.length] })

/-- The length of the string at `a`; `fuel` is the size of what is left of the buffer. -/
def strlen (m : Mem) : Nat → Nat → Nat
  | 0, _ => 0
  | fuel + 1, a => if m a = 0 then 0 else strlen m fuel (a + 1) + 1

/-- The string at `a` in a buffer of `size` bytes. -/
def rdString (size a : Nat) : BufM (List UInt8) := fun s =>
  let n := strlen s.mem (size - a) a
  (s.mem.bytes a n, { s with log := s.log ++ [.read a n, .nul (a + n)] })

/-- Note a handler or a reply. -/
def note (e : Access) : BufM Unit := fun s => ((), { s with log := s.log ++ [e] })

/-- The buffer after the accesses of `x`. -/
def BufM.exec {α : Type} (x : BufM α) (m : Mem) : Mem := (x { mem := m, log := [] }).2.mem

def rdMac (a : Nat) : BufM MACAddress := do
  return ⟨← rd8 a, ← rd8 (a + 1), ← rd8 (a + 2), ← rd8 (a + 3), ← rd8 (a + 4), ← rd8 (a + 5)⟩

/-! ### Checksums -/

/-- `ducknet_checksum_sum`. -/
def checksumSum : List UInt8 → UInt32
  | [] => 0
  | [b] => b.toUInt32
  | b0 :: b1 :: bs => (b0.toUInt32 ||| b1.toUInt32 <<< 8) + checksumSum bs

/-- The loop `while (sum >> 16)`; two rounds are enough for any `sum`, and a third does nothing. -/
def checksumFold : Nat → UInt32 → UInt32
  | 0, sum => sum
  | fuel + 1, sum =>
    if sum >>> 16 ≠ 0 then checksumFold fuel ((sum &&& (0xffff : UInt32)) + (sum >>> 16)) else sum

/-- `ducknet_checksum`. -/
def checksum (bs : List UInt8) (sum : UInt32) : UInt16 :=
  ~~~(checksumFold 3 (sum + checksumSum bs)).toUInt16

/-! ### Headers -/

def ethertypeIPv4 : UInt16 := 0x0800
def ethertypeARP : UInt16 := 0x0806
def ipv4ICMP : UInt8 := 1
def ipv4UDP : UInt8 := 17
def ipv4FlagsDF : UInt16 := 0x4000

/-- The sizes of the packed header structures. -/
def etherHeaderSize : Nat := 14
def arpHeaderSize : Nat := 8
def ipv4HeaderSize : Nat := 20
def udpHeaderSize : Nat := 8
def icmpHeaderSize : Nat := 8

/-- `ducknet_MTU`. -/
def mtu : Int := 1500

/-- `ducknet_ether_broadcast_addr`. -/
def broadcastAddr : MACAddress := ⟨255, 255, 255, 255, 255, 255⟩

/-- Turn the bytes of a field around in place. -/
def swap16 (a : Nat) : BufM Unit := do
  wr16 a (htons (← rd16 a))

def swap32 (a : Nat) : BufM Unit := do
  wr32 a (htonl (← rd32 a))

/-- `ducknet_ether_hton` of the header at `h`. -/
def etherHton (h : Nat) : BufM Unit := swap16 (h + 12)

/-- `ducknet_arp_hton`. -/
def arpHton (h : Nat) : BufM Unit := do
  swap16 h
  swap16 (h + 2)
  swap16 (h + 6)

/-- The bit-fields of the first byte of the IPv4 header: `version` is the low half on x86. -/
def versionOf (b : UInt8) : UInt8 := b &&& 0x0f
def ihlOf (b : UInt8) : UInt8 := b >>> 4
def versionIhl (version ihl : UInt8) : UInt8 := (version &&& (0x0f : UInt8)) ||| (ihl <<< 4)

/-- `ducknet_ipv4_hton`. -/
def ipv4Hton (h : Nat) : BufM Unit := do
  let b ← rd8 h
  wr8 h (versionIhl (ihlOf b) (versionOf b))
  swap16 (h + 2)
  swap16 (h + 4)
  swap16 (h + 6)
  swap32 (h + 12)
  swap32 (h + 16)

/-- `ducknet_udp_hton`. -/
def udpHton (h : Nat) : BufM Unit := do
  swap16 h
  swap16 (h + 2)
  swap16 (h + 4)

end DuckNet

end JudgeDuck
