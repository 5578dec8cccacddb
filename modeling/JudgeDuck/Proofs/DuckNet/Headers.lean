/-
The headers of a packet that was just built, and what a conversion does to them.

Turning the bytes of a field around twice gives the field back, and every store
leaves the bytes outside of its field alone; so each field can be followed through
the stores on its own.
-/
import JudgeDuck.Model.DuckNet.Receive

namespace JudgeDuck

namespace DuckNet

/-! ### Byte order -/

theorem htons_htons (x : UInt16) : htons (htons x) = x := by
  refine UInt16.eq_of_toBitVec_eq (BitVec.eq_of_getLsbD_eq fun i hi => ?_)
  unfold htons
  interval_cases i <;> simp

theorem htonl_htonl (x : UInt32) : htonl (htonl x) = x := by
  refine UInt32.eq_of_toBitVec_eq (BitVec.eq_of_getLsbD_eq fun i hi => ?_)
  unfold htonl
  interval_cases i <;> simp

/-! ### Fields that are turned around -/

/-- The buffer after `swap16` and `swap32`. -/
def swapped16 (m : Mem) (a : Nat) : Mem := m.write16 a (htons (m.read16 a))
def swapped32 (m : Mem) (a : Nat) : Mem := m.write32 a (htonl (m.read32 a))

theorem read16_swapped16 (m : Mem) (a : Nat) : (swapped16 m a).read16 a = htons (m.read16 a) :=
  Mem.read16_write16_self m a _

theorem read32_swapped32 (m : Mem) (a : Nat) : (swapped32 m a).read32 a = htonl (m.read32 a) :=
  Mem.read32_write32_self m a _

section Out

variable {m : Mem} {a b : Nat}

theorem swapped16_out (h : b < a ∨ a + 2 ≤ b) : swapped16 m a b = m b := Mem.write16_out h

theorem swapped32_out (h : b < a ∨ a + 4 ≤ b) : swapped32 m a b = m b := Mem.write32_out h

theorem read16_swapped16_of_disjoint (h : b + 2 ≤ a ∨ a + 2 ≤ b) :
    (swapped16 m a).read16 b = m.read16 b := Mem.read16_write16_of_disjoint h

theorem read16_swapped32_of_disjoint (h : b + 2 ≤ a ∨ a + 4 ≤ b) :
    (swapped32 m a).read16 b = m.read16 b := Mem.read16_write32_of_disjoint h

theorem read32_swapped16_of_disjoint (h : b + 4 ≤ a ∨ a + 2 ≤ b) :
    (swapped16 m a).read32 b = m.read32 b := Mem.read32_write16_of_disjoint h

theorem read32_swapped32_of_disjoint (h : b + 4 ≤ a ∨ a + 4 ≤ b) :
    (swapped32 m a).read32 b = m.read32 b := Mem.read32_write32_of_disjoint h

end Out

/-- The buffer after `udpHton`. -/
def udpSwapped (m : Mem) (h : Nat) : Mem :=
  swapped16 (swapped16 (swapped16 m h) (h + 2)) (h + 4)

/-- The buffer after `ipv4Hton`. -/
def ipv4Swapped (m : Mem) (h : Nat) : Mem :=
  let m := m.write8 h (versionIhl (ihlOf (m h)) (versionOf (m h)))
  swapped32 (swapped32 (swapped16 (swapped16 (swapped16 m (h + 2)) (h + 4)) (h + 6)) (h + 12))
    (h + 16)

/-- What is left alone by the conversion of a UDP header. -/
theorem udpSwapped_out {m : Mem} {h x : Nat} (hx : x < h ∨ h + 6 ≤ x) :
    udpSwapped m h x = m x := by
  simp (disch := omega) only [udpSwapped, swapped16_out]

theorem udpSwapped_ports (m : Mem) (h : Nat) :
    (udpSwapped m h).read16 h = htons (m.read16 h) ∧
      (udpSwapped m h).read16 (h + 2) = htons (m.read16 (h + 2)) := by
  simp (disch := omega) only [udpSwapped, read16_swapped16, read16_swapped16_of_disjoint, and_self]

/-- What is left alone by the conversion of an IPv4 header. -/
theorem ipv4Swapped_out {m : Mem} {h x : Nat} (hx : x < h ∨ h + 20 ≤ x ∨ h + 8 ≤ x ∧ x < h + 12) :
    ipv4Swapped m h x = m x := by
  simp (disch := omega) only [ipv4Swapped, swapped32_out, swapped16_out, Mem.write8_out]

/-- The fields of a converted IPv4 header that the handler looks at. -/
structure Ipv4Turned (m m' : Mem) (h : Nat) : Prop where
  version : m' h = versionIhl (ihlOf (m h)) (versionOf (m h))
  length : m'.read16 (h + 2) = htons (m.read16 (h + 2))
  flags : m'.read16 (h + 6) = htons (m.read16 (h + 6))
  src : m'.read32 (h + 12) = htonl (m.read32 (h + 12))
  dst : m'.read32 (h + 16) = htonl (m.read32 (h + 16))

theorem ipv4Turned (m : Mem) (h : Nat) : Ipv4Turned m (ipv4Swapped m h) h := by
  constructor
  · simp (disch := omega) only [ipv4Swapped, swapped32_out, swapped16_out, Mem.write8_self]
  · simp (disch := omega) only [ipv4Swapped, read16_swapped32_of_disjoint,
      read16_swapped16_of_disjoint, read16_swapped16, Mem.read16_write8_of_disjoint]
  · simp (disch := omega) only [ipv4Swapped, read16_swapped32_of_disjoint,
      read16_swapped16_of_disjoint, read16_swapped16, Mem.read16_write8_of_disjoint]
  · simp (disch := omega) only [ipv4Swapped, read32_swapped32_of_disjoint,
      read32_swapped16_of_disjoint, read32_swapped32, Mem.read32_write8_of_disjoint]
  · simp (disch := omega) only [ipv4Swapped, read32_swapped32_of_disjoint,
      read32_swapped16_of_disjoint, read32_swapped32, Mem.read32_write8_of_disjoint]

/-! ### Built packets -/

/-- The header fields of a packet for `dst`, in network order, and its payload. -/
structure Ipv4Built (cfg : NetConfig) (dst : UInt32) (protocol : UInt8) (payload : List UInt8)
    (m : Mem) : Prop where
  ethertype : m.read16 12 = htons ethertypeIPv4
  version : m 14 = versionIhl 5 4
  length : m.read16 16 = htons (UInt16.ofNat (payload.length + ipv4HeaderSize))
  flags : m.read16 20 = htons 0
  protocol : m 23 = protocol
  src : m.read32 26 = htonl cfg.ip
  dst : m.read32 30 = htonl dst
  payload : ∀ i (hi : i < payload.length), m (34 + i) = payload[i]

variable {cfg : NetConfig} {dst : UInt32} {protocol : UInt8} {payload : List UInt8}

/-- The headers before they are converted. -/
def ipv4Plain (cfg : NetConfig) (dst : UInt32) (protocol : UInt8) (len : Nat) (m : Mem) : Mem :=
  let m := (m.putBytes 6 cfg.mac.bytes).write16 12 (htons ethertypeIPv4)
  let m := ((m.write8 14 (versionIhl 4 5)).write8 15 0).write16 16
    (UInt16.ofNat (len + ipv4HeaderSize))
  let m := ((m.write16 18 2333).write16 20 0).write8 22 233
  (((m.write8 23 protocol).write32 26 cfg.ip).write32 30 dst).write16 24 0

theorem exec_ipv4Stores (m : Mem) :
    (ipv4Stores cfg dst protocol payload).exec m =
      ((ipv4Swapped (ipv4Plain cfg dst protocol payload.length m) 14).write16 24
        (checksum ((ipv4Swapped (ipv4Plain cfg dst protocol payload.length m) 14).bytes 14
          ipv4HeaderSize) 0)).putBytes 34 payload := rfl

theorem ipv4Built (m : Mem) :
    Ipv4Built cfg dst protocol payload ((ipv4Stores cfg dst protocol payload).exec m) := by
  have hmac : cfg.mac.bytes.length = 6 := rfl
  have hturned := ipv4Turned (ipv4Plain cfg dst protocol payload.length m) 14
  rw [exec_ipv4Stores]
  constructor
  · rw [Mem.read16_putBytes_of_disjoint (by omega), Mem.read16_write16_of_disjoint (by omega),
      Mem.read16_congr fun x _ _ => ipv4Swapped_out (by omega)]
    simp (disch := omega) only [ipv4Plain, Mem.read16_write16_of_disjoint,
      Mem.read16_write32_of_disjoint, Mem.read16_write8_of_disjoint, Mem.read16_write16_self]
  · rw [Mem.putBytes_out (by omega), Mem.write16_out (by omega), hturned.version]
    have hplain : ipv4Plain cfg dst protocol payload.length m 14 = versionIhl 4 5 := by
      simp (disch := omega) only [ipv4Plain, Mem.write16_out, Mem.write32_out, Mem.write8_out,
        Mem.write8_self]
    rw [hplain]
    decide
  · rw [Mem.read16_putBytes_of_disjoint (by omega), Mem.read16_write16_of_disjoint (by omega),
      hturned.length]
    simp (disch := omega) only [ipv4Plain, Mem.read16_write16_of_disjoint,
      Mem.read16_write32_of_disjoint, Mem.read16_write8_of_disjoint, Mem.read16_write16_self]
  · rw [Mem.read16_putBytes_of_disjoint (by omega), Mem.read16_write16_of_disjoint (by omega),
      hturned.flags]
    simp (disch := omega) only [ipv4Plain, Mem.read16_write16_of_disjoint,
      Mem.read16_write32_of_disjoint, Mem.read16_write8_of_disjoint, Mem.read16_write16_self]
  · rw [Mem.putBytes_out (by omega), Mem.write16_out (by omega), ipv4Swapped_out (by omega)]
    simp (disch := omega) only [ipv4Plain, Mem.write16_out, Mem.write32_out, Mem.write8_self]
  · rw [Mem.read32_putBytes_of_disjoint (by omega), Mem.read32_write16_of_disjoint (by omega),
      hturned.src]
    simp (disch := omega) only [ipv4Plain, Mem.read32_write16_of_disjoint,
      Mem.read32_write32_of_disjoint, Mem.read32_write32_self]
  · rw [Mem.read32_putBytes_of_disjoint (by omega), Mem.read32_write16_of_disjoint (by omega),
      hturned.dst]
    simp (disch := omega) only [ipv4Plain, Mem.read32_write16_of_disjoint, Mem.read32_write32_self]
  · intro i hi
    exact Mem.putBytes_add hi

/-- The header fields and the payload of a UDP datagram, in network order. -/
structure UdpBuilt (dport sport : UInt16) (payload : List UInt8) (m : Mem) : Prop where
  sport : m.read16 0 = htons sport
  dport : m.read16 2 = htons dport
  payload : ∀ i (hi : i < payload.length), m (8 + i) = payload[i]

variable (cfg dst) in
theorem udpBuilt (dport sport : UInt16) (m : Mem) :
    UdpBuilt dport sport payload ((udpStores cfg dst dport sport payload).exec m) := by
  -- the checksum is the last thing that is stored
  have hexec : ∃ sum : UInt16, (udpStores cfg dst dport sport payload).exec m =
      ((udpSwapped ((((m.write16 0 sport).write16 2 dport).write16 4
        (UInt16.ofNat (payload.length + udpHeaderSize))).write16 6 0) 0).putBytes 8
          payload).write16 6
        sum := ⟨_, rfl⟩
  obtain ⟨sum, hexec⟩ := hexec
  rw [hexec]
  constructor
  · rw [Mem.read16_write16_of_disjoint (by omega), Mem.read16_putBytes_of_disjoint (by omega),
      (udpSwapped_ports _ 0).1]
    simp (disch := omega) only [Mem.read16_write16_of_disjoint, Mem.read16_write16_self]
  · rw [Mem.read16_write16_of_disjoint (by omega), Mem.read16_putBytes_of_disjoint (by omega)]
    refine (udpSwapped_ports _ 0).2.trans ?_
    simp (disch := omega) only [Mem.read16_write16_of_disjoint, Mem.read16_write16_self]
  · intro i hi
    rw [Mem.write16_out (by omega), Mem.putBytes_add hi]

end DuckNet

end JudgeDuck
