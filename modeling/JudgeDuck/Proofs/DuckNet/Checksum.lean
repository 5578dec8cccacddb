/-
The checksums of the three senders.

The sums are 32-bit words, but no packet is long enough for them to wrap.  Each sender
sums its data with a zero in the checksum field and stores the complement there, so the
sum of what it sends is a multiple of 65535 and verifies.  That multiple can be reached
without the field as well: then the field is zero, which a UDP receiver reads as no
checksum at all.
-/
import JudgeDuck.Base.OnesComplement
import JudgeDuck.Proofs.DuckNet.RoundTrip

namespace JudgeDuck

namespace DuckNet

/-! ### Sums without overflow -/

private theorem word_toNat (b0 b1 : UInt8) :
    (b0.toUInt32 ||| b1.toUInt32 <<< 8).toNat = b0.toNat + 256 * b1.toNat := by
  have h0 := b0.toNat_lt
  have h1 := b1.toNat_lt
  have hshift : (b1.toUInt32 <<< 8).toNat = b1.toNat <<< 8 := by
    rw [UInt32.toNat_shiftLeft, UInt8.toNat_toUInt32]
    show b1.toNat <<< 8 % 2 ^ 32 = b1.toNat <<< 8
    rw [Nat.shiftLeft_eq]
    omega
  rw [UInt32.toNat_or, hshift, UInt8.toNat_toUInt32, Nat.lor_comm,
    ← Nat.shiftLeft_add_eq_or_of_lt (by omega), Nat.shiftLeft_eq]
  omega

/-- The words of a packet do not wrap. -/
theorem checksumSum_toNat : ∀ bs : List UInt8, bs.length ≤ 65547 →
    (checksumSum bs).toNat = wordSum bs
  | [], _ => rfl
  | [b], _ => by rw [checksumSum, wordSum, UInt8.toNat_toUInt32]
  | b0 :: b1 :: bs, h => by
    have hbound := wordSum_le (b0 :: b1 :: bs)
    simp only [List.length_cons] at h hbound
    have ih := checksumSum_toNat bs (by omega)
    rw [wordSum] at hbound
    rw [checksumSum, wordSum, UInt32.toNat_add, word_toNat, ih]
    omega

/-- The running sum of two parts does not wrap either. -/
theorem add_checksumSum_toNat {start bs : List UInt8} (h : start.length + bs.length ≤ 65547) :
    (checksumSum start + checksumSum bs).toNat = wordSum start + wordSum bs := by
  have h1 := wordSum_le start
  have h2 := wordSum_le bs
  rw [UInt32.toNat_add, checksumSum_toNat start (by omega), checksumSum_toNat bs (by omega)]
  omega

/-! ### Folding -/

private theorem shift16_toNat (sum : UInt32) : (sum >>> 16).toNat = sum.toNat / 65536 := by
  rw [UInt32.toNat_shiftRight]
  exact Nat.shiftRight_eq_div_pow sum.toNat 16

private theorem low16_toNat (sum : UInt32) : (sum &&& 0xffff).toNat = sum.toNat % 65536 := by
  rw [UInt32.toNat_and]
  exact Nat.and_two_pow_sub_one_eq_mod sum.toNat 16

theorem checksumFold_stop {sum : UInt32} (h : sum.toNat < 65536) (fuel : Nat) :
    checksumFold fuel sum = sum := by
  cases fuel with
  | zero => rfl
  | succ fuel =>
      have hzero : sum >>> 16 = 0 := by
        refine UInt32.toNat_inj.mp ?_
        rw [shift16_toNat, Nat.div_eq_of_lt h]
        rfl
      rw [checksumFold, if_neg (not_not.mpr hzero)]

theorem checksumFold_step {sum : UInt32} (h : ¬sum.toNat < 65536) (fuel : Nat) :
    ∃ next : UInt32, checksumFold (fuel + 1) sum = checksumFold fuel next ∧
      next.toNat = sum.toNat % 65536 + sum.toNat / 65536 := by
  have hne : sum >>> 16 ≠ 0 := by
    intro hzero
    have hnat := shift16_toNat sum
    rw [hzero] at hnat
    have : (0 : UInt32).toNat = 0 := rfl
    omega
  have hlt := sum.toNat_lt
  refine ⟨_, if_pos hne, ?_⟩
  rw [UInt32.toNat_add, low16_toNat, shift16_toNat]
  omega

/-- Two rounds are enough. -/
theorem checksumFold_toNat (sum : UInt32) : (checksumFold 3 sum).toNat = folded sum.toNat := by
  have hlt := sum.toNat_lt
  by_cases h0 : sum.toNat < 65536
  · rw [checksumFold_stop h0, folded_of_lt h0]
  · obtain ⟨sum1, he1, hn1⟩ := checksumFold_step h0 2
    rw [he1, ← folded_fold, ← hn1]
    by_cases h1 : sum1.toNat < 65536
    · rw [checksumFold_stop h1, folded_of_lt h1]
    · obtain ⟨sum2, he2, hn2⟩ := checksumFold_step h1 1
      have h2 : sum2.toNat < 65536 := by omega
      rw [he2, checksumFold_stop h2, ← folded_fold, ← hn2, folded_of_lt h2]

/-- The checksum is the complement of the folded sum. -/
theorem checksum_toNat {start bs : List UInt8} (h : start.length + bs.length ≤ 65547) :
    (checksum bs (checksumSum start)).toNat = 65535 - folded (wordSum start + wordSum bs) := by
  have hle := folded_le (wordSum start + wordSum bs)
  rw [checksum, UInt16.toNat_not, UInt32.toNat_toUInt16, checksumFold_toNat,
    add_checksumSum_toNat h]
  show 2 ^ 16 - 1 - _ % 2 ^ 16 = _
  omega

/-- A sum that is a multiple of 65535 verifies. -/
theorem checksum_verifies {bs : List UInt8} (h : bs.length ≤ 65547)
    (hsum : folded (wordSum bs) = 65535) : checksum bs 0 = 0 := by
  refine UInt16.toNat_inj.mp ((@checksum_toNat [] bs (by simpa using h)).trans ?_)
  rw [wordSum, Nat.zero_add, hsum]
  rfl

/-! ### The checksum field -/

/-- The bytes around a field at an even offset. -/
theorem wordSum_bytes_split (m : Mem) (a : Nat) {k n : Nat} (hk : k % 2 = 0) (hkn : k + 2 ≤ n) :
    wordSum (m.bytes a n)
      = wordSum (m.bytes a k) +
        (wordSum (m.bytes (a + k) 2) + wordSum (m.bytes (a + k + 2) (n - k - 2))) := by
  have hsplit : m.bytes a n
      = m.bytes a k ++ (m.bytes (a + k) 2 ++ m.bytes (a + k + 2) (n - k - 2)) := by
    rw [← Mem.bytes_add, ← Mem.bytes_add]
    congr 1
    omega
  rw [hsplit, wordSum_append _ _ (by rw [Mem.length_bytes]; exact hk),
    wordSum_append _ _ (by rw [Mem.length_bytes])]

theorem wordSum_bytes_two (m : Mem) (a : Nat) :
    wordSum (m.bytes a 2) = (m a).toNat + 256 * (m (a + 1)).toNat := rfl

theorem wordSum_write16 (m : Mem) (a : Nat) (v : UInt16) :
    wordSum ((m.write16 a v).bytes a 2) = v.toNat := by
  have hv := v.toNat_lt
  have h0 : m.write16 a v a = Mem.byteLE v.toNat 0 := Mem.put_add (i := 0) (by decide)
  have h1 : m.write16 a v (a + 1) = Mem.byteLE v.toNat 1 := Mem.put_add (i := 1) (by decide)
  rw [wordSum_bytes_two, h0, h1, Mem.byteLE, Mem.byteLE, UInt8.toNat_ofNat', UInt8.toNat_ofNat']
  omega

/-- The sum with a value in a field that was zero. -/
theorem wordSum_field (m : Mem) (a : Nat) {k n : Nat} (hk : k % 2 = 0) (hkn : k + 2 ≤ n)
    (h0 : m (a + k) = 0) (h1 : m (a + k + 1) = 0) (v : UInt16) :
    wordSum ((m.write16 (a + k) v).bytes a n) = wordSum (m.bytes a n) + v.toNat := by
  have hfront : (m.write16 (a + k) v).bytes a k = m.bytes a k :=
    Mem.bytes_congr fun x _ _ => Mem.write16_out (by omega)
  have hback : (m.write16 (a + k) v).bytes (a + k + 2) (n - k - 2)
      = m.bytes (a + k + 2) (n - k - 2) :=
    Mem.bytes_congr fun x _ _ => Mem.write16_out (by omega)
  have hzero : wordSum (m.bytes (a + k) 2) = 0 := by
    rw [wordSum_bytes_two, h0, h1]
    rfl
  rw [wordSum_bytes_split _ a hk hkn, wordSum_bytes_split m a hk hkn, hfront, hback, hzero,
    wordSum_write16]
  omega

/-- The checksum of the data with a zero field, stored in the field, verifies. -/
theorem checksum_stored {m : Mem} {a k n : Nat} (start : List UInt8) (hk : k % 2 = 0)
    (hkn : k + 2 ≤ n) (hstart : start.length % 2 = 0) (hlen : start.length + n ≤ 65547)
    (h0 : m (a + k) = 0) (h1 : m (a + k + 1) = 0) :
    checksum (start ++ (m.write16 (a + k) (checksum (m.bytes a n) (checksumSum start))).bytes a n) 0
      = 0 := by
  refine checksum_verifies (by rw [List.length_append, Mem.length_bytes]; exact hlen) ?_
  rw [wordSum_append _ _ hstart, wordSum_field m a hk hkn h0 h1,
    checksum_toNat (by rw [Mem.length_bytes]; exact hlen), ← Nat.add_assoc]
  exact folded_add_complement _

theorem write16_zero (m : Mem) (a : Nat) : m.write16 a 0 a = 0 ∧ m.write16 a 0 (a + 1) = 0 :=
  ⟨Mem.put_add (by decide : 0 < 2), Mem.put_add (by decide : 1 < 2)⟩

/-! ### The three senders -/

theorem ipv4_verifies {cfg : NetConfig} {pkt payload m : Mem} {dst : UInt32} {protocol : UInt8}
    {len : Int} (h : ipv4BuildPacket cfg pkt dst protocol payload len = some m) :
    checksum (m.bytes 14 ipv4HeaderSize) 0 = 0 := by
  unfold ipv4BuildPacket at h
  split at h
  · cases h
  · split at h
    · cases h
    · rw [← Option.some.inj h, exec_ipv4Stores]
      have hheader : ∀ x, 24 ≤ x → x < 26 →
          ipv4Swapped (ipv4Plain cfg dst protocol (payload.bytes 0 len.toNat).length pkt) 14 x
            = ipv4Plain cfg dst protocol (payload.bytes 0 len.toNat).length pkt x :=
        fun x h1 h2 => ipv4Swapped_out (by omega)
      rw [Mem.bytes_congr fun x _ hx => Mem.putBytes_out
        (.inl (by rw [ipv4HeaderSize] at hx; omega))]
      refine checksum_stored (k := 10) (n := ipv4HeaderSize) [] rfl (by decide) rfl
        (by decide) ?_ ?_
      · exact (hheader 24 (by decide) (by decide)).trans (write16_zero _ 24).1
      · exact (hheader 25 (by decide) (by decide)).trans (write16_zero _ 24).2

/-- The pseudo header of a datagram with `udpLen` bytes. -/
def pseudoHeader (src dst : UInt32) (udpLen : Nat) : List UInt8 :=
  bytes32 (htonl src) ++ bytes32 (htonl dst) ++ [0, ipv4UDP] ++
    [Mem.byteLE (htons (UInt16.ofNat udpLen)).toNat 0,
      Mem.byteLE (htons (UInt16.ofNat udpLen)).toNat 1]

/-- A datagram before its checksum is stored. -/
def udpPlain (dport sport : UInt16) (payload : List UInt8) (m : Mem) : Mem :=
  (udpSwapped ((((m.write16 0 sport).write16 2 dport).write16 4
    (UInt16.ofNat (payload.length + udpHeaderSize))).write16 6 0) 0).putBytes 8 payload

variable {cfg : NetConfig} {dst : UInt32} {dport sport : UInt16} {payload : List UInt8}

theorem exec_udpStores (m : Mem) : (udpStores cfg dst dport sport payload).exec m =
    (udpPlain dport sport payload m).write16 6
      (checksum ((udpPlain dport sport payload m).bytes 0 (payload.length + udpHeaderSize))
        (checksumSum (pseudoHeader cfg.ip dst (payload.length + udpHeaderSize)))) := rfl

theorem udpPlain_zero (dport sport : UInt16) (payload : List UInt8)
    (m : Mem) : udpPlain dport sport payload m 6 = 0 ∧
    udpPlain dport sport payload m 7 = 0 := by
  unfold udpPlain
  rw [Mem.putBytes_out (.inl (by decide)), Mem.putBytes_out (.inl (by decide)),
    udpSwapped_out (.inr (by decide)), udpSwapped_out (.inr (by decide))]
  exact write16_zero _ 6

theorem udp_verifies (cfg : NetConfig) (dst : UInt32) (dport sport : UInt16) (payload : List UInt8)
    (m : Mem) (h : payload.length ≤ 1472) :
    checksum (pseudoHeader cfg.ip dst (payload.length + udpHeaderSize) ++
      ((udpStores cfg dst dport sport payload).exec m).bytes 0 (payload.length + udpHeaderSize)) 0
      = 0 := by
  have hlen : (pseudoHeader cfg.ip dst (payload.length + udpHeaderSize)).length = 12 := rfl
  obtain ⟨h6, h7⟩ := udpPlain_zero dport sport payload m
  have h8 : udpHeaderSize = 8 := rfl
  rw [exec_udpStores]
  refine checksum_stored (k := 6) _ rfl (by omega) (by rw [hlen]) (by omega) ?_ ?_
  · exact h6
  · exact h7

section Icmp

variable {σ : Type}

/-- The state in which the handler of ICMP looks at the type: after its own hook. -/
def icmpHook (hooks : Hooks σ) (src dst : UInt32) (pkt : Nat) (len : Int) (s : RecvState σ) :
    Int × RecvState σ :=
  hooks.icmp src dst pkt (len - icmpHeaderSize) { s with buf := (note (.layer pkt len) s.buf).2 }

/-- The request with the type of a reply and no checksum. -/
def icmpPlain (m : Mem) (pkt : Nat) : Mem := (m.write8 pkt 0).write16 (pkt + 2) 0

/-- The reply in place of the request. -/
def icmpReply (m : Mem) (pkt n : Nat) : Mem :=
  (icmpPlain m pkt).write16 (pkt + 2) (checksum ((icmpPlain m pkt).bytes pkt n) 0)

theorem icmpReply_verifies (m : Mem) (pkt : Nat) {n : Nat} (h8 : 8 ≤ n) (hn : n ≤ 65515) :
    checksum ((icmpReply m pkt n).bytes pkt n) 0 = 0 :=
  checksum_stored (k := 2) [] rfl (by omega) rfl (by rw [List.length_nil]; omega)
    (write16_zero _ _).1 (write16_zero _ _).2

theorem icmpReply_out (m : Mem) (pkt n : Nat) {x : Nat} (hx : x < pkt ∨ pkt + 1 = x ∨ pkt + 4 ≤ x) :
    icmpReply m pkt n x = m x := by
  unfold icmpReply icmpPlain
  rw [Mem.write16_out (by omega), Mem.write16_out (by omega), Mem.write8_out (by omega)]

theorem icmpReply_type (m : Mem) (pkt n : Nat) : icmpReply m pkt n pkt = 0 := by
  unfold icmpReply icmpPlain
  rw [Mem.write16_out (by omega), Mem.write16_out (by omega), Mem.write8_self]

/-- An echo request is answered with the reply in its place. -/
theorem icmpPacketHandle_request (cfg : NetConfig) (hooks : Hooks σ) (src dst : UInt32) (pkt : Nat)
    {len : Int} (s : RecvState σ) (hlen : 8 ≤ len)
    (hr : 0 ≤ (icmpHook hooks src dst pkt len s).1)
    (htype : (icmpHook hooks src dst pkt len s).2.buf.mem pkt = 8)
    (hcode : (icmpHook hooks src dst pkt len s).2.buf.mem (pkt + 1) = 0) :
    (icmpPacketHandle cfg hooks src dst pkt len s).2.net =
      (ipv4Send cfg src ipv4ICMP (fun i =>
        ((icmpReply (icmpHook hooks src dst pkt len s).2.buf.mem pkt len.toNat).bytes pkt
          len.toNat).getD i 0) len (icmpHook hooks src dst pkt len s).2.net).2 := by
  have hlong : ¬len < icmpHeaderSize := by
    rw [icmpHeaderSize]
    omega
  unfold icmpPacketHandle
  rw [bind_apply, if_neg hlong, bind_apply]
  erw [if_neg (not_lt.mpr hr), bind_apply]
  erw [if_pos htype, bind_apply]
  erw [if_neg (not_not.mpr hcode)]
  rfl

end Icmp

/-- Every IPv4 header, every UDP datagram with its pseudo header and every echo reply verifies, and
no sum wraps.  A reply has the type 0 and the other bytes of the request but its checksum. -/
theorem checksums_verify :
    (∀ start bs : List UInt8, start.length + bs.length ≤ 65547 →
      (checksumSum start).toNat = wordSum start ∧
      (checksumSum start + checksumSum bs).toNat = wordSum start + wordSum bs) ∧
    (∀ (cfg : NetConfig) (pkt : Mem) (dst : UInt32) (protocol : UInt8) (payload : Mem)
      (len : Int) m,
      ipv4BuildPacket cfg pkt dst protocol payload len = some m →
      checksum (m.bytes 14 ipv4HeaderSize) 0 = 0) ∧
    (∀ (cfg : NetConfig) (dst : UInt32) (dport sport : UInt16) (payload : Mem) (len : Int)
      (s : Net),
      0 ≤ len → len + udpHeaderSize + ipv4HeaderSize ≤ mtu →
      ∃ datagram : Mem, udpSend cfg dst dport sport payload len s =
          ipv4Send cfg dst ipv4UDP datagram (len + udpHeaderSize) { s with udpBuf := datagram } ∧
        checksum (pseudoHeader cfg.ip dst (len.toNat + udpHeaderSize) ++
          datagram.bytes 0 (len.toNat + udpHeaderSize)) 0 = 0) ∧
    ∀ (σ : Type) (cfg : NetConfig) (hooks : Hooks σ) (src dst : UInt32) (pkt : Nat) (len : Int)
      (s : RecvState σ), 8 ≤ len → len ≤ 65515 → 0 ≤ (icmpHook hooks src dst pkt len s).1 →
      (icmpHook hooks src dst pkt len s).2.buf.mem pkt = 8 →
      (icmpHook hooks src dst pkt len s).2.buf.mem (pkt + 1) = 0 →
      ∃ reply : List UInt8, (icmpPacketHandle cfg hooks src dst pkt len s).2.net =
          (ipv4Send cfg src ipv4ICMP (fun i => reply.getD i 0) len
            (icmpHook hooks src dst pkt len s).2.net).2 ∧
        reply.length = len.toNat ∧ reply[0]? = some 0 ∧
        (∀ i, i < reply.length → i ≠ 0 → i ≠ 2 → i ≠ 3 →
          reply[i]? = some ((icmpHook hooks src dst pkt len s).2.buf.mem (pkt + i))) ∧
        checksum reply 0 = 0 := by
  refine ⟨fun start bs h => ⟨checksumSum_toNat start (by omega), add_checksumSum_toNat h⟩,
    fun cfg pkt dst protocol payload len m h => ipv4_verifies h,
    fun cfg dst dport sport payload len s h0 hmtu => ⟨_,
      udpSend_eq cfg dst dport sport payload s h0 hmtu, ?_⟩,
    fun σ cfg hooks src dst pkt len s h8 hlen hr htype hcode =>
      ⟨_, icmpPacketHandle_request cfg hooks src dst pkt s h8 hr htype hcode, ?_, ?_, ?_, ?_⟩⟩
  · rw [udpHeaderSize, ipv4HeaderSize, mtu] at hmtu
    have hv := udp_verifies cfg dst dport sport (payload.bytes 0 len.toNat) s.udpBuf
      (by rw [Mem.length_bytes]; omega)
    rw [Mem.length_bytes] at hv
    exact hv
  · exact Mem.length_bytes _ _ _
  · rw [List.getElem?_eq_getElem (by rw [Mem.length_bytes]; omega), Mem.getElem_bytes]
    exact congrArg some (icmpReply_type _ pkt len.toNat)
  · intro i hi h0 h2 h3
    rw [List.getElem?_eq_getElem hi, Mem.getElem_bytes]
    exact congrArg some (icmpReply_out _ pkt len.toNat (by omega))
  · exact icmpReply_verifies _ pkt (by omega) (by omega)

theorem checksums_verify_three : ∃ datagram : Mem,
    udpSend hostA hostB.ip 9999 1234 (fun _ => 65) 3 hostAKnowsB =
      ipv4Send hostA hostB.ip ipv4UDP datagram (3 + udpHeaderSize) { hostAKnowsB with udpBuf :=
        datagram } ∧
    checksum (pseudoHeader hostA.ip hostB.ip 11 ++ datagram.bytes 0 11) 0 = 0 :=
  checksums_verify.2.2.1 hostA hostB.ip 9999 1234 (fun _ => 65) 3 hostAKnowsB (by decide)
    (by decide)

/-! ### A zero checksum -/

theorem checksum_ne_zero_iff {start bs : List UInt8} (h : start.length + bs.length ≤ 65547)
    (hpos : 0 < wordSum start) :
    checksum bs (checksumSum start) ≠ 0 ↔ ¬65535 ∣ wordSum start + wordSum bs := by
  have hsum := checksum_toNat h
  have hle := folded_le (wordSum start + wordSum bs)
  have hmax := folded_eq_max_iff (wordSum start + wordSum bs)
  have hzero : checksum bs (checksumSum start) = 0 ↔
    folded (wordSum start + wordSum bs) = 65535 := by
    rw [← UInt16.toNat_inj, hsum]
    show 65535 - _ = 0 ↔ _
    omega
  rw [ne_eq, hzero, hmax, not_and]
  exact ⟨fun hne => hne (by omega), fun hne _ => hne⟩

/-- The protocol alone makes the sum of a pseudo header positive. -/
theorem wordSum_pseudoHeader_pos (src dst : UInt32) (udpLen : Nat) :
    0 < wordSum (pseudoHeader src dst udpLen) := by
  have hlen : (bytes32 (htonl src) ++ bytes32 (htonl dst)).length = 8 := rfl
  unfold pseudoHeader
  rw [wordSum_append _ _ (by rw [List.length_append, hlen]; rfl), wordSum_append _ _ (by rw [hlen])]
  have hprotocol : wordSum [0, ipv4UDP] = 4352 := rfl
  omega

/-- The two bytes of a field in network order. -/
def be16 (v : UInt16) : List UInt8 := [Mem.byteLE (htons v).toNat 0, Mem.byteLE (htons v).toNat 1]

/-- The header of a datagram with a zero checksum, in network order. -/
def udpHeader (dport sport : UInt16) (udpLen : Nat) : List UInt8 :=
  be16 sport ++ (be16 dport ++ be16 (UInt16.ofNat udpLen)) ++ [0, 0]

theorem bytes_write16 (m : Mem) (a : Nat) (v : UInt16) :
    (m.write16 a v).bytes a 2 = [Mem.byteLE v.toNat 0, Mem.byteLE v.toNat 1] := by
  have h0 : m.write16 a v a = Mem.byteLE v.toNat 0 := Mem.put_add (i := 0) (by decide)
  have h1 : m.write16 a v (a + 1) = Mem.byteLE v.toNat 1 := Mem.put_add (i := 1) (by decide)
  rw [← h0, ← h1]
  rfl

theorem bytes_swapped16 (m : Mem) (a : Nat) : (swapped16 m a).bytes a 2 = be16 (m.read16 a) :=
  bytes_write16 m a _

/-- The converted header of a datagram, field by field. -/
theorem bytes_udpSwapped (m : Mem) : (udpSwapped m 0).bytes 0 6 =
    be16 (m.read16 0) ++ (be16 (m.read16 2) ++ be16 (m.read16 4)) := by
  have hread2 : (swapped16 m 0).read16 2 = m.read16 2 := read16_swapped16_of_disjoint (by omega)
  have hread4 : (swapped16 (swapped16 m 0) 2).read16 4 = m.read16 4 :=
    (read16_swapped16_of_disjoint (by omega)).trans (read16_swapped16_of_disjoint (by omega))
  have h0 : (udpSwapped m 0).bytes 0 2 = be16 (m.read16 0) := by
    rw [← bytes_swapped16]
    exact Mem.bytes_congr fun x _ _ => (swapped16_out (by omega)).trans (swapped16_out (by omega))
  have h2 : (udpSwapped m 0).bytes 2 2 = be16 (m.read16 2) := by
    rw [← hread2, ← bytes_swapped16]
    exact Mem.bytes_congr fun x _ _ => swapped16_out (by omega)
  have h4 : (udpSwapped m 0).bytes 4 2 = be16 (m.read16 4) := by
    rw [← hread4, ← bytes_swapped16]
    rfl
  rw [← h0, ← h2, ← h4]
  rfl

theorem udpPlain_bytes (dport sport : UInt16) (payload : List UInt8) (m : Mem) :
    (udpPlain dport sport payload m).bytes 0 (payload.length + udpHeaderSize) =
      udpHeader dport sport (payload.length + udpHeaderSize) ++ payload := by
  have hsplit : (udpPlain dport sport payload m).bytes 0 (payload.length + udpHeaderSize) =
      (udpPlain dport sport payload m).bytes 0 6 ++ ((udpPlain dport sport payload m).bytes 6 2 ++
        (udpPlain dport sport payload m).bytes 8 payload.length) := by
    rw [← Mem.bytes_add, ← Mem.bytes_add]
    congr 1
    rw [udpHeaderSize]
    omega
  have hzero : (udpPlain dport sport payload m).bytes 6 2 = [0, 0] := by
    obtain ⟨h6, h7⟩ := udpPlain_zero dport sport payload m
    show [udpPlain dport sport payload m 6, udpPlain dport sport payload m 7] = [0, 0]
    rw [h6, h7]
  have hpayload : (udpPlain dport sport payload m).bytes 8 payload.length = payload := by
    refine List.ext_getElem (Mem.length_bytes _ _ _) fun i h1 h2 => ?_
    rw [Mem.getElem_bytes]
    exact Mem.putBytes_add h2
  have hheader : (udpPlain dport sport payload m).bytes 0 6 = (udpSwapped
      ((((m.write16 0 sport).write16 2 dport).write16 4
        (UInt16.ofNat (payload.length + udpHeaderSize))).write16 6 0) 0).bytes 0 6 :=
    Mem.bytes_congr fun x _ _ => Mem.putBytes_out (by omega)
  rw [hsplit, hzero, hpayload, hheader, bytes_udpSwapped]
  simp (disch := omega) only [Mem.read16_write16_of_disjoint, Mem.read16_write16_self]
  rfl

/-- The checksum field is zero exactly when the sum of everything else is a multiple of 65535. -/
theorem udp_checksum_nonzero_iff (cfg : NetConfig) (dst : UInt32) (dport sport : UInt16)
    (payload : Mem)
    (len : Int) (s : Net) (h0 : 0 ≤ len) (hmtu : len + udpHeaderSize + ipv4HeaderSize ≤ mtu) :
    ∃ datagram : Mem, udpSend cfg dst dport sport payload len s =
        ipv4Send cfg dst ipv4UDP datagram (len + udpHeaderSize) { s with udpBuf := datagram } ∧
      (datagram.read16 6 ≠ 0 ↔
        ¬65535 ∣ wordSum (pseudoHeader cfg.ip dst (len.toNat + udpHeaderSize) ++
          (udpHeader dport sport (len.toNat + udpHeaderSize) ++ payload.bytes 0 len.toNat))) := by
  refine ⟨_, udpSend_eq cfg dst dport sport payload s h0 hmtu, ?_⟩
  rw [udpHeaderSize, ipv4HeaderSize, mtu] at hmtu
  have hlen : (payload.bytes 0 len.toNat).length = len.toNat := Mem.length_bytes _ _ _
  have hph : (pseudoHeader cfg.ip dst (len.toNat + udpHeaderSize)).length = 12 := rfl
  have hheader : (udpHeader dport sport (len.toNat + udpHeaderSize)).length = 8 := rfl
  rw [exec_udpStores, Mem.read16_write16_self, udpPlain_bytes, hlen,
    wordSum_append _ _ (by rw [hph])]
  refine checksum_ne_zero_iff ?_ (wordSum_pseudoHeader_pos _ _ _)
  rw [List.length_append, hph, hheader, hlen]
  omega

theorem udp_checksum_nonzero_three : ∃ datagram : Mem,
    udpSend hostA hostB.ip 9999 1234 (fun _ => 65) 3 hostAKnowsB =
      ipv4Send hostA hostB.ip ipv4UDP datagram (3 + udpHeaderSize) { hostAKnowsB with udpBuf :=
        datagram } ∧
    datagram.read16 6 ≠ 0 := by
  obtain ⟨datagram, hsend, hiff⟩ :=
    udp_checksum_nonzero_iff hostA hostB.ip 9999 1234 (fun _ => 65) 3
    hostAKnowsB (by decide) (by decide)
  exact ⟨datagram, hsend, hiff.mpr (by decide +kernel)⟩

/-- Two bytes that complete the sum to 65535. -/
def zeroSumPayload : Mem := fun i => if i = 0 then 191 else 246

/-- The frame with them goes out with the bytes 0, 0 in its checksum field. -/
theorem udp_zero_checksum_sent : ¬∀ (cfg : NetConfig) (dst : UInt32) (dport sport : UInt16)
    (payload : Mem) (len : Int) (s : Net) (frame : List UInt8), 0 ≤ len →
    len + udpHeaderSize + ipv4HeaderSize ≤ mtu →
    (udpSend cfg dst dport sport payload len s).2.sent = s.sent ++ [(.sendbuf, frame)] →
    (frame.drop 40).take 2 ≠ [0, 0] := by
  intro hall
  let frame := ((udpSend hostA hostB.ip 9999 1234 zeroSumPayload 2 hostAKnowsB).2.sent.map
    Prod.snd).flatten
  exact hall hostA hostB.ip 9999 1234 zeroSumPayload 2 hostAKnowsB frame (by decide) (by decide)
    (by decide +kernel) (by decide +kernel)

end DuckNet

end JudgeDuck
