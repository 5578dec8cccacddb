/-
What a host may send, when its table of ARP is right.

`B` says which IP addresses are at which MAC addresses.  A frame is truthful when it is
no ARP reply that says something else.  A host that hears truthful frames only has a table
that agrees with `B`; so its IPv4 packets, those that wait in the to-send table
too, go to MAC addresses where their destination is, and its ARP packets announce itself.
-/
import JudgeDuck.Proofs.DuckNet.Expiry
import JudgeDuck.Proofs.DuckNet.Rounds

namespace JudgeDuck

namespace DuckNet

/-- The bytes of a frame. -/
def frameMem (f : List UInt8) : Mem := fun i => f.getD i 0

/-- What a frame says is true. -/
def Truthful (B : UInt32 → MACAddress → Prop) (f : List UInt8) : Prop :=
  ∀ ip mac, ArpReply (frameMem f) ip mac → 42 ≤ f.length → B ip mac

/-- An ARP packet that announces the sender, or an IPv4 packet on its way to its destination. -/
inductive Proper (B : UInt32 → MACAddress → Prop) (ip : UInt32) (mac : MACAddress)
    (f : List UInt8) : Prop
  | arp (htype : (frameMem f).read16 12 = htons ethertypeARP)
      (hsha : ∀ i (hi : i < mac.bytes.length), frameMem f (22 + i) = mac.bytes[i])
      (hspa : (frameMem f).read32 28 = htonl ip) : Proper B ip mac f
  | ipv4 (dst : UInt32) (dstMac : MACAddress) (hdst : B dst dstMac)
      (htype : (frameMem f).read16 12 = htons ethertypeIPv4)
      (hether : ∀ i (hi : i < dstMac.bytes.length), frameMem f i = dstMac.bytes[i])
      (hip : (frameMem f).read32 30 = htonl dst) : Proper B ip mac f

/-- A packet that waits for the MAC address of its destination. -/
structure Waiting (e : ToSend) : Prop where
  pktLen : 34 ≤ e.pktLen
  ethertype : e.pkt.read16 12 = htons ethertypeIPv4
  dst : e.pkt.read32 30 = htonl e.dstIp

/-- The host `ip` at `mac` believes what is true, and acts on it. -/
structure HostOk (B : UInt32 → MACAddress → Prop) (ip : UInt32) (mac : MACAddress) (s : Net) :
    Prop where
  table : ∀ e ∈ s.arp.table, B e.ip e.mac
  waiting : ∀ i < tosendTableSize, ¬slotFree s.tosendFree i = true → Waiting (s.tosend i)
  sent : ∀ c ∈ s.sent, Proper B ip mac c.2

variable {B : UInt32 → MACAddress → Prop} {ip : UInt32} {mac : MACAddress} {cfg : NetConfig}
  {s s' : Net}

/-! ### Frames -/

theorem frameMem_bytes (m : Mem) {n i : Nat} (h : i < n) : frameMem (m.bytes 0 n) i = m i := by
  have hi : i < (m.bytes 0 n).length := by rw [Mem.length_bytes]; exact h
  rw [frameMem, List.getD_eq_getElem _ _ hi, Mem.getElem_bytes, Nat.zero_add]

/-- A MAC address by its bytes. -/
theorem MACAddress.eq_of_bytes {a b : MACAddress} {f : Nat → UInt8}
    (ha : ∀ i (hi : i < a.bytes.length), f i = a.bytes[i])
    (hb : ∀ i (hi : i < b.bytes.length), f i = b.bytes[i]) : a = b := by
  have hbytes : a.bytes = b.bytes := List.ext_getElem rfl fun i h1 h2 =>
    (ha i h1).symm.trans (hb i h2)
  obtain ⟨a0, a1, a2, a3, a4, a5⟩ := a
  obtain ⟨b0, b1, b2, b3, b4, b5⟩ := b
  simpa [MACAddress.bytes] using hbytes

theorem htonl_injective {x y : UInt32} (h : htonl x = htonl y) : x = y := by
  rw [← htonl_htonl x, h, htonl_htonl]

/-- Whoever sends proper frames tells the truth about himself. -/
theorem Proper.truthful {f : List UInt8} (h : Proper B ip mac f) (hown : B ip mac) :
    Truthful B f := by
  intro ip' mac' hreply _
  cases h with
  | arp htype hsha hspa =>
      have hip : ip' = ip := htonl_injective (hreply.spa.symm.trans hspa)
      have hmac : mac' = mac := MACAddress.eq_of_bytes hreply.sha hsha
      rw [hip, hmac]
      exact hown
  | ipv4 dst dstMac hdst htype hether hip =>
      exact absurd (hreply.ethertype.symm.trans htype) (by decide)

/-- Only the frame counts, not what was in the buffer. -/
theorem ArpReply.of_putBytes {m : Mem} {f : List UInt8} (h : ArpReply (m.putBytes 0 f) ip mac)
    (hlen : 42 ≤ f.length) : ArpReply (frameMem f) ip mac := by
  have hsame : ∀ x, x < 42 → frameMem f x = m.putBytes 0 f x := by
    intro x hx
    have hput := Mem.putBytes_add (m := m) (a := 0) (show x < f.length by omega)
    rw [Nat.zero_add] at hput
    rw [hput, frameMem, List.getD_eq_getElem _ _ (by omega)]
  have hmac : mac.bytes.length = 6 := rfl
  refine ⟨?_, ?_, fun i hi => ?_, ?_⟩
  · rw [Mem.read16_congr fun x _ _ => hsame x (by omega)]
    exact h.ethertype
  · rw [Mem.read16_congr fun x _ _ => hsame x (by omega)]
    exact h.op
  · rw [hsame _ (by omega)]
    exact h.sha i hi
  · rw [Mem.read32_congr fun x _ _ => hsame x (by omega)]
    exact h.spa

theorem length_arpPayload (sha : MACAddress) (spa : UInt32) (tha : MACAddress) (tpa : UInt32) :
    (arpPayload sha spa tha tpa).length = 20 := by
  simp [arpPayload, bytes32, MACAddress.bytes]

theorem exec_arpBuildPacket (dst : MACAddress) (op : UInt16) (payload : List UInt8) (m : Mem) :
    (arpBuildPacket cfg dst op payload).exec m =
      ((((((((m.putBytes 0 dst.bytes).putBytes 6 cfg.mac.bytes).write16 12
        (htons ethertypeARP)).write16 14 (htons 1)).write16 16 (htons 0x0800)).write8 18
          6).write8 19 4).write16 20 (htons op)).putBytes 22 payload := rfl

/-- What is stored as the bytes of a word reads as this word. -/
theorem read32_of_bytes32 {m : Mem} {a : Nat} {v : UInt32}
    (h : ∀ i (hi : i < (bytes32 v).length), m (a + i) = (bytes32 v)[i]) : m.read32 a = v := by
  have hlen : (bytes32 v).length = 4 := rfl
  have hread : m.readLE a 4 = v.toNat % 256 ^ 4 := by
    refine Mem.readLE_byteLE 4 fun i hi => ?_
    rw [h i (by omega)]
    simp [bytes32]
  have hv : v.toNat < 2 ^ 32 := v.toNat_lt
  rw [Mem.read32, hread, Nat.mod_eq_of_lt (by omega), UInt32.ofNat_toNat]

/-- The frame of an ARP packet announces its sender. -/
theorem proper_arpFrame (dst : MACAddress) (op : UInt16) (tha : MACAddress) (tpa : UInt32)
    (m : Mem) :
    Proper B cfg.ip cfg.mac
      (((arpBuildPacket cfg dst op (arpPayload cfg.mac cfg.ip tha tpa)).exec m).bytes 0 42) := by
  have hlen := length_arpPayload cfg.mac cfg.ip tha tpa
  have hmac : cfg.mac.bytes.length = 6 := rfl
  have hword : (bytes32 (htonl cfg.ip)).length = 4 := rfl
  -- the payload is at offset 22
  have hpayload : ∀ i (hi : i < (arpPayload cfg.mac cfg.ip tha tpa).length),
      frameMem (((arpBuildPacket cfg dst op (arpPayload cfg.mac cfg.ip tha tpa)).exec m).bytes 0
        42) (22 + i) = (arpPayload cfg.mac cfg.ip tha tpa)[i] := by
    intro i hi
    rw [frameMem_bytes _ (by omega), exec_arpBuildPacket]
    exact Mem.putBytes_add hi
  refine .arp ?_ (fun i hi => ?_) (read32_of_bytes32 fun i hi => ?_)
  · rw [Mem.read16_congr fun x _ _ => frameMem_bytes _ (by omega), exec_arpBuildPacket]
    simp (disch := omega) only [Mem.read16_putBytes_of_disjoint, Mem.read16_write16_of_disjoint,
      Mem.read16_write8_of_disjoint, Mem.read16_write16_self]
  · rw [hpayload i (by omega)]
    simp only [arpPayload, List.append_assoc]
    rw [List.getElem_append_left hi]
  · have hat := hpayload (6 + i) (by omega)
    rw [← Nat.add_assoc] at hat
    rw [hat]
    simp only [arpPayload, List.append_assoc]
    rw [List.getElem_append_right (by omega), List.getElem_append_left (by omega)]
    congr 1
    omega

/-- The frame of an IPv4 packet with the MAC address of its destination. -/
theorem proper_ipv4Frame {dst : UInt32} {dstMac : MACAddress} (hdst : B dst dstMac) {m : Mem}
    (htype : m.read16 12 = htons ethertypeIPv4) (hip : m.read32 30 = htonl dst) {n : Nat}
    (hn : 34 ≤ n) : Proper B ip mac ((m.putBytes 0 dstMac.bytes).bytes 0 n) := by
  have hmac : dstMac.bytes.length = 6 := rfl
  refine .ipv4 dst dstMac hdst ?_ (fun i hi => ?_) ?_
  · rw [Mem.read16_congr fun x _ _ => frameMem_bytes _ (by omega),
      Mem.read16_putBytes_of_disjoint (by omega)]
    exact htype
  · rw [frameMem_bytes _ (by omega)]
    have hput := Mem.putBytes_add (m := m) (a := 0) hi
    rwa [Nat.zero_add] at hput
  · rw [Mem.read32_congr fun x _ _ => frameMem_bytes _ (by omega),
      Mem.read32_putBytes_of_disjoint (by omega)]
    exact hip

/-! ### Steps -/

theorem HostOk.of_lookup (h : HostOk B ip mac s) {dst : UInt32} {dstMac : MACAddress}
    (hlookup : arpLookup dst s.arp = some dstMac) : B dst dstMac := by
  obtain ⟨e, hfind, rfl⟩ := Option.map_eq_some_iff.mp hlookup
  obtain ⟨hget, rfl⟩ := tableFind_eq_some hfind
  exact h.table e (List.mem_of_getElem? hget)

/-- Nothing has changed but what the host does not act on. -/
theorem HostOk.congr (h : HostOk B ip mac s) (htable : s'.arp.table = s.arp.table)
    (htosend : s'.tosend = s.tosend) (hfree : s'.tosendFree = s.tosendFree)
    (hsent : s'.sent = s.sent) : HostOk B ip mac s' := by
  refine ⟨?_, ?_, ?_⟩
  · rw [htable]
    exact h.table
  · rw [htosend, hfree]
    exact h.waiting
  · rw [hsent]
    exact h.sent

theorem HostOk.sendbuf (h : HostOk B ip mac s) (m : Mem) :
    HostOk B ip mac { s with sendbuf := m } := ⟨h.table, h.waiting, h.sent⟩

theorem HostOk.udpBuf (h : HostOk B ip mac s) (m : Mem) :
    HostOk B ip mac { s with udpBuf := m } := ⟨h.table, h.waiting, h.sent⟩

theorem HostOk.arp (h : HostOk B ip mac s) {arp : Arp} (htable : arp.table = s.arp.table) :
    HostOk B ip mac { s with arp } := by
  refine ⟨?_, h.waiting, h.sent⟩
  rw [htable]
  exact h.table

theorem HostOk.phySend (h : HostOk B ip mac s) (b : Buffer) {len : Nat}
    (hframe : Proper B ip mac ((s.buffer b).bytes 0 len)) :
    HostOk B ip mac (phySend cfg b len s).2 := by
  refine ⟨h.table, h.waiting, fun c hc => ?_⟩
  rcases List.mem_append.mp hc with hc | hc
  · exact h.sent c hc
  · rw [List.mem_singleton.mp hc]
    exact hframe

theorem HostOk.arpSend (h : HostOk B cfg.ip cfg.mac s) (dst : MACAddress) (op : UInt16)
    (tha : MACAddress) (tpa : UInt32) :
    HostOk B cfg.ip cfg.mac (arpSend cfg dst op (arpPayload cfg.mac cfg.ip tha tpa) s).2 := by
  have hlen : (arpPayload cfg.mac cfg.ip tha tpa).length + arpHeaderSize + etherHeaderSize
      = 42 := by
    rw [length_arpPayload, arpHeaderSize, etherHeaderSize]
  unfold DuckNet.arpSend
  split
  · exact h
  · rw [hlen]
    exact (h.sendbuf _).phySend .sendbuf (proper_arpFrame dst op tha tpa s.sendbuf)

theorem HostOk.arpQuery (h : HostOk B cfg.ip cfg.mac s) (dst : UInt32) :
    HostOk B cfg.ip cfg.mac (s.arpQuery cfg dst).2 := by
  have htable := @TimedWorld.table_arpQuery cfg dst s.now s.arp
  unfold Net.arpQuery
  split
  · next hquery =>
    rw [hquery] at htable
    exact h.arp htable
  · next hquery =>
    rw [hquery] at htable
    exact (h.arp htable).arpSend _ _ _ _

/-- What `ipv4_build_packet` has built. -/
theorem ipv4Built_of_build {pkt pkt' : Mem} {dst : UInt32} {protocol : UInt8} {payload : Mem}
    {len : Int} (h : ipv4BuildPacket cfg pkt dst protocol payload len = some pkt') :
    Ipv4Built cfg dst protocol (payload.bytes 0 len.toNat) pkt' := by
  unfold ipv4BuildPacket at h
  split at h
  · exact nomatch h
  · split at h
    · exact nomatch h
    · rw [← Option.some.inj h]
      exact ipv4Built pkt

theorem HostOk.ipv4Send (h : HostOk B cfg.ip cfg.mac s) (dst : UInt32) (protocol : UInt8)
    (payload : Mem) (len : Int) :
    HostOk B cfg.ip cfg.mac (ipv4Send cfg dst protocol payload len s).2 := by
  have h34 : ∀ n, 34 ≤ n + ipv4HeaderSize + etherHeaderSize := fun n => by
    rw [ipv4HeaderSize, etherHeaderSize]
    omega
  unfold DuckNet.ipv4Send
  split
  · next dstMac hlookup =>
    split
    · exact h
    · next pkt hbuild =>
      have hbuilt := ipv4Built_of_build hbuild
      exact (h.sendbuf _).phySend .sendbuf
        (proper_ipv4Frame (h.of_lookup hlookup) hbuilt.ethertype hbuilt.dst (h34 _))
  · have hq := h.arpQuery dst
    dsimp only
    split
    · exact hq
    · split
      · exact hq
      · next id _ _ pkt hbuild =>
        have hbuilt := ipv4Built_of_build hbuild
        refine ⟨hq.table, fun i hi hfree => ?_, hq.sent⟩
        dsimp only at hfree ⊢
        by_cases heq : i = id
        · rw [heq, Function.update_self]
          exact ⟨h34 _, hbuilt.ethertype, hbuilt.dst⟩
        · rw [Function.update_of_ne heq]
          exact hq.waiting i hi fun hold => hfree
            (slotFree_clearFree.mpr ⟨Ne.symm heq, hold⟩)

theorem HostOk.sends (h : HostOk B cfg.ip cfg.mac s) (hs : Sends cfg s s') :
    HostOk B cfg.ip cfg.mac s' := by
  cases hs with
  | quiet => exact h
  | ipv4 dst protocol payload len => exact h.ipv4Send dst protocol payload len
  | udp dst dport sport payload len =>
      unfold udpSend
      split
      · exact h
      · split
        · exact h
        · exact (h.udpBuf _).ipv4Send _ _ _ _

theorem HostOk.arpUpdate (h : HostOk B ip mac s) (tscFreq now : UInt64) {ip' : UInt32}
    {mac' : MACAddress} (hB : B ip' mac') :
    HostOk B ip mac { s with arp := (arpUpdate tscFreq now ip' mac' s.arp).2 } := by
  refine ⟨fun e he => ?_, h.waiting, h.sent⟩
  unfold DuckNet.arpUpdate at he
  dsimp only at he
  split at he
  · exact h.table e he
  · next table hput =>
    rcases mem_of_tablePut hput he with rfl | he
    · exact hB
    · exact h.table e he

theorem HostOk.arpIdle (h : HostOk B ip mac s) :
    HostOk B ip mac { s with arp := arpIdle s.now s.arp } := by
  refine ⟨fun e he => ?_, h.waiting, h.sent⟩
  unfold DuckNet.arpIdle at he
  split at he
  · exact h.table e (mem_tableSweep.mp he).1
  · exact h.table e he

theorem HostOk.idleSlot (h : HostOk B cfg.ip cfg.mac s) {i : Nat} (hi : i < tosendTableSize) :
    HostOk B cfg.ip cfg.mac (ipv4IdleSlot cfg s i) := by
  unfold ipv4IdleSlot
  split
  · exact h
  · refine ⟨h.table, fun j hj hfree => h.waiting j hj fun hold => hfree ?_, h.sent⟩
    exact slotFree_setFree.mpr (.inr hold)
  · next dstMac hcase =>
    obtain ⟨hbusy, hlookup⟩ := NetWorld.slotCase_found hcase
    have hwait := h.waiting i hi hbusy
    have hset : HostOk B cfg.ip cfg.mac { s with
        tosendFree := setFree s.tosendFree i
        tosend := Function.update s.tosend i
          { s.tosend i with pkt := (s.tosend i).pkt.putBytes 0 dstMac.bytes } } := by
      refine ⟨h.table, fun j hj hfree => ?_, h.sent⟩
      dsimp only at hfree ⊢
      have hne : j ≠ i := fun heq => hfree (slotFree_setFree.mpr (.inl heq.symm))
      rw [Function.update_of_ne hne]
      exact h.waiting j hj fun hold => hfree (slotFree_setFree.mpr (.inr hold))
    refine hset.phySend (.tosend i) ?_
    rw [Net.buffer]
    dsimp only
    rw [Function.update_self]
    exact proper_ipv4Frame (h.of_lookup hlookup) hwait.ethertype hwait.dst hwait.pktLen
  · exact h.arpQuery _

theorem HostOk.foldl_idleSlot : ∀ (l : List Nat) {s : Net}, HostOk B cfg.ip cfg.mac s →
    (∀ i ∈ l, i < tosendTableSize) →
    HostOk B cfg.ip cfg.mac (l.foldl (ipv4IdleSlot cfg) s) := by
  intro l
  induction l with
  | nil => intro s h _; exact h
  | cons i l ih =>
      intro s h hl
      exact ih (h.idleSlot (hl i List.mem_cons_self)) fun j hj => hl j (List.mem_cons_of_mem _ hj)

theorem HostOk.ipv4Idle (h : HostOk B cfg.ip cfg.mac s) :
    HostOk B cfg.ip cfg.mac (ipv4Idle cfg s) := by
  unfold DuckNet.ipv4Idle
  split
  · exact HostOk.foldl_idleSlot _ (h.congr rfl rfl rfl rfl) fun i hi => List.mem_range.mp hi
  · exact h.congr rfl rfl rfl rfl

theorem HostOk.reacts (h : HostOk B cfg.ip cfg.mac s) {f : List UInt8} (htruth : Truthful B f)
    {m : Mem} (hs : Reacts cfg (m.putBytes 0 f) f.length s s') : HostOk B cfg.ip cfg.mac s' := by
  cases hs with
  | sends hs => exact h.sends hs
  | answers sha spa => exact h.arpSend _ _ _ _
  | learns ip' mac' hreply hlen =>
      have h42 : 42 ≤ f.length := by exact_mod_cast hlen
      exact h.arpUpdate _ _ (htruth ip' mac' (hreply.of_putBytes h42) h42)

theorem hostOk_init (cfg : NetConfig) (now : UInt64) :
    HostOk B cfg.ip cfg.mac (Net.init cfg now) := by
  refine ⟨fun e he => (nomatch he), fun i hi hfree => ?_, fun c hc => (nomatch hc)⟩
  exact absurd ((slotFree_foldl_setFree tosendTableSize).mpr hi) hfree

/-- Truthful frames keep a host right. -/
theorem stages_hostOk {σ : Type} (conf : DucknetConfig σ) :
    Stages conf (Truthful B) (HostOk B conf.net.ip conf.net.mac)
      (HostOk B conf.net.ip conf.net.mac) where
  clock _ _ h := h.congr rfl rfl rfl rfl
  arpIdle _ h := h.arpIdle
  ipv4Idle cfg s hnet h := by
    rw [← hnet.ip, ← hnet.mac] at h ⊢
    exact h.ipv4Idle
  handle cfg f m s s' hnet hok h hs := by
    rw [← hnet.ip, ← hnet.mac] at h ⊢
    exact h.reacts hok hs

end DuckNet

end JudgeDuck
