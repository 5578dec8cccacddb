/-
What a received frame makes the library do.

The handlers only read the frame, and change the rest of the library at their ends: a
frame is dropped, an ARP request is answered, the table of ARP takes up an ARP reply, or one
packet is sent.  `Reacts` lists these cases, with what is known of the frame in each.
-/
import JudgeDuck.Base.Hoare
import JudgeDuck.Proofs.DuckNet.Bounds
import JudgeDuck.Proofs.DuckNet.Headers

namespace JudgeDuck

namespace DuckNet

open Hoare

/-- At most one packet is sent. -/
inductive Sends (cfg : NetConfig) (s : Net) : Net → Prop
  | quiet : Sends cfg s s
  | ipv4 (dst : UInt32) (protocol : UInt8) (payload : Mem) (len : Int) :
      Sends cfg s (ipv4Send cfg dst protocol payload len s).2
  | udp (dst : UInt32) (dport sport : UInt16) (payload : Mem) (len : Int) :
      Sends cfg s (udpSend cfg dst dport sport payload len s).2

/-- The frame is an ARP reply that says that `ip` is at `mac`. -/
structure ArpReply (m : Mem) (ip : UInt32) (mac : MACAddress) : Prop where
  ethertype : m.read16 12 = htons ethertypeARP
  op : m.read16 20 = htons arpReply
  sha : ∀ i (hi : i < mac.bytes.length), m (22 + i) = mac.bytes[i]
  spa : m.read32 28 = htonl ip

/-- What a frame of `len` bytes at the start of the buffer does to the library. -/
inductive Reacts (cfg : NetConfig) (m : Mem) (len : Int) (s : Net) : Net → Prop
  | sends {s' : Net} (h : Sends cfg s s') : Reacts cfg m len s s'
  | answers (sha : MACAddress) (spa : UInt32) :
      Reacts cfg m len s
        (arpSend cfg sha arpReply (arpPayload cfg.mac cfg.ip sha spa) s).2
  | learns (ip : UInt32) (mac : MACAddress) (hreply : ArpReply m ip mac) (hlen : 42 ≤ len) :
      Reacts cfg m len s { s with arp := (arpUpdate cfg.tscFreq s.now ip mac s.arp).2 }

/-! ### Symbolic runs -/

section Runs

variable {σ α β : Type} {n : Net} {m m' : Mem} {x : BufM α} {v : α}

/-- From the contents `m`, the result is `v` and the contents become `m'`. -/
def Runs (m : Mem) (x : BufM α) (v : α) (m' : Mem) : Prop :=
  ∀ log, (x ⟨m, log⟩).1 = v ∧ (x ⟨m, log⟩).2.mem = m'

theorem runs_rd8 (m : Mem) (a : Nat) : Runs m (rd8 a) (m a) m := fun _ => ⟨rfl, rfl⟩

theorem runs_rd16 (m : Mem) (a : Nat) : Runs m (rd16 a) (m.read16 a) m := fun _ => ⟨rfl, rfl⟩

theorem runs_rd32 (m : Mem) (a : Nat) : Runs m (rd32 a) (m.read32 a) m := fun _ => ⟨rfl, rfl⟩

theorem runs_rdMac (m : Mem) (a : Nat) :
    Runs m (rdMac a) ⟨m a, m (a + 1), m (a + 2), m (a + 3), m (a + 4), m (a + 5)⟩ m :=
  fun _ => ⟨rfl, rfl⟩

theorem runs_note (m : Mem) (e : Access) : Runs m (note e) () m := fun _ => ⟨rfl, rfl⟩

theorem runs_swap16 (m : Mem) (a : Nat) : Runs m (swap16 a) () (swapped16 m a) :=
  fun _ => ⟨rfl, rfl⟩

/-- The buffer after `arpHton`. -/
def arpSwapped (m : Mem) (h : Nat) : Mem :=
  swapped16 (swapped16 (swapped16 m h) (h + 2)) (h + 6)

theorem runs_arpHton (m : Mem) (h : Nat) : Runs m (arpHton h) () (arpSwapped m h) :=
  fun _ => ⟨rfl, rfl⟩

/-- The library and the contents of the buffer. -/
structure At (n : Net) (m : Mem) (s : RecvState σ) : Prop where
  net : s.net = n
  mem : s.buf.mem = m

/-- The library. -/
def NetIs (n : Net) (s : RecvState σ) : Prop := s.net = n

theorem Runs.bind {f : α → RecvM σ β} {R : β → RecvState σ → Prop} (hx : Runs m x v m')
    (hf : Ensures (At n m') (f v) R) : Ensures (At n m) (onBuf x >>= f) R := by
  intro s hs
  obtain ⟨hval, hmem⟩ := hx s.buf.log
  have hbuf : s.buf = ⟨m, s.buf.log⟩ := by
    rw [← hs.mem]
  rw [← hbuf] at hval hmem
  have hrun := hf { s with buf := (x s.buf).2 } ⟨hs.net, hmem⟩
  rw [← hval] at hrun
  exact hrun

/-- What is on the buffer does not matter. -/
theorem netIs_onBuf (x : BufM α) : Ensures (NetIs (σ := σ) n) (onBuf x) fun _ => NetIs n :=
  fun _ hs => hs

end Runs

/-! ### The handlers -/

section Handlers

variable {σ : Type} {cfg : NetConfig} {hooks : Hooks σ} {n : Net} {m : Mem} {len : Int}

/-- The hooks of the inner layers are `NULL`, the outer one leaves the library and the frame alone,
and that of UDP sends at most one packet. -/
structure Polite (cfg : NetConfig) (hooks : Hooks σ) : Prop extends NullHooks hooks where
  phy : ∀ n m len, Ensures (At n m) (hooks.phy 0 len) fun _ => At n m
  udp : ∀ n src dst pkt len,
    Ensures (NetIs n) (hooks.udp src dst pkt len) fun _ s => Sends cfg n s.net

/-- The handler drops the packet. -/
theorem sends_pure (a : Int) :
    Ensures (NetIs (σ := σ) n) (pure a) fun _ s => Sends cfg n s.net :=
  Ensures.pure fun s hs => by rw [show s.net = n from hs]; exact .quiet

theorem sends_udp (h : Polite cfg hooks) (src dst : UInt32) (pkt : Nat) :
    Ensures (NetIs n) (udpPacketHandle hooks src dst pkt len) fun _ s => Sends cfg n s.net := by
  refine (netIs_onBuf _).bind fun _ => Ensures.ite (fun _ => sends_pure _) fun _ => ?_
  refine (netIs_onBuf _).bind fun _ => (h.udp n src dst pkt _).bind fun r => ?_
  exact Ensures.ite (fun _ => Ensures.pure fun _ hs => hs) fun _ => Ensures.pure fun _ hs => hs

theorem sends_icmp (h : Polite cfg hooks) (src dst : UInt32) (pkt : Nat) :
    Ensures (NetIs n) (icmpPacketHandle cfg hooks src dst pkt len)
      fun _ s => Sends cfg n s.net := by
  refine (netIs_onBuf _).bind fun _ => Ensures.ite (fun _ => sends_pure _) fun _ => ?_
  rw [h.icmp]
  refine (Ensures.pure (a := (0 : Int)) (Q := fun _ => NetIs n) fun _ => id).bind fun r => ?_
  refine Ensures.ite (fun _ => sends_pure _) fun _ => (netIs_onBuf _).bind fun type => ?_
  refine Ensures.ite (fun _ => ?_) fun _ => sends_pure _
  refine (netIs_onBuf _).bind fun code => Ensures.ite (fun _ => sends_pure _) fun _ => ?_
  refine (netIs_onBuf _).bind fun _ => (netIs_onBuf _).bind fun _ => ?_
  refine (netIs_onBuf _).bind fun bs => (netIs_onBuf _).bind fun _ => ?_
  refine (netIs_onBuf _).bind fun payload => ?_
  intro s hs
  rw [← show s.net = n from hs]
  exact .ipv4 src ipv4ICMP (fun i => payload.getD i 0) len

theorem sends_ipv4 (h : Polite cfg hooks) (pkt : Nat) :
    Ensures (NetIs n) (ipv4PacketHandle cfg hooks pkt len) fun _ s => Sends cfg n s.net := by
  refine (netIs_onBuf _).bind fun _ => Ensures.ite (fun _ => sends_pure _) fun _ => ?_
  refine (netIs_onBuf _).bind fun _ => ?_
  rw [h.ipv4]
  refine (Ensures.pure (a := (0 : Int)) (Q := fun _ => NetIs n) fun _ => id).bind fun r => ?_
  refine Ensures.ite (fun _ => sends_pure _) fun _ => (netIs_onBuf _).bind fun b => ?_
  refine Ensures.ite (fun _ => sends_pure _) fun _ => ?_
  refine Ensures.ite (fun _ => sends_pure _) fun _ => ?_
  refine (netIs_onBuf _).bind fun length => Ensures.ite (fun _ => sends_pure _) fun _ => ?_
  refine (netIs_onBuf _).bind fun flags => Ensures.ite (fun _ => sends_pure _) fun _ => ?_
  refine (netIs_onBuf _).bind fun dst => Ensures.ite (fun _ => sends_pure _) fun _ => ?_
  refine (netIs_onBuf _).bind fun src => (netIs_onBuf _).bind fun protocol => ?_
  refine Ensures.ite (fun _ => ?_) fun _ => Ensures.ite (fun _ => ?_) fun _ => sends_pure _
  · exact sends_icmp h src dst _
  · exact sends_udp h src dst _

/-- A packet that the ARP handler drops. -/
theorem reacts_pure (a : Int) {m' : Mem} :
    Ensures (At (σ := σ) n m') (pure a) fun _ s => Reacts cfg m len n s.net :=
  Ensures.pure fun s hs => by rw [hs.net]; exact .sends .quiet

/-- The ARP handler is called for a frame whose type field has been turned around. -/
theorem reacts_arp (h : Polite cfg hooks) (htype : m.read16 12 = htons ethertypeARP) :
    Ensures (At n (swapped16 m 12)) (arpPacketHandle cfg hooks 14 (len - etherHeaderSize))
      fun _ s => Reacts cfg m len n s.net := by
  -- the conversions turn the first two fields, the operation and the type around
  have hswap : ∀ x, 22 ≤ x → arpSwapped (swapped16 m 12) 14 x = m x := fun x hx => by
    simp (disch := omega) only [arpSwapped, swapped16_out]
  have hop : (arpSwapped (swapped16 m 12) 14).read16 20 = htons (m.read16 20) := by
    simp (disch := omega) only [arpSwapped, read16_swapped16, read16_swapped16_of_disjoint]
  have hspa : (arpSwapped (swapped16 m 12) 14).read32 28 = m.read32 28 :=
    Mem.read32_congr fun x hx _ => hswap x (by omega)
  refine (runs_note _ _).bind (Ensures.ite (fun _ => reacts_pure _) fun _ => ?_)
  refine (runs_arpHton _ _).bind ?_
  rw [h.arp]
  refine (Ensures.pure (a := (0 : Int)) (Q := fun _ => At n _) fun _ => id).bind fun r => ?_
  refine Ensures.ite (fun _ => reacts_pure _) fun _ => ?_
  refine (runs_rd16 _ _).bind ((runs_rd16 _ _).bind ?_)
  refine Ensures.ite (fun _ => ?_) fun _ => reacts_pure _
  refine (runs_rd8 _ _).bind ((runs_rd8 _ _).bind ?_)
  refine Ensures.ite (fun _ => reacts_pure _) fun _ => ?_
  refine Ensures.ite (fun _ => reacts_pure _) fun _ => ?_
  refine Ensures.ite (fun _ => reacts_pure _) fun hlong => ?_
  refine (runs_rdMac _ _).bind ((runs_rd32 _ _).bind ((runs_rdMac _ _).bind ?_))
  refine (runs_rd32 _ _).bind ((runs_rd16 _ _).bind ?_)
  refine Ensures.ite (fun _ => Ensures.ite (fun htpa => ?_) fun _ => reacts_pure _) fun _ =>
    Ensures.ite (fun hreply => ?_) fun _ => reacts_pure _
  · intro s hs
    rw [htpa, ← hs.net]
    exact .answers _ _
  · intro s hs
    have hlen : 42 ≤ len := by
      rw [arpHeaderSize, etherHeaderSize] at hlong
      omega
    rw [← hs.net]
    refine .learns _ _ ⟨htype, ?_, fun i hi => ?_, ?_⟩ hlen
    · have hturn : htons (m.read16 20) = arpReply := hop.symm.trans hreply
      rw [← hturn, htons_htons]
    · have hi6 : i < 6 := hi
      rw [← hswap _ (by omega)]
      interval_cases i <;> rfl
    · rw [htonl_htonl]
      exact hspa.symm

theorem reacts_ether (h : Polite cfg hooks) :
    Ensures (At n m) (etherPacketHandle cfg hooks 0 len) fun _ s => Reacts cfg m len n s.net := by
  refine (runs_note _ _).bind (Ensures.ite (fun _ => reacts_pure _) fun _ => ?_)
  refine (runs_swap16 _ _).bind ?_
  rw [h.ether]
  refine (Ensures.pure (a := (0 : Int)) (Q := fun _ => At n _) fun _ => id).bind fun r => ?_
  refine Ensures.ite (fun _ => reacts_pure _) fun _ => (runs_rdMac _ _).bind ?_
  refine Ensures.ite (fun _ => reacts_pure _) fun _ => (runs_rd16 _ _).bind ?_
  refine Ensures.ite (fun htype => ?_) fun _ => Ensures.ite (fun _ => ?_) fun _ => reacts_pure _
  · refine reacts_arp h ?_
    rw [← htons_htons (m.read16 12), ← read16_swapped16]
    exact congrArg htons htype
  · exact (sends_ipv4 h _).weaken (fun s hs => hs.net) fun _ s hs => .sends hs

/-- Every frame makes the library do one of the listed things. -/
theorem reacts_packetHandle (h : Polite cfg hooks) (s : RecvState σ) (len : Int) :
    Reacts cfg s.buf.mem len s.net (packetHandle cfg hooks len s).2.net := by
  have hall : Ensures (At s.net s.buf.mem) (packetHandle cfg hooks len)
      fun _ s' => Reacts cfg s.buf.mem len s.net s'.net := by
    refine (h.phy s.net s.buf.mem len).bind fun r => ?_
    exact Ensures.ite (fun _ => reacts_pure _) fun _ => reacts_ether h
  exact hall s ⟨rfl, rfl⟩

end Handlers

/-! ### What only the hooks change -/

section User

variable {σ α : Type} {cfg : NetConfig} {hooks : Hooks σ} {len : Int} {Q : σ → Prop}

/-- `Q` of the state of the hooks is kept. -/
def KeepsUser (Q : σ → Prop) (x : RecvM σ α) : Prop :=
  Ensures (fun s => Q s.user) x fun _ s => Q s.user

theorem user_pure (a : α) : KeepsUser Q (pure a) := Ensures.pure fun _ => id

theorem user_onBuf (x : BufM α) : KeepsUser Q (onBuf x) := fun _ hs => hs

theorem user_onNet (f : Net → α × Net) : KeepsUser Q (onNet f) := fun _ hs => hs

/-- The hooks keep `Q`. -/
structure UserHooks (hooks : Hooks σ) (Q : σ → Prop) : Prop extends NullHooks hooks where
  phy : ∀ len, KeepsUser Q (hooks.phy 0 len)
  udp : ∀ src dst pkt len, KeepsUser Q (hooks.udp src dst pkt len)

theorem user_udp (h : UserHooks hooks Q) (src dst : UInt32) (pkt : Nat) :
    KeepsUser Q (udpPacketHandle hooks src dst pkt len) := by
  refine (user_onBuf _).bind fun _ => Ensures.ite (fun _ => user_pure _) fun _ => ?_
  refine (user_onBuf _).bind fun _ => (h.udp src dst pkt _).bind fun r => ?_
  exact Ensures.ite (fun _ => user_pure _) fun _ => user_pure _

theorem user_icmp (h : UserHooks hooks Q) (src dst : UInt32) (pkt : Nat) :
    KeepsUser Q (icmpPacketHandle cfg hooks src dst pkt len) := by
  refine (user_onBuf _).bind fun _ => Ensures.ite (fun _ => user_pure _) fun _ => ?_
  rw [h.icmp]
  refine (user_pure _).bind fun r => Ensures.ite (fun _ => user_pure _) fun _ => ?_
  refine (user_onBuf _).bind fun type => Ensures.ite (fun _ => ?_) fun _ => user_pure _
  refine (user_onBuf _).bind fun code => Ensures.ite (fun _ => user_pure _) fun _ => ?_
  refine (user_onBuf _).bind fun _ => (user_onBuf _).bind fun _ => (user_onBuf _).bind fun _ => ?_
  refine (user_onBuf _).bind fun _ => (user_onBuf _).bind fun _ => ?_
  exact (user_onNet _).bind fun _ => user_pure _

theorem user_ipv4 (h : UserHooks hooks Q) (pkt : Nat) :
    KeepsUser Q (ipv4PacketHandle cfg hooks pkt len) := by
  refine (user_onBuf _).bind fun _ => Ensures.ite (fun _ => user_pure _) fun _ => ?_
  refine (user_onBuf _).bind fun _ => ?_
  rw [h.ipv4]
  refine (user_pure _).bind fun r => Ensures.ite (fun _ => user_pure _) fun _ => ?_
  refine (user_onBuf _).bind fun b => Ensures.ite (fun _ => user_pure _) fun _ => ?_
  refine Ensures.ite (fun _ => user_pure _) fun _ => (user_onBuf _).bind fun length => ?_
  refine Ensures.ite (fun _ => user_pure _) fun _ => (user_onBuf _).bind fun flags => ?_
  refine Ensures.ite (fun _ => user_pure _) fun _ => (user_onBuf _).bind fun dst => ?_
  refine Ensures.ite (fun _ => user_pure _) fun _ => (user_onBuf _).bind fun src => ?_
  refine (user_onBuf _).bind fun protocol => ?_
  refine Ensures.ite (fun _ => ?_) fun _ => Ensures.ite (fun _ => ?_) fun _ => user_pure _
  · exact user_icmp h src dst _
  · exact user_udp h src dst _

theorem user_arp (h : UserHooks hooks Q) (pkt : Nat) :
    KeepsUser Q (arpPacketHandle cfg hooks pkt len) := by
  refine (user_onBuf _).bind fun _ => Ensures.ite (fun _ => user_pure _) fun _ => ?_
  refine (user_onBuf _).bind fun _ => ?_
  rw [h.arp]
  refine (user_pure _).bind fun r => Ensures.ite (fun _ => user_pure _) fun _ => ?_
  refine (user_onBuf _).bind fun htype => (user_onBuf _).bind fun ptype => ?_
  refine Ensures.ite (fun _ => ?_) fun _ => user_pure _
  refine (user_onBuf _).bind fun hlen => (user_onBuf _).bind fun plen => ?_
  refine Ensures.ite (fun _ => user_pure _) fun _ => Ensures.ite (fun _ => user_pure _) fun _ => ?_
  refine Ensures.ite (fun _ => user_pure _) fun _ => (user_onBuf _).bind fun sha => ?_
  refine (user_onBuf _).bind fun spa => (user_onBuf _).bind fun tha => ?_
  refine (user_onBuf _).bind fun tpa => (user_onBuf _).bind fun op => ?_
  refine Ensures.ite (fun _ => Ensures.ite (fun _ => ?_) fun _ => user_pure _) fun _ =>
    Ensures.ite (fun _ => ?_) fun _ => user_pure _
  · exact (user_onNet _).bind fun _ => user_pure _
  · exact (user_onNet _).bind fun _ => user_pure _

theorem user_packetHandle (h : UserHooks hooks Q) : KeepsUser Q (packetHandle cfg hooks len) := by
  refine (h.phy len).bind fun r => Ensures.ite (fun _ => user_pure _) fun _ => ?_
  refine (user_onBuf _).bind fun _ => Ensures.ite (fun _ => user_pure _) fun _ => ?_
  refine (user_onBuf _).bind fun _ => ?_
  rw [h.ether]
  refine (user_pure _).bind fun r => Ensures.ite (fun _ => user_pure _) fun _ => ?_
  refine (user_onBuf _).bind fun dst => Ensures.ite (fun _ => user_pure _) fun _ => ?_
  refine (user_onBuf _).bind fun ethertype => ?_
  refine Ensures.ite (fun _ => ?_) fun _ => Ensures.ite (fun _ => ?_) fun _ => user_pure _
  · exact user_arp h _
  · exact user_ipv4 h _

end User

end DuckNet

end JudgeDuck
