/-
The packets of the to-send table, from `ducknet_ipv4_send` to `ducknet_phy_send`.

Beside the code, every slot has the packets it ever accepted, newest first.  A
packet records what happens to it: each call of `ducknet_phy_send` on the buffer
of its slot, with what ARP answers for its destination at that time, and its
expiry.  It is pending until the first of these.
-/
import JudgeDuck.Proofs.DuckNet.Bitmap

namespace JudgeDuck

namespace DuckNet

/-! ### Packets -/

/-- A call of `ducknet_phy_send` with the buffer of a slot. -/
structure Transmission where
  lookup : Option MACAddress
  frame : List UInt8

/-- A packet that was accepted; `body` is all of it but the Ethernet destination. -/
structure Packet where
  dst : UInt32
  expireTime : UInt64
  body : List UInt8
  transmissions : List Transmission
  expiredAt : Option UInt64

namespace Packet

def Pending (p : Packet) : Prop := p.transmissions = [] ∧ p.expiredAt = none

def transmit (arp : Arp) (frame : List UInt8) (p : Packet) : Packet :=
  { p with transmissions := p.transmissions ++ [⟨arpLookup p.dst arp, frame⟩] }

def expire (now : UInt64) (p : Packet) : Packet := { p with expiredAt := some now }

/-- The packet is sent at most once, unchanged, to the MAC address of its destination, and it
expires only after its time and without being sent. -/
structure Sound (p : Packet) : Prop where
  once : p.transmissions.length ≤ 1
  frames : ∀ t ∈ p.transmissions, ∃ mac, t.lookup = some mac ∧ t.frame = mac.bytes ++ p.body
  expired : ∀ now, p.expiredAt = some now → now > p.expireTime ∧ p.transmissions = []

theorem Pending.sound {p : Packet} (h : p.Pending) : p.Sound :=
  ⟨by simp [h.1], by simp [h.1], by simp [h.2]⟩

theorem Pending.sound_transmit {p : Packet} (h : p.Pending) {arp : Arp} {mac : MACAddress}
    (hmac : arpLookup p.dst arp = some mac) : (p.transmit arp (mac.bytes ++ p.body)).Sound := by
  refine ⟨by simp [transmit, h.1], fun t ht => ⟨mac, ?_⟩, by simp [transmit, h.2]⟩
  simp [transmit, h.1] at ht
  simp [ht, hmac, transmit]

theorem Pending.sound_expire {p : Packet} (h : p.Pending) {now : UInt64}
    (hnow : now > p.expireTime) : (p.expire now).Sound :=
  ⟨by simp [expire, h.1], by simp [expire, h.1], by simp [expire, h.1]; exact hnow⟩

theorem not_pending_transmit (p : Packet) (arp : Arp) (frame : List UInt8) :
    ¬(p.transmit arp frame).Pending := by simp [Pending, transmit]

theorem not_pending_expire (p : Packet) (now : UInt64) : ¬(p.expire now).Pending := by
  simp [Pending, expire]

end Packet

/-- The entry of the table holds the packet. -/
structure ToSend.Holds (e : ToSend) (p : Packet) : Prop where
  dstIp : e.dstIp = p.dst
  expireTime : e.expireTime = p.expireTime
  pktLen : 6 ≤ e.pktLen
  body : e.pkt.bytes 6 (e.pktLen - 6) = p.body

/-! ### Runs -/

inductive NetEvent where
  | clock (now : UInt64)
  | arpUpdate (ip : UInt32) (mac : MACAddress)
  | arpIdle
  | send (dst : UInt32) (protocol : UInt8) (payload : Mem) (len : Int)
  | idle

/-- The library, and the packets every slot ever accepted. -/
structure NetWorld where
  net : Net
  slots : Nat → List Packet

namespace NetWorld

/-- Note a call of `ducknet_phy_send` with the packet in that buffer. -/
def noteCall (arp : Arp) (slots : Nat → List Packet) :
    Buffer × List UInt8 → (Nat → List Packet)
  | (.sendbuf, _) => slots
  | (.tosend i, frame) => Function.update slots i ((slots i).modifyHead (Packet.transmit arp frame))

/-- The library has become `net`; note the calls of `ducknet_phy_send` on the way. -/
def observe (w : NetWorld) (net : Net) : NetWorld where
  net
  slots := (net.sent.drop w.net.sent.length).foldl (noteCall w.net.arp) w.slots

/-- `ducknet_ipv4_send`; a packet for an unknown host is accepted when the result is 0. -/
def send (cfg : NetConfig) (dst : UInt32) (protocol : UInt8) (payload : Mem) (len : Int)
    (w : NetWorld) : NetWorld :=
  let out := ipv4Send cfg dst protocol payload len w.net
  let w' := w.observe out.2
  if arpLookup dst w.net.arp = none ∧ out.1 = 0 then
    match findTosendFree w.net.tosendFree with
    | none => w'
    | some id =>
      let e := out.2.tosend id
      let p : Packet :=
        { dst, expireTime := e.expireTime, body := e.pkt.bytes 6 (e.pktLen - 6)
          transmissions := [], expiredAt := none }
      { w' with slots := Function.update w'.slots id (p :: w'.slots id) }
  else w'

/-- One slot of a sweep. -/
def idleSlot (cfg : NetConfig) (w : NetWorld) (i : Nat) : NetWorld :=
  let w' := w.observe (ipv4IdleSlot cfg w.net i)
  if slotCase w.net i = .expired then
    { w' with slots :=
      Function.update w'.slots i ((w'.slots i).modifyHead (Packet.expire w.net.now)) }
  else w'

/-- `ducknet_ipv4_idle`. -/
def idle (cfg : NetConfig) (w : NetWorld) : NetWorld :=
  if ipv4IdleDue w.net then
    (List.range tosendTableSize).foldl (idleSlot cfg)
      { w with net := { w.net with lastIdleTime := w.net.now, cnt := 0 } }
  else { w with net := { w.net with cnt := w.net.cnt + 1 } }

def step (cfg : NetConfig) (w : NetWorld) : NetEvent → NetWorld
  | .clock now => { w with net := { w.net with now } }
  | .arpUpdate ip mac =>
    { w with net := { w.net with arp := (arpUpdate cfg.tscFreq w.net.now ip mac w.net.arp).2 } }
  | .arpIdle => { w with net := { w.net with arp := arpIdle w.net.now w.net.arp } }
  | .send dst protocol payload len => w.send cfg dst protocol payload len
  | .idle => w.idle cfg

/-- The events one after the other, from `ducknet_init`. -/
def run (cfg : NetConfig) (now : UInt64) (events : List NetEvent) : NetWorld :=
  events.foldl (step cfg) ⟨Net.init cfg now, fun _ => []⟩

/-- What holds of a slot: its bit is set when none of its packets is pending, no packet but the
newest is, and a pending packet is in the table as it was accepted. -/
structure SlotOk (net : Net) (i : Nat) (ps : List Packet) : Prop where
  bitmap : slotFree net.tosendFree i = true ↔ ∀ p ∈ ps, ¬p.Pending
  older : ∀ p ∈ ps.tail, ¬p.Pending
  sound : ∀ p ∈ ps, p.Sound
  held : ∀ p ∈ ps, p.Pending → (net.tosend i).Holds p

def Ok (w : NetWorld) : Prop := ∀ i < tosendTableSize, SlotOk w.net i (w.slots i)

end NetWorld

/-! ### Steps that leave the table alone -/

/-- The table is as before, and nothing was sent from it. -/
structure Quiet (s s' : Net) : Prop where
  tosend : s'.tosend = s.tosend
  tosendFree : s'.tosendFree = s.tosendFree
  calls : ∃ calls, s'.sent = s.sent ++ calls ∧ ∀ c ∈ calls, c.1 = .sendbuf

theorem Quiet.refl (s : Net) : Quiet s s := ⟨rfl, rfl, [], by simp⟩

theorem Quiet.trans {s s' s'' : Net} (h : Quiet s s') (h' : Quiet s' s'') : Quiet s s'' := by
  obtain ⟨calls, hs, hc⟩ := h.calls
  obtain ⟨calls', hs', hc'⟩ := h'.calls
  refine ⟨h'.tosend.trans h.tosend, h'.tosendFree.trans h.tosendFree, calls ++ calls', ?_, ?_⟩
  · rw [hs', hs, List.append_assoc]
  · intro c hmem
    rcases List.mem_append.mp hmem with hmem | hmem
    · exact hc c hmem
    · exact hc' c hmem

theorem quiet_phySend (cfg : NetConfig) (len : Nat) (s : Net) :
    Quiet s (phySend cfg .sendbuf len s).2 :=
  ⟨rfl, rfl, [(.sendbuf, s.sendbuf.bytes 0 len)], rfl, by simp⟩

theorem quiet_sendbuf (s : Net) (m : Mem) : Quiet s { s with sendbuf := m } :=
  ⟨rfl, rfl, [], by simp⟩

theorem quiet_arp (s : Net) (arp : Arp) : Quiet s { s with arp } := ⟨rfl, rfl, [], by simp⟩

theorem quiet_arpSend (cfg : NetConfig) (dst : MACAddress) (op : UInt16) (payload : List UInt8)
    (s : Net) : Quiet s (arpSend cfg dst op payload s).2 := by
  unfold arpSend
  split
  · exact Quiet.refl s
  · exact (quiet_sendbuf s _).trans (quiet_phySend cfg _ _)

theorem quiet_arpQuery (cfg : NetConfig) (ip : UInt32) (s : Net) :
    Quiet s (s.arpQuery cfg ip).2 := by
  unfold Net.arpQuery
  split
  · exact quiet_arp s _
  · exact (quiet_arp s _).trans (quiet_arpSend cfg _ _ _ _)

/-- What `ducknet_ipv4_send` does: it leaves the table alone, and then a packet for an unknown host
has failed, or it puts such a packet into a free slot. -/
theorem ipv4Send_cases (cfg : NetConfig) (dst : UInt32) (protocol : UInt8) (payload : Mem)
    (len : Int) (s : Net) :
    (Quiet s (ipv4Send cfg dst protocol payload len s).2 ∧
      (arpLookup dst s.arp = none → (ipv4Send cfg dst protocol payload len s).1 ≠ 0)) ∨
    (arpLookup dst s.arp = none ∧ (ipv4Send cfg dst protocol payload len s).1 = 0 ∧
      ∃ id pkt s', findTosendFree s.tosendFree = some id ∧ Quiet s s' ∧
        (ipv4Send cfg dst protocol payload len s).2 =
          { s' with
            tosend := Function.update s'.tosend id
              ⟨dst, timeAddMs cfg.tscFreq s'.now tosendTimeoutMs,
                len.toNat + ipv4HeaderSize + etherHeaderSize, pkt⟩
            tosendFree := clearFree s'.tosendFree id }) := by
  cases hlookup : arpLookup dst s.arp with
  | some dstMac =>
      refine .inl ⟨?_, by simp⟩
      simp only [ipv4Send, hlookup]
      split
      · exact Quiet.refl s
      · exact (quiet_sendbuf s _).trans (quiet_phySend cfg _ _)
  | none =>
      have hq := quiet_arpQuery cfg dst s
      simp only [ipv4Send, hlookup]
      cases hfind : findTosendFree (s.arpQuery cfg dst).2.tosendFree with
      | none => exact .inl ⟨hq, by simp⟩
      | some id =>
          dsimp only
          cases hbuild : ipv4BuildPacket cfg ((s.arpQuery cfg dst).2.tosend id).pkt dst protocol
              payload len with
          | none => exact .inl ⟨hq, by simp⟩
          | some pkt =>
              exact .inr ⟨trivial, rfl, id, pkt, _, by rw [← hq.tosendFree]; exact hfind, hq, rfl⟩

/-- A send that fails leaves the table as it was. -/
theorem tosend_of_ipv4Send_neg {cfg : NetConfig} {dst : UInt32} {protocol : UInt8} {payload : Mem}
    {len : Int} {s : Net} (h : (ipv4Send cfg dst protocol payload len s).1 < 0) :
    (ipv4Send cfg dst protocol payload len s).2.tosend = s.tosend ∧
      (ipv4Send cfg dst protocol payload len s).2.tosendFree = s.tosendFree := by
  rcases ipv4Send_cases cfg dst protocol payload len s with ⟨hq, -⟩ | ⟨-, hr, -⟩
  · exact ⟨hq.tosend, hq.tosendFree⟩
  · rw [hr] at h
    exact absurd h (by decide)

namespace NetWorld

variable {cfg : NetConfig} {w : NetWorld} {i : Nat} {ps : List Packet}

theorem foldl_noteCall_sendbuf (arp : Arp) : ∀ (calls : List (Buffer × List UInt8))
    (slots : Nat → List Packet), (∀ c ∈ calls, c.1 = .sendbuf) →
    calls.foldl (noteCall arp) slots = slots := by
  intro calls
  induction calls with
  | nil => intro slots _; rfl
  | cons c calls ih =>
      intro slots hc
      obtain ⟨b, frame⟩ := c
      obtain rfl : b = .sendbuf := hc _ List.mem_cons_self
      exact ih slots fun c hmem => hc c (List.mem_cons_of_mem _ hmem)

theorem observe_slots_of_quiet {s : Net} (h : Quiet w.net s) : (w.observe s).slots = w.slots := by
  obtain ⟨calls, hs, hc⟩ := h.calls
  rw [observe, hs, List.drop_left]
  exact foldl_noteCall_sendbuf w.net.arp calls w.slots hc

/-- What holds of a slot depends on its bit and its entry only. -/
theorem SlotOk.congr {s s' : Net} (h : SlotOk s i ps)
    (hfree : slotFree s'.tosendFree i = slotFree s.tosendFree i)
    (hentry : s'.tosend i = s.tosend i) :
    SlotOk s' i ps :=
  ⟨by rw [hfree]; exact h.bitmap, h.older, h.sound, by rw [hentry]; exact h.held⟩

theorem Ok.congr (h : Ok w) {s : Net} (hfree : s.tosendFree = w.net.tosendFree)
    (hentry : s.tosend = w.net.tosend) : Ok { w with net := s } :=
  fun i hi => (h i hi).congr (by rw [hfree]) (by rw [hentry])

theorem Ok.of_quiet (h : Ok w) {s : Net} (hq : Quiet w.net s) : Ok (w.observe s) := by
  intro i hi
  rw [observe_slots_of_quiet hq]
  exact h.congr hq.tosendFree hq.tosend i hi

/-! ### Accepting a packet -/

theorem SlotOk.accept {s s' : Net} (h : SlotOk s i ps) (hfree : slotFree s.tosendFree i = true)
    (hclear : ¬slotFree s'.tosendFree i = true) {p : Packet} (hp : p.Pending)
    (hheld : (s'.tosend i).Holds p) : SlotOk s' i (p :: ps) := by
  have hold := h.bitmap.mp hfree
  constructor
  · exact ⟨fun hc => absurd hc hclear, fun hc => absurd hp (hc p List.mem_cons_self)⟩
  · exact hold
  · intro q hq
    rcases List.mem_cons.mp hq with rfl | hq
    · exact hp.sound
    · exact h.sound q hq
  · intro q hq hpend
    rcases List.mem_cons.mp hq with rfl | hq
    · exact hheld
    · exact absurd hpend (hold q hq)

theorem Ok.send (h : Ok w) (dst : UInt32) (protocol : UInt8) (payload : Mem) (len : Int) :
    Ok (w.send cfg dst protocol payload len) := by
  rcases ipv4Send_cases cfg dst protocol payload len w.net with
    ⟨hq, hne⟩ | ⟨hlookup, hr, id, pkt, s', hfind, hq, hout⟩
  · have hcond : ¬(arpLookup dst w.net.arp = none ∧
        (ipv4Send cfg dst protocol payload len w.net).1 = 0) := fun hc => hne hc.1 hc.2
    rw [NetWorld.send, if_neg hcond]
    exact h.of_quiet hq
  · obtain ⟨hid, hfree⟩ := findTosendFree_some hfind
    rw [NetWorld.send, if_pos ⟨hlookup, hr⟩, hfind, hout]
    have hobs : (w.observe { s' with
        tosend := Function.update s'.tosend id
          ⟨dst, timeAddMs cfg.tscFreq s'.now tosendTimeoutMs,
            len.toNat + ipv4HeaderSize + etherHeaderSize, pkt⟩
        tosendFree := clearFree s'.tosendFree id }).slots = w.slots :=
      observe_slots_of_quiet (s := s') hq
    dsimp only
    rw [hobs]
    intro i hi
    by_cases heq : i = id
    · subst heq
      dsimp only
      rw [Function.update_self, Function.update_self]
      refine (h i hi).accept hfree ?_ ⟨rfl, rfl⟩ ⟨?_, ?_, ?_, ?_⟩
      · simp [observe, slotFree_clearFree]
      all_goals simp [observe, ipv4HeaderSize, etherHeaderSize]
    · dsimp only
      rw [Function.update_of_ne heq]
      refine (h i hi).congr ?_ ?_
      · rw [Bool.eq_iff_iff]
        simp [observe, slotFree_clearFree, hq.tosendFree, Ne.symm heq]
      · simp [observe, hq.tosend, heq]

/-! ### Sweeping a slot -/

theorem slotCase_expired {s : Net} (h : slotCase s i = .expired) :
    ¬slotFree s.tosendFree i = true ∧ s.now > (s.tosend i).expireTime := by
  unfold slotCase at h
  split at h
  · exact SlotCase.noConfusion h
  · next hfree =>
    split at h
    · next hlate => exact ⟨hfree, hlate⟩
    · split at h <;> exact SlotCase.noConfusion h

theorem slotCase_found {s : Net} {mac : MACAddress} (h : slotCase s i = .found mac) :
    ¬slotFree s.tosendFree i = true ∧ arpLookup (s.tosend i).dstIp s.arp = some mac := by
  unfold slotCase at h
  split at h
  · exact SlotCase.noConfusion h
  · next hfree =>
    split at h
    · exact SlotCase.noConfusion h
    · split at h
      · next hl => exact ⟨hfree, by rw [hl, SlotCase.found.inj h]⟩
      · exact SlotCase.noConfusion h

/-- A slot that is not free holds its newest packet. -/
theorem SlotOk.exists_pending {s : Net} (h : SlotOk s i ps)
    (hfree : ¬slotFree s.tosendFree i = true) :
    ∃ p ps', ps = p :: ps' ∧ p.Pending ∧ (s.tosend i).Holds p := by
  rw [h.bitmap] at hfree
  push Not at hfree
  obtain ⟨p, hmem, hp⟩ := hfree
  cases ps with
  | nil => simp at hmem
  | cons q ps' =>
      rcases List.mem_cons.mp hmem with rfl | hmem'
      · exact ⟨p, ps', rfl, hp, h.held p hmem hp⟩
      · exact absurd hp (h.older p hmem')

/-- The newest packet is done and its bit is set. -/
theorem SlotOk.release {s s' : Net} {p q : Packet} (h : SlotOk s i (p :: ps))
    (hset : slotFree s'.tosendFree i = true) (hq : ¬q.Pending) (hsound : q.Sound) :
    SlotOk s' i (q :: ps) := by
  have hnone : ∀ r ∈ q :: ps, ¬r.Pending := by
    intro r hr
    rcases List.mem_cons.mp hr with rfl | hr
    · exact hq
    · exact h.older r hr
  refine ⟨⟨fun _ => hnone, fun _ => hset⟩, h.older, ?_, fun r hr hpend => absurd hpend (hnone r hr)⟩
  intro r hr
  rcases List.mem_cons.mp hr with rfl | hr
  · exact hsound
  · exact h.sound r (List.mem_cons_of_mem _ hr)

theorem bytes_putBytes_mac {e : ToSend} {p : Packet} (h : e.Holds p) (mac : MACAddress) :
    (e.pkt.putBytes 0 mac.bytes).bytes 0 e.pktLen = mac.bytes ++ p.body := by
  have hlen : mac.bytes.length = 6 := rfl
  have hsplit : e.pktLen = 6 + (e.pktLen - 6) := by have := h.pktLen; omega
  rw [hsplit, Mem.bytes_add]
  refine congrArg₂ (· ++ ·) ?_ ?_
  · refine List.ext_getElem (by simp [hlen]) fun k hk hk' => ?_
    rw [Mem.getElem_bytes, Mem.putBytes_add hk']
  · rw [← h.body]
    exact Mem.bytes_congr fun x hx _ => Mem.putBytes_out (by rw [hlen]; omega)

theorem Ok.idleSlot (h : Ok w) (hi : i < tosendTableSize) : Ok (w.idleSlot cfg i) := by
  rw [NetWorld.idleSlot]
  cases hcase : slotCase w.net i with
  | free =>
      have hsame : ipv4IdleSlot cfg w.net i = w.net := by rw [ipv4IdleSlot, hcase]
      rw [if_neg (by simp), hsame]
      exact h.of_quiet (Quiet.refl _)
  | unknown =>
      have hquery : ipv4IdleSlot cfg w.net i = (w.net.arpQuery cfg (w.net.tosend i).dstIp).2 := by
        rw [ipv4IdleSlot, hcase]
      rw [if_neg (by simp), hquery]
      exact h.of_quiet (quiet_arpQuery cfg _ _)
  | expired =>
      obtain ⟨hfree, hlate⟩ := slotCase_expired hcase
      obtain ⟨p, ps, hps, hpend, hheld⟩ := (h i hi).exists_pending hfree
      have hset : ipv4IdleSlot cfg w.net i =
          { w.net with tosendFree := setFree w.net.tosendFree i } := by rw [ipv4IdleSlot, hcase]
      have hobs : (w.observe { w.net with tosendFree := setFree w.net.tosendFree i }).slots =
          w.slots := observe_slots_of_quiet (s := w.net) (Quiet.refl _)
      rw [if_pos rfl, hset]
      dsimp only
      rw [hobs]
      intro j hj
      by_cases heq : j = i
      · subst heq
        dsimp only
        have hslot := h j hj
        rw [hps] at hslot
        rw [Function.update_self, hps, List.modifyHead_cons]
        refine hslot.release ?_ (Packet.not_pending_expire p _) (hpend.sound_expire ?_)
        · exact slotFree_setFree.mpr (.inl rfl)
        · rw [← hheld.expireTime]
          exact hlate
      · dsimp only
        rw [Function.update_of_ne heq]
        refine (h j hj).congr ?_ rfl
        rw [Bool.eq_iff_iff]
        exact slotFree_setFree.trans (or_iff_right (Ne.symm heq))
  | found mac =>
      obtain ⟨hfree, hmac⟩ := slotCase_found hcase
      obtain ⟨p, ps, hps, hpend, hheld⟩ := (h i hi).exists_pending hfree
      have hobs : (w.observe (ipv4IdleSlot cfg w.net i)).slots =
          Function.update w.slots i (p.transmit w.net.arp (mac.bytes ++ p.body) :: ps) := by
        rw [ipv4IdleSlot, hcase]
        simp [observe, phySend, Net.buffer, noteCall, bytes_putBytes_mac hheld, hps]
      rw [if_neg (by simp)]
      intro j hj
      rw [hobs]
      by_cases heq : j = i
      · subst heq
        have hslot := h j hj
        rw [hps] at hslot
        rw [Function.update_self]
        refine hslot.release ?_ (Packet.not_pending_transmit p _ _) (hpend.sound_transmit ?_)
        · rw [ipv4IdleSlot, hcase]
          exact slotFree_setFree.mpr (.inl rfl)
        · rw [← hheld.dstIp]
          exact hmac
      · rw [Function.update_of_ne heq]
        refine (h j hj).congr ?_ ?_
        · rw [Bool.eq_iff_iff, ipv4IdleSlot, hcase]
          exact slotFree_setFree.trans (or_iff_right (Ne.symm heq))
        · rw [ipv4IdleSlot, hcase]
          exact Function.update_of_ne heq _ _

/-! ### Runs -/

theorem Ok.foldl_idleSlot : ∀ (l : List Nat) {w : NetWorld}, Ok w → (∀ i ∈ l, i < tosendTableSize) →
    Ok (l.foldl (NetWorld.idleSlot cfg) w) := by
  intro l
  induction l with
  | nil => intro w h _; exact h
  | cons i l ih =>
      intro w h hl
      exact ih (h.idleSlot (hl i List.mem_cons_self)) fun j hj => hl j (List.mem_cons_of_mem _ hj)

theorem Ok.step (h : Ok w) (e : NetEvent) : Ok (w.step cfg e) := by
  cases e with
  | clock now => exact h.congr rfl rfl
  | arpUpdate ip mac => exact h.congr rfl rfl
  | arpIdle => exact h.congr rfl rfl
  | send dst protocol payload len => exact h.send dst protocol payload len
  | idle =>
      rw [NetWorld.step, NetWorld.idle]
      split
      · exact Ok.foldl_idleSlot _ (h.congr rfl rfl) fun i hi => List.mem_range.mp hi
      · exact h.congr rfl rfl

theorem ok_run (cfg : NetConfig) (now : UInt64) (events : List NetEvent) :
    Ok (run cfg now events) := by
  have hinit : Ok ⟨Net.init cfg now, fun _ => []⟩ := by
    intro i hi
    refine ⟨⟨by simp, fun _ => (slotFree_foldl_setFree tosendTableSize).mpr hi⟩, ?_, ?_, ?_⟩
    all_goals simp
  suffices hfold : ∀ (events : List NetEvent) (w : NetWorld), Ok w →
      Ok (events.foldl (NetWorld.step cfg) w) from hfold events _ hinit
  intro events
  induction events with
  | nil => intro w h; exact h
  | cons e events ih => intro w h; exact ih _ (h.step e)

/-- The library runs as if nothing was noted. -/
theorem net_send (dst : UInt32) (protocol : UInt8) (payload : Mem) (len : Int) :
    (w.send cfg dst protocol payload len).net
      = (ipv4Send cfg dst protocol payload len w.net).2 := by
  rw [NetWorld.send]
  split
  · split <;> rfl
  · rfl

theorem net_idleSlot (w : NetWorld) (i : Nat) :
    (w.idleSlot cfg i).net = ipv4IdleSlot cfg w.net i := by
  rw [NetWorld.idleSlot]
  split <;> rfl

theorem net_idle (w : NetWorld) : (w.idle cfg).net = ipv4Idle cfg w.net := by
  have hfold : ∀ (l : List Nat) (w : NetWorld),
      (l.foldl (NetWorld.idleSlot cfg) w).net = l.foldl (ipv4IdleSlot cfg) w.net := by
    intro l
    induction l with
    | nil => intro w; rfl
    | cons i l ih => intro w; rw [List.foldl_cons, List.foldl_cons, ih, net_idleSlot]
  rw [NetWorld.idle, ipv4Idle]
  split
  · exact hfold _ _
  · rfl

/-- In every state of a run, the bitmap marks exactly the slots without a pending packet; every
accepted packet is sent at most once, unchanged and to the MAC address that ARP has for it then, or
expires; while it is pending its slot holds it and takes no other; and a send either succeeds or
leaves the table as it was. -/
theorem delivers_run (cfg : NetConfig) (now : UInt64) (events : List NetEvent) :
    Ok (run cfg now events) ∧
      ∀ (dst : UInt32) (protocol : UInt8) (payload : Mem) (len : Int),
        0 ≤ (ipv4Send cfg dst protocol payload len (run cfg now events).net).1 ∨
          (ipv4Send cfg dst protocol payload len (run cfg now events).net).2.tosend =
              (run cfg now events).net.tosend ∧
            (ipv4Send cfg dst protocol payload len (run cfg now events).net).2.tosendFree =
              (run cfg now events).net.tosendFree := by
  refine ⟨ok_run cfg now events, fun dst protocol payload len => ?_⟩
  rcases lt_or_ge (ipv4Send cfg dst protocol payload len (run cfg now events).net).1 0 with
    hneg | hok
  · exact .inr (tosend_of_ipv4Send_neg hneg)
  · exact .inl hok

end NetWorld

end DuckNet

end JudgeDuck
