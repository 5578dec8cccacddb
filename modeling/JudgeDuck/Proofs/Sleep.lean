/-
What the machine leaves to the NIC when it halts.

The rounds of the main loop and the steps of the NIC are interleaved.  A driver queues
packets without telling the NIC of each, and the library remembers whether it has
flushed since; `idle` flushes before it sleeps.  So the NIC sends all that was
queued while the machine sleeps, which is after at least a millisecond without traffic
and not for long.
-/
import JudgeDuck.Proofs.Commands
import JudgeDuck.Proofs.DuckNet.Rounds
import JudgeDuck.Proofs.DuckServer
import JudgeDuck.Proofs.Nic.Transmit

namespace JudgeDuck

open DuckNet Nic

/-! ### How long -/

theorem Scheduler.pickPolicy_eq (t : UInt64) :
    pickPolicy t (idlePolicyMs.length - 1) = if t ≥ 30 then 2 else if t ≥ 1 then 1 else 0 := rfl

/-- The scheduler sleeps for one or two milliseconds, after at least one. -/
theorem Scheduler.sleepDurationMs_pos {now : UInt64} {s : Scheduler}
    (h : s.sleepDurationMs now > 0) :
    s.currentState = .idle ∧ 1000000 ≤ (now - s.lastActiveTimestampNs).toNat ∧
      (s.sleepDurationMs now = 1 ∨ s.sleepDurationMs now = 2) := by
  unfold sleepDurationMs at h ⊢
  split at h
  · exact absurd h (by decide)
  · next hidle =>
    rw [if_neg hidle]
    dsimp only at h ⊢
    rw [pickPolicy_eq] at h ⊢
    have hlong : ∀ {t : UInt64}, t ≥ 1 →
        t = (now - s.lastActiveTimestampNs) / 1000000 →
        1000000 ≤ (now - s.lastActiveTimestampNs).toNat := by
      intro t ht heq
      have hdiv : 1 ≤ (now - s.lastActiveTimestampNs).toNat / 1000000 := by
        have hnat : (1 : UInt64).toNat ≤ t.toNat := UInt64.le_iff_toNat_le.mp ht
        rw [heq, UInt64.toNat_div] at hnat
        exact hnat
      omega
    refine ⟨not_not.mp hidle, ?_, ?_⟩
    · split at h
      · next ht => exact hlong (UInt64.le_trans (by decide) ht) rfl
      · split at h
        · next ht => exact hlong ht rfl
        · exact absurd h (by decide)
    · split at h
      · next ht => exact .inr (by rw [if_pos ht]; rfl)
      · next ht =>
        split at h
        · next ht1 => exact .inl (by rw [if_neg ht, if_pos ht1]; rfl)
        · exact absurd h (by decide)

/-- The assert of the timer holds for a sleep of at most two milliseconds, and the timer does not
run longer. -/
theorem Timer.exists_singleShot (extFreq : UInt32) {ms : UInt64} (hms : ms = 1 ∨ ms = 2) :
    ∃ ticr, timerSingleShotNs extFreq (ms * 1000000) = some ticr ∧
      ticr.toNat * 1000000000 ≤ 2000000 * extFreq.toNat := by
  have hext : extFreq.toNat < 2 ^ 32 := extFreq.toNat_lt
  have hns : (ms * 1000000).toNat ≤ 2000000 := by
    rcases hms with rfl | rfl <;> decide
  have hprod : (ms * 1000000).toNat * extFreq.toNat ≤ 2000000 * extFreq.toNat :=
    Nat.mul_le_mul_right _ hns
  obtain ⟨q, hq⟩ : ∃ q, q = (ms * 1000000).toNat * extFreq.toNat / (timerEx * 1000000000) :=
    ⟨_, rfl⟩
  have hle : q * 1000000000 ≤ 2000000 * extFreq.toNat := by
    rw [hq, timerEx, Nat.one_mul]
    exact (Nat.div_mul_le_self _ _).trans hprod
  have hsmall : q < 4000000000 := by omega
  have hword : (UInt64.ofNat q).toNat = q := UInt64.toNat_ofNat_of_lt' (by
    show q < 2 ^ 64
    omega)
  have hlt : UInt64.ofNat q < 4000000000 := UInt64.lt_iff_toNat_lt.mpr (by rw [hword]; exact hsmall)
  refine ⟨(UInt64.ofNat q).toUInt32, ?_, ?_⟩
  · unfold timerSingleShotNs
    rw [← hq]
    exact if_pos hlt
  · rw [UInt64.toNat_toUInt32, hword, Nat.mod_eq_of_lt (by omega)]
    exact hle

/-! ### From the library to the ring -/

section Ring

variable {D R τ : Type} {d : TxDriver D} {publish : TxRing D → TxRing D}
  {host : Host (Rings (TxRing D) R) τ} {drv : NetworkDriver (Rings (TxRing D) R)}

/-- The driver is one of those with a transmit ring. -/
structure RingDriver (d : TxDriver D) (publish : TxRing D → TxRing D)
    (drv : NetworkDriver (Rings (TxRing D) R)) : Prop where
  send : ∀ pkt s, drv.send pkt s =
    ((s.tx.send d publish (fun i => pkt.getD i 0) pkt.length).1,
      { s with tx := (s.tx.send d publish (fun i => pkt.getD i 0) pkt.length).2 })
  receive : ∀ s, (drv.receive s).2.tx = s.tx
  flush : ∀ s, drv.flush s = (0, { s with tx := s.tx.flush })

/-- The driver has been given `history`, and has accepted some of it. -/
structure Queued (d : TxDriver D) (publish : TxRing D → TxRing D)
    (p : Phy (DuckMachine (Rings (TxRing D) R) τ)) (history : List (List UInt8)) : Prop where
  run : ∃ acc, acc.Sublist history ∧ TxRun d publish p.user.nic.tx acc
  flushed : p.flushed = true → p.user.nic.tx.nextIdx = p.user.nic.tx.published

theorem packet_getD (pkt : List UInt8) : packet (fun i => pkt.getD i 0) pkt.length = pkt := by
  refine List.ext_getElem (length_packet _ _) fun i h1 h2 => ?_
  simp only [packet, List.getElem_map, List.getElem_range]
  exact List.getD_eq_getElem _ _ h2

/-- What `ducknet_phy_send` does with the functions that the server has set. -/
theorem phySend_config (hdrv : host.driver = some drv) (pkt : List UInt8)
    (p : Phy (DuckMachine (Rings (TxRing D) R) τ)) :
    (Phy.send host.config.toPhyConfig pkt p).2 =
      ⟨false, { Host.setActive p.user with nic := (drv.send pkt p.user.nic).2 }⟩ := by
  have hsend : host.config.send = some fun pkt m =>
      ((drv.send pkt m.nic).1, { m with nic := (drv.send pkt m.nic).2 }) := by
    show host.driver.map _ = _
    rw [hdrv]
    rfl
  have hhandle : host.config.sendPacketHandle = some fun _ m => (0, Host.setActive m) := rfl
  unfold Phy.send phyTransmit
  rw [hhandle, hsend]
  rfl

theorem Queued.send (hd : RingDriver d publish drv) (hdrv : host.driver = some drv)
    {p : Phy (DuckMachine (Rings (TxRing D) R) τ)} {history : List (List UInt8)}
    (h : Queued d publish p history) (pkt : List UInt8) :
    Queued d publish (Phy.send host.config.toPhyConfig pkt p).2 (history ++ [pkt]) := by
  obtain ⟨acc, hacc, hrun⟩ := h.run
  rw [phySend_config hdrv, hd.send]
  refine ⟨?_, fun hf => absurd hf (by simp)⟩
  by_cases hr : (p.user.nic.tx.send d publish (fun i => pkt.getD i 0) pkt.length).1 = 0
  · refine ⟨acc ++ [pkt], hacc.append (List.Sublist.refl _), ?_⟩
    have haccept := hrun.accept _ _ hr
    rwa [packet_getD] at haccept
  · exact ⟨acc, hacc.trans (List.sublist_append_left _ _), hrun.refuse _ _ hr⟩

theorem Queued.after (hd : RingDriver d publish drv) (hdrv : host.driver = some drv) :
    ∀ (frames : List (List UInt8)) {p : Phy (DuckMachine (Rings (TxRing D) R) τ)}
      {history : List (List UInt8)}, Queued d publish p history →
      Queued d publish (Phy.after host.config.toPhyConfig p frames) (history ++ frames) := by
  intro frames
  induction frames with
  | nil => intro p history h; rwa [List.append_nil]
  | cons pkt frames ih =>
      intro p history h
      rw [List.append_cons]
      exact ih (h.send hd hdrv pkt)

/-- After a flush, the tail that the NIC knows is the index. -/
theorem nextIdx_flush (s : TxRing D) : s.flush.nextIdx = s.flush.published := by
  unfold TxRing.flush
  split
  · next h => exact h
  · rfl

/-- The library, the driver and the ring agree. -/
def Agree (d : TxDriver D) (publish : TxRing D → TxRing D)
    (st : Station (DuckMachine (Rings (TxRing D) R) τ)) : Prop :=
  Queued d publish ⟨st.flushed, st.user⟩ (st.net.sent.map Prod.snd)

theorem flush_config (hdrv : host.driver = some drv) : host.baseConfig.flush =
    some fun m => ((drv.flush m.nic).1, { m with nic := (drv.flush m.nic).2 }) := by
  show host.driver.map _ = _
  rw [hdrv]
  rfl

theorem Agree.flush (hd : RingDriver d publish drv) (hdrv : host.driver = some drv)
    {st : Station (DuckMachine (Rings (TxRing D) R) τ)} (h : Agree d publish st) :
    Agree d publish (phyFlush host.baseConfig st).2 ∧
      (phyFlush host.baseConfig st).2.flushed = true := by
  unfold phyFlush
  split
  · next hf => exact ⟨h, hf⟩
  · rw [flush_config hdrv]
    obtain ⟨acc, hacc, hrun⟩ := h.run
    simp only [hd.flush, decide_true]
    exact ⟨⟨⟨acc, hacc, hrun.flush⟩, fun _ => nextIdx_flush _⟩, trivial⟩

theorem Agree.phyIdle (hd : RingDriver d publish drv) (hdrv : host.driver = some drv)
    {st : Station (DuckMachine (Rings (TxRing D) R) τ)} (h : Agree d publish st) :
    Agree d publish (phyIdle host.config st) := by
  unfold DuckNet.phyIdle
  split
  · exact (h.flush hd hdrv).1
  · exact h

/-- What part of the library sends is queued. -/
theorem Agree.transmit (hd : RingDriver d publish drv) (hdrv : host.driver = some drv)
    {st : Station (DuckMachine (Rings (TxRing D) R) τ)} (h : Agree d publish st)
    {s : RecvState (DuckMachine (Rings (TxRing D) R) τ)} (hnic : s.user.nic = st.user.nic)
    (hgrows : Grows st.net s.net) : Agree d publish (st.transmit host.config s) := by
  have hstart : Queued d publish ⟨st.flushed, s.user⟩ (st.net.sent.map Prod.snd) := by
    refine ⟨?_, ?_⟩
    · rw [hnic]
      exact h.run
    · rw [hnic]
      exact h.flushed
  have hafter := hstart.after hd hdrv ((s.net.sent.drop st.net.sent.length).map Prod.snd)
  rw [← hgrows.history] at hafter
  exact hafter

/-! ### What a round does -/

/-- The machine has not halted, and it has become active if there was traffic. -/
structure Touched {ρ : Type} (busy : Prop) (m m' : DuckMachine ρ τ) : Prop where
  halts : m'.halts = m.halts
  quiet : ¬busy → m'.sched = m.sched
  active : busy → m'.sched = m.sched.setActive

theorem Touched.refl {ρ : Type} (m : DuckMachine ρ τ) : Touched False m m :=
  ⟨rfl, fun _ => rfl, False.elim⟩

theorem Touched.trans {ρ : Type} {a b : Prop} {m m' m'' : DuckMachine ρ τ} (h : Touched a m m')
    (h' : Touched b m' m'') : Touched (a ∨ b) m m'' := by
  refine ⟨h'.halts.trans h.halts, fun hn => ?_, fun hab => ?_⟩
  · rw [h'.quiet fun hb => hn (.inr hb), h.quiet fun ha => hn (.inl ha)]
  · by_cases hb : b
    · rw [h'.active hb]
      by_cases ha : a
      · rw [h.active ha]
        rfl
      · rw [h.quiet ha]
    · rw [h'.quiet hb, h.active (hab.resolve_right hb)]

theorem Touched.congr {ρ : Type} {a b : Prop} {m m' : DuckMachine ρ τ} (h : Touched a m m')
    (hab : a ↔ b) : Touched b m m' := by rwa [← hab]

theorem touched_after (hdrv : host.driver = some drv) : ∀ (frames : List (List UInt8))
    (p : Phy (DuckMachine (Rings (TxRing D) R) τ)),
    Touched (frames ≠ []) p.user (Phy.after host.config.toPhyConfig p frames).user := by
  intro frames
  induction frames with
  | nil => exact fun p => (Touched.refl p.user).congr (by simp)
  | cons pkt frames ih =>
      intro p
      have hone : Touched True p.user (Phy.send host.config.toPhyConfig pkt p).2.user := by
        rw [phySend_config hdrv]
        exact ⟨rfl, fun hn => absurd trivial hn, fun _ => rfl⟩
      exact (hone.trans (ih _)).congr (by simp)

/-- Traffic of a part of the library. -/
theorem touched_transmit (hdrv : host.driver = some drv)
    (st : Station (DuckMachine (Rings (TxRing D) R) τ))
    {s : RecvState (DuckMachine (Rings (TxRing D) R) τ)} (hgrows : Grows st.net s.net) :
    Touched (s.net.sent ≠ st.net.sent) s.user (st.transmit host.config s).user := by
  refine (touched_after hdrv _ ⟨st.flushed, s.user⟩).congr ?_
  obtain ⟨new, hnew⟩ := hgrows
  rw [← hnew, List.drop_left]
  simp

theorem touched_phyFlush (hdrv : host.driver = some drv)
    (st : Station (DuckMachine (Rings (TxRing D) R) τ)) :
    Touched False st.user (phyFlush host.baseConfig st).2.user := by
  unfold phyFlush
  rw [flush_config hdrv]
  split
  · exact Touched.refl _
  · exact ⟨rfl, fun _ => rfl, False.elim⟩

theorem touched_phyIdle (hdrv : host.driver = some drv)
    (st : Station (DuckMachine (Rings (TxRing D) R) τ)) :
    Touched False st.user (phyIdle host.config st).user := by
  unfold phyIdle
  split
  · exact touched_phyFlush hdrv st
  · exact Touched.refl _

/-- The first part of a round. -/
theorem idle_spec (hd : RingDriver d publish drv) (hdrv : host.driver = some drv) (tsc : Nat)
    {st : Station (DuckMachine (Rings (TxRing D) R) τ)} (h : Agree d publish st) :
    Agree d publish (ducknetIdle host.config tsc st) ∧
      Grows st.net (ducknetIdle host.config tsc st).net ∧
      Touched ((ducknetIdle host.config tsc st).net.sent ≠ st.net.sent) st.user
        (ducknetIdle host.config tsc st).user := by
  -- the driver is flushed, and then the sweeps may send
  let st0 : Station (DuckMachine (Rings (TxRing D) R) τ) :=
    { st with net := { st.net with now := gettime tsc } }
  let st1 := phyIdle host.config st0
  let st2 := { st1 with net := { st1.net with arp := arpIdle st1.net.now st1.net.arp } }
  let swept : RecvState (DuckMachine (Rings (TxRing D) R) τ) :=
    { st2.toRecvState with net := ipv4Idle (st2.netConfig host.config) st2.net }
  have hst0 : Agree d publish st0 := h
  have hst2 : Agree d publish st2 := hst0.phyIdle hd hdrv
  have hnet : st1.net = st0.net := net_phyIdle host.config st0
  have hsent : st2.net.sent = st.net.sent := by
    have hsent1 : st1.net.sent = st0.net.sent := by rw [hnet]
    exact hsent1
  have hsweep : Grows st2.net swept.net := grows_ipv4Idle _
  have htouched : Touched (swept.net.sent ≠ st2.net.sent) st2.user
    (st2.transmit host.config swept).user := touched_transmit hdrv st2 hsweep
  rw [hsent] at htouched
  refine ⟨hst2.transmit hd hdrv rfl hsweep, (Grows.of_eq hsent).trans hsweep, ?_⟩
  exact ((touched_phyIdle hdrv st0).trans htouched).congr (iff_of_eq (false_or _))

/-- A frame makes the machine active before anything else. -/
theorem packetHandle_active (server : DuckServer.Server (DuckMachine (Rings (TxRing D) R) τ))
    (hserver : server.setActive = Host.setActive) (cfg : NetConfig) (len : Int)
    (s : RecvState (DuckMachine (Rings (TxRing D) R) τ)) :
    packetHandle cfg (DuckServer.hooks server cfg) len s =
      packetHandle cfg (DuckServer.hooks server cfg) len
        { s with user := Host.setActive s.user } := by
  have hphy : (DuckServer.hooks server cfg).phy = fun _ _ s =>
      (0, { s with user := Host.setActive s.user }) := by
    rw [← hserver]
    rfl
  unfold packetHandle
  rw [hphy]
  rfl

/-- The part of a round that handles a frame. -/
theorem handle_spec (hd : RingDriver d publish drv) (hdrv : host.driver = some drv)
    (frame : List UInt8) {st : Station (DuckMachine (Rings (TxRing D) R) τ)}
    (h : Agree d publish st) :
    Agree d publish (ducknetHandle host.config frame st) ∧
      Grows st.net (ducknetHandle host.config frame st).net ∧
      Touched True st.user (ducknetHandle host.config frame st).user := by
  let cfg := st.netConfig host.config
  let s : RecvState (DuckMachine (Rings (TxRing D) R) τ) :=
    { st.toRecvState with buf := ⟨st.buf.mem.putBytes 0 frame, []⟩ }
  let handled := (packetHandle cfg (DuckServer.hooks host.server cfg) frame.length s).2
  let Q : DuckMachine (Rings (TxRing D) R) τ → Prop := fun u =>
    u.nic = st.user.nic ∧ u.halts = st.user.halts ∧ u.sched = st.user.sched.setActive
  have hQ : Q handled.user := by
    have hhooks : UserHooks (DuckServer.hooks host.server cfg) Q :=
      DuckServer.userHooks cfg
        (fun u hu => ⟨hu.1, hu.2.1, (congrArg Scheduler.setActive hu.2.2).trans rfl⟩)
        (fun u _ hu => hu)
    have hall : KeepsUser Q (packetHandle cfg (DuckServer.hooks host.server cfg) frame.length) :=
      user_packetHandle hhooks
    have hkeeps := hall { s with user := Host.setActive s.user } ⟨rfl, rfl, rfl⟩
    rw [← packetHandle_active host.server rfl] at hkeeps
    exact hkeeps
  have hgrows : Grows st.net handled.net :=
    (reacts_packetHandle (DuckServer.polite_hooks host.server cfg) s frame.length).grows
  have hactive : Touched True st.user handled.user :=
    ⟨hQ.2.1, fun hn => absurd trivial hn, fun _ => hQ.2.2⟩
  refine ⟨h.transmit hd hdrv hQ.1 hgrows, hgrows, ?_⟩
  exact (hactive.trans (touched_transmit hdrv st hgrows)).congr (iff_of_eq (true_or _))

/-- The frame that the driver returns in a round. -/
def frameOf (conf : DucknetConfig (DuckMachine (Rings (TxRing D) R) τ)) (tsc : Nat → Nat)
    (st : Station (DuckMachine (Rings (TxRing D) R) τ)) : Option (List UInt8) :=
  conf.recv.bind fun recv => (recv (ducknetIdle conf (tsc 0) st).user).1

theorem recv_config (hdrv : host.driver = some drv) : host.config.recv =
    some fun m => ((drv.receive m.nic).1, { m with nic := (drv.receive m.nic).2 }) := by
  show host.driver.map _ = _
  rw [hdrv]
  rfl

/-- The part of a round that receives. -/
theorem recv_spec (hd : RingDriver d publish drv) (hdrv : host.driver = some drv)
    {st : Station (DuckMachine (Rings (TxRing D) R) τ)} (h : Agree d publish st) :
    Agree d publish (ducknetRecv host.config st) ∧
      Grows st.net (ducknetRecv host.config st).net ∧
      ((drv.receive st.user.nic).1 = none → (ducknetRecv host.config st).net = st.net) ∧
      Touched ((drv.receive st.user.nic).1.isSome) st.user (ducknetRecv host.config st).user := by
  let st' := { st with user := { st.user with nic := (drv.receive st.user.nic).2 } }
  have hst' : Agree d publish st' := by
    have htx := hd.receive st.user.nic
    refine ⟨?_, ?_⟩
    · show ∃ acc, _ ∧ TxRun d publish (drv.receive st.user.nic).2.tx acc
      rw [htx]
      exact h.run
    · show st.flushed = true → (drv.receive st.user.nic).2.tx.nextIdx = _
      rw [htx]
      exact h.flushed
  unfold ducknetRecv
  rw [recv_config hdrv]
  dsimp only
  split
  · next hread =>
    rw [hread]
    exact ⟨hst', Grows.of_eq rfl, fun _ => rfl, rfl, fun _ => rfl,
      fun hf => absurd hf (by simp)⟩
  · next frame hread =>
    obtain ⟨hagree, hgrows, htouched⟩ := handle_spec hd hdrv frame hst'
    rw [hread]
    exact ⟨hagree, hgrows, fun hf => (nomatch hf), htouched.halts, fun hn => absurd rfl hn,
      fun _ => htouched.active trivial⟩

/-- There is traffic in a round. -/
def Busy (conf : DucknetConfig (DuckMachine (Rings (TxRing D) R) τ)) (tsc : Nat → Nat)
    (st : Station (DuckMachine (Rings (TxRing D) R) τ)) : Prop :=
  (frameOf conf tsc st).isSome ∨ (ducknetStep conf tsc st).2.net.sent ≠ st.net.sent

/-- A round up to `idle`. -/
theorem round_spec (hd : RingDriver d publish drv) (hdrv : host.driver = some drv)
    (tsc : Nat → Nat) {st : Station (DuckMachine (Rings (TxRing D) R) τ)}
    (h : Agree d publish st) :
    Agree d publish (ducknetRecv host.config (ducknetIdle host.config (tsc 0) st)) ∧
      Touched (Busy host.config tsc st) st.user
        (ducknetRecv host.config (ducknetIdle host.config (tsc 0) st)).user := by
  obtain ⟨hidle, hgrows, htouched⟩ := idle_spec hd hdrv (tsc 0) h
  obtain ⟨hrecv, hgrows', hnone, htouched'⟩ := recv_spec hd hdrv hidle
  refine ⟨hrecv, (htouched.trans htouched').congr ?_⟩
  have hframe : frameOf host.config tsc st =
      (drv.receive (ducknetIdle host.config (tsc 0) st).user.nic).1 := by
    unfold frameOf
    rw [recv_config hdrv]
    rfl
  rw [Busy, hframe, net_step (Host.polite_config host)]
  cases hread : (drv.receive (ducknetIdle host.config (tsc 0) st).user.nic).1 with
  | none => rw [hnone hread, or_comm]
  | some frame => simp

/-- The machine has halted, and this is how it is found by whoever looks at it now: there was no
traffic for a millisecond, it wakes up within two, and meanwhile the NIC sends all that the driver
has ever accepted. -/
structure Halted (host : Host (Rings (TxRing D) R) τ) (d : TxDriver D)
    (publish : TxRing D → TxRing D) (lastBusy now : UInt64) (ticr : UInt32)
    (st : Station (DuckMachine (Rings (TxRing D) R) τ)) : Prop where
  quiet : 1000000 ≤ (now - lastBusy).toNat
  wakes : ticr.toNat * 1000000000 ≤ 2000000 * host.extFreq.toNat
  sends : ∃ acc, acc.Sublist (st.net.sent.map Prod.snd) ∧ TxRun d publish st.user.nic.tx acc ∧
    ((TxRing.consume d)^[acc.length - st.user.nic.tx.wire.length] st.user.nic.tx).wire = acc

/-- What `idle` does at the end of a round. -/
theorem idle_halts (hd : RingDriver d publish drv) (hok : d.Ok) (hp : Publishes publish)
    (hdrv : host.driver = some drv) (tsc : Nat → Nat)
    {st : Station (DuckMachine (Rings (TxRing D) R) τ)} (h : Agree d publish st) :
    Agree d publish (host.idle tsc st).2 ∧ (host.idle tsc st).1 = 0 ∧
      (host.idle tsc st).2.user.sched = st.user.sched.setIdle (host.nsSinceEpoch (tsc 0)) ∧
      ((host.idle tsc st).2.user.halts = st.user.halts ∨
        ∃ ticr, (host.idle tsc st).2.user.halts = st.user.halts ++ [ticr] ∧
          Halted host d publish
            (st.user.sched.setIdle (host.nsSinceEpoch (tsc 0))).lastActiveTimestampNs
            (host.nsSinceEpoch (tsc 2)) ticr (host.idle tsc st).2) := by
  let sched := st.user.sched.setIdle (host.nsSinceEpoch (tsc 0))
  let st1 := { st with user := { st.user with sched } }
  have hst1 : Agree d publish st1 := ⟨h.run, h.flushed⟩
  obtain ⟨hflush, hflushed⟩ := hst1.flush hd hdrv
  have htouched := touched_phyFlush hdrv st1
  have hsched : (phyFlush host.baseConfig st1).2.user.sched = sched := htouched.quiet id
  have hhalts : (phyFlush host.baseConfig st1).2.user.halts = st.user.halts := htouched.halts
  unfold Host.idle
  dsimp only
  split
  · unfold Host.sleep
    dsimp only
    split
    · next hpos =>
      obtain ⟨hidle, hlong, hms⟩ := Scheduler.sleepDurationMs_pos hpos
      obtain ⟨ticr, hticr, hwakes⟩ := Timer.exists_singleShot host.extFreq hms
      rw [hticr]
      obtain ⟨acc, hacc, hrun⟩ := hflush.run
      refine ⟨⟨⟨acc, hacc, hrun⟩, hflush.flushed⟩, rfl, hsched, .inr ?_⟩
      refine ⟨ticr, ?_, ?_, hwakes, ?_⟩
      · show (phyFlush host.baseConfig st1).2.user.halts ++ [ticr] = _
        rw [hhalts]
      · rw [hsched] at hlong
        exact hlong
      · have hsame : (phyFlush host.baseConfig st1).2.user.nic.tx.flush =
            (phyFlush host.baseConfig st1).2.user.nic.tx := if_pos (hflush.flushed hflushed)
        have hsafe := (hrun.safe hok hp).flushed.2
        rw [hsame] at hsafe
        exact ⟨acc, hacc, hrun, hsafe⟩
    · exact ⟨hflush, rfl, hsched, .inl hhalts⟩
  · exact ⟨hst1, rfl, rfl, .inl rfl⟩

/-! ### Runs -/

/-- The machine with its NIC, and what the clock said in the last round with traffic; the first
round counts as one. -/
structure SleepWorld (D R τ : Type) where
  station : Station (DuckMachine (Rings (TxRing D) R) τ)
  lastBusy : Option UInt64

/-- A round of the main loop; the NIC sends a packet; it changes the receive ring. -/
inductive SleepEvent (R : Type) where
  | round (tsc : Nat → Nat)
  | transmit
  | fill (rx : R)

/-- The state of the NIC and its rings is that of the driver. -/
def withNic (nic : Rings (TxRing D) R) (st : Station (DuckMachine (Rings (TxRing D) R) τ)) :
    Station (DuckMachine (Rings (TxRing D) R) τ) := { st with user := { st.user with nic } }

instance (conf : DucknetConfig (DuckMachine (Rings (TxRing D) R) τ)) (tsc : Nat → Nat)
    (st : Station (DuckMachine (Rings (TxRing D) R) τ)) : Decidable (Busy conf tsc st) :=
  inferInstanceAs (Decidable (_ ∨ _))

namespace SleepWorld

def step (host : Host (Rings (TxRing D) R) τ) (d : TxDriver D) (w : SleepWorld D R τ) :
    SleepEvent R → SleepWorld D R τ
  | .round tsc =>
    { station := (ducknetStep host.config tsc w.station).2
      lastBusy :=
        if Busy host.config tsc w.station ∨ w.lastBusy = none then
          some (host.nsSinceEpoch (tsc 1))
        else w.lastBusy }
  | .transmit =>
    let nic := w.station.user.nic
    { w with station := withNic { nic with tx := nic.tx.consume d } w.station }
  | .fill rx => { w with station := withNic { w.station.user.nic with rx } w.station }

/-- The scheduler remembers when there last was traffic. -/
structure Ok (d : TxDriver D) (publish : TxRing D → TxRing D) (w : SleepWorld D R τ) : Prop where
  agree : Agree d publish w.station
  fresh : w.lastBusy = none → w.station.user.sched.currentState = .active
  idle : ∀ t, w.lastBusy = some t → w.station.user.sched = ⟨.idle, t⟩

variable {w : SleepWorld D R τ}

/-- What `set_idle` makes of the traffic of a round. -/
theorem Ok.setIdle (h : Ok d publish w) {tsc : Nat → Nat}
    {m : DuckMachine (Rings (TxRing D) R) τ}
    (htouched : Touched (Busy host.config tsc w.station) w.station.user m) :
    ∃ t, (w.step host d (.round tsc)).lastBusy = some t ∧
      m.sched.setIdle (host.nsSinceEpoch (tsc 1)) = ⟨.idle, t⟩ := by
  have hactive : ∀ s : Scheduler, s.currentState = .active →
      s.setIdle (host.nsSinceEpoch (tsc 1)) = ⟨.idle, host.nsSinceEpoch (tsc 1)⟩ :=
    fun s hs => if_pos hs
  by_cases hbusy : Busy host.config tsc w.station
  · refine ⟨_, if_pos (.inl hbusy), hactive _ ?_⟩
    rw [htouched.active hbusy]
    rfl
  · rw [htouched.quiet hbusy]
    cases hlast : w.lastBusy with
    | none => exact ⟨_, if_pos (.inr hlast), hactive _ (h.fresh hlast)⟩
    | some t =>
        have hno : ¬(Busy host.config tsc w.station ∨ w.lastBusy = none) := by
          rw [hlast]
          simp [hbusy]
        refine ⟨t, (if_neg hno).trans hlast, ?_⟩
        rw [h.idle t hlast]
        rfl

/-- What a round does. -/
theorem Ok.round (hd : RingDriver d publish drv) (hok : d.Ok) (hp : Publishes publish)
    (hdrv : host.driver = some drv) (h : Ok d publish w) (tsc : Nat → Nat) :
    Ok d publish (w.step host d (.round tsc)) ∧ (ducknetStep host.config tsc w.station).1 = 0 ∧
      ((w.step host d (.round tsc)).station.user.halts = w.station.user.halts ∨
        ∃ ticr t, (w.step host d (.round tsc)).station.user.halts =
            w.station.user.halts ++ [ticr] ∧
          (w.step host d (.round tsc)).lastBusy = some t ∧
          Halted host d publish t (host.nsSinceEpoch (tsc 3)) ticr
            (w.step host d (.round tsc)).station) := by
  obtain ⟨hagree, htouched⟩ := round_spec hd hdrv tsc h.agree
  obtain ⟨t, hlast, hsched⟩ := h.setIdle htouched
  obtain ⟨hagree', hzero, hsched', hhalts⟩ :=
    idle_halts hd hok hp hdrv (fun k => tsc (k + 1)) hagree
  rw [hsched] at hsched' hhalts
  rw [htouched.halts] at hhalts
  refine ⟨⟨hagree', fun hnone => ?_, fun t' ht' => ?_⟩, ?_, hhalts.imp id ?_⟩
  · rw [hlast] at hnone
    exact nomatch hnone
  · rw [hlast] at ht'
    rw [← Option.some.inj ht']
    exact hsched'
  · show (if (host.idle _ _).1 < 0 then _ else 0) = (0 : Int)
    rw [hzero]
    rfl
  · rintro ⟨ticr, hsnoc, hhalted⟩
    exact ⟨ticr, t, hsnoc, hlast, hhalted⟩

theorem Ok.step (hd : RingDriver d publish drv) (hok : d.Ok) (hp : Publishes publish)
    (hdrv : host.driver = some drv) (h : Ok d publish w) (e : SleepEvent R) :
    Ok d publish (w.step host d e) := by
  obtain ⟨acc, hacc, hrun⟩ := h.agree.run
  cases e with
  | round tsc => exact (h.round hd hok hp hdrv tsc).1
  | transmit =>
      refine ⟨⟨⟨acc, hacc, hrun.consume⟩, fun hf => ?_⟩, h.fresh, h.idle⟩
      have hsame := h.agree.flushed hf
      show (w.station.user.nic.tx.consume d).nextIdx = (w.station.user.nic.tx.consume d).published
      unfold TxRing.consume
      split
      · exact hsame
      · exact hsame
  | fill rx => exact ⟨⟨⟨acc, hacc, hrun⟩, h.agree.flushed⟩, h.fresh, h.idle⟩

theorem Ok.run (hd : RingDriver d publish drv) (hok : d.Ok) (hp : Publishes publish)
    (hdrv : host.driver = some drv) : ∀ (events : List (SleepEvent R)) {w : SleepWorld D R τ},
    Ok d publish w → Ok d publish (events.foldl (SleepWorld.step host d) w) := by
  intro events
  induction events with
  | nil => intro w h; exact h
  | cons e events ih => intro w h; exact ih (h.step hd hok hp hdrv e)

/-- The world after `ducknet_init`. -/
structure Start (host : Host (Rings (TxRing D) R) τ) (w : SleepWorld D R τ) : Prop where
  init : ∃ tsc tq mem rx app, ducknetInit host.config tsc
    ⟨Scheduler.init, ⟨TxRing.start tq mem, rx⟩, app, []⟩ = some w.station
  lastBusy : w.lastBusy = none

theorem Start.ok (h : Start host w) : Ok d publish w := by
  obtain ⟨tsc, tq, mem, rx, app, hinit⟩ := h.init
  unfold ducknetInit at hinit
  split at hinit
  · exact nomatch hinit
  · have hst := Option.some.inj hinit
    refine ⟨?_, fun _ => ?_, fun t ht => ?_⟩
    · rw [← hst]
      exact ⟨⟨[], List.Sublist.refl _, TxRun.start tq mem⟩, fun hf => nomatch hf⟩
    · rw [← hst]
      rfl
    · rw [h.lastBusy] at ht
      exact nomatch ht

/-- What holds of every round after any run of the machine and its NIC. -/
def Sleeps (host : Host (Rings (TxRing D) R) τ) (d : TxDriver D) (publish : TxRing D → TxRing D)
    (w : SleepWorld D R τ) : Prop :=
  ∀ (events : List (SleepEvent R)) (tsc : Nat → Nat),
    let w := events.foldl (step host d) w
    let w' := w.step host d (.round tsc)
    (ducknetStep host.config tsc w.station).1 = 0 ∧
      (w'.station.user.halts = w.station.user.halts ∨
        ∃ ticr t, w'.station.user.halts = w.station.user.halts ++ [ticr] ∧
          w'.lastBusy = some t ∧
          Halted host d publish t (host.nsSinceEpoch (tsc 3)) ticr w'.station)

theorem sleeps (hd : RingDriver d publish drv) (hok : d.Ok) (hp : Publishes publish)
    (hdrv : host.driver = some drv) (h : Start host w) : Sleeps host d publish w :=
  fun events tsc => ((Ok.run hd hok hp hdrv events h.ok).round hd hok hp hdrv tsc).2

end SleepWorld

end Ring

/-! ### The drivers -/

theorem ringDriver_e1000 (tqBuf rqBuf : UInt64) :
    RingDriver (E1000.tx tqBuf) TxRing.publish (NetworkDriver.e1000 tqBuf rqBuf) :=
  ⟨fun _ _ => rfl, fun _ => rfl, fun _ => rfl⟩

theorem ringDriver_i211 (tqBuf rqBuf headerBuf : UInt64) :
    RingDriver (I211.tx tqBuf) TxRing.flush (NetworkDriver.i211 tqBuf rqBuf headerBuf) :=
  ⟨fun _ _ => rfl, fun _ => rfl, fun _ => rfl⟩

/-- In every run of a machine with an e1000 or an i211, with the steps of the NIC anywhere between
the rounds, the main loop goes on; and when the machine halts, there was no traffic for a
millisecond, the timer wakes it up within two, and the NIC sends meanwhile all that the driver has
accepted, in order. -/
theorem machine_sleeps (tqBuf rqBuf headerBuf : UInt64) (hb : tqBuf.toNat + 524288 ≤ 4194304)
    (τ : Type) :
    (∀ (host : Host (Rings (TxRing E1000.TransDesc) (RxRing E1000.RecvDesc)) τ)
      (w : SleepWorld E1000.TransDesc (RxRing E1000.RecvDesc) τ),
      host.driver = some (NetworkDriver.e1000 tqBuf rqBuf) → SleepWorld.Start host w →
      SleepWorld.Sleeps host (E1000.tx tqBuf) TxRing.publish w) ∧
    (∀ (host : Host (Rings (TxRing I211.TransDesc) I211.RxState) τ)
      (w : SleepWorld I211.TransDesc I211.RxState τ),
      host.driver = some (NetworkDriver.i211 tqBuf rqBuf headerBuf) → SleepWorld.Start host w →
      SleepWorld.Sleeps host (I211.tx tqBuf) TxRing.flush w) :=
  ⟨fun _ _ hdrv hw => SleepWorld.sleeps (ringDriver_e1000 tqBuf rqBuf) (e1000_ok hb)
      publishes_publish hdrv hw,
    fun _ _ hdrv hw => SleepWorld.sleeps (ringDriver_i211 tqBuf rqBuf headerBuf) (i211_ok hb)
      publishes_flush hdrv hw⟩

/-- A machine with an e1000, whose commands do nothing. -/
def e1000Host : Host (Rings (TxRing E1000.TransDesc) (RxRing E1000.RecvDesc)) Unit where
  net := DuckServer.idleConfig
  driver := some (NetworkDriver.e1000 0x200000 0x280000)
  tscEpoch := 1
  extFreq := 24000000
  sscanf _ _ := none
  serve _ s := (none, s)

/-- The world after its `ducknet_init`. -/
def e1000Start : SleepWorld E1000.TransDesc (RxRing E1000.RecvDesc) Unit where
  station :=
    { net := Net.init e1000Host.net (gettime 0)
      buf := ⟨fun _ => 0, []⟩
      user := ⟨Scheduler.init, ⟨TxRing.start (fun _ => E1000.transDesc 0 0) fun _ => 0,
        E1000.rxStart 0x280000 fun _ => 0⟩, (), []⟩
      flushed := false
      lastFlushTime := gettime 0
      flushDelay := idleDelay e1000Host.net.tscFreq
      flushCnt := 0 }
  lastBusy := none

theorem machine_sleeps_e1000 :
    SleepWorld.Sleeps e1000Host (E1000.tx 0x200000) TxRing.publish e1000Start :=
  (machine_sleeps 0x200000 0x280000 0 (by decide) Unit).1 e1000Host e1000Start rfl
    ⟨⟨0, _, _, _, (), rfl⟩, rfl⟩

end JudgeDuck
