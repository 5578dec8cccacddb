/-
What a round of the main loop does to the library.

Whatever the driver does and whoever has set the hooks, the library sees the clock, the
sweeps of ARP and IPv4 and at most one frame.  A property that these four keep is kept by
every round (`Stages.round`).
-/
import JudgeDuck.Model.DuckNet.Step
import JudgeDuck.Proofs.DuckNet.React
import JudgeDuck.Proofs.DuckNet.ToSend

namespace JudgeDuck

namespace DuckNet

variable {σ : Type} {conf : DucknetConfig σ} {st : Station σ} {J J' : Net → Prop}

/-- The configuration of the library, over some driver. -/
def DucknetConfig.IsNet (conf : DucknetConfig σ) (cfg : NetConfig) : Prop :=
  ∃ phySend, cfg = { conf.net with phySend }

theorem isNet_netConfig (conf : DucknetConfig σ) (st : Station σ) :
    conf.IsNet (st.netConfig conf) := ⟨_, rfl⟩

theorem DucknetConfig.IsNet.ip {cfg : NetConfig} (h : conf.IsNet cfg) : cfg.ip = conf.net.ip := by
  obtain ⟨phySend, rfl⟩ := h
  rfl

theorem DucknetConfig.IsNet.mac {cfg : NetConfig} (h : conf.IsNet cfg) :
    cfg.mac = conf.net.mac := by
  obtain ⟨phySend, rfl⟩ := h
  rfl

/-- The hooks are polite over every driver, and `idle` sends nothing. -/
structure DucknetConfig.Polite (conf : DucknetConfig σ) : Prop where
  hooks : ∀ cfg, conf.IsNet cfg → DuckNet.Polite cfg (conf.hooks cfg)
  idle : ∀ idle ∈ conf.idle, ∀ tsc st, (idle tsc st).2.net = st.net

/-- `J` is kept by what happens on its own, and a frame with `ok` leads from `J` to `J'`. -/
structure Stages (conf : DucknetConfig σ) (ok : List UInt8 → Prop) (J J' : Net → Prop) :
    Prop where
  clock : ∀ s now, J s → J { s with now }
  arpIdle : ∀ s, J s → J { s with arp := arpIdle s.now s.arp }
  ipv4Idle : ∀ cfg s, conf.IsNet cfg → J s → J (ipv4Idle cfg s)
  handle : ∀ cfg frame m s s', conf.IsNet cfg → ok frame → J s →
    Reacts cfg (Mem.putBytes m 0 frame) frame.length s s' → J' s'

variable (conf) in
theorem net_phyFlush (st : Station σ) : (phyFlush conf st).2.net = st.net := by
  unfold phyFlush
  split
  · rfl
  · split <;> rfl

variable (conf) in
theorem net_phyIdle (st : Station σ) : (phyIdle conf st).net = st.net := by
  unfold phyIdle
  split
  · exact net_phyFlush conf st
  · rfl

variable {ok : List UInt8 → Prop}

theorem Stages.idle (h : Stages conf ok J J') (tsc : Nat) (hst : J st.net) :
    J (ducknetIdle conf tsc st).net := by
  refine h.ipv4Idle _ _ (isNet_netConfig conf _) (h.arpIdle _ ?_)
  rw [net_phyIdle]
  exact h.clock _ _ hst

theorem Stages.handled (h : Stages conf ok J J') (hpolite : conf.Polite)
    {frame : List UInt8} (hok : ok frame) (hst : J st.net) :
    J' (ducknetHandle conf frame st).net := by
  have hnet := isNet_netConfig conf st
  have hreacts := reacts_packetHandle (hpolite.hooks _ hnet)
    { st.toRecvState with buf := ⟨st.buf.mem.putBytes 0 frame, []⟩ } frame.length
  exact h.handle _ frame st.buf.mem _ _ hnet hok hst hreacts

/-- The configuration when the driver returns `frame` and is left with `u`. -/
def DucknetConfig.receiving (conf : DucknetConfig σ) (frame : Option (List UInt8)) (u : σ) :
    DucknetConfig σ := { conf with recv := some fun _ => (frame, u) }

/-- A round of the main loop: the readings of the TSC, the frame that the driver returns and what
it leaves behind. -/
structure Round (σ : Type) where
  tsc : Nat → Nat
  read : Option (List UInt8)
  user : σ

def Round.step (conf : DucknetConfig σ) (r : Round σ) (st : Station σ) : Station σ :=
  (ducknetStep (conf.receiving r.read r.user) r.tsc st).2

variable (conf) in
/-- Every round is one of these, whatever driver there is. -/
theorem exists_round (tsc : Nat → Nat) (st : Station σ) :
    ∃ r : Round σ, (ducknetStep conf tsc st).2 = r.step conf st := by
  cases hrecv : conf.recv with
  | none =>
      refine ⟨⟨tsc, none, (ducknetIdle conf (tsc 0) st).user⟩, ?_⟩
      simp only [Round.step, ducknetStep, ducknetRecv, hrecv]
      rfl
  | some recv =>
      refine ⟨⟨tsc, (recv (ducknetIdle conf (tsc 0) st).user).1,
        (recv (ducknetIdle conf (tsc 0) st).user).2⟩, ?_⟩
      simp only [Round.step, ducknetStep, ducknetRecv, hrecv]
      rfl

theorem DucknetConfig.Polite.receiving (h : conf.Polite) (frame : Option (List UInt8)) (u : σ) :
    (conf.receiving frame u).Polite := ⟨h.hooks, h.idle⟩

theorem Stages.receiving (h : Stages conf ok J J')
    (frame : Option (List UInt8)) (u : σ) : Stages (conf.receiving frame u) ok J J' :=
  ⟨h.clock, h.arpIdle, h.ipv4Idle, h.handle⟩

/-- What a round does to the library, in terms of what the driver has received. -/
theorem net_step (hpolite : conf.Polite) (tsc : Nat → Nat) (st : Station σ) :
    (ducknetStep conf tsc st).2.net = (ducknetRecv conf (ducknetIdle conf (tsc 0) st)).net := by
  unfold ducknetStep
  split
  · rfl
  · next idle hidle => exact hpolite.idle idle hidle _ _

/-- A round in which the driver has received nothing. -/
theorem Stages.round_none (h : Stages conf ok J J') (hpolite : conf.Polite) (r : Round σ)
    (hread : r.read = none) (hst : J st.net) : J (r.step conf st).net := by
  rw [Round.step, hread, net_step (hpolite.receiving none r.user)]
  exact (h.receiving none r.user).idle (r.tsc 0) hst

/-- A round in which the driver has received a frame. -/
theorem Stages.round_some (h : Stages conf ok J J') (hpolite : conf.Polite) (r : Round σ)
    {frame : List UInt8} (hread : r.read = some frame) (hok : ok frame) (hst : J st.net) :
    J' (r.step conf st).net := by
  rw [Round.step, hread, net_step (hpolite.receiving _ r.user)]
  let st' : Station σ :=
    { ducknetIdle (conf.receiving (some frame) r.user) (r.tsc 0) st with user := r.user }
  have hidle : J st'.net := (h.receiving (some frame) r.user).idle (r.tsc 0) hst
  exact (h.receiving (some frame) r.user).handled (hpolite.receiving _ r.user) hok hidle

/-! ### The history of sent packets -/

/-- Nothing is taken back. -/
def Grows (s s' : Net) : Prop := s.sent <+: s'.sent

variable {cfg : NetConfig} {s s' : Net}

theorem Grows.of_eq (h : s'.sent = s.sent) : Grows s s' := by
  unfold Grows
  rw [h]

theorem Grows.trans {s'' : Net} (h : Grows s s') (h' : Grows s' s'') : Grows s s'' :=
  List.IsPrefix.trans h h'

theorem Quiet.grows (h : Quiet s s') : Grows s s' := by
  obtain ⟨calls, hs, -⟩ := h.calls
  exact ⟨calls, hs.symm⟩

theorem grows_phySend (b : Buffer) (len : Nat) (s : Net) : Grows s (phySend cfg b len s).2 :=
  List.prefix_append _ _

theorem grows_ipv4Send (dst : UInt32) (protocol : UInt8) (payload : Mem) (len : Int) (s : Net) :
    Grows s (ipv4Send cfg dst protocol payload len s).2 := by
  rcases ipv4Send_cases cfg dst protocol payload len s with
    ⟨hq, -⟩ | ⟨-, -, id, pkt, s', -, hq, hs⟩
  · exact hq.grows
  · rw [hs]
    exact hq.grows

theorem Sends.grows (h : Sends cfg s s') : Grows s s' := by
  cases h with
  | quiet => exact Grows.of_eq rfl
  | ipv4 dst protocol payload len => exact grows_ipv4Send dst protocol payload len s
  | udp dst dport sport payload len =>
      unfold udpSend
      split
      · exact Grows.of_eq rfl
      · split
        · exact Grows.of_eq rfl
        · have hbuf : ∀ udpBuf, Grows s { s with udpBuf } := fun _ => Grows.of_eq rfl
          exact (hbuf _).trans (grows_ipv4Send _ _ _ _ _)

theorem Reacts.grows {m : Mem} {len : Int} (h : Reacts cfg m len s s') : Grows s s' := by
  cases h with
  | sends h => exact h.grows
  | answers sha spa => exact (quiet_arpSend cfg sha arpReply _ s).grows
  | learns ip mac hreply hlen => exact Grows.of_eq rfl

theorem grows_idleSlot (s : Net) (i : Nat) : Grows s (ipv4IdleSlot cfg s i) := by
  unfold ipv4IdleSlot
  split
  · exact Grows.of_eq rfl
  · exact Grows.of_eq rfl
  · have hset : ∀ tosendFree tosend, Grows s { s with tosendFree, tosend } :=
      fun _ _ => Grows.of_eq rfl
    exact (hset _ _).trans (grows_phySend _ _ _)
  · exact (quiet_arpQuery cfg _ s).grows

theorem grows_foldl : ∀ (l : List Nat) (s : Net), Grows s (l.foldl (ipv4IdleSlot cfg) s) := by
  intro l
  induction l with
  | nil => exact fun s => Grows.of_eq rfl
  | cons i l ih => exact fun s => (grows_idleSlot s i).trans (ih _)

theorem grows_ipv4Idle (s : Net) : Grows s (ipv4Idle cfg s) := by
  unfold ipv4Idle
  split
  · exact grows_foldl _ { s with lastIdleTime := s.now, cnt := 0 }
  · exact Grows.of_eq rfl

/-- What the driver gets is what is new. -/
theorem Grows.history (h : Grows s s') :
    s'.sent.map Prod.snd =
      s.sent.map Prod.snd ++ (s'.sent.drop s.sent.length).map Prod.snd := by
  obtain ⟨new, hnew⟩ := h
  rw [← hnew, List.drop_left, List.map_append]

end DuckNet

end JudgeDuck
