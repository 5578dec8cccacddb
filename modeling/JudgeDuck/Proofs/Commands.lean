/-
What a command changes.

A command acts on the server and not on the library, so a datagram makes the server send one
answer at most.  What is said about neither the buffer nor the part of the server that the
commands act on is kept by every handler.
-/
import JudgeDuck.Model.Scheduler
import JudgeDuck.Proofs.DuckNet.Rounds

namespace JudgeDuck

namespace DuckServer

open Hoare DuckNet

/-! ### The server leaves the library alone -/

section Server

variable {σ α β : Type} {server : Server σ} {cfg : NetConfig} {content : Nat} {len : Int}
  {n : Net} {P : RecvState σ → Prop}

/-- `P` says nothing about the buffer, nor about what a command changes. -/
structure Unseen (server : Server σ) (P : RecvState σ → Prop) : Prop where
  buf : ∀ s buf, P s → P { s with buf }
  serve : ∀ s request, P s → P { s with user := (server.serve request s.user).2 }

/-- `P` is kept. -/
def Keeps (P : RecvState σ → Prop) (x : RecvM σ α) : Prop := Ensures P x fun _ => P

theorem keeps_pure (a : α) : Keeps P (pure a) := Ensures.pure fun _ => id

theorem Keeps.bind {x : RecvM σ α} {f : α → RecvM σ β} (hx : Keeps P x)
    (hf : ∀ a, Keeps P (f a)) : Keeps P (x >>= f) := Ensures.bind hx hf

theorem Unseen.onBuf (h : Unseen server P) (x : BufM α) : Keeps P (DuckNet.onBuf x) :=
  fun s hs => h.buf s _ hs

theorem keeps_equalsTo (h : Unseen server P) (s : String) : Keeps P (equalsTo content len s) :=
  Ensures.ite (fun _ => (h.onBuf _).bind fun _ => keeps_pure _) fun _ => keeps_pure _

theorem keeps_startsWith (h : Unseen server P) (s : String) : Keeps P (startsWith content len s) :=
  Ensures.ite (fun _ => (h.onBuf _).bind fun _ => keeps_pure _) fun _ => keeps_pure _

theorem keeps_firstEqual (h : Unseen server P) : ∀ names : List String,
    Keeps P (firstEqual content len names) := by
  intro names
  induction names with
  | nil => exact keeps_pure _
  | cons s names ih =>
      exact (keeps_equalsTo h s).bind fun same =>
        Ensures.ite (fun _ => keeps_pure _) fun _ => ih

theorem keeps_firstScan (h : Unseen server P) : ∀ formats : List String,
    Keeps P (firstScan server content formats) := by
  intro formats
  induction formats with
  | nil => exact keeps_pure _
  | cons format formats ih =>
      refine (h.onBuf _).bind fun s => ?_
      cases server.sscanf format s with
      | none => exact ih
      | some args => exact keeps_pure _

theorem keeps_claim (h : Unseen server P) (inPlace : Bool) (request : Request) :
    Keeps P (claim server inPlace request) := fun s hs => h.serve s request hs

theorem keeps_terminate (h : Unseen server P) : Keeps P (terminate content len) :=
  h.onBuf _

/-- The end of a handler: a command with arguments, or nothing. -/
theorem keeps_claimScan (h : Unseen server P) (inPlace : Bool) (formats : List String) :
    Keeps P (do
      let scan ← firstScan server content formats
      match scan with
      | some (format, args) => claim server inPlace (.scanned format args)
      | none => pure none) := by
  refine (keeps_firstScan h _).bind fun scan => ?_
  cases scan with
  | some scan => exact keeps_claim h _ _
  | none => exact keeps_pure _

theorem keeps_processControls (h : Unseen server P) :
    Keeps P (processControls server content len) := by
  refine (keeps_terminate h).bind fun _ => (keeps_firstEqual h _).bind fun name => ?_
  cases name with
  | some name => exact keeps_claim h _ _
  | none => exact keeps_claimScan h _ _

theorem keeps_processData (h : Unseen server P) : Keeps P (processData server content len) := by
  refine (keeps_terminate h).bind fun _ => (keeps_firstEqual h _).bind fun name => ?_
  cases name with
  | some name => exact keeps_claim h _ _
  | none =>
      refine (keeps_firstScan h _).bind fun scan => ?_
      cases scan with
      | some scan => exact keeps_claim h _ _
      | none =>
          refine (keeps_startsWith h _).bind fun write => Ensures.ite (fun _ => ?_) fun _ => ?_
          · refine Ensures.ite (fun _ => keeps_pure _) fun _ => ?_
            exact (h.onBuf _).bind fun off => (h.onBuf _).bind fun bs =>
              keeps_claim h _ _
          · exact keeps_claimScan h _ _

theorem keeps_processJudge (h : Unseen server P) : Keeps P (processJudge server content len) :=
  (keeps_terminate h).bind fun _ => keeps_claimScan h _ _

theorem keeps_processCache (h : Unseen server P) : Keeps P (processCache server content len) := by
  refine (keeps_terminate h).bind fun _ => ?_
  by_cases hlong : len > 64
  · rw [if_pos hlong]
    refine (keeps_firstScan h _).bind fun scan => ?_
    cases scan with
    | some scan => exact (h.onBuf _).bind fun hash => keeps_claim h _ _
    | none => exact keeps_claimScan h _ _
  · rw [if_neg hlong, pure_bind]
    exact keeps_claimScan h _ _

theorem keeps_processSpecial (h : Unseen server P) :
    Keeps P (processSpecial server content len) := by
  refine (keeps_terminate h).bind fun _ => (keeps_firstEqual h _).bind fun name => ?_
  cases name with
  | some name => exact keeps_claim h _ _
  | none => exact keeps_pure _

theorem keeps_firstClaim : ∀ l : List (Nat → Int → RecvM σ (Option (Option Reply))),
    (∀ process ∈ l, Keeps P (process content len)) →
    Keeps P (firstClaim content len l) := by
  intro l
  induction l with
  | nil => intro _; exact keeps_pure _
  | cons process l ih =>
      intro hl
      refine (hl process List.mem_cons_self).bind fun claimed => ?_
      cases claimed with
      | some reply => exact keeps_pure _
      | none => exact ih fun p hp => hl p (List.mem_cons_of_mem _ hp)

/-- What holds when a datagram is handled, whether it is answered or not. -/
structure Answering (server : Server σ) (cfg : NetConfig) (P R : RecvState σ → Prop) : Prop
    extends Unseen server P where
  silent : ∀ s, P s → R s
  send : ∀ s src dport sport payload len, P s →
    R { s with net := (udpSend cfg src dport sport payload len s.net).2 }

variable {R : RecvState σ → Prop}

theorem Answering.pure (h : Answering server cfg P R) (a : Int) :
    Ensures P (Pure.pure a) fun _ => R := Ensures.pure h.silent

/-- An answer, after which the handler is done. -/
theorem Answering.answer (h : Answering server cfg P R) (src : UInt32) (sport : UInt16)
    (text : List UInt8) :
    Ensures P (do
      let _ ← onNet (udpSend cfg src sport duckUdpPort (fun i => text.getD i 0) text.length)
      Pure.pure (-1 : Int)) fun _ => R := fun s hs => h.send s src sport duckUdpPort _ _ hs

theorem Answering.duckPacketHandle (h : Answering server cfg P R) (src : UInt32) (sport : UInt16) :
    Ensures P (DuckServer.duckPacketHandle server cfg src sport content len) fun _ => R := by
  have hP := h.toUnseen
  refine Ensures.bind (hP.onBuf _) fun _ => Ensures.bind (keeps_equalsTo hP _) fun reboot => ?_
  refine Ensures.ite (fun _ => ?_) fun _ => ?_
  · exact Ensures.bind (keeps_claim hP _ _) fun _ => h.pure _
  refine Ensures.bind (keeps_firstClaim _ fun process hp => ?_) fun claimed => ?_
  · simp only [List.mem_cons, List.not_mem_nil, or_false] at hp
    rcases hp with rfl | rfl | rfl | rfl | rfl
    · exact keeps_processControls hP
    · exact keeps_processData hP
    · exact keeps_processJudge hP
    · exact keeps_processCache hP
    · exact keeps_processSpecial hP
  · cases claimed with
    | none => exact h.pure _
    | some reply =>
        cases reply with
        | none => exact h.pure _
        | some reply =>
            refine Ensures.ite (fun _ => Ensures.bind (hP.onBuf _) fun _ => ?_) fun _ => ?_
            · exact h.answer src sport reply.text
            · exact h.answer src sport reply.text

theorem Answering.udp (h : Answering server cfg P R) (src dst : UInt32) (pkt : Nat) (len : Int) :
    Ensures P ((hooks server cfg).udp src dst pkt len) fun _ => R := by
  refine Ensures.ite (fun _ => h.pure _) fun _ => Ensures.ite (fun _ => h.pure _) fun _ => ?_
  refine Ensures.bind (h.toUnseen.onBuf _) fun dport => Ensures.ite (fun _ => ?_) fun _ => h.pure _
  exact Ensures.bind (h.toUnseen.onBuf _) fun sport => h.duckPacketHandle src sport

/-- A datagram makes the server send one answer at most. -/
theorem answering_sends (server : Server σ) (cfg : NetConfig) (n : Net) :
    Answering server cfg (NetIs n) fun s => Sends cfg n s.net where
  buf _ _ hs := hs
  serve _ _ hs := hs
  silent s hs := by rw [show s.net = n from hs]; exact .quiet
  send s src dport sport payload len hs := by
    rw [← show s.net = n from hs]
    exact .udp src dport sport payload len

theorem nullHooks (server : Server σ) (cfg : NetConfig) : NullHooks (hooks server cfg) where
  ether _ _ := rfl
  arp _ _ := rfl
  ipv4 _ _ := rfl
  icmp _ _ _ _ := rfl

theorem polite_hooks (server : Server σ) (cfg : NetConfig) : Polite cfg (hooks server cfg) where
  toNullHooks := nullHooks server cfg
  phy _ _ _ _ hs := ⟨hs.net, hs.mem⟩
  udp n src dst pkt len := (answering_sends server cfg n).udp src dst pkt len

/-- What neither commands nor received frames change is kept. -/
theorem userHooks {Q : σ → Prop} (cfg : NetConfig)
    (hactive : ∀ u, Q u → Q (server.setActive u))
    (hserve : ∀ u request, Q u → Q (server.serve request u).2) :
    UserHooks (hooks server cfg) Q := by
  have hanswering : Answering server cfg (fun s => Q s.user) fun s => Q s.user :=
    ⟨⟨fun _ _ => id, fun s request => hserve s.user request⟩, fun _ => id,
      fun _ _ _ _ _ _ => id⟩
  exact ⟨nullHooks server cfg, fun _ s => hactive s.user, hanswering.udp⟩

end Server

end DuckServer

namespace Host

open DuckNet

variable {ρ τ : Type}

theorem net_idle (host : Host ρ τ) (tsc : Nat → Nat) (st : Station (DuckMachine ρ τ)) :
    (host.idle tsc st).2.net = st.net := by
  unfold idle
  dsimp only
  split
  · exact net_phyFlush host.baseConfig _
  · rfl

theorem polite_config (host : Host ρ τ) : host.config.Polite where
  hooks cfg _ := DuckServer.polite_hooks host.server cfg
  idle := by
    intro idle hidle tsc st
    rw [← Option.some.inj hidle]
    exact net_idle host tsc st

end Host

end JudgeDuck
