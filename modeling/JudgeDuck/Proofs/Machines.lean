/-
Any number of JudgeDuck machines, and others, on one network.

What `Proofs.DuckNet.Link` says of one host holds of all of them, as long as the others
on the network answer ARP requests truthfully.
-/
import JudgeDuck.Base.Network
import JudgeDuck.Model.Scheduler
import JudgeDuck.Proofs.Commands
import JudgeDuck.Proofs.DuckNet.Answers

namespace JudgeDuck

open DuckNet

namespace Host

variable {ρ τ : Type}

/-! ### The network -/

variable {ι : Type}

/-- A machine starts with `ducknet_init`; a round of its main loop may read a frame, whatever the
driver has done to the other parts of its state, and sends some. -/
def parties (host : ι → Host ρ τ) :
    Network.Parties ι (Station (DuckMachine ρ τ)) (List UInt8) where
  Start i st := ∃ tsc user, ducknetInit (host i).config tsc user = some st
  Acts i st read st' out := ∃ tsc u,
    st' = Round.step (host i).config ⟨tsc, read, u⟩ st ∧
      out = (st'.net.sent.drop st.net.sent.length).map Prod.snd

/-- The MAC address of a machine is one of those at its IP address. -/
def Own (B : UInt32 → MACAddress → Prop) (host : ι → Host ρ τ) : Prop :=
  ∀ i, B (host i).net.ip (host i).net.mac

theorem invariant_parties {B : UInt32 → MACAddress → Prop} {host : ι → Host ρ τ}
    (hown : Own B host) :
    Network.Invariant (parties host) {f | Truthful B f}
      (fun i st => HostOk B (host i).net.ip (host i).net.mac st.net) (Truthful B) where
  start i st := by
    rintro ⟨tsc, user, hinit⟩
    unfold ducknetInit at hinit
    split at hinit
    · exact nomatch hinit
    · rw [← Option.some.inj hinit]
      exact hostOk_init (host i).net _
  outside _ hf := hf
  act i st read st' out hI hread := by
    rintro ⟨tsc, u, hst', hout⟩
    have hok : HostOk B (host i).net.ip (host i).net.mac st'.net := by
      rw [hst']
      have hstages := stages_hostOk (B := B) (host i).config
      cases read with
      | none => exact hstages.round_none (polite_config _) _ rfl hI
      | some f => exact hstages.round_some (polite_config _) _ rfl (hread f rfl) hI
    refine ⟨hok, fun f hf => ?_⟩
    rw [hout] at hf
    obtain ⟨c, hc, rfl⟩ := List.mem_map.mp hf
    exact (hok.sent c (List.mem_of_mem_drop hc)).truthful (hown i)

/-- Two machines in standalone mode, whose commands do nothing. -/
def twoHosts (i : Bool) : Host Unit Unit where
  net :=
    { mac := ⟨2, 0, 0, 0, 0, if i then 1 else 2⟩
      ip := if i then 0x0a000001 else 0x0a000002
      tscFreq := 1000000000
      phySend := fun _ => -1 }
  driver := none
  tscEpoch := 1
  extFreq := 24000000
  sscanf _ _ := none
  serve _ s := (none, s)

/-- A machine of these after `ducknet_init`. -/
def twoStart (i : Bool) : Station (DuckMachine Unit Unit) where
  net := Net.init (twoHosts i).net (gettime 0)
  buf := ⟨fun _ => 0, []⟩
  user := ⟨Scheduler.init, (), (), []⟩
  flushed := false
  lastFlushTime := gettime 0
  flushDelay := idleDelay (twoHosts i).net.tscFreq
  flushCnt := 0

/-- A round without a frame. -/
def twoRound : Round (DuckMachine Unit Unit) := ⟨id, none, ⟨Scheduler.init, (), (), []⟩⟩

/-- A machine that runs its main loop, with any driver and any frames from anyone, sends packets
only as answers: without the ARP requests, the packets that it has sent and those that wait for a
MAC address are at most as many as the frames it has received. -/
theorem answers_le_received (host : Host ρ τ) (tsc : Nat) (user : DuckMachine ρ τ)
    (st : Station (DuckMachine ρ τ)) (hinit : ducknetInit host.config tsc user = some st)
    (rounds : List (Round (DuckMachine ρ τ))) :
    let st' := rounds.foldl (fun st r => r.step host.config st) st
    st'.net.answers + st'.net.waiting.card ≤ received rounds := by
  have howes := owes_rounds (polite_config host) rounds (owes_init hinit)
  rwa [Nat.zero_add] at howes

theorem answers_le_received_two :
    let st' := [twoRound, twoRound].foldl (fun st r => r.step (twoHosts true).config st)
      (twoStart true)
    st'.net.answers + st'.net.waiting.card ≤ 0 :=
  answers_le_received (twoHosts true) 0 ⟨Scheduler.init, (), (), []⟩ (twoStart true) rfl
    [twoRound, twoRound]

end Host

end JudgeDuck
