/-
`lib/scheduler.cpp`, and what `kern/duck_server.cpp` passes to `ducknet_init`.

The server halts the machine when there has been nothing to do for a while.  The more time has
passed, the longer it sleeps; every packet that is received or sent makes it active
again.  `halts` remembers the initial count of the timer at every `hlt`.
-/
import JudgeDuck.Model.DuckNet.Step
import JudgeDuck.Model.DuckServer
import JudgeDuck.Model.Nic
import JudgeDuck.Model.Timer

namespace JudgeDuck

open DuckNet

/-! ### The scheduler -/

inductive SchedState where
  | active
  | idle
deriving DecidableEq

/-- The static variables of `Scheduler`. -/
structure Scheduler where
  currentState : SchedState
  lastActiveTimestampNs : UInt64

namespace Scheduler

/-- `Scheduler::init`. -/
def init : Scheduler := ⟨.active, 0⟩

/-- `idle_policy_ms`: idle for so long, sleep for so long. -/
def idlePolicyMs : List (UInt64 × UInt64) := [(0, 0), (1, 1), (30, 2)]

def setActive (s : Scheduler) : Scheduler := { s with currentState := .active }

def setIdle (nowNs : UInt64) (s : Scheduler) : Scheduler :=
  if s.currentState = .active then ⟨.idle, nowNs⟩ else s

/-- The loop `for (i = n_idle_policies - 1; i > 0; i--)`. -/
def pickPolicy (idleTimeMs : UInt64) : Nat → Nat
  | 0 => 0
  | i + 1 =>
    if idleTimeMs ≥ (idlePolicyMs.getD (i + 1) (0, 0)).1 then i + 1 else pickPolicy idleTimeMs i

/-- `get_sleep_duration_ms`. -/
def sleepDurationMs (nowNs : UInt64) (s : Scheduler) : UInt64 :=
  if s.currentState ≠ .idle then 0
  else
    let idleTimeMs := (nowNs - s.lastActiveTimestampNs) / 1000000
    (idlePolicyMs.getD (pickPolicy idleTimeMs (idlePolicyMs.length - 1)) (0, 0)).2

def canSleep (nowNs : UInt64) (s : Scheduler) : Bool := s.sleepDurationMs nowNs > 0

end Scheduler

/-! ### The machine -/

/-- The functions of `NetworkDriver`; `none` is a result of -1. -/
structure NetworkDriver (ρ : Type) where
  send : List UInt8 → ρ → Int × ρ
  receive : ρ → Option (List UInt8) × ρ
  flush : ρ → Int × ρ

/-- What the library is initialized with; without a driver the machine runs in standalone mode. -/
structure Host (ρ τ : Type) where
  net : NetConfig
  driver : Option (NetworkDriver ρ)
  tscEpoch : UInt64
  extFreq : UInt32
  sscanf : String → List UInt8 → Option (List DuckServer.ScanArg)
  serve : DuckServer.Request → τ → Option (List UInt8) × τ

/-- The scheduler, the driver and the rest of the server. -/
structure DuckMachine (ρ τ : Type) where
  sched : Scheduler
  nic : ρ
  app : τ
  halts : List UInt32

namespace Host

variable {ρ τ : Type} (host : Host ρ τ)

/-- `Timer::ns_since_epoch`. -/
def nsSinceEpoch (tsc : Nat) : UInt64 :=
  if host.tscEpoch = 0 then -1
  else Timer.tscToNs host.net.tscFreq (UInt64.ofNat tsc - host.tscEpoch)

def setActive (m : DuckMachine ρ τ) : DuckMachine ρ τ := { m with sched := m.sched.setActive }

/-- The commands act on the rest of the server. -/
def server : DuckServer.Server (DuckMachine ρ τ) where
  ip := host.net.ip
  setActive := setActive
  sscanf := host.sscanf
  serve request m :=
    let out := host.serve request m.app
    (out.1, { m with app := out.2 })

/-- The configuration of `DuckServer::init`, but for `idle`. -/
def baseConfig : DucknetConfig (DuckMachine ρ τ) where
  send := host.driver.map fun d pkt m =>
    ((d.send pkt m.nic).1, { m with nic := (d.send pkt m.nic).2 })
  -- `phy_send_packet_handle`
  sendPacketHandle := some fun _ m => (0, setActive m)
  net := host.net
  hooks := DuckServer.hooks host.server
  recv := host.driver.map fun d m => ((d.receive m.nic).1, { m with nic := (d.receive m.nic).2 })
  flush := host.driver.map fun d m => ((d.flush m.nic).1, { m with nic := (d.flush m.nic).2 })
  idle := none

/-- `Scheduler::sleep`; a failed assert in `powersave_sleep` does not return. -/
def sleep (nowNs : UInt64) (m : DuckMachine ρ τ) : Int × DuckMachine ρ τ :=
  let ms := m.sched.sleepDurationMs nowNs
  if ms > 0 then
    match Timer.timerSingleShotNs host.extFreq (ms * 1000000) with
    | none => (-1, m)
    | some ticr => (0, { m with halts := m.halts ++ [ticr] })
  else (0, m)

/-- `idle`; `set_idle`, `can_sleep` and `sleep` read the TSC. -/
def idle (tsc : Nat → Nat) (st : Station (DuckMachine ρ τ)) :
    Int × Station (DuckMachine ρ τ) :=
  let sched := st.user.sched.setIdle (host.nsSinceEpoch (tsc 0))
  let st := { st with user := { st.user with sched } }
  if sched.canSleep (host.nsSinceEpoch (tsc 1)) then
    let st := (phyFlush host.baseConfig st).2
    let out := host.sleep (host.nsSinceEpoch (tsc 2)) st.user
    (out.1, { st with user := out.2 })
  else (0, st)

/-- The configuration of `DuckServer::init`. -/
def config : DucknetConfig (DuckMachine ρ τ) := { host.baseConfig with idle := some host.idle }

end Host

/-! ### Drivers -/

/-- The two rings of a NIC. -/
structure Rings (τ ρ : Type) where
  tx : τ
  rx : ρ

namespace NetworkDriver

open Nic

/-- The functions of `e1000`. -/
def e1000 (tqBuf rqBuf : UInt64) :
    NetworkDriver (Rings (TxRing E1000.TransDesc) (RxRing E1000.RecvDesc)) where
  send pkt s :=
    let out := E1000.send tqBuf (fun i => pkt.getD i 0) pkt.length s.tx
    (out.1, { s with tx := out.2 })
  receive s :=
    let out := E1000.receive rqBuf s.rx
    (out.1, { s with rx := out.2 })
  flush s := (0, { s with tx := s.tx.flush })

/-- The functions of `i211`. -/
def i211 (tqBuf rqBuf headerBuf : UInt64) :
    NetworkDriver (Rings (TxRing I211.TransDesc) I211.RxState) where
  send pkt s :=
    let out := I211.send tqBuf (fun i => pkt.getD i 0) pkt.length s.tx
    (out.1, { s with tx := out.2 })
  receive s :=
    let out := I211.receive rqBuf headerBuf s.rx
    (out.1, { s with rx := out.2 })
  flush s := (0, { s with tx := s.tx.flush })

end NetworkDriver

end JudgeDuck
