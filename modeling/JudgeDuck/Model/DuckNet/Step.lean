/-
`ducknet/lib/ducknet.cpp` and the rest of `phy.cpp`: the main loop of the library.

A round of the loop keeps time, flushes the driver, sweeps the tables of ARP and IPv4,
handles at most one received frame and then calls whoever has set `idle`.  What part of the
library sends goes to the driver when that part has run: no handler looks at what a
driver does, and `sent` has the frames in order.

A round reads the TSC more than once; `tsc` has the readings, the first of which is the
one of `ducknet_utils_idle`.
-/
import JudgeDuck.Model.DuckNet.Phy
import JudgeDuck.Model.DuckNet.Receive

namespace JudgeDuck

namespace DuckNet

/-- The static variables: those of the library, with the packet buffer of `ducknet_step` and the
state of the functions in the configuration, and those of `phy.cpp`. -/
structure Station (σ : Type) extends RecvState σ where
  flushed : Bool
  lastFlushTime : UInt64
  flushDelay : UInt64
  flushCnt : Nat

/-- `DucknetConfig`; `none` is `NULL`, and `none` is what a `recv` without a frame returns.  The
hooks send through the library. -/
structure DucknetConfig (σ : Type) extends PhyConfig σ where
  net : NetConfig
  hooks : NetConfig → Hooks σ
  recv : Option (σ → Option (List UInt8) × σ)
  flush : Option (σ → Int × σ)
  idle : Option ((Nat → Nat) → Station σ → Int × Station σ)

section

variable {σ : Type} (conf : DucknetConfig σ)

/-- The library over the driver as it is now. -/
def Station.netConfig (st : Station σ) : NetConfig :=
  { conf.net with
    phySend := fun history => Phy.result conf.toPhyConfig ⟨st.flushed, st.user⟩
      (history.drop st.net.sent.length) }

/-- Part of the library has run; the driver gets what it has sent. -/
def Station.transmit (st : Station σ) (s : RecvState σ) : Station σ :=
  let phy := Phy.after conf.toPhyConfig ⟨st.flushed, s.user⟩
    ((s.net.sent.drop st.net.sent.length).map Prod.snd)
  { st with toRecvState := { s with user := phy.user }, flushed := phy.flushed }

/-- `ducknet_phy_flush`. -/
def phyFlush (st : Station σ) : Int × Station σ :=
  if st.flushed then (0, st)
  else
    match conf.flush with
    | none => (-1, st)
    | some flush =>
      let out := flush st.user
      (out.1, { st with user := out.2, flushed := out.1 = 0 })

/-- `ducknet_phy_idle`. -/
def phyIdle (st : Station σ) : Station σ :=
  if st.flushCnt + 1 ≥ 128 ∨ st.net.now - st.lastFlushTime > st.flushDelay then
    { (phyFlush conf st).2 with flushCnt := 0, lastFlushTime := st.net.now }
  else { st with flushCnt := st.flushCnt + 1 }

/-- `ducknet_idle`; the other layers have nothing to do, and none of them fails. -/
def ducknetIdle (tsc : Nat) (st : Station σ) : Station σ :=
  let st := phyIdle conf { st with net := { st.net with now := gettime tsc } }
  let st := { st with net := { st.net with arp := arpIdle st.net.now st.net.arp } }
  st.transmit conf { st.toRecvState with net := ipv4Idle (st.netConfig conf) st.net }

/-- `ducknet_packet_handle` of a frame that `ducknet_phy_recv` has stored in the buffer. -/
def ducknetHandle (frame : List UInt8) (st : Station σ) : Station σ :=
  let cfg := st.netConfig conf
  st.transmit conf (packetHandle cfg (conf.hooks cfg) frame.length
    { st.toRecvState with buf := ⟨st.buf.mem.putBytes 0 frame, []⟩ }).2

/-- The receiving part of `ducknet_step`. -/
def ducknetRecv (st : Station σ) : Station σ :=
  match conf.recv with
  | none => st
  | some recv =>
    let out := recv st.user
    let st := { st with user := out.2 }
    match out.1 with
    | none => st
    | some frame => ducknetHandle conf frame st

/-- `ducknet_step`. -/
def ducknetStep (tsc : Nat → Nat) (st : Station σ) : Int × Station σ :=
  let st := ducknetRecv conf (ducknetIdle conf (tsc 0) st)
  match conf.idle with
  | none => (0, st)
  | some idle =>
    let out := idle (fun k => tsc (k + 1)) st
    (if out.1 < 0 then out.1 else 0, out.2)

/-- `ducknet_mainloop`, for as long as there are readings of the TSC. -/
def ducknetMainloop : List (Nat → Nat) → Station σ → Int × Station σ
  | [], st => (0, st)
  | tsc :: rest, st =>
    let out := ducknetStep conf tsc st
    if out.1 < 0 then out else ducknetMainloop rest out.2

/-- `ducknet_init`; `none` is the error of `ducknet_utils_init`, and no other layer has one. -/
def ducknetInit (tsc : Nat) (user : σ) : Option (Station σ) :=
  if conf.net.tscFreq = 0 then none
  else
    some
      { net := Net.init conf.net (gettime tsc)
        buf := ⟨fun _ => 0, []⟩
        user
        flushed := false
        lastFlushTime := gettime tsc
        flushDelay := idleDelay conf.net.tscFreq
        flushCnt := 0 }

end

end DuckNet

end JudgeDuck
