/-
`ducknet/lib/phy.cpp`: the sending half, down to the driver.

`send_packet_handle` sees every packet before the driver does and may refuse it.  The
result of its comparison with 0, and not its own result, is what `ducknet_phy_send`
returns then.
-/
import JudgeDuck.Model.DuckNet.Ipv4

namespace JudgeDuck

namespace DuckNet

/-- The functions of `DucknetPhyConfig` that sending calls, with the state of whoever has set them;
`none` is `NULL`. -/
structure PhyConfig (σ : Type) where
  send : Option (List UInt8 → σ → Int × σ)
  sendPacketHandle : Option (List UInt8 → σ → Int × σ)

/-- The static variable that sending changes, and the state of the functions. -/
structure Phy (σ : Type) where
  flushed : Bool
  user : σ

section

variable {σ : Type} (conf : PhyConfig σ)

/-- `flushed = false; return send ? send(a, len) : -1;`. -/
def phyTransmit (pkt : List UInt8) (s : Phy σ) : Int × Phy σ :=
  match conf.send with
  | none => (-1, { s with flushed := false })
  | some send =>
    let out := send pkt s.user
    (out.1, { flushed := false, user := out.2 })

/-- `ducknet_phy_send`: `r = send_packet_handle(a, len) < 0` assigns the comparison. -/
def Phy.send (pkt : List UInt8) (s : Phy σ) : Int × Phy σ :=
  match conf.sendPacketHandle with
  | none => phyTransmit conf pkt s
  | some handle =>
    let out := handle pkt s.user
    let s := { s with user := out.2 }
    let r : Int := if out.1 < 0 then 1 else 0
    if r ≠ 0 then (r, s) else phyTransmit conf pkt s

/-- The state after a history of calls. -/
def Phy.after (s : Phy σ) (history : List (List UInt8)) : Phy σ :=
  history.foldl (fun s pkt => (Phy.send conf pkt s).2) s

/-- The result of the last call of a history. -/
def Phy.result (s : Phy σ) (history : List (List UInt8)) : Int :=
  match history.getLast? with
  | none => 0
  | some pkt => (Phy.send conf pkt (s.after conf history.dropLast)).1

/-- The library over this layer, which starts in a given state. -/
def NetConfig.over (cfg : NetConfig) (s : Phy σ) : NetConfig :=
  { cfg with phySend := s.result conf }

end

end DuckNet

end JudgeDuck
