/-
`kern/duck_server.cpp`: from a datagram to a command.

Every handler terminates the content with a NUL and compares it with the commands
it knows.  What a command does, and the text of its answer, is up to the server's
state; here is which bytes of the packet it is given, and in which order.
-/
import JudgeDuck.Model.DuckNet.Receive

namespace JudgeDuck

namespace DuckServer

open DuckNet

/-- `MAX_MTU + 64`, the size of the buffer in `ducknet_step`. -/
def pktSize : Nat := 1564

def duckUdpPort : UInt16 := 9999

/-- What `sscanf` stores for a conversion. -/
inductive ScanArg where
  | number (n : UInt64)
  | integer (n : Int)
  | string (s : List UInt8)

/-- A command with all that its handler takes from the packet. -/
inductive Request where
  | command (name : String)
  | scanned (format : String) (args : List ScanArg)
  | writeBuffer (off : UInt64) (data : List UInt8)
  | cache (format : String) (args : List ScanArg) (hash : List UInt8)
  | reboot

/-- The rest of the server: the C library's `sscanf`, which returns the converted arguments when
all conversions succeed, and the effect and the answer of a command. -/
structure Server (σ : Type) where
  ip : UInt32
  setActive : σ → σ
  sscanf : String → List UInt8 → Option (List ScanArg)
  serve : Request → σ → Option (List UInt8) × σ

/-- The bytes of a string constant. -/
def ascii (s : String) : List UInt8 := s.toList.map fun c => UInt8.ofNat c.toNat

/-- The answer of a command: its text and whether it is written over the content. -/
structure Reply where
  text : List UInt8
  inPlace : Bool

section Commands

variable {σ : Type} (server : Server σ)

/-- `equals_to`. -/
def equalsTo (content : Nat) (len : Int) (s : String) : RecvM σ Bool := do
  if len = (ascii s).length then do
    let bs ← onBuf (rdBytes content (ascii s).length)
    pure (bs = ascii s)
  else pure false

/-- `starts_with`. -/
def startsWith (content : Nat) (len : Int) (s : String) : RecvM σ Bool := do
  if len ≥ (ascii s).length then do
    let bs ← onBuf (rdBytes content (ascii s).length)
    pure (bs = ascii s)
  else pure false

/-- The first of the names that the content equals. -/
def firstEqual (content : Nat) (len : Int) : List String → RecvM σ (Option String)
  | [] => pure none
  | s :: ss => do
    let same ← equalsTo content len s
    if same then pure (some s) else firstEqual content len ss

/-- The first of the formats that the content matches. -/
def firstScan (content : Nat) : List String → RecvM σ (Option (String × List ScanArg))
  | [] => pure none
  | format :: formats => do
    let s ← onBuf (rdString pktSize content)
    match server.sscanf format s with
    | some args => pure (some (format, args))
    | none => firstScan content formats

/-- Carry out a command; the handler has then claimed the content. -/
def claim (inPlace : Bool) (request : Request) : RecvM σ (Option (Option Reply)) :=
  fun s => (some ((server.serve request s.user).1.map fun text => { text, inPlace }),
    { s with user := (server.serve request s.user).2 })

/-- `content[len] = 0`. -/
def terminate (content : Nat) (len : Int) : RecvM σ Unit := onBuf (wr8 (content + len.toNat) 0)

/-- `process_controls`. -/
def processControls (content : Nat) (len : Int) : RecvM σ (Option (Option Reply)) := do
  terminate content len
  let name ← firstEqual content len
    ["uptime", "statistics", "cpu-temp", "cpu-model-name", "sysinfo"]
  match name with
  | some name => claim server true (.command name)
  | none => do
    let scan ← firstScan server content ["syslog %d %d"]
    match scan with
    | some (format, args) => claim server true (.scanned format args)
    | none => pure none

/-- `process_data`. -/
def processData (content : Nat) (len : Int) : RecvM σ (Option (Option Reply)) := do
  terminate content len
  let name ← firstEqual content len ["query-buffer-size"]
  match name with
  | some name => claim server true (.command name)
  | none => do
    let scan ← firstScan server content ["clear-buffer %lu %lu", "read-buffer %lu %lu"]
    match scan with
    | some (format, args) => claim server true (.scanned format args)
    | none => do
      let write ← startsWith content len "write-buffer"
      if write then do
        let data := content + (ascii "write-buffer").length
        let dataLen := len.toNat - (ascii "write-buffer").length
        if dataLen < 8 then pure (some none)
        else do
          let off ← onBuf (rd64 data)
          let bs ← onBuf (rdBytes (data + 8) (dataLen - 8))
          claim server true (.writeBuffer off bs)
      else do
        let scan ← firstScan server content
          ["copy-buffer %lu %lu %lu", "compare-buffer %lu %lu %lu"]
        match scan with
        | some (format, args) => claim server true (.scanned format args)
        | none => pure none

/-- `process_judge`; its answer is in a buffer of its own. -/
def processJudge (content : Nat) (len : Int) : RecvM σ (Option (Option Reply)) := do
  terminate content len
  let scan ← firstScan server content
    ["judge %lu %lu %lu %lu %lu %lu %lu %lu %lu %lu %lu %lu %lu %lu %lu %lu"]
  match scan with
  | some (format, args) => claim server false (.scanned format args)
  | none => pure none

/-- `process_cache`. -/
def processCache (content : Nat) (len : Int) : RecvM σ (Option (Option Reply)) := do
  terminate content len
  let scan ← if len > 64 then
      firstScan server content ["load-cache %s %lu %lu", "store-cache %s %lu %lu"]
    else pure none
  match scan with
  | some (format, args) => do
    let hash ← onBuf (rdBytes (content + len.toNat - 64) 64)
    claim server true (.cache format args hash)
  | none => do
    let scan ← firstScan server content ["info-cache %s"]
    match scan with
    | some (format, args) => claim server true (.scanned format args)
    | none => pure none

/-- `process_special`. -/
def processSpecial (content : Nat) (len : Int) : RecvM σ (Option (Option Reply)) := do
  terminate content len
  let name ← firstEqual content len ["query-all"]
  match name with
  | some name => claim server true (.command name)
  | none => pure none

/-- The chain `process_controls(args) || ...`; `none` when no handler claims the content. -/
def firstClaim (content : Nat) (len : Int) :
    List (Nat → Int → RecvM σ (Option (Option Reply))) → RecvM σ (Option (Option Reply))
  | [] => pure none
  | process :: rest => do
    let claimed ← process content len
    match claimed with
    | some reply => pure (some reply)
    | none => firstClaim content len rest

/-- Write the answer over the content. -/
def replyInPlace (content : Nat) (text : List UInt8) : BufM Unit := fun s =>
  ((), { mem := s.mem.putBytes content text, log := s.log ++ [.reply content] })

/-- `duck_packet_handle`. -/
def duckPacketHandle (cfg : NetConfig) (src : UInt32) (sport : UInt16) (content : Nat) (len : Int) :
    RecvM σ Int := do
  onBuf (note (.layer content len))
  let reboot ← equalsTo content len "reboot"
  if reboot then do
    let _ ← claim server false .reboot
    pure (-1)
  else do
    let claimed ← firstClaim content len [processControls server, processData server,
      processJudge server, processCache server, processSpecial server]
    match claimed with
    | some (some reply) => do
      if reply.inPlace then onBuf (replyInPlace content reply.text)
      let _ ← onNet (udpSend cfg src sport duckUdpPort (fun i => reply.text.getD i 0)
        reply.text.length)
      pure (-1)
    | _ => pure (-1)

/-- `udp_packet_handle`. -/
def udpPacketHandle (cfg : NetConfig) (src dst : UInt32) (hdr : Nat) (contentLen : Int) :
    RecvM σ Int := do
  if src &&& 0xff = 255 then pure (-1)
  else if dst ≠ server.ip then pure (-1)
  else do
    let dport ← onBuf (rd16 (hdr + 2))
    if dport = duckUdpPort then do
      let sport ← onBuf (rd16 hdr)
      duckPacketHandle server cfg src sport (hdr + udpHeaderSize) contentLen
    else pure (-1)

/-- The hooks that `init` passes to `ducknet_init`. -/
def hooks (cfg : NetConfig) : Hooks σ :=
  { Hooks.udpOnly (udpPacketHandle server cfg) with
    phy := fun _ _ s => (0, { s with user := server.setActive s.user }) }

end Commands

end DuckServer

end JudgeDuck
