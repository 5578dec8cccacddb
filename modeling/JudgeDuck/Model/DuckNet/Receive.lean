/-
The receiving half of ducknet: the packet handlers of `phy.cpp`, `ether.cpp`,
`arp.cpp`, `ipv4.cpp`, `icmp.cpp` and `udp.cpp`.

All handlers work on the buffer the frame was received into; `pkt` is the offset
at which the header of their layer starts.  A `packet_handle` that is `NULL` is a
hook that does nothing and returns 0.
-/
import JudgeDuck.Model.DuckNet.Ipv4

namespace JudgeDuck

namespace DuckNet

/-- The library, the buffer with the frame, and the state of whoever set the hooks. -/
structure RecvState (σ : Type) where
  net : Net
  buf : Buf
  user : σ

abbrev RecvM (σ : Type) := StateM (RecvState σ)

section Receive

variable {σ α : Type}

def onBuf (x : BufM α) : RecvM σ α :=
  fun s => ((x s.buf).1, { s with buf := (x s.buf).2 })

def onNet (f : Net → α × Net) : RecvM σ α :=
  fun s => ((f s.net).1, { s with net := (f s.net).2 })

/-- The functions of the configuration; `udp` and `icmp` get the addresses, and all get the offset
of their header and the length of what follows it. -/
structure Hooks (σ : Type) where
  phy : Nat → Int → RecvM σ Int
  ether : Nat → Int → RecvM σ Int
  arp : Nat → Int → RecvM σ Int
  ipv4 : Nat → Int → RecvM σ Int
  icmp : UInt32 → UInt32 → Nat → Int → RecvM σ Int
  udp : UInt32 → UInt32 → Nat → Int → RecvM σ Int

/-- Every hook but that of UDP is `NULL`. -/
def Hooks.udpOnly (udp : UInt32 → UInt32 → Nat → Int → RecvM σ Int) : Hooks σ where
  phy := fun _ _ => pure 0
  ether := fun _ _ => pure 0
  arp := fun _ _ => pure 0
  ipv4 := fun _ _ => pure 0
  icmp := fun _ _ _ _ => pure 0
  udp

variable (cfg : NetConfig) (hooks : Hooks σ)

/-- `ducknet_udp_packet_handle`. -/
def udpPacketHandle (src dst : UInt32) (pkt : Nat) (len : Int) : RecvM σ Int := do
  onBuf (note (.layer pkt len))
  if len < udpHeaderSize then pure (-1)
  else do
    onBuf (udpHton pkt)
    let r ← hooks.udp src dst pkt (len - udpHeaderSize)
    if r < 0 then pure r else pure 0

/-- `ducknet_icmp_packet_handle`; an echo request is turned into its reply in place. -/
def icmpPacketHandle (src dst : UInt32) (pkt : Nat) (len : Int) : RecvM σ Int := do
  onBuf (note (.layer pkt len))
  if len < icmpHeaderSize then pure (-1)
  else do
    let r ← hooks.icmp src dst pkt (len - icmpHeaderSize)
    if r < 0 then pure r
    else do
      let type ← onBuf (rd8 pkt)
      if type = 8 then do
        let code ← onBuf (rd8 (pkt + 1))
        if code ≠ 0 then pure (-1)
        else do
          onBuf (wr8 pkt 0)
          onBuf (wr16 (pkt + 2) 0)
          let bs ← onBuf (rdBytes pkt len.toNat)
          onBuf (wr16 (pkt + 2) (checksum bs 0))
          let payload ← onBuf (rdBytes pkt len.toNat)
          let _ ← onNet (ipv4Send cfg src ipv4ICMP (fun i => payload.getD i 0) len)
          pure 0
      else pure (-1)

/-- `ducknet_ipv4_packet_handle`. -/
def ipv4PacketHandle (pkt : Nat) (len : Int) : RecvM σ Int := do
  onBuf (note (.layer pkt len))
  if len < ipv4HeaderSize then pure (-1)
  else do
    onBuf (ipv4Hton pkt)
    let r ← hooks.ipv4 pkt (len - ipv4HeaderSize)
    if r < 0 then pure r
    else do
      let b ← onBuf (rd8 pkt)
      if versionOf b ≠ 4 then pure (-1)
      else if ihlOf b ≠ 5 then pure (-1)
      else do
        let length ← onBuf (rd16 (pkt + 2))
        if (length.toNat : Int) > len then pure (-1)
        else do
          let flags ← onBuf (rd16 (pkt + 6))
          if flags &&& ~~~ipv4FlagsDF ≠ 0 then pure (-1)
          else do
            let dst ← onBuf (rd32 (pkt + 16))
            if ¬(~~~dst = 0 ∨ dst = cfg.ip) then pure (-1)
            else do
              let contentLen : Int := length.toNat - ipv4HeaderSize
              let src ← onBuf (rd32 (pkt + 12))
              let protocol ← onBuf (rd8 (pkt + 9))
              if protocol = ipv4ICMP then
                icmpPacketHandle cfg hooks src dst (pkt + ipv4HeaderSize) contentLen
              else if protocol = ipv4UDP then
                udpPacketHandle hooks src dst (pkt + ipv4HeaderSize) contentLen
              else pure (-1)

/-- `ducknet_arp_packet_handle`; the payload is `sha`, `spa`, `tha` and `tpa`. -/
def arpPacketHandle (pkt : Nat) (len : Int) : RecvM σ Int := do
  onBuf (note (.layer pkt len))
  if len < arpHeaderSize then pure (-1)
  else do
    onBuf (arpHton pkt)
    let r ← hooks.arp pkt (len - arpHeaderSize)
    if r < 0 then pure r
    else do
      let htype ← onBuf (rd16 pkt)
      let ptype ← onBuf (rd16 (pkt + 2))
      if htype = 1 ∧ ptype = 0x0800 then do
        let hlen ← onBuf (rd8 (pkt + 4))
        let plen ← onBuf (rd8 (pkt + 5))
        if hlen ≠ 6 then pure (-1)
        else if plen ≠ 4 then pure (-1)
        else if len - arpHeaderSize < 20 then pure (-1)
        else do
          let sha ← onBuf (rdMac (pkt + 8))
          let spa ← onBuf (rd32 (pkt + 14))
          let _tha ← onBuf (rdMac (pkt + 18))
          let tpa ← onBuf (rd32 (pkt + 24))
          let op ← onBuf (rd16 (pkt + 6))
          if op = arpRequest then
            if htonl tpa = cfg.ip then do
              let _ ← onNet (arpSend cfg sha arpReply
                (arpPayload cfg.mac (htonl tpa) sha (htonl spa)))
              pure 0
            else pure (-1)
          else if op = arpReply then do
            let _ ← onNet fun s =>
              let out := arpUpdate cfg.tscFreq s.now (htonl spa) sha s.arp
              (out.1, { s with arp := out.2 })
            pure 0
          else pure (-1)
      else pure (-1)

/-- `ducknet_ether_packet_handle`. -/
def etherPacketHandle (pkt : Nat) (len : Int) : RecvM σ Int := do
  onBuf (note (.layer pkt len))
  if len < etherHeaderSize then pure (-1)
  else do
    onBuf (etherHton pkt)
    let r ← hooks.ether pkt (len - etherHeaderSize)
    if r < 0 then pure r
    else do
      let dst ← onBuf (rdMac pkt)
      if dst ≠ cfg.mac ∧ dst ≠ broadcastAddr then pure (-1)
      else do
        let contentLen := len - etherHeaderSize
        let ethertype ← onBuf (rd16 (pkt + 12))
        if ethertype = ethertypeARP then
          arpPacketHandle cfg hooks (pkt + etherHeaderSize) contentLen
        else if ethertype = ethertypeIPv4 then
          ipv4PacketHandle cfg hooks (pkt + etherHeaderSize) contentLen
        else pure (-1)

/-- `ducknet_packet_handle` of a frame of `len` bytes at the start of the buffer. -/
def packetHandle (len : Int) : RecvM σ Int := do
  let r ← hooks.phy 0 len
  if r < 0 then pure r else etherPacketHandle cfg hooks 0 len

end Receive

end DuckNet

end JudgeDuck
