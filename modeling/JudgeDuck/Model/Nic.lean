/-
`lib/e1000.cpp`, `lib/i211.cpp` and the sending half of `lib/realtek.cpp`: the descriptor rings
between a driver and its NIC.

The first two keep rings of 256 descriptors with a buffer of 2048 bytes each.  The
registers TDT and RDT are written by the driver only, TDH and RDH by the NIC only.
The NIC is modelled by what the drivers rely on: it takes descriptors in order from
the head, up to but excluding the tail.

The transmit sides of these two drivers are one algorithm over different descriptors
(`TxDriver`); they differ in how they publish the tail inside `send`.  The receive
sides differ more and keep their own bodies.
-/
import JudgeDuck.Base.Mem

namespace JudgeDuck

namespace Nic

/-- `TQSIZE` and `RQSIZE`: a page of descriptors of 16 bytes. -/
def ringSize : UInt32 := 256

/-- `BUFFER_SIZE`, which is `PAGE_SIZE / 2`. -/
def bufferSize : Nat := 2048

/-- The address of buffer `i` in a block of buffers. -/
def bufferAddr (base : UInt64) (i : Nat) : UInt64 := base + UInt64.ofNat i * UInt64.ofNat bufferSize

/-! ### Transmit -/

/-- The transmit ring of a driver and its NIC.  `e1000` calls the first three fields
`e1000_tdt`, `e1000_tdt_real` and `e1000_tdh`, `i211` calls them `next_tx_idx`, `tdt` and
`tdh`. -/
structure TxRing (D : Type) where
  nextIdx : UInt32
  published : UInt32
  tdh : UInt32
  tq : Nat → D
  mem : Mem
  regTDT : UInt32
  regTDH : UInt32
  /-- What the NIC has sent, in order. -/
  wire : List (List UInt8)

/-- What a driver writes into a descriptor, and what the NIC reads from it: the address and the
length of a packet. -/
structure TxDriver (D : Type) where
  buffer : Nat → UInt64
  prepare : Nat → Nat → D
  fetch : D → UInt64 × Nat

/-- `TQ_FLUSH_COUNT` of both drivers. -/
def tqFlushCount : UInt32 := 32

namespace TxRing

variable {D : Type}

/-- The ring after `e1000_init` or `i211_init_tx_queue`: all indices are 0. -/
def start (tq : Nat → D) (mem : Mem) : TxRing D := ⟨0, 0, 0, tq, mem, 0, 0, []⟩

/-- `WRITE32(TDT, ..)`, remembered by the driver. -/
def publish (s : TxRing D) : TxRing D := { s with regTDT := s.nextIdx, published := s.nextIdx }

/-- `e1000::flush` and `i211_flush_tx`. -/
def flush (s : TxRing D) : TxRing D := if s.nextIdx = s.published then s else s.publish

/-- `send`; `publish` is what the driver does after every 32nd descriptor. -/
def send (d : TxDriver D) (publish : TxRing D → TxRing D) (buf : Nat → UInt8) (cnt : Int)
    (s : TxRing D) : Int × TxRing D :=
  if cnt < 0 ∨ cnt > 1500 then (-1, s)
  else
    let s := if (s.nextIdx + 1) % ringSize = s.tdh then { s with tdh := s.regTDH } else s
    if (s.nextIdx + 1) % ringSize = s.tdh then (-1, s)
    else
      let idx := s.nextIdx.toNat
      let s := { s with
        mem := s.mem.put (d.buffer idx).toNat cnt.toNat buf
        tq := Function.update s.tq idx (d.prepare idx cnt.toNat)
        nextIdx := (s.nextIdx + 1) % ringSize }
      (0, if s.nextIdx % tqFlushCount = 0 then publish s else s)

/-- The NIC sends the packet of the descriptor at the head, if the head has not reached the
tail. -/
def consume (d : TxDriver D) (s : TxRing D) : TxRing D :=
  if s.regTDH = s.regTDT then s
  else
    let p := d.fetch (s.tq s.regTDH.toNat)
    { s with
      wire := s.wire ++ [s.mem.bytes p.1.toNat p.2]
      regTDH := (s.regTDH + 1) % ringSize }

end TxRing

/-! ### Receive -/

/-- The receive ring of a driver and its NIC. -/
structure RxRing (D : Type) where
  rdt : UInt32
  rq : Nat → D
  mem : Mem
  regRDT : UInt32
  regRDH : UInt32

/-- What the NIC reads from a descriptor (the address of the buffer) and writes back to it: the
length of the frame, and status bits that the driver does not look at. -/
structure RxNic (D : Type) where
  address : D → UInt64
  writeBack : D → UInt16 → UInt64 × UInt64 → D

/-- The NIC stores a frame in the buffer of the descriptor at the head, which it does only when
it owns that descriptor; `extra` is what else it writes back. -/
def RxRing.fill {D : Type} (n : RxNic D) (frame : List UInt8) (extra : UInt64 × UInt64)
    (s : RxRing D) : RxRing D :=
  let d := s.rq s.regRDH.toNat
  { s with
    mem := s.mem.putBytes (n.address d).toNat frame
    rq := Function.update s.rq s.regRDH.toNat (n.writeBack d (UInt16.ofNat frame.length) extra)
    regRDH := (s.regRDH + 1) % ringSize }

/-- Whether the NIC owns a descriptor that it can fill. -/
def RxRing.canFill {D : Type} (s : RxRing D) : Bool := s.regRDH ≠ s.regRDT

/-- A driver with its NIC: the ring inside the state, the step of the NIC, `receive` and the state
after the init function. -/
structure RxDriver (S D : Type) where
  ring : S → RxRing D
  fill : List UInt8 → UInt64 × UInt64 → S → S
  receive : S → Option (List UInt8) × S
  start : Mem → S

end Nic

namespace E1000

open Nic

/-- `e1000::TransDesc`, without the fields that are always 0. -/
structure TransDesc where
  addr : UInt64
  length : UInt16
  cmd : UInt8

/-- The descriptor that `send` builds: IFCS, EOP and RS are set, DEXT is not. -/
def transDesc (pa : UInt64) (cnt : Nat) : TransDesc where
  addr := pa.toUInt32.toUInt64
  length := UInt16.ofNat cnt
  cmd := ((1 : UInt8) <<< 3) ||| ((1 : UInt8) <<< 0) ||| ((1 : UInt8) <<< 1)

def tx (tqBuf : UInt64) : TxDriver TransDesc where
  buffer := bufferAddr tqBuf
  prepare i cnt := transDesc (bufferAddr tqBuf i) cnt
  fetch td := (td.addr, td.length.toNat)

/-- `e1000::send` writes TDT whenever the index is a multiple of 32. -/
def send (tqBuf : UInt64) : (Nat → UInt8) → Int → TxRing TransDesc → Int × TxRing TransDesc :=
  TxRing.send (tx tqBuf) TxRing.publish

/-- `e1000::RecvDesc`: the fields that the driver or the NIC uses. -/
structure RecvDesc where
  addr : UInt64
  length : UInt16
  status : UInt8

/-- The NIC sets the descriptor-done bit, among others. -/
def rxNic : RxNic RecvDesc where
  address rd := rd.addr
  writeBack rd len extra := { rd with length := len, status := extra.1.toUInt8 ||| 1 }

/-- `RQ_FLUSH_COUNT`. -/
def rqFlushCount : UInt32 := 128

/-- `e1000::receive`: the bytes it copies to `bufpage`; `none` is -1. -/
def receive (rqBuf : UInt64) (s : RxRing RecvDesc) : Option (List UInt8) × RxRing RecvDesc :=
  let idx := (s.rdt + 1) % ringSize
  let rd := s.rq idx.toNat
  if rd.status &&& 1 = 0 then (none, s)
  else
    let len := if rd.length.toNat > 2048 then 2048 else rd.length.toNat
    let s' := { s with
      rq := Function.update s.rq idx.toNat { rd with status := rd.status &&& ~~~1 }
      rdt := idx }
    (some (s.mem.bytes (bufferAddr rqBuf idx.toNat).toNat len),
      if idx % rqFlushCount = 0 then { s' with regRDT := idx } else s')

/-- The receive ring after `e1000_init`; the descriptors were zero before. -/
def rxStart (rqBuf : UInt64) (mem : Mem) : RxRing RecvDesc where
  rdt := ringSize - 1
  rq i := { addr := (bufferAddr rqBuf i).toUInt32.toUInt64, length := 0, status := 0 }
  mem := mem
  regRDT := ringSize - 1
  regRDH := 0

def rx (rqBuf : UInt64) : RxDriver (RxRing RecvDesc) RecvDesc where
  ring s := s
  fill frame extra s := s.fill rxNic frame extra
  receive := receive rqBuf
  start := rxStart rqBuf

end E1000

namespace I211

open Nic

/-- `i211::TransDesc` as the driver writes it. -/
structure TransDesc where
  packetAddr : UInt64
  cmdTypeLen : UInt32
  paylenStatus : UInt32

/-- `prepare_tx_descriptor`: DTYP is an advanced data descriptor, DCMD is DEXT, IFCS and EOP. -/
def prepareTxDescriptor (packetAddr : UInt64) (len : UInt32) : TransDesc where
  packetAddr := packetAddr
  cmdTypeLen := len ||| ((3 : UInt32) <<< 20)
    ||| ((((1 : UInt32) <<< 5) ||| ((1 : UInt32) <<< 1) ||| ((1 : UInt32) <<< 0)) <<< 24)
  paylenStatus := len <<< (46 - 32)

/-- The NIC finds the length in DTALEN, the low 16 bits of the command word. -/
def tx (tqBuf : UInt64) : TxDriver TransDesc where
  buffer := bufferAddr tqBuf
  prepare i len := prepareTxDescriptor (bufferAddr tqBuf i) (UInt32.ofNat len)
  fetch td := (td.packetAddr, (td.cmdTypeLen &&& 0xffff).toNat)

/-- `i211::send` calls `i211_flush_tx`. -/
def send (tqBuf : UInt64) : (Nat → UInt8) → Int → TxRing TransDesc → Int × TxRing TransDesc :=
  TxRing.send (tx tqBuf) TxRing.flush

/-- `i211::RecvDesc`, a union: the driver writes two addresses, the NIC writes back a status,
the length of the packet and more into the second word. -/
structure RecvDesc where
  word0 : UInt64
  word1 : UInt64
deriving DecidableEq

/-- `wb.packet_length`. -/
def RecvDesc.packetLength (rd : RecvDesc) : UInt16 := (rd.word1 >>> 32).toUInt16

/-- The NIC reads the packet address, and writes back the length between a status of 32 bits and
a tag of 16. -/
def rxNic : RxNic RecvDesc where
  address rd := rd.word0
  writeBack _ len extra :=
    { word0 := extra.1
      word1 := (extra.2 &&& (0xffff0000ffffffff : UInt64)) ||| (len.toUInt64 <<< 32) }

/-- `prepare_rx_descriptor`; the second address is that of `header_buf`. -/
def prepareRxDescriptor (rqBuf headerBuf : UInt64) (idx : Nat) : RecvDesc where
  word0 := bufferAddr rqBuf idx
  word1 := headerBuf

/-- `RQ_FLUSH_COUNT`. -/
def rqFlushCount : UInt32 := 32

/-- The receive ring with `next_rx_idx`. -/
structure RxState extends RxRing RecvDesc where
  nextRxIdx : UInt32

/-- `i211::receive`: the bytes it copies to `buf`; `none` is -1. -/
def receive (rqBuf headerBuf : UInt64) (s : RxState) : Option (List UInt8) × RxState :=
  let idx := s.nextRxIdx.toNat
  let length := (s.rq idx).packetLength
  if length = 0 then (none, s)
  else if length > 1500 then (none, s)
  else
    let rdt := (s.rdt + 1) % ringSize
    let s' := { s with
      rq := Function.update s.rq idx (prepareRxDescriptor rqBuf headerBuf idx)
      nextRxIdx := (s.nextRxIdx + 1) % ringSize
      rdt }
    (some (s.mem.bytes (bufferAddr rqBuf idx).toNat length.toNat),
      if rdt % rqFlushCount = 0 then { s' with regRDT := rdt } else s')

/-- The receive ring after `i211_init_rx_queue`. -/
def rxStart (rqBuf headerBuf : UInt64) (mem : Mem) : RxState where
  rdt := ringSize - 1
  rq := prepareRxDescriptor rqBuf headerBuf
  mem := mem
  regRDT := ringSize - 1
  regRDH := 0
  nextRxIdx := 0

def rx (rqBuf headerBuf : UInt64) : RxDriver RxState RecvDesc where
  ring s := s.toRxRing
  fill frame extra s := { s with toRxRing := s.toRxRing.fill rxNic frame extra }
  receive := receive rqBuf headerBuf
  start := rxStart rqBuf headerBuf

end I211

/-! ### `realtek`

Its transmit ring has no head or tail: a descriptor belongs to the NIC while its OWN bit is set.
-/

namespace Realtek

/-- `N_TX_DESC`. -/
def nTxDesc : Nat := 128

/-- `BUFFER_SIZE`, which is `RTL_RX_MAX_LEN`. -/
def bufferSize : Nat := 1536

def descFlagOwn : UInt16 := (1 : UInt16) <<< 15
def descFlagEor : UInt16 := (1 : UInt16) <<< 14
def descFlagFs : UInt16 := (1 : UInt16) <<< 13
def descFlagLs : UInt16 := (1 : UInt16) <<< 12

structure Descriptor where
  length : UInt16
  flags : UInt16
  address : UInt64

/-- The transmit side of the driver, and memory. -/
structure TxState where
  txIdx : Nat
  txDesc : Nat → Descriptor
  mem : Mem

/-- `prepare_tx_descriptor`; the last descriptor also has the end-of-ring flag. -/
def prepareTxDescriptor (txBuffer : UInt64) (i len : Nat) : Descriptor where
  length := UInt16.ofNat len
  flags :=
    if i + 1 = nTxDesc then descFlagOwn ||| descFlagFs ||| descFlagLs ||| descFlagEor
    else descFlagOwn ||| descFlagFs ||| descFlagLs
  address := txBuffer + UInt64.ofNat (i * bufferSize)

/-- `realtek::send`. -/
def send (txBuffer : UInt64) (buf : Nat → UInt8) (len : Int) (s : TxState) : Int × TxState :=
  if len < 0 ∨ len > 1500 then (-1, s)
  else if (s.txDesc s.txIdx).flags &&& descFlagOwn ≠ 0 then (-1, s)
  else
    (0, { txIdx := (s.txIdx + 1) % nTxDesc
          txDesc := Function.update s.txDesc s.txIdx
            (prepareTxDescriptor txBuffer s.txIdx len.toNat)
          mem := s.mem.put (txBuffer.toNat + s.txIdx * bufferSize) len.toNat buf })

end Realtek

end JudgeDuck
