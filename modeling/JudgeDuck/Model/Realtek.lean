/-
`lib/dma.cpp`, and the rest of `lib/realtek.cpp`: the receive ring, the NIC, and the rings that
the init function sets up.

A descriptor of either ring belongs to the NIC while its OWN bit is set.  The NIC goes
through both rings in order, from a descriptor with the end-of-ring flag to the first
one, and gives a descriptor back when it has sent its packet or stored a frame.
-/
import JudgeDuck.Model.Memory
import JudgeDuck.Model.Scheduler

namespace JudgeDuck

/-! ### Memory for descriptors and buffers -/

/-- The static variables of `DMA`: the addresses of `dma_buffer` and `dma_buffer_ptr`. -/
structure DMA where
  buffer : UInt64
  ptr : UInt64

namespace DMA

/-- `DMA_BUFFER_SIZE`. -/
def bufferSize : UInt64 := 1280 * 1024

/-- `DMA::init`. -/
def init (buffer : UInt64) : DMA := ⟨buffer, buffer⟩

/-- `DMA::alloc`; `none` is a null pointer. -/
def alloc (size : UInt64) (dma : DMA) : Option UInt64 × DMA :=
  let size := Utils.roundUp size Memory.pageSize
  if dma.ptr + size > dma.buffer + bufferSize then (none, dma)
  else (some dma.ptr, { dma with ptr := dma.ptr + size })

/-- Go on with a block, or fail. -/
def withBlock {α : Type} (size : UInt64) (next : UInt64 → DMA → Option α × DMA) (dma : DMA) :
    Option α × DMA :=
  let out := alloc size dma
  out.1.elim (none, out.2) fun p => next p out.2

end DMA

namespace Realtek

/-- `N_RX_DESC`. -/
def nRxDesc : Nat := 128

/-- `RTL_DESC_LENGTH_MASK`. -/
def descLengthMask : UInt16 := 0x3fff

/-- The flag of a frame that did not arrive well. -/
def descFlagError : UInt16 := (1 : UInt16) <<< 5

/-- Both sides of the driver, and the places of the NIC in its two rings. -/
structure Device extends TxState where
  rxIdx : Nat
  rxDesc : Nat → Descriptor
  txHead : Nat
  rxHead : Nat

/-- The descriptor of `prepare_rx_descriptor`. -/
def prepareRxDescriptor (rxBuffer : UInt64) (i : Nat) : Descriptor where
  length := UInt16.ofNat bufferSize
  flags := if i + 1 = nRxDesc then descFlagOwn ||| descFlagEor else descFlagOwn
  address := rxBuffer + UInt64.ofNat (i * bufferSize)

/-- `prepare_rx_descriptor` also clears the start of the buffer. -/
def prepareRx (rxBuffer : UInt64) (i : Nat) (s : Device) : Device :=
  { s with
    rxDesc := Function.update s.rxDesc i (prepareRxDescriptor rxBuffer i)
    mem := s.mem.memset (rxBuffer.toNat + i * bufferSize) 0 233 }

/-- `realtek::receive`: the bytes it copies to `buf`; `none` is -1. -/
def receive (rxBuffer : UInt64) (s : Device) : Option (List UInt8) × Device :=
  if (s.rxDesc s.rxIdx).flags &&& descFlagOwn ≠ 0 then (none, s)
  else
    let idx := s.rxIdx
    let s := { s with rxIdx := (s.rxIdx + 1) % nRxDesc }
    let flags := (s.rxDesc idx).flags
    let length := ((s.rxDesc idx).length &&& descLengthMask).toNat
    if flags &&& descFlagError ≠ 0 then (none, prepareRx rxBuffer idx s)
    else if length > 1500 then (none, prepareRx rxBuffer idx s)
    else
      (some (s.mem.bytes (rxBuffer.toNat + idx * bufferSize) length), prepareRx rxBuffer idx s)

/-- `realtek::flush`. -/
def flush (s : Device) : Int × Device := (0, s)

/-! ### The NIC -/

/-- The descriptor after one. -/
def nextDesc (d : Descriptor) (i : Nat) : Nat := if d.flags &&& descFlagEor ≠ 0 then 0 else i + 1

/-- The NIC sends the packet of a descriptor that it owns, and gives the descriptor back. -/
def transmit (s : Device) : Option (List UInt8) × Device :=
  let d := s.txDesc s.txHead
  if d.flags &&& descFlagOwn = 0 then (none, s)
  else
    (some (s.mem.bytes d.address.toNat d.length.toNat),
      { s with
        txDesc := Function.update s.txDesc s.txHead { d with flags := d.flags &&& ~~~descFlagOwn }
        txHead := nextDesc d s.txHead })

/-- The NIC stores a frame and gives the descriptor back, if it owns one.  It sets the other bits
of the two words as it likes. -/
def store (frame : List UInt8) (bits : UInt16 × UInt16) (s : Device) : Bool × Device :=
  let d := s.rxDesc s.rxHead
  if d.flags &&& descFlagOwn = 0 then (false, s)
  else
    (true,
      { s with
        mem := s.mem.putBytes d.address.toNat frame
        rxDesc := Function.update s.rxDesc s.rxHead
          { d with
            length := (UInt16.ofNat frame.length &&& descLengthMask)
              ||| (bits.1 &&& ~~~descLengthMask)
            flags := bits.2 &&& ~~~descFlagOwn }
        rxHead := nextDesc d s.rxHead })

/-! ### The init function -/

/-- The four blocks that `rtl_init` allocates. -/
structure Blocks where
  rxDesc : UInt64
  txDesc : UInt64
  rxBuffer : UInt64
  txBuffer : UInt64

/-- `sizeof(Descriptor)`. -/
def descSize : Nat := 16

/-- The sizes that `rtl_init` asks for. -/
def rxDescBytes : UInt64 := UInt64.ofNat (nRxDesc * descSize)
def txDescBytes : UInt64 := UInt64.ofNat (nTxDesc * descSize)
def rxBufferBytes : UInt64 := UInt64.ofNat (nRxDesc * bufferSize)
def txBufferBytes : UInt64 := UInt64.ofNat (nTxDesc * bufferSize)

/-- The first step of `rtl_init`, which fails with the first allocation that does. -/
def allocBlocks : DMA → Option Blocks × DMA :=
  DMA.withBlock rxDescBytes fun rxDesc =>
  DMA.withBlock txDescBytes fun txDesc =>
  DMA.withBlock rxBufferBytes fun rxBuffer =>
  DMA.withBlock txBufferBytes fun txBuffer dma =>
  (some ⟨rxDesc, txDesc, rxBuffer, txBuffer⟩, dma)

/-- A descriptor after `memset`. -/
def zeroDescriptor : Descriptor := ⟨0, 0, 0⟩

/-- The rings after `rtl_init`, which prepares the descriptors of the receive ring. -/
def start (blocks : Blocks) (mem : Mem) : Device :=
  (List.range nRxDesc).foldl (fun s i => prepareRx blocks.rxBuffer i s)
    { txIdx := 0, txDesc := fun _ => zeroDescriptor, mem
      rxIdx := 0, rxDesc := fun _ => zeroDescriptor, txHead := 0, rxHead := 0 }

end Realtek

/-- The functions of `realtek`. -/
def NetworkDriver.realtek (blocks : Realtek.Blocks) : NetworkDriver Realtek.Device where
  send pkt s :=
    let out := Realtek.send blocks.txBuffer (fun i => pkt.getD i 0) pkt.length s.toTxState
    (out.1, { s with toTxState := out.2 })
  receive := Realtek.receive blocks.rxBuffer
  flush := Realtek.flush

end JudgeDuck
