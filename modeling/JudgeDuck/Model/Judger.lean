/-
`kern/judger.cpp`: the judge buffer, the caches and the judge itself.

The buffer is a block of kernel memory, and every command names parts of it by a
64-bit offset and length that come from a client.  The result of the last judge is
kept together with the sequence number of its request until the buffer changes.
`none` is a call that does not return.
-/
import JudgeDuck.Model.DuckCache
import JudgeDuck.Model.Elf

namespace JudgeDuck

open Memory

structure BufferDesc where
  off : UInt64
  len : UInt64
deriving DecidableEq

structure JudgeRequest where
  seqNum : UInt64
  timeLimitNs : UInt64
  memoryHardLimitKb : UInt64
  elf : BufferDesc
  stdin : BufferDesc
  stdout : BufferDesc
  stderr : BufferDesc
  ib : BufferDesc
  ob : BufferDesc
  obNeedClear : UInt64

/-- `error` is the null pointer after a run. -/
structure JudgeResult where
  error : Option String
  countInst : UInt64
  clkThread : UInt64
  clkRefTsc : UInt64
  timeNs : UInt64
  timeNsRefTsc : UInt64
  timeNsReal : UInt64
  timeTsc : UInt64
  memoryKb : UInt64
  memoryKbAccessed : UInt64
  stdoutSize : UInt64
  stderrSize : UInt64
  returnCode : Int32
  trapNum : UInt8
  trapEpc : UInt64
  trapCr2 : UInt64
  isRE : Bool
  isTLE : Bool
deriving DecidableEq

/-- What a run depends on apart from the machine: what the program does, the performance counters
and the trap that ended it. -/
structure Outcome where
  accesses : List Elf.Access
  countInst : UInt64
  clkThread : UInt64
  clkRefTsc : UInt64
  timeTsc : UInt64
  trapNum : UInt8
  returnCode : Int32
  trapEpc : UInt64
  trapCr2 : UInt64

/-- `Timer`: the frequency of the TSC and the conversions to nanoseconds. -/
structure TimerConfig where
  tscFreq : UInt64
  clkToNs : UInt64 → UInt64
  tscToNs : UInt64 → UInt64

/-- The static variables of the module, and the machine. -/
structure Judger where
  nJudges : UInt64
  totalTimeNs : UInt64
  buffer : UInt64
  bufferSize : UInt64
  elfCache : DuckCache
  dataCache : DuckCache
  judgeSeqNum : UInt64
  judgeResult : JudgeResult
  judgeResultCleared : Bool
  machine : Machine

namespace Judger

def mem (s : Judger) : Mem := s.machine.mem

def setMem (s : Judger) (mem : Mem) : Judger := { s with machine := { s.machine with mem } }

/-- The address of an offset; nothing checks that it lies in the buffer. -/
def addr (s : Judger) (off : UInt64) : Nat := (s.buffer + off).toNat

/-- What is kept when there is no result. -/
def notJudged : JudgeResult where
  error := some "Not Judged"
  countInst := 0
  clkThread := 0
  clkRefTsc := 0
  timeNs := 0
  timeNsRefTsc := 0
  timeNsReal := 0
  timeTsc := 0
  memoryKb := 0
  memoryKbAccessed := 0
  stdoutSize := 0
  stderrSize := 0
  returnCode := 0
  trapNum := 0
  trapEpc := 0
  trapCr2 := 0
  isRE := false
  isTLE := false

/-- `clear_judge_result`. -/
def clearJudgeResult (s : Judger) : Judger :=
  if s.judgeResultCleared then s
  else { s with judgeResultCleared := true, judgeSeqNum := -1, judgeResult := notJudged }

/-! ### `init` -/

def elfCacheN : UInt64 := 1000
def dataCacheN : UInt64 := 100000

/-- `BUFFER_CACHE_SIZES` without the zeros at its end: the buffer and both caches in MiB. -/
def bufferCacheSizes : List (UInt64 × UInt64 × UInt64) :=
  [(3072, 256, 8192), (3072, 256, 6144), (3072, 256, 4096), (2048, 256, 4096), (2048, 256, 3072),
    (1536, 256, 3072), (1536, 256, 2048), (1536, 256, 1536), (1024, 256, 1536), (1024, 256, 1024),
    (512, 256, 1024), (512, 256, 512), (512, 256, 256)]

/-- The first sizes that leave room for a program of 3 GiB, or the smallest ones; in bytes. -/
def chooseSizes (vaddrBreak : UInt64) : UInt64 × UInt64 × UInt64 :=
  let bytes := bufferCacheSizes.map fun x =>
    (x.1 <<< (20 : UInt64), x.2.1 <<< (20 : UInt64), x.2.2 <<< (20 : UInt64))
  (bytes.find? fun x =>
    canAllocateVirtualMemory vaddrBreak
      (x.1 + x.2.1 + x.2.2 + (3072 : UInt64) <<< (20 : UInt64))).getD
    (536870912, 268435456, 268435456)

/-- `init`; `none` is a reboot. -/
def init (machine : Machine) : Option Judger := do
  let (bufferSize, elfCacheSize, dataCacheSize) := chooseSizes machine.vaddrBreak
  let buffer ← allocateVirtualMemory machine.vaddrBreak bufferSize
  let mem := machine.mem.memset buffer.toNat 0 bufferSize.toNat
  let (elfCache, mem, vaddrBreak) ← (DuckCache.init elfCacheN elfCacheSize mem buffer).toOption
  let (dataCache, mem, vaddrBreak) ←
    (DuckCache.init dataCacheN dataCacheSize mem vaddrBreak).toOption
  some
    { nJudges := 0
      totalTimeNs := 0
      buffer
      bufferSize
      elfCache
      dataCache
      judgeSeqNum := -1
      judgeResult := notJudged
      judgeResultCleared := true
      machine := { machine with mem, vaddrBreak } }

/-! ### The buffer -/

/-- `off < buffer_size && len <= buffer_size - off`. -/
def inRange (s : Judger) (off len : UInt64) : Bool :=
  off < s.bufferSize ∧ len ≤ s.bufferSize - off

def clearBuffer (off len : UInt64) (s : Judger) : Bool × Judger :=
  if s.inRange off len then
    (true, (s.setMem (s.mem.memset (s.addr off) 0 len.toNat)).clearJudgeResult)
  else (false, s)

/-- The bytes that are copied to the caller. -/
def readBuffer (off len : UInt64) (s : Judger) : Option (List UInt8) :=
  if s.inRange off len then some (s.mem.bytes (s.addr off) len.toNat) else none

def writeBuffer (off : UInt64) (data : Nat → UInt8) (len : UInt64) (s : Judger) : Bool × Judger :=
  if s.inRange off len then
    (true, (s.setMem (s.mem.put (s.addr off) len.toNat data)).clearJudgeResult)
  else (false, s)

def copyBuffer (dstOff srcOff len : UInt64) (s : Judger) : Bool × Judger :=
  let noOverlap := dstOff + len ≤ srcOff ∨ srcOff + len ≤ dstOff
  if s.inRange dstOff len ∧ s.inRange srcOff len ∧ noOverlap then
    (true, (s.setMem (s.mem.memcpy (s.addr dstOff) (s.addr srcOff) len.toNat)).clearJudgeResult)
  else (false, s)

/-- Whether the two parts are equal. -/
def compareBuffer (off1 off2 len : UInt64) (s : Judger) : Option Bool :=
  if s.inRange off1 len ∧ s.inRange off2 len then
    some (s.mem.bytes (s.addr off1) len.toNat = s.mem.bytes (s.addr off2) len.toNat)
  else none

/-! ### The caches -/

/-- `load_cache`; `tsc` is what `Timer::tsc_since_epoch` returns when it is called. -/
def loadCache (cacheName : String) (dstOff dstLen : UInt64) (hex : Nat → UInt8) (tsc : UInt64)
    (s : Judger) : Option (Bool × Judger) :=
  match digestFromHex hex with
  | none => some (false, s)
  | some digest =>
    let finish (r : Bool × Mem) : Bool × Judger :=
      (r.1, if r.1 then (s.setMem r.2).clearJudgeResult else s.setMem r.2)
    if cacheName = "elf" then
      (s.elfCache.load s.mem digest (s.addr dstOff) dstLen tsc).map finish
    else if cacheName = "data" then
      (s.dataCache.load s.mem digest (s.addr dstOff) dstLen tsc).map finish
    else some (false, s)

/-- `store_cache`. -/
def storeCache (S : StdSort) (cacheName : String) (srcOff srcLen : UInt64) (hex : Nat → UInt8)
    (tsc : UInt64) (s : Judger) : Option (Bool × Judger) :=
  match digestFromHex hex with
  | none => some (false, s)
  | some digest =>
    if cacheName = "elf" then
      (s.elfCache.store S s.mem digest (s.addr srcOff) srcLen tsc).map fun r =>
        (r.1, { s.setMem r.2.2 with elfCache := r.2.1 })
    else if cacheName = "data" then
      (s.dataCache.store S s.mem digest (s.addr srcOff) srcLen tsc).map fun r =>
        (r.1, { s.setMem r.2.2 with dataCache := r.2.1 })
    else some (false, s)

/-! ### The judge -/

/-- A result with the given error; the other fields keep what is in them. -/
def fail (error : String) (s : Judger) : JudgeResult × Judger :=
  let r := { s.judgeResult with error := some error }
  (r, { s with judgeResult := r })

def canNotLoadElf : Judger → JudgeResult × Judger := fail "Can't load ELF"

def invalidTimeLimit : Judger → JudgeResult × Judger := fail "Invalid time limit"

def isValidBuffer (s : Judger) (b : BufferDesc) : Bool := s.inRange b.off b.len

def checkOverlap (b1 b2 : BufferDesc) : Bool :=
  ¬(b1.off + b1.len ≤ b2.off ∨ b2.off + b2.len ≤ b1.off)

/-- The two loops, with the buffers that come before. -/
def checkBuffers (s : Judger) : List BufferDesc → List BufferDesc → Bool
  | _, [] => true
  | before, b :: bs =>
    s.isValidBuffer b && before.all (fun b' => !checkOverlap b b') && checkBuffers s
      (before ++ [b]) bs

end Judger

/-- The six descriptors in the order in which they are checked. -/
def JudgeRequest.buffers (req : JudgeRequest) : List BufferDesc :=
  [req.elf, req.stdin, req.stdout, req.stderr, req.ib, req.ob]

/-- `MAX_TIME_LIMIT_NS`. -/
def maxTimeLimitNs : UInt64 := 500000000000

namespace Judger

/-- The configuration of the loader; the buffers that a program reads are read by the loader. -/
def appConfig (req : JudgeRequest) (s : Judger) : Elf.AppConfig where
  memoryHardLimit := req.memoryHardLimitKb * 1024
  stdinPtr i := s.mem (s.addr req.stdin.off + i)
  stdinSize := req.stdin.len
  stdoutMaxSize := req.stdout.len
  stderrMaxSize := req.stderr.len
  ibPtr i := s.mem (s.addr req.ib.off + i)
  ibSize := req.ib.len
  obPtr i := s.mem (s.addr req.ob.off + i)
  obSize := req.ob.len
  obNeedClear := req.obNeedClear ≠ 0

/-- The result of a run, before the time limit is looked at. -/
def runResult (t : TimerConfig) (o : Outcome) (res : Elf.RunOutput) : JudgeResult where
  error := none
  countInst := o.countInst
  clkThread := o.clkThread
  clkRefTsc := o.clkRefTsc
  timeNs := t.clkToNs o.clkThread
  timeNsRefTsc := t.tscToNs o.clkRefTsc
  timeNsReal := t.tscToNs o.timeTsc
  timeTsc := o.timeTsc
  memoryKb := res.memoryKb
  memoryKbAccessed := res.memoryKbAccessed
  stdoutSize := res.stdoutSize
  stderrSize := res.stderrSize
  returnCode := o.returnCode
  trapNum := o.trapNum
  trapEpc := o.trapEpc
  trapCr2 := o.trapCr2
  isRE := o.trapNum ≠ 255
  isTLE := o.trapNum = 32

/-- A program that took too long gets the limit as its time. -/
def limitTime (req : JudgeRequest) (r : JudgeResult) : JudgeResult :=
  if r.timeNs > req.timeLimitNs ∨ r.isTLE then
    { r with isRE := false, isTLE := true, timeNs := req.timeLimitNs }
  else r

/-- The three copies from the program's memory to the buffer. -/
def copyOutputs (req : JudgeRequest) (res : Elf.RunOutput) (s : Judger) (m : Mem) : Mem :=
  let m := m.memcpy (s.addr req.stdout.off) res.stdoutPtr.toNat res.stdoutSize.toNat
  let m := m.memcpy (s.addr req.stderr.off) res.stderrPtr.toNat res.stderrSize.toNat
  m.memcpy (s.addr req.ob.off) res.obPtr.toNat req.ob.len.toNat

/-- Load and run a program that passed the checks. -/
def execute (t : TimerConfig) (req : JudgeRequest) (o : Outcome) (s : Judger) :
    Option (JudgeResult × Judger) :=
  match Elf.load (fun i => s.mem (s.addr req.elf.off + i)) req.elf.len.toUInt32 (s.appConfig req)
      t.tscFreq s.machine.vaddrBreak with
  | none => some s.canNotLoadElf
  | some (app, effects) =>
    (Elf.exec effects s.machine).bind fun machine =>
      (Elf.run app o.accesses machine).map fun (res, machine) =>
        let r := limitTime req (runResult t o res)
        (r, { s with
              judgeResult := r
              machine := { machine with mem := s.copyOutputs req res machine.mem }
              totalTimeNs := s.totalTimeNs + r.timeNs })

/-- A request that is not answered from the last result. -/
def judgeAfresh (t : TimerConfig) (req : JudgeRequest) (o : Outcome) (s : Judger) :
    Option (JudgeResult × Judger) :=
  let s := { s with
    nJudges := s.nJudges + 1
    judgeResultCleared := false
    judgeSeqNum := req.seqNum }
  if req.memoryHardLimitKb * 1024 < req.memoryHardLimitKb then some s.canNotLoadElf
  else if ¬s.checkBuffers [] req.buffers then some s.canNotLoadElf
  else if req.timeLimitNs = 0 ∨ req.timeLimitNs > maxTimeLimitNs then some s.invalidTimeLimit
  else s.execute t req o

/-- `judge`. -/
def judge (t : TimerConfig) (req : JudgeRequest) (o : Outcome) (s : Judger) :
    Option (JudgeResult × Judger) :=
  if req.seqNum = s.judgeSeqNum then some (s.judgeResult, s) else s.judgeAfresh t req o

end Judger

end JudgeDuck
