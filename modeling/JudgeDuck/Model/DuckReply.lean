/-
`kern/duck_server.cpp`: the answers.

A handler scans the content, asks the rest of the kernel, and prints its answer over
the content or into a buffer of its own.  The state is the rest of the kernel with
the list of all writes so far; a buffer is known by its size, since the texts that
are printed do not depend on what was in it.  `none` is a call that does not return.
-/
import JudgeDuck.Base.Format
import JudgeDuck.Model.DuckServer
import JudgeDuck.Model.Judger

namespace JudgeDuck

/-- `lib/syslog.cpp`: a ring of characters; every index is taken modulo its size. -/
structure SysLog where
  head : Fin 32768
  tail : Fin 32768

namespace SysLog

def maxLogLen : Int := 32768

/-- `get`: how many characters are copied. -/
def get (log : SysLog) (start len : Int) : Int :=
  let bufLen := ((log.tail : Int) - log.head + maxLogLen).tmod maxLogLen
  let start := if start < 0 then bufLen + start else start
  let start := if start < 0 then 0 else start
  let start := if start > bufLen then bufLen else start
  if len > bufLen - start then bufLen - start else len

end SysLog

namespace DuckReply

open Format DuckServer

/-! ### Buffers -/

inductive Buf where
  | content
  | tmpQuery
  | qRes
  | cacheName
  | tmp
  | resStr
deriving DecidableEq

/-- Where the content starts in the packet: after the three headers. -/
def contentOffset : Nat := 42

def Buf.size : Buf → Nat
  | .content => pktSize - contentOffset
  | .tmpQuery | .qRes | .cacheName | .tmp => 2048
  | .resStr => 1024

structure Write where
  buf : Buf
  off : Nat
  len : Nat

/-- The rest of the kernel, as far as an answer depends on it.  `clockMHz` is what `%.5lf` prints
for `clk_thread / (double) clk_ref_tsc * tsc_MHz`. -/
structure World where
  judger : Judger
  timer : TimerConfig
  outcome : JudgeRequest → Outcome
  tsc : UInt64
  uptime : UInt64
  temperatureTarget : UInt64
  thermStatus : UInt64
  cpuModelName : List UInt8
  microcodeOrigRev : UInt32
  microcodeRev : UInt32
  log : SysLog
  extFreq : UInt64
  clockMHz : UInt64 → UInt64 → UInt64 → List UInt8

structure State where
  world : World
  writes : List Write

abbrev ReplyM := StateT State Option

def write (buf : Buf) (off len : Nat) : ReplyM Unit :=
  modify fun s => { s with writes := s.writes ++ [⟨buf, off, len⟩] }

def world : ReplyM World := do
  return (← get).world

/-- A call of the judge. -/
def judger {α : Type} (f : Judger → Option (α × Judger)) : ReplyM α := fun s =>
  (f s.world.judger).map fun r => (r.1, { s with world := { s.world with judger := r.2 } })

/-- `sprintf` writes the text with a NUL and returns the length of the text. -/
def sprintf (buf : Buf) (text : List UInt8) : ReplyM Nat := do
  write buf 0 (text.length + 1)
  return text.length

/-- `snprintf` writes no more than `size` bytes, and still returns the length of the text. -/
def snprintf (buf : Buf) (size : Nat) (text : List UInt8) : ReplyM Nat := do
  write buf 0 (min (text.length + 1) size)
  return text.length

/-- Words are converted into `q_cache_name`, which is the only one. -/
def storeWords : List Arg → ReplyM Unit
  | [] => pure ()
  | .string word :: args => do
    write .cacheName 0 (word.length + 1)
    storeWords args
  | .number _ :: args => storeWords args
  | .integer _ :: args => storeWords args

/-- `sscanf` on the content up to its first NUL. -/
def sscanf (content : List UInt8) (format : String) : ReplyM (List Arg) := do
  let args := scan (directives (ascii format)) (content.takeWhile (· ≠ 0))
  storeWords args
  return args

/-- The commands with a hash in their last 64 bytes. -/
def sscanfLong (content : List UInt8) (format : String) : ReplyM (List Arg) :=
  if content.length > 64 then sscanf content format else return []

/-! ### Handlers -/

/-- `res` and `res_len`. -/
structure Reply where
  buf : Buf
  len : Int

/-- `none` when the handler does not claim the content; a handler can claim it without an answer. -/
abbrev Claimed := Option (Option Reply)

/-- The answer is printed over the content. -/
def reply (buf : Buf) (text : List UInt8) : ReplyM Claimed := do
  let n ← sprintf buf text
  return some (some ⟨buf, n⟩)

/-- The answer of a command that can fail. -/
def replyIf (ok : Bool) (buf : Buf) (text : List UInt8) : ReplyM Claimed :=
  if ok then reply buf text else return some none

/-- `Utils::extract_bits`. -/
def extractBits (x hi lo : UInt64) : UInt64 :=
  (x <<< (63 - hi)) >>> (lo + 63 - hi)

/-- `process_controls`. -/
def processControls (buf : Buf) (content : List UInt8) : ReplyM Claimed := do
  write buf content.length 1
  let w ← world
  if content = ascii "uptime" then reply buf (ascii "uptime " ++ lu w.uptime)
  else if content = ascii "statistics" then
    reply buf
      (ascii "statistics " ++ lu w.judger.nJudges ++ ascii " " ++ lu w.judger.totalTimeNs)
  else if content = ascii "cpu-temp" then
    reply buf (ascii "cpu-temp " ++
      lu (extractBits w.temperatureTarget 23 16 - extractBits w.thermStatus 22 16))
  else if content = ascii "cpu-model-name" then
    reply buf (ascii "cpu-model-name " ++ w.cpuModelName)
  else if content = ascii "sysinfo" then
    reply buf (ascii "microcode-orig-rev = 0x" ++ x02 w.microcodeOrigRev ++
      ascii "\nmicrocode-current-rev = 0x" ++ x02 w.microcodeRev ++ ascii "\n")
  else do
    let args ← sscanf content "syslog %d %d"
    match args with
    | [.integer start, .integer len] =>
      if len ≥ 0 ∧ len ≤ 1400 then do
        let n := w.log.get start len
        write buf 0 n.toNat
        return some (some ⟨buf, n⟩)
      else return some none
    | _ => return none

/-- `MAX_QUERY_LEN`. -/
def maxQueryLen : UInt64 := 1400

/-- `write-buffer`: an offset and the data. -/
def processWrite (content : List UInt8) : ReplyM Claimed := do
  let tmpLen := (ascii "write-buffer").length
  let dataLen := UInt64.ofNat content.length - UInt64.ofNat tmpLen
  if dataLen < 8 then return some none
  else do
    let off := Mem.read64 (fun i => content.getD i 0) tmpLen
    let len := dataLen - 8
    let ok ← judger fun s =>
      some (Judger.writeBuffer off (fun i => content.getD (tmpLen + 8 + i) 0) len s)
    replyIf ok .content (ascii "ok-write-buffer " ++ lu off ++ ascii " " ++ lu len)

/-- The last two commands of `process_data`. -/
def processTwo (content : List UInt8) : ReplyM Claimed := do
  let args ← sscanf content "copy-buffer %lu %lu %lu"
  match args with
  | [.number off, .number off2, .number len] => do
    let ok ← judger fun s => some (Judger.copyBuffer off off2 len s)
    replyIf ok .content
      (ascii "ok-copy-buffer " ++ lu off ++ ascii " " ++ lu off2 ++ ascii " " ++ lu len)
  | _ => do
    let args ← sscanf content "compare-buffer %lu %lu %lu"
    match args with
    | [.number off, .number off2, .number len] => do
      let w ← world
      match Judger.compareBuffer off off2 len w.judger with
      | some result =>
        reply .content (ascii "ok-compare-buffer " ++ lu off ++ ascii " " ++ lu off2 ++ ascii " " ++
          lu len ++ ascii " " ++ lu (if result then 1 else 0))
      | none => return some none
    | _ => return none

/-- `read-buffer`: the text, the offset and the data. -/
def processRead (off len : UInt64) : ReplyM Claimed := do
  if len > maxQueryLen then return some none
  else do
    let w ← world
    match Judger.readBuffer off len w.judger with
    | some _ => do
      write .qRes 0 len.toNat
      let n ← sprintf .content (ascii "ok-read-buffer")
      write .content n 8
      write .content (n + 8) len.toNat
      return some (some ⟨.content, n + 8 + len.toNat⟩)
    | none => return some none

/-- `process_data`. -/
def processData (content : List UInt8) : ReplyM Claimed := do
  write .content content.length 1
  if content = ascii "query-buffer-size" then do
    let w ← world
    reply .content (ascii "ok-query-buffer-size " ++ lu w.judger.bufferSize)
  else do
    let args ← sscanf content "clear-buffer %lu %lu"
    match args with
    | [.number off, .number len] => do
      let ok ← judger fun s => some (Judger.clearBuffer off len s)
      replyIf ok .content (ascii "ok-clear-buffer " ++ lu off ++ ascii " " ++ lu len)
    | _ => do
      let args ← sscanf content "read-buffer %lu %lu"
      match args with
      | [.number off, .number len] => processRead off len
      | _ =>
        if (ascii "write-buffer").isPrefixOf content then processWrite content
        else processTwo content

/-- The answer to a request that was not executed or failed. -/
def failedText (error : String) : List UInt8 :=
  ascii "ok-judge\nJudge Failed\n" ++ ascii error ++ ascii "\n"

/-- The answer to a request that was executed. -/
def resultText (w : World) (r : JudgeResult) : List UInt8 :=
  let tscMHz := w.timer.tscFreq / 1000000
  let extMHz := w.extFreq / 1000000
  let clockMHz :=
    if r.clkRefTsc ≠ 0 then w.clockMHz r.clkThread r.clkRefTsc tscMHz else ascii "0.00000"
  let status :=
    if r.isRE then "Runtime Error" else if r.isTLE then "Time Limit Exceeded" else "Run Finished"
  List.flatten [ascii "ok-judge\ncount-inst ", lu r.countInst, ascii "\nclk-thread ",
    lu r.clkThread,
    ascii "\nclk-ref-tsc ", lu r.clkRefTsc, ascii "\nclock-MHz ", clockMHz,
    ascii "\ntsc-MHz ", lu tscMHz, ascii "\next-MHz ", lu extMHz, ascii "\ntime-ns ", lu r.timeNs,
    ascii "\ntime-ns-ref-tsc ", lu r.timeNsRefTsc, ascii "\ntime-ns-real ", lu r.timeNsReal,
    ascii "\ntime-tsc ", lu r.timeTsc, ascii "\nmemory-kb ", lu r.memoryKb,
    ascii "\nmemory-kb-accessed ", lu r.memoryKbAccessed, ascii "\nstdout-size ", lu r.stdoutSize,
    ascii "\nstderr-size ", lu r.stderrSize, ascii "\nreturn-code ", d r.returnCode.toInt,
    ascii "\ntrap-num ", d r.trapNum.toNat, ascii "\ntrap-epc 0x", lx r.trapEpc,
    ascii "\ntrap-cr2 0x", lx r.trapCr2, ascii "\nstatus ", ascii status, ascii "\n"]

/-- `process_judge`. -/
def processJudge (content : List UInt8) : ReplyM Claimed := do
  write .content content.length 1
  let args ← sscanf content
    "judge %lu %lu %lu %lu %lu %lu %lu %lu %lu %lu %lu %lu %lu %lu %lu %lu"
  match args with
  | [.number seqNum, .number timeLimitNs, .number memoryHardLimitKb, .number elfOff, .number elfLen,
      .number stdinOff, .number stdinLen, .number stdoutOff, .number stdoutLen, .number stderrOff,
      .number stderrLen, .number ibOff, .number ibLen, .number obOff, .number obLen,
      .number obNeedClear] => do
    let req : JudgeRequest :=
      { seqNum, timeLimitNs, memoryHardLimitKb
        elf := ⟨elfOff, elfLen⟩
        stdin := ⟨stdinOff, stdinLen⟩
        stdout := ⟨stdoutOff, stdoutLen⟩
        stderr := ⟨stderrOff, stderrLen⟩
        ib := ⟨ibOff, ibLen⟩
        ob := ⟨obOff, obLen⟩
        obNeedClear }
    let w ← world
    let r ← judger (Judger.judge w.timer req (w.outcome req))
    let text := match r.error with
      | some error => failedText error
      | none => resultText w r
    let n ← snprintf .resStr 1024 text
    return some (some ⟨.resStr, n⟩)
  | _ => return none

/-- The name of a cache as a string. -/
def cacheName (word : List UInt8) : String :=
  String.ofList (word.map fun c => Char.ofNat c.toNat)

/-- `DuckCache::info`. -/
def info (c : DuckCache) : List UInt8 :=
  ascii "size " ++ lu (UInt64.ofNat c.cacheSize) ++ ascii ", n_objects " ++
    lu (UInt64.ofNat c.nCurObjects) ++ ascii " / " ++ lu (UInt64.ofNat c.nMaxObjects) ++
    ascii ", n_pages " ++ lu (UInt64.ofNat (c.nTotalPages - c.nFreePages)) ++ ascii " / " ++
    lu (UInt64.ofNat c.nTotalPages)

/-- `get_cache_info`. -/
def getCacheInfo (s : Judger) (word : List UInt8) : List UInt8 :=
  if word = ascii "elf" then info s.elfCache
  else if word = ascii "data" then info s.dataCache
  else ascii "no-such-cache"

/-- The name and the two numbers, after what was done. -/
def cacheText (done : String) (word : List UInt8) (off len : UInt64) : List UInt8 :=
  ascii done ++ word ++ ascii " " ++ lu off ++ ascii " " ++ lu len

/-- `info-cache`. -/
def processInfo (buf : Buf) (content : List UInt8) : ReplyM Claimed := do
  let args ← sscanf content "info-cache %s"
  match args with
  | [.string word] => do
    let w ← world
    let info := getCacheInfo w.judger word
    let _ ← sprintf .tmp info
    reply buf (ascii "info-cache " ++ word ++ ascii " " ++ info)
  | _ => return none

/-- `process_cache`. -/
def processCache (S : StdSort) (buf : Buf) (content : List UInt8) : ReplyM Claimed := do
  write buf content.length 1
  let w ← world
  let hex := fun i => content.getD (content.length - 64 + i) 0
  let args ← sscanfLong content "load-cache %s %lu %lu"
  match args with
  | [.string word, .number off, .number len] => do
    let ok ← judger (Judger.loadCache (cacheName word) off len hex w.tsc)
    reply buf (cacheText (if ok then "ok-load-cache " else "fail-load-cache ") word off len)
  | _ => do
    let args ← sscanfLong content "store-cache %s %lu %lu"
    match args with
    | [.string word, .number off, .number len] => do
      let ok ← judger (Judger.storeCache S (cacheName word) off len hex w.tsc)
      reply buf (cacheText (if ok then "ok-store-cache " else "fail-store-cache ") word off len)
    | _ => processInfo buf content

/-- `QUERY` and `APPEND_RESULT`; without an answer the copy is one of `res_len` = -1 bytes. -/
def query (process : Buf → List UInt8 → ReplyM Claimed) (s : String) (resLen : Nat) :
    ReplyM Nat := do
  let _ ← sprintf .tmpQuery (ascii s)
  let claimed ← process .tmpQuery (ascii s)
  let len := match claimed with
    | some (some r) => r.len.toNat
    | _ => 2 ^ 64 - 1
  write .content resLen len
  write .content (resLen + len) 1
  return resLen + len + 1

/-- `process_special`. -/
def processSpecial (S : StdSort) (content : List UInt8) : ReplyM Claimed := do
  write .content content.length 1
  if content = ascii "query-all" then do
    let n ← query processControls "uptime" 0
    let n ← query processControls "statistics" n
    let n ← query (processCache S) "info-cache elf" n
    let n ← query (processCache S) "info-cache data" n
    let n ← query processControls "cpu-temp" n
    let n ← query processControls "cpu-model-name" n
    return some (some ⟨.content, n⟩)
  else return none

/-- `process_controls(args) || ... || process_special(args)`. -/
def firstClaim (content : List UInt8) : List (List UInt8 → ReplyM Claimed) → ReplyM Claimed
  | [] => return none
  | process :: rest => do
    let claimed ← process content
    if claimed.isSome then return claimed else firstClaim content rest

/-- `duck_packet_handle` up to the send; `reboot` does not return. -/
def duckPacketHandle (S : StdSort) (content : List UInt8) : ReplyM Claimed :=
  if content = ascii "reboot" then failure
  else firstClaim content [processControls .content, processData, processJudge,
    processCache S .content, processSpecial S]

end DuckReply

end JudgeDuck
