/-
`lib/syslog.cpp`: the log of the kernel.

A ring of characters with one slot that stays free; the oldest character goes when there
is no room for a new one.  The screen replays the log when it starts
(`lib/framebuffer.cpp`).  No sum here leaves the range of `int`.
-/
import Mathlib

namespace JudgeDuck.SysLogRing

def maxLogLen : Int := 32768

/-- The static variables. -/
structure State where
  buffer : Nat → UInt8
  head : Int
  tail : Int

def init (s : State) : State := { s with head := 0, tail := 0 }

def putchar (c : UInt8) (s : State) : State :=
  let buffer := Function.update s.buffer s.tail.toNat c
  let tail := (s.tail + 1).tmod maxLogLen
  if tail = s.head then ⟨buffer, (s.head + 1).tmod maxLogLen, tail⟩
  else ⟨buffer, s.head, tail⟩

/-- The result, and the characters that are put into `buf`. -/
def get (start len : Int) (s : State) : Int × List UInt8 :=
  let bufLen := (s.tail - s.head + maxLogLen).tmod maxLogLen
  let start := if start < 0 then bufLen + start else start
  let start := if start < 0 then 0 else start
  let start := if start > bufLen then bufLen else start
  let len := if len > bufLen - start then bufLen - start else len
  (len, (List.range len.toNat).map fun i : Nat =>
    s.buffer ((s.head + start + i).tmod maxLogLen).toNat)

/-- The loop of `FrameBuffer::init`: the characters that are written to the screen, in order. -/
def replay (s : State) : Nat → Int → Option (List UInt8)
  | 0, _ => none
  | fuel + 1, offset =>
    let r := get offset 32 s
    if r.1 = 0 then some []
    else (replay s fuel (offset + r.1)).map (r.2 ++ ·)

end JudgeDuck.SysLogRing
