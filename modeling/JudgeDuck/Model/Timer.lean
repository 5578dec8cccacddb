/-
`inc/timer.hpp`, `lib/lapic.cpp` and the timer interrupt of `kern/trap_entry.S`.

The periodic timer interrupts a program every half millisecond, as far as the counter of
the local APIC can tell.  The handler only counts down, until the last interrupt is
turned into a trap.
-/
import Mathlib

namespace JudgeDuck.Timer

/-- The common body of `tsc_to_ns` and `clk_to_ns`. -/
def ticksToNs (freq ticks : UInt64) : UInt64 :=
  let q := ticks / freq
  let r := ticks % freq
  q * 1000000000 + r * 1000000000 / freq

def tscToNs (tscFreq tsc : UInt64) : UInt64 := ticksToNs tscFreq tsc

def clkToNs (clkFreq clk : UInt64) : UInt64 := ticksToNs clkFreq clk

/-- `TIMER_EX`: the counter counts every tick. -/
def timerEx : Nat := 1

/-- The running timer: the initial count of the APIC, which it starts again from after every
interrupt, and `__lapic_timer_cnt`. -/
structure Periodic where
  ticr : UInt32
  cnt : UInt64
deriving DecidableEq

/-- `LAPIC::timer_periodic_ns`; the product has 128 bits, and `none` is the failed assert. -/
def timerPeriodicNs (extFreq : UInt32) (ns cnt : UInt64) : Option Periodic :=
  let toSet := UInt64.ofNat (ns.toNat * extFreq.toNat / (timerEx * 1000000000))
  if toSet < 4000000000 then some { ticr := toSet.toUInt32, cnt } else none

/-- `LAPIC::timer_single_shot_ns`: the initial count, or `none` for the failed assert. -/
def timerSingleShotNs (extFreq : UInt32) (ns : UInt64) : Option UInt32 :=
  let toSet := UInt64.ofNat (ns.toNat * extFreq.toNat / (timerEx * 1000000000))
  if toSet < 4000000000 then some toSet.toUInt32 else none

/-- The timer that `trap_handler` sets up for a limit other than 0. -/
def userTimer (extFreq : UInt32) (userTimeLimitNs : UInt64) : Option Periodic :=
  let timerCnt := userTimeLimitNs / 500000
  timerPeriodicNs extFreq 500000 (timerCnt + timerCnt / 100 + 20)

/-- `__trap_32`: the counter after an interrupt, or `none` when it becomes a trap. -/
def trap32 (cnt : UInt64) : Option UInt64 :=
  if cnt - 1 = 0 then none else some (cnt - 1)

/-- The counter after `k` interrupts, none of which was a trap. -/
def interrupts : Nat → UInt64 → Option UInt64
  | 0, cnt => some cnt
  | k + 1, cnt => (trap32 cnt).bind (interrupts k)

end JudgeDuck.Timer
