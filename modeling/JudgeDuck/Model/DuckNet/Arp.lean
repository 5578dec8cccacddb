/-
`ducknet/lib/utils.cpp` and the tables of `ducknet/lib/arp.cpp`.

Both tables of ARP are arrays sorted by IP address, and all three functions that
search them use one loop; here it is `tableSearch`, generic in the entries.  The
sweep and the expiry compare with `ducknet_currenttime`, the last value that
`ducknet_gettime` returned.
-/
import JudgeDuck.Base.Mem
import JudgeDuck.Base.Search

namespace JudgeDuck

namespace DuckNet

/-! ### Time -/

/-- What `ducknet_gettime` stores on x86-64 at tick `t` of the TSC: the constraint `=A` on a 64-bit
operand binds `rax`, which `rdtsc` fills with the low 32 bits. -/
def gettime (t : Nat) : UInt64 := UInt64.ofNat (t % 2 ^ 32)

/-- `mul_div`. -/
def mulDiv (a b d : UInt64) : UInt64 :=
  let x := a / d
  let y := a % d
  let u := b / d
  let v := b % d
  x * u * d + x * v + y * u + y * v / d

/-- `ducknet_time_add_ms`. -/
def timeAddMs (tscFreq t ms : UInt64) : UInt64 := t + mulDiv ms tscFreq 1000

/-- `ducknet_time_to_ns`. -/
def timeToNs (tscFreq t : UInt64) : UInt64 := mulDiv t 1000000000 tscFreq

/-- `idle_delay` of both modules, 0.1 ms. -/
def idleDelay (tscFreq : UInt64) : UInt64 := tscFreq * 100 / 1000 / 1000

/-! ### Sorted tables -/

/-- `ARP_TABLE_SIZE`. -/
def arpTableSize : Nat := 100

section Table

variable {α : Type} (key : α → UInt32)

/-- The loop `while (l < r)` over `[0, n - 1]`, and its `l`. -/
def tableSearch (table : List α) (ip : UInt32) : Nat :=
  Search.bisect (fun i => (table[i]?).any fun e => key e < ip) 0 (table.length - 1)

/-- The entry at `l`, unless `l >= n || table[l].ip.addr != ip.addr`. -/
def tableFind (table : List α) (ip : UInt32) : Option α :=
  (table[tableSearch key table ip]?).filter fun e => key e = ip

/-- Store an entry at `l`, after a `memmove` that makes room when there is none for this address;
`none` is a full table. -/
def tablePut (table : List α) (ip : UInt32) (e : α) : Option (List α) :=
  if (tableFind key table ip).isSome then some (table.set (tableSearch key table ip) e)
  else if table.length = arpTableSize then none
  else some (table.insertIdx (tableSearch key table ip) e)

/-- The loop of a sweep. -/
def tableSweep (expireTime : α → UInt64) (now : UInt64) (table : List α) : List α :=
  table.filter fun e => ¬now > expireTime e

end Table

/-! ### ARP -/

structure MACAddress where
  a0 : UInt8
  a1 : UInt8
  a2 : UInt8
  a3 : UInt8
  a4 : UInt8
  a5 : UInt8
deriving DecidableEq

def MACAddress.bytes (m : MACAddress) : List UInt8 := [m.a0, m.a1, m.a2, m.a3, m.a4, m.a5]

structure ArpEntry where
  ip : UInt32
  mac : MACAddress
  expireTime : UInt64
deriving DecidableEq

structure ArpQuery where
  ip : UInt32
  expireTime : UInt64
deriving DecidableEq

def arpExpireTimeoutMs : UInt64 := 30000
def arpQueryTimeoutMs : UInt64 := 1000

/-- The static variables of `arp.cpp`. -/
structure Arp where
  table : List ArpEntry
  queryTable : List ArpQuery
  lastIdleTime : UInt64
  idleDelay : UInt64
  cnt : Nat

/-- `ducknet_arp_init`. -/
def arpInit (tscFreq now : UInt64) : Arp := ⟨[], [], now, idleDelay tscFreq, 0⟩

/-- `ducknet_arp_update`. -/
def arpUpdate (tscFreq now : UInt64) (ip : UInt32) (mac : MACAddress) (s : Arp) : Int × Arp :=
  let e := { ip, mac, expireTime := timeAddMs tscFreq now arpExpireTimeoutMs }
  match tablePut ArpEntry.ip s.table ip e with
  | none => (-1, s)
  | some table => (0, { s with table })

/-- `ducknet_arp_lookup`. -/
def arpLookup (ip : UInt32) (s : Arp) : Option MACAddress :=
  (tableFind ArpEntry.ip s.table ip).map ArpEntry.mac

/-- Whether this call of `ducknet_arp_idle` sweeps. -/
def arpIdleDue (now : UInt64) (s : Arp) : Bool :=
  ¬(s.cnt + 1 < 128 ∧ now - s.lastIdleTime ≤ s.idleDelay)

/-- `ducknet_arp_idle`. -/
def arpIdle (now : UInt64) (s : Arp) : Arp :=
  if arpIdleDue now s then
    { s with
      table := tableSweep ArpEntry.expireTime now s.table
      queryTable := tableSweep ArpQuery.expireTime now s.queryTable
      lastIdleTime := now
      cnt := 0 }
  else { s with cnt := s.cnt + 1 }

/-- `ducknet_arp_query` up to the request: whether one is to be sent, -1 for a full table and 0 for
a query that is pending. -/
def arpQuery (tscFreq now : UInt64) (ip : UInt32) (s : Arp) : Except Int Unit × Arp :=
  if (tableFind ArpQuery.ip s.queryTable ip).isSome then (.error 0, s)
  else
    let q := { ip, expireTime := timeAddMs tscFreq now arpQueryTimeoutMs }
    match tablePut ArpQuery.ip s.queryTable ip q with
    | none => (.error (-1), s)
    | some queryTable => (.ok (), { s with queryTable })

end DuckNet

end JudgeDuck
