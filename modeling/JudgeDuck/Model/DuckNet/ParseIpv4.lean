/-
`ducknet/lib/ipv4.cpp`: addresses as text.
-/
import Mathlib

namespace JudgeDuck.DuckNet

/-- The characters before the NUL. -/
structure CString where
  chars : List UInt8
  noNul : 0 ∉ chars

/-- The bytes of a `DucknetIPv4Address`, in memory order. -/
structure IPv4Bytes where
  a0 : UInt8
  a1 : UInt8
  a2 : UInt8
  a3 : UInt8
deriving DecidableEq

/-- The local variables of the second loop. -/
structure ParseState where
  a : Nat → UInt8
  idx : Nat
  hasNum : Bool

/-- One round of the second loop. -/
def parseStep (st : ParseState) (c : UInt8) : Option ParseState :=
  if c = 46 then
    if !st.hasNum then none
    else some { st with idx := st.idx + 1, hasNum := false }
  else if c < 48 ∨ c > 57 then none
  else if (st.a st.idx).toNat * 10 + c.toNat - 48 > 255 then none
  else some
    { st with a := Function.update st.a st.idx (st.a st.idx * 10 + c - 48), hasNum := true }

/-- The characters that the loops go through; the length is an `int`. -/
def scanned (s : CString) : List UInt8 :=
  let len : Int32 := (UInt32.ofNat s.chars.length).toInt32
  s.chars.take len.toInt.toNat

/-- `ducknet_parse_ipv4`: the result, and `*addr` after it. -/
def parseIpv4 (s : CString) (addr : IPv4Bytes) : Int32 × IPv4Bytes :=
  if (scanned s).count 46 ≠ 3 then (-1, addr)
  else
    match (scanned s).foldlM parseStep ⟨fun _ => 0, 0, false⟩ with
    | none => (-1, addr)
    | some st => (0, ⟨st.a 3, st.a 2, st.a 1, st.a 0⟩)

end JudgeDuck.DuckNet
