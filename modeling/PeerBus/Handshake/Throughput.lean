/-
# `PeerBus.Handshake.Throughput` — counting the bytes moved

Slots count four bytes each.  The product must be exact, and the sums stop at the largest word.
`megabytes` writes a count in units of 2^20 bytes without decimals; it first rounds the count to
the 53 bits that such figures carry, then to a whole number, in both cases to the nearest and
from the middle to the even side.
-/
import PeerBus.Arithmetic
import PeerBus.Layout

namespace PeerBus

/-- The bytes moved so far. -/
structure Throughput where
  written : UInt64 := 0
  read : UInt64 := 0
  deriving DecidableEq

namespace Throughput

instance : Inhabited Throughput := ⟨{}⟩

/-- Counts slots that were written. -/
def recordWrites (t : Throughput) (slots : UInt64) : Except Overflow Throughput :=
  (Word.mul slots Layout.slotSize).map fun bytes =>
    { t with written := Word.saturatingAdd t.written bytes }

/-- Counts slots that were read. -/
def recordReads (t : Throughput) (slots : UInt64) : Except Overflow Throughput :=
  (Word.mul slots Layout.slotSize).map fun bytes =>
    { t with read := Word.saturatingAdd t.read bytes }

/-! ## Figures -/

/-- The quotient rounded to the nearest whole number, the middle to the even side. -/
def roundDiv (num den : Nat) : Nat :=
  let quotient := num / den
  let rest := 2 * (num % den)
  if den < rest then quotient + 1
  else if rest = den then quotient + quotient % 2
  else quotient

/-- The nearest number that 53 significant bits can hold. -/
def nearest53 (n : Nat) : Nat :=
  let unit := Nat.pow 2 (n.log2 - 52)
  roundDiv n unit * unit

/-- A count of bytes in units of 2^20. -/
def megabytes (bytes : UInt64) : String := toString (roundDiv (nearest53 bytes.toNat) 1048576)

/-- The text that shows both counts. -/
def describe (t : Throughput) : String :=
  s!"read {megabytes t.read} MB, written {megabytes t.written} MB"

/-- The rate of both directions together, in units of 2^20 bytes a second; zero for an interval
without length. -/
def rate (t : Throughput) (seconds : Float) : Float :=
  if seconds ≤ 0.0 then 0.0
  else (Word.saturatingAdd t.written t.read).toFloat / 1048576.0 / seconds

end Throughput

end PeerBus
