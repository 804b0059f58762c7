/-
# `PeerBus.Handshake.Config` — settings of a handshake

The waits of a role may be bounded by a timeout.  A timeout under one second is waited out; a
longer one, like none at all, outlasts everything that happens meanwhile.
-/
namespace PeerBus

/-- A span of time, in seconds and nanoseconds. -/
structure Timeout where
  seconds : UInt64
  nanoseconds : UInt32
  deriving DecidableEq

namespace Timeout

/-- The whole span in nanoseconds. -/
def total (t : Timeout) : Nat := t.seconds.toNat * 1000000000 + t.nanoseconds.toNat

/-- Whether the deadline has passed as soon as the wait begins. -/
def isOver (t : Timeout) : Bool := t.total = 0

/-- Whether a wait with this timeout is waited out. -/
def isShort (t : Timeout) : Bool := t.total < 1000000000

end Timeout

/-- The settings of a role. -/
structure Config where
  /-- The passes over the slots in each round. -/
  passes : UInt32 := 500
  /-- The rounds after which a client ends the session, if any. -/
  rounds : Option UInt64 := none
  /-- The bound on every wait, if any. -/
  timeout : Option Timeout := none

namespace Config

instance : Inhabited Config := ⟨{}⟩

/-- Whether this many rounds are enough. -/
def isEnough (c : Config) (rounds : Nat) : Bool :=
  match c.rounds with
  | some limit => limit.toNat ≤ rounds
  | none => false

end Config

end PeerBus
