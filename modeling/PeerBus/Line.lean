/-
# `PeerBus.Line` — interrupt lines

A line keeps its registrations in the order in which they were made and numbers them from one.
It says who is to be told of an interrupt; telling them is the machine's work, since handlers
act on the machine.
-/
import PeerBus.Table

namespace PeerBus

/-- Who is told of an interrupt. -/
inductive Handler where
  /-- The dispatcher of a device. -/
  | device (device : Ref .device)
  /-- A counter of interrupts. -/
  | probe (probe : Ref .probe)
  deriving DecidableEq

/-- A place on a line. -/
structure Registration where
  token : UInt64
  handler : Handler
  deriving DecidableEq

/-- A line that several handlers may share. -/
structure Line where
  number : UInt32
  nextToken : UInt64 := 1
  registrations : List Registration := []

namespace Line

instance : Inhabited Line := ⟨{ number := 0 }⟩

/-- Adds a handler behind the others. -/
def request (line : Line) (handler : Handler) : Line :=
  { line with
    nextToken := line.nextToken + 1
    registrations := line.registrations ++ [⟨line.nextToken, handler⟩] }

/-- Removes the registration with this token. -/
def release (line : Line) (token : UInt64) : Line :=
  { line with registrations := line.registrations.eraseP fun r => r.token = token }

/-- The number of registrations. -/
def handlerCount (line : Line) : Nat := line.registrations.length

/-- The text that shows a line. -/
def describe (line : Line) : String :=
  s!"IrqLine \x7b number: {line.number.toNat}, handlers: {line.handlerCount} \x7d"

end Line

/-- A handler that counts the interrupts it is told of. -/
structure Probe where
  /-- What it answers, if it does not raise another line. -/
  handled : Bool
  /-- The line that it raises, and whose answer is then its own. -/
  chain : Option (Ref .line) := none
  /-- The interrupts so far. -/
  calls : Nat := 0
  /-- Whether it still exists; a line forgets nobody, but tells nobody who is gone. -/
  alive : Bool := true

instance : Inhabited Probe := ⟨{ handled := false, alive := false }⟩

end PeerBus
