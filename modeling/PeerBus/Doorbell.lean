/-
# `PeerBus.Doorbell` — doorbell messages and interrupt status words

A message written to the doorbell register names a peer in its upper half and an operation code
in its low byte.  The peer's status register receives the lower half; `StatusEvent.classify`
says which channel of the device such a status word signals.
-/
import PeerBus.Peer
import PeerBus.Command
import PeerBus.Register

namespace PeerBus

/-- A word written to the doorbell register. -/
structure Message where
  raw : UInt32
  deriving DecidableEq

namespace Message

/-- The position of the destination field. -/
def destinationShift : UInt32 := 16

/-- The bits of the operation code. -/
def codeMask : UInt32 := 0xFF

/-- The bits that the addressed device latches. -/
def statusMask : UInt32 := 0xFFFF

/-- The message that rings `destination` with `command`. -/
def compose (destination : PeerId) (command : Command) : Message :=
  ⟨(destination.toRegister <<< destinationShift) ||| command.code.toUInt32⟩

/-- The peer addressed. -/
def destination (m : Message) : PeerId := ⟨(m.raw >>> destinationShift).toUInt16⟩

/-- The operation code. -/
def code (m : Message) : UInt8 := (m.raw &&& codeMask).toUInt8

/-- The command that the operation code stands for, if any. -/
def command? (m : Message) : Option Command := Command.ofCode? m.code

/-- The status word that the addressed device latches. -/
def status (m : Message) : UInt32 := m.raw &&& statusMask

/-- The text that shows a message. -/
def describe (m : Message) : String :=
  match m.command? with
  | some c => s!"Doorbell({m.destination.label} <- {c.name})"
  | none => s!"Doorbell({m.destination.label} <- code {m.code.toNat})"

end Message

/-- What a status word tells a device. -/
inductive StatusEvent where
  /-- Nothing to dispatch: no bit or every bit is set. -/
  | spurious
  /-- The semaphore channel was rung. -/
  | semaphore
  /-- The event channel was rung. -/
  | event
  /-- A doorbell with a code of neither channel. -/
  | unrecognized (status : UInt32)
  deriving DecidableEq

namespace StatusEvent

/-- Reads a status word. -/
def classify (status : UInt32) : StatusEvent :=
  if status = 0 ∨ status = Register.statusInvalid then spurious
  else
    match Message.command? ⟨status⟩ with
    | some c =>
        if c.signalsSemaphore then semaphore
        else if c.signalsEvent then event
        else unrecognized status
    | none => unrecognized status

/-- Whether the interrupt was for this device at all. -/
def isHandled : StatusEvent → Bool
  | spurious => false
  | _ => true

/-- The text that shows an event. -/
def describe : StatusEvent → String
  | spurious => "Spurious"
  | semaphore => "Semaphore"
  | event => "Event"
  | unrecognized status => s!"Unrecognized({status.toNat})"

end StatusEvent

end PeerBus
