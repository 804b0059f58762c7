/-
# `PeerBus.Device` — devices

A device reaches its registers through a register block, may have a window, and owns two
channels: a semaphore and an event flag.  It is enabled from its attachment until it is detached.
-/
import PeerBus.RegisterBlock
import PeerBus.Wait.Channel

namespace PeerBus

/-- The registration of a device on a line. -/
structure Seat where
  line : Ref .line
  token : UInt64
  deriving DecidableEq

/-- A device, attached or not. -/
structure Device where
  registers : Registers
  /-- The window's memory, if there is a window. -/
  window : Option (Ref .region)
  /-- The position, once it was read. -/
  peer : Option PeerId := none
  semaphore : Semaphore := default
  event : EventFlag := default
  enabled : Bool
  /-- Where the dispatcher is registered; nowhere once the device is detached. -/
  seat : Option Seat

instance : Inhabited Device :=
  ⟨{ registers := .words ⟨0⟩, window := none, enabled := false, seat := none }⟩

/-- The signals of a device that nobody has taken. -/
structure Pending where
  semaphore : UInt32
  event : Bool

namespace Pending

/-- Whether there is no such signal. -/
def isIdle (p : Pending) : Bool := p.semaphore = 0 && !p.event

/-- The text that shows the signals. -/
def describe (p : Pending) : String :=
  s!"Pending \x7b semaphore: {p.semaphore.toNat}, event: {p.event} \x7d"

end Pending

namespace Device

/-- The signals that nobody has taken. -/
def pending (d : Device) : Pending := ⟨d.semaphore.count, d.event.isSet⟩

/-- The failure of every operation on a device that is not enabled. -/
def ensureEnabled (d : Device) : Except DeviceError Unit :=
  if d.enabled then .ok () else .error .unavailable

/-- The memory of the window of an enabled device. -/
def window? (d : Device) : Except DeviceError (Ref .region) :=
  match d.ensureEnabled with
  | .error e => .error e
  | .ok () =>
      match d.window with
      | some region => .ok region
      | none => .error .unavailable

end Device

end PeerBus
