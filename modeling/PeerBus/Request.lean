/-
# `PeerBus.Request` — requests

The numeric form of what can be asked of a device: a command number with an argument.
-/
import PeerBus.Peer
import PeerBus.Command
import PeerBus.Error

namespace PeerBus

/-- A control request. -/
inductive Request where
  | setSema (count : UInt32)
  | downSema
  | empty (target : PeerId)
  | waitEvent
  | waitEventIrq (target : PeerId)
  | readIvPosn
  | readLivelist
  | semaIrq (target : PeerId)
  deriving DecidableEq

namespace Request

/-- Reads a command number and its argument: a count is the lower 32 bits of the argument, a
target its lower 16. -/
def decode (number : UInt32) (argument : UInt64) : Except DeviceError Request :=
  let target : PeerId := ⟨argument.toUInt16⟩
  match Command.ofNumber? number with
  | none => .error (.unsupportedCommand number)
  | some .setSema => .ok (setSema argument.toUInt32)
  | some .downSema => .ok downSema
  | some .empty => .ok (empty target)
  | some .waitEvent => .ok waitEvent
  | some .waitEventIrq => .ok (waitEventIrq target)
  | some .readIvPosn => .ok readIvPosn
  | some .readLivelist => .ok readLivelist
  | some .semaIrq => .ok (semaIrq target)

/-- The command of a request. -/
def command : Request → Command
  | setSema _ => .setSema
  | downSema => .downSema
  | empty _ => .empty
  | waitEvent => .waitEvent
  | waitEventIrq _ => .waitEventIrq
  | readIvPosn => .readIvPosn
  | readLivelist => .readLivelist
  | semaIrq _ => .semaIrq

/-- The text that shows a request. -/
def describe : Request → String
  | setSema count => s!"SetSema({count.toNat})"
  | downSema => "DownSema"
  | empty target => s!"Empty({target.describe})"
  | waitEvent => "WaitEvent"
  | waitEventIrq target => s!"WaitEventIrq({target.describe})"
  | readIvPosn => "ReadIvPosn"
  | readLivelist => "ReadLivelist"
  | semaIrq target => s!"SemaIrq({target.describe})"

end Request

/-- The answer to a request that succeeded. -/
inductive Response where
  | done
  | peer (id : PeerId)
  deriving DecidableEq

/-- The answer to a request whose operation has no result of its own. -/
def Response.ofUnit (outcome : Except DeviceError Unit) : Except DeviceError Response :=
  outcome.map fun _ => done

end PeerBus
