/-
# `PeerBus.Window.Cursor` — positions of a stream

A position lies between zero and the size of the window.  A seek computes its target exactly;
a target that is no word is refused, and one past the end is moved to the end.
-/
import PeerBus.Arithmetic
import PeerBus.Error

namespace PeerBus

/-- What a seek counts from. -/
inductive SeekFrom where
  /-- From the start of the window, forwards. -/
  | start (offset : UInt64)
  /-- From the position, in either direction. -/
  | current (distance : Int64)
  /-- From the end of the window, in either direction. -/
  | finish (distance : Int64)
  deriving DecidableEq

namespace Cursor

/-- The target of a seek, before it is moved to the end. -/
def target? (size position : UInt64) : SeekFrom → Option UInt64
  | .start offset => some offset
  | .current distance => Word.addSigned position distance
  | .finish distance => Word.addSigned size distance

/-- The position after a seek. -/
def seek (size position : UInt64) (origin : SeekFrom) : Except DeviceError UInt64 :=
  match target? size position origin with
  | some target => .ok (if target ≤ size then target else size)
  | none => .error .invalidSeek

/-- The position after a transfer. -/
def advance (position : UInt64) (count : Nat) : UInt64 :=
  Word.saturatingAdd position (UInt64.ofNat count)

end Cursor

end PeerBus
