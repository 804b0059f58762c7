/-
# `PeerBus.Handshake.Error` — why a handshake stops
-/
import PeerBus.Error

namespace PeerBus

/-- A slot that does not hold the word of its round. -/
structure Mismatch where
  index : Nat
  expected : UInt32
  found : UInt32
  deriving DecidableEq

/-- Why a handshake stopped. -/
inductive HandshakeError where
  /-- A device operation failed. -/
  | device (cause : DeviceError)
  /-- A slot was found wrong. -/
  | mismatch (found : Mismatch)
  /-- The window has no slots. -/
  | windowTooSmall (size : UInt64)
  /-- The session was ended. -/
  | shutdown
  deriving DecidableEq

namespace HandshakeError

/-- A word in hexadecimal, with all eight digits. -/
def hexWord (w : UInt32) : String :=
  let digits := Nat.toDigits 16 w.toNat
  "0x" ++ String.ofList (List.replicate (8 - digits.length) '0' ++ digits)

/-- The text of the failure. -/
def message : HandshakeError → String
  | device cause => s!"device: {cause.message}"
  | mismatch m =>
      s!"verification mismatch at slot {m.index}: " ++
        s!"expected {hexWord m.expected}, found {hexWord m.found}"
  | windowTooSmall size => s!"window of {size.toNat} bytes is too small for the handshake"
  | shutdown => "peer requested shutdown"

/-- The text that shows the failure as a value. -/
def describe : HandshakeError → String
  | device cause => s!"Device({cause.describe})"
  | mismatch m =>
      s!"VerificationMismatch \x7b index: {m.index}, expected: {m.expected.toNat}, " ++
        s!"found: {m.found.toNat} \x7d"
  | windowTooSmall size => s!"WindowTooSmall({size.toNat})"
  | shutdown => "Shutdown"

end HandshakeError

end PeerBus
