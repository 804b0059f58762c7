/-
# `PeerBus.Error` — why device operations fail

A transfer that is cut short is not a failure: it returns the number of bytes that it moved.
-/
namespace PeerBus

/-- Why a wait ended without its signal. -/
inductive WaitError where
  /-- The wait was cancelled. -/
  | interrupted
  /-- The deadline passed. -/
  | timedOut
  /-- The primitive was closed. -/
  | closed
  deriving DecidableEq

/-- Why a device operation failed. -/
inductive DeviceError where
  /-- The device is detached or lacks the resource. -/
  | unavailable
  /-- A wait was cancelled. -/
  | interrupted
  /-- A wait passed its deadline. -/
  | timedOut
  /-- The command number is unknown or has no implementation. -/
  | unsupportedCommand (number : UInt32)
  /-- The target of a seek is no position. -/
  | invalidSeek
  deriving DecidableEq

namespace DeviceError

/-- What a failed wait means to the user of a device: a closed primitive is a device gone. -/
def ofWait : WaitError → DeviceError
  | .interrupted => interrupted
  | .timedOut => timedOut
  | .closed => unavailable

/-- The text of the failure. -/
def message : DeviceError → String
  | unavailable => "device unavailable"
  | interrupted => "wait interrupted"
  | timedOut => "wait timed out"
  | unsupportedCommand number => s!"unsupported command {number.toNat}"
  | invalidSeek => "seek before start of window"

/-- The text that shows the failure as a value. -/
def describe : DeviceError → String
  | unavailable => "DeviceUnavailable"
  | interrupted => "Interrupted"
  | timedOut => "TimedOut"
  | unsupportedCommand number => s!"UnsupportedCommand({number.toNat})"
  | invalidSeek => "InvalidSeek"

end DeviceError

/-- The kinds of failure that the users of byte streams tell apart. -/
inductive StreamKind where
  | notConnected
  | interrupted
  | timedOut
  | unsupported
  | invalidInput
  | writeZero
  | unexpectedEnd
  deriving DecidableEq

/-- The text that shows the kind. -/
def StreamKind.describe : StreamKind → String
  | notConnected => "NotConnected"
  | interrupted => "Interrupted"
  | timedOut => "TimedOut"
  | unsupported => "Unsupported"
  | invalidInput => "InvalidInput"
  | writeZero => "WriteZero"
  | unexpectedEnd => "UnexpectedEof"

/-- What the failure is to the user of a stream. -/
def DeviceError.streamKind : DeviceError → StreamKind
  | unavailable => .notConnected
  | interrupted => .interrupted
  | timedOut => .timedOut
  | unsupportedCommand _ => .unsupported
  | invalidSeek => .invalidInput

end PeerBus
