/-
# `PeerBus.Machine.Stream` — streams

A `Stream` reads and writes the window of a device from a position on, and moves the position by
what it transferred.  `readExact`, `readToEnd` and `writeAll` repeat single transfers until they
have what they want or a transfer moves nothing; what was moved before a failure stays moved.
-/
import PeerBus.Window.Cursor
import PeerBus.Machine.Device

namespace PeerBus

/-- Why a stream operation failed. -/
inductive StreamError where
  /-- The device failed it. -/
  | device (cause : DeviceError)
  /-- The end of the window came before the end of the data. -/
  | writeZero
  /-- The end of the window came before the buffer was full. -/
  | unexpectedEnd
  deriving DecidableEq

/-- The text of the failure. -/
def StreamError.message : StreamError → String
  | device cause => cause.message
  | writeZero => "failed to write whole buffer"
  | unexpectedEnd => "failed to fill whole buffer"

/-- The kind of the failure. -/
def StreamError.kind : StreamError → StreamKind
  | device cause => cause.streamKind
  | writeZero => .writeZero
  | unexpectedEnd => .unexpectedEnd

/-- A cursor over the window of a device. -/
structure Stream where
  device : Ref .device
  position : UInt64 := 0

namespace Stream

/-- The stream after a transfer. -/
def advance (s : Stream) (count : Nat) : Stream :=
  { s with position := Cursor.advance s.position count }

/-- Reads into the front of a buffer: the number of bytes, and the buffer. -/
def read (s : Stream) (m : Machine) (buffer : List UInt8) :
    Stream × Except StreamError (Nat × List UInt8) :=
  match m.readInto s.device s.position buffer with
  | .error e => (s, .error (.device e))
  | .ok (count, buffer) => (s.advance count, .ok (count, buffer))

/-- Writes as much of the data as there is room for: the number of bytes. -/
def write (s : Stream) (m : Machine) (data : List UInt8) :
    Machine × Stream × Except StreamError Nat :=
  match m.write s.device s.position data with
  | (m, .error e) => (m, s, .error (.device e))
  | (m, .ok count) => (m, s.advance count, .ok count)

/-- Moves the position. -/
def seek (s : Stream) (m : Machine) (origin : SeekFrom) :
    Stream × Except StreamError UInt64 :=
  match m.windowSize s.device with
  | .error e => (s, .error (.device e))
  | .ok size =>
      match Cursor.seek size s.position origin with
      | .error e => (s, .error (.device e))
      | .ok position => ({ s with position := position }, .ok position)

/-- Reads `wanted` bytes in at most `fuel` transfers. -/
def readRepeatedly (m : Machine) : Nat → Nat → Stream → Stream × Except StreamError (List UInt8)
  | _, 0, s => (s, .ok [])
  | 0, _, s => (s, .error .unexpectedEnd)
  | fuel + 1, wanted, s =>
      match s.read m (List.replicate wanted 0) with
      | (s, .error e) => (s, .error e)
      | (s, .ok (count, buffer)) =>
          if count = 0 then (s, .error .unexpectedEnd)
          else
            let (s, rest) := readRepeatedly m fuel (wanted - count) s
            (s, rest.map fun rest => buffer.take count ++ rest)

/-- Reads exactly `wanted` bytes. -/
def readExact (s : Stream) (m : Machine) (wanted : Nat) :
    Stream × Except StreamError (List UInt8) :=
  readRepeatedly m wanted wanted s

/-- The bytes that `readToEnd` asks for at a time. -/
def chunk : Nat := 8192

/-- Reads until a transfer moves nothing, in at most `fuel` transfers. -/
def drain (m : Machine) : Nat → Stream → Stream × Except StreamError (List UInt8)
  | 0, s => (s, .ok [])
  | fuel + 1, s =>
      match s.read m (List.replicate chunk 0) with
      | (s, .error e) => (s, .error e)
      | (s, .ok (count, buffer)) =>
          if count = 0 then (s, .ok [])
          else
            let (s, rest) := drain m fuel s
            (s, rest.map fun rest => buffer.take count ++ rest)

/-- Reads everything up to the end of the window. -/
def readToEnd (s : Stream) (m : Machine) : Stream × Except StreamError (List UInt8) :=
  let size := (m.windowSize s.device).toOption.elim 0 UInt64.toNat
  drain m (size + 1) s

/-- Writes the data in at most `fuel` transfers. -/
def writeRepeatedly : Nat → Machine → Stream → List UInt8 →
    Machine × Stream × Except StreamError Unit
  | _, m, s, [] => (m, s, .ok ())
  | 0, m, s, _ => (m, s, .error .writeZero)
  | fuel + 1, m, s, data =>
      match s.write m data with
      | (m, s, .error e) => (m, s, .error e)
      | (m, s, .ok count) =>
          if count = 0 then (m, s, .error .writeZero)
          else writeRepeatedly fuel m s (data.drop count)

/-- Writes all the data. -/
def writeAll (s : Stream) (m : Machine) (data : List UInt8) :
    Machine × Stream × Except StreamError Unit :=
  writeRepeatedly data.length m s data

end Stream

end PeerBus
