/-
# `PeerBus.Layout` — the layout of a shared window

A window begins with the control record, seven little-endian words of which two hold published
peer ids and three hold markers.  The slots of the bulk area follow, one word each, as many as
fit, in groups of four.
-/
import PeerBus.Arithmetic
import PeerBus.Peer

namespace PeerBus

/-- A field of the control record. -/
inductive Field where
  /-- The published id of the server. -/
  | ivServer
  /-- The published id of the client. -/
  | ivClient
  /-- `Marker.ready` once the server listens. -/
  | ready
  /-- `Marker.start` while a round is asked for. -/
  | start
  /-- The seed of the round. -/
  | data
  /-- `Marker.done` once a round is filled. -/
  | done
  /-- Anything but zero ends the session. -/
  | shutdown
  deriving DecidableEq

namespace Field

/-- The fields in the order of the record. -/
def all : List Field := [ivServer, ivClient, ready, start, data, done, shutdown]

/-- The place of the field in the record. -/
def index : Field → Nat
  | ivServer => 0
  | ivClient => 1
  | ready => 2
  | start => 3
  | data => 4
  | done => 5
  | shutdown => 6

/-- The byte offset of the field in the window. -/
def offset (f : Field) : UInt64 := UInt64.ofNat (4 * f.index)

/-- The name of the field. -/
def name : Field → String
  | ivServer => "IvServer"
  | ivClient => "IvClient"
  | ready => "Ready"
  | start => "Start"
  | data => "Data"
  | done => "Done"
  | shutdown => "Shutdown"

end Field

namespace Marker

/-- A round is asked for. -/
def start : UInt32 := 0x11111111

/-- The server listens. -/
def ready : UInt32 := 0x55555555

/-- The round is filled. -/
def done : UInt32 := 0x99999999

end Marker

namespace Published

/-- The lower half of a word that holds a published id. -/
def tag : UInt32 := 0x5A

/-- The word that publishes a peer. -/
def encode (peer : PeerId) : UInt32 := (peer.toRegister <<< 16) ||| tag

/-- The peer that a word publishes, if it publishes one. -/
def decode? (raw : UInt32) : Option PeerId :=
  if raw &&& 0xFFFF = tag then some ⟨(raw >>> 16).toUInt16⟩ else none

end Published

namespace Layout

/-- The bytes of a slot. -/
def slotSize : UInt64 := 4

/-- The bytes of the control record. -/
def recordSize : UInt64 := 28

/-- The slots of a window of `size` bytes: whole groups of four behind the record. -/
def slotCount (size : UInt64) : UInt64 :=
  if size ≤ recordSize then 0 else ((size - recordSize) / slotSize) &&& ~~~(slotSize - 1)

/-- The byte offset of a slot, in exact arithmetic. -/
def slotOffset (index : UInt64) : Except Overflow UInt64 := do
  let bytes ← Word.mul index slotSize
  Word.add recordSize bytes

/-- The byte offset of a slot, without a limit. -/
def slotAddress (index : Nat) : Nat := recordSize.toNat + index * slotSize.toNat

theorem slotAddress_eq (index : Nat) : slotAddress index = 28 + 4 * index := by
  rw [Nat.mul_comm]
  rfl

/-- The word that a round with this seed leaves in a slot. -/
def pattern (index : Nat) (seed : UInt32) : UInt32 := UInt32.ofNat index ^^^ seed

end Layout

end PeerBus
