/-
# `PeerBus.Handshake.Session` — sessions

A `Session` is the memory of a window together with its number of slots, which is never zero when
the session was opened.  Slots are read and written one word at a time.
-/
import PeerBus.Table
import PeerBus.Handshake.Error
import PeerBus.Handshake.Record

namespace PeerBus

/-- The control record and the slots of one window. -/
structure Session where
  region : Ref .region
  slots : UInt64

namespace Session

instance : Inhabited Session := ⟨⟨⟨0⟩, 0⟩⟩

/-- The session of a window of `size` bytes, if that has a slot at all. -/
def open? (region : Ref .region) (size : UInt64) : Except HandshakeError Session :=
  let slots := Layout.slotCount size
  if slots = 0 then .error (.windowTooSmall size) else .ok ⟨region, slots⟩

/-- The byte offset of a slot, if there is such a slot. -/
def slotOffset? (s : Session) (index : UInt64) : Option UInt64 :=
  if index < s.slots then (Layout.slotOffset index).toOption else none

/-- The address of a slot in memory, if there is such a slot. -/
def slotAddress? (s : Session) (m : Memory) (index : UInt64) : Option Nat :=
  (s.slotOffset? index).bind m.wordAddress?

/-- The word in a slot, if there is such a slot. -/
def slot? (s : Session) (m : Memory) (index : UInt64) : Option UInt32 :=
  (s.slotAddress? m index).map m.word

/-- Writes a slot; the answer tells whether there is such a slot. -/
def setSlot (s : Session) (m : Memory) (index : UInt64) (value : UInt32) : Bool × Memory :=
  match s.slotAddress? m index with
  | some address => (true, m.setWord address value)
  | none => (false, m)

end Session

end PeerBus
