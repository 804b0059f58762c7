/-
# `PeerBus.Proofs.Handshake.View` — what two roles share

Two roles of a handshake meet in one control record, in the slots behind it, and in their two event
flags.  A `View` holds just these, as independent cells; `View.perform` is a role's access as it
shows there.  A wait is an access only when it ends: it needs the flag and takes it.

    access        in a machine                              in a view
    load, store   words of a window                         `record`
    slots         words behind the record                   `slot`
    ring          doorbell, route, status, dispatcher       `flag` of the other side goes up
    wait          event flag, sleep, wake-up, second look   own `flag` goes down

That machines really do what this table says is `Link.Seated.turn` in
`PeerBus.Proofs.Handshake.Pair`.
-/
import PeerBus.Handshake.Move
import PeerBus.Proofs.Machine.Link

namespace PeerBus

/-- The cells that two roles share. -/
structure View where
  record : Field → UInt32
  slot : Nat → UInt32
  flag : Side → Bool

namespace View

/-! ## The cells -/

def store (v : View) (f : Field) (value : UInt32) : View :=
  { v with record := fun g => if g = f then value else v.record g }

def storeSlot (v : View) (index : Nat) (value : UInt32) : View :=
  { v with slot := fun i => if i = index then value else v.slot i }

/-- The flag of a side goes up. -/
def raise (v : View) (x : Side) : View :=
  { v with flag := fun y => if y = x then true else v.flag y }

/-- The flag of a side goes down. -/
def lower (v : View) (x : Side) : View :=
  { v with flag := fun y => if y = x then false else v.flag y }

variable {v : View}

theorem storeSlot_self (v : View) (index : Nat) (value : UInt32) :
    (v.storeSlot index value).slot index = value :=
  if_pos rfl

theorem storeSlot_of_ne (v : View) {index i : Nat} (h : i ≠ index) (value : UInt32) :
    (v.storeSlot index value).slot i = v.slot i :=
  if_neg h

theorem flag_raise_of_flag {x : Side} (h : v.flag x = true) (y : Side) :
    (v.raise y).flag x = true := by
  show (if x = y then true else v.flag x) = true
  rw [h, ite_self]

/-! ## Accesses -/

/-- An access of the role at one side, if it can be made now. -/
def perform {ρ : Type} (peer : PeerId) (x : Side) (v : View) : Move ρ → Option (View × ρ)
  | .identify next => some (v, next (.ok peer))
  | .load field next => some (v, next (v.record field))
  | .store field value next => some (v.store field value, next)
  | .loadSlot index next => some (v, next (v.slot index))
  | .storeSlot index value next => some (v.storeSlot index value, next)
  | .ring _ next => some (v.raise x.other, next (.ok ()))
  | .wait next => if v.flag x then some (v.lower x, next (.ok ())) else none

end View

end PeerBus
