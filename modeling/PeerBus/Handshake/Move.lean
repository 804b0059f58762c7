/-
# `PeerBus.Handshake.Move` — the moves of a role

A role of the handshake is a program whose every step is one access to something shared: its
device's identity, one field, one slot, one doorbell, one wait.  `Move` is such an access
together with the state of the role after it; `Machine.perform` carries one out.  Whatever a role
does between two accesses it does alone, so the moves are exactly the points at which the two
roles can interleave.

`Machine.follow` lets one role go on until it returns or sleeps.  A role may offer a stride: all
the slot accesses of its round at once, for the case that nobody comes between them.
-/
import PeerBus.Machine.Fabric
import PeerBus.Handshake.Bulk
import PeerBus.Handshake.Config
import PeerBus.Handshake.Throughput

namespace PeerBus

/-- One access of a role, and where the role is afterwards. -/
inductive Move (ρ : Type) where
  /-- Asks the device for its position. -/
  | identify (next : Except DeviceError PeerId → ρ)
  /-- Reads a field. -/
  | load (field : Field) (next : UInt32 → ρ)
  /-- Writes a field. -/
  | store (field : Field) (value : UInt32) (next : ρ)
  /-- Reads a slot. -/
  | loadSlot (index : Nat) (next : UInt32 → ρ)
  /-- Writes a slot. -/
  | storeSlot (index : Nat) (value : UInt32) (next : ρ)
  /-- Rings a peer's event channel. -/
  | ring (target : PeerId) (next : Except DeviceError Unit → ρ)
  /-- Waits for the own event flag. -/
  | wait (next : Except DeviceError Unit → ρ)

/-- What a role that ran to the end of its session did.

Rounds are counted by numbers without a bound.  A word of 64 bits would count the same: with a round
every nanosecond it would come round after more than 500 years, and a limit, which is such a word,
is reached before that. -/
structure Summary where
  rounds : Nat
  throughput : Throughput
  deriving DecidableEq

/-- What a call of a role achieved. -/
inductive Achieved where
  /-- The peer that was published or found. -/
  | peer (id : PeerId)
  /-- The call has no result of its own. -/
  | done
  /-- Whether the session goes on. -/
  | goesOn (more : Bool)
  /-- The session is over. -/
  | summary (summary : Summary)
  deriving DecidableEq

/-- The outcome of a call of a role. -/
abbrev Ended := Except HandshakeError Achieved

/-- A program that takes part in a handshake. -/
class Role (ρ : Type) where
  /-- The device that it works on. -/
  device : ρ → Ref .device
  /-- The window that it works in. -/
  session : ρ → Session
  /-- The bound on its waits. -/
  timeout : ρ → Option Timeout
  /-- Its next access; none once it returned. -/
  move : ρ → Option (Move ρ)
  /-- All the slot accesses that it has before it, if it stands before the first of them: where it
  is after them, given what it finds, and what they make of the memory. -/
  stride : ρ → Option ((Memory → ρ) × (Memory → Memory))

/-- Where a role is after an access. -/
inductive Progress (ρ : Type) where
  /-- It goes on. -/
  | next (role : ρ)
  /-- It sleeps until its wait has an outcome. -/
  | parked (next : Except DeviceError Unit → ρ)

namespace Machine

/-- Carries out one access of a role that works on `device` in `session`. -/
def perform {ρ : Type} (m : Machine) (device : Ref .device) (session : Session) (call : CallId) :
    Move ρ → Machine × Progress ρ
  | .identify next =>
      let (m, outcome) := m.peerId device
      (m, .next (next outcome))
  | .load field next => (m, .next (next ((m.regions.get session.region).field field)))
  | .store field value next =>
      (m.modifyRegion session.region fun memory => memory.setField field value, .next next)
  | .loadSlot index next => (m, .next (next ((m.regions.get session.region).slotWord index)))
  | .storeSlot index value next =>
      (m.modifyRegion session.region fun memory => memory.setSlotWord index value, .next next)
  | .ring target next =>
      let (m, outcome) := m.ring device target .waitEventIrq
      (m, .next (next outcome))
  | .wait next =>
      let (m, outcome) := m.waitEvent device call
      match outcome with
      | some outcome => (m, .next (next outcome))
      | none => (m, .parked next)

variable {ρ : Type} [Role ρ]

/-- Carries out the next access of a role, if it has one. -/
def advance (m : Machine) (call : CallId) (role : ρ) : Option (Machine × Progress ρ) :=
  (Role.move role).map fun move =>
    m.perform (Role.device role) (Role.session role) call move

/-- Where a role is that went on alone. -/
inductive Halt (ρ : Type) where
  /-- It returned. -/
  | returned (role : ρ)
  /-- It sleeps. -/
  | parked (role : ρ) (next : Except DeviceError Unit → ρ)

/-- A wait whose deadline is over as it begins does not sleep. -/
def expireAtOnce (m : Machine) (device : Ref .device) (call : CallId) :
    Machine × Except DeviceError Unit :=
  let (m, outcome) := (m.expire (.signal device) call).resume (.signal device) call
  (m, (outcome.getD (.error .timedOut)).mapError DeviceError.ofWait)

/-- Lets a role go on alone, for at most `fuel` accesses. -/
def follow : Nat → Machine → CallId → ρ → Machine × Halt ρ
  | 0, m, _, role => (m, .returned role)
  | fuel + 1, m, call, role =>
      match Role.stride role with
      | some (next, change) =>
          let region := (Role.session role).region
          let role := next (m.regions.get region)
          follow fuel (m.modifyRegion region change) call role
      | none =>
          match m.advance call role with
          | none => (m, .returned role)
          | some (m, .next role) => follow fuel m call role
          | some (m, .parked next) =>
              if (Role.timeout role).any Timeout.isOver then
                let (m, outcome) := m.expireAtOnce (Role.device role) call
                follow fuel m call (next outcome)
              else (m, .parked role next)

end Machine

end PeerBus
