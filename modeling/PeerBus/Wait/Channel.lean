/-
# `PeerBus.Wait.Channel` — calls parked at a gate

A `Channel` is a gate together with the calls parked at it, in the order in which they went to
sleep.  A parked call is asleep until it is woken or its deadline passes; it then waits for its
turn to look again (`resume`), which either ends the call or sends it back to sleep, now as the
last of the queue.

Whoever changes the gate also says whom to wake, in the same step: `up` wakes one sleeping call,
`set`, `arm`, `interrupt` and `close` wake all of them, and `clear` wakes nobody.  Calls that
left their sleep by a deadline are not woken.
-/
import PeerBus.Wait.Gate

namespace PeerBus

/-- The number of a call that may wait. -/
structure CallId where
  number : Nat
  deriving DecidableEq

/-- What became of the sleep of a parked call. -/
inductive Stage where
  /-- Still asleep. -/
  | asleep
  /-- Woken, and not yet back at the gate. -/
  | woken
  /-- Past its deadline, and not yet back at the gate. -/
  | expired
  deriving DecidableEq

/-- A call parked at a gate. -/
structure Parked where
  call : CallId
  /-- The epoch in which the call entered. -/
  epoch : UInt64
  stage : Stage
  deriving DecidableEq

/-- A gate and the calls parked at it. -/
structure Channel (σ : Type) where
  gate : Gate σ
  parked : List Parked := []

/-- A counting semaphore. -/
abbrev Semaphore := Channel Units

/-- An event flag that calls wait for. -/
abbrev EventFlag := Channel Flag

namespace Channel

variable {σ : Type}

instance [Inhabited σ] : Inhabited (Channel σ) :=
  ⟨{ gate := default }⟩

/-- The entry of a parked call. -/
def find? (c : Channel σ) (call : CallId) : Option Parked :=
  c.parked.find? fun p => p.call = call

/-- The calls still asleep, longest first. -/
def asleep (c : Channel σ) : List Parked := c.parked.filter fun p => p.stage = .asleep

/-- The calls on their way back to the gate. -/
def returning (c : Channel σ) : List Parked := c.parked.filter fun p => p.stage ≠ .asleep

/-- Moves one call from its sleep to `stage`, if it is asleep. -/
def rouse (c : Channel σ) (call : CallId) (stage : Stage) : Channel σ :=
  { c with parked := c.parked.map fun p =>
      if p.call = call ∧ p.stage = .asleep then { p with stage := stage } else p }

/-- Wakes one call. -/
def wake (c : Channel σ) (call : CallId) : Channel σ := c.rouse call .woken

/-- Lets the deadline of one call pass. -/
def expire (c : Channel σ) (call : CallId) : Channel σ := c.rouse call .expired

/-- Wakes every sleeping call. -/
def wakeAll (c : Channel σ) : Channel σ :=
  { c with parked := c.parked.map fun p =>
      if p.stage = .asleep then { p with stage := .woken } else p }

/-- Wakes the given call if there is one. -/
def wake? (c : Channel σ) : Option CallId → Channel σ
  | none => c
  | some call => c.wake call

/-- The call that has slept longest. -/
def longestAsleep (c : Channel σ) : Option CallId := c.asleep.head?.map Parked.call

variable [Signal σ]

/-- A call enters the gate; if there is no outcome it is now asleep. -/
def enter (c : Channel σ) (call : CallId) : Channel σ × Option Waited :=
  match c.gate.enter with
  | (gate, some outcome) => ({ c with gate := gate }, some outcome)
  | (gate, none) =>
      ({ gate := gate, parked := c.parked ++ [⟨call, c.gate.epoch, .asleep⟩] }, none)

/-- A parked call that left its sleep looks again; if there is no outcome it is asleep again. -/
def resume (c : Channel σ) (call : CallId) : Channel σ × Option Waited :=
  match c.find? call with
  | none => (c, none)
  | some p =>
      let others := c.parked.filter fun q => q.call ≠ call
      match p.stage with
      | .asleep => (c, none)
      | .woken =>
          match c.gate.rerun p.epoch with
          | (gate, some outcome) => ({ gate := gate, parked := others }, some outcome)
          | (gate, none) =>
              ({ gate := gate, parked := others ++ [⟨call, p.epoch, .asleep⟩] }, none)
      | .expired =>
          let (gate, outcome) := c.gate.expire
          ({ gate := gate, parked := others }, some outcome)

/-- Cancels the waits parked now, or the next one, and wakes everybody. -/
def interrupt (c : Channel σ) : Channel σ := wakeAll { c with gate := c.gate.interrupt }

/-- Fails all waits, and wakes everybody. -/
def close (c : Channel σ) : Channel σ := wakeAll { c with gate := c.gate.close }

end Channel

namespace Semaphore

/-- Overwrites the count, and wakes everybody. -/
def arm (s : Semaphore) (count : UInt32) : Semaphore :=
  Channel.wakeAll { s with gate := s.gate.put ⟨count⟩ }

/-- Adds a unit and wakes the given call, which must be asleep. -/
def upWaking (s : Semaphore) (target : Option CallId) : Semaphore :=
  Channel.wake? { s with gate := s.gate.up } target

/-- Adds a unit and wakes the call that has slept longest. -/
def up (s : Semaphore) : Semaphore := s.upWaking s.longestAsleep

/-- The units there are. -/
def count (s : Semaphore) : UInt32 := s.gate.signal.count

end Semaphore

namespace EventFlag

/-- Raises the flag, and wakes everybody. -/
def set (e : EventFlag) : EventFlag := Channel.wakeAll { e with gate := e.gate.put ⟨true⟩ }

/-- Lowers the flag. -/
def clear (e : EventFlag) : EventFlag := { e with gate := e.gate.put ⟨false⟩ }

/-- Whether the flag is up. -/
def isSet (e : EventFlag) : Bool := e.gate.signal.raised

end EventFlag

end PeerBus
