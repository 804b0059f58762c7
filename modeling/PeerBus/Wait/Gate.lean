/-
# `PeerBus.Wait.Gate` — the state behind a wait

A `Gate` is what a waiting call finds when it looks: a signal that it may take, a record of
cancellations, the number of calls that are parked, and whether the gate was closed.  Every
function of this module is one look or one change, made without anybody in between.

A cancellation is addressed in one of two ways.  It advances `epoch`, which the calls parked at
that moment notice because they entered in an earlier epoch; or, if nobody is parked, it is
kept as `pending` for the next call that would park.
-/
import PeerBus.Arithmetic
import PeerBus.Error

namespace PeerBus

/-- Signals that a waiting call takes one at a time. -/
class Signal (σ : Type) where
  /-- Whether there is something to take. -/
  ready : σ → Bool
  /-- What remains after one call took its part. -/
  take : σ → σ

/-- The units of a counting semaphore. -/
structure Units where
  count : UInt32
  deriving DecidableEq

instance : Inhabited Units := ⟨⟨0⟩⟩

instance : Signal Units where
  ready u := decide (u.count ≠ 0)
  take u := ⟨u.count - 1⟩

/-- An event flag: one call takes the whole of it. -/
structure Flag where
  raised : Bool
  deriving DecidableEq

instance : Inhabited Flag := ⟨⟨false⟩⟩

instance : Signal Flag where
  ready f := f.raised
  take _ := ⟨false⟩

/-- What a waiting call finds. -/
structure Gate (σ : Type) where
  /-- What there is to take. -/
  signal : σ
  /-- Advanced to cancel the calls that are parked now. -/
  epoch : UInt64 := 0
  /-- A cancellation that found nobody parked. -/
  pending : Bool := false
  /-- The calls parked now. -/
  blocked : Nat := 0
  /-- Whether every wait fails from now on. -/
  closed : Bool := false

/-- The outcome of a wait. -/
abbrev Waited := Except WaitError Unit

namespace Gate

variable {σ : Type} [Signal σ]

instance [Inhabited σ] : Inhabited (Gate σ) :=
  ⟨{ signal := default }⟩

/-- The look of a call that entered in `epoch`.  A closed gate comes first, then the signal, then
a cancellation; a call that meets none of them parks, and there is no outcome yet. -/
def look (g : Gate σ) (epoch : UInt64) : Gate σ × Option Waited :=
  if g.closed then (g, some (.error .closed))
  else if Signal.ready g.signal then
    ({ g with signal := Signal.take g.signal }, some (.ok ()))
  else if g.epoch ≠ epoch then (g, some (.error .interrupted))
  else if g.pending then ({ g with pending := false }, some (.error .interrupted))
  else ({ g with blocked := g.blocked + 1 }, none)

/-- The first look of a call. -/
def enter (g : Gate σ) : Gate σ × Option Waited := g.look g.epoch

/-- A parked call gets up. -/
def unpark (g : Gate σ) : Gate σ := { g with blocked := g.blocked - 1 }

/-- The look of a parked call that was woken. -/
def rerun (g : Gate σ) (epoch : UInt64) : Gate σ × Option Waited := g.unpark.look epoch

/-- The last look of a parked call whose deadline passed: a signal that is there still counts. -/
def expire (g : Gate σ) : Gate σ × Waited :=
  let g := g.unpark
  if Signal.ready g.signal && !g.closed then
    ({ g with signal := Signal.take g.signal }, .ok ())
  else (g, .error .timedOut)

/-- Cancels the calls parked now, or the next call that would park if there is none. -/
def interrupt (g : Gate σ) : Gate σ :=
  if g.blocked = 0 then { g with pending := true } else { g with epoch := g.epoch + 1 }

/-- Fails every wait from now on. -/
def close (g : Gate σ) : Gate σ := { g with closed := true }

/-- Replaces the signal. -/
def put (g : Gate σ) (signal : σ) : Gate σ := { g with signal := signal }

/-- Adds a unit; a full count stays full. -/
def up (g : Gate Units) : Gate Units := g.put ⟨Word.saturatingSucc g.signal.count⟩

end Gate

end PeerBus
