/-
# `PeerBus.Scenario.Calls` — calls that may sleep

Every call that may wait has a number.  If it does not return at once it is kept as a `Sleeper`.
After each step the world settles: calls that left their sleep look again, one after the other in
the order in which they began, until none is left; then the deadlines under a second pass, one at
a time, and what they set free settles in turn.
-/
import PeerBus.Scenario.World

namespace PeerBus.Scenario

open Effect

/-- A bound on the accesses of a role in one step, and on the turns in which a world settles; no
scenario that comes to rest reaches it. -/
def patience : Nat := 0x10000000000

/-! ## Outcomes -/

/-- The outcome of a wait on a primitive of its own. -/
def ofWaited : Waited → Outcome
  | .ok () => .ok .unit
  | .error e => .error (.wait e)

/-- The outcome of an operation on a device. -/
def ofOperation : Except DeviceError Unit → Outcome
  | .ok () => .ok .unit
  | .error e => .error (.device e)

/-- The outcome of a control request. -/
def ofRequest : Except DeviceError Response → Outcome
  | .ok response => .ok (.response response)
  | .error e => .error (.device e)

/-- The outcome of a call of a role. -/
def ofEnded : Ended → Outcome
  | .ok (.peer id) => .ok (.number id.number.toNat)
  | .ok .done => .ok .unit
  | .ok (.goesOn more) => .ok (.flag more)
  | .ok (.summary summary) => .ok (.summary summary)
  | .error e => .error (.handshake e)

/-- What a client's call that stopped has to report. -/
def endedClient (c : Client.Call) : Outcome :=
  match c.point with
  | .returned ended => ofEnded ended
  | _ => .error .busy

/-- What a server's call that stopped has to report. -/
def endedServer (c : Server.Call) : Outcome :=
  match c.point with
  | .returned ended => ofEnded ended
  | _ => .error .busy

/-! ## Going on with a call -/

/-- What remains of a call after it went on: an outcome, or the site of its sleep and what it does
next. -/
inductive Turn where
  | returned (outcome : Outcome)
  | asleep (site : Site) (timeout : Option Timeout) (task : Task)

/-- A client goes on with a call. -/
def goOnClient (w : World) (id : CallId) (actor : Nat) (c : Client.Call) : World × Turn :=
  match w.machine.follow patience id c with
  | (machine, .returned c) =>
      let w := { w with machine := machine }
      let kept := match c.goal with
        | .run _ _ => none
        | .connect | .round _ | .shutdown => some (Actor.client c.client)
      ({ w with actors := w.actors.setIfInBounds actor kept }, .returned (endedClient c))
  | (machine, .parked c next) =>
      ({ w with machine := machine },
        .asleep (.signal c.client.device) c.client.config.timeout (.client actor c next))

/-- A server goes on with a call. -/
def goOnServer (w : World) (id : CallId) (actor : Nat) (c : Server.Call) : World × Turn :=
  match w.machine.follow patience id c with
  | (machine, .returned c) =>
      let w := { w with machine := machine }
      let kept := match c.goal with
        | .run => none
        | .announce | .serveOnce => some (Actor.server c.server)
      ({ w with actors := w.actors.setIfInBounds actor kept }, .returned (endedServer c))
  | (machine, .parked c next) =>
      ({ w with machine := machine },
        .asleep (.signal c.server.device) c.server.config.timeout (.server actor c next))

/-- A call goes on after its wait. -/
def goOn (w : World) (id : CallId) (task : Task) (outcome : Waited) : World × Turn :=
  let result := outcome.mapError DeviceError.ofWait
  match task with
  | .primitive => (w, .returned (ofWaited outcome))
  | .operation => (w, .returned (ofOperation result))
  | .request => (w, .returned (ofRequest (Response.ofUnit result)))
  | .client actor _ next => goOnClient w id actor (next result)
  | .server actor _ next => goOnServer w id actor (next result)

/-- A sleeping call as its turn left it. -/
def Sleeper.after (s : Sleeper) : Turn → Option Sleeper
  | .returned _ => none
  | .asleep site timeout task => some { s with site := site, timeout := timeout, task := task }

/-! ## Settling -/

/-- A call that returned. -/
structure Return where
  call : CallId
  label : String
  outcome : Outcome

/-- A call that left its sleep looks again. -/
def takeTurn (w : World) (s : Sleeper) : World × Option Return :=
  match w.machine.resume s.site s.call with
  | (machine, none) => ({ w with machine := machine }, none)
  | (machine, some outcome) =>
      match goOn { w with machine := machine } s.call s.task outcome with
      | (w, turn) =>
          let sleepers := w.sleepers.flatMap fun t =>
            if t.call = s.call then (s.after turn).toList else [t]
          let returned := match turn with
            | .returned outcome => some ⟨s.call, s.label, outcome⟩
            | .asleep _ _ _ => none
          ({ w with sleepers := sleepers }, returned)

/-- Whether a call has left its sleep. -/
def World.isUp (w : World) (s : Sleeper) : Bool :=
  match w.machine.stage? s.site s.call with
  | some .woken | some .expired => true
  | some .asleep | none => false

/-- Lets the world come to rest in at most `fuel` turns; the calls that returned are added to those
before, latest first. -/
def settleWithin : Nat → World → List Return → World × List Return
  | 0, w, returned => (w, returned)
  | fuel + 1, w, returned =>
      match w.sleepers.find? w.isUp with
      | some s =>
          match takeTurn w s with
          | (w, some r) => settleWithin fuel w (r :: returned)
          | (w, none) => settleWithin fuel w returned
      | none =>
          match w.sleepers.find? fun s => s.timeout.any Timeout.isShort with
          | some s =>
              settleWithin fuel { w with machine := w.machine.expire s.site s.call } returned
          | none => (w, returned)

/-- Lets the world come to rest; the calls that returned, in order. -/
def settle (w : World) : World × List Return :=
  let (w, returned) := settleWithin patience w []
  (w, returned.reverse)

/-! ## Beginning a call -/

/-- The number for a new call. -/
def newCall : Effect CallId := modifyGet fun w =>
  (⟨w.nextCall⟩, { w with nextCall := w.nextCall + 1 })

/-- Reports a turn, and keeps the call if it is asleep. -/
def settleInto (id : CallId) (label : String) (turn : Turn) : Effect Answer := do
  match turn with
  | .returned outcome => return .outcome outcome
  | .asleep site timeout task =>
      modify fun w => { w with sleepers := w.sleepers ++ [⟨id, label, site, timeout, task⟩] }
      return .blocked

/-- Begins a call that is one wait. -/
def beginWait {α : Type} (label : String) (site : Site) (timeout : Option Timeout) (task : Task)
    (enter : Machine → CallId → Machine × Option α) (report : α → Outcome) : Effect Answer := do
  let id ← newCall
  match ← onMachine fun m => enter m id with
  | some outcome => settleInto id label (.returned (report outcome))
  | none => settleInto id label (.asleep site timeout task)

/-- Takes a role out for a call; it is busy until the call returns. -/
def takeActor (role : String) : Effect (Nat × Actor) := do
  let index ← find World.roles role
  match (← get).actors[index]? with
  | some (some actor) =>
      modify fun w => { w with actors := w.actors.setIfInBounds index none }
      return (index, actor)
  | some none | none => throw .busy

/-- Puts a role back that was taken out for nothing. -/
def returnActor (index : Nat) (actor : Actor) : Effect Unit :=
  modify fun w => { w with actors := w.actors.setIfInBounds index (some actor) }

/-- Begins a call of a client. -/
def beginClient (label role : String) (goal : Client.Goal) : Effect Answer := do
  let (index, actor) ← takeActor role
  match actor with
  | .client client =>
      let id ← newCall
      let turn ← modifyGet fun w => (goOnClient w id index (client.call goal)).swap
      settleInto id label turn
  | .server _ =>
      returnActor index actor
      throw .noSuchObject

/-- Begins a call of a server. -/
def beginServer (label role : String) (goal : Server.Goal) : Effect Answer := do
  let (index, actor) ← takeActor role
  match actor with
  | .server server =>
      let id ← newCall
      let turn ← modifyGet fun w => (goOnServer w id index (server.call goal)).swap
      settleInto id label turn
  | .client _ =>
      returnActor index actor
      throw .noSuchObject

/-- Adds a role under a name. -/
def bindActor (name : String) (actor : Actor) : Effect Unit :=
  modify fun w => { w with
    roles := w.roles.bind name w.actors.size
    actors := w.actors.push (some actor) }

end PeerBus.Scenario
