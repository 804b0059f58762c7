/-
# `PeerBus.Handshake.Server` — the server

The server reacts.  It announces itself by publishing its id, clearing `shutdown`, setting
`ready` and greeting a client that is published already; the greeting is the one doorbell that
tells the client of its readiness.  Each time it is rung it looks at the record: `shutdown` ends
its work, `start` asks it to fill the slots and set `done`, anything else is a client's hello or
nothing at all.
-/
import PeerBus.Handshake.Move

namespace PeerBus

/-- A server between its calls. -/
structure Server where
  device : Ref .device
  session : Session
  config : Config
  /-- Whether the client knows that the server is ready. -/
  readySent : Bool := false
  /-- The rounds served; 2 ^ 64 of them are out of reach (`Summary`). -/
  rounds : Nat := 0
  throughput : Throughput := {}

namespace Server

/-- What a server is called for. -/
inductive Goal where
  /-- Announce it. -/
  | announce
  /-- Wait for one doorbell and act on it. -/
  | serveOnce
  /-- Announce it and serve until the session is ended. -/
  | run
  deriving DecidableEq

/-- Where a server is in its program: before the access that the name says. -/
inductive Point where
  | identify
  | publish (self : PeerId)
  | clearShutdown (self : PeerId)
  | raiseReady (self : PeerId)
  /-- The greeting belongs to the announcement of a peer or to a doorbell. -/
  | lookClient (announced : Option PeerId)
  | greetClient (client : PeerId) (announced : Option PeerId)
  | listen
  | checkShutdown
  | checkStart
  | lowerStart
  | readSeed
  | fill (seed : UInt32) (pass index : Nat)
  | recheckShutdown
  | raiseDone
  | lookCaller
  | tellCaller (client : PeerId)
  | returned (ended : Ended)

/-- A call of a server. -/
structure Call where
  server : Server
  goal : Goal
  point : Point

namespace Call

/-- The call at another point. -/
def goTo (c : Call) (point : Point) : Call := { c with point := point }

/-- The call returns. -/
def finish (c : Call) (achieved : Achieved) : Call := c.goTo (.returned (.ok achieved))

/-- The call fails. -/
def fail (c : Call) (cause : HandshakeError) : Call := c.goTo (.returned (.error cause))

/-- Goes on after an operation of the device that may fail. -/
def orFail {α : Type} (c : Call) (outcome : Except DeviceError α) (next : α → Call) : Call :=
  match outcome with
  | .ok value => next value
  | .error cause => c.fail (.device cause)

/-- What the server of the call did so far. -/
def summary (c : Call) : Summary := ⟨c.server.rounds, c.server.throughput⟩

/-- The client knows that the server is ready. -/
def readySent (c : Call) : Call := { c with server := { c.server with readySent := true } }

/-- A doorbell was acted on. -/
def served (c : Call) : Call :=
  match c.goal with
  | .announce | .serveOnce => c.finish (.goesOn true)
  | .run => c.goTo .listen

/-- The session was ended. -/
def ended (c : Call) : Call :=
  match c.goal with
  | .announce | .serveOnce => c.finish (.goesOn false)
  | .run => c.finish (.summary c.summary)

/-- The greeting is done, or was not called for. -/
def greeted (c : Call) (announced : Option PeerId) : Call :=
  match announced with
  | none => c.served
  | some self =>
      match c.goal with
      | .announce | .serveOnce => c.finish (.peer self)
      | .run => c.goTo .listen

/-- Greets the client, unless it knows. -/
def greet (c : Call) (announced : Option PeerId) : Call :=
  if c.server.readySent then c.greeted announced else c.goTo (.lookClient announced)

/-- A pass begins, unless all are done. -/
def beginPass (c : Call) (seed : UInt32) (pass : Nat) : Call :=
  if pass < c.server.config.passes.toNat then c.goTo (.fill seed pass 0)
  else c.goTo .recheckShutdown

/-- The server with one more pass counted. -/
def countPass (server : Server) : Server :=
  { server with
    throughput := (server.throughput.recordWrites server.session.slots).toOption.getD
      server.throughput }

/-- The round is served. -/
def roundServed (c : Call) : Call :=
  served { c with server := { c.server with rounds := c.server.rounds + 1 } }

/-- The next access of a call. -/
def move (c : Call) : Option (Move Call) :=
  match c.point with
  | .identify => some (.identify fun outcome =>
      c.orFail outcome fun self => c.goTo (.publish self))
  | .publish self => some (.store .ivServer (Published.encode self) (c.goTo (.clearShutdown self)))
  | .clearShutdown self => some (.store .shutdown 0 (c.goTo (.raiseReady self)))
  | .raiseReady self => some (.store .ready Marker.ready (c.greet (some self)))
  | .lookClient announced => some (.load .ivClient fun word =>
      match Published.decode? word with
      | some client => c.goTo (.greetClient client announced)
      | none => c.greeted announced)
  | .greetClient client announced => some (.ring client fun outcome =>
      c.orFail outcome fun _ => c.readySent.greeted announced)
  | .listen => some (.wait fun outcome => c.orFail outcome fun _ => c.goTo .checkShutdown)
  | .checkShutdown => some (.load .shutdown fun word =>
      if word = 0 then c.goTo .checkStart else c.ended)
  | .checkStart => some (.load .start fun word =>
      if word = Marker.start then c.readySent.goTo .lowerStart else c.greet none)
  | .lowerStart => some (.store .start 0 (c.goTo .readSeed))
  | .readSeed => some (.load .data fun seed => c.beginPass seed 0)
  | .fill seed pass index => some (.storeSlot index (Layout.pattern index seed)
      (if index + 1 < c.server.session.slots.toNat then c.goTo (.fill seed pass (index + 1))
      else beginPass { c with server := countPass c.server } seed (pass + 1)))
  | .recheckShutdown => some (.load .shutdown fun word =>
      if word = 0 then c.goTo .raiseDone else c.ended)
  | .raiseDone => some (.store .done Marker.done (c.goTo .lookCaller))
  | .lookCaller => some (.load .ivClient fun word =>
      match Published.decode? word with
      | some client => c.goTo (.tellCaller client)
      | none => c.roundServed)
  | .tellCaller client => some (.ring client fun outcome =>
      c.orFail outcome fun _ => c.roundServed)
  | .returned _ => none

/-- All the passes of a round at once. -/
def stride (c : Call) : Option ((Memory → Call) × (Memory → Memory)) :=
  match c.point with
  | .fill seed 0 0 =>
      some
        (fun _ =>
          let server := Nat.repeat countPass c.server.config.passes.toNat c.server
          goTo { c with server := server } .recheckShutdown,
          fun memory => memory.fill c.server.session.slots.toNat seed)
  | _ => none

end Call

/-- Begins a call. -/
def call (server : Server) (goal : Goal) : Call :=
  let point : Point :=
    match goal with
    | .announce | .run => .identify
    | .serveOnce => .listen
  ⟨server, goal, point⟩

instance : Role Call where
  device c := c.server.device
  session c := c.server.session
  timeout c := c.server.config.timeout
  move := Call.move
  stride := Call.stride

end Server

end PeerBus
