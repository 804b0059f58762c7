/-
# `PeerBus.Handshake.Client` — the client

The client begins everything.  To connect it publishes its id, says hello to a server that is
ready already, and waits until a server is ready and published.  For a round it leaves the seed,
raises `start`, rings, waits for `done` and then checks every slot as often as it is told to.
A slot that is wrong ends the session: `shutdown` is set and the server is rung once more.

A wait that ends says only that something may have happened.  The client looks at the record each
time, and waits again if what it waits for is not there.
-/
import PeerBus.Handshake.Move

namespace PeerBus

/-- A client between its calls. -/
structure Client where
  device : Ref .device
  session : Session
  config : Config
  /-- The server, once it is connected. -/
  server : Option PeerId := none
  /-- The rounds verified; 2 ^ 64 of them are out of reach (`Summary`). -/
  rounds : Nat := 0
  throughput : Throughput := {}

namespace Client

/-- What a client is called for. -/
inductive Goal where
  /-- Find the server. -/
  | connect
  /-- Have one round done and check it. -/
  | round (seed : UInt32)
  /-- End the session. -/
  | shutdown
  /-- Connect, do rounds up to the limit, end the session; `drawn` seeds are used up. -/
  | run (seeds : Nat → UInt32) (drawn : Nat)

/-- A round under way. -/
structure Round where
  server : PeerId
  seed : UInt32
  deriving DecidableEq

/-- Where a client is in its program: before the access that the name says. -/
inductive Point where
  | identify
  | publish (self : PeerId)
  | lookReady
  | lookServer
  | hello (server : PeerId)
  | listen
  | heedShutdown
  | heedReady
  | heedServer
  | enter (round : Round)
  | clearDone (round : Round)
  | plantSeed (round : Round)
  | raiseStart (round : Round)
  | callServer (round : Round)
  | await (round : Round)
  | checkShutdown (round : Round)
  | checkDone (round : Round)
  | lowerDone (round : Round)
  | verify (round : Round) (pass index : Nat)
  | stop (cause : Option HandshakeError)
  | farewell (server : PeerId) (cause : Option HandshakeError)
  | returned (ended : Ended)

/-- A call of a client. -/
structure Call where
  client : Client
  goal : Goal
  point : Point

namespace Call

/-- The call at another point. -/
def goTo (c : Call) (point : Point) : Call := { c with point := point }

/-- The call returns. -/
def finish (c : Call) (achieved : Achieved) : Call := c.goTo (.returned (.ok achieved))

/-- The call fails. -/
def fail (c : Call) (cause : HandshakeError) : Call := c.goTo (.returned (.error cause))

/-- Goes on after an operation of the device that may fail. -/
def orFail {α : Type} (c : Call) (outcome : Except DeviceError α) (next : α → Call) : Call :=
  match outcome with
  | .ok value => next value
  | .error cause => c.fail (.device cause)

/-- What the client of the call did so far. -/
def summary (c : Call) : Summary := ⟨c.client.rounds, c.client.throughput⟩

/-- A run begins its next round, or ends the session after the last one. -/
def nextRound (c : Call) (server : PeerId) (seeds : Nat → UInt32) (drawn : Nat) : Call :=
  if c.client.config.isEnough c.client.rounds then c.goTo (.stop none)
  else { c with goal := .run seeds (drawn + 1), point := .enter ⟨server, seeds drawn⟩ }

/-- The client is connected. -/
def connected (c : Call) (server : PeerId) : Call :=
  let c := { c with client := { c.client with server := some server } }
  match c.goal with
  | .connect | .shutdown => c.finish (.peer server)
  | .round seed => c.goTo (.enter ⟨server, seed⟩)
  | .run seeds drawn => c.nextRound server seeds drawn

/-- Every pass of the round was good. -/
def roundVerified (c : Call) (round : Round) : Call :=
  let c := { c with client := { c.client with rounds := c.client.rounds + 1 } }
  match c.goal with
  | .run seeds drawn => c.nextRound round.server seeds drawn
  | .connect | .round _ | .shutdown => c.finish .done

/-- A pass begins, unless all are done. -/
def beginPass (c : Call) (round : Round) (pass : Nat) : Call :=
  if pass < c.client.config.passes.toNat then c.goTo (.verify round pass 0)
  else c.roundVerified round

/-- The client with one more pass counted. -/
def countPass (client : Client) : Client :=
  { client with
    throughput := (client.throughput.recordReads client.session.slots).toOption.getD
      client.throughput }

/-- The session is ended, for a cause or because it was asked for. -/
def stopped (c : Call) : Option HandshakeError → Call
  | some cause => c.fail cause
  | none =>
      match c.goal with
      | .run _ _ => c.finish (.summary c.summary)
      | .connect | .round _ | .shutdown => c.finish .done

/-- The next access of a call. -/
def move (c : Call) : Option (Move Call) :=
  match c.point with
  | .identify => some (.identify fun outcome =>
      c.orFail outcome fun self => c.goTo (.publish self))
  | .publish self => some (.store .ivClient (Published.encode self) (c.goTo .lookReady))
  | .lookReady => some (.load .ready fun word =>
      c.goTo (if word = Marker.ready then .lookServer else .listen))
  | .lookServer => some (.load .ivServer fun word =>
      match Published.decode? word with
      | some server => c.goTo (.hello server)
      | none => c.goTo .listen)
  | .hello server => some (.ring server fun outcome => c.orFail outcome fun _ => c.goTo .listen)
  | .listen => some (.wait fun outcome => c.orFail outcome fun _ => c.goTo .heedShutdown)
  | .heedShutdown => some (.load .shutdown fun word =>
      if word = 0 then c.goTo .heedReady else c.fail .shutdown)
  | .heedReady => some (.load .ready fun word =>
      c.goTo (if word = Marker.ready then .heedServer else .listen))
  | .heedServer => some (.load .ivServer fun word =>
      match Published.decode? word with
      | some server => c.connected server
      | none => c.goTo .listen)
  | .enter round => some (.load .shutdown fun word =>
      if word = 0 then c.goTo (.clearDone round) else c.fail .shutdown)
  | .clearDone round => some (.store .done 0 (c.goTo (.plantSeed round)))
  | .plantSeed round => some (.store .data round.seed (c.goTo (.raiseStart round)))
  | .raiseStart round => some (.store .start Marker.start (c.goTo (.callServer round)))
  | .callServer round => some (.ring round.server fun outcome =>
      c.orFail outcome fun _ => c.goTo (.await round))
  | .await round => some (.wait fun outcome =>
      c.orFail outcome fun _ => c.goTo (.checkShutdown round))
  | .checkShutdown round => some (.load .shutdown fun word =>
      if word = 0 then c.goTo (.checkDone round) else c.fail .shutdown)
  | .checkDone round => some (.load .done fun word =>
      c.goTo (if word = Marker.done then .lowerDone round else .await round))
  | .lowerDone round => some (.store .done 0 (c.beginPass round 0))
  | .verify round pass index => some (.loadSlot index fun found =>
      let expected := Layout.pattern index round.seed
      if found ≠ expected then c.goTo (.stop (some (.mismatch ⟨index, expected, found⟩)))
      else if index + 1 < c.client.session.slots.toNat then
        c.goTo (.verify round pass (index + 1))
      else beginPass { c with client := countPass c.client } round (pass + 1))
  | .stop cause => some (.store .shutdown 1
      (match c.client.server with
      | some server => c.goTo (.farewell server cause)
      | none => c.stopped cause))
  | .farewell server cause => some (.ring server fun outcome =>
      match outcome, cause with
      | .error e, none => c.fail (.device e)
      | _, _ => c.stopped cause)
  | .returned _ => none

/-- All the passes of a round at once. -/
def stride (c : Call) : Option ((Memory → Call) × (Memory → Memory)) :=
  match c.point with
  | .verify round 0 0 =>
      some
        (fun memory =>
          match memory.check c.client.session.slots.toNat round.seed with
          | some wrong => c.goTo (.stop (some (.mismatch wrong)))
          | none =>
              let client := Nat.repeat countPass c.client.config.passes.toNat c.client
              roundVerified { c with client := client } round,
          fun memory => memory)
  | _ => none

end Call

/-- Begins a call. -/
def call (client : Client) (goal : Goal) : Call :=
  let point : Point :=
    match goal, client.server with
    | .connect, _ | .run _ _, _ | .round _, none => .identify
    | .round seed, some server => .enter ⟨server, seed⟩
    | .shutdown, _ => .stop none
  ⟨client, goal, point⟩

instance : Role Call where
  device c := c.client.device
  session c := c.client.session
  timeout c := c.client.config.timeout
  move := Call.move
  stride := Call.stride

end Client

end PeerBus
