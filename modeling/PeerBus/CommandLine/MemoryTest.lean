/-
# `PeerBus.CommandLine.MemoryTest` — the memory test

The test attaches a server and a client to one fabric, runs both roles to their end and reports
what they moved.  If the client fails, the server's device is detached, so that the server does
not wait for a doorbell that never comes.
-/
import PeerBus.CommandLine.Options
import PeerBus.Scenario.Run

namespace PeerBus.CommandLine

open Scenario

/-- How a run of the program ends. -/
inductive Exit where
  /-- Both roles came to their end. -/
  | passed (client server : Summary)
  /-- The test failed; the text says why. -/
  | failed (text : String)
  /-- The arguments cannot be used. -/
  | misused (message : String)
  /-- There can be no window of that size. -/
  | tooLarge
  | help
  | version

/-- The exit code of the program. -/
def Exit.code : Exit → UInt32
  | passed _ _ | help | version => 0
  | failed _ => 1
  | misused _ => 2
  | tooLarge => 101

/-- The causes of a failure, from the nearest to the deepest. -/
def causes : HandshakeError → List String
  | .device cause => [(HandshakeError.device cause).message, cause.message]
  | e => [e.message]

/-- The text of a failure: what was being done, then its causes, numbered if there are several. -/
def failureText (context : String) (chain : List String) : String :=
  let lines : List String := match chain with
    | [] => []
    | [cause] => [s!"    {cause}"]
    | _ => chain.zipIdx.map fun entry => s!"    {entry.2}: {entry.1}"
  let head := s!"Error: {context}\n"
  if lines.isEmpty then head
  else head ++ "\nCaused by:\n" ++ String.join (lines.map fun line => line ++ "\n")

/-- The settings of both roles. -/
def Options.config (o : Options) : Config :=
  { passes := o.passes
    rounds := if o.rounds = 0 then none else some o.rounds
    timeout := o.timeoutMs.map fun ms =>
      { seconds := ms / 1000, nanoseconds := (ms % 1000).toUInt32 * 1000000 } }

/-- The seed of a round, scattered over all words. -/
def roundSeed (start : UInt64) (round : Nat) : UInt32 :=
  let z := start + UInt64.ofNat (round + 1) * 0x9E3779B97F4A7C15
  let z := (z ^^^ (z >>> 30)) * 0xBF58476D1CE4E5B9
  let z := (z ^^^ (z >>> 27)) * 0x94D049BB133111EB
  (z ^^^ (z >>> 31)).toUInt32

/-- The largest block of memory. -/
def largestBlock : Nat := 0x7FFFFFFFFFFFFFFF

/-- The steps that lead to the two roles. -/
def setup (o : Options) : List Step :=
  [.fabric (.make "bus" o.windowSize),
    .fabric (.attach "bus" ⟨o.serverId⟩ "server"),
    .fabric (.attach "bus" ⟨o.clientId⟩ "client")]

/-- The causes of a failed step. -/
def failureCauses : Failure → List String
  | .handshake e => causes e
  | .device e => [e.message]
  | .stream e => [e.message]
  | .wait e => [(DeviceError.ofWait e).message]
  | .noSuchObject | .busy => []

/-- The outcome of a call: at once, or among the calls that returned later. -/
def outcomeOf (label : String) (answer : Answer) (returned : List Return) : Option Outcome :=
  match answer.outcome? with
  | some outcome => some outcome
  | none => (returned.find? fun r => r.label == label).map Return.outcome

/-- Runs the roles of a world that is set up, both at once. -/
def runRoles (w : World) (seeds : Nat → UInt32) : Exit :=
  let (w, served) := w.act (.role (.run "server" seeds))
  let (w, played) := w.act (.role (.run "client" seeds))
  let (w, returned) := settle w
  match outcomeOf "run client" played returned with
  | some (.ok (.summary client)) =>
      match outcomeOf "run server" served returned with
      | some (.ok (.summary server)) => .passed client server
      | some (.error e) => .failed (failureText "server" (failureCauses e))
      | some (.ok _) | none => .failed (failureText "server thread panicked" [])
  | some (.error e) =>
      let (_, detached) := w.step (.device (.detach "server"))
      match outcomeOf "run server" served (returned ++ detached.woken) with
      | some _ => .failed (failureText "client" (failureCauses e))
      | none => .failed (failureText "server thread panicked" [])
  | some (.ok _) | none => .failed (failureText "server thread panicked" [])

/-- Runs the test. -/
def test (o : Options) (entropy : UInt64) : Exit :=
  if o.serverId = o.clientId then
    .failed (failureText "server and client need distinct peer ids" [])
  else if largestBlock < (o.windowSize.toNat + 7) / 8 * 8 then .tooLarge
  else
    let w := (setup o).foldl (fun (w : World) step => (w.step step).1) {}
    let (w, server) := w.step (.role (.server "server" "server" o.config))
    match server.answer with
    | .outcome (.error e) => .failed (failureText "server setup" (failureCauses e))
    | _ =>
        let (w, client) := w.step (.role (.client "client" "client" o.config))
        match client.answer with
        | .outcome (.error e) => .failed (failureText "client setup" (failureCauses e))
        | _ => runRoles w (roundSeed (o.seed.getD entropy))

/-- Does what the arguments ask for; `entropy` starts the seeds if no start is given. -/
def perform (arguments : List String) (entropy : UInt64) : Exit :=
  match Order.ofArguments arguments with
  | .run o => test o entropy
  | .help => .help
  | .version => .version
  | .misuse message => .misused message

end PeerBus.CommandLine
