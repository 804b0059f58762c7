/-
# `PeerBus.Scenario.World` — the world of a scenario

A `World` is a machine together with the names that the scenario gave to its objects, the roles
between their calls, and the calls that are asleep.  Dropping or replacing a name lets go of the
object: a device is detached, a registration given up, a probe told of nothing any more, and a
fabric without a name routes nothing.
-/
import PeerBus.Scenario.Step
import PeerBus.Machine.Describe

namespace PeerBus.Scenario

/-! ## Names -/

/-- Objects under names, in the order in which the names came up. -/
structure Bindings (α : Type) where
  entries : List (String × α) := []

namespace Bindings

variable {α : Type}

/-- The object under a name. -/
def find? (b : Bindings α) (name : String) : Option α := b.entries.lookup name

/-- Gives a name to an object, in place of the one that has it. -/
def bind (b : Bindings α) (name : String) (a : α) : Bindings α :=
  if (b.find? name).isSome then
    ⟨b.entries.map fun entry => if entry.1 == name then (name, a) else entry⟩
  else ⟨b.entries ++ [(name, a)]⟩

/-- Takes a name away. -/
def unbind (b : Bindings α) (name : String) : Bindings α :=
  ⟨b.entries.filter fun entry => entry.1 != name⟩

/-- Whether an object has a name. -/
def holds [DecidableEq α] (b : Bindings α) (a : α) : Bool :=
  b.entries.any fun entry => entry.2 = a

end Bindings

/-! ## Roles and sleeping calls -/

/-- A role between its calls. -/
inductive Actor where
  | client (client : Client)
  | server (server : Server)

/-- What a sleeping call does once its wait has an outcome. -/
inductive Task where
  /-- A wait on a primitive of its own. -/
  | primitive
  /-- A wait on a device. -/
  | operation
  /-- A control request. -/
  | request
  /-- A client in the middle of a call. -/
  | client (actor : Nat) (call : Client.Call) (next : Except DeviceError Unit → Client.Call)
  /-- A server in the middle of a call. -/
  | server (actor : Nat) (call : Server.Call) (next : Except DeviceError Unit → Server.Call)

/-- A call that is asleep, or about to look again. -/
structure Sleeper where
  call : CallId
  /-- How the call is reported when it returns. -/
  label : String
  site : Site
  timeout : Option Timeout
  task : Task

/-- The state of a scenario. -/
structure World where
  machine : Machine := {}
  windows : Bindings (Ref .region) := {}
  mappings : Bindings (Ref .region) := {}
  registers : Bindings Registers := {}
  lines : Bindings (Ref .line) := {}
  probes : Bindings (Ref .probe) := {}
  registrations : Bindings Seat := {}
  fabrics : Bindings (Ref .fabric) := {}
  /-- Every device ever named; one whose seat is gone is no longer attached. -/
  devices : Bindings (Ref .device) := {}
  streams : Bindings Stream := {}
  sessions : Bindings Session := {}
  roles : Bindings Nat := {}
  semaphores : Bindings (Ref .semaphore) := {}
  events : Bindings (Ref .event) := {}
  /-- The roles; none while one is in a call or after it was used up. -/
  actors : Array (Option Actor) := #[]
  /-- The calls that are asleep, oldest first. -/
  sleepers : List Sleeper := []
  /-- The number of the next call. -/
  nextCall : Nat := 0

/-- An action of a scenario: it may change the world, and what it changed before it failed stays
changed. -/
abbrev Effect := ExceptT Failure (StateM World)

namespace Effect

/-- Lets the machine work. -/
def onMachine {α : Type} (f : Machine → Machine × α) : Effect α :=
  modifyGet fun w =>
    let (machine, a) := f w.machine
    (a, { w with machine := machine })

/-- Changes the machine. -/
def change (f : Machine → Machine) : Effect Unit :=
  modify fun w => { w with machine := f w.machine }

/-- Looks at the machine. -/
def look {α : Type} (f : Machine → α) : Effect α := do return f (← get).machine

/-- The object that a name stands for, if any. -/
def require {α : Type} (found : Option α) : Effect α :=
  match found with
  | some a => pure a
  | none => throw .noSuchObject

/-- The object under a name. -/
def find {α : Type} (bindings : World → Bindings α) (name : String) : Effect α := do
  require ((bindings (← get)).find? name)

/-- The result of a device operation. -/
def ofDevice {α : Type} (outcome : Except DeviceError α) : Effect α :=
  match outcome with
  | .ok a => pure a
  | .error e => throw (.device e)

/-- The result of a handshake operation. -/
def ofHandshake {α : Type} (outcome : Except HandshakeError α) : Effect α :=
  match outcome with
  | .ok a => pure a
  | .error e => throw (.handshake e)

end Effect

open Effect

/-! ## Binding and letting go -/

/-- A fabric that has lost a name is gone if it has no other. -/
def retireIfUnnamed (fabric : Ref .fabric) : Effect Unit := do
  unless (← get).fabrics.holds fabric do
    change fun m => m.retireFabric fabric

/-- Names a device; the one that had the name is detached. -/
def bindDevice (name : String) (device : Ref .device) : Effect Unit := do
  let old := (← get).devices.find? name
  modify fun w => { w with devices := w.devices.bind name device }
  if let some old := old then change fun m => m.detach old

/-- Names a registration; the one that had the name is given up. -/
def bindRegistration (name : String) (seat : Seat) : Effect Unit := do
  let old := (← get).registrations.find? name
  modify fun w => { w with registrations := w.registrations.bind name seat }
  if let some old := old then change fun m => m.release old

/-- Names a probe; the one that had the name is told of nothing any more. -/
def bindProbe (name : String) (probe : Ref .probe) : Effect Unit := do
  let old := (← get).probes.find? name
  modify fun w => { w with probes := w.probes.bind name probe }
  if let some old := old then change fun m => m.retireProbe old

/-- Names a fabric. -/
def bindFabric (name : String) (fabric : Ref .fabric) : Effect Unit := do
  let old := (← get).fabrics.find? name
  modify fun w => { w with fabrics := w.fabrics.bind name fabric }
  if let some old := old then retireIfUnnamed old

/-- Takes a name away from bindings that hold nothing else; the answer tells whether it was
bound. -/
def unbindPlain {α : Type} (bindings : World → Bindings α)
    (update : World → Bindings α → World) (name : String) : Effect Bool := do
  let bound := ((bindings (← get)).find? name).isSome
  modify fun w => update w ((bindings w).unbind name)
  return bound

/-- Drops an object. -/
def drop (kind : ObjectKind) (name : String) : Effect Bool := do
  match kind with
  | .window => unbindPlain World.windows (fun w b => { w with windows := b }) name
  | .mapping => unbindPlain World.mappings (fun w b => { w with mappings := b }) name
  | .registers => unbindPlain World.registers (fun w b => { w with registers := b }) name
  | .line => unbindPlain World.lines (fun w b => { w with lines := b }) name
  | .stream => unbindPlain World.streams (fun w b => { w with streams := b }) name
  | .session => unbindPlain World.sessions (fun w b => { w with sessions := b }) name
  | .probe =>
      let old := (← get).probes.find? name
      modify fun w => { w with probes := w.probes.unbind name }
      if let some old := old then change fun m => m.retireProbe old
      return old.isSome
  | .registration =>
      let old := (← get).registrations.find? name
      modify fun w => { w with registrations := w.registrations.unbind name }
      if let some old := old then change fun m => m.release old
      return old.isSome
  | .fabric =>
      let old := (← get).fabrics.find? name
      modify fun w => { w with fabrics := w.fabrics.unbind name }
      if let some old := old then retireIfUnnamed old
      return old.isSome
  | .device =>
      match (← get).devices.find? name with
      | none => return false
      | some device =>
          let attached ← look fun m => (m.devices.get device).seat.isSome
          change fun m => m.detach device
          return attached
  | .handle | .pending => return false

/-- Shows an object. -/
def describe (kind : ObjectKind) (name : String) : Effect String := do
  match kind with
  | .window => do let r ← find World.windows name; look fun m => m.describeWindow r
  | .mapping => do let r ← find World.mappings name; look fun m => m.describeMapping r
  | .registers => do
      match ← find World.registers name with
      | .words _ => return Machine.describeMappedRegisters
      | .recorder _ | .endpoint _ => throw .noSuchObject
  | .line => do let r ← find World.lines name; look fun m => (m.lines.get r).describe
  | .registration => do
      let seat ← find World.registrations name
      look fun m => m.describeSeat seat
  | .fabric => do let r ← find World.fabrics name; look fun m => m.describeFabric r
  | .device => do
      let r ← find World.devices name
      if ← look fun m => (m.devices.get r).seat.isSome then look fun m => m.describeDevice r
      else throw .noSuchObject
  | .handle => do let r ← find World.devices name; look fun m => m.describeHandle r
  | .pending => do
      let r ← find World.devices name
      look fun m => (m.devices.get r).pending.describe
  | .stream => do let s ← find World.streams name; look fun m => m.describeStream s
  | .session => do let s ← find World.sessions name; look fun m => m.describeSession s
  | .probe => throw .noSuchObject

end PeerBus.Scenario
