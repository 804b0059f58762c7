/-
# `PeerBus.Scenario.Run` — running a scenario

Each step acts on the world and has an answer; the world then settles, and the calls that
returned meanwhile are reported beside the answer.  If the step's own call is among them, its
outcome is the answer.
-/
import PeerBus.Scenario.Calls

namespace PeerBus.Scenario

open Effect

/-- The byte that buffers are filled with before something is read into them. -/
def filler : UInt8 := 0xEE

/-- A buffer of this size. -/
def freshBuffer (size : Nat) : List UInt8 := List.replicate size filler

/-- Whether memory `base` bytes past an aligned address can be used: there must be an address, and
words must be aligned. -/
def accepts (base : Option UInt64) : Bool := base.any fun b => b % 4 = 0

/-! ## Windows, registers, lines, fabrics -/

/-- The size of a region and whether it has no byte. -/
def extent (region : Ref .region) : Effect Reply :=
  look fun m => .extent (m.regionSize region).toNat (m.regions.get region).isEmpty

/-- Steps on windows. -/
def runWindow : WindowStep → Effect Reply
  | .make name size => do
      let region ← onMachine fun m => m.addRegion size
      modify fun w => { w with windows := w.windows.bind name region }
      extent region
  | .makeExternal name size base => do
      if accepts base then
        let region ← onMachine fun m => m.addRegion size
        modify fun w => { w with windows := w.windows.bind name region }
        look fun m => .block (m.regionSize region).toNat (m.regions.get region).isEmpty
          (m.describeExternal region)
      else return .refused
  | .heap size => do
      let region ← onMachine fun m => m.addRegion size
      look fun m => .block (m.regionSize region).toNat (m.regions.get region).isEmpty
        (m.describeHeap region)
  | .clone window name => do
      let region ← find World.windows window
      modify fun w => { w with windows := w.windows.bind name region }
      return .unit
  | .read window offset wanted => do
      let region ← find World.windows window
      look fun m =>
        let (count, buffer) := (m.regions.get region).readInto offset (freshBuffer wanted)
        .transfer count buffer
  | .write window offset data => do
      let region ← find World.windows window
      return .number (← onMachine fun m => m.writeRegion region offset data)
  | .map window name => do
      let region ← find World.windows window
      modify fun w => { w with mappings := w.mappings.bind name region }
      extent region
  | .load mapping offset => do
      let region ← find World.mappings mapping
      look fun m => .maybe (((m.regions.get region).load? offset).map UInt32.toNat)
  | .store mapping offset value => do
      let region ← find World.mappings mapping
      return .flag (← onMachine fun m => m.storeRegion region offset value)

/-- The recording block under a name. -/
def findRecorder (name : String) : Effect (Ref .recorder) := do
  match ← find World.registers name with
  | .recorder block => return block
  | .words _ | .endpoint _ => throw .noSuchObject

/-- The block over memory under a name. -/
def findWords (name : String) : Effect (Ref .words) := do
  match ← find World.registers name with
  | .words block => return block
  | .recorder _ | .endpoint _ => throw .noSuchObject

/-- Steps on register blocks. -/
def runRegister : RegisterStep → Effect Reply
  | .record name position => do
      let block ← onMachine fun m => m.addRecorder position
      modify fun w => { w with registers := w.registers.bind name (.recorder block) }
      return .unit
  | .map name base => do
      if accepts base then
        let block ← onMachine fun m => m.addWords
        modify fun w => { w with registers := w.registers.bind name (.words block) }
        return .flag true
      else return .flag false
  | .words name => do
      let block ← findWords name
      look fun m => .numbers (((m.words.get block).toList.take 6).map UInt32.toNat)
  | .poke name index value => do
      let block ← findWords name
      change fun m => { m with
        words := m.words.modify block fun w => w.setIfInBounds index value }
      return .unit
  | .setStatus name value => do
      let block ← findRecorder name
      change fun m => { m with
        recorders := m.recorders.modify block fun r => { r with status := value } }
      return .unit
  | .mask name => do
      let block ← findRecorder name
      look fun m => .number (m.recorders.get block).mask.toNat
  | .doorbells name => do
      let block ← findRecorder name
      look fun m => .numbers ((m.recorders.get block).doorbells.map fun d => d.raw.toNat)
  | .takeDoorbells name => do
      let block ← findRecorder name
      let taken ← look fun m => (m.recorders.get block).doorbells
      change fun m => { m with
        recorders := m.recorders.modify block fun r => { r with doorbells := [] } }
      return .numbers (taken.map fun d => d.raw.toNat)
  | .read name register => do
      let block ← find World.registers name
      return .number (← onMachine fun m => m.readRegister block register).toNat
  | .write name register value => do
      let block ← find World.registers name
      change fun m => m.writeRegister block register value
      return .unit

/-- Steps on lines and probes. -/
def runLine : LineStep → Effect Reply
  | .make name number => do
      let line ← onMachine fun m => m.addLine number
      modify fun w => { w with lines := w.lines.bind name line }
      return .number number.toNat
  | .raise name => do
      let line ← find World.lines name
      return .interrupt (← onMachine fun m => m.raise line)
  | .handlerCount name => do
      let line ← find World.lines name
      look fun m => .number (m.lines.get line).handlerCount
  | .probe name handled chain => do
      let chain ← match chain with
        | none => pure none
        | some chain => some <$> find World.lines chain
      let probe ← onMachine fun m => m.addProbe handled chain
      bindProbe name probe
      return .unit
  | .calls name => do
      let probe ← find World.probes name
      look fun m => .number (m.probes.get probe).calls
  | .request line probe name => do
      let line ← find World.lines line
      let probe ← find World.probes probe
      let seat ← onMachine fun m => m.request line (.probe probe)
      let shown ← look fun m => m.describeSeat seat
      bindRegistration name seat
      return .text shown

/-- Steps on fabrics. -/
def runFabric : FabricStep → Effect Reply
  | .make name size => do
      let fabric ← onMachine fun m => m.addFabric size
      bindFabric name fabric
      let size ← look fun m => (m.regionSize (m.fabrics.get fabric).window).toNat
      return .numbers [size, size]
  | .clone name copy => do
      let fabric ← find World.fabrics name
      bindFabric copy fabric
      return .unit
  | .window name window => do
      let fabric ← find World.fabrics name
      let region ← look fun m => (m.fabrics.get fabric).window
      modify fun w => { w with windows := w.windows.bind window region }
      return .unit
  | .attach name peer device => do
      let fabric ← find World.fabrics name
      let attached ← onMachine fun m => m.fabricAttach fabric peer
      bindDevice device (← ofDevice attached)
      return .unit
  | .resources name peer copy => do
      let fabric ← find World.fabrics name
      let resources ← onMachine fun m => m.resources fabric peer
      modify fun w => { w with
        registers := w.registers.bind copy (.endpoint resources.endpoint)
        lines := w.lines.bind copy resources.line
        windows := w.windows.bind copy resources.window }
      look fun m =>
        .endpoint (m.lines.get resources.line).number.toNat (m.describeResources resources)
  | .raise name peer status => do
      let fabric ← find World.fabrics name
      return .interrupt (← onMachine fun m => m.fabricRaise fabric peer status)
  | .remove name peer => do
      let fabric ← find World.fabrics name
      return .flag (← onMachine fun m => m.fabricRemove fabric peer)
  | .peers name => do
      let fabric ← find World.fabrics name
      look fun m => .numbers ((m.fabrics.get fabric).peers.map fun p => p.number.toNat)

/-! ## Devices -/

/-- The object under a name that may be left out. -/
def findGiven {α : Type} (bindings : World → Bindings α) :
    Option String → Effect (Option α)
  | none => return none
  | some name => return some (← find bindings name)

/-- Steps on devices. -/
def runDevice : DeviceStep → Effect Answer
  | .attach name registers window line => do
      let registers ← findGiven World.registers registers
      let window ← findGiven World.windows window
      let line ← find World.lines line
      let attached ← onMachine fun m => m.attach registers window line
      bindDevice name (← ofDevice attached)
      return .outcome (.ok .unit)
  | .detach name => do
      let device ← find World.devices name
      if ← look fun m => (m.devices.get device).seat.isSome then
        change fun m => m.detach device
        return .outcome (.ok .unit)
      else throw .noSuchObject
  | .isEnabled name => do
      let device ← find World.devices name
      return .outcome (.ok (.flag (← look fun m => (m.devices.get device).enabled)))
  | .isIdle name => do
      let device ← find World.devices name
      return .outcome (.ok (.flag (← look fun m => (m.devices.get device).pending.isIdle)))
  | .arm name count => do
      let device ← find World.devices name
      change fun m => m.arm device count
      return .outcome (.ok .unit)
  | .interruptWaiters name => do
      let device ← find World.devices name
      change fun m => m.interruptWaiters device
      return .outcome (.ok .unit)
  | .down name timeout => do
      let device ← find World.devices name
      beginWait s!"down {name}" (.units device) timeout .operation
        (fun m id => m.down device id) ofOperation
  | .waitEvent name timeout => do
      let device ← find World.devices name
      beginWait s!"wait_event {name}" (.signal device) timeout .operation
        (fun m id => m.waitEvent device id) ofOperation
  | .ring name target command => do
      let device ← find World.devices name
      let rung ← onMachine fun m => m.ring device target command
      ofDevice rung
      return .outcome (.ok .unit)
  | .peerId name => do
      let device ← find World.devices name
      let peer ← ofDevice (← onMachine fun m => m.peerId device)
      return .outcome (.ok (.number peer.number.toNat))
  | .control name number argument => do
      let device ← find World.devices name
      let request ← ofDevice (Request.decode number argument)
      let site : Site := match request with
        | .downSema => .units device
        | _ => .signal device
      beginWait s!"control {name} {request.command.name}" site none .request
        (fun m id => m.control device request id) ofRequest
  | .windowSize name => do
      let device ← find World.devices name
      let size ← ofDevice (← look fun m => m.windowSize device)
      return .outcome (.ok (.number size.toNat))
  | .read name offset wanted => do
      let device ← find World.devices name
      return .outcome (.ok (.bytes (← ofDevice (← look fun m => m.read device offset wanted))))
  | .readInto name offset wanted => do
      let device ← find World.devices name
      let (count, buffer) ←
        ofDevice (← look fun m => m.readInto device offset (freshBuffer wanted))
      return .outcome (.ok (.transfer count buffer))
  | .write name offset data => do
      let device ← find World.devices name
      let written ← onMachine fun m => m.write device offset data
      return .outcome (.ok (.number (← ofDevice written)))
  | .map name mapping => do
      let device ← find World.devices name
      let region ← ofDevice (← look fun m => m.map device)
      modify fun w => { w with mappings := w.mappings.bind mapping region }
      return .outcome (.ok (← extent region))

/-! ## Streams -/

/-- The outcome of a stream operation. -/
def ofStream {α : Type} (reply : α → Reply) : Except StreamError α → Outcome
  | .ok a => .ok (reply a)
  | .error e => .error (.stream e)

/-- Works on a stream and keeps its new position. -/
def onStream {α : Type} (name : String) (reply : α → Reply)
    (f : Machine → Stream → Machine × Stream × Except StreamError α) : Effect Answer := do
  let stream ← find World.streams name
  let (stream, outcome) ← onMachine fun m => f m stream
  modify fun w => { w with streams := w.streams.bind name stream }
  return .positioned stream.position (ofStream reply outcome)

/-- Steps on streams. -/
def runStream : StreamStep → Effect Answer
  | .make device name => do
      let device ← find World.devices device
      modify fun w => { w with streams := w.streams.bind name { device := device } }
      return .outcome (.ok .unit)
  | .read name wanted =>
      onStream name (fun (count, buffer) => .transfer count buffer) fun m s =>
        (m, s.read m (freshBuffer wanted))
  | .readExact name wanted => onStream name .bytes fun m s => (m, s.readExact m wanted)
  | .readToEnd name =>
      onStream name (fun data => .transfer data.length data) fun m s => (m, s.readToEnd m)
  | .write name data => onStream name .number fun m s => s.write m data
  | .writeAll name data => onStream name (fun _ => .unit) fun m s => s.writeAll m data
  | .seek name origin =>
      onStream name (fun position => .number position.toNat) fun m s => (m, s.seek m origin)
  | .flush name | .position name => onStream name (fun _ => .unit) fun m s => (m, s, .ok ())

/-! ## Sessions and roles -/

/-- The record of a session, field by field. -/
def viewRecord (session : Session) (memory : Memory) : RecordView :=
  { fields := Field.all.map memory.field
    server := memory.server?
    client := memory.client?
    ready := memory.isReady
    started := memory.isStarted
    done := memory.isDone
    shutdown := memory.isShutdown
    slots := session.slots }

/-- Changes the memory of a session. -/
def changeRecord (name : String) (f : Memory → Memory) : Effect Reply := do
  let session ← find World.sessions name
  change fun m => m.modifyRegion session.region f
  return .unit

/-- Steps on sessions. -/
def runSession : SessionStep → Effect Reply
  | .make mapping name => do
      let region ← find World.mappings mapping
      let size ← look fun m => m.regionSize region
      let session ← ofHandshake (Session.open? region size)
      modify fun w => { w with sessions := w.sessions.bind name session }
      return .numbers [session.slots.toNat, size.toNat]
  | .get name field => do
      let session ← find World.sessions name
      look fun m => .number ((m.regions.get session.region).field field).toNat
  | .set name field value => changeRecord name fun memory => memory.setField field value
  | .publishServer name peer => changeRecord name fun memory => memory.publishServer peer
  | .publishClient name peer => changeRecord name fun memory => memory.publishClient peer
  | .requestShutdown name => changeRecord name Memory.requestShutdown
  | .view name => do
      let session ← find World.sessions name
      look fun m => .record (viewRecord session (m.regions.get session.region))
  | .slot name index => do
      let session ← find World.sessions name
      look fun m => .maybes
        [(session.slotOffset? index).map UInt64.toNat,
          (session.slot? (m.regions.get session.region) index).map UInt32.toNat]
  | .setSlot name index value => do
      let session ← find World.sessions name
      let stored ← look fun m =>
        (session.slotAddress? (m.regions.get session.region) index).isSome
      change fun m => m.modifyRegion session.region fun memory =>
        (session.setSlot memory index value).2
      return .flag stored
  | .writePass name seed => do
      let session ← find World.sessions name
      change fun m => m.modifyRegion session.region fun memory =>
        (session.writePass memory seed).2
      return .number session.slots.toNat
  | .verifyPass name seed => do
      let session ← find World.sessions name
      let slots ← ofHandshake
        (← look fun m => session.verifyPass (m.regions.get session.region) seed)
      return .number slots.toNat

/-- The session on the window of a device. -/
def openSession (device : Ref .device) : Effect Session := do
  match ← look fun m => m.map device with
  | .error e => throw (.handshake (.device e))
  | .ok region =>
      let size ← look fun m => m.regionSize region
      ofHandshake (Session.open? region size)

/-- Steps on roles. -/
def runRole : RoleStep → Effect Answer
  | .client device name config => do
      let device ← find World.devices device
      let session ← openSession device
      bindActor name (.client { device := device, session := session, config := config })
      return .outcome (.ok .unit)
  | .server device name config => do
      let device ← find World.devices device
      let session ← openSession device
      bindActor name (.server { device := device, session := session, config := config })
      return .outcome (.ok .unit)
  | .rounds role name => do
      let (index, actor) ← takeActor role
      returnActor index actor
      let (rounds, session) := match actor with
        | .client client => (client.rounds, client.session)
        | .server server => (server.rounds, server.session)
      if let some name := name then
        modify fun w => { w with sessions := w.sessions.bind name session }
      return .outcome (.ok (.number rounds))
  | .announce role => beginServer s!"announce {role}" role .announce
  | .serveOnce role => beginServer s!"serve_once {role}" role .serveOnce
  | .connect role => beginClient s!"connect {role}" role .connect
  | .round role seed => beginClient s!"round {role}" role (.round seed)
  | .shutdown role => beginClient s!"shutdown {role}" role .shutdown
  | .run role seeds => do
      let (index, actor) ← takeActor role
      returnActor index actor
      match actor with
      | .client _ => beginClient s!"run {role}" role (.run seeds 0)
      | .server _ => beginServer s!"run {role}" role .run

/-! ## Primitives -/

/-- A primitive under a name: a semaphore, or else an event flag. -/
def findPrimitive (name : String) : Effect (Ref .semaphore ⊕ Ref .event) := do
  match (← get).semaphores.find? name with
  | some s => return .inl s
  | none => return .inr (← find World.events name)

/-- Changes a semaphore of its own. -/
def changeSemaphore (name : String) (f : Semaphore → Semaphore) : Effect Answer := do
  let s ← find World.semaphores name
  change fun m => { m with semaphores := m.semaphores.modify s f }
  return .outcome (.ok .unit)

/-- Changes an event flag of its own. -/
def changeEvent (name : String) (f : EventFlag → EventFlag) : Effect Answer := do
  let e ← find World.events name
  change fun m => { m with events := m.events.modify e f }
  return .outcome (.ok .unit)

/-- Steps on primitives. -/
def runPrimitive : PrimitiveStep → Effect Answer
  | .semaphore name => do
      let s ← onMachine Machine.addSemaphore
      modify fun w => { w with semaphores := w.semaphores.bind name s }
      return .outcome (.ok .unit)
  | .event name => do
      let e ← onMachine Machine.addEvent
      modify fun w => { w with events := w.events.bind name e }
      return .outcome (.ok .unit)
  | .arm name count => changeSemaphore name fun s => s.arm count
  | .up name => changeSemaphore name Semaphore.up
  | .set name => changeEvent name EventFlag.set
  | .clear name => changeEvent name EventFlag.clear
  | .interrupt name => do
      match ← findPrimitive name with
      | .inl _ => changeSemaphore name Channel.interrupt
      | .inr _ => changeEvent name Channel.interrupt
  | .close name => do
      match ← findPrimitive name with
      | .inl _ => changeSemaphore name Channel.close
      | .inr _ => changeEvent name Channel.close
  | .wait name timeout => do
      match ← findPrimitive name with
      | .inl s =>
          beginWait s!"p_wait {name}" (.semaphore s) timeout .primitive
            (fun m id =>
              let (channel, outcome) := (m.semaphores.get s).enter id
              ({ m with semaphores := m.semaphores.set s channel }, outcome))
            ofWaited
      | .inr e =>
          beginWait s!"p_wait {name}" (.event e) timeout .primitive
            (fun m id =>
              let (channel, outcome) := (m.events.get e).enter id
              ({ m with events := m.events.set e channel }, outcome))
            ofWaited

/-! ## Steps -/

/-- Steps whose reply is their answer. -/
def replied (action : Effect Reply) : Effect Answer := do return .outcome (.ok (← action))

/-- Any step. -/
def run : Step → Effect Answer
  | .window step => replied (runWindow step)
  | .register step => replied (runRegister step)
  | .line step => replied (runLine step)
  | .fabric step => replied (runFabric step)
  | .device step => runDevice step
  | .stream step => runStream step
  | .session step => replied (runSession step)
  | .role step => runRole step
  | .primitive step => runPrimitive step
  | .describe kind name => replied (.text <$> describe kind name)
  | .drop kind name => replied (.flag <$> drop kind name)

/-- The state of a device that anybody can see. -/
structure DeviceGauge where
  count : UInt32
  flag : Bool
  enabled : Bool

/-- The state of a primitive that anybody can see; `signal` is its count or flag. -/
structure GateGauge (σ : Type) where
  signal : σ
  pending : Bool
  blocked : Nat
  closed : Bool

/-- What can be read off a channel. -/
def GateGauge.of {σ : Type} (c : Channel σ) : GateGauge σ :=
  ⟨c.gate.signal, c.gate.pending, c.gate.blocked, c.gate.closed⟩

/-- The state of everything that can signal, by name. -/
structure Snapshot where
  devices : List (String × DeviceGauge)
  semaphores : List (String × GateGauge Units)
  events : List (String × GateGauge Flag)

/-- The snapshot of a world. -/
def World.snapshot (w : World) : Snapshot :=
  { devices := w.devices.entries.map fun (name, ref) =>
      let d := w.machine.devices.get ref
      (name, ⟨d.pending.semaphore, d.pending.event, d.enabled⟩)
    semaphores := w.semaphores.entries.map fun (name, ref) =>
      (name, .of (w.machine.semaphores.get ref))
    events := w.events.entries.map fun (name, ref) =>
      (name, .of (w.machine.events.get ref)) }

/-- Everything that a step brings about. -/
structure Report where
  answer : Answer
  snapshot : Snapshot
  /-- The earlier calls that returned. -/
  woken : List Return

/-- Carries out a step. -/
def World.act (w : World) (step : Step) : World × Answer :=
  match (run step).run.run w with
  | (.ok answer, w) => (w, answer)
  | (.error failure, w) => (w, .outcome (.error failure))

/-- Carries out a step and lets the world come to rest. -/
def World.step (w : World) (step : Step) : World × Report :=
  let first : CallId := ⟨w.nextCall⟩
  let (w, answer) := w.act step
  let (w, returned) := settle w
  let (own, woken) := returned.partition fun r => r.call = first
  let answer := match own with
    | [] => answer
    | r :: _ => .outcome r.outcome
  (w, ⟨answer, w.snapshot, woken⟩)

/-- The reports of a scenario, from an empty world on. -/
def reports (steps : List Step) : List Report :=
  (steps.foldl (fun (w, done) step =>
    let (w, report) := w.step step
    (w, report :: done)) (({} : World), [])).2.reverse

end PeerBus.Scenario
