/-
# `PeerBus.Machine.Basic` — the machine

A `Machine` owns every object that devices, lines and fabrics are made of.  This module makes
objects, raises interrupt lines and gives access to the registers; a doorbell written to an
endpoint travels through its fabric to the endpoint of the peer addressed and raises that
endpoint's line.
-/
import PeerBus.Device
import PeerBus.Fabric
import PeerBus.Line
import PeerBus.Window.Memory

namespace PeerBus

/-- Everything there is on one host. -/
structure Machine where
  regions : Table .region Memory := {}
  recorders : Table .recorder Recorder := {}
  words : Table .words (Array UInt32) := {}
  endpoints : Table .endpoint Endpoint := {}
  fabrics : Table .fabric Fabric := {}
  lines : Table .line Line := {}
  probes : Table .probe Probe := {}
  devices : Table .device Device := {}
  semaphores : Table .semaphore Semaphore := {}
  events : Table .event EventFlag := {}

namespace Machine

/-! ## Memory -/

/-- Changes the memory of a region. -/
def modifyRegion (m : Machine) (region : Ref .region) (f : Memory → Memory) : Machine :=
  { m with regions := m.regions.modify region f }

/-- Copies data to a region: the number of bytes. -/
def writeRegion (m : Machine) (region : Ref .region) (offset : UInt64) (data : List UInt8) :
    Machine × Nat :=
  let count := (m.regions.get region).span offset data.length
  (m.modifyRegion region fun memory => (memory.writeAt offset data).2, count)

/-- Replaces the word at `offset` of a region, if there is one. -/
def storeRegion (m : Machine) (region : Ref .region) (offset : UInt64) (value : UInt32) :
    Machine × Bool :=
  let stored := ((m.regions.get region).wordAddress? offset).isSome
  (m.modifyRegion region fun memory => (memory.store offset value).2, stored)

/-! ## Interrupts -/

/-- The value of a register.  The status of an endpoint is read once: reading clears it. -/
def readRegister (m : Machine) (registers : Registers) (register : Register) :
    Machine × UInt32 :=
  match registers with
  | .recorder block =>
      let recorder := m.recorders.get block
      match register with
      | .intrMask => (m, recorder.mask)
      | .intrStatus => (m, recorder.status)
      | .ivPosition => (m, recorder.position)
      | .doorbell => (m, 0)
  | .words block => (m, (m.words.get block)[register.index]?.getD 0)
  | .endpoint ref =>
      let endpoint := m.endpoints.get ref
      match register with
      | .intrMask => (m, endpoint.mask)
      | .intrStatus =>
          ({ m with endpoints := m.endpoints.modify ref fun e => { e with status := 0 } },
            endpoint.status)
      | .ivPosition => (m, endpoint.peer.toRegister)
      | .doorbell => (m, 0)

/-- Tells a device of an interrupt.  An enabled device reads its status once and signals the
channel that was rung; the answer tells whether there was anything to read. -/
def dispatch (m : Machine) (ref : Ref .device) : Machine × Bool :=
  let device := m.devices.get ref
  if device.enabled then
    let (m, status) := m.readRegister device.registers .intrStatus
    let rung := StatusEvent.classify status
    match rung with
    | .semaphore =>
        ({ m with devices := m.devices.modify ref fun d =>
            { d with semaphore := d.semaphore.up } }, rung.isHandled)
    | .event =>
        ({ m with devices := m.devices.modify ref fun d =>
            { d with event := d.event.set } }, rung.isHandled)
    | .spurious | .unrecognized _ => (m, rung.isHandled)
  else (m, false)

/-- Tells one handler of an interrupt.  A probe that still exists counts it and answers for itself
or, if it is chained to a line, lets `raise` answer for that line. -/
def tell (raise : Machine → Ref .line → Machine × Bool) (m : Machine) :
    Handler → Machine × Bool
  | .device device => m.dispatch device
  | .probe ref =>
      let probe := m.probes.get ref
      if probe.alive then
        let m := { m with
          probes := m.probes.modify ref fun p => { p with calls := p.calls + 1 } }
        match probe.chain with
        | none => (m, probe.handled)
        | some line => raise m line
      else (m, false)

/-- Tells the handlers of registrations in order; the answer tells whether any of them took the
interrupt. -/
def tellAll (raise : Machine → Ref .line → Machine × Bool) :
    List Registration → Machine → Machine × Bool
  | [], m => (m, false)
  | registration :: rest, m =>
      let (m, first) := tell raise m registration.handler
      let (m, later) := tellAll raise rest m
      (m, first || later)

/-- Raises a line.  Probes may raise further lines in turn; the lines of such a chain differ, so
`depth` need not exceed their number. -/
def raiseWithin : Nat → Machine → Ref .line → Machine × Bool
  | 0, m, _ => (m, false)
  | depth + 1, m, line => tellAll (raiseWithin depth) (m.lines.get line).registrations m

/-- Raises a line. -/
def raise (m : Machine) (line : Ref .line) : Machine × Bool :=
  raiseWithin m.lines.entries.size m line

/-! ## Doorbells -/

/-- Latches a status on an endpoint and raises its line, unless the endpoint is masked and the
delivery is not forced. -/
def deliver (m : Machine) (ref : Ref .endpoint) (status : UInt32) (force : Bool) :
    Machine × Bool :=
  let endpoint := m.endpoints.get ref
  let m := { m with endpoints := m.endpoints.modify ref fun e => { e with status := status } }
  if !force && endpoint.mask = 0 then (m, false) else m.raise endpoint.line

/-- Delivers a doorbell message to the endpoint of its destination, if there is one. -/
def route (m : Machine) (fabric : Ref .fabric) (message : Message) : Machine :=
  match (m.fabrics.get fabric).endpoint? message.destination with
  | some endpoint => (m.deliver endpoint message.status false).1
  | none => m

/-- Writes a register; a register that is only read keeps its value. -/
def writeRegister (m : Machine) (registers : Registers) (register : Register) (value : UInt32) :
    Machine :=
  match registers with
  | .recorder block =>
      match register with
      | .intrMask =>
          { m with recorders := m.recorders.modify block fun r => { r with mask := value } }
      | .doorbell =>
          { m with recorders := m.recorders.modify block fun r =>
              { r with doorbells := r.doorbells ++ [⟨value⟩] } }
      | .intrStatus | .ivPosition => m
  | .words block =>
      { m with words := m.words.modify block fun w => w.setIfInBounds register.index value }
  | .endpoint ref =>
      match register with
      | .intrMask =>
          { m with endpoints := m.endpoints.modify ref fun e => { e with mask := value } }
      | .doorbell =>
          let endpoint := m.endpoints.get ref
          if (m.fabrics.get endpoint.fabric).live then m.route endpoint.fabric ⟨value⟩ else m
      | .intrStatus | .ivPosition => m

/-! ## Making objects -/

/-- Adds a block of zero bytes. -/
def addRegion (m : Machine) (size : UInt64) : Machine × Ref .region :=
  ({ m with regions := m.regions.push (Memory.zeroed size) }, m.regions.fresh)

/-- Adds a recording register block at a position. -/
def addRecorder (m : Machine) (position : PeerId) : Machine × Ref .recorder :=
  ({ m with recorders := m.recorders.push { position := position.toRegister } },
    m.recorders.fresh)

/-- Adds a register block of plain words, all zero. -/
def addWords (m : Machine) : Machine × Ref .words :=
  ({ m with words := m.words.push (Array.replicate (Register.blockSize / 4) 0) }, m.words.fresh)

/-- Adds a line. -/
def addLine (m : Machine) (number : UInt32) : Machine × Ref .line :=
  ({ m with lines := m.lines.push { number := number } }, m.lines.fresh)

/-- Adds a probe. -/
def addProbe (m : Machine) (handled : Bool) (chain : Option (Ref .line)) :
    Machine × Ref .probe :=
  ({ m with probes := m.probes.push { handled := handled, chain := chain } }, m.probes.fresh)

/-- Adds a semaphore without units. -/
def addSemaphore (m : Machine) : Machine × Ref .semaphore :=
  ({ m with semaphores := m.semaphores.push default }, m.semaphores.fresh)

/-- Adds an event flag that is down. -/
def addEvent (m : Machine) : Machine × Ref .event :=
  ({ m with events := m.events.push default }, m.events.fresh)

/-- Adds a fabric with a window of zero bytes. -/
def addFabric (m : Machine) (size : UInt64) : Machine × Ref .fabric :=
  let (m, region) := m.addRegion size
  ({ m with fabrics := m.fabrics.push { window := region } }, m.fabrics.fresh)

/-! ## Registrations -/

/-- Registers a handler on a line. -/
def request (m : Machine) (line : Ref .line) (handler : Handler) : Machine × Seat :=
  ({ m with lines := m.lines.modify line fun l => l.request handler },
    ⟨line, (m.lines.get line).nextToken⟩)

/-- Gives a registration up. -/
def release (m : Machine) (seat : Seat) : Machine :=
  { m with lines := m.lines.modify seat.line fun l => l.release seat.token }

/-- A probe is told of nothing any more. -/
def retireProbe (m : Machine) (ref : Ref .probe) : Machine :=
  { m with probes := m.probes.modify ref fun p => { p with alive := false } }

end Machine

end PeerBus
