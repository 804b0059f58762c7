/-
# `PeerBus.Machine.Device` — operations on devices

Attaching and detaching, the control plane (arming, waiting, ringing, identity) and the data
plane (bounded transfers over the window).  A detached device fails every operation that can
fail, before anything else is looked at.

An operation that may wait takes the number of its call; if it has no outcome yet, the call is
asleep in one of the device's channels.
-/
import PeerBus.Request
import PeerBus.Machine.Basic

namespace PeerBus

/-- The channel that a waiting call is parked in. -/
inductive Site where
  /-- The semaphore of a device. -/
  | units (device : Ref .device)
  /-- The event flag of a device. -/
  | signal (device : Ref .device)
  /-- A semaphore of its own. -/
  | semaphore (semaphore : Ref .semaphore)
  /-- An event flag of its own. -/
  | event (event : Ref .event)
  deriving DecidableEq

namespace Machine

/-! ## Lifetime -/

/-- Attaches a device: registers its dispatcher and lets every interrupt through.  Without
registers nothing is touched. -/
def attach (m : Machine) (registers : Option Registers) (window : Option (Ref .region))
    (line : Ref .line) : Machine × Except DeviceError (Ref .device) :=
  match registers with
  | none => (m, .error .unavailable)
  | some registers =>
      let ref := m.devices.fresh
      let (m, seat) := m.request line (.device ref)
      let device : Device :=
        { registers := registers, window := window, enabled := true, seat := some seat }
      let m := { m with devices := m.devices.push device }
      (m.writeRegister registers .intrMask Register.maskAll, .ok ref)

/-- Detaches a device: its dispatcher leaves the line first, then the device is disabled and its
waits fail. -/
def detach (m : Machine) (ref : Ref .device) : Machine :=
  match (m.devices.get ref).seat with
  | none => m
  | some seat =>
      let m := m.release seat
      { m with devices := m.devices.modify ref fun d =>
          { d with
            seat := none
            enabled := false
            semaphore := d.semaphore.close
            event := d.event.close } }

/-! ## Control plane -/

/-- Overwrites the count of a device. -/
def arm (m : Machine) (ref : Ref .device) (count : UInt32) : Machine :=
  { m with devices := m.devices.modify ref fun d =>
      { d with semaphore := d.semaphore.arm count } }

/-- Cancels the waits on both channels of a device. -/
def interruptWaiters (m : Machine) (ref : Ref .device) : Machine :=
  { m with devices := m.devices.modify ref fun d =>
      { d with semaphore := d.semaphore.interrupt, event := d.event.interrupt } }

/-- Waits for a unit of a device. -/
def down (m : Machine) (ref : Ref .device) (call : CallId) :
    Machine × Option (Except DeviceError Unit) :=
  let device := m.devices.get ref
  match device.ensureEnabled with
  | .error e => (m, some (.error e))
  | .ok () =>
      let (semaphore, outcome) := device.semaphore.enter call
      ({ m with devices := m.devices.modify ref fun d => { d with semaphore := semaphore } },
        outcome.map fun o => o.mapError DeviceError.ofWait)

/-- Waits for the event flag of a device. -/
def waitEvent (m : Machine) (ref : Ref .device) (call : CallId) :
    Machine × Option (Except DeviceError Unit) :=
  let device := m.devices.get ref
  match device.ensureEnabled with
  | .error e => (m, some (.error e))
  | .ok () =>
      let (event, outcome) := device.event.enter call
      ({ m with devices := m.devices.modify ref fun d => { d with event := event } },
        outcome.map fun o => o.mapError DeviceError.ofWait)

/-- Rings a peer. -/
def ring (m : Machine) (ref : Ref .device) (target : PeerId) (command : Command) :
    Machine × Except DeviceError Unit :=
  let device := m.devices.get ref
  match device.ensureEnabled with
  | .error e => (m, .error e)
  | .ok () =>
      (m.writeRegister device.registers .doorbell (Message.compose target command).raw, .ok ())

/-- The own position, read from the register once. -/
def peerId (m : Machine) (ref : Ref .device) : Machine × Except DeviceError PeerId :=
  let device := m.devices.get ref
  match device.ensureEnabled with
  | .error e => (m, .error e)
  | .ok () =>
      match device.peer with
      | some peer => (m, .ok peer)
      | none =>
          let (m, raw) := m.readRegister device.registers .ivPosition
          let peer := PeerId.ofRegister raw
          ({ m with devices := m.devices.modify ref fun d => { d with peer := some peer } },
            .ok peer)

/-- Carries out a request. -/
def control (m : Machine) (ref : Ref .device) (request : Request) (call : CallId) :
    Machine × Option (Except DeviceError Response) :=
  match (m.devices.get ref).ensureEnabled with
  | .error e => (m, some (.error e))
  | .ok () =>
      match request with
      | .setSema count => (m.arm ref count, some (.ok .done))
      | .downSema =>
          let (m, outcome) := m.down ref call
          (m, outcome.map Response.ofUnit)
      | .waitEvent =>
          let (m, outcome) := m.waitEvent ref call
          (m, outcome.map Response.ofUnit)
      | .empty target | .waitEventIrq target | .semaIrq target =>
          let (m, outcome) := m.ring ref target request.command
          (m, some (Response.ofUnit outcome))
      | .readIvPosn =>
          let (m, outcome) := m.peerId ref
          (m, some (outcome.map .peer))
      | .readLivelist =>
          (m, some (.error (.unsupportedCommand Command.readLivelist.code.toUInt32)))

/-! ## Parked calls -/

/-- The stage of a call parked at a site. -/
def stage? (m : Machine) (site : Site) (call : CallId) : Option Stage :=
  match site with
  | .units d => ((m.devices.get d).semaphore.find? call).map Parked.stage
  | .signal d => ((m.devices.get d).event.find? call).map Parked.stage
  | .semaphore s => ((m.semaphores.get s).find? call).map Parked.stage
  | .event e => ((m.events.get e).find? call).map Parked.stage

/-- Lets the deadline of a sleeping call pass. -/
def expire (m : Machine) (site : Site) (call : CallId) : Machine :=
  match site with
  | .units ref => { m with devices := m.devices.modify ref fun d =>
      { d with semaphore := d.semaphore.expire call } }
  | .signal ref => { m with devices := m.devices.modify ref fun d =>
      { d with event := d.event.expire call } }
  | .semaphore ref => { m with semaphores := m.semaphores.modify ref fun s => s.expire call }
  | .event ref => { m with events := m.events.modify ref fun e => e.expire call }

/-- A call that left its sleep looks again. -/
def resume (m : Machine) (site : Site) (call : CallId) : Machine × Option Waited :=
  match site with
  | .units ref =>
      let (semaphore, outcome) := (m.devices.get ref).semaphore.resume call
      ({ m with devices := m.devices.modify ref fun d => { d with semaphore := semaphore } },
        outcome)
  | .signal ref =>
      let (event, outcome) := (m.devices.get ref).event.resume call
      ({ m with devices := m.devices.modify ref fun d => { d with event := event } }, outcome)
  | .semaphore ref =>
      let (semaphore, outcome) := (m.semaphores.get ref).resume call
      ({ m with semaphores := m.semaphores.set ref semaphore }, outcome)
  | .event ref =>
      let (event, outcome) := (m.events.get ref).resume call
      ({ m with events := m.events.set ref event }, outcome)

/-! ## Data plane -/

/-- The size of a device's window. -/
def windowSize (m : Machine) (ref : Ref .device) : Except DeviceError UInt64 :=
  (m.devices.get ref).window?.map fun region => (m.regions.get region).size

/-- Up to `wanted` bytes of the window from `offset` on. -/
def read (m : Machine) (ref : Ref .device) (offset : UInt64) (wanted : Nat) :
    Except DeviceError (List UInt8) :=
  (m.devices.get ref).window?.map fun region => (m.regions.get region).readAt offset wanted

/-- Copies bytes of the window to the front of a buffer. -/
def readInto (m : Machine) (ref : Ref .device) (offset : UInt64) (buffer : List UInt8) :
    Except DeviceError (Nat × List UInt8) :=
  (m.devices.get ref).window?.map fun region => (m.regions.get region).readInto offset buffer

/-- Copies data to the window. -/
def write (m : Machine) (ref : Ref .device) (offset : UInt64) (data : List UInt8) :
    Machine × Except DeviceError Nat :=
  match (m.devices.get ref).window? with
  | .error e => (m, .error e)
  | .ok region =>
      let (m, count) := m.writeRegion region offset data
      (m, .ok count)

/-- The memory of the window, for access by words. -/
def map (m : Machine) (ref : Ref .device) : Except DeviceError (Ref .region) :=
  (m.devices.get ref).window?

end Machine

end PeerBus
