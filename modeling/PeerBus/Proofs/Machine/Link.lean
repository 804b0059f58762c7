/-
# `PeerBus.Proofs.Machine.Link` — two devices linked by a fabric

A `Link` names the parts that two attached devices and their fabric are made of: for each side a
peer, its endpoint, that endpoint's line, the device on the line, and the call number under which
the side waits.  `Link.Up` says that a machine really holds these parts, joined as an attachment
joins them: the fabric is live and knows both endpoints, both are unmasked, and the line of each
tells its device and nobody else.

**What reaches a device.**  Whatever status of the event channel an endpoint is given, the
device's event flag is set and the status is read away again (`Link.Up.deliver`); and a side that
rings the other one's peer gives it such a status (`Link.Up.ring`).

A link that is up stays up while devices keep their registers, endpoints keep their mask, and
memory is written (`Link.Up.modifyDevice`, `Link.Up.modifyEndpoint`, `Link.Up.modifyRegion`).
-/
import PeerBus.Machine.Fabric
import PeerBus.Proofs.Doorbell

namespace PeerBus

/-! ## Links -/

/-- The two sides of a link. -/
inductive Side where
  | client
  | server
  deriving DecidableEq

def Side.other : Side → Side
  | client => server
  | server => client

/-- What a doorbell passes through on its way to a device. -/
structure Port where
  peer : PeerId
  endpoint : Ref .endpoint
  line : Ref .line
  device : Ref .device
  call : CallId

structure Link where
  fabric : Ref .fabric
  region : Ref .region
  port : Side → Port

/-- The device of a port is attached to the port's endpoint, alone on its line, and unmasked. -/
structure Port.Attached (p : Port) (fabric : Ref .fabric) (m : Machine) : Prop where
  reached : (m.fabrics.get fabric).endpoint? p.peer = some p.endpoint
  hasEndpoint : m.endpoints.Has p.endpoint
  peer : (m.endpoints.get p.endpoint).peer = p.peer
  fabric : (m.endpoints.get p.endpoint).fabric = fabric
  line : (m.endpoints.get p.endpoint).line = p.line
  unmasked : (m.endpoints.get p.endpoint).mask ≠ 0
  hasLine : m.lines.Has p.line
  handler : ∃ token, (m.lines.get p.line).registrations = [⟨token, .device p.device⟩]
  hasDevice : m.devices.Has p.device
  registers : (m.devices.get p.device).registers = .endpoint p.endpoint
  enabled : (m.devices.get p.device).enabled = true
  known : ∀ peer, (m.devices.get p.device).peer = some peer → peer = p.peer

/-- Two attached, unmasked devices of one live fabric. -/
structure Link.Up (w : Link) (m : Machine) : Prop where
  live : (m.fabrics.get w.fabric).live = true
  attached : ∀ x, (w.port x).Attached w.fabric m
  hasRegion : m.regions.Has w.region
  apart : (w.port .client).device ≠ (w.port .server).device

namespace Link

variable {w : Link} {m : Machine}

theorem Up.device_ne (h : w.Up m) (x : Side) :
    (w.port x).device ≠ (w.port x.other).device := by
  cases x with
  | client => exact h.apart
  | server => exact h.apart.symm

/-! ## What keeps a link up -/

theorem Up.modifyDevice (h : w.Up m) (r : Ref .device) {f : Device → Device}
    (hregisters : ∀ d, (f d).registers = d.registers) (henabled : ∀ d, (f d).enabled = d.enabled)
    (hknown : ∀ x, (w.port x).device = r → ∀ peer,
      (f (m.devices.get r)).peer = some peer → peer = (w.port x).peer) :
    w.Up { m with devices := m.devices.modify r f } where
  live := h.live
  hasRegion := h.hasRegion
  apart := h.apart
  attached x :=
    { h.attached x with
      hasDevice := (Table.has_modify ..).mpr (h.attached x).hasDevice
      registers := (Table.get_modify_keeps _ _ _ Device.registers hregisters).trans
        (h.attached x).registers
      enabled := (Table.get_modify_keeps _ _ _ Device.enabled henabled).trans
        (h.attached x).enabled
      known := by
        intro peer hpeer
        by_cases e : r = (w.port x).device
        · subst e
          rw [Table.get_modify_self (h.attached x).hasDevice] at hpeer
          exact hknown x rfl peer hpeer
        · rw [Table.get_modify_of_ne _ e] at hpeer
          exact (h.attached x).known peer hpeer }

theorem Up.modifyEndpoint (h : w.Up m) (r : Ref .endpoint) {f : Endpoint → Endpoint}
    (hpeer : ∀ e, (f e).peer = e.peer) (hfabric : ∀ e, (f e).fabric = e.fabric)
    (hline : ∀ e, (f e).line = e.line) (hmask : ∀ e, (f e).mask = e.mask) :
    w.Up { m with endpoints := m.endpoints.modify r f } where
  live := h.live
  hasRegion := h.hasRegion
  apart := h.apart
  attached x :=
    { h.attached x with
      hasEndpoint := (Table.has_modify ..).mpr (h.attached x).hasEndpoint
      peer := (Table.get_modify_keeps _ _ _ Endpoint.peer hpeer).trans (h.attached x).peer
      fabric := (Table.get_modify_keeps _ _ _ Endpoint.fabric hfabric).trans (h.attached x).fabric
      line := (Table.get_modify_keeps _ _ _ Endpoint.line hline).trans (h.attached x).line
      unmasked := by
        rw [Table.get_modify_keeps _ _ _ Endpoint.mask hmask]
        exact (h.attached x).unmasked }

theorem Up.modifyRegion (h : w.Up m) (r : Ref .region) (f : Memory → Memory) :
    w.Up (m.modifyRegion r f) where
  live := h.live
  hasRegion := (Table.has_modify ..).mpr h.hasRegion
  apart := h.apart
  attached x := { h.attached x with }

/-! ## The event flags of the two devices -/

/-- The event flag of a side's device. -/
def event (w : Link) (m : Machine) (x : Side) : EventFlag :=
  (m.devices.get (w.port x).device).event

def modifyEvent (w : Link) (x : Side) (f : EventFlag → EventFlag) (m : Machine) : Machine :=
  { m with devices := m.devices.modify (w.port x).device fun d => { d with event := f d.event } }

theorem Up.modifyEvent (h : w.Up m) (x : Side) (f : EventFlag → EventFlag) :
    w.Up (w.modifyEvent x f m) := by
  refine h.modifyDevice _ (fun _ => rfl) (fun _ => rfl) fun y hy peer hpeer => ?_
  rw [← hy] at hpeer
  exact (h.attached y).known peer hpeer

theorem Up.event_modifyEvent (h : w.Up m) (x y : Side) (f : EventFlag → EventFlag) :
    w.event (w.modifyEvent x f m) y = if y = x then f (w.event m x) else w.event m y := by
  by_cases hy : y = x
  · subst hy
    rw [if_pos rfl]
    exact congrArg Device.event (Table.get_modify_self (h.attached y).hasDevice _)
  · have hother : y = x.other := by
      cases x <;> cases y <;> first | rfl | exact absurd rfl hy
    subst hother
    rw [if_neg hy]
    exact congrArg Device.event (Table.get_modify_of_ne _ (h.device_ne x) _)

/-! ## Doorbells arrive -/

/-- The event flag of a device is set, and the status of its endpoint read. -/
def notified (w : Link) (x : Side) (m : Machine) : Machine :=
  w.modifyEvent x EventFlag.set
    { m with endpoints := m.endpoints.modify (w.port x).endpoint fun e => { e with status := 0 } }

theorem Up.readStatus (h : w.Up m) (x : Side) :
    w.Up { m with
      endpoints := m.endpoints.modify (w.port x).endpoint fun e => { e with status := 0 } } :=
  h.modifyEndpoint _ (fun _ => rfl) (fun _ => rfl) (fun _ => rfl) (fun _ => rfl)

theorem Up.notified (h : w.Up m) (x : Side) : w.Up (w.notified x m) :=
  (h.readStatus x).modifyEvent x _

theorem Up.event_notified (h : w.Up m) (x y : Side) :
    w.event (w.notified x m) y = if y = x then (w.event m x).set else w.event m y :=
  (h.readStatus x).event_modifyEvent x y _

/-- A status of the event channel that an endpoint is given sets the device's event flag. -/
theorem Up.deliver (h : w.Up m) (x : Side) {status : UInt32}
    (hs : StatusEvent.classify status = .event) (force : Bool) :
    m.deliver (w.port x).endpoint status force = (w.notified x m, true) := by
  have hx := h.attached x
  obtain ⟨token, hreg⟩ := hx.handler
  obtain ⟨depth, hdepth⟩ : ∃ depth, m.lines.entries.size = depth + 1 :=
    ⟨_, (Nat.succ_pred_eq_of_pos (Nat.lt_of_le_of_lt (Nat.zero_le _) hx.hasLine)).symm⟩
  have hlatched : (m.endpoints.modify (w.port x).endpoint fun e => { e with status := status }).get
      (w.port x).endpoint = { m.endpoints.get (w.port x).endpoint with status := status } :=
    Table.get_modify_self hx.hasEndpoint _
  have hread : ((m.endpoints.modify (w.port x).endpoint fun e => { e with status := status }).modify
      (w.port x).endpoint fun e => { e with status := 0 }) =
      m.endpoints.modify (w.port x).endpoint fun e => { e with status := 0 } :=
    Table.modify_modify ..
  unfold Machine.deliver Machine.raise
  simp only [hx.unmasked, hx.line, hdepth, Machine.raiseWithin, hreg, Machine.tellAll,
    Machine.tell, Machine.dispatch, hx.enabled, hx.registers, Machine.readRegister, hlatched, hs,
    hread, decide_false, Bool.and_false, Bool.false_eq_true, if_false, if_true, Bool.or_false]
  rfl

theorem Up.route (h : w.Up m) (x : Side) {message : Message}
    (hpeer : message.destination = (w.port x).peer)
    (hs : StatusEvent.classify message.status = .event) :
    m.route w.fabric message = w.notified x m := by
  unfold Machine.route
  simp only [hpeer, (h.attached x).reached, h.deliver x hs]

/-- A side that rings the other side's peer sets its event flag. -/
theorem Up.ring (h : w.Up m) (x : Side) :
    m.ring (w.port x).device (w.port x.other).peer .waitEventIrq =
      (w.notified x.other m, .ok ()) := by
  have hx := h.attached x
  have hroute := h.route x.other (Message.destination_compose (w.port x.other).peer .waitEventIrq)
    (by rw [Message.status_compose]; exact StatusEvent.classify_waitEventIrq)
  unfold Machine.ring Device.ensureEnabled
  simp only [hx.enabled, if_true, hx.registers, Machine.writeRegister, hx.fabric, h.live]
  exact congrArg (·, _) hroute

end Link

end PeerBus
