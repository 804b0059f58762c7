/-
# `PeerBus.Proofs.Machine.Delivery` — what one doorbell does

A status word that a fabric is given for a peer goes the way of this table, and changes nothing
beside it (`Machine.given`):

    the peer has no port        the status is dropped
    its port is masked          the port latches the status, unless the delivery is forced
    nobody is on its line       the port latches the status
    somebody is                 the first device that is enabled reads it, and clears it

So the device that reads the status is the only one that learns of it: those behind it on the line
read zero (`Machine.tellAll_of_clear`).  What it makes of the status is decided by the low byte
alone (`Device.heard`).
-/
import PeerBus.Proofs.Machine.Wiring
import PeerBus.Proofs.Doorbell

namespace PeerBus

namespace Device

/-- A device that has read a status. -/
def heard (status : UInt32) (d : Device) : Device :=
  if status.toUInt8 = 7 then { d with semaphore := d.semaphore.up }
  else if status.toUInt8 = 4 then { d with event := d.event.set }
  else d

variable {status : UInt32}

theorem registers_heard (d : Device) : (d.heard status).registers = d.registers := by
  unfold heard
  split
  · rfl
  · split <;> rfl

theorem enabled_heard (d : Device) : (d.heard status).enabled = d.enabled := by
  unfold heard
  split
  · rfl
  · split <;> rfl

theorem seat_heard (d : Device) : (d.heard status).seat = d.seat := by
  unfold heard
  split
  · rfl
  · split <;> rfl

theorem window_heard (d : Device) : (d.heard status).window = d.window := by
  unfold heard
  split
  · rfl
  · split <;> rfl

/-- What is pending at a device that has read a status. -/
theorem pending_heard (d : Device) :
    ((d.heard status).pending.semaphore.toNat =
      if status.toUInt8 = 7 then min (d.pending.semaphore.toNat + 1) (UInt32.size - 1)
      else d.pending.semaphore.toNat) ∧
    (d.heard status).pending.event = (d.pending.event || decide (status.toUInt8 = 4)) := by
  unfold heard
  by_cases h7 : status.toUInt8 = 7
  · have hcount : d.semaphore.up.count = Word.saturatingSucc d.semaphore.count := by
      unfold Semaphore.up Semaphore.upWaking
      cases d.semaphore.longestAsleep <;> rfl
    rw [if_pos h7, if_pos h7, h7]
    refine ⟨?_, (Bool.or_false _).symm⟩
    show (d.semaphore.up.count).toNat = _
    rw [hcount]
    exact Word.toNat_saturatingSucc _
  · rw [if_neg h7, if_neg h7]
    by_cases h4 : status.toUInt8 = 4
    · rw [if_pos h4, h4]
      exact ⟨rfl, (Bool.or_true _).symm⟩
    · rw [if_neg h4, decide_eq_false h4]
      exact ⟨rfl, (Bool.or_false _).symm⟩

end Device

namespace Machine

variable {m : Machine} {e : Ref .endpoint}

/-! ## One handler after the other -/

/-- A port shows a status. -/
def latch (m : Machine) (e : Ref .endpoint) (status : UInt32) : Machine :=
  { m with endpoints := m.endpoints.modify e fun x => { x with status := status } }

theorem sameWiring_latch (m : Machine) (e : Ref .endpoint) (status : UInt32) :
    SameWiring m (m.latch e status) :=
  .modifyEndpoint m e (fun _ => rfl) (fun _ => rfl)

theorem latch_latch (m : Machine) (e : Ref .endpoint) (s t : UInt32) :
    (m.latch e s).latch e t = m.latch e t :=
  congrArg (fun endpoints => { m with endpoints := endpoints }) (Table.modify_modify ..)

/-- A device has read a status, which is cleared by that. -/
def heardBy (m : Machine) (e : Ref .endpoint) (d : Ref .device) (status : UInt32) : Machine :=
  { m.latch e 0 with devices := m.devices.modify d (Device.heard status) }

theorem sameWiring_heardBy (m : Machine) (e : Ref .endpoint) (d : Ref .device) (status : UInt32) :
    SameWiring m (m.heardBy e d status) :=
  (sameWiring_latch m e 0).trans (.modifyDevice (m.latch e 0) d Device.registers_heard
    Device.enabled_heard Device.seat_heard Device.window_heard)

/-- The status that a register block shows. -/
def shown (m : Machine) (registers : Registers) : UInt32 :=
  (m.readRegister registers .intrStatus).2

/-- The machine after somebody has read the status of a register block. -/
def readOff (m : Machine) (registers : Registers) : Machine :=
  (m.readRegister registers .intrStatus).1

theorem devices_readOff (m : Machine) (registers : Registers) :
    (m.readOff registers).devices = m.devices := by
  cases registers <;> rfl

/-- A device has read the status that its register block shows. -/
def told (m : Machine) (d : Ref .device) : Machine :=
  let registers := (m.devices.get d).registers
  { m.readOff registers with
    devices := m.devices.modify d (Device.heard (m.shown registers)) }

/-- An enabled device reads its status once, and makes of it what its low byte says. -/
theorem dispatch_eq_told {d : Ref .device} (henabled : (m.devices.get d).enabled = true) :
    m.dispatch d = (m.told d,
      (StatusEvent.classify (m.shown (m.devices.get d).registers)).isHandled) := by
  have hkeep := devices_readOff m (m.devices.get d).registers
  unfold dispatch told
  simp only [henabled, if_true]
  unfold readOff shown at *
  generalize m.readRegister (m.devices.get d).registers .intrStatus = looked at hkeep ⊢
  obtain ⟨after, status⟩ := looked
  have hdevices : after.devices = m.devices := hkeep
  simp only
  by_cases h7 : status.toUInt8 = 7
  · have hheard : Device.heard status = fun d => { d with semaphore := d.semaphore.up } := by
      funext d
      rw [Device.heard, if_pos h7]
    rw [StatusEvent.classify_semaphore h7, hheard, ← hdevices]
  · by_cases h4 : status.toUInt8 = 4
    · have hheard : Device.heard status = fun d => { d with event := d.event.set } := by
        funext d
        rw [Device.heard, if_neg h7, if_pos h4]
      rw [StatusEvent.classify_event h4, hheard, ← hdevices]
    · have hheard : Device.heard status = fun d => d := by
        funext d
        rw [Device.heard, if_neg h7, if_neg h4]
      rw [hheard, ← hdevices, Table.modify_id]
      rcases StatusEvent.classify_neither h7 h4 with hc | hc <;> rw [hc]

/-- An enabled device reads the status of its port. -/
theorem dispatch_of_enabled {d : Ref .device} (henabled : (m.devices.get d).enabled = true)
    (hreg : (m.devices.get d).registers = .endpoint e) :
    m.dispatch d = (m.heardBy e d (m.endpoints.get e).status,
      (StatusEvent.classify (m.endpoints.get e).status).isHandled) := by
  have htold : m.told d = m.heardBy e d (m.endpoints.get e).status := by
    unfold told
    rw [hreg]
    rfl
  rw [dispatch_eq_told henabled, htold, hreg]
  rfl

/-- A device that is enabled is there. -/
theorem has_of_enabled {d : Ref .device} (henabled : (m.devices.get d).enabled = true) :
    m.devices.Has d := by
  refine Decidable.byContradiction fun hnot => ?_
  rw [Table.get_of_not_has hnot] at henabled
  exact nomatch henabled

theorem dispatch_of_disabled {d : Ref .device} (henabled : (m.devices.get d).enabled = false) :
    m.dispatch d = (m, false) := by
  unfold dispatch
  exact if_neg (by simp [henabled])

/-- The registrations are of devices that use the registers of a port. -/
def Watch (m : Machine) (e : Ref .endpoint) (l : List Registration) : Prop :=
  ∀ r ∈ l, ∃ d, r.handler = .device d ∧ (m.devices.get d).registers = .endpoint e

theorem Watch.of_same {m' : Machine} {l : List Registration} (h : m.Watch e l)
    (hs : SameWiring m m') : m'.Watch e l := by
  intro r hr
  obtain ⟨d, hd, hreg⟩ := h r hr
  exact ⟨d, hd, (hs.registers d).trans hreg⟩

/-- Nobody makes anything of a status that was read already. -/
theorem tellAll_of_clear {raise : Machine → Ref .line → Machine × Bool} {l : List Registration}
    (hl : m.Watch e l) (hclear : (m.endpoints.get e).status = 0) :
    tellAll raise l m = (m, false) := by
  induction l with
  | nil => rfl
  | cons r l ih =>
      obtain ⟨d, hd, hreg⟩ := hl r List.mem_cons_self
      have hfirst : m.dispatch d = (m, false) := by
        cases henabled : (m.devices.get d).enabled with
        | false => exact dispatch_of_disabled henabled
        | true =>
            have hid : Device.heard 0 = fun d => d := rfl
            have hsame : m.latch e 0 = m := by
              unfold latch
              rw [Table.modify_eq_self (congrArg (fun s => { m.endpoints.get e with status := s })
                hclear.symm)]
            rw [dispatch_of_enabled henabled hreg, hclear, heardBy, hid, Table.modify_id, hsame]
            rfl
      have hrest := ih fun s hs => hl s (List.mem_cons_of_mem _ hs)
      simp only [tellAll, tell, hd, hfirst, hrest, Bool.or_self]

/-- The first device that is enabled takes the status, and leaves nothing to the others. -/
theorem tellAll_eq (raise : Machine → Ref .line → Machine × Bool) {l : List Registration}
    (he : m.endpoints.Has e) (hl : m.Watch e l) :
    (tellAll raise l m).1 = match m.firstOf l with
      | none => m
      | some d => m.heardBy e d (m.endpoints.get e).status := by
  induction l with
  | nil => rfl
  | cons r l ih =>
      obtain ⟨d, hd, hreg⟩ := hl r List.mem_cons_self
      have hrest : m.Watch e l := fun s hs => hl s (List.mem_cons_of_mem _ hs)
      cases henabled : (m.devices.get d).enabled with
      | false =>
          have hfirst : m.firstOf (r :: l) = m.firstOf l := by
            simp [firstOf, hd, henabled]
          rw [hfirst]
          simp only [tellAll, tell, hd, dispatch_of_disabled henabled]
          exact ih hrest
      | true =>
          have hfirst : m.firstOf (r :: l) = some d := by
            simp [firstOf, hd, henabled]
          have hsame := sameWiring_heardBy m e d (m.endpoints.get e).status
          have hclear : ((m.heardBy e d (m.endpoints.get e).status).endpoints.get e).status = 0 :=
            congrArg Endpoint.status (Table.get_modify_self he _)
          rw [hfirst]
          simp only [tellAll, tell, hd, dispatch_of_enabled henabled hreg,
            tellAll_of_clear (hrest.of_same hsame) hclear]

/-! ## From the register to the device -/

/-- The device that takes a status from a port; a mask of zero holds it back unless it is forced. -/
def hearer? (m : Machine) (e : Ref .endpoint) (force : Bool) : Option (Ref .device) :=
  if force = false ∧ (m.endpoints.get e).mask = 0 then none else m.listener? e

/-- The machine after a port was given a status. -/
def delivered (m : Machine) (e : Ref .endpoint) (status : UInt32) (force : Bool) : Machine :=
  match m.hearer? e force with
  | none => m.latch e status
  | some d => m.heardBy e d status

/-- The machine after a fabric was given a status for a peer. -/
def given (m : Machine) (f : Ref .fabric) (peer : PeerId) (status : UInt32) (force : Bool) :
    Machine :=
  match (m.fabrics.get f).endpoint? peer with
  | none => m
  | some e => m.delivered e status force

section

variable {f : Ref .fabric} {peer : PeerId} {status : UInt32} {force : Bool}

theorem given_of_none (h : (m.fabrics.get f).endpoint? peer = none) :
    m.given f peer status force = m := by
  unfold given
  rw [h]

theorem given_of_some (h : (m.fabrics.get f).endpoint? peer = some e) :
    m.given f peer status force = m.delivered e status force := by
  unfold given
  rw [h]

theorem delivered_of_none (h : m.hearer? e force = none) :
    m.delivered e status force = m.latch e status := by
  unfold delivered
  rw [h]

theorem delivered_of_some {d : Ref .device} (h : m.hearer? e force = some d) :
    m.delivered e status force = m.heardBy e d status := by
  unfold delivered
  rw [h]

end

theorem sameWiring_given (m : Machine) (f : Ref .fabric) (peer : PeerId) (status : UInt32)
    (force : Bool) : SameWiring m (m.given f peer status force) := by
  cases hpeer : (m.fabrics.get f).endpoint? peer with
  | none =>
      rw [given_of_none hpeer]
      exact .refl m
  | some e =>
      rw [given_of_some hpeer]
      cases hhear : m.hearer? e force with
      | none =>
          rw [delivered_of_none hhear]
          exact sameWiring_latch ..
      | some d =>
          rw [delivered_of_some hhear]
          exact sameWiring_heardBy ..

namespace Wired

theorem watch (h : Wired m) (he : m.endpoints.Has e) : m.Watch e (m.onPort e) := by
  intro r hr
  obtain ⟨d, hd, -, hreg⟩ := h.seated e he r hr
  exact ⟨d, hd, hreg⟩

theorem deliver (h : Wired m) (he : m.endpoints.Has e) (status : UInt32) (force : Bool) :
    (m.deliver e status force).1 = m.delivered e status force := by
  have hsame := sameWiring_latch m e status
  obtain ⟨depth, hdepth⟩ : ∃ depth, m.lines.entries.size = depth + 1 :=
    ⟨_, (Nat.succ_pred_eq_of_pos (Nat.lt_of_le_of_lt (Nat.zero_le _) (h.lined e he))).symm⟩
  have hlatched : ((m.latch e status).endpoints.get e).status = status :=
    congrArg Endpoint.status (Table.get_modify_self he _)
  have hraise : ((m.latch e status).raise (m.endpoints.get e).line).1 =
      match m.listener? e with
      | none => m.latch e status
      | some d => m.heardBy e d status := by
    have htell := tellAll_eq (raiseWithin depth) ((hsame.hasEndpoint e).mpr he)
      ((h.watch he).of_same hsame)
    have hfirst : (m.latch e status).firstOf (m.onPort e) = m.listener? e := by
      rw [← hsame.listener? e, listener?, hsame.onPort]
    have hread (d : Ref .device) :
        (m.latch e status).heardBy e d status = m.heardBy e d status := by
      unfold heardBy
      rw [latch_latch]
      rfl
    rw [hfirst, hlatched] at htell
    unfold raise
    rw [show (m.latch e status).lines = m.lines from rfl, hdepth]
    refine htell.trans ?_
    cases m.listener? e with
    | none => rfl
    | some d => exact hread d
  unfold Machine.deliver delivered hearer?
  by_cases hmask : force = false ∧ (m.endpoints.get e).mask = 0
  · rw [if_pos hmask]
    simp [hmask, latch]
  · have hnot : ¬(!force && decide ((m.endpoints.get e).mask = 0)) = true := by simpa using hmask
    rw [if_neg hmask]
    simp only [hnot]
    exact hraise

/-- A word written to the doorbell register of a port gives the lower half of its bits to the peer
that the upper half names. -/
theorem writeDoorbell (h : Wired m) (he : m.endpoints.Has e) (raw : UInt32) :
    m.writeRegister (.endpoint e) .doorbell raw =
      m.given (m.endpoints.get e).fabric ⟨(raw >>> 16).toUInt16⟩ (raw &&& 0xFFFF) false := by
  have hlive := h.live _ (h.joined e he)
  have hroute : m.writeRegister (.endpoint e) .doorbell raw =
      m.route (m.endpoints.get e).fabric ⟨raw⟩ := if_pos hlive
  rw [hroute, route]
  cases hpeer : (m.fabrics.get (m.endpoints.get e).fabric).endpoint? ⟨(raw >>> 16).toUInt16⟩ with
  | none =>
      have hnone : (m.fabrics.get (m.endpoints.get e).fabric).endpoint?
          (Message.destination ⟨raw⟩) = none := hpeer
      rw [hnone, given_of_none hpeer]
  | some e' =>
      have hsome : (m.fabrics.get (m.endpoints.get e).fabric).endpoint?
          (Message.destination ⟨raw⟩) = some e' := hpeer
      rw [hsome, given_of_some hpeer]
      exact h.deliver (h.known _ _ _ hpeer) _ _

theorem fabricRaise (h : Wired m) (f : Ref .fabric) (peer : PeerId) (status : UInt32) :
    (m.fabricRaise f peer status).1 = m.given f peer status true := by
  unfold Machine.fabricRaise
  cases hpeer : (m.fabrics.get f).endpoint? peer with
  | none => exact (given_of_none hpeer).symm
  | some e =>
      rw [given_of_some hpeer]
      exact h.deliver (h.known _ _ _ hpeer) _ _

end Wired

end Machine

end PeerBus
