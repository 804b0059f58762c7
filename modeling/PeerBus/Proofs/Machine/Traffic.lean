/-
# `PeerBus.Proofs.Machine.Traffic` — every run of a fabric

An `Op` is one call of the fabric, of a device or of a port's registers; calls that wait are one op
for each of their looks.  A run starts with nothing and makes its fabrics, ports and devices itself,
so a port may be replaced or removed while devices use it, and several devices may be attached to
one port, each with the registers and the line of that port.

    fabric, port, join          make objects, and put ports in the place of others
    seat, detach, remove        devices and ports come and go
    write, raise, ring, control give a status to a peer, among other things
    all others                  concern one device

After every run the machine is wired, so a doorbell does what `Machine.given` says and nothing else,
and the books of every device agree with what is pending at it (`Machine.booked_of_run`).
-/
import PeerBus.Proofs.Machine.Books
import PeerBus.Proofs.Machine.Roster
import PeerBus.Proofs.Run

namespace PeerBus

namespace Machine

/-! ## Ops -/

inductive Op where
  | fabric (size : UInt64)
  | port (fabric : Ref .fabric) (peer : PeerId)
  /-- A port is made and a device attached to it. -/
  | join (fabric : Ref .fabric) (peer : PeerId)
  /-- A device is attached to a port that is there already. -/
  | seat (port : Ref .endpoint) (window : Option (Ref .region))
  | detach (device : Ref .device)
  | remove (fabric : Ref .fabric) (peer : PeerId)
  | read (port : Ref .endpoint) (register : Register)
  | write (port : Ref .endpoint) (register : Register) (value : UInt32)
  | raise (fabric : Ref .fabric) (peer : PeerId) (status : UInt32)
  | ring (device : Ref .device) (target : PeerId) (command : Command)
  | control (device : Ref .device) (request : Request) (call : CallId)
  | identify (device : Ref .device)
  | arm (device : Ref .device) (count : UInt32)
  | interrupt (device : Ref .device)
  | down (device : Ref .device) (call : CallId)
  | waitEvent (device : Ref .device) (call : CallId)
  /-- The deadline of a sleeping call passes. -/
  | lapse (site : Site) (call : CallId)
  /-- A parked call looks again. -/
  | resume (site : Site) (call : CallId)

/-- What may happen next: calls name what there is, and a call waits once at a time. -/
def Op.Valid (m : Machine) : Op → Prop
  | .fabric _ => True
  | .port f _ | .join f _ | .remove f _ | .raise f _ _ => m.fabrics.Has f
  | .seat e _ | .read e _ | .write e _ _ => m.endpoints.Has e
  | .detach d | .ring d _ _ | .identify d | .arm d _ | .interrupt d => m.devices.Has d
  | .down d call => m.devices.Has d ∧ m.stage? (.units d) call = none
  | .waitEvent d call => m.devices.Has d ∧ m.stage? (.signal d) call = none
  | .control d _ call =>
      m.devices.Has d ∧ m.stage? (.units d) call = none ∧ m.stage? (.signal d) call = none
  | .lapse site call => m.stage? site call = some .asleep
  | .resume site call =>
      m.stage? site call = some .woken ∨ m.stage? site call = some .expired

instance (m : Machine) : (op : Op) → Decidable (op.Valid m)
  | .fabric _ => inferInstanceAs (Decidable True)
  | .port f _ | .join f _ | .remove f _ | .raise f _ _ =>
      inferInstanceAs (Decidable (m.fabrics.Has f))
  | .seat e _ | .read e _ | .write e _ _ => inferInstanceAs (Decidable (m.endpoints.Has e))
  | .detach d | .ring d _ _ | .identify d | .arm d _ | .interrupt d =>
      inferInstanceAs (Decidable (m.devices.Has d))
  | .down d call => inferInstanceAs (Decidable (m.devices.Has d ∧ m.stage? (.units d) call = none))
  | .waitEvent d call =>
      inferInstanceAs (Decidable (m.devices.Has d ∧ m.stage? (.signal d) call = none))
  | .control d _ call => inferInstanceAs (Decidable
      (m.devices.Has d ∧ m.stage? (.units d) call = none ∧ m.stage? (.signal d) call = none))
  | .lapse site call => inferInstanceAs (Decidable (m.stage? site call = some .asleep))
  | .resume site call => inferInstanceAs (Decidable
      (m.stage? site call = some .woken ∨ m.stage? site call = some .expired))

/-- The machine after an op. -/
def carry (m : Machine) : Op → Machine
  | .fabric size => (m.addFabric size).1
  | .port f peer => (m.resources f peer).1
  | .join f peer => (m.fabricAttach f peer).1
  | .seat e window => m.seat e window
  | .detach d => m.detach d
  | .remove f peer => (m.fabricRemove f peer).1
  | .read e register => (m.readRegister (.endpoint e) register).1
  | .write e register value => m.writeRegister (.endpoint e) register value
  | .raise f peer status => (m.fabricRaise f peer status).1
  | .ring d target command => (m.ring d target command).1
  | .control d request call => (m.control d request call).1
  | .identify d => (m.peerId d).1
  | .arm d count => m.arm d count
  | .interrupt d => m.interruptWaiters d
  | .down d call => (m.down d call).1
  | .waitEvent d call => (m.waitEvent d call).1
  | .lapse site call => m.expire site call
  | .resume site call => (m.resume site call).1

/-! ## News -/

/-- News to a device. -/
abbrev Notice := Option (Ref .device × News)

/-- The news of a status that a fabric is given for a peer. -/
def noticeOfGiven (m : Machine) (f : Ref .fabric) (peer : PeerId) (status : UInt32)
    (force : Bool) : Notice :=
  ((m.fabrics.get f).endpoint? peer).bind fun e =>
    (m.hearer? e force).map fun d => (d, .heard status)

/-- The news of a ring by a device. -/
def noticeOfRing (m : Machine) (d : Ref .device) (target : PeerId) (command : Command) : Notice :=
  match (m.devices.get d).enabled, (m.devices.get d).registers with
  | true, .endpoint e =>
      m.noticeOfGiven (m.endpoints.get e).fabric target command.code.toUInt32 false
  | _, _ => none

def noticeOfDown (m : Machine) (d : Ref .device) (call : CallId) : Notice :=
  (Device.newsOf .tookUnit (m.down d call).2).map fun news => (d, news)

def noticeOfWaitEvent (m : Machine) (d : Ref .device) (call : CallId) : Notice :=
  (Device.newsOf .tookFlag (m.waitEvent d call).2).map fun news => (d, news)

/-- Whom an op is news to. -/
def notice (m : Machine) : Op → Notice
  | .write e .doorbell raw =>
      m.noticeOfGiven (m.endpoints.get e).fabric ⟨(raw >>> 16).toUInt16⟩ (raw &&& 0xFFFF) false
  | .raise f peer status => m.noticeOfGiven f peer status true
  | .ring d target command => m.noticeOfRing d target command
  | .arm d count => some (d, .armed count)
  | .down d call => m.noticeOfDown d call
  | .waitEvent d call => m.noticeOfWaitEvent d call
  | .resume (.units d) call =>
      (Device.newsOf .tookUnit (m.resume (.units d) call).2).map fun news => (d, news)
  | .resume (.signal d) call =>
      (Device.newsOf .tookFlag (m.resume (.signal d) call).2).map fun news => (d, news)
  | .control d request call =>
      match request with
      | .setSema count => if (m.devices.get d).enabled then some (d, .armed count) else none
      | .downSema => m.noticeOfDown d call
      | .waitEvent => m.noticeOfWaitEvent d call
      | .empty target | .waitEventIrq target | .semaIrq target =>
          m.noticeOfRing d target request.command
      | .readIvPosn | .readLivelist => none
  | _ => none

/-- What a notice is to one device. -/
def Notice.to (n : Notice) (d : Ref .device) : Option News :=
  n.bind fun n => if n.1 = d then some n.2 else none

/-! ## Every op is the news that it is said to be -/

/-- The devices react to what happened as the notice says. -/
def Reports (m : Machine) (n : Notice) (m' : Machine) : Prop :=
  ∀ d, Device.Reacts (m.devices.get d) (m'.devices.get d) (n.to d)

variable {m m' : Machine}

theorem Reports.idle (h : m'.devices = m.devices) : Reports m none m' := by
  intro d
  rw [h]
  exact .idle rfl rfl

/-- One device changes, and the news is for that one. -/
theorem Reports.modify {r : Ref .device} (hr : m.devices.Has r) {f : Device → Device}
    (hdevices : m'.devices = m.devices.modify r f) {n : Option News}
    (h : Device.Reacts (m.devices.get r) (f (m.devices.get r)) n) :
    Reports m (n.map fun news => (r, news)) m' := by
  intro d
  rw [hdevices]
  by_cases hd : r = d
  · subst hd
    have hto : Notice.to (n.map fun news => (r, news)) r = n := by
      cases n with
      | none => rfl
      | some news => exact if_pos rfl
    rw [hto, Table.get_modify_self hr]
    exact h
  · have hto : Notice.to (n.map fun news => (r, news)) d = none := by
      cases n with
      | none => rfl
      | some news => exact if_neg hd
    rw [hto, Table.get_modify_of_ne _ hd]
    exact .idle rfl rfl

/-- Whoever hears of a port is attached to it. -/
theorem Wired.sits_of_hearer (h : Wired m) {e : Ref .endpoint} (he : m.endpoints.Has e)
    {force : Bool} {d : Ref .device} (hd : m.hearer? e force = some d) : m.Sits d e := by
  unfold hearer? at hd
  split at hd
  · exact nomatch hd
  · obtain ⟨r, hr, hrd⟩ := List.exists_of_findSome?_eq_some hd
    obtain ⟨d', hd', hhas, hreg⟩ := h.seated e he r hr
    rw [hd'] at hrd
    have hsome : (if (m.devices.get d').enabled then some d' else none) = some d := hrd
    split at hsome
    · rename_i henabled
      obtain rfl := Option.some.inj hsome
      exact ⟨hhas, henabled, hreg⟩
    · exact nomatch hsome

theorem Wired.reports_given (h : Wired m) (f : Ref .fabric) (peer : PeerId) (status : UInt32)
    (force : Bool) :
    Reports m (m.noticeOfGiven f peer status force) (m.given f peer status force) := by
  unfold noticeOfGiven
  cases hpeer : (m.fabrics.get f).endpoint? peer with
  | none =>
      rw [given_of_none hpeer]
      exact .idle rfl
  | some e =>
      rw [given_of_some hpeer, Option.bind_some]
      cases hhear : m.hearer? e force with
      | none =>
          rw [delivered_of_none hhear]
          exact .idle rfl
      | some d =>
          have hhas := (h.sits_of_hearer (h.known f peer e hpeer) hhear).has
          rw [delivered_of_some hhear]
          exact .modify (n := some (.heard status)) hhas rfl (.heard _ status)

theorem reports_seat (m : Machine) (e : Ref .endpoint) (window : Option (Ref .region)) :
    Reports m none (m.seat e window) := by
  intro d
  by_cases hd : d = m.devices.fresh
  · subst hd
    rw [device_seat_fresh, Table.get_of_not_has m.devices.not_has_fresh]
    exact .idle rfl rfl
  · rw [device_seat_of_ne window hd]
    exact .idle rfl rfl

/-- To join is to make a port and to attach to it. -/
theorem fabricAttach_eq_seat (m : Machine) (f : Ref .fabric) (peer : PeerId) :
    (m.fabricAttach f peer).1 =
      (m.resources f peer).1.seat m.endpoints.fresh (some (m.fabrics.get f).window) := by
  have hline : ((m.resources f peer).1.endpoints.get m.endpoints.fresh).line = m.lines.fresh :=
    congrArg Endpoint.line (Table.get_push_fresh ..)
  unfold seat
  rw [hline]
  rfl

theorem has_of_stage_units {d : Ref .device} {call : CallId} {stage : Stage}
    (h : m.stage? (.units d) call = some stage) : m.devices.Has d := by
  by_contra hnot
  change ((m.devices.get d).semaphore.find? call).map Parked.stage = some stage at h
  rw [Table.get_of_not_has hnot] at h
  exact nomatch h

theorem has_of_stage_signal {d : Ref .device} {call : CallId} {stage : Stage}
    (h : m.stage? (.signal d) call = some stage) : m.devices.Has d := by
  by_contra hnot
  change ((m.devices.get d).event.find? call).map Parked.stage = some stage at h
  rw [Table.get_of_not_has hnot] at h
  exact nomatch h

theorem mem_returning {σ : Type} {c : Channel σ} {call : CallId}
    (h : (c.find? call).map Parked.stage = some .woken ∨
      (c.find? call).map Parked.stage = some .expired) :
    ∃ p ∈ c.returning, p.call = call := by
  have hfound : ∃ p, c.find? call = some p ∧ p.stage ≠ .asleep := by
    rcases h with h | h
    · obtain ⟨p, hp, hs⟩ := Option.map_eq_some_iff.mp h
      exact ⟨p, hp, by rw [hs]; decide⟩
    · obtain ⟨p, hp, hs⟩ := Option.map_eq_some_iff.mp h
      exact ⟨p, hp, by rw [hs]; decide⟩
  obtain ⟨p, hp, hs⟩ := hfound
  refine ⟨p, List.mem_filter.mpr ⟨List.mem_of_find?_eq_some hp, by simpa using hs⟩, ?_⟩
  simpa using List.find?_some hp

/-! ## Devices that are enabled, and others -/

section Enabled

variable {d : Ref .device} {call : CallId}

theorem ensureEnabled_of_enabled (h : (m.devices.get d).enabled = true) :
    (m.devices.get d).ensureEnabled = .ok () := if_pos h

theorem ensureEnabled_of_disabled (h : (m.devices.get d).enabled = false) :
    (m.devices.get d).ensureEnabled = .error .unavailable := if_neg (by simp [h])

theorem down_of_enabled (h : (m.devices.get d).enabled = true) :
    m.down d call = ({ m with devices := m.devices.modify d fun x =>
      { x with semaphore := ((m.devices.get d).semaphore.enter call).1 } },
      ((m.devices.get d).semaphore.enter call).2.map fun o => o.mapError DeviceError.ofWait) := by
  unfold down
  simp only [ensureEnabled_of_enabled h]

theorem down_of_disabled (h : (m.devices.get d).enabled = false) :
    m.down d call = (m, some (.error .unavailable)) := by
  unfold down
  simp only [ensureEnabled_of_disabled h]

theorem waitEvent_of_enabled (h : (m.devices.get d).enabled = true) :
    m.waitEvent d call = ({ m with devices := m.devices.modify d fun x =>
      { x with event := ((m.devices.get d).event.enter call).1 } },
      ((m.devices.get d).event.enter call).2.map fun o => o.mapError DeviceError.ofWait) := by
  unfold waitEvent
  simp only [ensureEnabled_of_enabled h]

theorem waitEvent_of_disabled (h : (m.devices.get d).enabled = false) :
    m.waitEvent d call = (m, some (.error .unavailable)) := by
  unfold waitEvent
  simp only [ensureEnabled_of_disabled h]

theorem ring_of_disabled (h : (m.devices.get d).enabled = false) (target : PeerId)
    (command : Command) : m.ring d target command = (m, .error .unavailable) := by
  unfold ring
  simp only [ensureEnabled_of_disabled h]

/-- A device rings through the doorbell register of its port. -/
theorem Wired.ring (hw : Wired m) (h : (m.devices.get d).enabled = true) {e : Ref .endpoint}
    (he : m.endpoints.Has e) (hreg : (m.devices.get d).registers = .endpoint e) (target : PeerId)
    (command : Command) : m.ring d target command =
      (m.given (m.endpoints.get e).fabric target command.code.toUInt32 false, .ok ()) := by
  have hgiven := hw.writeDoorbell he (Message.compose target command).raw
  have hpeer : (⟨((Message.compose target command).raw >>> 16).toUInt16⟩ : PeerId) = target :=
    Message.destination_compose target command
  have hstatus : (Message.compose target command).raw &&& 0xFFFF = command.code.toUInt32 :=
    Message.status_compose target command
  rw [hpeer, hstatus] at hgiven
  unfold Machine.ring
  simp only [ensureEnabled_of_enabled h, hreg, hgiven]

theorem peerId_of_disabled (h : (m.devices.get d).enabled = false) :
    m.peerId d = (m, .error .unavailable) := by
  unfold peerId
  simp only [ensureEnabled_of_disabled h]

end Enabled

/-! ## Ops that build nothing -/

/-- An op that leaves the wiring alone, and is the news that it is said to be. -/
structure Passes (m : Machine) (n : Notice) (m' : Machine) : Prop where
  wiring : SameWiring m m'
  reports : Reports m n m'

namespace Passes

variable {d : Ref .device} {call : CallId}

theorem refl (m : Machine) : Passes m none m := ⟨.refl m, .idle rfl⟩

theorem endpoints (m : Machine) (e : Ref .endpoint) {f : Endpoint → Endpoint}
    (hline : ∀ e, (f e).line = e.line) (hfabric : ∀ e, (f e).fabric = e.fabric) :
    Passes m none { m with endpoints := m.endpoints.modify e f } :=
  ⟨.modifyEndpoint m e hline hfabric, .idle rfl⟩

theorem device (hd : m.devices.Has d) (f : Device → Device)
    (hregisters : ∀ x, (f x).registers = x.registers) (henabled : ∀ x, (f x).enabled = x.enabled)
    (hseat : ∀ x, (f x).seat = x.seat) (hwindow : ∀ x, (f x).window = x.window) {n : Option News}
    (h : Device.Reacts (m.devices.get d) (f (m.devices.get d)) n) :
    Passes m (n.map fun news => (d, news)) { m with devices := m.devices.modify d f } :=
  ⟨.modifyDevice m d hregisters henabled hseat hwindow, .modify hd rfl h⟩

theorem given (h : Wired m) (f : Ref .fabric) (peer : PeerId) (status : UInt32) (force : Bool) :
    Passes m (m.noticeOfGiven f peer status force) (m.given f peer status force) :=
  ⟨sameWiring_given m f peer status force, h.reports_given f peer status force⟩

theorem read (m : Machine) (e : Ref .endpoint) (register : Register) :
    Passes m none (m.readRegister (.endpoint e) register).1 := by
  cases register with
  | intrStatus => exact endpoints m e (fun _ => rfl) (fun _ => rfl)
  | intrMask | ivPosition | doorbell => exact refl m

theorem write (h : Wired m) {e : Ref .endpoint} (he : m.endpoints.Has e) (register : Register)
    (value : UInt32) : Passes m (m.notice (.write e register value))
      (m.writeRegister (.endpoint e) register value) := by
  cases register with
  | intrMask => exact endpoints m e (fun _ => rfl) (fun _ => rfl)
  | doorbell =>
      rw [h.writeDoorbell he]
      exact given h ..
  | intrStatus | ivPosition => exact refl m

theorem raise (h : Wired m) (f : Ref .fabric) (peer : PeerId) (status : UInt32) :
    Passes m (m.notice (.raise f peer status)) (m.fabricRaise f peer status).1 := by
  rw [h.fabricRaise]
  exact given h ..

theorem ring (h : Wired m) (hd : m.devices.Has d) (target : PeerId) (command : Command) :
    Passes m (m.noticeOfRing d target command) (m.ring d target command).1 := by
  obtain ⟨e, he, hreg⟩ := h.bound d hd
  cases henabled : (m.devices.get d).enabled with
  | false =>
      have hnone : m.noticeOfRing d target command = none := by
        simp [noticeOfRing, henabled]
      rw [hnone, ring_of_disabled henabled]
      exact refl m
  | true =>
      have hsome : m.noticeOfRing d target command =
          m.noticeOfGiven (m.endpoints.get e).fabric target command.code.toUInt32 false := by
        simp [noticeOfRing, henabled, hreg]
      rw [hsome, h.ring henabled he hreg]
      exact given h ..

theorem arm (hd : m.devices.Has d) (count : UInt32) :
    Passes m (some (d, .armed count)) (m.arm d count) :=
  device (n := some (.armed count)) hd (fun x => { x with semaphore := x.semaphore.arm count })
    (fun _ => rfl) (fun _ => rfl) (fun _ => rfl) (fun _ => rfl) (.armed _ count)

theorem interrupt (hd : m.devices.Has d) : Passes m none (m.interruptWaiters d) :=
  device (n := none) hd
    (fun x => { x with semaphore := x.semaphore.interrupt, event := x.event.interrupt })
    (fun _ => rfl) (fun _ => rfl) (fun _ => rfl) (fun _ => rfl) (.interrupted _)

theorem identify (h : Wired m) (hd : m.devices.Has d) : Passes m none (m.peerId d).1 := by
  obtain ⟨e, -, hreg⟩ := h.bound d hd
  cases henabled : (m.devices.get d).enabled with
  | false =>
      rw [peerId_of_disabled henabled]
      exact refl m
  | true =>
      unfold peerId
      simp only [ensureEnabled_of_enabled henabled]
      cases hknown : (m.devices.get d).peer with
      | some peer => exact refl m
      | none =>
          simp only [hreg, readRegister]
          exact device (n := none) hd (fun x => { x with peer := some _ }) (fun _ => rfl)
            (fun _ => rfl) (fun _ => rfl) (fun _ => rfl) (.idle rfl rfl)

theorem down (hd : m.devices.Has d) (hnew : m.stage? (.units d) call = none) :
    Passes m (m.noticeOfDown d call) (m.down d call).1 := by
  have hfind : (m.devices.get d).semaphore.find? call = none := Option.map_eq_none_iff.mp hnew
  unfold noticeOfDown
  cases henabled : (m.devices.get d).enabled with
  | false =>
      rw [down_of_disabled henabled]
      exact refl m
  | true =>
      rw [down_of_enabled henabled, Device.newsOf_map]
      exact device hd
        (fun x => { x with semaphore := ((m.devices.get d).semaphore.enter call).1 })
        (fun _ => rfl) (fun _ => rfl) (fun _ => rfl) (fun _ => rfl)
        (.units_of_look (Channel.Step.enter hfind) rfl nofun)

theorem waitEvent (hd : m.devices.Has d) (hnew : m.stage? (.signal d) call = none) :
    Passes m (m.noticeOfWaitEvent d call) (m.waitEvent d call).1 := by
  have hfind : (m.devices.get d).event.find? call = none := Option.map_eq_none_iff.mp hnew
  unfold noticeOfWaitEvent
  cases henabled : (m.devices.get d).enabled with
  | false =>
      rw [waitEvent_of_disabled henabled]
      exact refl m
  | true =>
      rw [waitEvent_of_enabled henabled, Device.newsOf_map]
      exact device hd (fun x => { x with event := ((m.devices.get d).event.enter call).1 })
        (fun _ => rfl) (fun _ => rfl) (fun _ => rfl) (fun _ => rfl)
        (.flag_of_look (Channel.Step.enter hfind) rfl nofun)

theorem lapse {site : Site} (hasleep : m.stage? site call = some .asleep) :
    Passes m none (m.expire site call) := by
  cases site with
  | units d =>
      exact device (n := none) (has_of_stage_units hasleep)
        (fun x => { x with semaphore := x.semaphore.expire call }) (fun _ => rfl) (fun _ => rfl)
        (fun _ => rfl) (fun _ => rfl)
        ⟨.inr ⟨.lapse call, .lapse _ _, fun _ => rfl⟩, .inl ⟨rfl, fun _ => rfl⟩⟩
  | signal d =>
      exact device (n := none) (has_of_stage_signal hasleep)
        (fun x => { x with event := x.event.expire call }) (fun _ => rfl) (fun _ => rfl)
        (fun _ => rfl) (fun _ => rfl)
        ⟨.inl ⟨rfl, fun _ => rfl⟩, .inr ⟨.lapse call, .lapse _ _, fun _ => rfl⟩⟩
  | semaphore | event => exact ⟨{ SameWiring.refl m with }, .idle rfl⟩

theorem resume {site : Site} (hup : (Op.resume site call).Valid m) :
    Passes m (m.notice (.resume site call)) (m.resume site call).1 := by
  cases site with
  | units d =>
      have hd : m.devices.Has d := hup.elim has_of_stage_units has_of_stage_units
      obtain ⟨p, hp, rfl⟩ := mem_returning (c := (m.devices.get d).semaphore) hup
      exact device hd
        (fun x => { x with semaphore := ((m.devices.get d).semaphore.resume p.call).1 })
        (fun _ => rfl) (fun _ => rfl) (fun _ => rfl) (fun _ => rfl)
        (.units_of_look (Channel.Step.resume hp) rfl nofun)
  | signal d =>
      have hd : m.devices.Has d := hup.elim has_of_stage_signal has_of_stage_signal
      obtain ⟨p, hp, rfl⟩ := mem_returning (c := (m.devices.get d).event) hup
      exact device hd (fun x => { x with event := ((m.devices.get d).event.resume p.call).1 })
        (fun _ => rfl) (fun _ => rfl) (fun _ => rfl) (fun _ => rfl)
        (.flag_of_look (Channel.Step.resume hp) rfl nofun)
  | semaphore | event => exact ⟨{ SameWiring.refl m with }, .idle rfl⟩

/-- A request is carried out by the operation that it asks for. -/
theorem control (h : Wired m) {request : Request} (hv : (Op.control d request call).Valid m) :
    Passes m (m.notice (.control d request call)) (m.control d request call).1 := by
  obtain ⟨hd, hunits, hsignal⟩ := hv
  have hdown := down hd hunits
  have hwait := waitEvent hd hsignal
  have hring := ring h hd
  cases henabled : (m.devices.get d).enabled with
  | false =>
      have hsame : (m.control d request call).1 = m := by
        unfold Machine.control
        rw [ensureEnabled_of_disabled henabled]
      have hnone : m.notice (.control d request call) = none := by
        cases request with
        | setSema count => exact if_neg (by simp [henabled])
        | downSema =>
            show (Device.newsOf _ (m.down d call).2).map _ = none
            rw [down_of_disabled henabled]
            rfl
        | waitEvent =>
            show (Device.newsOf _ (m.waitEvent d call).2).map _ = none
            rw [waitEvent_of_disabled henabled]
            rfl
        | empty target | waitEventIrq target | semaIrq target =>
            show m.noticeOfRing d target _ = none
            simp [noticeOfRing, henabled]
        | readIvPosn | readLivelist => rfl
      rw [hsame, hnone]
      exact refl m
  | true =>
      unfold Machine.control
      rw [ensureEnabled_of_enabled henabled]
      cases request with
      | setSema count =>
          have hnotice : m.notice (.control d (.setSema count) call) = some (d, .armed count) :=
            if_pos henabled
          rw [hnotice]
          exact arm hd count
      | downSema => exact hdown
      | waitEvent => exact hwait
      | empty target => exact hring target .empty
      | waitEventIrq target => exact hring target .waitEventIrq
      | semaIrq target => exact hring target .semaIrq
      | readIvPosn => exact identify h hd
      | readLivelist => exact refl m

end Passes

/-! ## Every op -/

/-- Whether an op makes or removes something. -/
def Op.builds : Op → Bool
  | .fabric _ | .port .. | .join .. | .seat .. | .detach _ | .remove .. => true
  | _ => false

theorem Wired.passes (h : Wired m) {op : Op} (hv : op.Valid m) (hop : op.builds = false) :
    Passes m (m.notice op) (m.carry op) := by
  cases op with
  | fabric | port | join | seat | detach | remove => exact nomatch hop
  | read e register => exact .read m e register
  | write e register value => exact .write h hv register value
  | raise f peer status => exact .raise h f peer status
  | ring d target command => exact .ring h hv target command
  | control d request call => exact .control h hv
  | identify d => exact .identify h hv
  | arm d count => exact .arm hv count
  | interrupt d => exact .interrupt hv
  | down d call => exact .down hv.1 hv.2
  | waitEvent d call => exact .waitEvent hv.1 hv.2
  | lapse site call => exact .lapse hv
  | resume site call => exact .resume hv

theorem Wired.carry (h : Wired m) {op : Op} (hv : op.Valid m) : Wired (m.carry op) := by
  cases op with
  | fabric size => exact h.addFabric size
  | port f peer => exact h.resources hv peer
  | join f peer =>
      show Wired (m.fabricAttach f peer).1
      rw [fabricAttach_eq_seat]
      exact (h.resources hv peer).seat (Table.has_push_fresh ..) _
  | seat e window => exact h.seat hv window
  | detach d => exact h.detach d
  | remove f peer => exact h.fabricRemove f peer
  | read | write | raise | ring | control | identify | arm | interrupt | down | waitEvent | lapse
  | resume => exact h.of_same (h.passes hv rfl).wiring

theorem Wired.reports (h : Wired m) {op : Op} (hv : op.Valid m) :
    Reports m (m.notice op) (m.carry op) := by
  cases op with
  | fabric | port | remove => exact .idle rfl
  | join f peer =>
      show Reports m none (m.fabricAttach f peer).1
      rw [fabricAttach_eq_seat]
      exact reports_seat (m.resources f peer).1 _ _
  | seat e window => exact reports_seat m e window
  | detach d =>
      cases hs : (m.devices.get d).seat with
      | none => exact .idle (congrArg Machine.devices (detach_of_none hs))
      | some s =>
          exact .modify (n := none) hv (congrArg Machine.devices (detach_of_seat hs))
            (.closed rfl rfl)
  | read | write | raise | ring | control | identify | arm | interrupt | down | waitEvent | lapse
  | resume => exact (h.passes hv rfl).reports

theorem Roster.carry {n : Nat} (h : Roster n m) (hw : Wired m) {op : Op} (hv : op.Valid m)
    (hroom : n + 1 < UInt64.size) : Roster (n + 1) (m.carry op) := by
  have hle : n ≤ n + 1 := Nat.le_succ n
  cases op with
  | fabric size => exact (h.addFabric size).mono hle
  | port f peer => exact (h.resources hw f peer).mono hle
  | join f peer =>
      show Roster (n + 1) (m.fabricAttach f peer).1
      rw [fabricAttach_eq_seat]
      exact (h.resources hw f peer).seat_device (hw.resources hv peer) (Table.has_push_fresh ..) _
        hroom
  | seat e window => exact h.seat_device hw hv window hroom
  | detach d => exact (h.detach d).mono hle
  | remove f peer => exact (h.fabricRemove f peer).mono hle
  | read | write | raise | ring | control | identify | arm | interrupt | down | waitEvent | lapse
  | resume => exact (h.of_same (hw.passes hv rfl).wiring.toSameSeats).mono hle

/-! ## Runs -/

/-- An op together with its news, if the op may happen. -/
def act (m : Machine) (a : Op × Notice) : Option Machine :=
  if a.1.Valid m ∧ m.notice a.1 = a.2 then some (m.carry a.1) else none

abbrev Step (m : Machine) (a : Op × Notice) (m' : Machine) : Prop := m.act a = some m'

theorem Step.inv {a : Op × Notice} (h : Step m a m') :
    a.1.Valid m ∧ a.2 = m.notice a.1 ∧ m' = m.carry a.1 := by
  unfold Step act at h
  split at h
  · rename_i hv
    exact ⟨hv.1, hv.2.symm, (Option.some.inj h).symm⟩
  · exact nomatch h

/-- The ledger of a device's semaphore after a run. -/
def ledger (d : Ref .device) (acts : List (Op × Notice)) : Ledger :=
  acts.foldl (fun l a => (a.2.to d).elim l l.note) {}

/-- The ledger of a device's event flag after a run. -/
def flagLedger (d : Ref .device) (acts : List (Op × Notice)) : FlagLedger :=
  acts.foldl (fun l a => (a.2.to d).elim l l.note) {}

/-- What holds after the acts of a run. -/
structure Kept (acts : List (Op × Notice)) (m : Machine) : Prop where
  wired : Wired m
  roster : acts.length < UInt64.size → Roster acts.length m
  booked : ∀ d, (m.devices.get d).Booked (ledger d acts) (flagLedger d acts)

theorem kept_of_run {acts : List (Op × Notice)} (h : Run Step {} acts m) : Kept acts m := by
  induction h with
  | nil =>
      refine ⟨.empty, fun _ => .empty, fun d => ?_⟩
      rw [Table.get_of_not_has (Nat.not_lt_zero _)]
      exact .fresh rfl rfl
  | @snoc acts m m' a _ hs ih =>
      obtain ⟨hv, hnotice, rfl⟩ := hs.inv
      refine ⟨ih.wired.carry hv, fun hroom => ?_, fun d => ?_⟩
      · rw [List.length_append, List.length_singleton] at hroom ⊢
        exact (ih.roster (Nat.lt_of_succ_lt hroom)).carry ih.wired hv hroom
      · have hreacts := ih.wired.reports hv d
        rw [← hnotice] at hreacts
        unfold ledger flagLedger
        rw [List.foldl_append, List.foldl_append]
        exact (ih.booked d).reacts hreacts

/-- **Doorbells are delivered exactly.**  After any run, a word that is written to the doorbell
register of a port is given to the peer that its upper half names, and a status that is raised is
given to its peer whatever the mask; what `given` says is all that happens.  The device that takes
the status is the first on the line that is enabled, and that is the one that was attached first of
all that are attached to the port.  So every unit that a device holds or gave out was put there by
a doorbell of the semaphore channel that it heard, or was armed, and none of them is lost unless the
count was full; and its event flag is there to be taken only if it was rung for. -/
theorem doorbell_exact {acts : List (Op × Notice)} (h : Run Step {} acts m) :
    (∀ e raw, m.endpoints.Has e → m.writeRegister (.endpoint e) .doorbell raw =
      m.given (m.endpoints.get e).fabric ⟨(raw >>> 16).toUInt16⟩ (raw &&& 0xFFFF) false) ∧
    (∀ f peer status, (m.fabricRaise f peer status).1 = m.given f peer status true) ∧
    (∀ (status : UInt32) (d : Device),
      (d.heard status).pending.semaphore.toNat = (if status.toUInt8 = 7
        then min (d.pending.semaphore.toNat + 1) (UInt32.size - 1) else d.pending.semaphore.toNat) ∧
      (d.heard status).pending.event = (d.pending.event || decide (status.toUInt8 = 4))) ∧
    (acts.length + 1 < UInt64.size → ∀ e, m.endpoints.Has e →
      (∀ d, m.listener? e = some d ↔ m.Sits d e ∧ ∀ d', m.Sits d' e → d.index ≤ d'.index) ∧
      (m.listener? e = none ↔ ∀ d, ¬m.Sits d e)) ∧
    ∀ d,
      let units := ledger d acts
      let flag := flagLedger d acts
      let pending := (m.devices.get d).pending
      (units.armed.toNat + units.ups ≤ UInt32.size - 1 →
        units.downs + pending.semaphore.toNat = units.armed.toNat + units.ups) ∧
      units.downs + pending.semaphore.toNat ≤ units.armed.toNat + units.ups ∧
      flag.taken + pending.event.toNat ≤ flag.rung := by
  have hk := kept_of_run h
  refine ⟨fun e raw he => hk.wired.writeDoorbell he raw,
    fun f peer status => hk.wired.fabricRaise f peer status, fun status d => d.pending_heard,
    fun hroom e he => (hk.roster (Nat.lt_of_succ_lt hroom)).listener hk.wired he, fun d => ?_⟩
  intro units flag pending
  have hb := hk.booked d
  have hle : pending.semaphore.toNat + units.downs ≤ units.armed.toNat + units.ups :=
    hb.balances.le
  have heq (hfits : units.armed.toNat + units.ups < UInt32.size) :
      pending.semaphore.toNat + units.downs = units.armed.toNat + units.ups := hb.balances.eq hfits
  refine ⟨fun hfits => ?_, ?_, hb.covers⟩
  · rw [Nat.add_comm]
    exact heq (Nat.lt_of_le_of_lt hfits (by decide))
  · rw [Nat.add_comm]
    exact hle

/-- Two devices share a port; the first is detached, and from then on the second hears its
doorbells: it takes one unit, and the next doorbell is for it as well. -/
theorem doorbell_exact_shared_port :
    ∃ (acts : List (Op × Notice)) (m : Machine), Run Step {} acts m ∧ m.endpoints.Has ⟨0⟩ ∧
      m.writeRegister (.endpoint ⟨0⟩) .doorbell 0x20107 = m.heardBy ⟨1⟩ ⟨2⟩ 0x107 ∧
      m.Sits ⟨2⟩ ⟨1⟩ ∧ ledger ⟨2⟩ acts = ⟨0, 1, 1⟩ ∧
      1 + (m.devices.get ⟨2⟩).pending.semaphore.toNat = 0 + 1 := by
  have hany : (([(.fabric 0, none), (.join ⟨0⟩ ⟨1⟩, none), (.join ⟨0⟩ ⟨2⟩, none),
      (.seat ⟨1⟩ none, none), (.ring ⟨0⟩ ⟨2⟩ .semaIrq, some (⟨1⟩, .heard 7)), (.detach ⟨1⟩, none),
      (.down ⟨2⟩ ⟨0⟩, none), (.write ⟨0⟩ .doorbell 0x20007, some (⟨2⟩, .heard 7)),
      (.resume (.units ⟨2⟩) ⟨0⟩, some (⟨2⟩, .tookUnit))] : List (Op × Notice)).foldlM act {}).any
      (fun m => m.endpoints.Has ⟨0⟩ ∧ m.endpoints.Has ⟨1⟩ ∧
        (m.fabrics.get (m.endpoints.get ⟨0⟩).fabric).endpoint? ⟨2⟩ = some ⟨1⟩ ∧
        m.hearer? ⟨1⟩ false = some ⟨2⟩ ∧ m.listener? ⟨1⟩ = some ⟨2⟩) = true := by
    decide
  obtain ⟨m, hrun, hm⟩ := Run.exists_of_any hany
  obtain ⟨hport, hport', hpeer, hhear, hlisten⟩ := of_decide_eq_true hm
  obtain ⟨hwrite, -, -, hfirst, hbooks⟩ := doorbell_exact hrun
  refine ⟨_, m, hrun, hport, ?_, ?_, rfl, (hbooks ⟨2⟩).1 (by decide)⟩
  · rw [hwrite ⟨0⟩ 0x20107 hport]
    exact (given_of_some hpeer).trans (delivered_of_some hhear)
  · exact (((hfirst (by decide) ⟨1⟩ hport').1 ⟨2⟩).mp hlisten).1

end Machine

end PeerBus
