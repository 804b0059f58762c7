/-
# `PeerBus.Proofs.Machine.Standing` — where a device stands

The `Standing` of a device is where its dispatcher is registered, whether it is enabled, and
whether its two channels are closed.  Of all that can happen to a machine only an attachment and a
detachment change a standing.  To show it once for everything else, the ways in which a machine can
change are sorted by what they may break:

    beside   neither lines nor devices are touched
    signal   an enabled device changes, and its standing does not
    own      one given device changes, and its standing does not

What survives the first two is `Passive`, and survives every interrupt, whatever handlers it runs
through and whatever lines they raise in turn (`Passive.raise`), hence every register that is
written.  What survives the third as well is `Tame`, and survives every use of the device's handle
(`Tame.use`).

Two properties are of this kind: that lines and standings are as they were (`tame_sameStanding`),
and, apart from its own uses, that a device which is not enabled is as it was to the last bit
(`passive_untouched`, `tame_untouched`).
-/
import PeerBus.Proofs.Machine.Handle
import PeerBus.Proofs.Wait.Closed

namespace PeerBus

/-! ## Standings -/

structure Standing where
  seat : Option Seat
  enabled : Bool
  unitsClosed : Bool
  signalClosed : Bool
  deriving DecidableEq

namespace Standing

def attached (seat : Seat) : Standing := ⟨some seat, true, false, false⟩

def detached : Standing := ⟨none, false, true, true⟩

end Standing

namespace Device

def standing (d : Device) : Standing :=
  ⟨d.seat, d.enabled, d.semaphore.gate.closed, d.event.gate.closed⟩

theorem standing_semaphore {d : Device} {s : Semaphore}
    (h : s.gate.closed = d.semaphore.gate.closed) :
    Device.standing { d with semaphore := s } = d.standing :=
  congrArg (fun closed => Standing.mk d.seat d.enabled closed d.event.gate.closed) h

theorem standing_event {d : Device} {e : EventFlag} (h : e.gate.closed = d.event.gate.closed) :
    Device.standing { d with event := e } = d.standing :=
  congrArg (Standing.mk d.seat d.enabled d.semaphore.gate.closed) h

theorem standing_interrupt (d : Device) :
    Device.standing { d with semaphore := d.semaphore.interrupt, event := d.event.interrupt } =
      d.standing :=
  (standing_event (d := { d with semaphore := d.semaphore.interrupt })
    d.event.gate.closed_interrupt).trans (standing_semaphore d.semaphore.gate.closed_interrupt)

end Device

namespace Machine

/-! ## Interrupts -/

structure Passive (P : Machine → Prop) : Prop where
  beside : ∀ {m m' : Machine}, P m → m'.lines = m.lines → m'.devices = m.devices → P m'
  signal : ∀ {m : Machine} {d : Ref .device} {f : Device → Device}, P m →
    (m.devices.get d).enabled = true → (∀ x, (f x).standing = x.standing) →
    P { m with devices := m.devices.modify d f }

namespace Passive

variable {P : Machine → Prop} {m : Machine}

theorem readRegister (h : Passive P) (hm : P m) (registers : Registers) (register : Register) :
    P (m.readRegister registers register).1 := by
  cases registers <;> cases register <;> exact h.beside hm rfl rfl

theorem dispatch (h : Passive P) (hm : P m) (d : Ref .device) : P (m.dispatch d).1 := by
  cases henabled : (m.devices.get d).enabled with
  | false =>
      rw [dispatch_of_disabled henabled]
      exact hm
  | true =>
      have hread := h.readRegister hm (m.devices.get d).registers .intrStatus
      have hsame : (m.readRegister (m.devices.get d).registers .intrStatus).1.devices =
          m.devices := by
        cases (m.devices.get d).registers <;> rfl
      have henabled' : ((m.readRegister (m.devices.get d).registers .intrStatus).1.devices.get
          d).enabled = true := by
        rw [hsame]
        exact henabled
      unfold Machine.dispatch
      rw [if_pos henabled]
      generalize m.readRegister (m.devices.get d).registers .intrStatus = read at hread henabled'
      obtain ⟨m', status⟩ := read
      dsimp only at hread henabled' ⊢
      cases StatusEvent.classify status with
      | semaphore =>
          exact h.signal hread henabled' fun x => Device.standing_semaphore x.semaphore.closed_up
      | event => exact h.signal hread henabled' fun _ => rfl
      | spurious | unrecognized => exact hread

theorem tell (h : Passive P) {raise : Machine → Ref .line → Machine × Bool}
    (hraise : ∀ {m : Machine} (line : Ref .line), P m → P (raise m line).1) (hm : P m)
    (handler : Handler) : P (Machine.tell raise m handler).1 := by
  cases handler with
  | device d => exact h.dispatch hm d
  | probe ref =>
      unfold Machine.tell
      have hcounted : P { m with
          probes := m.probes.modify ref fun p => { p with calls := p.calls + 1 } } :=
        h.beside hm rfl rfl
      cases halive : (m.probes.get ref).alive with
      | false =>
          simp only [halive]
          exact hm
      | true =>
          simp only [halive]
          cases (m.probes.get ref).chain with
          | none => exact hcounted
          | some line => exact hraise line hcounted

theorem tellAll (h : Passive P) {raise : Machine → Ref .line → Machine × Bool}
    (hraise : ∀ {m : Machine} (line : Ref .line), P m → P (raise m line).1)
    (l : List Registration) (hm : P m) : P (Machine.tellAll raise l m).1 := by
  induction l generalizing m with
  | nil => exact hm
  | cons r l ih => exact ih (h.tell hraise hm r.handler)

/-- Whatever handlers an interrupt runs through, and whatever lines they raise in turn. -/
theorem raiseWithin (h : Passive P) (depth : Nat) (line : Ref .line) (hm : P m) :
    P (Machine.raiseWithin depth m line).1 := by
  induction depth generalizing m line with
  | zero => exact hm
  | succ depth ih => exact h.tellAll (fun line hm => ih line hm) _ hm

theorem raise (h : Passive P) (hm : P m) (line : Ref .line) : P (m.raise line).1 :=
  h.raiseWithin _ line hm

theorem deliver (h : Passive P) (hm : P m) (e : Ref .endpoint) (status : UInt32) (force : Bool) :
    P (m.deliver e status force).1 := by
  have hlatched : P (m.latch e status) := h.beside hm rfl rfl
  unfold Machine.deliver
  dsimp only
  split
  · exact hlatched
  · exact h.raise hlatched _

theorem writeRegister (h : Passive P) (hm : P m) (registers : Registers) (register : Register)
    (value : UInt32) : P (m.writeRegister registers register value) := by
  cases registers with
  | recorder | words => cases register <;> exact h.beside hm rfl rfl
  | endpoint e =>
      cases register with
      | intrMask | intrStatus | ivPosition => exact h.beside hm rfl rfl
      | doorbell =>
          unfold Machine.writeRegister
          dsimp only
          split
          · unfold Machine.route
            split
            · exact h.deliver hm _ _ false
            · exact hm
          · exact hm

end Passive

/-! ## Uses of a handle -/

structure Tame (P : Machine → Prop) (d : Ref .device) : Prop extends Passive P where
  own : ∀ {m : Machine} {f : Device → Device}, P m →
    (f (m.devices.get d)).standing = (m.devices.get d).standing →
    P { m with devices := m.devices.modify d f }

namespace Tame

variable {P : Machine → Prop} {d : Ref .device} {m : Machine}

theorem down (h : Tame P d) (hm : P m) (call : CallId) : P (m.down d call).1 := by
  cases henabled : (m.devices.get d).enabled with
  | false =>
      rw [down_of_disabled henabled]
      exact hm
  | true =>
      rw [down_of_enabled henabled]
      exact h.own hm (Device.standing_semaphore (Channel.closed_enter _ call))

theorem waitEvent (h : Tame P d) (hm : P m) (call : CallId) : P (m.waitEvent d call).1 := by
  cases henabled : (m.devices.get d).enabled with
  | false =>
      rw [waitEvent_of_disabled henabled]
      exact hm
  | true =>
      rw [waitEvent_of_enabled henabled]
      exact h.own hm (Device.standing_event (Channel.closed_enter _ call))

theorem ring (h : Tame P d) (hm : P m) (target : PeerId) (command : Command) :
    P (m.ring d target command).1 := by
  unfold Machine.ring
  dsimp only
  cases (m.devices.get d).ensureEnabled with
  | error => exact hm
  | ok => exact h.writeRegister hm (m.devices.get d).registers .doorbell _

theorem peerId (h : Tame P d) (hm : P m) : P (m.peerId d).1 := by
  unfold Machine.peerId
  dsimp only
  cases (m.devices.get d).ensureEnabled with
  | error => exact hm
  | ok =>
      cases (m.devices.get d).peer with
      | some => exact hm
      | none => exact h.own (h.readRegister hm _ _) rfl

theorem arm (h : Tame P d) (hm : P m) (count : UInt32) : P (m.arm d count) :=
  h.own hm rfl

theorem control (h : Tame P d) (hm : P m) (request : Request) (call : CallId) :
    P (m.control d request call).1 := by
  unfold Machine.control
  cases (m.devices.get d).ensureEnabled with
  | error => exact hm
  | ok =>
      cases request with
      | setSema count => exact h.arm hm count
      | downSema => exact h.down hm call
      | waitEvent => exact h.waitEvent hm call
      | empty | waitEventIrq | semaIrq => exact h.ring hm _ _
      | readIvPosn => exact h.peerId hm
      | readLivelist => exact hm

theorem write (h : Tame P d) (hm : P m) (offset : UInt64) (data : List UInt8) :
    P (m.write d offset data).1 := by
  unfold Machine.write
  cases (m.devices.get d).window? with
  | error => exact hm
  | ok => exact h.beside hm rfl rfl

theorem ask (h : Tame P d) (hm : P m) (ask : Ask) : P (m.ask d ask).1 := by
  cases ask with
  | down call => exact h.down hm call
  | waitEvent call => exact h.waitEvent hm call
  | ring target command => exact h.ring hm target command
  | peerId => exact h.peerId hm
  | control request call => exact h.control hm request call
  | write offset data => exact h.write hm offset data
  | windowSize | read | readInto | map => exact hm

/-- No use of a handle breaks what is tame. -/
theorem use (h : Tame P d) (hm : P m) (u : Use) : P (m.use d u) := by
  cases u with
  | ask ask => exact h.ask hm ask
  | arm count => exact h.arm hm count
  | interrupt => exact h.own hm (Device.standing_interrupt _)
  | lapse lane call =>
      cases lane with
      | units | signal => exact h.own hm rfl
  | look lane call =>
      cases lane with
      | units => exact h.own hm (Device.standing_semaphore (Channel.closed_resume _ call))
      | signal => exact h.own hm (Device.standing_event (Channel.closed_resume _ call))

end Tame

/-! ## What is tame -/

/-- Lines, and the standings of devices, are as they were. -/
structure SameStanding (m m' : Machine) : Prop where
  lines : m'.lines = m.lines
  hasDevice : ∀ d, m'.devices.Has d ↔ m.devices.Has d
  standing : ∀ d, (m'.devices.get d).standing = (m.devices.get d).standing

theorem SameStanding.refl (m : Machine) : SameStanding m m := ⟨rfl, fun _ => Iff.rfl, fun _ => rfl⟩

theorem SameStanding.modify {m m' : Machine} (h : SameStanding m m') {d : Ref .device}
    {f : Device → Device} (hf : (f (m'.devices.get d)).standing = (m'.devices.get d).standing) :
    SameStanding m { m' with devices := m'.devices.modify d f } where
  lines := h.lines
  hasDevice d' := (Table.has_modify ..).trans (h.hasDevice d')
  standing d' := (Table.get_modify_keeps_at _ d d' Device.standing hf).trans (h.standing d')

theorem passive_sameStanding (m : Machine) : Passive (SameStanding m) where
  beside h hlines hdevices := by
    refine ⟨hlines.trans h.lines, ?_, ?_⟩
    · rw [hdevices]
      exact h.hasDevice
    · rw [hdevices]
      exact h.standing
  signal h _ hf := h.modify (hf _)

theorem tame_sameStanding (m : Machine) (d : Ref .device) : Tame (SameStanding m) d :=
  { passive_sameStanding m with own := fun h hf => h.modify hf }

/-- Interrupts do not reach a device that is not enabled. -/
theorem passive_untouched {x : Device} (hx : x.enabled = false) (d : Ref .device) :
    Passive fun m => m.devices.get d = x where
  beside h _ hdevices := by
    rw [hdevices]
    exact h
  signal := by
    intro m d' f h henabled _
    have hother : d' ≠ d := by
      rintro rfl
      rw [h, hx] at henabled
      exact nomatch henabled
    exact (Table.get_modify_of_ne _ hother f).trans h

/-- Nor do the uses of others. -/
theorem tame_untouched {x : Device} (hx : x.enabled = false) {d d' : Ref .device} (hne : d' ≠ d) :
    Tame (fun m => m.devices.get d = x) d' :=
  { passive_untouched hx d with own := fun h _ => (Table.get_modify_of_ne _ hne _).trans h }

end Machine

end PeerBus
