/-
# `PeerBus.Proofs.Machine.Control` — requests by number

A request is a command number with an argument of 64 bits.  Each number but one stands for a call
that can be made directly (`Command.use?`):

    0          `arm`, to the lower 32 bits of the argument
    1          `down`
    2, 4, 7    `ring`, the peer in the lower 16 bits, with the command of that number
    3          `waitEvent`
    5          `peerId`
    6          none: nobody lists the peers
    above      no request at all

**What is proved.**  To decode is to say which command has the number and what it takes from the
argument (`Request.decode_eq_ok`).  On a device that is enabled a request leaves the machine that
the direct call leaves, and answers the same (`Machine.control_eq_use`); so it sleeps when the
direct call sleeps, and whatever happens meanwhile, the two end alike (`Machine.Ends.map_iff`).  On
a device that is not enabled it fails and does nothing, whatever its number
(`Machine.control_of_disabled`).
-/
import PeerBus.Proofs.Machine.Deeds
import PeerBus.Proofs.Machine.Delivery

namespace PeerBus

/-! ## Numbers and commands -/

namespace Command

variable {number : UInt32} {c : Command}

theorem ofNumber?_eq_some : ofNumber? number = some c ↔ number = c.code.toUInt32 := by
  constructor
  · intro h
    obtain ⟨hbyte, hcode⟩ := (Option.ite_none_right_eq_some ..).mp h
    refine UInt32.toNat_inj.mp ?_
    rw [← ofCode?_eq_some.mp hcode, UInt8.toNat_toUInt32, UInt32.toNat_toUInt8]
    omega
  · rintro rfl
    cases c <;> rfl

theorem ofNumber?_eq_none : ofNumber? number = none ↔ 7 < number.toNat := by
  unfold ofNumber?
  by_cases hbyte : number.toNat ≤ 255
  · rw [if_pos hbyte, ← Option.not_isSome_iff_eq_none, isSome_ofCode?_iff, UInt32.toNat_toUInt8]
    omega
  · rw [if_neg hbyte]
    exact iff_of_true rfl (by omega)

end Command

/-! ## Requests and what they take from the argument -/

namespace Request

/-- The part of the argument that a request is about. -/
def Carries (argument : UInt64) : Request → Prop
  | setSema count => count.toNat = argument.toNat % UInt32.size
  | empty target | waitEventIrq target | semaIrq target =>
      target.number.toNat = argument.toNat % UInt16.size
  | downSema | waitEvent | readIvPosn | readLivelist => True

/-- An argument that says no more than the request needs. -/
def operand : Request → UInt64
  | setSema count => count.toUInt64
  | empty target | waitEventIrq target | semaIrq target => target.number.toUInt64
  | downSema | waitEvent | readIvPosn | readLivelist => 0

variable {number : UInt32} {argument : UInt64} {request : Request}

theorem carries_operand (request : Request) : request.Carries request.operand := by
  cases request with
  | setSema count =>
      show count.toNat = count.toUInt64.toNat % UInt32.size
      rw [UInt32.toNat_toUInt64]
      exact (Nat.mod_eq_of_lt count.toNat_lt).symm
  | empty target | waitEventIrq target | semaIrq target =>
      show target.number.toNat = target.number.toUInt64.toNat % UInt16.size
      rw [UInt16.toNat_toUInt64]
      exact (Nat.mod_eq_of_lt target.number.toNat_lt).symm
  | downSema | waitEvent | readIvPosn | readLivelist => exact trivial

theorem eq_toUInt32_iff {count : UInt32} :
    count = argument.toUInt32 ↔ count.toNat = argument.toNat % UInt32.size :=
  UInt32.toNat_inj.symm

theorem eq_toUInt16_iff {target : PeerId} :
    target = ⟨argument.toUInt16⟩ ↔ target.number.toNat = argument.toNat % UInt16.size := by
  obtain ⟨number⟩ := target
  rw [PeerId.mk.injEq]
  exact UInt16.toNat_inj.symm

/-- The number names the command, and the argument carries the rest. -/
theorem decode_eq_ok : decode number argument = .ok request ↔
    number = request.command.code.toUInt32 ∧ request.Carries argument := by
  constructor
  · intro h
    cases hc : Command.ofNumber? number with
    | none =>
        simp only [decode, hc] at h
        cases h
    | some c =>
        obtain rfl := Command.ofNumber?_eq_some.mp hc
        simp only [decode, hc] at h
        cases c with
        | setSema | empty | waitEventIrq | semaIrq =>
            obtain rfl := Except.ok.inj h
            exact ⟨rfl, rfl⟩
        | downSema | waitEvent | readIvPosn | readLivelist =>
            obtain rfl := Except.ok.inj h
            exact ⟨rfl, trivial⟩
  · rintro ⟨rfl, hcarries⟩
    unfold decode
    rw [Command.ofNumber?_eq_some.mpr rfl]
    cases request with
    | setSema count =>
        obtain rfl := eq_toUInt32_iff.mpr hcarries
        rfl
    | empty target | waitEventIrq target | semaIrq target =>
        obtain rfl := eq_toUInt16_iff.mpr hcarries
        rfl
    | downSema | waitEvent | readIvPosn | readLivelist => rfl

example : decode 7 0x10003 = .ok (.semaIrq ⟨3⟩) := rfl

/-- The only failure, and it repeats the number. -/
theorem decode_eq_error {e : DeviceError} : decode number argument = .error e ↔
    7 < number.toNat ∧ e = .unsupportedCommand number := by
  cases hc : Command.ofNumber? number with
  | none =>
      have hfail : decode number argument = .error (.unsupportedCommand number) := by
        simp only [decode, hc]
      rw [hfail, Except.error.injEq, eq_comm]
      exact (and_iff_right (Command.ofNumber?_eq_none.mp hc)).symm
  | some c =>
      obtain rfl := Command.ofNumber?_eq_some.mp hc
      refine iff_of_false (fun h => ?_) fun h => Nat.not_lt_of_le c.code_toUInt32_le h.1
      simp only [decode, hc] at h
      cases c <;> cases h

end Request

/-! ## The direct calls -/

/-- The direct call that a command with an argument stands for. -/
def Command.use? (command : Command) (argument : UInt64) (call : CallId) : Option Use :=
  match command with
  | .setSema => some (.arm (UInt32.ofNat (argument.toNat % UInt32.size)))
  | .downSema => some (.ask (.down call))
  | .waitEvent => some (.ask (.waitEvent call))
  | .empty | .waitEventIrq | .semaIrq =>
      some (.ask (.ring ⟨UInt16.ofNat (argument.toNat % UInt16.size)⟩ command))
  | .readIvPosn => some (.ask .peerId)
  | .readLivelist => none

/-- Every request but one has a direct call. -/
theorem Request.exists_use {request : Request} (h : request ≠ .readLivelist) (argument : UInt64)
    (call : CallId) : ∃ u, request.command.use? argument call = some u := by
  cases request with
  | readLivelist => exact absurd rfl h
  | setSema | downSema | empty | waitEvent | waitEventIrq | readIvPosn | semaIrq => exact ⟨_, rfl⟩

/-- What a direct call answers if it has the outcome of a wait. -/
def Ask.Result.ofWaited (outcome : Waited) : Except DeviceError Ask.Result :=
  (outcome.mapError DeviceError.ofWait).map fun _ => .done

namespace Response

/-- What a request answers if it has the outcome of a wait. -/
def ofWaited (outcome : Waited) : Except DeviceError Response :=
  ofUnit (outcome.mapError DeviceError.ofWait)

/-- The result of a direct call that a response stands for. -/
def result : Response → Ask.Result
  | done => .done
  | peer id => .peer id

/-- The answer to a request, in the form of the direct call's. -/
def results (answer : Except DeviceError Response) : Except DeviceError Ask.Result :=
  answer.map result

theorem results_ofUnit (outcome : Except DeviceError Unit) :
    results (ofUnit outcome) = outcome.map fun _ => .done := by
  cases outcome <;> rfl

theorem results_peer (outcome : Except DeviceError PeerId) :
    results (outcome.map .peer) = outcome.map .peer := by
  cases outcome <;> rfl

end Response

namespace Machine

variable {m : Machine} {d : Ref .device} {call : CallId}

/-- What a use answers; there is no answer yet if the call sleeps. -/
def answer (m : Machine) (d : Ref .device) : Use → Option (Except DeviceError Ask.Result)
  | .ask ask => (m.ask d ask).2
  | .look lane call => (m.resume (lane.site d) call).2.map Ask.Result.ofWaited
  | .arm _ | .interrupt | .lapse _ _ => some (.ok .done)

/-- On a device that is enabled a request is its direct call: the machine after it, and the answer
if it has one already. -/
theorem control_eq_use (h : (m.devices.get d).enabled = true) {request : Request}
    {argument : UInt64} (hcarries : request.Carries argument) {u : Use}
    (hu : request.command.use? argument call = some u) :
    Prod.map id (Option.map Response.results) (m.control d request call) =
      (m.use d u, m.answer d u) := by
  have hwait (o : Option (Except DeviceError Unit)) :
      (o.map Response.ofUnit).map Response.results = o.map fun a => a.map fun _ => .done := by
    rw [Option.map_map]
    exact congrArg (o.map ·) (funext Response.results_ofUnit)
  unfold control
  rw [ensureEnabled_of_enabled h]
  cases request with
  | setSema count =>
      obtain rfl := Option.some.inj hu
      have hcount : count = UInt32.ofNat (argument.toNat % UInt32.size) := by
        rw [← (show count.toNat = _ from hcarries), UInt32.ofNat_toNat]
      rw [hcount]
      rfl
  | downSema =>
      obtain rfl := Option.some.inj hu
      exact congrArg (Prod.mk _) (hwait (m.down d call).2)
  | waitEvent =>
      obtain rfl := Option.some.inj hu
      exact congrArg (Prod.mk _) (hwait (m.waitEvent d call).2)
  | empty target | waitEventIrq target | semaIrq target =>
      obtain rfl := Option.some.inj hu
      obtain ⟨number⟩ := target
      have htarget : number = UInt16.ofNat (argument.toNat % UInt16.size) := by
        rw [← (show number.toNat = _ from hcarries), UInt16.ofNat_toNat]
      rw [htarget]
      exact congrArg (fun a => (_, some a)) (Response.results_ofUnit _)
  | readIvPosn =>
      obtain rfl := Option.some.inj hu
      exact congrArg (fun a => ((m.peerId d).1, some a)) (Response.results_peer _)
  | readLivelist => cases hu

theorem control_readLivelist (h : (m.devices.get d).enabled = true) :
    m.control d .readLivelist call = (m, some (.error (.unsupportedCommand 6))) := by
  unfold control
  rw [ensureEnabled_of_enabled h]
  rfl

/-- What a ring puts on the wire: the peer in the upper half, and the very command in the low
byte. -/
theorem control_of_isRing (h : (m.devices.get d).enabled = true) {request : Request}
    {argument : UInt64} (hcarries : request.Carries argument)
    (hring : request.command.isRing = true) :
    ∃ message : Message, message.destination.number.toNat = argument.toNat % UInt16.size ∧
      message.code = request.command.code ∧ m.control d request call =
        (m.writeRegister (m.devices.get d).registers .doorbell message.raw, some (.ok .done)) := by
  cases request with
  | empty target | waitEventIrq target | semaIrq target =>
      refine ⟨.compose target _, ?_, Message.code_compose target _, ?_⟩
      · rw [Message.destination_compose]
        exact hcarries
      · simp only [control, ring, ensureEnabled_of_enabled h]
        rfl
  | setSema | downSema | waitEvent | readIvPosn | readLivelist => cases hring

/-! ## Calls that sleep -/

section Ends

variable {α β : Type}

/-- What becomes of a call through a handle: it returned at once, or it sleeps, and looks again when
its turn comes, until there is an outcome, of which it makes `later`.  Between its looks anything
may happen. -/
inductive Ends (d : Ref .device) (lane : Lane) (call : CallId) (later : Waited → α) :
    Machine × Option α → List Deed → Machine → α → Prop
  | returned (m : Machine) (a : α) : Ends d lane call later (m, some a) [] m a
  | beside {m m' m'' : Machine} {deed : Deed} {deeds : List Deed} {a : α} :
      Next m deed m' → deed ≠ .use d (.look lane call) →
      Ends d lane call later (m', none) deeds m'' a →
      Ends d lane call later (m, none) (deed :: deeds) m'' a
  | look {m m' : Machine} {deeds : List Deed} {a : α} :
      Ends d lane call later (Prod.map id (Option.map later) (m.resume (lane.site d) call)) deeds
        m' a →
      Ends d lane call later (m, none) (.use d (.look lane call) :: deeds) m' a

variable {lane : Lane} {later : Waited → α} {start : Machine × Option α} {deeds : List Deed}
  {m' : Machine} {f : α → β}

theorem map_map_later (looked : Machine × Option Waited) :
    Prod.map id (Option.map f) (Prod.map id (Option.map later) looked) =
      Prod.map id (Option.map fun o => f (later o)) looked := by
  rw [Prod.map_map, Option.map_comp_map]
  rfl

theorem Ends.map {a : α} (h : Ends d lane call later start deeds m' a) (f : α → β) :
    Ends d lane call (fun o => f (later o)) (Prod.map id (Option.map f) start) deeds m' (f a) := by
  induction h with
  | returned m a => exact .returned m (f a)
  | beside hnext hne _ ih => exact .beside hnext hne ih
  | look _ ih =>
      rw [map_map_later] at ih
      exact .look ih

/-- What a call makes of its outcome does not matter to its life. -/
theorem Ends.map_iff {b : β} :
    Ends d lane call (fun o => f (later o)) (Prod.map id (Option.map f) start) deeds m' b ↔
      ∃ a, f a = b ∧ Ends d lane call later start deeds m' a := by
  constructor
  · intro h
    generalize hstart : Prod.map id (Option.map f) start = start' at h
    -- on the way of `h`; at each point of it the other call has the same machine, and sleeps too
    induction h generalizing start with
    | returned m b =>
        obtain ⟨n, o⟩ := start
        obtain ⟨rfl, ho⟩ := Prod.mk.inj hstart
        obtain ⟨a, rfl, ha⟩ := Option.map_eq_some_iff.mp ho
        exact ⟨a, ha, .returned _ _⟩
    | beside hnext hne _ ih =>
        obtain ⟨n, o⟩ := start
        obtain ⟨rfl, ho⟩ := Prod.mk.inj hstart
        obtain rfl := Option.map_eq_none_iff.mp ho
        obtain ⟨a, ha, h⟩ := @ih (_, none) rfl
        exact ⟨a, ha, .beside hnext hne h⟩
    | look _ ih =>
        obtain ⟨n, o⟩ := start
        obtain ⟨rfl, ho⟩ := Prod.mk.inj hstart
        obtain rfl := Option.map_eq_none_iff.mp ho
        obtain ⟨a, ha, h⟩ := ih (map_map_later _)
        exact ⟨a, ha, .look h⟩
  · rintro ⟨a, rfl, h⟩
    exact h.map f

end Ends

/-- **Requests by number are direct calls.**  A number above 7 is refused, and named; any other is
the number of one command, which takes from the argument what it needs.  Every request is had from
its own number and operand.  A device that is not enabled fails every request and is not changed,
also by one to arm.  On a device that is enabled number 6 fails and changes nothing.  Any other
request leaves the machine that its direct call leaves, and answers the same, or sleeps like it; if
they sleep, they end alike after the same deeds.  The numbers that ring are on the wire
themselves, as one more message. -/
theorem control_by_number (m : Machine) (d : Ref .device) (call : CallId) (number : UInt32)
    (argument : UInt64) :
    (∀ e, Request.decode number argument = .error e ↔
      7 < number.toNat ∧ e = .unsupportedCommand number) ∧
    (∀ request, Request.decode number argument = .ok request ↔
      number = request.command.code.toUInt32 ∧ request.Carries argument) ∧
    (∀ request : Request,
      Request.decode request.command.code.toUInt32 request.operand = .ok request) ∧
    ∀ request, Request.decode number argument = .ok request →
      ((m.devices.get d).enabled = false →
        m.control d request call = (m, some (.error .unavailable))) ∧
      ((m.devices.get d).enabled = true →
        (request = .readLivelist →
          m.control d request call = (m, some (.error (.unsupportedCommand 6)))) ∧
        (request ≠ .readLivelist → ∃ u, request.command.use? argument call = some u ∧
          Prod.map id (Option.map Response.results) (m.control d request call) =
            (m.use d u, m.answer d u) ∧
          ∀ lane deeds m' b,
            Ends d lane call Ask.Result.ofWaited (m.use d u, m.answer d u) deeds m' b ↔
              ∃ a, Response.results a = b ∧
                Ends d lane call Response.ofWaited (m.control d request call) deeds m' a) ∧
        (request.command.isRing = true → ∃ message : Message,
          message.destination.number.toNat = argument.toNat % UInt16.size ∧
          message.code.toUInt32 = number ∧
          m.control d request call =
            (m.writeRegister (m.devices.get d).registers .doorbell message.raw,
              some (.ok .done)) ∧
          ∀ block, (m.devices.get d).registers = .recorder block → m.recorders.Has block →
            ((m.control d request call).1.recorders.get block).doorbells =
              (m.recorders.get block).doorbells ++ [message])) := by
  refine ⟨fun e => Request.decode_eq_error, fun request => Request.decode_eq_ok,
    fun request => Request.decode_eq_ok.mpr ⟨rfl, request.carries_operand⟩, ?_⟩
  intro request hdecode
  obtain ⟨rfl, hcarries⟩ := Request.decode_eq_ok.mp hdecode
  refine ⟨fun hdisabled => control_of_disabled hdisabled request call, fun henabled => ⟨?_, ?_, ?_⟩⟩
  · rintro rfl
    exact control_readLivelist henabled
  · intro hcall
    obtain ⟨u, hu⟩ := request.exists_use hcall argument call
    have hsame := control_eq_use henabled hcarries hu
    have hlate : Ask.Result.ofWaited = fun o => Response.results (Response.ofWaited o) :=
      funext fun o => (Response.results_ofUnit _).symm
    refine ⟨u, hu, hsame, fun lane deeds m' b => ?_⟩
    rw [← hsame, hlate]
    exact Ends.map_iff
  · intro hring
    obtain ⟨message, htarget, hcode, heq⟩ := control_of_isRing henabled hcarries hring
    refine ⟨message, htarget, congrArg UInt8.toUInt32 hcode, heq, fun block hreg hblock => ?_⟩
    rw [heq, hreg]
    exact congrArg Recorder.doorbells (Table.get_modify_self hblock _)

/-- One device, on a recorder at position 3. -/
def recorded : Machine :=
  (((addLine {} 5).1.addRecorder ⟨3⟩).1.attach (some (.recorder ⟨0⟩)) none ⟨0⟩).1

/-- Number 1 finds no unit and goes to sleep; somebody arms the device, and the call has its unit.
Number 7 is on the wire as 7, and after the device was detached number 0 arms nothing. -/
theorem control_by_number_asleep :
    Request.decode 1 9 = .ok .downSema ∧ Request.decode 7 0x10002 = .ok (.semaIrq ⟨2⟩) ∧
    (recorded.control ⟨0⟩ .downSema ⟨0⟩).2 = none ∧
    (∃ m', Ends ⟨0⟩ .units ⟨0⟩ Response.ofWaited (recorded.control ⟨0⟩ .downSema ⟨0⟩)
      [.use ⟨0⟩ (.arm 1), .use ⟨0⟩ (.look .units ⟨0⟩)] m' (.ok .done)) ∧
    (∃ message : Message, message.destination.number.toNat = 2 ∧ message.code.toUInt32 = 7 ∧
      ((recorded.control ⟨0⟩ (.semaIrq ⟨2⟩) ⟨0⟩).1.recorders.get ⟨0⟩).doorbells = [message]) ∧
    (recorded.detach ⟨0⟩).control ⟨0⟩ (.setSema 3) ⟨0⟩ =
      (recorded.detach ⟨0⟩, some (.error .unavailable)) := by
  have henabled : (recorded.devices.get ⟨0⟩).enabled = true := by decide
  have hdown : Request.decode 1 9 = .ok .downSema := rfl
  have hring : Request.decode 7 0x10002 = .ok (.semaIrq ⟨2⟩) := rfl
  refine ⟨hdown, hring, by decide, ?_, ?_, ?_⟩
  · obtain ⟨-, -, -, hcontrol⟩ := control_by_number recorded ⟨0⟩ ⟨0⟩ 1 9
    obtain ⟨u, hu, -, hends⟩ := ((hcontrol _ hdown).2 henabled).2.1 (by decide)
    obtain rfl := Option.some.inj hu
    have hdirect : Ends ⟨0⟩ .units ⟨0⟩ Ask.Result.ofWaited
        (recorded.use ⟨0⟩ (.ask (.down ⟨0⟩)), recorded.answer ⟨0⟩ (.ask (.down ⟨0⟩)))
        [.use ⟨0⟩ (.arm 1), .use ⟨0⟩ (.look .units ⟨0⟩)] _ (.ok .done) :=
      .beside rfl (fun h => by cases h) (.look (.returned _ _))
    obtain ⟨answer, hanswer, h⟩ := (hends _ _ _ _).mp hdirect
    have hdone : answer = .ok .done := by
      rcases answer with e | response
      · cases hanswer
      · cases response with
        | done => rfl
        | peer => cases hanswer
    exact ⟨_, hdone ▸ h⟩
  · obtain ⟨-, -, -, hcontrol⟩ := control_by_number recorded ⟨0⟩ ⟨0⟩ 7 0x10002
    obtain ⟨message, htarget, hcode, -, hlog⟩ := ((hcontrol _ hring).2 henabled).2.2 rfl
    exact ⟨message, htarget, hcode, hlog ⟨0⟩ rfl (by decide)⟩
  · obtain ⟨-, -, -, hcontrol⟩ := control_by_number (recorded.detach ⟨0⟩) ⟨0⟩ ⟨0⟩ 0 3
    exact (hcontrol (.setSema 3) rfl).1 (by decide)

end Machine

end PeerBus
