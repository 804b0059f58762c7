/-
# `PeerBus.Proofs.Wait.Sole` — an event flag that one call waits for

An event flag that nobody closes or interrupts, and that only one call ever waits for, is a single
bit: the call takes it if it is up, and otherwise sleeps until it is set (`Sole.enter_set`,
`Sole.enter_clear`, `Sole.resume`).  `EventFlag.Sole` is the state of such a flag; it says that the
call sleeps only while the flag is down, so setting the flag never leaves the call asleep
(`Sole.set`).
-/
import PeerBus.Wait.Channel

namespace PeerBus

namespace EventFlag

/-- Nobody but `call` is parked at the flag, and `call` is parked if it waits. -/
structure Sole (e : EventFlag) (call : CallId) (waits : Bool) : Prop where
  opened : e.gate.closed = false
  calm : e.gate.pending = false
  nobody : waits = false → e.parked = []
  somebody : waits = true → ∃ stage, e.parked = [⟨call, e.gate.epoch, stage⟩] ∧
    (stage = .woken ∨ stage = .asleep ∧ e.isSet = false)

variable {e : EventFlag} {call : CallId} {waits : Bool}

theorem Sole.look_set (h : e.Sole call waits) (hset : e.isSet = true) (epoch : UInt64) :
    e.gate.look epoch = (e.gate.put ⟨false⟩, some (.ok ())) := by
  have hready : Signal.ready e.gate.signal = true := hset
  unfold Gate.look
  rw [if_neg (by simp [h.opened]), if_pos hready]
  rfl

theorem Sole.look_clear (h : e.Sole call waits) (hclear : e.isSet = false) :
    e.gate.look e.gate.epoch = ({ e.gate with blocked := e.gate.blocked + 1 }, none) := by
  have hready : Signal.ready e.gate.signal = false := hclear
  unfold Gate.look
  rw [if_neg (by simp [h.opened]), if_neg (by simp [hready]), if_neg (by simp),
    if_neg (by simp [h.calm])]

/-- A raised flag is taken at once. -/
theorem Sole.enter_set (h : e.Sole call false) (hset : e.isSet = true) :
    ∃ e' : EventFlag, Channel.enter e call = (e', some (.ok ())) ∧ e'.Sole call false ∧
      e'.isSet = false := by
  refine ⟨{ e with gate := e.gate.put ⟨false⟩ }, ?_, ⟨h.opened, h.calm, h.nobody, nofun⟩, rfl⟩
  unfold Channel.enter Gate.enter
  rw [h.look_set hset]

/-- A flag that is down is waited for. -/
theorem Sole.enter_clear (h : e.Sole call false) (hclear : e.isSet = false) :
    ∃ e' : EventFlag, Channel.enter e call = (e', none) ∧ e'.Sole call true ∧
      e'.isSet = false := by
  refine ⟨⟨{ e.gate with blocked := e.gate.blocked + 1 }, e.parked ++
    [⟨call, e.gate.epoch, .asleep⟩]⟩, ?_, ⟨h.opened, h.calm, nofun, fun _ => ⟨.asleep, ?_, ?_⟩⟩,
    hclear⟩
  · unfold Channel.enter Gate.enter
    rw [h.look_clear hclear]
  · rw [h.nobody rfl]
    rfl
  · exact .inr ⟨rfl, hclear⟩

/-- The waiting call either takes the flag or goes on waiting. -/
theorem Sole.resume (h : e.Sole call true) :
    (∃ e' : EventFlag, Channel.resume e call = (e', some (.ok ())) ∧ e'.Sole call false ∧
      e.isSet = true ∧ e'.isSet = false) ∨
    (∃ e' : EventFlag, Channel.resume e call = (e', none) ∧ e'.Sole call true ∧
      e'.isSet = e.isSet) := by
  obtain ⟨stage, hparked, hstage⟩ := h.somebody rfl
  have hfind : Channel.find? e call = some ⟨call, e.gate.epoch, stage⟩ := by
    simp [Channel.find?, hparked]
  rcases hstage with rfl | ⟨rfl, _⟩
  · have hothers : (e.parked.filter fun q => q.call ≠ call) = [] := by
      simp [hparked]
    have hsole : EventFlag.Sole { e with gate := e.gate.unpark } call true :=
      ⟨h.opened, h.calm, h.nobody, h.somebody⟩
    cases hset : e.isSet with
    | true =>
        refine .inl ⟨⟨e.gate.unpark.put ⟨false⟩, []⟩, ?_,
          ⟨h.opened, h.calm, fun _ => rfl, nofun⟩, rfl, rfl⟩
        simp only [Channel.resume, hfind, hothers, Gate.rerun]
        rw [show e.gate.unpark.look e.gate.epoch = _ from hsole.look_set hset _]
    | false =>
        refine .inr ⟨⟨{ e.gate.unpark with blocked := e.gate.unpark.blocked + 1 },
          [⟨call, e.gate.epoch, .asleep⟩]⟩, ?_,
          ⟨h.opened, h.calm, nofun, fun _ => ⟨.asleep, rfl, .inr ⟨rfl, hset⟩⟩⟩, hset⟩
        simp only [Channel.resume, hfind, hothers, Gate.rerun]
        rw [show e.gate.unpark.look e.gate.epoch = _ from hsole.look_clear hset]
        rfl
  · refine .inr ⟨e, ?_, h, rfl⟩
    simp only [Channel.resume, hfind]

/-- Setting the flag leaves nobody asleep. -/
theorem Sole.set (h : e.Sole call waits) : e.set.Sole call waits where
  opened := h.opened
  calm := h.calm
  nobody hw := by
    show e.parked.map _ = []
    rw [h.nobody hw]
    rfl
  somebody hw := by
    obtain ⟨stage, hparked, hstage⟩ := h.somebody hw
    refine ⟨.woken, ?_, .inl rfl⟩
    show e.parked.map _ = _
    rcases hstage with rfl | ⟨rfl, _⟩
    · rw [hparked]
      rfl
    · rw [hparked]
      rfl

end EventFlag

end PeerBus
