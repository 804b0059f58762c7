/-
# `PeerBus.Proofs.Wait.Run` — runs of a semaphore or an event flag

Every critical section of a primitive, taken together with its notification, is one act.  Six
kinds of act are the same for both primitives:

    enter      a call that is not parked takes its first look
    resume     a parked call that left its sleep looks again
    stir       a sleep ends for no reason
    lapse      a deadline passes, and that call leaves its sleep
    interrupt  cancels, and wakes everybody
    close      fails everything, and wakes everybody

The acts of its own by which a primitive is signalled are a parameter (`own`): `up` and `arm` for
a semaphore, `set` and `clear` for an event flag.  `up` wakes one arbitrary sleeping call if any
call sleeps at all; a call that left its sleep by its deadline is no target.

**What one act can do** is said once: `Gate.look_cases` for a look, `Channel.resume_cases` for a
call that looks again, and `Parked.Roused` for all acts that end sleeps.  Whatever the own acts
are, as long as they only signal and rouse (`OnlySignals`), the calls of a channel stay distinct
and `blocked` stays their number (`Channel.Step.orderly`).
-/
import PeerBus.Wait.Channel
import PeerBus.Proofs.Run
import Mathlib.Data.List.Basic
import Mathlib.Data.List.Nodup

namespace PeerBus

/-! ## Acts and steps -/

namespace Channel

variable {σ κ : Type}

/-- One critical section at a channel; a look carries its outcome, which is none if the call went
to sleep. -/
inductive Act (κ : Type) where
  | enter (call : CallId) (outcome : Option Waited)
  | resume (call : CallId) (outcome : Option Waited)
  | stir (call : CallId)
  | lapse (call : CallId)
  | interrupt
  | close
  | signal (op : κ)

/-- What an act makes of a channel. -/
inductive Step [Signal σ] (own : Channel σ → κ → Channel σ → Prop) :
    Channel σ → Act κ → Channel σ → Prop
  | enter {c : Channel σ} {call : CallId} (new : c.find? call = none) :
      Step own c (.enter call (c.enter call).2) (c.enter call).1
  | resume {c : Channel σ} {p : Parked} (up : p ∈ c.returning) :
      Step own c (.resume p.call (c.resume p.call).2) (c.resume p.call).1
  | stir (c : Channel σ) (call : CallId) : Step own c (.stir call) (c.wake call)
  | lapse (c : Channel σ) (call : CallId) : Step own c (.lapse call) (c.expire call)
  | interrupt (c : Channel σ) : Step own c .interrupt c.interrupt
  | close (c : Channel σ) : Step own c .close c.close
  | signal {c d : Channel σ} {op : κ} (h : own c op d) : Step own c (.signal op) d

end Channel

namespace Semaphore

/-- The acts of a semaphore's own; `up` names the call that it wakes. -/
inductive Op where
  | up (target : Option CallId)
  | arm (count : UInt32)

/-- A notification of one call reaches some sleeping call, unless nobody sleeps. -/
def Notifies (s : Semaphore) : Option CallId → Prop
  | some call => ∃ p ∈ s.asleep, p.call = call
  | none => s.asleep = []

inductive Own : Semaphore → Op → Semaphore → Prop
  | up {s : Semaphore} {target : Option CallId} (h : s.Notifies target) :
      Own s (.up target) (s.upWaking target)
  | arm (s : Semaphore) (count : UInt32) : Own s (.arm count) (s.arm count)

abbrev Step := Channel.Step Own

/-- The call that slept longest is one that a notification may reach. -/
theorem notifies_longestAsleep (s : Semaphore) : s.Notifies s.longestAsleep := by
  unfold Channel.longestAsleep
  cases h : s.asleep with
  | nil => exact h
  | cons p rest => exact ⟨p, by rw [h]; exact List.mem_cons_self, rfl⟩

end Semaphore

namespace EventFlag

/-- The acts of an event flag's own. -/
inductive Op where
  | set
  | clear

inductive Own : EventFlag → Op → EventFlag → Prop
  | set (e : EventFlag) : Own e .set (EventFlag.set e)
  | clear (e : EventFlag) : Own e .clear (EventFlag.clear e)

abbrev Step := Channel.Step Own

end EventFlag

/-! ## One look -/

namespace Gate

variable {σ : Type} [Signal σ]

/-- The five ways in which a look can end. -/
inductive Looked (g : Gate σ) (epoch : UInt64) : Gate σ → Option Waited → Prop
  | closed (hc : g.closed = true) : Looked g epoch g (some (.error .closed))
  | took (hc : g.closed = false) (hr : Signal.ready g.signal = true) :
      Looked g epoch { g with signal := Signal.take g.signal } (some (.ok ()))
  | cancelled (hc : g.closed = false) (hr : Signal.ready g.signal = false)
      (he : g.epoch ≠ epoch) : Looked g epoch g (some (.error .interrupted))
  | consumed (hc : g.closed = false) (hr : Signal.ready g.signal = false)
      (he : g.epoch = epoch) (hp : g.pending = true) :
      Looked g epoch { g with pending := false } (some (.error .interrupted))
  | parked (hc : g.closed = false) (hr : Signal.ready g.signal = false)
      (he : g.epoch = epoch) (hp : g.pending = false) :
      Looked g epoch { g with blocked := g.blocked + 1 } none

theorem look_cases (g : Gate σ) (epoch : UInt64) :
    Looked g epoch (g.look epoch).1 (g.look epoch).2 := by
  unfold look
  by_cases hc : g.closed = true
  · rw [if_pos hc]
    exact .closed hc
  · rw [if_neg hc]
    have hc : g.closed = false := eq_false_of_ne_true hc
    by_cases hr : Signal.ready g.signal = true
    · rw [if_pos hr]
      exact .took hc hr
    · rw [if_neg hr]
      have hr : Signal.ready g.signal = false := eq_false_of_ne_true hr
      by_cases he : g.epoch = epoch
      · rw [if_neg (not_not_intro he)]
        by_cases hp : g.pending = true
        · rw [if_pos hp]
          exact .consumed hc hr he hp
        · rw [if_neg hp]
          exact .parked hc hr he (eq_false_of_ne_true hp)
      · rw [if_pos he]
        exact .cancelled hc hr he

/-- A look leaves the epoch alone. -/
theorem Looked.epoch_eq {g g' : Gate σ} {epoch : UInt64} {o : Option Waited}
    (h : Looked g epoch g' o) : g'.epoch = g.epoch := by
  cases h <;> rfl

/-- A look that has an outcome parks nobody. -/
theorem Looked.blocked_eq {g g' : Gate σ} {epoch : UInt64} {o : Waited}
    (h : Looked g epoch g' (some o)) : g'.blocked = g.blocked := by
  cases h <;> rfl

/-- A call past its deadline takes a signal that is there, and otherwise nothing. -/
theorem expire_cases (g : Gate σ) :
    (Signal.ready g.signal = true ∧ g.closed = false ∧
      g.expire = ({ g.unpark with signal := Signal.take g.signal }, .ok ())) ∨
    ((Signal.ready g.signal = false ∨ g.closed = true) ∧
      g.expire = (g.unpark, .error .timedOut)) := by
  by_cases h : (Signal.ready g.unpark.signal && !g.unpark.closed) = true
  · have h' : Signal.ready g.signal = true ∧ g.closed = false := by
      simpa [unpark] using h
    exact .inl ⟨h'.1, h'.2, if_pos h⟩
  · have h' : Signal.ready g.signal = false ∨ g.closed = true := by
      simpa [unpark, ← Bool.not_eq_true, imp_iff_not_or] using h
    exact .inr ⟨h', if_neg h⟩

end Gate

/-! ## Rousing

`rouse`, `wake`, `expire` and `wakeAll` end sleeps and do nothing else: no call comes, goes or
changes its place. -/

/-- An entry afterwards: the same, or out of its sleep. -/
inductive Parked.Roused : Parked → Parked → Prop
  | same (p : Parked) : Roused p p
  | up {p : Parked} (stage : Stage) (hp : p.stage = .asleep) (hs : stage ≠ .asleep) :
      Roused p { p with stage := stage }

/-- The entries of a list, each the same or out of its sleep. -/
abbrev Roused : List Parked → List Parked → Prop := List.Forall₂ Parked.Roused

theorem Parked.Roused.call_eq {p q : Parked} (h : p.Roused q) : q.call = p.call := by
  cases h <;> rfl

theorem Parked.Roused.epoch_eq {p q : Parked} (h : p.Roused q) : q.epoch = p.epoch := by
  cases h <;> rfl

/-- Whoever sleeps now has slept all along. -/
theorem Parked.Roused.eq_of_asleep {p q : Parked} (h : p.Roused q) (hq : q.stage = .asleep) :
    q = p := by
  cases h with
  | same => rfl
  | up stage _ hs => exact absurd hq hs

theorem roused_refl (l : List Parked) : Roused l l := List.forall₂_same.mpr fun p _ => .same p

theorem roused_map {f : Parked → Parked} (hf : ∀ p : Parked, p.Roused (f p)) (l : List Parked) :
    Roused l (l.map f) :=
  List.forall₂_map_right_iff.mpr (List.forall₂_same.mpr fun p _ => hf p)

theorem Roused.map_call {l m : List Parked} (h : Roused l m) :
    m.map Parked.call = l.map Parked.call := by
  induction h with
  | nil => rfl
  | cons h _ ih => rw [List.map_cons, List.map_cons, h.call_eq, ih]

theorem Roused.of_mem {l m : List Parked} (h : Roused l m) {q : Parked} (hq : q ∈ m) :
    ∃ p ∈ l, p.Roused q := by
  induction h with
  | nil => exact nomatch hq
  | cons h _ ih =>
      rcases List.mem_cons.mp hq with rfl | hq
      · exact ⟨_, List.mem_cons_self, h⟩
      · obtain ⟨p, hp, hr⟩ := ih hq
        exact ⟨p, List.mem_cons_of_mem _ hp, hr⟩

/-- The number of calls out of their sleep. -/
def awake (l : List Parked) : Nat := l.countP fun p => p.stage ≠ .asleep

theorem awake_append (l m : List Parked) : awake (l ++ m) = awake l + awake m :=
  List.countP_append

theorem awake_cons (p : Parked) (l : List Parked) :
    awake (p :: l) = awake l + if p.stage = .asleep then 0 else 1 := by
  unfold awake
  rw [List.countP_cons]
  by_cases hp : p.stage = .asleep <;> simp [hp]

theorem Roused.awake_le {l m : List Parked} (h : Roused l m) : awake l ≤ awake m := by
  induction h with
  | nil => exact Nat.le_refl _
  | cons h _ ih =>
      rw [awake_cons, awake_cons]
      cases h with
      | same => omega
      | up stage hp hs =>
          rw [if_pos hp, if_neg hs]
          omega

namespace Channel

variable {σ : Type}

theorem length_returning (c : Channel σ) : c.returning.length = awake c.parked :=
  List.countP_eq_length_filter.symm

theorem roused_rouse (c : Channel σ) (call : CallId) {stage : Stage} (h : stage ≠ .asleep) :
    Roused c.parked (c.rouse call stage).parked := by
  refine roused_map (fun p => ?_) c.parked
  by_cases hp : p.call = call ∧ p.stage = .asleep
  · rw [if_pos hp]
    exact .up stage hp.2 h
  · rw [if_neg hp]
    exact .same p

theorem roused_wakeAll (c : Channel σ) : Roused c.parked c.wakeAll.parked := by
  refine roused_map (fun p => ?_) c.parked
  by_cases hp : p.stage = .asleep
  · rw [if_pos hp]
    exact .up .woken hp (by decide)
  · rw [if_neg hp]
    exact .same p

theorem roused_wake? (c : Channel σ) (target : Option CallId) :
    Roused c.parked (c.wake? target).parked := by
  cases target with
  | none => exact roused_refl _
  | some call => exact roused_rouse c call (by decide)

theorem asleep_wakeAll (c : Channel σ) : c.wakeAll.asleep = [] := by
  refine List.filter_eq_nil_iff.mpr (fun q hq => ?_)
  obtain ⟨p, -, rfl⟩ := List.mem_map.mp hq
  by_cases hp : p.stage = .asleep
  · simp [hp]
  · simp [hp]

/-- Waking a call that sleeps puts one more call on its way. -/
theorem awake_lt_wake (c : Channel σ) {call : CallId} (h : ∃ p ∈ c.asleep, p.call = call) :
    awake c.parked < awake (c.wake call).parked := by
  obtain ⟨p, hp, hcall⟩ := h
  obtain ⟨hp, hs⟩ := List.mem_filter.mp hp
  obtain ⟨l, m, hl⟩ := List.append_of_mem hp
  have hrest : ∀ l : List Parked, awake l ≤ awake (l.map fun p =>
      if p.call = call ∧ p.stage = .asleep then { p with stage := .woken } else p) :=
    fun l => (roused_rouse { c with parked := l } call (by decide)).awake_le
  have hself : awake [p] < awake ([p].map fun p =>
      if p.call = call ∧ p.stage = .asleep then { p with stage := .woken } else p) := by
    have hs : p.stage = .asleep := by simpa using hs
    simp [awake, hcall, hs]
  have h₁ := hrest l
  have h₂ := hrest m
  show awake c.parked < awake (c.parked.map _)
  rw [hl, ← List.singleton_append, List.map_append, List.map_append]
  simp only [awake_append]
  omega

end Channel

/-! ## Distinct calls -/

namespace Channel

variable {σ : Type}

/-- The entries of the other calls. -/
def others (c : Channel σ) (call : CallId) : List Parked :=
  c.parked.filter fun q => q.call ≠ call

/-- Every call is parked once, and `blocked` is the number of those that are. -/
structure Orderly (c : Channel σ) : Prop where
  distinct : (c.parked.map Parked.call).Nodup
  blocked : c.gate.blocked = c.parked.length

namespace Orderly

variable {c : Channel σ} {p q : Parked}

theorem eq_of_call (h : c.Orderly) (hp : p ∈ c.parked) (hq : q ∈ c.parked)
    (e : q.call = p.call) : q = p :=
  List.inj_on_of_nodup_map h.distinct hq hp e

theorem find?_eq (h : c.Orderly) (hp : p ∈ c.parked) : c.find? p.call = some p := by
  cases hf : c.find? p.call with
  | none =>
      have := List.find?_eq_none.mp hf p hp
      simp at this
  | some q =>
      have hc : q.call = p.call := by simpa using List.find?_some hf
      rw [h.eq_of_call hp (List.mem_of_find?_eq_some hf) hc]

theorem perm_cons_others (h : c.Orderly) (hp : p ∈ c.parked) :
    c.parked.Perm (p :: c.others p.call) := by
  have hn : c.parked.Nodup := List.Nodup.of_map _ h.distinct
  have ho : c.others p.call = c.parked.erase p := by
    rw [hn.erase_eq_filter]
    refine List.filter_congr fun q hq => ?_
    by_cases e : q = p
    · simp [e]
    · have : q.call ≠ p.call := fun hc => e (h.eq_of_call hp hq hc)
      simp [e, this]
  rw [ho]
  exact List.perm_cons_erase hp

theorem length_others (h : c.Orderly) (hp : p ∈ c.parked) :
    (c.others p.call).length = c.gate.blocked - 1 := by
  rw [h.blocked, (h.perm_cons_others hp).length_eq, List.length_cons, Nat.add_sub_cancel]

theorem distinct_others (h : c.Orderly) (call : CallId) :
    ((c.others call).map Parked.call).Nodup :=
  h.distinct.sublist (List.filter_sublist.map _)

/-- Rousing and signalling keep a channel orderly. -/
theorem of_roused {d : Channel σ} (h : c.Orderly) (hb : d.gate.blocked = c.gate.blocked)
    (hr : Roused c.parked d.parked) : d.Orderly where
  distinct := by rw [hr.map_call]; exact h.distinct
  blocked := by rw [hb, h.blocked, List.Forall₂.length_eq hr]

end Orderly

theorem orderly_default [Inhabited σ] : (default : Channel σ).Orderly :=
  ⟨List.nodup_nil, rfl⟩

end Channel

/-! ## Calls that come and look again -/

namespace Channel

variable {σ : Type} [Signal σ]

/-- What the first look of a call makes of a channel. -/
inductive Entered (c : Channel σ) (call : CallId) : Channel σ → Option Waited → Prop
  | looked {g : Gate σ} {o : Waited} (h : c.gate.Looked c.gate.epoch g (some o)) :
      Entered c call { c with gate := g } (some o)
  | slept {g : Gate σ} (h : c.gate.Looked c.gate.epoch g none) :
      Entered c call
        { gate := g, parked := c.parked ++ [⟨call, c.gate.epoch, .asleep⟩] } none

theorem enter_cases (c : Channel σ) (call : CallId) :
    Entered c call (c.enter call).1 (c.enter call).2 := by
  have h := c.gate.look_cases c.gate.epoch
  unfold enter Gate.enter
  generalize c.gate.look c.gate.epoch = look at h ⊢
  rcases look with ⟨g, _ | o⟩
  · exact .slept h
  · exact .looked h

/-- What the next look of a parked call makes of a channel. -/
inductive Resumed (c : Channel σ) (p : Parked) : Channel σ → Option Waited → Prop
  | looked {g : Gate σ} {o : Waited} (hs : p.stage = .woken)
      (h : c.gate.unpark.Looked p.epoch g (some o)) :
      Resumed c p { gate := g, parked := c.others p.call } (some o)
  | slept {g : Gate σ} (hs : p.stage = .woken) (h : c.gate.unpark.Looked p.epoch g none) :
      Resumed c p
        { gate := g, parked := c.others p.call ++ [⟨p.call, p.epoch, .asleep⟩] } none
  | late (hs : p.stage = .expired) (hr : Signal.ready c.gate.signal = true)
      (hc : c.gate.closed = false) :
      Resumed c p
        { gate := { c.gate.unpark with signal := Signal.take c.gate.signal }
          parked := c.others p.call } (some (.ok ()))
  | timedOut (hs : p.stage = .expired)
      (h : Signal.ready c.gate.signal = false ∨ c.gate.closed = true) :
      Resumed c p { gate := c.gate.unpark, parked := c.others p.call } (some (.error .timedOut))

theorem Orderly.resume_cases {c : Channel σ} {p : Parked} (h : c.Orderly) (hp : p ∈ c.returning) :
    Resumed c p (c.resume p.call).1 (c.resume p.call).2 := by
  obtain ⟨hp, hup⟩ := List.mem_filter.mp hp
  unfold resume
  rw [h.find?_eq hp]
  cases hs : p.stage with
  | asleep => simp [hs] at hup
  | woken =>
      have hl := c.gate.unpark.look_cases p.epoch
      simp only [hs, Gate.rerun]
      generalize c.gate.unpark.look p.epoch = look at hl ⊢
      rcases look with ⟨g, _ | o⟩
      · exact .slept hs hl
      · exact .looked hs hl
  | expired =>
      simp only [hs]
      rcases c.gate.expire_cases with ⟨hr, hc, he⟩ | ⟨h, he⟩
      · rw [he]
        exact .late hs hr hc
      · rw [he]
        exact .timedOut hs h

/-! ## Every channel stays orderly -/

/-- Own acts that replace the signal and rouse, and do nothing else. -/
def OnlySignals {κ : Type} (own : Channel σ → κ → Channel σ → Prop) : Prop :=
  ∀ {c d : Channel σ} {op : κ}, own c op d →
    (∃ s, d.gate = c.gate.put s) ∧ Roused c.parked d.parked

namespace Orderly

variable {c d : Channel σ} {call : CallId} {o : Option Waited}

theorem entered (h : c.Orderly) (new : c.find? call = none) (he : Entered c call d o) :
    d.Orderly := by
  cases he with
  | looked hl => exact ⟨h.distinct, hl.blocked_eq.trans h.blocked⟩
  | slept hl =>
      cases hl with
      | parked =>
        refine ⟨?_, ?_⟩
        · have hnot : call ∉ c.parked.map Parked.call := by
            intro hm
            obtain ⟨p, hp, hc⟩ := List.mem_map.mp hm
            have := List.find?_eq_none.mp new p hp
            simp [hc] at this
          rw [List.map_append]
          refine List.nodup_append.mpr ⟨h.distinct, List.nodup_singleton _, ?_⟩
          intro a ha b hb e
          rw [List.map_singleton, List.mem_singleton] at hb
          subst hb
          exact hnot (e ▸ ha)
        · show c.gate.blocked + 1 = _
          rw [h.blocked, List.length_append, List.length_singleton]

theorem resumed {p : Parked} (h : c.Orderly) (hp : p ∈ c.parked) (hr : Resumed c p d o) :
    d.Orderly := by
  have hl := h.length_others hp
  have hd := h.distinct_others p.call
  cases hr with
  | looked _ hk => exact ⟨hd, hk.blocked_eq.trans hl.symm⟩
  | late => exact ⟨hd, hl.symm⟩
  | timedOut => exact ⟨hd, hl.symm⟩
  | slept _ hk =>
      cases hk with
      | parked =>
        refine ⟨?_, ?_⟩
        · rw [List.map_append]
          refine List.nodup_append.mpr ⟨hd, List.nodup_singleton _, ?_⟩
          intro a ha b hb e
          rw [List.map_singleton, List.mem_singleton] at hb
          obtain ⟨q, hq, rfl⟩ := List.mem_map.mp ha
          have := (List.mem_filter.mp hq).2
          simp [e, hb] at this
        · show c.gate.blocked - 1 + 1 = _
          rw [List.length_append, hl, List.length_singleton]

end Orderly

theorem Step.orderly {κ : Type} {own : Channel σ → κ → Channel σ → Prop} (hown : OnlySignals own)
    {c d : Channel σ} {a : Act κ} (h : c.Orderly) (hs : Step own c a d) : d.Orderly := by
  cases hs with
  | enter new => exact h.entered new (c.enter_cases _)
  | resume up => exact h.resumed (List.mem_of_mem_filter up) (h.resume_cases up)
  | stir call => exact h.of_roused rfl (c.roused_rouse call (by decide))
  | lapse call => exact h.of_roused rfl (c.roused_rouse call (by decide))
  | interrupt =>
      refine h.of_roused ?_ (roused_wakeAll { c with gate := c.gate.interrupt })
      show c.gate.interrupt.blocked = _
      unfold Gate.interrupt
      split <;> rfl
  | close => exact h.of_roused rfl (roused_wakeAll { c with gate := c.gate.close })
  | signal hop =>
      obtain ⟨⟨s, hg⟩, hr⟩ := hown hop
      exact h.of_roused (by rw [hg]; rfl) hr

end Channel

theorem Semaphore.onlySignals_own : Channel.OnlySignals Semaphore.Own := by
  intro c d op h
  cases h with
  | @up target =>
      have hr := Channel.roused_wake? { c with gate := c.gate.up } target
      cases target with
      | none => exact ⟨⟨_, rfl⟩, hr⟩
      | some call => exact ⟨⟨_, rfl⟩, hr⟩
  | arm count => exact ⟨⟨_, rfl⟩, Channel.roused_wakeAll { c with gate := c.gate.put ⟨count⟩ }⟩

theorem EventFlag.onlySignals_own : Channel.OnlySignals EventFlag.Own := by
  intro c d op h
  cases h with
  | set => exact ⟨⟨_, rfl⟩, Channel.roused_wakeAll { c with gate := c.gate.put ⟨true⟩ }⟩
  | clear => exact ⟨⟨_, rfl⟩, roused_refl _⟩

end PeerBus
