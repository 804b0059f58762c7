/-
# `PeerBus.Proofs.Wait.Closed` — channels that are closed

Nothing but `close` changes whether a channel is closed (`closed_*`), and a channel that is closed
keeps its signal from everybody who looks:

    a woken call        fails with `closed`
    a call too late     fails with `timedOut`

A call that was woken stays woken until it looks (`woken_of_roused`, `find?_resume_of_ne`), so every
call that was blocked when the channel was closed fails with `closed` in the end
(`woken_close`, `resume_of_woken`).
-/
import PeerBus.Proofs.Wait.Run

namespace PeerBus

/-! ## What keeps a channel open, or closed -/

section

variable {σ : Type} [Signal σ]

theorem Gate.Looked.closed_eq {g g' : Gate σ} {epoch : UInt64} {o : Option Waited}
    (h : g.Looked epoch g' o) : g'.closed = g.closed := by
  cases h <;> rfl

theorem Gate.closed_expire (g : Gate σ) : g.expire.1.closed = g.closed := by
  rcases g.expire_cases with ⟨-, -, he⟩ | ⟨-, he⟩
  · rw [he]
    rfl
  · rw [he]
    rfl

theorem Gate.closed_interrupt {σ : Type} (g : Gate σ) : g.interrupt.closed = g.closed := by
  unfold interrupt
  split <;> rfl

namespace Channel

theorem closed_enter (c : Channel σ) (call : CallId) :
    (c.enter call).1.gate.closed = c.gate.closed := by
  have h := c.enter_cases call
  generalize c.enter call = entered at h ⊢
  obtain ⟨d, o⟩ := entered
  cases h with
  | looked hlook | slept hlook => exact hlook.closed_eq

theorem closed_resume (c : Channel σ) (call : CallId) :
    (c.resume call).1.gate.closed = c.gate.closed := by
  unfold resume
  cases c.find? call with
  | none => rfl
  | some p =>
      cases hs : p.stage with
      | asleep => simp [hs]
      | woken =>
          have hlook := c.gate.unpark.look_cases p.epoch
          simp only [hs, Gate.rerun]
          generalize c.gate.unpark.look p.epoch = look at hlook ⊢
          rcases look with ⟨g, _ | o⟩
          · exact hlook.closed_eq
          · exact hlook.closed_eq
      | expired =>
          simp only [hs]
          exact c.gate.closed_expire

end Channel

theorem Semaphore.closed_up (s : Semaphore) : s.up.gate.closed = s.gate.closed := by
  unfold up upWaking
  cases s.longestAsleep <;> rfl

end

/-! ## Calls that were woken -/

namespace Channel

variable {σ : Type} {c d : Channel σ} {call other : CallId} {p : Parked}

/-- A call out of its sleep is left as it is by whoever rouses others. -/
theorem find?_of_roused (h : Roused c.parked d.parked) (hp : c.find? call = some p)
    (hup : p.stage ≠ .asleep) : d.find? call = some p := by
  unfold find? at hp ⊢
  generalize c.parked = l at h hp
  generalize d.parked = m at h ⊢
  induction h with
  | nil => exact hp
  | @cons q r l m hqr _ ih =>
      have hcall := hqr.call_eq
      by_cases hq : q.call = call
      · rw [List.find?_cons_of_pos (by simpa using hq)] at hp
        rw [List.find?_cons_of_pos (by simpa [hcall] using hq)]
        obtain rfl := Option.some.inj hp
        cases hqr with
        | same => rfl
        | up _ hasleep _ => exact absurd hasleep hup
      · rw [List.find?_cons_of_neg (by simpa using hq)] at hp
        rw [List.find?_cons_of_neg (by simpa [hcall] using hq)]
        exact ih hp

/-- Closing a channel wakes whoever is asleep. -/
theorem find?_close (hp : c.find? call = some p) (hlate : p.stage ≠ .expired) :
    c.close.find? call = some { p with stage := .woken } := by
  have hfind : c.close.find? call = (c.find? call).map fun p =>
      if p.stage = .asleep then { p with stage := .woken } else p := by
    unfold find? close wakeAll
    rw [List.find?_map]
    refine congrArg (Option.map _) (congrArg (List.find? · c.parked) (funext fun q => ?_))
    by_cases hq : q.stage = .asleep
    · simp [hq]
    · simp [hq]
  rw [hfind, hp, Option.map_some]
  obtain ⟨call, epoch, stage⟩ := p
  cases stage with
  | asleep | woken => rfl
  | expired => exact absurd rfl hlate

/-- A woken call is left as it is by whoever rouses others. -/
theorem woken_of_roused (h : Roused c.parked d.parked)
    (hw : (c.find? call).map Parked.stage = some .woken) :
    (d.find? call).map Parked.stage = some .woken := by
  obtain ⟨p, hp, hs⟩ := Option.map_eq_some_iff.mp hw
  have hsame := find?_of_roused h hp (by rw [hs]; decide)
  exact Option.map_eq_some_iff.mpr ⟨p, hsame, hs⟩

/-- Whoever was blocked when a channel was closed has been woken. -/
theorem woken_close (hblocked : (c.find? call).map Parked.stage = some .asleep ∨
    (c.find? call).map Parked.stage = some .woken) :
    (c.close.find? call).map Parked.stage = some .woken := by
  have hfound : ∃ p, c.find? call = some p ∧ p.stage ≠ .expired := by
    rcases hblocked with h | h
    · obtain ⟨p, hp, hs⟩ := Option.map_eq_some_iff.mp h
      exact ⟨p, hp, by rw [hs]; decide⟩
    · obtain ⟨p, hp, hs⟩ := Option.map_eq_some_iff.mp h
      exact ⟨p, hp, by rw [hs]; decide⟩
  obtain ⟨p, hp, hlate⟩ := hfound
  rw [find?_close hp hlate]
  rfl

theorem find?_others (c : Channel σ) (hne : call ≠ other) :
    (c.others other).find? (fun q => q.call = call) = c.find? call := by
  unfold others find?
  rw [List.find?_filter]
  refine congrArg (List.find? · c.parked) (funext fun q => ?_)
  by_cases hq : q.call = call
  · simp [hq, hne]
  · simp [hq]

variable [Signal σ]

/-- The look of a woken call. -/
theorem resume_of_closed (hc : c.gate.closed = true) (hp : c.find? call = some p)
    (hs : p.stage = .woken) :
    c.resume call = (⟨c.gate.unpark, c.others call⟩, some (.error .closed)) := by
  have hlook : c.gate.unpark.look p.epoch = (c.gate.unpark, some (.error .closed)) := if_pos hc
  unfold resume
  rw [hp]
  simp only [hs, Gate.rerun, hlook]
  rfl

theorem resume_of_woken (hc : c.gate.closed = true)
    (hw : (c.find? call).map Parked.stage = some .woken) :
    (c.resume call).2 = some (.error .closed) := by
  obtain ⟨p, hp, hs⟩ := Option.map_eq_some_iff.mp hw
  exact congrArg Prod.snd (resume_of_closed hc hp hs)

/-- The looks of other calls. -/
theorem find?_resume_of_ne (hc : c.gate.closed = true) (hne : call ≠ other) :
    (c.resume other).1.find? call = c.find? call := by
  cases hp : c.find? other with
  | none =>
      unfold resume
      rw [hp]
  | some p =>
      cases hs : p.stage with
      | asleep =>
          unfold resume
          simp only [hp, hs]
      | woken =>
          rw [resume_of_closed hc hp hs]
          exact c.find?_others hne
      | expired =>
          unfold resume
          simp only [hp, hs]
          exact c.find?_others hne

/-- Nobody who looks takes anything. -/
theorem signal_resume_of_closed (hc : c.gate.closed = true) (call : CallId) :
    (c.resume call).1.gate.signal = c.gate.signal := by
  cases hp : c.find? call with
  | none =>
      unfold resume
      rw [hp]
  | some p =>
      cases hs : p.stage with
      | asleep =>
          unfold resume
          simp only [hp, hs]
      | woken =>
          rw [resume_of_closed hc hp hs]
          rfl
      | expired =>
          have hexpire : c.gate.expire = (c.gate.unpark, .error .timedOut) := by
            rcases c.gate.expire_cases with ⟨-, hopen, -⟩ | ⟨-, he⟩
            · exact nomatch hc.symm.trans hopen
            · exact he
          unfold resume
          simp only [hp, hs, hexpire]
          rfl

end Channel

end PeerBus
