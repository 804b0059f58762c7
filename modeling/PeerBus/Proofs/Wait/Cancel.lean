/-
# `PeerBus.Proofs.Wait.Cancel` — a cancellation reaches whom it is meant for

`interrupt` is meant for the calls that are parked at that moment or, if there is none, for the next
call that would park.  The first kind is told by the epoch, the second by `pending`:

    parked calls at the interrupt    epoch         pending      cancelled by it
    some                             advances      stays down   all of these, at their next look
    none                             as it was     goes up      the next that finds nothing to take

Two facts keep the kinds apart.  Nobody is parked while a cancellation is pending, since a call that
would park takes it (`Tracked.calm`); and the epoch is ahead of a parked call by the number of
cancellations since the call looked last (`Tracked.ahead`, with `cancels`).  So a call that looks
while fewer than 2^64 of them have passed knows whether there was any.

A state without either kind is `Quiet`: nobody is interrupted from there on, until somebody calls
`interrupt` again.  `CancelsExactly` is the whole of what is proved.
-/
import PeerBus.Proofs.Wait.Ledger
import PeerBus.Proofs.Wait.Wakeup

namespace PeerBus

namespace Channel

variable {σ κ : Type}

/-! ## Cancellations since a look -/

/-- Whether an act is a look of the call. -/
def Act.looks (call : CallId) : Act κ → Bool
  | .enter other _ | .resume other _ => decide (other = call)
  | .stir _ | .lapse _ | .interrupt | .close | .signal _ => false

/-- The cancellations since the last look of a call. -/
def cancels (call : CallId) (acts : List (Act κ)) : Nat :=
  acts.foldl (fun n a => if a.looks call then 0 else n + a.isInterrupt.toNat) 0

theorem cancels_snoc (call : CallId) (acts : List (Act κ)) (a : Act κ) :
    cancels call (acts ++ [a]) =
      if a.looks call then 0 else cancels call acts + a.isInterrupt.toNat := by
  rw [cancels, List.foldl_append]
  rfl

theorem cancels_of_looks {call : CallId} (acts : List (Act κ)) {a : Act κ}
    (h : a.looks call = true) : cancels call (acts ++ [a]) = 0 := by
  rw [cancels_snoc, if_pos h]

theorem cancels_of_not_looks {call : CallId} (acts : List (Act κ)) {a : Act κ}
    (h : a.looks call = false) :
    cancels call (acts ++ [a]) = cancels call acts + a.isInterrupt.toNat := by
  rw [cancels_snoc, if_neg (by simp [h])]

/-- Looks only lower the number of cancellations. -/
theorem cancels_append_le (call : CallId) (acts more : List (Act κ)) :
    cancels call (acts ++ more) ≤ cancels call acts + more.countP Act.isInterrupt := by
  induction more generalizing acts with
  | nil => simp
  | cons a more ih =>
      have hmore := ih (acts ++ [a])
      have hstep : cancels call (acts ++ [a]) ≤ cancels call acts + a.isInterrupt.toNat := by
        rw [cancels_snoc]
        split <;> omega
      have hcount : (a :: more).countP Act.isInterrupt =
          more.countP Act.isInterrupt + a.isInterrupt.toNat := by
        rw [List.countP_cons]
        cases a.isInterrupt <;> rfl
      rw [List.append_cons, hcount]
      omega

/-- Without a look of the call, cancellations add up. -/
theorem le_cancels_append {call : CallId} (acts : List (Act κ)) {more : List (Act κ)}
    (h : ∀ a ∈ more, a.looks call = false) : cancels call acts ≤ cancels call (acts ++ more) := by
  induction more generalizing acts with
  | nil => simp
  | cons a more ih =>
      have hmore := ih (acts ++ [a]) fun b hb => h b (List.mem_cons_of_mem _ hb)
      rw [cancels_of_not_looks acts (h a List.mem_cons_self)] at hmore
      rw [List.append_cons]
      omega

end Channel

/-! ## What a look makes of `pending` -/

namespace Gate

variable {σ : Type} [Signal σ] {g g' : Gate σ} {epoch : UInt64} {o : Option Waited}

theorem Looked.pending_of (h : Looked g epoch g' o) (hp : g'.pending = true) :
    g.pending = true := by
  cases h with
  | closed | took | cancelled | parked => exact hp
  | consumed => exact nomatch hp

theorem Looked.of_interrupted (h : Looked g epoch g' (some (.error .interrupted))) :
    g.epoch ≠ epoch ∨ g.pending = true := by
  cases h with
  | cancelled _ _ he => exact .inl he
  | consumed _ _ _ hp => exact .inr hp

/-- How the next look of a cancelled call ends, given how the call left its sleep: a deadline
leaves it the choice between what is there and its own error. -/
def verdict (g : Gate σ) : Stage → Waited
  | .expired =>
      if g.closed = false ∧ Signal.ready g.signal = true then .ok () else .error .timedOut
  | .asleep | .woken =>
      if g.closed = true then .error .closed
      else if Signal.ready g.signal = true then .ok ()
      else .error .interrupted

/-- A look of a call that was cancelled has an outcome. -/
theorem Looked.eq_verdict (h : Looked g.unpark epoch g' o) (hne : g.epoch ≠ epoch) :
    o = some (g.verdict .woken) := by
  cases h with
  | closed hc => simp [verdict, show g.closed = true from hc]
  | took hc hr =>
      simp [verdict, show g.closed = false from hc, show Signal.ready g.signal = true from hr]
  | cancelled hc hr =>
      simp [verdict, show g.closed = false from hc, show Signal.ready g.signal = false from hr]
  | consumed _ _ he | parked _ _ he => exact absurd he hne

end Gate

/-- An entry out of its sleep is left alone by all that rouses. -/
theorem Roused.mem_of_awake {l m : List Parked} {p : Parked} (h : Roused l m) (hp : p ∈ l)
    (hs : p.stage ≠ .asleep) : p ∈ m := by
  induction h with
  | nil => exact nomatch hp
  | cons hpq _ ih =>
      rcases List.mem_cons.mp hp with rfl | hp
      · cases hpq with
        | same => exact List.mem_cons_self
        | up _ hasleep => exact absurd hasleep hs
      · exact List.mem_cons_of_mem _ (ih hp)

namespace Channel

variable {σ κ : Type} [Signal σ] {own : Channel σ → κ → Channel σ → Prop} {c d : Channel σ}
  {p : Parked} {call : CallId} {o : Option Waited} {a : Act κ} {acts : List (Act κ)}

theorem Step.of_enter (hs : Step own c (.enter call o) d) :
    c.find? call = none ∧ Entered c call d o := by
  cases hs with
  | enter new => exact ⟨new, c.enter_cases call⟩

theorem Step.of_resume (ho : c.Orderly) (hs : Step own c (.resume call o) d) :
    ∃ p ∈ c.returning, p.call = call ∧ Resumed c p d o := by
  cases hs with
  | resume up => exact ⟨_, up, rfl, ho.resume_cases up⟩

omit [Signal σ] in
theorem call_ne_of_find? (new : c.find? call = none) (hp : p ∈ c.parked) : p.call ≠ call := by
  have := List.find?_eq_none.mp new p hp
  simpa using this

omit [Signal σ] in
theorem interrupt_gate_of_parked (ho : c.Orderly) (hp : c.parked ≠ []) :
    c.interrupt.gate = { c.gate with epoch := c.gate.epoch + 1 } := by
  have hb : c.gate.blocked ≠ 0 := by
    rw [ho.blocked]
    exact mt List.length_eq_zero_iff.mp hp
  exact if_neg hb

omit [Signal σ] in
theorem interrupt_gate_of_nobody (ho : c.Orderly) (hp : c.parked = []) :
    c.interrupt.gate = { c.gate with pending := true } := by
  have hb : c.gate.blocked = 0 := by rw [ho.blocked, hp]; rfl
  exact if_pos hb

/-- Only a cancellation that finds nobody parked makes itself pending. -/
theorem Step.pending_of (hsig : OnlySignals own) (ho : c.Orderly) (hs : Step own c a d)
    (hp : d.gate.pending = true) (hnot : a ≠ .interrupt) : c.gate.pending = true := by
  cases hs with
  | @enter other =>
      have he := c.enter_cases other
      generalize (c.enter other).1 = d, (c.enter other).2 = o at he hp
      cases he with
      | looked hl | slept hl => exact hl.pending_of hp
  | @resume q up =>
      have hr := ho.resume_cases up
      generalize (c.resume q.call).1 = d, (c.resume q.call).2 = o at hr hp
      cases hr with
      | looked _ hl | slept _ hl => exact hl.pending_of hp
      | late | timedOut => exact hp
  | stir | lapse | close => exact hp
  | interrupt => exact absurd rfl hnot
  | signal hop =>
      obtain ⟨⟨s, hg⟩, -⟩ := hsig hop
      rw [hg] at hp
      exact hp

/-! ## What is known of the parked calls -/

/-- After the acts of a run: who is parked, and how far the epoch is ahead of each. -/
structure Tracked (acts : List (Act κ)) (c : Channel σ) : Prop where
  orderly : c.Orderly
  calm : c.gate.pending = true → c.parked = []
  ahead : ∀ p ∈ c.parked, c.gate.epoch = p.epoch + UInt64.ofNat (cancels p.call acts)
  roused : ∀ p ∈ c.parked, cancels p.call acts ≠ 0 → p.stage ≠ .asleep

namespace Tracked

omit [Signal σ] in
/-- Nothing changes for those who are parked if an act only rouses. -/
theorem of_roused (h : Tracked acts c) (ho : d.Orderly) (he : d.gate.epoch = c.gate.epoch)
    (hp : d.gate.pending = c.gate.pending) (hr : Roused c.parked d.parked)
    (hlook : ∀ call, a.looks call = false) (hnot : a.isInterrupt = false) :
    Tracked (acts ++ [a]) d := by
  have hsame (call : CallId) : cancels call (acts ++ [a]) = cancels call acts := by
    rw [cancels_of_not_looks acts (hlook call), hnot]
    rfl
  refine ⟨ho, fun hpend => ?_, fun q hq => ?_, fun q hq hne => ?_⟩
  · rw [hp] at hpend
    have hnone := h.calm hpend
    rw [hnone] at hr
    exact List.forall₂_nil_left_iff.mp hr
  · obtain ⟨p, hp, hpq⟩ := hr.of_mem hq
    rw [he, hsame, hpq.call_eq, hpq.epoch_eq]
    exact h.ahead p hp
  · obtain ⟨p, hp, hpq⟩ := hr.of_mem hq
    rw [hsame, hpq.call_eq] at hne
    intro hasleep
    obtain rfl := hpq.eq_of_asleep hasleep
    exact h.roused q hp hne hasleep

omit [Signal σ] in
/-- Those who do not look are as they were. -/
theorem of_look (h : Tracked acts c) (ho : d.Orderly) (he : d.gate.epoch = c.gate.epoch)
    (hcalm : d.gate.pending = true → d.parked = []) (hlook : a.looks call = true)
    (hother : ∀ q : Parked, q.call ≠ call → a.looks q.call = false) (hnot : a.isInterrupt = false)
    (hmem : ∀ q ∈ d.parked, q ∈ c.parked ∧ q.call ≠ call ∨ q.call = call ∧ q.epoch = d.gate.epoch) :
    Tracked (acts ++ [a]) d := by
  have hsame (q : Parked) (hne : q.call ≠ call) :
      cancels q.call (acts ++ [a]) = cancels q.call acts := by
    rw [cancels_of_not_looks acts (hother q hne), hnot]
    rfl
  have hzero (q : Parked) (hq : q.call = call) : cancels q.call (acts ++ [a]) = 0 := by
    rw [hq]
    exact cancels_of_looks acts hlook
  refine ⟨ho, hcalm, fun q hq => ?_, fun q hq hne => ?_⟩
  · rcases hmem q hq with ⟨hq, hcall⟩ | ⟨hcall, hepoch⟩
    · rw [hsame q hcall, he]
      exact h.ahead q hq
    · rw [hzero q hcall, hepoch]
      exact (UInt64.add_zero _).symm
  · rcases hmem q hq with ⟨hq, hcall⟩ | ⟨hcall, -⟩
    · rw [hsame q hcall] at hne
      exact h.roused q hq hne
    · exact absurd (hzero q hcall) hne

omit [Signal σ] in
theorem interrupt (h : Tracked acts c) (ho : c.interrupt.Orderly) :
    Tracked (acts ++ [.interrupt]) c.interrupt := by
  have hr : Roused c.parked c.interrupt.parked := roused_wakeAll { c with gate := c.gate.interrupt }
  have hup : ∀ q ∈ c.interrupt.parked, q.stage ≠ .asleep := by
    intro q hq hasleep
    have hnone : c.interrupt.asleep = [] := asleep_wakeAll { c with gate := c.gate.interrupt }
    have hmem : q ∈ c.interrupt.asleep := mem_asleep.mpr ⟨hq, hasleep⟩
    rw [hnone] at hmem
    exact nomatch hmem
  refine ⟨ho, fun hpend => ?_, fun q hq => ?_, fun q hq _ => hup q hq⟩
  · by_cases hp : c.parked = []
    · rw [hp] at hr
      exact List.forall₂_nil_left_iff.mp hr
    · rw [interrupt_gate_of_parked h.orderly hp] at hpend
      exact absurd (h.calm hpend) hp
  · obtain ⟨p, hp, hpq⟩ := hr.of_mem hq
    rw [interrupt_gate_of_parked h.orderly (List.ne_nil_of_mem hp), hpq.call_eq, hpq.epoch_eq,
      cancels_of_not_looks acts rfl, UInt64.ofNat_add, ← UInt64.add_assoc, ← h.ahead p hp]
    rfl

theorem enter (h : Tracked acts c) (ho : d.Orderly) (new : c.find? call = none)
    (he : Entered c call d o) : Tracked (acts ++ [.enter call o]) d := by
  have hother (q : Parked) (hne : q.call ≠ call) : (Act.enter call o : Act κ).looks q.call = false :=
    decide_eq_false fun e => hne e.symm
  have hself : (Act.enter call o : Act κ).looks call = true := decide_eq_true rfl
  cases he with
  | looked hl =>
      refine h.of_look ho hl.epoch_eq (fun hp => h.calm (hl.pending_of hp)) hself hother rfl ?_
      exact fun q hq => .inl ⟨hq, call_ne_of_find? new hq⟩
  | slept hl =>
      refine h.of_look ho hl.epoch_eq (fun hp => ?_) hself hother rfl fun q hq => ?_
      · cases hl with
        | parked _ _ _ hcalm => exact absurd (hcalm.symm.trans hp) nofun
      · rcases List.mem_append.mp hq with hq | hq
        · exact .inl ⟨hq, call_ne_of_find? new hq⟩
        · obtain rfl := List.mem_singleton.mp hq
          exact .inr ⟨rfl, hl.epoch_eq.symm⟩

theorem resume (h : Tracked acts c) (ho : d.Orderly) (hp : p ∈ c.returning)
    (hr : Resumed c p d o) : Tracked (acts ++ [.resume p.call o]) d := by
  have hother (q : Parked) (hne : q.call ≠ p.call) :
      (Act.resume p.call o : Act κ).looks q.call = false :=
    decide_eq_false fun e => hne e.symm
  have hself : (Act.resume p.call o : Act κ).looks p.call = true := decide_eq_true rfl
  have hleft (q : Parked) (hq : q ∈ c.others p.call) : q ∈ c.parked ∧ q.call ≠ p.call := by
    obtain ⟨hq, hne⟩ := List.mem_filter.mp hq
    exact ⟨hq, by simpa using hne⟩
  have hcalm (hpend : c.gate.pending = true) : False :=
    absurd (h.calm hpend) (List.ne_nil_of_mem (List.mem_of_mem_filter hp))
  cases hr with
  | looked _ hl =>
      exact h.of_look ho hl.epoch_eq (fun hpend => (hcalm (hl.pending_of hpend)).elim) hself hother
        rfl fun q hq => .inl (hleft q hq)
  | late | timedOut =>
      exact h.of_look ho rfl (fun hpend => (hcalm hpend).elim) hself hother rfl
        fun q hq => .inl (hleft q hq)
  | slept _ hl =>
      refine h.of_look ho hl.epoch_eq (fun hpend => (hcalm (hl.pending_of hpend)).elim) hself
        hother rfl fun q hq => ?_
      rcases List.mem_append.mp hq with hq | hq
      · exact .inl (hleft q hq)
      · obtain rfl := List.mem_singleton.mp hq
        cases hl with
        | parked _ _ hepoch => exact .inr ⟨rfl, hepoch.symm⟩

theorem step (hsig : OnlySignals own) (h : Tracked acts c) (hs : Step own c a d) :
    Tracked (acts ++ [a]) d := by
  have ho := hs.orderly hsig h.orderly
  cases hs with
  | enter new => exact h.enter ho new (c.enter_cases _)
  | resume up => exact h.resume ho up (h.orderly.resume_cases up)
  | stir call => exact h.of_roused ho rfl rfl (c.roused_rouse call (by decide)) (fun _ => rfl) rfl
  | lapse call => exact h.of_roused ho rfl rfl (c.roused_rouse call (by decide)) (fun _ => rfl) rfl
  | close =>
      exact h.of_roused ho rfl rfl (roused_wakeAll { c with gate := c.gate.close }) (fun _ => rfl)
        rfl
  | signal hop =>
      obtain ⟨⟨s, hg⟩, hr⟩ := hsig hop
      exact h.of_roused ho (by rw [hg]; rfl) (by rw [hg]; rfl) hr (fun _ => rfl) rfl
  | interrupt => exact h.interrupt ho

theorem run (hsig : OnlySignals own) (h : Tracked acts c) {more : List (Act κ)}
    (hr : Run (Step own) c more d) : Tracked (acts ++ more) d := by
  induction hr with
  | nil => rwa [List.append_nil]
  | snoc _ hs ih =>
      rw [← List.append_assoc]
      exact ih.step hsig hs

theorem of_new [Inhabited σ] (hsig : OnlySignals own) (hr : Run (Step own) default acts d) :
    Tracked acts d := by
  have hbase : Tracked ([] : List (Act κ)) (default : Channel σ) :=
    ⟨orderly_default, fun _ => rfl, nofun, nofun⟩
  exact hbase.run hsig hr

end Tracked

/-! ## The calls that a cancellation finds parked -/

/-- A call out of its sleep stays so until it looks. -/
theorem Step.mem_of_awake (hsig : OnlySignals own) (ho : c.Orderly) (hs : Step own c a d)
    (hp : p ∈ c.parked) (hup : p.stage ≠ .asleep) (hlook : a.looks p.call = false) :
    p ∈ d.parked := by
  cases hs with
  | @enter other =>
      have he := c.enter_cases other
      generalize (c.enter other).1 = d, (c.enter other).2 = o at he
      cases he with
      | looked => exact hp
      | slept => exact List.mem_append_left _ hp
  | @resume q hq =>
      have hr := ho.resume_cases hq
      have hne : q.call ≠ p.call := of_decide_eq_false hlook
      have hmem : p ∈ c.others q.call :=
        List.mem_filter.mpr ⟨hp, by simpa using fun e => hne e.symm⟩
      generalize (c.resume q.call).1 = d, (c.resume q.call).2 = o at hr
      cases hr with
      | looked | late | timedOut => exact hmem
      | slept => exact List.mem_append_left _ hmem
  | stir call => exact (c.roused_rouse call (by decide)).mem_of_awake hp hup
  | lapse call => exact (c.roused_rouse call (by decide)).mem_of_awake hp hup
  | interrupt => exact (roused_wakeAll { c with gate := c.gate.interrupt }).mem_of_awake hp hup
  | close => exact (roused_wakeAll { c with gate := c.gate.close }).mem_of_awake hp hup
  | signal hop => exact (hsig hop).2.mem_of_awake hp hup

theorem mem_of_awake_of_run (hsig : OnlySignals own) (ho : c.Orderly) (hr : Run (Step own) c acts d)
    (hp : p ∈ c.parked) (hup : p.stage ≠ .asleep) (hlook : ∀ a ∈ acts, a.looks p.call = false) :
    p ∈ d.parked := by
  have hboth : d.Orderly ∧ p ∈ d.parked :=
    hr.preserves_of_forall (P := fun c => c.Orderly ∧ p ∈ c.parked)
      (fun hl hP hs => ⟨hs.orderly hsig hP.1, hs.mem_of_awake hsig hP.1 hP.2 hup hl⟩) hlook ⟨ho, hp⟩
  exact hboth.2

/-- How the next look of a call ends that is out of its sleep and was cancelled. -/
theorem Resumed.of_cancelled (h : Resumed c p d o) (hne : c.gate.epoch ≠ p.epoch) :
    o = some (c.gate.verdict p.stage) ∧ d.parked = c.others p.call := by
  cases h with
  | looked hs hl =>
      refine ⟨?_, rfl⟩
      rw [hs]
      exact hl.eq_verdict hne
  | slept _ hl => exact nomatch hl.eq_verdict hne
  | late hs hr hc => simp [hs, Gate.verdict, hr, hc]
  | timedOut hs hout =>
      have hnot : ¬(c.gate.closed = false ∧ Signal.ready c.gate.signal = true) := by
        rintro ⟨hopen, hready⟩
        rcases hout with hr | hc
        · exact absurd (hr.symm.trans hready) nofun
        · exact absurd (hopen.symm.trans hc) nofun
      simp [hs, Gate.verdict, hnot]

theorem Resumed.of_interrupted (h : Resumed c p d (some (.error .interrupted))) :
    c.gate.epoch ≠ p.epoch ∨ c.gate.pending = true := by
  cases h with
  | looked _ hl => exact hl.of_interrupted

theorem Entered.of_interrupted (h : Entered c call d (some (.error .interrupted))) :
    c.gate.pending = true := by
  cases h with
  | looked hl => exact hl.of_interrupted.resolve_left fun hne => hne rfl

omit [Signal σ] in
/-- A cancellation leaves nobody asleep, and takes back no deadline that has passed. -/
theorem mem_interrupt (hp : p ∈ c.parked) :
    ∃ q ∈ c.interrupt.parked, q.call = p.call ∧ q.epoch = p.epoch ∧
      q.stage = if p.stage = .asleep then .woken else p.stage := by
  refine ⟨_, List.mem_map.mpr ⟨p, hp, rfl⟩, ?_⟩
  by_cases hs : p.stage = .asleep <;> simp [hs]

theorem verdict_roused (g : Gate σ) (stage : Stage) :
    g.verdict (if stage = .asleep then .woken else stage) = g.verdict stage := by
  cases stage <;> rfl

/-- Whoever was parked at a cancellation, looks next when he may, and then leaves. -/
theorem Tracked.reached (hsig : OnlySignals own) (h : Tracked acts c) (hp : p ∈ c.parked)
    {after : List (Act κ)} (hr : Run (Step own) c.interrupt after d)
    (hlook : ∀ a ∈ after, a.looks p.call = false)
    (hfew : cancels p.call (acts ++ .interrupt :: after) < UInt64.size) :
    ∃ q ∈ d.returning, q.call = p.call ∧
      (d.resume p.call).2 = some (d.gate.verdict p.stage) ∧
      (d.resume p.call).1.find? p.call = none := by
  have hint : Step own c .interrupt c.interrupt := .interrupt c
  have hmid : Tracked (acts ++ [.interrupt]) c.interrupt := h.step hsig hint
  have hlast : Tracked (acts ++ [.interrupt] ++ after) d := hmid.run hsig hr
  obtain ⟨q, hq, hcall, -, hstage⟩ := mem_interrupt hp
  have hup : q.stage ≠ .asleep := by
    rw [hstage]
    split <;> simp_all
  rw [← hcall] at hlook hfew ⊢
  have hqd : q ∈ d.parked := mem_of_awake_of_run hsig hmid.orderly hr hq hup hlook
  have hret : q ∈ d.returning := List.mem_filter.mpr ⟨hqd, by simpa using hup⟩
  -- The epoch is ahead of the call, and not by a full turn.
  have hne : d.gate.epoch ≠ q.epoch := by
    intro e
    have hahead := hlast.ahead q hqd
    rw [List.append_cons] at hfew
    have hzero := eq_zero_of_add_eq (hahead.symm.trans e) hfew
    have hle := le_cancels_append (acts ++ [.interrupt]) hlook
    rw [hzero, cancels_of_not_looks acts rfl] at hle
    exact absurd hle (Nat.not_succ_le_zero _)
  obtain ⟨hverdict, hgone⟩ := (hlast.orderly.resume_cases hret).of_cancelled hne
  refine ⟨q, hret, rfl, ?_, ?_⟩
  · rw [hverdict, hstage, verdict_roused]
  · unfold find?
    rw [hgone]
    exact List.find?_eq_none.mpr fun r hr => by simpa using (List.mem_filter.mp hr).2

/-- A parked call is cancelled by what came after its last look only. -/
theorem Tracked.cancels_ne_zero (h : Tracked acts c)
    (hs : Step own c (.resume call (some (.error .interrupted))) d) : cancels call acts ≠ 0 := by
  obtain ⟨p, hp, rfl, hr⟩ := hs.of_resume h.orderly
  have hmem := List.mem_of_mem_filter hp
  have hne : c.gate.epoch ≠ p.epoch :=
    hr.of_interrupted.resolve_right fun hpend =>
      absurd (h.calm hpend) (List.ne_nil_of_mem hmem)
  intro hzero
  refine hne ?_
  rw [h.ahead p hmem, hzero]
  exact UInt64.add_zero _

theorem interrupt_mem_of_pending (hsig : OnlySignals own) (ho : c.Orderly)
    (hr : Run (Step own) c acts d) (hlow : c.gate.pending = false) (hp : d.gate.pending = true) :
    .interrupt ∈ acts := by
  induction hr with
  | nil => exact absurd (hlow.symm.trans hp) nofun
  | @snoc front t u a hrun hs ih =>
      by_cases ha : a = .interrupt
      · exact List.mem_append_right _ (ha ▸ List.mem_cons_self)
      · have hot := hrun.preserves (fun hc hs => hs.orderly hsig hc) ho
        exact List.mem_append_left _ (ih (hs.pending_of hsig hot hp ha))

/-! ## A cancellation that finds nobody -/

/-- A wait would find the primitive open and nothing to take. -/
def Spent (c : Channel σ) : Prop := c.gate.closed = false ∧ Signal.ready c.gate.signal = false

/-- A step in which no call looks in vain. -/
def Fed (own : Channel σ → κ → Channel σ → Prop) (c : Channel σ) (a : Act κ) (d : Channel σ) :
    Prop :=
  Step own c a d ∧ ∀ call, a.looks call = true → ¬c.Spent

omit [Signal σ] in
/-- A cancellation waits for the next call. -/
structure Pends (c : Channel σ) : Prop where
  nobody : c.parked = []
  pending : c.gate.pending = true

/-- A cancellation stays pending until somebody looks in vain. -/
theorem Pends.fed (hsig : OnlySignals own) (ho : c.Orderly) (h : Pends c) (hs : Fed own c a d) :
    Pends d ∧ a.outcome? ≠ some (.error .interrupted) := by
  obtain ⟨hs, hfed⟩ := hs
  have hroused {m : List Parked} (hr : Roused c.parked m) : m = [] := by
    rw [h.nobody] at hr
    exact List.forall₂_nil_left_iff.mp hr
  cases hs with
  | @enter call new =>
      have hfed := hfed call (decide_eq_true rfl)
      have he := c.enter_cases call
      generalize (c.enter call).1 = d, (c.enter call).2 = o at he
      cases he with
      | looked hl =>
        cases hl with
        | closed | took => exact ⟨⟨h.nobody, h.pending⟩, nofun⟩
        | cancelled _ _ hne => exact absurd rfl hne
        | consumed hc hr => exact absurd ⟨hc, hr⟩ hfed
      | slept hl =>
        cases hl with
        | parked hc hr => exact absurd ⟨hc, hr⟩ hfed
  | resume up =>
      have hmem := List.mem_of_mem_filter up
      rw [h.nobody] at hmem
      exact nomatch hmem
  | stir call => exact ⟨⟨hroused (c.roused_rouse call (by decide)), h.pending⟩, nofun⟩
  | lapse call => exact ⟨⟨hroused (c.roused_rouse call (by decide)), h.pending⟩, nofun⟩
  | close =>
      have hr := roused_wakeAll { c with gate := c.gate.close }
      exact ⟨⟨hroused hr, h.pending⟩, nofun⟩
  | interrupt =>
      have hr := roused_wakeAll { c with gate := c.gate.interrupt }
      exact ⟨⟨hroused hr, by rw [interrupt_gate_of_nobody ho h.nobody]⟩, nofun⟩
  | signal hop =>
      obtain ⟨⟨s, hg⟩, hr⟩ := hsig hop
      exact ⟨⟨hroused hr, by rw [hg]; exact h.pending⟩, nofun⟩

theorem Pends.run (hsig : OnlySignals own) (ho : c.Orderly) (h : Pends c)
    (hr : Run (Fed own) c acts d) :
    (d.Orderly ∧ Pends d) ∧ ∀ a ∈ acts, a.outcome? ≠ some (.error .interrupted) := by
  refine hr.forall_of_preserves (P := fun c => c.Orderly ∧ Pends c)
    (fun (_ : True) hP hs => ?_) (fun _ _ => trivial) ⟨ho, h⟩
  obtain ⟨hpends, hout⟩ := hP.2.fed hsig hP.1 hs
  exact ⟨⟨hs.1.orderly hsig hP.1, hpends⟩, hout⟩

/-- The first look in vain takes the cancellation. -/
theorem Pends.spent (h : Pends c) (hspent : c.Spent) (call : CallId) :
    c.enter call = ({ c with gate := { c.gate with pending := false } },
      some (.error .interrupted)) := by
  obtain ⟨hc, hr⟩ := hspent
  simp [enter, Gate.enter, Gate.look, hc, hr, h.pending]

omit [Signal σ] in
/-- No cancellation waits for anybody, parked or not. -/
structure Quiet (c : Channel σ) : Prop where
  low : c.gate.pending = false
  current : ∀ p ∈ c.parked, c.gate.epoch = p.epoch

theorem Quiet.step (hsig : OnlySignals own) (ho : c.Orderly) (h : Quiet c) (hs : Step own c a d)
    (hnot : a ≠ .interrupt) : Quiet d ∧ a.outcome? ≠ some (.error .interrupted) := by
  have hlow : d.gate.pending = false :=
    eq_false_of_ne_true fun hp => absurd (h.low.symm.trans (hs.pending_of hsig ho hp hnot)) nofun
  have hroused (he : d.gate.epoch = c.gate.epoch) (hr : Roused c.parked d.parked) : Quiet d := by
    refine ⟨hlow, fun q hq => ?_⟩
    obtain ⟨p, hp, hpq⟩ := hr.of_mem hq
    rw [he, hpq.epoch_eq]
    exact h.current p hp
  cases hs with
  | @enter call new =>
      have he := c.enter_cases call
      generalize (c.enter call).1 = d, (c.enter call).2 = o at he hlow
      refine ⟨⟨hlow, ?_⟩, ?_⟩
      · cases he with
        | looked hl => exact fun q hq => hl.epoch_eq.trans (h.current q hq)
        | slept hl =>
            intro q hq
            refine hl.epoch_eq.trans ?_
            rcases List.mem_append.mp hq with hq | hq
            · exact h.current q hq
            · rw [List.mem_singleton.mp hq]
      · rintro ho
        obtain rfl : o = some (.error .interrupted) := ho
        exact absurd (h.low.symm.trans he.of_interrupted) nofun
  | @resume p up =>
      have hr := ho.resume_cases up
      have hp := h.current p (List.mem_of_mem_filter up)
      have hothers (q : Parked) (hq : q ∈ c.others p.call) : c.gate.epoch = q.epoch :=
        h.current q (List.mem_of_mem_filter hq)
      generalize (c.resume p.call).1 = d, (c.resume p.call).2 = o at hr hlow
      refine ⟨⟨hlow, ?_⟩, ?_⟩
      · cases hr with
        | looked _ hl => exact fun q hq => hl.epoch_eq.trans (hothers q hq)
        | late | timedOut => exact hothers
        | slept _ hl =>
            intro q hq
            refine hl.epoch_eq.trans ?_
            rcases List.mem_append.mp hq with hq | hq
            · exact hothers q hq
            · rw [List.mem_singleton.mp hq]
              exact hp
      · rintro ho
        obtain rfl : o = some (.error .interrupted) := ho
        rcases hr.of_interrupted with hne | hpend
        · exact hne hp
        · exact absurd (h.low.symm.trans hpend) nofun
  | stir call => exact ⟨hroused rfl (c.roused_rouse call (by decide)), nofun⟩
  | lapse call => exact ⟨hroused rfl (c.roused_rouse call (by decide)), nofun⟩
  | close => exact ⟨hroused rfl (roused_wakeAll { c with gate := c.gate.close }), nofun⟩
  | interrupt => exact absurd rfl hnot
  | signal hop =>
      obtain ⟨⟨s, hg⟩, hr⟩ := hsig hop
      exact ⟨hroused (by rw [hg]; rfl) hr, nofun⟩

/-- While nothing is cancelled, nobody is interrupted. -/
theorem Quiet.run (hsig : OnlySignals own) (ho : c.Orderly) (h : Quiet c)
    (hr : Run (Step own) c acts d) (hnot : .interrupt ∉ acts) :
    ∀ a ∈ acts, a.outcome? ≠ some (.error .interrupted) := by
  have hall : ∀ a ∈ acts, a ≠ .interrupt := fun a ha e => hnot (e ▸ ha)
  have hboth : (d.Orderly ∧ Quiet d) ∧ ∀ a ∈ acts, a.outcome? ≠ some (.error .interrupted) := by
    refine hr.forall_of_preserves (P := fun c => c.Orderly ∧ Quiet c) (fun ha hP hs => ?_) hall
      ⟨ho, h⟩
    obtain ⟨hquiet, hout⟩ := hP.2.step hsig hP.1 hs ha
    exact ⟨⟨hs.orderly hsig hP.1, hquiet⟩, hout⟩
  exact hboth.2

/-! ## Who is cancelled, and by what -/

/-- What a cancellation does in the state `c` that the acts of a run lead to. -/
structure CancelsExactly (own : Channel σ → κ → Channel σ → Prop) (acts : List (Act κ))
    (c : Channel σ) : Prop where
  /-- `blocked` is the number of the parked calls. -/
  counted : c.gate.blocked = c.parked.length
  /-- No call gets up that was not counted. -/
  positive : c.returning ≠ [] → 0 < c.gate.blocked
  calm : c.gate.pending = true → c.gate.blocked = 0
  /-- Among parked calls, a cancellation is for them and does not become pending. -/
  lowered : c.parked ≠ [] → c.gate.pending = false ∧ c.interrupt.gate.pending = false
  /-- The parked calls can look again, and leave when they do. -/
  reached {p : Parked} {after : List (Act κ)} {d : Channel σ} : p ∈ c.parked →
    Run (Step own) c.interrupt after d → (∀ a ∈ after, a.looks p.call = false) →
    cancels p.call (acts ++ .interrupt :: after) < UInt64.size →
      ∃ q ∈ d.returning, q.call = p.call ∧
        (d.resume p.call).2 = some (d.gate.verdict p.stage) ∧
        (d.resume p.call).1.find? p.call = none
  /-- A call that enters later is not cancelled at its entry, if nothing else is cancelled. -/
  entersFree {call : CallId} {after : List (Act κ)} {d e : Channel σ} : c.parked ≠ [] →
    Run (Step own) c.interrupt after d →
    Step own d (.enter call (some (.error .interrupted))) e → .interrupt ∈ after
  /-- Nor is it cancelled later, except by what came since its entry. -/
  parksFree {call : CallId} {o : Option Waited} {before after : List (Act κ)} {d e : Channel σ} :
    Run (Step own) c (.interrupt :: before ++ .enter call o :: after) d →
    Step own d (.resume call (some (.error .interrupted))) e → .interrupt ∈ after
  /-- With nobody parked, the cancellation becomes pending and cancels nobody until a call looks
  in vain. -/
  pends {after : List (Act κ)} {d : Channel σ} : c.parked = [] → Run (Fed own) c.interrupt after d →
    d.gate.pending = true ∧ d.parked = [] ∧ ∀ a ∈ after, a.outcome? ≠ some (.error .interrupted)
  /-- That call is cancelled, and after it nobody, unless there is another cancellation. -/
  fires {call : CallId} {o : Option Waited} {after : List (Act κ)} {d e : Channel σ} :
    c.parked = [] → Run (Fed own) c.interrupt after d → d.Spent → Step own d (.enter call o) e →
      o = some (.error .interrupted) ∧ e.gate.pending = false ∧
      ∀ {more : List (Act κ)} {f : Channel σ}, Run (Step own) e more f → .interrupt ∉ more →
        ∀ a ∈ more, a.outcome? ≠ some (.error .interrupted)

theorem cancelsExactly_of_run [Inhabited σ] (hsig : OnlySignals own)
    (hr : Run (Step own) default acts c) : CancelsExactly own acts c := by
  have h := Tracked.of_new hsig hr
  have hint : Step own c .interrupt c.interrupt := .interrupt c
  have ho := hint.orderly hsig h.orderly
  have hlow (hp : c.parked ≠ []) : c.gate.pending = false :=
    eq_false_of_ne_true fun hpend => hp (h.calm hpend)
  have hlow' (hp : c.parked ≠ []) : c.interrupt.gate.pending = false := by
    rw [interrupt_gate_of_parked h.orderly hp]
    exact hlow hp
  have hpends (hp : c.parked = []) : Pends c.interrupt := by
    refine ⟨?_, by rw [interrupt_gate_of_nobody h.orderly hp]⟩
    show c.parked.map _ = []
    rw [hp]
    rfl
  refine
    { counted := h.orderly.blocked
      positive := fun hret => ?_
      calm := fun hpend => by rw [h.orderly.blocked, h.calm hpend]; rfl
      lowered := fun hp => ⟨hlow hp, hlow' hp⟩
      reached := fun hp hafter hlook hfew => h.reached hsig hp hafter hlook hfew
      entersFree := fun {call after d e} hp hafter hs => ?_
      parksFree := fun {call o before after d e} hall hs => ?_
      pends := fun hp hfed => ?_
      fires := fun {call o after d e} hp hfed hspent hs => ?_ }
  · obtain ⟨p, hp⟩ := List.exists_mem_of_ne_nil _ hret
    rw [h.orderly.blocked]
    exact List.length_pos_of_mem (List.mem_of_mem_filter hp)
  · exact interrupt_mem_of_pending hsig ho hafter (hlow' hp) hs.of_enter.2.of_interrupted
  · have hne := (h.run hsig hall).cancels_ne_zero hs
    have hself : (Act.enter call o : Act κ).looks call = true := decide_eq_true rfl
    have hle := cancels_append_le call (acts ++ (.interrupt :: before) ++ [.enter call o]) after
    rw [cancels_of_looks _ hself] at hle
    rw [List.append_cons, ← List.append_assoc, ← List.append_assoc] at hne
    have hpos : 0 < after.countP Act.isInterrupt := by omega
    obtain ⟨a, ha, hint⟩ := List.countP_pos_iff.mp hpos
    cases a with
    | interrupt => exact ha
    | enter | resume | stir | lapse | close | signal => exact nomatch hint
  · obtain ⟨⟨-, hd⟩, hout⟩ := (hpends hp).run hsig ho hfed
    exact ⟨hd.pending, hd.nobody, hout⟩
  · obtain ⟨⟨hod, hd⟩, -⟩ := (hpends hp).run hsig ho hfed
    have hoe := hs.orderly hsig hod
    obtain ⟨rfl, rfl⟩ : o = some (.error .interrupted) ∧
        e = { d with gate := { d.gate with pending := false } } := by
      cases hs with
      | enter => rw [hd.spent hspent call]; exact ⟨rfl, rfl⟩
    have hquiet : Quiet { d with gate := { d.gate with pending := false } } := by
      refine ⟨rfl, fun p hp => ?_⟩
      rw [show d.parked = [] from hd.nobody] at hp
      exact nomatch hp
    exact ⟨rfl, rfl, fun hmore hnot => hquiet.run hsig hoe hmore hnot⟩

end Channel

/-! ## Semaphores and event flags -/

open Channel

/-- **A cancellation reaches exactly the calls it is meant for**, at a semaphore and at an event
flag, in every state of every run.  If calls are parked, each of them leaves at its next look, and
nobody else is cancelled; if none is, the next call that finds nothing to take is cancelled, and
nobody before or after it. -/
theorem cancellation_exact :
    (∀ {acts : List (Act Semaphore.Op)} {s : Semaphore}, Run Semaphore.Step default acts s →
      CancelsExactly Semaphore.Own acts s) ∧
    (∀ {acts : List (Act EventFlag.Op)} {e : EventFlag}, Run EventFlag.Step default acts e →
      CancelsExactly EventFlag.Own acts e) :=
  ⟨fun h => cancelsExactly_of_run Semaphore.onlySignals_own h,
    fun h => cancelsExactly_of_run EventFlag.onlySignals_own h⟩

/-- Of two calls parked at a semaphore one is past its deadline when both are cancelled; at an event
flag a cancellation outlasts a wait that finds the flag up, and meets the next. -/
theorem cancellation_exact_both_kinds :
    (∃ (acts : List (Act Semaphore.Op)) (s : Semaphore), Run Semaphore.Step default acts s ∧
      s.parked = [⟨⟨0⟩, 0, .asleep⟩, ⟨⟨1⟩, 0, .expired⟩] ∧
      (s.interrupt.resume ⟨0⟩).2 = some (.error .interrupted) ∧
      (s.interrupt.resume ⟨1⟩).2 = some (.error .timedOut)) ∧
    (∃ e : EventFlag, Run (Fed EventFlag.Own) (Channel.interrupt default)
        [.signal .set, .enter ⟨0⟩ (some (.ok ()))] e ∧
      e.gate.pending = true ∧ (e.enter ⟨1⟩).2 = some (.error .interrupted)) := by
  constructor
  · have hrun : Run Semaphore.Step default
        [.enter ⟨0⟩ none, .enter ⟨1⟩ none, .lapse ⟨1⟩]
        (Channel.expire
          ((Channel.enter ((Channel.enter default ⟨0⟩).1 : Semaphore) ⟨1⟩).1) ⟨1⟩) :=
      .snoc (.snoc (.snoc .nil (.enter rfl)) (.enter rfl)) (.lapse _ _)
    have hexact := cancellation_exact.1 hrun
    refine ⟨_, _, hrun, rfl, ?_, ?_⟩
    · obtain ⟨-, -, -, hout, -⟩ := hexact.reached (p := ⟨⟨0⟩, 0, .asleep⟩) List.mem_cons_self .nil
        nofun (by decide)
      exact hout
    · obtain ⟨-, -, -, hout, -⟩ := hexact.reached (p := ⟨⟨1⟩, 0, .expired⟩)
        (List.mem_cons_of_mem _ List.mem_cons_self) .nil nofun (by decide)
      exact hout
  · have hfed : Run (Fed EventFlag.Own) (Channel.interrupt default)
        [.signal .set, .enter ⟨0⟩ (some (.ok ()))]
        (Channel.enter (EventFlag.set (Channel.interrupt default)) ⟨0⟩).1 := by
      refine .snoc (.snoc .nil ⟨.signal (.set _), nofun⟩) ⟨.enter rfl, fun _ _ hspent => ?_⟩
      exact nomatch hspent.2
    have hexact := cancellation_exact.2 .nil
    refine ⟨_, hfed, (hexact.pends rfl hfed).1, ?_⟩
    exact (hexact.fires rfl hfed ⟨rfl, rfl⟩ (.enter rfl)).1

end PeerBus
