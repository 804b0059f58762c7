/-
# `PeerBus.Proofs.Wait.Wakeup` — no wake-up is lost

A call that sleeps and was not woken is promised three things (`Channel.Attends`): the primitive
is open, the call's epoch is the current one, and the calls that are on their way back already
are enough for the signal that is there.

What "enough" means differs.  For a semaphore, each call on its way may take one unit, so the
count is at most their number; for an event flag a sleeping call means that the flag is down.
`Covering` states what the two have in common, and with it the promise is kept by all acts that
the primitives share (`Channel.Step.attended`).  The delicate acts are those of a call that
leaves without the unit it was woken for — cancelled, closed, or overtaken by a newcomer — and
`up`, which adds a unit but wakes one call only:

    a call leaves with a unit         one unit less, one call on its way less
    a call leaves without a unit      there was no unit to take
    a call goes to sleep              there was no unit to take
    up                                one unit more, one call on its way more, if any slept
    arm, set, interrupt, close        nobody sleeps

Equal epochs say that nothing was cancelled only if the epoch did not come round in between.
`Channel.noInterrupt_of_asleep` makes that precise: if fewer than 2^64 cancellations fall between
any two looks of a call, none at all fell between its entry and the moment at which it sleeps.
-/
import PeerBus.Proofs.Wait.Run

namespace PeerBus

namespace Channel

variable {σ κ : Type}

/-! ## The promise -/

/-- What a sleeping call is promised; `covers n s` says that `n` calls on their way are enough for
the signal `s`. -/
structure Attends (covers : Nat → σ → Prop) (c : Channel σ) (p : Parked) : Prop where
  opened : c.gate.closed = false
  current : p.epoch = c.gate.epoch
  covered : covers (awake c.parked) c.gate.signal

/-- Every sleeping call has what it is promised. -/
def Attended (covers : Nat → σ → Prop) (c : Channel σ) : Prop :=
  ∀ p ∈ c.asleep, Attends covers c p

theorem mem_asleep {c : Channel σ} {p : Parked} :
    p ∈ c.asleep ↔ p ∈ c.parked ∧ p.stage = .asleep := by
  simp [asleep, List.mem_filter]

variable {covers : Nat → σ → Prop} {c d : Channel σ} {p : Parked}

theorem attended_of_nobody (h : c.asleep = []) : Attended covers c := by
  intro p hp
  rw [h] at hp
  exact nomatch hp

/-- The call that looks again was on its way; the others are as they were. -/
theorem Orderly.awake_others (h : c.Orderly) (hp : p ∈ c.returning) :
    awake c.parked = awake (c.others p.call) + 1 := by
  obtain ⟨hp, hs⟩ := List.mem_filter.mp hp
  have hs : p.stage ≠ .asleep := by simpa using hs
  calc awake c.parked
      = awake (p :: c.others p.call) := (h.perm_cons_others hp).countP_eq _
    _ = awake (c.others p.call) + 1 := by rw [awake_cons, if_neg hs]

variable [Signal σ]

structure Covering (covers : Nat → σ → Prop) : Prop where
  spent {n : Nat} {s : σ} : Signal.ready s = false → covers n s
  more {n : Nat} {s : σ} : covers n s → covers (n + 1) s
  take {n : Nat} {s : σ} : Signal.ready s = true → covers (n + 1) s → covers n (Signal.take s)

theorem Covering.mono (hcov : Covering covers) {s : σ} {m n : Nat} (hle : m ≤ n)
    (h : covers m s) : covers n s := by
  induction hle with
  | refl => exact h
  | step _ ih => exact hcov.more ih

theorem Attended.of_roused (hcov : Covering covers) (h : Attended covers c)
    (hg : d.gate = c.gate) (hr : Roused c.parked d.parked) : Attended covers d := by
  intro q hq
  obtain ⟨hq, hs⟩ := mem_asleep.mp hq
  obtain ⟨p, hp, hpq⟩ := hr.of_mem hq
  obtain rfl := hpq.eq_of_asleep hs
  have hc := h q (mem_asleep.mpr ⟨hp, hs⟩)
  exact ⟨hg ▸ hc.opened, hg ▸ hc.current, hg ▸ hcov.mono hr.awake_le hc.covered⟩

/-! ## Looks keep the promise -/

/-- The promise to a call that a parked look puts to sleep, and to those that sleep already. -/
theorem attended_of_slept (hcov : Covering covers) {g g' : Gate σ} {l : List Parked}
    {call : CallId} {epoch : UInt64} (hl : g.Looked epoch g' none)
    (h : ∀ p ∈ l, p.stage = .asleep → p.epoch = g.epoch) :
    Attended covers { gate := g', parked := l ++ [⟨call, epoch, .asleep⟩] } := by
  cases hl with
  | parked hc hr he hp =>
    intro q hq
    obtain ⟨hq, hs⟩ := mem_asleep.mp hq
    refine ⟨hc, ?_, hcov.spent hr⟩
    rcases List.mem_append.mp hq with hq | hq
    · exact h q hq hs
    · rw [List.mem_singleton.mp hq]
      exact he.symm

theorem Attended.entered (hcov : Covering covers) (h : Attended covers c) {call : CallId}
    {o : Option Waited} (he : Entered c call d o) : Attended covers d := by
  cases he with
  | slept hl =>
      exact attended_of_slept hcov hl fun p hp hs => (h p (mem_asleep.mpr ⟨hp, hs⟩)).current
  | looked hl =>
      intro q hq
      have hold : Attends covers c q := h q hq
      refine ⟨?_, hold.current.trans hl.epoch_eq.symm, ?_⟩
      · cases hl <;> exact hold.opened
      · cases hl with
        | closed => exact hold.covered
        | took _ hr => exact hcov.take hr (hcov.more hold.covered)
        | cancelled => exact hold.covered
        | consumed => exact hold.covered

theorem Attended.resumed (hcov : Covering covers) (h : Attended covers c) (ho : c.Orderly)
    (hp : p ∈ c.returning) {o : Option Waited} (hr : Resumed c p d o) : Attended covers d := by
  have hold : ∀ q ∈ c.others p.call, q.stage = .asleep → Attends covers c q := fun q hq hs =>
    h q (mem_asleep.mpr ⟨List.mem_of_mem_filter hq, hs⟩)
  have hawake := ho.awake_others hp
  cases hr with
  | slept _ hl => exact attended_of_slept hcov hl fun q hq hs => (hold q hq hs).current
  | looked _ hl =>
      intro q hq
      obtain ⟨hq, hs⟩ := mem_asleep.mp hq
      have hold := hold q hq hs
      refine ⟨?_, hold.current.trans hl.epoch_eq.symm, ?_⟩
      · cases hl <;> exact hold.opened
      · cases hl with
        | closed hc => exact absurd (hold.opened.symm.trans hc) (by decide)
        | took _ hr => exact hcov.take hr (hawake ▸ hold.covered)
        | cancelled _ hr => exact hcov.spent hr
        | consumed _ hr => exact hcov.spent hr
  | late _ hr hc =>
      intro q hq
      obtain ⟨hq, hs⟩ := mem_asleep.mp hq
      have hold := hold q hq hs
      exact ⟨hold.opened, hold.current, hcov.take hr (hawake ▸ hold.covered)⟩
  | timedOut _ hout =>
      intro q hq
      obtain ⟨hq, hs⟩ := mem_asleep.mp hq
      have hold := hold q hq hs
      refine ⟨hold.opened, hold.current, ?_⟩
      rcases hout with hr | hc
      · exact hcov.spent hr
      · exact absurd (hold.opened.symm.trans hc) (by decide)

/-! ## Acts keep the promise -/

theorem Step.attended (hcov : Covering covers) {own : Channel σ → κ → Channel σ → Prop}
    (hown : ∀ {c d op}, own c op d → Attended covers c → Attended covers d) {a : Act κ}
    (ho : c.Orderly) (h : Attended covers c) (hs : Step own c a d) : Attended covers d := by
  cases hs with
  | enter new => exact h.entered hcov (c.enter_cases _)
  | resume up => exact h.resumed hcov ho up (ho.resume_cases up)
  | stir call => exact h.of_roused hcov rfl (c.roused_rouse call (by decide))
  | lapse call => exact h.of_roused hcov rfl (c.roused_rouse call (by decide))
  | interrupt => exact attended_of_nobody (asleep_wakeAll _)
  | close => exact attended_of_nobody (asleep_wakeAll _)
  | signal hop => exact hown hop h

/-- All states of a run from a new primitive. -/
theorem attended_of_run [Inhabited σ] (hcov : Covering covers)
    {own : Channel σ → κ → Channel σ → Prop} (hsig : OnlySignals own)
    (hown : ∀ {c d op}, own c op d → Attended covers c → Attended covers d)
    {acts : List (Act κ)} (h : Run (Step own) default acts c) :
    c.Orderly ∧ Attended covers c :=
  h.preserves (P := fun c => c.Orderly ∧ Attended covers c)
    (fun hP hs => ⟨hs.orderly hsig hP.1, hs.attended hcov hown hP.1 hP.2⟩)
    ⟨orderly_default, attended_of_nobody rfl⟩

/-! ## Equal epochs mean that nothing was cancelled -/

def Act.isInterrupt : Act κ → Bool
  | .interrupt => true
  | _ => false

/-- Fewer than 2^64 cancellations fall between any two looks of a call. -/
def FewInterrupts (call : CallId) (acts : List (Act κ)) : Prop :=
  ∀ part : List (Act κ), part <:+: acts → (∀ o, .resume call o ∉ part) →
    part.countP Act.isInterrupt < UInt64.size

omit [Signal σ] in
/-- A call is parked that entered in `epoch`. -/
def Holds (c : Channel σ) (call : CallId) (epoch : UInt64) : Prop :=
  ∃ p ∈ c.parked, p.call = call ∧ p.epoch = epoch

omit [Signal σ] in
theorem Holds.of_roused {call : CallId} {epoch : UInt64} (hr : Roused c.parked d.parked)
    (h : d.Holds call epoch) : c.Holds call epoch := by
  obtain ⟨q, hq, hcall, hepoch⟩ := h
  obtain ⟨p, hp, hpq⟩ := hr.of_mem hq
  exact ⟨p, hp, hpq.call_eq ▸ hcall, hpq.epoch_eq ▸ hepoch⟩

/-- What an act that is not the entry of a call means for its epoch: each cancellation advances
it, and a look that puts the call to sleep again finds it as it was at the entry. -/
structure Follows (c : Channel σ) (call : CallId) (epoch : UInt64) (a : Act κ) (d : Channel σ) :
    Prop where
  before : c.Holds call epoch
  advance : d.gate.epoch = c.gate.epoch + if a.isInterrupt then 1 else 0
  looked : ∀ o, a = .resume call o → c.gate.epoch = epoch

theorem Entered.follows {call other : CallId} {epoch : UInt64} {o : Option Waited}
    (h : Entered c other d o) (hd : d.Holds call epoch) (hne : other ≠ call) :
    Follows c call epoch (.enter other o : Act κ) d := by
  cases h with
  | looked hl => exact ⟨hd, by rw [hl.epoch_eq]; exact (UInt64.add_zero _).symm, nofun⟩
  | slept hl =>
      refine ⟨?_, by rw [hl.epoch_eq]; exact (UInt64.add_zero _).symm, nofun⟩
      obtain ⟨q, hq, hcall, hepoch⟩ := hd
      rcases List.mem_append.mp hq with hq | hq
      · exact ⟨q, hq, hcall, hepoch⟩
      · obtain rfl := List.mem_singleton.mp hq
        exact absurd hcall hne

theorem Resumed.follows {call : CallId} {epoch : UInt64} {o : Option Waited}
    (h : Resumed c p d o) (hp : p ∈ c.parked) (hd : d.Holds call epoch) :
    Follows c call epoch (.resume p.call o : Act κ) d := by
  -- A call among the others is not the one that looked.
  have hother {q : Parked} (hq : q ∈ c.others p.call) (hcall : q.call = call)
      (hepoch : q.epoch = epoch) (hg : d.gate.epoch = c.gate.epoch) :
      Follows c call epoch (.resume p.call o : Act κ) d := by
    obtain ⟨hq, hne⟩ := List.mem_filter.mp hq
    have hne : q.call ≠ p.call := by simpa using hne
    refine ⟨⟨q, hq, hcall, hepoch⟩, by rw [hg]; exact (UInt64.add_zero _).symm, fun o' e => ?_⟩
    cases e
    exact absurd hcall hne
  obtain ⟨q, hq, hcall, hepoch⟩ := hd
  cases h with
  | looked _ hl => exact hother hq hcall hepoch hl.epoch_eq
  | late => exact hother hq hcall hepoch rfl
  | timedOut => exact hother hq hcall hepoch rfl
  | slept _ hl =>
      rcases List.mem_append.mp hq with hq | hq
      · exact hother hq hcall hepoch hl.epoch_eq
      · obtain rfl := List.mem_singleton.mp hq
        refine ⟨⟨p, hp, hcall, hepoch⟩, ?_, fun _ _ => ?_⟩
        · exact hl.epoch_eq.trans (UInt64.add_zero _).symm
        · cases hl with
          | parked _ _ he => exact he.trans hepoch

theorem Step.follows {own : Channel σ → κ → Channel σ → Prop} (hsig : OnlySignals own)
    {call : CallId} {epoch : UInt64} {a : Act κ} (hs : Step own c a d) (ho : c.Orderly)
    (hd : d.Holds call epoch) (hnew : ∀ o, a ≠ .enter call o) : Follows c call epoch a d := by
  cases hs with
  | enter _ =>
      refine (c.enter_cases _).follows hd fun e => ?_
      subst e
      exact hnew _ rfl
  | resume up => exact (ho.resume_cases up).follows (List.mem_of_mem_filter up) hd
  | stir other =>
      exact ⟨hd.of_roused (c.roused_rouse other (by decide)), (UInt64.add_zero _).symm, nofun⟩
  | lapse other =>
      exact ⟨hd.of_roused (c.roused_rouse other (by decide)), (UInt64.add_zero _).symm, nofun⟩
  | close =>
      have hr := roused_wakeAll { c with gate := c.gate.close }
      exact ⟨hd.of_roused hr, (UInt64.add_zero _).symm, nofun⟩
  | signal hop =>
      obtain ⟨⟨s, hg⟩, hr⟩ := hsig hop
      exact ⟨hd.of_roused hr, by rw [hg]; exact (UInt64.add_zero _).symm, nofun⟩
  | interrupt =>
      have hc : c.Holds call epoch :=
        hd.of_roused (roused_wakeAll { c with gate := c.gate.interrupt })
      refine ⟨hc, ?_, nofun⟩
      have hb : c.gate.blocked ≠ 0 := by
        obtain ⟨p, hp, -⟩ := hc
        rw [ho.blocked]
        exact Nat.ne_of_gt (List.length_pos_of_mem hp)
      show c.gate.interrupt.epoch = _
      rw [Gate.interrupt, if_neg hb]
      rfl

theorem eq_zero_of_add_eq {epoch : UInt64} {n : Nat} (h : epoch + UInt64.ofNat n = epoch)
    (hn : n < UInt64.size) : n = 0 := by
  have hsize : UInt64.size = 18446744073709551616 := rfl
  have hlt := epoch.toNat_lt
  have h := congrArg UInt64.toNat h
  rw [UInt64.toNat_add, UInt64.toNat_ofNat'] at h
  omega

/-- The cancellations since a call's last look are those by which the epoch is ahead of the call;
before that look there were none. -/
theorem sinceLook_of_run {own : Channel σ → κ → Channel σ → Prop} (hsig : OnlySignals own)
    {call : CallId} {epoch : UInt64} {acts : List (Act κ)} (h : Run (Step own) c acts d)
    (ho : c.Orderly) (hstart : c.gate.epoch = epoch) (hnew : ∀ o, .enter call o ∉ acts)
    (hfew : FewInterrupts call acts) (hd : d.Holds call epoch) :
    ∃ before since, acts = before ++ since ∧ before.countP Act.isInterrupt = 0 ∧
      (∀ o, .resume call o ∉ since) ∧
      d.gate.epoch = epoch + UInt64.ofNat (since.countP Act.isInterrupt) := by
  induction h with
  | nil =>
      exact ⟨[], [], rfl, rfl, fun _ => List.not_mem_nil, hstart.trans (UInt64.add_zero _).symm⟩
  | @snoc acts t u a hrun hs ih =>
      have hf := hs.follows hsig (hrun.preserves (fun hc hs => hs.orderly hsig hc) ho) hd
        fun o e => hnew o (by simp [e])
      have hfront : acts <:+: acts ++ [a] := List.infix_append_left
      obtain ⟨before, since, rfl, hbefore, hsince, hepoch⟩ :=
        ih (fun o hm => hnew o (List.mem_append_left _ hm))
          (fun part hpart => hfew part (hpart.trans hfront)) hf.before
      by_cases hlook : ∃ o, a = .resume call o
      · -- The call looked and went back to sleep, so the epoch was that of its entry.
        obtain ⟨o, rfl⟩ := hlook
        have hnone : since.countP Act.isInterrupt = 0 :=
          eq_zero_of_add_eq (hepoch.symm.trans (hf.looked o rfl))
            (hfew since ⟨before, [.resume call o], rfl⟩ hsince)
        refine ⟨before ++ since ++ [.resume call o], [], (List.append_nil _).symm, ?_,
          fun _ => List.not_mem_nil, ?_⟩
        · rw [List.countP_append, List.countP_append, hbefore, hnone]
          rfl
        · rw [hf.advance, hf.looked o rfl]
          rfl
      · refine ⟨before, since ++ [a], List.append_assoc .., hbefore, ?_, ?_⟩
        · intro o hm
          rcases List.mem_append.mp hm with hm | hm
          · exact hsince o hm
          · exact hlook ⟨o, (List.mem_singleton.mp hm).symm⟩
        · rw [hf.advance, hepoch, List.countP_append, UInt64.ofNat_add, UInt64.add_assoc]
          cases a <;> rfl

theorem holds_of_run {own : Channel σ → κ → Channel σ → Prop} (hsig : OnlySignals own)
    {call : CallId} {epoch : UInt64} {acts : List (Act κ)} (h : Run (Step own) c acts d)
    (ho : c.Orderly) (hnew : ∀ o, .enter call o ∉ acts) (hd : d.Holds call epoch) :
    c.Holds call epoch := by
  induction h with
  | nil => exact hd
  | snoc hrun hs ih =>
      have hf := hs.follows hsig (hrun.preserves (fun hc hs => hs.orderly hsig hc) ho) hd
        fun o e => hnew o (by simp [e])
      exact ih (fun o hm => hnew o (List.mem_append_left _ hm)) hf.before

/-- A call that enters and has no outcome is parked in the current epoch. -/
theorem Step.of_enter_none {own : Channel σ → κ → Channel σ → Prop} {call : CallId}
    (hs : Step own c (.enter call none) d) :
    d.gate.epoch = c.gate.epoch ∧ ⟨call, c.gate.epoch, .asleep⟩ ∈ d.parked := by
  generalize hact : (Act.enter call none : Act κ) = act at hs
  cases hs with
  | @enter other _ =>
      have he := c.enter_cases other
      obtain ⟨rfl, hnone⟩ := Act.enter.inj hact
      rw [← hnone] at he
      generalize (c.enter call).1 = d at he ⊢
      cases he with
      | slept hl => exact ⟨hl.epoch_eq, List.mem_append_right _ List.mem_cons_self⟩
  | _ => cases hact

/-- Between the entry of a call and a moment at which it sleeps un-woken nothing was cancelled. -/
theorem noInterrupt_of_asleep [Inhabited σ] (hcov : Covering covers)
    {own : Channel σ → κ → Channel σ → Prop} (hsig : OnlySignals own)
    (hown : ∀ {c d op}, own c op d → Attended covers c → Attended covers d)
    {before after : List (Act κ)}
    (h : Run (Step own) default (before ++ .enter p.call none :: after) d)
    (hnew : ∀ o, .enter p.call o ∉ after) (hfew : FewInterrupts p.call after)
    (hp : p ∈ d.asleep) : .interrupt ∉ after := by
  obtain ⟨-, hatt⟩ := attended_of_run hcov hsig hown h
  obtain ⟨b, hb, hrest⟩ := h.of_append
  obtain ⟨c, henter, hafter⟩ := hrest.of_cons
  have hco : c.Orderly :=
    henter.orderly hsig (hb.preserves (fun hc hs => hs.orderly hsig hc) orderly_default)
  have hd : d.Holds p.call p.epoch := ⟨p, (mem_asleep.mp hp).1, rfl, rfl⟩
  have hstart : c.gate.epoch = p.epoch := by
    obtain ⟨q, hq, hqcall, hqepoch⟩ := holds_of_run hsig hafter hco hnew hd
    obtain ⟨hsame, hmem⟩ := henter.of_enter_none
    obtain rfl := hco.eq_of_call hmem hq hqcall
    exact hsame.trans hqepoch
  obtain ⟨older, since, rfl, holder, hsince, hepoch⟩ :=
    sinceLook_of_run hsig hafter hco hstart hnew hfew hd
  have hnone : since.countP Act.isInterrupt = 0 :=
    eq_zero_of_add_eq (hepoch.symm.trans (hatt p hp).current.symm)
      (hfew since ⟨older, [], List.append_nil _⟩ hsince)
  intro hm
  have hpos : 0 < (older ++ since).countP Act.isInterrupt :=
    List.countP_pos_iff.mpr ⟨_, hm, rfl⟩
  rw [List.countP_append] at hpos
  omega

/-- If fewer than 2^64 cancellations fell between any two of its looks, nothing was cancelled since
the last entry of a call. -/
def Uncancelled (call : CallId) (acts : List (Act κ)) : Prop :=
  ∀ before after, acts = before ++ .enter call none :: after → (∀ o, .enter call o ∉ after) →
    FewInterrupts call after → .interrupt ∉ after

end Channel

/-! ## Semaphores and event flags -/

open Channel

theorem Semaphore.covering_count : Covering fun n (u : Units) => u.count.toNat ≤ n where
  spent {n u} hr := by
    have : u.count = 0 := by simpa [Signal.ready] using hr
    simp [this]
  more h := Nat.le_succ_of_le h
  take {n u} hr h := by
    have hne : u.count ≠ 0 := by simpa [Signal.ready] using hr
    have hpos : 1 ≤ u.count := by
      rw [UInt32.le_iff_toNat_le]
      exact Nat.one_le_iff_ne_zero.mpr fun e => hne (UInt32.toNat_inj.mp e)
    show (u.count - 1).toNat ≤ n
    rw [UInt32.toNat_sub_of_le _ _ hpos]
    exact Nat.sub_le_of_le_add h

theorem Semaphore.Own.attended {s t : Semaphore} {op : Semaphore.Op} (h : Semaphore.Own s op t)
    (hs : Attended (fun n (u : Units) => u.count.toNat ≤ n) s) :
    Attended (fun n (u : Units) => u.count.toNat ≤ n) t := by
  cases h with
  | arm count => exact attended_of_nobody (asleep_wakeAll _)
  | @up target ht =>
    cases target with
    | none => exact attended_of_nobody ht
    | some call =>
      intro q hq
      obtain ⟨hq, hstage⟩ := mem_asleep.mp hq
      obtain ⟨p, hp, hpq⟩ := (s.roused_rouse call (by decide)).of_mem hq
      obtain rfl := hpq.eq_of_asleep hstage
      have hold := hs q (mem_asleep.mpr ⟨hp, hstage⟩)
      refine ⟨hold.opened, hold.current, ?_⟩
      have hcount : s.count.toNat ≤ awake s.parked := hold.covered
      have hup : awake s.parked < awake (s.wake call).parked := s.awake_lt_wake ht
      show (Word.saturatingSucc s.count).toNat ≤ awake (s.wake call).parked
      rw [Word.toNat_saturatingSucc]
      omega

theorem EventFlag.covering_lowered : Covering fun _ (f : Flag) => f.raised = false where
  spent hr := hr
  more h := h
  take _ _ := rfl

theorem EventFlag.Own.attended {e f : EventFlag} {op : EventFlag.Op} (h : EventFlag.Own e op f)
    (he : Attended (fun _ (f : Flag) => f.raised = false) e) :
    Attended (fun _ (f : Flag) => f.raised = false) f := by
  cases h with
  | set => exact attended_of_nobody (asleep_wakeAll _)
  | clear => exact fun p hp => ⟨(he p hp).opened, (he p hp).current, rfl⟩

/-- **No wake-up is lost.**  After any run of a semaphore or an event flag, whoever sleeps un-woken
sleeps at an open primitive, was not cancelled, and waits for something that is not there: the
units of a semaphore are at most as many as the calls that are on their way to them, and an event
flag is down.  Once nobody is on the way, a signal that is there means that nobody sleeps. -/
theorem no_lost_wakeup :
    (∀ {acts : List (Act Semaphore.Op)} {s : Semaphore}, Run Semaphore.Step default acts s →
      (∀ p ∈ s.asleep, s.gate.closed = false ∧ p.epoch = s.gate.epoch ∧
        Uncancelled p.call acts ∧ s.count.toNat ≤ s.returning.length) ∧
      (s.returning = [] → s.count ≠ 0 → s.asleep = [])) ∧
    (∀ {acts : List (Act EventFlag.Op)} {e : EventFlag}, Run EventFlag.Step default acts e →
      (∀ p ∈ e.asleep, e.gate.closed = false ∧ p.epoch = e.gate.epoch ∧
        Uncancelled p.call acts ∧ e.isSet = false) ∧
      (e.isSet = true → e.asleep = [])) := by
  constructor
  · intro acts s h
    obtain ⟨-, hatt⟩ := attended_of_run Semaphore.covering_count Semaphore.onlySignals_own
      Semaphore.Own.attended h
    refine ⟨fun p hp => ⟨(hatt p hp).opened, (hatt p hp).current, ?_, ?_⟩, ?_⟩
    · rintro before after rfl hnew hfew
      exact noInterrupt_of_asleep Semaphore.covering_count Semaphore.onlySignals_own
        Semaphore.Own.attended h hnew hfew hp
    · rw [s.length_returning]
      exact (hatt p hp).covered
    · intro hnone hcount
      refine List.eq_nil_iff_forall_not_mem.mpr fun p hp => hcount ?_
      have hle : s.count.toNat ≤ awake s.parked := (hatt p hp).covered
      rw [← s.length_returning, hnone] at hle
      exact UInt32.toNat_inj.mp (Nat.le_zero.mp hle)
  · intro acts e h
    obtain ⟨-, hatt⟩ := attended_of_run EventFlag.covering_lowered EventFlag.onlySignals_own
      EventFlag.Own.attended h
    refine ⟨fun p hp => ⟨(hatt p hp).opened, (hatt p hp).current, ?_, (hatt p hp).covered⟩, ?_⟩
    · rintro before after rfl hnew hfew
      exact noInterrupt_of_asleep EventFlag.covering_lowered EventFlag.onlySignals_own
        EventFlag.Own.attended h hnew hfew hp
    · intro hset
      refine List.eq_nil_iff_forall_not_mem.mpr fun p hp => ?_
      have hlow : e.isSet = false := (hatt p hp).covered
      rw [hset] at hlow
      exact nomatch hlow

/-- Two calls sleep, a unit comes, and one of them is on its way to it; at an event flag one call
sleeps on. -/
theorem no_lost_wakeup_two_sleepers :
    (∃ (acts : List (Act Semaphore.Op)) (s : Semaphore), Run Semaphore.Step default acts s ∧
      s.asleep = [⟨⟨1⟩, 0, .asleep⟩] ∧ s.count.toNat = 1 ∧
      s.count.toNat ≤ s.returning.length) ∧
    (∃ (acts : List (Act EventFlag.Op)) (e : EventFlag), Run EventFlag.Step default acts e ∧
      e.asleep = [⟨⟨0⟩, 0, .asleep⟩] ∧ e.isSet = false) := by
  constructor
  · have hrun : Run Semaphore.Step default
        [.enter ⟨0⟩ none, .enter ⟨1⟩ none, .signal (.up (some ⟨0⟩))]
        (Semaphore.upWaking
          ((Channel.enter ((Channel.enter default ⟨0⟩).1 : Semaphore) ⟨1⟩).1) (some ⟨0⟩)) :=
      .snoc (.snoc (.snoc .nil (.enter rfl)) (.enter rfl))
        (.signal (.up ⟨_, List.mem_cons_self, rfl⟩))
    exact ⟨_, _, hrun, rfl, rfl, ((no_lost_wakeup.1 hrun).1 _ List.mem_cons_self).2.2.2⟩
  · have hrun : Run EventFlag.Step default [.enter ⟨0⟩ none]
        (Channel.enter (default : EventFlag) ⟨0⟩).1 := .snoc .nil (.enter rfl)
    exact ⟨_, _, hrun, rfl, ((no_lost_wakeup.2 hrun).1 _ List.mem_cons_self).2.2.2⟩

end PeerBus
