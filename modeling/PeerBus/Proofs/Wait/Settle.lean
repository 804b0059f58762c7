/-
# `PeerBus.Proofs.Wait.Settle` — what an operation comes to once everybody has looked

A primitive is *settled* when nobody is on the way back to its gate.  An operation on a settled
primitive puts some calls on their way, and these look again in any order:

    operation          nobody blocked                  n calls blocked, n > 0
    up                 one unit more, unless full      one call gets the unit
    arm c              the count is c                  min c n calls get a unit, the others stay
    set                the flag is up                  one call takes the flag, the others stay
    clear              the flag is down                the flag is down
    interrupt          the cancellation is pending     n calls are interrupted, nothing is pending
    close              closed                          n calls find it closed

**The order does not matter** because the calls cannot be told apart at the gate: in a settled state
whoever is blocked entered in the current epoch (`Settled.current`), so each turn is the same
function of the gate, whichever call takes it (`Gathered.turn`).  The gate after `k` turns, and the
outcomes up to then, are those of `k` looks in a row (`Gate.reruns`, `Gathered.run`); what remains is
to compute these.  And every turn takes one call off the way, so there are exactly as many turns as
calls that were woken.
-/
import PeerBus.Proofs.Wait.Cancel

namespace PeerBus

/-! ## Looks in a row -/

namespace Gate

variable {σ : Type} [Signal σ] {g : Gate σ} {epoch : UInt64}

/-- Calls that entered in one epoch look one after the other: the gate that they leave, and their
outcomes. -/
def reruns (epoch : UInt64) : Nat → Gate σ → Gate σ × List Waited
  | 0, g => (g, [])
  | n + 1, g =>
      let first := g.rerun epoch
      let others := reruns epoch n first.1
      (others.1, first.2.toList ++ others.2)

theorem reruns_succ {n : Nat} {first : Gate σ} {o : Option Waited}
    (h : g.rerun epoch = (first, o)) :
    g.reruns epoch (n + 1) = ((first.reruns epoch n).1, o.toList ++ (first.reruns epoch n).2) := by
  simp only [reruns, h]

/-- Nothing keeps the calls of an epoch from the signal, or from sleep if there is no signal. -/
structure Calm (g : Gate σ) (epoch : UInt64) : Prop where
  opened : g.closed = false
  low : g.pending = false
  current : g.epoch = epoch

theorem Calm.rerun_ready (h : g.Calm epoch) (hr : Signal.ready g.signal = true) :
    g.rerun epoch =
      ({ g with signal := Signal.take g.signal, blocked := g.blocked - 1 }, some (.ok ())) := by
  simp [rerun, unpark, look, h.opened, hr]

theorem Calm.rerun_spent (h : g.Calm epoch) (hr : Signal.ready g.signal = false)
    (hb : 0 < g.blocked) : g.rerun epoch = (g, none) := by
  have hback : g.blocked - 1 + 1 = g.blocked := Nat.sub_add_cancel hb
  unfold rerun unpark look
  rw [if_neg (by simp [h.opened]), if_neg (by simp [hr]), if_neg (by simp [h.current]),
    if_neg (by simp [h.low]), hback]

/-- Where there is nothing to take, everybody goes back to sleep. -/
theorem Calm.reruns_spent (h : g.Calm epoch) (hr : Signal.ready g.signal = false) {n : Nat}
    (hb : n ≤ g.blocked) : g.reruns epoch n = (g, []) := by
  induction n with
  | zero => rfl
  | succ n ih =>
      rw [reruns_succ (h.rerun_spent hr (by omega)), ih (by omega)]
      rfl

/-- Where every look ends alike and changes nothing, everybody leaves with that outcome. -/
theorem reruns_of_look {o : Waited}
    (h : ∀ b, look { g with blocked := b } epoch = ({ g with blocked := b }, some o)) (n : Nat) :
    g.reruns epoch n = ({ g with blocked := g.blocked - n }, List.replicate n o) := by
  induction n generalizing g with
  | zero => rfl
  | succ n ih =>
      have hfirst : g.rerun epoch = ({ g with blocked := g.blocked - 1 }, some o) := h _
      have hothers := ih (g := { g with blocked := g.blocked - 1 }) h
      rw [reruns_succ hfirst, hothers, Nat.sub_sub, Nat.add_comm 1 n]
      rfl

theorem reruns_closed (hc : g.closed = true) (n : Nat) :
    g.reruns epoch n =
      ({ g with blocked := g.blocked - n }, List.replicate n (.error .closed)) :=
  reruns_of_look (fun b => by simp [look, hc]) n

theorem reruns_cancelled (hc : g.closed = false) (hr : Signal.ready g.signal = false)
    (he : g.epoch ≠ epoch) (n : Nat) :
    g.reruns epoch n =
      ({ g with blocked := g.blocked - n }, List.replicate n (.error .interrupted)) :=
  reruns_of_look (fun b => by simp [look, hc, hr, he]) n

end Gate

/-- Of `n` looks as many take a unit as there are units. -/
theorem Gate.Calm.reruns_units {g : Gate Units} {epoch : UInt64} (h : g.Calm epoch) {n : Nat}
    (hb : n ≤ g.blocked) :
    g.reruns epoch n =
      ({ g with
          signal := ⟨UInt32.ofNat (g.signal.count.toNat - min g.signal.count.toNat n)⟩
          blocked := g.blocked - min g.signal.count.toNat n },
        List.replicate (min g.signal.count.toNat n) (.ok ())) := by
  induction n generalizing g with
  | zero => simp [reruns]
  | succ n ih =>
      cases hr : Signal.ready g.signal with
      | false =>
          have hzero : g.signal.count = 0 := by simpa [Signal.ready] using hr
          have hsignal : g.signal = ⟨0⟩ := congrArg Units.mk hzero
          rw [h.reruns_spent hr hb, hzero]
          simp [← hsignal]
      | true =>
          have htake : (Signal.take g.signal).count.toNat + 1 = g.signal.count.toNat :=
            Semaphore.toNat_take hr
          have hcalm : Gate.Calm
              { g with signal := Signal.take g.signal, blocked := g.blocked - 1 } epoch :=
            ⟨h.opened, h.low, h.current⟩
          have hmin : min g.signal.count.toNat (n + 1) =
              min (Signal.take g.signal).count.toNat n + 1 := by omega
          rw [reruns_succ (h.rerun_ready hr), ih hcalm (by show n ≤ g.blocked - 1; omega), hmin,
            ← htake, Nat.add_sub_add_right, Nat.sub_sub, Nat.add_comm 1]
          rfl

namespace Channel

variable {σ κ : Type} [Signal σ] {own : Channel σ → κ → Channel σ → Prop} {c d : Channel σ}
  {a : Act κ} {acts : List (Act κ)} {epoch : UInt64}

/-! ## Turns -/

/-- Whether an act is a look of a call that left its sleep. -/
def Act.isResume : Act κ → Bool
  | .resume _ _ => true
  | .enter _ _ | .stir _ | .lapse _ | .interrupt | .close | .signal _ => false

/-- One of the calls on their way back looks again. -/
def Turn (own : Channel σ → κ → Channel σ → Prop) (c : Channel σ) (a : Act κ) (d : Channel σ) :
    Prop :=
  Step own c a d ∧ a.isResume = true

/-- In whatever order the calls on their way take their turns: these end, with these outcomes and
this gate. -/
structure Settles (own : Channel σ → κ → Channel σ → Prop) (c : Channel σ)
    (outcomes : List Waited) (rest : Gate σ) : Prop where
  /-- Every turn takes one call off the way. -/
  ends {acts : List (Act κ)} {d : Channel σ} : Run (Turn own) c acts d →
    acts.length + d.returning.length = c.returning.length
  /-- While a call is on its way, it can take its turn. -/
  goes {acts : List (Act κ)} {d : Channel σ} {p : Parked} : Run (Turn own) c acts d →
    p ∈ d.returning → ∃ o e, Turn own d (.resume p.call o) e
  rests {acts : List (Act κ)} {d : Channel σ} : Run (Turn own) c acts d → d.returning = [] →
    acts.filterMap Act.outcome? = outcomes ∧ d.gate = rest ∧ d.asleep.length = rest.blocked

/-- Everybody on the way was woken, and entered in this epoch. -/
structure Gathered (epoch : UInt64) (c : Channel σ) : Prop where
  orderly : c.Orderly
  woken : ∀ p ∈ c.returning, p.stage = .woken ∧ p.epoch = epoch

omit [Signal σ] in
/-- Nobody is on the way who was not before. -/
theorem Gathered.of_others (h : Gathered epoch c) (call : CallId) (hd : d.Orderly)
    (hleft : ∀ q ∈ d.parked, q ∈ c.others call ∨ q.stage = .asleep) : Gathered epoch d := by
  refine ⟨hd, fun q hq => ?_⟩
  obtain ⟨hq, hup⟩ := List.mem_filter.mp hq
  rcases hleft q hq with hq | hasleep
  · exact h.woken q (List.mem_filter.mpr ⟨List.mem_of_mem_filter hq, hup⟩)
  · exact absurd hasleep (by simpa using hup)

/-- Whichever call takes its turn, the gate and the outcome are the same. -/
theorem Gathered.turn (h : Gathered epoch c) (ht : Turn own c a d) :
    Gathered epoch d ∧ c.gate.rerun epoch = (d.gate, a.outcome?) ∧
      d.returning.length + 1 = c.returning.length := by
  obtain ⟨hs, hresume⟩ := ht
  cases hs with
  | enter | stir | lapse | interrupt | close | signal => exact nomatch hresume
  | @resume p up =>
      have hmem := List.mem_of_mem_filter up
      have hleft := h.orderly.awake_others up
      have hd := h.orderly.resumed hmem (h.orderly.resume_cases up)
      obtain ⟨hwoken, hepoch⟩ := h.woken p up
      rw [length_returning, length_returning, hleft]
      unfold resume at hd ⊢
      simp only [h.orderly.find?_eq hmem, hwoken, hepoch] at hd ⊢
      generalize c.gate.rerun epoch = look at hd ⊢
      rcases look with ⟨g, _ | o⟩
      · refine ⟨h.of_others p.call hd fun q hq => ?_, rfl, ?_⟩
        · rcases List.mem_append.mp hq with hq | hq
          · exact .inl hq
          · exact .inr (List.mem_singleton.mp hq ▸ rfl)
        · show awake (c.others p.call ++ [_]) + 1 = _
          rw [awake_append]
          rfl
      · exact ⟨h.of_others p.call hd fun q hq => .inl hq, rfl, rfl⟩

/-- The turns of a run are looks in a row. -/
theorem Gathered.run (h : Gathered epoch c) (hr : Run (Turn own) c acts d) :
    Gathered epoch d ∧
      c.gate.reruns epoch acts.length = (d.gate, acts.filterMap Act.outcome?) ∧
      acts.length + d.returning.length = c.returning.length := by
  induction acts generalizing c with
  | nil =>
      obtain rfl := hr.eq_of_nil
      exact ⟨h, rfl, Nat.zero_add _⟩
  | cons a acts ih =>
      obtain ⟨b, hfirst, hrest⟩ := hr.of_cons
      obtain ⟨hb, hlook, hone⟩ := h.turn hfirst
      obtain ⟨hd, hlooks, hlength⟩ := ih hb hrest
      refine ⟨hd, ?_, ?_⟩
      · rw [List.length_cons, Gate.reruns_succ hlook, hlooks, List.filterMap_cons]
        cases a.outcome? <;> rfl
      · rw [List.length_cons]
        omega

omit [Signal σ] in
theorem Orderly.length_asleep (h : c.Orderly) (hnone : c.returning = []) :
    c.asleep.length = c.gate.blocked := by
  have hall : c.asleep = c.parked := by
    refine List.filter_eq_self.mpr fun p hp => ?_
    have := List.filter_eq_nil_iff.mp hnone p hp
    simpa using this
  rw [hall, h.blocked]

theorem Gathered.settles (h : Gathered epoch c) {n : Nat} {outcomes : List Waited} {rest : Gate σ}
    (hn : c.returning.length = n) (hlooks : c.gate.reruns epoch n = (rest, outcomes)) :
    Settles own c outcomes rest where
  ends hr := (h.run hr).2.2
  goes _ hp := ⟨_, _, .resume hp, rfl⟩
  rests hr hnone := by
    obtain ⟨hd, hrun, hlength⟩ := h.run hr
    rw [hnone, List.length_nil, Nat.add_zero, hn] at hlength
    rw [hlength, hlooks] at hrun
    obtain ⟨rfl, rfl⟩ := Prod.mk.inj hrun
    exact ⟨rfl, rfl, hd.orderly.length_asleep hnone⟩

/-! ## Settled states -/

/-- Nobody is on the way back to the gate, and those who are blocked rightly are. -/
structure Settled (c : Channel σ) : Prop where
  orderly : c.Orderly
  nobody : c.returning = []
  current : ∀ p ∈ c.parked, p.epoch = c.gate.epoch
  calm : 0 < c.gate.blocked → c.gate.Calm c.gate.epoch
  spent : 0 < c.gate.blocked → Signal.ready c.gate.signal = false

theorem settled_of_run [Inhabited σ] {covers : Nat → σ → Prop} (hcov : Covering covers)
    (hzero : ∀ s, covers 0 s → Signal.ready s = false) (hsig : OnlySignals own)
    (hown : ∀ {c d op}, own c op d → Attended covers c → Attended covers d)
    (hr : Run (Step own) default acts c) (hnone : c.returning = []) : Settled c := by
  obtain ⟨ho, hatt⟩ := attended_of_run hcov hsig hown hr
  have hasleep : ∀ p ∈ c.parked, p ∈ c.asleep := by
    intro p hp
    have := List.filter_eq_nil_iff.mp hnone p hp
    exact mem_asleep.mpr ⟨hp, by simpa using this⟩
  have hsome (hb : 0 < c.gate.blocked) : ∃ p ∈ c.parked, Attends covers c p := by
    rw [ho.blocked] at hb
    obtain ⟨p, hp⟩ := List.exists_mem_of_length_pos hb
    exact ⟨p, hp, hatt p (hasleep p hp)⟩
  refine
    { orderly := ho
      nobody := hnone
      current := fun p hp => (hatt p (hasleep p hp)).current
      calm := fun hb => ?_
      spent := fun hb => ?_ }
  · obtain ⟨p, hp, hattends⟩ := hsome hb
    have hlow : c.gate.pending = false :=
      eq_false_of_ne_true fun hpend =>
        List.ne_nil_of_mem hp ((Tracked.of_new hsig hr).calm hpend)
    exact ⟨hattends.opened, hlow, rfl⟩
  · obtain ⟨p, -, hattends⟩ := hsome hb
    refine hzero _ ?_
    rw [show 0 = awake c.parked by rw [← c.length_returning, hnone]; rfl]
    exact hattends.covered

namespace Settled

omit [Signal σ] in
theorem returning_wakeAll (c : Channel σ) : c.wakeAll.returning = c.wakeAll.parked := by
  refine List.filter_eq_self.mpr fun q hq => ?_
  obtain ⟨p, -, rfl⟩ := List.mem_map.mp hq
  by_cases hp : p.stage = .asleep <;> simp [hp]

/-- A change of the gate that wakes everybody. -/
theorem wakeAll (h : Settled c) {g : Gate σ} (hb : g.blocked = c.gate.blocked) :
    Gathered c.gate.epoch (Channel.wakeAll { c with gate := g }) ∧
      (Channel.wakeAll { c with gate := g }).returning.length = c.gate.blocked := by
  have hroused := roused_wakeAll { c with gate := g }
  have ho := h.orderly.of_roused (d := Channel.wakeAll { c with gate := g }) hb hroused
  refine ⟨⟨ho, fun q hq => ?_⟩, ?_⟩
  · obtain ⟨p, hp, rfl⟩ := List.mem_map.mp (List.mem_of_mem_filter hq)
    have hasleep : p.stage = .asleep := by
      have := List.filter_eq_nil_iff.mp h.nobody p hp
      simpa using this
    rw [if_pos hasleep]
    exact ⟨rfl, h.current p hp⟩
  · rw [returning_wakeAll, ← ho.blocked]
    exact hb

/-- A change of the gate that wakes one of those who sleep. -/
theorem wake (h : Settled c) {g : Gate σ} (hb : g.blocked = c.gate.blocked) {p : Parked}
    (hp : p ∈ c.asleep) :
    Gathered c.gate.epoch (Channel.wake { c with gate := g } p.call) ∧
      (Channel.wake { c with gate := g } p.call).returning.length = 1 := by
  obtain ⟨hmem, hasleep⟩ := mem_asleep.mp hp
  have ho := h.orderly.of_roused (d := Channel.wake { c with gate := g } p.call) hb
    ({ c with gate := g : Channel σ }.roused_rouse p.call (by decide))
  have hsleep : ∀ q ∈ c.parked, q.stage = .asleep := by
    intro q hq
    have := List.filter_eq_nil_iff.mp h.nobody q hq
    simpa using this
  refine ⟨⟨ho, fun q hq => ?_⟩, ?_⟩
  · obtain ⟨hq, hup⟩ := List.mem_filter.mp hq
    obtain ⟨r, hr, rfl⟩ := List.mem_map.mp hq
    by_cases hcall : r.call = p.call ∧ r.stage = .asleep
    · rw [if_pos hcall]
      exact ⟨rfl, h.current r hr⟩
    · rw [if_neg hcall] at hup
      exact absurd (hsleep r hr) (by simpa using hup)
  · -- Calls are distinct, so it is one entry that the waking changes.
    have hothers : (c.others p.call).map (fun q =>
        if q.call = p.call ∧ q.stage = .asleep then { q with stage := .woken } else q) =
          c.others p.call := by
      refine (List.map_congr_left fun q hq => ?_).trans (List.map_id _)
      have hne : q.call ≠ p.call := by simpa using (List.mem_filter.mp hq).2
      exact if_neg fun hcall => hne hcall.1
    have hperm := (h.orderly.perm_cons_others hmem).map fun q : Parked =>
      if q.call = p.call ∧ q.stage = .asleep then { q with stage := .woken } else q
    rw [List.map_cons, hothers, if_pos ⟨rfl, hasleep⟩] at hperm
    have hawake : awake (c.others p.call) = 0 :=
      List.countP_eq_zero.mpr fun q hq => by simp [hsleep q (List.mem_of_mem_filter hq)]
    calc (Channel.wake { c with gate := g } p.call).returning.length
        = awake _ := length_returning _
      _ = awake ({ p with stage := .woken } :: c.others p.call) := hperm.countP_eq _
      _ = 1 := by rw [awake_cons, hawake]; rfl

/-- An operation that wakes nobody, where nobody is to be woken. -/
theorem still (h : Settled c) {g : Gate σ} (hb : g.blocked = c.gate.blocked) :
    Settles own { c with gate := g } [] g := by
  have hgathered : Gathered c.gate.epoch { c with gate := g } := by
    refine ⟨⟨h.orderly.distinct, hb.trans h.orderly.blocked⟩, fun p hp => ?_⟩
    have hp : p ∈ c.returning := hp
    rw [h.nobody] at hp
    exact nomatch hp
  refine hgathered.settles (n := 0) ?_ rfl
  exact congrArg List.length h.nobody

end Settled

/-! ## Cancelling and closing -/

/-- What can be said of every primitive in a settled state, and of what its cancelling and its
closing come to. -/
structure Releases (own : Channel σ → κ → Channel σ → Prop) (c : Channel σ) : Prop where
  counted : c.asleep.length = c.gate.blocked
  idle : 0 < c.gate.blocked →
    c.gate.closed = false ∧ c.gate.pending = false ∧ Signal.ready c.gate.signal = false
  interrupt : 0 < c.gate.blocked →
    Settles own c.interrupt (List.replicate c.gate.blocked (.error .interrupted))
      { c.gate with epoch := c.gate.epoch + 1, pending := false, blocked := 0 }
  interrupt_nobody : c.gate.blocked = 0 →
    Settles own c.interrupt [] { c.gate with pending := true }
  close : Settles own c.close (List.replicate c.gate.blocked (.error .closed))
    { c.gate with closed := true, blocked := 0 }

theorem Settled.releases (h : Settled c) : Releases own c where
  counted := h.orderly.length_asleep h.nobody
  idle hb := ⟨(h.calm hb).opened, (h.calm hb).low, h.spent hb⟩
  interrupt hb := by
    have hgate : c.gate.interrupt = { c.gate with epoch := c.gate.epoch + 1 } :=
      if_neg (Nat.ne_of_gt hb)
    obtain ⟨hgathered, hlength⟩ := h.wakeAll (g := c.gate.interrupt) (by rw [hgate])
    refine hgathered.settles hlength ?_
    have hnew : c.gate.epoch + 1 ≠ c.gate.epoch := by
      intro e
      exact absurd (eq_zero_of_add_eq (n := 1) e (by decide)) (by decide)
    have hlooks := Gate.reruns_cancelled (g := { c.gate with epoch := c.gate.epoch + 1 })
      (h.calm hb).opened (h.spent hb) hnew c.gate.blocked
    show c.gate.interrupt.reruns _ _ = _
    rw [hgate, ← (h.calm hb).low]
    rw [Nat.sub_self] at hlooks
    exact hlooks
  interrupt_nobody hb := by
    have hgate : c.gate.interrupt = { c.gate with pending := true } := if_pos hb
    obtain ⟨hgathered, hlength⟩ := h.wakeAll (g := c.gate.interrupt) (by rw [hgate])
    refine hgathered.settles (hlength.trans hb) ?_
    show (c.gate.interrupt, _) = _
    rw [hgate]
  close := by
    obtain ⟨hgathered, hlength⟩ := h.wakeAll (g := c.gate.close) rfl
    refine hgathered.settles hlength ?_
    show c.gate.close.reruns _ _ = _
    rw [Gate.reruns_closed rfl]
    simp [Gate.close]

end Channel

/-! ## Semaphores and event flags -/

open Channel

/-- What each operation of a semaphore comes to. -/
structure Semaphore.Releases (s : Semaphore) : Prop extends Channel.Releases Semaphore.Own s where
  up {target : Option CallId} {t : Semaphore} : Semaphore.Own s (.up target) t →
    0 < s.gate.blocked →
    Settles Semaphore.Own t [.ok ()]
      { s.gate with signal := ⟨0⟩, blocked := s.gate.blocked - 1 }
  up_nobody {target : Option CallId} {t : Semaphore} : Semaphore.Own s (.up target) t →
    s.gate.blocked = 0 →
    Settles Semaphore.Own t [] { s.gate with signal := ⟨Word.saturatingSucc s.count⟩ }
  arm (count : UInt32) :
    Settles Semaphore.Own (s.arm count)
      (List.replicate (min count.toNat s.gate.blocked) (.ok ()))
      { s.gate with
          signal := ⟨UInt32.ofNat (count.toNat - min count.toNat s.gate.blocked)⟩
          blocked := s.gate.blocked - min count.toNat s.gate.blocked }

theorem Semaphore.releases_of_settled {s : Semaphore} (h : Settled s) : s.Releases where
  toReleases := h.releases
  up := by
    intro target t hop hb
    cases hop with
    | up hreaches =>
    cases target with
    | none =>
        have hnone : s.asleep = [] := hreaches
        rw [← h.orderly.length_asleep h.nobody, hnone] at hb
        exact absurd hb (Nat.lt_irrefl 0)
    | some call =>
        obtain ⟨p, hp, rfl⟩ := hreaches
        obtain ⟨hgathered, hlength⟩ := h.wake (g := s.gate.up) rfl hp
        refine hgathered.settles hlength ?_
        have hempty : s.gate.signal.count = 0 := by simpa [Signal.ready] using h.spent hb
        have hcalm : s.gate.up.Calm s.gate.epoch :=
          ⟨(h.calm hb).opened, (h.calm hb).low, rfl⟩
        have hunit : s.gate.up.signal = ⟨1⟩ := by
          show Units.mk (Word.saturatingSucc s.gate.signal.count) = _
          rw [hempty]
          rfl
        show s.gate.up.reruns _ 1 = _
        rw [Gate.reruns_succ (hcalm.rerun_ready (by rw [hunit]; rfl)), hunit]
        rfl
  up_nobody := by
    intro target t hop hb
    have hnobody : s.asleep = [] :=
      List.length_eq_zero_iff.mp ((h.orderly.length_asleep h.nobody).trans hb)
    cases hop with
    | up hreaches =>
    cases target with
    | none => exact h.still (g := s.gate.up) rfl
    | some call =>
        obtain ⟨p, hp, -⟩ := hreaches
        rw [hnobody] at hp
        exact nomatch hp
  arm count := by
    obtain ⟨hgathered, hlength⟩ := h.wakeAll (g := s.gate.put ⟨count⟩) rfl
    refine hgathered.settles hlength ?_
    show (s.gate.put ⟨count⟩).reruns _ _ = _
    rcases Nat.eq_zero_or_pos s.gate.blocked with hb | hb
    · simp [hb, Gate.reruns, Gate.put]
    · have hcalm : (s.gate.put ⟨count⟩).Calm s.gate.epoch :=
        ⟨(h.calm hb).opened, (h.calm hb).low, rfl⟩
      exact hcalm.reruns_units (Nat.le_refl _)

/-- What each operation of an event flag comes to. -/
structure EventFlag.Releases (e : EventFlag) : Prop extends Channel.Releases EventFlag.Own e where
  set : 0 < e.gate.blocked →
    Settles EventFlag.Own e.set [.ok ()]
      { e.gate with signal := ⟨false⟩, blocked := e.gate.blocked - 1 }
  set_nobody : e.gate.blocked = 0 →
    Settles EventFlag.Own e.set [] { e.gate with signal := ⟨true⟩ }
  clear : Settles EventFlag.Own e.clear [] { e.gate with signal := ⟨false⟩ }

theorem EventFlag.releases_of_settled {e : EventFlag} (h : Settled e) : e.Releases where
  toReleases := h.releases
  set hb := by
    obtain ⟨hgathered, hlength⟩ := h.wakeAll (g := e.gate.put ⟨true⟩) rfl
    refine hgathered.settles hlength ?_
    obtain ⟨n, hn⟩ := Nat.exists_eq_succ_of_ne_zero (Nat.ne_of_gt hb)
    have hcalm (signal : Flag) (b : Nat) :
        Gate.Calm { e.gate with signal := signal, blocked := b } e.gate.epoch :=
      ⟨(h.calm hb).opened, (h.calm hb).low, rfl⟩
    show (e.gate.put ⟨true⟩).reruns _ e.gate.blocked = _
    -- The first call takes the flag; the others find it down.
    have hfirst := (hcalm ⟨true⟩ e.gate.blocked).rerun_ready rfl
    have hothers := (hcalm ⟨false⟩ (e.gate.blocked - 1)).reruns_spent (n := n) rfl
      (by show n ≤ e.gate.blocked - 1; omega)
    rw [hn] at hfirst hothers ⊢
    rw [Gate.put, hn, Gate.reruns_succ hfirst]
    simp only [Signal.take]
    rw [hothers]
    rfl
  set_nobody hb := by
    obtain ⟨hgathered, hlength⟩ := h.wakeAll (g := e.gate.put ⟨true⟩) rfl
    exact hgathered.settles (hlength.trans hb) rfl
  clear := h.still (g := e.gate.put ⟨false⟩) rfl

/-- **Every signal releases exactly the waits it should, in whatever order they wake.**  In every
settled state of a semaphore or an event flag, each operation comes to the outcomes and the gate of
the table above, whichever of the calls that it wakes looks first; and the looks come to an end. -/
theorem releases_exact :
    (∀ {acts : List (Act Semaphore.Op)} {s : Semaphore}, Run Semaphore.Step default acts s →
      s.returning = [] → s.Releases) ∧
    (∀ {acts : List (Act EventFlag.Op)} {e : EventFlag}, Run EventFlag.Step default acts e →
      e.returning = [] → e.Releases) := by
  constructor
  · intro acts s hr hnone
    refine Semaphore.releases_of_settled (settled_of_run Semaphore.covering_count
      (fun u hu => ?_) Semaphore.onlySignals_own Semaphore.Own.attended hr hnone)
    have hzero : u.count = 0 := UInt32.toNat_inj.mp (Nat.le_zero.mp hu)
    simp [Signal.ready, hzero]
  · intro acts e hr hnone
    exact EventFlag.releases_of_settled (settled_of_run EventFlag.covering_lowered
      (fun _ hf => hf) EventFlag.onlySignals_own EventFlag.Own.attended hr hnone)

/-- Two calls are blocked at a semaphore that is armed with one unit: whichever looks first gets it.
At an event flag one call is blocked, and takes the flag that is set. -/
theorem releases_exact_two_blocked :
    (∃ (acts : List (Act Semaphore.Op)) (s : Semaphore), Run Semaphore.Step default acts s ∧
      s.returning = [] ∧ s.gate.blocked = 2 ∧
      Settles Semaphore.Own (s.arm 1) [.ok ()] { s.gate with signal := ⟨0⟩, blocked := 1 } ∧
      (∃ d, Run (Turn Semaphore.Own) (s.arm 1)
        [.resume ⟨0⟩ (some (.ok ())), .resume ⟨1⟩ none] d ∧ d.returning = []) ∧
      (∃ d, Run (Turn Semaphore.Own) (s.arm 1)
        [.resume ⟨1⟩ (some (.ok ())), .resume ⟨0⟩ none] d ∧ d.returning = [])) ∧
    (∃ (acts : List (Act EventFlag.Op)) (e : EventFlag), Run EventFlag.Step default acts e ∧
      e.returning = [] ∧ e.gate.blocked = 1 ∧
      Settles EventFlag.Own e.set [.ok ()] { e.gate with signal := ⟨false⟩, blocked := 0 }) := by
  constructor
  · have hrun : Run Semaphore.Step default [.enter ⟨0⟩ none, .enter ⟨1⟩ none]
        (Channel.enter ((Channel.enter default ⟨0⟩).1 : Semaphore) ⟨1⟩).1 :=
      .snoc (.snoc .nil (.enter rfl)) (.enter rfl)
    refine ⟨_, _, hrun, rfl, rfl, (releases_exact.1 hrun rfl).arm 1, ?_, ?_⟩
    · refine ⟨_, .snoc (.snoc .nil ⟨.resume (p := ⟨⟨0⟩, 0, .woken⟩) ?_, rfl⟩)
        ⟨.resume (p := ⟨⟨1⟩, 0, .woken⟩) ?_, rfl⟩, ?_⟩ <;> decide
    · refine ⟨_, .snoc (.snoc .nil ⟨.resume (p := ⟨⟨1⟩, 0, .woken⟩) ?_, rfl⟩)
        ⟨.resume (p := ⟨⟨0⟩, 0, .woken⟩) ?_, rfl⟩, ?_⟩ <;> decide
  · have hrun : Run EventFlag.Step default [.enter ⟨0⟩ none]
        (Channel.enter (default : EventFlag) ⟨0⟩).1 := .snoc .nil (.enter rfl)
    exact ⟨_, _, hrun, rfl, rfl, (releases_exact.2 hrun rfl).set (by decide)⟩

end PeerBus
