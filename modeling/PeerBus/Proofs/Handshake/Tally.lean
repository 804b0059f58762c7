/-
# `PeerBus.Proofs.Handshake.Tally` — both sides count the same rounds

The server counts a round after it has told its client, the client after it has checked the slots,
and either can be first.  What ties the two counters together is the round that one of them has not
counted yet:

    rounds served + (1 if the server has set `done`, and not counted)
      = rounds verified + (1 if `done` is set or found, and the client has not counted)

(`Tally`).  While the server serves both extra terms are zero, so the round that it works on is the
one that its client asks for: with the invariants before this gives `Link.round_in_turn`.
-/
import PeerBus.Proofs.Handshake.Slots

namespace PeerBus

def Tally (v : View) (c : Client.Call) (s : Server.Call) : Prop :=
  s.server.rounds + s.point.reports.toNat =
    c.client.rounds + (c.point.owes || decide (v.record .done = Marker.done)).toNat

namespace Tally

variable {peer : Side → PeerId} {v v' : View} {c c' : Client.Call} {s s' : Server.Call}

/-- Between two rounds only the server can be behind. -/
theorem iff_of_rests (ht : InTurn v c s) (hrests : c.point.turn = .rests)
    (howes : c.point.owes = false) :
    Tally v c s ↔ s.server.rounds + s.point.reports.toNat = c.client.rounds := by
  have hturns := ht.turns
  rw [hrests] at hturns
  have hdone : decide (v.record .done = Marker.done) = false :=
    decide_eq_false fun hd => absurd rfl (hturns.ne_rests_of_done hd)
  rw [Tally, howes, hdone]
  exact Iff.rfl

theorem client (h : Tally v c s) (ht : InTurn v c s) (ht' : InTurn v' c' s)
    (hsuccess : c'.point.failed = false) (hgoes : Client.Goes (peer .client) v c v' c') :
    Tally v' c' s := by
  cases hgoes with
  | heededShutdown | enteredShutdown | checkedShutdown | mismatched => exact nomatch hsuccess
  | heededServer _ hb =>
      rw [iff_of_rests ht' hb.turn hb.owes, hb.client]
      exact (iff_of_rests ht rfl rfl).mp h
  | cleared => exact (iff_of_rests ht' rfl rfl).mpr ((iff_of_rests ht rfl rfl).mp h)
  | checkedDone hd =>
      rw [Tally, hd] at h
      exact h
  | loweredLast _ hb | passedLast _ _ _ hb =>
      rw [iff_of_rests ht' hb.turn hb.owes, hb.client]
      exact h
  | stoppedAlone _ hs | rung hs =>
      cases hs with
      | failed => exact nomatch hsuccess
      | finished | done => exact h
  | _ => exact h

theorem server (h : Tally v c s) (ht : InTurn v c s)
    (hgoes : Server.Goes (peer .server) v s v' s') : Tally v' c s' := by
  cases hgoes with
  | readiedKnown _ hs | sawNobody _ hs | greeted hs | ignored _ _ hs | sawNoCaller _ hs
  | told hs =>
      rw [Tally, hs.server, hs.reports]
      exact h
  | checkedShutdown _ he | recheckedShutdown _ he =>
      rw [Tally, he.server, he.reports]
      exact h
  | raised =>
      have hturns := ht.turns
      have howes := Client.Point.not_owes_of_asks hturns.asks_of_serves
      have hdone : decide (v.record .done = Marker.done) = false := by
        rw [hturns.done_of_serves]
        rfl
      rw [Tally, howes, hdone] at h
      rw [Tally, howes]
      exact congrArg Nat.succ h
  | _ => exact h

end Tally

/-! ## Nets whose slots only the server writes -/

/-- The roles take turns, the answers are in the slots, and both sides count the same rounds. -/
structure Net.Exact (peer : Side → PeerId) (session : Session) (config : Side → Config)
    (runs : Bool) (n : Net) : Prop where
  sound : n.Sound peer session config runs
  answered : Answered session.slots.toNat n.view n.client n.server
  tally : Tally n.view n.client n.server

namespace Net

variable {peer : Side → PeerId} {session : Session} {config : Side → Config} {runs : Bool}
  {n n' : Net} {a : Act}

theorem Exact.step (h : n.Exact peer session config runs)
    (hpasses : 0 < (config .server).passes.toNat) (hclean : a.Clean)
    (hstep : Step peer n a n') : n'.Exact peer session config runs := by
  have hsound := h.sound.step hstep
  have hf := h.sound.faithful
  have ht := h.sound.inTurn
  have han := h.answered
  have hta := h.tally
  cases hstep with
  | idle => exact h
  | client hgoes =>
      have hslots : _ = session.slots.toNat :=
        congrArg (fun session => session.slots.toNat) h.sound.clientSession
      have han' := han.client hf ht h.sound.clientFits hslots hgoes
      exact ⟨hsound, han', hta.client ht hsound.inTurn han'.success hgoes⟩
  | server hgoes =>
      have hslots : _ = session.slots.toNat :=
        congrArg (fun session => session.slots.toNat) h.sound.serverSession
      exact ⟨hsound, han.server ht (h.sound.serverConfig ▸ hpasses) hslots hgoes,
        hta.server ht hgoes⟩
  | stray => exact ⟨hsound, { han with }, hta⟩
  | spoil _ => exact hclean.elim
  | round _ =>
      rw [hf.call_round] at hsound ⊢
      exact ⟨hsound, { han with }, hta⟩
  | serve _ => exact ⟨hsound, { han with leaves := trivial }, hta⟩

/-- A server that serves works on the round that its client asks for. -/
theorem Exact.rounds_eq (h : n.Exact peer session config runs)
    (hserves : n.server.point.turn = .serves) :
    n.client.point.turn = .asks ∧ n.client.client.rounds = n.server.server.rounds := by
  have hturns := h.sound.inTurn.turns
  have htally := h.tally
  rw [hserves] at hturns
  have hasks := hturns.asks_of_serves
  have hdone : decide (n.view.record .done = Marker.done) = false := by
    rw [hturns.done_of_serves]
    rfl
  rw [Tally, Server.Point.not_reports_of_serves hserves, Client.Point.not_owes_of_asks hasks,
    hdone] at htally
  exact ⟨hasks, htally.symm⟩

/-- A server that fills has the seed of the round that its client is in. -/
theorem Exact.seed_eq (h : n.Exact peer session config runs) {seed : UInt32}
    (hs : n.server.point.seed? = some seed) :
    ∃ r, n.client.point.round? = some r ∧ r.seed = seed := by
  have hasks := (h.rounds_eq (Server.Point.turn_of_seed hs)).1
  obtain ⟨r, hr, hseed⟩ := Client.Point.round_of_ne_rests (by rw [hasks]; decide)
  exact ⟨r, hr, h.sound.inTurn.seed_eq hseed hs⟩

/-- Once `done` is set, the slots hold the answer to the round that the client is in. -/
theorem Exact.answer (h : n.Exact peer session config runs)
    (hd : n.view.record .done = Marker.done) :
    ∃ r, n.client.point.round? = some r ∧
      ∀ i, i < session.slots.toNat → n.view.slot i = Layout.pattern i r.seed := by
  have hne := h.sound.inTurn.turns.ne_rests_of_done hd
  obtain ⟨r, hr, hseed⟩ := Client.Point.round_of_ne_rests hne
  have hdata := h.sound.inTurn.planted hseed
  exact ⟨r, hr, fun i hi => hdata ▸ h.answered.done hd i hi⟩

/-- A client that is called for one thing at a time does not fail. -/
theorem Exact.client_returned (h : n.Exact peer session config false) {ended : Ended}
    (hr : n.client.point = .returned ended) :
    (∃ p, ended = .ok (.peer p)) ∨ ended = .ok .done := by
  have hsuccess := h.answered.success
  have hfits := h.sound.clientFits
  have hruns := h.sound.clientRuns
  obtain ⟨v, ⟨k, g, point⟩, s⟩ := n
  obtain rfl : point = .returned ended := hr
  cases ended with
  | error => exact nomatch hsuccess
  | ok a =>
      cases a with
      | peer p => exact .inl ⟨p, rfl⟩
      | done => exact .inr rfl
      | goesOn => exact hfits.elim
      | summary => exact nomatch hruns.symm.trans hfits

theorem Exact.not_left (h : n.Exact peer session config false) : n.client.point.left = false := by
  have hsuccess := h.answered.success
  have hfits := h.sound.clientFits
  have hruns := h.sound.clientRuns
  have hreturned : ∀ ended, n.client.point = .returned ended →
      (∃ p, ended = .ok (.peer p)) ∨ ended = .ok .done := fun _ => h.client_returned
  obtain ⟨v, ⟨k, g, point⟩, s⟩ := n
  cases point with
  | farewell p cause =>
      cases cause with
      | none => exact nomatch hruns.symm.trans hfits
      | some => exact nomatch hsuccess
  | returned ended =>
      rcases hreturned ended rfl with ⟨p, rfl⟩ | rfl
      · rfl
      · rfl
  | _ => rfl

/-- A server that is called for one thing at a time goes on and on. -/
theorem Exact.server_returned (h : n.Exact peer session config false) {ended : Ended}
    (hr : n.server.point = .returned ended) :
    (∃ p, ended = .ok (.peer p)) ∨ ended = .ok (.goesOn true) := by
  have hnotended : n.server.point.ended = false := by
    cases he : n.server.point.ended with
    | false => rfl
    | true => exact nomatch h.not_left.symm.trans (h.sound.faithful.ended he)
  rw [hr] at hnotended
  cases ended with
  | error => exact nomatch hnotended
  | ok a =>
      cases a with
      | peer p => exact .inl ⟨p, rfl⟩
      | goesOn more =>
          cases more with
          | true => exact .inr rfl
          | false => exact nomatch hnotended
      | done | summary => exact nomatch hnotended

end Net

/-! ## Rounds in turn -/

namespace Link

variable {w : Link} {session : Session} {config : Side → Config} {goal : Client.Goal}
  {goal' : Server.Goal} {s t : System} {acts : List Act}

theorem Opening.exact (h : w.Opening session config goal goal' s) (hgoal : goal ≠ .shutdown)
    (hgoal' : goal' ≠ .serveOnce) (hruns : goal' = .run ↔ goal.isRun = true) :
    (w.net s).Exact w.peer session config goal.isRun := by
  have hrecord := h.record_eq
  have hsound := h.sound hgoal hgoal' hruns
  rw [net, h.client_role hgoal, h.server_role hgoal'] at hsound ⊢
  refine ⟨hsound, ⟨fun hd => ?_, trivial, rfl, rfl⟩, ?_⟩
  · exact absurd ((hrecord .done).symm.trans hd) (by decide)
  · rw [Tally, hrecord .done]
    rfl

theorem Opening.exact_of_run (h : w.Opening session config goal goal' s)
    (hgoal : goal ≠ .shutdown) (hgoal' : goal' ≠ .serveOnce)
    (hruns : goal' = .run ↔ goal.isRun = true) (hpasses : 0 < (config .server).passes.toNat)
    (hrun : Run w.Step s acts t) (hclean : ∀ a ∈ acts, a.Clean) :
    (w.net t).Exact w.peer session config goal.isRun :=
  (h.sane.run (fun h => h.sound.proper) (fun ha h hs => h.step hpasses ha hs)
    (h.exact hgoal hgoal' hruns) hrun hclean).2

/-- A client that connects and then has rounds done, and a server that announces itself and then
serves, take turns on the slots.  In every state that they reach together:

* the server works on a round only while the client asks for that round;
* the seed that it fills with is the one that the client checks with;
* once `done` is set, every slot holds the word of the client's round;
* the client is never on its way out with an error, and every call that returned is a success. -/
theorem round_in_turn (hopening : w.Opening session config .connect .announce s)
    (hpasses : 0 < (config .server).passes.toNat) (hrun : Run w.Step s acts t)
    (hclean : ∀ a ∈ acts, a.Clean) :
    (t.server.role.point.turn = .serves →
      t.client.role.point.turn = .asks ∧
        t.client.role.client.rounds = t.server.role.server.rounds) ∧
    (∀ seed, t.server.role.point.seed? = some seed →
      ∃ round, t.client.role.point.round? = some round ∧ round.seed = seed) ∧
    ((t.machine.regions.get w.region).isDone = true →
      ∃ round, t.client.role.point.round? = some round ∧
        ∀ i, i < session.slots.toNat →
          (t.machine.regions.get w.region).slotWord i = Layout.pattern i round.seed) ∧
    t.client.role.point.failed = false ∧
    (∀ ended, t.client.role.point = .returned ended →
      (∃ p, ended = .ok (.peer p)) ∨ ended = .ok .done) ∧
    (∀ ended, t.server.role.point = .returned ended →
      (∃ p, ended = .ok (.peer p)) ∨ ended = .ok (.goesOn true)) := by
  have h := hopening.exact_of_run nofun nofun ⟨nofun, nofun⟩ hpasses hrun hclean
  refine ⟨h.rounds_eq, fun _ => h.seed_eq, fun hd => h.answer ?_, h.answered.success,
    fun _ => h.client_returned, fun _ => h.server_returned⟩
  exact of_decide_eq_true hd

end Link

namespace Small

/-- Two rounds, with stray doorbells, up to the middle of the server's second pass. -/
def twoRounds : List Act :=
  List.replicate 5 .server ++ [.stray .client 4 false] ++ List.replicate 9 .client ++
    [.stray .server 4 false, .round 9, .serve] ++ List.replicate 5 .client ++
    List.replicate 13 .server ++ List.replicate 12 .client ++ [.round 5, .serve] ++
    List.replicate 5 .client ++ List.replicate 7 .server

theorem round_in_turn_twoRounds :
    ∃ t, Run link.Step (system .connect .announce) twoRounds t ∧
      t.server.role.point.turn = .serves ∧ t.client.role.point.turn = .asks ∧
        t.client.role.client.rounds = t.server.role.server.rounds := by
  have hreplay : (twoRounds.foldlM link.act (system .connect .announce)).any
      (fun t => t.server.role.point.turn = .serves) = true := by decide +kernel
  obtain ⟨t, hrun, hserves⟩ := Run.exists_of_any hreplay
  have hserves := of_decide_eq_true hserves
  have hturn := Link.round_in_turn (opening .connect .announce) (by decide) hrun (by decide +kernel)
  exact ⟨t, hrun, hserves, hturn.1 hserves⟩

end Small

end PeerBus
