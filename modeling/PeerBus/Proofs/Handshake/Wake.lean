/-
# `PeerBus.Proofs.Handshake.Wake` — nobody waits for what has happened

Event flags coalesce: a flag that is up may stand for several doorbells or for one that no longer
matters, and a role that takes it must find out which.  What keeps the two roles going is that
whenever one of them could be waiting for something that the record already shows, either its flag
is up, or the other role is on its way to ring it or to look.  `Alerted` lists these cases:

    asked      the client has rung for a round       ⟹  the server will look at `start`
    answered   the round is done                     ⟹  the client will look at `done`
    gone       the client has left                   ⟹  the server will look at `shutdown`
    unknown    the client waits, ungreeted           ⟹  the server will greet it
    known      the client was greeted, unconnected   ⟹  the client will look for the server

**What is proved.**  `Alerted` is kept by every step, and a system in which it holds is never
stuck, whatever the order of the steps: `Link.never_stuck`.
-/
import PeerBus.Proofs.Handshake.Turns

namespace PeerBus

structure Alerted (v : View) (c : Client.Call) (s : Server.Call) : Prop where
  asked : c.point.rang = true → v.record .start = Marker.start →
    v.flag .server = true ∨ s.point.attends = true
  answered : c.point.dozes = true → v.record .done = Marker.done →
    v.flag .client = true ∨ s.point.reports = true
  gone : c.point.gone = true →
    v.flag .server = true ∨ s.point.heeds = true ∨ s.point.ended = true
  unknown : c.point.listens = true → s.server.readySent = false →
    s.point.announced = false ∨ s.point.greets = true ∨ v.flag .server = true ∨
      s.point.looks = true
  known : s.server.readySent = true → c.point.connected = false →
    v.flag .client = true ∨ c.point.heeds = true
  unsent : s.point.announced = false → s.server.readySent = false

namespace Alerted

variable {peer : Side → PeerId} {v v' : View} {c c' : Client.Call} {s s' : Server.Call}

/-- Before either role has done anything. -/
theorem fresh {k : Client} {g : Client.Goal} {k' : Server} {g' : Server.Goal}
    (hk' : k'.readySent = false) : Alerted v ⟨k, g, .identify⟩ ⟨k', g', .identify⟩ :=
  ⟨nofun, nofun, nofun, nofun, fun hs => absurd (hk'.symm.trans hs) (by decide),
    fun _ => hk'⟩

/-! ## Steps of the client -/

theorem between (h : Alerted v c s) {k : Client} {g : Client.Goal} {p : PeerId}
    (hb : Client.Between k p g c') : Alerted v' c' s := by
  cases hb <;> exact ⟨nofun, nofun, nofun, nofun, nofun, h.unsent⟩

theorem client (h : Alerted v c s) (hf : Faithful peer v c s) (ht : InTurn v c s)
    (hgoes : Client.Goes (peer .client) v c v' c') : Alerted v' c' s := by
  cases hgoes with
  | identified | published | sawReady _ | sawServer _ | heededOpen _ | heededReady _ =>
      exact { h with unknown := nofun }
  | sawNotReady hr =>
      exact { h with unknown := fun _ _ => .inl (hf.not_announced hr) }
  | sawNobody hw | heededNobody hw =>
      exact nomatch hw.symm.trans (hf.decode_server
        (Server.Point.published_of_announced (hf.met rfl)))
  | greeted =>
      exact { h with
        asked := nofun
        gone := nofun
        unknown := fun _ _ => .inr (.inr (.inl rfl)) }
  | heard _ =>
      exact { h with answered := nofun, unknown := nofun, known := fun _ _ => .inr rfl }
  | heededNotReady hr =>
      have hs := h.unsent (hf.not_announced hr)
      exact { h with
        unknown := fun _ _ => .inl (hf.not_announced hr)
        known := fun hs' => nomatch hs'.symm.trans hs }
  | heededShutdown hw | enteredShutdown hw | checkedShutdown hw => exact absurd hf.shutdown hw
  | heededServer _ hb | loweredLast _ hb | passedLast _ _ _ hb => exact h.between hb
  | raised =>
      exact { h with
        asked := nofun
        answered := fun _ hd => absurd rfl (ht.turns.ne_rests_of_done hd)
        unknown := nofun }
  | called => exact { h with asked := fun _ _ => .inl rfl, gone := nofun, unknown := nofun }
  | roused _ => exact { h with answered := nofun, unknown := nofun, known := nofun }
  | checkedOpen _ => exact { h with }
  | checkedNotDone hd => exact { h with answered := fun _ hd' => absurd hd' hd }
  | stoppedAlone hn _ => exact nomatch hn.symm.trans (hf.server_eq rfl)
  | rung hs =>
      cases hs <;> exact ⟨nofun, nofun, fun _ => .inl rfl, nofun, nofun, h.unsent⟩
  | _ => exact ⟨nofun, nofun, nofun, nofun, nofun, h.unsent⟩

/-! ## Steps of the server -/

/-- A server that has acted on its doorbell, and found nothing that is not rung for once more. -/
theorem settled {k : Server} {g : Server.Goal} (hs : Server.Settled k g s')
    (hasked : c.point.rang = true → v.record .start = Marker.start → v.flag .server = true)
    (hanswered : c.point.dozes = true → v.record .done = Marker.done → v.flag .client = true)
    (hgone : c.point.gone = true → v.flag .server = true)
    (hunknown : c.point.listens = true → k.readySent = false → v.flag .server = true)
    (hknown : k.readySent = true → c.point.connected = false →
      v.flag .client = true ∨ c.point.heeds = true) : Alerted v c s' := by
  cases hs <;>
    exact ⟨fun hr hst => .inl (hasked hr hst), fun hd hdone => .inl (hanswered hd hdone),
      fun hg => .inl (hgone hg), fun hl hk => .inr (.inr (.inl (hunknown hl hk))), hknown, nofun⟩

theorem server (h : Alerted v c s) (hf : Faithful peer v c s) (ht : InTurn v c s)
    (hgoes : Server.Goes (peer .server) v s v' s') : Alerted v' c s' := by
  cases hgoes with
  | identified | published | cleared => exact { h with }
  | readied _ => exact { h with unknown := fun _ _ => .inr (.inl rfl), unsent := nofun }
  | readiedKnown hk _ => exact nomatch hk.symm.trans (h.unsent rfl)
  | sawClient _ => exact { h with unsent := nofun }
  | sawNobody hw hs =>
      refine settled hs (fun hr hst => (h.asked hr hst).resolve_right nofun)
        (fun hd hdone => (h.answered hd hdone).resolve_right nofun)
        (fun hg => (h.gone hg).resolve_right nofun) (fun hl _ => ?_) h.known
      exact nomatch hw.symm.trans (hf.decode_client (Client.Point.published_of_listens hl))
  | greeted hs =>
      exact settled hs (fun hr hst => (h.asked hr hst).resolve_right nofun) (fun _ _ => rfl)
        (fun hg => (h.gone hg).resolve_right nofun) (fun _ => nofun) (fun _ _ => .inl rfl)
  | heard _ =>
      exact { h with
        asked := fun _ _ => .inr rfl
        gone := fun _ => .inr (.inl rfl)
        unknown := fun _ _ => .inr (.inr (.inr rfl))
        unsent := nofun }
  | checkedOpen hw =>
      refine { h with gone := fun hg => ?_ }
      exact absurd hw (hf.left_iff.mp (Client.Point.left_of_gone hg))
  | checkedShutdown hw he =>
      have hleft := hf.left_iff.mpr hw
      have hrests := Client.Point.turn_of_left hleft
      have hasked : c.point.rang = true → False := fun hr =>
        nomatch hrests.symm.trans (Client.Point.turn_of_rang hr)
      have hanswered : c.point.dozes = true → False := fun hd =>
        nomatch hrests.symm.trans (Client.Point.turn_of_dozes hd)
      have hunknown : c.point.listens = true → False := fun hl =>
        nomatch (Client.Point.connected_of_left hleft).symm.trans
          (Client.Point.not_connected_of_listens hl)
      cases he <;>
        exact ⟨fun hr => (hasked hr).elim, fun hd => (hanswered hd).elim,
          fun _ => .inr (.inr rfl), fun hl => (hunknown hl).elim, h.known, nofun⟩
  | caught hst =>
      have hasks : c.point.turn = .asks := Turns.asks_of_start ht.turns hst
      have hconnected := Client.Point.connected_of_asks hasks
      exact { h with
        asked := fun _ _ => .inr rfl
        gone := fun hg => nomatch hasks.symm.trans
          (Client.Point.turn_of_left (Client.Point.left_of_gone hg))
        unknown := fun _ => nofun
        known := fun _ hc => nomatch hconnected.symm.trans hc
        unsent := nofun }
  | greets hst hk =>
      exact { h with
        asked := fun _ hst' => absurd hst' hst
        unknown := fun _ _ => .inr (.inl rfl) }
  | ignored hst hk hs =>
      refine settled hs (fun _ hst' => absurd hst' hst)
        (fun hd hdone => (h.answered hd hdone).resolve_right nofun)
        (fun hg => (h.gone hg).resolve_right nofun) (fun _ hk' => ?_) h.known
      exact nomatch hk.symm.trans hk'
  | lowered => exact { h with asked := fun _ => nofun }
  | read _ | readLast _ | filled _ | passed _ _ | passedLast _ _ | recheckedOpen _ =>
      exact { h with }
  | recheckedShutdown hw _ =>
      have hasks := ht.turns.asks_of_serves
      exact nomatch (Client.Point.turn_of_left (hf.left_iff.mpr hw)).symm.trans hasks
  | raised => exact { h with answered := fun _ _ => .inr rfl }
  | sawCaller _ => exact { h with }
  | sawNoCaller hw hs =>
      refine settled hs (fun hr hst => (h.asked hr hst).resolve_right nofun) (fun hd _ => ?_)
        (fun hg => (h.gone hg).resolve_right nofun)
        (fun hl hk => ?_) h.known
      · have hconnected := Client.Point.connected_of_asks (Client.Point.turn_of_dozes hd)
        exact nomatch hw.symm.trans (hf.decode_client
          (Client.Point.published_of_connected hconnected))
      · exact (((h.unknown hl hk).resolve_left nofun).resolve_left nofun).resolve_right nofun
  | told hs =>
      refine settled hs (fun hr hst => (h.asked hr hst).resolve_right nofun) (fun _ _ => rfl)
        (fun hg => (h.gone hg).resolve_right nofun) (fun hl hk => ?_) (fun _ _ => .inl rfl)
      exact (((h.unknown hl hk).resolve_left nofun).resolve_left nofun).resolve_right nofun

/-! ## Doorbells that nobody sent -/

theorem raise (h : Alerted v c s) (x : Side) : Alerted (v.raise x) c s where
  asked hr hst := (h.asked hr hst).imp (View.flag_raise_of_flag · x) id
  answered hd hdone := (h.answered hd hdone).imp (View.flag_raise_of_flag · x) id
  gone hg := (h.gone hg).imp (View.flag_raise_of_flag · x) id
  unknown hl hk := (h.unknown hl hk).imp_right
    (·.imp_right (·.imp (View.flag_raise_of_flag · x) id))
  known hk hc := (h.known hk hc).imp (View.flag_raise_of_flag · x) id
  unsent := h.unsent

end Alerted

/-! ## Nets that run -/

/-- Both roles run to the end of the session, and each is alerted to what it waits for. -/
structure Net.Live (peer : Side → PeerId) (session : Session) (config : Side → Config)
    (n : Net) : Prop where
  sound : n.Sound peer session config true
  alerted : Alerted n.view n.client n.server

namespace Net

variable {peer : Side → PeerId} {session : Session} {config : Side → Config} {n n' : Net} {a : Act}

theorem Live.step (h : n.Live peer session config) (hstep : Step peer n a n') :
    n'.Live peer session config := by
  refine ⟨h.sound.step hstep, ?_⟩
  have hf := h.sound.faithful
  have ht := h.sound.inTurn
  have hal := h.alerted
  cases hstep with
  | idle => exact hal
  | client hgoes => exact hal.client hf ht hgoes
  | server hgoes => exact hal.server hf ht hgoes
  | stray => exact hal.raise _
  | spoil _ => exact { hal with }
  | round ha => exact absurd h.sound (Sound.not_round ha)
  | serve ha => exact absurd h.sound (Sound.not_serve ha)

/-- Of two roles that wait, one has been rung. -/
theorem Live.flag_of_waits (h : n.Live peer session config)
    {next : Except DeviceError Unit → Client.Call}
    {next' : Except DeviceError Unit → Server.Call} (hc : n.client.move = some (.wait next))
    (hs : n.server.move = some (.wait next')) :
    n.view.flag .client = true ∨ n.view.flag .server = true := by
  have hal := h.alerted
  have hturns := h.sound.inTurn.turns
  obtain ⟨v, ⟨kc, gc, pc⟩, k, g, point⟩ := n
  obtain rfl : point = .listen := Server.point_of_move_wait hs
  rcases Client.point_of_move_wait hc with hl | ⟨r, hr⟩
  · cases hk : k.readySent with
    | false =>
        have hserver := (hal.unknown hl hk).resolve_left nofun
        exact .inr ((hserver.resolve_left nofun).resolve_right nofun)
    | true =>
        refine .inl ((hal.known hk (Client.Point.not_connected_of_listens hl)).resolve_right ?_)
        intro hh
        exact nomatch (Client.Point.not_heeds_of_listens hl).symm.trans hh
  · obtain rfl : pc = .await r := hr
    rcases hturns with ⟨hst, -⟩ | ⟨-, hdone⟩
    · exact .inr ((hal.asked rfl hst).resolve_right nofun)
    · exact .inl ((hal.answered rfl hdone).resolve_right nofun)

/-- A server that waits for a client that has returned has been rung. -/
theorem Live.flag_of_returned (h : n.Live peer session config)
    {next : Except DeviceError Unit → Server.Call}
    (hc : n.client.move = none) (hs : n.server.move = some (.wait next)) :
    n.view.flag .server = true := by
  have hal := h.alerted
  have hgone := Client.gone_of_move_none hc h.sound.clientFits h.sound.clientRuns
  obtain ⟨v, c, k, g, point⟩ := n
  obtain rfl : point = .listen := Server.point_of_move_wait hs
  exact (hal.gone hgone).resolve_right nofun

/-- A client does not wait for a server that has returned. -/
theorem Live.not_wait_of_returned (h : n.Live peer session config)
    {next : Except DeviceError Unit → Client.Call}
    (hc : n.client.move = some (.wait next)) : n.server.move ≠ none := by
  intro hs
  have hleft := h.sound.faithful.ended
    (Server.ended_of_move_none hs h.sound.serverFits (h.sound.serverRuns.mpr rfl))
  rcases Client.point_of_move_wait hc with hl | ⟨r, hr⟩
  · exact nomatch (Client.Point.connected_of_left hleft).symm.trans
      (Client.Point.not_connected_of_listens hl)
  · exact nomatch (hr ▸ hleft : (Client.Point.await r).left = true)

end Net

/-! ## Never stuck -/

namespace Link

/-- A role that sleeps in its wait, with its event flag down. -/
def Dormant {ρ : Type} (w : Link) (x : Side) (m : Machine) (p : Player ρ) : Prop :=
  p.sleep.isSome = true ∧ (w.event m x).isSet = false

/-- Some role has not returned, and every role that has not returned is dormant. -/
structure Stuck (w : Link) (s : System) : Prop where
  unfinished : Role.move s.client.role ≠ none ∨ Role.move s.server.role ≠ none
  client : Role.move s.client.role ≠ none → w.Dormant .client s.machine s.client
  server : Role.move s.server.role ≠ none → w.Dormant .server s.machine s.server

variable {w : Link} {session : Session} {config : Side → Config} {seeds : Nat → UInt32}
  {s t : System} {acts : List Act}

theorem Seated.wait_of_dormant {ρ : Type} [Role ρ] {x : Side} {m : Machine} {p : Player ρ}
    (h : w.Seated session x m p) (hd : w.Dormant x m p) :
    (∃ next, Role.move p.role = some (.wait next)) ∧ (w.view m).flag x = false := by
  obtain ⟨next, hnext⟩ := Option.isSome_iff_exists.mp hd.1
  exact ⟨⟨next, h.waiting hnext⟩, hd.2⟩

theorem Opening.live (h : w.Opening session config (.run seeds 0) .run s) :
    (w.net s).Live w.peer session config := by
  refine ⟨h.sound nofun nofun ⟨fun _ => rfl, fun _ => rfl⟩, ?_⟩
  rw [net, h.client_role nofun, h.server_role nofun]
  exact .fresh rfl

/-- A client and a server that run are never stuck: whatever the order of their steps, and
whatever stray doorbells and third parties do, a role that has not returned can go on. -/
theorem never_stuck (hopening : w.Opening session config (.run seeds 0) .run s)
    (hrun : Run w.Step s acts t) : ¬w.Stuck t := by
  obtain ⟨hsane, hlive⟩ := hopening.sane.run (fun h => h.sound.proper) (fun _ h hs => h.step hs)
    hopening.live hrun (fun _ _ => trivial)
  intro hstuck
  by_cases hc : Role.move t.client.role = none
  · have hs := hstuck.server (hstuck.unfinished.resolve_left (not_not_intro hc))
    obtain ⟨⟨next, hwait⟩, hdown⟩ := hsane.server.wait_of_dormant hs
    exact nomatch hdown.symm.trans (hlive.flag_of_returned hc hwait)
  · obtain ⟨⟨next, hwait⟩, hdown⟩ := hsane.client.wait_of_dormant (hstuck.client hc)
    have hs := hstuck.server (hlive.not_wait_of_returned hwait)
    obtain ⟨⟨next', hwait'⟩, hdown'⟩ := hsane.server.wait_of_dormant hs
    rcases hlive.flag_of_waits hwait hwait' with hu | hu
    · exact nomatch hdown.symm.trans hu
    · exact nomatch hdown'.symm.trans hu

end Link

namespace Small

/-- The client falls asleep in its first round, the server before it looks for the client. -/
def bothAsleep : List Act :=
  List.replicate 6 .client ++ [.spoil 28 [1, 2, 3]] ++ List.replicate 8 .server ++
    [.stray .server 4 false] ++ List.replicate 10 .client

theorem never_stuck_bothAsleep :
    ∃ t, Run link.Step (system (.run seeds 0) .run) bothAsleep t ∧
      t.client.sleep.isSome = true ∧ t.server.sleep.isSome = true ∧ ¬link.Stuck t := by
  have hreplay :
      (bothAsleep.foldlM link.act (system (.run seeds 0) .run)).any
        (fun t => t.client.sleep.isSome && t.server.sleep.isSome) = true := by decide +kernel
  obtain ⟨t, hrun, hasleep⟩ := Run.exists_of_any hreplay
  obtain ⟨hclient, hserver⟩ := Bool.and_eq_true_iff.mp hasleep
  exact ⟨t, hrun, hclient, hserver, Link.never_stuck (opening (.run seeds 0) .run) hrun⟩

end Small

end PeerBus
