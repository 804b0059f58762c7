/-
# `PeerBus.Proofs.Handshake.Turns` — client and server take turns

What `start` and `done` say is settled by what the two roles have to do with the round under way,
and only six combinations of all this occur (`Turns`):

    client   server    start   done
    rests    idles     0       0
    asks     idles     START   0        the round is asked for
    asks     catches   START   0
    asks     serves    0       0        the slots belong to the server
    asks     idles     0       DONE     the round is answered
    lowers   idles     0       DONE

So a server serves only while its client asks, and by the time the client looks at the slots the
server is idle again.  The seed stands in `data` from the time the client plants it until the round
is over, hence both sides work with the same one (`InTurn.seed_eq`).
-/
import PeerBus.Proofs.Handshake.Faithful

namespace PeerBus

/-- The words of `start` and `done` for what the two roles have to do with the round. -/
def Turns (start done : UInt32) : Client.Turn → Server.Turn → Prop
  | .rests, .idles => start = 0 ∧ done = 0
  | .asks, .idles => start = Marker.start ∧ done = 0 ∨ start = 0 ∧ done = Marker.done
  | .asks, .catches => start = Marker.start ∧ done = 0
  | .asks, .serves => start = 0 ∧ done = 0
  | .lowers, .idles => start = 0 ∧ done = Marker.done
  | _, _ => False

/-! ## From turn to turn -/

namespace Turns

variable {start done : UInt32} {x : Client.Turn} {y : Server.Turn}

theorem clear (h : Turns start done .rests y) : Turns start 0 .rests y := by
  cases y with
  | idles => exact ⟨h.1, rfl⟩
  | catches | serves => exact h.elim

theorem ask (h : Turns start done .rests y) : Turns Marker.start done .asks y := by
  cases y with
  | idles => exact .inl ⟨rfl, h.2⟩
  | catches | serves => exact h.elim

theorem find (h : Turns start done .asks y) (hd : done = Marker.done) :
    Turns start done .lowers y := by
  subst hd
  cases y with
  | idles =>
      rcases h with ⟨_, h⟩ | h
      · exact absurd h (by decide)
      · exact h
  | catches | serves => exact absurd h.2 (by decide)

theorem lower (h : Turns start done .lowers y) : Turns start 0 .rests y := by
  cases y with
  | idles => exact ⟨h.1, rfl⟩
  | catches | serves => exact h.elim

theorem asks_of_start (h : Turns start done x y) (hs : start = Marker.start) : x = .asks := by
  subst hs
  cases x with
  | asks => rfl
  | rests | lowers =>
      cases y with
      | idles => exact absurd h.1 (by decide)
      | catches | serves => exact h.elim

theorem notice (h : Turns start done x .idles) (hs : start = Marker.start) :
    Turns start done x .catches := by
  obtain rfl := h.asks_of_start hs
  rcases h with h | ⟨h, _⟩
  · exact h
  · exact absurd (h.symm.trans hs) (by decide)

theorem serve (h : Turns start done x .catches) : Turns 0 done x .serves := by
  cases x with
  | asks => exact ⟨rfl, h.2⟩
  | rests | lowers => exact h.elim

theorem answer (h : Turns start done x .serves) : Turns start Marker.done x .idles := by
  cases x with
  | asks => exact .inr ⟨h.1, rfl⟩
  | rests | lowers => exact h.elim

theorem asks_of_serves (h : Turns start done x .serves) : x = .asks := by
  cases x with
  | asks => rfl
  | rests | lowers => exact h.elim

theorem done_of_serves (h : Turns start done x .serves) : done = 0 := by
  cases x with
  | asks => exact h.2
  | rests | lowers => exact h.elim

theorem idles_of_ne_asks (h : Turns start done x y) (hx : x ≠ .asks) : y = .idles := by
  cases x <;> cases y <;> first | rfl | exact absurd rfl hx | exact h.elim

theorem ne_rests_of_done (h : Turns start done x y) (hd : done = Marker.done) : x ≠ .rests := by
  rintro rfl
  cases y with
  | idles => exact absurd (h.2.symm.trans hd) (by decide)
  | catches | serves => exact h.elim

end Turns

/-- The roles take turns, and the seed of the round stays where it is. -/
structure InTurn (v : View) (c : Client.Call) (s : Server.Call) : Prop where
  turns : Turns (v.record .start) (v.record .done) c.point.turn s.point.turn
  planted : ∀ {seed}, c.point.planted? = some seed → v.record .data = seed
  filling : ∀ {seed}, s.point.seed? = some seed → v.record .data = seed

namespace InTurn

variable {peer : Side → PeerId} {v v' : View} {c c' : Client.Call} {s s' : Server.Call}

/-- Two roles that have a seed have the same one. -/
theorem seed_eq (h : InTurn v c s) {seed seed' : UInt32} (hc : c.point.planted? = some seed)
    (hs : s.point.seed? = some seed') : seed = seed' :=
  (h.planted hc).symm.trans (h.filling hs)

/-- Before either role has done anything. -/
theorem fresh {k : Client} {g : Client.Goal} {k' : Server} {g' : Server.Goal}
    (hzero : ∀ f, v.record f = 0) : InTurn v ⟨k, g, .identify⟩ ⟨k', g', .identify⟩ :=
  ⟨⟨hzero .start, hzero .done⟩, nofun, nofun⟩

theorem rests (h : InTurn v c s) (hc : c.point.turn = .rests) (ht : c'.point.turn = .rests)
    (hp : c'.point.planted? = none) : InTurn v c' s where
  turns := ht ▸ hc ▸ h.turns
  planted hq := nomatch hp.symm.trans hq
  filling := h.filling

theorem client (h : InTurn v c s) (hf : Faithful peer v c s)
    (hgoes : Client.Goes (peer .client) v c v' c') : InTurn v' c' s := by
  cases hgoes with
  | heededServer _ hb | passedLast _ _ _ hb => exact h.rests rfl hb.turn hb.planted
  | enteredShutdown hw | checkedShutdown hw => exact absurd hf.shutdown hw
  | cleared => exact { h with turns := h.turns.clear, planted := nofun }
  | planted =>
      refine { h with planted := fun hp => ?_, filling := fun hs => ?_ }
      · cases hp
        rfl
      · have hserves := Server.Point.turn_of_seed hs
        have hidles := h.turns.idles_of_ne_asks (show Client.Turn.rests ≠ .asks by decide)
        exact nomatch hserves.symm.trans hidles
  | raised => exact { h with turns := h.turns.ask }
  | checkedDone hd => exact { h with turns := h.turns.find hd }
  | lowered _ => exact { h with turns := h.turns.lower }
  | loweredLast _ hb =>
      exact { h with
        turns := hb.turn ▸ h.turns.lower
        planted := fun hp => nomatch hb.planted.symm.trans hp }
  | rung hs => exact { h.rests rfl hs.turn hs.planted with }
  | stoppedAlone _ hs => exact { h.rests rfl hs.turn hs.planted with }
  | called | roused _ | checkedOpen _ | checkedNotDone _ | matched _ _ | passed _ _ _ =>
      exact { h with }
  | _ => exact { h with planted := nofun }

theorem idles (h : InTurn v c s) (hs : s.point.turn = .idles) (ht : s'.point.turn = .idles)
    (hp : s'.point.seed? = none) : InTurn v c s' where
  turns := ht ▸ hs ▸ h.turns
  planted := h.planted
  filling hq := nomatch hp.symm.trans hq

theorem server (h : InTurn v c s) (hf : Faithful peer v c s)
    (hgoes : Server.Goes (peer .server) v s v' s') : InTurn v' c s' := by
  cases hgoes with
  | readiedKnown _ hs | sawNobody _ hs | greeted hs | ignored _ _ hs | sawNoCaller _ hs
  | told hs => exact { h.idles rfl hs.turn hs.seed with }
  | checkedShutdown _ he => exact h.idles rfl he.turn he.seed
  | recheckedShutdown hw he =>
      have hasks := h.turns.asks_of_serves
      exact nomatch (Client.Point.turn_of_left (hf.left_iff.mpr hw)).symm.trans hasks
  | caught hs => exact { h with turns := h.turns.notice hs, filling := nofun }
  | lowered => exact { h with turns := h.turns.serve, filling := nofun }
  | read _ =>
      refine { h with filling := fun hs => ?_ }
      cases hs
      rfl
  | raised => exact { h with turns := h.turns.answer, filling := nofun }
  | filled _ | passed _ _ => exact { h with }
  | _ => exact { h with filling := nofun }

end InTurn

/-! ## Nets -/

/-- The record tells the truth, the roles take turns, and each goes on with what it was called for,
in the session and with the settings that it began with.  Both run to the end of the session if
`runs`, and are called for one thing at a time if not. -/
structure Net.Sound (peer : Side → PeerId) (session : Session) (config : Side → Config)
    (runs : Bool) (n : Net) : Prop where
  faithful : Faithful peer n.view n.client n.server
  inTurn : InTurn n.view n.client n.server
  clientFits : n.client.Fits
  serverFits : n.server.Fits
  clientRuns : n.client.goal.isRun = runs
  serverRuns : n.server.goal = .run ↔ runs = true
  clientSession : n.client.client.session = session
  serverSession : n.server.server.session = session
  clientConfig : n.client.client.config = config .client
  serverConfig : n.server.server.config = config .server
  slots : 0 < session.slots.toNat

namespace Net

variable {peer : Side → PeerId} {session : Session} {config : Side → Config} {runs : Bool}
  {n n' : Net} {a : Act}

theorem Sound.proper (h : n.Sound peer session config runs) : n.Proper peer :=
  ⟨h.faithful.clientPeer, h.faithful.serverPeer, h.serverFits⟩

theorem Sound.step (h : n.Sound peer session config runs) (hstep : Step peer n a n') :
    n'.Sound peer session config runs := by
  cases hstep with
  | idle => exact h
  | client hgoes =>
      obtain ⟨-, hsession, hconfig⟩ := hgoes.same
      exact { h with
        faithful := h.faithful.client h.clientFits hgoes
        inTurn := h.inTurn.client h.faithful hgoes
        clientFits := hgoes.fits (h.clientSession ▸ h.slots) h.clientFits
        clientRuns := hgoes.isRun.trans h.clientRuns
        clientSession := hsession.trans h.clientSession
        clientConfig := hconfig.trans h.clientConfig }
  | server hgoes =>
      obtain ⟨-, hsession, hconfig⟩ := hgoes.same
      exact { h with
        faithful := h.faithful.server hgoes
        inTurn := h.inTurn.server h.faithful hgoes
        serverFits := hgoes.fits (h.serverSession ▸ h.slots) h.serverFits
        serverRuns := hgoes.goal ▸ h.serverRuns
        serverSession := hsession.trans h.serverSession
        serverConfig := hconfig.trans h.serverConfig }
  | stray | spoil _ => exact { h with faithful := { h.faithful with }, inTurn := { h.inTurn with } }
  | @round _ k g _ _ seed ha =>
      have hf := h.faithful.round ha seed
      have hg : g.isRun = false := by
        have hfits := h.clientFits
        rcases ha with ⟨p, rfl⟩ | rfl
        · exact hfits
        · exact hfits
      rw [h.faithful.call_round] at hf ⊢
      exact { h with
        faithful := hf
        inTurn := { h.inTurn with planted := nofun }
        clientFits := trivial
        clientRuns := hg.symm.trans h.clientRuns }
  | @serve _ _ k g _ ha =>
      have hg : g ≠ .run := by
        have hfits := h.serverFits
        rcases ha with ⟨p, rfl⟩ | rfl
        · exact hfits
        · exact hfits
      exact { h with
        faithful := h.faithful.serve
        inTurn := { h.inTurn with filling := nofun }
        serverFits := trivial
        serverRuns := ⟨nofun, fun hr => absurd (h.serverRuns.mpr hr) hg⟩ }

theorem Sound.open_of_serves (h : n.Sound peer session config runs)
    (hs : n.server.point.turn = .serves) : n.view.record .shutdown = 0 := by
  have hturns := h.inTurn.turns
  rw [hs] at hturns
  have hleft : n.client.point.left = false := by
    cases hl : n.client.point.left with
    | false => rfl
    | true => exact nomatch (Client.Point.turn_of_left hl).symm.trans hturns.asks_of_serves
  rw [h.faithful.shutdown, hleft]
  rfl

/-- A client that runs does not return between two rounds. -/
theorem Sound.not_round {v : View} {k : Client} {g : Client.Goal} {achieved : Achieved}
    {s : Server.Call} (ha : (∃ p, achieved = .peer p) ∨ achieved = .done) :
    ¬(⟨v, ⟨k, g, .returned (.ok achieved)⟩, s⟩ : Net).Sound peer session config true := by
  intro h
  have hfits := h.clientFits
  rcases ha with ⟨p, rfl⟩ | rfl
  · exact nomatch hfits.symm.trans h.clientRuns
  · exact nomatch hfits.symm.trans h.clientRuns

/-- A server that runs does not return between two doorbells. -/
theorem Sound.not_serve {v : View} {c : Client.Call} {k : Server} {g : Server.Goal}
    {achieved : Achieved} (ha : (∃ p, achieved = .peer p) ∨ achieved = .goesOn true) :
    ¬(⟨v, c, ⟨k, g, .returned (.ok achieved)⟩⟩ : Net).Sound peer session config true := by
  intro h
  have hfits := h.serverFits
  rcases ha with ⟨p, rfl⟩ | rfl
  · exact hfits (h.serverRuns.mpr rfl)
  · exact hfits (h.serverRuns.mpr rfl)

end Net

namespace Link

variable {w : Link} {session : Session} {config : Side → Config} {goal : Client.Goal}
  {goal' : Server.Goal} {s : System}

theorem Opening.sound (h : w.Opening session config goal goal' s) (hgoal : goal ≠ .shutdown)
    (hgoal' : goal' ≠ .serveOnce) (hruns : goal' = .run ↔ goal.isRun = true) :
    (w.net s).Sound w.peer session config goal.isRun := by
  have hrecord := h.record_eq
  rw [net, h.client_role hgoal, h.server_role hgoal']
  exact
    { faithful := .fresh hrecord rfl
      inTurn := .fresh hrecord
      clientFits := trivial
      serverFits := trivial
      clientRuns := rfl
      serverRuns := hruns
      clientSession := rfl
      serverSession := rfl
      clientConfig := rfl
      serverConfig := rfl
      slots := h.slots }

end Link

end PeerBus
