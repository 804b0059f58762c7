/-
# `PeerBus.Proofs.Handshake.Greeting` — the greeting comes first

If nobody but the two roles rings, an event flag says more than that something may have happened.
The first doorbell that the client gets is the server's greeting, for the server rings for nothing
else before a round is asked for.  So a client that was rung has been greeted, a client that is
connected has been greeted, and whoever serves a round serves a client that is connected
(`Greeted`).

**Rounds asked for.**  A round is open from the moment at which the client raises `start` until it
counts the round, or for ever if the client fails in it.  Open rounds are never forgotten and never
made up:

    rounds served + (1 if the server has set `done`, and not counted)
                  + (1 if `start` is up, or the server works on the round)
      = rounds verified + (1 if a round is open)

(`Balanced`).  Other than in `PeerBus.Proofs.Handshake.Tally`, nothing is assumed of the slots.
-/
import PeerBus.Proofs.Handshake.Turns

namespace PeerBus

namespace Client

variable {self : PeerId} {v v' : View} {c c' : Call}

/-- The client raised `start` for a round that it has not counted. -/
def Point.opened : Point → Bool
  | .callServer _ | .await _ | .checkShutdown _ | .checkDone _ | .lowerDone _ | .verify _ _ _
  | .stop (some _) | .farewell _ (some _) | .returned (.error _) => true
  | _ => false

theorem Between.connected {k : Client} {server : PeerId} {g : Goal} (h : Between k server g c) :
    c.point.connected = true := by
  cases h <;> rfl

theorem Between.opened {k : Client} {server : PeerId} {g : Goal} (h : Between k server g c) :
    c.point.opened = false := by
  cases h <;> rfl

theorem Between.heeds {k : Client} {server : PeerId} {g : Goal} (h : Between k server g c) :
    c.point.heeds = false := by
  cases h <;> rfl

/-- A client that knows its server goes on knowing it. -/
theorem Goes.connected (h : Goes self v c v' c') (hc : c.point.connected = true) :
    c'.point.connected = true := by
  cases h with
  | loweredLast _ hb | passedLast _ _ _ hb => exact hb.connected
  | stoppedAlone _ hs | rung hs => cases hs <;> rfl
  | identified | published | sawReady | sawNotReady | sawServer | sawNobody | greeted | heard
  | heededOpen | heededReady | heededNotReady | heededServer | heededNobody => exact nomatch hc
  | _ => rfl

end Client

namespace Server

/-- The server works on a round. -/
def Point.serves : Point → Bool
  | .readSeed | .fill _ _ _ | .recheckShutdown | .raiseDone => true
  | _ => false

theorem Point.not_serves_of_idles {p : Point} (h : p.turn = .idles) : p.serves = false := by
  cases p with
  | readSeed | fill | recheckShutdown | raiseDone => exact nomatch h
  | _ => rfl

end Server

/-! ## Greeted -/

/-- Whoever was rung, or works with the other side, was greeted. -/
structure Greeted (v : View) (c : Client.Call) (s : Server.Call) : Prop where
  rung : v.flag .client = true → s.server.readySent = true
  heeded : c.point.heeds = true → s.server.readySent = true
  met : c.point.connected = true → s.server.readySent = true
  reported : s.point.reports = true → c.point.connected = true
  counted : 0 < s.server.rounds → c.point.connected = true

namespace Greeted

variable {peer : Side → PeerId} {v v' : View} {c c' : Client.Call} {s s' : Server.Call}

theorem fresh {k : Client} {g : Client.Goal} {k' : Server} {g' : Server.Goal}
    (hflag : v.flag .client = false) (hrounds : k'.rounds = 0) :
    Greeted v ⟨k, g, .identify⟩ ⟨k', g', .identify⟩ where
  rung hf := nomatch hflag.symm.trans hf
  heeded := nofun
  met := nofun
  reported := nofun
  counted hr := by
    rw [show k'.rounds = 0 from hrounds] at hr
    exact absurd hr (Nat.lt_irrefl 0)

theorem client (h : Greeted v c s) (hgoes : Client.Goes (peer .client) v c v' c') :
    Greeted v' c' s := by
  have hreported := fun hs => hgoes.connected (h.reported hs)
  have hcounted := fun hs => hgoes.connected (h.counted hs)
  cases hgoes with
  | heard hf => exact ⟨nofun, fun _ => h.rung hf, nofun, hreported, hcounted⟩
  | heededOpen | heededReady => exact ⟨h.rung, fun _ => h.heeded rfl, nofun, hreported, hcounted⟩
  | heededShutdown => exact ⟨h.rung, nofun, fun _ => h.heeded rfl, hreported, hcounted⟩
  | heededServer _ hb =>
      exact ⟨h.rung, fun hh => (nomatch hb.heeds.symm.trans hh), fun _ => h.heeded rfl, hreported,
        hcounted⟩
  | loweredLast _ hb | passedLast _ _ _ hb =>
      exact ⟨h.rung, fun hh => (nomatch hb.heeds.symm.trans hh), fun _ => h.met rfl, hreported,
        hcounted⟩
  | stoppedAlone _ hs | rung hs =>
      cases hs <;> exact ⟨h.rung, nofun, fun _ => h.met rfl, hreported, hcounted⟩
  | roused => exact ⟨nofun, nofun, fun _ => h.met rfl, hreported, hcounted⟩
  | identified | published | sawReady | sawNotReady | sawServer | sawNobody | greeted
  | heededNotReady | heededNobody => exact ⟨h.rung, nofun, nofun, hreported, hcounted⟩
  | _ => exact ⟨h.rung, nofun, fun _ => h.met rfl, hreported, hcounted⟩

theorem settled (h : Greeted v c s) {k : Server} {g : Server.Goal} (hs : Server.Settled k g s')
    (hsent : s.server.readySent = true → k.readySent = true)
    (hcounted : 0 < k.rounds → c.point.connected = true) : Greeted v c s' := by
  refine ⟨fun hf => ?_, fun hh => ?_, fun hc => ?_, fun hr => ?_, fun hr => ?_⟩
  · rw [hs.server]
    exact hsent (h.rung hf)
  · rw [hs.server]
    exact hsent (h.heeded hh)
  · rw [hs.server]
    exact hsent (h.met hc)
  · exact nomatch hs.reports.symm.trans hr
  · rw [hs.server] at hr
    exact hcounted hr

/-- A doorbell for a client that was greeted. -/
theorem raise (h : Greeted v c s) (hsent : s.server.readySent = true) :
    Greeted (v.raise .client) c s :=
  { h with rung := fun _ => hsent }

theorem server (h : Greeted v c s) (ht : InTurn v c s)
    (hgoes : Server.Goes (peer .server) v s v' s') : Greeted v' c s' := by
  cases hgoes with
  | readiedKnown _ hs => exact Greeted.settled { h with } hs id h.counted
  | sawNobody _ hs | ignored _ _ hs => exact h.settled hs id h.counted
  | @greeted k g p a _ hs =>
      have hknown : Greeted v c ⟨Server.known k, g, .greetClient p a⟩ :=
        ⟨fun _ => rfl, fun _ => rfl, fun _ => rfl, nofun, h.counted⟩
      exact (hknown.raise rfl).settled hs id h.counted
  | sawNoCaller _ hs => exact h.settled hs id fun _ => h.reported rfl
  | told hs => exact (h.raise (h.met (h.reported rfl))).settled hs id fun _ => h.reported rfl
  | checkedShutdown _ he | recheckedShutdown _ he =>
      refine ⟨fun hf => ?_, fun hh => ?_, fun hc => ?_, fun hr => ?_, fun hr => ?_⟩
      · rw [he.server]
        exact h.rung hf
      · rw [he.server]
        exact h.heeded hh
      · rw [he.server]
        exact h.met hc
      · exact nomatch he.reports.symm.trans hr
      · rw [he.server] at hr
        exact h.counted hr
  | caught => exact ⟨fun _ => rfl, fun _ => rfl, fun _ => rfl, nofun, h.counted⟩
  | raised =>
      have hconnected := Client.Point.connected_of_asks ht.turns.asks_of_serves
      exact { h with reported := fun _ => hconnected }
  | sawCaller => exact { h with }
  | _ => exact { h with reported := nofun }

/-- Whoever works on a round was greeted before. -/
theorem readySent_of_turn (h : Greeted v c s) (ht : InTurn v c s)
    (hs : s.point.turn ≠ .idles) : s.server.readySent = true := by
  have hasks : c.point.turn = .asks :=
    Decidable.byContradiction fun hnot => hs (ht.turns.idles_of_ne_asks hnot)
  exact h.met (Client.Point.connected_of_asks hasks)

end Greeted

/-! ## Balanced -/

def Balanced (v : View) (c : Client.Call) (s : Server.Call) : Prop :=
  s.server.rounds + s.point.reports.toNat +
      (decide (v.record .start = Marker.start) || s.point.serves).toNat =
    c.client.rounds + c.point.opened.toNat

namespace Balanced

variable {peer : Side → PeerId} {v v' : View} {c c' : Client.Call} {s s' : Server.Call}

theorem fresh {k : Client} {g : Client.Goal} {k' : Server} {g' : Server.Goal}
    (hzero : ∀ f, v.record f = 0) (hk : k.rounds = 0) (hk' : k'.rounds = 0) :
    Balanced v ⟨k, g, .identify⟩ ⟨k', g', .identify⟩ := by
  rw [Balanced, hzero .start, show (Client.Call.mk k g .identify).client.rounds = 0 from hk,
    show (Server.Call.mk k' g' .identify).server.rounds = 0 from hk']
  rfl

theorem client (h : Balanced v c s) (hf : Faithful peer v c s) (ht : InTurn v c s)
    (hgoes : Client.Goes (peer .client) v c v' c') : Balanced v' c' s := by
  cases hgoes with
  | heededShutdown hw | enteredShutdown hw | checkedShutdown hw => exact absurd hf.shutdown hw
  | heededServer _ hb | loweredLast _ hb | passedLast _ _ _ hb =>
      rw [Balanced, hb.client, hb.opened]
      exact h
  | raised =>
      have hidles := ht.turns.idles_of_ne_asks (show Client.Turn.rests ≠ .asks by decide)
      have hturns := ht.turns
      rw [hidles] at hturns
      rw [Balanced, hturns.1, Server.Point.not_serves_of_idles hidles] at h
      exact congrArg Nat.succ h
  | @stoppedKnown _ _ cause => cases cause <;> exact h
  | @stoppedAlone _ _ _ _ hn _ => exact nomatch hn.symm.trans (hf.server_eq rfl)
  | rung hs => cases hs <;> exact h
  | _ => exact h

theorem settled (h : Balanced v c s) {k : Server} {g : Server.Goal} (hs : Server.Settled k g s')
    (hrounds : k.rounds = s.server.rounds + s.point.reports.toNat)
    (hserves : s.point.serves = false) : Balanced v c s' := by
  rw [Balanced, hs.server, hs.reports, Server.Point.not_serves_of_idles hs.turn, hrounds]
  rw [Balanced, hserves] at h
  exact h

theorem server (h : Balanced v c s) (hf : Faithful peer v c s) (ht : InTurn v c s)
    (hgoes : Server.Goes (peer .server) v s v' s') : Balanced v' c s' := by
  cases hgoes with
  | @readiedKnown k g _ _ _ hs =>
      have hready : Balanced (v.store .ready Marker.ready) c ⟨k, g, .listen⟩ := h
      exact hready.settled hs rfl rfl
  | sawNobody _ hs | ignored _ _ hs | sawNoCaller _ hs => exact h.settled hs rfl rfl
  | @greeted k g _ _ _ hs =>
      have hraised : Balanced (v.raise .client) c ⟨k, g, .listen⟩ := h
      exact hraised.settled hs rfl rfl
  | @told k g p _ hs =>
      have hraised : Balanced (v.raise .client) c ⟨k, g, .tellCaller p⟩ := h
      exact hraised.settled hs rfl rfl
  | checkedShutdown _ he =>
      rw [Balanced, he.server, he.reports, Server.Point.not_serves_of_idles he.turn]
      exact h
  | recheckedShutdown hw _ =>
      have hasks := ht.turns.asks_of_serves
      exact nomatch (Client.Point.turn_of_left (hf.left_iff.mpr hw)).symm.trans hasks
  | lowered =>
      have hturns := ht.turns
      have hstart : v.record .start = Marker.start := by
        generalize c.point.turn = turn at hturns
        cases turn with
        | asks => exact hturns.1
        | rests | lowers => exact hturns.elim
      rw [Balanced, hstart] at h
      exact h
  | raised =>
      have hturns := ht.turns
      have hasks := hturns.asks_of_serves
      rw [hasks] at hturns
      have hstart : v.record .start = 0 := hturns.1
      rw [Balanced, hstart] at h
      rw [Balanced, show (v.store .done Marker.done).record .start = 0 from hstart]
      exact h
  | _ => exact h

/-- Once the client has returned, and the server is idle, every round that was asked for was
served. -/
theorem rounds_eq (h : Balanced v c s) (ht : InTurn v c s) (hc : c.point.turn = .rests)
    (hs : s.point.reports = false) :
    s.server.rounds = c.client.rounds + c.point.opened.toNat := by
  have hidles := ht.turns.idles_of_ne_asks (by rw [hc]; decide)
  have hturns := ht.turns
  rw [hc, hidles] at hturns
  rw [Balanced, hturns.1, hs, Server.Point.not_serves_of_idles hidles] at h
  exact h

end Balanced

end PeerBus
