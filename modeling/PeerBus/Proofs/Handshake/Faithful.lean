/-
# `PeerBus.Proofs.Handshake.Faithful` — the record tells the truth

Four fields of the control record say where the two programs are: each id is published exactly
from its own program's point on, `ready` is set exactly when the server is announced, and
`shutdown` exactly when the client has left.  With this go the facts that a client only goes on
after it has seen a server that is ready, that each role knows the other by its right name, and
that a server ends only after its client has left.

`Faithful` is kept by every step of either role (`Faithful.client`, `Faithful.server`), and so by
every step of a net.
-/
import PeerBus.Proofs.Handshake.Net

namespace PeerBus

structure Faithful (peer : Side → PeerId) (v : View) (c : Client.Call) (s : Server.Call) :
    Prop where
  ivServer : v.record .ivServer =
    if s.point.published then Published.encode (peer .server) else 0
  ivClient : v.record .ivClient =
    if c.point.published then Published.encode (peer .client) else 0
  ready : v.record .ready = if s.point.announced then Marker.ready else 0
  shutdown : v.record .shutdown = if c.point.left then 1 else 0
  clientSelf : ∀ {p}, c.point = .publish p → p = peer .client
  serverSelf : ∀ {p}, s.point = .publish p → p = peer .server
  clientPeer : ∀ {p}, c.point.peer? = some p → p = peer .server
  serverPeer : ∀ {p}, s.point.peer? = some p → p = peer .client
  known : ∀ {p}, c.client.server = some p → p = peer .server
  linked : c.client.server.isSome = c.point.connected
  met : c.point.sawReady = true → s.point.announced = true
  ended : s.point.ended = true → c.point.left = true

namespace Faithful

variable {peer : Side → PeerId} {v v' : View} {c c' : Client.Call} {s s' : Server.Call}

/-! ## Reading the record -/

theorem announced_of_ready (h : Faithful peer v c s) (hr : v.record .ready = Marker.ready) :
    s.point.announced = true := by
  cases ha : s.point.announced with
  | true => rfl
  | false =>
      have hzero := h.ready
      rw [ha, hr] at hzero
      exact absurd hzero (by decide)

theorem not_announced (h : Faithful peer v c s) (hr : v.record .ready ≠ Marker.ready) :
    s.point.announced = false := by
  cases ha : s.point.announced with
  | false => rfl
  | true =>
      have hready := h.ready
      rw [ha] at hready
      exact absurd hready hr

theorem left_iff (h : Faithful peer v c s) : c.point.left = true ↔ v.record .shutdown ≠ 0 := by
  rw [h.shutdown]
  cases c.point.left <;> decide

theorem not_left_of_not_announced (h : Faithful peer v c s) (hs : s.point.announced = false) :
    c.point.left = false := by
  cases hl : c.point.left with
  | false => rfl
  | true =>
      have hmet := h.met (Client.Point.sawReady_of_connected (Client.Point.connected_of_left hl))
      exact absurd (hs.symm.trans hmet) (by decide)

theorem decode?_zero : Published.decode? 0 = none := by
  decide

theorem server_of_decode (h : Faithful peer v c s) {p : PeerId}
    (hp : Published.decode? (v.record .ivServer) = some p) : p = peer .server := by
  rw [h.ivServer] at hp
  cases hs : s.point.published with
  | true =>
      rw [hs, if_pos rfl, Published.decode?_encode] at hp
      exact (Option.some.inj hp).symm
  | false =>
      rw [hs, if_neg (by decide), decode?_zero] at hp
      exact nomatch hp

theorem client_of_decode (h : Faithful peer v c s) {p : PeerId}
    (hp : Published.decode? (v.record .ivClient) = some p) : p = peer .client := by
  rw [h.ivClient] at hp
  cases hc : c.point.published with
  | true =>
      rw [hc, if_pos rfl, Published.decode?_encode] at hp
      exact (Option.some.inj hp).symm
  | false =>
      rw [hc, if_neg (by decide), decode?_zero] at hp
      exact nomatch hp

theorem decode_server (h : Faithful peer v c s) (hs : s.point.published = true) :
    Published.decode? (v.record .ivServer) = some (peer .server) := by
  rw [h.ivServer, hs, if_pos rfl, Published.decode?_encode]

theorem decode_client (h : Faithful peer v c s) (hc : c.point.published = true) :
    Published.decode? (v.record .ivClient) = some (peer .client) := by
  rw [h.ivClient, hc, if_pos rfl, Published.decode?_encode]

theorem server_eq (h : Faithful peer v c s) (hc : c.point.connected = true) :
    c.client.server = some (peer .server) := by
  cases hk : c.client.server with
  | some p => rw [h.known hk]
  | none =>
      have hlinked := h.linked
      rw [hk, hc] at hlinked
      exact absurd hlinked (by decide)

/-! ## The beginning -/

/-- Before either role has done anything. -/
theorem fresh {k : Client} {g : Client.Goal} {k' : Server} {g' : Server.Goal}
    (hzero : ∀ f, v.record f = 0) (hk : k.server = none) :
    Faithful peer v ⟨k, g, .identify⟩ ⟨k', g', .identify⟩ where
  ivServer := hzero .ivServer
  ivClient := hzero .ivClient
  ready := hzero .ready
  shutdown := hzero .shutdown
  clientSelf := nofun
  serverSelf := nofun
  clientPeer := nofun
  serverPeer := nofun
  known := fun hp => nomatch hk.symm.trans hp
  linked := by rw [hk]; rfl
  met := nofun
  ended := nofun

/-! ## Steps of the client -/

theorem between (h : Faithful peer v c s) (hpub : c.point.published = true)
    (hleft : c.point.left = false) (hmet : s.point.announced = true) {k : Client}
    {g : Client.Goal} {p : PeerId} (hk : k.server = some (peer .server)) (hp : p = peer .server)
    (hb : Client.Between k p g c') : Faithful peer v c' s := by
  have hsame : Faithful peer v ⟨k, g, .stop none⟩ s :=
    { h with
      ivClient := by rw [h.ivClient, hpub]; rfl
      shutdown := by rw [h.shutdown, hleft]; rfl
      clientSelf := nofun
      clientPeer := nofun
      known := fun hq => (Option.some.inj (hk.symm.trans hq)).symm
      linked := by rw [hk]; rfl
      met := fun _ => hmet
      ended := fun he => absurd (hleft.symm.trans (h.ended he)) (by decide) }
  cases hb with
  | asked | next _ =>
      exact { hsame with clientSelf := nofun, clientPeer := fun hq => by cases hq; exact hp }
  | found _ | verified _ | enough _ =>
      exact { hsame with clientSelf := nofun, clientPeer := nofun }

theorem client (h : Faithful peer v c s) (hfits : c.Fits)
    (hgoes : Client.Goes (peer .client) v c v' c') : Faithful peer v' c' s := by
  cases hgoes with
  | identified => exact { h with clientSelf := fun hp => by cases hp; rfl }
  | published =>
      obtain rfl := h.clientSelf rfl
      exact { h with ivClient := rfl, clientSelf := nofun }
  | sawReady hr | heededReady hr =>
      exact { h with clientSelf := nofun, met := fun _ => h.announced_of_ready hr }
  | sawServer hw =>
      exact { h with
        clientSelf := nofun
        clientPeer := fun hp => by cases hp; exact h.server_of_decode hw }
  | heededServer hw hb =>
      have hp := h.server_of_decode hw
      exact h.between rfl rfl (h.met rfl) (congrArg some hp) hp hb
  | heededShutdown hw | enteredShutdown hw | checkedShutdown hw => exact absurd h.shutdown hw
  | @loweredLast k g r _ _ hb =>
      have hdone : Faithful peer (v.store .done 0) ⟨k, g, .lowerDone r⟩ s := { h with }
      have hk : (Client.countRound k).server = some (peer .server) := h.server_eq rfl
      exact hdone.between rfl rfl (h.met rfl) hk (h.clientPeer rfl) hb
  | @passedLast k _ _ _ _ _ _ _ _ hb =>
      have hk : (Client.countRound (Client.Call.countPass k)).server = some (peer .server) :=
        h.server_eq rfl
      exact h.between rfl rfl (h.met rfl) hk (h.clientPeer rfl) hb
  | stoppedKnown hk =>
      exact { h with
        shutdown := rfl
        clientSelf := nofun
        clientPeer := fun hp => by cases hp; exact h.known hk
        ended := fun _ => rfl }
  | stoppedAlone hn _ => exact nomatch hn.symm.trans (h.server_eq rfl)
  | rung hs =>
      cases hs with
      | failed | finished => exact { h with clientSelf := nofun, clientPeer := nofun }
      | done hg => exact absurd (hg.symm.trans hfits) (by decide)
  | sawNotReady _ | sawNobody _ | greeted | heard _ | heededOpen _ | heededNotReady _
  | heededNobody _ => exact { h with clientSelf := nofun, clientPeer := nofun, met := nofun }
  | mismatched _ => exact { h with clientSelf := nofun, clientPeer := nofun }
  | _ => exact { h with clientSelf := nofun }

theorem call_round {k : Client} {g : Client.Goal} {ended : Ended}
    (h : Faithful peer v ⟨k, g, .returned ended⟩ s) (seed : UInt32) :
    Client.call k (.round seed) = ⟨k, .round seed, .enter ⟨peer .server, seed⟩⟩ := by
  have hk : k.server = some (peer .server) := h.server_eq rfl
  simp only [Client.call, hk]

/-- The next round of a client. -/
theorem round {k : Client} {g : Client.Goal} {a : Achieved}
    (h : Faithful peer v ⟨k, g, .returned (.ok a)⟩ s) (ha : (∃ p, a = .peer p) ∨ a = .done)
    (seed : UInt32) : Faithful peer v (Client.call k (.round seed)) s := by
  have hleft : (Client.Point.returned (.ok a)).left = false := by
    rcases ha with ⟨p, rfl⟩ | rfl
    · rfl
    · rfl
  rw [h.call_round]
  exact h.between rfl hleft (h.met rfl) (h.server_eq rfl) rfl .asked

/-! ## Steps of the server -/

theorem listening (h : Faithful peer v c s) (hs : s.point.announced = true) (k : Server)
    (g : Server.Goal) : Faithful peer v c ⟨k, g, .listen⟩ :=
  { h with
    ivServer := by rw [h.ivServer, Server.Point.published_of_announced hs]; rfl
    ready := by rw [h.ready, hs]; rfl
    serverSelf := nofun
    serverPeer := nofun
    met := fun _ => rfl
    ended := nofun }

theorem settled (h : Faithful peer v c s) (hs : s.point.announced = true) {k : Server}
    {g : Server.Goal} (hsettled : Server.Settled k g s') : Faithful peer v c s' := by
  have hlisten := h.listening hs k g
  cases hsettled with
  | listens => exact hlisten
  | announced _ | served _ => exact { hlisten with serverSelf := nofun, serverPeer := nofun }

theorem ends (h : Faithful peer v c s) (hs : s.point.announced = true)
    (hw : v.record .shutdown ≠ 0) {k : Server} {g : Server.Goal}
    (hended : Server.Ended k g s') : Faithful peer v c s' := by
  have hlisten := h.listening hs k g
  cases hended with
  | finished | stops _ =>
      exact { hlisten with
        serverSelf := nofun
        serverPeer := nofun
        ended := fun _ => h.left_iff.mpr hw }

theorem server (h : Faithful peer v c s) (hgoes : Server.Goes (peer .server) v s v' s') :
    Faithful peer v' c s' := by
  cases hgoes with
  | identified => exact { h with serverSelf := fun hp => by cases hp; rfl }
  | published =>
      obtain rfl := h.serverSelf rfl
      exact { h with ivServer := rfl, serverSelf := nofun }
  | cleared =>
      have hleft := h.not_left_of_not_announced rfl
      exact { h with
        shutdown := by rw [hleft]; rfl
        serverSelf := nofun }
  | readied _ =>
      exact { h with
        ready := rfl
        serverSelf := nofun
        serverPeer := nofun
        met := fun _ => rfl }
  | @readiedKnown k g _ _ _ hs =>
      have hready : Faithful peer (v.store .ready Marker.ready) c ⟨k, g, .listen⟩ :=
        { h with
          ready := rfl
          serverSelf := nofun
          serverPeer := nofun
          met := fun _ => rfl }
      exact hready.settled rfl hs
  | sawClient hw | sawCaller hw =>
      exact { h with
        serverSelf := nofun
        serverPeer := fun hp => by cases hp; exact h.client_of_decode hw }
  | @greeted k g p a _ hs =>
      have hraised : Faithful peer (v.raise .client) c ⟨k, g, .greetClient p a⟩ := { h with }
      exact hraised.settled rfl hs
  | @told k g p _ hs =>
      have hraised : Faithful peer (v.raise .client) c ⟨k, g, .tellCaller p⟩ := { h with }
      exact hraised.settled rfl hs
  | sawNobody _ hs | ignored _ _ hs | sawNoCaller _ hs => exact h.settled rfl hs
  | checkedShutdown hw he | recheckedShutdown hw he => exact h.ends rfl hw he
  | _ => exact { h with serverSelf := nofun, serverPeer := nofun }

/-- The next doorbell of a server. -/
theorem serve {k : Server} {g : Server.Goal} {a : Achieved}
    (h : Faithful peer v c ⟨k, g, .returned (.ok a)⟩) :
    Faithful peer v c (Server.call k .serveOnce) :=
  { h with serverSelf := nofun, serverPeer := nofun, ended := nofun }

end Faithful

end PeerBus
