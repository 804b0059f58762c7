/-
# `PeerBus.Proofs.Handshake.Net` — a client and a server without their machine

A `Net` is what counts in a system: the view that the two roles share, and where each of them is.
Every act of a system is a step of its net (`Link.Sane.step`), so what the steps of nets preserve
holds in every state that a system reaches (`Link.Sane.run`).
-/
import PeerBus.Proofs.Handshake.Pair
import PeerBus.Proofs.Machine.Attach

namespace PeerBus

structure Net where
  view : View
  client : Client.Call
  server : Server.Call

namespace Net

/-- The acts of a system, as they show in its net. -/
inductive Step (peer : Side → PeerId) : Net → Act → Net → Prop
  | idle {n : Net} {a : Act} : Step peer n a n
  | client {v v' : View} {c c' : Client.Call} {s : Server.Call} :
      Client.Goes (peer .client) v c v' c' → Step peer ⟨v, c, s⟩ .client ⟨v', c', s⟩
  | server {v v' : View} {c : Client.Call} {s s' : Server.Call} :
      Server.Goes (peer .server) v s v' s' → Step peer ⟨v, c, s⟩ .server ⟨v', c, s'⟩
  | stray {v : View} {c : Client.Call} {s : Server.Call} {x : Side} {status : UInt32}
      {force : Bool} : Step peer ⟨v, c, s⟩ (.stray x status force) ⟨v.raise x, c, s⟩
  | spoil {v : View} {c : Client.Call} {s : Server.Call} {offset : UInt64} {data : List UInt8}
      (slot : Nat → UInt32) :
      Step peer ⟨v, c, s⟩ (.spoil offset data) ⟨{ v with slot := slot }, c, s⟩
  | round {v : View} {k : Client} {g : Client.Goal} {a : Achieved} {s : Server.Call}
      {seed : UInt32} : ((∃ p, a = .peer p) ∨ a = .done) →
      Step peer ⟨v, ⟨k, g, .returned (.ok a)⟩, s⟩ (.round seed)
        ⟨v, Client.call k (.round seed), s⟩
  | serve {v : View} {c : Client.Call} {k : Server} {g : Server.Goal} {a : Achieved} :
      ((∃ p, a = .peer p) ∨ a = .goesOn true) →
      Step peer ⟨v, c, ⟨k, g, .returned (.ok a)⟩⟩ .serve ⟨v, c, Server.call k .serveOnce⟩

/-- The roles ring only each other, and the server writes only slots that there are. -/
structure Proper (peer : Side → PeerId) (n : Net) : Prop where
  client : ∀ {p}, n.client.point.peer? = some p → p = peer .server
  server : ∀ {p}, n.server.point.peer? = some p → p = peer .client
  fits : n.server.Fits

end Net

namespace Link

def peer (w : Link) (x : Side) : PeerId := (w.port x).peer

def net (w : Link) (s : System) : Net := ⟨w.view s.machine, s.client.role, s.server.role⟩

/-- Two roles at the two sides of a link that is up, in one session of its window. -/
structure Sane (w : Link) (session : Session) (s : System) : Prop where
  up : w.Up s.machine
  holds : w.Holds session s.machine
  client : w.Seated session .client s.machine s.client
  server : w.Seated session .server s.machine s.server

variable {w : Link} {session : Session} {s t : System} {a : Act}

theorem proper_client {c : Client.Call} (hc : ∀ {p}, c.point.peer? = some p → p = w.peer .server)
    {move : Move Client.Call} (hmove : c.move = some move) : w.Proper session .client move := by
  obtain ⟨k, g, point⟩ := c
  cases point with
  | hello | callServer | farewell => cases hmove; exact hc rfl
  | returned => exact nomatch hmove
  | _ => cases hmove; trivial

theorem proper_server {c : Server.Call} (hc : ∀ {p}, c.point.peer? = some p → p = w.peer .client)
    (hfits : c.Fits) {move : Move Server.Call} (hmove : c.move = some move) :
    w.Proper c.server.session .server move := by
  obtain ⟨k, g, point⟩ := c
  cases point with
  | greetClient | tellCaller => cases hmove; exact hc rfl
  | fill => cases hmove; exact hfits.2
  | returned => exact nomatch hmove
  | _ => cases hmove; trivial

/-- A role that has returned is awake. -/
theorem Seated.sleep_eq_none {ρ : Type} [Role ρ] {x : Side} {m : Machine} {p : Player ρ}
    (h : w.Seated session x m p) (hmove : Role.move p.role = none) : p.sleep = none := by
  cases hs : p.sleep with
  | none => rfl
  | some next => exact nomatch hmove.symm.trans (h.waiting hs)

theorem Sane.step_client (h : w.Sane session s) (hp : (w.net s).Proper w.peer)
    (hstep : w.Step s .client t) :
    w.Sane session t ∧ Net.Step w.peer (w.net s) .client (w.net t) := by
  obtain ⟨⟨m', p'⟩, hturn, rfl⟩ := Option.map_eq_some_iff.mp hstep
  obtain ⟨hk, hclient, hcases⟩ := h.client.turn h.up h.holds (proper_client hp.client)
    (fun hmove hperform =>
      have hsame := (Client.goes_of_perform hmove hperform).same
      ⟨hsame.1, hsame.2.1⟩) hturn
  refine ⟨⟨hk.up, hk.holds, hclient, { h.server with sole := hk.other h.server.sole }⟩, ?_⟩
  rcases hcases with ⟨hrole, hview⟩ | ⟨move, hmove, hperform⟩
  · simp only [net, hrole, hview]
    exact .idle
  · exact .client (Client.goes_of_perform hmove hperform)

theorem Sane.step_server (h : w.Sane session s) (hp : (w.net s).Proper w.peer)
    (hstep : w.Step s .server t) :
    w.Sane session t ∧ Net.Step w.peer (w.net s) .server (w.net t) := by
  obtain ⟨⟨m', p'⟩, hturn, rfl⟩ := Option.map_eq_some_iff.mp hstep
  have hproper : ∀ {move}, Role.move s.server.role = some move → w.Proper session .server move :=
    fun hmove => h.server.session ▸ proper_server hp.server hp.fits hmove
  obtain ⟨hk, hserver, hcases⟩ := h.server.turn h.up h.holds hproper
    (fun hmove hperform =>
      have hsame := (Server.goes_of_perform hmove hperform).same
      ⟨hsame.1, hsame.2.1⟩) hturn
  refine ⟨⟨hk.up, hk.holds, { h.client with sole := hk.other h.client.sole }, hserver⟩, ?_⟩
  rcases hcases with ⟨hrole, hview⟩ | ⟨move, hmove, hperform⟩
  · simp only [net, hrole, hview]
    exact .idle
  · exact .server (Server.goes_of_perform hmove hperform)

theorem Sane.step_round {seed : UInt32} (h : w.Sane session s)
    (hstep : w.Step s (.round seed) t) :
    w.Sane session t ∧ Net.Step w.peer (w.net s) (.round seed) (w.net t) := by
  obtain ⟨m, ⟨⟨k, g, point⟩, sleep⟩, server⟩ := s
  have hreturned : ∀ {a}, point = .returned (.ok a) → ((∃ p, a = .peer p) ∨ a = .done) →
      t = ⟨m, ⟨Client.call k (.round seed), none⟩, server⟩ →
      w.Sane session t ∧ Net.Step w.peer ⟨w.view m, ⟨k, g, point⟩, server.role⟩ (.round seed)
        (w.net t) := by
    rintro a rfl ha rfl
    obtain rfl : sleep = none := h.client.sleep_eq_none rfl
    exact ⟨⟨h.up, h.holds, ⟨h.client.device, h.client.session, h.client.sole, nofun⟩, h.server⟩,
      .round ha⟩
  simp only [Step, act] at hstep
  split at hstep
  · cases hstep
    exact hreturned rfl (.inl ⟨_, rfl⟩) rfl
  · cases hstep
    exact hreturned rfl (.inr rfl) rfl
  · exact nomatch hstep

theorem Sane.step_serve (h : w.Sane session s) (hstep : w.Step s .serve t) :
    w.Sane session t ∧ Net.Step w.peer (w.net s) .serve (w.net t) := by
  obtain ⟨m, client, ⟨⟨k, g, point⟩, sleep⟩⟩ := s
  have hreturned : ∀ {a}, point = .returned (.ok a) → ((∃ p, a = .peer p) ∨ a = .goesOn true) →
      t = ⟨m, client, ⟨Server.call k .serveOnce, none⟩⟩ →
      w.Sane session t ∧ Net.Step w.peer ⟨w.view m, client.role, ⟨k, g, point⟩⟩ .serve
        (w.net t) := by
    rintro a rfl ha rfl
    obtain rfl : sleep = none := h.server.sleep_eq_none rfl
    exact ⟨⟨h.up, h.holds, h.client, ⟨h.server.device, h.server.session, h.server.sole, nofun⟩⟩,
      .serve ha⟩
  simp only [Step, act] at hstep
  split at hstep
  · cases hstep
    exact hreturned rfl (.inl ⟨_, rfl⟩) rfl
  · cases hstep
    exact hreturned rfl (.inr rfl) rfl
  · exact nomatch hstep

/-- Every act of a sane system is a step of its net. -/
theorem Sane.step (h : w.Sane session s) (hp : (w.net s).Proper w.peer) (hstep : w.Step s a t) :
    w.Sane session t ∧ Net.Step w.peer (w.net s) a (w.net t) := by
  cases a with
  | client => exact h.step_client hp hstep
  | server => exact h.step_server hp hstep
  | round seed => exact h.step_round hstep
  | serve => exact h.step_serve hstep
  | stray x status force =>
      simp only [Step, act] at hstep
      split at hstep
      · rename_i hs
        cases hstep
        rw [h.up.deliver x hs]
        refine ⟨⟨h.up.notified x, ⟨h.holds.region, h.holds.room⟩,
          { h.client with sole := h.up.sole_notified x h.client.sole },
          { h.server with sole := h.up.sole_notified x h.server.sole }⟩, ?_⟩
        simp only [net, view_notified h.up]
        exact .stray
      · exact nomatch hstep
  | spoil offset data =>
      simp only [Step, act] at hstep
      split at hstep
      · rename_i hoff
        cases hstep
        have hk : w.Keeps session .client s.machine
            (s.machine.writeRegion w.region offset data).1 :=
          .modifyRegion h.up h.holds .client fun memory => Memory.size_bytes_writeAt ..
        obtain ⟨slot, hview⟩ := view_writeRegion h.up h.holds hoff data
        refine ⟨⟨hk.up, hk.holds, { h.client with }, { h.server with }⟩, ?_⟩
        simp only [net, hview]
        exact .spoil slot
      · exact nomatch hstep

/-- What the steps of nets preserve holds in every state that a sane system reaches. -/
theorem Sane.run {P : Net → Prop} {allowed : Act → Prop} {acts : List Act}
    (hproper : ∀ {n}, P n → n.Proper w.peer)
    (hkeep : ∀ {n a n'}, allowed a → P n → Net.Step w.peer n a n' → P n')
    (h : w.Sane session s) (hP : P (w.net s)) (hrun : Run w.Step s acts t)
    (hall : ∀ a ∈ acts, allowed a) : w.Sane session t ∧ P (w.net t) := by
  refine hrun.preserves_of_forall (P := fun s => w.Sane session s ∧ P (w.net s)) ?_ hall ⟨h, hP⟩
  intro s a t ha ⟨hsane, hP⟩ hstep
  obtain ⟨hsane', hnet⟩ := hsane.step (hproper hP) hstep
  exact ⟨hsane', hkeep ha hP hnet⟩

/-! ## The beginning -/

/-- A client that nobody has called yet. -/
def freshClient (w : Link) (session : Session) (config : Side → Config) : Client where
  device := (w.port .client).device
  session := session
  config := config .client

/-- A server that nobody has called yet. -/
def freshServer (w : Link) (session : Session) (config : Side → Config) : Server where
  device := (w.port .server).device
  session := session
  config := config .server

/-- The first call of a client and the first call of a server, on devices whose waits are in
order, in a window of zeros that has slots. -/
structure Opening (w : Link) (session : Session) (config : Side → Config) (goal : Client.Goal)
    (goal' : Server.Goal) (s : System) : Prop where
  up : w.Up s.machine
  opened : ∀ x, (w.event s.machine x).gate.closed = false
  calm : ∀ x, (w.event s.machine x).gate.pending = false
  nobody : ∀ x, (w.event s.machine x).parked = []
  window : ∃ size, s.machine.regions.get w.region = Memory.zeroed size ∧
    Session.open? w.region size = .ok session
  client : s.client = { role := Client.call (w.freshClient session config) goal }
  server : s.server = { role := Server.call (w.freshServer session config) goal' }

variable {config : Side → Config} {goal : Client.Goal} {goal' : Server.Goal}

theorem Opening.slots (h : w.Opening session config goal goal' s) : 0 < session.slots.toNat := by
  obtain ⟨size, -, hopen⟩ := h.window
  exact (Session.of_open hopen).2.1

theorem Opening.sane (h : w.Opening session config goal goal' s) : w.Sane session s := by
  obtain ⟨size, hzero, hopen⟩ := h.window
  obtain ⟨hregion, -, hroom⟩ := Session.of_open hopen
  have hsole : ∀ x, (w.event s.machine x).Sole (w.port x).call false := fun x =>
    ⟨h.opened x, h.calm x, fun _ => h.nobody x, nofun⟩
  refine ⟨h.up, ⟨hregion, ?_⟩, ?_, ?_⟩
  · rw [hzero, Memory.size_bytes_zeroed]
    exact hroom
  · rw [h.client]
    exact ⟨rfl, rfl, hsole .client, nofun⟩
  · rw [h.server]
    exact ⟨rfl, rfl, hsole .server, nofun⟩

theorem Opening.record_eq (h : w.Opening session config goal goal' s) (f : Field) :
    (w.view s.machine).record f = 0 := by
  obtain ⟨size, hzero, hopen⟩ := h.window
  obtain ⟨-, -, hroom⟩ := Session.of_open hopen
  show (s.machine.regions.get w.region).field f = 0
  rw [hzero]
  exact Memory.field_zeroed (by omega) f

theorem Opening.client_role (h : w.Opening session config goal goal' s)
    (hgoal : goal ≠ .shutdown) :
    s.client.role = ⟨w.freshClient session config, goal, .identify⟩ := by
  rw [h.client]
  cases goal with
  | shutdown => exact absurd rfl hgoal
  | _ => rfl

theorem Opening.server_role (h : w.Opening session config goal goal' s)
    (hgoal : goal' ≠ .serveOnce) :
    s.server.role = ⟨w.freshServer session config, goal', .identify⟩ := by
  rw [h.server]
  cases goal' with
  | serveOnce => exact absurd rfl hgoal
  | _ => rfl

/-! ## A fabric of their own -/

/-- A client and a server that are about to be called. -/
def begun (w : Link) (m : Machine) (session : Session) (config : Side → Config)
    (goal : Client.Goal) (goal' : Server.Goal) : System where
  machine := m
  client := { role := Client.call (w.freshClient session config) goal }
  server := { role := Server.call (w.freshServer session config) goal' }

/-- Two peers that are attached to a new fabric, whose window has slots, can begin. -/
theorem opening_begun (m : Machine) {size : UInt64} {peer : Side → PeerId}
    (hopen : Session.open? m.regions.fresh size = .ok session)
    (hne : peer .client ≠ peer .server) (call : Side → CallId) (config : Side → Config)
    (goal : Client.Goal) (goal' : Server.Goal) :
    let fabric := m.addFabric size
    let w := made fabric.1 fabric.2 peer call
    w.Opening session config goal goal'
      (w.begun (attached fabric.1 fabric.2 peer) session config goal goal') := by
  intro fabric w
  have hnew : fabric.1.fabrics.get fabric.2 = { window := m.regions.fresh } :=
    Table.get_push_fresh ..
  have hregion : w.region = m.regions.fresh := congrArg Fabric.window hnew
  have hevent : ∀ x, w.event (attached fabric.1 fabric.2 peer) x = default :=
    fun x => event_made peer call x
  exact
    { up := up_made (Table.has_push_fresh ..) (congrArg Fabric.live hnew)
        (hregion.symm ▸ Table.has_push_fresh .. : fabric.1.regions.Has w.region) hne call
      opened := fun x => congrArg (fun e => e.gate.closed) (hevent x)
      calm := fun x => congrArg (fun e => e.gate.pending) (hevent x)
      nobody := fun x => congrArg (fun e => e.parked) (hevent x)
      window := by
        refine ⟨size, ?_, hregion ▸ hopen⟩
        show (attached fabric.1 fabric.2 peer).regions.get w.region = _
        rw [regions_attached, hregion]
        exact Table.get_push_fresh ..
      client := rfl
      server := rfl }

end Link

/-! ## A small system

The peers 1 and 2 on a fabric whose window has four slots, with two passes for the client and one
for the server. -/

namespace Small

def peer : Side → PeerId
  | .client => ⟨1⟩
  | .server => ⟨2⟩

def call : Side → CallId
  | .client => ⟨0⟩
  | .server => ⟨1⟩

def config : Side → Config
  | .client => { passes := 2, rounds := some 2 }
  | .server => { passes := 1 }

def seeds (round : Nat) : UInt32 := UInt32.ofNat (7 + round)

def session : Session := ⟨⟨0⟩, 4⟩

def fabric : Machine × Ref .fabric := Machine.addFabric {} 44

def link : Link := .made fabric.1 fabric.2 peer call

def system (goal : Client.Goal) (goal' : Server.Goal) : System :=
  link.begun (Link.attached fabric.1 fabric.2 peer) session config goal goal'

theorem opening (goal : Client.Goal) (goal' : Server.Goal) :
    link.Opening session config goal goal' (system goal goal') :=
  Link.opening_begun {} rfl (by decide) call config goal goal'

end Small

end PeerBus
