/-
# `PeerBus.Proofs.Handshake.Ringing` — what a client and a server ring, all told

A system is run together with its log: an access that rings adds its doorbell, as soon as the
machine has carried it to the peer (`Link.Logs`).  What the log says of a net is `Net.Recorded`: the
counts of the two programs, and that every doorbell is for the other side.

**What is proved.**  Whoever starts first, and whatever the order of the accesses, a session that
nobody else rings in has at most one greeting, none is missing once the client is connected or a
round is served, and in the end

    the server rang   1 greeting + r completions
    the client rang   at most 1 hello + r requests + 1 farewell

for the rounds `r` that the server served: `Link.doorbells_exact`.  These are the rounds of the
client's limit if the client succeeded.  A server of no passes answers a round with slots that it
has not filled, the client fails, and the session is short: `Small.short_of_limit`.
-/
import PeerBus.Proofs.Handshake.Doorbells

namespace PeerBus

open Bell (number sent)

/-! ## The log of a net -/

/-- Both sides are alert, and the log has every doorbell that they have written. -/
structure Net.Recorded (peer : Side → PeerId) (session : Session) (config : Side → Config)
    (limit : UInt64) (seeds : Nat → UInt32) (n : Net) (log : List Bell) : Prop where
  live : n.Live peer session config
  greeted : Greeted n.view n.client n.server
  balanced : Balanced n.view n.client n.server
  paced : n.client.point.failed = true ∨ n.client.Paced limit seeds
  fresh : n.client.point.connected = false → n.client.client.rounds = 0
  client : n.client.Rang log
  server : n.server.Rang log
  targets : ∀ b ∈ log, b.target = peer b.purpose.sender.other

namespace Net.Recorded

variable {peer : Side → PeerId} {session : Session} {config : Side → Config} {limit : UInt64}
  {seeds : Nat → UInt32} {n : Net} {log : List Bell} {v' : View} {c' : Client.Call}
  {s' : Server.Call}

/-- The next doorbell of the client is for the server. -/
theorem client_bell (h : n.Recorded peer session config limit seeds log) {b : Bell}
    (hb : b ∈ n.client.bell?.toList) :
    b.purpose.sender = .client ∧ b.target = peer b.purpose.sender.other := by
  obtain ⟨-, hsender, htarget⟩ := Client.Call.move_of_bell (Option.mem_toList.mp hb)
  rw [hsender]
  exact ⟨rfl, h.live.sound.faithful.clientPeer htarget⟩

/-- The next doorbell of the server is for the client. -/
theorem server_bell (h : n.Recorded peer session config limit seeds log) {b : Bell}
    (hb : b ∈ n.server.bell?.toList) :
    b.purpose.sender = .server ∧ b.target = peer b.purpose.sender.other := by
  obtain ⟨-, hsender, htarget⟩ := Server.Call.move_of_bell (Option.mem_toList.mp hb)
  rw [hsender]
  exact ⟨rfl, h.live.sound.faithful.serverPeer htarget⟩

theorem targets_append (h : n.Recorded peer session config limit seeds log) {more : List Bell}
    (hmore : ∀ b ∈ more, b.target = peer b.purpose.sender.other) :
    ∀ b ∈ log ++ more, b.target = peer b.purpose.sender.other := fun b hb =>
  (List.mem_append.mp hb).elim (h.targets b) (hmore b)

theorem step_client (h : n.Recorded peer session config limit seeds log)
    (hgoes : Client.Goes (peer .client) n.view n.client v' c') :
    Net.Recorded peer session config limit seeds ⟨v', c', n.server⟩
      (log ++ n.client.bell?.toList) where
  live := h.live.step (.client hgoes)
  greeted := h.greeted.client hgoes
  balanced := h.balanced.client h.live.sound.faithful h.live.sound.inTurn hgoes
  paced := hgoes.limited h.paced h.fresh
  fresh := hgoes.fresh h.fresh
  client := hgoes.rang h.live.sound.faithful h.live.sound.clientFits h.client
  server := h.server.append fun _ hb => (h.client_bell hb).1
  targets := h.targets_append fun _ hb => (h.client_bell hb).2

theorem step_server (h : n.Recorded peer session config limit seeds log)
    (hgoes : Server.Goes (peer .server) n.view n.server v' s') :
    Net.Recorded peer session config limit seeds ⟨v', n.client, s'⟩
      (log ++ n.server.bell?.toList) where
  live := h.live.step (.server hgoes)
  greeted := h.greeted.server h.live.sound.inTurn hgoes
  balanced := h.balanced.server h.live.sound.faithful h.live.sound.inTurn hgoes
  paced := h.paced
  fresh := h.fresh
  client := h.client.append fun _ hb => (h.server_bell hb).1
  server := by
    have hf := h.live.sound.faithful
    refine hgoes.rang (fun hstart => ?_) (fun hreports => ?_) h.server
    · have hasks := h.live.sound.inTurn.turns.asks_of_start hstart
      exact h.greeted.met (Client.Point.connected_of_asks hasks)
    · have hconnected := h.greeted.reported hreports
      rw [hf.decode_client (Client.Point.published_of_connected hconnected)]
      exact nofun
  targets := h.targets_append fun _ hb => (h.server_bell hb).2

/-! ### Reading the log -/

theorem greeting_le (h : n.Recorded peer session config limit seeds log) :
    number .greeting log ≤ 1 := by
  rw [h.server.greeting]
  exact Bool.toNat_le _

theorem greeting_eq (h : n.Recorded peer session config limit seeds log)
    (hsent : n.server.server.readySent = true) : number .greeting log = 1 := by
  rw [h.server.greeting, hsent]
  rfl

theorem greeting_of_connected (h : n.Recorded peer session config limit seeds log)
    (hc : n.client.point.connected = true) : number .greeting log = 1 :=
  h.greeting_eq (h.greeted.met hc)

theorem greeting_of_serving (h : n.Recorded peer session config limit seeds log)
    (hs : n.server.point.turn ≠ .idles ∨ 0 < n.server.server.rounds) :
    number .greeting log = 1 := by
  rcases hs with hturn | hrounds
  · exact h.greeting_eq (h.greeted.readySent_of_turn h.live.sound.inTurn hturn)
  · exact h.greeting_of_connected (h.greeted.counted hrounds)

theorem hello_le (h : n.Recorded peer session config limit seeds log) :
    number .hello log ≤ 1 :=
  Nat.le_trans (Nat.le_add_right _ _) h.client.hello

/-- A session that is over has a request for each round that was served, and one farewell. -/
theorem concluded (h : n.Recorded peer session config limit seeds log)
    (hclient : n.client.move = none) (hserver : n.server.move = none) :
    number .greeting log = 1 ∧ number .request log = n.server.server.rounds ∧
      number .farewell log = 1 := by
  have hsound := h.live.sound
  obtain ⟨ended, hpoint⟩ := Client.point_of_move_none hclient
  obtain ⟨sum, hpoint'⟩ := Server.summary_of_move_none hserver hsound.serverFits
    (hsound.serverRuns.mpr rfl)
  have hgone := Client.gone_of_move_none hclient hsound.clientFits hsound.clientRuns
  have hleft := Client.Point.left_of_gone hgone
  refine ⟨h.greeting_of_connected (Client.Point.connected_of_left hleft), ?_, ?_⟩
  · have hrounds := h.balanced.rounds_eq hsound.inTurn (Client.Point.turn_of_left hleft)
      (by rw [hpoint']; rfl)
    have hrequest := h.client.request
    rw [show n.client.point.calls = false by rw [hpoint]; rfl] at hrequest
    rw [hrounds, ← hrequest]
    rfl
  · rw [h.client.farewell, hgone]
    rfl

/-- If the client succeeded, the server has served the rounds of its limit. -/
theorem full (h : n.Recorded peer session config limit seeds log) {achieved : Achieved}
    (hclient : n.client.point = .returned (.ok achieved)) (hserver : n.server.move = none) :
    n.server.server.rounds = limit.toNat := by
  have hsound := h.live.sound
  have hmove : n.client.move = none := by
    rw [Client.Call.move, hclient]
  have hsuccess : n.client.point.failed = false := by
    rw [hclient]
    rfl
  obtain ⟨sum, hpoint⟩ := Client.summary_of_move_none hmove hsound.clientFits hsound.clientRuns
    hsuccess
  obtain ⟨sum', hpoint'⟩ := Server.summary_of_move_none hserver hsound.serverFits
    (hsound.serverRuns.mpr rfl)
  have hpaced := h.paced.resolve_left fun hfailed => nomatch hsuccess.symm.trans hfailed
  have hrounds := h.balanced.rounds_eq hsound.inTurn (by rw [hpoint]; rfl) (by rw [hpoint']; rfl)
  rw [hrounds, hpaced.reached (by rw [hpoint]; rfl), hpoint]
  rfl

end Net.Recorded

/-! ## The log of a system -/

/-- Nobody rings and nobody writes but the two roles. -/
def Act.Quiet : Act → Prop
  | .client | .server => True
  | _ => False

instance : (a : Act) → Decidable a.Quiet
  | .client | .server => .isTrue trivial
  | .stray _ _ _ | .spoil _ _ | .round _ | .serve => .isFalse id

theorem Act.Quiet.clean {a : Act} (h : a.Quiet) : a.Clean := by
  cases a with
  | spoil => exact h
  | _ => trivial

/-- The doorbell that an act writes. -/
def System.bell? (s : System) : Act → Option Bell
  | .client => s.client.role.bell?
  | .server => s.server.role.bell?
  | _ => none

namespace Link

/-- The steps of a system that keeps a log of its doorbells. -/
inductive Logs (w : Link) : System × List Bell → Act → System × List Bell → Prop
  | silent {s t : System} {log : List Bell} {a : Act} :
      w.Step s a t → s.bell? a = none → Logs w (s, log) a (t, log)
  | rings {s t : System} {log : List Bell} {a : Act} {b : Bell} :
      w.Step s a t → s.bell? a = some b →
      s.machine.ring (w.port b.purpose.sender).device b.target .waitEventIrq =
        (t.machine, .ok ()) →
      Logs w (s, log) a (t, log ++ [b])

variable {w : Link} {session : Session} {config : Side → Config} {limit : UInt64}
  {seeds : Nat → UInt32} {s t : System} {log : List Bell} {a : Act} {acts : List Act}

/-- A role that rings its peer is awake, and its doorbell gets there. -/
theorem Seated.ring {ρ : Type} [Role ρ] {x : Side} {m : Machine} {p : Player ρ}
    (h : w.Seated session x m p) (hup : w.Up m) {target : PeerId}
    {next : Except DeviceError Unit → ρ} (hmove : Role.move p.role = some (.ring target next))
    (htarget : target = w.peer x.other) :
    m.turn (w.port x).call p = some (w.notified x.other m, { role := next (.ok ()) }) ∧
      m.ring (w.port x).device target .waitEventIrq = (w.notified x.other m, .ok ()) := by
  subst htarget
  have hring := hup.ring x
  refine ⟨?_, hring⟩
  obtain ⟨role, sleep⟩ := p
  cases sleep with
  | some wait => exact nomatch hmove.symm.trans (h.waiting rfl)
  | none =>
      simp only [Machine.turn, Machine.advance, hmove, Option.map_some, h.device, Machine.perform]
      rw [show m.ring (w.port x).device (w.peer x.other) .waitEventIrq = _ from hring]

/-- An act of a role with no doorbell leaves the log as it is. -/
theorem Sane.silent (h : w.Sane session s)
    (hr : (w.net s).Recorded w.peer session config limit seeds log) (hquiet : a.Quiet)
    (hstep : w.Step s a t) (hb : s.bell? a = none) :
    (w.net t).Recorded w.peer session config limit seeds log := by
  obtain ⟨-, hnet⟩ := h.step hr.live.sound.proper hstep
  have hclient : a = .client → (w.net s).client.bell? = none := by
    rintro rfl
    exact hb
  have hserver : a = .server → (w.net s).server.bell? = none := by
    rintro rfl
    exact hb
  generalize w.net s = n at hr hnet hclient hserver
  generalize w.net t = n' at hnet
  cases hnet with
  | idle => exact hr
  | client hgoes =>
      have hnext := hr.step_client hgoes
      rw [hclient rfl, Option.toList_none, List.append_nil] at hnext
      exact hnext
  | server hgoes =>
      have hnext := hr.step_server hgoes
      rw [hserver rfl, Option.toList_none, List.append_nil] at hnext
      exact hnext
  | stray | spoil | round | serve => exact hquiet.elim

/-- A doorbell of the client. -/
theorem Sane.client_rings (h : w.Sane session s)
    (hr : (w.net s).Recorded w.peer session config limit seeds log) {b : Bell}
    (hstep : w.Step s .client t) (hb : s.client.role.bell? = some b) :
    w.Logs (s, log) .client (t, log ++ [b]) ∧
      (w.net t).Recorded w.peer session config limit seeds (log ++ [b]) := by
  obtain ⟨⟨next, hmove⟩, hsender, htarget⟩ := Client.Call.move_of_bell hb
  obtain ⟨hturn, hring⟩ := h.client.ring h.up hmove (hr.live.sound.faithful.clientPeer htarget)
  obtain rfl : t = ⟨w.notified .server s.machine, { role := next (.ok ()) }, s.server⟩ := by
    simp only [Step, act, hturn, Option.map_some, Option.some.injEq] at hstep
    exact hstep.symm
  have hgoes : Client.Goes (w.peer .client) (w.view s.machine) s.client.role
      (w.view (w.notified .server s.machine)) (next (.ok ())) :=
    Client.goes_of_perform hmove (by rw [view_notified h.up]; rfl)
  have hnext := hr.step_client hgoes
  rw [show (w.net s).client.bell? = some b from hb] at hnext
  exact ⟨.rings hstep hb (hsender ▸ hring), hnext⟩

/-- A doorbell of the server. -/
theorem Sane.server_rings (h : w.Sane session s)
    (hr : (w.net s).Recorded w.peer session config limit seeds log) {b : Bell}
    (hstep : w.Step s .server t) (hb : s.server.role.bell? = some b) :
    w.Logs (s, log) .server (t, log ++ [b]) ∧
      (w.net t).Recorded w.peer session config limit seeds (log ++ [b]) := by
  obtain ⟨⟨next, hmove⟩, hsender, htarget⟩ := Server.Call.move_of_bell hb
  obtain ⟨hturn, hring⟩ := h.server.ring h.up hmove (hr.live.sound.faithful.serverPeer htarget)
  obtain rfl : t = ⟨w.notified .client s.machine, s.client, { role := next (.ok ()) }⟩ := by
    simp only [Step, act, hturn, Option.map_some, Option.some.injEq] at hstep
    exact hstep.symm
  have hgoes : Server.Goes (w.peer .server) (w.view s.machine) s.server.role
      (w.view (w.notified .client s.machine)) (next (.ok ())) :=
    Server.goes_of_perform hmove (by rw [view_notified h.up]; rfl)
  have hnext := hr.step_server hgoes
  rw [show (w.net s).server.bell? = some b from hb] at hnext
  exact ⟨.rings hstep hb (hsender ▸ hring), hnext⟩

/-- An act of a role goes into the log, and the log stays right. -/
theorem Sane.logs (h : w.Sane session s)
    (hr : (w.net s).Recorded w.peer session config limit seeds log) (hquiet : a.Quiet)
    (hstep : w.Step s a t) :
    ∃ more, w.Logs (s, log) a (t, more) ∧
      (w.net t).Recorded w.peer session config limit seeds more := by
  cases hb : s.bell? a with
  | none => exact ⟨log, .silent hstep hb, h.silent hr hquiet hstep hb⟩
  | some b =>
      cases a with
      | client => exact ⟨_, h.client_rings hr hstep hb⟩
      | server => exact ⟨_, h.server_rings hr hstep hb⟩
      | stray | spoil | round | serve => exact hquiet.elim

theorem Opening.recorded (h : w.Opening session config (.run seeds 0) .run s)
    (hlimit : (config .client).rounds = some limit)
    (hunrung : (w.event s.machine .client).isSet = false) :
    (w.net s).Recorded w.peer session config limit seeds [] := by
  have hlive := h.live
  have hrecord := h.record_eq
  have hclient := h.client_role (by intro hgoal; cases hgoal)
  have hserver := h.server_role (by intro hgoal; cases hgoal)
  rw [net, hclient, hserver] at hlive ⊢
  exact
    { live := hlive
      greeted := .fresh hunrung rfl
      balanced := .fresh hrecord rfl rfl
      paced := .inr (.fresh hlimit rfl)
      fresh := fun _ => rfl
      client := .fresh rfl
      server := .fresh rfl rfl
      targets := fun _ hb => absurd hb List.not_mem_nil }

/-- Whatever a client and a server do, there is a log of it, and the log is right. -/
theorem Opening.logged (hopening : w.Opening session config (.run seeds 0) .run s)
    (hlimit : (config .client).rounds = some limit)
    (hunrung : (w.event s.machine .client).isSet = false) (hrun : Run w.Step s acts t)
    (hquiet : ∀ a ∈ acts, a.Quiet) :
    ∃ log, Run w.Logs (s, []) acts (t, log) ∧
      (w.net t).Recorded w.peer session config limit seeds log := by
  have hlogged : w.Sane session t ∧ ∃ log, Run w.Logs (s, []) acts (t, log) ∧
      (w.net t).Recorded w.peer session config limit seeds log := by
    refine hrun.history_of_forall (P := fun acts t => w.Sane session t ∧
      ∃ log, Run w.Logs (s, []) acts (t, log) ∧
        (w.net t).Recorded w.peer session config limit seeds log) ?_ hquiet
      ⟨hopening.sane, [], .nil, hopening.recorded hlimit hunrung⟩
    rintro acts t a u ha ⟨hsane, log, hlogs, hr⟩ hstep
    obtain ⟨more, hlog, hmore⟩ := hsane.logs hr ha hstep
    exact ⟨(hsane.step hr.live.sound.proper hstep).1, more, .snoc hlogs hlog, hmore⟩
  exact hlogged.2

/-- What a log says of the session so far, and of a session that is over. -/
structure Accounts (w : Link) (limit : UInt64) (t : System) (log : List Bell) : Prop where
  /-- Each side rings the other one and nobody else. -/
  targets : ∀ b ∈ log, b.target = w.peer b.purpose.sender.other
  greeting : number .greeting log ≤ 1
  hello : number .hello log ≤ 1
  /-- A client that is connected was greeted, by the server whose id is in the window. -/
  connected : t.client.role.point.connected = true →
    number .greeting log = 1 ∧ t.client.role.client.server = some (w.peer .server) ∧
      (t.machine.regions.get w.region).server? = some (w.peer .server)
  /-- A server that is in a round, or has served one, has greeted the client. -/
  serving : (t.server.role.point.turn ≠ .idles ∨ 0 < t.server.role.server.rounds) →
    number .greeting log = 1
  /-- Both sides have rung for the rounds that the server served, and one to begin or to end. -/
  concluded : Role.move t.client.role = none → Role.move t.server.role = none →
    sent .server log = t.server.role.server.rounds + 1 ∧
      (sent .client log = t.server.role.server.rounds + 1 ∨
        sent .client log = t.server.role.server.rounds + 2) ∧
      number .request log = t.server.role.server.rounds ∧ number .farewell log = 1
  /-- With a client that succeeded, the server has served the rounds of its limit. -/
  full : ∀ achieved, t.client.role.point = .returned (.ok achieved) →
    Role.move t.server.role = none → t.server.role.server.rounds = limit.toNat

theorem accounts (h : (w.net t).Recorded w.peer session config limit seeds log) :
    w.Accounts limit t log where
  targets := h.targets
  greeting := h.greeting_le
  hello := h.hello_le
  connected hc := by
    have hf := h.live.sound.faithful
    have hannounced := hf.met (Client.Point.sawReady_of_connected hc)
    exact ⟨h.greeting_of_connected hc, hf.server_eq hc,
      hf.decode_server (Server.Point.published_of_announced hannounced)⟩
  serving := h.greeting_of_serving
  concluded hclient hserver := by
    obtain ⟨hgreeting, hrequest, hfarewell⟩ := h.concluded hclient hserver
    have hcompletion := h.server.completion
    have hhello := h.hello_le
    have hserved : (w.net t).server.server.rounds = t.server.role.server.rounds := rfl
    rw [Bell.sent_server, Bell.sent_client]
    omega
  full _ hclient hserver := h.full hclient hserver

/-- Every doorbell of a client that runs up to a limit, and of a server that runs, is accounted
for in every state that they reach while nobody else rings or writes.  If a server of some passes
has returned, and the client too, the client succeeded. -/
theorem doorbells_exact (hopening : w.Opening session config (.run seeds 0) .run s)
    (hlimit : (config .client).rounds = some limit)
    (hunrung : (w.event s.machine .client).isSet = false) (hrun : Run w.Step s acts t)
    (hquiet : ∀ a ∈ acts, a.Quiet) :
    (∃ log, Run w.Logs (s, []) acts (t, log) ∧ w.Accounts limit t log) ∧
      (0 < (config .server).passes.toNat → Role.move t.client.role = none →
        ∃ achieved, t.client.role.point = .returned (.ok achieved)) := by
  constructor
  · obtain ⟨log, hlogs, hrecorded⟩ := hopening.logged hlimit hunrung hrun hquiet
    exact ⟨log, hlogs, accounts hrecorded⟩
  · intro hpasses hclient
    have hexact := hopening.exact_of_run nofun nofun ⟨fun _ => rfl, fun _ => rfl⟩ hpasses hrun
      fun a ha => (hquiet a ha).clean
    obtain ⟨sum, hpoint⟩ := Client.summary_of_move_none hclient hexact.sound.clientFits
      hexact.sound.clientRuns hexact.answered.success
    exact ⟨_, hpoint⟩

end Link

namespace Small

/-- Two rounds from beginning to end: the server rings 3 times, the client 3 or 4 times. -/
theorem doorbells_exact_wholeSession :
    ∃ t log, Run link.Logs (system (.run seeds 0) .run, []) wholeSession (t, log) ∧
      sent .server log = 3 ∧ (sent .client log = 3 ∨ sent .client log = 4) := by
  have hreplay :
      (wholeSession.foldlM link.act (system (.run seeds 0) .run)).any
        (fun t => (Role.move t.client.role).isNone && (Role.move t.server.role).isNone) = true := by
    decide +kernel
  obtain ⟨t, hrun, hreturned⟩ := Run.exists_of_any hreplay
  obtain ⟨hclient, hserver⟩ := Bool.and_eq_true_iff.mp hreturned
  have hclient := Option.isNone_iff_eq_none.mp hclient
  have hserver := Option.isNone_iff_eq_none.mp hserver
  obtain ⟨⟨log, hlogs, haccounts⟩, hok⟩ :=
    Link.doorbells_exact (opening (.run seeds 0) .run) rfl rfl hrun (by decide +kernel)
  obtain ⟨achieved, hachieved⟩ := hok (by decide) hclient
  have hrounds : t.server.role.server.rounds = 2 := haccounts.full achieved hachieved hserver
  obtain ⟨hsent, hsent', -⟩ := haccounts.concluded hclient hserver
  rw [hrounds] at hsent hsent'
  exact ⟨t, log, hlogs, hsent, hsent'⟩

/-- The settings of a server that makes no pass. -/
def idleConfig : Side → Config
  | .client => config .client
  | .server => { passes := 0 }

def idleSystem : System :=
  link.begun (Link.attached fabric.1 fabric.2 peer) session idleConfig (.run seeds 0) .run

/-- One round and the end, the two roles step by step in turn. -/
def shortSession : List Act :=
  (List.replicate 30 [Act.client, .server]).flatten ++ [.server]

/-- The first of two rounds is answered with slots that nobody has filled: the client fails, and the
server has rung for one round when both have returned. -/
theorem short_of_limit :
    ∃ t log, Run link.Logs (idleSystem, []) shortSession (t, log) ∧
      (idleConfig .client).rounds = some 2 ∧ Role.move t.client.role = none ∧
      Role.move t.server.role = none ∧ sent .server log ≠ 2 + 1 := by
  have hreplay : (shortSession.foldlM link.act idleSystem).any
      (fun t => (Role.move t.client.role).isNone && (Role.move t.server.role).isNone &&
        t.server.role.server.rounds == 1) = true := by
    decide +kernel
  obtain ⟨t, hrun, hreturned⟩ := Run.exists_of_any hreplay
  obtain ⟨hreturned, hrounds⟩ := Bool.and_eq_true_iff.mp hreturned
  obtain ⟨hclient, hserver⟩ := Bool.and_eq_true_iff.mp hreturned
  have hclient := Option.isNone_iff_eq_none.mp hclient
  have hserver := Option.isNone_iff_eq_none.mp hserver
  have hopening : link.Opening session idleConfig (.run seeds 0) .run idleSystem :=
    Link.opening_begun {} rfl (by decide) call idleConfig (.run seeds 0) .run
  obtain ⟨log, hlogs, hrecorded⟩ := hopening.logged rfl rfl hrun (by decide +kernel)
  obtain ⟨hsent, -⟩ := (Link.accounts hrecorded).concluded hclient hserver
  rw [beq_iff_eq.mp hrounds] at hsent
  exact ⟨t, log, hlogs, rfl, hclient, hserver, by omega⟩

end Small

end PeerBus
