/-
# `PeerBus.Proofs.Handshake.Silence` — calls that begin after the session is over

A session is over when `shutdown` is set, and stays over as long as nobody clears it
(`Session.Over`).  A call that begins then, with others doing what they like meanwhile
(`PeerBus.Proofs.Handshake.Solo`), gets nothing done.  What it rings until it notices:

    call                              looks at `shutdown`               rings
    serveOnce                         after its wait                    nobody
    round, by a client that knows     first of all                      nobody
      its server
    connect, and round by a client    after its first wait, and         a server that is ready and
      that does not                   its hello                         published, once

**The hello is the exception.**  A client that connects looks for a server before it looks whether
the session is over, and `ready` outlasts the session: so it rings a server that has left, or is
about to (`connect_rings_after_end`).  It rings nobody else, and never again.
-/
import PeerBus.Proofs.Handshake.Net
import PeerBus.Proofs.Handshake.Solo

namespace PeerBus

/-! ## Sessions that are over -/

/-- There is a control record, and its session is over. -/
structure Session.Over (session : Session) (m : Machine) : Prop where
  room : 28 ≤ (m.regions.get session.region).bytes.size
  down : (m.regions.get session.region).field .shutdown ≠ 0

/-- Others do not take the end of the session back. -/
def Solo.Act.KeepsOver (session : Session) : Act → Prop
  | .own _ => True
  | .others change => ∀ m : Machine, session.Over m → session.Over (change m)

namespace Access

/-- Whether an access is a doorbell. -/
def isRing : Access → Bool
  | .ring _ _ => true
  | .identify _ | .load _ _ | .store _ _ | .loadSlot _ _ | .storeSlot _ _ | .wait _ => false

/-- The doorbells among the accesses of a role. -/
def rings (own : List Access) : List Access := own.filter isRing

variable {own : List Access} {a : Access}

theorem rings_snoc (h : a.isRing = false) : rings (own ++ [a]) = rings own := by
  rw [rings, List.filter_append, List.filter_cons_of_neg (by simp [h])]
  exact List.append_nil _

theorem rings_snoc_ring (own : List Access) (target : PeerId) (outcome : Except DeviceError Unit) :
    rings (own ++ [.ring target outcome]) = rings own ++ [.ring target outcome] :=
  List.filter_append ..

end Access

open Access (rings)

/-- The role of a solo stays in the states of `Late`, and the session stays over, if an access that
finds it over leads from one such state to another and does not write `shutdown`. -/
theorem Solo.late_of_run {ρ : Type} [Role ρ] {session : Session} (Late : List Access → ρ → Prop)
    (hsession : ∀ {own role}, Late own role → Role.session role = session)
    (hstep : ∀ {own role move memory a next?}, Late own role → Role.move role = some move →
      move.Shows memory a next? → memory.field .shutdown ≠ 0 →
      Late (own ++ [a]) (next?.getD role) ∧ ∀ word, a ≠ .store .shutdown word)
    {call : CallId} {m : Machine} {role : ρ} {acts : List Act} {s : Solo ρ}
    (hrun : Run (Step call) ⟨m, { role := role }⟩ acts s) (hover : session.Over m)
    (hkeeps : ∀ a ∈ acts, a.KeepsOver session) (hbase : Late [] role) :
    Late (accesses acts) s.player.role ∧ s.player.Waits ∧ session.Over s.machine := by
  refine hrun.history_of_forall
    (P := fun acts (s : Solo ρ) => Late (accesses acts) s.player.role ∧ s.player.Waits ∧
      session.Over s.machine) ?_ hkeeps ⟨hbase, nofun, hover⟩
  rintro acts s a t hkeep ⟨hlate, hwaits, hover⟩ hs
  cases a with
  | own a =>
      have hroom : 28 ≤ (s.window session).bytes.size := hover.room
      obtain ⟨move, next?, hmove, hshows, hrole, hwaits', hwindow⟩ :=
        own_inv (hsession hlate) hwaits (Nat.lt_of_lt_of_le (by decide) hroom) hs
      obtain ⟨hlate', hstore⟩ := hstep hlate hmove hshows hover.down
      refine ⟨by rw [accesses_snoc_own, hrole]; exact hlate', hwaits', ?_, ?_⟩
      · show 28 ≤ (t.window session).bytes.size
        rw [hwindow, Access.size_apply]
        exact hroom
      · show (t.window session).field .shutdown ≠ 0
        rw [hwindow, Access.field_apply hroom]
        cases a with
        | store field word =>
            have hne : Field.shutdown ≠ field := by
              rintro rfl
              exact hstore word rfl
            exact (if_neg hne).trans_ne hover.down
        | _ => exact hover.down
  | others change =>
      obtain rfl := step_others hs
      exact ⟨accesses_snoc_others acts change ▸ hlate, hwaits, hkeep s.machine hover⟩

/-! ## Clients -/

namespace Client

/-- A call that looks for a server. -/
def Joins (k : Client) : Goal → Prop
  | .connect | .run _ _ => True
  | .round _ => k.server = none
  | .shutdown => False

/-- Among its accesses the client found a server that was ready and published. -/
structure Found (own : List Access) (server : PeerId) : Prop where
  ready : .load .ready Marker.ready ∈ own
  published : ∃ word, Published.decode? word = some server ∧ .load .ivServer word ∈ own

/-- The only doorbell is a hello to a server that was found. -/
def Hello (own : List Access) : Prop :=
  ∃ server outcome, rings own = [.ring server outcome] ∧ Found own server

theorem Found.snoc {own : List Access} {server : PeerId} (h : Found own server) (a : Access) :
    Found (own ++ [a]) server := by
  obtain ⟨word, hword, hmem⟩ := h.published
  exact ⟨List.mem_append_left _ h.ready, word, hword, List.mem_append_left _ hmem⟩

theorem Hello.snoc {own : List Access} {a : Access} (h : Hello own) (ha : a.isRing = false) :
    Hello (own ++ [a]) := by
  obtain ⟨server, outcome, hrings, hfound⟩ := h
  exact ⟨server, outcome, (Access.rings_snoc ha).trans hrings, hfound.snoc a⟩

/-- Nobody was rung, or a server that the client said hello to. -/
def Heard (k : Client) (g : Goal) (own : List Access) : Prop :=
  rings own = [] ∨ Joins k g ∧ Hello own

theorem Heard.snoc {k : Client} {g : Goal} {own : List Access} {a : Access} (h : Heard k g own)
    (ha : a.isRing = false) : Heard k g (own ++ [a]) :=
  h.imp (fun hnone => (Access.rings_snoc ha).trans hnone) fun hhello =>
    ⟨hhello.1, hhello.2.snoc ha⟩

/-- A client that has not looked for a server yet. -/
def Point.arrives : Point → Bool
  | .identify | .publish _ | .lookReady => true
  | _ => false

/-- A client that waits to be greeted, or was rung and has not looked at anything yet. -/
def Point.lingers : Point → Bool
  | .listen | .heedShutdown => true
  | _ => false

/-- Where a client is that was called after the end of the session. -/
inductive Late (k : Client) (g : Goal) (own : List Access) : Call → Prop
  | arrives {point : Point} (hpoint : point.arrives = true) (hjoins : Joins k g)
      (hnone : rings own = []) : Late k g own ⟨k, g, point⟩
  | looks (hready : .load .ready Marker.ready ∈ own) (hjoins : Joins k g)
      (hnone : rings own = []) : Late k g own ⟨k, g, .lookServer⟩
  | greets {server : PeerId} (hfound : Found own server) (hjoins : Joins k g)
      (hnone : rings own = []) : Late k g own ⟨k, g, .hello server⟩
  | lingers {point : Point} (hpoint : point.lingers = true) (hheard : Heard k g own) :
      Late k g own ⟨k, g, point⟩
  | enters {round : Round} (hnone : rings own = []) : Late k g own ⟨k, g, .enter round⟩
  | refused (hheard : Heard k g own) : Late k g own ⟨k, g, .returned (.error .shutdown)⟩
  | failed {cause : DeviceError} (hheard : Heard k g own) :
      Late k g own ⟨k, g, .returned (.error (.device cause))⟩

variable {k : Client} {g : Goal} {own : List Access} {c : Call}

theorem Late.session (h : Late k g own c) : Role.session c = k.session := by
  cases h <;> rfl

theorem Late.call (hgoal : g = .connect ∨ ∃ seed, g = .round seed) :
    Late k g [] (Client.call k g) := by
  rcases hgoal with rfl | ⟨seed, rfl⟩
  · exact .arrives rfl trivial rfl
  · unfold Client.call
    cases hserver : k.server with
    | none => exact .arrives rfl hserver rfl
    | some server => exact .enters rfl

theorem Late.step {move : Move Call} {memory : Memory} {a : Access} {next? : Option Call}
    (h : Late k g own c) (hmove : c.move = some move) (hshows : move.Shows memory a next?)
    (hdown : memory.field .shutdown ≠ 0) :
    Late k g (own ++ [a]) (next?.getD c) ∧ ∀ word, a ≠ .store .shutdown word := by
  have hlast : a ∈ own ++ [a] := List.mem_append_right _ (List.mem_singleton_self a)
  have hkeep (hnone : rings own = []) (ha : a.isRing = false) : rings (own ++ [a]) = [] :=
    (Access.rings_snoc ha).trans hnone
  cases h with
  | refused | failed => exact nomatch hmove
  | @arrives point hpoint hjoins hnone =>
      cases point with
      | identify =>
          cases hmove
          cases hshows with
          | identify outcome =>
              refine ⟨?_, nofun⟩
              cases outcome with
              | ok self => exact .arrives rfl hjoins (hkeep hnone rfl)
              | error cause => exact .failed (.inl (hkeep hnone rfl))
      | publish self =>
          cases hmove
          cases hshows
          exact ⟨.arrives rfl hjoins (hkeep hnone rfl), nofun⟩
      | lookReady =>
          cases hmove
          cases hshows with
          | load =>
              refine ⟨?_, nofun⟩
              by_cases hready : memory.field .ready = Marker.ready
              · rw [hready] at hlast
                simp only [Option.getD_some, hready, if_true]
                exact .looks hlast hjoins (Access.rings_snoc rfl |>.trans hnone)
              · simp only [Option.getD_some, hready, if_false]
                exact .lingers rfl (.inl (hkeep hnone rfl))
      | _ => exact nomatch hpoint
  | looks hready hjoins hnone =>
      cases hmove
      cases hshows with
      | load =>
          refine ⟨?_, nofun⟩
          dsimp only [Option.getD_some]
          cases hserver : Published.decode? (memory.field .ivServer) with
          | some server =>
              have hfound : Found (own ++ [.load .ivServer (memory.field .ivServer)]) server :=
                ⟨List.mem_append_left _ hready, _, hserver, hlast⟩
              exact .greets hfound hjoins (hkeep hnone rfl)
          | none => exact .lingers rfl (.inl (hkeep hnone rfl))
  | @greets server hfound hjoins hnone =>
      cases hmove
      cases hshows with
      | ring outcome =>
          have hhello : Hello (own ++ [.ring server outcome]) := by
            refine ⟨server, outcome, ?_, hfound.snoc _⟩
            rw [Access.rings_snoc_ring, hnone]
            rfl
          refine ⟨?_, nofun⟩
          cases outcome with
          | ok => exact .lingers rfl (.inr ⟨hjoins, hhello⟩)
          | error cause => exact .failed (.inr ⟨hjoins, hhello⟩)
  | @lingers point hpoint hheard =>
      cases point with
      | listen =>
          cases hmove
          cases hshows with
          | asleep => exact ⟨.lingers rfl (hheard.snoc rfl), nofun⟩
          | woken outcome =>
              refine ⟨?_, nofun⟩
              cases outcome with
              | ok => exact .lingers rfl (hheard.snoc rfl)
              | error cause => exact .failed (hheard.snoc rfl)
      | heedShutdown =>
          cases hmove
          cases hshows with
          | load =>
              refine ⟨?_, nofun⟩
              dsimp only [Option.getD_some]
              rw [if_neg hdown]
              exact .refused (hheard.snoc rfl)
      | _ => exact nomatch hpoint
  | enters hnone =>
      cases hmove
      cases hshows with
      | load =>
          refine ⟨?_, nofun⟩
          dsimp only [Option.getD_some]
          rw [if_neg hdown]
          exact .refused (.inl (hkeep hnone rfl))

/-- What comes of a call that begins after the end of the session. -/
structure Unserved (k : Client) (g : Goal) (own : List Access) (c : Call) : Prop where
  /-- A client that knows its server rings nobody. -/
  silent : ¬Joins k g → rings own = []
  /-- A client that looks for its server rings nobody, or once a server that it found ready. -/
  hello : rings own = [] ∨ Hello own
  /-- The session does not go on. -/
  refused : ∀ {ended}, c.point = .returned ended →
    ended = .error .shutdown ∨ ∃ cause, ended = .error (.device cause)

theorem Late.heard (h : Late k g own c) : Heard k g own := by
  cases h with
  | arrives _ _ hnone | looks _ _ hnone | enters hnone | greets _ _ hnone => exact .inl hnone
  | lingers _ hheard | refused hheard | failed hheard => exact hheard

theorem Late.unserved (h : Late k g own c) : Unserved k g own c where
  silent hnot := h.heard.resolve_right fun hhello => hnot hhello.1
  hello := h.heard.imp_right And.right
  refused := by
    intro ended hended
    cases h with
    | arrives hpoint | lingers hpoint => cases hended; exact nomatch hpoint
    | looks | greets | enters => exact nomatch hended
    | refused => cases hended; exact .inl rfl
    | failed => cases hended; exact .inr ⟨_, rfl⟩

end Client

/-! ## Servers -/

namespace Server

/-- Where a server is that was told to serve once after the end of the session. -/
inductive Late (k : Server) (own : List Access) : Call → Prop
  | waits (hnone : rings own = []) : Late k own ⟨k, .serveOnce, .listen⟩
  | checks (hnone : rings own = []) : Late k own ⟨k, .serveOnce, .checkShutdown⟩
  | ended (hnone : rings own = []) : Late k own ⟨k, .serveOnce, .returned (.ok (.goesOn false))⟩
  | failed {cause : DeviceError} (hnone : rings own = []) :
      Late k own ⟨k, .serveOnce, .returned (.error (.device cause))⟩

variable {k : Server} {own : List Access} {c : Call}

theorem Late.session (h : Late k own c) : Role.session c = k.session := by
  cases h <;> rfl

theorem Late.step {move : Move Call} {memory : Memory} {a : Access} {next? : Option Call}
    (h : Late k own c) (hmove : c.move = some move) (hshows : move.Shows memory a next?)
    (hdown : memory.field .shutdown ≠ 0) :
    Late k (own ++ [a]) (next?.getD c) ∧ ∀ word, a ≠ .store .shutdown word := by
  have hkeep (hnone : rings own = []) (ha : a.isRing = false) : rings (own ++ [a]) = [] :=
    (Access.rings_snoc ha).trans hnone
  cases h with
  | ended | failed => exact nomatch hmove
  | waits hnone =>
      cases hmove
      cases hshows with
      | asleep => exact ⟨.waits (hkeep hnone rfl), nofun⟩
      | woken outcome =>
          refine ⟨?_, nofun⟩
          cases outcome with
          | ok => exact .checks (hkeep hnone rfl)
          | error cause => exact .failed (hkeep hnone rfl)
  | checks hnone =>
      cases hmove
      cases hshows with
      | load =>
          refine ⟨?_, nofun⟩
          dsimp only [Option.getD_some]
          rw [if_neg hdown]
          exact .ended (hkeep hnone rfl)

/-- What comes of a call that begins after the end of the session. -/
structure Unserving (own : List Access) (c : Call) : Prop where
  silent : rings own = []
  /-- The session does not go on. -/
  ended : ∀ {ended}, c.point = .returned ended →
    ended = .ok (.goesOn false) ∨ ∃ cause, ended = .error (.device cause)

theorem Late.unserving (h : Late k own c) : Unserving own c where
  silent := by
    cases h with
    | waits hnone | checks hnone | ended hnone | failed hnone => exact hnone
  ended := by
    intro ended hended
    cases h with
    | waits | checks => exact nomatch hended
    | ended => cases hended; exact .inl rfl
    | failed => cases hended; exact .inr ⟨_, rfl⟩

end Server

/-! ## After the end -/

/-- **Silence after the end, but for a hello.**  In a session that is over and stays over, a call of
`connect`, `round` or `serveOnce` gets nothing done.  It rings nobody, unless it is the call of a
client that still looks for its server and finds one ready: that one it rings once. -/
theorem silent_after_end {session : Session} {m : Machine} (hover : session.Over m) (call : CallId) :
    (∀ {k : Client} {g : Client.Goal} {acts : List Solo.Act} {s : Solo Client.Call},
      k.session = session → (g = .connect ∨ ∃ seed, g = .round seed) →
      Run (Solo.Step call) ⟨m, { role := Client.call k g }⟩ acts s →
      (∀ a ∈ acts, a.KeepsOver session) →
      Client.Unserved k g (Solo.accesses acts) s.player.role) ∧
    (∀ {k : Server} {acts : List Solo.Act} {s : Solo Server.Call}, k.session = session →
      Run (Solo.Step call) ⟨m, { role := Server.call k .serveOnce }⟩ acts s →
      (∀ a ∈ acts, a.KeepsOver session) →
      Server.Unserving (Solo.accesses acts) s.player.role) := by
  constructor
  · rintro k g acts s rfl hgoal hrun hkeeps
    exact (Solo.late_of_run (Client.Late k g) Client.Late.session Client.Late.step hrun hover hkeeps
      (.call hgoal)).1.unserved
  · rintro k acts s rfl hrun hkeeps
    exact (Solo.late_of_run (Server.Late k) Server.Late.session Server.Late.step hrun hover hkeeps
      (.waits rfl)).1.unserving

/-! ## A session that is over -/

namespace Small

/-- The server has announced itself, and the session was ended. -/
def left : Machine :=
  (Link.attached fabric.1 fabric.2 peer).modifyRegion session.region fun memory =>
    ((memory.setField .ivServer (Published.encode (peer .server))).setField .ready
      Marker.ready).setField .shutdown 1

/-- A client that was never called. -/
def guest : Client := link.freshClient session config

/-- A client that was connected. -/
def partner : Client := { guest with server := some (peer .server) }

def host : Server := link.freshServer session config

/-- The client finds the server ready, and says hello. -/
def greeting : List Solo.Act :=
  [.own (.identify (.ok ⟨1⟩)), .own (.store .ivClient (Published.encode ⟨1⟩)),
    .own (.load .ready Marker.ready), .own (.load .ivServer (Published.encode ⟨2⟩)),
    .own (.ring ⟨2⟩ (.ok ()))]

theorem over_left : session.Over left :=
  ⟨by decide +kernel, by decide +kernel⟩

theorem keepsOver_greeting : ∀ a ∈ greeting, a.KeepsOver session := by
  simp [greeting, Solo.Act.KeepsOver]

/-- The greeting can be replayed, and the flag of the server is up after it. -/
theorem run_greeting :
    ∃ s, Run (Solo.Step ⟨0⟩) ⟨left, { role := Client.call guest .connect }⟩ greeting s ∧
      (link.event s.machine .server).isSet = true := by
  have hreplay : (greeting.foldlM (Solo.act ⟨0⟩)
      ⟨left, { role := Client.call guest .connect }⟩).any
        (fun s => (link.event s.machine .server).isSet) = true := by
    decide +kernel
  exact Run.exists_of_any hreplay

end Small

/-- In a session that is over, a client that connects rings the server, whose event flag goes up. -/
theorem connect_rings_after_end :
    Small.session.Over Small.left ∧ (∀ a ∈ Small.greeting, a.KeepsOver Small.session) ∧
      ∃ s, Run (Solo.Step ⟨0⟩) ⟨Small.left, { role := Client.call Small.guest .connect }⟩
          Small.greeting s ∧
        .ring ⟨2⟩ (.ok ()) ∈ Solo.accesses Small.greeting ∧
        (Small.link.event Small.left .server).isSet = false ∧
        (Small.link.event s.machine .server).isSet = true := by
  obtain ⟨s, hrun, hset⟩ := Small.run_greeting
  exact ⟨Small.over_left, Small.keepsOver_greeting, s, hrun, by decide, by decide +kernel, hset⟩

/-- A client that is new says hello to the server that has left, one that was connected rings
nobody, and the server goes on with nothing. -/
theorem silent_after_end_left :
    Client.Hello (Solo.accesses Small.greeting) ∧
    (∃ s, Run (Solo.Step ⟨0⟩) ⟨Small.left, { role := Client.call Small.partner (.round 7) }⟩
        [.own (.load .shutdown 1)] s ∧
      Role.move s.player.role = none ∧ rings (Solo.accesses [.own (.load .shutdown 1)]) = []) ∧
    (∃ s, Run (Solo.Step ⟨1⟩) ⟨Small.left, { role := Server.call Small.host .serveOnce }⟩
        [.own (.wait none)] s ∧ rings (Solo.accesses [.own (.wait none)]) = []) := by
  refine ⟨?_, ?_, ?_⟩
  · obtain ⟨s, hrun, -⟩ := Small.run_greeting
    have hunserved := (silent_after_end Small.over_left ⟨0⟩).1 (k := Small.guest) rfl (.inl rfl) hrun
      Small.keepsOver_greeting
    exact hunserved.hello.resolve_left (by decide)
  · have hreplay : ([.own (.load .shutdown 1)].foldlM (Solo.act ⟨0⟩)
        ⟨Small.left, { role := Client.call Small.partner (.round 7) }⟩).any
          (fun s => (Role.move s.player.role).isNone) = true := by
      decide +kernel
    obtain ⟨s, hrun, hmove⟩ := Run.exists_of_any hreplay
    have hunserved := (silent_after_end Small.over_left ⟨0⟩).1 (k := Small.partner) rfl
      (.inr ⟨7, rfl⟩) hrun (by simp [Solo.Act.KeepsOver])
    exact ⟨s, hrun, Option.isNone_iff_eq_none.mp hmove, hunserved.silent nofun⟩
  · have hreplay : ([.own (.wait none)].foldlM (Solo.act ⟨1⟩)
        ⟨Small.left, { role := Server.call Small.host .serveOnce }⟩).any
          (fun s => s.player.sleep.isSome) = true := by
      decide +kernel
    obtain ⟨s, hrun, -⟩ := Run.exists_of_any hreplay
    have hunserving := (silent_after_end Small.over_left ⟨1⟩).2 (k := Small.host) rfl hrun
      (by simp [Solo.Act.KeepsOver])
    exact ⟨s, hrun, hunserving.silent⟩

end PeerBus
