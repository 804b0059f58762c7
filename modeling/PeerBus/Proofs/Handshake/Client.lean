/-
# `PeerBus.Proofs.Handshake.Client` — the course of a client

`Client.Goes` lists what each access of a client leads to, one rule for each branch of its
program; `Client.goes_of_perform` is the inversion that every other module uses in place of the
program.  The rules, by the point that they leave:

    identify, publish             the id in `ivClient`
    lookReady, lookServer, hello  a server that is ready is rung, then as after a wait
    listen, heed…                 the wait for a server that is ready and published
    enter … callServer            the round is asked for
    await, check…                 the wait for `done`
    lowerDone, verify             the answer is taken and checked
    stop, farewell                the session is ended

Between two rounds a client may stand at one of several points, depending on what it was called
for: `Client.Between`.
-/
import PeerBus.Handshake.Client
import PeerBus.Proofs.Handshake.View

namespace PeerBus

namespace Client

/-- Whether the call goes on until the session is over. -/
def Goal.isRun : Goal → Bool
  | .run _ _ => true
  | .connect | .round _ | .shutdown => false

/-- What a client has to do with the round under way. -/
inductive Turn where
  /-- Nothing. -/
  | rests
  /-- It has raised `start`, and has not found `done`. -/
  | asks
  /-- It has found `done`, and has not lowered it. -/
  | lowers
  deriving DecidableEq

/-! ## What a point says -/

namespace Point

/-- The id of the client is published. -/
def published : Point → Bool
  | .identify | .publish _ => false
  | _ => true

/-- The round that the client is in. -/
def round? : Point → Option Round
  | .enter r | .clearDone r | .plantSeed r | .raiseStart r | .callServer r | .await r
  | .checkShutdown r | .checkDone r | .lowerDone r | .verify r _ _ => some r
  | _ => none

/-- The server that the client works with or rings. -/
def peer? : Point → Option PeerId
  | .hello p | .farewell p _ => some p
  | point => point.round?.map Round.server

/-- The client knows its server. -/
def connected : Point → Bool
  | .stop _ | .farewell _ _ | .returned _ => true
  | point => point.round?.isSome

/-- The client has seen a server that is ready. -/
def sawReady : Point → Bool
  | .lookServer | .hello _ | .heedServer => true
  | point => point.connected

/-- The client has set `shutdown`. -/
def left : Point → Bool
  | .farewell _ _ | .returned (.ok (.summary _)) | .returned (.error _) => true
  | _ => false

/-- The client goes out with an error. -/
def failed : Point → Bool
  | .stop (some _) | .farewell _ (some _) | .returned (.error _) => true
  | _ => false

/-- The seed that the client has left for the server. -/
def planted? : Point → Option UInt32
  | .raiseStart r | .callServer r | .await r | .checkShutdown r | .checkDone r | .lowerDone r
  | .verify r _ _ => some r.seed
  | _ => none

def turn : Point → Turn
  | .callServer _ | .await _ | .checkShutdown _ | .checkDone _ => .asks
  | .lowerDone _ => .lowers
  | _ => .rests

/-- The client waits to be greeted. -/
def listens : Point → Bool
  | .listen => true
  | _ => false

/-- The client was rung, and looks for the server. -/
def heeds : Point → Bool
  | .heedShutdown | .heedReady | .heedServer => true
  | _ => false

/-- The client has rung for its round. -/
def rang : Point → Bool
  | .await _ | .checkShutdown _ | .checkDone _ => true
  | _ => false

/-- The client will wait before it looks at `done`. -/
def dozes : Point → Bool
  | .callServer _ | .await _ => true
  | _ => false

/-- The client has found `done`, and has not counted the round. -/
def owes : Point → Bool
  | .lowerDone _ | .verify _ _ _ => true
  | _ => false

/-- The client has left and rung for the last time. -/
def gone : Point → Bool
  | .returned (.ok (.summary _)) | .returned (.error _) => true
  | _ => false

theorem turn_of_left {p : Point} (h : p.left = true) : p.turn = .rests := by
  cases p with
  | farewell => rfl
  | returned => rfl
  | _ => exact nomatch h

theorem connected_of_left {p : Point} (h : p.left = true) : p.connected = true := by
  cases p with
  | farewell => rfl
  | returned => rfl
  | _ => exact nomatch h

theorem turn_of_rang {p : Point} (h : p.rang = true) : p.turn = .asks := by
  cases p with
  | await | checkShutdown | checkDone => rfl
  | _ => exact nomatch h

theorem turn_of_dozes {p : Point} (h : p.dozes = true) : p.turn = .asks := by
  cases p with
  | callServer | await => rfl
  | _ => exact nomatch h

theorem published_of_listens {p : Point} (h : p.listens = true) : p.published = true := by
  cases p with
  | listen => rfl
  | _ => exact nomatch h

theorem not_connected_of_listens {p : Point} (h : p.listens = true) : p.connected = false := by
  cases p with
  | listen => rfl
  | _ => exact nomatch h

theorem not_heeds_of_listens {p : Point} (h : p.listens = true) : p.heeds = false := by
  cases p with
  | listen => rfl
  | _ => exact nomatch h

/-- A client that asks, or has been answered, has planted the seed of its round. -/
theorem round_of_ne_rests {p : Point} (h : p.turn ≠ .rests) :
    ∃ r, p.round? = some r ∧ p.planted? = some r.seed := by
  cases p with
  | callServer r | await r | checkShutdown r | checkDone r | lowerDone r => exact ⟨r, rfl, rfl⟩
  | _ => exact absurd rfl h

theorem connected_of_asks {p : Point} (h : p.turn = .asks) : p.connected = true := by
  cases p with
  | callServer | await | checkShutdown | checkDone => rfl
  | _ => exact nomatch h

theorem not_owes_of_asks {p : Point} (h : p.turn = .asks) : p.owes = false := by
  cases p with
  | callServer | await | checkShutdown | checkDone => rfl
  | _ => exact nomatch h

theorem left_of_gone {p : Point} (h : p.gone = true) : p.left = true := by
  cases p with
  | returned ended =>
      cases ended with
      | error => rfl
      | ok a =>
          cases a with
          | summary => rfl
          | _ => exact nomatch h
  | _ => exact nomatch h

theorem published_of_connected {p : Point} (h : p.connected = true) : p.published = true := by
  cases p <;> first | rfl | exact nomatch h

theorem sawReady_of_connected {p : Point} (h : p.connected = true) : p.sawReady = true := by
  cases p <;> first | rfl | exact nomatch h

end Point

/-- What the client was called for and how it ends go together. -/
def Call.Fits : Call → Prop
  | ⟨_, g, .stop none⟩ | ⟨_, g, .farewell _ none⟩ | ⟨_, g, .returned (.ok (.summary _))⟩ =>
      g.isRun = true
  | ⟨_, g, .returned (.ok (.peer _))⟩ | ⟨_, g, .returned (.ok .done)⟩ => g.isRun = false
  | ⟨_, _, .returned (.ok (.goesOn _))⟩ => False
  | ⟨k, _, .verify _ pass index⟩ =>
      pass < k.config.passes.toNat ∧ index < k.session.slots.toNat
  | _ => True

/-! ## The rules -/

/-- Where a client stands that knows its server and has no round under way. -/
inductive Between (k : Client) (server : PeerId) : Goal → Call → Prop
  | found {g : Goal} : g.isRun = false → Between k server g ⟨k, g, .returned (.ok (.peer server))⟩
  | verified {g : Goal} : g.isRun = false → Between k server g ⟨k, g, .returned (.ok .done)⟩
  | asked {seed : UInt32} :
      Between k server (.round seed) ⟨k, .round seed, .enter ⟨server, seed⟩⟩
  | enough {seeds : Nat → UInt32} {drawn : Nat} : k.config.isEnough k.rounds = true →
      Between k server (.run seeds drawn) ⟨k, .run seeds drawn, .stop none⟩
  | next {seeds : Nat → UInt32} {drawn : Nat} : k.config.isEnough k.rounds = false →
      Between k server (.run seeds drawn)
        ⟨k, .run seeds (drawn + 1), .enter ⟨server, seeds drawn⟩⟩

/-- Where a client stands that has set `shutdown` and rung. -/
inductive Stopped (k : Client) : Goal → Option HandshakeError → Call → Prop
  | failed {g : Goal} {cause : HandshakeError} :
      Stopped k g (some cause) ⟨k, g, .returned (.error cause)⟩
  | finished {seeds : Nat → UInt32} {drawn : Nat} :
      Stopped k (.run seeds drawn) none
        ⟨k, .run seeds drawn, .returned (.ok (.summary ⟨k.rounds, k.throughput⟩))⟩
  | done {g : Goal} : g.isRun = false → Stopped k g none ⟨k, g, .returned (.ok .done)⟩

/-- The client with one more round counted. -/
def countRound (k : Client) : Client := { k with rounds := k.rounds + 1 }

/-- What an access of a client at `self` leads to. -/
inductive Goes (self : PeerId) (v : View) : Call → View → Call → Prop
  | identified {k g} : Goes self v ⟨k, g, .identify⟩ v ⟨k, g, .publish self⟩
  | published {k g p} : Goes self v ⟨k, g, .publish p⟩
      (v.store .ivClient (Published.encode p)) ⟨k, g, .lookReady⟩
  | sawReady {k g} : v.record .ready = Marker.ready →
      Goes self v ⟨k, g, .lookReady⟩ v ⟨k, g, .lookServer⟩
  | sawNotReady {k g} : v.record .ready ≠ Marker.ready →
      Goes self v ⟨k, g, .lookReady⟩ v ⟨k, g, .listen⟩
  | sawServer {k g p} : Published.decode? (v.record .ivServer) = some p →
      Goes self v ⟨k, g, .lookServer⟩ v ⟨k, g, .hello p⟩
  | sawNobody {k g} : Published.decode? (v.record .ivServer) = none →
      Goes self v ⟨k, g, .lookServer⟩ v ⟨k, g, .listen⟩
  | greeted {k g p} : Goes self v ⟨k, g, .hello p⟩ (v.raise .server) ⟨k, g, .listen⟩
  | heard {k g} : v.flag .client = true →
      Goes self v ⟨k, g, .listen⟩ (v.lower .client) ⟨k, g, .heedShutdown⟩
  | heededOpen {k g} : v.record .shutdown = 0 →
      Goes self v ⟨k, g, .heedShutdown⟩ v ⟨k, g, .heedReady⟩
  | heededShutdown {k g} : v.record .shutdown ≠ 0 →
      Goes self v ⟨k, g, .heedShutdown⟩ v ⟨k, g, .returned (.error .shutdown)⟩
  | heededReady {k g} : v.record .ready = Marker.ready →
      Goes self v ⟨k, g, .heedReady⟩ v ⟨k, g, .heedServer⟩
  | heededNotReady {k g} : v.record .ready ≠ Marker.ready →
      Goes self v ⟨k, g, .heedReady⟩ v ⟨k, g, .listen⟩
  | heededServer {k g p c} : Published.decode? (v.record .ivServer) = some p →
      Between { k with server := some p } p g c → Goes self v ⟨k, g, .heedServer⟩ v c
  | heededNobody {k g} : Published.decode? (v.record .ivServer) = none →
      Goes self v ⟨k, g, .heedServer⟩ v ⟨k, g, .listen⟩
  | enteredOpen {k g r} : v.record .shutdown = 0 →
      Goes self v ⟨k, g, .enter r⟩ v ⟨k, g, .clearDone r⟩
  | enteredShutdown {k g r} : v.record .shutdown ≠ 0 →
      Goes self v ⟨k, g, .enter r⟩ v ⟨k, g, .returned (.error .shutdown)⟩
  | cleared {k g r} : Goes self v ⟨k, g, .clearDone r⟩ (v.store .done 0) ⟨k, g, .plantSeed r⟩
  | planted {k g r} :
      Goes self v ⟨k, g, .plantSeed r⟩ (v.store .data r.seed) ⟨k, g, .raiseStart r⟩
  | raised {k g r} :
      Goes self v ⟨k, g, .raiseStart r⟩ (v.store .start Marker.start) ⟨k, g, .callServer r⟩
  | called {k g r} : Goes self v ⟨k, g, .callServer r⟩ (v.raise .server) ⟨k, g, .await r⟩
  | roused {k g r} : v.flag .client = true →
      Goes self v ⟨k, g, .await r⟩ (v.lower .client) ⟨k, g, .checkShutdown r⟩
  | checkedOpen {k g r} : v.record .shutdown = 0 →
      Goes self v ⟨k, g, .checkShutdown r⟩ v ⟨k, g, .checkDone r⟩
  | checkedShutdown {k g r} : v.record .shutdown ≠ 0 →
      Goes self v ⟨k, g, .checkShutdown r⟩ v ⟨k, g, .returned (.error .shutdown)⟩
  | checkedDone {k g r} : v.record .done = Marker.done →
      Goes self v ⟨k, g, .checkDone r⟩ v ⟨k, g, .lowerDone r⟩
  | checkedNotDone {k g r} : v.record .done ≠ Marker.done →
      Goes self v ⟨k, g, .checkDone r⟩ v ⟨k, g, .await r⟩
  | lowered {k g r} : 0 < k.config.passes.toNat →
      Goes self v ⟨k, g, .lowerDone r⟩ (v.store .done 0) ⟨k, g, .verify r 0 0⟩
  | loweredLast {k g r c} : k.config.passes.toNat = 0 → Between (countRound k) r.server g c →
      Goes self v ⟨k, g, .lowerDone r⟩ (v.store .done 0) c
  | mismatched {k g r pass i} : v.slot i ≠ Layout.pattern i r.seed →
      Goes self v ⟨k, g, .verify r pass i⟩ v
        ⟨k, g, .stop (some (.mismatch ⟨i, Layout.pattern i r.seed, v.slot i⟩))⟩
  | matched {k g r pass i} : v.slot i = Layout.pattern i r.seed →
      i + 1 < k.session.slots.toNat →
      Goes self v ⟨k, g, .verify r pass i⟩ v ⟨k, g, .verify r pass (i + 1)⟩
  | passed {k g r pass i} : v.slot i = Layout.pattern i r.seed →
      k.session.slots.toNat ≤ i + 1 → pass + 1 < k.config.passes.toNat →
      Goes self v ⟨k, g, .verify r pass i⟩ v ⟨Call.countPass k, g, .verify r (pass + 1) 0⟩
  | passedLast {k g r pass i c} : v.slot i = Layout.pattern i r.seed →
      k.session.slots.toNat ≤ i + 1 → k.config.passes.toNat ≤ pass + 1 →
      Between (countRound (Call.countPass k)) r.server g c →
      Goes self v ⟨k, g, .verify r pass i⟩ v c
  | stoppedKnown {k g cause p} : k.server = some p →
      Goes self v ⟨k, g, .stop cause⟩ (v.store .shutdown 1) ⟨k, g, .farewell p cause⟩
  | stoppedAlone {k g cause c} : k.server = none → Stopped k g cause c →
      Goes self v ⟨k, g, .stop cause⟩ (v.store .shutdown 1) c
  | rung {k g p cause c} : Stopped k g cause c →
      Goes self v ⟨k, g, .farewell p cause⟩ (v.raise .server) c

theorem Between.turn {k : Client} {server : PeerId} {g : Goal} {c : Call}
    (h : Between k server g c) : c.point.turn = .rests := by
  cases h <;> rfl

theorem Between.planted {k : Client} {server : PeerId} {g : Goal} {c : Call}
    (h : Between k server g c) : c.point.planted? = none := by
  cases h <;> rfl

theorem Between.success {k : Client} {server : PeerId} {g : Goal} {c : Call}
    (h : Between k server g c) : c.point.failed = false := by
  cases h <;> rfl

theorem Between.owes {k : Client} {server : PeerId} {g : Goal} {c : Call}
    (h : Between k server g c) : c.point.owes = false := by
  cases h <;> rfl

theorem Between.client {k : Client} {server : PeerId} {g : Goal} {c : Call}
    (h : Between k server g c) : c.client = k := by
  cases h <;> rfl

theorem Stopped.turn {k : Client} {g : Goal} {cause : Option HandshakeError} {c : Call}
    (h : Stopped k g cause c) : c.point.turn = .rests := by
  cases h <;> rfl

theorem Stopped.planted {k : Client} {g : Goal} {cause : Option HandshakeError} {c : Call}
    (h : Stopped k g cause c) : c.point.planted? = none := by
  cases h <;> rfl

theorem Stopped.client {k : Client} {g : Goal} {cause : Option HandshakeError} {c : Call}
    (h : Stopped k g cause c) : c.client = k := by
  cases h <;> rfl

/-! ## The program follows the rules -/

theorem between_nextRound (k : Client) (seeds : Nat → UInt32) (drawn : Nat) (point : Point)
    (server : PeerId) :
    Between k server (.run seeds drawn)
      (Call.nextRound ⟨k, .run seeds drawn, point⟩ server seeds drawn) := by
  unfold Call.nextRound
  cases hn : k.config.isEnough k.rounds with
  | true => exact .enough hn
  | false => exact .next hn

theorem between_connected (k : Client) (g : Goal) (point : Point) (server : PeerId) :
    Between { k with server := some server } server g (Call.connected ⟨k, g, point⟩ server) := by
  cases g with
  | connect => exact .found rfl
  | round seed => exact .asked
  | shutdown => exact .found rfl
  | run seeds drawn => exact between_nextRound ..

theorem between_roundVerified (k : Client) (g : Goal) (point : Point) (r : Round) :
    Between (countRound k) r.server g (Call.roundVerified ⟨k, g, point⟩ r) := by
  cases g with
  | connect => exact .verified rfl
  | round seed => exact .verified rfl
  | shutdown => exact .verified rfl
  | run seeds drawn => exact between_nextRound ..

theorem stopped_stopped (k : Client) (g : Goal) (point : Point) (cause : Option HandshakeError) :
    Stopped k g cause (Call.stopped ⟨k, g, point⟩ cause) := by
  cases cause with
  | some cause => exact .failed
  | none =>
      cases g with
      | connect => exact .done rfl
      | round seed => exact .done rfl
      | shutdown => exact .done rfl
      | run seeds drawn => exact .finished

/-- Every access of a client is the work of one of the rules. -/
theorem goes_of_perform {self : PeerId} {v v' : View} {c c' : Call} {move : Move Call}
    (hmove : c.move = some move) (h : View.perform self .client v move = some (v', c')) :
    Goes self v c v' c' := by
  obtain ⟨k, g, point⟩ := c
  cases point with
  | identify => cases hmove; cases h; exact .identified
  | publish p => cases hmove; cases h; exact .published
  | lookReady =>
      cases hmove; cases h
      dsimp only
      by_cases hw : v.record .ready = Marker.ready
      · rw [if_pos hw]
        exact .sawReady hw
      · rw [if_neg hw]
        exact .sawNotReady hw
  | lookServer =>
      cases hmove; cases h
      dsimp only
      cases hw : Published.decode? (v.record .ivServer) with
      | some p => exact .sawServer hw
      | none => exact .sawNobody hw
  | hello p => cases hmove; cases h; exact .greeted
  | listen =>
      cases hmove
      cases hf : v.flag .client with
      | true =>
          rw [View.perform, if_pos hf] at h
          cases h
          exact .heard hf
      | false =>
          rw [View.perform, if_neg (by simp [hf])] at h
          exact nomatch h
  | heedShutdown =>
      cases hmove; cases h
      dsimp only
      by_cases hw : v.record .shutdown = 0
      · rw [if_pos hw]
        exact .heededOpen hw
      · rw [if_neg hw]
        exact .heededShutdown hw
  | heedReady =>
      cases hmove; cases h
      dsimp only
      by_cases hw : v.record .ready = Marker.ready
      · rw [if_pos hw]
        exact .heededReady hw
      · rw [if_neg hw]
        exact .heededNotReady hw
  | heedServer =>
      cases hmove; cases h
      dsimp only
      cases hw : Published.decode? (v.record .ivServer) with
      | some p => exact .heededServer hw (between_connected ..)
      | none => exact .heededNobody hw
  | enter r =>
      cases hmove; cases h
      dsimp only
      by_cases hw : v.record .shutdown = 0
      · rw [if_pos hw]
        exact .enteredOpen hw
      · rw [if_neg hw]
        exact .enteredShutdown hw
  | clearDone r => cases hmove; cases h; exact .cleared
  | plantSeed r => cases hmove; cases h; exact .planted
  | raiseStart r => cases hmove; cases h; exact .raised
  | callServer r => cases hmove; cases h; exact .called
  | await r =>
      cases hmove
      cases hf : v.flag .client with
      | true =>
          rw [View.perform, if_pos hf] at h
          cases h
          exact .roused hf
      | false =>
          rw [View.perform, if_neg (by simp [hf])] at h
          exact nomatch h
  | checkShutdown r =>
      cases hmove; cases h
      dsimp only
      by_cases hw : v.record .shutdown = 0
      · rw [if_pos hw]
        exact .checkedOpen hw
      · rw [if_neg hw]
        exact .checkedShutdown hw
  | checkDone r =>
      cases hmove; cases h
      dsimp only
      by_cases hw : v.record .done = Marker.done
      · rw [if_pos hw]
        exact .checkedDone hw
      · rw [if_neg hw]
        exact .checkedNotDone hw
  | lowerDone r =>
      cases hmove; cases h
      unfold Call.beginPass
      by_cases hp : 0 < k.config.passes.toNat
      · rw [if_pos hp]
        exact .lowered hp
      · rw [if_neg hp]
        exact .loweredLast (by omega) (between_roundVerified ..)
  | verify r pass i =>
      cases hmove; cases h
      by_cases hslot : v.slot i = Layout.pattern i r.seed
      · simp only [hslot, ne_eq, not_true, if_false]
        by_cases hi : i + 1 < k.session.slots.toNat
        · rw [if_pos hi]
          exact .matched hslot hi
        · rw [if_neg hi]
          unfold Call.beginPass
          by_cases hp : pass + 1 < k.config.passes.toNat
          · exact (if_pos hp).symm ▸ .passed hslot (by omega) hp
          · exact (if_neg hp).symm ▸
              .passedLast hslot (by omega) (by omega) (between_roundVerified ..)
      · simp only [hslot, ne_eq, not_false_eq_true, if_true]
        exact .mismatched hslot
  | stop cause =>
      cases hmove; cases h
      cases hs : k.server with
      | some p => exact .stoppedKnown hs
      | none => exact .stoppedAlone hs (stopped_stopped ..)
  | farewell p cause =>
      cases hmove; cases h
      exact .rung (stopped_stopped ..)
  | returned ended => exact nomatch hmove

/-! ## Clients that do not go on -/

theorem point_of_move_wait {c : Call} {next : Except DeviceError Unit → Call}
    (h : c.move = some (.wait next)) :
    c.point.listens = true ∨ ∃ r, c.point = .await r := by
  obtain ⟨k, g, point⟩ := c
  cases point with
  | listen => exact .inl rfl
  | await r => exact .inr ⟨r, rfl⟩
  | _ => exact nomatch h

theorem point_of_move_none {c : Call} (h : c.move = none) : ∃ ended, c.point = .returned ended := by
  obtain ⟨k, g, point⟩ := c
  cases point with
  | returned ended => exact ⟨ended, rfl⟩
  | _ => exact nomatch h

/-- A client that has returned from a run reports what it did, or an error. -/
theorem returned_of_move_none {c : Call} (h : c.move = none) (hfits : c.Fits)
    (hrun : c.goal.isRun = true) :
    (∃ sum, c.point = .returned (.ok (.summary sum))) ∨
      ∃ cause, c.point = .returned (.error cause) := by
  obtain ⟨ended, hp⟩ := point_of_move_none h
  obtain ⟨k, g, point⟩ := c
  obtain rfl : point = .returned ended := hp
  cases ended with
  | error cause => exact .inr ⟨cause, rfl⟩
  | ok a =>
      cases a with
      | summary sum => exact .inl ⟨sum, rfl⟩
      | peer | done => exact nomatch hrun.symm.trans hfits
      | goesOn => exact hfits.elim

theorem gone_of_move_none {c : Call} (h : c.move = none) (hfits : c.Fits)
    (hrun : c.goal.isRun = true) : c.point.gone = true := by
  rcases returned_of_move_none h hfits hrun with ⟨sum, hp⟩ | ⟨cause, hp⟩
  · rw [hp]
    rfl
  · rw [hp]
    rfl

theorem summary_of_move_none {c : Call} (h : c.move = none) (hfits : c.Fits)
    (hrun : c.goal.isRun = true) (hsuccess : c.point.failed = false) :
    ∃ sum, c.point = .returned (.ok (.summary sum)) := by
  rcases returned_of_move_none h hfits hrun with hsum | ⟨cause, hp⟩
  · exact hsum
  · rw [hp] at hsuccess
    exact nomatch hsuccess

/-! ## What every rule keeps -/

section

variable {self : PeerId} {v v' : View} {c c' : Call}

/-- A client stays with its device, its window and its settings. -/
theorem Goes.same (h : Goes self v c v' c') :
    c'.client.device = c.client.device ∧ c'.client.session = c.client.session ∧
      c'.client.config = c.client.config := by
  cases h with
  | heededServer _ hb | loweredLast _ hb | passedLast _ _ _ hb =>
      cases hb <;> exact ⟨rfl, rfl, rfl⟩
  | stoppedAlone _ hs | rung hs => cases hs <;> exact ⟨rfl, rfl, rfl⟩
  | _ => exact ⟨rfl, rfl, rfl⟩

/-- A client goes on with what it was called for. -/
theorem Goes.isRun (h : Goes self v c v' c') : c'.goal.isRun = c.goal.isRun := by
  cases h with
  | heededServer _ hb | loweredLast _ hb | passedLast _ _ _ hb => cases hb <;> rfl
  | stoppedAlone _ hs | rung hs => cases hs <;> rfl
  | _ => rfl

theorem Between.fits {k : Client} {server : PeerId} {g : Goal} {c : Call}
    (h : Between k server g c) : c.Fits := by
  cases h with
  | found hg | verified hg => exact hg
  | enough _ => exact rfl
  | asked | next _ => trivial

theorem Stopped.fits {k : Client} {g : Goal} {cause : Option HandshakeError} {c : Call}
    (h : Stopped k g cause c) : c.Fits := by
  cases h with
  | failed => trivial
  | finished => exact rfl
  | done hg => exact hg

theorem Goes.fits (h : Goes self v c v' c') (hslots : 0 < c.client.session.slots.toNat)
    (hc : c.Fits) : c'.Fits := by
  cases h with
  | lowered hp => exact ⟨hp, hslots⟩
  | matched _ hi => exact ⟨hc.1, hi⟩
  | passed _ _ hp => exact ⟨hp, hslots⟩
  | heededServer _ hb | loweredLast _ hb | passedLast _ _ _ hb => exact hb.fits
  | stoppedAlone _ hs | rung hs => exact hs.fits
  | @stoppedKnown _ _ cause =>
      cases cause with
      | none => exact hc
      | some => trivial
  | _ => trivial

end

end Client

end PeerBus
