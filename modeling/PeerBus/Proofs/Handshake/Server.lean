/-
# `PeerBus.Proofs.Handshake.Server` — the course of a server

`Server.Goes` lists what each access of a server leads to, and `Server.goes_of_perform` is the
inversion, as for the client.  The rules, by the point that they leave:

    identify … raiseReady         the announcement
    lookClient, greetClient       the greeting, unless the client knows
    listen, checkShutdown         the wait for a doorbell, and the end of the session
    checkStart, lowerStart        a round that is asked for is taken on
    readSeed, fill                the slots are filled
    recheckShutdown, raiseDone    `done` is set
    lookCaller, tellCaller        the client is rung

A doorbell that was acted on ends a call or sends a run back to `listen`: `Server.Settled`.
-/
import PeerBus.Handshake.Server
import PeerBus.Proofs.Handshake.View

namespace PeerBus

namespace Server

/-- What a server has to do with the round under way. -/
inductive Turn where
  /-- Nothing. -/
  | idles
  /-- It has found `start`, and has not lowered it. -/
  | catches
  /-- It has lowered `start`, and has not set `done`. -/
  | serves
  deriving DecidableEq

/-! ## What a point says -/

namespace Point

/-- The id of the server is published. -/
def published : Point → Bool
  | .identify | .publish _ => false
  | _ => true

/-- The server has set `ready`. -/
def announced : Point → Bool
  | .identify | .publish _ | .clearShutdown _ | .raiseReady _ => false
  | _ => true

/-- The client that the server rings. -/
def peer? : Point → Option PeerId
  | .greetClient p _ | .tellCaller p => some p
  | _ => none

/-- The server has seen the end of the session. -/
def ended : Point → Bool
  | .returned (.ok (.peer _)) | .returned (.ok (.goesOn true)) => false
  | .returned _ => true
  | _ => false

/-- The seed that the server fills with. -/
def seed? : Point → Option UInt32
  | .fill seed _ _ => some seed
  | _ => none

def turn : Point → Turn
  | .lowerStart => .catches
  | .readSeed | .fill _ _ _ | .recheckShutdown | .raiseDone => .serves
  | _ => .idles

/-- The server is about to greet the client. -/
def greets : Point → Bool
  | .lookClient _ | .greetClient _ _ => true
  | _ => false

/-- The server was rung, and looks for what it was rung for. -/
def looks : Point → Bool
  | .checkShutdown | .checkStart => true
  | _ => false

/-- The server looks whether the session is over. -/
def heeds : Point → Bool
  | .checkShutdown => true
  | _ => false

/-- The server takes on a round that is asked for. -/
def attends : Point → Bool
  | .checkShutdown | .checkStart | .lowerStart => true
  | _ => false

/-- The server has set `done`, and has not rung. -/
def reports : Point → Bool
  | .lookCaller | .tellCaller _ => true
  | _ => false

theorem published_of_announced {p : Point} (h : p.announced = true) : p.published = true := by
  cases p <;> first | rfl | exact nomatch h

theorem turn_of_seed {p : Point} {seed : UInt32} (h : p.seed? = some seed) :
    p.turn = .serves := by
  cases p with
  | fill => rfl
  | _ => exact nomatch h

theorem not_reports_of_serves {p : Point} (h : p.turn = .serves) : p.reports = false := by
  cases p <;> first | rfl | exact nomatch h

end Point

/-- What the server was called for and how it ends go together. -/
def Call.Fits : Call → Prop
  | ⟨_, g, .returned (.ok (.summary _))⟩ => g = .run
  | ⟨_, g, .returned (.ok (.peer _))⟩ | ⟨_, g, .returned (.ok (.goesOn _))⟩ => g ≠ .run
  | ⟨_, _, .returned _⟩ => False
  | ⟨k, _, .fill _ pass index⟩ =>
      pass < k.config.passes.toNat ∧ index < k.session.slots.toNat
  | _ => True

/-! ## The rules -/

/-- Where a server stands that has acted on a doorbell. -/
inductive Settled (k : Server) : Goal → Call → Prop
  | listens : Settled k .run ⟨k, .run, .listen⟩
  | announced {g : Goal} {self : PeerId} : g ≠ .run →
      Settled k g ⟨k, g, .returned (.ok (.peer self))⟩
  | served {g : Goal} : g ≠ .run → Settled k g ⟨k, g, .returned (.ok (.goesOn true))⟩

/-- Where a server stands that has seen the end of the session. -/
inductive Ended (k : Server) : Goal → Call → Prop
  | finished : Ended k .run ⟨k, .run, .returned (.ok (.summary ⟨k.rounds, k.throughput⟩))⟩
  | stops {g : Goal} : g ≠ .run → Ended k g ⟨k, g, .returned (.ok (.goesOn false))⟩

/-- The server with one more round counted. -/
def countRound (k : Server) : Server := { k with rounds := k.rounds + 1 }

/-- The server, whose client now knows that it is ready. -/
def known (k : Server) : Server := { k with readySent := true }

/-- What an access of a server at `self` leads to. -/
inductive Goes (self : PeerId) (v : View) : Call → View → Call → Prop
  | identified {k g} : Goes self v ⟨k, g, .identify⟩ v ⟨k, g, .publish self⟩
  | published {k g p} : Goes self v ⟨k, g, .publish p⟩
      (v.store .ivServer (Published.encode p)) ⟨k, g, .clearShutdown p⟩
  | cleared {k g p} :
      Goes self v ⟨k, g, .clearShutdown p⟩ (v.store .shutdown 0) ⟨k, g, .raiseReady p⟩
  | readied {k g p} : k.readySent = false →
      Goes self v ⟨k, g, .raiseReady p⟩ (v.store .ready Marker.ready)
        ⟨k, g, .lookClient (some p)⟩
  | readiedKnown {k g p c} : k.readySent = true → Settled k g c →
      Goes self v ⟨k, g, .raiseReady p⟩ (v.store .ready Marker.ready) c
  | sawClient {k g a p} : Published.decode? (v.record .ivClient) = some p →
      Goes self v ⟨k, g, .lookClient a⟩ v ⟨k, g, .greetClient p a⟩
  | sawNobody {k g a c} : Published.decode? (v.record .ivClient) = none → Settled k g c →
      Goes self v ⟨k, g, .lookClient a⟩ v c
  | greeted {k g p a c} : Settled (known k) g c →
      Goes self v ⟨k, g, .greetClient p a⟩ (v.raise .client) c
  | heard {k g} : v.flag .server = true →
      Goes self v ⟨k, g, .listen⟩ (v.lower .server) ⟨k, g, .checkShutdown⟩
  | checkedOpen {k g} : v.record .shutdown = 0 →
      Goes self v ⟨k, g, .checkShutdown⟩ v ⟨k, g, .checkStart⟩
  | checkedShutdown {k g c} : v.record .shutdown ≠ 0 → Ended k g c →
      Goes self v ⟨k, g, .checkShutdown⟩ v c
  | caught {k g} : v.record .start = Marker.start →
      Goes self v ⟨k, g, .checkStart⟩ v ⟨known k, g, .lowerStart⟩
  | greets {k g} : v.record .start ≠ Marker.start → k.readySent = false →
      Goes self v ⟨k, g, .checkStart⟩ v ⟨k, g, .lookClient none⟩
  | ignored {k g c} : v.record .start ≠ Marker.start → k.readySent = true → Settled k g c →
      Goes self v ⟨k, g, .checkStart⟩ v c
  | lowered {k g} : Goes self v ⟨k, g, .lowerStart⟩ (v.store .start 0) ⟨k, g, .readSeed⟩
  | read {k g} : 0 < k.config.passes.toNat →
      Goes self v ⟨k, g, .readSeed⟩ v ⟨k, g, .fill (v.record .data) 0 0⟩
  | readLast {k g} : k.config.passes.toNat = 0 →
      Goes self v ⟨k, g, .readSeed⟩ v ⟨k, g, .recheckShutdown⟩
  | filled {k g seed pass i} : i + 1 < k.session.slots.toNat →
      Goes self v ⟨k, g, .fill seed pass i⟩ (v.storeSlot i (Layout.pattern i seed))
        ⟨k, g, .fill seed pass (i + 1)⟩
  | passed {k g seed pass i} : k.session.slots.toNat ≤ i + 1 →
      pass + 1 < k.config.passes.toNat →
      Goes self v ⟨k, g, .fill seed pass i⟩ (v.storeSlot i (Layout.pattern i seed))
        ⟨Call.countPass k, g, .fill seed (pass + 1) 0⟩
  | passedLast {k g seed pass i} : k.session.slots.toNat ≤ i + 1 →
      k.config.passes.toNat ≤ pass + 1 →
      Goes self v ⟨k, g, .fill seed pass i⟩ (v.storeSlot i (Layout.pattern i seed))
        ⟨Call.countPass k, g, .recheckShutdown⟩
  | recheckedOpen {k g} : v.record .shutdown = 0 →
      Goes self v ⟨k, g, .recheckShutdown⟩ v ⟨k, g, .raiseDone⟩
  | recheckedShutdown {k g c} : v.record .shutdown ≠ 0 → Ended k g c →
      Goes self v ⟨k, g, .recheckShutdown⟩ v c
  | raised {k g} :
      Goes self v ⟨k, g, .raiseDone⟩ (v.store .done Marker.done) ⟨k, g, .lookCaller⟩
  | sawCaller {k g p} : Published.decode? (v.record .ivClient) = some p →
      Goes self v ⟨k, g, .lookCaller⟩ v ⟨k, g, .tellCaller p⟩
  | sawNoCaller {k g c} : Published.decode? (v.record .ivClient) = none →
      Settled (countRound k) g c → Goes self v ⟨k, g, .lookCaller⟩ v c
  | told {k g p c} : Settled (countRound k) g c →
      Goes self v ⟨k, g, .tellCaller p⟩ (v.raise .client) c

theorem Settled.turn {k : Server} {g : Goal} {c : Call} (h : Settled k g c) :
    c.point.turn = .idles := by
  cases h <;> rfl

theorem Settled.seed {k : Server} {g : Goal} {c : Call} (h : Settled k g c) :
    c.point.seed? = none := by
  cases h <;> rfl

theorem Settled.reports {k : Server} {g : Goal} {c : Call} (h : Settled k g c) :
    c.point.reports = false := by
  cases h <;> rfl

theorem Settled.server {k : Server} {g : Goal} {c : Call} (h : Settled k g c) :
    c.server = k := by
  cases h <;> rfl

theorem Ended.turn {k : Server} {g : Goal} {c : Call} (h : Ended k g c) :
    c.point.turn = .idles := by
  cases h <;> rfl

theorem Ended.seed {k : Server} {g : Goal} {c : Call} (h : Ended k g c) :
    c.point.seed? = none := by
  cases h <;> rfl

theorem Ended.reports {k : Server} {g : Goal} {c : Call} (h : Ended k g c) :
    c.point.reports = false := by
  cases h <;> rfl

theorem Ended.server {k : Server} {g : Goal} {c : Call} (h : Ended k g c) : c.server = k := by
  cases h <;> rfl

/-! ## The program follows the rules -/

theorem settled_served (k : Server) (g : Goal) (point : Point) :
    Settled k g (Call.served ⟨k, g, point⟩) := by
  cases g with
  | announce => exact .served (by decide)
  | serveOnce => exact .served (by decide)
  | run => exact .listens

theorem settled_greeted (k : Server) (g : Goal) (point : Point) (announced : Option PeerId) :
    Settled k g (Call.greeted ⟨k, g, point⟩ announced) := by
  cases announced with
  | none => exact settled_served ..
  | some self =>
      cases g with
      | announce => exact .announced (by decide)
      | serveOnce => exact .announced (by decide)
      | run => exact .listens

theorem ended_ended (k : Server) (g : Goal) (point : Point) :
    Ended k g (Call.ended ⟨k, g, point⟩) := by
  cases g with
  | announce => exact .stops (by decide)
  | serveOnce => exact .stops (by decide)
  | run => exact .finished

/-- Every access of a server is the work of one of the rules. -/
theorem goes_of_perform {self : PeerId} {v v' : View} {c c' : Call} {move : Move Call}
    (hmove : c.move = some move) (h : View.perform self .server v move = some (v', c')) :
    Goes self v c v' c' := by
  obtain ⟨k, g, point⟩ := c
  cases point with
  | identify => cases hmove; cases h; exact .identified
  | publish p => cases hmove; cases h; exact .published
  | clearShutdown p => cases hmove; cases h; exact .cleared
  | raiseReady p =>
      cases hmove; cases h
      unfold Call.greet
      cases hs : k.readySent with
      | true => exact .readiedKnown hs (settled_greeted k g _ (some p))
      | false => exact .readied hs
  | lookClient announced =>
      cases hmove; cases h
      dsimp only
      cases hw : Published.decode? (v.record .ivClient) with
      | some p => exact .sawClient hw
      | none => exact .sawNobody hw (settled_greeted ..)
  | greetClient p announced => cases hmove; cases h; exact .greeted (settled_greeted ..)
  | listen =>
      cases hmove
      cases hf : v.flag .server with
      | true =>
          rw [View.perform, if_pos hf] at h
          cases h
          exact .heard hf
      | false =>
          rw [View.perform, if_neg (by simp [hf])] at h
          exact nomatch h
  | checkShutdown =>
      cases hmove; cases h
      dsimp only
      by_cases hw : v.record .shutdown = 0
      · rw [if_pos hw]
        exact .checkedOpen hw
      · rw [if_neg hw]
        exact .checkedShutdown hw (ended_ended ..)
  | checkStart =>
      cases hmove; cases h
      dsimp only
      by_cases hw : v.record .start = Marker.start
      · rw [if_pos hw]
        exact .caught hw
      · rw [if_neg hw]
        unfold Call.greet
        cases hs : k.readySent with
        | true => exact .ignored hw hs (settled_greeted k g _ none)
        | false => exact .greets hw hs
  | lowerStart => cases hmove; cases h; exact .lowered
  | readSeed =>
      cases hmove; cases h
      dsimp only
      unfold Call.beginPass
      by_cases hp : 0 < k.config.passes.toNat
      · rw [if_pos hp]
        exact .read hp
      · rw [if_neg hp]
        exact .readLast (by omega)
  | fill seed pass i =>
      cases hmove; cases h
      by_cases hi : i + 1 < k.session.slots.toNat
      · rw [if_pos hi]
        exact .filled hi
      · rw [if_neg hi]
        unfold Call.beginPass
        by_cases hp : pass + 1 < k.config.passes.toNat
        · exact (if_pos hp).symm ▸ .passed (by omega) hp
        · exact (if_neg hp).symm ▸ .passedLast (by omega) (by omega)
  | recheckShutdown =>
      cases hmove; cases h
      dsimp only
      by_cases hw : v.record .shutdown = 0
      · rw [if_pos hw]
        exact .recheckedOpen hw
      · rw [if_neg hw]
        exact .recheckedShutdown hw (ended_ended ..)
  | raiseDone => cases hmove; cases h; exact .raised
  | lookCaller =>
      cases hmove; cases h
      dsimp only
      cases hw : Published.decode? (v.record .ivClient) with
      | some p => exact .sawCaller hw
      | none => exact .sawNoCaller hw (settled_served ..)
  | tellCaller p => cases hmove; cases h; exact .told (settled_served ..)
  | returned ended => exact nomatch hmove

/-! ## Servers that do not go on -/

theorem point_of_move_wait {c : Call} {next : Except DeviceError Unit → Call}
    (h : c.move = some (.wait next)) : c.point = .listen := by
  obtain ⟨k, g, point⟩ := c
  cases point with
  | listen => rfl
  | _ => exact nomatch h

theorem point_of_move_none {c : Call} (h : c.move = none) : ∃ ended, c.point = .returned ended := by
  obtain ⟨k, g, point⟩ := c
  cases point with
  | returned ended => exact ⟨ended, rfl⟩
  | _ => exact nomatch h

/-- A server that has returned from a run reports what it did. -/
theorem summary_of_move_none {c : Call} (h : c.move = none) (hfits : c.Fits)
    (hrun : c.goal = .run) : ∃ sum, c.point = .returned (.ok (.summary sum)) := by
  obtain ⟨ended, hp⟩ := point_of_move_none h
  obtain ⟨k, g, point⟩ := c
  obtain rfl : point = .returned ended := hp
  cases ended with
  | error => exact hfits.elim
  | ok a =>
      cases a with
      | summary sum => exact ⟨sum, rfl⟩
      | done => exact hfits.elim
      | peer | goesOn => exact absurd hrun hfits

/-- A server that has returned from a run has seen the end of the session. -/
theorem ended_of_move_none {c : Call} (h : c.move = none) (hfits : c.Fits)
    (hrun : c.goal = .run) : c.point.ended = true := by
  obtain ⟨sum, hp⟩ := summary_of_move_none h hfits hrun
  rw [hp]
  rfl

/-! ## What every rule keeps -/

section

variable {self : PeerId} {v v' : View} {c c' : Call}

/-- A server stays with its device, its window and its settings. -/
theorem Goes.same (h : Goes self v c v' c') :
    c'.server.device = c.server.device ∧ c'.server.session = c.server.session ∧
      c'.server.config = c.server.config := by
  cases h with
  | readiedKnown _ hs | sawNobody _ hs | greeted hs | ignored _ _ hs | sawNoCaller _ hs
  | told hs => cases hs <;> exact ⟨rfl, rfl, rfl⟩
  | checkedShutdown _ he | recheckedShutdown _ he => cases he <;> exact ⟨rfl, rfl, rfl⟩
  | _ => exact ⟨rfl, rfl, rfl⟩

/-- A server goes on with what it was called for. -/
theorem Goes.goal (h : Goes self v c v' c') : c'.goal = c.goal := by
  cases h with
  | readiedKnown _ hs | sawNobody _ hs | greeted hs | ignored _ _ hs | sawNoCaller _ hs
  | told hs => cases hs <;> rfl
  | checkedShutdown _ he | recheckedShutdown _ he => cases he <;> rfl
  | _ => rfl

/-- A server does not touch the seed. -/
theorem Goes.data (h : Goes self v c v' c') : v'.record .data = v.record .data := by
  cases h <;> rfl

theorem Settled.fits {k : Server} {g : Goal} {c : Call} (h : Settled k g c) : c.Fits := by
  cases h with
  | listens => trivial
  | announced hg | served hg => exact hg

theorem Ended.fits {k : Server} {g : Goal} {c : Call} (h : Ended k g c) : c.Fits := by
  cases h with
  | finished => exact rfl
  | stops hg => exact hg

theorem Goes.fits (h : Goes self v c v' c') (hslots : 0 < c.server.session.slots.toNat)
    (hc : c.Fits) : c'.Fits := by
  cases h with
  | readiedKnown _ hs | sawNobody _ hs | greeted hs | ignored _ _ hs | sawNoCaller _ hs
  | told hs => exact hs.fits
  | checkedShutdown _ he | recheckedShutdown _ he => exact he.fits
  | read hp => exact ⟨hp, hslots⟩
  | filled hi => exact ⟨hc.1, hi⟩
  | passed _ hp => exact ⟨hp, hslots⟩
  | _ => trivial

end

end Server

end PeerBus
