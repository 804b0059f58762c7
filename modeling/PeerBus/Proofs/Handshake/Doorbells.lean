/-
# `PeerBus.Proofs.Handshake.Doorbells` — every doorbell is accounted for

Five accesses of the two programs ring, and each has its purpose:

    greeting     the server tells a client that it is ready
    completion   the server has set `done`
    hello        the client found a server that is ready before it waits
    request      the client has raised `start`
    farewell     the client has set `shutdown`

A `Bell` is a doorbell with its purpose and the peer that it is for, and a log has one for each that
was written so far (`Link.Logs`).  How many there are of each purpose is read off the two programs:

    greetings     1 if the server knows that its client knows
    completions   the rounds served
    hellos        at most 1, and none before the client has looked for a server
    requests      the rounds verified, and the round that is open once it was rung for
    farewells     1 if the client is gone

(`Client.Call.Rang`, `Server.Call.Rang`).  With the rounds in balance
(`PeerBus.Proofs.Handshake.Greeting`) both sides have rung for the same rounds in the end.
-/
import PeerBus.Proofs.Handshake.Greeting
import PeerBus.Proofs.Handshake.Outcome
import PeerBus.Proofs.Handshake.Wake

namespace PeerBus

/-! ## Bells -/

/-- What a doorbell of a handshake is for. -/
inductive Purpose where
  | greeting
  | completion
  | hello
  | request
  | farewell
  deriving DecidableEq

/-- The side that rings. -/
def Purpose.sender : Purpose → Side
  | .greeting | .completion => .server
  | .hello | .request | .farewell => .client

/-- A doorbell that was written. -/
structure Bell where
  purpose : Purpose
  target : PeerId
  deriving DecidableEq

namespace Bell

/-- The doorbells of a purpose. -/
def number (purpose : Purpose) (log : List Bell) : Nat := log.countP fun b => b.purpose = purpose

/-- The doorbells of a side. -/
def sent (x : Side) (log : List Bell) : Nat := log.countP fun b => b.purpose.sender = x

theorem number_append (purpose : Purpose) (log more : List Bell) :
    number purpose (log ++ more) = number purpose log + number purpose more :=
  List.countP_append

/-- Doorbells of the other side. -/
theorem number_append_of_sender {purpose : Purpose} {more : List Bell} (log : List Bell)
    (hmore : ∀ b ∈ more, b.purpose.sender ≠ purpose.sender) :
    number purpose (log ++ more) = number purpose log := by
  rw [number_append]
  refine Nat.add_eq_left.mpr (List.countP_eq_zero.mpr fun b hb he => hmore b hb ?_)
  rw [of_decide_eq_true he]

theorem number_cons (purpose : Purpose) (b : Bell) (log : List Bell) :
    number purpose (b :: log) = number purpose log + if b.purpose = purpose then 1 else 0 := by
  simp [number, List.countP_cons]

theorem sent_cons (x : Side) (b : Bell) (log : List Bell) :
    sent x (b :: log) = sent x log + if b.purpose.sender = x then 1 else 0 := by
  simp [sent, List.countP_cons]

theorem sent_server (log : List Bell) :
    sent .server log = number .greeting log + number .completion log := by
  induction log with
  | nil => rfl
  | cons b log ih =>
      rw [sent_cons, number_cons, number_cons, ih]
      cases b.purpose <;> simp [Purpose.sender] <;> omega

theorem sent_client (log : List Bell) :
    sent .client log = number .hello log + number .request log + number .farewell log := by
  induction log with
  | nil => rfl
  | cons b log ih =>
      rw [sent_cons, number_cons, number_cons, number_cons, ih]
      cases b.purpose <;> simp [Purpose.sender] <;> omega

end Bell

open Bell (number sent)

/-- The peer that an access rings. -/
def Move.target? {ρ : Type} : Move ρ → Option PeerId
  | .ring target _ => some target
  | .identify _ | .load _ _ | .store _ _ _ | .loadSlot _ _ | .storeSlot _ _ _ | .wait _ => none

theorem Move.eq_ring_of_target {ρ : Type} {move : Move ρ} {target : PeerId}
    (h : move.target? = some target) : ∃ next, move = .ring target next := by
  cases move with
  | ring target' next =>
      cases h
      exact ⟨next, rfl⟩
  | _ => exact nomatch h

/-! ## The client -/

namespace Client

variable {peer : Side → PeerId} {v v' : View} {c c' : Call} {s : Server.Call} {log : List Bell}
  {limit : UInt64} {seeds : Nat → UInt32}

def Point.purpose : Point → Purpose
  | .hello _ => .hello
  | .farewell _ _ => .farewell
  | _ => .request

/-- The doorbell that the next access of a client writes. -/
def Call.bell? (c : Call) : Option Bell :=
  (c.move.bind Move.target?).map fun target => ⟨c.point.purpose, target⟩

theorem Call.move_of_bell {b : Bell} (h : c.bell? = some b) :
    (∃ next, c.move = some (.ring b.target next)) ∧ b.purpose.sender = .client ∧
      c.point.peer? = some b.target := by
  obtain ⟨target, htarget, rfl⟩ := Option.map_eq_some_iff.mp h
  obtain ⟨move, hmove, htarget⟩ := Option.bind_eq_some_iff.mp htarget
  obtain ⟨next, rfl⟩ := Move.eq_ring_of_target htarget
  refine ⟨⟨next, hmove⟩, ?_⟩
  obtain ⟨k, g, point⟩ := c
  cases point with
  | hello | callServer | farewell => cases hmove; exact ⟨rfl, rfl⟩
  | _ => exact nomatch hmove

/-- The client has not looked for a server, or is about to say hello. -/
def Point.early : Point → Bool
  | .identify | .publish _ | .lookReady | .lookServer | .hello _ => true
  | _ => false

/-- The client is about to ring for its round. -/
def Point.calls : Point → Bool
  | .callServer _ => true
  | _ => false

/-- The doorbells that a client has written. -/
structure Call.Rang (log : List Bell) (c : Call) : Prop where
  hello : number .hello log + c.point.early.toNat ≤ 1
  request : number .request log + c.point.calls.toNat = c.client.rounds + c.point.opened.toNat
  farewell : number .farewell log = c.point.gone.toNat

theorem Call.Rang.fresh {k : Client} {g : Goal} (hk : k.rounds = 0) :
    Call.Rang [] ⟨k, g, .identify⟩ :=
  ⟨Nat.le_refl _, hk.symm, rfl⟩

/-- Doorbells of the server. -/
theorem Call.Rang.append (h : c.Rang log) {more : List Bell}
    (hmore : ∀ b ∈ more, b.purpose.sender = .server) : c.Rang (log ++ more) := by
  have hnone (purpose : Purpose) (hp : purpose.sender = .client) :
      number purpose (log ++ more) = number purpose log :=
    Bell.number_append_of_sender log fun b hb => by rw [hmore b hb, hp]; decide
  exact ⟨by rw [hnone _ rfl]; exact h.hello, by rw [hnone _ rfl]; exact h.request,
    by rw [hnone _ rfl]; exact h.farewell⟩

/-- An access that does not ring. -/
theorem Call.Rang.silent (h : c.Rang log) (hb : c.bell? = none)
    (hearly : c'.point.early = true → c.point.early = true)
    (hrequest : c'.client.rounds + c'.point.opened.toNat + c.point.calls.toNat =
      c.client.rounds + c.point.opened.toNat + c'.point.calls.toNat)
    (hgone : c'.point.gone = c.point.gone) : c'.Rang (log ++ c.bell?.toList) := by
  have hhello := h.hello
  have hrequest' := h.request
  rw [hb, Option.toList_none, List.append_nil]
  refine ⟨?_, by omega, hgone ▸ h.farewell⟩
  cases he : c'.point.early with
  | false => exact Nat.le_trans (Nat.le_add_right _ _) hhello
  | true =>
      rw [hearly he] at hhello
      exact hhello

theorem Between.rang {k : Client} {server : PeerId} {g : Goal} (h : Between k server g c') :
    c'.point.early = false ∧ c'.point.calls = false ∧ c'.point.gone = false := by
  cases h <;> exact ⟨rfl, rfl, rfl⟩

theorem Goes.rang (h : Goes (peer .client) v c v' c') (hf : Faithful peer v c s) (hfits : c.Fits)
    (hc : c.Rang log) : c'.Rang (log ++ c.bell?.toList) := by
  cases h with
  | heededShutdown hw | enteredShutdown hw | checkedShutdown hw => exact absurd hf.shutdown hw
  | stoppedAlone hn _ => exact nomatch hn.symm.trans (hf.server_eq rfl)
  | identified | published | sawReady | sawNotReady | sawServer | sawNobody =>
      exact hc.silent rfl (fun _ => rfl) rfl rfl
  | greeted =>
      have hhello := hc.hello
      refine ⟨?_, ?_, ?_⟩
      · rw [Bell.number_append]
        exact hhello
      · rw [Bell.number_append]
        exact hc.request
      · rw [Bell.number_append]
        exact hc.farewell
  | called =>
      refine ⟨?_, ?_, ?_⟩
      · rw [Bell.number_append]
        exact hc.hello
      · rw [Bell.number_append]
        exact hc.request
      · rw [Bell.number_append]
        exact hc.farewell
  | rung hs =>
      have hfarewell := hc.farewell
      cases hs with
      | failed | finished =>
        refine ⟨?_, ?_, ?_⟩
        · rw [Bell.number_append]
          exact hc.hello
        · rw [Bell.number_append]
          exact hc.request
        · rw [Bell.number_append, hfarewell]
          rfl
      | done hg => exact nomatch hg.symm.trans hfits
  | heededServer _ hb | loweredLast _ hb | passedLast _ _ _ hb =>
      obtain ⟨hearly, hcalls, hgone⟩ := hb.rang
      refine hc.silent rfl (fun he => nomatch hearly.symm.trans he) ?_ hgone
      rw [hb.client, hb.opened, hcalls]
      rfl
  | @stoppedKnown _ _ cause => cases cause <;> exact hc.silent rfl nofun rfl rfl
  | _ => exact hc.silent rfl nofun rfl rfl

/-- A client that fails goes on failing. -/
theorem Goes.failed (h : Goes (peer .client) v c v' c') (hc : c.point.failed = true) :
    c'.point.failed = true := by
  cases h with
  | @stoppedKnown _ _ cause =>
      cases cause with
      | none => exact nomatch hc
      | some => rfl
  | stoppedAlone _ hs | rung hs =>
      cases hs with
      | failed => rfl
      | finished | done => exact nomatch hc
  | _ => exact nomatch hc

/-- As long as a client does not fail, it keeps to its limit. -/
theorem Goes.limited (h : Goes (peer .client) v c v' c')
    (hc : c.point.failed = true ∨ c.Paced limit seeds)
    (hfresh : c.point.connected = false → c.client.rounds = 0) :
    c'.point.failed = true ∨ c'.Paced limit seeds := by
  cases hfails : c'.point.failed with
  | true => exact .inl rfl
  | false =>
      rcases hc with hfailed | hpaced
      · exact nomatch hfails.symm.trans (h.failed hfailed)
      · exact .inr (h.paced hpaced hfresh hfails)

/-- A client counts no round before it is connected. -/
theorem Goes.fresh (h : Goes (peer .client) v c v' c')
    (hc : c.point.connected = false → c.client.rounds = 0)
    (hc' : c'.point.connected = false) : c'.client.rounds = 0 := by
  cases h with
  | heededServer _ hb | loweredLast _ hb | passedLast _ _ _ hb =>
      exact nomatch hb.connected.symm.trans hc'
  | stoppedAlone _ hs | rung hs => cases hs <;> exact nomatch hc'
  | identified | published | sawReady | sawNotReady | sawServer | sawNobody | greeted | heard
  | heededOpen | heededReady | heededNotReady | heededNobody => exact hc rfl
  | _ => exact nomatch hc'

end Client

/-! ## The server -/

namespace Server

variable {peer : Side → PeerId} {v v' : View} {s s' : Call} {log : List Bell}

def Point.purpose : Point → Purpose
  | .greetClient _ _ => .greeting
  | _ => .completion

/-- The doorbell that the next access of a server writes. -/
def Call.bell? (s : Call) : Option Bell :=
  (s.move.bind Move.target?).map fun target => ⟨s.point.purpose, target⟩

theorem Call.move_of_bell {b : Bell} (h : s.bell? = some b) :
    (∃ next, s.move = some (.ring b.target next)) ∧ b.purpose.sender = .server ∧
      s.point.peer? = some b.target := by
  obtain ⟨target, htarget, rfl⟩ := Option.map_eq_some_iff.mp h
  obtain ⟨move, hmove, htarget⟩ := Option.bind_eq_some_iff.mp htarget
  obtain ⟨next, rfl⟩ := Move.eq_ring_of_target htarget
  refine ⟨⟨next, hmove⟩, ?_⟩
  obtain ⟨k, g, point⟩ := s
  cases point with
  | greetClient | tellCaller => cases hmove; exact ⟨rfl, rfl⟩
  | _ => exact nomatch hmove

/-- The doorbells that a server has written. -/
structure Call.Rang (log : List Bell) (s : Call) : Prop where
  greeting : number .greeting log = s.server.readySent.toNat
  completion : number .completion log = s.server.rounds
  /-- A server that is about to greet has not done so. -/
  unsent : s.point.greets = true → s.server.readySent = false

theorem Call.Rang.fresh {k : Server} {g : Goal} (hsent : k.readySent = false)
    (hrounds : k.rounds = 0) : Call.Rang [] ⟨k, g, .identify⟩ :=
  ⟨congrArg Bool.toNat hsent.symm, hrounds.symm, nofun⟩

/-- Doorbells of the client. -/
theorem Call.Rang.append (h : s.Rang log) {more : List Bell}
    (hmore : ∀ b ∈ more, b.purpose.sender = .client) : s.Rang (log ++ more) := by
  have hnone (purpose : Purpose) (hp : purpose.sender = .server) :
      number purpose (log ++ more) = number purpose log :=
    Bell.number_append_of_sender log fun b hb => by rw [hmore b hb, hp]; decide
  exact ⟨by rw [hnone _ rfl]; exact h.greeting, by rw [hnone _ rfl]; exact h.completion, h.unsent⟩

/-- An access that does not ring. -/
theorem Call.Rang.silent (h : s.Rang log) (hb : s.bell? = none)
    (hsent : s'.server.readySent = s.server.readySent)
    (hrounds : s'.server.rounds = s.server.rounds)
    (hunsent : s'.point.greets = true → s.server.readySent = false) :
    s'.Rang (log ++ s.bell?.toList) := by
  rw [hb, Option.toList_none, List.append_nil]
  refine ⟨hsent ▸ h.greeting, hrounds ▸ h.completion, fun hg => ?_⟩
  rw [hsent]
  exact hunsent hg

theorem Settled.greets {k : Server} {g : Goal} (h : Settled k g s') : s'.point.greets = false := by
  cases h <;> rfl

theorem Ended.greets {k : Server} {g : Goal} (h : Ended k g s') : s'.point.greets = false := by
  cases h <;> rfl

theorem Goes.rang (h : Goes (peer .server) v s v' s')
    (hstart : v.record .start = Marker.start → s.server.readySent = true)
    (hcaller : s.point.reports = true → Published.decode? (v.record .ivClient) ≠ none)
    (hs : s.Rang log) : s'.Rang (log ++ s.bell?.toList) := by
  cases h with
  | readied hsent | greets _ hsent => exact hs.silent rfl rfl rfl fun _ => hsent
  | sawClient => exact hs.silent rfl rfl rfl fun _ => hs.unsent rfl
  | readiedKnown _ hsettled | sawNobody _ hsettled | ignored _ _ hsettled =>
      exact hs.silent rfl (by rw [hsettled.server]) (by rw [hsettled.server])
        fun hg => nomatch hsettled.greets.symm.trans hg
  | checkedShutdown _ he | recheckedShutdown _ he =>
      exact hs.silent rfl (by rw [he.server]) (by rw [he.server])
        fun hg => nomatch he.greets.symm.trans hg
  | greeted hsettled =>
      have hgreeting := hs.greeting
      rw [hs.unsent rfl] at hgreeting
      refine ⟨?_, ?_, fun hg => nomatch hsettled.greets.symm.trans hg⟩
      · rw [Bell.number_append, hgreeting, hsettled.server]
        rfl
      · rw [Bell.number_append, hsettled.server]
        exact hs.completion
  | told hsettled =>
      refine ⟨?_, ?_, fun hg => nomatch hsettled.greets.symm.trans hg⟩
      · rw [Bell.number_append, hsettled.server]
        exact hs.greeting
      · rw [Bell.number_append, hs.completion, hsettled.server]
        rfl
  | caught hw => exact hs.silent rfl (hstart hw).symm rfl nofun
  | sawNoCaller hw => exact absurd hw (hcaller rfl)
  | _ => exact hs.silent rfl rfl rfl nofun

end Server

end PeerBus
