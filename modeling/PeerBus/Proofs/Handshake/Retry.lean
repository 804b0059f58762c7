/-
# `PeerBus.Proofs.Handshake.Retry` — a round that is asked for again

A wait that is interrupted, or that takes too long, ends a round of the client and nothing else: the
server goes on with what it has taken up.  If the client asks again with another seed, the answer to
the first round may come in for the second one.  `done` does not say which round it belongs to.

    client                      server
    start, data := 7            start lowered, data read: 7
    the wait is interrupted     slots filled for 7
    done := 0, data := 8        ·
    start, ring, wait           done := DONE, ring
    done is found               ·
    slot 0 is not 0 ^^^ 8       ·

Whether this can happen is settled by one access, the write of the seed to `data`.  `Notes` keep
what the server has in hand at that time; the round is `crossed` if it is another one, or if it was
answered after the client cleared `done`.  A round that is not crossed finds its own answer, and
only a crossed one can end in a mismatch (`Retry.answered_unless_crossed`), however often the client
was sent away before.  The drawing above is `Retry.second_round_mismatches`.
-/
import PeerBus.Proofs.Handshake.Net
import PeerBus.Proofs.Handshake.Verdict

namespace PeerBus

namespace Client.Point

/-- The client has cleared `done` for its round, and has not found it set. -/
def cleared : Point → Bool
  | .plantSeed _ | .raiseStart _ | .callServer _ | .await _ | .checkShutdown _ | .checkDone _ =>
      true
  | _ => false

/-- The client has found a slot that is wrong. -/
def mismatched : Point → Bool
  | .stop (some (.mismatch _)) | .farewell _ (some (.mismatch _))
  | .returned (.error (.mismatch _)) => true
  | _ => false

theorem eq_lowerDone {p : Point} {r : Round} (hturn : p.turn = .lowers)
    (hround : p.round? = some r) : p = .lowerDone r := by
  cases p with
  | lowerDone => rw [Option.some.inj hround]
  | _ => exact nomatch hturn

end Client.Point

/-- What a client writes to `shutdown` ends the session. -/
theorem Client.ne_zero_of_store_shutdown {c : Client.Call} {move : Move Client.Call}
    {m : Memory} {word : UInt32} {next? : Option Client.Call} (hmove : c.move = some move)
    (hshows : move.Shows m (.store .shutdown word) next?) : word ≠ 0 := by
  cases hshows with
  | store =>
      obtain ⟨k, g, point⟩ := c
      cases point with
      | stop cause =>
          cases hmove
          decide
      | _ => exact nomatch hmove

/-- Slots that are filled stay so while another one is filled for the same seed. -/
theorem Client.Holds.setSlotWord {m : Memory} {seed : UInt32} {i count : Nat}
    (h : Client.Holds m.slotWord seed count) (hroom : 28 + 4 * (i + 1) ≤ m.bytes.size) :
    Client.Holds (m.setSlotWord i (Layout.pattern i seed)).slotWord seed count := by
  intro j hj
  rw [Memory.slotWord_setSlotWord hroom]
  split
  · rename_i hji
    rw [hji]
  · exact h j hj

namespace Retry

open Client (Holds)

/-! ## Two roles that are called again and again -/

/-- What can happen to a client and a server. -/
inductive Act where
  /-- The client makes an access. -/
  | client (access : Access)
  /-- The server makes an access. -/
  | server (access : Access)
  /-- Others are at work: doorbells, interrupts, deadlines, devices that go away. -/
  | others (change : Machine → Machine)
  /-- The client has returned, whatever came of it, and is called for a round. -/
  | again (seed : UInt32)
  /-- The server has returned, and is called for the next doorbell. -/
  | serve

/-- Nobody but the two roles writes the window. -/
def Act.Keeps (session : Session) : Act → Prop
  | .others change => (Solo.Act.others change).Keeps session fun memory => memory
  | _ => True

def act (call : Side → CallId) (s : System) : Act → Option System
  | .client access =>
      (Solo.act (call .client) ⟨s.machine, s.client⟩ (.own access)).map fun t =>
        { s with machine := t.machine, client := t.player }
  | .server access =>
      (Solo.act (call .server) ⟨s.machine, s.server⟩ (.own access)).map fun t =>
        { s with machine := t.machine, server := t.player }
  | .others change => some { s with machine := change s.machine }
  | .again seed =>
      match s.client.role.point with
      | .returned _ =>
          some { s with client := { role := Client.call s.client.role.client (.round seed) } }
      | _ => none
  | .serve =>
      match s.server.role.point with
      | .returned _ =>
          some { s with server := { role := Server.call s.server.role.server .serveOnce } }
      | _ => none

def Step (call : Side → CallId) (s : System) (a : Act) (t : System) : Prop := act call s a = some t

/-- A connected client is called for a round, and a server is in a call for one doorbell.  Both work
in the window of an open session, and no round is under way. -/
structure Begins (session : Session) (s : System) : Prop where
  opened : ∃ size, Session.open? session.region size = .ok session ∧
    (s.machine.regions.get session.region).bytes.size = size.toNat
  client : ∃ k seed, s.client = { role := Client.call k (.round seed) } ∧
    k.session = session ∧ k.server.isSome = true
  session : s.server.role.server.session = session
  passes : 0 < s.server.role.server.config.passes.toNat
  goal : s.server.role.goal = .serveOnce
  announced : s.server.role.point.announced = true
  idles : s.server.role.point.turn = .idles
  waits : s.server.Waits

/-! ## What the server has in hand -/

/-- What the accesses to `data` and `done` say about the rounds so far. -/
structure Notes where
  /-- The seed that the server has read, until it sets `done`. -/
  working : Option UInt32 := none
  /-- The seed of the last round that the server completed. -/
  completed : Option UInt32 := none
  /-- The server has completed a round since the client last cleared `done`. -/
  answered : Bool := false
  /-- The round of the client meets the answer to another one. -/
  crossed : Bool := false

namespace Notes

/-- To ask for a round with this seed now is to meet the answer to another one: the server works on
it, or has completed it after `done` was cleared. -/
def meets (n : Notes) (seed : UInt32) : Bool :=
  n.working.any (fun other => other ≠ seed) || (n.answered && n.completed ≠ some seed)

def note (n : Notes) : Act → Notes
  | .server (.load .data seed) => { n with working := some seed }
  | .server (.store .done _) =>
      { n with working := none, completed := n.working, answered := true }
  | .client (.store .done _) => { n with answered := false }
  | .client (.store .data seed) => { n with crossed := n.meets seed }
  | _ => n

/-- The notes on a list of acts. -/
def taken (acts : List Act) : Notes := acts.foldl note {}

theorem taken_snoc (acts : List Act) (a : Act) : taken (acts ++ [a]) = (taken acts).note a :=
  List.foldl_append

variable {n : Notes} {seed other : UInt32}

theorem working_note_client (n : Notes) (a : Access) :
    (n.note (.client a)).working = n.working := by
  cases a with
  | store field => cases field <;> rfl
  | _ => rfl

theorem completed_note_client (n : Notes) (a : Access) :
    (n.note (.client a)).completed = n.completed := by
  cases a with
  | store field => cases field <;> rfl
  | _ => rfl

theorem eq_of_not_meets (h : n.meets seed = false) (hworking : n.working = some other) :
    other = seed := by
  simp only [meets, hworking, Option.any_some, Bool.or_eq_false_iff] at h
  simpa using h.1

theorem completed_of_not_meets (h : n.meets seed = false) (hanswered : n.answered = true) :
    n.completed = some seed := by
  simp only [meets, hanswered, Bool.true_and, Bool.or_eq_false_iff] at h
  simpa using h.2

end Notes

/-! ## The client -/

/-- What holds of a client in a round, by the point where it is. -/
structure Asks (session : Session) (m : Memory) (n : Notes) (c : Client.Call) : Prop where
  works : c.client.session = session
  goal : ∃ seed, c.goal = .round seed
  connected : c.point.connected = true
  known : c.client.server.isSome = true
  seed : ∀ {r}, c.point.round? = some r → c.goal = .round r.seed
  planted : ∀ {seed}, c.point.planted? = some seed → m.field .data = seed
  /-- What `done` says was said after it was cleared. -/
  cleared : c.point.cleared = true → m.field .done = Marker.done → n.answered = true
  owed : c.point.owes = true → n.crossed = false → n.completed = some (m.field .data)
  within : ∀ {r pass index}, c.point = .verify r pass index → index < session.slots.toNat
  mismatched : c.point.mismatched = true → n.crossed = true

namespace Asks

variable {session : Session} {m m' : Memory} {n n' : Notes} {c : Client.Call}

theorem call {k : Client} (hsession : k.session = session) (hknown : k.server.isSome = true)
    (seed : UInt32) :
    Asks session m n (Client.call k (.round seed)) := by
  obtain ⟨p, hp⟩ := Option.isSome_iff_exists.mp hknown
  simp only [Client.call, hp]
  exact
    { works := hsession
      goal := ⟨seed, rfl⟩
      connected := rfl
      known := hknown
      seed := fun hr => by cases hr; rfl
      planted := fun h => by cases h
      cleared := fun h => by cases h
      owed := fun h => by cases h
      within := fun h => by cases h
      mismatched := fun h => by cases h }

/-- A client that does not move sees only what is said in `data`, in `done` and in the notes. -/
theorem frame (h : Asks session m n c) (hdata : m'.field .data = m.field .data)
    (hcrossed : n'.crossed = n.crossed)
    (hdone : m'.field .done = Marker.done →
      n'.answered = true ∨ m.field .done = Marker.done ∧ n'.answered = n.answered)
    (hcompleted : n.crossed = false → n.completed = some (m.field .data) →
      n'.completed = some (m.field .data)) : Asks session m' n' c :=
  { h with
    planted := fun hp => hdata.trans (h.planted hp)
    cleared := fun hp hd => by
      rcases hdone hd with hanswered | ⟨hd, hanswered⟩
      · exact hanswered
      · exact hanswered.trans (h.cleared hp hd)
    owed := fun hp hc => by
      rw [hcrossed] at hc
      rw [hdata]
      exact hcompleted hc (h.owed hp hc)
    mismatched := fun hp => hcrossed.trans (h.mismatched hp) }

/-- A client that has left the round, or ends the session. -/
theorem goTo (h : Asks session m n c) {point : Client.Point} (hconnected : point.connected = true)
    (hround : point.round? = none) (hmismatched : point.mismatched = true → n.crossed = true) :
    Asks session m n (c.goTo point) := by
  cases point with
  | stop | farewell | returned =>
      exact
        { works := h.works
          goal := h.goal
          connected := rfl
          known := h.known
          seed := nofun
          planted := nofun
          cleared := nofun
          owed := nofun
          within := nofun
          mismatched := hmismatched }
  | identify | publish | lookReady | lookServer | hello | listen | heedShutdown | heedReady
  | heedServer => exact nomatch hconnected
  | _ => exact nomatch hround

theorem fail (h : Asks session m n c) {cause : HandshakeError}
    (hcause : ∀ wrong, cause ≠ .mismatch wrong) : Asks session m n (c.fail cause) := by
  refine h.goTo rfl rfl fun hp => ?_
  cases cause with
  | mismatch wrong => exact absurd rfl (hcause wrong)
  | device | windowTooSmall | shutdown => exact nomatch hp

/-- A pass begins, or the round is verified. -/
theorem beginPass {k : Client} {r : Client.Round} {point : Client.Point}
    (hsession : k.session = session) (hknown : k.server.isSome = true)
    (hslots : 0 < session.slots.toNat) (hdata : m.field .data = r.seed)
    (howed : n.crossed = false → n.completed = some (m.field .data)) (pass : Nat) :
    Asks session m n (Client.Call.beginPass ⟨k, .round r.seed, point⟩ r pass) := by
  unfold Client.Call.beginPass
  split
  · exact
      { works := hsession
        goal := ⟨r.seed, rfl⟩
        connected := rfl
        known := hknown
        seed := fun hr => by cases hr; rfl
        planted := fun hp => by cases hp; exact hdata
        cleared := nofun
        owed := fun _ => howed
        within := fun hp => by cases hp; exact hslots
        mismatched := nofun }
  · exact
      { works := hsession
        goal := ⟨r.seed, rfl⟩
        connected := rfl
        known := hknown
        seed := nofun
        planted := nofun
        cleared := nofun
        owed := nofun
        within := nofun
        mismatched := nofun }

theorem mismatched_farewell {k : Client} {g : Client.Goal} {cause : Option HandshakeError}
    (h : Asks session m n ⟨k, g, .stop cause⟩) {p : PeerId}
    (hp : (Client.Point.farewell p cause).mismatched = true) : n.crossed = true := by
  rcases cause with - | cause
  · exact nomatch hp
  · cases cause with
    | mismatch wrong => exact h.mismatched rfl
    | device | windowTooSmall | shutdown => exact nomatch hp

/-- The end of the session. -/
theorem stopped {k : Client} {g : Client.Goal} {p : PeerId} {cause : Option HandshakeError}
    (h : Asks session m n ⟨k, g, .farewell p cause⟩) :
    Asks session m n (Client.Call.stopped ⟨k, g, .farewell p cause⟩ cause) := by
  obtain ⟨seed, hgoal⟩ := h.goal
  obtain rfl : g = .round seed := hgoal
  rcases cause with - | cause
  · exact h.goTo rfl rfl nofun
  · cases cause with
    | mismatch wrong => exact h.goTo rfl rfl fun _ => h.mismatched rfl
    | device | windowTooSmall | shutdown => exact h.fail nofun

/-- A write to a field that says nothing of the round. -/
theorem store (h : Asks session m n c) (hroom : 28 ≤ m.bytes.size) (field : Field)
    (hdata : field ≠ .data) (hdone : field ≠ .done) (word : UInt32) :
    Asks session (m.setField field word) n c := by
  have hsame : ∀ f, field ≠ f → (m.setField field word).field f = m.field f := by
    intro f hf
    rw [Memory.field_setField hroom, if_neg hf.symm]
  exact h.frame (hsame .data hdata) rfl (fun hd => .inr ⟨(hsame .done hdone).symm.trans hd, rfl⟩)
    fun _ => id

section Round

variable {k : Client} {g : Client.Goal} {r : Client.Round}

theorem clear (h : Asks session m n ⟨k, g, .clearDone r⟩) (hroom : 28 ≤ m.bytes.size) :
    Asks session (m.setField .done 0) { n with answered := false } ⟨k, g, .plantSeed r⟩ := by
  have hdone : (m.setField .done 0).field .done = 0 := Memory.field_setField hroom ..
  exact
    { h with
      planted := nofun
      cleared := fun _ hd => absurd (hdone.symm.trans hd) (by decide)
      owed := nofun
      within := nofun }

/-- Now it is settled whether the round is crossed. -/
theorem plant (h : Asks session m n ⟨k, g, .plantSeed r⟩) (hroom : 28 ≤ m.bytes.size) :
    Asks session (m.setField .data r.seed) { n with crossed := n.meets r.seed }
      ⟨k, g, .raiseStart r⟩ := by
  have hdata : (m.setField .data r.seed).field .data = r.seed := Memory.field_setField hroom ..
  have hdone : (m.setField .data r.seed).field .done = m.field .done :=
    Memory.field_setField hroom ..
  exact
    { h with
      planted := fun hp => by cases hp; exact hdata
      cleared := fun _ hd => h.cleared rfl (hdone.symm.trans hd)
      owed := nofun
      within := nofun
      mismatched := nofun }

theorem raise (h : Asks session m n ⟨k, g, .raiseStart r⟩) (hroom : 28 ≤ m.bytes.size) :
    Asks session (m.setField .start Marker.start) n ⟨k, g, .callServer r⟩ :=
  { h.store hroom .start nofun nofun Marker.start with owed := nofun, within := nofun }

theorem lower (h : Asks session m n ⟨k, g, .lowerDone r⟩) (hroom : 28 ≤ m.bytes.size)
    (hslots : 0 < session.slots.toNat) :
    Asks session (m.setField .done 0) { n with answered := false }
      (Client.Call.beginPass ⟨k, g, .lowerDone r⟩ r 0) := by
  obtain rfl : g = .round r.seed := h.seed rfl
  have hdata : (m.setField .done 0).field .data = m.field .data := Memory.field_setField hroom ..
  have howed : n.crossed = false → n.completed = some ((m.setField .done 0).field .data) :=
    fun hc => (h.owed rfl hc).trans (congrArg some hdata.symm)
  exact beginPass (n := { n with answered := false }) h.works h.known hslots
    (hdata.trans (h.planted rfl)) howed 0

/-- A slot can be wrong only if the round is crossed. -/
theorem crossed_of_wrong {pass index : Nat} (h : Asks session m n ⟨k, g, .verify r pass index⟩)
    (hheld : n.crossed = false → n.completed = some (m.field .data) →
      Holds m.slotWord (m.field .data) session.slots.toNat)
    (hwrong : m.slotWord index ≠ Layout.pattern index r.seed) : n.crossed = true := by
  cases hc : n.crossed with
  | true => rfl
  | false =>
      have hright := hheld hc (h.owed rfl hc) index (h.within rfl)
      rw [h.planted rfl] at hright
      exact absurd hright hwrong

end Round

variable {move : Move Client.Call} {a : Access} {next? : Option Client.Call}

/-- One access of the client.  A round that is not crossed finds its own answer in the slots. -/
theorem step (h : Asks session m n c) (hroom : 28 ≤ m.bytes.size)
    (hslots : 0 < session.slots.toNat)
    (hanswered : n.crossed = false → n.answered = true → n.completed = some (m.field .data))
    (hheld : n.crossed = false → n.completed = some (m.field .data) →
      Holds m.slotWord (m.field .data) session.slots.toNat)
    (hmove : c.move = some move) (hshows : move.Shows m a next?) :
    Asks session (a.apply m) (n.note (.client a)) (next?.getD c) := by
  obtain ⟨k, g, point⟩ := c
  cases point with
  | enter r | checkShutdown r =>
      cases hmove
      cases hshows with
      | load =>
          dsimp only [Option.getD_some]
          split
          · exact { h with within := nofun }
          · exact h.fail nofun
  | clearDone r =>
      cases hmove
      cases hshows
      exact h.clear hroom
  | plantSeed r =>
      cases hmove
      cases hshows
      exact h.plant hroom
  | raiseStart r =>
      cases hmove
      cases hshows
      exact h.raise hroom
  | callServer r =>
      cases hmove
      cases hshows with
      | ring outcome =>
          cases outcome with
          | ok => exact { h with within := nofun }
          | error cause => exact h.fail nofun
  | await r =>
      cases hmove
      cases hshows with
      | asleep => exact h
      | woken outcome =>
          cases outcome with
          | ok => exact { h with within := nofun }
          | error cause => exact h.fail nofun
  | checkDone r =>
      cases hmove
      cases hshows with
      | load =>
          dsimp only [Option.getD_some]
          split
          · rename_i hdone
            exact
              { h with
                cleared := nofun
                owed := fun _ hc => hanswered hc (h.cleared rfl hdone)
                within := nofun }
          · exact { h with within := nofun }
  | lowerDone r =>
      cases hmove
      cases hshows
      exact h.lower hroom hslots
  | verify r pass index =>
      cases hmove
      cases hshows with
      | loadSlot =>
          dsimp only [Option.getD_some]
          split
          · rename_i hwrong
            exact h.goTo rfl rfl fun _ => h.crossed_of_wrong hheld hwrong
          · split
            · rename_i hnext
              exact { h with within := fun hp => by cases hp; exact h.works ▸ hnext }
            · obtain rfl : g = .round r.seed := h.seed rfl
              exact beginPass (k := Client.Call.countPass k) h.works h.known hslots (h.planted rfl)
                (h.owed rfl) (pass + 1)
  | stop cause =>
      cases hmove
      cases hshows
      obtain ⟨p, hp⟩ := Option.isSome_iff_exists.mp h.known
      have hstays := h.store hroom .shutdown nofun nofun 1
      dsimp only [Option.getD_some]
      rw [hp]
      exact hstays.goTo rfl rfl hstays.mismatched_farewell
  | farewell p cause =>
      cases hmove
      cases hshows with
      | ring outcome =>
          dsimp only [Option.getD_some]
          split
          · exact h.fail nofun
          · exact h.stopped
  | returned => exact nomatch hmove
  | _ => exact nomatch h.connected

end Asks

/-! ## The server -/

/-- What holds of a server, by the point where it is.  It gives up what it works on only if it finds
the session over. -/
def Serving (slots : Nat) (m : Memory) (working : Option UInt32) : Server.Point → Prop
  | .listen | .checkShutdown | .returned _ => working = none ∨ m.field .shutdown ≠ 0
  | .lookClient _ | .greetClient _ _ | .checkStart | .lowerStart | .readSeed | .lookCaller
  | .tellCaller _ => working = none
  | .fill seed pass index =>
      index < slots ∧ working = some seed ∧ Holds m.slotWord seed index ∧
        (0 < pass → Holds m.slotWord seed slots)
  | .recheckShutdown | .raiseDone => ∃ seed, working = some seed ∧ Holds m.slotWord seed slots
  | .identify | .publish _ | .clearShutdown _ | .raiseReady _ => False

/-- A server in a call for one doorbell. -/
structure Serves (session : Session) (m : Memory) (n : Notes) (s : Server.Call) : Prop where
  works : s.server.session = session
  goal : s.goal = .serveOnce
  passes : 0 < s.server.config.passes.toNat
  serving : Serving session.slots.toNat m n.working s.point

/-- What an access of the server does to the window and to the notes. -/
inductive Deed (slots : Nat) (m : Memory) (n : Notes) : Access → Prop
  | looks {a : Access} (hmemory : a.apply m = m) (hnotes : n.note (.server a) = n) :
      Deed slots m n a
  | lowers : Deed slots m n (.store .start 0)
  | reads (hworking : n.working = none) : Deed slots m n (.load .data (m.field .data))
  | fills {seed : UInt32} {i : Nat} (hworking : n.working = some seed) (hi : i < slots) :
      Deed slots m n (.storeSlot i (Layout.pattern i seed))
  | answers {seed : UInt32} (hworking : n.working = some seed)
      (hall : Holds m.slotWord seed slots) : Deed slots m n (.store .done Marker.done)

namespace Serves

variable {session : Session} {m m' : Memory} {n n' : Notes} {s : Server.Call}

theorem frame (h : Serves session m n s) (hworking : n'.working = n.working)
    (hshutdown : m.field .shutdown ≠ 0 → m'.field .shutdown ≠ 0)
    (hslots : ∀ i, m'.slotWord i = m.slotWord i) : Serves session m' n' s := by
  refine { h with serving := ?_ }
  have hserving := h.serving
  obtain ⟨k, g, point⟩ := s
  rw [hworking]
  cases point with
  | listen | checkShutdown | returned => exact hserving.imp_right hshutdown
  | fill | recheckShutdown | raiseDone =>
      unfold Serving at hserving ⊢
      rw [funext hslots]
      exact hserving
  | _ => exact hserving

/-- A server that has returned, or waits again. -/
theorem goTo (h : Serves session m n s) {point : Server.Point}
    (hserving : Serving session.slots.toNat m n.working point) :
    Serves session m n (s.goTo point) :=
  { h with serving := hserving }

theorem greeted {k : Server} {point : Server.Point} (h : Serves session m n ⟨k, .serveOnce, point⟩)
    (hworking : n.working = none) (announced : Option PeerId) :
    Serves session m n (Server.Call.greeted ⟨k, .serveOnce, point⟩ announced) := by
  cases announced with
  | none => exact h.goTo (.inl hworking)
  | some self => exact h.goTo (.inl hworking)

/-- A pass begins, or all slots are filled. -/
theorem beginPass {k : Server} {point : Server.Point} {seed : UInt32} {pass : Nat}
    (hworks : k.session = session) (hpasses : 0 < k.config.passes.toNat)
    (hslots : 0 < session.slots.toNat) (hworking : n.working = some seed)
    (hall : 0 < pass → Holds m.slotWord seed session.slots.toNat) :
    Serves session m n (Server.Call.beginPass ⟨k, .serveOnce, point⟩ seed pass) := by
  unfold Server.Call.beginPass
  split
  · exact ⟨hworks, rfl, hpasses, hslots, hworking, .zero, hall⟩
  · rename_i hlast
    have hsome : 0 < pass := Nat.lt_of_lt_of_le hpasses (Nat.le_of_not_lt hlast)
    exact ⟨hworks, rfl, hpasses, seed, hworking, hall hsome⟩

/-- One more slot is filled. -/
theorem fill {k : Server} {g : Server.Goal} {seed : UInt32} {pass index : Nat}
    (h : Serves session m n ⟨k, g, .fill seed pass index⟩)
    (hroom : 28 + 4 * session.slots.toNat ≤ m.bytes.size) (hslots : 0 < session.slots.toNat) :
    Serves session (m.setSlotWord index (Layout.pattern index seed)) n
      (if index + 1 < k.session.slots.toNat then ⟨k, g, .fill seed pass (index + 1)⟩
      else Server.Call.beginPass ⟨Server.Call.countPass k, g, .fill seed pass index⟩ seed
        (pass + 1)) := by
  obtain rfl : g = .serveOnce := h.goal
  obtain ⟨hindex, hworking, hfront, hall⟩ := h.serving
  have hfits : 28 + 4 * (index + 1) ≤ m.bytes.size := by omega
  have hself : (m.setSlotWord index (Layout.pattern index seed)).slotWord index =
      Layout.pattern index seed := by
    rw [Memory.slotWord_setSlotWord hfits, if_pos rfl]
  have hfront' := (hfront.setSlotWord hfits).succ hself
  split
  · rename_i hnext
    have hnext' : index + 1 < session.slots.toNat := h.works ▸ hnext
    exact ⟨h.works, rfl, h.passes, hnext', hworking, hfront', fun hp => (hall hp).setSlotWord hfits⟩
  · rename_i hlast
    have hlast' : ¬index + 1 < session.slots.toNat := h.works ▸ hlast
    have hcount : session.slots.toNat = index + 1 := by omega
    rw [← hcount] at hfront'
    exact beginPass (k := Server.Call.countPass k) h.works h.passes hslots hworking
      fun _ => hfront'

variable {move : Move Server.Call} {a : Access} {next? : Option Server.Call}

/-- One access of the server. -/
theorem step (h : Serves session m n s) (hroom : 28 + 4 * session.slots.toNat ≤ m.bytes.size)
    (hslots : 0 < session.slots.toNat) (hmove : s.move = some move)
    (hshows : move.Shows m a next?) :
    Deed session.slots.toNat m n a ∧
      Serves session (a.apply m) (n.note (.server a)) (next?.getD s) := by
  have hrecord : 28 ≤ m.bytes.size := by omega
  have hserving := h.serving
  obtain ⟨k, g, point⟩ := s
  obtain rfl : g = .serveOnce := h.goal
  cases point with
  | lookClient announced =>
      cases hmove
      cases hshows with
      | load =>
          refine ⟨.looks rfl rfl, ?_⟩
          dsimp only [Option.getD_some]
          split
          · exact h.goTo hserving
          · exact h.greeted hserving announced
  | greetClient client announced =>
      cases hmove
      cases hshows with
      | ring outcome =>
          refine ⟨.looks rfl rfl, ?_⟩
          cases outcome with
          | ok =>
              have hsent : Serves session m n
                  ⟨{ k with readySent := true }, .serveOnce, .greetClient client announced⟩ :=
                { h with }
              exact hsent.greeted hserving announced
          | error cause => exact h.goTo (.inl hserving)
  | listen =>
      cases hmove
      cases hshows with
      | asleep => exact ⟨.looks rfl rfl, h⟩
      | woken outcome =>
          refine ⟨.looks rfl rfl, ?_⟩
          cases outcome with
          | ok => exact h.goTo hserving
          | error cause => exact h.goTo hserving
  | checkShutdown =>
      cases hmove
      cases hshows with
      | load =>
          refine ⟨.looks rfl rfl, ?_⟩
          dsimp only [Option.getD_some]
          split
          · rename_i hopen
            exact h.goTo (hserving.resolve_right (not_not_intro hopen))
          · exact h.goTo hserving
  | checkStart =>
      cases hmove
      cases hshows with
      | load =>
          refine ⟨.looks rfl rfl, ?_⟩
          dsimp only [Option.getD_some]
          split
          · exact { h with }
          · unfold Server.Call.greet
            split
            · exact h.greeted hserving none
            · exact h.goTo hserving
  | lowerStart =>
      cases hmove
      cases hshows
      exact ⟨.lowers, { h with }⟩
  | readSeed =>
      cases hmove
      cases hshows
      exact ⟨.reads hserving, beginPass h.works h.passes hslots rfl nofun⟩
  | fill seed pass index =>
      cases hmove
      cases hshows
      obtain ⟨hindex, hworking, -⟩ := hserving
      exact ⟨.fills hworking hindex, h.fill hroom hslots⟩
  | recheckShutdown =>
      cases hmove
      cases hshows with
      | load =>
          refine ⟨.looks rfl rfl, ?_⟩
          dsimp only [Option.getD_some]
          split
          · exact h.goTo hserving
          · rename_i hover
            exact h.goTo (.inr hover)
  | raiseDone =>
      cases hmove
      cases hshows
      obtain ⟨seed, hworking, hall⟩ := hserving
      exact ⟨.answers hworking hall, { h with serving := rfl }⟩
  | lookCaller =>
      cases hmove
      cases hshows with
      | load =>
          refine ⟨.looks rfl rfl, ?_⟩
          dsimp only [Option.getD_some]
          split
          · exact h.goTo hserving
          · exact { h with serving := .inl hserving }
  | tellCaller client =>
      cases hmove
      cases hshows with
      | ring outcome =>
          refine ⟨.looks rfl rfl, ?_⟩
          cases outcome with
          | ok => exact { h with serving := .inl hserving }
          | error cause => exact h.goTo (.inl hserving)
  | returned => exact nomatch hmove
  | identify | publish | clearShutdown | raiseReady => exact hserving.elim

end Serves

/-! ## Both -/

/-- What holds of the window, the notes and the two roles. -/
structure Sound (session : Session) (m : Memory) (n : Notes) (c : Client.Call) (s : Server.Call) :
    Prop where
  room : 28 + 4 * session.slots.toNat ≤ m.bytes.size
  asks : Asks session m n c
  serves : Serves session m n s
  /-- The slots hold the last answer until the server works on another round. -/
  held : ∀ {seed}, n.completed = some seed → (∀ {other}, n.working = some other → other = seed) →
    Holds m.slotWord seed session.slots.toNat
  current : n.crossed = false → ∀ {seed}, n.working = some seed → seed = m.field .data
  answered : n.crossed = false → n.answered = true → n.completed = some (m.field .data)

namespace Sound

variable {session : Session} {m : Memory} {n : Notes} {c : Client.Call} {s : Server.Call}
  {a : Access}

/-- An answer to the seed in `data` is in the slots, if the round is not crossed. -/
theorem holds (h : Sound session m n c s) (hcrossed : n.crossed = false)
    (hcompleted : n.completed = some (m.field .data)) :
    Holds m.slotWord (m.field .data) session.slots.toNat :=
  h.held hcompleted (h.current hcrossed)

/-- One access of the client. -/
theorem client (h : Sound session m n c s) (hslots : 0 < session.slots.toNat)
    {move : Move Client.Call} {next? : Option Client.Call} (hmove : c.move = some move)
    (hshows : move.Shows m a next?) :
    Sound session (a.apply m) (n.note (.client a)) (next?.getD c) s := by
  have hroom := h.room
  have hrecord : 28 ≤ m.bytes.size := by omega
  have hslot := Access.slotWord_apply hrecord (Client.not_storeSlot hmove hshows)
  have hfield := Access.field_apply hrecord a
  have hworking := n.working_note_client a
  have hcompleted := n.completed_note_client a
  have hdata : (n.note (.client a)).crossed = false →
      (∀ {seed}, n.working = some seed → seed = (a.apply m).field .data) ∧
        ((n.note (.client a)).answered = true →
          n.completed = some ((a.apply m).field .data)) := by
    intro hcrossed
    rw [hfield]
    cases a with
    | store field word =>
        cases field with
        | data =>
            exact ⟨fun hw => Notes.eq_of_not_meets hcrossed hw,
              Notes.completed_of_not_meets hcrossed⟩
        | done => exact ⟨h.current hcrossed, nofun⟩
        | _ => exact ⟨h.current hcrossed, h.answered hcrossed⟩
    | _ => exact ⟨h.current hcrossed, h.answered hcrossed⟩
  have hover : m.field .shutdown ≠ 0 → (a.apply m).field .shutdown ≠ 0 := by
    intro hne
    rw [hfield]
    cases a with
    | store field word =>
        cases field with
        | shutdown => exact Client.ne_zero_of_store_shutdown hmove hshows
        | _ => exact hne
    | _ => exact hne
  exact
    { room := by rwa [Access.size_apply]
      asks := h.asks.step hrecord hslots h.answered h.holds hmove hshows
      serves := h.serves.frame hworking hover hslot
      held := fun hc hw => by
        rw [funext hslot]
        exact h.held (hcompleted.symm.trans hc) fun ho => hw (hworking.trans ho)
      current := fun hc _ hw => (hdata hc).1 (hworking.symm.trans hw)
      answered := fun hc ha => hcompleted.trans ((hdata hc).2 ha) }

/-- One access of the server. -/
theorem server (h : Sound session m n c s) (hslots : 0 < session.slots.toNat)
    {move : Move Server.Call} {next? : Option Server.Call} (hmove : s.move = some move)
    (hshows : move.Shows m a next?) :
    Sound session (a.apply m) (n.note (.server a)) c (next?.getD s) := by
  have hroom := h.room
  have hrecord : 28 ≤ m.bytes.size := by omega
  have hroom' : 28 + 4 * session.slots.toNat ≤ (a.apply m).bytes.size := by
    rwa [Access.size_apply]
  have hfield := Access.field_apply hrecord a
  obtain ⟨hdeed, hserves⟩ := h.serves.step hroom hslots hmove hshows
  cases hdeed with
  | looks hmemory hnotes =>
      rw [hmemory, hnotes] at hserves ⊢
      exact { h with serves := hserves }
  | lowers =>
      have hslot := Memory.slotWord_setField hrecord .start 0
      exact
        { room := hroom'
          asks := h.asks.store hrecord .start nofun nofun 0
          serves := hserves
          held := fun hc hw => (funext hslot).symm ▸ h.held hc hw
          current := fun hc _ hw => (h.current hc hw).trans (hfield .data).symm
          answered := fun hc ha =>
            (h.answered hc ha).trans (congrArg some (hfield .data).symm) }
  | reads hworking =>
      exact
        { room := hroom
          asks := h.asks.frame rfl rfl (fun hd => .inr ⟨hd, rfl⟩) fun _ => id
          serves := hserves
          held := fun hc _ => h.held hc fun ho => nomatch hworking.symm.trans ho
          current := fun _ _ hw => (Option.some.inj hw).symm
          answered := h.answered }
  | fills hworking hi =>
      exact
        { room := hroom'
          asks := h.asks.frame (hfield .data) rfl
            (fun hd => .inr ⟨(hfield .done).symm.trans hd, rfl⟩) fun _ => id
          serves := hserves
          held := fun hc hw => by
            obtain rfl := hw hworking
            exact (h.held hc hw).setSlotWord (by omega)
          current := fun hc _ hw => (h.current hc hw).trans (hfield .data).symm
          answered := fun hc ha =>
            (h.answered hc ha).trans (congrArg some (hfield .data).symm) }
  | answers hworking hall =>
      have hslot := Memory.slotWord_setField hrecord .done Marker.done
      have hanswer : n.crossed = false → n.working = some (m.field .data) := fun hc =>
        hworking.trans (congrArg some (h.current hc hworking))
      exact
        { room := hroom'
          asks := h.asks.frame (hfield .data) rfl (fun _ => .inl rfl) fun hc _ => hanswer hc
          serves := hserves
          held := fun hc _ => by
            obtain rfl := Option.some.inj (hworking.symm.trans hc)
            exact (funext hslot).symm ▸ hall
          current := nofun
          answered := fun hc _ => (hanswer hc).trans (congrArg some (hfield .data).symm) }

/-- The client has returned, and is called for another round. -/
theorem again (h : Sound session m n c s) (seed : UInt32) :
    Sound session m n (Client.call c.client (.round seed)) s :=
  { h with asks := .call h.asks.works h.asks.known seed }

/-- The server has returned, and is called for the next doorbell. -/
theorem serve {ended : Ended} (h : Sound session m n c s) (hended : s.point = .returned ended) :
    Sound session m n c (Server.call s.server .serveOnce) := by
  have hserving := h.serves.serving
  rw [hended] at hserving
  exact { h with serves := ⟨h.serves.works, rfl, h.serves.passes, hserving⟩ }

end Sound

/-! ## Runs -/

/-- What holds of a system after the acts that the notes were taken on. -/
structure Upheld (session : Session) (n : Notes) (s : System) : Prop where
  sound : Sound session (s.machine.regions.get session.region) n s.client.role s.server.role
  client : s.client.Waits
  server : s.server.Waits

variable {session : Session} {call : Side → CallId} {s t : System} {n : Notes} {acts : List Act}
  {a : Act}

theorem Begins.upheld (h : Begins session s) : Upheld session {} s := by
  obtain ⟨size, hopen, hsize⟩ := h.opened
  obtain ⟨-, hslots, hfit⟩ := Session.of_open hopen
  obtain ⟨k, seed, hclient, hsession, hknown⟩ := h.client
  have hserving : Serving session.slots.toNat (s.machine.regions.get session.region) none
      s.server.role.point := by
    have hannounced := h.announced
    have hidles := h.idles
    cases hpoint : s.server.role.point with
    | listen | checkShutdown | returned => exact .inl rfl
    | lookClient | greetClient | checkStart | lookCaller | tellCaller => exact rfl
    | lowerStart | readSeed | fill | recheckShutdown | raiseDone =>
        rw [hpoint] at hidles
        exact nomatch hidles
    | identify | publish | clearShutdown | raiseReady =>
        rw [hpoint] at hannounced
        exact nomatch hannounced
  rw [← hsize] at hfit
  refine
    { sound :=
        { room := hfit
          asks := ?_
          serves := ⟨h.session, h.goal, h.passes, hserving⟩
          held := fun hc _ => nomatch hc
          current := nofun
          answered := nofun }
      client := ?_
      server := h.waits }
  · rw [hclient]
    exact .call hsession hknown seed
  · rw [hclient]
    exact Player.waits_awake _

theorem Upheld.step (hslots : 0 < session.slots.toNat) (hallowed : a.Keeps session)
    (h : Upheld session n s) (hstep : Step call s a t) : Upheld session (n.note a) t := by
  obtain ⟨m, client, server⟩ := s
  have hsound := h.sound
  have hwindow : 0 < (m.regions.get session.region).bytes.size := by
    have hroom := hsound.room
    dsimp only at hroom
    omega
  cases a with
  | client access =>
      obtain ⟨⟨m', client'⟩, hsolo, rfl⟩ := Option.map_eq_some_iff.mp hstep
      obtain ⟨move, next?, hmove, hshows, hrole, hwaits, hmemory⟩ :=
        Solo.own_inv (s := ⟨m, client⟩) hsound.asks.works h.client hwindow hsolo
      refine ⟨?_, hwaits, h.server⟩
      show Sound session (Solo.window ⟨m', client'⟩ session) _ client'.role server.role
      rw [hmemory, hrole]
      exact hsound.client hslots hmove hshows
  | server access =>
      obtain ⟨⟨m', server'⟩, hsolo, rfl⟩ := Option.map_eq_some_iff.mp hstep
      obtain ⟨move, next?, hmove, hshows, hrole, hwaits, hmemory⟩ :=
        Solo.own_inv (s := ⟨m, server⟩) hsound.serves.works h.server hwindow hsolo
      refine ⟨?_, h.client, hwaits⟩
      show Sound session (Solo.window ⟨m', server'⟩ session) _ client.role server'.role
      rw [hmemory, hrole]
      exact hsound.server hslots hmove hshows
  | others change =>
      cases hstep
      refine ⟨?_, h.client, h.server⟩
      rw [show (change m).regions.get session.region = _ from hallowed m]
      exact hsound
  | again seed =>
      obtain ⟨⟨k, g, point⟩, sleep⟩ := client
      cases point with
      | returned ended =>
          cases hstep
          exact ⟨hsound.again seed, Player.waits_awake _, h.server⟩
      | _ => exact nomatch hstep
  | serve =>
      obtain ⟨⟨k, g, point⟩, sleep⟩ := server
      cases point with
      | returned ended =>
          cases hstep
          exact ⟨hsound.serve rfl, h.client, Player.waits_awake _⟩
      | _ => exact nomatch hstep

theorem Begins.run (h : Begins session s) (hrun : Run (Step call) s acts t)
    (hkeeps : ∀ a ∈ acts, a.Keeps session) : Upheld session (Notes.taken acts) t := by
  obtain ⟨size, hopen, -⟩ := h.opened
  obtain ⟨-, hslots, -⟩ := Session.of_open hopen
  refine hrun.history_of_forall (P := fun acts s => Upheld session (Notes.taken acts) s)
    (fun {acts s a t} hallowed hfront hstep => ?_) hkeeps h.upheld
  rw [Notes.taken_snoc]
  exact hfront.step hslots hallowed hstep

/-- **A round finds its own answer unless it was crossed.**  A server serves one doorbell after the
other, and a connected client asks for one round after the other, also after rounds that came to
nothing because a wait failed.  Nobody else writes the window; anything else may happen at any time.

* A client that has left its wait because `done` is set, in a round that was not crossed, finds that
  the last round which the server completed had the same seed, and that its answer is in all slots.
* A round that ends in a mismatch was crossed. -/
theorem answered_unless_crossed (hbegins : Begins session s) (hrun : Run (Step call) s acts t)
    (hkeeps : ∀ a ∈ acts, a.Keeps session) :
    (∀ {r : Client.Round}, t.client.role.point = .lowerDone r →
      t.client.role.goal = .round r.seed ∧
        ((Notes.taken acts).crossed = false →
          (Notes.taken acts).completed = some r.seed ∧
            Holds (t.machine.regions.get session.region).slotWord r.seed session.slots.toNat)) ∧
    ∀ {wrong : Mismatch}, t.client.role.point = .returned (.error (.mismatch wrong)) →
      (Notes.taken acts).crossed = true := by
  have hsound := (hbegins.run hrun hkeeps).sound
  have hasks := hsound.asks
  constructor
  · intro r hpoint
    have hround : t.client.role.point.round? = some r := by rw [hpoint]; rfl
    have hplanted : t.client.role.point.planted? = some r.seed := by rw [hpoint]; rfl
    have howes : t.client.role.point.owes = true := by rw [hpoint]; rfl
    refine ⟨hasks.seed hround, fun hcrossed => ?_⟩
    have hcompleted := hasks.owed howes hcrossed
    rw [← hasks.planted hplanted]
    exact ⟨hcompleted, hsound.holds hcrossed hcompleted⟩
  · intro wrong hpoint
    refine hasks.mismatched ?_
    rw [hpoint]
    rfl

/-! ## Two rounds of a client -/

namespace Twice

/-- The window of two peers that know each other. -/
def machine : Machine :=
  (Link.attached Small.fabric.1 Small.fabric.2 Small.peer).modifyRegion ⟨0⟩ fun memory =>
    ((memory.setField .ivServer (Published.encode ⟨2⟩)).setField .ivClient
      (Published.encode ⟨1⟩)).setField .ready Marker.ready

/-- A client is called for a round with the seed 7, and a server for one doorbell. -/
def system : System where
  machine := machine
  client.role := Client.call
    { device := ⟨0⟩, session := Small.session, config := { passes := 1 }, server := some ⟨2⟩ }
    (.round 7)
  server.role := Server.call
    { device := ⟨1⟩, session := Small.session, config := { passes := 1 } } .serveOnce

theorem begins : Begins Small.session system where
  opened := ⟨44, rfl, by decide +kernel⟩
  client := ⟨_, 7, rfl, rfl, rfl⟩
  session := rfl
  passes := by decide
  goal := rfl
  announced := rfl
  idles := rfl
  waits := Player.waits_awake _

/-- The client asks, and waits. -/
def ask (seed : UInt32) : List Act :=
  [.client (.load .shutdown 0), .client (.store .done 0), .client (.store .data seed),
    .client (.store .start Marker.start), .client (.ring ⟨2⟩ (.ok ())), .client (.wait none)]

/-- The wait is interrupted, and the client is called for another round. -/
def retry (seed : UInt32) : List Act :=
  [.others fun m => m.interruptWaiters ⟨0⟩, .client (.wait (some (.error .interrupted))),
    .again seed]

/-- The server is rung, and takes a round up. -/
def take (seed : UInt32) : List Act :=
  [.server (.wait (some (.ok ()))), .server (.load .shutdown 0),
    .server (.load .start Marker.start), .server (.store .start 0), .server (.load .data seed)]

/-- The server fills the four slots, and tells the client. -/
def answer (seed : UInt32) : List Act :=
  [.server (.storeSlot 0 (Layout.pattern 0 seed)), .server (.storeSlot 1 (Layout.pattern 1 seed)),
    .server (.storeSlot 2 (Layout.pattern 2 seed)), .server (.storeSlot 3 (Layout.pattern 3 seed)),
    .server (.load .shutdown 0), .server (.store .done Marker.done),
    .server (.load .ivClient (Published.encode ⟨1⟩)), .server (.ring ⟨1⟩ (.ok ()))]

/-- The client is rung, and finds `done` set. -/
def find : List Act :=
  [.client (.wait (some (.ok ()))), .client (.load .shutdown 0),
    .client (.load .done Marker.done)]

/-- The second round is asked for while the server works on the first one. -/
def late : List Act :=
  ask 7 ++ take 7 ++ retry 8 ++ ask 8 ++ answer 7 ++ find

/-- The second round is asked for before the server has looked at the first one. -/
def early : List Act :=
  ask 7 ++ retry 8 ++ ask 8 ++ take 8 ++ answer 8 ++ find

/-- The client finds the first slot wrong, and leaves. -/
def fail : List Act :=
  [.client (.store .done 0), .client (.loadSlot 0 7), .client (.store .shutdown 1),
    .client (.ring ⟨2⟩ (.ok ()))]

/-- The slot that a client returns with. -/
def wrong? : Client.Point → Option Mismatch
  | .returned (.error (.mismatch wrong)) => some wrong
  | _ => none

theorem eq_of_wrong? {point : Client.Point} {wrong : Mismatch} (h : wrong? point = some wrong) :
    point = .returned (.error (.mismatch wrong)) := by
  unfold wrong? at h
  split at h
  · rw [Option.some.inj h]
  · exact nomatch h

/-- The client has found `done` set in a round with this seed. -/
def found (seed : UInt32) (t : System) : Bool :=
  t.client.role.point.turn = .lowers && t.client.role.point.round? = some ⟨⟨2⟩, seed⟩

theorem point_of_found {seed : UInt32} (h : found seed t = true) :
    t.client.role.point = .lowerDone ⟨⟨2⟩, seed⟩ := by
  obtain ⟨hturn, hround⟩ := Bool.and_eq_true_iff.mp h
  exact Client.Point.eq_lowerDone (of_decide_eq_true hturn) (of_decide_eq_true hround)

theorem keeps_late : ∀ a ∈ late ++ fail, a.Keeps Small.session := by
  simp [late, fail, ask, take, retry, answer, find, Act.Keeps, Solo.Act.Keeps,
    Machine.interruptWaiters]

theorem keeps_early : ∀ a ∈ early, a.Keeps Small.session := by
  simp [early, ask, take, retry, answer, find, Act.Keeps, Solo.Act.Keeps,
    Machine.interruptWaiters]

end Twice

/-- A client that is interrupted and asks again, while the server works on its first round, takes
the answer to the first round for that to the second, and ends in a mismatch. -/
theorem second_round_mismatches :
    Begins Small.session Twice.system ∧
      (∀ a ∈ Twice.late ++ Twice.fail, a.Keeps Small.session) ∧
      (∃ t, Run (Step Small.call) Twice.system Twice.late t ∧
        t.client.role.point = .lowerDone ⟨⟨2⟩, 8⟩ ∧
        (Notes.taken Twice.late).completed = some 7) ∧
      ∃ u, Run (Step Small.call) Twice.system (Twice.late ++ Twice.fail) u ∧
        u.client.role.point = .returned (.error (.mismatch ⟨0, 8, 7⟩)) := by
  have hfinds : (Twice.late.foldlM (act Small.call) Twice.system).any (Twice.found 8) = true := by
    decide +kernel
  have hfails : ((Twice.late ++ Twice.fail).foldlM (act Small.call) Twice.system).any (fun u =>
      Twice.wrong? u.client.role.point = some ⟨0, 8, 7⟩) = true := by
    decide +kernel
  obtain ⟨t, hrun, hfound⟩ := Run.exists_of_any hfinds
  obtain ⟨u, hrun', hwrong⟩ := Run.exists_of_any hfails
  exact ⟨Twice.begins, Twice.keeps_late, ⟨t, hrun, Twice.point_of_found hfound, rfl⟩, u, hrun',
    Twice.eq_of_wrong? (of_decide_eq_true hwrong)⟩

/-- A client that is interrupted and asks again, before the server has looked at its first round,
finds the answer to the second. -/
theorem answered_unless_crossed_early :
    ∃ t, Run (Step Small.call) Twice.system Twice.early t ∧
      t.client.role.point = .lowerDone ⟨⟨2⟩, 8⟩ ∧
      (Notes.taken Twice.early).completed = some 8 ∧
      (t.machine.regions.get ⟨0⟩).slotWord 3 = 11 := by
  have hfinds : (Twice.early.foldlM (act Small.call) Twice.system).any (Twice.found 8) = true := by
    decide +kernel
  obtain ⟨t, hrun, hfound⟩ := Run.exists_of_any hfinds
  have hpoint := Twice.point_of_found hfound
  obtain ⟨hfinds, -⟩ := answered_unless_crossed Twice.begins hrun Twice.keeps_early
  obtain ⟨-, hanswer⟩ := hfinds hpoint
  obtain ⟨hcompleted, hholds⟩ := hanswer rfl
  exact ⟨t, hrun, hpoint, hcompleted, (hholds 3 (by decide)).trans (by decide)⟩

end Retry

end PeerBus
