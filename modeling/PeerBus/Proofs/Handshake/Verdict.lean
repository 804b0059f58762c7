/-
# `PeerBus.Proofs.Handshake.Verdict` — a round reports corruption exactly

A connected client is called for one round, and others do what they like meanwhile
(`PeerBus.Proofs.Handshake.Solo`).  The round falls in two, at the moment when the client reads the
mark of a filled round in `done`.

**Before** that moment the client asks and waits, however often it is woken for nothing.  It gives
up only if it finds the session over or an operation of its device fails (`Pending`).

**From** that moment on, if nobody touches the slots any more, it goes one way:

    lowers  →  verifies 0 0  →  …  →  verifies pass index  →  …  →  verified
                                            |
                                            ↓ a slot is wrong
                                          stops  →  leaves  →  failed

`Course` has one rule for each of these points, with everything that the client did to get there.
The doorbell between `leaves` and `failed` may come to nothing: the error is the same.  It is one of
the client's device, and what shows of it is what the device answers (`Verdict.rung`).
-/
import PeerBus.Proofs.Handshake.Outcome
import PeerBus.Proofs.Handshake.Solo

namespace PeerBus

namespace Client

variable {k : Client} {server : PeerId} {seed : UInt32} {slot : Nat → UInt32} {own : List Access}
  {c : Call} {move : Move Call} {memory : Memory} {a : Access} {next? : Option Call}

/-! ## What a client never does -/

/-- A client never writes a slot. -/
theorem not_storeSlot (hmove : c.move = some move) (hshows : move.Shows memory a next?)
    (index : Nat) (word : UInt32) : a ≠ .storeSlot index word := by
  rintro rfl
  cases hshows with
  | storeSlot =>
      obtain ⟨k, g, point⟩ := c
      cases point <;> exact nomatch hmove

/-! ## Before the round is filled -/

/-- A round of `k` that has not seen `done` yet. -/
inductive Pending (k : Client) (server : PeerId) (seed : UInt32) (own : List Access) : Call → Prop
  /-- The client asks, or waits for the answer. -/
  | waits {point : Point} (hround : point.round? = some ⟨server, seed⟩)
      (howes : point.owes = false) : Pending k server seed own ⟨k, .round seed, point⟩
  /-- The client has found the session over. -/
  | refused {word : UInt32} (hword : word ≠ 0) (hseen : .load .shutdown word ∈ own) :
      Pending k server seed own ⟨k, .round seed, .returned (.error .shutdown)⟩
  /-- A doorbell or a wait has failed. -/
  | failed {cause : DeviceError}
      (hseen : .ring server (.error cause) ∈ own ∨ .wait (some (.error cause)) ∈ own) :
      Pending k server seed own ⟨k, .round seed, .returned (.error (.device cause))⟩

theorem Pending.call (hserver : k.server = some server) :
    Pending k server seed [] (Client.call k (.round seed)) := by
  unfold Client.call
  rw [hserver]
  exact .waits rfl rfl

theorem Pending.session (h : Pending k server seed own c) : c.client.session = k.session := by
  cases h <;> rfl

/-- One more access: the client still waits, or it gives up, or it has seen `done`. -/
theorem Pending.step (h : Pending k server seed own c) (hmove : c.move = some move)
    (hshows : move.Shows memory a next?) :
    (a = .load .done Marker.done ∧
        next?.getD c = ⟨k, .round seed, .lowerDone ⟨server, seed⟩⟩) ∨
      (a ≠ .load .done Marker.done ∧ Pending k server seed (own ++ [a]) (next?.getD c)) := by
  have hlast : a ∈ own ++ [a] := List.mem_append_right _ (List.mem_singleton_self a)
  cases h with
  | refused | failed => exact nomatch hmove
  | @waits point hround howes =>
      cases point with
      | enter | checkShutdown =>
          cases hround
          cases hmove
          cases hshows with
          | load =>
              refine .inr ⟨by simp, ?_⟩
              by_cases hword : memory.field .shutdown = 0
              · simp only [Option.getD_some, hword, if_true]
                exact .waits rfl rfl
              · simp only [Option.getD_some, hword, if_false]
                exact .refused hword hlast
      | clearDone | plantSeed | raiseStart =>
          cases hround
          cases hmove
          cases hshows
          exact .inr ⟨nofun, .waits rfl rfl⟩
      | callServer =>
          cases hround
          cases hmove
          cases hshows with
          | ring outcome =>
              refine .inr ⟨nofun, ?_⟩
              cases outcome with
              | ok => exact .waits rfl rfl
              | error cause => exact .failed (.inl hlast)
      | await =>
          cases hround
          cases hmove
          cases hshows with
          | asleep => exact .inr ⟨nofun, .waits rfl rfl⟩
          | woken outcome =>
              refine .inr ⟨nofun, ?_⟩
              cases outcome with
              | ok => exact .waits rfl rfl
              | error cause => exact .failed (.inr hlast)
      | checkDone =>
          cases hround
          cases hmove
          cases hshows with
          | load =>
              by_cases hword : memory.field .done = Marker.done
              · dsimp only [Option.getD_some]
                rw [if_pos hword, hword]
                exact .inl ⟨rfl, rfl⟩
              · refine .inr ⟨by simpa using hword, ?_⟩
                simp only [Option.getD_some, hword, if_false]
                exact .waits rfl rfl
      | lowerDone | verify => exact nomatch howes
      | _ => exact nomatch hround

/-! ## The scans -/

/-- The first `count` looks at the slots, from the first slot on and round again. -/
def looks (slots : Nat) (slot : Nat → UInt32) (count : Nat) : List Access :=
  (List.range count).map fun i => .loadSlot (i % slots) (slot (i % slots))

theorem length_looks (slots : Nat) (slot : Nat → UInt32) (count : Nat) :
    (looks slots slot count).length = count := by
  rw [looks, List.length_map, List.length_range]

theorem looks_succ {slots pass index : Nat} (h : index < slots) (slot : Nat → UInt32) :
    looks slots slot (slots * pass + index + 1) =
      looks slots slot (slots * pass + index) ++ [.loadSlot index (slot index)] := by
  rw [looks, List.range_succ, List.map_append, List.map_singleton, Nat.mul_add_mod,
    Nat.mod_eq_of_lt h]
  rfl

/-- Looks at slots write no field. -/
theorem foldl_stored_looks (slots : Nat) (slot : Nat → UInt32) (count : Nat) (field : Field)
    (word : UInt32) :
    (looks slots slot count).foldl (Access.stored field) word = word := by
  unfold looks
  induction List.range count with
  | nil => rfl
  | cons i rest ih => exact ih

/-- The first `count` slots hold the answer to the seed. -/
def Holds (slot : Nat → UInt32) (seed : UInt32) (count : Nat) : Prop :=
  ∀ i, i < count → slot i = Layout.pattern i seed

/-- The first slot that is wrong. -/
structure FirstWrong (slot : Nat → UInt32) (seed : UInt32) (slots i : Nat) : Prop where
  lt : i < slots
  wrong : slot i ≠ Layout.pattern i seed
  before : Holds slot seed i

theorem Holds.zero : Holds slot seed 0 :=
  fun _ hi => absurd hi (Nat.not_lt_zero _)

theorem Holds.succ {i : Nat} (h : Holds slot seed i) (hi : slot i = Layout.pattern i seed) :
    Holds slot seed (i + 1) := by
  intro j hj
  rcases Nat.lt_succ_iff_lt_or_eq.mp hj with hj | rfl
  · exact h j hj
  · exact hi

theorem FirstWrong.not_holds {slots i : Nat} (h : FirstWrong slot seed slots i) :
    ¬Holds slot seed slots :=
  fun hall => h.wrong (hall i h.lt)

theorem FirstWrong.unique {slots i j : Nat} (hi : FirstWrong slot seed slots i)
    (hj : FirstWrong slot seed slots j) : i = j := by
  rcases Nat.lt_trichotomy i j with h | h | h
  · exact absurd (hj.before i h) hi.wrong
  · exact h
  · exact absurd (hi.before j h) hj.wrong

/-! ## What is counted -/

/-- The client with so many passes counted. -/
def counted (k : Client) (passes : Nat) : Client :=
  { k with throughput := k.throughput.afterPasses (.reads k.session.slots) passes }

/-! ## From then on -/

/-- Where a client that has seen `done` is, and what it did since. -/
inductive Course (k : Client) (server : PeerId) (seed : UInt32) (slot : Nat → UInt32) :
    List Access → Call → Prop
  | lowers : Course k server seed slot [] ⟨k, .round seed, .lowerDone ⟨server, seed⟩⟩
  | verifies {pass index : Nat} (hpass : pass < k.config.passes.toNat)
      (hindex : index < k.session.slots.toNat) (hfront : Holds slot seed index)
      (hall : 0 < pass → Holds slot seed k.session.slots.toNat) :
      Course k server seed slot
        (.store .done 0 :: looks k.session.slots.toNat slot (k.session.slots.toNat * pass + index))
        ⟨counted k pass, .round seed, .verify ⟨server, seed⟩ pass index⟩
  | verified (hall : Holds slot seed k.session.slots.toNat) :
      Course k server seed slot
        (.store .done 0 :: looks k.session.slots.toNat slot
          (k.session.slots.toNat * k.config.passes.toNat))
        ⟨countRound (counted k k.config.passes.toNat), .round seed, .returned (.ok .done)⟩
  | stops {i : Nat} (hi : FirstWrong slot seed k.session.slots.toNat i) :
      Course k server seed slot (.store .done 0 :: looks k.session.slots.toNat slot (i + 1))
        ⟨k, .round seed, .stop (some (.mismatch ⟨i, Layout.pattern i seed, slot i⟩))⟩
  | leaves {i : Nat} (hi : FirstWrong slot seed k.session.slots.toNat i) :
      Course k server seed slot
        (.store .done 0 :: looks k.session.slots.toNat slot (i + 1) ++ [.store .shutdown 1])
        ⟨k, .round seed, .farewell server (some (.mismatch ⟨i, Layout.pattern i seed, slot i⟩))⟩
  | failed {i : Nat} (hi : FirstWrong slot seed k.session.slots.toNat i)
      (outcome : Except DeviceError Unit) :
      Course k server seed slot
        (.store .done 0 :: looks k.session.slots.toNat slot (i + 1) ++
          [.store .shutdown 1, .ring server outcome])
        ⟨k, .round seed, .returned (.error (.mismatch ⟨i, Layout.pattern i seed, slot i⟩))⟩

namespace Course

theorem session (h : Course k server seed slot own c) : c.client.session = k.session := by
  cases h <;> rfl

theorem device (h : Course k server seed slot own c) : c.client.device = k.device := by
  cases h <;> rfl

/-- A pass begins with the first slot, unless all passes are done. -/
theorem begins {pass : Nat} {point : Point} (hslots : 0 < k.session.slots.toNat)
    (hpass : pass ≤ k.config.passes.toNat) (hpasses : 0 < k.config.passes.toNat)
    (hall : 0 < pass → Holds slot seed k.session.slots.toNat) :
    Course k server seed slot
      (.store .done 0 :: looks k.session.slots.toNat slot (k.session.slots.toNat * pass))
      (Call.beginPass ⟨counted k pass, .round seed, point⟩ ⟨server, seed⟩ pass) := by
  show Course k server seed slot _ (if pass < k.config.passes.toNat then _ else _)
  by_cases hmore : pass < k.config.passes.toNat
  · rw [if_pos hmore]
    exact .verifies hmore hslots .zero hall
  · obtain rfl : pass = k.config.passes.toNat := by omega
    rw [if_neg hmore]
    exact .verified (hall hpasses)

/-- A look at a slot that is wrong ends the scan; one at the last slot ends the pass. -/
theorem look {pass index : Nat} (hpass : pass < k.config.passes.toNat)
    (hindex : index < k.session.slots.toNat)
    (hfront : Holds slot seed index) (hall : 0 < pass → Holds slot seed k.session.slots.toNat) :
    let c : Call := ⟨counted k pass, .round seed, .verify ⟨server, seed⟩ pass index⟩
    Course k server seed slot
      (.store .done 0 ::
        looks k.session.slots.toNat slot (k.session.slots.toNat * pass + index + 1))
      (if slot index ≠ Layout.pattern index seed then
        c.goTo (.stop (some (.mismatch ⟨index, Layout.pattern index seed, slot index⟩)))
      else if index + 1 < k.session.slots.toNat then
        c.goTo (.verify ⟨server, seed⟩ pass (index + 1))
      else Call.beginPass { c with client := Call.countPass c.client } ⟨server, seed⟩
        (pass + 1)) := by
  intro c
  by_cases hslot : slot index = Layout.pattern index seed
  · rw [if_neg (not_not_intro hslot)]
    have hfront' := hfront.succ hslot
    by_cases hnext : index + 1 < k.session.slots.toNat
    · rw [if_pos hnext]
      exact .verifies hpass hnext hfront' hall
    · have hlast : k.session.slots.toNat = index + 1 := by omega
      have hcount : Call.countPass (counted k pass) = counted k (pass + 1) := rfl
      rw [if_neg hnext, hcount, Nat.add_assoc, ← hlast, ← Nat.mul_succ]
      rw [← hlast] at hfront'
      exact begins (Nat.zero_lt_of_lt hindex) hpass (Nat.zero_lt_of_lt hpass) fun _ => hfront'
  · rw [if_pos hslot]
    have hfirst : FirstWrong slot seed k.session.slots.toNat index := ⟨hindex, hslot, hfront⟩
    -- a later pass would find what the first one found
    obtain rfl : pass = 0 := Nat.eq_zero_of_not_pos fun h => hfirst.not_holds (hall h)
    have hstops := @Course.stops k server seed slot index hfirst
    rw [Nat.mul_zero, Nat.zero_add]
    exact hstops

/-- The next access goes on along the course. -/
theorem step (h : Course k server seed slot own c) (hserver : k.server = some server)
    (hslots : 0 < k.session.slots.toNat) (hpasses : 0 < k.config.passes.toNat)
    (hmemory : ∀ i, i < k.session.slots.toNat → memory.slotWord i = slot i)
    (hmove : c.move = some move) (hshows : move.Shows memory a next?) :
    Course k server seed slot (own ++ [a]) (next?.getD c) := by
  cases h with
  | lowers =>
      cases hmove
      cases hshows
      have hbegun : Course k server seed slot [.store .done 0]
          (Call.beginPass ⟨counted k 0, .round seed, .lowerDone ⟨server, seed⟩⟩ ⟨server, seed⟩ 0) :=
        begins hslots (Nat.zero_le _) hpasses fun h => absurd h (Nat.lt_irrefl 0)
      exact hbegun
  | @verifies pass index hpass hindex hfront hall =>
      cases hmove
      cases hshows with
      | loadSlot =>
          rw [Option.getD_some, hmemory index hindex, List.cons_append, ← looks_succ hindex]
          exact look hpass hindex hfront hall
  | @stops i hi =>
      cases hmove
      cases hshows
      simp only [Option.getD_some, hserver]
      exact .leaves hi
  | @leaves i hi =>
      cases hmove
      cases hshows with
      | ring outcome =>
          rw [List.append_assoc]
          cases outcome <;> exact .failed hi _
  | failed | verified => exact nomatch hmove

/-- A client that has seen `done` makes so many accesses at most. -/
theorem length_le (h : Course k server seed slot own c) (hpasses : 0 < k.config.passes.toNat) :
    own.length ≤ k.session.slots.toNat * k.config.passes.toNat + 3 := by
  have honce : k.session.slots.toNat ≤ k.session.slots.toNat * k.config.passes.toNat :=
    Nat.le_mul_of_pos_right _ hpasses
  cases h with
  | lowers => exact Nat.zero_le _
  | @verifies pass index hpass hindex _ _ =>
      have hmore : k.session.slots.toNat * (pass + 1) ≤
          k.session.slots.toNat * k.config.passes.toNat := Nat.mul_le_mul_left _ hpass
      rw [List.length_cons, length_looks]
      rw [Nat.mul_succ] at hmore
      omega
  | verified _ =>
      rw [List.length_cons, length_looks]
      omega
  | stops hi | leaves hi | failed hi _ =>
      have hlt := hi.lt
      simp only [List.length_append, List.length_cons, List.length_nil, length_looks]
      omega

end Course

/-! ## The verdict -/

/-- A round whose answer is right: one more round and the bytes of all its passes are counted. -/
structure Confirmed (k : Client) (slot : Nat → UInt32) (own : List Access) (c : Call) :
    Prop where
  ended : c.point = .returned (.ok .done)
  rounds : c.client.rounds = k.rounds + 1
  read : c.client.throughput.read.toNat = min (UInt64.size - 1)
    (k.throughput.read.toNat + 4 * k.session.slots.toNat * k.config.passes.toNat)
  rest : { c.client with rounds := k.rounds, throughput := k.throughput } = k
  written : c.client.throughput.written = k.throughput.written
  own : own = .store .done 0 ::
    looks k.session.slots.toNat slot (k.session.slots.toNat * k.config.passes.toNat)

/-- A round whose answer is wrong, first in slot `i`: nothing is counted, and after `shutdown` the
server is rung once, whatever comes of that. -/
structure Refuted (k : Client) (server : PeerId) (seed : UInt32) (slot : Nat → UInt32) (i : Nat)
    (own : List Access) (c : Call) : Prop where
  ended : c.point = .returned (.error (.mismatch ⟨i, Layout.pattern i seed, slot i⟩))
  client : c.client = k
  own : ∃ outcome, own = .store .done 0 :: looks k.session.slots.toNat slot (i + 1) ++
    [.store .shutdown 1, .ring server outcome]

namespace Course

variable {ended : Ended}

theorem ok_iff (h : Course k server seed slot own c) (hended : c.point = .returned ended) :
    ended = .ok .done ↔ Holds slot seed k.session.slots.toNat := by
  cases h with
  | verified hall =>
      cases hended
      exact iff_of_true rfl hall
  | failed hi _ =>
      cases hended
      exact iff_of_false nofun hi.not_holds
  | _ => exact nomatch hended

theorem confirmed (h : Course k server seed slot own c)
    (hroom : k.session.slots.toNat < 2 ^ 62) (hended : c.point = .returned ended)
    (hall : Holds slot seed k.session.slots.toNat) : Confirmed k slot own c := by
  cases h with
  | verified _ =>
      have hcounted := Throughput.toNat_afterPasses (e := .reads k.session.slots) hroom
        k.throughput k.config.passes.toNat
      exact
        { ended := rfl
          rounds := rfl
          read := hcounted.2
          rest := rfl
          written := k.throughput.afterPasses_keeps _ (fun t => t.written_after_reads _) _
          own := rfl }
  | failed hi _ => exact absurd hall hi.not_holds
  | _ => exact nomatch hended

theorem refuted (h : Course k server seed slot own c) (hended : c.point = .returned ended)
    (hnot : ¬Holds slot seed k.session.slots.toNat) :
    ∃ i, FirstWrong slot seed k.session.slots.toNat i ∧ Refuted k server seed slot i own c := by
  cases h with
  | verified hall => exact absurd hall hnot
  | failed hi outcome => exact ⟨_, hi, rfl, rfl, outcome, rfl⟩
  | _ => exact nomatch hended

/-- The last word that the client leaves in `done`. -/
theorem done_eq (h : Course k server seed slot own c) (hended : c.point = .returned ended)
    (word : UInt32) : own.foldl (Access.stored .done) word = 0 := by
  cases h with
  | verified _ => exact foldl_stored_looks ..
  | failed _ _ =>
      rw [List.foldl_append]
      exact foldl_stored_looks ..
  | _ => exact nomatch hended

/-- The last word that the client leaves in `shutdown`, if a slot is wrong. -/
theorem shutdown_eq (h : Course k server seed slot own c) (hended : c.point = .returned ended)
    (hnot : ¬Holds slot seed k.session.slots.toNat) (word : UInt32) :
    own.foldl (Access.stored .shutdown) word = 1 := by
  cases h with
  | verified hall => exact absurd hall hnot
  | failed _ _ =>
      rw [List.foldl_append]
      rfl
  | _ => exact nomatch hended

end Course

/-! ## A client among others -/

section

variable {call : CallId} {acts : List Solo.Act} {act : Solo.Act} {s t u v : Solo Call}

/-- A round that has not seen `done` yet, in a window with room for all its slots. -/
structure Awaiting (k : Client) (server : PeerId) (seed : UInt32) (acts : List Solo.Act)
    (s : Solo Call) : Prop where
  pending : Pending k server seed (Solo.accesses acts) s.player.role
  waits : s.player.Waits
  room : 28 + 4 * k.session.slots.toNat ≤ (s.window k.session).bytes.size

theorem Awaiting.begun {m : Machine} (hserver : k.server = some server)
    (hroom : 28 + 4 * k.session.slots.toNat ≤ (m.regions.get k.session.region).bytes.size) :
    Awaiting k server seed [] ⟨m, { role := Client.call k (.round seed) }⟩ :=
  ⟨.call hserver, nofun, hroom⟩

/-- What an access of the client leads to: it goes on waiting, or it has seen `done`. -/
theorem Awaiting.access (h : Awaiting k server seed acts s) (hstep : Solo.Step call s (.own a) t) :
    (a = .load .done Marker.done ∧
        t.player.role = ⟨k, .round seed, .lowerDone ⟨server, seed⟩⟩ ∨
      a ≠ .load .done Marker.done ∧
        Pending k server seed (Solo.accesses acts ++ [a]) t.player.role) ∧
      t.player.Waits ∧
      28 + 4 * k.session.slots.toNat ≤ (t.window k.session).bytes.size := by
  have hroom := h.room
  obtain ⟨move, next?, hmove, hshows, hrole, hwaits, hwindow⟩ :=
    Solo.own_inv h.pending.session h.waits (by omega) hstep
  refine ⟨hrole ▸ h.pending.step hmove hshows, hwaits, ?_⟩
  rw [hwindow, Access.size_apply]
  exact hroom

theorem Awaiting.step
    (hallowed : act.Keeps k.session (fun memory => memory.bytes.size) ∧
      act ≠ .own (.load .done Marker.done)) (h : Awaiting k server seed acts s)
    (hstep : Solo.Step call s act t) : Awaiting k server seed (acts ++ [act]) t := by
  cases act with
  | own a =>
      obtain ⟨⟨rfl, -⟩ | ⟨-, hpending⟩, hwaits, hroom⟩ := h.access hstep
      · exact absurd rfl hallowed.2
      · exact ⟨Solo.accesses_snoc_own acts a ▸ hpending, hwaits, hroom⟩
  | others change =>
      obtain rfl := Solo.step_others hstep
      exact ⟨Solo.accesses_snoc_others acts change ▸ h.pending, h.waits,
        Nat.le_trans h.room (Nat.le_of_eq (hallowed.1 s.machine).symm)⟩

/-- A round that has seen `done` in `t`. -/
structure Judging (k : Client) (server : PeerId) (seed : UInt32) (t : Solo Call)
    (acts : List Solo.Act) (u : Solo Call) : Prop where
  course : Course k server seed (t.window k.session).slotWord (Solo.accesses acts) u.player.role
  waits : u.player.Waits
  room : 28 + 4 * k.session.slots.toNat ≤ (u.window k.session).bytes.size
  slots : ∀ i, i < k.session.slots.toNat →
    (u.window k.session).slotWord i = (t.window k.session).slotWord i
  field : ∀ f, (∀ a ∈ acts, a.Keeps k.session fun memory => memory.field f) →
    (u.window k.session).field f =
      (Solo.accesses acts).foldl (Access.stored f) ((t.window k.session).field f)

theorem Awaiting.sees (h : Awaiting k server seed acts s)
    (hstep : Solo.Step call s (.own (.load .done Marker.done)) t) :
    Judging k server seed t [] t := by
  obtain ⟨⟨-, hrole⟩ | ⟨hne, -⟩, hwaits, hroom⟩ := h.access hstep
  · exact ⟨hrole ▸ .lowers, hwaits, hroom, fun _ _ => rfl, fun _ _ => rfl⟩
  · exact absurd rfl hne

theorem Judging.step (hserver : k.server = some server) (hslots : 0 < k.session.slots.toNat)
    (hpasses : 0 < k.config.passes.toNat)
    (hallowed : act.Keeps k.session (fun memory => memory.bytes.size) ∧
      ∀ i, i < k.session.slots.toNat → act.Keeps k.session fun memory => memory.slotWord i)
    (h : Judging k server seed t acts u) (hstep : Solo.Step call u act v) :
    Judging k server seed t (acts ++ [act]) v := by
  have hroom := h.room
  cases act with
  | own a =>
      obtain ⟨move, next?, hmove, hshows, hrole, hwaits, hwindow⟩ :=
        Solo.own_inv h.course.session h.waits (by omega) hstep
      have hlt := (u.window k.session).size_lt
      have hcourse := h.course.step hserver hslots hpasses h.slots hmove hshows
      refine
        { course := by rw [Solo.accesses_snoc_own, hrole]; exact hcourse
          waits := hwaits
          room := by rw [hwindow, Access.size_apply]; exact hroom
          slots := fun i hi => ?_
          field := fun f hf => ?_ }
      · rw [hwindow, Access.slotWord_apply (by omega) (not_storeSlot hmove hshows)]
        exact h.slots i hi
      · have hfield := h.field f fun b hb => hf b (List.mem_append_left _ hb)
        rw [hwindow, Access.field_apply (by omega), hfield, Solo.accesses_snoc_own,
          List.foldl_append]
        rfl
  | others change =>
      obtain rfl := Solo.step_others hstep
      refine
        { course := Solo.accesses_snoc_others acts change ▸ h.course
          waits := h.waits
          room := Nat.le_trans hroom (Nat.le_of_eq (hallowed.1 u.machine).symm)
          slots := fun i hi => (hallowed.2 i hi u.machine).trans (h.slots i hi)
          field := fun f hf => ?_ }
      have hlast := hf _ (List.mem_append_right _ (List.mem_singleton_self _)) u.machine
      rw [Solo.accesses_snoc_others]
      exact hlast.trans (h.field f fun b hb => hf b (List.mem_append_left _ hb))

/-- What a client that has seen `done` in `t` makes of the round. -/
structure Verdict (k : Client) (server : PeerId) (seed : UInt32) (call : CallId) (t : Solo Call)
    (acts : List Solo.Act) (u : Solo Call) : Prop where
  /-- The client makes only so many accesses, and has another one as long as it has not returned. -/
  within : (Solo.accesses acts).length ≤ k.session.slots.toNat * k.config.passes.toNat + 3
  goes : (∃ ended, u.player.role.point = .returned ended) ∨ ∃ a v, Solo.Step call u (.own a) v
  /-- The round is good exactly if every slot is right. -/
  ok_iff : ∀ {ended}, u.player.role.point = .returned ended →
    (ended = .ok .done ↔ Holds (t.window k.session).slotWord seed k.session.slots.toNat)
  confirmed : ∀ {ended}, u.player.role.point = .returned ended →
    Holds (t.window k.session).slotWord seed k.session.slots.toNat →
    Confirmed k (t.window k.session).slotWord (Solo.accesses acts) u.player.role
  refuted : ∀ {ended}, u.player.role.point = .returned ended →
    ¬Holds (t.window k.session).slotWord seed k.session.slots.toNat →
    ∃ i, FirstWrong (t.window k.session).slotWord seed k.session.slots.toNat i ∧
      Refuted k server seed (t.window k.session).slotWord i (Solo.accesses acts) u.player.role
  /-- Each doorbell is one of the client's device, and what shows is the answer to it. -/
  rung : ∀ {target outcome}, .ring target outcome ∈ Solo.accesses acts →
    ∃ first rest v w, acts = first ++ .own (.ring target outcome) :: rest ∧
      Run (Solo.Step call) t first v ∧
      v.machine.ring k.device target .waitEventIrq = (w.machine, outcome) ∧
      Run (Solo.Step call) w rest u
  /-- No slot is changed. -/
  slots : ∀ i, i < k.session.slots.toNat →
    (u.window k.session).slotWord i = (t.window k.session).slotWord i
  /-- The mark in `done` is taken, and the session of a bad round is over. -/
  done : ∀ {ended}, u.player.role.point = .returned ended →
    (∀ a ∈ acts, a.Keeps k.session fun memory => memory.field .done) →
    (u.window k.session).field .done = 0
  shutdown : ∀ {ended}, u.player.role.point = .returned ended →
    ¬Holds (t.window k.session).slotWord seed k.session.slots.toNat →
    (∀ a ∈ acts, a.Keeps k.session fun memory => memory.field .shutdown) →
    (u.window k.session).field .shutdown = 1

theorem Judging.of_run (hserver : k.server = some server) (hslots : 0 < k.session.slots.toNat)
    (hpasses : 0 < k.config.passes.toNat) (hsees : Judging k server seed t [] t)
    (hrun : Run (Solo.Step call) t acts u)
    (hsize : ∀ a ∈ acts, a.Keeps k.session fun memory => memory.bytes.size)
    (hkeeps : ∀ a ∈ acts, ∀ i, i < k.session.slots.toNat →
      a.Keeps k.session fun memory => memory.slotWord i) :
    Judging k server seed t acts u :=
  hrun.history_of_forall (Judging.step hserver hslots hpasses)
    (fun a ha => ⟨hsize a ha, hkeeps a ha⟩) hsees

theorem Judging.verdict (hserver : k.server = some server) (hslots : 0 < k.session.slots.toNat)
    (hpasses : 0 < k.config.passes.toNat) (hsees : Judging k server seed t [] t)
    (hrun : Run (Solo.Step call) t acts u)
    (hsize : ∀ a ∈ acts, a.Keeps k.session fun memory => memory.bytes.size)
    (hkeeps : ∀ a ∈ acts, ∀ i, i < k.session.slots.toNat →
      a.Keeps k.session fun memory => memory.slotWord i) :
    Verdict k server seed call t acts u := by
  have h := Judging.of_run hserver hslots hpasses hsees hrun hsize hkeeps
  have hfew : k.session.slots.toNat < 2 ^ 62 := by
    have hroom := h.room
    have hlt := (u.window k.session).size_lt
    rw [show UInt64.size = 2 ^ 64 from rfl] at hlt
    omega
  exact
    { within := h.course.length_le hpasses
      goes := by
        by_cases hmove : Role.move u.player.role = none
        · exact .inl (point_of_move_none hmove)
        · exact .inr (Solo.exists_own call hmove)
      ok_iff := h.course.ok_iff
      confirmed := h.course.confirmed hfew
      refuted := h.course.refuted
      rung := fun hmem => by
        obtain ⟨first, rest, v, w, rfl, hfirst, hring, hrest⟩ := Solo.ring_of_run hrun hmem
        have hbefore := Judging.of_run hserver hslots hpasses hsees hfirst
          (fun a ha => hsize a (List.mem_append_left _ ha))
          fun a ha => hkeeps a (List.mem_append_left _ ha)
        exact ⟨first, rest, v, w, rfl, hfirst, hbefore.course.device ▸ hring, hrest⟩
      slots := h.slots
      done := fun hended hkeeps => (h.field .done hkeeps).trans (h.course.done_eq hended _)
      shutdown := fun hended hnot hkeeps =>
        (h.field .shutdown hkeeps).trans (h.course.shutdown_eq hended hnot _) }

/-- A round that has not seen `done` has come to an end only if the session is over, or if a
doorbell or a wait has failed. -/
theorem Pending.returned (h : Pending k server seed own c) {ended : Ended}
    (hended : c.point = .returned ended) :
    (ended = .error .shutdown ∧ ∃ word, word ≠ 0 ∧ .load .shutdown word ∈ own) ∨
      ∃ cause, ended = .error (.device cause) ∧
        (.ring server (.error cause) ∈ own ∨ .wait (some (.error cause)) ∈ own) := by
  cases h with
  | @waits point hround _ =>
      obtain rfl : point = .returned ended := hended
      exact nomatch hround
  | refused hword hseen =>
      cases hended
      exact .inl ⟨rfl, _, hword, hseen⟩
  | failed hseen =>
      cases hended
      exact .inr ⟨_, rfl, hseen⟩

/-- A connected client is called for a round that has passes to make, in the window of an open
session.  Whatever others do, they leave the window its size.

* Until the client finds `done` marked, it is woken as often as anyone likes, and the round ends
  only if the session is found over, or if a doorbell or a wait fails.
* From then on, if the slots stay as they are, the round ends by the `Verdict`. -/
theorem round_verdict {m : Machine} {before : List Solo.Act} (hserver : k.server = some server)
    (hopen : Session.open? k.session.region (m.regions.get k.session.region).size = .ok k.session)
    (hpasses : 0 < k.config.passes.toNat)
    (hbefore : Run (Solo.Step call) ⟨m, { role := Client.call k (.round seed) }⟩ before s)
    (hsize : ∀ a ∈ before, a.Keeps k.session fun memory => memory.bytes.size)
    (hunseen : .own (.load .done Marker.done) ∉ before) :
    (∀ {ended}, s.player.role.point = .returned ended →
      (ended = .error .shutdown ∧
          ∃ word, word ≠ 0 ∧ .load .shutdown word ∈ Solo.accesses before) ∨
        ∃ cause, ended = .error (.device cause) ∧
          (.ring server (.error cause) ∈ Solo.accesses before ∨
            .wait (some (.error cause)) ∈ Solo.accesses before)) ∧
    ∀ {after t u}, Solo.Step call s (.own (.load .done Marker.done)) t →
      Run (Solo.Step call) t after u →
      (∀ a ∈ after, a.Keeps k.session fun memory => memory.bytes.size) →
      (∀ a ∈ after, ∀ i, i < k.session.slots.toNat →
        a.Keeps k.session fun memory => memory.slotWord i) →
      Verdict k server seed call t after u := by
  obtain ⟨-, hslots, hfit⟩ := Session.of_open hopen
  have hroom : 28 + 4 * k.session.slots.toNat ≤
      (m.regions.get k.session.region).bytes.size := by
    have hlt := (m.regions.get k.session.region).size_lt
    rw [Memory.size, UInt64.toNat_ofNat', Nat.mod_eq_of_lt hlt] at hfit
    exact hfit
  have hawaiting : Awaiting k server seed before s :=
    hbefore.history_of_forall Awaiting.step
      (fun a ha => ⟨hsize a ha, fun heq => hunseen (heq ▸ ha)⟩) (.begun hserver hroom)
  exact ⟨hawaiting.pending.returned, fun hsees =>
    Judging.verdict hserver hslots hpasses (hawaiting.sees hsees)⟩

end

end Client

/-! ## A round that goes wrong -/

namespace Spoilt

def machine : Machine :=
  let (m, region) := Machine.addRegion {} 44
  let (m, recorder) := m.addRecorder ⟨1⟩
  let (m, line) := m.addLine 0
  (m.attach (some (.recorder recorder)) (some region) line).1

def client : Client where
  device := ⟨0⟩
  session := ⟨⟨0⟩, 4⟩
  config := { passes := 2 }
  server := some ⟨2⟩

def begun : Solo Client.Call := ⟨machine, { role := Client.call client (.round 7) }⟩

/-- The event flag of the client goes up. -/
def wake : Solo.Act :=
  .others fun m => { m with
    devices := m.devices.modify ⟨0⟩ fun d => { d with event := d.event.set } }

/-- The first two slots are filled, and the round is marked as done. -/
def fillHalf : Solo.Act :=
  .others fun m => m.modifyRegion ⟨0⟩ fun memory =>
    ((memory.setSlotWord 0 7).setSlotWord 1 6).setField .done Marker.done

/-- The device of the client goes away. -/
def leave : Solo.Act := .others fun m => m.detach ⟨0⟩

/-- The client asks, is woken for nothing once, and is woken again. -/
def before : List Solo.Act :=
  [.own (.load .shutdown 0), .own (.store .done 0), .own (.store .data 7),
    .own (.store .start Marker.start), .own (.ring ⟨2⟩ (.ok ())), .own (.wait none), wake,
    .own (.wait (some (.ok ()))), .own (.load .shutdown 0), .own (.load .done 0),
    .own (.wait none), fillHalf, wake, .own (.wait (some (.ok ()))), .own (.load .shutdown 0)]

/-- The client checks the slots, and its device goes away before the last doorbell. -/
def after : List Solo.Act :=
  [.own (.store .done 0), .own (.loadSlot 0 7), .own (.loadSlot 1 6), leave,
    .own (.loadSlot 2 0), .own (.store .shutdown 1), .own (.ring ⟨2⟩ (.error .unavailable))]

theorem wake_keeps {α : Type} (session : Session) (observe : Memory → α) :
    wake.Keeps session observe :=
  fun _ => rfl

theorem leave_keeps {α : Type} (session : Session) (observe : Memory → α) :
    leave.Keeps session observe := by
  intro m
  rw [show (m.detach ⟨0⟩).regions = m.regions by unfold Machine.detach; split <;> rfl]

theorem fillHalf_keeps (session : Session) :
    fillHalf.Keeps session fun memory => memory.bytes.size :=
  fun m => m.observe_modifyRegion ⟨0⟩ session.region (fun memory => memory.bytes.size)
    fun memory => by
      rw [Memory.size_bytes_setField, Memory.size_bytes_setSlotWord,
        Memory.size_bytes_setSlotWord]

theorem before_keeps (session : Session) :
    ∀ a ∈ before, a.Keeps session fun memory => memory.bytes.size := by
  simp [before, Solo.Act.keeps_own, wake_keeps, fillHalf_keeps]

theorem after_keeps {α : Type} (session : Session) (observe : Memory → α) :
    ∀ a ∈ after, a.Keeps session observe := by
  simp [after, Solo.Act.keeps_own, leave_keeps]

theorem done_not_mem_before : .own (.load .done Marker.done) ∉ before := by
  have hmark : Marker.done ≠ 0 := by decide
  simp [before, wake, fillHalf, hmark]

/-- What a replay of the round shows in the end. -/
def shows (u : Solo Client.Call) : Bool :=
  let memory := u.window client.session
  (Role.move u.player.role).isNone && memory.slotWord 0 = 7 && memory.slotWord 1 = 6 &&
    memory.slotWord 2 = 0

end Spoilt

/-- The third slot of a round is wrong.  The client says so, although its last doorbell fails. -/
theorem Client.round_verdict_deviceGone :
    ∃ s t u, Run (Solo.Step ⟨0⟩) Spoilt.begun Spoilt.before s ∧
      Solo.Step ⟨0⟩ s (.own (.load .done Marker.done)) t ∧
      Run (Solo.Step ⟨0⟩) t Spoilt.after u ∧
      u.player.role.point = .returned (.error (.mismatch ⟨2, 5, 0⟩)) ∧
      u.player.role.client = Spoilt.client ∧
      (u.window Spoilt.client.session).field .done = 0 ∧
      (u.window Spoilt.client.session).field .shutdown = 1 := by
  have hreplay : ((Spoilt.before ++ .own (.load .done Marker.done) :: Spoilt.after).foldlM
      (Solo.act ⟨0⟩) Spoilt.begun).any Spoilt.shows = true := by
    decide +kernel
  obtain ⟨u, hrun, hshows⟩ := Run.exists_of_any hreplay
  obtain ⟨s, hbefore, hrest⟩ := hrun.of_append
  obtain ⟨t, hsees, hafter⟩ := hrest.of_cons
  simp only [Spoilt.shows, Bool.and_eq_true, decide_eq_true_eq, Option.isNone_iff_eq_none] at hshows
  obtain ⟨⟨⟨hmove, h0⟩, h1⟩, h2⟩ := hshows
  obtain ⟨ended, hended⟩ := Client.point_of_move_none hmove
  have hverdict := (Client.round_verdict (k := Spoilt.client) rfl rfl (by decide) hbefore
    (Spoilt.before_keeps _) Spoilt.done_not_mem_before).2 hsees hafter
    (Spoilt.after_keeps _ _) fun a ha _ _ => Spoilt.after_keeps _ _ a ha
  have hfirst : Client.FirstWrong (t.window Spoilt.client.session).slotWord 7 4 2 := by
    rw [hverdict.slots 0 (by decide)] at h0
    rw [hverdict.slots 1 (by decide)] at h1
    rw [hverdict.slots 2 (by decide)] at h2
    refine ⟨by decide, by rw [h2]; decide, fun i hi => ?_⟩
    obtain rfl | rfl : i = 0 ∨ i = 1 := by omega
    · exact h0
    · exact h1
  have hnot := hfirst.not_holds
  obtain ⟨i, hi, hrefuted⟩ := hverdict.refuted hended hnot
  obtain rfl := hi.unique hfirst
  refine ⟨s, t, u, hbefore, hsees, hafter, ?_, hrefuted.client,
    hverdict.done hended (Spoilt.after_keeps _ _),
    hverdict.shutdown hended hnot (Spoilt.after_keeps _ _)⟩
  rw [hrefuted.ended, ← hverdict.slots 2 (by decide), h2]
  rfl

end PeerBus
