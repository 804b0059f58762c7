/-
# `PeerBus.Proofs.Handshake.Counts` — no pass is too long to be counted

A role counts the slots of its session each time that it has completed a pass: the server when it
has written the last slot, the client when it has found the last slot right.  A count of 2^62 slots
or more would be refused, but the slots of a session fit into its window, and so they are fewer:

    28 + 4 * slots ≤ size < 2^64

What a role does between two passes leaves its session and its throughput alone
(`Client.Call.goes_counted`, `Server.Call.goes_counted`).  So whatever it finds in the window, and
however often it is called again, every pass is counted, and the bytes are the exact product, cut at
the largest word once (`Counts.Sound`).
-/
import PeerBus.Proofs.Handshake.ServeOnce
import PeerBus.Proofs.Throughput

namespace PeerBus

open Throughput (Entry accepted record_of_accepted)

/-! ## Roles that count their passes -/

/-- A role that counts its passes, and can be called again. -/
class Counts (ρ : Type) [Role ρ] where
  throughput : ρ → Throughput
  /-- What is counted for a pass over so many slots. -/
  pass : UInt64 → Entry
  /-- Whether an access of the role completes a pass. -/
  completes : ρ → Access → Bool
  /-- The call of the role has returned, and the next one begins. -/
  Again : ρ → ρ → Prop
  goes : ∀ {role : ρ} {move : Move ρ} {memory : Memory} {a : Access} {next? : Option ρ},
    Role.move role = some move → move.Shows memory a next? →
      Role.session (next?.getD role) = Role.session role ∧
      throughput (next?.getD role) =
        if completes role a then (throughput role).after (pass (Role.session role).slots)
        else throughput role
  again : ∀ {role role' : ρ}, Again role role' →
    Role.session role' = Role.session role ∧ throughput role' = throughput role

namespace Counts

variable {ρ : Type} [Role ρ] [Counts ρ]

/-- What happens to a role that is called again and again, and whether that completes a pass. -/
inductive Step : Solo ρ → Bool → Solo ρ → Prop
  | own {s t : Solo ρ} {a : Access} {call : CallId} :
      Solo.Step call s (.own a) t → Step s (completes s.player.role a) t
  | others {s : Solo ρ} (change : Machine → Machine) :
      Step s false { s with machine := change s.machine }
  | again {s : Solo ρ} {role : ρ} : Again s.player.role role →
      Step s false ⟨s.machine, { role := role }⟩

/-- A role works in its session, and has counted the passes that it completed. -/
structure Sound (session : Session) (before : Throughput) (acts : List Bool) (s : Solo ρ) :
    Prop where
  works : Role.session s.player.role = session
  waits : s.player.Waits
  counted : throughput s.player.role =
    before.afterPasses (pass ρ session.slots) (acts.count true)

variable {session : Session} {before : Throughput} {acts : List Bool} {s t : Solo ρ}
  {done : Bool}

theorem Sound.begun (m : Machine) (role : ρ) :
    Sound (Role.session role) (throughput role) [] ⟨m, { role := role }⟩ :=
  ⟨rfl, Player.waits_awake role, rfl⟩

theorem Sound.step (h : Sound session before acts s) (hstep : Step s done t) :
    Sound session before (acts ++ [done]) t := by
  have hsession := h.works
  have hcounted := h.counted
  cases hstep with
  | @own _ a call hown =>
      obtain ⟨move, next?, hmove, hshows, hrole, hwaits, -⟩ := Solo.own_moves h.waits hown
      obtain ⟨hsame, hafter⟩ := Counts.goes hmove hshows
      rw [← hrole] at hsame hafter
      refine ⟨hsame.trans hsession, hwaits, ?_⟩
      -- a label that is true is one pass more
      rw [hafter, hsession, List.count_append, List.count_singleton]
      cases completes s.player.role a with
      | false => exact hcounted
      | true => exact Throughput.after_eq_afterPasses hcounted
  | others change =>
      refine ⟨hsession, h.waits, ?_⟩
      rw [List.count_append]
      exact hcounted
  | again hagain =>
      obtain ⟨hsame, hthroughput⟩ := Counts.again hagain
      refine ⟨hsame.trans hsession, Player.waits_awake _, ?_⟩
      rw [List.count_append]
      exact hthroughput.trans hcounted

theorem Sound.of_run {m : Machine} {role : ρ} (hrun : Run Step ⟨m, { role := role }⟩ acts s) :
    Sound (Role.session role) (throughput role) acts s :=
  hrun.history_of_forall (fun _ h hstep => h.step hstep) (fun _ _ => trivial) (.begun m role)

/-- If the slots are few, no pass is refused, and so the bytes are those of all passes. -/
theorem of_run {m : Machine} {role : ρ} (hrun : Run Step ⟨m, { role := role }⟩ acts s)
    (hslots : (pass ρ (Role.session role).slots).slots.toNat < 2 ^ 62) :
    let e := pass ρ (Role.session role).slots
    let now := throughput s.player.role
    Role.session s.player.role = Role.session role ∧ now.record e = .ok (now.after e) ∧
      now.written.toNat =
        min (2 ^ 64 - 1) ((throughput role).written.toNat + 4 * e.written * acts.count true) ∧
      now.read.toNat =
        min (2 ^ 64 - 1) ((throughput role).read.toNat + 4 * e.read * acts.count true) := by
  intro e now
  obtain ⟨hworks, -, hcounted⟩ := Sound.of_run hrun
  obtain ⟨hrecord, -⟩ := record_of_accepted (t := now) hslots
  obtain ⟨hwritten, hread⟩ :=
    Throughput.toNat_afterPasses hslots (throughput role) (acts.count true)
  rw [← hcounted] at hwritten hread
  exact ⟨hworks, hrecord, hwritten, hread⟩

/-- The acts of a single call make such a run. -/
theorem exists_run {call : CallId} {acts : List Solo.Act} (hrun : Run (Solo.Step call) s acts t) :
    ∃ passes, Run Step s passes t := by
  induction hrun with
  | nil => exact ⟨[], .nil⟩
  | @snoc _ t u act _ hstep ih =>
      obtain ⟨passes, hfront⟩ := ih
      cases act with
      | own a => exact ⟨_, hfront.snoc (.own hstep)⟩
      | others change =>
          obtain rfl := Solo.step_others hstep
          exact ⟨_, hfront.snoc (.others change)⟩

end Counts

/-! ## The client -/

namespace Client

/-- The look at the last slot completes a pass, if that slot is right. -/
def Call.completes (c : Call) : Access → Bool
  | .loadSlot index word =>
      match c.point with
      | .verify round _ _ =>
          word = Layout.pattern index round.seed && c.client.session.slots.toNat ≤ index + 1
      | _ => false
  | _ => false

theorem Call.completes_verify {k : Client} {g : Goal} {r : Round} {pass i index : Nat}
    {word : UInt32} :
    Call.completes ⟨k, g, .verify r pass i⟩ (.loadSlot index word) = true ↔
      word = Layout.pattern index r.seed ∧ k.session.slots.toNat ≤ index + 1 := by
  rw [Call.completes, Bool.and_eq_true, decide_eq_true_iff, decide_eq_true_iff]

/-- A call that keeps the session and the throughput of its client. -/
def Call.Keeps (k : Client) (c : Call) : Prop :=
  c.client.session = k.session ∧ c.client.throughput = k.throughput

theorem Call.keeps_beginPass (k : Client) (g : Goal) (point : Point) (r : Round) (pass : Nat) :
    (Call.beginPass ⟨k, g, point⟩ r pass).Keeps k := by
  unfold Call.beginPass
  split
  · exact ⟨rfl, rfl⟩
  · rw [Call.Keeps, (between_roundVerified k g point r).client]
    exact ⟨rfl, rfl⟩

/-- Where no slot is looked at, nothing is counted. -/
theorem Call.goes_kept {c : Call} {move : Move Call} {memory : Memory} {a : Access}
    {next? : Option Call} (hmove : c.move = some move) (hshows : move.Shows memory a next?)
    (hslot : ∀ index word, a ≠ .loadSlot index word) : (next?.getD c).Keeps c.client := by
  obtain ⟨k, g, point⟩ := c
  cases point with
  | lookServer | heedShutdown | enter | checkShutdown =>
      cases hmove
      cases hshows
      dsimp only [Option.getD_some]
      split <;> exact ⟨rfl, rfl⟩
  | heedServer =>
      cases hmove
      cases hshows
      dsimp only [Option.getD_some]
      split
      · rw [Call.Keeps, (between_connected k g _ _).client]
        exact ⟨rfl, rfl⟩
      · exact ⟨rfl, rfl⟩
  | lowerDone r =>
      cases hmove
      cases hshows
      exact Call.keeps_beginPass ..
  | verify r pass index =>
      cases hmove
      cases hshows
      exact absurd rfl (hslot index _)
  | stop cause | farewell server cause =>
      cases hmove
      cases hshows
      dsimp only [Option.getD_some]
      split
      · exact ⟨rfl, rfl⟩
      · rw [Call.Keeps, (stopped_stopped k g _ cause).client]
        exact ⟨rfl, rfl⟩
  | identify | hello | callServer =>
      cases hmove
      cases hshows
      dsimp only [Option.getD_some, Call.orFail]
      split <;> exact ⟨rfl, rfl⟩
  | listen | await =>
      cases hmove
      cases hshows with
      | woken outcome => cases outcome <;> exact ⟨rfl, rfl⟩
      | asleep => exact ⟨rfl, rfl⟩
  | publish | lookReady | heedReady | clearDone | plantSeed | raiseStart | checkDone =>
      cases hmove
      cases hshows
      exact ⟨rfl, rfl⟩
  | returned => exact nomatch hmove

/-- An access counts the slots of the session if it completes a pass, and nothing otherwise. -/
theorem Call.goes_counted {c : Call} {move : Move Call} {memory : Memory} {a : Access}
    {next? : Option Call} (hmove : c.move = some move) (hshows : move.Shows memory a next?) :
    (next?.getD c).client.session = c.client.session ∧
      (next?.getD c).client.throughput =
        if c.completes a then c.client.throughput.after (.reads c.client.session.slots)
        else c.client.throughput := by
  by_cases hslot : ∃ index word, a = .loadSlot index word
  · obtain ⟨index, word, rfl⟩ := hslot
    obtain ⟨k, g, point⟩ := c
    cases point with
    | verify r pass i =>
        cases hmove
        cases hshows
        generalize memory.slotWord index = word
        dsimp only [Option.getD_some]
        by_cases hright : word = Layout.pattern index r.seed
        · by_cases hnext : index + 1 < k.session.slots.toNat
          · rw [if_neg (not_not_intro hright), if_pos hnext,
              if_neg fun h => Nat.not_le.mpr hnext (Call.completes_verify.mp h).2]
            exact ⟨rfl, rfl⟩
          · rw [if_neg (not_not_intro hright), if_neg hnext,
              if_pos (Call.completes_verify.mpr ⟨hright, Nat.not_lt.mp hnext⟩)]
            exact Call.keeps_beginPass ..
        · rw [if_pos hright, if_neg fun h => hright (Call.completes_verify.mp h).1]
          exact ⟨rfl, rfl⟩
    | _ => cases hmove <;> cases hshows
  · have hnone : c.completes a = false := by
      cases a with
      | loadSlot index word => exact absurd ⟨index, word, rfl⟩ hslot
      | _ => rfl
    rw [hnone]
    exact Call.goes_kept hmove hshows fun index word ha => hslot ⟨index, word, ha⟩

instance : Counts Call where
  throughput c := c.client.throughput
  pass := .reads
  completes := Call.completes
  Again c c' := ∃ ended goal, c.point = .returned ended ∧ c' = call c.client goal
  goes := Call.goes_counted
  again := by
    rintro c c' ⟨ended, goal, -, rfl⟩
    exact ⟨rfl, rfl⟩

/-- A client counts all passes that it completes. -/
theorem passes_counted {k : Client} (hslots : k.session.slots.toNat < 2 ^ 62) {goal : Goal}
    {m : Machine} {acts : List Bool} {now : Solo Call}
    (hrun : Run Counts.Step ⟨m, { role := call k goal }⟩ acts now) :
    let c := now.player.role.client
    c.session = k.session ∧
      c.throughput.recordReads k.session.slots = .ok (Call.countPass c).throughput ∧
      c.throughput.written = k.throughput.written ∧
      c.throughput.read.toNat =
        min (2 ^ 64 - 1)
          (k.throughput.read.toNat + 4 * k.session.slots.toNat * acts.count true) := by
  intro c
  obtain ⟨hsession, hrecord, hwritten, hread⟩ := Counts.of_run hrun hslots
  refine ⟨hsession, ?_, UInt64.toNat_inj.mp (hwritten.trans ?_), hread⟩
  · rw [Call.countPass, show c.session = k.session from hsession]
    exact hrecord
  · have hlt := k.throughput.written.toNat_lt
    show min _ (k.throughput.written.toNat + 4 * 0 * acts.count true) = _
    omega

end Client

/-! ## The server -/

namespace Server

/-- The write to the last slot completes a pass. -/
def Call.completes (c : Call) : Access → Bool
  | .storeSlot index _ => c.server.session.slots.toNat ≤ index + 1
  | _ => false

theorem Call.completes_fill {k : Server} {g : Goal} {seed word : UInt32} {pass i index : Nat} :
    Call.completes ⟨k, g, .fill seed pass i⟩ (.storeSlot index word) = true ↔
      k.session.slots.toNat ≤ index + 1 :=
  decide_eq_true_iff

/-- A call that keeps the session and the throughput of its server. -/
def Call.Keeps (k : Server) (c : Call) : Prop :=
  c.server.session = k.session ∧ c.server.throughput = k.throughput

theorem Call.keeps_beginPass (k : Server) (g : Goal) (point : Point) (seed : UInt32)
    (pass : Nat) : (Call.beginPass ⟨k, g, point⟩ seed pass).Keeps k := by
  unfold Call.beginPass
  split <;> exact ⟨rfl, rfl⟩

theorem Call.keeps_greeted (k : Server) (g : Goal) (point : Point) (announced : Option PeerId) :
    (Call.greeted ⟨k, g, point⟩ announced).Keeps k := by
  rw [Call.Keeps, (settled_greeted k g point announced).server]
  exact ⟨rfl, rfl⟩

theorem Call.keeps_greet (k : Server) (g : Goal) (point : Point) (announced : Option PeerId) :
    (Call.greet ⟨k, g, point⟩ announced).Keeps k := by
  unfold Call.greet
  split
  · exact Call.keeps_greeted ..
  · exact ⟨rfl, rfl⟩

theorem Call.keeps_ended (k : Server) (g : Goal) (point : Point) :
    (Call.ended ⟨k, g, point⟩).Keeps k := by
  rw [Call.Keeps, (ended_ended k g point).server]
  exact ⟨rfl, rfl⟩

theorem Call.keeps_roundServed (k : Server) (g : Goal) (point : Point) :
    (Call.roundServed ⟨k, g, point⟩).Keeps k := by
  show Call.Keeps k (Call.served ⟨countRound k, g, point⟩)
  rw [Call.Keeps, (settled_served (countRound k) g point).server]
  exact ⟨rfl, rfl⟩

/-- Where no slot is written, nothing is counted. -/
theorem Call.goes_kept {c : Call} {move : Move Call} {memory : Memory} {a : Access}
    {next? : Option Call} (hmove : c.move = some move) (hshows : move.Shows memory a next?)
    (hslot : ∀ index word, a ≠ .storeSlot index word) : (next?.getD c).Keeps c.server := by
  obtain ⟨k, g, point⟩ := c
  cases point with
  | raiseReady self =>
      cases hmove
      cases hshows
      exact Call.keeps_greet ..
  | lookClient announced =>
      cases hmove
      cases hshows
      dsimp only [Option.getD_some]
      split
      · exact ⟨rfl, rfl⟩
      · exact Call.keeps_greeted ..
  | greetClient client announced =>
      cases hmove
      cases hshows
      dsimp only [Option.getD_some, Call.orFail]
      split
      · exact Call.keeps_greeted (known k) ..
      · exact ⟨rfl, rfl⟩
  | checkShutdown | recheckShutdown =>
      cases hmove
      cases hshows
      dsimp only [Option.getD_some]
      split
      · exact ⟨rfl, rfl⟩
      · exact Call.keeps_ended ..
  | checkStart =>
      cases hmove
      cases hshows
      dsimp only [Option.getD_some]
      split
      · exact ⟨rfl, rfl⟩
      · exact Call.keeps_greet ..
  | readSeed =>
      cases hmove
      cases hshows
      exact Call.keeps_beginPass ..
  | fill seed pass index =>
      cases hmove
      cases hshows
      exact absurd rfl (hslot index _)
  | lookCaller =>
      cases hmove
      cases hshows
      dsimp only [Option.getD_some]
      split
      · exact ⟨rfl, rfl⟩
      · exact Call.keeps_roundServed ..
  | tellCaller client =>
      cases hmove
      cases hshows
      dsimp only [Option.getD_some, Call.orFail]
      split
      · exact Call.keeps_roundServed ..
      · exact ⟨rfl, rfl⟩
  | identify =>
      cases hmove
      cases hshows
      dsimp only [Option.getD_some, Call.orFail]
      split <;> exact ⟨rfl, rfl⟩
  | listen =>
      cases hmove
      cases hshows with
      | woken outcome => cases outcome <;> exact ⟨rfl, rfl⟩
      | asleep => exact ⟨rfl, rfl⟩
  | publish | clearShutdown | lowerStart | raiseDone =>
      cases hmove
      cases hshows
      exact ⟨rfl, rfl⟩
  | returned => exact nomatch hmove

/-- An access counts the slots of the session if it completes a pass, and nothing otherwise. -/
theorem Call.goes_counted {c : Call} {move : Move Call} {memory : Memory} {a : Access}
    {next? : Option Call} (hmove : c.move = some move) (hshows : move.Shows memory a next?) :
    (next?.getD c).server.session = c.server.session ∧
      (next?.getD c).server.throughput =
        if c.completes a then c.server.throughput.after (.writes c.server.session.slots)
        else c.server.throughput := by
  by_cases hslot : ∃ index word, a = .storeSlot index word
  · obtain ⟨index, word, rfl⟩ := hslot
    obtain ⟨k, g, point⟩ := c
    cases point with
    | fill seed pass i =>
        cases hmove
        cases hshows
        dsimp only [Option.getD_some]
        by_cases hnext : index + 1 < k.session.slots.toNat
        · rw [if_pos hnext, if_neg fun h => Nat.not_le.mpr hnext (Call.completes_fill.mp h)]
          exact ⟨rfl, rfl⟩
        · rw [if_neg hnext, if_pos (Call.completes_fill.mpr (Nat.not_lt.mp hnext))]
          exact Call.keeps_beginPass ..
    | _ => cases hmove <;> cases hshows
  · have hnone : c.completes a = false := by
      cases a with
      | storeSlot index word => exact absurd ⟨index, word, rfl⟩ hslot
      | _ => rfl
    rw [hnone]
    exact Call.goes_kept hmove hshows fun index word ha => hslot ⟨index, word, ha⟩

instance : Counts Call where
  throughput c := c.server.throughput
  pass := .writes
  completes := Call.completes
  Again c c' := ∃ ended goal, c.point = .returned ended ∧ c' = call c.server goal
  goes := Call.goes_counted
  again := by
    rintro c c' ⟨ended, goal, -, rfl⟩
    exact ⟨rfl, rfl⟩

/-- A server counts all passes that it completes. -/
theorem passes_counted {k : Server} (hslots : k.session.slots.toNat < 2 ^ 62) {goal : Goal}
    {m : Machine} {acts : List Bool} {now : Solo Call}
    (hrun : Run Counts.Step ⟨m, { role := call k goal }⟩ acts now) :
    let c := now.player.role.server
    c.session = k.session ∧
      c.throughput.recordWrites k.session.slots = .ok (Call.countPass c).throughput ∧
      c.throughput.read = k.throughput.read ∧
      c.throughput.written.toNat =
        min (2 ^ 64 - 1)
          (k.throughput.written.toNat + 4 * k.session.slots.toNat * acts.count true) := by
  intro c
  obtain ⟨hsession, hrecord, hwritten, hread⟩ := Counts.of_run hrun hslots
  refine ⟨hsession, ?_, UInt64.toNat_inj.mp (hread.trans ?_), hwritten⟩
  · rw [Call.countPass, show c.session = k.session from hsession]
    exact hrecord
  · have hlt := k.throughput.read.toNat_lt
    show min _ (k.throughput.read.toNat + 4 * 0 * acts.count true) = _
    omega

end Server

/-- **Every byte is counted, up to the largest word.**  An entry is refused if and only if it has
2^62 slots or more, and changes nothing then.  Neither sum goes back, and no entry changes both.
After any entries each of the sums is four bytes for every slot that was accepted for it, cut at the
largest word, and the order of the entries does not matter.

The slots of a session fit into its window behind the record, and so no pass over them is refused:
however often a client or a server is called, and whatever it finds, the bytes of all passes that it
completed are added to what was counted before. -/
theorem throughput_exact :
    (∀ (t : Throughput) (e : Entry),
      (∀ o, t.record e = .error o ↔ o = .product ∧ 2 ^ 62 ≤ e.slots.toNat) ∧
      (2 ^ 62 ≤ e.slots.toNat → t.after e = t) ∧
      t.written ≤ (t.after e).written ∧ t.read ≤ (t.after e).read) ∧
    (∀ (t : Throughput) (slots : UInt64),
      (t.after (.writes slots)).read = t.read ∧ (t.after (.reads slots)).written = t.written) ∧
    (∀ entries : List Entry,
      let t := Throughput.total {} entries
      t.written.toNat = min (2 ^ 64 - 1) (4 * ((accepted entries).map Entry.written).sum) ∧
      t.read.toNat = min (2 ^ 64 - 1) (4 * ((accepted entries).map Entry.read).sum) ∧
      ∀ entries', entries.Perm entries' → Throughput.total {} entries' = t) ∧
    ∀ (region : Ref .region) (size : UInt64) (s : Session),
      Session.open? region size = .ok s →
      s.slots.toNat * 4 + 28 ≤ size.toNat ∧ s.slots.toNat < 2 ^ 62 ∧
      (∀ memory seed, (s.writePass memory seed).1 = s.slots ∧
        ∀ slots, s.verifyPass memory seed = .ok slots → slots = s.slots) ∧
      (∀ (k : Client) goal m acts now, k.session = s →
        Run Counts.Step ⟨m, { role := Client.call k goal }⟩ acts now →
        let c := now.player.role.client
        c.session = s ∧
          c.throughput.recordReads s.slots = .ok (Client.Call.countPass c).throughput ∧
          c.throughput.written = k.throughput.written ∧
          c.throughput.read.toNat =
            min (2 ^ 64 - 1)
              (k.throughput.read.toNat + 4 * s.slots.toNat * acts.count true)) ∧
      ∀ (k : Server) goal m acts now, k.session = s →
        Run Counts.Step ⟨m, { role := Server.call k goal }⟩ acts now →
        let c := now.player.role.server
        c.session = s ∧
          c.throughput.recordWrites s.slots = .ok (Server.Call.countPass c).throughput ∧
          c.throughput.read = k.throughput.read ∧
          c.throughput.written.toNat =
            min (2 ^ 64 - 1)
              (k.throughput.written.toNat + 4 * s.slots.toNat * acts.count true) := by
  refine ⟨fun t e => ⟨fun o => Throughput.record_eq_error_iff, Throughput.after_of_refused,
      t.le_after e⟩,
    fun t slots => ⟨t.read_after_writes slots, t.written_after_reads slots⟩, ?_, ?_⟩
  · intro entries t
    obtain ⟨hwritten, hread⟩ := Throughput.toNat_total {} entries
    rw [show ({} : Throughput).written.toNat = 0 from rfl, Nat.zero_add] at hwritten
    rw [show ({} : Throughput).read.toNat = 0 from rfl, Nat.zero_add] at hread
    exact ⟨hwritten, hread, fun entries' hperm => (Throughput.total_of_perm hperm).symm⟩
  · intro region size s hopen
    obtain ⟨-, -, hfits⟩ := Session.of_open hopen
    have hsize := size.toNat_lt
    have hslots : s.slots.toNat < 2 ^ 62 := by omega
    refine ⟨by omega, hslots, fun memory seed => ⟨rfl, fun slots hok => ?_⟩, ?_, ?_⟩
    · unfold Session.verifyPass at hok
      split at hok
      · exact nomatch hok
      · exact (Except.ok.inj hok).symm
    · rintro k goal m acts now rfl hrun
      exact Client.passes_counted hslots hrun
    · rintro k goal m acts now rfl hrun
      exact Server.passes_counted hslots hrun

/-! ## A server that has counted almost all that it can -/

namespace Full

/-- The server of a round that is asked for, which has written all but twenty bytes before. -/
def server : Server :=
  { Server.Asked.server with throughput := ⟨0xFFFFFFFFFFFFFFEC, 7⟩ }

def begun : Solo Server.Call :=
  ⟨Server.Asked.machine, { role := Server.call server .serveOnce }⟩

/-- The server fills the four slots. -/
def pass : List Solo.Act :=
  [.own (.storeSlot 0 9), .own (.storeSlot 1 8), .own (.storeSlot 2 11), .own (.storeSlot 3 10)]

/-- The client rings, and the server does the two passes of a round. -/
def round : List Solo.Act :=
  [.others fun m => (m.ring ⟨0⟩ ⟨2⟩ .waitEventIrq).1, .own (.wait (some (.ok ()))),
    .own (.load .shutdown 0), .own (.load .start Marker.start), .own (.store .start 0),
    .own (.load .data 9)] ++ pass ++ pass

end Full

/-- The second pass fills the count up, and another one would not be refused either. -/
theorem throughput_exact_full :
    ∃ passes now, Run Counts.Step Full.begun passes now ∧ 2 ≤ passes.count true ∧
      now.player.role.server.throughput = ⟨0xFFFFFFFFFFFFFFFF, 7⟩ ∧
      ∃ next, now.player.role.server.throughput.recordWrites 4 = .ok next := by
  have hopen : Session.open? ⟨0⟩ 44 = .ok Full.server.session := rfl
  have hreplay : (Full.round.foldlM (Solo.act ⟨1⟩) Full.begun).any (fun now =>
      now.player.role.server.throughput = ⟨0xFFFFFFFFFFFFFFFF, 7⟩) = true := by
    decide +kernel
  obtain ⟨now, hrun, hshows⟩ := Run.exists_of_any hreplay
  have hfull := of_decide_eq_true hshows
  obtain ⟨passes, hpasses⟩ := Counts.exists_run hrun
  obtain ⟨-, -, -, hsessions⟩ := throughput_exact
  obtain ⟨-, -, -, -, hserver⟩ := hsessions ⟨0⟩ 44 _ hopen
  obtain ⟨-, hrecord, -, hwritten⟩ := hserver Full.server .serveOnce _ passes now rfl hpasses
  rw [hfull] at hwritten
  have hsum : 2 ^ 64 - 1 = min (2 ^ 64 - 1) (2 ^ 64 - 20 + 16 * passes.count true) := hwritten
  exact ⟨passes, now, hpasses, by omega, hfull, _, hrecord⟩

end PeerBus
