/-
# `PeerBus.Proofs.Handshake.Solo` — one role among others

A `Solo` is a machine and one role that works on it.  Whatever else happens — peers at work, stray
doorbells, deadlines, devices that go away — changes the machine between two accesses of the role,
and its acts are `others`.  An act of the role itself carries what the role sees of it: the word
that it read, the answer of its device (`Access`).

    access           what the role goes on with         what it makes of the window
    load, loadSlot   the word that is there             nothing
    store, …Slot     —                                  the word is written
    identify, ring   the answer of the device           nothing
    wait             how the wait ended, if it did      nothing

`Solo.own_inv` is this table; it holds of every machine and every wiring.  What an observer can see
of the window stays the same unless the role or one of the others changes it (`Act.Keeps`).
-/
import PeerBus.Proofs.Handshake.Cells
import PeerBus.Proofs.Handshake.Pair
import PeerBus.Proofs.Machine.Wiring
import Mathlib.Control.Monad.Basic

namespace PeerBus

/-- An access of a role, as the role sees it. -/
inductive Access where
  /-- The device is asked for its position. -/
  | identify (outcome : Except DeviceError PeerId)
  /-- A field is read. -/
  | load (field : Field) (word : UInt32)
  /-- A field is written. -/
  | store (field : Field) (word : UInt32)
  /-- A slot is read. -/
  | loadSlot (index : Nat) (word : UInt32)
  /-- A slot is written. -/
  | storeSlot (index : Nat) (word : UInt32)
  /-- A peer is rung; a device that is gone answers with an error (`Solo.ring_of_own`). -/
  | ring (target : PeerId) (outcome : Except DeviceError Unit)
  /-- The role looks at its event flag; without an outcome it sleeps on. -/
  | wait (outcome : Option (Except DeviceError Unit))
  deriving DecidableEq

/-! ## What an access makes of the window -/

namespace Access

/-- The window after the access. -/
def apply (memory : Memory) : Access → Memory
  | .store field word => memory.setField field word
  | .storeSlot index word => memory.setSlotWord index word
  | _ => memory

/-- The word in a field after the access, if `word` was there before. -/
def stored (field : Field) (word : UInt32) : Access → UInt32
  | .store field' word' => if field = field' then word' else word
  | _ => word

variable {memory : Memory}

theorem size_apply (memory : Memory) (a : Access) :
    (a.apply memory).bytes.size = memory.bytes.size := by
  cases a with
  | store field word => exact Memory.size_bytes_setField ..
  | storeSlot index word => exact Memory.size_bytes_setSlotWord ..
  | _ => rfl

theorem field_apply (h : 28 ≤ memory.bytes.size) (a : Access) (field : Field) :
    (a.apply memory).field field = a.stored field (memory.field field) := by
  cases a with
  | store field' word => exact Memory.field_setField h field' field word
  | storeSlot index word => exact Memory.field_setSlotWord h field index word
  | _ => rfl

theorem slotWord_apply (h : 28 ≤ memory.bytes.size) {a : Access}
    (ha : ∀ index word, a ≠ .storeSlot index word) (i : Nat) :
    (a.apply memory).slotWord i = memory.slotWord i := by
  cases a with
  | store field word => exact Memory.slotWord_setField h field word i
  | storeSlot index word => exact absurd rfl (ha index word)
  | _ => rfl

end Access

/-- The access that shows for a move in `memory`, and where the role goes on, unless it sleeps. -/
inductive Move.Shows {ρ : Type} (memory : Memory) : Move ρ → Access → Option ρ → Prop
  | identify {next} (outcome) :
      Shows memory (.identify next) (.identify outcome) (some (next outcome))
  | load {field next} :
      Shows memory (.load field next) (.load field (memory.field field))
        (some (next (memory.field field)))
  | store {field word next} :
      Shows memory (.store field word next) (.store field word) (some next)
  | loadSlot {index next} :
      Shows memory (.loadSlot index next) (.loadSlot index (memory.slotWord index))
        (some (next (memory.slotWord index)))
  | storeSlot {index word next} :
      Shows memory (.storeSlot index word next) (.storeSlot index word) (some next)
  | ring {target next} (outcome) :
      Shows memory (.ring target next) (.ring target outcome) (some (next outcome))
  | woken {next} (outcome) :
      Shows memory (.wait next) (.wait (some outcome)) (some (next outcome))
  | asleep {next} : Shows memory (.wait next) (.wait none) none

/-! ## Interrupts leave every window alone -/

namespace Machine

variable {m : Machine}

theorem regions_readRegister (m : Machine) (registers : Registers) (register : Register) :
    (m.readRegister registers register).1.regions = m.regions := by
  cases registers <;> cases register <;> rfl

theorem regions_dispatch (m : Machine) (d : Ref .device) :
    (m.dispatch d).1.regions = m.regions := by
  unfold dispatch
  dsimp only
  split
  · split <;> exact regions_readRegister ..
  · rfl

theorem regions_tellAll {raise : Machine → Ref .line → Machine × Bool}
    (hraise : ∀ m line, (raise m line).1.regions = m.regions) (l : List Registration)
    (m : Machine) : (tellAll raise l m).1.regions = m.regions := by
  have htell : ∀ m handler, (tell raise m handler).1.regions = m.regions := by
    intro m handler
    cases handler with
    | device d => exact regions_dispatch m d
    | probe p =>
        unfold tell
        dsimp only
        split
        · split
          · rfl
          · exact hraise ..
        · rfl
  induction l generalizing m with
  | nil => rfl
  | cons registration rest ih => exact (ih _).trans (htell m registration.handler)

theorem regions_raiseWithin (depth : Nat) (m : Machine) (line : Ref .line) :
    (raiseWithin depth m line).1.regions = m.regions := by
  induction depth generalizing m line with
  | zero => rfl
  | succ depth ih => exact regions_tellAll ih ..

theorem regions_deliver (m : Machine) (e : Ref .endpoint) (status : UInt32) (force : Bool) :
    (m.deliver e status force).1.regions = m.regions := by
  unfold deliver
  dsimp only
  split
  · rfl
  · exact regions_raiseWithin ..

theorem regions_writeRegister (m : Machine) (registers : Registers) (register : Register)
    (value : UInt32) : (m.writeRegister registers register value).regions = m.regions := by
  cases registers with
  | words block => rfl
  | recorder block => cases register <;> rfl
  | endpoint e =>
      cases register with
      | doorbell =>
          unfold writeRegister route
          dsimp only
          split
          · split
            · exact regions_deliver ..
            · rfl
          · rfl
      | _ => rfl

theorem regions_ring (m : Machine) (d : Ref .device) (target : PeerId) (command : Command) :
    (m.ring d target command).1.regions = m.regions := by
  unfold ring
  dsimp only
  split
  · rfl
  · exact regions_writeRegister ..

theorem regions_peerId (m : Machine) (d : Ref .device) : (m.peerId d).1.regions = m.regions := by
  unfold peerId
  dsimp only
  split
  · rfl
  · split
    · rfl
    · exact regions_readRegister ..

theorem regions_waitEvent (m : Machine) (d : Ref .device) (call : CallId) :
    (m.waitEvent d call).1.regions = m.regions := by
  unfold waitEvent
  dsimp only
  split <;> rfl

/-- What is kept by a change of a window is kept of every window. -/
theorem observe_modifyRegion {α : Type} (m : Machine) (r r' : Ref .region) {f : Memory → Memory}
    (g : Memory → α) (h : ∀ memory, g (f memory) = g memory) :
    g ((m.modifyRegion r f).regions.get r') = g (m.regions.get r') :=
  Table.get_modify_keeps m.regions r r' g h

/-- A window that holds anything is there, and can be changed. -/
theorem window_modifyRegion {r : Ref .region} (h : 0 < (m.regions.get r).bytes.size)
    (f : Memory → Memory) : (m.modifyRegion r f).regions.get r = f (m.regions.get r) := by
  refine Table.get_modify_self (Decidable.byContradiction fun hno => ?_) f
  rw [Table.get_of_not_has hno] at h
  exact absurd h (Nat.lt_irrefl 0)

/-! ## The accesses of a machine -/

/-- What shows of a move of a role that works on `device` in `session`. -/
def access {ρ : Type} (m : Machine) (device : Ref .device) (session : Session) (call : CallId) :
    Move ρ → Access
  | .identify _ => .identify (m.peerId device).2
  | .load field _ => .load field ((m.regions.get session.region).field field)
  | .store field word _ => .store field word
  | .loadSlot index _ => .loadSlot index ((m.regions.get session.region).slotWord index)
  | .storeSlot index word _ => .storeSlot index word
  | .ring target _ => .ring target (m.ring device target .waitEventIrq).2
  | .wait _ => .wait (m.waitEvent device call).2

/-- A machine makes of a move what shows of it; what it makes of the window, if that is there. -/
theorem perform_shows {ρ : Type} (m : Machine) (device : Ref .device) (session : Session)
    (call : CallId) (move : Move ρ) :
    ∃ m' progress next?, m.perform device session call move = (m', progress) ∧
      move.Shows (m.regions.get session.region) (m.access device session call move) next? ∧
      (0 < (m.regions.get session.region).bytes.size → m'.regions.get session.region =
        (m.access device session call move).apply (m.regions.get session.region)) ∧
      ((∃ role, next? = some role ∧ progress = .next role) ∨
        ∃ next, next? = none ∧ move = .wait next ∧ progress = .parked next) := by
  cases move with
  | identify next =>
      refine ⟨(m.peerId device).1, _, _, rfl, .identify _, fun _ => ?_, .inl ⟨_, rfl, rfl⟩⟩
      rw [regions_peerId]
      rfl
  | load field next => exact ⟨_, _, _, rfl, .load, fun _ => rfl, .inl ⟨_, rfl, rfl⟩⟩
  | store field word next =>
      exact ⟨_, _, _, rfl, .store, fun h => window_modifyRegion h _, .inl ⟨_, rfl, rfl⟩⟩
  | loadSlot index next => exact ⟨_, _, _, rfl, .loadSlot, fun _ => rfl, .inl ⟨_, rfl, rfl⟩⟩
  | storeSlot index word next =>
      exact ⟨_, _, _, rfl, .storeSlot, fun h => window_modifyRegion h _, .inl ⟨_, rfl, rfl⟩⟩
  | ring target next =>
      refine ⟨(m.ring device target .waitEventIrq).1, _, _, rfl, .ring _, fun _ => ?_,
        .inl ⟨_, rfl, rfl⟩⟩
      rw [regions_ring]
      rfl
  | wait next =>
      have hregions := regions_waitEvent m device call
      unfold perform access
      generalize m.waitEvent device call = result at hregions ⊢
      obtain ⟨m', outcome⟩ := result
      obtain hregions : m'.regions = m.regions := hregions
      cases outcome with
      | some outcome =>
          exact ⟨_, _, _, rfl, .woken outcome, fun _ => by rw [hregions]; rfl,
            .inl ⟨_, rfl, rfl⟩⟩
      | none =>
          exact ⟨_, _, _, rfl, .asleep, fun _ => by rw [hregions]; rfl,
            .inr ⟨next, rfl, rfl, rfl⟩⟩

end Machine

/-! ## Solos -/

/-- A role sleeps only where its program waits. -/
def Player.Waits {ρ : Type} [Role ρ] (p : Player ρ) : Prop :=
  ∀ {next}, p.sleep = some next → Role.move p.role = some (.wait next)

theorem Player.waits_awake {ρ : Type} [Role ρ] (role : ρ) :
    Player.Waits { role := role } := by
  intro next h
  cases h

structure Solo (ρ : Type) where
  machine : Machine
  player : Player ρ

namespace Solo

/-- What can happen to a role. -/
inductive Act where
  /-- The role makes an access. -/
  | own (access : Access)
  /-- Others are at work. -/
  | others (change : Machine → Machine)

/-- The access of the role in an act. -/
def Act.own? : Act → Option Access
  | .own access => some access
  | .others _ => none

/-- The accesses of the role, in order. -/
def accesses (acts : List Act) : List Access := acts.filterMap Act.own?

/-- Others leave alone what `observe` sees of the window of a session.  An act is a function so that
runs can be replayed; a change that is made once may be taken to do nothing to other machines. -/
def Act.Keeps {α : Type} (session : Session) (observe : Memory → α) : Act → Prop
  | .own _ => True
  | .others change => ∀ m : Machine,
      observe ((change m).regions.get session.region) = observe (m.regions.get session.region)

theorem Act.keeps_own {α : Type} (session : Session) (observe : Memory → α) (access : Access) :
    (Act.own access).Keeps session observe :=
  trivial

variable {ρ : Type} [Role ρ]

/-- The next access of the role. -/
def access? (call : CallId) (s : Solo ρ) : Option Access :=
  let device := Role.device s.player.role
  match s.player.sleep with
  | none =>
      (Role.move s.player.role).map
        (s.machine.access device (Role.session s.player.role) call)
  | some _ =>
      some (.wait ((s.machine.resume (.signal device) call).2.map
        fun outcome => outcome.mapError DeviceError.ofWait))

def act (call : CallId) (s : Solo ρ) : Act → Option (Solo ρ)
  | .own access =>
      if s.access? call = some access then
        (s.machine.turn call s.player).map fun next => ⟨next.1, next.2⟩
      else none
  | .others change => some { s with machine := change s.machine }

def Step (call : CallId) (s : Solo ρ) (a : Act) (t : Solo ρ) : Prop := s.act call a = some t

/-- The window of a session. -/
def window (s : Solo ρ) (session : Session) : Memory := s.machine.regions.get session.region

variable {call : CallId} {s t : Solo ρ}

theorem accesses_snoc_own (acts : List Act) (a : Access) :
    accesses (acts ++ [.own a]) = accesses acts ++ [a] :=
  List.filterMap_append

theorem accesses_snoc_others (acts : List Act) (change : Machine → Machine) :
    accesses (acts ++ [.others change]) = accesses acts := by
  rw [accesses, List.filterMap_append]
  exact List.append_nil _

theorem mem_accesses {acts : List Act} {a : Access} : a ∈ accesses acts ↔ .own a ∈ acts := by
  refine List.mem_filterMap.trans ⟨?_, fun ha => ⟨_, ha, rfl⟩⟩
  rintro ⟨act, ha, hown⟩
  cases act with
  | own access =>
      obtain rfl := Option.some.inj hown
      exact ha
  | others change => exact nomatch hown

theorem step_others {change : Machine → Machine} (h : Step call s (.others change) t) :
    t = { s with machine := change s.machine } :=
  (Option.some.inj h).symm

theorem step_own_iff {a : Access} :
    Step call s (.own a) t ↔
      s.access? call = some a ∧ s.machine.turn call s.player = some (t.machine, t.player) := by
  show (if s.access? call = some a then _ else none) = some t ↔ _
  by_cases ha : s.access? call = some a
  · rw [if_pos ha, Option.map_eq_some_iff]
    constructor
    · rintro ⟨next, hturn, rfl⟩
      exact ⟨ha, hturn⟩
    · rintro ⟨-, hturn⟩
      exact ⟨_, hturn, rfl⟩
  · rw [if_neg ha]
    exact iff_of_false (Option.some_ne_none t).symm fun h => ha h.1

/-- An act of the role is a move of its program, with what shows of it. -/
theorem own_moves {a : Access} (hwaits : s.player.Waits) (h : Step call s (.own a) t) :
    let session := Role.session s.player.role
    ∃ move next?, Role.move s.player.role = some move ∧ move.Shows (s.window session) a next? ∧
      t.player.role = next?.getD s.player.role ∧ t.player.Waits ∧
      (0 < (s.window session).bytes.size → t.window session = a.apply (s.window session)) := by
  obtain ⟨haccess, hturn⟩ := step_own_iff.mp h
  obtain ⟨m, role, sleep⟩ := s
  obtain ⟨m', p⟩ := t
  cases sleep with
  | none =>
      obtain ⟨move, hmove, rfl⟩ := Option.map_eq_some_iff.mp haccess
      obtain ⟨m₁, progress, next?, hperform, hshows, hm₁, hcases⟩ :=
        m.perform_shows (Role.device role) (Role.session role) call move
      refine ⟨move, next?, hmove, hshows, ?_⟩
      simp only [Machine.turn, Machine.advance, hmove, Option.map_some, hperform] at hturn
      rcases hcases with ⟨role', rfl, rfl⟩ | ⟨next, rfl, rfl, rfl⟩
      · cases hturn
        exact ⟨rfl, Player.waits_awake role', hm₁⟩
      · cases hturn
        refine ⟨rfl, fun hn => ?_, hm₁⟩
        cases hn
        exact hmove
  | some next =>
      have hmove := hwaits rfl
      obtain rfl := Option.some.inj haccess
      simp only [Machine.turn] at hturn
      have hregions : (m.resume (.signal (Role.device role)) call).1.regions = m.regions := rfl
      generalize m.resume (.signal (Role.device role)) call = result at hturn hregions ⊢
      obtain ⟨m₁, outcome⟩ := result
      obtain hregions : m₁.regions = m.regions := hregions
      refine ⟨.wait next, ?_⟩
      cases outcome with
      | some outcome =>
          cases hturn
          exact ⟨_, hmove, .woken _, rfl, Player.waits_awake _,
            fun _ => congrArg (Table.get · _) hregions⟩
      | none =>
          cases hturn
          exact ⟨_, hmove, .asleep, rfl, hwaits, fun _ => congrArg (Table.get · _) hregions⟩

/-- The act of a role that works in the window of `session`. -/
theorem own_inv {session : Session} {a : Access} (hsession : Role.session s.player.role = session)
    (hwaits : s.player.Waits) (hwindow : 0 < (s.window session).bytes.size)
    (h : Step call s (.own a) t) :
    ∃ move next?, Role.move s.player.role = some move ∧ move.Shows (s.window session) a next? ∧
      t.player.role = next?.getD s.player.role ∧ t.player.Waits ∧
      t.window session = a.apply (s.window session) := by
  subst hsession
  obtain ⟨move, next?, hmove, hshows, hrole, hwaits', happly⟩ := own_moves hwaits h
  exact ⟨move, next?, hmove, hshows, hrole, hwaits', happly hwindow⟩

/-- What shows as a doorbell is one: the role's device rings, and this is its answer. -/
theorem ring_of_own {target : PeerId} {outcome : Except DeviceError Unit}
    (h : Step call s (.own (.ring target outcome)) t) :
    s.machine.ring (Role.device s.player.role) target .waitEventIrq = (t.machine, outcome) := by
  obtain ⟨haccess, hturn⟩ := step_own_iff.mp h
  obtain ⟨m, role, sleep⟩ := s
  cases sleep with
  | some next => cases haccess
  | none =>
      obtain ⟨move, hmove, hmade⟩ := Option.map_eq_some_iff.mp haccess
      cases move with
      | ring target' next =>
          cases hmade
          simp only [Machine.turn, Machine.advance, hmove, Option.map_some, Machine.perform,
            Option.some.injEq, Prod.mk.injEq] at hturn
          exact Prod.ext hturn.1 rfl
      | _ => cases hmade

/-- So is every doorbell that shows in a run. -/
theorem ring_of_run {acts : List Act} {target : PeerId} {outcome : Except DeviceError Unit}
    (h : Run (Step call) s acts t) (hmem : .ring target outcome ∈ accesses acts) :
    ∃ first rest v w, acts = first ++ .own (.ring target outcome) :: rest ∧
      Run (Step call) s first v ∧
      v.machine.ring (Role.device v.player.role) target .waitEventIrq = (w.machine, outcome) ∧
      Run (Step call) w rest t := by
  obtain ⟨first, rest, rfl⟩ := List.append_of_mem (mem_accesses.mp hmem)
  obtain ⟨v, hfirst, hrest⟩ := h.of_append
  obtain ⟨w, hrung, hrest⟩ := hrest.of_cons
  exact ⟨first, rest, v, w, rfl, hfirst, ring_of_own hrung, hrest⟩

/-- A role that has a move can make it. -/
theorem exists_own (call : CallId) (h : Role.move s.player.role ≠ none) :
    ∃ a t, Step call s (.own a) t := by
  obtain ⟨move, hmove⟩ := Option.ne_none_iff_exists'.mp h
  have haccess : ∃ a, s.access? call = some a := by
    unfold access?
    dsimp only
    split
    · exact ⟨_, congrArg _ hmove⟩
    · exact ⟨_, rfl⟩
  have hturn : ∃ next, s.machine.turn call s.player = some next := by
    unfold Machine.turn Machine.advance
    rw [hmove, Option.map_some]
    split
    · split
      · rename_i hnone
        cases hnone
      · exact ⟨_, rfl⟩
      · exact ⟨_, rfl⟩
    · split <;> exact ⟨_, rfl⟩
  obtain ⟨a, ha⟩ := haccess
  obtain ⟨next, hnext⟩ := hturn
  exact ⟨a, ⟨next.1, next.2⟩, step_own_iff.mpr ⟨ha, hnext⟩⟩

end Solo

end PeerBus
