/-
# `PeerBus.Proofs.Handshake.Pair` — a client and a server at work

A `System` is a machine and the two roles that work on it.  Its acts are the single accesses of
either role in any order, stray doorbells, writes of a third party behind the record, and the next
calls of roles that are not running to the end; `Link.act` carries them out.

A role that waits is a `Player` asleep: its call is parked at its device's event flag, and its next
turn is a look at that flag.

**What is proved.**  As long as a role only rings its peer and only writes slots that there are
(`Link.Proper`), each of its turns is an access of the view or leaves the view and the role as they
are (`Link.Seated.turn`).
-/
import PeerBus.Proofs.Handshake.Cells
import PeerBus.Proofs.Handshake.Client
import PeerBus.Proofs.Handshake.Server
import PeerBus.Proofs.Run
import PeerBus.Proofs.Wait.Sole

namespace PeerBus

/-! ## Roles that take turns -/

/-- A role, and how it goes on after the wait that it is in. -/
structure Player (ρ : Type) where
  role : ρ
  sleep : Option (Except DeviceError Unit → ρ) := none

/-- The next turn of a player: its next access, or a look at the flag that it waits for. -/
def Machine.turn {ρ : Type} [Role ρ] (m : Machine) (call : CallId) (p : Player ρ) :
    Option (Machine × Player ρ) :=
  match p.sleep with
  | none =>
      match m.advance call p.role with
      | none => none
      | some (m, .next role) => some (m, { role := role })
      | some (m, .parked next) => some (m, { role := p.role, sleep := some next })
  | some next =>
      match m.resume (.signal (Role.device p.role)) call with
      | (m, some outcome) => some (m, { role := next (outcome.mapError DeviceError.ofWait) })
      | (m, none) => some (m, p)

structure System where
  machine : Machine
  client : Player Client.Call
  server : Player Server.Call

/-- What can happen to a client and a server. -/
inductive Act where
  /-- A turn of the client. -/
  | client
  /-- A turn of the server. -/
  | server
  /-- A doorbell of the event channel that neither role sent. -/
  | stray (x : Side) (status : UInt32) (force : Bool)
  /-- A write of a third party behind the record. -/
  | spoil (offset : UInt64) (data : List UInt8)
  /-- The client, connected or done with a round, is called for the next one. -/
  | round (seed : UInt32)
  /-- The server, announced or done with a doorbell, is called for the next one. -/
  | serve
  deriving DecidableEq

/-- Nobody but the roles writes to the window. -/
def Act.Clean : Act → Prop
  | .spoil _ _ => False
  | _ => True

instance : (a : Act) → Decidable a.Clean
  | .spoil _ _ => .isFalse id
  | .client | .server | .stray _ _ _ | .round _ | .serve => .isTrue trivial

namespace Link

def act (w : Link) (s : System) : Act → Option System
  | .client => (s.machine.turn (w.port .client).call s.client).map fun next =>
      { s with machine := next.1, client := next.2 }
  | .server => (s.machine.turn (w.port .server).call s.server).map fun next =>
      { s with machine := next.1, server := next.2 }
  | .stray x status force =>
      if StatusEvent.classify status = .event then
        some { s with machine := (s.machine.deliver (w.port x).endpoint status force).1 }
      else none
  | .spoil offset data =>
      if Layout.recordSize ≤ offset then
        some { s with machine := (s.machine.writeRegion w.region offset data).1 }
      else none
  | .round seed =>
      match s.client.role.point with
      | .returned (.ok (.peer _)) | .returned (.ok .done) =>
          some { s with client := { role := Client.call s.client.role.client (.round seed) } }
      | _ => none
  | .serve =>
      match s.server.role.point with
      | .returned (.ok (.peer _)) | .returned (.ok (.goesOn true)) =>
          some { s with server := { role := Server.call s.server.role.server .serveOnce } }
      | _ => none

def Step (w : Link) (s : System) (a : Act) (t : System) : Prop := w.act s a = some t

/-! ## The view of a machine -/

/-- What the two sides of a link share. -/
def view (w : Link) (m : Machine) : View where
  record := (m.regions.get w.region).field
  slot := (m.regions.get w.region).slotWord
  flag x := (w.event m x).isSet

/-- The window of the link has room for the record and the slots of a session. -/
structure Holds (w : Link) (session : Session) (m : Machine) : Prop where
  region : session.region = w.region
  room : 28 + 4 * session.slots.toNat ≤ (m.regions.get w.region).bytes.size

variable {w : Link} {session : Session} {m : Machine}

theorem Holds.record (h : w.Holds session m) : 28 ≤ (m.regions.get w.region).bytes.size :=
  Nat.le_trans (Nat.le_add_right ..) h.room

theorem view_setField (h : w.Up m) (hm : w.Holds session m) (f : Field) (value : UInt32) :
    w.view (m.modifyRegion w.region fun memory => memory.setField f value) =
      (w.view m).store f value := by
  have hget := Table.get_modify_self h.hasRegion fun memory => memory.setField f value
  have hrecord : ((m.regions.get w.region).setField f value).field =
      ((w.view m).store f value).record :=
    funext fun g => Memory.field_setField hm.record f g value
  have hslot : ((m.regions.get w.region).setField f value).slotWord = (w.view m).slot :=
    funext fun i => Memory.slotWord_setField hm.record f value i
  show View.mk (Memory.field _) (Memory.slotWord _) (w.view m).flag = _
  rw [show (m.modifyRegion w.region _).regions.get w.region = _ from hget, hrecord, hslot]
  rfl

theorem view_setSlotWord (h : w.Up m) (hm : w.Holds session m) {i : Nat}
    (hi : i < session.slots.toNat) (value : UInt32) :
    w.view (m.modifyRegion w.region fun memory => memory.setSlotWord i value) =
      (w.view m).storeSlot i value := by
  have hroom := hm.room
  have hget := Table.get_modify_self h.hasRegion fun memory => memory.setSlotWord i value
  have hrecord : ((m.regions.get w.region).setSlotWord i value).field = (w.view m).record :=
    funext fun g => Memory.field_setSlotWord hm.record g i value
  have hslot : ((m.regions.get w.region).setSlotWord i value).slotWord =
      ((w.view m).storeSlot i value).slot :=
    funext fun j => Memory.slotWord_setSlotWord (by omega) j value
  show View.mk (Memory.field _) (Memory.slotWord _) (w.view m).flag = _
  rw [show (m.modifyRegion w.region _).regions.get w.region = _ from hget, hrecord, hslot]
  rfl

/-- A transfer behind the record may change slots, and nothing else. -/
theorem view_writeRegion (h : w.Up m) (hm : w.Holds session m) {offset : UInt64}
    (hoff : Layout.recordSize ≤ offset) (data : List UInt8) :
    ∃ slot, w.view (m.writeRegion w.region offset data).1 = { w.view m with slot := slot } := by
  refine ⟨((m.regions.get w.region).writeAt offset data).2.slotWord, ?_⟩
  have hget := Table.get_modify_self h.hasRegion fun memory => (memory.writeAt offset data).2
  have hrecord : ((m.regions.get w.region).writeAt offset data).2.field = (w.view m).record :=
    funext fun g => Memory.field_writeAt hm.record g (UInt64.le_iff_toNat_le.mp hoff) data
  show View.mk (Memory.field _) (Memory.slotWord _) (w.view m).flag = _
  rw [show (m.writeRegion w.region offset data).1.regions.get w.region = _ from hget, hrecord]

theorem view_modifyEvent (h : w.Up m) (x : Side) (f : EventFlag → EventFlag) :
    w.view (w.modifyEvent x f m) =
      { w.view m with
        flag := fun y => if y = x then (f (w.event m x)).isSet else (w.view m).flag y } := by
  refine congrArg (View.mk _ _) (funext fun y => ?_)
  rw [h.event_modifyEvent]
  by_cases hy : y = x
  · rw [if_pos hy, if_pos hy]
  · rw [if_neg hy, if_neg hy]
    rfl

theorem view_modifyEvent_of_same (h : w.Up m) (x : Side) {f : EventFlag → EventFlag}
    (hf : (f (w.event m x)).isSet = (w.event m x).isSet) :
    w.view (w.modifyEvent x f m) = w.view m := by
  rw [view_modifyEvent h]
  refine congrArg (View.mk _ _) (funext fun y => ?_)
  by_cases hy : y = x
  · rw [if_pos hy, hf, hy]
  · exact if_neg hy

theorem view_modifyEvent_of_clear (h : w.Up m) (x : Side) {f : EventFlag → EventFlag}
    (hf : (f (w.event m x)).isSet = false) :
    w.view (w.modifyEvent x f m) = (w.view m).lower x := by
  rw [view_modifyEvent h, hf]
  rfl

theorem view_notified (h : w.Up m) (x : Side) :
    w.view (w.notified x m) = (w.view m).raise x :=
  view_modifyEvent (h.readStatus x) x EventFlag.set

/-! ## What an access leaves in order -/

/-- The link stays up, the window keeps its room, and a wait at the other side stays in order. -/
structure Keeps (w : Link) (session : Session) (x : Side) (m m' : Machine) : Prop where
  up : w.Up m'
  holds : w.Holds session m'
  other : ∀ {call waits}, (w.event m x.other).Sole call waits →
    (w.event m' x.other).Sole call waits

theorem Keeps.refl (h : w.Up m) (hm : w.Holds session m) (x : Side) : w.Keeps session x m m :=
  ⟨h, hm, id⟩

theorem Keeps.modifyRegion (h : w.Up m) (hm : w.Holds session m) (x : Side) {f : Memory → Memory}
    (hf : ∀ memory, (f memory).bytes.size = memory.bytes.size) :
    w.Keeps session x m (m.modifyRegion w.region f) where
  up := h.modifyRegion _ _
  holds :=
    { region := hm.region
      room := by
        have hget := Table.get_modify_self h.hasRegion f
        show _ ≤ ((m.regions.modify w.region f).get w.region).bytes.size
        rw [hget, hf]
        exact hm.room }
  other := id

theorem Keeps.modifyEvent (h : w.Up m) (hm : w.Holds session m) (x : Side)
    (f : EventFlag → EventFlag) : w.Keeps session x m (w.modifyEvent x f m) where
  up := h.modifyEvent x f
  holds := ⟨hm.region, hm.room⟩
  other hs := by
    rw [h.event_modifyEvent, if_neg (by cases x <;> decide)]
    exact hs

theorem Up.sole_notified (h : w.Up m) (x : Side) {y : Side} {call : CallId} {waits : Bool}
    (hs : (w.event m y).Sole call waits) : (w.event (w.notified x m) y).Sole call waits := by
  rw [h.event_notified]
  by_cases hy : y = x
  · rw [if_pos hy, ← hy]
    exact hs.set
  · rw [if_neg hy]
    exact hs

theorem Keeps.notified (h : w.Up m) (hm : w.Holds session m) (x : Side) :
    w.Keeps session x m (w.notified x.other m) :=
  ⟨h.notified _, ⟨hm.region, hm.room⟩, h.sole_notified _⟩

/-! ## The accesses of a machine -/

/-- A device knows its position, or asks its endpoint for it. -/
theorem Up.peerId (h : w.Up m) (hm : w.Holds session m) (x : Side) :
    ∃ m', m.peerId (w.port x).device = (m', .ok (w.port x).peer) ∧ w.Keeps session x m m' ∧
      w.view m' = w.view m ∧ w.event m' x = w.event m x := by
  have hx := h.attached x
  have hposition : PeerId.ofRegister (m.endpoints.get (w.port x).endpoint).peer.toRegister =
      (w.port x).peer := by
    rw [PeerId.ofRegister_toRegister, hx.peer]
  unfold Machine.peerId Device.ensureEnabled
  simp only [hx.enabled, if_true]
  cases hpeer : (m.devices.get (w.port x).device).peer with
  | some peer =>
      obtain rfl := hx.known peer hpeer
      exact ⟨m, rfl, .refl h hm x, rfl, rfl⟩
  | none =>
      simp only [hx.registers, Machine.readRegister, hposition]
      have hevent : ∀ y, ((m.devices.modify (w.port x).device fun d =>
          { d with peer := some (w.port x).peer }).get (w.port y).device).event = w.event m y :=
        fun y => Table.get_modify_keeps _ _ _ Device.event fun _ => rfl
      refine ⟨_, rfl, ⟨?_, ⟨hm.region, hm.room⟩, fun hs => ?_⟩, ?_, hevent x⟩
      · refine h.modifyDevice _ (fun _ => rfl) (fun _ => rfl) fun y hy peer hp => ?_
        cases hp
        cases x <;> cases y <;> first | rfl | exact absurd hy h.apart | exact absurd hy h.apart.symm
      · have he := hevent x.other
        unfold event
        rw [he]
        exact hs
      · exact congrArg (View.mk _ _) (funext fun y => congrArg EventFlag.isSet (hevent y))

theorem Up.waitEvent (h : w.Up m) (x : Side) (call : CallId) {e : EventFlag}
    {outcome : Option Waited} (he : Channel.enter (w.event m x) call = (e, outcome)) :
    m.waitEvent (w.port x).device call =
      (w.modifyEvent x (fun _ => e) m, outcome.map fun o => o.mapError DeviceError.ofWait) := by
  unfold Machine.waitEvent Device.ensureEnabled
  simp only [(h.attached x).enabled, if_true]
  rw [show Channel.enter (m.devices.get (w.port x).device).event call = _ from he]
  rfl

theorem resume_signal {x : Side} {call : CallId} {e : EventFlag} {outcome : Option Waited}
    (he : Channel.resume (w.event m x) call = (e, outcome)) :
    m.resume (.signal (w.port x).device) call = (w.modifyEvent x (fun _ => e) m, outcome) := by
  unfold Machine.resume
  simp only
  rw [show Channel.resume (m.devices.get (w.port x).device).event call = _ from he]
  rfl

/-- A role rings only its peer, and writes only slots that there are. -/
def Proper {ρ : Type} (w : Link) (session : Session) (x : Side) : Move ρ → Prop
  | .ring target _ => target = (w.port x.other).peer
  | .storeSlot index _ _ => index < session.slots.toNat
  | _ => True

/-- An access of the machine is an access of the view, unless it is a wait that goes to sleep. -/
theorem Up.perform {ρ : Type} {x : Side} {call : CallId} {move : Move ρ} (h : w.Up m)
    (hm : w.Holds session m) (hs : (w.event m x).Sole call false) (hp : w.Proper session x move) :
    ∃ m', w.Keeps session x m m' ∧
      ((∃ role, m.perform (w.port x).device session call move = (m', .next role) ∧
          (w.event m' x).Sole call false ∧
          (w.view m).perform (w.port x).peer x move = some (w.view m', role)) ∨
        (∃ next, move = .wait next ∧
          m.perform (w.port x).device session call move = (m', .parked next) ∧
          (w.event m' x).Sole call true ∧ w.view m' = w.view m)) := by
  cases move with
  | identify next =>
      obtain ⟨m', hid, hk, hview, hevent⟩ := h.peerId hm x
      refine ⟨m', hk, .inl ⟨next (.ok (w.port x).peer), ?_, hevent ▸ hs, ?_⟩⟩
      · simp only [Machine.perform, hid]
      · rw [hview]
        rfl
  | load field next =>
      refine ⟨m, .refl h hm x, .inl ⟨_, rfl, hs, ?_⟩⟩
      rw [hm.region]
      rfl
  | store field value next =>
      refine ⟨m.modifyRegion w.region fun memory => memory.setField field value,
        .modifyRegion h hm x fun memory => Memory.size_bytes_setField memory field value,
        .inl ⟨next, ?_, hs, ?_⟩⟩
      · rw [← hm.region]
        rfl
      · rw [view_setField h hm]
        rfl
  | loadSlot index next =>
      refine ⟨m, .refl h hm x, .inl ⟨_, rfl, hs, ?_⟩⟩
      rw [hm.region]
      rfl
  | storeSlot index value next =>
      refine ⟨m.modifyRegion w.region fun memory => memory.setSlotWord index value,
        .modifyRegion h hm x fun memory => Memory.size_bytes_setSlotWord memory index value,
        .inl ⟨next, ?_, hs, ?_⟩⟩
      · rw [← hm.region]
        rfl
      · rw [view_setSlotWord h hm hp]
        rfl
  | ring target next =>
      obtain rfl : target = (w.port x.other).peer := hp
      refine ⟨w.notified x.other m, .notified h hm x, .inl ⟨next (.ok ()), ?_, ?_, ?_⟩⟩
      · simp only [Machine.perform, h.ring x]
      · rw [h.event_notified, if_neg (by cases x <;> decide)]
        exact hs
      · rw [view_notified h]
        rfl
  | wait next =>
      cases hf : (w.event m x).isSet with
      | true =>
          obtain ⟨e, he, hsole, hclear⟩ := hs.enter_set hf
          refine ⟨w.modifyEvent x (fun _ => e) m, .modifyEvent h hm x _,
            .inl ⟨next (.ok ()), ?_, ?_, ?_⟩⟩
          · simp only [Machine.perform, h.waitEvent x call he]
            rfl
          · rw [h.event_modifyEvent, if_pos rfl]
            exact hsole
          · rw [view_modifyEvent_of_clear h x hclear]
            exact if_pos hf
      | false =>
          obtain ⟨e, he, hsole, hclear⟩ := hs.enter_clear hf
          refine ⟨w.modifyEvent x (fun _ => e) m, .modifyEvent h hm x _,
            .inr ⟨next, rfl, ?_, ?_, view_modifyEvent_of_same h x (hclear.trans hf.symm)⟩⟩
          · simp only [Machine.perform, h.waitEvent x call he]
            rfl
          · rw [h.event_modifyEvent, if_pos rfl]
            exact hsole

/-! ## Turns -/

section

variable {ρ : Type} [Role ρ] {x : Side} {p p' : Player ρ} {m' : Machine}

/-- A role works at its side of a link, and waits at its own event flag. -/
structure Seated (w : Link) (session : Session) (x : Side) (m : Machine) (p : Player ρ) :
    Prop where
  device : Role.device p.role = (w.port x).device
  session : Role.session p.role = session
  sole : (w.event m x).Sole (w.port x).call p.sleep.isSome
  waiting : ∀ {next}, p.sleep = some next → Role.move p.role = some (.wait next)

/-- A turn is an access of the view, or it leaves the view and the role as they are. -/
theorem Seated.turn (h : w.Seated session x m p) (hup : w.Up m) (hm : w.Holds session m)
    (hp : ∀ {move}, Role.move p.role = some move → w.Proper session x move)
    (hsame : ∀ {move v v' role}, Role.move p.role = some move →
      View.perform (w.port x).peer x v move = some (v', role) →
      Role.device role = Role.device p.role ∧ Role.session role = Role.session p.role)
    (hturn : m.turn (w.port x).call p = some (m', p')) :
    w.Keeps session x m m' ∧ w.Seated session x m' p' ∧
      (p'.role = p.role ∧ w.view m' = w.view m ∨
        ∃ move, Role.move p.role = some move ∧
          (w.view m).perform (w.port x).peer x move = some (w.view m', p'.role)) := by
  have hsole := h.sole
  obtain ⟨role, sleep⟩ := p
  cases sleep with
  | none =>
      cases hmove : Role.move role with
      | none => simp [Machine.turn, Machine.advance, hmove] at hturn
      | some move =>
          obtain ⟨m₁, hk, hcases⟩ := hup.perform hm hsole (hp hmove)
          simp only [Machine.turn, Machine.advance, hmove, Option.map_some, h.device,
            h.session] at hturn
          rcases hcases with ⟨role', hperf, hs', hview⟩ | ⟨next, rfl, hperf, hs', hview⟩
          · rw [hperf] at hturn
            cases hturn
            obtain ⟨hdevice, hsession⟩ := hsame hmove hview
            exact ⟨hk, ⟨hdevice.trans h.device, hsession.trans h.session, hs', nofun⟩,
              .inr ⟨move, rfl, hview⟩⟩
          · rw [hperf] at hturn
            cases hturn
            refine ⟨hk, ⟨h.device, h.session, hs', fun hn => ?_⟩, .inl ⟨rfl, hview⟩⟩
            cases hn
            exact hmove
  | some next =>
      have hmove := h.waiting rfl
      have hevent : ∀ e, w.event (w.modifyEvent x (fun _ => e) m) x = e := fun e =>
        (hup.event_modifyEvent x x _).trans (if_pos rfl)
      simp only [Machine.turn, h.device] at hturn
      rcases EventFlag.Sole.resume hsole with ⟨e, he, hs', hset, hclear⟩ | ⟨e, he, hs', hsame'⟩
      · rw [resume_signal he] at hturn
        cases hturn
        have hview : (w.view m).perform (w.port x).peer x (.wait next) =
            some (w.view (w.modifyEvent x (fun _ => e) m), next (.ok ())) := by
          rw [view_modifyEvent_of_clear hup x hclear]
          exact if_pos hset
        obtain ⟨hdevice, hsession⟩ := hsame hmove hview
        exact ⟨.modifyEvent hup hm x fun _ => e, ⟨hdevice.trans h.device,
          hsession.trans h.session, (hevent e).symm ▸ hs', nofun⟩, .inr ⟨_, hmove, hview⟩⟩
      · rw [resume_signal he] at hturn
        cases hturn
        exact ⟨.modifyEvent hup hm x fun _ => e, ⟨h.device, h.session, (hevent e).symm ▸ hs',
          h.waiting⟩, .inl ⟨rfl, view_modifyEvent_of_same hup x hsame'⟩⟩

end

end Link

end PeerBus
