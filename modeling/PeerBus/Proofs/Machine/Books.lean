/-
# `PeerBus.Proofs.Machine.Books` — what a device hears and gives out

An act of a machine is `News` to at most one device:

    armed count    the count of the semaphore was overwritten
    heard status   the dispatcher read this status from the port
    tookUnit       a wait for a unit ended well
    tookFlag       a wait for the event flag ended well

The channels of a device react to an act by at most one step each, the one that its news says
(`Device.Reacts`).  So its books can be kept by its news alone: a `Ledger` for the semaphore, and a
`FlagLedger` for the event flag, which holds less since rings of a raised flag are merged.
-/
import PeerBus.Proofs.Machine.Delivery
import PeerBus.Proofs.Wait.Ledger

namespace PeerBus

/-- What an act means to a device. -/
inductive News where
  | armed (count : UInt32)
  | heard (status : UInt32)
  | tookUnit
  | tookFlag
  deriving DecidableEq

/-- The ledger after the news: the doorbells of the semaphore channel are the units put in. -/
def Ledger.note (l : Ledger) : News → Ledger
  | .armed count => { armed := count }
  | .heard status => if status.toUInt8 = 7 then { l with ups := l.ups + 1 } else l
  | .tookUnit => { l with downs := l.downs + 1 }
  | .tookFlag => l

/-- How often an event flag was rung for, and how often it was taken. -/
structure FlagLedger where
  rung : Nat := 0
  taken : Nat := 0
  deriving DecidableEq

namespace FlagLedger

def note (t : FlagLedger) : News → FlagLedger
  | .heard status => if status.toUInt8 = 4 then { t with rung := t.rung + 1 } else t
  | .tookFlag => { t with taken := t.taken + 1 }
  | .armed _ | .tookUnit => t

def put : EventFlag.Op → FlagLedger → FlagLedger
  | .set, t => { t with rung := t.rung + 1 }
  | .clear, t => t

def take (t : FlagLedger) : FlagLedger := { t with taken := t.taken + 1 }

/-- What an act of the flag means for its tally. -/
def book (t : FlagLedger) (a : Channel.Act EventFlag.Op) : FlagLedger := a.book put take t

/-- The flag was taken, or is there to be taken, at most as often as it was rung for. -/
def Covers (t : FlagLedger) (raised : Bool) : Prop := t.taken + raised.toNat ≤ t.rung

variable {t : FlagLedger} {a : Channel.Act EventFlag.Op}

theorem Covers.step {e f : EventFlag} (h : t.Covers e.isSet) (ho : e.Orderly)
    (hs : EventFlag.Step e a f) : (t.book a).Covers f.isSet := by
  unfold Covers at h ⊢
  by_cases hsignal : ∃ op, a = .signal op
  · obtain ⟨op, rfl⟩ := hsignal
    cases hs with
    | signal hop =>
      cases hop with
      | set =>
          show t.taken + 1 ≤ t.rung + 1
          omega
      | clear =>
          show t.taken + 0 ≤ t.rung
          omega
  · have hnot : ∀ op, a ≠ .signal op := fun op e => hsignal ⟨op, e⟩
    have htakes := Channel.Step.takes ho hs hnot
    by_cases hok : a.outcome? = some (.ok ())
    · rw [hok] at htakes
      obtain ⟨hready, htake⟩ := htakes.of_ok
      have hset : e.isSet = true := hready
      have hclear : f.isSet = false := congrArg Flag.raised htake
      rw [hset] at h
      rw [hclear, book, a.book_of_ok put take hok]
      exact h
    · have hsame : f.isSet = e.isSet := congrArg Flag.raised (htakes.of_ne hok)
      rw [hsame, book, a.book_of_ne put take hok hnot]
      exact h

end FlagLedger

/-! ## Devices and their news -/

namespace Device

/-- One act makes `d'` of a device `d`, and is the news `n` to it, if it is news at all. -/
structure Reacts (d d' : Device) (n : Option News) : Prop where
  units : d'.semaphore = d.semaphore ∧ (∀ l : Ledger, n.elim l l.note = l) ∨
    ∃ a, Semaphore.Step d.semaphore a d'.semaphore ∧ ∀ l : Ledger, n.elim l l.note = l.book a
  flag : d'.event = d.event ∧ (∀ t : FlagLedger, n.elim t t.note = t) ∨
    ∃ a, EventFlag.Step d.event a d'.event ∧ ∀ t : FlagLedger, n.elim t t.note = t.book a

/-- The books of a device agree with what is pending at it. -/
structure Booked (d : Device) (l : Ledger) (t : FlagLedger) : Prop where
  units : d.semaphore.Orderly
  flag : d.event.Orderly
  balances : l.Balances d.semaphore.count
  covers : t.Covers d.event.isSet

variable {d d' : Device} {n : Option News}

theorem Booked.fresh (hsemaphore : d.semaphore = default) (hevent : d.event = default) :
    d.Booked {} {} where
  units := hsemaphore ▸ Channel.orderly_default
  flag := hevent ▸ Channel.orderly_default
  balances := hsemaphore ▸ Ledger.balances_empty
  covers := hevent ▸ Nat.le_refl _

/-- Books that are kept by the news stay right. -/
theorem Booked.reacts {l : Ledger} {t : FlagLedger} (h : d.Booked l t) (hr : Reacts d d' n) :
    d'.Booked (n.elim l l.note) (n.elim t t.note) := by
  have hunits : d'.semaphore.Orderly ∧ (n.elim l l.note).Balances d'.semaphore.count := by
    rcases hr.units with ⟨hsame, hl⟩ | ⟨a, hs, hl⟩
    · rw [hsame, hl]
      exact ⟨h.units, h.balances⟩
    · rw [hl]
      exact ⟨hs.orderly Semaphore.onlySignals_own h.units, h.balances.step h.units hs⟩
  have hflag : d'.event.Orderly ∧ (n.elim t t.note).Covers d'.event.isSet := by
    rcases hr.flag with ⟨hsame, ht⟩ | ⟨a, hs, ht⟩
    · rw [hsame, ht]
      exact ⟨h.flag, h.covers⟩
    · rw [ht]
      exact ⟨hs.orderly EventFlag.onlySignals_own h.flag, h.covers.step h.flag hs⟩
  exact ⟨hunits.1, hflag.1, hunits.2, hflag.2⟩

/-- Nothing that concerns the channels. -/
theorem Reacts.idle (hsemaphore : d'.semaphore = d.semaphore) (hevent : d'.event = d.event) :
    Reacts d d' none :=
  ⟨.inl ⟨hsemaphore, fun _ => rfl⟩, .inl ⟨hevent, fun _ => rfl⟩⟩

/-- A status that the device reads. -/
theorem Reacts.heard (d : Device) (status : UInt32) :
    Reacts d (d.heard status) (some (.heard status)) := by
  unfold Device.heard
  by_cases h7 : status.toUInt8 = 7
  · rw [if_pos h7]
    refine ⟨.inr ⟨.signal (.up _), .signal (.up d.semaphore.notifies_longestAsleep), fun l => ?_⟩,
      .inl ⟨rfl, fun t => ?_⟩⟩
    · exact if_pos h7
    · exact if_neg (by rw [h7]; decide)
  · rw [if_neg h7]
    by_cases h4 : status.toUInt8 = 4
    · rw [if_pos h4]
      exact ⟨.inl ⟨rfl, fun l => if_neg h7⟩,
        .inr ⟨.signal .set, .signal (.set _), fun t => if_pos h4⟩⟩
    · rw [if_neg h4]
      exact ⟨.inl ⟨rfl, fun l => if_neg h7⟩, .inl ⟨rfl, fun t => if_neg h4⟩⟩

theorem Reacts.armed (d : Device) (count : UInt32) :
    Reacts d { d with semaphore := d.semaphore.arm count } (some (.armed count)) :=
  ⟨.inr ⟨.signal (.arm count), .signal (.arm _ count), fun _ => rfl⟩, .inl ⟨rfl, fun _ => rfl⟩⟩

theorem Reacts.interrupted (d : Device) :
    Reacts d { d with semaphore := d.semaphore.interrupt, event := d.event.interrupt } none :=
  ⟨.inr ⟨.interrupt, .interrupt _, fun _ => rfl⟩, .inr ⟨.interrupt, .interrupt _, fun _ => rfl⟩⟩

theorem Reacts.closed (hsemaphore : d'.semaphore = d.semaphore.close)
    (hevent : d'.event = d.event.close) : Reacts d d' none :=
  ⟨.inr ⟨.close, hsemaphore ▸ .close _, fun _ => rfl⟩,
    .inr ⟨.close, hevent ▸ .close _, fun _ => rfl⟩⟩

/-- The news of a wait, given its outcome. -/
def newsOf {ε : Type} (news : News) : Option (Except ε Unit) → Option News
  | some (.ok ()) => some news
  | some (.error _) | none => none

theorem newsOf_map {ε ε' : Type} (news : News) (f : ε → ε') (o : Option (Except ε Unit)) :
    newsOf news (o.map fun o => o.mapError f) = newsOf news o := by
  rcases o with _ | e | ⟨⟩ <;> rfl

/-- A wait at the semaphore. -/
theorem Reacts.units_of_look {s : Semaphore} {a : Channel.Act Semaphore.Op} {o : Option Waited}
    (hs : Semaphore.Step d.semaphore a s) (ho : a.outcome? = o) (hnot : ∀ op, a ≠ .signal op) :
    Reacts d { d with semaphore := s } (newsOf .tookUnit o) := by
  refine ⟨.inr ⟨a, hs, fun l => ?_⟩, .inl ⟨rfl, fun t => ?_⟩⟩
  · rcases o with _ | e | ⟨⟩
    · exact (congrFun (a.book_of_ne Ledger.put Ledger.take (by rw [ho]; nofun) hnot) l).symm
    · exact (congrFun (a.book_of_ne Ledger.put Ledger.take (by rw [ho]; nofun) hnot) l).symm
    · exact (congrFun (a.book_of_ok Ledger.put Ledger.take ho) l).symm
  · rcases o with _ | e | ⟨⟩ <;> rfl

/-- A wait at the event flag. -/
theorem Reacts.flag_of_look {f : EventFlag} {a : Channel.Act EventFlag.Op} {o : Option Waited}
    (hs : EventFlag.Step d.event a f) (ho : a.outcome? = o) (hnot : ∀ op, a ≠ .signal op) :
    Reacts d { d with event := f } (newsOf .tookFlag o) := by
  refine ⟨.inl ⟨rfl, fun l => ?_⟩, .inr ⟨a, hs, fun t => ?_⟩⟩
  · rcases o with _ | e | ⟨⟩ <;> rfl
  · rcases o with _ | e | ⟨⟩
    · exact (congrFun (a.book_of_ne FlagLedger.put FlagLedger.take (by rw [ho]; nofun) hnot) t).symm
    · exact (congrFun (a.book_of_ne FlagLedger.put FlagLedger.take (by rw [ho]; nofun) hnot) t).symm
    · exact (congrFun (a.book_of_ok FlagLedger.put FlagLedger.take ho) t).symm

end Device

end PeerBus
