/-
# `PeerBus.Proofs.Wait.Ledger` — units are neither lost nor made

A `Ledger` keeps the books of a semaphore since it was armed last.

    act                              count                      ledger
    arm c                            becomes c                  is opened anew, with c
    up                               one more, unless full      one unit more put in
    a look that ends well            one less                   one unit more taken
    any other look, and all else     as it was                  as it was

A look takes a unit in one of two places: when the call finds one in its turn, and, after the
deadline of the call has passed, when it looks for the last time.  Either way the look ends well,
and no other look changes the count (`Channel.Step.takes`).  So the books balance as long as no
unit was put into a full semaphore, and a full one only ever holds less (`Ledger.Balances`).
-/
import PeerBus.Proofs.Wait.Run

namespace PeerBus

/-! ## What a look takes -/

/-- A look takes the signal that it ends well with, and leaves it alone if it ends otherwise. -/
inductive Signal.Takes {σ : Type} [Signal σ] (s : σ) : Option Waited → σ → Prop
  | took (hr : Signal.ready s = true) : Takes s (some (.ok ())) (Signal.take s)
  | left {o : Option Waited} (ho : o ≠ some (.ok ())) : Takes s o s

theorem Signal.Takes.of_ok {σ : Type} [Signal σ] {s s' : σ}
    (h : Signal.Takes s (some (.ok ())) s') : Signal.ready s = true ∧ s' = Signal.take s := by
  cases h with
  | took hr => exact ⟨hr, rfl⟩
  | left hne => exact absurd rfl hne

theorem Signal.Takes.of_ne {σ : Type} [Signal σ] {s s' : σ} {o : Option Waited}
    (h : Signal.Takes s o s') (hne : o ≠ some (.ok ())) : s' = s := by
  cases h with
  | took => exact absurd rfl hne
  | left => rfl

theorem Gate.Looked.takes {σ : Type} [Signal σ] {g g' : Gate σ} {epoch : UInt64}
    {o : Option Waited} (h : Looked g epoch g' o) : Signal.Takes g.signal o g'.signal := by
  cases h with
  | took _ hr => exact .took hr
  | closed | cancelled | consumed | parked => exact .left nofun

namespace Channel

variable {σ κ : Type}

/-- The outcome of an act that is a look, if it has one. -/
def Act.outcome? : Act κ → Option Waited
  | .enter _ o | .resume _ o => o
  | .stir _ | .lapse _ | .interrupt | .close | .signal _ => none

/-- Books after an act, given what signalling puts in and what a look that ends well takes. -/
def Act.book {β : Type} (put : κ → β → β) (take : β → β) : Act κ → β → β
  | .signal op => put op
  | .enter _ (some (.ok ())) | .resume _ (some (.ok ())) => take
  | _ => id

section Book

variable {β : Type} (put : κ → β → β) (take : β → β) {a : Act κ}

theorem Act.book_of_ok (h : a.outcome? = some (.ok ())) : a.book put take = take := by
  cases a with
  | enter call o | resume call o =>
      obtain rfl : o = some (.ok ()) := h
      rfl
  | stir | lapse | interrupt | close | signal => exact nomatch h

theorem Act.book_of_ne (h : a.outcome? ≠ some (.ok ())) (hnot : ∀ op, a ≠ .signal op) :
    a.book put take = id := by
  cases a with
  | enter call o | resume call o =>
      rcases o with _ | e | ⟨⟩
      · rfl
      · rfl
      · exact absurd rfl h
  | stir | lapse | interrupt | close => rfl
  | signal op => exact absurd rfl (hnot op)

end Book

variable [Signal σ] {c d : Channel σ}

theorem Entered.takes {call : CallId} {o : Option Waited} (h : Entered c call d o) :
    Signal.Takes c.gate.signal o d.gate.signal := by
  cases h with
  | looked hl | slept hl => exact hl.takes

theorem Resumed.takes {p : Parked} {o : Option Waited} (h : Resumed c p d o) :
    Signal.Takes c.gate.signal o d.gate.signal := by
  cases h with
  | looked _ hl | slept _ hl => exact hl.takes
  | late _ hr _ => exact .took hr
  | timedOut => exact .left nofun

/-- Only signalling apart, an act changes the signal if it is a look that ends well, and then it
takes what is there. -/
theorem Step.takes {own : Channel σ → κ → Channel σ → Prop} {a : Act κ} (ho : c.Orderly)
    (hs : Step own c a d) (hnot : ∀ op, a ≠ .signal op) :
    Signal.Takes c.gate.signal a.outcome? d.gate.signal := by
  cases hs with
  | enter new => exact (c.enter_cases _).takes
  | resume up => exact (ho.resume_cases up).takes
  | stir call => exact .left nofun
  | lapse call => exact .left nofun
  | close => exact .left nofun
  | signal => exact absurd rfl (hnot _)
  | interrupt =>
      have hsame : c.interrupt.gate.signal = c.gate.signal := by
        show c.gate.interrupt.signal = _
        unfold Gate.interrupt
        split <;> rfl
      rw [hsame]
      exact .left nofun

end Channel

/-! ## The books of a semaphore -/

/-- What was put into a semaphore and what was taken from it since it was armed last. -/
structure Ledger where
  /-- What it was armed with. -/
  armed : UInt32 := 0
  /-- The units put in by `up`. -/
  ups : Nat := 0
  /-- The units taken by `down`. -/
  downs : Nat := 0
  deriving DecidableEq

namespace Ledger

/-- Everything put in. -/
def supply (l : Ledger) : Nat := l.armed.toNat + l.ups

def put : Semaphore.Op → Ledger → Ledger
  | .arm count, _ => { armed := count }
  | .up _, l => { l with ups := l.ups + 1 }

def take (l : Ledger) : Ledger := { l with downs := l.downs + 1 }

def book (l : Ledger) (a : Channel.Act Semaphore.Op) : Ledger := a.book put take l

/-- The books after a run of a new semaphore. -/
def after (acts : List (Channel.Act Semaphore.Op)) : Ledger := acts.foldl book {}

/-- Nothing is held that was not put in, and nothing is lost that the count could hold. -/
structure Balances (l : Ledger) (count : UInt32) : Prop where
  le : count.toNat + l.downs ≤ l.supply
  eq : l.supply < UInt32.size → count.toNat + l.downs = l.supply

variable {l : Ledger} {count : UInt32}

theorem balances_empty : Balances {} 0 := ⟨Nat.le_refl _, fun _ => rfl⟩

theorem balances_arm (count : UInt32) : Balances { armed := count } count :=
  ⟨Nat.le_refl _, fun _ => rfl⟩

theorem Balances.up (h : l.Balances count) :
    Balances { l with ups := l.ups + 1 } (Word.saturatingSucc count) := by
  have hle := h.le
  have heq := h.eq
  have hsize : UInt32.size = 4294967296 := rfl
  refine ⟨?_, fun hfits => ?_⟩
  · rw [Word.toNat_saturatingSucc]
    show _ + l.downs ≤ l.armed.toNat + (l.ups + 1)
    unfold supply at hle
    omega
  · rw [Word.toNat_saturatingSucc]
    show _ + l.downs = l.armed.toNat + (l.ups + 1)
    have hfits : l.armed.toNat + (l.ups + 1) < UInt32.size := hfits
    unfold supply at hle heq
    omega

end Ledger

namespace Semaphore

/-- Taking a unit leaves one less; there was one to take. -/
theorem toNat_take {u : Units} (h : Signal.ready u = true) :
    (Signal.take u).count.toNat + 1 = u.count.toNat := by
  have hne : u.count ≠ 0 := by simpa [Signal.ready] using h
  have hpos : 1 ≤ u.count.toNat :=
    Nat.one_le_iff_ne_zero.mpr fun e => hne (UInt32.toNat_inj.mp e)
  have hle : (1 : UInt32) ≤ u.count := UInt32.le_iff_toNat_le.mpr hpos
  show (u.count - 1).toNat + 1 = _
  rw [UInt32.toNat_sub_of_le _ _ hle]
  exact Nat.sub_add_cancel hpos

theorem Own.count_up {s t : Semaphore} {target : Option CallId} (h : Own s (.up target) t) :
    t.count = Word.saturatingSucc s.count := by
  cases h with
  | up _ => cases target <;> rfl

theorem Own.count_arm {s t : Semaphore} {count : UInt32} (h : Own s (.arm count) t) :
    t.count = count := by
  cases h with
  | arm => rfl

end Semaphore

namespace Ledger

variable {l : Ledger} {a : Channel.Act Semaphore.Op}

theorem Balances.takes {u u' : Units} (h : l.Balances u.count) (hnot : ∀ op, a ≠ .signal op)
    (ht : Signal.Takes u a.outcome? u') : (l.book a).Balances u'.count := by
  by_cases hok : a.outcome? = some (.ok ())
  · rw [hok] at ht
    obtain ⟨hready, rfl⟩ := ht.of_ok
    have htake := Semaphore.toNat_take hready
    have hle := h.le
    have heq := h.eq
    rw [book, a.book_of_ok put take hok]
    refine ⟨?_, fun hfits => ?_⟩
    · show _ + (l.downs + 1) ≤ l.supply
      omega
    · have heq := heq hfits
      show _ + (l.downs + 1) = l.supply
      omega
  · rw [book, a.book_of_ne put take hok hnot, ht.of_ne hok]
    exact h

/-- Every act leaves the books in balance. -/
theorem Balances.step {s t : Semaphore} (h : l.Balances s.count) (ho : s.Orderly)
    (hs : Semaphore.Step s a t) : (l.book a).Balances t.count := by
  by_cases hsignal : ∃ op, a = .signal op
  · obtain ⟨op, rfl⟩ := hsignal
    cases hs with
    | signal hop =>
      cases op with
      | up target => exact hop.count_up ▸ h.up
      | arm count => exact hop.count_arm ▸ balances_arm count
  · have hnot : ∀ op, a ≠ .signal op := fun op e => hsignal ⟨op, e⟩
    exact h.takes hnot (Channel.Step.takes ho hs hnot)

/-- The books of a new semaphore balance after every run. -/
theorem balances_of_run {acts : List (Channel.Act Semaphore.Op)} {s : Semaphore}
    (h : Run Semaphore.Step default acts s) : s.Orderly ∧ (after acts).Balances s.count := by
  induction h with
  | nil => exact ⟨Channel.orderly_default, balances_empty⟩
  | snoc _ hs ih =>
      obtain ⟨ho, hl⟩ := ih
      refine ⟨hs.orderly Semaphore.onlySignals_own ho, ?_⟩
      rw [after, List.foldl_append]
      exact hl.step ho hs

end Ledger

/-- **Units are conserved.**  After any run of a new semaphore, the units that it holds and those
that were taken since it was armed last are as many as were put in, unless more were put in than a
count can hold; in no case are they more.  Act by act: a wait that ends well takes one unit, which
was there; a wait that ends otherwise, like all that is neither `up` nor `arm`, leaves the count
alone; and `up` adds one unit to a count that is not full. -/
theorem units_conserved {acts : List (Channel.Act Semaphore.Op)} {s : Semaphore}
    (h : Run Semaphore.Step default acts s) :
    let l := Ledger.after acts
    (l.armed.toNat + l.ups ≤ UInt32.size - 1 → s.count.toNat + l.downs = l.armed.toNat + l.ups) ∧
    s.count.toNat + l.downs ≤ l.armed.toNat + l.ups ∧
    s.count.toNat ≤ UInt32.size - 1 ∧
    ∀ {a : Channel.Act Semaphore.Op} {t : Semaphore}, Semaphore.Step s a t →
      (a.outcome? = some (.ok ()) → t.count.toNat + 1 = s.count.toNat) ∧
      (a.outcome? ≠ some (.ok ()) → (∀ op, a ≠ .signal op) → t.count = s.count) ∧
      (∀ target, a = .signal (.up target) →
        t.count.toNat = min (s.count.toNat + 1) (UInt32.size - 1)) ∧
      (∀ count, a = .signal (.arm count) → t.count = count) := by
  intro l
  obtain ⟨ho, hl⟩ := Ledger.balances_of_run h
  have hle : s.count.toNat ≤ UInt32.size - 1 := Nat.le_sub_one_of_lt s.count.toNat_lt_size
  refine ⟨fun hfits => hl.eq (Nat.lt_of_le_of_lt hfits (by decide)), hl.le, hle,
    fun {a t} hs => ⟨fun hok => ?_, fun hne hnot => ?_, ?_, ?_⟩⟩
  · have hnot : ∀ op, a ≠ .signal op := by
      rintro op rfl
      exact nomatch hok
    have htakes := Channel.Step.takes ho hs hnot
    rw [hok] at htakes
    obtain ⟨hready, htake⟩ := htakes.of_ok
    rw [Semaphore.count, htake]
    exact Semaphore.toNat_take hready
  · exact congrArg Units.count ((Channel.Step.takes ho hs hnot).of_ne hne)
  · rintro target rfl
    cases hs with
    | signal hop =>
      rw [hop.count_up]
      exact Word.toNat_saturatingSucc s.count
  · rintro count rfl
    cases hs with
    | signal hop => exact hop.count_arm

/-- One unit to begin with and one that comes after the deadline of a sleeping call has passed: two
calls take them, and nothing is left. -/
theorem units_conserved_late_look :
    ∃ (acts : List (Channel.Act Semaphore.Op)) (s : Semaphore),
      Run Semaphore.Step default acts s ∧ Ledger.after acts = ⟨1, 1, 2⟩ ∧
      s.count.toNat + 2 = 1 + 1 := by
  have hrun : Run Semaphore.Step default
      [.signal (.arm 1), .enter ⟨0⟩ (some (.ok ())), .enter ⟨1⟩ none, .lapse ⟨1⟩,
        .signal (.up none), .resume ⟨1⟩ (some (.ok ()))]
      (Channel.resume (Semaphore.upWaking (Channel.expire
        ((Channel.enter ((Channel.enter (Semaphore.arm default 1) ⟨0⟩).1 : Semaphore) ⟨1⟩).1)
          ⟨1⟩) none) ⟨1⟩).1 :=
    .snoc (.snoc (.snoc (.snoc (.snoc (.snoc .nil (.signal (.arm _ 1))) (.enter rfl)) (.enter rfl))
      (.lapse _ _)) (.signal (.up rfl))) (.resume (p := ⟨⟨1⟩, 0, .expired⟩) List.mem_cons_self)
  exact ⟨_, _, hrun, rfl, (units_conserved hrun).1 (by decide)⟩

end PeerBus
