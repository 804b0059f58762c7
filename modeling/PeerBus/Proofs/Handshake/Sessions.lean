/-
# `PeerBus.Proofs.Handshake.Sessions` — many sessions over one window

A session divides its window into cells, each of them one word:

    words 0 to 6          the fields of the control record (`Cell.field`)
    words 7 to 6 + k      the slots, of which there are `k` (`Cell.slot`)
    the rest              belongs to no cell

Every write through a session stores one word in one cell, or nothing if it is for a slot that does
not exist (`Session.after_of_within`, `Session.after_of_not_within`); what it stores there is read
from that cell, and from no other (`Memory.cell_setCell`).

Any number of sessions are opened over the same window, at any time, and are written through in any
order.  They have the same cells, since the window does not change its size; so all of them read the
same, which is the last word written to each cell (`wordAfter`).
-/
import PeerBus.Proofs.Window.Words
import PeerBus.Proofs.Doorbell
import PeerBus.Proofs.Run

namespace PeerBus

/-- Neither a word of zeros nor a marker publishes an id. -/
theorem Published.decode?_of_mem_markers :
    ∀ raw ∈ [0, Marker.start, Marker.ready, Marker.done], Published.decode? raw = none := by
  intro raw hraw
  simp only [List.mem_cons, List.not_mem_nil, or_false] at hraw
  rcases hraw with rfl | rfl | rfl | rfl <;> rfl

/-! ## Cells -/

/-- A word of a window that a session reads and writes on its own. -/
inductive Cell where
  | field (field : Field)
  | slot (index : Nat)
  deriving DecidableEq

namespace Cell

/-- The words in front of a cell. -/
def number : Cell → Nat
  | field f => f.index
  | slot index => 7 + index

/-- The address of a cell in the window. -/
def address (c : Cell) : Nat := 4 * c.number

/-- The cells of a session with so many slots. -/
def Within (slots : Nat) : Cell → Prop
  | field _ => True
  | slot index => index < slots

theorem number_injective {c c' : Cell} (h : c.number = c'.number) : c = c' := by
  cases c with
  | field f =>
      have hf := f.index_le
      cases c' with
      | field g => cases f <;> cases g <;> first | rfl | exact absurd h (by decide)
      | slot j =>
          simp only [number] at h
          omega
  | slot i =>
      cases c' with
      | field g =>
          have hg := g.index_le
          simp only [number] at h
          omega
      | slot j =>
          simp only [number] at h
          rw [show i = j by omega]

theorem address_add_le {slots : Nat} {c : Cell} (h : c.Within slots) :
    c.address + 4 ≤ 28 + 4 * slots := by
  cases c with
  | field f =>
      have hf := f.index_le
      simp only [address, number]
      omega
  | slot i =>
      have hi : i < slots := h
      simp only [address, number]
      omega

end Cell

namespace Memory

/-- The word in a cell. -/
def cell (m : Memory) (c : Cell) : UInt32 := m.word c.address

/-- Replaces the word in a cell. -/
def setCell (m : Memory) (c : Cell) (word : UInt32) : Memory := m.setWord c.address word

variable {m : Memory}

/-- A cell is read as it was written, and no other cell has changed. -/
theorem cell_setCell {c : Cell} (h : c.address + 4 ≤ m.bytes.size) (word : UInt32) (c' : Cell) :
    (m.setCell c word).cell c' = if c' = c then word else m.cell c' := by
  by_cases hc : c' = c
  · subst hc
    rw [if_pos rfl]
    exact word_setWord_self m word h
  · rw [if_neg hc]
    have hnumber : c'.number ≠ c.number := fun h => hc (Cell.number_injective h)
    refine word_setWord_of_disjoint m word ?_
    simp only [Cell.address]
    omega

theorem size_bytes_setCell (m : Memory) (c : Cell) (word : UInt32) :
    (m.setCell c word).bytes.size = m.bytes.size :=
  size_bytes_patch ..

/-- What belongs to no cell stays as it is. -/
theorem getElem?_setCell {slots : Nat} {c : Cell} (h : c.Within slots) (word : UInt32) {i : Nat}
    (hi : 28 + 4 * slots ≤ i) : (m.setCell c word).bytes[i]? = m.bytes[i]? := by
  have haddress := Cell.address_add_le h
  rw [setCell, getElem?_setWord, if_neg (by omega)]

/-- A cell holds the number of its four bytes, lowest first. -/
theorem toNat_cell {slots : Nat} {c : Cell} (h : c.Within slots)
    (hsize : 28 + 4 * slots ≤ m.bytes.size) :
    (m.cell c).toNat = littleEndian ((m.bytes.toList.drop c.address).take 4) := by
  have haddress := Cell.address_add_le h
  have hlt := m.size_lt
  have hoffset : (UInt64.ofNat c.address).toNat = c.address :=
    UInt64.toNat_ofNat_of_lt' (by omega)
  have hfits : (UInt64.ofNat c.address).toNat % 4 = 0 ∧
      (UInt64.ofNat c.address).toNat + 4 ≤ m.bytes.size := by
    rw [hoffset]
    refine ⟨?_, by omega⟩
    simp only [Cell.address]
    omega
  obtain ⟨value, hload, hvalue⟩ := load?_of_fits hfits
  rw [load?, wordAddress?_of_fits hfits, hoffset] at hload
  rw [readAt_eq, span_of_fits hfits, hoffset] at hvalue
  obtain rfl := Option.some.inj hload
  exact hvalue

end Memory

/-! ## One session -/

namespace Session

/-- Its window holds all slots of a session. -/
def Fits (s : Session) (m : Memory) : Prop := 28 + 4 * s.slots.toNat ≤ m.bytes.size

/-- What can be written through a session. -/
inductive Write where
  | set (field : Field) (word : UInt32)
  | publishServer (peer : PeerId)
  | publishClient (peer : PeerId)
  | requestShutdown
  | setSlot (index : UInt64) (word : UInt32)
  deriving DecidableEq

/-- The memory after a write. -/
def after (s : Session) (m : Memory) : Write → Memory
  | .set field word => m.setField field word
  | .publishServer peer => m.publishServer peer
  | .publishClient peer => m.publishClient peer
  | .requestShutdown => m.requestShutdown
  | .setSlot index word => (s.setSlot m index word).2

/-- The cell that a write is for. -/
def Write.cell : Write → Cell
  | .set field _ => .field field
  | .publishServer _ => .field .ivServer
  | .publishClient _ => .field .ivClient
  | .requestShutdown => .field .shutdown
  | .setSlot index _ => .slot index.toNat

/-- The word that a write stores. -/
def Write.word : Write → UInt32
  | .set _ word => word
  | .publishServer peer => Published.encode peer
  | .publishClient peer => Published.encode peer
  | .requestShutdown => 1
  | .setSlot _ word => word

variable {s : Session} {m : Memory} {index : UInt64}

theorem slotOffset?_of_lt (h : s.Fits m) (hindex : index.toNat < s.slots.toNat) :
    ∃ offset, s.slotOffset? index = some offset ∧ offset.toNat = 28 + 4 * index.toNat := by
  have hlt := m.size_lt
  have hroom : 28 + 4 * s.slots.toNat ≤ m.bytes.size := h
  obtain ⟨offset, hoffset, hexact⟩ := Layout.exists_slotOffset index (by omega)
  refine ⟨offset, ?_, hexact⟩
  rw [slotOffset?, if_pos (UInt64.lt_iff_toNat_lt.mpr hindex), hoffset]
  rfl

theorem slotOffset?_of_le (hindex : s.slots.toNat ≤ index.toNat) : s.slotOffset? index = none := by
  rw [slotOffset?, if_neg (fun h => Nat.not_lt.mpr hindex (UInt64.lt_iff_toNat_lt.mp h))]

/-- The address of a slot is that of its cell. -/
theorem slotAddress?_of_lt (h : s.Fits m) (hindex : index.toNat < s.slots.toNat) :
    s.slotAddress? m index = some (Cell.slot index.toNat).address := by
  obtain ⟨offset, hoffset, hexact⟩ := slotOffset?_of_lt h hindex
  have hroom : 28 + 4 * s.slots.toNat ≤ m.bytes.size := h
  have hfits : offset.toNat % 4 = 0 ∧ offset.toNat + 4 ≤ m.bytes.size := by omega
  rw [slotAddress?, hoffset, Option.bind_some, Memory.wordAddress?_of_fits hfits, hexact]
  simp only [Cell.address, Cell.number]
  congr 1
  omega

theorem slotAddress?_of_le (hindex : s.slots.toNat ≤ index.toNat) (m : Memory) :
    s.slotAddress? m index = none := by
  rw [slotAddress?, slotOffset?_of_le hindex]
  rfl

theorem slot?_of_lt (h : s.Fits m) (hindex : index.toNat < s.slots.toNat) :
    s.slot? m index = some (m.cell (.slot index.toNat)) := by
  rw [slot?, slotAddress?_of_lt h hindex]
  rfl

theorem slot?_of_le (hindex : s.slots.toNat ≤ index.toNat) (m : Memory) :
    s.slot? m index = none := by
  rw [slot?, slotAddress?_of_le hindex]
  rfl

theorem setSlot_of_lt (h : s.Fits m) (hindex : index.toNat < s.slots.toNat) (word : UInt32) :
    s.setSlot m index word = (true, m.setCell (.slot index.toNat) word) := by
  rw [setSlot, slotAddress?_of_lt h hindex]
  rfl

theorem setSlot_of_le (hindex : s.slots.toNat ≤ index.toNat) (m : Memory) (word : UInt32) :
    s.setSlot m index word = (false, m) := by
  rw [setSlot, slotAddress?_of_le hindex]

/-- A write to a cell of the session stores its word there. -/
theorem after_of_within (h : s.Fits m) {w : Write} (hw : w.cell.Within s.slots.toNat) :
    s.after m w = m.setCell w.cell w.word := by
  have hroom : 28 + 4 * s.slots.toNat ≤ m.bytes.size := h
  have hrecord : 28 ≤ m.bytes.size := by omega
  cases w with
  | set | publishServer | publishClient | requestShutdown => exact Memory.setField_eq hrecord _ _
  | setSlot index word => exact congrArg Prod.snd (setSlot_of_lt h hw word)

/-- A write to a slot that does not exist does nothing. -/
theorem after_of_not_within {w : Write} (hw : ¬w.cell.Within s.slots.toNat) (m : Memory) :
    s.after m w = m := by
  cases w with
  | set | publishServer | publishClient | requestShutdown => exact absurd trivial hw
  | setSlot index word => exact congrArg Prod.snd (setSlot_of_le (Nat.not_lt.mp hw) m word)

/-! ## Histories -/

/-- A machine, and the sessions that were opened over one of its windows. -/
structure Desk where
  machine : Machine
  sessions : List Session

/-- What can happen to a window and its sessions. -/
inductive Act where
  | opened
  /-- Something is written through the session with this number. -/
  | write (number : Nat) (write : Write)
  | others
  deriving DecidableEq

/-- What an act makes of them. -/
inductive Step (r : Ref .region) : Desk → Act → Desk → Prop
  | opened {m : Machine} {sessions : List Session} {s : Session}
      (hs : Session.open? r (m.regions.get r).size = .ok s) :
      Step r ⟨m, sessions⟩ .opened ⟨m, sessions ++ [s]⟩
  | write {m : Machine} {sessions : List Session} {number : Nat} {s : Session} {w : Write}
      (hs : sessions[number]? = some s) :
      Step r ⟨m, sessions⟩ (.write number w)
        ⟨m.modifyRegion s.region fun memory => s.after memory w, sessions⟩
  | others {m m' : Machine} {sessions : List Session}
      (h : m.regions.Has r → m'.regions.Has r ∧ m'.regions.get r = m.regions.get r) :
      Step r ⟨m, sessions⟩ .others ⟨m', sessions⟩

/-- The word that an act stores in a cell, if it is for that cell. -/
def Act.word? (c : Cell) : Act → Option UInt32
  | .write _ w => if w.cell = c then some w.word else none
  | .opened | .others => none

/-- The last word that is stored in a cell, if one is. -/
def lastWord? (c : Cell) (acts : List Act) : Option UInt32 :=
  acts.reverse.findSome? (Act.word? c)

/-- The word in a cell after some acts: the last one stored there, or else the one before. -/
def wordAfter (memory : Memory) (acts : List Act) (c : Cell) : UInt32 :=
  (lastWord? c acts).getD (memory.cell c)

theorem lastWord?_snoc (c : Cell) (acts : List Act) (a : Act) :
    lastWord? c (acts ++ [a]) = (a.word? c).or (lastWord? c acts) := by
  unfold lastWord?
  rw [List.reverse_append, List.reverse_singleton, List.singleton_append, List.findSome?_cons]
  cases a.word? c <;> rfl

theorem wordAfter_snoc (memory : Memory) (acts : List Act) (a : Act) (c : Cell) :
    wordAfter memory (acts ++ [a]) c = (a.word? c).getD (wordAfter memory acts c) := by
  rw [wordAfter, lastWord?_snoc, Option.getD_or, wordAfter]

/-- All sessions are over the window, whose cells hold the last words written, and whose rest is as
it was. -/
structure Sound (r : Ref .region) (memory : Memory) (acts : List Act) (now : Desk) : Prop where
  has : now.machine.regions.Has r
  size : (now.machine.regions.get r).bytes.size = memory.bytes.size
  sessions : ∀ s ∈ now.sessions, Session.open? r memory.size = .ok s
  cell : ∀ c, c.Within (Layout.slotCount memory.size).toNat →
    (now.machine.regions.get r).cell c = wordAfter memory acts c
  beyond : ∀ i, 28 + 4 * (Layout.slotCount memory.size).toNat ≤ i →
    (now.machine.regions.get r).bytes[i]? = memory.bytes[i]?

namespace Sound

variable {r : Ref .region} {memory : Memory} {acts : List Act} {now next : Desk}

/-- An act that leaves the window alone. -/
theorem stay (h : Sound r memory acts now) {a : Act} (ha : ∀ c, a.word? c = none)
    (hhas : next.machine.regions.Has r)
    (hget : next.machine.regions.get r = now.machine.regions.get r)
    (hsessions : ∀ s ∈ next.sessions, Session.open? r memory.size = .ok s) :
    Sound r memory (acts ++ [a]) next where
  has := hhas
  size := by rw [hget, h.size]
  sessions := hsessions
  cell c hc := by rw [hget, h.cell c hc, wordAfter_snoc, ha, Option.getD_none]
  beyond i hi := by rw [hget, h.beyond i hi]

/-- A session that was opened is over the window as it is now. -/
theorem fits (h : Sound r memory acts now) {s : Session} (hs : s ∈ now.sessions) :
    s.region = r ∧ s.slots = Layout.slotCount memory.size ∧
      s.Fits (now.machine.regions.get r) := by
  have hopen := h.sessions s hs
  obtain ⟨hregion, -, hfits⟩ := Session.of_open hopen
  obtain ⟨rfl, -⟩ := open?_eq_ok_iff.mp hopen
  refine ⟨hregion, rfl, ?_⟩
  rw [Memory.toNat_size] at hfits
  rw [Fits, h.size]
  exact hfits

theorem write {m : Machine} {sessions : List Session} (h : Sound r memory acts ⟨m, sessions⟩)
    {number : Nat} {s : Session} (hs : sessions[number]? = some s) (w : Write) :
    Sound r memory (acts ++ [.write number w])
      ⟨m.modifyRegion s.region fun memory => s.after memory w, sessions⟩ := by
  obtain ⟨hregion, hslots, hfits⟩ := h.fits (List.mem_of_getElem? hs)
  have hfits' : 28 + 4 * s.slots.toNat ≤ (m.regions.get r).bytes.size := hfits
  have hhas : (m.modifyRegion s.region fun memory => s.after memory w).regions.Has r :=
    (Table.has_modify ..).mpr h.has
  have hget : (m.modifyRegion s.region fun memory => s.after memory w).regions.get r =
      s.after (m.regions.get r) w := by
    rw [hregion]
    exact Table.get_modify_self h.has _
  have hword (c : Cell) : wordAfter memory (acts ++ [.write number w]) c =
      if c = w.cell then w.word else wordAfter memory acts c := by
    rw [wordAfter_snoc, Act.word?]
    by_cases hc : w.cell = c
    · rw [if_pos hc, if_pos hc.symm, Option.getD_some]
    · rw [if_neg hc, if_neg (Ne.symm hc), Option.getD_none]
  by_cases hw : w.cell.Within s.slots.toNat
  · have haddress := Cell.address_add_le hw
    have hroom : w.cell.address + 4 ≤ (m.regions.get r).bytes.size := by omega
    rw [after_of_within hfits hw] at hget
    refine ⟨hhas, ?_, h.sessions, ?_, ?_⟩
    · rw [hget, Memory.size_bytes_setCell]
      exact h.size
    · intro c hc
      rw [hget, Memory.cell_setCell hroom, hword, h.cell c hc]
    · intro i hi
      rw [hget, Memory.getElem?_setCell hw _ (by rwa [hslots])]
      exact h.beyond i hi
  · rw [after_of_not_within hw] at hget
    refine ⟨hhas, ?_, h.sessions, ?_, ?_⟩
    · rw [hget]
      exact h.size
    · intro c hc
      have hother : c ≠ w.cell := by
        rintro rfl
        exact hw (hslots ▸ hc)
      rw [hget, hword, if_neg hother]
      exact h.cell c hc
    · intro i hi
      rw [hget]
      exact h.beyond i hi

theorem step (h : Sound r memory acts now) {a : Act} (hs : Step r now a next) :
    Sound r memory (acts ++ [a]) next := by
  cases hs with
  | @opened m sessions s hopen =>
      have hsize : (m.regions.get r).size = memory.size := congrArg UInt64.ofNat h.size
      refine h.stay (fun _ => rfl) h.has rfl ?_
      intro s hs
      rcases List.mem_append.mp hs with hs | hs
      · exact h.sessions s hs
      · obtain rfl := List.mem_singleton.mp hs
        rw [← hsize]
        exact hopen
  | write hs => exact h.write hs _
  | others hsame =>
      obtain ⟨hhas, hget⟩ := hsame h.has
      exact h.stay (fun _ => rfl) hhas hget h.sessions

theorem of_run {first : Desk} (h : Run (Step r) first acts now) (hfirst : Sound r memory [] first) :
    Sound r memory acts now := by
  induction h with
  | nil => exact hfirst
  | snoc _ hs ih => exact ih.step hs

end Sound

/-- **All sessions over a window read the last words written.**  Let sessions be opened over a window
and written through, any number of them in any order, and let `k` be the slots that a window of this
size has.  Then each session has these `k` slots, and finds in each cell the last word that was
stored there through any of them, or else the one that was there at first, lowest byte first.  The
fields always lie inside the window.  A slot is there, with its offset, just if its index is less
than `k`; a write to any other is refused and changes nothing.  Of the bytes behind the last slot
none has changed.  An id is read just if its field holds the word that publishes it, which neither
zero nor a marker is; and what is read of the markers hangs on their own fields alone. -/
theorem sessions_agree {m : Machine} {r : Ref .region} (hr : m.regions.Has r) {acts : List Act}
    {now : Desk} (h : Run (Step r) ⟨m, []⟩ acts now) :
    let before := m.regions.get r
    let after := now.machine.regions.get r
    let k := (Layout.slotCount before.size).toNat
    let found := wordAfter before acts
    after.bytes.size = before.bytes.size ∧
    (∀ i, 28 + 4 * k ≤ i → after.bytes[i]? = before.bytes[i]?) ∧
    ∀ s ∈ now.sessions, s.region = r ∧ s.slots.toNat = k ∧
      (∀ c, c.Within k → (before.cell c).toNat =
        littleEndian ((before.bytes.toList.drop c.address).take 4)) ∧
      (∀ f, after.field f = found (.field f) ∧ after.load? f.offset = some (found (.field f)) ∧
        ∀ word, after.store f.offset word = (true, after.setField f word)) ∧
      (∀ i : UInt64, i.toNat < k →
        (∃ offset, s.slotOffset? i = some offset ∧ offset.toNat = 28 + 4 * i.toNat) ∧
        s.slot? after i = some (found (.slot i.toNat)) ∧
        ∀ word, (s.setSlot after i word).1 = true) ∧
      (∀ i : UInt64, k ≤ i.toNat → s.slotOffset? i = none ∧ s.slot? after i = none ∧
        ∀ word, s.setSlot after i word = (false, after)) ∧
      (∀ p, (after.server? = some p ↔ found (.field .ivServer) = Published.encode p) ∧
        (after.client? = some p ↔ found (.field .ivClient) = Published.encode p)) ∧
      (∀ raw ∈ [0, Marker.start, Marker.ready, Marker.done], Published.decode? raw = none) ∧
      (after.isReady = true ↔ found (.field .ready) = Marker.ready) ∧
      (after.isStarted = true ↔ found (.field .start) = Marker.start) ∧
      (after.isDone = true ↔ found (.field .done) = Marker.done) ∧
      (after.isShutdown = true ↔ found (.field .shutdown) ≠ 0) := by
  intro before after k found
  have hfirst : Sound r before [] ⟨m, []⟩ :=
    { has := hr
      size := rfl
      sessions := fun s hs => absurd hs List.not_mem_nil
      cell := fun _ _ => rfl
      beyond := fun _ _ => rfl }
  have hnow := Sound.of_run h hfirst
  refine ⟨hnow.size, hnow.beyond, ?_⟩
  intro s hs
  obtain ⟨hregion, hslots, hfits⟩ := hnow.fits hs
  have hk : s.slots.toNat = k := congrArg UInt64.toNat hslots
  have hroom : 28 + 4 * s.slots.toNat ≤ after.bytes.size := hfits
  have hsize : after.bytes.size = before.bytes.size := hnow.size
  have hrecord : 28 ≤ after.bytes.size := by omega
  have hfield (f : Field) : after.field f = found (.field f) :=
    (Memory.field_eq hrecord f).trans (hnow.cell (.field f) trivial)
  have haddress (f : Field) : after.wordAddress? f.offset = some (4 * f.index) :=
    Memory.wordAddress?_field hrecord f
  refine ⟨hregion, hk, ?_, ?_, ?_, ?_, ?_, Published.decode?_of_mem_markers, ?_, ?_, ?_, ?_⟩
  · intro c hc
    exact Memory.toNat_cell hc (by omega)
  · intro f
    refine ⟨hfield f, ?_, ?_⟩
    · rw [← hfield, Memory.field_eq hrecord, Memory.load?, haddress]
      rfl
    · intro word
      rw [Memory.setField, Memory.store, haddress]
  · intro i hi
    rw [← hk] at hi
    refine ⟨slotOffset?_of_lt hfits hi, ?_, ?_⟩
    · rw [slot?_of_lt hfits hi]
      exact congrArg some (hnow.cell (.slot i.toNat) (hslots ▸ hi))
    · intro word
      rw [setSlot_of_lt hfits hi]
  · intro i hi
    rw [← hk] at hi
    exact ⟨slotOffset?_of_le hi, slot?_of_le hi after, setSlot_of_le hi after⟩
  · intro p
    rw [Memory.server?, Memory.client?, hfield, hfield]
    exact ⟨Published.decode?_eq_some_iff, Published.decode?_eq_some_iff⟩
  · rw [Memory.isReady, hfield, decide_eq_true_iff]
  · rw [Memory.isStarted, hfield, decide_eq_true_iff]
  · rw [Memory.isDone, hfield, decide_eq_true_iff]
  · rw [Memory.isShutdown, hfield, decide_eq_true_iff]

/-- A window of four slots, and three bytes behind them. -/
def fourSlots : Machine := (Machine.addRegion {} 47).1

/-- The first session has no slot 4; the second one publishes the largest id, and asks for a
round. -/
def twoSessions : List Act :=
  [.opened, .write 0 (.setSlot 3 7), .opened, .write 1 (.publishServer ⟨65535⟩),
    .write 0 (.setSlot 4 9), .write 1 (.set .start Marker.start), .write 1 (.setSlot 3 8)]

theorem sessions_agree_two :
    fourSlots.regions.Has ⟨0⟩ ∧ ∃ m,
      Run (Step ⟨0⟩) ⟨fourSlots, []⟩ twoSessions ⟨m, [⟨⟨0⟩, 4⟩, ⟨⟨0⟩, 4⟩]⟩ ∧
      (⟨⟨0⟩, 4⟩ : Session).slot? (m.regions.get ⟨0⟩) 3 = some 8 ∧
      (⟨⟨0⟩, 4⟩ : Session).slot? (m.regions.get ⟨0⟩) 4 = none ∧
      (m.regions.get ⟨0⟩).server? = some ⟨65535⟩ ∧ (m.regions.get ⟨0⟩).isStarted = true := by
  have hr : fourSlots.regions.Has ⟨0⟩ := by decide
  let s : Session := ⟨⟨0⟩, 4⟩
  let m₁ : Machine := fourSlots.modifyRegion ⟨0⟩ fun memory => s.after memory (.setSlot 3 7)
  let m₂ : Machine := m₁.modifyRegion ⟨0⟩ fun memory => s.after memory (.publishServer ⟨65535⟩)
  let m₃ : Machine := m₂.modifyRegion ⟨0⟩ fun memory => s.after memory (.setSlot 4 9)
  let m₄ : Machine := m₃.modifyRegion ⟨0⟩ fun memory => s.after memory (.set .start Marker.start)
  let m₅ : Machine := m₄.modifyRegion ⟨0⟩ fun memory => s.after memory (.setSlot 3 8)
  have hsize : (m₁.regions.get ⟨0⟩).size = 47 := by decide
  have hopened : Session.open? ⟨0⟩ (m₁.regions.get ⟨0⟩).size = .ok s := by
    rw [hsize]
    rfl
  have hfront : Run (Step ⟨0⟩) ⟨fourSlots, []⟩ [.opened, .write 0 (.setSlot 3 7), .opened]
      ⟨m₁, [s, s]⟩ :=
    .snoc (.snoc (.single (.opened (s := s) rfl)) (.write (s := s) rfl)) (.opened hopened)
  have hrun : Run (Step ⟨0⟩) ⟨fourSlots, []⟩ twoSessions ⟨m₅, [s, s]⟩ :=
    .snoc (.snoc (.snoc (.snoc hfront (.write (s := s) rfl)) (.write (s := s) rfl))
      (.write (s := s) rfl)) (.write (s := s) rfl)
  obtain ⟨-, -, hsessions⟩ := sessions_agree hr hrun
  obtain ⟨-, -, -, -, hslots, hnone, hids, -, -, hstarted, -⟩ := hsessions s List.mem_cons_self
  refine ⟨hr, m₅, hrun, ?_, (hnone 4 (by decide)).2.1, (hids ⟨65535⟩).1.mpr (by decide),
    hstarted.mpr (by decide)⟩
  have hlast : wordAfter (fourSlots.regions.get ⟨0⟩) twoSessions (.slot 3) = 8 := by decide
  exact (hslots 3 (by decide)).2.1.trans (congrArg some hlast)

end Session

end PeerBus
