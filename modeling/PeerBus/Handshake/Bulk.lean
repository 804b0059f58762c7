/-
# `PeerBus.Handshake.Bulk` — passes over the slots

A pass walks along the slots by address.  A fill leaves the pattern of its seed in every slot; a
check stops at the first slot that does not hold it.
-/
import PeerBus.Handshake.Session

namespace PeerBus

namespace Memory

/-- The word at the address of a slot. -/
def slotWord (m : Memory) (index : Nat) : UInt32 := m.word (Layout.slotAddress index)

/-- Writes the word at the address of a slot. -/
def setSlotWord (m : Memory) (index : Nat) (value : UInt32) : Memory :=
  m.setWord (Layout.slotAddress index) value

/-- Fills `count` slots from `index` on. -/
def fillFrom (seed : UInt32) : Nat → Nat → Memory → Memory
  | 0, _, m => m
  | count + 1, index, m =>
      fillFrom seed count (index + 1) (m.setSlotWord index (Layout.pattern index seed))

/-- Fills the first `slots` slots. -/
def fill (m : Memory) (slots : Nat) (seed : UInt32) : Memory := fillFrom seed slots 0 m

/-- The word of a slot beside the word of the round, if they differ. -/
def mismatchAt? (m : Memory) (seed : UInt32) (index : Nat) : Option Mismatch :=
  let found := m.slotWord index
  let expected := Layout.pattern index seed
  if found = expected then none else some ⟨index, expected, found⟩

/-- Checks `count` slots from `index` on: the first that is wrong. -/
def checkFrom (m : Memory) (seed : UInt32) : Nat → Nat → Option Mismatch
  | 0, _ => none
  | count + 1, index =>
      match m.mismatchAt? seed index with
      | some wrong => some wrong
      | none => checkFrom m seed count (index + 1)

/-- Checks the first `slots` slots. -/
def check (m : Memory) (slots : Nat) (seed : UInt32) : Option Mismatch :=
  m.checkFrom seed slots 0

/-- Where a fill leaves the pattern, and what it leaves alone. -/
theorem getElem?_fillFrom (seed : UInt32) (count index : Nat) (m : Memory) (i : Nat) :
    (fillFrom seed count index m).bytes[i]? =
      if 28 + 4 * index ≤ i ∧ i < 28 + 4 * (index + count) ∧ i < m.bytes.size then
        (wordBytes (Layout.pattern ((i - 28) / 4) seed))[(i - 28) % 4]?
      else m.bytes[i]? := by
  induction count generalizing index m with
  | zero =>
    rw [if_neg (by omega)]
    rfl
  | succ count ih =>
    rw [fillFrom, ih, setSlotWord, Layout.slotAddress_eq, getElem?_setWord, setWord,
      size_bytes_patch]
    by_cases hs : i < m.bytes.size
    · by_cases hlo : 28 + 4 * (index + 1) ≤ i
      · by_cases hhi : i < 28 + 4 * (index + 1 + count)
        · rw [if_pos ⟨hlo, hhi, hs⟩, if_pos (by omega)]
        · rw [if_neg (by omega), if_neg (by omega), if_neg (by omega)]
      · rw [if_neg (by omega)]
        by_cases hat : 28 + 4 * index ≤ i
        · have hdiv : (i - 28) / 4 = index := by omega
          have hmod : (i - 28) % 4 = i - (28 + 4 * index) := by omega
          rw [if_pos (by omega), if_pos (by omega), hdiv, hmod]
        · rw [if_neg (by omega), if_neg (by omega)]
    · rw [if_neg (by omega), if_neg (by omega), if_neg (by omega)]

theorem size_bytes_fillFrom (seed : UInt32) (count index : Nat) (m : Memory) :
    (fillFrom seed count index m).bytes.size = m.bytes.size := by
  induction count generalizing index m with
  | zero => rfl
  | succ count ih => rw [fillFrom, ih, setSlotWord, setWord, size_bytes_patch]

/-- A second fill with the same seed finds everything as it would leave it. -/
theorem fill_fill (m : Memory) (slots : Nat) (seed : UInt32) :
    (m.fill slots seed).fill slots seed = m.fill slots seed := by
  apply ext_bytes
  intro i
  simp only [fill]
  rw [getElem?_fillFrom, size_bytes_fillFrom, getElem?_fillFrom]
  split <;> rfl

end Memory

namespace Session

/-- One fill of all slots: the number of slots, and the memory. -/
def writePass (s : Session) (m : Memory) (seed : UInt32) : UInt64 × Memory :=
  (s.slots, m.fill s.slots.toNat seed)

/-- One check of all slots: the number of slots, unless one is wrong. -/
def verifyPass (s : Session) (m : Memory) (seed : UInt32) : Except HandshakeError UInt64 :=
  match m.check s.slots.toNat seed with
  | some wrong => .error (.mismatch wrong)
  | none => .ok s.slots

end Session

end PeerBus
