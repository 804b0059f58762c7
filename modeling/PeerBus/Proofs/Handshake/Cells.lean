/-
# `PeerBus.Proofs.Handshake.Cells` — fields and slots are independent cells

In a window that holds the control record, the seven fields are the words at the addresses 0, 4,
…, 24 (`Memory.field_eq`, `Memory.setField_eq`); the slots are the words from 28 on.  So a write to
one of these cells is read back from it and from no other cell, and a transfer behind the record
leaves the record alone (`Memory.field_writeAt`).
-/
import PeerBus.Handshake.Bulk
import PeerBus.Proofs.Layout

namespace PeerBus

theorem Field.index_le (f : Field) : f.index ≤ 6 := by
  cases f <;> decide

namespace Memory

variable {m : Memory}

/-! ## The addresses of the fields -/

theorem wordAddress?_field (h : 28 ≤ m.bytes.size) (f : Field) :
    m.wordAddress? f.offset = some (4 * f.index) := by
  have hlt := m.size_lt
  have hsize : m.size.toNat = m.bytes.size := by
    rw [size, UInt64.toNat_ofNat', Nat.mod_eq_of_lt hlt]
  have hidx := f.index_le
  have hoff : f.offset.toNat = 4 * f.index := by
    rw [Field.offset, UInt64.toNat_ofNat', Nat.mod_eq_of_lt (by omega)]
  have hstop : Word.add f.offset 4 = .ok (f.offset + 4) := by
    unfold Word.add
    rw [if_pos]
    rw [hoff]
    show 4 * f.index + 4 < UInt64.size
    have : UInt64.size = 2 ^ 64 := rfl
    omega
  have halign : f.offset % 4 = 0 := by cases f <;> decide
  have hfits : ¬m.size < f.offset + 4 := by
    rw [UInt64.lt_iff_toNat_lt, UInt64.toNat_add, hoff, hsize]
    show ¬m.bytes.size < (4 * f.index + 4) % 2 ^ 64
    omega
  unfold wordAddress?
  rw [if_neg (by simp [halign]), hstop]
  simp only [hfits, if_false, hoff]

theorem field_eq (h : 28 ≤ m.bytes.size) (f : Field) : m.field f = m.word (4 * f.index) := by
  rw [field, load?, wordAddress?_field h]
  rfl

theorem setField_eq (h : 28 ≤ m.bytes.size) (f : Field) (v : UInt32) :
    m.setField f v = m.setWord (4 * f.index) v := by
  rw [setField, store, wordAddress?_field h]

theorem size_bytes_setField (m : Memory) (f : Field) (v : UInt32) :
    (m.setField f v).bytes.size = m.bytes.size := by
  unfold setField store
  split
  · exact size_bytes_patch ..
  · rfl

/-! ## Writing a cell, reading a cell -/

theorem field_setField (h : 28 ≤ m.bytes.size) (f g : Field) (v : UInt32) :
    (m.setField f v).field g = if g = f then v else m.field g := by
  rw [field_eq (by rwa [size_bytes_setField]), field_eq h, setField_eq h]
  by_cases e : g = f
  · subst e
    rw [if_pos rfl]
    have hidx := g.index_le
    exact word_setWord_self m v (by omega)
  · rw [if_neg e]
    have hne : g.index ≠ f.index := by
      intro hi
      cases f <;> cases g <;> first | exact e rfl | exact absurd hi (by decide)
    exact word_setWord_of_disjoint m v (by omega)

theorem slotWord_setField (h : 28 ≤ m.bytes.size) (f : Field) (v : UInt32) (i : Nat) :
    (m.setField f v).slotWord i = m.slotWord i := by
  have hidx := f.index_le
  rw [setField_eq h, slotWord, slotWord, Layout.slotAddress_eq]
  exact word_setWord_of_disjoint m v (.inl (by omega))

theorem size_bytes_setSlotWord (m : Memory) (i : Nat) (v : UInt32) :
    (m.setSlotWord i v).bytes.size = m.bytes.size :=
  size_bytes_patch ..

theorem field_setSlotWord (h : 28 ≤ m.bytes.size) (f : Field) (i : Nat) (v : UInt32) :
    (m.setSlotWord i v).field f = m.field f := by
  have hidx := f.index_le
  rw [field_eq (by rwa [size_bytes_setSlotWord]), field_eq h, setSlotWord, Layout.slotAddress_eq]
  exact word_setWord_of_disjoint m v (.inr (by omega))

theorem slotWord_setSlotWord {i : Nat} (h : 28 + 4 * (i + 1) ≤ m.bytes.size) (j : Nat)
    (v : UInt32) : (m.setSlotWord i v).slotWord j = if j = i then v else m.slotWord j := by
  rw [slotWord, slotWord, setSlotWord, Layout.slotAddress_eq, Layout.slotAddress_eq]
  by_cases e : j = i
  · subst e
    rw [if_pos rfl]
    exact word_setWord_self m v (by omega)
  · rw [if_neg e]
    exact word_setWord_of_disjoint m v (by omega)

/-! ## Transfers behind the record -/

theorem size_bytes_writeAt (m : Memory) (offset : UInt64) (data : List UInt8) :
    (m.writeAt offset data).2.bytes.size = m.bytes.size :=
  size_bytes_patch ..

theorem field_writeAt (h : 28 ≤ m.bytes.size) (f : Field) {offset : UInt64}
    (hoff : 28 ≤ offset.toNat) (data : List UInt8) :
    (m.writeAt offset data).2.field f = m.field f := by
  have hidx := f.index_le
  rw [field_eq (by rwa [size_bytes_writeAt]), field_eq h]
  have hbyte : ∀ a, a < 28 → (m.writeAt offset data).2.byte a = m.byte a := by
    intro a ha
    show ((overwrite m.bytes offset.toNat _)[a]?).getD 0 = _
    rw [getElem?_overwrite, if_neg (by omega)]
    rfl
  simp only [word]
  rw [hbyte _ (by omega), hbyte _ (by omega), hbyte _ (by omega), hbyte _ (by omega)]

/-! ## A window of zeros -/

theorem word_zeroed (size : UInt64) (address : Nat) : (zeroed size).word address = 0 := by
  have hbyte : ∀ a, (zeroed size).byte a = 0 := by
    intro a
    show ((Array.replicate size.toNat (0 : UInt8))[a]?).getD 0 = 0
    rw [Array.getElem?_replicate]
    split <;> rfl
  simp only [word, hbyte]
  rfl

theorem size_bytes_zeroed (size : UInt64) : (zeroed size).bytes.size = size.toNat :=
  Array.size_replicate

theorem field_zeroed {size : UInt64} (h : 28 ≤ size.toNat) (f : Field) :
    (zeroed size).field f = 0 := by
  rw [field_eq (by rwa [size_bytes_zeroed]), word_zeroed]

end Memory

end PeerBus
