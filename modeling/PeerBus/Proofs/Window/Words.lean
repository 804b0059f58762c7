/-
# `PeerBus.Proofs.Window.Words` — words are four bytes

An access to a word goes by its own rule: it is refused unless its offset is a multiple of four and
its four bytes lie inside the memory (`Memory.wordAddress?_eq`), while a transfer is cut short.
Where there is a word, the two go together: its number is that of the four bytes that a read
delivers, lowest first (`Memory.load?_of_fits`), and to store it is to write its four bytes, all of
which find room (`Memory.store_of_fits`).
-/
import PeerBus.Proofs.Window.Transfer

namespace PeerBus

/-! ## Numbers -/

/-- The number that some bytes stand for, lowest first. -/
def littleEndian (bytes : List UInt8) : Nat :=
  bytes.foldr (fun b number => b.toNat + 256 * number) 0

theorem littleEndian_nil : littleEndian [] = 0 := rfl

theorem littleEndian_cons (b : UInt8) (bytes : List UInt8) :
    littleEndian (b :: bytes) = b.toNat + 256 * littleEndian bytes := rfl

/-- As many bytes that stand for the same number are the same. -/
theorem eq_of_littleEndian {l l' : List UInt8} (hlength : l.length = l'.length)
    (h : littleEndian l = littleEndian l') : l = l' := by
  induction l generalizing l' with
  | nil => exact (List.length_eq_zero_iff.mp hlength.symm).symm
  | cons b l ih =>
      cases l' with
      | nil => exact absurd hlength (Nat.succ_ne_zero _)
      | cons b' l' =>
          have hlt := b.toNat_lt
          have hlt' := b'.toNat_lt
          rw [littleEndian_cons, littleEndian_cons] at h
          have hfirst : b = b' := UInt8.toNat_inj.mp (by omega)
          have hrest : l = l' := ih (Nat.succ.inj hlength) (by omega)
          rw [hfirst, hrest]

theorem littleEndian_wordBytes (value : UInt32) : littleEndian (wordBytes value) = value.toNat := by
  have hlt := value.toNat_lt
  simp only [wordBytes, littleEndian_cons, littleEndian_nil, UInt32.toNat_toUInt8,
    UInt32.toNat_shiftRight, Nat.shiftRight_eq_div_pow, UInt32.reduceToNat, Nat.reduceMod,
    Nat.reducePow]
  omega

theorem toNat_wordOfBytes (b₀ b₁ b₂ b₃ : UInt8) :
    (wordOfBytes b₀ b₁ b₂ b₃).toNat = littleEndian [b₀, b₁, b₂, b₃] := by
  have h₀ := b₀.toNat_lt
  have h₁ := b₁.toNat_lt
  have h₂ := b₂.toNat_lt
  have h₃ := b₃.toNat_lt
  simp only [wordOfBytes, littleEndian_cons, littleEndian_nil, UInt32.toNat_add,
    UInt32.toNat_shiftLeft, UInt8.toNat_toUInt32, Nat.shiftLeft_eq, UInt32.reduceToNat,
    Nat.reduceMod, Nat.reducePow]
  omega

namespace Memory

variable {m : Memory} {offset : UInt64}

/-! ## Where there is a word -/

/-- The sum of an offset and four is computed without wrapping. -/
theorem wordAddress?_eq (m : Memory) (offset : UInt64) :
    m.wordAddress? offset =
      if offset.toNat % 4 = 0 ∧ offset.toNat + 4 ≤ m.bytes.size then some offset.toNat
      else none := by
  have hmod : offset % 4 = 0 ↔ offset.toNat % 4 = 0 := by
    rw [← UInt64.toNat_inj, UInt64.toNat_mod]
    rfl
  have hlt := m.size_lt
  unfold wordAddress?
  by_cases haligned : offset.toNat % 4 = 0
  · rw [if_neg (not_not_intro (hmod.mpr haligned))]
    cases hstop : Word.add offset 4 with
    | error =>
        have hpast : ¬offset.toNat + 4 ≤ m.bytes.size := by
          intro hfits
          have hexact : (offset + 4).toNat = offset.toNat + 4 := by
            rw [UInt64.toNat_add]
            exact Nat.mod_eq_of_lt (Nat.lt_of_le_of_lt hfits hlt)
          rw [Word.add_eq_ok_iff.mpr hexact] at hstop
          exact nomatch hstop
        rw [if_neg fun h => hpast h.2]
    | ok stop =>
        have hsum : stop.toNat = offset.toNat + 4 := Word.add_eq_ok_iff.mp hstop
        have hinside : m.size < stop ↔ ¬offset.toNat + 4 ≤ m.bytes.size := by
          rw [UInt64.lt_iff_toNat_lt, toNat_size, hsum, Nat.not_le]
        by_cases hfits : offset.toNat + 4 ≤ m.bytes.size
        · simp [hinside, hfits, haligned]
        · simp [hinside, hfits]
  · rw [if_pos fun h => haligned (hmod.mp h), if_neg fun h => haligned h.1]

section Fits

variable (hfits : offset.toNat % 4 = 0 ∧ offset.toNat + 4 ≤ m.bytes.size)
include hfits

theorem wordAddress?_of_fits : m.wordAddress? offset = some offset.toNat := by
  rw [wordAddress?_eq, if_pos hfits]

theorem span_of_fits : m.span offset 4 = 4 := by
  unfold span
  omega

theorem store_of_fits (value : UInt32) :
    m.store offset value = (true, (m.writeAt offset (wordBytes value)).2) := by
  have hmoved : (wordBytes value).length = m.span offset (wordBytes value).length :=
    (span_of_fits hfits).symm
  have hall : (wordBytes value).take (m.span offset (wordBytes value).length) = wordBytes value :=
    List.take_of_length_le (Nat.le_of_eq hmoved)
  unfold store
  rw [wordAddress?_of_fits hfits]
  show (true, m.patch offset.toNat (wordBytes value)) =
    (true, m.patch offset.toNat ((wordBytes value).take (m.span offset (wordBytes value).length)))
  rw [hall]

theorem readAt_of_fits :
    m.readAt offset 4 = [m.byte offset.toNat, m.byte (offset.toNat + 1), m.byte (offset.toNat + 2),
      m.byte (offset.toNat + 3)] := by
  refine List.ext_getElem? ?_
  intro j
  by_cases hj : j < 4
  · have hmoved : j < m.span offset 4 := by rwa [span_of_fits hfits]
    have hbyte : m.bytes[offset.toNat + j]? = some (m.byte (offset.toNat + j)) := by
      have hinside : offset.toNat + j < m.bytes.size := by omega
      rw [byte, Array.getElem?_eq_getElem hinside]
      rfl
    rw [getElem?_readAt _ _ hmoved, hbyte]
    have hone : j = 0 ∨ j = 1 ∨ j = 2 ∨ j = 3 := by omega
    rcases hone with rfl | rfl | rfl | rfl <;> rfl
  · have hlength := m.length_readAt offset 4
    rw [span_of_fits hfits] at hlength
    rw [List.getElem?_eq_none (by omega), List.getElem?_eq_none (by simpa using hj)]

theorem load?_of_fits :
    ∃ value, m.load? offset = some value ∧ value.toNat = littleEndian (m.readAt offset 4) := by
  refine ⟨m.word offset.toNat, ?_, ?_⟩
  · rw [load?, wordAddress?_of_fits hfits]
    rfl
  · rw [readAt_of_fits hfits]
    exact toNat_wordOfBytes ..

end Fits

section Refused

variable (hrefused : ¬(offset.toNat % 4 = 0 ∧ offset.toNat + 4 ≤ m.bytes.size))
include hrefused

theorem store_of_refused (value : UInt32) : m.store offset value = (false, m) := by
  unfold store
  rw [wordAddress?_eq, if_neg hrefused]

theorem load?_of_refused : m.load? offset = none := by
  rw [load?, wordAddress?_eq, if_neg hrefused]
  rfl

end Refused

end Memory

/-! ## The memories of a machine -/

namespace Machine

variable {m : Machine} {r : Ref .region} {offset : UInt64}

theorem storeRegion_of_fits
    (hfits : offset.toNat % 4 = 0 ∧ offset.toNat + 4 ≤ (m.regions.get r).bytes.size)
    (value : UInt32) :
    m.storeRegion r offset value = ((m.writeRegion r offset (wordBytes value)).1, true) := by
  have hregions : m.regions.modify r (fun memory => (memory.store offset value).2) =
      m.regions.modify r fun memory => (memory.writeAt offset (wordBytes value)).2 := by
    refine Table.modify_congr ?_
    rw [Memory.store_of_fits hfits]
  unfold storeRegion writeRegion modifyRegion
  rw [Memory.wordAddress?_of_fits hfits, hregions]
  rfl

theorem storeRegion_of_refused
    (hrefused : ¬(offset.toNat % 4 = 0 ∧ offset.toNat + 4 ≤ (m.regions.get r).bytes.size))
    (value : UInt32) : m.storeRegion r offset value = (m, false) := by
  have hsame : ((m.regions.get r).store offset value).2 = m.regions.get r := by
    rw [Memory.store_of_refused hrefused]
  have hregions : m.regions.modify r (fun memory => (memory.store offset value).2) = m.regions :=
    Table.modify_eq_self hsame
  unfold storeRegion modifyRegion
  rw [hregions, Memory.wordAddress?_eq, if_neg hrefused]
  rfl

end Machine

end PeerBus
