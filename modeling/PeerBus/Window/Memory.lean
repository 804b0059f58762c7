/-
# `PeerBus.Window.Memory` — shared memory

A `Memory` is a block of bytes whose size is a machine word.  Transfers (`readAt`, `readInto`,
`writeAt`) are cut short at the end of the block and never fail; accesses to aligned
little-endian words (`load?`, `store`) either lie inside the block or are refused.
-/
import PeerBus.Arithmetic

namespace PeerBus

/-- The bytes of a 32-bit word, lowest first. -/
def wordBytes (value : UInt32) : List UInt8 :=
  [value.toUInt8, (value >>> 8).toUInt8, (value >>> 16).toUInt8, (value >>> 24).toUInt8]

/-- The 32-bit word with these bytes, lowest first. -/
def wordOfBytes (b₀ b₁ b₂ b₃ : UInt8) : UInt32 :=
  b₀.toUInt32 + (b₁.toUInt32 <<< 8) + (b₂.toUInt32 <<< 16) + (b₃.toUInt32 <<< 24)

theorem wordOfBytes_wordBytes (v : UInt32) :
    wordOfBytes v.toUInt8 (v >>> 8).toUInt8 (v >>> 16).toUInt8 (v >>> 24).toUInt8 = v := by
  apply UInt32.toNat_inj.mp
  have hv := v.toNat_lt
  simp only [wordOfBytes, UInt32.toNat_add, UInt32.toNat_shiftLeft, UInt32.toNat_shiftRight,
    UInt32.toNat_toUInt8, UInt8.toNat_toUInt32, Nat.shiftLeft_eq, Nat.shiftRight_eq_div_pow,
    UInt32.reduceToNat, Nat.reduceMod, Nat.reducePow]
  omega

/-- Replaces the bytes from `start` on by `data`; what would lie past the end is dropped. -/
def overwrite (bytes : Array UInt8) (start : Nat) : List UInt8 → Array UInt8
  | [] => bytes
  | b :: rest => overwrite (bytes.setIfInBounds start b) (start + 1) rest

theorem size_overwrite (bytes : Array UInt8) (start : Nat) (data : List UInt8) :
    (overwrite bytes start data).size = bytes.size := by
  induction data generalizing bytes start with
  | nil => rfl
  | cons b rest ih => simp [overwrite, ih]

theorem getElem?_overwrite (bytes : Array UInt8) (start : Nat) (data : List UInt8) (i : Nat) :
    (overwrite bytes start data)[i]? =
      if start ≤ i ∧ i < start + data.length ∧ i < bytes.size then data[i - start]?
      else bytes[i]? := by
  induction data generalizing bytes start with
  | nil =>
    rw [if_neg]
    · rfl
    · intro h
      have := h.2.1
      simp only [List.length_nil, Nat.add_zero] at this
      omega
  | cons b rest ih =>
    rw [overwrite, ih]
    simp only [Array.size_setIfInBounds, Array.getElem?_setIfInBounds, List.length_cons]
    by_cases hi : start = i
    · subst hi
      have h₁ : ¬(start + 1 ≤ start) := by omega
      simp only [h₁, false_and, if_false, if_true, Nat.le_refl, true_and, Nat.sub_self]
      by_cases hs : start < bytes.size
      · have h₂ : start < start + (rest.length + 1) := by omega
        simp [hs]
      · simp [hs]
    · by_cases hs : i < bytes.size
      · by_cases hlo : start + 1 ≤ i
        · have h₁ : start ≤ i := by omega
          have h₂ : i - start = (i - (start + 1)) + 1 := by omega
          by_cases hhi : i < start + 1 + rest.length
          · have h₃ : i < start + (rest.length + 1) := by omega
            simp [hlo, hhi, hs, h₁, h₃, h₂]
          · have h₃ : ¬i < start + (rest.length + 1) := by omega
            simp [hhi, h₃, hi]
        · have h₁ : ¬start ≤ i := by omega
          simp [hlo, h₁, hi]
      · simp [hs, hi]

/-- A block of shared bytes. -/
structure Memory where
  bytes : Array UInt8
  size_lt : bytes.size < UInt64.size

namespace Memory

instance : Inhabited Memory := ⟨⟨#[], by decide⟩⟩

/-- A block of `size` zero bytes. -/
def zeroed (size : UInt64) : Memory :=
  ⟨Array.replicate size.toNat 0, by simpa using size.toNat_lt⟩

/-- The size in bytes. -/
def size (m : Memory) : UInt64 := UInt64.ofNat m.bytes.size

/-- Whether there is no byte. -/
def isEmpty (m : Memory) : Bool := m.bytes.isEmpty

/-- The byte at an address. -/
def byte (m : Memory) (address : Nat) : UInt8 := m.bytes[address]?.getD 0

/-- Replaces the bytes from an address on. -/
def patch (m : Memory) (address : Nat) (data : List UInt8) : Memory :=
  ⟨overwrite m.bytes address data, by rw [size_overwrite]; exact m.size_lt⟩

theorem size_bytes_patch (m : Memory) (address : Nat) (data : List UInt8) :
    (m.patch address data).bytes.size = m.bytes.size := size_overwrite ..

/-- Memories with the same bytes are the same. -/
theorem ext_bytes {m n : Memory} (h : ∀ i : Nat, m.bytes[i]? = n.bytes[i]?) : m = n := by
  cases m
  cases n
  simp only [mk.injEq]
  exact Array.ext_getElem? h

/-! ## Transfers -/

/-- The bytes from `offset` to the end, but no more than `wanted`. -/
def span (m : Memory) (offset : UInt64) (wanted : Nat) : Nat :=
  min (m.bytes.size - offset.toNat) wanted

/-- Up to `wanted` bytes from `offset` on. -/
def readAt (m : Memory) (offset : UInt64) (wanted : Nat) : List UInt8 :=
  (m.bytes.extract offset.toNat (offset.toNat + m.span offset wanted)).toList

/-- Copies bytes from `offset` on to the front of a buffer: their number, and the buffer. -/
def readInto (m : Memory) (offset : UInt64) (buffer : List UInt8) : Nat × List UInt8 :=
  let data := m.readAt offset buffer.length
  (data.length, data ++ buffer.drop data.length)

/-- Copies data to `offset` on: the number of bytes, and the memory. -/
def writeAt (m : Memory) (offset : UInt64) (data : List UInt8) : Nat × Memory :=
  let count := m.span offset data.length
  (count, m.patch offset.toNat (data.take count))

/-! ## Words -/

/-- The word at an address, aligned or not. -/
def word (m : Memory) (address : Nat) : UInt32 :=
  wordOfBytes (m.byte address) (m.byte (address + 1)) (m.byte (address + 2)) (m.byte (address + 3))

/-- Replaces the word at an address. -/
def setWord (m : Memory) (address : Nat) (value : UInt32) : Memory :=
  m.patch address (wordBytes value)

/-- The byte of a word written at `address` that ends up at `i`. -/
theorem getElem?_setWord (m : Memory) (address : Nat) (value : UInt32) (i : Nat) :
    (m.setWord address value).bytes[i]? =
      if address ≤ i ∧ i < address + 4 ∧ i < m.bytes.size then (wordBytes value)[i - address]?
      else m.bytes[i]? :=
  getElem?_overwrite ..

theorem word_setWord_self (m : Memory) {address : Nat} (value : UInt32)
    (h : address + 4 ≤ m.bytes.size) : (m.setWord address value).word address = value := by
  have at_ : ∀ k, k < 4 → (m.setWord address value).byte (address + k) =
      ((wordBytes value)[k]?).getD 0 := by
    intro k hk
    have h₁ : address ≤ address + k ∧ address + k < address + 4 ∧
        address + k < m.bytes.size := by omega
    rw [byte, getElem?_setWord, if_pos h₁, Nat.add_sub_cancel_left]
  have at_zero := at_ 0 (by omega)
  rw [Nat.add_zero] at at_zero
  rw [word, at_zero, at_ 1 (by omega), at_ 2 (by omega), at_ 3 (by omega)]
  exact wordOfBytes_wordBytes value

theorem word_setWord_of_disjoint (m : Memory) {address other : Nat} (value : UInt32)
    (h : address + 4 ≤ other ∨ other + 4 ≤ address) :
    (m.setWord address value).word other = m.word other := by
  have at_ : ∀ k, k < 4 → (m.setWord address value).byte (other + k) = m.byte (other + k) := by
    intro k hk
    have h₁ : ¬(address ≤ other + k ∧ other + k < address + 4 ∧
        other + k < m.bytes.size) := by omega
    rw [byte, getElem?_setWord, if_neg h₁, byte]
  have at_zero := at_ 0 (by omega)
  rw [Nat.add_zero] at at_zero
  rw [word, at_zero, at_ 1 (by omega), at_ 2 (by omega), at_ 3 (by omega), word]

/-- The address of the word at `offset`: it must be a multiple of four, and the word's end must be
an offset that lies inside the block. -/
def wordAddress? (m : Memory) (offset : UInt64) : Option Nat :=
  if offset % 4 ≠ 0 then none
  else
    match Word.add offset 4 with
    | .error _ => none
    | .ok stop => if m.size < stop then none else some offset.toNat

/-- The word at `offset`. -/
def load? (m : Memory) (offset : UInt64) : Option UInt32 := (m.wordAddress? offset).map m.word

/-- Replaces the word at `offset`; the answer tells whether there is one. -/
def store (m : Memory) (offset : UInt64) (value : UInt32) : Bool × Memory :=
  match m.wordAddress? offset with
  | some address => (true, m.setWord address value)
  | none => (false, m)

end Memory

end PeerBus
