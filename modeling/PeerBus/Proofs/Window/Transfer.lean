/-
# `PeerBus.Proofs.Window.Transfer` — transfers over a list of bytes

A transfer at an offset of `wanted` bytes moves as many of them as lie between the offset and the
end of the memory: with `n` bytes in all, `min wanted (n - min offset n)`, which is none if the
offset lies at the end or past it (`Memory.span_eq`).

| | |
| :-- | :-- |
| `Memory.readAt_eq` | a read delivers the bytes from the offset on, that many |
| `Memory.readInto_eq` | … in front of what the buffer had behind them |
| `Memory.replaced_writeAt` | a write puts that many bytes of its data there, and touches no other |

The transfers of a machine go to one of its memories; those through a device that is attached go to
the memory of its window (`Machine.Shows`) and are the same transfers.
-/
import PeerBus.Proofs.Handshake.Cells
import PeerBus.Proofs.Machine.Wiring

namespace PeerBus

namespace Memory

variable {m m' : Memory}

/-! ## How many bytes -/

theorem toNat_size (m : Memory) : m.size.toNat = m.bytes.size := by
  rw [size, UInt64.toNat_ofNat', Nat.mod_eq_of_lt m.size_lt]

theorem span_eq (m : Memory) (offset : UInt64) (wanted : Nat) :
    m.span offset wanted = min wanted (m.bytes.size - min offset.toNat m.bytes.size) := by
  unfold span
  omega

/-- Where a byte is moved, all of them lie inside the memory. -/
theorem span_inside (m : Memory) (offset : UInt64) {wanted : Nat} (h : 0 < m.span offset wanted) :
    offset.toNat + m.span offset wanted ≤ m.bytes.size := by
  unfold span at h ⊢
  omega

theorem byte_zeroed (size : UInt64) (i : Nat) : (zeroed size).byte i = 0 := by
  show ((Array.replicate size.toNat (0 : UInt8))[i]?).getD 0 = 0
  rw [Array.getElem?_replicate]
  split <;> rfl

/-! ## Reads -/

theorem readAt_eq (m : Memory) (offset : UInt64) (wanted : Nat) :
    m.readAt offset wanted = (m.bytes.toList.drop offset.toNat).take (m.span offset wanted) := by
  unfold readAt
  rw [Array.toList_extract, List.extract_eq_take_drop, Nat.add_sub_cancel_left]

theorem length_readAt (m : Memory) (offset : UInt64) (wanted : Nat) :
    (m.readAt offset wanted).length = m.span offset wanted := by
  rw [readAt_eq, List.length_take, List.length_drop, Array.length_toList]
  unfold span
  omega

theorem getElem?_readAt (m : Memory) (offset : UInt64) {wanted j : Nat}
    (h : j < m.span offset wanted) : (m.readAt offset wanted)[j]? = m.bytes[offset.toNat + j]? := by
  rw [readAt_eq, List.getElem?_take_of_lt h, List.getElem?_drop, Array.getElem?_toList]

theorem readInto_eq (m : Memory) (offset : UInt64) (buffer : List UInt8) :
    m.readInto offset buffer =
      (m.span offset buffer.length,
        (m.bytes.toList.drop offset.toNat).take (m.span offset buffer.length) ++
          buffer.drop (m.span offset buffer.length)) := by
  rw [← readAt_eq]
  simp only [readInto, length_readAt]

/-- What a buffer receives is what a read delivers, also if the buffer was made no longer than what
there is to read. -/
theorem take_readInto (m : Memory) (offset : UInt64) {wanted : Nat} {buffer : List UInt8}
    (h : buffer.length = wanted ∨ buffer.length = min wanted (m.bytes.size - offset.toNat)) :
    (m.readInto offset buffer).2.take (m.readInto offset buffer).1 = m.readAt offset wanted := by
  have hspan : m.span offset buffer.length = m.span offset wanted := by
    unfold span
    omega
  have hlength := m.length_readAt offset wanted
  rw [readInto_eq, hspan, ← readAt_eq, ← hlength]
  exact List.take_left

/-! ## Writes -/

/-- The bytes from `start` on are those of `data`; all others are as they were. -/
structure Replaced (m m' : Memory) (start : Nat) (data : List UInt8) : Prop where
  size : m'.bytes.size = m.bytes.size
  byte : ∀ i, m'.bytes[i]? =
    if start ≤ i ∧ i < start + data.length then data[i - start]? else m.bytes[i]?

theorem replaced_patch {start : Nat} {data : List UInt8}
    (h : 0 < data.length → start + data.length ≤ m.bytes.size) :
    Replaced m (m.patch start data) start data where
  size := size_bytes_patch ..
  byte i := by
    show (overwrite m.bytes start data)[i]? = _
    rw [getElem?_overwrite]
    by_cases hi : start ≤ i ∧ i < start + data.length
    · have hinside : i < m.bytes.size := by
        have hfits := h (by omega)
        omega
      rw [if_pos hi, if_pos ⟨hi.1, hi.2, hinside⟩]
    · rw [if_neg hi, if_neg fun hin => hi ⟨hin.1, hin.2.1⟩]

theorem replaced_writeAt (m : Memory) (offset : UInt64) (data : List UInt8) :
    Replaced m (m.writeAt offset data).2 offset.toNat (data.take (m.span offset data.length)) := by
  have hlength : (data.take (m.span offset data.length)).length = m.span offset data.length := by
    rw [List.length_take]
    unfold span
    omega
  refine replaced_patch ?_
  rw [hlength]
  exact m.span_inside offset

/-- Each byte after a write: the one that the data has for its place, or else the one before. -/
theorem getElem?_writeAt (m : Memory) (offset : UInt64) (data : List UInt8) (i : Nat) :
    (m.writeAt offset data).2.bytes[i]? = m.bytes[i]?.map fun b =>
      (if offset.toNat ≤ i then data[i - offset.toNat]? else none).getD b := by
  have hlength : (data.take (m.span offset data.length)).length =
      min (m.span offset data.length) data.length := List.length_take
  rw [(m.replaced_writeAt offset data).byte, hlength]
  by_cases hi : i < m.bytes.size
  · rw [Array.getElem?_eq_getElem hi, Option.map_some]
    by_cases hcovered : offset.toNat ≤ i ∧ i - offset.toNat < data.length
    · have hmoved : i - offset.toNat < m.span offset data.length := by
        unfold span
        omega
      rw [if_pos (by omega), if_pos hcovered.1, List.getElem?_take_of_lt hmoved,
        List.getElem?_eq_getElem hcovered.2, Option.getD_some]
    · have hnone : (if offset.toNat ≤ i then data[i - offset.toNat]? else none) = none := by
        split
        · exact List.getElem?_eq_none (by omega)
        · rfl
      rw [if_neg (by omega), hnone, Option.getD_none]
  · rw [Array.getElem?_eq_none (by omega), Option.map_none, if_neg]
    unfold span
    omega

/-- What was put there is read there. -/
theorem Replaced.readAt {offset : UInt64} {data : List UInt8}
    (h : Replaced m m' offset.toNat data)
    (hfits : 0 < data.length → offset.toNat + data.length ≤ m.bytes.size) :
    m'.readAt offset data.length = data := by
  have hspan : m'.span offset data.length = data.length := by
    unfold span
    rw [h.size]
    omega
  refine List.ext_getElem? ?_
  intro j
  by_cases hj : j < data.length
  · rw [getElem?_readAt _ _ (by rwa [hspan]), h.byte, if_pos (by omega), Nat.add_sub_cancel_left]
  · have hlength := m'.length_readAt offset data.length
    rw [List.getElem?_eq_none (by omega), List.getElem?_eq_none (by omega)]

end Memory

/-! ## The memories of a machine -/

namespace Machine

variable {m m' : Machine} {d : Ref .device} {r : Ref .region}

/-- A device is attached, and this memory is its window. -/
def Shows (m : Machine) (d : Ref .device) (r : Ref .region) : Prop :=
  (m.devices.get d).enabled = true ∧ (m.devices.get d).window = some r

/-- One memory has these bytes from `start` on; nothing else is changed. -/
structure Wrote (r : Ref .region) (start : Nat) (data : List UInt8) (m m' : Machine) : Prop where
  replaced : (m.regions.get r).Replaced (m'.regions.get r) start data
  elsewhere : ∀ s, s ≠ r → m'.regions.get s = m.regions.get s
  has : ∀ s, m'.regions.Has s ↔ m.regions.Has s
  beside : m' = { m with regions := m'.regions }

theorem wrote_writeRegion (hr : m.regions.Has r) (offset : UInt64) (data : List UInt8) :
    Wrote r offset.toNat (data.take (m.writeRegion r offset data).2) m
      (m.writeRegion r offset data).1 where
  replaced := by
    have hget : (m.writeRegion r offset data).1.regions.get r =
        ((m.regions.get r).writeAt offset data).2 := Table.get_modify_self hr _
    rw [hget]
    exact (m.regions.get r).replaced_writeAt offset data
  elsewhere s hs := Table.get_modify_of_ne _ hs.symm _
  has s := Table.has_modify ..
  beside := rfl

/-- A write that moves nothing changes nothing. -/
theorem writeRegion_of_span {offset : UInt64} {data : List UInt8}
    (h : (m.regions.get r).span offset data.length = 0) : m.writeRegion r offset data = (m, 0) := by
  have hsame : ((m.regions.get r).writeAt offset data).2 = m.regions.get r := by
    show (m.regions.get r).patch offset.toNat (data.take ((m.regions.get r).span offset _)) = _
    rw [h]
    rfl
  have hregions : m.regions.modify r (fun memory => (memory.writeAt offset data).2) = m.regions :=
    Table.modify_eq_self hsame
  unfold writeRegion modifyRegion
  rw [hregions, h]

section Shown

variable (h : m.Shows d r)
include h

theorem window?_of_shows : (m.devices.get d).window? = .ok r := by
  unfold Device.window? Device.ensureEnabled
  rw [h.1, h.2]
  rfl

theorem windowSize_of_shows : m.windowSize d = .ok (m.regions.get r).size := by
  unfold windowSize
  rw [window?_of_shows h]
  rfl

theorem read_of_shows (offset : UInt64) (wanted : Nat) :
    m.read d offset wanted = .ok ((m.regions.get r).readAt offset wanted) := by
  unfold read
  rw [window?_of_shows h]
  rfl

theorem readInto_of_shows (offset : UInt64) (buffer : List UInt8) :
    m.readInto d offset buffer = .ok ((m.regions.get r).readInto offset buffer) := by
  unfold readInto
  rw [window?_of_shows h]
  rfl

theorem write_of_shows (offset : UInt64) (data : List UInt8) :
    m.write d offset data =
      ((m.writeRegion r offset data).1, .ok (m.writeRegion r offset data).2) := by
  unfold write
  rw [window?_of_shows h]

theorem map_of_shows : m.map d = .ok r := window?_of_shows h

end Shown

end Machine

end PeerBus
