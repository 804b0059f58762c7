/-
# `PeerBus.Proofs.Layout` — slots fill their window

A window of `size` bytes has as many slots as there are whole groups of four behind the control
record:

    28                     the control record
    28 + 16 * groups       that many bytes at most are needed for so many groups
    size

`Layout.slotCount` computes this with a division, a mask and one guarded subtraction, of which none
wraps: it is the exact integer for every size (`Layout.toNat_slotCount`).  The offset of a slot is
exact as well, or it is no word at all (`Layout.slotOffset_eq_ok_iff`,
`Layout.slotOffset_eq_error_iff`).  That every slot lies behind the record and inside the window is
what the passes over the slots rely on, which reach them by address (`Session.of_open`).
-/
import PeerBus.Handshake.Session

namespace PeerBus

namespace Layout

variable {size index offset : UInt64}

/-! ## The number of slots -/

/-- The guard of the subtraction leaves no borrow. -/
theorem toNat_sub_recordSize (h : recordSize < size) :
    (size - recordSize).toNat = size.toNat - 28 :=
  UInt64.toNat_sub_of_le _ _ (UInt64.le_of_lt h)

/-- The mask keeps all bits but the two lowest, and so rounds down to a multiple of four. -/
theorem toNat_roundDown (slots : UInt64) :
    (slots &&& ~~~(slotSize - 1)).toNat = slots.toNat / 4 * 4 := by
  have hmask : (~~~(slotSize - 1)).toNat = (2 ^ 62 - 1) * 2 ^ 2 := by decide
  rw [UInt64.toNat_and, hmask]
  refine Nat.eq_of_testBit_eq fun i => ?_
  show _ = (slots.toNat / 2 ^ 2 * 2 ^ 2).testBit i
  rw [Nat.testBit_and, Nat.testBit_mul_two_pow, Nat.testBit_mul_two_pow, Nat.testBit_div_two_pow,
    Nat.testBit_two_pow_sub_one]
  by_cases hkept : 2 ≤ i
  · rw [Nat.sub_add_cancel hkept]
    by_cases hinside : i < 64
    · rw [decide_eq_true (show i - 2 < 62 by omega), Bool.and_true, Bool.and_comm]
    · have hbeyond : slots.toNat.testBit i = false :=
        Nat.testBit_lt_two_pow (Nat.lt_of_lt_of_le slots.toNat_lt
          (Nat.pow_le_pow_right (by decide) (Nat.le_of_not_lt hinside)))
      rw [hbeyond, Bool.and_false, Bool.false_and]
  · rw [decide_eq_false hkept, Bool.false_and, Bool.false_and, Bool.and_false]

theorem toNat_slotCount (size : UInt64) :
    (slotCount size).toNat = (size.toNat - 28) / 4 / 4 * 4 := by
  unfold slotCount
  split
  · rename_i hle
    have hle : size.toNat ≤ 28 := UInt64.le_iff_toNat_le.mp hle
    rw [Nat.sub_eq_zero_of_le hle]
    rfl
  · rename_i hgt
    rw [toNat_roundDown, UInt64.toNat_div, toNat_sub_recordSize (UInt64.not_le.mp hgt)]
    rfl

theorem slotCount_eq_zero_iff : slotCount size = 0 ↔ size.toNat < 44 := by
  have hcount := toNat_slotCount size
  rw [← UInt64.toNat_inj]
  show (slotCount size).toNat = 0 ↔ _
  omega

theorem four_dvd_slotCount (size : UInt64) : 4 ∣ (slotCount size).toNat := by
  have hcount := toNat_slotCount size
  omega

/-- The slots fit behind the record. -/
theorem slots_fit (h : 28 ≤ size.toNat) : 28 + 4 * (slotCount size).toNat ≤ size.toNat := by
  have hcount := toNat_slotCount size
  omega

/-- No larger number of whole groups fits. -/
theorem le_slotCount {slots : Nat} (hgroups : 4 ∣ slots) (hfits : 28 + 4 * slots ≤ size.toNat) :
    slots ≤ (slotCount size).toNat := by
  have hcount := toNat_slotCount size
  omega

theorem slotCount_mono {more : UInt64} (h : size ≤ more) : slotCount size ≤ slotCount more := by
  have hle := UInt64.le_iff_toNat_le.mp h
  have hcount := toNat_slotCount size
  have hcount' := toNat_slotCount more
  rw [UInt64.le_iff_toNat_le]
  omega

/-! ## The offsets of slots -/

/-- The offset of a slot is computed without wrapping. -/
theorem slotOffset_eq_ok_iff :
    slotOffset index = .ok offset ↔ offset.toNat = 28 + 4 * index.toNat := by
  have hlt := offset.toNat_lt_size
  unfold slotOffset
  cases hbytes : Word.mul index slotSize with
  | error =>
      refine iff_of_false (fun h => nomatch h) ?_
      intro h
      have hexact : (UInt64.ofNat (index.toNat * 4)).toNat = index.toNat * 4 :=
        UInt64.toNat_ofNat_of_lt' (by omega)
      rw [Word.mul_eq_ok_iff.mpr hexact] at hbytes
      exact nomatch hbytes
  | ok bytes =>
      have hexact : bytes.toNat = index.toNat * 4 := Word.mul_eq_ok_iff.mp hbytes
      show Word.add recordSize bytes = .ok offset ↔ _
      rw [Word.add_eq_ok_iff, hexact, Nat.mul_comm]
      rfl

theorem exists_slotOffset (index : UInt64) (h : 28 + 4 * index.toNat < UInt64.size) :
    ∃ offset, slotOffset index = .ok offset ∧ offset.toNat = 28 + 4 * index.toNat := by
  have hexact : (UInt64.ofNat (28 + 4 * index.toNat)).toNat = 28 + 4 * index.toNat :=
    UInt64.toNat_ofNat_of_lt' h
  exact ⟨_, slotOffset_eq_ok_iff.mpr hexact, hexact⟩

/-- A slot has no offset if and only if the offset would be no word. -/
theorem slotOffset_eq_error_iff :
    (∃ cause, slotOffset index = .error cause) ↔ (UInt64.size - 1 - 28) / 4 < index.toNat := by
  have hsize : UInt64.size = 2 ^ 64 := rfl
  constructor
  · rintro ⟨cause, herror⟩
    refine Nat.lt_of_not_le fun hle => ?_
    obtain ⟨offset, hok, -⟩ := exists_slotOffset index (by omega)
    exact nomatch herror.symm.trans hok
  · intro hlt
    cases hoffset : slotOffset index with
    | error cause => exact ⟨cause, rfl⟩
    | ok offset =>
        have hexact := slotOffset_eq_ok_iff.mp hoffset
        have hword := offset.toNat_lt_size
        omega

/-- Slots do not overlap. -/
theorem slotOffset_apart {other offset' : UInt64} (h : slotOffset index = .ok offset)
    (h' : slotOffset other = .ok offset') (hne : index ≠ other) :
    offset.toNat + 4 ≤ offset'.toNat ∨ offset'.toNat + 4 ≤ offset.toNat := by
  have hexact := slotOffset_eq_ok_iff.mp h
  have hexact' := slotOffset_eq_ok_iff.mp h'
  have hne' : index.toNat ≠ other.toNat := fun heq => hne (UInt64.toNat_inj.mp heq)
  omega

/-- A slot of a window lies in it, behind the record. -/
theorem slotOffset_inside (h : index < slotCount size) :
    ∃ offset, slotOffset index = .ok offset ∧ 4 ∣ offset.toNat ∧ 28 ≤ offset.toNat ∧
      offset.toNat + 4 ≤ size.toNat := by
  have hindex := UInt64.lt_iff_toNat_lt.mp h
  have hcount := toNat_slotCount size
  have hsize := size.toNat_lt_size
  obtain ⟨offset, hoffset, hexact⟩ := exists_slotOffset index (by omega)
  exact ⟨offset, hoffset, by omega, by omega, by omega⟩

end Layout

/-! ## Sessions that open -/

namespace Session

variable {region : Ref .region} {size : UInt64} {s : Session}

/-- A window is too small for a session if it has no slot. -/
theorem open?_eq (region : Ref .region) (size : UInt64) :
    Session.open? region size =
      if size.toNat < 44 then .error (.windowTooSmall size)
      else .ok ⟨region, Layout.slotCount size⟩ := by
  unfold Session.open?
  simp only [Layout.slotCount_eq_zero_iff]

/-- A session over a window of some size is the only one. -/
theorem open?_eq_ok_iff :
    Session.open? region size = .ok s ↔
      s = ⟨region, Layout.slotCount size⟩ ∧ Layout.slotCount size ≠ 0 := by
  rw [open?_eq, ne_eq, Layout.slotCount_eq_zero_iff]
  by_cases h : size.toNat < 44
  · simp [h]
  · simp [h, eq_comm]

/-- A session that opens has slots, and the window holds all of them. -/
theorem of_open (h : Session.open? region size = .ok s) :
    s.region = region ∧ 0 < s.slots.toNat ∧ 28 + 4 * s.slots.toNat ≤ size.toNat := by
  obtain ⟨rfl, hsome⟩ := open?_eq_ok_iff.mp h
  rw [ne_eq, Layout.slotCount_eq_zero_iff] at hsome
  have hcount := Layout.toNat_slotCount size
  refine ⟨rfl, ?_, Layout.slots_fit (by omega)⟩
  show 0 < (Layout.slotCount size).toNat
  omega

end Session

/-- **Slots fill their window.**  The number of slots in a window is the largest multiple of four
that fits behind the record, and zero if there is none, in which case no session opens; a larger
window has no fewer slots.  It is computed without wrapping: the subtraction is guarded, and the
mask rounds down.

Each slot has an offset, which is aligned and behind the record, and the slot is inside the window;
two slots do not overlap.  An index has no offset only if that would not be a word. -/
theorem Layout.slots_tight (size : UInt64) :
    let slots := (slotCount size).toNat
    (4 ∣ slots ∧ (28 ≤ size.toNat → 28 + 4 * slots ≤ size.toNat) ∧
      ∀ k, 4 ∣ k → 28 + 4 * k ≤ size.toNat → k ≤ slots) ∧
    (slots = 0 ↔ size.toNat < 44) ∧
    (∀ region, Session.open? region size =
      if size.toNat < 44 then .error (.windowTooSmall size)
      else .ok ⟨region, slotCount size⟩) ∧
    (∀ more, size ≤ more → slotCount size ≤ slotCount more) ∧
    (∀ index < slotCount size, ∃ offset, slotOffset index = .ok offset ∧ 4 ∣ offset.toNat ∧
      28 ≤ offset.toNat ∧ offset.toNat + 4 ≤ size.toNat) ∧
    (∀ i j a b, slotOffset i = .ok a → slotOffset j = .ok b → i ≠ j →
      a.toNat + 4 ≤ b.toNat ∨ b.toNat + 4 ≤ a.toNat) ∧
    (∀ index, (∃ cause, slotOffset index = .error cause) ↔
      (UInt64.size - 1 - 28) / 4 < index.toNat) ∧
    (recordSize < size → (size - recordSize).toNat + recordSize.toNat = size.toNat) ∧
    (slotSize - 1).toNat + 1 = slotSize.toNat ∧
    ∀ word : UInt64, (word &&& ~~~(slotSize - 1)).toNat = word.toNat / 4 * 4 := by
  intro slots
  refine ⟨⟨four_dvd_slotCount size, slots_fit, fun k => le_slotCount⟩, ?_,
    fun region => Session.open?_eq region size, fun more => slotCount_mono,
    fun index => slotOffset_inside, fun i j a b => slotOffset_apart,
    fun index => slotOffset_eq_error_iff, ?_, rfl, toNat_roundDown⟩
  · rw [← slotCount_eq_zero_iff, ← UInt64.toNat_inj]
    rfl
  · intro hguard
    have hle := UInt64.le_iff_toNat_le.mp (UInt64.le_of_lt hguard)
    rw [toNat_sub_recordSize hguard]
    exact Nat.sub_add_cancel hle

/-- In the largest window the last slot ends within it.  The index behind the slots still has an
offset, which is a word, but the next index has none. -/
theorem Layout.slots_tight_largest :
    slotCount 0xFFFFFFFFFFFFFFFF = 0x3FFFFFFFFFFFFFF8 ∧
    (∃ offset, slotOffset 0x3FFFFFFFFFFFFFF7 = .ok offset ∧ 28 ≤ offset.toNat ∧
      offset.toNat + 4 ≤ 0xFFFFFFFFFFFFFFFF) ∧
    (¬∃ cause, slotOffset 0x3FFFFFFFFFFFFFF8 = .error cause) ∧
    ∃ cause, slotOffset 0x3FFFFFFFFFFFFFF9 = .error cause := by
  have hcount : slotCount 0xFFFFFFFFFFFFFFFF = 0x3FFFFFFFFFFFFFF8 := by decide
  obtain ⟨-, -, -, -, hinside, -, hoverflow, -⟩ := slots_tight 0xFFFFFFFFFFFFFFFF
  have hlast : (0x3FFFFFFFFFFFFFF7 : UInt64) < slotCount 0xFFFFFFFFFFFFFFFF := by
    rw [hcount]
    decide
  obtain ⟨offset, hoffset, -, hbehind, hend⟩ := hinside _ hlast
  exact ⟨hcount, ⟨offset, hoffset, hbehind, hend⟩, fun h => absurd ((hoverflow _).mp h) (by decide),
    (hoverflow _).mpr (by decide)⟩

end PeerBus
