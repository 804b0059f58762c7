/-
# `PeerBus.Proofs.Doorbell` — words that carry a peer in their upper half

Doorbell messages and published ids are made alike: a position shifted into the upper half of a
word, and a constant in the lower half.  The two halves do not overlap, so each can be read back
(`PeerId.high_or`, `PeerId.low_or`):

    31 … 16        15 … 8    7 … 0
    destination    0         code         a message (`Message.eq_compose_iff`)
    peer           0         0x5A         a published id (`Published.decode?_eq_some_iff`)

A message reaches the peer that it was composed for, with the status of its command, and a published
id is read as the id that was published.  Any other word can be written to the registers as well.
What the addressed device latches of it is the lower half, and the low byte of that decides what it
makes of it (`StatusEvent.classify_eq`, `Message.classify_status`).
-/
import PeerBus.Doorbell
import PeerBus.Layout

namespace PeerBus

/-! ## Halves of a word -/

namespace PeerId

theorem toNat_or (p : PeerId) {low : UInt32} (h : low.toNat < UInt16.size) :
    ((p.toRegister <<< 16) ||| low).toNat = p.number.toNat * UInt16.size + low.toNat := by
  have hsize : UInt16.size = 65536 := rfl
  have hp := p.number.toNat_lt
  have hshift : (p.toRegister <<< 16).toNat = p.number.toNat <<< 16 := by
    rw [UInt32.toNat_shiftLeft]
    show (p.number.toUInt32.toNat <<< 16) % 2 ^ 32 = _
    rw [UInt16.toNat_toUInt32, Nat.shiftLeft_eq]
    omega
  have hlow : low.toNat < 2 ^ 16 := h
  rw [UInt32.toNat_or, hshift, ← Nat.shiftLeft_add_eq_or_of_lt hlow, Nat.shiftLeft_eq]

theorem high_or (p : PeerId) {low : UInt32} (h : low.toNat < UInt16.size) :
    (⟨(((p.toRegister <<< 16) ||| low) >>> 16).toUInt16⟩ : PeerId) = p := by
  obtain ⟨number⟩ := p
  have hp := number.toNat_lt
  refine congrArg PeerId.mk (UInt16.toNat_inj.mp ?_)
  rw [UInt32.toNat_toUInt16, UInt32.toNat_shiftRight, toNat_or _ h]
  show (number.toNat * 65536 + low.toNat) >>> 16 % 65536 = number.toNat
  have hlow : low.toNat < 65536 := h
  rw [Nat.shiftRight_eq_div_pow]
  omega

theorem low_or (p : PeerId) {low : UInt32} (h : low.toNat < UInt16.size) :
    ((p.toRegister <<< 16) ||| low) &&& 0xFFFF = low := by
  refine UInt32.toNat_inj.mp ?_
  rw [UInt32.toNat_and, toNat_or _ h]
  show (p.number.toNat * 65536 + low.toNat) &&& (2 ^ 16 - 1) = low.toNat
  have hlow : low.toNat < 65536 := h
  rw [Nat.and_two_pow_sub_one_eq_mod]
  omega

end PeerId

/-! ## Codes -/

namespace Command

theorem code_toUInt32_lt (c : Command) : c.code.toUInt32.toNat < UInt16.size := by
  cases c <;> decide

theorem code_toUInt32_le (c : Command) : c.code.toUInt32.toNat ≤ 7 := by
  cases c <;> decide

theorem ofCode?_eq_some {b : UInt8} {c : Command} : ofCode? b = some c ↔ b = c.code :=
  ⟨fun h => (code_of_ofCode? h).symm, fun h => h ▸ ofCode?_code c⟩

/-- The codes are the numbers up to 7. -/
theorem isSome_ofCode?_iff {b : UInt8} : (ofCode? b).isSome = true ↔ b.toNat ≤ 7 := by
  constructor
  · intro h
    obtain ⟨c, hc⟩ := Option.isSome_iff_exists.mp h
    rw [ofCode?_eq_some.mp hc, ← UInt8.toNat_toUInt32]
    exact c.code_toUInt32_le
  · intro h
    have hall : ∀ n : Fin 8, (ofCode? (UInt8.ofNat n.val)).isSome = true := by decide
    have hsome := hall ⟨b.toNat, Nat.lt_succ_of_le h⟩
    rwa [UInt8.ofNat_toNat] at hsome

end Command

/-! ## Messages -/

namespace Message

variable {m : Message} {p : PeerId} {c : Command}

theorem code_eq (status : UInt32) : Message.code ⟨status⟩ = status.toUInt8 := by
  refine UInt8.toNat_inj.mp ?_
  rw [Message.code, UInt32.toNat_toUInt8, UInt32.toNat_toUInt8, UInt32.toNat_and]
  show (status.toNat &&& (2 ^ 8 - 1)) % 256 = _
  rw [Nat.and_two_pow_sub_one_eq_mod]
  exact Nat.mod_mod _ _

theorem command?_eq (status : UInt32) :
    Message.command? ⟨status⟩ = Command.ofCode? status.toUInt8 :=
  congrArg Command.ofCode? (code_eq status)

theorem toNat_destination (m : Message) : m.destination.number.toNat = m.raw.toNat / 65536 := by
  have hraw := m.raw.toNat_lt
  show (m.raw >>> 16).toUInt16.toNat = _
  rw [UInt32.toNat_toUInt16, UInt32.toNat_shiftRight]
  show m.raw.toNat >>> 16 % 65536 = _
  rw [Nat.shiftRight_eq_div_pow]
  omega

theorem toNat_code (m : Message) : m.code.toNat = m.raw.toNat % 256 := by
  show (Message.code ⟨m.raw⟩).toNat = _
  rw [code_eq, UInt32.toNat_toUInt8]

theorem toNat_status (m : Message) : m.status.toNat = m.raw.toNat % 65536 := by
  show (m.raw &&& 0xFFFF).toNat = _
  rw [UInt32.toNat_and]
  exact Nat.and_two_pow_sub_one_eq_mod m.raw.toNat 16

theorem toNat_raw_compose (p : PeerId) (c : Command) :
    (compose p c).raw.toNat = p.number.toNat * 65536 + c.code.toNat :=
  (p.toNat_or c.code_toUInt32_lt).trans (congrArg (_ + ·) (UInt8.toNat_toUInt32 _))

theorem destination_compose (p : PeerId) (c : Command) : (compose p c).destination = p :=
  p.high_or c.code_toUInt32_lt

theorem status_compose (p : PeerId) (c : Command) : (compose p c).status = c.code.toUInt32 :=
  p.low_or c.code_toUInt32_lt

/-- The low byte of a message is the code that it was composed with. -/
theorem code_compose (p : PeerId) (c : Command) : (compose p c).code = c.code := by
  have hcode := c.code.toNat_lt
  refine UInt8.toNat_inj.mp ?_
  rw [toNat_code, toNat_raw_compose]
  omega

theorem command?_compose (p : PeerId) (c : Command) : (compose p c).command? = some c :=
  Command.ofCode?_eq_some.mpr (code_compose p c)

/-- A message is the one that its destination and its command make, if its second byte is zero. -/
theorem eq_compose_iff : m = compose p c ↔
    m.raw.toNat / 256 % 256 = 0 ∧ m.destination = p ∧ m.command? = some c := by
  have hle := c.code_toUInt32_le
  rw [UInt8.toNat_toUInt32] at hle
  constructor
  · rintro rfl
    refine ⟨?_, destination_compose p c, command?_compose p c⟩
    rw [toNat_raw_compose]
    omega
  · rintro ⟨hzero, rfl, hcommand⟩
    have hcode : m.code = c.code := Command.ofCode?_eq_some.mp hcommand
    have hraw : m.raw = (compose m.destination c).raw := by
      refine UInt32.toNat_inj.mp ?_
      rw [toNat_raw_compose, toNat_destination, ← hcode, toNat_code]
      omega
    exact congrArg Message.mk hraw

/-- Whether a word is a message that was composed can be seen from its lower half. -/
theorem exists_eq_compose_iff : (∃ p c, m = compose p c) ↔
    m.raw.toNat / 256 % 256 = 0 ∧ m.raw.toNat % 256 ≤ 7 := by
  rw [← toNat_code, ← Command.isSome_ofCode?_iff, Option.isSome_iff_exists]
  constructor
  · rintro ⟨p, c, h⟩
    obtain ⟨hzero, -, hcommand⟩ := eq_compose_iff.mp h
    exact ⟨hzero, c, hcommand⟩
  · rintro ⟨hzero, c, hcommand⟩
    exact ⟨m.destination, c, eq_compose_iff.mpr ⟨hzero, rfl, hcommand⟩⟩

/-- No message sets all bits of a status. -/
theorem status_ne_invalid (m : Message) : m.status ≠ Register.statusInvalid := by
  intro h
  have hlt := Nat.mod_lt m.raw.toNat (show 0 < 65536 by decide)
  rw [← toNat_status, h] at hlt
  exact absurd hlt (by decide)

end Message

/-! ## What a status says -/

namespace StatusEvent

/-- Only the low byte of a status tells a channel; all bits clear or all bits set tell none. -/
theorem classify_of_ne {status : UInt32} (hs : status.toUInt8 = 7 ∨ status.toUInt8 = 4) :
    ¬(status = 0 ∨ status = Register.statusInvalid) := by
  rintro (rfl | rfl) <;> rcases hs with hs | hs <;> exact absurd hs (by decide)

theorem classify_eq (status : UInt32) :
    classify status =
      if status = 0 ∨ status = Register.statusInvalid then .spurious
      else if status.toUInt8 = 7 then .semaphore
      else if status.toUInt8 = 4 then .event
      else .unrecognized status := by
  unfold classify
  rw [Message.command?_eq]
  by_cases hspurious : status = 0 ∨ status = Register.statusInvalid
  · rw [if_pos hspurious, if_pos hspurious]
  · rw [if_neg hspurious, if_neg hspurious]
    cases hcode : Command.ofCode? status.toUInt8 with
    | none =>
        rw [if_neg fun h => ?_, if_neg fun h => ?_]
        all_goals
          rw [h] at hcode
          exact nomatch hcode
    | some c =>
        rw [Command.ofCode?_eq_some.mp hcode]
        cases c <;> rfl

theorem classify_semaphore {status : UInt32} (hs : status.toUInt8 = 7) :
    classify status = .semaphore := by
  rw [classify_eq, if_neg (classify_of_ne (.inl hs)), if_pos hs]

theorem classify_event {status : UInt32} (hs : status.toUInt8 = 4) : classify status = .event := by
  rw [classify_eq, if_neg (classify_of_ne (.inr hs)), if_neg, if_pos hs]
  rw [hs]
  decide

/-- Any other low byte signals nothing. -/
theorem classify_neither {status : UInt32} (h7 : status.toUInt8 ≠ 7) (h4 : status.toUInt8 ≠ 4) :
    classify status = .spurious ∨ classify status = .unrecognized status := by
  rw [classify_eq, if_neg h7, if_neg h4]
  split
  · exact .inl rfl
  · exact .inr rfl

theorem classify_waitEventIrq :
    StatusEvent.classify Command.waitEventIrq.code.toUInt32 = .event := by
  decide

/-- A status is for its device unless all of its bits are clear, or all are set. -/
theorem isHandled_classify (status : UInt32) :
    (classify status).isHandled = true ↔ status ≠ 0 ∧ status ≠ 0xFFFFFFFF := by
  rw [classify_eq]
  by_cases hspurious : status = 0 ∨ status = Register.statusInvalid
  · rw [if_pos hspurious]
    exact iff_of_false nofun fun h => hspurious.elim h.1 h.2
  · rw [if_neg hspurious]
    refine iff_of_true ?_ (not_or.mp hspurious)
    split
    · rfl
    · split <;> rfl

end StatusEvent

/-- What the addressed device makes of a message. -/
theorem Message.classify_status (m : Message) :
    StatusEvent.classify m.status =
      if m.raw.toNat % 65536 = 0 then .spurious
      else if m.raw.toNat % 256 = 7 then .semaphore
      else if m.raw.toNat % 256 = 4 then .event
      else .unrecognized m.status := by
  have hbyte (b : UInt8) : m.status.toUInt8 = b ↔ m.raw.toNat % 256 = b.toNat := by
    rw [← UInt8.toNat_inj, UInt32.toNat_toUInt8, toNat_status]
    omega
  have hzero : m.status = 0 ∨ m.status = Register.statusInvalid ↔ m.raw.toNat % 65536 = 0 := by
    rw [or_iff_left m.status_ne_invalid, ← UInt32.toNat_inj, toNat_status]
    rfl
  rw [StatusEvent.classify_eq]
  simp only [hzero, hbyte]
  rfl

/-! ## Published ids -/

/-- A published id is read as the id that was published. -/
theorem Published.decode?_encode (p : PeerId) :
    Published.decode? (Published.encode p) = some p := by
  have h : Published.tag.toNat < UInt16.size := by decide
  unfold Published.decode? Published.encode
  rw [if_pos (p.low_or h), p.high_or h]

/-- Only the word that publishes an id is read as that id. -/
theorem Published.decode?_eq_some_iff {raw : UInt32} {p : PeerId} :
    Published.decode? raw = some p ↔ raw = Published.encode p := by
  constructor
  · intro h
    unfold Published.decode? at h
    obtain ⟨hlow, hhigh⟩ := (Option.ite_none_right_eq_some ..).mp h
    obtain rfl := Option.some.inj hhigh
    have htag : Published.tag.toNat = 90 := rfl
    have hlt := raw.toNat_lt
    have hmod : raw.toNat % 65536 = Published.tag.toNat := by
      rw [← hlow, UInt32.toNat_and]
      exact (Nat.and_two_pow_sub_one_eq_mod raw.toNat 16).symm
    have hdiv : (raw >>> 16).toUInt16.toNat = raw.toNat / 65536 := by
      rw [UInt32.toNat_toUInt16, UInt32.toNat_shiftRight]
      show raw.toNat >>> 16 % 65536 = _
      rw [Nat.shiftRight_eq_div_pow]
      omega
    refine UInt32.toNat_inj.mp ?_
    rw [Published.encode, PeerId.toNat_or _ (by decide), hdiv]
    show raw.toNat = raw.toNat / 65536 * 65536 + Published.tag.toNat
    omega
  · rintro rfl
    exact Published.decode?_encode p

theorem Published.encode_injective : Function.Injective Published.encode := by
  intro p q h
  have hdecode := congrArg Published.decode? h
  rw [decode?_encode, decode?_encode] at hdecode
  exact Option.some.inj hdecode

/-- **Words and what they carry are exact inverses.**  A message is read as the peer and the command
that it was composed of, and its status is the command's code.  A word is such a message if and only
if its second byte is zero and its low byte is a code; the peer and the command are then the ones
that are read from it.

Of any word that is written as a message, the lower half is the status, which never has all bits
set.  It is spurious if and only if it is zero, and otherwise a byte of 7 signals the semaphore, a
byte of 4 the event flag, and any other byte neither.  So a composed message signals what its
command says.

A word publishes a peer if and only if it is the word that the peer is published by, and no two
peers are published by the same word. -/
theorem codecs_exact :
    (∀ p c, (Message.compose p c).destination = p ∧ (Message.compose p c).code = c.code ∧
      (Message.compose p c).command? = some c ∧
      (Message.compose p c).status = c.code.toUInt32) ∧
    (∀ m : Message, (∃ p c, m = Message.compose p c) ↔
      m.raw.toNat / 256 % 256 = 0 ∧ m.raw.toNat % 256 ≤ 7) ∧
    (∀ (m : Message) p c, m = Message.compose p c ↔
      m.raw.toNat / 256 % 256 = 0 ∧ m.destination = p ∧ m.command? = some c) ∧
    (∀ m : Message,
      let low := m.raw.toNat % 65536
      let byte := m.raw.toNat % 256
      m.status ≠ 0xFFFFFFFF ∧
      (StatusEvent.classify m.status = .spurious ↔ low = 0) ∧
      (StatusEvent.classify m.status = .semaphore ↔ byte = 7) ∧
      (StatusEvent.classify m.status = .event ↔ byte = 4) ∧
      ∀ status, StatusEvent.classify m.status = .unrecognized status ↔
        low ≠ 0 ∧ byte ≠ 7 ∧ byte ≠ 4 ∧ status.toNat = low) ∧
    (∀ p c,
      (StatusEvent.classify (Message.compose p c).status = .semaphore ↔
        c.signalsSemaphore = true) ∧
      (StatusEvent.classify (Message.compose p c).status = .event ↔ c.signalsEvent = true)) ∧
    (∀ raw p, Published.decode? raw = some p ↔ raw = Published.encode p) ∧
    Function.Injective Published.encode := by
  refine ⟨fun p c => ⟨Message.destination_compose p c, Message.code_compose p c,
      Message.command?_compose p c, Message.status_compose p c⟩,
    fun m => Message.exists_eq_compose_iff, fun m p c => Message.eq_compose_iff, ?_, ?_,
    fun raw p => Published.decode?_eq_some_iff, Published.encode_injective⟩
  · intro m low byte
    have hstatus (status : UInt32) : m.status = status ↔ status.toNat = low := by
      rw [← UInt32.toNat_inj, Message.toNat_status]
      exact eq_comm
    have hbyte : byte = low % 256 := (Nat.mod_mod_of_dvd _ (by decide)).symm
    rw [Message.classify_status]
    refine ⟨m.status_ne_invalid, ?_⟩
    by_cases hzero : low = 0
    · rw [if_pos hzero]
      simp [hzero, hbyte]
    · rw [if_neg hzero]
      by_cases h7 : byte = 7
      · rw [if_pos h7]
        simp [hzero, h7]
      · rw [if_neg h7]
        by_cases h4 : byte = 4
        · rw [if_pos h4]
          simp [hzero, h4]
        · rw [if_neg h4]
          simp [hzero, h7, h4, hstatus]
  · intro p c
    rw [Message.status_compose]
    cases c <;> decide

end PeerBus
