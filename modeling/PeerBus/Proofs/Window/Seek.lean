/-
# `PeerBus.Proofs.Window.Seek` — seeks are exact

A seek in a window of `n` bytes counts from the start, from the position `p` or from the end.  Its
target is an integer (`Stream.goal`):

| seek | target `T` |
| :-- | :-- |
| `start offset` | `offset` |
| `current distance` | `p + distance` |
| `finish distance` | `n + distance` |

A target below zero, or one that is no word, is refused; a target past the end is moved to the end.
So two seeks from the position come to one over the sum of their distances as long as neither of
them is moved: past the end, the second one would count from the end instead.
-/
import PeerBus.Proofs.Window.Stream

namespace PeerBus

/-- A sum that is a signed word is computed as it is. -/
theorem Word.toInt_add {a b : Int64} (hlo : Int64.minValue.toInt ≤ a.toInt + b.toInt)
    (hhi : a.toInt + b.toInt ≤ Int64.maxValue.toInt) : (a + b).toInt = a.toInt + b.toInt := by
  rw [Int64.toInt_minValue] at hlo
  rw [Int64.toInt_maxValue] at hhi
  rw [Int64.toInt_add]
  refine Int.bmod_eq_of_le ?_ ?_ <;> omega

namespace Stream

variable {m : Machine} {s : Stream} {r : Ref .region}

/-- The target before it is moved to the end: there is one if it is a word, and then it is exact. -/
theorem target?_eq_some_iff {size position : UInt64} {origin : SeekFrom} {target : UInt64} :
    Cursor.target? size position origin = some target ↔
      (target.toNat : Int) = goal size.toNat position.toNat origin := by
  have hlt := target.toNat_lt
  rw [target?_eq]
  constructor
  · intro h
    obtain ⟨hword, hsome⟩ := (Option.ite_none_right_eq_some ..).mp h
    obtain rfl := Option.some.inj hsome
    have hexact : (goal size.toNat position.toNat origin).toNat < 2 ^ 64 := by
      have hbound := hword.2
      simp only [UInt64.size] at hbound
      omega
    rw [UInt64.toNat_ofNat', Nat.mod_eq_of_lt hexact]
    exact Int.toNat_of_nonneg hword.1
  · intro h
    have hword : 0 ≤ goal size.toNat position.toNat origin ∧
        goal size.toNat position.toNat origin < (UInt64.size : Int) := by
      rw [← h]
      simp only [UInt64.size]
      omega
    rw [if_pos hword, ← h, Int.toNat_natCast, UInt64.ofNat_toNat]

/-- The position that a seek with this target goes to. -/
theorem toNat_clamped (memory : Memory) (target : Nat) :
    (UInt64.ofNat (min target memory.bytes.size)).toNat = min target memory.bytes.size := by
  have hlt : min target memory.bytes.size < UInt64.size :=
    Nat.lt_of_le_of_lt (Nat.min_le_right ..) memory.size_lt
  exact UInt64.toNat_ofNat_of_lt' hlt

/-- A target that is a word, be it inside the window or past its end. -/
def IsWord (target : Int) : Prop := 0 ≤ target ∧ target < (UInt64.size : Int)

namespace Over

variable {origin : SeekFrom} (h : s.Over r m)
include h

theorem seek_of_isWord
    (hword : IsWord (goal (m.regions.get r).bytes.size s.position.toNat origin)) :
    ∃ position : UInt64,
      position.toNat = min (goal (m.regions.get r).bytes.size s.position.toNat origin).toNat
        (m.regions.get r).bytes.size ∧
      s.seek m origin = ({ s with position := position }, .ok position) :=
  ⟨_, toNat_clamped _ _, (h.seek_eq origin).trans (if_pos hword)⟩

theorem seek_of_not_isWord
    (hword : ¬IsWord (goal (m.regions.get r).bytes.size s.position.toNat origin)) :
    s.seek m origin = (s, .error (.device .invalidSeek)) :=
  (h.seek_eq origin).trans (if_neg hword)

/-- A seek from the position that stays within the window goes to its target. -/
theorem seek_current {distance : Int64} (hlo : 0 ≤ s.position.toNat + distance.toInt)
    (hhi : s.position.toNat + distance.toInt ≤ (m.regions.get r).bytes.size) :
    ∃ position : UInt64, (position.toNat : Int) = s.position.toNat + distance.toInt ∧
      s.seek m (.current distance) = ({ s with position := position }, .ok position) := by
  have hsize := (m.regions.get r).size_lt
  have hgoal : goal (m.regions.get r).bytes.size s.position.toNat (.current distance) =
      s.position.toNat + distance.toInt := rfl
  have hword : IsWord (s.position.toNat + distance.toInt) := ⟨hlo, by omega⟩
  obtain ⟨position, hposition, hseek⟩ := h.seek_of_isWord (hgoal ▸ hword)
  refine ⟨position, ?_, hseek⟩
  rw [hgoal] at hposition
  omega

/-- A stream that was moved within the window is still over it. -/
theorem moved {position : UInt64} (hinside : position.toNat ≤ (m.regions.get r).bytes.size) :
    ({ s with position := position } : Stream).Over r m :=
  ⟨h.has, h.shows, hinside⟩

/-- The second of two seeks counts from where the first one went. -/
theorem seek_seek {a b : Int64} (hsum : (a + b).toInt = a.toInt + b.toInt)
    (hlo : 0 ≤ s.position.toNat + a.toInt)
    (hhi : s.position.toNat + a.toInt ≤ (m.regions.get r).bytes.size)
    (hlo' : 0 ≤ s.position.toNat + (a.toInt + b.toInt))
    (hhi' : s.position.toNat + (a.toInt + b.toInt) ≤ (m.regions.get r).bytes.size) :
    (s.seek m (.current a)).1.seek m (.current b) = s.seek m (.current (a + b)) := by
  obtain ⟨first, hfirst, hseek⟩ := h.seek_current hlo hhi
  have hmoved : ({ s with position := first } : Stream).Over r m := h.moved (by omega)
  have hthere : (first.toNat : Int) + b.toInt = s.position.toNat + (a.toInt + b.toInt) := by
    rw [hfirst, Int.add_assoc]
  have hinside : 0 ≤ (first.toNat : Int) + b.toInt ∧
      (first.toNat : Int) + b.toInt ≤ (m.regions.get r).bytes.size := by
    rw [hthere]
    exact ⟨hlo', hhi'⟩
  have hinside' : 0 ≤ (s.position.toNat : Int) + (a + b).toInt ∧
      (s.position.toNat : Int) + (a + b).toInt ≤ (m.regions.get r).bytes.size := by
    rw [hsum]
    exact ⟨hlo', hhi'⟩
  obtain ⟨last, hlast, hsecond⟩ := hmoved.seek_current hinside.1 hinside.2
  obtain ⟨whole, hwhole, honce⟩ := h.seek_current hinside'.1 hinside'.2
  have hsame : last = whole := by
    refine UInt64.toNat_inj.mp (Int.ofNat.inj ?_)
    calc (last.toNat : Int) = first.toNat + b.toInt := hlast
      _ = s.position.toNat + (a.toInt + b.toInt) := hthere
      _ = whole.toNat := by rw [hwhole, hsum]
  rw [hseek, hsecond, honce, hsame]

end Over

/-- **Seeks are exact.**  Let a stream be over a window of `n` bytes, at the position `p`; both are
any words with `p ≤ n`.  The target of a seek is computed without wrapping: there is a word for it
just if it is one, as an integer.  Then, and only then, the seek succeeds; it goes to the target, or
to the end if that is less, tells the new position, and changes nothing else.  Otherwise it fails,
as input that is not valid, and the stream is what it was.  Two seeks from the position come to one
over the sum of their distances if that is a signed word and none of the two targets is outside the
window. -/
theorem seek_exact (h : s.Over r m) :
    let n := (m.regions.get r).bytes.size
    let p := s.position.toNat
    (m.regions.get r).size.toNat = n ∧ p ≤ n ∧
    (∀ origin,
      let target := goal n p origin
      (∀ word, Cursor.target? (m.regions.get r).size s.position origin = some word ↔
        (word.toNat : Int) = target) ∧
      ((∃ position : UInt64, position.toNat = min target.toNat n ∧
          s.seek m origin = ({ s with position := position }, .ok position)) ↔
        0 ≤ target ∧ target < (UInt64.size : Int)) ∧
      (s.seek m origin = (s, .error (.device .invalidSeek)) ↔
        ¬(0 ≤ target ∧ target < (UInt64.size : Int)))) ∧
    (StreamError.device .invalidSeek).kind = .invalidInput ∧
    ∀ a b : Int64, Int64.minValue.toInt ≤ a.toInt + b.toInt →
      a.toInt + b.toInt ≤ Int64.maxValue.toInt →
      0 ≤ p + a.toInt → p + a.toInt ≤ n → 0 ≤ p + (a.toInt + b.toInt) →
      p + (a.toInt + b.toInt) ≤ n →
      (s.seek m (.current a)).1.seek m (.current b) = s.seek m (.current (a + b)) := by
  intro n p
  refine ⟨Memory.toNat_size _, h.inside, ?_, rfl, ?_⟩
  · intro origin target
    refine ⟨?_, ?_⟩
    · intro word
      rw [target?_eq_some_iff, Memory.toNat_size]
    · by_cases hword : IsWord target
      · have hthere := h.seek_of_isWord hword
        refine ⟨iff_of_true hthere hword, iff_of_false ?_ (not_not_intro hword)⟩
        obtain ⟨position, -, hseek⟩ := hthere
        rw [hseek]
        exact fun heq => nomatch (Prod.mk.inj heq).2
      · have hrefused := h.seek_of_not_isWord hword
        refine ⟨iff_of_false ?_ hword, iff_of_true hrefused hword⟩
        rintro ⟨position, -, hseek⟩
        exact nomatch (Prod.mk.inj (hseek.symm.trans hrefused)).2
  · intro a b hmin hmax hlo hhi hlo' hhi'
    exact h.seek_seek (Word.toInt_add hmin hmax) hlo hhi hlo' hhi'

/-- To be moved to the end is to lose the rest of the distance. -/
example : Cursor.seek 10 5 (.current 8) = .ok 10 ∧ Cursor.seek 10 10 (.current (-3)) = .ok 7 ∧
    Cursor.seek 10 5 (.current (8 + -3)) = .ok 10 := by
  decide

/-- A device with the longest window that there can be. -/
def longest : Machine :=
  let m := (((Machine.addLine {} 5).1.addRegion 0xFFFFFFFFFFFFFFFF).1.addWords).1
  (m.attach (some (.words ⟨0⟩)) (some ⟨0⟩) ⟨0⟩).1

/-- At the end of all positions there is one step back, and none forward. -/
theorem seek_exact_longest :
    let s : Stream := ⟨⟨0⟩, 0xFFFFFFFFFFFFFFFF⟩
    s.Over ⟨0⟩ longest ∧
    s.seek longest (.current 1) = (s, .error (.device .invalidSeek)) ∧
    (s.seek longest (.current Int64.minValue)).1.seek longest (.current Int64.maxValue) =
      s.seek longest (.current (-1)) := by
  intro s
  have hmemory : longest.regions.get ⟨0⟩ = .zeroed 0xFFFFFFFFFFFFFFFF := rfl
  have hsize : (longest.regions.get ⟨0⟩).bytes.size = 0xFFFFFFFFFFFFFFFF := by
    rw [hmemory, Memory.size_bytes_zeroed]
    rfl
  have hover : s.Over ⟨0⟩ longest := ⟨by decide, ⟨rfl, rfl⟩, Nat.le_of_eq hsize.symm⟩
  obtain ⟨-, -, hseeks, -, hcompose⟩ := seek_exact hover
  rw [hsize] at hseeks hcompose
  refine ⟨hover, ?_, ?_⟩
  · exact (hseeks (.current 1)).2.2.mpr (by decide)
  · exact hcompose Int64.minValue Int64.maxValue (by decide) (by decide) (by decide) (by decide)
      (by decide) (by decide)

end Stream

end PeerBus
