/-
# `PeerBus.Proofs.Throughput` — counts that stop at the largest word

A throughput counts four bytes for each slot.  The product must be exact, and so an entry of 2^62
slots or more is refused and changes nothing (`Throughput.record_eq_error_iff`); the sums stop at
the largest word.  Since a sum that has stopped cannot go back, it does not matter where it stops:
written and read bytes are each the exact sum of what was accepted, cut at the largest word once
(`Throughput.toNat_total`), in whichever order the entries were made (`Throughput.total_of_perm`).
The passes of a role all make one entry, and only their number matters (`Throughput.afterPasses`).
-/
import PeerBus.Handshake.Throughput
import Mathlib.Algebra.GroupWithZero.Nat

namespace PeerBus

theorem Word.mul_eq_error_iff {a b : UInt64} {o : Overflow} :
    mul a b = .error o ↔ o = .product ∧ UInt64.size ≤ a.toNat * b.toNat := by
  unfold mul
  split
  · rename_i hlt
    exact iff_of_false nofun fun h => Nat.not_lt.mpr h.2 hlt
  · rename_i hge
    rw [Except.error.injEq, eq_comm]
    exact (and_iff_left (Nat.not_lt.mp hge)).symm

namespace Throughput

/-- The bytes of slots, if they are a word. -/
theorem mul_slotSize {slots : UInt64} (h : 4 * slots.toNat < UInt64.size) :
    Word.mul slots Layout.slotSize = .ok (slots * Layout.slotSize) ∧
      (slots * Layout.slotSize).toNat = 4 * slots.toNat := by
  have hfour : Layout.slotSize.toNat = 4 := rfl
  have hok : Word.mul slots Layout.slotSize = .ok (slots * Layout.slotSize) := by
    unfold Word.mul
    rw [if_pos]
    rw [hfour]
    omega
  refine ⟨hok, ?_⟩
  rw [Word.mul_eq_ok_iff.mp hok, hfour]
  omega

theorem recordWrites_eq {slots : UInt64} (h : 4 * slots.toNat < UInt64.size) (t : Throughput) :
    t.recordWrites slots =
      .ok { t with written := Word.saturatingAdd t.written (slots * Layout.slotSize) } := by
  rw [recordWrites, (mul_slotSize h).1]
  rfl

theorem recordReads_eq {slots : UInt64} (h : 4 * slots.toNat < UInt64.size) (t : Throughput) :
    t.recordReads slots =
      .ok { t with read := Word.saturatingAdd t.read (slots * Layout.slotSize) } := by
  rw [recordReads, (mul_slotSize h).1]
  rfl

/-! ## Entries -/

variable {t : Throughput}

/-- Slots that are to be counted. -/
inductive Entry where
  | writes (slots : UInt64)
  | reads (slots : UInt64)
  deriving DecidableEq

namespace Entry

/-- The number of slots. -/
def slots : Entry → UInt64
  | writes slots | reads slots => slots

/-- The slots that were written. -/
def written : Entry → Nat
  | writes slots => slots.toNat
  | reads _ => 0

/-- The slots that were read. -/
def read : Entry → Nat
  | writes _ => 0
  | reads slots => slots.toNat

end Entry

/-- Counts an entry. -/
def record (t : Throughput) : Entry → Except Overflow Throughput
  | .writes slots => t.recordWrites slots
  | .reads slots => t.recordReads slots

/-- The throughput after an entry, which is the same as before if the entry is refused. -/
def after (t : Throughput) (e : Entry) : Throughput := (t.record e).toOption.getD t

/-- The throughput after some entries. -/
def total (t : Throughput) (entries : List Entry) : Throughput := entries.foldl after t

/-- The entries whose bytes are a word. -/
def accepted (entries : List Entry) : List Entry :=
  entries.filter fun e => e.slots.toNat < 2 ^ 62

/-- Whether an entry is refused does not depend on what was counted before. -/
theorem record_eq_error_iff {e : Entry} {o : Overflow} :
    t.record e = .error o ↔ o = .product ∧ 2 ^ 62 ≤ e.slots.toNat := by
  have hmap {α β : Type} (f : α → β) (r : Except Overflow α) :
      r.map f = .error o ↔ r = .error o := by
    cases r <;> simp [Except.map]
  have hmul : Word.mul e.slots Layout.slotSize = .error o ↔
      o = .product ∧ 2 ^ 62 ≤ e.slots.toNat := by
    rw [Word.mul_eq_error_iff]
    refine and_congr_right fun _ => ?_
    show 2 ^ 64 ≤ e.slots.toNat * 4 ↔ _
    omega
  cases e <;> exact (hmap ..).trans hmul

theorem after_of_refused {e : Entry} (h : 2 ^ 62 ≤ e.slots.toNat) : t.after e = t := by
  rw [after, record_eq_error_iff.mpr ⟨rfl, h⟩]
  rfl

/-- What is accepted is added to its own sum only. -/
theorem record_of_accepted {e : Entry} (h : e.slots.toNat < 2 ^ 62) :
    t.record e = .ok (t.after e) ∧
      (t.after e).written.toNat = min (2 ^ 64 - 1) (t.written.toNat + 4 * e.written) ∧
      (t.after e).read.toNat = min (2 ^ 64 - 1) (t.read.toNat + 4 * e.read) := by
  have hbytes : 4 * e.slots.toNat < UInt64.size := by
    show _ < 2 ^ 64
    omega
  have hwritten := t.written.toNat_lt
  have hread := t.read.toNat_lt
  cases e with
  | writes slots =>
      have hbytes : 4 * slots.toNat < UInt64.size := hbytes
      rw [after, record, recordWrites_eq hbytes]
      refine ⟨rfl, ?_, ?_⟩
      · show (Word.saturatingAdd t.written (slots * Layout.slotSize)).toNat = _
        rw [Word.toNat_saturatingAdd, (mul_slotSize hbytes).2, Nat.min_comm]
        rfl
      · show t.read.toNat = min _ (t.read.toNat + 4 * 0)
        omega
  | reads slots =>
      have hbytes : 4 * slots.toNat < UInt64.size := hbytes
      rw [after, record, recordReads_eq hbytes]
      refine ⟨rfl, ?_, ?_⟩
      · show t.written.toNat = min _ (t.written.toNat + 4 * 0)
        omega
      · show (Word.saturatingAdd t.read (slots * Layout.slotSize)).toNat = _
        rw [Word.toNat_saturatingAdd, (mul_slotSize hbytes).2, Nat.min_comm]
        rfl

/-- The slots that were written are the exact sum of those accepted, and so are those read. -/
theorem toNat_total (t : Throughput) (entries : List Entry) :
    (t.total entries).written.toNat =
        min (2 ^ 64 - 1) (t.written.toNat + 4 * ((accepted entries).map Entry.written).sum) ∧
      (t.total entries).read.toNat =
        min (2 ^ 64 - 1) (t.read.toNat + 4 * ((accepted entries).map Entry.read).sum) := by
  induction entries generalizing t with
  | nil =>
      have hwritten := t.written.toNat_lt
      have hread := t.read.toNat_lt
      show t.written.toNat = min _ (t.written.toNat + 4 * 0) ∧
        t.read.toNat = min _ (t.read.toNat + 4 * 0)
      omega
  | cons e entries ih =>
      obtain ⟨ihwritten, ihread⟩ := ih (t.after e)
      show ((t.after e).total entries).written.toNat = _ ∧
        ((t.after e).total entries).read.toNat = _
      rw [ihwritten, ihread]
      by_cases h : e.slots.toNat < 2 ^ 62
      · have hcons : accepted (e :: entries) = e :: accepted entries :=
          List.filter_cons_of_pos (decide_eq_true h)
        obtain ⟨-, hwritten, hread⟩ := record_of_accepted (t := t) h
        rw [hcons, List.map_cons, List.map_cons, List.sum_cons, List.sum_cons, hwritten, hread]
        omega
      · have hcons : accepted (e :: entries) = accepted entries :=
          List.filter_cons_of_neg (by rwa [decide_eq_true_iff])
        rw [hcons, after_of_refused (Nat.le_of_not_lt h)]
        exact ⟨rfl, rfl⟩

/-- The order of the entries does not matter. -/
theorem total_of_perm {entries entries' : List Entry} (h : entries.Perm entries') :
    t.total entries = t.total entries' := by
  have hsum (count : Entry → Nat) :
      ((accepted entries).map count).sum = ((accepted entries').map count).sum :=
    ((h.filter _).map count).sum_nat
  obtain ⟨hwritten, hread⟩ := toNat_total t entries
  obtain ⟨hwritten', hread'⟩ := toNat_total t entries'
  rw [hsum, ← hwritten'] at hwritten
  rw [hsum, ← hread'] at hread
  calc t.total entries
      = ⟨(t.total entries).written, (t.total entries).read⟩ := rfl
    _ = ⟨(t.total entries').written, (t.total entries').read⟩ := by
        rw [UInt64.toNat_inj.mp hwritten, UInt64.toNat_inj.mp hread]
    _ = t.total entries' := rfl

/-- Neither sum goes back. -/
theorem le_after (t : Throughput) (e : Entry) :
    t.written ≤ (t.after e).written ∧ t.read ≤ (t.after e).read := by
  have hwritten := t.written.toNat_lt
  have hread := t.read.toNat_lt
  by_cases h : e.slots.toNat < 2 ^ 62
  · obtain ⟨-, hwritten', hread'⟩ := record_of_accepted (t := t) h
    rw [UInt64.le_iff_toNat_le, UInt64.le_iff_toNat_le]
    omega
  · rw [after_of_refused (Nat.le_of_not_lt h)]
    exact ⟨UInt64.le_rfl, UInt64.le_rfl⟩

theorem read_after_writes (t : Throughput) (slots : UInt64) :
    (t.after (.writes slots)).read = t.read := by
  show ((t.recordWrites slots).toOption.getD t).read = _
  unfold recordWrites
  cases Word.mul slots Layout.slotSize <;> rfl

theorem written_after_reads (t : Throughput) (slots : UInt64) :
    (t.after (.reads slots)).written = t.written := by
  show ((t.recordReads slots).toOption.getD t).written = _
  unfold recordReads
  cases Word.mul slots Layout.slotSize <;> rfl

/-! ## Passes -/

/-- The throughput after so many passes, each of which makes the same entry. -/
def afterPasses (t : Throughput) (e : Entry) (passes : Nat) : Throughput :=
  Nat.repeat (fun t => t.after e) passes t

variable {e : Entry}

/-- One more pass. -/
theorem after_eq_afterPasses {before : Throughput} {passes : Nat}
    (h : t = before.afterPasses e passes) : t.after e = before.afterPasses e (passes + 1) :=
  congrArg (fun t => t.after e) h

/-- What no pass changes, all of them leave as it was. -/
theorem afterPasses_keeps {α : Type} (view : Throughput → α)
    (keep : ∀ t, view (t.after e) = view t) (t : Throughput) (passes : Nat) :
    view (t.afterPasses e passes) = view t := by
  induction passes with
  | zero => rfl
  | succ passes ih => exact (keep _).trans ih

/-- If the slots are few, no pass is refused, and the bytes are those of all passes. -/
theorem toNat_afterPasses (h : e.slots.toNat < 2 ^ 62) (t : Throughput) (passes : Nat) :
    (t.afterPasses e passes).written.toNat =
        min (2 ^ 64 - 1) (t.written.toNat + 4 * e.written * passes) ∧
      (t.afterPasses e passes).read.toNat =
        min (2 ^ 64 - 1) (t.read.toNat + 4 * e.read * passes) := by
  induction passes with
  | zero =>
      have hwritten := t.written.toNat_lt
      have hread := t.read.toNat_lt
      show t.written.toNat = min _ (t.written.toNat + 0) ∧ t.read.toNat = min _ (t.read.toNat + 0)
      omega
  | succ passes ih =>
      obtain ⟨ihwritten, ihread⟩ := ih
      obtain ⟨-, hwritten, hread⟩ := record_of_accepted (t := t.afterPasses e passes) h
      rw [← after_eq_afterPasses rfl, hwritten, hread, ihwritten, ihread, Nat.mul_succ,
        Nat.mul_succ]
      omega

end Throughput

end PeerBus
