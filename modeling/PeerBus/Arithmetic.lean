/-
# `PeerBus.Arithmetic` — exact arithmetic on machine words

Sizes, offsets and counters are machine words.  A sum or product of them either is the exact
integer or fails (`add`, `mul`, `addSigned`); a counter that must not fail stops at the largest
word (`saturatingAdd`, `saturatingSucc`).  Nothing here wraps.
-/
namespace PeerBus

/-- The operation whose exact result does not fit its word. -/
inductive Overflow where
  | sum
  | product
  deriving DecidableEq, Repr

namespace Overflow

/-- The text reported for an overflow. -/
def message : Overflow → String
  | .sum => "attempt to add with overflow"
  | .product => "attempt to multiply with overflow"

end Overflow

namespace Word

/-- The exact sum of two words, if it is a word. -/
def add (a b : UInt64) : Except Overflow UInt64 :=
  if a.toNat + b.toNat < UInt64.size then .ok (a + b) else .error .sum

/-- The exact product of two words, if it is a word. -/
def mul (a b : UInt64) : Except Overflow UInt64 :=
  if a.toNat * b.toNat < UInt64.size then .ok (a * b) else .error .product

/-- The exact sum of a word and a signed distance, if it is a word. -/
def addSigned (a : UInt64) (d : Int64) : Option UInt64 :=
  let target := (a.toNat : Int) + d.toInt
  if 0 ≤ target ∧ target < (UInt64.size : Int) then some (UInt64.ofNat target.toNat) else none

/-- The sum of two words, stopping at the largest word. -/
def saturatingAdd (a b : UInt64) : UInt64 :=
  if a.toNat + b.toNat < UInt64.size then a + b else UInt64.ofNat (UInt64.size - 1)

/-- The next 32-bit word, stopping at the largest one. -/
def saturatingSucc (a : UInt32) : UInt32 :=
  if a.toNat + 1 < UInt32.size then a + 1 else a

theorem add_eq_ok_iff {a b c : UInt64} :
    add a b = .ok c ↔ c.toNat = a.toNat + b.toNat := by
  have hc := c.toNat_lt
  unfold add
  split
  · rename_i h
    rw [Except.ok.injEq, ← UInt64.toNat_inj, UInt64.toNat_add]
    rw [Nat.mod_eq_of_lt h]
    exact eq_comm
  · rename_i h
    simp only [reduceCtorEq, false_iff]
    simp only [UInt64.size] at h
    omega

theorem mul_eq_ok_iff {a b c : UInt64} :
    mul a b = .ok c ↔ c.toNat = a.toNat * b.toNat := by
  have hc := c.toNat_lt
  unfold mul
  split
  · rename_i h
    rw [Except.ok.injEq, ← UInt64.toNat_inj, UInt64.toNat_mul]
    rw [Nat.mod_eq_of_lt h]
    exact eq_comm
  · rename_i h
    simp only [reduceCtorEq, false_iff]
    simp only [UInt64.size] at h
    omega

theorem toNat_saturatingAdd (a b : UInt64) :
    (saturatingAdd a b).toNat = min (a.toNat + b.toNat) (UInt64.size - 1) := by
  unfold saturatingAdd
  split
  · rename_i h
    rw [UInt64.toNat_add, Nat.mod_eq_of_lt h]
    omega
  · rename_i h
    have : (UInt64.ofNat (UInt64.size - 1)).toNat = UInt64.size - 1 := by decide
    rw [this]
    omega

theorem toNat_saturatingSucc (a : UInt32) :
    (saturatingSucc a).toNat = min (a.toNat + 1) (UInt32.size - 1) := by
  have ha := a.toNat_lt
  unfold saturatingSucc
  split
  · rename_i h
    rw [UInt32.toNat_add, Nat.mod_eq_of_lt (by simpa using h)]
    simp only [UInt32.toNat_ofNat]
    omega
  · rename_i h
    simp only [UInt32.size] at h ⊢
    omega

end Word

end PeerBus
