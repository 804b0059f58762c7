/-
# `PeerBus.Table` — tables of objects under permanent numbers

A machine owns objects of several kinds and refers to each by a `Ref` of its kind.  A `Table`
holds the objects of one kind; it only grows, so a reference stays good.  Reading a reference
that was never given out yields the default object, and changing it changes nothing.
-/
namespace PeerBus

/-- The kinds of objects that a machine owns. -/
inductive Kind where
  | region
  | recorder
  | words
  | endpoint
  | fabric
  | line
  | probe
  | device
  | semaphore
  | event
  deriving DecidableEq

/-- The number of an object of one kind. -/
structure Ref (kind : Kind) where
  index : Nat
  deriving DecidableEq

/-- The objects of one kind, numbered from zero. -/
structure Table (kind : Kind) (α : Type) where
  entries : Array α := #[]

namespace Table

variable {kind : Kind} {α : Type}

/-- The reference that the next object receives. -/
def fresh (t : Table kind α) : Ref kind := ⟨t.entries.size⟩

/-- Adds an object; its reference is `fresh`. -/
def push (t : Table kind α) (a : α) : Table kind α := ⟨t.entries.push a⟩

/-- Whether the reference was given out by this table. -/
def Has (t : Table kind α) (r : Ref kind) : Prop := r.index < t.entries.size

instance (t : Table kind α) (r : Ref kind) : Decidable (t.Has r) :=
  inferInstanceAs (Decidable (_ < _))

/-- The object under a reference. -/
def get [Inhabited α] (t : Table kind α) (r : Ref kind) : α := t.entries[r.index]?.getD default

/-- Changes the object under a reference. -/
def modify (t : Table kind α) (r : Ref kind) (f : α → α) : Table kind α :=
  ⟨t.entries.modify r.index f⟩

/-- Replaces the object under a reference. -/
def set (t : Table kind α) (r : Ref kind) (a : α) : Table kind α := t.modify r fun _ => a

/-! ## Which references a table has -/

section Has

variable {t : Table kind α} {r : Ref kind}

theorem has_modify (t : Table kind α) (r s : Ref kind) (f : α → α) :
    (t.modify r f).Has s ↔ t.Has s := by
  simp [Has, modify]

theorem has_push_iff (t : Table kind α) (a : α) (r : Ref kind) :
    (t.push a).Has r ↔ t.Has r ∨ r = t.fresh := by
  obtain ⟨i⟩ := r
  simp only [Has, push, Array.size_push, fresh, Ref.mk.injEq]
  omega

theorem has_push_fresh (t : Table kind α) (a : α) : (t.push a).Has t.fresh :=
  (has_push_iff ..).mpr (.inr rfl)

theorem has_push_of_has (h : t.Has r) (a : α) : (t.push a).Has r :=
  (has_push_iff ..).mpr (.inl h)

theorem not_has_fresh (t : Table kind α) : ¬t.Has t.fresh :=
  Nat.lt_irrefl _

theorem ne_fresh_of_has (h : t.Has r) : r ≠ t.fresh := by
  rintro rfl
  exact t.not_has_fresh h

end Has

/-! ## What a reference yields -/

section Get

variable [Inhabited α] {t : Table kind α} {r : Ref kind}

theorem getElem?_of_has (h : t.Has r) : t.entries[r.index]? = some (t.get r) := by
  have h' : r.index < t.entries.size := h
  simp [get, Array.getElem?_eq_getElem h']

theorem get_of_not_has (h : ¬t.Has r) : t.get r = default := by
  simp only [Has, Nat.not_lt] at h
  simp [get, Array.getElem?_eq_none h]

theorem get_modify_self (h : t.Has r) (f : α → α) : (t.modify r f).get r = f (t.get r) := by
  rw [get, modify, Array.getElem?_modify, if_pos rfl, getElem?_of_has h]
  rfl

/-- If a change leaves the default object as it is, the reference need not have been given out. -/
theorem get_modify_self_of_default {f : α → α} (hf : f default = default) (t : Table kind α)
    (r : Ref kind) : (t.modify r f).get r = f (t.get r) := by
  by_cases h : t.Has r
  · exact get_modify_self h f
  · have hnot : ¬(t.modify r f).Has r := fun hm => h ((has_modify ..).mp hm)
    rw [get_of_not_has h, get_of_not_has hnot, hf]

theorem get_modify_of_ne (t : Table kind α) {r s : Ref kind} (h : r ≠ s) (f : α → α) :
    (t.modify r f).get s = t.get s := by
  have h' : r.index ≠ s.index := fun e => h (by cases r; cases s; cases e; rfl)
  simp [get, modify, Array.getElem?_modify, h']

/-- What a change of one object keeps of that object, it keeps of all of them. -/
theorem get_modify_keeps_at {β : Type} (t : Table kind α) (r s : Ref kind) {f : α → α}
    (view : α → β) (keep : view (f (t.get r)) = view (t.get r)) :
    view ((t.modify r f).get s) = view (t.get s) := by
  by_cases hr : r = s
  · subst hr
    by_cases hhas : t.Has r
    · rw [get_modify_self hhas, keep]
    · have hnot : ¬(t.modify r f).Has r := fun h => hhas ((has_modify ..).mp h)
      rw [get_of_not_has hhas, get_of_not_has hnot]
  · rw [get_modify_of_ne t hr]

/-- What every change of an object keeps, a change of one object keeps. -/
theorem get_modify_keeps {β : Type} (t : Table kind α) (r s : Ref kind) {f : α → α}
    (view : α → β) (keep : ∀ a, view (f a) = view a) :
    view ((t.modify r f).get s) = view (t.get s) :=
  t.get_modify_keeps_at r s view (keep _)

theorem get_push_fresh (t : Table kind α) (a : α) : (t.push a).get t.fresh = a := by
  simp [get, push, fresh]

theorem get_push_of_ne (h : r ≠ t.fresh) (a : α) : (t.push a).get r = t.get r := by
  have h' : r.index ≠ t.entries.size := fun e => h (by cases r; cases e; rfl)
  simp [get, push, Array.getElem?_push, h']

theorem get_push_of_has (h : t.Has r) (a : α) : (t.push a).get r = t.get r :=
  get_push_of_ne (ne_fresh_of_has h) a

end Get

/-! ## Changes one after the other -/

theorem modify_modify (t : Table kind α) (r : Ref kind) (f g : α → α) :
    (t.modify r f).modify r g = t.modify r (g ∘ f) := by
  simp only [modify, mk.injEq]
  apply Array.ext_getElem?
  intro i
  simp only [Array.getElem?_modify]
  split <;> simp

theorem modify_push_fresh (t : Table kind α) (a : α) (f : α → α) :
    (t.push a).modify t.fresh f = t.push (f a) := by
  simp only [modify, push, fresh, mk.injEq]
  apply Array.ext_getElem?
  intro i
  simp only [Array.getElem?_modify, Array.getElem?_push]
  by_cases hi : i = t.entries.size
  · simp [hi]
  · simp [hi, Ne.symm hi]

theorem modify_id (t : Table kind α) (r : Ref kind) : (t.modify r fun a => a) = t := by
  cases t
  simp only [modify, mk.injEq]
  apply Array.ext_getElem?
  intro i
  simp only [Array.getElem?_modify]
  split <;> simp

section Changes

variable [Inhabited α] {t : Table kind α} {r : Ref kind} {f g : α → α}

/-- Only what a change makes of the object there is matters. -/
theorem modify_congr (h : f (t.get r) = g (t.get r)) : t.modify r f = t.modify r g := by
  simp only [modify, mk.injEq]
  apply Array.ext_getElem?
  intro i
  rw [Array.getElem?_modify, Array.getElem?_modify]
  split
  · rename_i hi
    subst hi
    by_cases hhas : t.Has r
    · rw [getElem?_of_has hhas, Option.map_some, Option.map_some, h]
    · rw [Array.getElem?_eq_none (Nat.not_lt.mp hhas)]
      rfl
  · rfl

/-- A change that leaves the object as it is changes nothing. -/
theorem modify_eq_self (h : f (t.get r) = t.get r) : t.modify r f = t :=
  (modify_congr h).trans (t.modify_id r)

end Changes

end Table

end PeerBus
