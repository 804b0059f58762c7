/-
# `PeerBus.Proofs.Line` — registrations in the order of their tokens

A line counts up the tokens that it gives out, and puts whoever registers behind the others.  As
long as the tokens, which are numbers of 64 bits, have not come round, its registrations stand in
the order of their tokens (`Line.Orderly`), whoever comes and goes:

    request   one more, behind the others, with the next token
    release   the one with the token leaves; all others stay in their order

What a line takes away is the first registration that has the token.  Where all tokens differ, that
is the only one (`Registration.eraseP_token`).
-/
import PeerBus.Line
import Mathlib.Data.List.Pairwise

namespace PeerBus

/-! ## Registrations by their tokens -/

namespace Registration

variable {l : List Registration}

theorem token_ne_of_lt (h : l.Pairwise fun r s => r.token < s.token) :
    l.Pairwise fun r s => r.token ≠ s.token :=
  h.imp fun hlt hsame => absurd (hsame ▸ hlt) (UInt64.lt_irrefl _)

theorem eq_of_token (h : l.Pairwise fun r s => r.token < s.token) {r s : Registration}
    (hr : r ∈ l) (hs : s ∈ l) (htoken : r.token = s.token) : r = s := by
  have hsymm : Std.Symm fun r s : Registration => r.token ≠ s.token := ⟨fun _ _ hrs => hrs.symm⟩
  by_contra hrs
  exact (token_ne_of_lt h).forall hr hs hrs htoken

/-- Where the tokens differ, the first registration with a token is the only one. -/
theorem eraseP_token (h : l.Pairwise fun r s => r.token < s.token) (t : UInt64) :
    l.eraseP (fun r => r.token = t) = l.filter fun r => r.token ≠ t := by
  induction l with
  | nil => rfl
  | cons r l ih =>
      obtain ⟨hhead, htail⟩ := List.pairwise_cons.mp h
      by_cases hr : r.token = t
      · have hrest : l.filter (fun s => s.token ≠ t) = l := by
          refine List.filter_eq_self.mpr ?_
          intro s hs
          have hlt := hhead s hs
          rw [hr] at hlt
          exact decide_eq_true fun hsame => UInt64.lt_irrefl _ (hsame ▸ hlt)
        rw [List.eraseP_cons_of_pos (by simpa using hr),
          List.filter_cons_of_neg (by simpa using hr), hrest]
      · rw [List.eraseP_cons_of_neg (by simpa using hr),
          List.filter_cons_of_pos (by simpa using hr), ih htail]

/-- To take one of them away leaves those before it and those after it. -/
theorem filter_token {before after : List Registration} {r : Registration}
    (h : (before ++ r :: after).Pairwise fun r s => r.token < s.token) :
    (before ++ r :: after).filter (fun s => s.token ≠ r.token) = before ++ after := by
  obtain ⟨-, -, hacross⟩ := List.pairwise_append.mp (token_ne_of_lt h)
  have hbefore : ∀ s ∈ before, ¬decide (s.token = r.token) = true := by
    intro s hs
    simpa using hacross s hs r List.mem_cons_self
  rw [← eraseP_token h, List.eraseP_append_right _ hbefore, List.eraseP_cons_of_pos (by simp)]

end Registration

/-! ## Lines -/

namespace Line

/-- So many tokens have been given out, and the registrations stand in the order of theirs. -/
structure Orderly (given : Nat) (line : Line) : Prop where
  next : line.nextToken = UInt64.ofNat (given + 1)
  le : ∀ r ∈ line.registrations, r.token.toNat ≤ given
  increasing : line.registrations.Pairwise fun r s => r.token < s.token

namespace Orderly

variable {given : Nat} {line line' : Line}

theorem of_empty (hnext : line.nextToken = 1) (hnone : line.registrations = []) :
    line.Orderly 0 where
  next := hnext
  le := by
    rw [hnone]
    exact nofun
  increasing := hnone ▸ List.Pairwise.nil

/-- The number of a line does not matter. -/
theorem of_same (h : line.Orderly given) (hnext : line'.nextToken = line.nextToken)
    (hsame : line'.registrations = line.registrations) : line'.Orderly given where
  next := hnext.trans h.next
  le := hsame ▸ h.le
  increasing := hsame ▸ h.increasing

theorem toNat_next (h : line.Orderly given) (hroom : given + 1 < UInt64.size) :
    line.nextToken.toNat = given + 1 := by
  rw [h.next, UInt64.toNat_ofNat']
  exact Nat.mod_eq_of_lt hroom

theorem request (h : line.Orderly given) (hroom : given + 1 < UInt64.size) (handler : Handler) :
    (line.request handler).Orderly (given + 1) := by
  have hnext := h.toNat_next hroom
  refine ⟨?_, fun r hr => ?_, ?_⟩
  · show line.nextToken + 1 = _
    rw [h.next]
    exact (UInt64.ofNat_add (given + 1) 1).symm
  · rcases List.mem_append.mp hr with hr | hr
    · exact Nat.le_succ_of_le (h.le r hr)
    · obtain rfl := List.mem_singleton.mp hr
      exact Nat.le_of_eq hnext
  · refine List.pairwise_append.mpr
      ⟨h.increasing, List.pairwise_singleton .., fun r hr s hs => ?_⟩
    obtain rfl := List.mem_singleton.mp hs
    refine UInt64.lt_iff_toNat_lt.mpr ?_
    rw [hnext]
    exact Nat.lt_succ_of_le (h.le r hr)

theorem release (h : line.Orderly given) (token : UInt64) : (line.release token).Orderly given where
  next := h.next
  le r hr := h.le r (List.mem_of_mem_eraseP hr)
  increasing := h.increasing.sublist List.eraseP_sublist

/-- Whoever gives up his token leaves, and nobody else. -/
theorem mem_release (h : line.Orderly given) (token : UInt64) (r : Registration) :
    r ∈ (line.release token).registrations ↔ r ∈ line.registrations ∧ r.token ≠ token := by
  unfold Line.release
  rw [Registration.eraseP_token h.increasing, List.mem_filter, decide_eq_true_iff]

end Orderly

end Line

end PeerBus
