/-
# `PeerBus.Proofs.Machine.Registry` — the registrations of a line over their history

A line numbers its registrations from one as they are made.  Whoever makes a registration holds it,
and gives it up by dropping what he holds; a handler may go before or after its registrations, and
may have several of them.  The acts of a history say what was made, what was dropped and which
probes went, and nothing else decides who is on the line and whom an interrupt calls:

    request   one more registration, behind the others, with the next number
    drop      the registration that is dropped leaves; all others stay in their order
    retire    the handler is not called any more; its registrations stay
    raise     calls those who are on the line and still there
    others    happen elsewhere

A number has 64 bits.  As long as fewer than `2 ^ 64` registrations were made, the line with all of
them on it would be in order (`Follows.ever`), and so is the line with those that were not dropped.
-/
import PeerBus.Proofs.Machine.Calls
import Mathlib.Algebra.Group.Nat.Defs

namespace PeerBus

open Machine

namespace Registry

/-! ## Histories -/

/-- A machine, and the registrations on one of its lines that somebody holds. -/
structure Owned where
  machine : Machine
  held : List Seat

/-- What can happen to a line. -/
inductive Act where
  /-- A handler is registered, and the registration is handed out. -/
  | request (handler : Handler) (seat : Seat)
  /-- A registration that somebody holds is dropped. -/
  | drop (seat : Seat)
  /-- A handler goes. -/
  | retire (probe : Ref .probe)
  | raise
  /-- Something happens elsewhere. -/
  | others

/-- A line is as it was, and so are the probes that were there. -/
structure Elsewhere (l : Ref .line) (m m' : Machine) : Prop where
  hasLine : m.lines.Has l → m'.lines.Has l
  line : m'.lines.get l = m.lines.get l
  probes : ∀ p, m.probes.Has p →
    m'.probes.Has p ∧ (m'.probes.get p).alive = (m.probes.get p).alive

/-- What an act makes of a machine.  A handler that is registered is there, and nobody drops what
he does not hold. -/
inductive Step (l : Ref .line) : Owned → Act → Owned → Prop
  | request {m : Machine} {held : List Seat} {handler : Handler}
      (halive : m.alive handler = true) :
      Step l ⟨m, held⟩ (.request handler (m.request l handler).2)
        ⟨(m.request l handler).1, held ++ [(m.request l handler).2]⟩
  | drop {m : Machine} {held : List Seat} {seat : Seat} (hseat : seat ∈ held) :
      Step l ⟨m, held⟩ (.drop seat) ⟨m.release seat, held.erase seat⟩
  | retire {m : Machine} {held : List Seat} {p : Ref .probe} (hp : m.probes.Has p) :
      Step l ⟨m, held⟩ (.retire p) ⟨m.retireProbe p, held⟩
  | raise {m : Machine} {held : List Seat} (hl : m.Unlooped l) :
      Step l ⟨m, held⟩ .raise ⟨(m.raise l).1, held⟩
  | others {m m' : Machine} {held : List Seat} (h : Elsewhere l m m') :
      Step l ⟨m, held⟩ .others ⟨m', held⟩

/-- The registrations made, in order. -/
def made (acts : List Act) : List Registration :=
  acts.filterMap fun
    | .request handler seat => some ⟨seat.token, handler⟩
    | _ => none

/-- The numbers of the registrations dropped. -/
def dropped (acts : List Act) : List UInt64 :=
  acts.filterMap fun
    | .drop seat => some seat.token
    | _ => none

/-- The probes that went. -/
def retired (acts : List Act) : List (Ref .probe) :=
  acts.filterMap fun
    | .retire p => some p
    | _ => none

/-- The registrations that were made and not dropped, in the order of their making. -/
def outstanding (acts : List Act) : List Registration :=
  (made acts).filter fun r => r.token ∉ dropped acts

/-- Whether a handler went. -/
def gone (acts : List Act) : Handler → Bool
  | .device _ => false
  | .probe p => p ∈ retired acts

/-- The outstanding registrations whose handlers did not go. -/
def living (acts : List Act) : List Registration :=
  (outstanding acts).filter fun r => !gone acts r.handler

/-! ## One more act -/

section Snoc

variable {acts : List Act} {a : Act}

theorem made_snoc : made (acts ++ [a]) = made acts ++ made [a] := List.filterMap_append
theorem dropped_snoc : dropped (acts ++ [a]) = dropped acts ++ dropped [a] := List.filterMap_append
theorem retired_snoc : retired (acts ++ [a]) = retired acts ++ retired [a] := List.filterMap_append

/-- A registration that is made stands behind the others, if its number was not dropped. -/
theorem outstanding_request {handler : Handler} {seat : Seat} (hnew : seat.token ∉ dropped acts) :
    outstanding (acts ++ [.request handler seat]) =
      outstanding acts ++ [⟨seat.token, handler⟩] := by
  have hdropped : dropped (acts ++ [.request handler seat]) = dropped acts :=
    dropped_snoc.trans (List.append_nil _)
  unfold outstanding
  rw [made_snoc, hdropped, List.filter_append]
  congr 1
  exact List.filter_cons_of_pos (by simpa using hnew)

theorem outstanding_drop (seat : Seat) :
    outstanding (acts ++ [.drop seat]) =
      (outstanding acts).filter fun r => r.token ≠ seat.token := by
  have hmade : made (acts ++ [.drop seat]) = made acts := made_snoc.trans (List.append_nil _)
  unfold outstanding
  rw [hmade, dropped_snoc, List.filter_filter]
  congr 1
  funext r
  simp [dropped, and_comm]

/-- All other acts neither make nor drop anything. -/
theorem outstanding_of_none (hmade : made [a] = []) (hdropped : dropped [a] = []) :
    outstanding (acts ++ [a]) = outstanding acts := by
  unfold outstanding
  rw [made_snoc, dropped_snoc, hmade, hdropped, List.append_nil, List.append_nil]

end Snoc

/-! ## Who is on the line -/

/-- Who is on a line, what is held and which handlers are there follow from the acts so far. -/
structure Follows (l : Ref .line) (acts : List Act) (now : Owned) : Prop where
  hasLine : now.machine.lines.Has l
  /-- If nobody had ever left. -/
  ever : Line.Orderly (made acts).length
    { now.machine.lines.get l with registrations := made acts }
  onLine : now.machine.onLine l = outstanding acts
  held : now.held = (outstanding acts).map fun r => ⟨l, r.token⟩
  count : (outstanding acts).length + (dropped acts).length = (made acts).length
  past : ∀ t ∈ dropped acts, ∃ r ∈ made acts, r.token = t
  left : ∀ p ∈ retired acts,
    now.machine.probes.Has p ∧ (now.machine.probes.get p).alive = false
  stays : ∀ r ∈ made acts, ∀ p, r.handler = .probe p → p ∉ retired acts →
    now.machine.probes.Has p ∧ (now.machine.probes.get p).alive = true

variable {l : Ref .line} {acts : List Act} {now next : Owned} {a : Act}

/-- No act but its own going changes whether a probe is there. -/
theorem Step.probes (h : Step l now a next) {p : Ref .probe} (hp : now.machine.probes.Has p) :
    next.machine.probes.Has p ∧ (next.machine.probes.get p).alive =
      if p ∈ retired [a] then false else (now.machine.probes.get p).alive := by
  cases h with
  | request | drop => exact ⟨hp, rfl⟩
  | @retire m held q hq =>
      refine ⟨(Table.has_modify ..).mpr hp, ?_⟩
      by_cases hpq : q = p
      · subst hpq
        rw [if_pos (by simp [retired])]
        exact congrArg Probe.alive (Table.get_modify_self hq _)
      · rw [if_neg (by simpa [retired] using Ne.symm hpq)]
        exact congrArg Probe.alive (Table.get_modify_of_ne _ hpq _)
  | @raise m held _ =>
      have hcast := sameCast_raise m l
      exact ⟨(hcast.hasProbe p).mpr hp, hcast.alive p⟩
  | others h => exact h.probes p hp

namespace Follows

/-- A line that was just made. -/
theorem fresh (m : Machine) (number : UInt32) :
    Follows m.lines.fresh [] ⟨(m.addLine number).1, []⟩ := by
  have hget : (m.addLine number).1.lines.get m.lines.fresh = { number := number } :=
    Table.get_push_fresh ..
  exact
    { hasLine := Table.has_push_fresh ..
      ever := .of_empty (congrArg Line.nextToken hget) rfl
      onLine := congrArg Line.registrations hget
      held := rfl
      count := rfl
      past := nofun
      left := nofun
      stays := nofun }

theorem increasing (h : Follows l acts now) :
    (outstanding acts).Pairwise fun r s => r.token < s.token :=
  h.ever.increasing.filter _

theorem next_not_dropped (h : Follows l acts now) (hroom : (made acts).length + 1 < 2 ^ 64) :
    (now.machine.lines.get l).nextToken ∉ dropped acts := by
  intro hmem
  obtain ⟨r, hr, htoken⟩ := h.past _ hmem
  have hle := h.ever.le r hr
  rw [htoken, show _ = (made acts).length + 1 from h.ever.toNat_next hroom] at hle
  omega

/-- Whoever holds a registration finds it on the line. -/
theorem of_held (h : Follows l acts now) {seat : Seat} (hseat : seat ∈ now.held) :
    seat.line = l ∧ ∃ r ∈ outstanding acts, r.token = seat.token := by
  rw [h.held] at hseat
  obtain ⟨r, hr, rfl⟩ := List.mem_map.mp hseat
  exact ⟨rfl, r, hr, rfl⟩

/-- A registration that is dropped leaves the line, and no other does. -/
theorem onLine_release (h : Follows l acts now) {seat : Seat} (hseat : seat ∈ now.held) :
    (now.machine.release seat).onLine l =
      (outstanding acts).filter fun r => r.token ≠ seat.token := by
  obtain ⟨rfl, -⟩ := h.of_held hseat
  have hget : (now.machine.release seat).lines.get seat.line =
      (now.machine.lines.get seat.line).release seat.token :=
    Table.get_modify_self h.hasLine _
  calc (now.machine.release seat).onLine seat.line
      = (now.machine.onLine seat.line).eraseP fun r => r.token = seat.token :=
        congrArg Line.registrations hget
    _ = (outstanding acts).filter fun r => r.token ≠ seat.token := by
        rw [h.onLine, Registration.eraseP_token h.increasing]

/-- What is held after a drop is what is on the line then. -/
theorem held_erase (h : Follows l acts now) {seat : Seat} (hseat : seat ∈ now.held) :
    now.held.erase seat =
      ((outstanding acts).filter fun r => r.token ≠ seat.token).map fun r => ⟨l, r.token⟩ := by
  obtain ⟨rfl, -⟩ := h.of_held hseat
  have hnodup : ((outstanding acts).map fun r => (⟨seat.line, r.token⟩ : Seat)).Nodup := by
    refine List.pairwise_map.mpr ((Registration.token_ne_of_lt h.increasing).imp ?_)
    intro r s hne hsame
    exact hne (congrArg Seat.token hsame)
  have hkeeps : ∀ r : Registration,
      ((⟨seat.line, r.token⟩ : Seat) != seat) = decide (r.token ≠ seat.token) := by
    intro r
    by_cases hr : r.token = seat.token
    · simp [hr]
    · have hne : (⟨seat.line, r.token⟩ : Seat) ≠ seat := fun hsame => hr (congrArg Seat.token hsame)
      simp [hr, hne]
  rw [h.held, hnodup.erase_eq_filter, List.filter_map]
  congr 2
  funext r
  exact hkeeps r

/-- One registration fewer. -/
theorem length_drop (h : Follows l acts now) {seat : Seat} (hseat : seat ∈ now.held) :
    ((outstanding acts).filter fun r => r.token ≠ seat.token).length + 1 =
      (outstanding acts).length := by
  have herase := congrArg List.length (h.held_erase hseat)
  have hheld := congrArg List.length h.held
  rw [List.length_erase_of_mem hseat, List.length_map] at herase
  rw [List.length_map] at hheld
  have hpos := List.length_pos_of_mem hseat
  omega

/-- Those who went do not come back, and all others stay, unless one goes now. -/
theorem left_step (h : Follows l acts now) (hs : Step l now a next) :
    ∀ p ∈ retired (acts ++ [a]),
      next.machine.probes.Has p ∧ (next.machine.probes.get p).alive = false := by
  intro p hp
  have hhas : now.machine.probes.Has p := by
    rw [retired_snoc] at hp
    rcases List.mem_append.mp hp with hp | hp
    · exact (h.left p hp).1
    · cases hs with
      | retire hq =>
          obtain rfl := List.mem_singleton.mp hp
          exact hq
      | _ => exact absurd hp List.not_mem_nil
  obtain ⟨hnext, halive⟩ := hs.probes hhas
  refine ⟨hnext, ?_⟩
  by_cases hgoes : p ∈ retired [a]
  · rw [halive, if_pos hgoes]
  · rw [retired_snoc] at hp
    have hold := (List.mem_append.mp hp).resolve_right hgoes
    rw [halive, if_neg hgoes, (h.left p hold).2]

theorem stays_step (h : Follows l acts now) (hs : Step l now a next) :
    ∀ r ∈ made (acts ++ [a]), ∀ p, r.handler = .probe p → p ∉ retired (acts ++ [a]) →
      next.machine.probes.Has p ∧ (next.machine.probes.get p).alive = true := by
  intro r hr p hp hstays
  rw [retired_snoc, List.mem_append, not_or] at hstays
  have hthere : now.machine.probes.Has p ∧ (now.machine.probes.get p).alive = true := by
    rw [made_snoc] at hr
    rcases List.mem_append.mp hr with hr | hr
    · exact h.stays r hr p hp hstays.1
    · cases hs with
      | @request m held handler halive =>
          obtain rfl := List.mem_singleton.mp hr
          obtain rfl : handler = .probe p := hp
          refine ⟨?_, halive⟩
          by_contra hnot
          simp only [Machine.alive, Table.get_of_not_has hnot] at halive
          exact absurd halive Bool.false_ne_true
      | _ => exact absurd hr List.not_mem_nil
  obtain ⟨hnext, halive⟩ := hs.probes hthere.1
  refine ⟨hnext, ?_⟩
  rw [halive, if_neg hstays.2, hthere.2]

/-- An act that leaves the line alone. -/
theorem idle (h : Follows l acts now) (hs : Step l now a next) (hmade : made [a] = [])
    (hdropped : dropped [a] = []) (hhas : next.machine.lines.Has l)
    (hline : next.machine.lines.get l = now.machine.lines.get l) (hheld : next.held = now.held) :
    Follows l (acts ++ [a]) next := by
  have hsame : outstanding (acts ++ [a]) = outstanding acts := outstanding_of_none hmade hdropped
  have hmade' : made (acts ++ [a]) = made acts := by rw [made_snoc, hmade, List.append_nil]
  have hdropped' : dropped (acts ++ [a]) = dropped acts := by
    rw [dropped_snoc, hdropped, List.append_nil]
  have hregistrations : next.machine.onLine l = now.machine.onLine l :=
    congrArg Line.registrations hline
  exact
    { hasLine := hhas
      ever := by rw [hline, hmade']; exact h.ever
      onLine := by rw [hregistrations, hsame]; exact h.onLine
      held := by rw [hheld, hsame]; exact h.held
      count := by rw [hsame, hmade', hdropped']; exact h.count
      past := by rw [hmade', hdropped']; exact h.past
      left := h.left_step hs
      stays := h.stays_step hs }

theorem request {m : Machine} {held : List Seat} (h : Follows l acts ⟨m, held⟩)
    {handler : Handler} (halive : m.alive handler = true)
    (hroom : (made acts).length + 1 < 2 ^ 64) :
    Follows l (acts ++ [.request handler (m.request l handler).2])
      ⟨(m.request l handler).1, held ++ [(m.request l handler).2]⟩ := by
  have hs : Step l ⟨m, held⟩ _ _ := .request halive
  have hline : (m.request l handler).1.lines.get l = (m.lines.get l).request handler :=
    Table.get_modify_self h.hasLine _
  have hout : outstanding (acts ++ [.request handler (m.request l handler).2]) =
      outstanding acts ++ [⟨(m.lines.get l).nextToken, handler⟩] :=
    outstanding_request (h.next_not_dropped hroom)
  have hmade : made (acts ++ [.request handler (m.request l handler).2]) =
      made acts ++ [⟨(m.lines.get l).nextToken, handler⟩] := made_snoc
  have hdropped : dropped (acts ++ [.request handler (m.request l handler).2]) = dropped acts :=
    dropped_snoc.trans (List.append_nil _)
  refine
    { hasLine := (Table.has_modify ..).mpr h.hasLine
      ever := ?_
      onLine := ?_
      held := ?_
      count := ?_
      past := ?_
      left := h.left_step hs
      stays := h.stays_step hs }
  · rw [hline, hmade, List.length_append, List.length_singleton]
    exact h.ever.request hroom handler
  · rw [hout, ← h.onLine]
    exact congrArg Line.registrations hline
  · rw [hout, List.map_append, ← h.held]
    rfl
  · rw [hout, hmade, hdropped, List.length_append, List.length_append, ← h.count]
    simp only [List.length_singleton]
    omega
  · rw [hmade, hdropped]
    intro t ht
    obtain ⟨r, hr, htoken⟩ := h.past t ht
    exact ⟨r, List.mem_append_left _ hr, htoken⟩

theorem drop {m : Machine} {held : List Seat} (h : Follows l acts ⟨m, held⟩) {seat : Seat}
    (hseat : seat ∈ held) : Follows l (acts ++ [.drop seat]) ⟨m.release seat, held.erase seat⟩ := by
  have hs : Step l ⟨m, held⟩ _ _ := .drop hseat
  obtain ⟨-, r, hr, htoken⟩ := h.of_held hseat
  have hmade : made (acts ++ [.drop seat]) = made acts := made_snoc.trans (List.append_nil _)
  have hdropped : dropped (acts ++ [.drop seat]) = dropped acts ++ [seat.token] := dropped_snoc
  refine
    { hasLine := (Table.has_modify ..).mpr h.hasLine
      ever := ?_
      onLine := (h.onLine_release hseat).trans (outstanding_drop seat).symm
      held := ?_
      count := ?_
      past := ?_
      left := h.left_step hs
      stays := h.stays_step hs }
  · rw [hmade]
    have hnext := Table.get_modify_keeps m.lines seat.line l
      (f := fun line => line.release seat.token) Line.nextToken fun _ => rfl
    exact h.ever.of_same hnext rfl
  · rw [outstanding_drop]
    exact h.held_erase hseat
  · have hone := h.length_drop hseat
    have hcount := h.count
    rw [outstanding_drop, hmade, hdropped, List.length_append, List.length_singleton]
    omega
  · rw [hmade, hdropped]
    intro t ht
    rcases List.mem_append.mp ht with ht | ht
    · exact h.past t ht
    · obtain rfl := List.mem_singleton.mp ht
      exact ⟨r, List.mem_of_mem_filter hr, htoken⟩

theorem step (h : Follows l acts now) (hs : Step l now a next)
    (hroom : (made (acts ++ [a])).length < 2 ^ 64) : Follows l (acts ++ [a]) next := by
  have hstep := hs
  cases hs with
  | request halive =>
      rw [made_snoc, List.length_append] at hroom
      exact h.request halive hroom
  | drop hseat => exact h.drop hseat
  | retire => exact h.idle hstep rfl rfl h.hasLine rfl rfl
  | @raise m held _ =>
      have hlines := (sameCast_raise m l).lines
      exact h.idle hstep rfl rfl (hlines ▸ h.hasLine) (by rw [hlines]) rfl
  | others hother => exact h.idle hstep rfl rfl (hother.hasLine h.hasLine) hother.line rfl

theorem of_run {first : Owned} (h : Run (Step l) first acts now) (hfirst : Follows l [] first)
    (hroom : (made acts).length < 2 ^ 64) : Follows l acts now := by
  induction h with
  | nil => exact hfirst
  | snoc _ hs ih =>
      have hfront := hroom
      rw [made_snoc, List.length_append] at hfront
      exact (ih (by omega)).step hs hroom

/-- The handlers that are there are those that did not go. -/
theorem alive_iff (h : Follows l acts now) {r : Registration} (hr : r ∈ made acts) :
    now.machine.alive r.handler = !gone acts r.handler := by
  cases hhandler : r.handler with
  | device d => rfl
  | probe p =>
      by_cases hp : p ∈ retired acts
      · have halive := (h.left p hp).2
        simp [Machine.alive, gone, hp, halive]
      · have halive := (h.stays r hr p hhandler hp).2
        simp [Machine.alive, gone, hp, halive]

/-- An interrupt is due to those who are on the line and did not go. -/
theorem due_eq (h : Follows l acts now) : now.machine.due l = living acts := by
  unfold Machine.due living
  rw [h.onLine]
  refine List.filter_congr ?_
  intro r hr
  exact h.alive_iff (List.mem_of_mem_filter hr)

end Follows

/-- **The registrations of a line follow its history.**  Whatever is registered, dropped and raised
on a line, and whichever handlers go, as long as fewer than `2 ^ 64` registrations were made: they
are numbered in the order of their making, no two alike; those that were made and not dropped are on
the line in that order, whether or not their handlers are there, and their number is the count that
the line shows.  Each of them is held by somebody, and if it is dropped it leaves its place, and
nothing else changes on any line.  An interrupt calls the handlers of those that are on the line and
did not go, in order, each once for every registration, and somebody takes it if and only if one of
them does; it leaves all registrations as they are.  If none of those called raises a further line,
every probe has counted exactly its own calls. -/
theorem registrations_follow_history {m : Machine} {number : UInt32} {acts : List Act}
    {now : Owned} (h : Run (Step m.lines.fresh) ⟨(m.addLine number).1, []⟩ acts now)
    (hfew : (made acts).length < 2 ^ 64) :
    (made acts).Pairwise (fun r s => r.token < s.token) ∧
    now.machine.onLine m.lines.fresh = outstanding acts ∧
    (now.machine.lines.get m.lines.fresh).handlerCount = (outstanding acts).length ∧
    (outstanding acts).length + (dropped acts).length = (made acts).length ∧
    now.held = (outstanding acts).map (fun r => ⟨m.lines.fresh, r.token⟩) ∧
    (∀ before r after, outstanding acts = before ++ r :: after →
      let left := now.machine.release ⟨m.lines.fresh, r.token⟩
      left.onLine m.lines.fresh = before ++ after ∧
      (left.lines.get m.lines.fresh).nextToken =
        (now.machine.lines.get m.lines.fresh).nextToken ∧
      ∀ k, k ≠ m.lines.fresh → left.lines.get k = now.machine.lines.get k) ∧
    (now.machine.Unlooped m.lines.fresh →
      let raised := now.machine.raise m.lines.fresh
      raised.1.lines = now.machine.lines ∧
      ∃ answers, Calls now.machine (living acts) answers raised.1 ∧
        (raised.2 = true ↔ true ∈ answers) ∧
        ((∀ r ∈ living acts, ∀ p, r.handler = .probe p →
            (now.machine.probes.get p).chain = none) →
          ∀ p, (raised.1.probes.get p).calls = (now.machine.probes.get p).calls +
            (living acts).countP fun r => r.handler = .probe p)) := by
  have hnow := Follows.of_run h (.fresh m number) hfew
  refine ⟨hnow.ever.increasing, hnow.onLine, congrArg List.length hnow.onLine, hnow.count,
    hnow.held, ?_, ?_⟩
  · intro before r after hsplit left
    have hseat : (⟨m.lines.fresh, r.token⟩ : Seat) ∈ now.held := by
      rw [hnow.held, hsplit]
      exact List.mem_map_of_mem (List.mem_append_right _ List.mem_cons_self)
    have hsorted := hnow.increasing
    rw [hsplit] at hsorted
    refine ⟨?_, ?_, ?_⟩
    · rw [hnow.onLine_release hseat, hsplit]
      exact Registration.filter_token hsorted
    · exact Table.get_modify_keeps _ _ _ Line.nextToken fun _ => rfl
    · intro k hk
      exact Table.get_modify_of_ne _ hk.symm _
  · intro hl raised
    obtain ⟨answers, hcalls, hanswer⟩ := calls_raise hl
    rw [hnow.due_eq] at hcalls
    refine ⟨(sameCast_raise _ _).lines, answers, hcalls, hanswer, ?_⟩
    intro hchain p
    refine calls_count hcalls ?_ hchain p
    intro r hr
    rw [← hnow.due_eq] at hr
    exact (List.mem_filter.mp hr).2

/-- Two probes; the first one answers nothing, the second one takes every interrupt. -/
def probes : Machine := ((Machine.addProbe {} false none).1.addProbe true none).1

/-- The first probe registers twice, with the second one in between; its first registration is
dropped, it registers once more, the second probe goes, and an interrupt comes. -/
def comings : List Act :=
  let l : Ref .line := probes.lines.fresh
  [.request (.probe ⟨0⟩) ⟨l, 1⟩, .request (.probe ⟨1⟩) ⟨l, 2⟩, .request (.probe ⟨0⟩) ⟨l, 3⟩,
    .drop ⟨l, 1⟩, .request (.probe ⟨0⟩) ⟨l, 4⟩, .retire ⟨1⟩, .raise]

/-- The acts follow one another, and no probe raises a line. -/
theorem run_comings :
    ∃ m held, Run (Step probes.lines.fresh) ⟨(probes.addLine 5).1, []⟩ comings ⟨m, held⟩ ∧
      ∀ p, (m.probes.get p).chain = none := by
  let l : Ref .line := probes.lines.fresh
  let m₁ : Machine := ((probes.addLine 5).1.request l (.probe ⟨0⟩)).1
  let m₂ : Machine := (m₁.request l (.probe ⟨1⟩)).1
  let m₃ : Machine := (m₂.request l (.probe ⟨0⟩)).1
  let m₄ : Machine := ((m₃.release ⟨l, 1⟩).request l (.probe ⟨0⟩)).1
  let m₅ : Machine := m₄.retireProbe ⟨1⟩
  have hquiet : ∀ p, (m₅.probes.get p).chain = none := by
    rintro ⟨_ | _ | i⟩ <;> rfl
  have hbefore : Run (Step l) ⟨(probes.addLine 5).1, []⟩
      [.request (.probe ⟨0⟩) ⟨l, 1⟩, .request (.probe ⟨1⟩) ⟨l, 2⟩, .request (.probe ⟨0⟩) ⟨l, 3⟩]
      ⟨m₃, [⟨l, 1⟩, ⟨l, 2⟩, ⟨l, 3⟩]⟩ :=
    .snoc (.snoc (.single (.request rfl)) (.request rfl)) (.request rfl)
  have hafter : Run (Step l) ⟨m₃, [⟨l, 1⟩, ⟨l, 2⟩, ⟨l, 3⟩]⟩
      [.drop ⟨l, 1⟩, .request (.probe ⟨0⟩) ⟨l, 4⟩, .retire ⟨1⟩, .raise]
      ⟨(m₅.raise l).1, [⟨l, 2⟩, ⟨l, 3⟩, ⟨l, 4⟩]⟩ :=
    .snoc (.snoc (.snoc (.single (.drop List.mem_cons_self)) (.request rfl))
      (.retire (by decide))) (.raise (unlooped_of_unchained hquiet))
  have hlater : ∀ p, ((m₅.raise l).1.probes.get p).chain = none := by
    intro p
    rw [(sameCast_raise m₅ l).chain p, hquiet p]
  exact ⟨(m₅.raise l).1, _, hbefore.trans hafter, hlater⟩

/-- The second probe is still counted, but the next interrupt, too, calls the first one only, and
calls it twice. -/
theorem registrations_follow_history_shared :
    ∃ m held, Run (Step probes.lines.fresh) ⟨(probes.addLine 5).1, []⟩ comings ⟨m, held⟩ ∧
      m.onLine probes.lines.fresh =
        [⟨2, .probe ⟨1⟩⟩, ⟨3, .probe ⟨0⟩⟩, ⟨4, .probe ⟨0⟩⟩] ∧
      (m.lines.get probes.lines.fresh).handlerCount = 3 ∧
      (m.release ⟨probes.lines.fresh, 3⟩).onLine probes.lines.fresh =
        [⟨2, .probe ⟨1⟩⟩, ⟨4, .probe ⟨0⟩⟩] ∧
      m.Unlooped probes.lines.fresh ∧
      ∃ answers, Calls m [⟨3, .probe ⟨0⟩⟩, ⟨4, .probe ⟨0⟩⟩] answers
          (m.raise probes.lines.fresh).1 ∧
        ((m.raise probes.lines.fresh).2 = true ↔ true ∈ answers) ∧
        ((m.raise probes.lines.fresh).1.probes.get ⟨0⟩).calls =
          (m.probes.get ⟨0⟩).calls + 2 := by
  obtain ⟨m, held, hrun, hquiet⟩ := run_comings
  have hunlooped : m.Unlooped probes.lines.fresh := unlooped_of_unchained hquiet
  have hout : outstanding comings = [⟨2, .probe ⟨1⟩⟩, ⟨3, .probe ⟨0⟩⟩, ⟨4, .probe ⟨0⟩⟩] := by decide
  have hliving : living comings = [⟨3, .probe ⟨0⟩⟩, ⟨4, .probe ⟨0⟩⟩] := by decide
  have hall := registrations_follow_history hrun (by decide)
  rw [hout, hliving] at hall
  obtain ⟨-, honLine, hcount, -, -, hdrop, hraise⟩ := hall
  obtain ⟨-, answers, hcalls, hanswer, hcounts⟩ := hraise hunlooped
  refine ⟨m, held, hrun, honLine, hcount, ?_, hunlooped, answers, hcalls, hanswer, ?_⟩
  · exact (hdrop [⟨2, .probe ⟨1⟩⟩] ⟨3, .probe ⟨0⟩⟩ [⟨4, .probe ⟨0⟩⟩] rfl).1
  · exact hcounts (fun _ _ p _ => hquiet p) ⟨0⟩

end Registry

end PeerBus
