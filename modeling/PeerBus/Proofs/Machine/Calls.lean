/-
# `PeerBus.Proofs.Machine.Calls` — whom an interrupt calls

A line calls the handlers of its registrations in order, and leaves out those that are gone:

    device           reads its status
    probe            counts, and answers for itself
    chained probe    counts, and raises another line, whose answer is its own

A chain of probes may run through many lines, and `Machine.raise` is computed with a bound on its
length.  As long as no handler raises its own line, at once or through others, the bound is never
reached (`Machine.raise_eq`): a path through the lines that does not come back to any of them is
shorter than their number.  So one interrupt is one call for each registration whose handler is
still there, each on the machine that the call before it has left (`Machine.calls_raise`); nobody
comes, goes or changes places meanwhile (`Machine.SameCast`).
-/
import PeerBus.Proofs.Machine.Deeds
import PeerBus.Proofs.Machine.SharedLine
import Mathlib.Data.Finset.Card
import Mathlib.Data.Finset.Image
import Mathlib.Logic.Relation

namespace PeerBus

namespace Machine

open Relation (ReflTransGen TransGen)

/-! ## Handlers -/

/-- Whether a handler is still there.  A device always is: once it is detached, it takes no
interrupt. -/
def alive (m : Machine) : Handler → Bool
  | .device _ => true
  | .probe p => (m.probes.get p).alive

/-- The machine in which a probe has counted one more interrupt. -/
def counted (m : Machine) (p : Ref .probe) : Machine :=
  { m with probes := m.probes.modify p fun x => { x with calls := x.calls + 1 } }

/-- A handler runs; a chained probe leaves the answer to `raise`. -/
def callWith (raise : Machine → Ref .line → Machine × Bool) (m : Machine) :
    Handler → Machine × Bool
  | .device d => m.dispatch d
  | .probe p =>
      match (m.probes.get p).chain with
      | none => (m.counted p, (m.probes.get p).handled)
      | some line => raise (m.counted p) line

/-- A handler runs. -/
def call (m : Machine) (handler : Handler) : Machine × Bool := m.callWith raise handler

/-- The handlers of some registrations run one after the other, with these answers. -/
inductive Calls : Machine → List Registration → List Bool → Machine → Prop
  | nil (m : Machine) : Calls m [] [] m
  | cons {m m' : Machine} {r : Registration} {rest : List Registration} {answers : List Bool} :
      Calls (m.call r.handler).1 rest answers m' →
      Calls m (r :: rest) ((m.call r.handler).2 :: answers) m'

/-- A handler on a line raises another line. -/
def Chains (m : Machine) (l k : Ref .line) : Prop :=
  ∃ r ∈ m.onLine l, ∃ p, r.handler = .probe p ∧ (m.probes.get p).alive = true ∧
    (m.probes.get p).chain = some k

/-- No handler that an interrupt can come to raises its own line, at once or through others. -/
def Unlooped (m : Machine) (l : Ref .line) : Prop :=
  ∀ k, ReflTransGen m.Chains l k → ¬TransGen m.Chains k k

/-- Where no probe raises a line, none raises its own. -/
theorem unlooped_of_unchained {m : Machine} {l : Ref .line}
    (h : ∀ p, (m.probes.get p).chain = none) : m.Unlooped l := by
  intro k _ hback
  obtain ⟨_, ⟨_, _, p, _, _, hchain⟩, _⟩ := Relation.TransGen.head'_iff.mp hback
  rw [h p] at hchain
  exact absurd hchain (Option.some_ne_none _).symm

/-! ## Nobody comes or goes meanwhile -/

/-- The lines are as they were, and the same probes are there and raise the same lines. -/
structure SameCast (m m' : Machine) : Prop where
  lines : m'.lines = m.lines
  hasProbe : ∀ p, m'.probes.Has p ↔ m.probes.Has p
  alive : ∀ p, (m'.probes.get p).alive = (m.probes.get p).alive
  chain : ∀ p, (m'.probes.get p).chain = (m.probes.get p).chain

namespace SameCast

variable {m m' m'' : Machine}

theorem refl (m : Machine) : SameCast m m := ⟨rfl, fun _ => Iff.rfl, fun _ => rfl, fun _ => rfl⟩

theorem trans (h : SameCast m m') (h' : SameCast m' m'') : SameCast m m'' where
  lines := h'.lines.trans h.lines
  hasProbe p := (h'.hasProbe p).trans (h.hasProbe p)
  alive p := (h'.alive p).trans (h.alive p)
  chain p := (h'.chain p).trans (h.chain p)

theorem counted (m : Machine) (p : Ref .probe) : SameCast m (m.counted p) where
  lines := rfl
  hasProbe _ := Table.has_modify ..
  alive q := Table.get_modify_keeps m.probes p q Probe.alive fun _ => rfl
  chain q := Table.get_modify_keeps m.probes p q Probe.chain fun _ => rfl

theorem handler_alive (h : SameCast m m') (handler : Handler) :
    m'.alive handler = m.alive handler := by
  cases handler with
  | device d => rfl
  | probe p => exact h.alive p

end SameCast

variable {m m' : Machine}

theorem probes_dispatch (m : Machine) (d : Ref .device) :
    (m.dispatch d).1.lines = m.lines ∧ (m.dispatch d).1.probes = m.probes := by
  cases henabled : (m.devices.get d).enabled with
  | false =>
      rw [dispatch_of_disabled henabled]
      exact ⟨rfl, rfl⟩
  | true =>
      rw [dispatch_eq_told henabled, told_beside]
      exact ⟨rfl, rfl⟩

theorem sameCast_dispatch (m : Machine) (d : Ref .device) : SameCast m (m.dispatch d).1 := by
  obtain ⟨hlines, hprobes⟩ := probes_dispatch m d
  refine ⟨hlines, ?_, ?_, ?_⟩ <;> intro p <;> rw [hprobes]

theorem tell_eq (raise : Machine → Ref .line → Machine × Bool) (m : Machine) (handler : Handler) :
    tell raise m handler = if m.alive handler then m.callWith raise handler else (m, false) := by
  cases handler with
  | device d => rfl
  | probe p =>
      simp only [tell, alive, callWith, counted]
      cases (m.probes.get p).chain <;> rfl

section Raising

variable {raise : Machine → Ref .line → Machine × Bool}

theorem sameCast_callWith (hraise : ∀ m line, SameCast m (raise m line).1) (m : Machine)
    (handler : Handler) : SameCast m (m.callWith raise handler).1 := by
  cases handler with
  | device d => exact sameCast_dispatch m d
  | probe p =>
      have hcounted := SameCast.counted m p
      simp only [callWith]
      cases (m.probes.get p).chain with
      | none => exact hcounted
      | some line => exact hcounted.trans (hraise _ line)

theorem sameCast_tell (hraise : ∀ m line, SameCast m (raise m line).1) (m : Machine)
    (handler : Handler) : SameCast m (tell raise m handler).1 := by
  rw [tell_eq]
  split
  · exact sameCast_callWith hraise m handler
  · exact .refl m

theorem sameCast_tellAll (hraise : ∀ m line, SameCast m (raise m line).1) (l : List Registration)
    (m : Machine) : SameCast m (tellAll raise l m).1 := by
  induction l generalizing m with
  | nil => exact .refl m
  | cons r l ih => exact (sameCast_tell hraise m r.handler).trans (ih _)

end Raising

theorem sameCast_raiseWithin (depth : Nat) (m : Machine) (line : Ref .line) :
    SameCast m (raiseWithin depth m line).1 := by
  induction depth generalizing m line with
  | zero => exact .refl m
  | succ depth ih => exact sameCast_tellAll ih _ m

theorem sameCast_raise (m : Machine) (line : Ref .line) : SameCast m (m.raise line).1 :=
  sameCast_raiseWithin _ m line

theorem sameCast_call (m : Machine) (handler : Handler) : SameCast m (m.call handler).1 :=
  sameCast_callWith sameCast_raise m handler

/-! ## The bound is never reached -/

/-- Two ways of raising lines that agree on all chains agree on all handlers. -/
theorem tellAll_congr {f g : Machine → Ref .line → Machine × Bool}
    (hf : ∀ m line, SameCast m (f m line).1) {l : List Registration}
    (hsame : ∀ r ∈ l, ∀ p k, r.handler = .probe p → (m.probes.get p).alive = true →
      (m.probes.get p).chain = some k → ∀ x, SameCast m x → f x k = g x k)
    (h : SameCast m m') : tellAll f l m' = tellAll g l m' := by
  induction l generalizing m' with
  | nil => rfl
  | cons r l ih =>
      have hhead : tell f m' r.handler = tell g m' r.handler := by
        rw [tell_eq, tell_eq]
        cases hr : r.handler with
        | device d => rfl
        | probe p =>
            cases halive : (m'.probes.get p).alive with
            | false => simp [alive, halive]
            | true =>
                simp only [alive, halive, if_true, callWith]
                cases hchain : (m'.probes.get p).chain with
                | none => rfl
                | some k =>
                    exact hsame r List.mem_cons_self p k hr ((h.alive p).symm.trans halive)
                      ((h.chain p).symm.trans hchain) _ (h.trans (.counted m' p))
      have hnext : SameCast m (tell f m' r.handler).1 := h.trans (sameCast_tell hf m' r.handler)
      have hrest := ih (fun s hs => hsame s (List.mem_cons_of_mem _ hs)) hnext
      rw [hhead] at hrest
      simp only [tellAll, hhead, hrest]

theorem Unlooped.next {l k : Ref .line} (h : m.Unlooped l) (hk : m.Chains l k) : m.Unlooped k := by
  intro j hj
  exact h j (.head hk hj)

/-- As many levels suffice as there are lines which the interrupt can come to. -/
theorem raiseWithin_succ {l : Ref .line} (hl : m.Unlooped l) {S : Finset (Ref .line)}
    (hS : ∀ k, ReflTransGen m.Chains l k → m.lines.Has k → k ∈ S) {depth : Nat}
    (hdepth : S.card ≤ depth) (h : SameCast m m') :
    raiseWithin (depth + 1) m' l = raiseWithin depth m' l := by
  induction depth generalizing m' l S with
  | zero =>
      have hnot : ¬m.lines.Has l := by
        intro hhas
        have hmem := hS l .refl hhas
        rw [Finset.card_eq_zero.mp (Nat.le_zero.mp hdepth)] at hmem
        exact absurd hmem (Finset.notMem_empty l)
      have hnobody : (m'.lines.get l).registrations = [] := by
        rw [h.lines, Table.get_of_not_has hnot]
        rfl
      simp only [raiseWithin, hnobody, tellAll]
  | succ depth ih =>
      refine tellAll_congr (m := m) (sameCast_raiseWithin _) ?_ h
      intro r hr p k hp halive hchain x hx
      have hr' : r ∈ m.onLine l := by
        rw [onLine, ← h.lines]
        exact hr
      have hk : m.Chains l k := ⟨r, hr', p, hp, halive, hchain⟩
      have hhas : m.lines.Has l := by
        by_contra hnot
        rw [onLine, Table.get_of_not_has hnot] at hr'
        exact absurd hr' List.not_mem_nil
      -- the chain does not come back to `l`, so there is one line less to come to
      have hl' : ∀ j, ReflTransGen m.Chains k j → m.lines.Has j → j ∈ S.erase l := by
        intro j hj hhasj
        have hback : j ≠ l := by
          rintro rfl
          exact hl j .refl (.head' hk hj)
        exact Finset.mem_erase.mpr ⟨hback, hS j (.head hk hj) hhasj⟩
      have hcard : (S.erase l).card ≤ depth := by
        rw [Finset.card_erase_of_mem (hS l .refl hhas)]
        omega
      exact ih (hl.next hk) hl' hcard hx

/-- All lines that there are. -/
def allLines (m : Machine) : Finset (Ref .line) :=
  (Finset.range m.lines.entries.size).image Ref.mk

theorem mem_allLines {l : Ref .line} (h : m.lines.Has l) : l ∈ m.allLines :=
  Finset.mem_image.mpr ⟨l.index, Finset.mem_range.mpr h, rfl⟩

theorem card_allLines (m : Machine) : m.allLines.card ≤ m.lines.entries.size := by
  have himage := Finset.card_image_le (s := Finset.range m.lines.entries.size)
    (f := (Ref.mk : Nat → Ref .line))
  rwa [Finset.card_range] at himage

/-- An interrupt tells all handlers of its line, whatever lines they raise in turn. -/
theorem raise_eq {l : Ref .line} (hl : m.Unlooped l) :
    m.raise l = tellAll raise (m.onLine l) m := by
  have henough := raiseWithin_succ hl (fun _ _ hk => mem_allLines hk) (card_allLines m) (.refl m)
  calc m.raise l = raiseWithin (m.lines.entries.size + 1) m l := henough.symm
    _ = tellAll raise (m.onLine l) m := by
        refine tellAll_congr (m := m) (sameCast_raiseWithin _) ?_ (.refl m)
        intro r _ p k _ _ _ x hx
        rw [raise, hx.lines]

/-! ## Calls -/

/-- The registrations of a line whose handlers are still there. -/
def due (m : Machine) (l : Ref .line) : List Registration :=
  (m.onLine l).filter fun r => m.alive r.handler

/-- To tell all is to call those who are there. -/
theorem calls_tellAll (l : List Registration) (h : SameCast m m') :
    ∃ answers, Calls m' (l.filter fun r => m.alive r.handler) answers (tellAll raise l m').1 ∧
      ((tellAll raise l m').2 = true ↔ true ∈ answers) := by
  induction l generalizing m' with
  | nil => exact ⟨[], .nil m', by simp [tellAll]⟩
  | cons r l ih =>
      have htell := tell_eq raise m' r.handler
      rw [h.handler_alive] at htell
      cases halive : m.alive r.handler with
      | false =>
          rw [halive, if_neg Bool.false_ne_true] at htell
          rw [List.filter_cons_of_neg (by simp [halive])]
          obtain ⟨answers, hcalls, hanswer⟩ := ih h
          refine ⟨answers, ?_, ?_⟩
          · simpa only [tellAll, htell] using hcalls
          · simpa only [tellAll, htell, Bool.false_or] using hanswer
      | true =>
          rw [halive, if_pos rfl] at htell
          rw [List.filter_cons_of_pos (by simp [halive])]
          obtain ⟨answers, hcalls, hanswer⟩ := ih (h.trans (sameCast_call m' r.handler))
          have hmachine : (tellAll raise (r :: l) m').1 =
              (tellAll raise l (m'.call r.handler).1).1 := by
            simp only [tellAll, htell, call]
          have hfirst : (tellAll raise (r :: l) m').2 =
              ((m'.call r.handler).2 || (tellAll raise l (m'.call r.handler).1).2) := by
            simp only [tellAll, htell, call]
          refine ⟨(m'.call r.handler).2 :: answers, ?_, ?_⟩
          · rw [hmachine]
            exact .cons hcalls
          · rw [hfirst, Bool.or_eq_true, hanswer, List.mem_cons, eq_comm]

/-- An interrupt calls the handlers that are still there, each once for every registration, and
somebody takes it if one of them does. -/
theorem calls_raise {l : Ref .line} (hl : m.Unlooped l) :
    ∃ answers, Calls m (m.due l) answers (m.raise l).1 ∧
      ((m.raise l).2 = true ↔ true ∈ answers) := by
  rw [raise_eq hl]
  exact calls_tellAll (m.onLine l) (.refl m)

/-- Every probe has counted its own calls, if none of those called raises a further line. -/
theorem calls_count {l : List Registration} {answers : List Bool} (h : Calls m l answers m')
    (halive : ∀ r ∈ l, m.alive r.handler = true)
    (hchain : ∀ r ∈ l, ∀ p, r.handler = .probe p → (m.probes.get p).chain = none)
    (p : Ref .probe) :
    (m'.probes.get p).calls =
      (m.probes.get p).calls + l.countP fun r => r.handler = .probe p := by
  induction h with
  | nil => rfl
  | @cons m m' r rest answers _ ih =>
      have hcast := sameCast_call m r.handler
      have hrest := ih
        (fun s hs => (hcast.handler_alive _).trans (halive s (List.mem_cons_of_mem _ hs)))
        (fun s hs q hq => (hcast.chain q).trans (hchain s (List.mem_cons_of_mem _ hs) q hq))
      have hthere := halive r List.mem_cons_self
      have hown := hchain r List.mem_cons_self
      have hone : ((m.call r.handler).1.probes.get p).calls =
          (m.probes.get p).calls + if r.handler = .probe p then 1 else 0 := by
        cases hr : r.handler with
        | device d =>
            rw [if_neg Handler.noConfusion]
            show ((m.dispatch d).1.probes.get p).calls = _
            rw [(probes_dispatch m d).2, Nat.add_zero]
        | probe q =>
            rw [hr] at hthere
            have hcall : m.call (.probe q) = (m.counted q, (m.probes.get q).handled) := by
              simp only [call, callWith, hown q hr]
            rw [hcall]
            by_cases hq : q = p
            · subst hq
              have hhas : m.probes.Has q := by
                by_contra hnot
                simp only [alive, Table.get_of_not_has hnot] at hthere
                exact absurd hthere Bool.false_ne_true
              rw [if_pos rfl]
              exact congrArg Probe.calls (Table.get_modify_self hhas _)
            · rw [if_neg fun hsame => hq (Handler.probe.inj hsame)]
              exact congrArg Probe.calls (Table.get_modify_of_ne _ hq _)
      rw [hrest, hone, List.countP_cons]
      simp only [decide_eq_true_eq]
      omega

end Machine

end PeerBus
