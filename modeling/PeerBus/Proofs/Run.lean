/-
# `PeerBus.Proofs.Run` — runs of labelled steps

`Run step s acts t` says that the acts of a list lead from `s` to `t`, one after the other.  What
one act preserves, a run preserves (`Run.preserves`), also where it speaks of the acts so far
(`Run.history_of_forall`); a run can be cut at any of its acts (`Run.of_append`).
-/
namespace PeerBus

/-- The acts, one after the other, lead from `s` to another state. -/
inductive Run {σ α : Type} (step : σ → α → σ → Prop) (s : σ) : List α → σ → Prop
  | nil : Run step s [] s
  | snoc {acts : List α} {t u : σ} {act : α} :
      Run step s acts t → step t act u → Run step s (acts ++ [act]) u

namespace Run

variable {σ α : Type} {step : σ → α → σ → Prop} {s t u : σ} {acts : List α}

/-- What every allowed act preserves, a run of allowed acts preserves. -/
theorem preserves_of_forall {P : σ → Prop} {allowed : α → Prop}
    (keep : ∀ {t a u}, allowed a → P t → step t a u → P u) (h : Run step s acts t)
    (hall : ∀ a ∈ acts, allowed a) (base : P s) : P t := by
  induction h with
  | nil => exact base
  | @snoc acts t u a _ hs ih =>
      have hfront := ih fun b hb => hall b (List.mem_append_left _ hb)
      exact keep (hall a (List.mem_append_right _ (List.mem_singleton_self a))) hfront hs

/-- What holds of every allowed act while `P` is kept, holds of all acts of a run of them. -/
theorem forall_of_preserves {P : σ → Prop} {allowed Q : α → Prop}
    (keep : ∀ {t a u}, allowed a → P t → step t a u → P u ∧ Q a) (h : Run step s acts t)
    (hall : ∀ a ∈ acts, allowed a) (base : P s) : P t ∧ ∀ a ∈ acts, Q a := by
  induction h with
  | nil => exact ⟨base, nofun⟩
  | @snoc acts t u a _ hs ih =>
      obtain ⟨hP, hQ⟩ := ih fun b hb => hall b (List.mem_append_left _ hb)
      have hlast := keep (hall a (List.mem_append_right _ (List.mem_singleton_self a))) hP hs
      refine ⟨hlast.1, fun b hb => ?_⟩
      rcases List.mem_append.mp hb with hb | hb
      · exact hQ b hb
      · exact List.mem_singleton.mp hb ▸ hlast.2

/-- What holds of no acts, and of every run of allowed acts with one more of them at its end,
holds of a run of allowed acts. -/
theorem history_of_forall {P : List α → σ → Prop} {allowed : α → Prop}
    (keep : ∀ {acts t a u}, allowed a → P acts t → step t a u → P (acts ++ [a]) u)
    (h : Run step s acts t) (hall : ∀ a ∈ acts, allowed a) (base : P [] s) : P acts t := by
  induction h with
  | nil => exact base
  | @snoc acts t u a _ hs ih =>
      have hfront := ih fun b hb => hall b (List.mem_append_left _ hb)
      exact keep (hall a (List.mem_append_right _ (List.mem_singleton_self a))) hfront hs

theorem preserves {P : σ → Prop} (keep : ∀ {t a u}, P t → step t a u → P u)
    (h : Run step s acts t) (base : P s) : P t :=
  h.preserves_of_forall (fun _ => keep) (fun _ _ => trivial) base

theorem single {a : α} (h : step s a t) : Run step s [a] t :=
  .snoc .nil h

theorem trans {more : List α} (h : Run step s acts t) (h' : Run step t more u) :
    Run step s (acts ++ more) u := by
  induction h' with
  | nil => rwa [List.append_nil]
  | snoc _ hs ih =>
      rw [← List.append_assoc]
      exact .snoc ih hs

theorem of_append {more : List α} (h : Run step s (acts ++ more) u) :
    ∃ t, Run step s acts t ∧ Run step t more u := by
  generalize hall : acts ++ more = all at h
  induction h generalizing more with
  | nil =>
      obtain ⟨rfl, rfl⟩ := List.append_eq_nil_iff.mp hall
      exact ⟨s, .nil, .nil⟩
  | @snoc front t u a hf hs ih =>
      rcases List.eq_nil_or_concat more with rfl | ⟨init, b, rfl⟩
      · rw [List.append_nil] at hall
        subst hall
        exact ⟨u, .snoc hf hs, .nil⟩
      · rw [List.concat_eq_append, ← List.append_assoc] at hall
        obtain ⟨hfront, hlast⟩ := List.append_inj' hall rfl
        obtain ⟨v, hv, hv'⟩ := ih hfront
        cases hlast
        rw [List.concat_eq_append]
        exact ⟨v, hv, .snoc hv' hs⟩

theorem eq_of_nil (h : Run step s [] t) : t = s := by
  generalize hnone : ([] : List α) = none at h
  cases h with
  | nil => rfl
  | snoc => exact absurd hnone.symm (List.append_ne_nil_of_right_ne_nil _ (List.cons_ne_nil _ _))

theorem of_cons {a : α} (h : Run step s (a :: acts) u) :
    ∃ t, step s a t ∧ Run step t acts u := by
  have hcons : Run step s ([a] ++ acts) u := h
  obtain ⟨t, hfirst, hrest⟩ := hcons.of_append
  refine ⟨t, ?_, hrest⟩
  generalize hone : [a] = one at hfirst
  cases hfirst with
  | nil => exact nomatch hone
  | snoc hf hs =>
      obtain ⟨hnil, hlast⟩ := List.append_inj' (show [] ++ [a] = _ from hone) rfl
      subst hnil
      cases hlast
      obtain rfl := eq_of_nil hf
      exact hs

/-- Acts that are carried out one after the other make a run. -/
theorem of_foldlM {act : σ → α → Option σ} (h : acts.foldlM act s = some t) :
    Run (fun s a t => act s a = some t) s acts t := by
  induction acts generalizing s with
  | nil =>
      cases h
      exact .nil
  | cons a acts ih =>
      obtain ⟨u, hfirst, hrest⟩ := Option.bind_eq_some_iff.mp h
      exact (single hfirst).trans (ih hrest)

/-- A run to a state with a property that can be computed. -/
theorem exists_of_any {act : σ → α → Option σ} {p : σ → Bool}
    (h : (acts.foldlM act s).any p = true) :
    ∃ t, Run (fun s a t => act s a = some t) s acts t ∧ p t = true := by
  obtain ⟨t, ht, hp⟩ := (Option.any_eq_true ..).mp h
  exact ⟨t, of_foldlM ht, hp⟩

end Run

end PeerBus
