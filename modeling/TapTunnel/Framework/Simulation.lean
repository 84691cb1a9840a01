import TapTunnel.Framework.Transition

namespace TapTunnel.Framework

variable {σ τ α β : Type} {step : α → σ → Option σ} {step' : β → τ → Option τ}

theorem ReachVia.trans {ok : σ → α → Prop} {s t u : σ} (hst : ReachVia step ok s t)
    (htu : ReachVia step ok t u) : ReachVia step ok s u := by
  induction htu with
  | start => exact hst
  | next _ ha hv ih => exact .next ih ha hv

theorem ReachVia.one {ok : σ → α → Prop} {s t : σ} (a : α) (ha : ok s a) (h : step a s = some t) :
    ReachVia step ok s t := .next .start ha h

/-- Simulation rule: where every step of one system is a run of another one, seen through `view`,
so is every run. -/
theorem ReachVia.simulate {ok : σ → α → Prop} {ok' : τ → β → Prop} (view : σ → τ)
    (hstep : ∀ s t a, ok s a → step a s = some t → ReachVia step' ok' (view s) (view t))
    {s t : σ} (h : ReachVia step ok s t) : ReachVia step' ok' (view s) (view t) := by
  induction h with
  | start => exact .start
  | next _ ha ht ih => exact ih.trans (hstep _ _ _ ha ht)

theorem runActions_snoc {as : List α} {a : α} {s t u : σ} (h : runActions step as s = some t)
    (ha : step a t = some u) : runActions step (as ++ [a]) s = some u := by
  rw [runActions_append step h, runActions_cons, ha, Option.bind_some, runActions_nil]

/-- Invariant rule for a property of a state and of the actions that led to it. -/
theorem runActions_history (P : List α → σ → Prop) {start : σ} (h0 : P [] start)
    (hstep : ∀ as s t a, runActions step as start = some s → P as s → step a s = some t →
      P (as ++ [a]) t)
    {as : List α} {t : σ} (h : runActions step as start = some t) : P as t := by
  have hrun : ∀ (as bs : List α) (s : σ), runActions step bs start = some s → P bs s →
      runActions step as s = some t → P (bs ++ as) t := by
    intro as
    induction as with
    | nil =>
      intro bs s _ hs h
      have hst : s = t := by simpa using h
      rw [List.append_nil, ← hst]
      exact hs
    | cons a as ih =>
      intro bs s hbs hs h
      obtain ⟨u, hu, ht⟩ := (runActions_cons_eq_some step).mp h
      have hend := ih (bs ++ [a]) u (runActions_snoc hbs hu) (hstep bs s u a hbs hs hu) ht
      rwa [List.append_assoc] at hend
  exact hrun as [] start rfl h0 h

/-- Two lists of actions one after the other, with the state in between. -/
theorem reachVia_of_runs (step : α → σ → Option σ) (ok : σ → α → Prop)
    [∀ s a, Decidable (ok s a)] (as bs : List α) (start : σ) (p : σ → σ → Bool)
    (h : (runChecked step (fun s a => decide (ok s a)) as start).bind (fun s =>
      (runChecked step (fun s a => decide (ok s a)) bs s).map (p s)) = some true) :
    ∃ s t, ReachVia step ok start s ∧ ReachVia step ok s t ∧ p s t = true := by
  obtain ⟨s, hs, h⟩ := Option.bind_eq_some_iff.mp h
  obtain ⟨t, ht, hp⟩ := Option.map_eq_some_iff.mp h
  have hok : ∀ (s : σ) (a : α), decide (ok s a) = true → ok s a := fun _ _ => of_decide_eq_true
  exact ⟨s, t, .runChecked step _ hok .start hs, .runChecked step _ hok .start ht, hp⟩

end TapTunnel.Framework
