import TapTunnel.Framework.Simulation

namespace TapTunnel.Framework

variable {σ α β : Type} (step : α → σ → Option σ)

/-- No action that `own` allows is enabled. -/
def Quiet (own : α → Prop) (s : σ) : Prop := ∀ a, own a → step a s = none

/-- Every run of actions that `own` allows comes to an end, and where none of them is enabled any
more `Q` holds. -/
inductive Settles (own : α → Prop) (Q : σ → Prop) : σ → Prop
  | intro {s : σ} (next : ∀ a t, own a → step a s = some t → Settles own Q t)
      (last : Quiet step own s → Q s) : Settles own Q s

variable {step} {own : α → Prop} {P Q : σ → Prop}

/-- Variant rule: `P` is kept, each action makes `μ` smaller, and a quiet state with `P` has `Q`. -/
theorem Settles.of_variant {r : β → β → Prop} (hr : WellFounded r) (μ : σ → β)
    (hkeep : ∀ s t a, P s → own a → step a s = some t → P t)
    (hless : ∀ s t a, P s → own a → step a s = some t → r (μ t) (μ s))
    (hquiet : ∀ s, P s → Quiet step own s → Q s) {s : σ} (hs : P s) : Settles step own Q s := by
  induction h : μ s using hr.induction generalizing s with
  | _ b ih =>
    subst h
    apply Settles.intro
    · intro a t ha ht
      exact ih (μ t) (hless s t a hs ha ht) (hkeep s t a hs ha ht) rfl
    · exact hquiet s hs

theorem Settles.finite {s : σ} (h : Settles step own Q s) (f : Nat → σ) (h0 : f 0 = s) :
    ∃ n, ∀ a, own a → step a (f n) ≠ some (f (n+1)) := by
  induction h generalizing f with
  | intro next last ih =>
    subst h0
    by_cases hstep : ∃ a, own a ∧ step a (f 0) = some (f 1)
    · obtain ⟨a, ha, ht⟩ := hstep
      obtain ⟨n, hn⟩ := ih a (f 1) ha ht (fun i => f (i+1)) rfl
      exact ⟨n+1, hn⟩
    · exact ⟨0, fun a ha ht => hstep ⟨a, ha, ht⟩⟩

theorem Settles.reach {s t : σ} (h : Settles step own Q s)
    (ht : ReachVia step (fun _ a => own a) s t) : Settles step own Q t := by
  apply ht.invariant step _ h
  intro u v a hu ha hv
  cases hu with
  | intro next last => exact next a v ha hv

/-- Wherever a run has stopped, `Q` holds. -/
theorem Settles.stopped {s t : σ} (h : Settles step own Q s)
    (ht : ReachVia step (fun _ a => own a) s t) (hq : Quiet step own t) : Q t := by
  cases h.reach ht with
  | intro next last => exact last hq

theorem Settles.end_reachable {s : σ} (h : Settles step own Q s) :
    ∃ u, ReachVia step (fun _ a => own a) s u ∧ Q u := by
  induction h with
  | @intro s next last ih =>
    by_cases hq : Quiet step own s
    · exact ⟨s, .start, last hq⟩
    · obtain ⟨a, ha⟩ := not_forall.mp hq
      obtain ⟨hown, hne⟩ := Classical.not_imp.mp ha
      obtain ⟨t, ht⟩ := Option.ne_none_iff_exists'.mp hne
      obtain ⟨u, hu, hQ⟩ := ih a t hown ht
      exact ⟨u, (ReachVia.one a hown ht).trans hu, hQ⟩

/-- Variant rule for runs in which other actions come in between: `P` is kept by every action,
those that `own` allows make `μ` smaller and the others do not make it larger. So no run has more
than `μ s` of the former. -/
theorem countP_le_of_variant {own : α → Bool} (μ : σ → Nat)
    (hkeep : ∀ s t a, P s → step a s = some t → P t)
    (hless : ∀ s t a, P s → own a = true → step a s = some t → μ t < μ s)
    (hmore : ∀ s t a, P s → own a = false → step a s = some t → μ t ≤ μ s) {as : List α} {s t : σ}
    (hs : P s) (h : runActions step as s = some t) : as.countP own + μ t ≤ μ s := by
  induction as generalizing s with
  | nil =>
    obtain rfl : s = t := by simpa using h
    simp
  | cons a as ih =>
    obtain ⟨u, hu, ht⟩ := (runActions_cons_eq_some step).mp h
    have hrest := ih (hkeep s u a hs hu) ht
    rw [List.countP_cons]
    cases ha : own a with
    | true =>
      have hlt := hless s u a hs ha hu
      simp only [if_true]
      omega
    | false =>
      have hle := hmore s u a hs ha hu
      simp only [Bool.false_eq_true, if_false]
      omega

end TapTunnel.Framework
