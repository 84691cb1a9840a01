import Mathlib

namespace TapTunnel.Framework

variable {σ α β γ : Type} (step : α → σ → Option σ)

/-- States reached from `start` by actions each of which meets `ok` in the state it is taken in. -/
inductive ReachVia (ok : σ → α → Prop) (start : σ) : σ → Prop
  | start : ReachVia ok start start
  | next {s t : σ} {a : α} (hs : ReachVia ok start s) (ha : ok s a) (ht : step a s = some t) :
      ReachVia ok start t

/-- Reachability without a restriction on the actions. -/
def Reachable (start s : σ) : Prop := ReachVia step (fun _ _ => True) start s

/-- Take a list of actions in order; `none` when one of them is not enabled. -/
def runActions : List α → σ → Option σ
  | [], s => some s
  | a::as, s => (step a s).bind (runActions as)

/-- Invariant rule: what holds at the start and is kept by every admitted step holds throughout. -/
theorem ReachVia.invariant {ok : σ → α → Prop} {start s : σ} (P : σ → Prop)
    (h0 : P start) (hstep : ∀ s t a, P s → ok s a → step a s = some t → P t)
    (h : ReachVia step ok start s) : P s := by
  induction h with
  | start => exact h0
  | next _ ha ht ih => exact hstep _ _ _ ih ha ht

/-- Invariant rule where the step lemma may also use an invariant already proved. -/
theorem ReachVia.invariant_with {ok : σ → α → Prop} {start s : σ} (P Q : σ → Prop)
    (hQ : ∀ s, ReachVia step ok start s → Q s) (h0 : P start)
    (hstep : ∀ s t a, Q s → P s → ok s a → step a s = some t → P t)
    (h : ReachVia step ok start s) : P s := by
  induction h with
  | start => exact h0
  | next hs ha ht ih => exact hstep _ _ _ (hQ _ hs) ih ha ht

theorem ReachVia.mono {ok ok' : σ → α → Prop} {start s : σ}
    (hok : ∀ s a, ok s a → ok' s a) (h : ReachVia step ok start s) :
    ReachVia step ok' start s := by
  induction h with
  | start => exact .start
  | next _ ha ht ih => exact .next ih (hok _ _ ha) ht

@[simp] theorem runActions_nil (s : σ) : runActions step [] s = some s := rfl

theorem runActions_cons (a : α) (as : List α) (s : σ) :
    runActions step (a::as) s = (step a s).bind (runActions step as) := rfl

theorem runActions_cons_eq_some {a : α} {as : List α} {s t : σ} :
    runActions step (a::as) s = some t ↔
      ∃ u, step a s = some u ∧ runActions step as u = some t := by
  simp [runActions_cons, Option.bind_eq_some_iff]

theorem runActions_append {as : List α} {s t : σ} (h : runActions step as s = some t)
    (bs : List α) : runActions step (as ++ bs) s = runActions step bs t := by
  induction as generalizing s with
  | nil =>
    obtain rfl : s = t := by simpa using h
    rfl
  | cons a as ih =>
    obtain ⟨u, hu, hrest⟩ := (runActions_cons_eq_some step).mp h
    rw [List.cons_append, runActions_cons, hu]
    exact ih hrest

theorem runActions_preserves (P : σ → Prop)
    (hstep : ∀ s t a, P s → step a s = some t → P t) (as : List α) (s t : σ)
    (hs : P s) (h : runActions step as s = some t) : P t := by
  induction as generalizing s with
  | nil =>
    obtain rfl : s = t := by simpa using h
    exact hs
  | cons a as ih =>
    obtain ⟨u, hu, ht⟩ := (runActions_cons_eq_some step).mp h
    exact ih u (hstep s u a hs hu) ht

theorem Reachable.run {start s t : σ} {as : List α} (hs : Reachable step start s)
    (h : runActions step as s = some t) : Reachable step start t :=
  runActions_preserves step (Reachable step start)
    (fun _ _ _ hp ht => ReachVia.next hp trivial ht) as s t hs h

/-- Take a list of actions as long as each of them passes the check. -/
def runChecked (ok : σ → α → Bool) : List α → σ → Option σ
  | [], s => some s
  | a::as, s => if ok s a then (step a s).bind (runChecked ok as) else none

theorem ReachVia.runChecked {ok : σ → α → Prop} {start s t : σ} (okb : σ → α → Bool)
    (hok : ∀ s a, okb s a = true → ok s a) {as : List α} (hs : ReachVia step ok start s)
    (h : runChecked step okb as s = some t) : ReachVia step ok start t := by
  induction as generalizing s with
  | nil =>
    obtain rfl : s = t := by simpa [Framework.runChecked] using h
    exact hs
  | cons a as ih =>
    unfold Framework.runChecked at h
    split_ifs at h with ha
    obtain ⟨u, hu, ht⟩ := Option.bind_eq_some_iff.mp h
    exact ih (.next hs (hok s a ha) hu) ht

/-- Some action of a run meets `P` in the state it is taken in. -/
def runMeets (P : σ → α → Prop) : List α → σ → Prop
  | [], _ => False
  | a::as, s => P s a ∨ ∃ t, step a s = some t ∧ runMeets P as t

theorem runMeets_cons {P : σ → α → Prop} {a : α} {as : List α} {s t : σ}
    (h : step a s = some t) : runMeets step P (a::as) s ↔ P s a ∨ runMeets step P as t := by
  simp [runMeets, h]

/-- Number of the actions of a run that pass the check in the state they are taken in. -/
def runCount (p : σ → α → Bool) : List α → σ → Nat
  | [], _ => 0
  | a::as, s => (p s a).toNat + ((step a s).map (runCount p as)).getD 0

theorem runCount_cons {p : σ → α → Bool} {a : α} {as : List α} {s t : σ} (h : step a s = some t) :
    runCount step p (a::as) s = (p s a).toNat + runCount step p as t := by
  simp [runCount, h]

/-- What is observed at the steps of a run, in their order. -/
def runLog (obs : σ → α → σ → Option β) : List α → σ → List β
  | [], _ => []
  | a::as, s => (step a s).elim [] fun t => (obs s a t).toList ++ runLog obs as t

/-- A part of the state that each step changes as what is observed of it says can be computed from
the observations of a run. -/
theorem runLog_foldl {obs : σ → α → σ → Option β} {f : γ → β → γ} (view : σ → γ) {start : σ}
    (hstep : ∀ s a t, Reachable step start s → step a s = some t →
      view t = (obs s a t).toList.foldl f (view s))
    (as : List α) {s t : σ} (hs : Reachable step start s) (h : runActions step as s = some t) :
    view t = (runLog step obs as s).foldl f (view s) := by
  induction as generalizing s with
  | nil =>
    obtain rfl : s = t := by simpa using h
    rfl
  | cons a as ih =>
    obtain ⟨u, hu, ht⟩ := (runActions_cons_eq_some step).mp h
    rw [ih (.next hs trivial hu) ht, runLog, hu, Option.elim_some, List.foldl_append,
      hstep s a u hs hu]

/-- Every step of a run meets `R`; an action that is not enabled ends the run. -/
def everyStep (R : σ → α → σ → Prop) : List α → σ → Prop
  | [], _ => True
  | a::as, s => ∀ t ∈ step a s, R s a t ∧ everyStep R as t

instance everyStepDecidable (R : σ → α → σ → Prop) [∀ s a t, Decidable (R s a t)] :
    (as : List α) → (s : σ) → Decidable (everyStep step R as s)
  | [], _ => .isTrue trivial
  | a::as, s =>
    have : ∀ t, Decidable (everyStep step R as t) := everyStepDecidable R as
    inferInstanceAs (Decidable (∀ t ∈ step a s, R s a t ∧ everyStep step R as t))

/-- Two relations that agree on the steps from reachable states hold of the same runs. -/
theorem everyStep_congr {R R' : σ → α → σ → Prop} {start : σ}
    (hR : ∀ s a t, Reachable step start s → step a s = some t → (R s a t ↔ R' s a t))
    (as : List α) {s : σ} (hs : Reachable step start s) :
    everyStep step R as s ↔ everyStep step R' as s := by
  induction as generalizing s with
  | nil => rfl
  | cons a as ih =>
    apply forall_congr'
    intro t
    apply imp_congr_right
    intro ht
    exact and_congr (hR s a t hs ht) (ih (.next hs trivial ht))

/-- Two relations that agree on the steps that meet a third hold of the same runs of such steps. -/
theorem everyStep_congr_of {R R' Q : σ → α → σ → Prop} {as : List α} {s : σ}
    (hQ : everyStep step Q as s) (hR : ∀ s a t, Q s a t → (R s a t ↔ R' s a t)) :
    everyStep step R as s ↔ everyStep step R' as s := by
  induction as generalizing s with
  | nil => rfl
  | cons a as ih =>
    apply forall_congr'
    intro t
    apply imp_congr_right
    intro ht
    exact and_congr (hR s a t (hQ t ht).1) (ih (hQ t ht).2)

/-- The relation `Q` leads to states with `P`, and a step from one of them meets `Q` exactly when it
meets `R`. Then `Q` holds of the same runs as `R`. -/
theorem everyStep_iff_of_kept {P : σ → Prop} {Q R : σ → α → σ → Prop} {start : σ}
    (hQ : ∀ s a t, Q s a t → P t)
    (hR : ∀ s a t, Reachable step start s → P s → step a s = some t → (Q s a t ↔ R s a t))
    (as : List α) {s : σ} (hs : Reachable step start s) (hp : P s) :
    everyStep step Q as s ↔ everyStep step R as s := by
  induction as generalizing s with
  | nil => rfl
  | cons a as ih =>
    apply forall_congr'
    intro t
    apply imp_congr_right
    intro ht
    rw [← hR s a t hs hp ht]
    apply and_congr_right
    intro hq
    exact ih (.next hs trivial ht) (hQ s a t hq)

/-- A property that a step keeps exactly when it meets `R` holds throughout a run exactly when
all steps of the run meet `R`. -/
theorem everyStep_kept_iff {P : σ → Prop} {R : σ → α → Prop} {start : σ}
    (hP : ∀ s a t, Reachable step start s → P s → step a s = some t → (P t ↔ R s a))
    (as : List α) {s : σ} (hs : Reachable step start s) (hp : P s) :
    everyStep step (fun _ _ t => P t) as s ↔ everyStep step (fun s a _ => R s a) as s :=
  everyStep_iff_of_kept step (P := P) (Q := fun _ _ t => P t) (fun _ _ _ h => h) hP as hs hp

/-- What cannot come back once it is lost held before a run if it holds after it. -/
theorem runActions_back {P : σ → Prop} {start : σ}
    (hback : ∀ s a t, Reachable step start s → step a s = some t → P t → P s)
    (as : List α) {s t : σ} (hs : Reachable step start s) (h : runActions step as s = some t)
    (hp : P t) : P s := by
  induction as generalizing s with
  | nil =>
    obtain rfl : s = t := by simpa using h
    exact hp
  | cons a as ih =>
    obtain ⟨u, hu, ht⟩ := (runActions_cons_eq_some step).mp h
    exact hback s a u hs hu (ih (.next hs trivial hu) ht)

/-- For such a property the last state of a run tells about all of them. -/
theorem everyStep_last_iff {P : σ → Prop} {start : σ}
    (hback : ∀ s a t, Reachable step start s → step a s = some t → P t → P s)
    (as : List α) {s t : σ} (hs : Reachable step start s) (h : runActions step as s = some t)
    (hp : P s) : everyStep step (fun _ _ t => P t) as s ↔ P t := by
  induction as generalizing s with
  | nil =>
    obtain rfl : s = t := by simpa using h
    exact iff_of_true trivial hp
  | cons a as ih =>
    obtain ⟨u, hu, ht⟩ := (runActions_cons_eq_some step).mp h
    have hreach : Reachable step start u := .next hs trivial hu
    constructor
    · intro hall
      obtain ⟨hpu, hrest⟩ := hall u hu
      exact (ih hreach ht hpu).mp hrest
    · intro hpt v hv
      obtain rfl : u = v := Option.some.inj (hu.symm.trans hv)
      have hpu := runActions_back step hback as hreach ht hpt
      exact ⟨hpu, (ih hreach ht hpu).mpr hpt⟩

/-- A concrete list of actions reaches a state with any property it can be seen to have. -/
theorem reachable_of_run (as : List α) (start : σ) (p : σ → Bool)
    (h : (runActions step as start).map p = some true) :
    ∃ s, Reachable step start s ∧ runActions step as start = some s ∧ p s = true := by
  obtain ⟨s, hs, hp⟩ := Option.map_eq_some_iff.mp h
  exact ⟨s, Reachable.run step .start hs, hs, hp⟩

theorem reachVia_of_run (ok : σ → α → Prop) [∀ s a, Decidable (ok s a)] (as : List α)
    (start : σ) (p : σ → Bool)
    (h : (runChecked step (fun s a => decide (ok s a)) as start).map p = some true) :
    ∃ s, ReachVia step ok start s ∧ p s = true := by
  obtain ⟨s, hs, hp⟩ := Option.map_eq_some_iff.mp h
  exact ⟨s, ReachVia.runChecked step _ (fun _ _ => of_decide_eq_true) .start hs, hp⟩

end TapTunnel.Framework
