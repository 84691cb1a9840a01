import Mathlib

namespace TapTunnel.Framework

/-- What happens to a list that stands for a set: an element comes in, or all those of a key go. -/
inductive SetEvent (α κ : Type)
  | added (a : α)
  | removed (k : κ)
  deriving DecidableEq, Repr

variable {α κ : Type} [DecidableEq α] [DecidableEq κ] (key : α → κ)

/-- New elements come in at the end; one that is there already stays where it is. -/
def SetEvent.apply (l : List α) : SetEvent α κ → List α
  | .added a => if a ∈ l then l else l ++ [a]
  | .removed k => l.filter (fun a => key a ≠ k)

def replay (log : List (SetEvent α κ)) (l : List α) : List α := log.foldl (SetEvent.apply key) l

/-- The element came in, and its key has not gone since. -/
def Survives (log : List (SetEvent α κ)) (a : α) : Prop :=
  ∃ before after, log = before ++ .added a::after ∧ .removed (key a) ∉ after

@[simp] theorem replay_nil (l : List α) : replay key ([] : List (SetEvent α κ)) l = l := rfl

@[simp] theorem replay_cons (e : SetEvent α κ) (log : List (SetEvent α κ)) (l : List α) :
    replay key (e::log) l = replay key log (e.apply key l) := rfl

theorem SetEvent.apply_added (l : List α) (a : α) :
    (SetEvent.added a : SetEvent α κ).apply key l = if a ∈ l then l else l ++ [a] := rfl

theorem SetEvent.mem_apply_added {l : List α} {a b : α} :
    a ∈ (SetEvent.added b : SetEvent α κ).apply key l ↔ a ∈ l ∨ a = b := by
  rw [apply_added]
  split_ifs with hb
  · constructor
    · exact .inl
    · rintro (ha | rfl) <;> assumption
  · rw [List.mem_append, List.mem_singleton]

theorem SetEvent.mem_apply_removed {l : List α} {a : α} {k : κ} :
    a ∈ (SetEvent.removed k).apply key l ↔ a ∈ l ∧ key a ≠ k := by
  simp [apply]

omit [DecidableEq α] [DecidableEq κ] in
theorem not_survives_nil (a : α) : ¬Survives key ([] : List (SetEvent α κ)) a := by
  rintro ⟨before, after, h, -⟩
  simp at h

omit [DecidableEq α] [DecidableEq κ] in
theorem survives_cons {e : SetEvent α κ} {log : List (SetEvent α κ)} {a : α} :
    Survives key (e::log) a ↔ (e = .added a ∧ .removed (key a) ∉ log) ∨ Survives key log a := by
  constructor
  · rintro ⟨before, after, h, hno⟩
    cases before with
    | nil =>
      obtain ⟨rfl, rfl⟩ := List.cons.inj h
      exact .inl ⟨rfl, hno⟩
    | cons e' before =>
      obtain ⟨rfl, rfl⟩ := List.cons.inj h
      exact .inr ⟨before, after, rfl, hno⟩
  · rintro (⟨rfl, hno⟩ | ⟨before, after, rfl, hno⟩)
    · exact ⟨[], log, rfl, hno⟩
    · exact ⟨e::before, after, rfl, hno⟩

/-- The elements in the end: those of the start whose keys have stayed, and those that came in. -/
theorem mem_replay {log : List (SetEvent α κ)} {l : List α} {a : α} :
    a ∈ replay key log l ↔ (a ∈ l ∧ .removed (key a) ∉ log) ∨ Survives key log a := by
  induction log generalizing l with
  | nil => simp [not_survives_nil]
  | cons e log ih =>
    rw [replay_cons, ih, survives_cons]
    cases e with
    | added b =>
      have hlog : (.removed (key a) ∈ SetEvent.added b::log) ↔ .removed (key a) ∈ log := by simp
      have hadd : (SetEvent.added b : SetEvent α κ) = .added a ↔ a = b := by
        rw [SetEvent.added.injEq, eq_comm]
      rw [SetEvent.mem_apply_added, hlog, hadd, or_and_right, or_assoc]
    | removed k =>
      have hlog : (.removed (key a) ∈ SetEvent.removed k::log) ↔
          key a = k ∨ .removed (key a) ∈ log := by simp
      rw [SetEvent.mem_apply_removed, hlog, not_or, and_assoc]
      simp

theorem replay_nodup (log : List (SetEvent α κ)) {l : List α} (h : l.Nodup) :
    (replay key log l).Nodup := by
  induction log generalizing l with
  | nil => exact h
  | cons e log ih =>
    refine ih ?_
    cases e with
    | added b =>
      rw [SetEvent.apply_added]
      split_ifs with hb
      · exact h
      · exact h.append (List.nodup_singleton b) (List.disjoint_singleton.mpr hb)
    | removed k => exact h.filter _

/-- What survives keeps its order, and stands before all that came in. -/
theorem replay_order (log : List (SetEvent α κ)) (l : List α) :
    ∃ new, replay key log l = l.filter (fun a => .removed (key a) ∉ log) ++ new := by
  induction log generalizing l with
  | nil => exact ⟨[], by simp⟩
  | cons e log ih =>
    obtain ⟨new, hnew⟩ := ih (e.apply key l)
    rw [replay_cons, hnew]
    cases e with
    | added b =>
      have hsame : ∀ l : List α, l.filter (fun a => .removed (key a) ∉ SetEvent.added b::log) =
          l.filter (fun a => .removed (key a) ∉ log) := by simp
      rw [hsame]
      rw [SetEvent.apply_added]
      split_ifs with hb
      · exact ⟨new, rfl⟩
      · rw [List.filter_append, List.append_assoc]
        exact ⟨_, rfl⟩
    | removed k =>
      refine ⟨new, ?_⟩
      simp only [SetEvent.apply, List.filter_filter, List.mem_cons, SetEvent.removed.injEq, not_or,
        Bool.decide_and, Bool.and_comm]

end TapTunnel.Framework
