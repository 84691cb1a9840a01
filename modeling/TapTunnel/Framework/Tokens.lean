import Mathlib

namespace TapTunnel.Framework

variable {α : Type}

section Words

variable (p : α → Bool)

/-- The pieces of a text between separators that are not empty. -/
def words (xs : List α) : List (List α) := (xs.splitOnP p).filter (fun w => !w.isEmpty)

/-- A piece that is not cut up. -/
def IsWord (w : List α) : Prop := w ≠ [] ∧ ∀ x ∈ w, p x = false

variable {p} {sep : α}

theorem words_append_sep (hsep : p sep = true) (xs ys : List α) :
    words p (xs ++ sep::ys) = words p xs ++ words p ys := by
  rw [words, List.splitOnP_append_cons xs ys hsep, List.filter_append]
  rfl

theorem words_replicate (hsep : p sep = true) (n : Nat) (ys : List α) :
    words p (List.replicate n sep ++ ys) = words p ys := by
  induction n with
  | zero => rfl
  | succ n ih =>
    rw [List.replicate_succ, List.cons_append]
    exact (words_append_sep hsep [] _).trans ih

theorem words_of_isWord {w : List α} (hw : IsWord p w) : words p w = [w] := by
  rw [words, List.splitOnP_eq_singleton hw.2]
  simp [hw.1]

/-- Words with a run of separators before each. -/
def spaced (sep : α) (ws : List (Nat × List α)) : List α :=
  ws.flatMap fun w => sep::List.replicate w.1 sep ++ w.2

theorem mem_spaced {x : α} {ws : List (Nat × List α)} (h : x ∈ spaced sep ws) :
    x = sep ∨ ∃ v ∈ ws, x ∈ v.2 := by
  obtain ⟨v, hv, hx⟩ := List.mem_flatMap.mp h
  rcases List.mem_append.mp hx with hx | hx
  · rw [← List.replicate_succ] at hx
    exact .inl (List.eq_of_mem_replicate hx)
  · exact .inr ⟨v, hv, hx⟩

/-- The widths of the gaps between words do not matter. -/
theorem words_spaced (hsep : p sep = true) {w : List α} (hw : IsWord p w)
    {ws : List (Nat × List α)} (hws : ∀ v ∈ ws, IsWord p v.2) :
    words p (w ++ spaced sep ws) = w::ws.map Prod.snd := by
  induction ws generalizing w with
  | nil =>
    rw [spaced, List.flatMap_nil, List.append_nil]
    exact words_of_isWord hw
  | cons v ws ih =>
    obtain ⟨hv, hws⟩ := List.forall_mem_cons.mp hws
    have hcons : spaced sep (v::ws) = sep::(List.replicate v.1 sep ++ (v.2 ++ spaced sep ws)) := by
      simp [spaced]
    rw [hcons, words_append_sep hsep, words_of_isWord hw, words_replicate hsep, ih hv hws]
    rfl

end Words

section Lines

variable [DecidableEq α] (nl cr : α)

/-- A line loses a carriage return at its end. -/
def chomp (line : List α) : List α := if line.getLast? = some cr then line.dropLast else line

/-- The lines of a text. Each ends with `nl`, but the last one need not. -/
def lines (text : List α) : List (List α) :=
  let pieces := text.splitOn nl
  pieces.dropLast.map (chomp cr) ++ pieces.getLast?.toList.filter (fun l => !l.isEmpty)

variable {nl}

theorem splitOn_terminated {ls : List (List α)} (h : ∀ l ∈ ls, nl ∉ l) :
    (ls.flatMap (· ++ [nl])).splitOn nl = ls ++ [[]] := by
  induction ls with
  | nil => rfl
  | cons l ls ih =>
    obtain ⟨hl, hls⟩ := List.forall_mem_cons.mp h
    have hno : ∀ x ∈ l, (x == nl) = false := fun x hx => beq_false_of_ne (fun he => hl (he ▸ hx))
    rw [List.flatMap_cons, List.append_assoc, List.singleton_append, List.splitOn,
      List.splitOnP_append_cons_of_forall_mem hno nl (beq_self_eq_true nl)]
    exact congrArg (l :: ·) (ih hls)

theorem lines_terminated {ls : List (List α)} (h : ∀ l ∈ ls, nl ∉ l) :
    lines nl cr (ls.flatMap (· ++ [nl])) = ls.map (chomp cr) := by
  rw [lines, splitOn_terminated h]
  simp

theorem chomp_of_notMem {line : List α} (h : cr ∉ line) : chomp cr line = line :=
  if_neg fun hlast => h (List.mem_of_mem_getLast? hlast)

end Lines

end TapTunnel.Framework
