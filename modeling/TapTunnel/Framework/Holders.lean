import TapTunnel.Framework.Table

namespace TapTunnel.Framework

variable {κ S ι C : Type} [DecidableEq κ] [DecidableEq ι] (name : S → ι) (kill : C → C)
  (live : C → Prop)

/-- What becomes of the resources when an entry that holds one of them by name is dropped. -/
def release (old : Option S) (m : ι → C) : ι → C :=
  match old with
  | some st => Function.update m (name st) (kill (m (name st)))
  | none => m

/-- The entries of a table are dropped one after the other. -/
def releaseAll (entries : List ((_ : κ) × S)) (m : ι → C) : ι → C :=
  entries.foldl (fun m e => release name kill (some e.2) m) m

/-- Each resource that is in use and still live is held by some entry. -/
def LiveHeld (used : ι → Prop) (states : Table κ S) (m : ι → C) : Prop :=
  ∀ i, used i → live (m i) → ∃ k st, states.lookup k = some st ∧ name st = i

omit [DecidableEq κ] in
theorem forall_update {P : C → Prop} {m : ι → C} (h : ∀ i, P (m i)) {c : C} (hc : P c) (i j : ι) :
    P (Function.update m i c j) :=
  (Function.forall_update_iff m (fun _ x => P x)).mpr ⟨hc, fun x _ => h x⟩ j

theorem release_cases (old : Option S) (m : ι → C) (i : ι) :
    release name kill old m i = m i ∧ (∀ st, old = some st → name st ≠ i) ∨
      release name kill old m i = kill (m i) := by
  cases old with
  | none => exact .inl ⟨rfl, by simp⟩
  | some st =>
    by_cases h : i = name st
    · subst h
      exact .inr (Function.update_self ..)
    · refine .inl ⟨Function.update_of_ne h _ _, ?_⟩
      intro st' hst'
      obtain rfl := Option.some.inj hst'
      exact Ne.symm h

omit [DecidableEq κ] in
theorem releaseAll_cons (e : (_ : κ) × S) (entries : List ((_ : κ) × S)) (m : ι → C) :
    releaseAll name kill (e::entries) m =
      releaseAll name kill entries (release name kill (some e.2) m) := rfl

/-- What killing a resource keeps of it, a release keeps of all of them. -/
theorem release_rule {P : C → C → Prop} (hrefl : ∀ c, P c c) (hkill : ∀ c, P c (kill c))
    (old : Option S) (m : ι → C) (i : ι) : P (m i) (release name kill old m i) := by
  rcases release_cases name kill old m i with ⟨h, -⟩ | h
  · rw [h]
    exact hrefl _
  · rw [h]
    exact hkill _

omit [DecidableEq κ] in
theorem releaseAll_rule {P : C → C → Prop} (hrefl : ∀ c, P c c)
    (hkill : ∀ c d, P c d → P c (kill d)) (entries : List ((_ : κ) × S)) (m : ι → C) (i : ι) :
    P (m i) (releaseAll name kill entries m i) := by
  suffices ∀ m', P (m i) (m' i) → P (m i) (releaseAll name kill entries m' i) from this m (hrefl _)
  induction entries with
  | nil => exact fun m' h => h
  | cons e entries ih =>
    intro m' h
    rw [releaseAll_cons]
    apply ih
    rcases release_cases name kill (some e.2) m' i with ⟨he, -⟩ | he
    · rw [he]
      exact h
    · rw [he]
      exact hkill _ _ h

variable {name kill live}

omit [DecidableEq κ] in
/-- What is live after all entries are gone was live before, and none of them held it. -/
theorem releaseAll_live (hdead : ∀ c, ¬live (kill c)) (entries : List ((_ : κ) × S)) (m : ι → C)
    (i : ι) (h : live (releaseAll name kill entries m i)) :
    live (m i) ∧ ∀ e ∈ entries, name e.2 ≠ i := by
  induction entries generalizing m with
  | nil => exact ⟨h, by simp⟩
  | cons e entries ih =>
    rw [releaseAll_cons] at h
    obtain ⟨hlive, hrest⟩ := ih _ h
    rcases release_cases name kill (some e.2) m i with ⟨he, hother⟩ | he
    · rw [he] at hlive
      refine ⟨hlive, fun e' he' => ?_⟩
      rcases List.mem_cons.mp he' with rfl | he'
      · exact hother _ rfl
      · exact hrest e' he'
    · rw [he] at hlive
      exact absurd hlive (hdead _)

namespace LiveHeld

variable {used used' : ι → Prop} {states : Table κ S} {m m' : ι → C}

/-- A table without entries holds nothing, so nothing is live. -/
theorem releaseAll (hdead : ∀ c, ¬live (kill c)) (h : LiveHeld name live used states m) {i : ι}
    (hi : used i) : ¬live (releaseAll name kill states.entries m i) := by
  intro hl
  obtain ⟨hlive, hnone⟩ := releaseAll_live hdead _ m i hl
  obtain ⟨k, st, hk, hname⟩ := h i hi hlive
  exact hnone ⟨k, st⟩ (AList.mem_lookup_iff.mp hk) hname

omit [DecidableEq ι] in
theorem mono (h : LiveHeld name live used states m) (hused : ∀ i, used' i → used i)
    (hm : ∀ i, live (m' i) → live (m i)) : LiveHeld name live used' states m' :=
  fun i hi hl => h i (hused i hi) (hm i hl)

theorem touch (h : LiveHeld name live used states m) {i : ι} {c : C} (hc : live c → live (m i)) :
    LiveHeld name live used states (Function.update m i c) := by
  apply h.mono (fun _ => id)
  intro j hl
  rw [Function.update_apply] at hl
  split_ifs at hl with he
  · subst he
    exact hc hl
  · exact hl

omit [DecidableEq ι] in
/-- An entry is written back on the same resource. -/
theorem rewrite (h : LiveHeld name live used states m) {k : κ} {st : S}
    (hk : states.lookup k = some st) (st' : S) (hname : name st' = name st) :
    LiveHeld name live used (states.insert k st') m := by
  intro i hi hl
  obtain ⟨k', s, hs, hi'⟩ := h i hi hl
  by_cases he : k' = k
  · subst he
    obtain rfl : st = s := Option.some.inj (hk.symm.trans hs)
    exact ⟨k', st', AList.lookup_insert _, hname.trans hi'⟩
  · exact ⟨k', s, (AList.lookup_insert_ne he).trans hs, hi'⟩

theorem erase (hdead : ∀ c, ¬live (kill c)) (h : LiveHeld name live used states m) (k : κ) :
    LiveHeld name live used (states.erase k) (release name kill (states.lookup k) m) := by
  intro i hi hl
  rcases release_cases name kill (states.lookup k) m i with ⟨he, hother⟩ | he
  · rw [he] at hl
    obtain ⟨k', st, hk', hname⟩ := h i hi hl
    have hkk : k' ≠ k := by
      intro heq
      subst heq
      exact hother st hk' hname
    exact ⟨k', st, (AList.lookup_erase_ne hkk).trans hk', hname⟩
  · rw [he] at hl
    exact absurd hl (hdead _)

/-- A new entry comes with a resource that was not in use, and drops the one it replaces. -/
theorem insert (hdead : ∀ c, ¬live (kill c)) (h : LiveHeld name live used states m) (k : κ) (st : S)
    (hnew : ¬used (name st)) (c : C) :
    LiveHeld name live used (states.insert k st)
      (release name kill (states.lookup k) (Function.update m (name st) c)) := by
  intro i hi hl
  have hne : i ≠ name st := by
    intro he
    subst he
    exact hnew hi
  rcases release_cases name kill (states.lookup k) (Function.update m (name st) c) i with
    ⟨he, hother⟩ | he
  · rw [he, Function.update_of_ne hne] at hl
    obtain ⟨k', st', hk', hname⟩ := h i hi hl
    have hkk : k' ≠ k := by
      intro heq
      subst heq
      exact hother st' hk' hname
    exact ⟨k', st', (AList.lookup_insert_ne hkk).trans hk', hname⟩
  · rw [he] at hl
    exact absurd hl (hdead _)

omit [DecidableEq ι] in
theorem use (h : LiveHeld name live used states m) {k : κ} {st : S}
    (hk : states.lookup k = some st) :
    LiveHeld name live (fun i => used i ∨ i = name st) states m := by
  intro i hi hl
  rcases hi with hi | rfl
  · exact h i hi hl
  · exact ⟨k, st, hk, rfl⟩

end LiveHeld

end TapTunnel.Framework
