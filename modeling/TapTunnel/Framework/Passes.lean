import Mathlib

namespace TapTunnel.Framework

section Folds

variable {σ τ α ε : Type}

/-- A loop over a list whose rounds succeed and act on an abstraction of the state: the whole
loop is the fold on the abstraction. -/
theorem foldlM_refines {f : σ → α → Except ε σ} {g : τ → α → τ} {abs : σ → τ} {I : τ → Prop}
    (hrun : ∀ s a, I (abs s) → ∃ s', f s a = .ok s' ∧ abs s' = g (abs s) a)
    (hI : ∀ t a, I t → I (g t a)) (l : List α) {s : σ} (h : I (abs s)) :
    ∃ s', l.foldlM f s = .ok s' ∧ abs s' = l.foldl g (abs s) ∧ I (abs s') := by
  induction l generalizing s with
  | nil => exact ⟨s, rfl, rfl, h⟩
  | cons a l ih =>
    obtain ⟨s1, hf, hs1⟩ := hrun s a h
    obtain ⟨s2, hrest, hs2, h2⟩ := ih (s := s1) (hs1 ▸ hI _ a h)
    refine ⟨s2, ?_, ?_, h2⟩
    · rw [List.foldlM_cons, hf]
      exact hrest
    · rw [hs2, hs1, List.foldl_cons]

theorem foldl_perm {g : τ → α → τ} {I : τ → Prop} {R : α → α → Prop}
    (hsymm : ∀ {a b}, R a b → R b a) (hI : ∀ t a, I t → I (g t a))
    (hcomm : ∀ t a b, R a b → I t → g (g t a) b = g (g t b) a) {l l' : List α}
    (hp : l.Perm l') (hR : l.Pairwise R) {t : τ} (h : I t) : l.foldl g t = l'.foldl g t := by
  induction hp generalizing t with
  | nil => rfl
  | cons a hp ih => exact ih (List.pairwise_cons.mp hR).2 (hI t a h)
  | swap a b l =>
    have hab : R b a := (List.pairwise_cons.mp hR).1 a List.mem_cons_self
    rw [List.foldl_cons, List.foldl_cons, hcomm t b a hab h]
    rfl
  | trans hp _ ih1 ih2 =>
    exact (ih1 hR h).trans (ih2 ((hp.pairwise_iff hsymm).mp hR) h)

end Folds

section Touch

variable {ι X : Type} [DecidableEq ι]

/-- A map with at most one of its values changed. -/
def touch (o : Option (ι × (X → X))) (f : ι → X) : ι → X :=
  match o with
  | none => f
  | some (i, g) => Function.update f i (g (f i))

theorem touch_comm {o o' : Option (ι × (X → X))} (h : ∀ p ∈ o, ∀ q ∈ o', p.1 ≠ q.1) (f : ι → X) :
    touch o (touch o' f) = touch o' (touch o f) := by
  cases o with
  | none => rfl
  | some p =>
    cases o' with
    | none => rfl
    | some q =>
      have hne : p.1 ≠ q.1 := h p rfl q rfl
      simp only [touch]
      rw [Function.update_of_ne hne, Function.update_of_ne hne.symm, Function.update_comm hne]

/-- Under a renaming of its indices a map is changed at the renamed place. -/
theorem touch_rename (ρ : Equiv.Perm ι) (o : Option (ι × (X → X))) {f f' : ι → X} {i : ι}
    (h : f' (ρ i) = f i) : touch (o.map fun p => (ρ p.1, p.2)) f' (ρ i) = touch o f i := by
  cases o with
  | none => exact h
  | some p =>
    simp only [Option.map_some, touch]
    by_cases hi : i = p.1
    · rw [← hi, Function.update_self, Function.update_self, h]
    · rw [Function.update_of_ne hi, Function.update_of_ne (ρ.injective.ne hi), h]

def put (o : Option (ι × X)) (f : ι → X) : ι → X := touch (o.map fun p => (p.1, fun _ => p.2)) f

theorem put_comm {o o' : Option (ι × X)} (h : ∀ p ∈ o, ∀ q ∈ o', p.1 ≠ q.1) (f : ι → X) :
    put o (put o' f) = put o' (put o f) := by
  refine touch_comm ?_ f
  intro p hp q hq
  obtain ⟨p', hp', rfl⟩ := Option.mem_map.mp hp
  obtain ⟨q', hq', rfl⟩ := Option.mem_map.mp hq
  exact h p' hp' q' hq'

theorem put_rename (ρ : Equiv.Perm ι) (o : Option (ι × X)) {f f' : ι → X} {i : ι}
    (h : f' (ρ i) = f i) : put (o.map fun p => (ρ p.1, p.2)) f' (ρ i) = put o f i := by
  have hmap := touch_rename ρ (o.map fun p => (p.1, fun _ : X => p.2)) h
  rw [Option.map_map] at hmap
  rw [put, Option.map_map]
  exact hmap

/-- Under a renaming of its values a map gets the renamed value. -/
theorem put_map {Y : Type} (g : X → Y) (o : Option (ι × X)) {f : ι → X} {f' : ι → Y} {i : ι}
    (h : f' i = g (f i)) : put (o.map fun p => (p.1, g p.2)) f' i = g (put o f i) := by
  cases o with
  | none => exact h
  | some p =>
    change Function.update f' p.1 (g p.2) i = g (Function.update f p.1 p.2 i)
    by_cases hi : i = p.1
    · rw [hi, Function.update_self, Function.update_self]
    · rw [Function.update_of_ne hi, Function.update_of_ne hi, h]

end Touch

/-- Two lists of distinct names of one length: some renaming takes one to the other. -/
theorem exists_perm_map_eq {α : Type} [DecidableEq α] {l l' : List α} (hl : l.Nodup)
    (hl' : l'.Nodup) (hlen : l.length = l'.length) : ∃ ρ : Equiv.Perm α, l.map ρ = l' := by
  induction l generalizing l' with
  | nil =>
    rw [List.length_nil, eq_comm, List.length_eq_zero_iff] at hlen
    exact ⟨1, hlen.symm⟩
  | cons a l ih =>
    cases l' with
    | nil => cases hlen
    | cons b l' =>
      obtain ⟨ha, hl⟩ := List.nodup_cons.mp hl
      obtain ⟨hb, hl'⟩ := List.nodup_cons.mp hl'
      obtain ⟨ρ, rfl⟩ := ih hl hl' (Nat.succ.inj hlen)
      refine ⟨ρ.trans (Equiv.swap (ρ a) b), ?_⟩
      rw [List.map_cons, Equiv.trans_apply, Equiv.swap_apply_left]
      refine congrArg (b :: ·) (List.map_congr_left fun x hx => ?_)
      -- the swap concerns no image of the tail
      have hxa : ρ x ≠ ρ a := ρ.injective.ne (fun he => ha (he ▸ hx))
      have hxb : ρ x ≠ b := fun he => hb (he ▸ List.mem_map_of_mem hx)
      exact Equiv.swap_apply_of_ne_of_ne hxa hxb

end TapTunnel.Framework
