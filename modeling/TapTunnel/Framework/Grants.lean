import TapTunnel.Framework.Table

namespace TapTunnel.Framework

variable {κ V : Type} [DecidableEq κ]

/-- A table whose entries each hold a resource, named by `name` from a counter that stands at
`next`, and the log of the pairs of a key and a resource that were handed out. Nothing is handed out
twice, no two entries hold one resource, and an entry has the key of a pair exactly when it holds
the resource of that pair. -/
structure Granted (name : V → Nat) (log : List (κ × Nat)) (held : Table κ V) (next : Nat) :
    Prop where
  keys : (log.map Prod.fst).Nodup
  names : (log.map Prod.snd).Nodup
  below : ∀ p ∈ log, p.2 < next
  lt : ∀ k v, held.lookup k = some v → name v < next
  inj : ∀ k k' v v', held.lookup k = some v → held.lookup k' = some v' → name v = name v' → k = k'
  agree : ∀ p ∈ log, ∀ k v, held.lookup k = some v → (k = p.1 ↔ name v = p.2)

namespace Granted

variable {name : V → Nat} {log : List (κ × Nat)} {held held' : Table κ V} {next : Nat}

theorem empty (name : V → Nat) (next : Nat) : Granted name [] (∅ : Table κ V) next := by
  constructor <;> simp

/-- Entries are removed, or replaced by entries that hold the same. -/
theorem sub (h : Granted name log held next) (hsub : ∀ k v', held'.lookup k = some v' →
    ∃ v, held.lookup k = some v ∧ name v = name v') : Granted name log held' next where
  keys := h.keys
  names := h.names
  below := h.below
  lt := by
    intro k v' hk
    obtain ⟨v, hv, hname⟩ := hsub k v' hk
    rw [← hname]
    exact h.lt k v hv
  inj := by
    intro k k' v1 v2 hk hk' heq
    obtain ⟨u1, hu1, hn1⟩ := hsub k v1 hk
    obtain ⟨u2, hu2, hn2⟩ := hsub k' v2 hk'
    apply h.inj k k' u1 u2 hu1 hu2
    rw [hn1, hn2, heq]
  agree := by
    intro p hp k v' hk
    obtain ⟨v, hv, hname⟩ := hsub k v' hk
    rw [← hname]
    exact h.agree p hp k v hv

theorem erase (h : Granted name log held next) (k : κ) :
    Granted name log (held.erase k) next := by
  apply h.sub
  intro k' v hk'
  exact ⟨v, (Table.erase_cases hk').2, rfl⟩

/-- An entry is replaced by one that holds the same. -/
theorem replace (h : Granted name log held next) {k : κ} {v v' : V} (hk : held.lookup k = some v)
    (hname : name v' = name v) : Granted name log (held.insert k v') next := by
  apply h.sub
  intro k' u hk'
  rcases Table.insert_cases hk' with ⟨hkk, hu⟩ | ⟨-, hk'⟩
  · rw [hkk, hu]
    exact ⟨v, hk, hname.symm⟩
  · exact ⟨u, hk', rfl⟩

/-- The counter has also been used elsewhere. -/
theorem skip (h : Granted name log held next) {n : Nat} (hn : next ≤ n) :
    Granted name log held n where
  keys := h.keys
  names := h.names
  below p hp := Nat.lt_of_lt_of_le (h.below p hp) hn
  lt k v hk := Nat.lt_of_lt_of_le (h.lt k v hk) hn
  inj := h.inj
  agree := h.agree

/-- A new entry, under a key that was never handed out, with a new resource. -/
theorem create (h : Granted name log held next) {k : κ} (hk : k ∉ log.map Prod.fst) {v : V}
    (hv : name v = next) : Granted name log (held.insert k v) (next + 1) where
  keys := h.keys
  names := h.names
  below p hp := Nat.lt_succ_of_lt (h.below p hp)
  lt := by
    intro k' u hk'
    rcases Table.insert_cases hk' with ⟨-, hu⟩ | ⟨-, hk'⟩
    · rw [hu, hv]
      omega
    · have hlt := h.lt k' u hk'
      omega
  inj := by
    intro k1 k2 v1 v2 h1 h2 heq
    rcases Table.insert_cases h1 with ⟨hk1, hv1⟩ | ⟨-, h1⟩
    · rcases Table.insert_cases h2 with ⟨hk2, -⟩ | ⟨-, h2⟩
      · rw [hk1, hk2]
      · have hlt := h.lt k2 v2 h2
        rw [hv1, hv] at heq
        omega
    · have hlt := h.lt k1 v1 h1
      rcases Table.insert_cases h2 with ⟨-, hv2⟩ | ⟨-, h2⟩
      · rw [hv2, hv] at heq
        omega
      · exact h.inj k1 k2 v1 v2 h1 h2 heq
  agree := by
    intro p hp k' u hk'
    have hlt := h.below p hp
    rcases Table.insert_cases hk' with ⟨hkk, hu⟩ | ⟨-, hk'⟩
    · have hne : k' ≠ p.1 := by
        intro heq
        apply hk
        rw [← hkk, heq]
        exact List.mem_map_of_mem hp
      rw [hu, hv]
      exact ⟨fun heq => absurd heq hne, fun heq => by omega⟩
    · exact h.agree p hp k' u hk'

/-- An entry's key and resource are handed out. -/
theorem grant (h : Granted name log held next) {k : κ} {v : V} (hk : held.lookup k = some v)
    (hnew : k ∉ log.map Prod.fst) : Granted name (log ++ [(k, name v)]) held next where
  keys := by
    rw [List.map_append, List.map_singleton, ← List.concat_eq_append]
    exact h.keys.concat hnew
  names := by
    rw [List.map_append, List.map_singleton, ← List.concat_eq_append]
    apply h.names.concat
    intro hm
    obtain ⟨p, hp, heq⟩ := List.mem_map.mp hm
    have hkey : k = p.1 := (h.agree p hp k v hk).mpr heq.symm
    apply hnew
    rw [hkey]
    exact List.mem_map_of_mem hp
  below := by
    intro p hp
    rcases List.mem_append.mp hp with hp | hp
    · exact h.below p hp
    · rw [List.mem_singleton.mp hp]
      exact h.lt k v hk
  lt := h.lt
  inj := h.inj
  agree := by
    intro p hp k' u hk'
    rcases List.mem_append.mp hp with hp | hp
    · exact h.agree p hp k' u hk'
    · rw [List.mem_singleton.mp hp]
      constructor
      · intro heq
        rw [heq, hk] at hk'
        rw [Option.some.inj hk']
      · intro heq
        exact h.inj k' k u v hk' hk heq

end Granted

end TapTunnel.Framework
