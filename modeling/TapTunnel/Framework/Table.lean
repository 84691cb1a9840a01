import Mathlib

namespace TapTunnel.Framework

/-- Finite map with one value type; the entry order is an artefact that no result depends on. -/
abbrev Table (κ V : Type) := AList (fun _ : κ => V)

namespace Table

variable {κ V : Type} [DecidableEq κ]

theorem lookup_insert_if (m : Table κ V) (k a : κ) (v : V) :
    (m.insert a v).lookup k = if k = a then some v else m.lookup k := by
  by_cases h : k = a
  · subst h
    simp
  · simp [h, AList.lookup_insert_ne h]

theorem lookup_erase_if (m : Table κ V) (k a : κ) :
    (m.erase a).lookup k = if k = a then none else m.lookup k := by
  by_cases h : k = a
  · subst h
    simp
  · simp [h, AList.lookup_erase_ne h]

/-- What is found after an insertion is the new value under its key, or was there before. -/
theorem insert_cases {m : Table κ V} {k a : κ} {u v : V} (h : (m.insert a v).lookup k = some u) :
    (k = a ∧ u = v) ∨ (k ≠ a ∧ m.lookup k = some u) := by
  rw [lookup_insert_if] at h
  split_ifs at h with he
  · exact .inl ⟨he, (Option.some.inj h).symm⟩
  · exact .inr ⟨he, h⟩

theorem erase_cases {m : Table κ V} {k a : κ} {u : V} (h : (m.erase a).lookup k = some u) :
    k ≠ a ∧ m.lookup k = some u := by
  rw [lookup_erase_if] at h
  split_ifs at h with he
  exact ⟨he, h⟩

/-- Writing back the value under a key changes nothing. -/
theorem lookup_insert_same {m : Table κ V} {k : κ} {v : V} (h : m.lookup k = some v) (a : κ) :
    (m.insert k v).lookup a = m.lookup a := by
  rw [lookup_insert_if]
  split_ifs with ha
  · rw [ha, h]
  · rfl

theorem lookup_erase_same {m : Table κ V} {k : κ} (h : m.lookup k = none) (a : κ) :
    (m.erase k).lookup a = m.lookup a := by
  rw [lookup_erase_if]
  split_ifs with ha
  · rw [ha, h]
  · rfl

theorem mem_keys_iff (m : Table κ V) (k : κ) : k ∈ m.keys ↔ ∃ v, m.lookup k = some v := by
  rw [← AList.mem_keys, ← AList.lookup_isSome, Option.isSome_iff_exists]

theorem lookup_eq_none_of_notMem {m : Table κ V} {k : κ} (h : k ∉ m.keys) : m.lookup k = none :=
  AList.lookup_eq_none.mpr (fun hk => h (AList.mem_keys.mp hk))

section InsertAll

variable {ι : Type} (key : ι → κ) (val : ι → V)

/-- Entries are put in one after the other. -/
def insertAll (l : List ι) (m : Table κ V) : Table κ V :=
  l.foldl (fun m i => m.insert (key i) (val i)) m

variable {key val} {l : List ι}

theorem lookup_insertAll_of_notMem {k : κ} (h : k ∉ l.map key) (m : Table κ V) :
    (insertAll key val l m).lookup k = m.lookup k := by
  induction l generalizing m with
  | nil => rfl
  | cons i l ih =>
    obtain ⟨hi, hl⟩ := not_or.mp (mt List.mem_cons.mpr h)
    exact (ih hl _).trans (AList.lookup_insert_ne hi)

theorem lookup_insertAll (hnd : (l.map key).Nodup) {i : ι} (hi : i ∈ l) (m : Table κ V) :
    (insertAll key val l m).lookup (key i) = some (val i) := by
  induction l generalizing m with
  | nil => cases hi
  | cons j l ih =>
    obtain ⟨hj, hnd⟩ := List.nodup_cons.mp hnd
    rcases List.mem_cons.mp hi with rfl | hi
    · exact (lookup_insertAll_of_notMem hj _).trans (AList.lookup_insert _)
    · exact ih hnd hi _

/-- With distinct keys there is one entry for each. -/
theorem keys_insertAll (hnd : (l.map key).Nodup) :
    (insertAll key val l ∅).keys.Perm (l.map key) := by
  rw [List.perm_ext_iff_of_nodup (AList.keys_nodup _) hnd]
  intro k
  rw [mem_keys_iff]
  by_cases hk : k ∈ l.map key
  · obtain ⟨i, hi, rfl⟩ := List.mem_map.mp hk
    exact iff_of_true ⟨_, lookup_insertAll hnd hi ∅⟩ hk
  · refine iff_of_false (fun ⟨v, hv⟩ => ?_) hk
    rw [lookup_insertAll_of_notMem hk] at hv
    cases hv

end InsertAll

/-- Number of the entries whose value passes the check. -/
def countVal (p : V → Bool) (m : Table κ V) : Nat := m.entries.countP fun e => p e.2

section CountVal

variable (p : V → Bool) {m : Table κ V} {k a : κ} {u v : V}

theorem countVal_erase_le (m : Table κ V) (k : κ) : countVal p (m.erase k) ≤ countVal p m :=
  (List.kerase_sublist k m.entries).countP_le

theorem countVal_erase_add (h : m.lookup k = some v) :
    countVal p (m.erase k) + (p v).toNat = countVal p m := by
  have hk : k ∈ m.entries.keys := AList.mem_keys.mp (AList.lookup_isSome.mp (by rw [h]; rfl))
  obtain ⟨b, l, l', -, hl, herase⟩ := List.exists_of_kerase hk
  have hb : m.lookup k = some b := AList.mem_lookup_iff.mpr (by rw [hl]; simp)
  obtain rfl : b = v := Option.some.inj (hb.symm.trans h)
  have hleft : countVal p (m.erase k) = (l ++ l').countP fun e => p e.2 := by rw [← herase]; rfl
  rw [hleft, countVal, hl]
  cases hp : p b
  · simp [hp]
  · simp [hp, Nat.add_assoc]

theorem countVal_insert_le (m : Table κ V) (k : κ) (v : V) :
    countVal p (m.insert k v) ≤ countVal p m + (p v).toNat := by
  have h := countVal_erase_le p m k
  have hi : countVal p (m.insert k v) = countVal p (m.erase k) + (p v).toNat := by
    rw [countVal, AList.entries_insert]
    cases hp : p v
    · simp [hp, countVal, AList.erase]
    · simp [hp, countVal, AList.erase]
  omega

theorem countVal_pos (h : m.lookup k = some v) (hv : p v = true) : 0 < countVal p m := by
  have hadd := countVal_erase_add p h
  rw [hv, Bool.toNat_true] at hadd
  omega

end CountVal

end Table

end TapTunnel.Framework
