import Mathlib

namespace TapTunnel.Framework

/-- ASCII digit, in lower case beyond nine. -/
def digitByte (d : Nat) : UInt8 := if d < 10 then .ofNat (48+d) else .ofNat (87+d)

def digitValue (b : UInt8) : Option Nat :=
  if 48 ≤ b.toNat ∧ b.toNat ≤ 57 then some (b.toNat-48)
  else if 97 ≤ b.toNat ∧ b.toNat ≤ 102 then some (b.toNat-87) else none

/-- A number without leading zeros. -/
def numeral (base n : Nat) : List UInt8 :=
  if n = 0 then [48] else ((Nat.digits base n).map digitByte).reverse

def readDigit (base : Nat) (acc : Option Nat) (b : UInt8) : Option Nat :=
  acc.bind fun n => (digitValue b).bind fun d => if d < base then some (d+base*n) else none

def readNumeral (base : Nat) (bs : List UInt8) : Option Nat :=
  if bs = [] then none else bs.foldl (readDigit base) (some 0)

theorem digitByte_spec : ∀ d < 16, digitValue (digitByte d) = some d ∧
    (48 ≤ digitByte d ∧ digitByte d ≤ 57 ∨ 97 ≤ digitByte d ∧ digitByte d ≤ 102) := by
  decide

section Numeral

variable {base : Nat} (h2 : 2 ≤ base) (h16 : base ≤ 16)

include h2 h16

theorem numeral_digits (n : Nat) :
    ∀ b ∈ numeral base n, ∃ d, d < base ∧ b = digitByte d := by
  intro b hb
  unfold numeral at hb
  split_ifs at hb with h0
  · exact ⟨0, by omega, List.mem_singleton.mp hb⟩
  · obtain ⟨d, hd, rfl⟩ := List.mem_map.mp (List.mem_reverse.mp hb)
    exact ⟨d, Nat.digits_lt_base h2 hd, rfl⟩

/-- Every byte of a numeral is a digit, so none is a punctuation mark. -/
theorem numeral_byte (n : Nat) :
    ∀ b ∈ numeral base n, 48 ≤ b ∧ b ≤ 57 ∨ 97 ≤ b ∧ b ≤ 102 := by
  intro b hb
  obtain ⟨d, hd, rfl⟩ := numeral_digits h2 h16 n b hb
  exact (digitByte_spec d (by omega)).2

theorem foldr_readDigit (ds : List Nat) (hds : ∀ d ∈ ds, d < base) :
    (ds.map digitByte).foldr (fun b acc => readDigit base acc b) (some 0) =
      some (Nat.ofDigits base ds) := by
  induction ds with
  | nil => rfl
  | cons d ds ih =>
    have hd := hds d List.mem_cons_self
    have hv := (digitByte_spec d (by omega)).1
    rw [List.map_cons, List.foldr_cons, ih fun x hx => hds x (List.mem_cons_of_mem d hx)]
    simp [readDigit, hv, hd, Nat.ofDigits_cons]

theorem readNumeral_numeral (n : Nat) : readNumeral base (numeral base n) = some n := by
  unfold numeral readNumeral
  split_ifs with h0 hnil hnil
  · cases hnil
  · have h48 : digitValue 48 = some 0 := rfl
    simp [readDigit, h48, h0]
    omega
  · simp [Nat.digits_eq_nil_iff_eq_zero, h0] at hnil
  · rw [List.foldl_reverse, foldr_readDigit h2 h16 _ fun d hd => Nat.digits_lt_base h2 hd,
      Nat.ofDigits_digits]

end Numeral

theorem numeral_ne_nil (base n : Nat) : numeral base n ≠ [] := by
  unfold numeral
  split_ifs with h0
  · simp
  · simp [Nat.digits_eq_nil_iff_eq_zero, h0]

theorem numeral_length_le {base : Nat} (h2 : 2 ≤ base) {n k : Nat} (hk : 0 < k) (h : n < base^k) :
    (numeral base n).length ≤ k := by
  unfold numeral
  split_ifs with h0
  · exact hk
  · rw [List.length_reverse, List.length_map]
    exact (Nat.digits_length_le_iff h2 n).mpr h

/-- The lowest `k` digits of a number, with zeros, least significant first. -/
def places (base : Nat) : Nat → Nat → List Nat
  | 0, _ => []
  | k+1, n => n%base::places base k (n/base)

@[simp] theorem places_length (base k n : Nat) : (places base k n).length = k := by
  induction k generalizing n with
  | zero => rfl
  | succ k ih => simp [places, ih]

theorem ofDigits_places (base k n : Nat) :
    Nat.ofDigits base (places base k n) = n%base^k := by
  induction k generalizing n with
  | zero => simp [places, Nat.mod_one]
  | succ k ih =>
    rw [places, Nat.ofDigits_cons, ih, pow_succ', Nat.mod_mul]

theorem places_lt {base : Nat} (hb : 0 < base) (k n : Nat) : ∀ d ∈ places base k n, d < base := by
  induction k generalizing n with
  | zero => simp [places]
  | succ k ih =>
    intro d hd
    obtain rfl | hd := List.mem_cons.mp hd
    · exact Nat.mod_lt n hb
    · exact ih (n/base) d hd

theorem length_splitOn {α : Type} [BEq α] [LawfulBEq α] (sep : α) (xs : List α) :
    (xs.splitOn sep).length = xs.count sep+1 := by
  induction xs with
  | nil => rfl
  | cons x xs ih =>
    rw [List.splitOn_cons_eq_if_modifyHead, List.count_cons]
    split_ifs with hx
    · rw [List.length_cons, ih]
    · rw [List.length_modifyHead, ih, Nat.add_zero]

/-- Two pieces come from a list with one separator. -/
theorem splitOn_eq_pair {α : Type} [BEq α] [LawfulBEq α] {sep : α} {xs ys zs : List α} :
    xs.splitOn sep = [ys, zs] ↔ xs.count sep = 1 ∧ xs = ys ++ sep::zs := by
  constructor
  · intro h
    have hlen := length_splitOn sep xs
    have hxs : [sep].intercalate (xs.splitOn sep) = xs := List.intercalate_splitOn sep
    rw [h] at hlen hxs
    refine ⟨by simpa using hlen.symm, ?_⟩
    simpa [List.intercalate_cons_cons] using hxs.symm
  · rintro ⟨hcount, rfl⟩
    rw [List.count_append, List.count_cons_self] at hcount
    have hys : sep ∉ ys := List.count_eq_zero.mp (by omega)
    have hzs : sep ∉ zs := List.count_eq_zero.mp (by omega)
    rw [List.splitOn_append_cons_self_of_not_mem hys, List.splitOn_eq_singleton hzs]

/-- Reading back a list item by item. -/
theorem mapM_map_eq_some {α β : Type} {f : α → β} {g : β → Option α} {xs : List α}
    (h : ∀ x ∈ xs, g (f x) = some x) : (xs.map f).mapM g = some xs := by
  induction xs with
  | nil => rfl
  | cons x xs ih =>
    rw [List.map_cons, List.mapM_cons, h x List.mem_cons_self,
      ih fun y hy => h y (List.mem_cons_of_mem x hy)]
    rfl

end TapTunnel.Framework
