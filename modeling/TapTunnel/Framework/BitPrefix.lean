import Mathlib

namespace TapTunnel.Framework

variable {w : Nat}

/-- The first `p` bits of two words agree, counted from the most significant one. -/
def PrefixEq (p : Nat) (a b : BitVec w) : Prop := ∀ i < p, a.getMsbD i = b.getMsbD i

instance (p : Nat) (a b : BitVec w) : Decidable (PrefixEq p a b) :=
  inferInstanceAs (Decidable (∀ i < p, a.getMsbD i = b.getMsbD i))

theorem prefixEq_equivalence (p : Nat) : Equivalence (PrefixEq p : BitVec w → BitVec w → Prop) where
  refl _ _ _ := rfl
  symm h i hi := (h i hi).symm
  trans h h' i hi := (h i hi).trans (h' i hi)

theorem PrefixEq.mono {p p' : Nat} {a b : BitVec w} (hp : p' ≤ p) (h : PrefixEq p a b) :
    PrefixEq p' a b := fun i hi => h i (Nat.lt_of_lt_of_le hi hp)

theorem prefixEq_zero (a b : BitVec w) : PrefixEq 0 a b := by
  intro i hi
  omega

/-- Beyond the width there is nothing to compare. -/
theorem prefixEq_of_ge {p : Nat} (hp : w ≤ p) (a b : BitVec w) : PrefixEq p a b ↔ a = b := by
  constructor
  · intro h
    apply BitVec.eq_of_getMsbD_eq
    intro i hi
    exact h i (by omega)
  · intro h i _
    rw [h]

theorem prefixEq_min (p : Nat) (a b : BitVec w) : PrefixEq (min p w) a b ↔ PrefixEq p a b := by
  rcases Nat.le_total p w with hp | hp
  · rw [Nat.min_eq_left hp]
  · rw [Nat.min_eq_right hp, prefixEq_of_ge hp, prefixEq_of_ge (Nat.le_refl w)]

theorem prefixEq_iff_shiftRight {p : Nat} (hp : p ≤ w) (a b : BitVec w) :
    PrefixEq p a b ↔ a >>> (w-p) = b >>> (w-p) := by
  constructor
  · intro h
    apply BitVec.eq_of_getMsbD_eq
    intro i hi
    rw [BitVec.getMsbD_ushiftRight, BitVec.getMsbD_ushiftRight]
    by_cases hlow : i < w-p
    · simp [hlow]
    · rw [h (i-(w-p)) (by omega)]
  · intro h i hi
    have hbit := congrArg (fun x : BitVec w => x.getMsbD (w-p+i)) h
    have hlt : w-p+i < w := by omega
    have hnot : ¬w-p+i < w-p := by omega
    simpa [BitVec.getMsbD_ushiftRight, hlt, hnot] using hbit

/-- The first bits as a number are what is left of the word without the others. -/
theorem prefixEq_iff_div {p : Nat} (hp : p ≤ w) (a b : BitVec w) :
    PrefixEq p a b ↔ a.toNat/2^(w-p) = b.toNat/2^(w-p) := by
  rw [prefixEq_iff_shiftRight hp, ← BitVec.toNat_inj, BitVec.toNat_ushiftRight,
    BitVec.toNat_ushiftRight, Nat.shiftRight_eq_div_pow, Nat.shiftRight_eq_div_pow]

/-- Comparing under a mask of ones in front compares the first bits. -/
theorem prefixEq_iff_mask {p : Nat} (hp : p ≤ w) (a b : BitVec w) :
    PrefixEq p a b ↔
      a &&& (BitVec.allOnes w <<< (w-p)) = b &&& (BitVec.allOnes w <<< (w-p)) := by
  have hbit : ∀ (x : BitVec w) (i : Nat),
      (x &&& (BitVec.allOnes w <<< (w-p))).getMsbD i = (x.getMsbD i && decide (i < p)) := by
    intro x i
    have hiff : i+(w-p) < w ↔ i < p := by omega
    rw [BitVec.getMsbD_and, BitVec.getMsbD_shiftLeft, BitVec.getMsbD_allOnes,
      decide_eq_decide.mpr hiff]
  constructor
  · intro h
    apply BitVec.eq_of_getMsbD_eq
    intro i _
    rw [hbit, hbit]
    by_cases hi : i < p
    · rw [h i hi]
    · simp [hi]
  · intro h i hi
    have hi' := congrArg (fun x : BitVec w => x.getMsbD i) h
    simpa [hbit, hi] using hi'

/-- The successor of a word has the same first bits unless the others are all ones. -/
theorem prefixEq_succ_iff {p : Nat} (hp : p ≤ w) {a b : BitVec w} (hb : b.toNat = a.toNat+1) :
    PrefixEq p a b ↔ ¬2^(w-p) ∣ a.toNat+1 := by
  rw [prefixEq_iff_div hp, hb, Nat.succ_div]
  split_ifs with hd
  · simp [hd]
  · simp [hd]

end TapTunnel.Framework
