import TapTunnel.Framework.BitPrefix
import TapTunnel.Net.Addr

namespace TapTunnel

open Framework

def IpAddr.isIpv4 : IpAddr → Bool
  | .v4 _ => true
  | .v6 _ => false

def IpAddr.width : IpAddr → Nat
  | .v4 _ => 32
  | .v6 _ => 128

/-- Two addresses of one family that agree on the first bits, as many as the family has at most. -/
def SameSubnet (p : Nat) : IpAddr → IpAddr → Prop
  | .v4 a, .v4 b => PrefixEq (min p 32) a b
  | .v6 a, .v6 b => PrefixEq (min p 128) a b
  | _, _ => False

instance (p : Nat) : (a b : IpAddr) → Decidable (SameSubnet p a b)
  | .v4 a, .v4 b => inferInstanceAs (Decidable (PrefixEq (min p 32) a b))
  | .v6 a, .v6 b => inferInstanceAs (Decidable (PrefixEq (min p 128) a b))
  | .v4 _, .v6 _ | .v6 _, .v4 _ => .isFalse id

/-- `x << n`: a shift by the width or more panics in a build with overflow checks, and without
them the amount is taken modulo the width. -/
def shiftLeft (overflowChecks : Bool) {w : Nat} (x : BitVec w) (n : UInt8) : Option (BitVec w) :=
  if w ≤ n.toNat then
    if overflowChecks then none else some (x <<< (n.toNat%w))
  else some (x <<< n.toNat)

/-- The mask of `validate_ip_in_subnet`, for a family of `w` bits. -/
def subnetMask (overflowChecks : Bool) (w : Nat) (prefixLen : UInt8) : Option (BitVec w) :=
  if w ≤ prefixLen.toNat then some (.allOnes w)
  else shiftLeft overflowChecks (.allOnes w) (.ofNat w - prefixLen)

def maskedEq (overflowChecks : Bool) {w : Nat} (ip tap : BitVec w) (prefixLen : UInt8) :
    Option Bool :=
  (subnetMask overflowChecks w prefixLen).map fun mask => (ip &&& mask) == (tap &&& mask)

/-- `validate_ip_in_subnet`; `none` when a shift panics. -/
def validateIpInSubnet (overflowChecks : Bool) (ip tapIp : IpAddr) (prefixLen : UInt8) :
    Option Bool :=
  match ip, tapIp with
  | .v4 ip, .v4 tap => maskedEq overflowChecks ip tap prefixLen
  | .v6 ip, .v6 tap => maskedEq overflowChecks ip tap prefixLen
  | _, _ => some false

section Mask

variable {w : Nat} (hw : 0 < w) (hw' : w < 256) (overflowChecks : Bool)

include hw hw'

/-- The mask is right for every prefix but the empty one. -/
theorem subnetMask_pos {p : UInt8} (hp : p ≠ 0) :
    subnetMask overflowChecks w p = some (BitVec.allOnes w <<< (w-p.toNat)) := by
  have hpos : 0 < p.toNat := Nat.pos_of_ne_zero (fun h => hp (UInt8.toNat_inj.mp h))
  unfold subnetMask
  split_ifs with hle
  · rw [Nat.sub_eq_zero_of_le hle, BitVec.shiftLeft_zero]
  · have hsub : (UInt8.ofNat w - p).toNat = w-p.toNat := by
      rw [UInt8.toNat_sub, UInt8.toNat_ofNat']
      omega
    unfold shiftLeft
    rw [hsub, if_neg (by omega)]

/-- With the empty prefix the amount of the shift is the width. -/
theorem subnetMask_zero :
    subnetMask overflowChecks w 0 = if overflowChecks then none else some (.allOnes w) := by
  have hwidth : (UInt8.ofNat w - 0).toNat = w := by
    rw [UInt8.sub_zero, UInt8.toNat_ofNat']
    omega
  have hzero : ¬w ≤ (0 : UInt8).toNat := by
    rw [UInt8.toNat_zero]
    omega
  unfold subnetMask shiftLeft
  rw [if_neg hzero, hwidth, if_pos (Nat.le_refl w), Nat.mod_self, BitVec.shiftLeft_zero]

theorem maskedEq_pos {p : UInt8} (hp : p ≠ 0) (a b : BitVec w) :
    maskedEq overflowChecks a b p = some (decide (PrefixEq (min p.toNat w) a b)) := by
  have hmask : BitVec.allOnes w <<< (w-p.toNat) = BitVec.allOnes w <<< (w-min p.toNat w) := by
    congr 1
    omega
  have hiff := prefixEq_iff_mask (Nat.min_le_right p.toNat w) a b
  rw [maskedEq, subnetMask_pos hw hw' overflowChecks hp, Option.map_some, hmask, beq_eq_decide,
    decide_eq_decide.mpr hiff]

/-- Where the test should always succeed it compares the whole addresses, or panics. -/
theorem maskedEq_zero (a b : BitVec w) :
    maskedEq overflowChecks a b 0 = if overflowChecks then none else some (decide (a = b)) := by
  rw [maskedEq, subnetMask_zero hw hw']
  cases overflowChecks with
  | true => rfl
  | false => simp [beq_eq_decide]

theorem maskedEq_iff (a b : BitVec w) (p : UInt8) :
    maskedEq overflowChecks a b p = some (decide (PrefixEq (min p.toNat w) a b)) ↔
      p ≠ 0 ∨ (overflowChecks = false ∧ a = b) := by
  by_cases hp : p = 0
  · subst hp
    have hall : PrefixEq (min (0 : UInt8).toNat w) a b := by
      rw [UInt8.toNat_zero, Nat.zero_min]
      exact prefixEq_zero a b
    rw [maskedEq_zero hw hw', decide_eq_true hall]
    cases overflowChecks with
    | true => simp
    | false => simp
  · simp only [maskedEq_pos hw hw' overflowChecks hp, ne_eq, hp, not_false_eq_true, true_or]

end Mask

theorem sameSubnet_equivalence (p : Nat) : Equivalence (SameSubnet p) where
  refl a := by
    cases a with
    | v4 a => exact (prefixEq_equivalence _).refl a
    | v6 a => exact (prefixEq_equivalence _).refl a
  symm {a b} h := by
    cases a <;> cases b
    case v4.v4 => exact (prefixEq_equivalence _).symm h
    case v6.v6 => exact (prefixEq_equivalence _).symm h
    all_goals exact h
  trans {a b c} h h' := by
    cases a <;> cases b <;> cases c
    case v4.v4.v4 => exact (prefixEq_equivalence _).trans h h'
    case v6.v6.v6 => exact (prefixEq_equivalence _).trans h h'
    all_goals first | exact h.elim | exact h'.elim

theorem SameSubnet.mono {p p' : Nat} (hp : p' ≤ p) {a b : IpAddr} (h : SameSubnet p a b) :
    SameSubnet p' a b := by
  cases a <;> cases b
  case v4.v4 => exact PrefixEq.mono (by omega) h
  case v6.v6 => exact PrefixEq.mono (by omega) h
  all_goals exact h

theorem sameSubnet_zero (a b : IpAddr) : SameSubnet 0 a b ↔ a.isIpv4 = b.isIpv4 := by
  cases a <;> cases b <;> simp [SameSubnet, IpAddr.isIpv4, prefixEq_zero]

/-- The test is prefix agreement for every prefix but the empty one. There it is right only for
addresses of different families, and for equal ones in a build without overflow checks. -/
theorem validateIpInSubnet_iff (overflowChecks : Bool) (ip tap : IpAddr) (p : UInt8) :
    validateIpInSubnet overflowChecks ip tap p = some (decide (SameSubnet p.toNat ip tap)) ↔
      p ≠ 0 ∨ ip.isIpv4 ≠ tap.isIpv4 ∨ (overflowChecks = false ∧ ip = tap) := by
  cases ip with
  | v4 a =>
    cases tap with
    | v4 b =>
      simp only [IpAddr.isIpv4, ne_eq, not_true, false_or, IpAddr.v4.injEq]
      exact maskedEq_iff (by decide) (by decide) overflowChecks a b p
    | v6 b => exact iff_of_true rfl (.inr (.inl nofun))
  | v6 a =>
    cases tap with
    | v4 b => exact iff_of_true rfl (.inr (.inl nofun))
    | v6 b =>
      simp only [IpAddr.isIpv4, ne_eq, not_true, false_or, IpAddr.v6.injEq]
      exact maskedEq_iff (by decide) (by decide) overflowChecks a b p

/-- The test runs through and succeeds. -/
def InSubnet (overflowChecks : Bool) (p : UInt8) (ip tap : IpAddr) : Prop :=
  validateIpInSubnet overflowChecks ip tap p = some true

theorem inSubnet_iff {overflowChecks : Bool} {p : UInt8} (hp : p ≠ 0) (ip tap : IpAddr) :
    InSubnet overflowChecks p ip tap ↔ SameSubnet p.toNat ip tap := by
  have hval := (validateIpInSubnet_iff overflowChecks ip tap p).mpr (.inl hp)
  rw [InSubnet, hval, Option.some.injEq, decide_eq_true_iff]

theorem inSubnet_zero (overflowChecks : Bool) (ip tap : IpAddr) :
    InSubnet overflowChecks 0 ip tap ↔ overflowChecks = false ∧ ip = tap := by
  have hiff := validateIpInSubnet_iff overflowChecks ip tap 0
  by_cases hf : ip.isIpv4 = tap.isIpv4
  · have hsame : SameSubnet 0 ip tap := (sameSubnet_zero ip tap).mpr hf
    simpa [InSubnet, hf, hsame] using hiff
  · have hne : ip ≠ tap := fun h => hf (congrArg IpAddr.isIpv4 h)
    have hnot : ¬SameSubnet 0 ip tap := fun h => hf ((sameSubnet_zero ip tap).mp h)
    have hval := hiff.mpr (.inr (.inl hf))
    simp [InSubnet, hval, hnot, hne]

/-- The addresses in one subnet of a given prefix are a class of an equivalence relation, unless
the shift for the empty prefix panics. -/
theorem inSubnet_equivalence_iff (overflowChecks : Bool) (p : UInt8) :
    Equivalence (InSubnet overflowChecks p) ↔ p ≠ 0 ∨ overflowChecks = false := by
  by_cases hp : p = 0
  · have hrel : InSubnet overflowChecks p = fun ip tap => overflowChecks = false ∧ ip = tap := by
      funext ip tap
      rw [hp]
      exact propext (inSubnet_zero overflowChecks ip tap)
    rw [hrel]
    constructor
    · intro h
      exact .inr (h.refl (.v4 0)).1
    · intro h
      have hoff : overflowChecks = false := h.resolve_left (fun hne => hne hp)
      exact ⟨fun _ => ⟨hoff, rfl⟩, fun h => ⟨hoff, h.2.symm⟩, fun h h' => ⟨hoff, h.2.trans h'.2⟩⟩
  · have hrel : InSubnet overflowChecks p = SameSubnet p.toNat := by
      funext ip tap
      exact propext (inSubnet_iff hp ip tap)
    rw [hrel]
    exact iff_of_true (sameSubnet_equivalence p.toNat) (.inl hp)

/-- The subnet test is prefix agreement, an equivalence relation for each prefix and antitone in
the prefix, exactly as far as the shift does not overflow: `MAX << 32` and `MAX << 128`, which
the empty prefix leads to, panic or leave the mask full. -/
theorem subnet_test_iff (overflowChecks : Bool) (p : UInt8) :
    (∀ ip tap, validateIpInSubnet overflowChecks ip tap p =
        some (decide (SameSubnet p.toNat ip tap)) ↔
      p ≠ 0 ∨ ip.isIpv4 ≠ tap.isIpv4 ∨ (overflowChecks = false ∧ ip = tap)) ∧
    (Equivalence (InSubnet overflowChecks p) ↔ p ≠ 0 ∨ overflowChecks = false) ∧
    (p ≠ 0 → ∀ q, p ≤ q → ∀ ip tap,
      InSubnet overflowChecks q ip tap → InSubnet overflowChecks p ip tap) := by
  refine ⟨fun ip tap => validateIpInSubnet_iff overflowChecks ip tap p,
    inSubnet_equivalence_iff overflowChecks p, ?_⟩
  intro hp q hpq ip tap hq
  have hle : p.toNat ≤ q.toNat := UInt8.le_iff_toNat_le.mp hpq
  have hq0 : q ≠ 0 := by
    intro h
    have hp0 : p.toNat = 0 := by
      rw [h, UInt8.toNat_zero] at hle
      omega
    exact hp (UInt8.toNat_inj.mp hp0)
  have hsame := (inSubnet_iff hq0 ip tap).mp hq
  exact (inSubnet_iff hp ip tap).mpr (hsame.mono hle)

/-- Two hosts of 10.0.0.0/24 are in one subnet also for the prefix 8. -/
theorem subnet_test_iff_slash24 :
    InSubnet true 24 (.v4 0x0a000007) (.v4 0x0a000001) ∧
      InSubnet true 8 (.v4 0x0a000007) (.v4 0x0a000001) := by
  have h24 : InSubnet true 24 (.v4 0x0a000007) (.v4 0x0a000001) :=
    ((subnet_test_iff true 24).1 _ _).mpr (.inl (by decide))
  exact ⟨h24, (subnet_test_iff true 8).2.2 (by decide) 24 (by decide) _ _ h24⟩

/-- For the empty prefix the test panics, or tells two hosts apart. -/
theorem empty_prefix_fails :
    SameSubnet 0 (.v4 0x0a000002) (.v4 0x0a000001) ∧
    validateIpInSubnet true (.v4 0x0a000002) (.v4 0x0a000001) 0 = none ∧
    validateIpInSubnet false (.v4 0x0a000002) (.v4 0x0a000001) 0 = some false := by
  decide

end TapTunnel
