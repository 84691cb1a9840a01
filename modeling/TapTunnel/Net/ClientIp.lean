import TapTunnel.Framework.Text
import TapTunnel.Net.Subnet

namespace TapTunnel

open Framework

/-- The loop of `default_client_ip` over the octets of an IPv6 address, the last one first. -/
def incrementOctets : List Nat → List Nat
  | [] => []
  | b::bs => if 256 ≤ b+1 then (b+1)%256::incrementOctets bs else (b+1)::bs

/-- The address behind that of the TAP interface. The sum for IPv4 panics on overflow in a build
with overflow checks. -/
def defaultClientIp (overflowChecks : Bool) : IpAddr → Option IpAddr
  | .v4 a => if overflowChecks ∧ 2^32 ≤ a.toNat+1 then none else some (.v4 (a+1))
  | .v6 a => some (.v6 (.ofNat 128 (Nat.ofDigits 256 (incrementOctets (places 256 16 a.toNat)))))

/-- Only the last IPv4 address has no successor. -/
theorem defaultClientIp_isSome (overflowChecks : Bool) (ip : IpAddr) :
    (defaultClientIp overflowChecks ip).isSome = true ↔
      overflowChecks = false ∨ ip ≠ .v4 (BitVec.allOnes 32) := by
  cases ip with
  | v6 a => simp [defaultClientIp]
  | v4 a =>
    have hlast : 2^32 ≤ a.toNat+1 ↔ a = BitVec.allOnes 32 := by
      rw [← BitVec.toNat_inj, BitVec.toNat_allOnes]
      have := a.isLt
      omega
    simp only [defaultClientIp, hlast]
    split_ifs with h
    · simp [h.1, h.2]
    · simp only [Option.isSome_some, true_iff, ne_eq, IpAddr.v4.injEq]
      rcases Bool.eq_false_or_eq_true overflowChecks with ht | hf
      · exact .inr fun ha => h ⟨ht, ha⟩
      · exact .inl hf

example : defaultClientIp true (.v6 0xfd0000000000000000000000000000ff) =
    some (.v6 0xfd000000000000000000000000000100) := by decide

/-- The carry goes through all octets, and is lost only behind the first one. -/
theorem ofDigits_incrementOctets (ds : List Nat) (hds : ∀ d ∈ ds, d < 256) :
    Nat.ofDigits 256 (incrementOctets ds) = (Nat.ofDigits 256 ds + 1)%256^ds.length := by
  induction ds with
  | nil => simp [incrementOctets]
  | cons b bs ih =>
    have hb := hds b List.mem_cons_self
    have hbs : ∀ d ∈ bs, d < 256 := fun d hd => hds d (List.mem_cons_of_mem b hd)
    have hlt := Nat.ofDigits_lt_base_pow_length (by decide : 1 < 256) hbs
    rw [incrementOctets, Nat.ofDigits_cons, List.length_cons, pow_succ']
    split_ifs with hcarry
    · have hb255 : b = 255 := by omega
      have hsum : b + 256*Nat.ofDigits 256 bs + 1 = 256*(Nat.ofDigits 256 bs + 1) := by omega
      rw [Nat.ofDigits_cons, ih hbs, hsum, Nat.mul_mod_mul_left, hb255]
      norm_num
    · rw [Nat.ofDigits_cons, Nat.mod_eq_of_lt (by omega)]
      omega

theorem incrementOctets_toNat (a : BitVec 128) :
    (BitVec.ofNat 128 (Nat.ofDigits 256 (incrementOctets (places 256 16 a.toNat)))).toNat =
      (a.toNat+1)%2^128 := by
  have hlt : a.toNat < 256^16 := a.isLt
  rw [BitVec.toNat_ofNat, ofDigits_incrementOctets _ (places_lt (by decide) 16 a.toNat),
    places_length, ofDigits_places, Nat.mod_eq_of_lt hlt]
  omega

/-- `b` is the next address of the same family. -/
def IsSuccessor : IpAddr → IpAddr → Prop
  | .v4 a, .v4 b => b.toNat = a.toNat+1
  | .v6 a, .v6 b => b.toNat = a.toNat+1
  | _, _ => False

/-- The bits behind the prefix are all ones. -/
def LastOfSubnet (p : Nat) : IpAddr → Prop
  | .v4 a => 2^(32-p) ∣ a.toNat+1
  | .v6 a => 2^(128-p) ∣ a.toNat+1

instance (p : Nat) : (ip : IpAddr) → Decidable (LastOfSubnet p ip)
  | .v4 a => inferInstanceAs (Decidable (2^(32-p) ∣ a.toNat+1))
  | .v6 a => inferInstanceAs (Decidable (2^(128-p) ∣ a.toNat+1))

/-- What the client's address has to be: another address of the subnet, the one behind the
address of the TAP interface. -/
structure UsableNeighbour (overflowChecks : Bool) (tap : IpAddr) (p : Nat) (client : IpAddr) :
    Prop where
  computed : defaultClientIp overflowChecks tap = some client
  successor : IsSuccessor tap client
  other : client ≠ tap
  subnet : SameSubnet p tap client

theorem IsSuccessor.ne {a b : IpAddr} (h : IsSuccessor a b) : b ≠ a := by
  intro he
  subst he
  cases b with
  | v4 a => exact absurd h (by simp [IsSuccessor])
  | v6 a => exact absurd h (by simp [IsSuccessor])

/-- An increment that does not end a subnet does not wrap. -/
theorem toNat_succ_of_not_dvd {w p : Nat} {a b : BitVec w} (hb : b.toNat = (a.toNat+1)%2^w)
    (h : ¬2^(w-p) ∣ a.toNat+1) : b.toNat = a.toNat+1 := by
  have hlt : a.toNat+1 < 2^w := by
    have hle : a.toNat+1 ≤ 2^w := a.isLt
    have hne : a.toNat+1 ≠ 2^w := by
      intro he
      apply h
      rw [he]
      exact Nat.pow_dvd_pow 2 (Nat.sub_le w p)
    omega
  rw [hb, Nat.mod_eq_of_lt hlt]

theorem defaultClientIp_successor {p : Nat} {tap : IpAddr} (overflowChecks : Bool)
    (h : ¬LastOfSubnet p tap) :
    ∃ client, defaultClientIp overflowChecks tap = some client ∧ IsSuccessor tap client := by
  cases tap with
  | v4 a =>
    have hsucc : (a+1).toNat = a.toNat+1 := toNat_succ_of_not_dvd (BitVec.toNat_add a 1) h
    have hlt := (a+1).isLt
    exact ⟨.v4 (a+1), if_neg (by omega), hsucc⟩
  | v6 a => exact ⟨_, rfl, toNat_succ_of_not_dvd (incrementOctets_toNat a) h⟩

theorem sameSubnet_successor_iff {p : Nat} {tap client : IpAddr} (hp : p ≤ tap.width)
    (h : IsSuccessor tap client) : SameSubnet p tap client ↔ ¬LastOfSubnet p tap := by
  cases tap with
  | v4 a =>
    cases client with
    | v4 b =>
      rw [SameSubnet, prefixEq_min]
      exact prefixEq_succ_iff hp h
    | v6 b => exact h.elim
  | v6 a =>
    cases client with
    | v4 b => exact h.elim
    | v6 b =>
      rw [SameSubnet, prefixEq_min]
      exact prefixEq_succ_iff hp h

/-- The address behind that of the TAP interface is usable unless the subnet ends there. -/
theorem usableNeighbour_iff (overflowChecks : Bool) {tap : IpAddr} {p : Nat} (hp : p ≤ tap.width) :
    (∃ client, UsableNeighbour overflowChecks tap p client) ↔ ¬LastOfSubnet p tap := by
  constructor
  · intro ⟨client, h⟩
    exact (sameSubnet_successor_iff hp h.successor).mp h.subnet
  · intro h
    obtain ⟨client, hcomp, hsucc⟩ := defaultClientIp_successor overflowChecks h
    exact ⟨client, hcomp, hsucc, hsucc.ne, (sameSubnet_successor_iff hp hsucc).mpr h⟩

end TapTunnel
