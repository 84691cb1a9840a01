import TapTunnel.Net.Subnet
import TapTunnel.Net.Views
import TapTunnel.Stack.HandleSafety

namespace TapTunnel.Stack

open Framework Reference

variable {T U E : Type} {N : Smoltcp T U E} {cfg : StackConfig} {port : UInt16} {w w' : World T U}

/-- Every address of the interface passes the check of `update_ip_addrs`. -/
def AddrsChecked (N : Smoltcp T U E) (w : World T U) : Prop :=
  ∀ c ∈ w.ipAddrs, N.assignable c.address = true

theorem World.replaceListening_ipAddrs (key : SocketHandle) (addr : SocketAddr)
    (rest : List SocketHandle) : (w.replaceListening N key addr rest).ipAddrs = w.ipAddrs := by
  unfold replaceListening
  split <;> rfl

/-- Only `add_ip` and `remove_ip` touch the list, and what they install is checked. -/
theorem AddrsChecked.effect {c : Option StackCommand} (h : AddrsChecked N w)
    (he : Effect N c w w') : AddrsChecked N w' := by
  cases he with
  | reject m port ips rep hr hm hb hport hips =>
    rcases hips with rfl | hips
    · exact h
    · exact hips
  | accept l x rest s la pa hl hx hs he =>
    intro c hc
    change c ∈ (w.replaceListening N _ l.addr rest).ipAddrs at hc
    rw [World.replaceListening_ipAddrs] at hc
    exact h c hc
  | acceptPending r l x rest s la pa hp hl hx hs he =>
    intro c hc
    change c ∈ (w.replaceListening N _ l.addr rest).ipAddrs at hc
    rw [World.replaceListening_ipAddrs] at hc
    exact h c hc
  | _ => exact h

theorem AddrsChecked.transition {a : Action E} (h : AddrsChecked N w)
    (ht : Transition N a w w') : AddrsChecked N w' := by
  cases ht with
  | env he =>
    intro c hc
    rw [(World.envStep_frame he).ipAddrs] at hc
    exact h c hc
  | command cmd rest hph hq he =>
    have hpop : AddrsChecked N { w with
        commands := rest
        received := w.received ++ cmd.response.toList } := h
    have hend := hpop.effect he
    exact hend
  | pending order he =>
    have hend := Effect.path_rule (AddrsChecked N) h (fun _ _ hu he => hu.effect he) he
    exact hend
  | fail =>
    have hend := World.failOps_rule (AddrsChecked N) w.pending.entries h (fun _ _ _ _ hv => hv)
    exact hend
  | control | writeTcp | writeUdp | tcpEvent | udpEvent | readTcp | readUdp => exact h

theorem addrsChecked_init (N : Smoltcp T U E) (cfg : StackConfig) (port : UInt16) :
    AddrsChecked N (World.init N cfg port) := by
  have hblank : AddrsChecked N (World.blank (T := T) (U := U) port) := List.forall_mem_nil _
  unfold World.init
  rcases World.newCidr_cases (ipAddrToSmoltcp cfg.ip) cfg.prefixLen with hc | hc
  · rw [hc]
    simp only [bind, Except.bind]
    rcases (World.blank (T := T) (U := U) port).updateIpAddrs_cases (N := N)
      [⟨ipAddrToSmoltcp cfg.ip, cfg.prefixLen⟩] with ⟨hall, hu⟩ | hu
    · rw [hu]
      exact hall
    · rw [hu]
      exact hblank
  · rw [hc]
    exact hblank

theorem Reach.addrsChecked (hf : N.FreshHandles) (h : Reach N cfg port w) : AddrsChecked N w :=
  h.invariant_with _ (AddrsChecked N) Owned (fun _ hr => Reach.owned hf hr)
    (addrsChecked_init N cfg port)
    (fun _ _ _ ho hp _ hs => hp.transition (ho.step_transition hf hs))

theorem newCidr_eq (ip : IpAddr) (prefixLen : UInt8) :
    World.newCidr (ipAddrToSmoltcp ip) prefixLen =
      if prefixLen.toNat ≤ ip.width then .ok ⟨ipAddrToSmoltcp ip, prefixLen⟩
      else .error .cidrPrefixLen := by
  cases ip <;> rfl

/-- `update_ip_addrs` on a list of checked addresses with one more at its end. -/
theorem AddrsChecked.updateIpAddrs_push (h : AddrsChecked N w) (c : IpCidr) :
    w.updateIpAddrs N (w.ipAddrs ++ [c]) =
      if N.assignable c.address then .ok { w with ipAddrs := w.ipAddrs ++ [c] }
      else .error .addrNotAssignable := by
  have hall : w.ipAddrs.all (fun c => N.assignable c.address) = true := List.all_eq_true.mpr h
  unfold World.updateIpAddrs
  rw [List.all_append, hall, Bool.true_and, List.all_cons, List.all_nil, Bool.and_true]

theorem AddrsChecked.updateIpAddrs_same (h : AddrsChecked N w) :
    w.updateIpAddrs N w.ipAddrs = .ok w := by
  have hall : w.ipAddrs.all (fun c => N.assignable c.address) = true := List.all_eq_true.mpr h
  unfold World.updateIpAddrs
  rw [if_pos hall]

/-- `add_ip` on a list of checked addresses. -/
theorem AddrsChecked.handleAddIp_eq (h : AddrsChecked N w) (ip : IpAddr) (prefixLen : UInt8)
    (r : ReqId) :
    w.handleAddIp N ip prefixLen r =
      if prefixLen.toNat ≤ ip.width then
        if ⟨ipAddrToSmoltcp ip, prefixLen⟩ ∈ w.ipAddrs then .ok (w.answer r (.unit (.ok ())))
        else if w.ipAddrs.length < ifaceMaxAddrCount then
          if N.assignable (ipAddrToSmoltcp ip) then
            .ok (World.answer { w with
              ipAddrs := w.ipAddrs ++ [⟨ipAddrToSmoltcp ip, prefixLen⟩] } r (.unit (.ok ())))
          else .error .addrNotAssignable
        else .ok (w.answer r (.unit (.error ⟨.outOfMemory, "address list full"⟩)))
      else .error .cidrPrefixLen := by
  unfold World.handleAddIp
  rw [newCidr_eq]
  by_cases hp : prefixLen.toNat ≤ ip.width
  · rw [if_pos hp, if_pos hp]
    simp only [bind, Except.bind]
    by_cases hin : (⟨ipAddrToSmoltcp ip, prefixLen⟩ : IpCidr) ∈ w.ipAddrs
    · rw [if_pos hin, if_pos hin]
      rfl
    rw [if_neg hin, if_neg hin]
    by_cases hroom : w.ipAddrs.length < ifaceMaxAddrCount
    · rw [if_pos hroom, if_pos hroom, h.updateIpAddrs_push]
      split_ifs <;> rfl
    · rw [if_neg hroom, if_neg hroom, h.updateIpAddrs_same]
      rfl
  · rw [if_neg hp, if_neg hp]
    rfl

/-- `add_ip` answers where the prefix fits the family and the address may be assigned, or the
list is full and the address is not looked at. Otherwise it panics. -/
theorem AddrsChecked.handleAddIp_cases (h : AddrsChecked N w) (ip : IpAddr) (prefixLen : UInt8)
    (r : ReqId) :
    ((prefixLen.toNat ≤ ip.width ∧ (N.assignable (ipAddrToSmoltcp ip) = true ∨
          ifaceMaxAddrCount ≤ w.ipAddrs.length)) ∧
      ∃ ips res, w.handleAddIp N ip prefixLen r =
          .ok (World.answer { w with ipAddrs := ips } r (.unit res)) ∧
        ∀ e, res = .error e → ips = w.ipAddrs) ∨
    (¬(prefixLen.toNat ≤ ip.width ∧ (N.assignable (ipAddrToSmoltcp ip) = true ∨
          ifaceMaxAddrCount ≤ w.ipAddrs.length)) ∧
      ∃ p, w.handleAddIp N ip prefixLen r = .error p) := by
  rw [h.handleAddIp_eq]
  split_ifs with hp hin hroom ha
  · exact .inl ⟨⟨hp, .inl (h _ hin)⟩, w.ipAddrs, _, rfl, fun _ _ => rfl⟩
  · exact .inl ⟨⟨hp, .inl ha⟩, _, _, rfl, nofun⟩
  · refine .inr ⟨?_, _, rfl⟩
    rintro ⟨-, ha' | hfull⟩
    · exact ha ha'
    · omega
  · exact .inl ⟨⟨hp, .inr (by omega)⟩, w.ipAddrs, _, rfl, fun _ _ => rfl⟩
  · exact .inr ⟨fun hc => hp hc.1, _, rfl⟩

/-- The request was answered, the task goes on, and an error left the address list alone. -/
def AddIpAnswered (w w' : World T U) (r : ReqId) : Prop :=
  w'.phase = .startWrite ∧ ∃ res, w'.answers = w.answers ++ [(r, .unit res)] ∧
    ∀ e, res = .error e → w'.ipAddrs = w.ipAddrs

/-- The stack task survives an `AddIp` request exactly when the prefix is not longer than the
address, and the address is unicast or unspecified or the list is full. -/
theorem add_ip_answered_iff (N : Smoltcp T U E) (hf : N.FreshHandles) (ha : N.ChecksAddresses)
    (cfg : StackConfig) (port : UInt16) (w w' : World T U) (h : Reach N cfg port w) (ip : IpAddr)
    (prefixLen : UInt8) (r : ReqId) (rest : List StackCommand)
    (hq : w.commands.queue = .addIp ip prefixLen r::rest)
    (hs : World.step N cfg .command w = some w') :
    AddIpAnswered w w' r ↔ prefixLen.toNat ≤ ip.width ∧
      ((ipAddrToSmoltcp ip).isUnicast = true ∨ (ipAddrToSmoltcp ip).isUnspecified = true ∨
        ifaceMaxAddrCount ≤ w.ipAddrs.length) := by
  obtain ⟨hph, rfl⟩ := World.step_command hq hs
  let popped : World T U := { w with
    commands := { w.commands with queue := rest }
    received := w.received ++ [r] }
  have hchecked := Reach.addrsChecked hf h
  have hpop : AddrsChecked N popped := hchecked
  have hcond : (N.assignable (ipAddrToSmoltcp ip) = true ∨ ifaceMaxAddrCount ≤ w.ipAddrs.length) ↔
      ((ipAddrToSmoltcp ip).isUnicast = true ∨ (ipAddrToSmoltcp ip).isUnspecified = true ∨
        ifaceMaxAddrCount ≤ w.ipAddrs.length) := by
    rw [ha, Bool.or_eq_true, or_assoc]
  rw [← hcond]
  change AddIpAnswered w (w.continueAt .startWrite (popped.handleAddIp N ip prefixLen r)) r ↔ _
  rcases hpop.handleAddIp_cases ip prefixLen r with ⟨hc, ips, res, he, herr⟩ | ⟨hc, p, he⟩
  · rw [he]
    exact ⟨fun _ => hc, fun _ => ⟨rfl, res, rfl, herr⟩⟩
  · rw [he]
    refine ⟨fun hans => ?_, fun hc' => absurd hc' hc⟩
    cases hans.1

/-- The first request of an application, and the phase in which the task takes up after it. -/
theorem addIp_first (ip : IpAddr) (prefixLen : UInt8) (p : Phase)
    (hp : (runActions (World.step refNet hostCfg) [.issue (.addIp ip prefixLen 0)]
      (World.init refNet hostCfg 49152)).map (fun w =>
        decide (w.commands.queue = [.addIp ip prefixLen 0] ∧
          (World.step refNet hostCfg .command w).map (·.phase) = some p)) = some true) :
    ∃ w w', Reach refNet hostCfg 49152 w ∧ w.commands.queue = [.addIp ip prefixLen 0] ∧
      World.step refNet hostCfg .command w = some w' ∧ w'.phase = p := by
  obtain ⟨w, hr, -, hw⟩ := reachable_of_run (World.step refNet hostCfg) _
    (World.init refNet hostCfg 49152) _ hp
  obtain ⟨hq, hstep⟩ := of_decide_eq_true hw
  obtain ⟨w', hs, hph⟩ := Option.map_eq_some_iff.mp hstep
  exact ⟨w, w', hr, hq, hs, hph⟩

/-- 10.0.0.3/24 is added. -/
theorem add_ip_answered_iff_host : ∃ w w', Reach refNet hostCfg 49152 w ∧
    World.step refNet hostCfg .command w = some w' ∧ AddIpAnswered w w' 0 := by
  obtain ⟨w, w', hr, hq, hs, -⟩ := addIp_first (.v4 0x0a000003) 24 .startWrite (by decide +kernel)
  refine ⟨w, w', hr, hs, ?_⟩
  exact (add_ip_answered_iff refNet refNet_freshHandles refNet_checksAddresses hostCfg 49152 w w'
    hr _ _ _ _ hq hs).mpr ⟨by decide, .inl (by decide)⟩

/-- A prefix of 33 bits and the multicast address 224.0.0.1 each stop the stack task. -/
theorem add_ip_panics :
    (∃ w w', Reach refNet hostCfg 49152 w ∧ w.commands.queue = [.addIp (.v4 0x0a000003) 33 0] ∧
      World.step refNet hostCfg .command w = some w' ∧
      w'.phase = .panicked .cidrPrefixLen ∧ ¬AddIpAnswered w w' 0) ∧
    (∃ w w', Reach refNet hostCfg 49152 w ∧ w.commands.queue = [.addIp (.v4 0xe0000001) 24 0] ∧
      World.step refNet hostCfg .command w = some w' ∧
      w'.phase = .panicked .addrNotAssignable ∧ ¬AddIpAnswered w w' 0) := by
  constructor
  · obtain ⟨w, w', hr, hq, hs, hp⟩ := addIp_first (.v4 0x0a000003) 33
      (.panicked .cidrPrefixLen) (by decide +kernel)
    refine ⟨w, w', hr, hq, hs, hp, fun ha => ?_⟩
    cases hp.symm.trans ha.1
  · obtain ⟨w, w', hr, hq, hs, hp⟩ := addIp_first (.v4 0xe0000001) 24
      (.panicked .addrNotAssignable) (by decide +kernel)
    refine ⟨w, w', hr, hq, hs, hp, fun ha => ?_⟩
    cases hp.symm.trans ha.1

end TapTunnel.Stack
