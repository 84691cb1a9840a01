import TapTunnel.Framework.Replay
import TapTunnel.Stack.AddIp

namespace TapTunnel.Stack

open Framework Reference

variable {T U E : Type} {N : Smoltcp T U E} {cfg : StackConfig} {port : UInt16} {w w' : World T U}

/-- What `get_ips` answers for an entry of the interface's list. -/
def IpCidr.pair (c : IpCidr) : IpAddr × UInt8 := (smoltcpToIpAddr c.address, c.prefixLen)

theorem ipAddrToSmoltcp_inverse (a : IpAddress) : ipAddrToSmoltcp (smoltcpToIpAddr a) = a := by
  cases a <;> rfl

theorem smoltcpToIpAddr_inverse (ip : IpAddr) : smoltcpToIpAddr (ipAddrToSmoltcp ip) = ip := by
  cases ip <;> rfl

theorem IpCidr.pair_mk (ip : IpAddr) (p : UInt8) :
    IpCidr.pair ⟨ipAddrToSmoltcp ip, p⟩ = (ip, p) := by
  rw [pair, smoltcpToIpAddr_inverse]

theorem IpCidr.pair_injective : Function.Injective IpCidr.pair := by
  rintro ⟨a, p⟩ ⟨b, q⟩ h
  obtain ⟨hip, rfl⟩ := Prod.mk.inj h
  rw [← ipAddrToSmoltcp_inverse a, ← ipAddrToSmoltcp_inverse b, hip]

/-- The list `get_ips` answers. -/
def World.ips (w : World T U) : List (IpAddr × UInt8) := w.ipAddrs.map IpCidr.pair

theorem World.mem_ips (ip : IpAddr) (p : UInt8) :
    (ip, p) ∈ w.ips ↔ ⟨ipAddrToSmoltcp ip, p⟩ ∈ w.ipAddrs := by
  rw [ips, ← IpCidr.pair_mk ip p]
  exact List.mem_map_of_injective IpCidr.pair_injective

/-- `remove_ip` compares the addresses of the wire layer. -/
theorem map_pair_filter (l : List IpCidr) (ip : IpAddr) :
    (l.filter (fun c => c.address != ipAddrToSmoltcp ip)).map IpCidr.pair =
      (l.map IpCidr.pair).filter (fun e => e.1 ≠ ip) := by
  rw [List.filter_map]
  congr 1
  apply List.filter_congr
  intro c _
  have hiff : c.address = ipAddrToSmoltcp ip ↔ smoltcpToIpAddr c.address = ip := by
    constructor
    · intro h
      rw [h, smoltcpToIpAddr_inverse]
    · intro h
      rw [← h, ipAddrToSmoltcp_inverse]
  change (!(c.address == ipAddrToSmoltcp ip)) = decide (¬smoltcpToIpAddr c.address = ip)
  rw [beq_eq_decide, decide_not, decide_eq_decide.mpr hiff]

theorem World.updateIpAddrs_ok {l : List IpCidr} (h : ∀ c ∈ l, N.assignable c.address = true) :
    w.updateIpAddrs N l = .ok { w with ipAddrs := l } :=
  if_pos (List.all_eq_true.mpr h)

theorem AddrsChecked.handleRemoveIp_eq (h : AddrsChecked N w) (ip : IpAddr) (r : ReqId) :
    w.handleRemoveIp N ip r = .ok (World.answer { w with
      ipAddrs := w.ipAddrs.filter (fun c => c.address != ipAddrToSmoltcp ip) } r
        (.unit (.ok ()))) := by
  unfold World.handleRemoveIp
  dsimp only
  rw [World.updateIpAddrs_ok fun c hc => h c (List.mem_of_mem_filter hc)]
  rfl

/-- The command is for the list of addresses. -/
def StackCommand.setsIps : StackCommand → Bool
  | .addIp .. | .removeIp .. => true
  | _ => false

/-- All other commands leave the list alone. -/
theorem Owned.handleCommand_ipAddrs (hf : N.FreshHandles) (h : Owned w) (cfg : StackConfig)
    {cmd : StackCommand} (hc : CommandAllowed w.answers cmd) (hcmd : cmd.setsIps = false) :
    ∃ w', World.handleCommand N cfg cmd w = .ok w' ∧ w'.ipAddrs = w.ipAddrs := by
  cases cmd with
  | tcpConnect ip addr r =>
    rcases World.handleTcpConnect_cases (N := N) (w := w) cfg ip addr r with
      ⟨e, he⟩ | ⟨s, la, remote, a, hs, he⟩ <;> exact ⟨_, he, rfl⟩
  | tcpListen addr backlog r =>
    rcases World.handleTcpListen_cases (w := w) hf addr backlog r with
      ⟨m, e, -, hm, he⟩ | ⟨m, hs, primary, -, -, -, -, -, -, -, -, he⟩ <;> exact ⟨_, he, rfl⟩
  | tcpAccept key r =>
    cases hl : w.listeners.lookup key with
    | none => exact ⟨_, World.handleTcpAccept_none hl, rfl⟩
    | some l =>
      rcases World.handleTcpAccept_cases (N := N) hl (h.live.listening key l hl) r with
        ⟨he, -⟩ | ⟨x, rest, s, la, pa, hx, hs, hst, he⟩
      · exact ⟨_, he, rfl⟩
      · exact ⟨_, he, World.replaceListening_ipAddrs key l.addr rest⟩
  | tcpListenerClose key =>
    cases hl : w.listeners.lookup key with
    | none => exact ⟨_, World.handleTcpListenerClose_none hl, rfl⟩
    | some l =>
      obtain ⟨m, he, -⟩ := World.handleTcpListenerClose_some (N := N) hl
        (h.live.listening key l hl) (h.apart.nodup key l hl)
      exact ⟨_, he, rfl⟩
  | tcpClose k =>
    obtain ⟨s, hs⟩ := h.live.stream k hc
    exact ⟨_, World.handleTcpClose_eq hs, rfl⟩
  | udpBind addr r =>
    rcases World.handleUdpBind_cases (N := N) (w := w) addr r with
      ⟨e, -, he⟩ | ⟨s, bound, hs, he⟩ <;> exact ⟨_, he, rfl⟩
  | udpClose k =>
    obtain ⟨s, hs⟩ := h.live.gaveUdp k hc
    exact ⟨_, World.handleUdpClose_eq hs, rfl⟩
  | getIps r => exact ⟨_, rfl, rfl⟩
  | addIp | removeIp => cases hcmd

theorem Effect.ipAddrs (he : Effect N none w w') : w'.ipAddrs = w.ipAddrs := by
  cases he with
  | connected | connectDead => rfl
  | acceptPending r l x rest s la pa hp hl hx hs he => exact World.replaceListening_ipAddrs _ _ _

/-- Only commands change the list. -/
theorem Transition.ipAddrs {a : Action E} (ha : a ≠ .command) (ht : Transition N a w w') :
    w'.ipAddrs = w.ipAddrs := by
  cases ht with
  | env he => exact (World.envStep_frame he).ipAddrs
  | command => exact absurd rfl ha
  | pending order he =>
    have hend := Effect.path_rule (fun v => v.ipAddrs = w.ipAddrs) rfl
      (fun _ _ hu he => he.ipAddrs.trans hu) he
    exact hend
  | fail =>
    have hend := World.failOps_rule (fun v => v.ipAddrs = w.ipAddrs) w.pending.entries rfl
      (fun _ _ _ _ hv => hv)
    exact hend
  | control | writeTcp | writeUdp | tcpEvent | udpEvent | readTcp | readUdp => rfl

/-- The step answers the request, and no other. -/
def StepAnswers (w w' : World T U) (r : ReqId) (rep : Reply) : Prop :=
  w'.answers = w.answers ++ [(r, rep)]

/-- Taking an `AddIp` request: it succeeds, it finds the list full, or the task panics. -/
theorem step_addIp_cases (h : AddrsChecked N w) {ip : IpAddr} {p : UInt8} {r : ReqId}
    {rest : List StackCommand} (hq : w.commands.queue = .addIp ip p r::rest)
    (hs : World.step N cfg .command w = some w') :
    (StepAnswers w w' r (.unit (.ok ())) ∧ ((ip, p) ∈ w.ips ∧ w'.ips = w.ips ∨
      (ip, p) ∉ w.ips ∧ w.ips.length < ifaceMaxAddrCount ∧ w'.ips = w.ips ++ [(ip, p)])) ∨
    ((∃ e, StepAnswers w w' r (.unit (.error e))) ∧ (ip, p) ∉ w.ips ∧
      ifaceMaxAddrCount ≤ w.ips.length ∧ w'.ips = w.ips) ∨
    (¬(p.toNat ≤ ip.width ∧ N.assignable (ipAddrToSmoltcp ip) = true) ∧
      w'.answers = w.answers ∧ w'.ips = w.ips) := by
  obtain ⟨-, rfl⟩ := World.step_command hq hs
  have hpop : AddrsChecked N { w with
      commands := { w.commands with queue := rest }
      received := w.received ++ (StackCommand.addIp ip p r).response.toList } := h
  rw [World.handleCommand, hpop.handleAddIp_eq]
  have hlen : w.ips.length = w.ipAddrs.length := List.length_map _
  rw [World.mem_ips, hlen]
  split_ifs with hp hin hroom ha
  · exact .inl ⟨rfl, .inl ⟨hin, rfl⟩⟩
  · refine .inl ⟨rfl, .inr ⟨hin, hroom, ?_⟩⟩
    change (w.ipAddrs ++ [_]).map IpCidr.pair = w.ipAddrs.map IpCidr.pair ++ [(ip, p)]
    rw [List.map_append, List.map_singleton, IpCidr.pair_mk]
  · exact .inr (.inr ⟨fun hok => ha hok.2, rfl, rfl⟩)
  · exact .inr (.inl ⟨⟨_, rfl⟩, hin, Nat.le_of_not_lt hroom, rfl⟩)
  · exact .inr (.inr ⟨fun hok => hp hok.1, rfl, rfl⟩)

theorem step_removeIp (h : AddrsChecked N w) {ip : IpAddr} {r : ReqId} {rest : List StackCommand}
    (hq : w.commands.queue = .removeIp ip r::rest)
    (hs : World.step N cfg .command w = some w') :
    StepAnswers w w' r (.unit (.ok ())) ∧ w'.ips = w.ips.filter (fun e => e.1 ≠ ip) := by
  obtain ⟨-, rfl⟩ := World.step_command hq hs
  have hpop : AddrsChecked N { w with
      commands := { w.commands with queue := rest }
      received := w.received ++ (StackCommand.removeIp ip r).response.toList } := h
  rw [World.handleCommand, hpop.handleRemoveIp_eq]
  exact ⟨rfl, map_pair_filter w.ipAddrs ip⟩

theorem step_getIps {r : ReqId} {rest : List StackCommand}
    (hq : w.commands.queue = .getIps r::rest) (hs : World.step N cfg .command w = some w') :
    StepAnswers w w' r (.ips w.ips) ∧ w'.ips = w.ips := by
  obtain ⟨-, rfl⟩ := World.step_command hq hs
  exact ⟨rfl, rfl⟩

/-- What a step tells about the list: an address that was added with success, or one that was
removed. -/
def addrEvent (w : World T U) (a : Action E) (w' : World T U) :
    Option (SetEvent (IpAddr × UInt8) IpAddr) :=
  match a, w.commands.queue, w'.answers.drop w.answers.length with
  | .command, .addIp ip prefixLen _::_, [(_, .unit (.ok _))] => some (.added (ip, prefixLen))
  | .command, .removeIp ip _::_, [(_, .unit (.ok _))] => some (.removed ip)
  | _, _, _ => none

/-- The list after a step, from what the step tells about it. -/
def ListFollows (w : World T U) (a : Action E) (w' : World T U) : Prop :=
  w'.ips = replay Prod.fst (addrEvent w a w').toList w.ips ∧
    (w.ips.length ≤ ifaceMaxAddrCount → w'.ips.length ≤ ifaceMaxAddrCount)

theorem listFollows_of_same {a : Action E} (hev : addrEvent w a w' = none) (h : w'.ips = w.ips) :
    ListFollows w a w' := by
  unfold ListFollows
  rw [hev, h]
  exact ⟨rfl, id⟩

theorem addIp_follows (h : AddrsChecked N w) {ip : IpAddr} {p : UInt8} {r : ReqId}
    {rest : List StackCommand} (hq : w.commands.queue = .addIp ip p r::rest)
    (hs : World.step N cfg .command w = some w') : ListFollows w (.command : Action E) w' := by
  rcases step_addIp_cases h hq hs with ⟨ha, hlist⟩ | ⟨⟨e, ha⟩, -, -, hsame⟩ | ⟨-, ha, hsame⟩
  · have hev : addrEvent w (.command : Action E) w' = some (.added (ip, p)) := by
      simp [addrEvent, hq, show w'.answers = _ from ha]
    unfold ListFollows
    rw [hev, Option.toList_some, replay_cons, replay_nil, SetEvent.apply_added]
    rcases hlist with ⟨hin, hsame⟩ | ⟨hin, hroom, hnew⟩
    · rw [if_pos hin, hsame]
      exact ⟨rfl, id⟩
    · rw [if_neg hin, hnew, List.length_append, List.length_singleton]
      exact ⟨rfl, fun _ => hroom⟩
  · refine listFollows_of_same ?_ hsame
    simp [addrEvent, hq, show w'.answers = _ from ha]
  · refine listFollows_of_same ?_ hsame
    simp [addrEvent, hq, ha]

theorem removeIp_follows (h : AddrsChecked N w) {ip : IpAddr} {r : ReqId}
    {rest : List StackCommand} (hq : w.commands.queue = .removeIp ip r::rest)
    (hs : World.step N cfg .command w = some w') : ListFollows w (.command : Action E) w' := by
  obtain ⟨ha, hlist⟩ := step_removeIp h hq hs
  have hev : addrEvent w (.command : Action E) w' = some (.removed ip) := by
    simp [addrEvent, hq, show w'.answers = _ from ha]
  unfold ListFollows
  rw [hev, hlist]
  exact ⟨rfl, fun hlen => (List.length_filter_le _ _).trans hlen⟩

/-- Step lemma. -/
theorem step_follows (hf : N.FreshHandles) (ho : Owned w) (h : AddrsChecked N w) {a : Action E}
    (hs : World.step N cfg a w = some w') : ListFollows w a w' := by
  by_cases ha : a = .command
  · subst ha
    cases hq : w.commands.queue with
    | nil =>
      cases ho.step_transition hf hs with
      | env he => cases he
      | control => exact listFollows_of_same (by simp [addrEvent, hq]) rfl
      | command cmd rest hph hq' => cases hq.symm.trans hq'
    | cons cmd rest =>
      cases hset : cmd.setsIps with
      | true =>
        cases cmd with
        | addIp ip p r => exact addIp_follows h hq hs
        | removeIp ip r => exact removeIp_follows h hq hs
        | _ => cases hset
      | false =>
        have hpop : Owned { w with
            commands := { w.commands with queue := rest }
            received := w.received ++ cmd.response.toList } := ho.popCommand hq _
        have hallowed := ho.queue cmd (by rw [hq]; exact .head _)
        obtain ⟨w1, he, hips⟩ := hpop.handleCommand_ipAddrs hf cfg hallowed hset
        obtain ⟨-, rfl⟩ := World.step_command hq hs
        rw [he]
        refine listFollows_of_same ?_ (congrArg (List.map IpCidr.pair) hips)
        cases cmd with
        | addIp | removeIp => cases hset
        | _ => simp [addrEvent, hq]
  · refine listFollows_of_same ?_ ?_
    · unfold addrEvent
      split
      all_goals first | rfl | exact absurd rfl ha
    · exact congrArg (List.map IpCidr.pair) ((ho.step_transition hf hs).ipAddrs ha)

/-- Run lemma: the list is what the additions and removals of the run make of it. -/
theorem run_ips (hf : N.FreshHandles) (as : List (Action E)) (h : Reach N cfg port w)
    (hrun : runActions (World.step N cfg) as w = some w') :
    w'.ips = replay Prod.fst (runLog (World.step N cfg) addrEvent as w) w.ips :=
  runLog_foldl (World.step N cfg) World.ips
    (fun _ _ _ hr hs => (step_follows hf (Reach.owned hf hr) (Reach.addrsChecked hf hr) hs).1)
    as h hrun

/-- The configured address is of the kind an interface can have. -/
def StackConfig.Unicast (cfg : StackConfig) : Prop :=
  cfg.prefixLen.toNat ≤ cfg.ip.width ∧ (ipAddrToSmoltcp cfg.ip).isUnicast = true

theorem init_ips (ha : N.ChecksAddresses) (hcfg : cfg.Unicast) (port : UInt16) :
    (World.init N cfg port).ips = [(cfg.ip, cfg.prefixLen)] := by
  have hassign : ∀ c ∈ [(⟨ipAddrToSmoltcp cfg.ip, cfg.prefixLen⟩ : IpCidr)],
      N.assignable c.address = true := by
    intro c hc
    rw [List.mem_singleton.mp hc, ha, hcfg.2, Bool.true_or]
  unfold World.init
  rw [newCidr_eq, if_pos hcfg.1]
  simp only [bind, Except.bind]
  rw [World.updateIpAddrs_ok hassign]
  exact congrArg (· :: []) (IpCidr.pair_mk cfg.ip cfg.prefixLen)

theorem Reach.ips_length (hf : N.FreshHandles) (ha : N.ChecksAddresses) (hcfg : cfg.Unicast)
    (h : Reach N cfg port w) : w.ips.length ≤ ifaceMaxAddrCount := by
  refine h.invariant_with _ (fun w => w.ips.length ≤ ifaceMaxAddrCount)
    (fun w => Owned w ∧ AddrsChecked N w)
    (fun _ hr => ⟨Reach.owned hf hr, Reach.addrsChecked hf hr⟩) ?_
    (fun _ _ _ ho hp _ hs => (step_follows hf ho.1 ho.2 hs).2 hp)
  rw [init_ips ha hcfg]
  exact (by decide : 1 ≤ ifaceMaxAddrCount)

/-- What the requests about the list do, from the list before them. -/
structure IpRequests (w w' : World T U) : Prop where
  getIps : ∀ r rest, w.commands.queue = .getIps r::rest →
    StepAnswers w w' r (.ips w.ips) ∧ w'.ips = w.ips
  removeIp : ∀ ip r rest, w.commands.queue = .removeIp ip r::rest →
    StepAnswers w w' r (.unit (.ok ())) ∧ w'.ips = w.ips.filter (fun e => e.1 ≠ ip)
  addIp : ∀ ip p r rest, w.commands.queue = .addIp ip p r::rest → p.toNat ≤ ip.width →
    (ipAddrToSmoltcp ip).isUnicast = true →
    ((ip, p) ∈ w.ips → StepAnswers w w' r (.unit (.ok ())) ∧ w'.ips = w.ips) ∧
    ((ip, p) ∉ w.ips → w.ips.length ≠ ifaceMaxAddrCount →
      StepAnswers w w' r (.unit (.ok ())) ∧ w'.ips = w.ips ++ [(ip, p)]) ∧
    ((ip, p) ∉ w.ips → w.ips.length = ifaceMaxAddrCount →
      (∃ e, StepAnswers w w' r (.unit (.error e))) ∧ w'.ips = w.ips)

theorem ipRequests (ha : N.ChecksAddresses) (h : AddrsChecked N w)
    (hlen : w.ips.length ≤ ifaceMaxAddrCount) (hs : World.step N cfg .command w = some w') :
    IpRequests w w' where
  getIps _ _ hq := step_getIps hq hs
  removeIp _ _ _ hq := step_removeIp h hq hs
  addIp ip p r rest hq hp hu := by
    have hassign : N.assignable (ipAddrToSmoltcp ip) = true := by rw [ha, hu, Bool.true_or]
    rcases step_addIp_cases h hq hs with
      ⟨hok, ⟨hin, hsame⟩ | ⟨hin, hroom, hnew⟩⟩ | ⟨herr, hin, hfull, hsame⟩ | ⟨hbad, -⟩
    · exact ⟨fun _ => ⟨hok, hsame⟩, fun hno => absurd hin hno, fun hno => absurd hin hno⟩
    · exact ⟨fun hin' => absurd hin' hin, fun _ _ => ⟨hok, hnew⟩, fun _ hfull => by omega⟩
    · exact ⟨fun hin' => absurd hin' hin, fun _ hroom => by omega, fun _ _ => ⟨herr, hsame⟩⟩
    · exact absurd ⟨hp, hassign⟩ hbad

/-- The list of addresses is a bounded set. It has at most eight entries, all different, and an
entry is there exactly when it was configured or added with success and its address has not been
removed since. Entries that are not removed keep their order, before those that are added. -/
theorem address_list_bounded_set (N : Smoltcp T U E) (hf : N.FreshHandles)
    (ha : N.ChecksAddresses) (cfg : StackConfig) (hcfg : cfg.Unicast) (port : UInt16)
    (as : List (Action E)) (w : World T U)
    (h : runActions (World.step N cfg) as (World.init N cfg port) = some w) :
    (w.ips.length ≤ 8 ∧ w.ips.Nodup ∧ ∀ e, e ∈ w.ips ↔ Survives Prod.fst
      (.added (cfg.ip, cfg.prefixLen)::
        runLog (World.step N cfg) addrEvent as (World.init N cfg port)) e) ∧
    (∀ w', World.step N cfg .command w = some w' → IpRequests w w') ∧
    (∀ bs w', runActions (World.step N cfg) bs w = some w' → ∃ new, w'.ips = w.ips.filter
      (fun e => .removed e.1 ∉ runLog (World.step N cfg) addrEvent bs w) ++ new) := by
  have hr : Reach N cfg port w := Reachable.run _ .start h
  have hlen := Reach.ips_length hf ha hcfg hr
  have hips : w.ips = replay Prod.fst (.added (cfg.ip, cfg.prefixLen)::
      runLog (World.step N cfg) addrEvent as (World.init N cfg port)) [] := by
    rw [run_ips hf as .start h, init_ips ha hcfg]
    rfl
  refine ⟨⟨hlen, ?_, fun e => ?_⟩, ?_, ?_⟩
  · rw [hips]
    exact replay_nodup _ _ List.nodup_nil
  · rw [hips, mem_replay]
    simp
  · intro w' hs
    exact ipRequests ha (Reach.addrsChecked hf hr) hlen hs
  · intro bs w' hrun
    rw [run_ips hf bs hr hrun]
    exact replay_order Prod.fst _ w.ips

/-- 10.0.0.3/24 is added to the host's address. -/
theorem address_list_bounded_set_host :
    ∃ w, runActions (World.step refNet hostCfg) [.issue (.addIp (.v4 0x0a000003) 24 0), .command]
        (World.init refNet hostCfg 49152) = some w ∧
      w.ips = [(.v4 0x0a000002, 24), (.v4 0x0a000003, 24)] ∧
      Survives Prod.fst (.added (.v4 0x0a000002, 24)::
        runLog (World.step refNet hostCfg) addrEvent
          [.issue (.addIp (.v4 0x0a000003) 24 0), .command] (World.init refNet hostCfg 49152))
        (.v4 0x0a000003, 24) := by
  obtain ⟨w, -, hrun, hips⟩ := reachable_of_run (World.step refNet hostCfg)
    [.issue (.addIp (.v4 0x0a000003) 24 0), .command] (World.init refNet hostCfg 49152)
    (fun w => decide (w.ips = [(.v4 0x0a000002, 24), (.v4 0x0a000003, 24)])) (by decide +kernel)
  have hips := of_decide_eq_true hips
  refine ⟨w, hrun, hips, ?_⟩
  refine ((address_list_bounded_set refNet refNet_freshHandles refNet_checksAddresses hostCfg
    ⟨by decide, by decide⟩ 49152 _ w hrun).1.2.2 _).mp ?_
  rw [hips]
  decide

end TapTunnel.Stack
