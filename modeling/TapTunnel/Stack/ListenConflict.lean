import TapTunnel.Stack.HandleSafety

namespace TapTunnel.Stack

open Framework Reference

variable {T U E : Type} {N : Smoltcp T U E} {cfg : StackConfig} {port : UInt16} {w w' : World T U}

/-- One socket cannot be told from the other: the ports are equal, and so are the addresses unless
one of them stands for all. -/
def Overlaps (a b : SocketAddr) : Prop :=
  a.port = b.port ∧ (a.ip = b.ip ∨ a.ip.isUnspecified = true ∨ b.ip.isUnspecified = true)

instance (a b : SocketAddr) : Decidable (Overlaps a b) :=
  inferInstanceAs (Decidable (a.port = b.port ∧
    (a.ip = b.ip ∨ a.ip.isUnspecified = true ∨ b.ip.isUnspecified = true)))

section Tables

variable {m m' : HandleMap ListenerState}

/-- The listeners of `m'` are listeners of `m`, under the same keys and on the same addresses. -/
def ListenersFrom (m m' : HandleMap ListenerState) : Prop :=
  ∀ k l', m'.lookup k = some l' → ∃ l, m.lookup k = some l ∧ l.addr = l'.addr

theorem ListenersFrom.refl (m : HandleMap ListenerState) : ListenersFrom m m :=
  fun _ l hl => ⟨l, hl, rfl⟩

theorem ListenersFrom.trans {m1 : HandleMap ListenerState} (h : ListenersFrom m m1)
    (h' : ListenersFrom m1 m') : ListenersFrom m m' := by
  intro k l hl
  obtain ⟨l1, hl1, ha1⟩ := h' k l hl
  obtain ⟨l2, hl2, ha2⟩ := h k l1 hl1
  exact ⟨l2, hl2, ha2.trans ha1⟩

theorem ListenersFrom.erase (m : HandleMap ListenerState) (k : SocketHandle) :
    ListenersFrom m (m.erase k) :=
  fun _ l hl => ⟨l, (Table.erase_cases hl).2, rfl⟩

theorem ListenersFrom.insert {k : SocketHandle} {l : ListenerState} (hl : m.lookup k = some l)
    (hs : List SocketHandle) : ListenersFrom m (m.insert k ⟨l.addr, hs⟩) := by
  intro k' l' hl'
  rcases Table.insert_cases hl' with ⟨rfl, rfl⟩ | ⟨-, hl'⟩
  · exact ⟨l, hl, rfl⟩
  · exact ⟨l', hl', rfl⟩

/-- No two listeners have the same port. -/
def DistinctPorts (m : HandleMap ListenerState) : Prop :=
  ∀ k k' l l', m.lookup k = some l → m.lookup k' = some l' → l.addr.port = l'.addr.port → k = k'

theorem DistinctPorts.of_from (h : DistinctPorts m) (hfrom : ListenersFrom m m') :
    DistinctPorts m' := by
  intro k k' l l' hl hl' hp
  obtain ⟨l1, hl1, ha1⟩ := hfrom k l hl
  obtain ⟨l2, hl2, ha2⟩ := hfrom k' l' hl'
  exact h k k' l1 l2 hl1 hl2 (by rw [ha1, ha2, hp])

theorem DistinctPorts.insert (h : DistinctPorts m) {addr : SocketAddr}
    (hfree : ∀ k l, m.lookup k = some l → l.addr.port ≠ addr.port) (k : SocketHandle)
    (hs : List SocketHandle) : DistinctPorts (m.insert k ⟨addr, hs⟩) := by
  intro k1 k2 l1 l2 h1 h2 hp
  rcases Table.insert_cases h1 with ⟨rfl, rfl⟩ | ⟨-, h1⟩ <;>
    rcases Table.insert_cases h2 with ⟨he2, rfl⟩ | ⟨-, h2⟩
  · exact he2.symm
  · exact absurd hp.symm (hfree k2 l2 h2)
  · exact absurd hp (hfree k1 l1 h1)
  · exact h k1 k2 l1 l2 h1 h2 hp

end Tables

theorem replaceListening_from {key : SocketHandle} {l : ListenerState}
    (hl : w.listeners.lookup key = some l) (rest : List SocketHandle) :
    ListenersFrom w.listeners (w.replaceListening N key l.addr rest).listeners := by
  unfold World.replaceListening
  split
  · exact .insert hl _
  · exact .insert hl _

/-- Only `tcp_listen` makes a listener. -/
theorem Effect.listenersFrom {c : Option StackCommand} (he : Effect N c w w')
    (hc : ∀ addr b r, c ≠ some (.tcpListen addr b r)) :
    ListenersFrom w.listeners w'.listeners := by
  cases he with
  | listen => exact absurd rfl (hc _ _ _)
  | accept l x rest s la pa hl => exact replaceListening_from hl rest
  | acceptPending r l x rest s la pa hp hl => exact replaceListening_from hl rest
  | listenerClose l m hl => exact .erase _ _
  | reject | connect | wait | listenerGone | tcpClose | udpBind | udpClose | connected
  | connectDead => exact .refl _

/-- `tcp_listen` looks at the ports of all listeners before it makes one. -/
theorem handleTcpListen_distinctPorts (hf : N.FreshHandles) (h : DistinctPorts w.listeners)
    (addr : SocketAddr) (backlog : Nat) (r : ReqId) (v : World T U) :
    DistinctPorts (v.continueAt .startWrite (w.handleTcpListen N addr backlog r)).listeners := by
  rcases World.handleTcpListen_cases (N := N) (w := w) hf addr backlog r with
    ⟨m, e, -, -, hr⟩ | ⟨m, hs, primary, -, -, -, -, hfree, -, -, -, hr⟩
  · rw [hr]
    exact h
  · rw [hr]
    exact h.insert (fun k l hl hp => hfree ⟨k, l, hl, hp⟩) primary hs

/-- Step lemma. -/
theorem DistinctPorts.step (hf : N.FreshHandles) (ho : Owned w) (h : DistinctPorts w.listeners)
    {a : Action E} (hs : World.step N cfg a w = some w') : DistinctPorts w'.listeners := by
  cases ho.step_transition hf hs with
  | env he =>
    rw [(World.envStep_frame he).listeners]
    exact h
  | command cmd rest hph hq he =>
    cases hcmd : cmd with
    | tcpListen addr backlog r =>
      subst hcmd
      rw [(World.step_command hq hs).2]
      exact handleTcpListen_distinctPorts hf (by exact h) addr backlog r w
    | _ =>
      refine h.of_from (he.listenersFrom ?_)
      intro addr b r hc
      rw [hcmd] at hc
      cases hc
  | pending order he =>
    have hfrom := Effect.path_rule (fun v => ListenersFrom w.listeners v.listeners) (.refl _)
      (fun _ _ hu he => hu.trans (he.listenersFrom fun _ _ _ => nofun)) he
    exact h.of_from hfrom
  | fail =>
    have hsame := World.failOps_rule (fun v => v.listeners = w.listeners) w.pending.entries rfl
      (fun _ _ _ _ hv => hv)
    exact hsame ▸ h
  | control | writeTcp | writeUdp | tcpEvent | udpEvent | readTcp | readUdp => exact h

theorem Reach.distinctPorts (hf : N.FreshHandles) (h : Reach N cfg port w) :
    DistinctPorts w.listeners := by
  refine h.invariant_with _ (fun w => DistinctPorts w.listeners) Owned
    (fun _ hr => Reach.owned hf hr) ?_ (fun _ _ _ ho hp _ hs => hp.step hf ho hs)
  obtain ⟨ips, p, he, -⟩ := init_cases N cfg port
  rw [he]
  intro k k' l l' hl
  cases hl

/-- The request is answered with `AddrInUse`, and no socket and no listener has changed. -/
def ListenRefused (w w' : World T U) (r : ReqId) : Prop :=
  (∃ text, w'.answers = w.answers ++ [(r, .listen (.error ⟨.addrInUse, text⟩))]) ∧
    w'.sockets = w.sockets ∧ w'.listeners = w.listeners

/-- A listener on the address is created, with new sockets in `Listen` only. -/
def ListenCreated (N : Smoltcp T U E) (w w' : World T U) (addr : SocketAddr) (r : ReqId) : Prop :=
  ∃ k hs, w'.answers = w.answers ++ [(r, .listen (.ok (k, addr)))] ∧
    w'.listeners = w.listeners.insert k ⟨addr, hs⟩ ∧ w.listeners.lookup k = none ∧ hs ≠ [] ∧
    (∀ x ∈ hs, w.sockets.lookup x = none ∧
      ∃ s, w'.sockets.lookup x = some (.tcp s) ∧ N.tcpState s = .listen) ∧
    ∀ x, x ∉ hs → w'.sockets.lookup x = w.sockets.lookup x

/-- Some listener overlaps the address. -/
def InConflict (w : World T U) (addr : SocketAddr) : Prop :=
  ∃ k l, w.listeners.lookup k = some l ∧ Overlaps l.addr addr

/-- The request is decided by overlap: refused on a conflict, and otherwise granted. -/
def DecidedByOverlap (N : Smoltcp T U E) (w w' : World T U) (addr : SocketAddr)
    (r : ReqId) : Prop :=
  (InConflict w addr → ListenRefused w w' r) ∧ (¬InConflict w addr → ListenCreated N w w' addr r)

theorem ListenRefused.not_created {addr : SocketAddr} {r : ReqId} (h : ListenRefused w w' r) :
    ¬ListenCreated N w w' addr r := by
  rintro ⟨k, hs, hc, -⟩
  obtain ⟨⟨text, he⟩, -⟩ := h
  rw [he] at hc
  simp at hc

theorem continueAt_created (hf : N.FreshHandles) (hM : N.TcpMachine) (ho : Owned w)
    {addr : SocketAddr} (hp : addr.port ≠ 0) (hfree : ¬w.PortTaken addr.port) (backlog : Nat)
    (r : ReqId) (v : World T U) :
    ListenCreated N w (v.continueAt .startWrite (w.handleTcpListen N addr backlog r)) addr r := by
  obtain ⟨s, hs, hst, -⟩ := hM.listen_ok (socketAddrToListenEndpoint addr) hp
  rcases World.handleTcpListen_cases (N := N) (w := w) hf addr backlog r with
    ⟨m, e, hwhy, -, -⟩ | ⟨m, hs', primary, hhead, -, -, -, -, hold, hnew, hrest, hr⟩
  · rcases hwhy with h0 | ht | ⟨text, herr⟩
    · exact absurd h0 hp
    · exact absurd ht hfree
    · rw [hs] at herr
      cases herr
  · rw [hr]
    have hmem : primary ∈ hs' := List.mem_of_mem_head? hhead
    refine ⟨primary, hs', rfl, rfl, (ho.unused (hold primary hmem)).2.1, List.ne_nil_of_mem hmem,
      ?_, hrest⟩
    intro x hx
    obtain ⟨s', hs'', hlook⟩ := hnew x hx
    obtain rfl := Except.ok.inj (hs.symm.trans hs'')
    exact ⟨hold x hx, s, hlook, hst⟩

theorem continueAt_refused {addr : SocketAddr} (hp : addr.port ≠ 0)
    (ht : w.PortTaken addr.port) (backlog : Nat) (r : ReqId) (v : World T U) :
    ListenRefused w (v.continueAt .startWrite (w.handleTcpListen N addr backlog r)) r := by
  rw [World.handleTcpListen_taken hp ht]
  exact ⟨⟨_, rfl⟩, rfl, rfl⟩

/-- What taking a listen request does is decided by the port alone. -/
theorem step_tcpListen (hf : N.FreshHandles) (hM : N.TcpMachine) (ho : Owned w)
    {addr : SocketAddr} {backlog : Nat} {r : ReqId} {rest : List StackCommand}
    (hp : addr.port ≠ 0) (hq : w.commands.queue = .tcpListen addr backlog r::rest)
    (hs : World.step N cfg .command w = some w') :
    (w.PortTaken addr.port → ListenRefused w w' r) ∧
    (¬w.PortTaken addr.port → ListenCreated N w w' addr r) := by
  obtain ⟨-, rfl⟩ := World.step_command hq hs
  let popped : World T U := { w with
    commands := { w.commands with queue := rest }
    received := w.received ++ [r] }
  have hpop : Owned popped :=
    ⟨ho.live, ho.apart, ho.keys, fun c hc => ho.queue c (hq ▸ List.mem_cons_of_mem _ hc)⟩
  exact ⟨fun ht => continueAt_refused (w := popped) hp ht backlog r w,
    fun hfree => continueAt_created (w := popped) hf hM hpop hp hfree backlog r w⟩

theorem decidedByOverlap_iff (hf : N.FreshHandles) (hM : N.TcpMachine) (ho : Owned w)
    (hd : DistinctPorts w.listeners)
    {addr : SocketAddr} {backlog : Nat} {r : ReqId} {rest : List StackCommand}
    (hp : addr.port ≠ 0) (hq : w.commands.queue = .tcpListen addr backlog r::rest)
    (hs : World.step N cfg .command w = some w') :
    DecidedByOverlap N w w' addr r ↔
      ∀ k l, w.listeners.lookup k = some l → l.addr.port = addr.port → Overlaps l.addr addr := by
  obtain ⟨hrefused, hcreated⟩ := step_tcpListen hf hM ho hp hq hs
  constructor
  · intro h k l hl hport
    by_contra hno
    have hfree : ¬InConflict w addr := by
      rintro ⟨k', l', hl', hover⟩
      -- the two listeners have one port, so they are the same
      obtain rfl := hd k k' l l' hl hl' (hport.trans hover.1.symm)
      obtain rfl := Option.some.inj (hl.symm.trans hl')
      exact hno hover
    exact (hrefused ⟨k, l, hl, hport⟩).not_created (h.2 hfree)
  · intro h
    refine ⟨fun ⟨k, l, hl, hover⟩ => hrefused ⟨k, l, hl, hover.1⟩, fun hno => hcreated ?_⟩
    rintro ⟨k, l, hl, hport⟩
    exact hno ⟨k, l, hl, h k l hl hport⟩

theorem step_listenerClose_port (ho : Owned w) (hd : DistinctPorts w.listeners) {k : SocketHandle}
    {l : ListenerState} {rest : List StackCommand}
    (hq : w.commands.queue = .tcpListenerClose k::rest) (hl : w.listeners.lookup k = some l)
    (hs : World.step N cfg .command w = some w') : ¬w'.PortTaken l.addr.port := by
  obtain ⟨-, hw'⟩ := World.step_command hq hs
  let popped : World T U := { w with
    commands := { w.commands with queue := rest }
    received := w.received ++ [] }
  obtain ⟨m, he, -, -⟩ := World.handleTcpListenerClose_some (N := N) (w := popped) hl
    (ho.live.listening k l hl) (ho.apart.nodup k l hl)
  have hend : w'.listeners = w.listeners.erase k := by
    rw [hw']
    change (w.continueAt .startWrite (popped.handleTcpListenerClose N k)).listeners = _
    rw [he]
    rfl
  rintro ⟨k', l', hl', hport⟩
  rw [hend] at hl'
  obtain ⟨hne, hl'⟩ := Table.erase_cases hl'
  exact hne (hd k' k l' l hl' hl hport)

/-- A listen request is refused for an address in use, and otherwise granted, exactly when all
listeners on its port are on addresses that overlap its own. The check looks at the port only, so
a listener on another address of the host is in the way. A listener that has been closed is not. -/
theorem listen_conflicts_iff (N : Smoltcp T U E) (hf : N.FreshHandles) (hM : N.TcpMachine)
    (cfg : StackConfig) (port : UInt16) (w w' : World T U) (h : Reach N cfg port w)
    (hs : World.step N cfg .command w = some w') :
    (∀ addr backlog r rest, addr.port ≠ 0 →
      w.commands.queue = .tcpListen addr backlog r::rest →
      (DecidedByOverlap N w w' addr r ↔
        ∀ k l, w.listeners.lookup k = some l → l.addr.port = addr.port → Overlaps l.addr addr)) ∧
    (∀ k l rest, w.commands.queue = .tcpListenerClose k::rest → w.listeners.lookup k = some l →
      ¬w'.PortTaken l.addr.port) :=
  have ho := Reach.owned hf h
  have hd := Reach.distinctPorts hf h
  ⟨fun _ _ _ _ hp hq => decidedByOverlap_iff hf hM ho hd hp hq hs,
    fun _ _ _ hq hl => step_listenerClose_port ho hd hq hl hs⟩

/-- The host gets a second address, a listener, and a request for another listener. -/
def listenTwice (addr addr' : SocketAddr) : List (Action RefEvent) :=
  .flatten [[.issue (.addIp (.v4 0x0a000003) 24 0), .command], iteration [] [] none,
    [.issue (.tcpListen addr 1 1), .command], iteration [] [] none,
    [.issue (.tcpListen addr' 1 2)]]

/-- The second request finds one listener, on the first address. -/
theorem listenTwice_next (addr addr' : SocketAddr)
    (hrun : (runActions (World.step refNet hostCfg) (listenTwice addr addr')
      (World.init refNet hostCfg 49152)).map (fun w =>
        decide (w.commands.queue = [.tcpListen addr' 1 2] ∧
          w.listeners.entries = [⟨0, addr, [0]⟩] ∧
          (World.step refNet hostCfg .command w).isSome)) = some true) :
    ∃ w w', Reach refNet hostCfg 49152 w ∧ w.commands.queue = [.tcpListen addr' 1 2] ∧
      (∀ k l, w.listeners.lookup k = some l ↔ k = 0 ∧ l = ⟨addr, [0]⟩) ∧
      World.step refNet hostCfg .command w = some w' := by
  obtain ⟨w, hr, -, hw⟩ := reachable_of_run (World.step refNet hostCfg) _
    (World.init refNet hostCfg 49152) _ hrun
  obtain ⟨hq, hl, hstep⟩ := of_decide_eq_true hw
  obtain ⟨w', hs⟩ := Option.isSome_iff_exists.mp hstep
  refine ⟨w, w', hr, hq, fun k l => ?_, hs⟩
  rw [← Option.mem_def, AList.mem_lookup_iff, hl]
  simp

/-- After a listener on 10.0.0.2:8080, one on 0.0.0.0:8080 is refused. -/
theorem listen_conflicts_anyAddress :
    ∃ w w', Reach refNet hostCfg 49152 w ∧ w.commands.queue = [.tcpListen (.v4 0 8080) 1 2] ∧
      World.step refNet hostCfg .command w = some w' ∧ ListenRefused w w' 2 := by
  obtain ⟨w, w', hr, hq, hl, hs⟩ := listenTwice_next serverAddr (.v4 0 8080) (by decide +kernel)
  refine ⟨w, w', hr, hq, hs, ?_⟩
  have hall : ∀ k l, w.listeners.lookup k = some l → l.addr.port = 8080 →
      Overlaps l.addr (.v4 0 8080) := by
    rintro k l hk -
    obtain ⟨-, rfl⟩ := (hl k l).mp hk
    decide
  have hdecided := ((listen_conflicts_iff refNet refNet_freshHandles refNet_tcpMachine hostCfg
    49152 w w' hr hs).1 (.v4 0 8080) 1 2 [] (by decide) hq).mpr hall
  exact hdecided.1 ⟨0, ⟨serverAddr, [0]⟩, (hl _ _).mpr ⟨rfl, rfl⟩, by decide⟩

/-- A listener on 10.0.0.2:8080 keeps one on 10.0.0.3:8080 from being created. -/
theorem listen_refused_without_overlap :
    ∃ w w', Reach refNet hostCfg 49152 w ∧
      w.commands.queue = [.tcpListen (.v4 0x0a000003 8080) 1 2] ∧
      World.step refNet hostCfg .command w = some w' ∧
      ¬InConflict w (.v4 0x0a000003 8080) ∧ ListenRefused w w' 2 ∧
      ¬DecidedByOverlap refNet w w' (.v4 0x0a000003 8080) 2 := by
  obtain ⟨w, w', hr, hq, hl, hs⟩ := listenTwice_next serverAddr (.v4 0x0a000003 8080)
    (by decide +kernel)
  have hno : ¬InConflict w (.v4 0x0a000003 8080) := by
    rintro ⟨k, l, hk, hover⟩
    obtain ⟨-, rfl⟩ := (hl k l).mp hk
    revert hover
    decide
  have hrefused := (step_tcpListen refNet_freshHandles refNet_tcpMachine
    (Reach.owned refNet_freshHandles hr) (by decide) hq hs).1
    ⟨0, ⟨serverAddr, [0]⟩, (hl _ _).mpr ⟨rfl, rfl⟩, rfl⟩
  exact ⟨w, w', hr, hq, hs, hno, hrefused, fun h => hrefused.not_created (h.2 hno)⟩

end TapTunnel.Stack
