import TapTunnel.Stack.Backlog

namespace TapTunnel.Stack

open Framework Reference

variable {T U E : Type} {N : Smoltcp T U E}

/-- A socket that is on its way down and that no map of the stack refers to any more. -/
structure OrphanAt (N : Smoltcp T U E) (x : SocketHandle) (So : HandleMap (Socket T U))
    (Ts : HandleMap TcpSocketState) (Li : HandleMap ListenerState) : Prop where
  down : ∃ s, So.lookup x = some (.tcp s) ∧ (N.tcpState s).closingDown = true
  entry : Ts.lookup x = none
  listening : ∀ k l, Li.lookup k = some l → x ∉ l.listeningHandles

def Orphan (N : Smoltcp T U E) (x : SocketHandle) (w : World T U) : Prop :=
  OrphanAt N x w.sockets w.tcpStates w.listeners

namespace Orphan

variable {x : SocketHandle} {w w' : World T U}

theorem ne_of_none (h : Orphan N x w) {k : SocketHandle} (hk : w.sockets.lookup k = none) :
    x ≠ k := by
  rintro rfl
  obtain ⟨s, hs, -⟩ := h.down
  rw [hk] at hs
  cases hs

theorem keep (h : Orphan N x w) {m : HandleMap (Socket T U)}
    (hm : m.lookup x = w.sockets.lookup x) :
    ∃ s, m.lookup x = some (.tcp s) ∧ (N.tcpState s).closingDown = true := by
  rw [hm]
  exact h.down

theorem insertEntry (h : Orphan N x w) {k : SocketHandle} (hk : x ≠ k) (st : TcpSocketState) :
    (w.tcpStates.insert k st).lookup x = none := (AList.lookup_insert_ne hk).trans h.entry

theorem insertListener (h : Orphan N x w) {hs : List SocketHandle} (hx : x ∉ hs)
    (key : SocketHandle) (addr : SocketAddr) :
    ∀ k l, (w.listeners.insert key ⟨addr, hs⟩).lookup k = some l → x ∉ l.listeningHandles := by
  intro k l hl
  rcases Table.insert_cases hl with ⟨-, rfl⟩ | ⟨-, hl⟩
  · exact hx
  · exact h.listening k l hl

theorem replaceListening (hf : N.FreshHandles) (h : Orphan N x w) (key : SocketHandle)
    (addr : SocketAddr) {rest : List SocketHandle} (hx : x ∉ rest) :
    Orphan N x (w.replaceListening N key addr rest) := by
  have hne := h.ne_of_none (World.fresh_lookup hf w.sockets)
  unfold World.replaceListening
  split
  · exact ⟨h.keep (AList.lookup_insert_ne hne), h.entry,
      h.insertListener (by simp [hx, hne]) key addr⟩
  · exact ⟨h.down, h.entry, h.insertListener hx key addr⟩

theorem deliverAccepted (h : Orphan N x w) {y : SocketHandle} (hy : x ≠ y) (la pa : SocketAddr)
    (r : ReqId) : Orphan N x (w.deliverAccepted y la pa r) :=
  ⟨h.down, h.insertEntry hy _, h.listening⟩

/-- No effect gives an orphan a new owner or opens it again. -/
theorem effect (hf : N.FreshHandles) (hM : N.TcpMachine) (h : Orphan N x w)
    {c : Option StackCommand} (he : Effect N c w w') : Orphan N x w' := by
  cases he with
  | reject m port ips rep hr hm hb => exact ⟨h.keep (hm x), h.entry, h.listening⟩
  | connect k s port la hk =>
    have hne := h.ne_of_none hk
    exact ⟨h.keep (AList.lookup_insert_ne hne), h.insertEntry hne _, h.listening⟩
  | listen m hs primary hp hlen hnd hport hold hnew hrest =>
    have hx : x ∉ hs := fun hm => h.ne_of_none (hold x hm) rfl
    exact ⟨h.keep (hrest x hx), h.entry, h.insertListener hx _ _⟩
  | accept l y rest s la pa hl hy hs hest =>
    have hx : x ∉ y::rest := fun hm => h.listening _ l hl (hy.mem_iff.mp hm)
    simp only [List.mem_cons, not_or] at hx
    exact (h.replaceListening hf _ _ hx.2).deliverAccepted hx.1 la pa _
  | wait l hl hnone => exact h
  | listenerGone hl => exact h
  | listenerClose l m hl hout hin =>
    exact ⟨h.keep (hout x (h.listening _ l hl)), h.entry,
      fun k l' hl' => h.listening k l' (Table.erase_cases hl').2⟩
  | tcpClose s hs =>
    rename_i k
    refine ⟨?_, by rw [World.removeTcpState, Table.lookup_erase_if, World.setTcp, h.entry,
      ite_self], h.listening⟩
    by_cases hx : x = k
    · subst hx
      obtain ⟨s', hs', hd⟩ := h.down
      obtain rfl : s = s' := by simpa [hs] using hs'
      refine ⟨_, AList.lookup_insert _, ?_⟩
      rw [hM.close_state]
      exact TcpState.closingDown_onClose _
    · exact h.keep (AList.lookup_insert_ne hx)
  | udpBind k s port addr hk =>
    exact ⟨h.keep (AList.lookup_insert_ne (h.ne_of_none hk)), h.entry, h.listening⟩
  | udpClose s hs =>
    refine ⟨h.keep (AList.lookup_insert_ne ?_), h.entry, h.listening⟩
    rintro rfl
    obtain ⟨s', hs', -⟩ := h.down
    rw [hs] at hs'
    cases hs'
  | connected la pa ch r hp => exact h
  | connectDead la pa ch r e hp =>
    refine ⟨h.down, ?_, h.listening⟩
    change (w.tcpStates.erase _).lookup x = none
    rw [Table.lookup_erase_if, h.entry, ite_self]
  | acceptPending r l y rest s la pa hp hl hy hs hest =>
    have hx : x ∉ y::rest := fun hm => h.listening _ l hl (hy.mem_iff.mp hm)
    simp only [List.mem_cons, not_or] at hx
    rename_i key
    have h1 := h.replaceListening hf key l.addr hx.2
    exact ⟨h1.down, h1.insertEntry hx.1 _, h1.listening⟩

theorem transition (hf : N.FreshHandles) (hM : N.TcpMachine) (h : Orphan N x w) {a : Action E}
    (ht : Transition N a w w') : Orphan N x w' := by
  obtain ⟨s0, hs0, hd0⟩ := h.down
  have hentry : ∀ k st, w.tcpStates.lookup k = some st → x ≠ k := by
    rintro k st hst rfl
    rw [h.entry] at hst
    cases hst
  have hudp : ∀ k s, w.sockets.lookup k = some (.udp s) → x ≠ k := by
    rintro k s hs rfl
    rw [hs0] at hs
    cases hs
  cases ht with
  | env he =>
    have hfr := World.envStep_frame he
    unfold Orphan
    rw [hfr.sockets, hfr.tcpStates, hfr.listeners]
    exact h
  | control p notify hp hw => exact h
  | command cmd rest hph hq he =>
    have h1 := effect (w := { w with
      commands := rest
      received := w.received ++ cmd.response.toList }) hf hM h he
    exact h1
  | writeTcp k tcp udp st s hph hst hs =>
    have hne := hentry k st hst
    exact ⟨h.keep (AList.lookup_insert_ne hne), h.insertEntry hne _, h.listening⟩
  | readTcp k tcp udp changed st s hst hs =>
    exact ⟨h.keep (AList.lookup_insert_ne (hentry k st hst)), h.entry, h.listening⟩
  | writeUdp k udp st s hst hs =>
    exact ⟨h.keep (AList.lookup_insert_ne (hudp k s hs)), h.entry, h.listening⟩
  | readUdp k udp changed st s hst hs =>
    exact ⟨h.keep (AList.lookup_insert_ne (hudp k s hs)), h.entry, h.listening⟩
  | udpEvent k e s hs =>
    exact ⟨h.keep (AList.lookup_insert_ne (hudp k s hs)), h.entry, h.listening⟩
  | tcpEvent k e s hs =>
    refine ⟨?_, h.entry, h.listening⟩
    by_cases hx : x = k
    · subst hx
      obtain rfl : s = s0 := by simpa [hs] using hs0
      exact ⟨_, AList.lookup_insert _, TcpState.moves_closingDown (hM.process_state e s) hd0⟩
    · exact h.keep (AList.lookup_insert_ne hx)
  | pending order he =>
    have h1 := Effect.path_rule (Orphan N x) h (fun _ _ hu he => effect hf hM hu he) he
    exact h1
  | fail =>
    have h1 := World.failOps_rule (Orphan N x) w.pending.entries h (fun _ _ _ _ hv => hv)
    exact h1

end Orphan

/-- The stack takes the command that closes the listener under `key` and handles it. -/
def ClosesListener (N : Smoltcp T U E) (cfg : StackConfig) (key : SocketHandle)
    (w w' : World T U) : Prop :=
  w.commands.queue.head? = some (.tcpListenerClose key) ∧ World.step N cfg .command w = some w'

/-- From `w` on, whatever happens, the sockets of `l` stay on their way down. -/
def StaysDown (N : Smoltcp T U E) (cfg : StackConfig) (l : ListenerState) (w : World T U) : Prop :=
  ∀ as w', runActions (World.step N cfg) as w = some w' →
    ∀ x ∈ l.listeningHandles, ∃ q, stateOf N w' x = some q ∧ q.closingDown = true

/-- Handling the close takes the listener away and closes those sockets that are in `Listen`. -/
theorem closesListener_spec {cfg : StackConfig} {key : SocketHandle} {l : ListenerState}
    {w w' : World T U} (ho : Owned w) (hl : w.listeners.lookup key = some l)
    (hc : ClosesListener N cfg key w w') :
    w'.tcpStates = w.tcpStates ∧ w'.listeners = w.listeners.erase key ∧
    ∀ x ∈ l.listeningHandles, ∃ s, w.sockets.lookup x = some (.tcp s) ∧
      w'.sockets.lookup x = some (.tcp (if N.tcpState s = .listen then N.tcpClose s else s)) := by
  obtain ⟨rest, hq⟩ := List.head?_eq_some_iff.mp hc.1
  obtain ⟨-, hw'⟩ := World.step_command hq hc.2
  let w0 : World T U := { w with
    commands := { w.commands with queue := rest }
    received := w.received ++ (StackCommand.tcpListenerClose key).response.toList }
  obtain ⟨m, he, -, hin⟩ := World.handleTcpListenerClose_some (N := N) (w := w0) hl
    (ho.live.listening key l hl) (ho.apart.nodup key l hl)
  have hrun : World.handleCommand N cfg (.tcpListenerClose key) w0 = _ := he
  rw [hrun] at hw'
  subst hw'
  exact ⟨rfl, rfl, hin⟩

/-- After a listener has been closed all its sockets go down exactly if none of them had more
than a listening socket: each was in `Listen` or already `Closed`. -/
theorem listener_close_iff (N : Smoltcp T U E) (hf : N.FreshHandles) (hM : N.TcpMachine)
    (cfg : StackConfig) (port : UInt16) (w w' : World T U) (h : Reach N cfg port w)
    (key : SocketHandle) (l : ListenerState) (hl : w.listeners.lookup key = some l)
    (hc : ClosesListener N cfg key w w') :
    StaysDown N cfg l w' ↔
      ∀ x ∈ l.listeningHandles, stateOf N w x = some .listen ∨ stateOf N w x = some .closed := by
  have ho := Reach.owned hf h
  obtain ⟨hts, hli, hsock⟩ := closesListener_spec ho hl hc
  constructor
  · intro hdown x hx
    obtain ⟨s, hs, hs'⟩ := hsock x hx
    obtain ⟨q, hq, hqd⟩ := hdown [] w' rfl x hx
    rw [stateOf_eq hs'] at hq
    rw [stateOf_eq hs]
    by_cases hlis : N.tcpState s = .listen
    · exact .inl (congrArg some hlis)
    · rw [if_neg hlis] at hq
      obtain rfl := Option.some.inj hq
      exact .inr (congrArg some ((Reach.backlogState hf hM h hl hx hs).resolve_left
        (fun hb => TcpState.not_inBacklog_of_closingDown hqd hb)))
  · intro hstates as w2 hrun x hx
    obtain ⟨s, hs, hs'⟩ := hsock x hx
    have hdown : Orphan N x w' := by
      refine ⟨⟨_, hs', ?_⟩, by rw [hts]; exact ho.apart.tcp key l hl x hx, ?_⟩
      · rcases hstates x hx with hst | hst
        · rw [stateOf_eq hs, Option.some.injEq] at hst
          rw [if_pos hst, hM.close_state, hst]
          rfl
        · rw [stateOf_eq hs, Option.some.injEq] at hst
          rw [if_neg (by rw [hst]; nofun), hst]
          rfl
      · intro k l' hl' hx'
        rw [hli] at hl'
        obtain ⟨hne, hl'⟩ := Table.erase_cases hl'
        exact ho.apart.inj key l hl x hx ⟨k, l', hne, hl', hx'⟩
    have hr' : Reach N cfg port w' := ReachVia.next h trivial hc.2
    obtain ⟨-, hend⟩ := runActions_preserves (World.step N cfg)
      (fun v => Reach N cfg port v ∧ Orphan N x v)
      (fun v v' a hv hstep => ⟨ReachVia.next hv.1 trivial hstep,
        hv.2.transition hf hM ((Reach.owned hf hv.1).step_transition hf hstep)⟩)
      as w' w2 ⟨hr', hdown⟩ hrun
    obtain ⟨s2, hs2, hd2⟩ := hend.down
    exact ⟨_, stateOf_eq hs2, hd2⟩

/-- The listener is closed after `pre`, and the stack goes on with `as`. -/
def listenerCloseRun (pre as : List (Action RefEvent)) :
    Option (World RefTcp RefUdp × World RefTcp RefUdp × World RefTcp RefUdp) := do
  let w ← runActions (World.step refNet hostCfg) (pre ++ [.issue (.tcpListenerClose 0)])
    (World.init refNet hostCfg 49152)
  let w' ← World.step refNet hostCfg .command w
  let w2 ← runActions (World.step refNet hostCfg) as w'
  return (w, w', w2)

theorem listenerCloseRun_spec {pre as : List (Action RefEvent)} {w w' w2 : World RefTcp RefUdp}
    (h : listenerCloseRun pre as = some (w, w', w2)) :
    Reach refNet hostCfg 49152 w ∧ World.step refNet hostCfg .command w = some w' ∧
    runActions (World.step refNet hostCfg) as w' = some w2 := by
  simp only [listenerCloseRun, bind, Option.bind_eq_some_iff, pure, Option.some.injEq,
    Prod.mk.injEq] at h
  obtain ⟨v, h1, v', h2, v2, h3, rfl, rfl, rfl⟩ := h
  exact ⟨Reachable.run _ .start h1, h2, h3⟩

theorem listener_close_iff_listen :
    ∃ w w', Reach refNet hostCfg 49152 w ∧ ClosesListener refNet hostCfg 0 w w' ∧
      StaysDown refNet hostCfg ⟨serverAddr, [0]⟩ w' := by
  have hrun : (listenerCloseRun (listenRun 1) []).map (fun (w, _, _) => decide
      (w.commands.queue.head? = some (.tcpListenerClose 0) ∧
        w.listeners.lookup 0 = some ⟨serverAddr, [0]⟩ ∧ stateOf refNet w 0 = some .listen)) =
      some true := by decide +kernel
  obtain ⟨⟨w, w', w2⟩, hc, hp⟩ := Option.map_eq_some_iff.mp hrun
  obtain ⟨hr, hcmd, -⟩ := listenerCloseRun_spec hc
  obtain ⟨hhead, hl, hst⟩ := of_decide_eq_true hp
  exact ⟨w, w', hr, ⟨hhead, hcmd⟩, (listener_close_iff refNet refNet_freshHandles refNet_tcpMachine
    hostCfg 49152 w w' hr 0 _ hl ⟨hhead, hcmd⟩).mpr (by simpa using .inl hst)⟩

/-- A peer is half connected when the listener is closed. Its reset then brings the socket back
to `Listen`, with no listener left that could own it. -/
theorem closed_listener_listens :
    ∃ (w w' w2 : World RefTcp RefUdp) (as : List (Action RefEvent)),
      Reach refNet hostCfg 49152 w ∧ w.listeners.lookup 0 = some ⟨serverAddr, [0]⟩ ∧
      ClosesListener refNet hostCfg 0 w w' ∧
      runActions (World.step refNet hostCfg) as w' = some w2 ∧
      w2.listeners.lookup 0 = none ∧ stateOf refNet w2 0 = some .listen := by
  have hrun : (listenerCloseRun (batchRun [.syn serverEp peerEp])
      (iteration [] [(0, .rst)] none)).map (fun (w, _, w2) => decide
      (w.commands.queue.head? = some (.tcpListenerClose 0) ∧
        w.listeners.lookup 0 = some ⟨serverAddr, [0]⟩ ∧ w2.listeners.lookup 0 = none ∧
        stateOf refNet w2 0 = some .listen)) = some true := by decide +kernel
  obtain ⟨⟨w, w', w2⟩, hc, hp⟩ := Option.map_eq_some_iff.mp hrun
  obtain ⟨hr, hcmd, hgo⟩ := listenerCloseRun_spec hc
  obtain ⟨hhead, hl, hgone, hst⟩ := of_decide_eq_true hp
  exact ⟨w, w', w2, _, hr, hl, ⟨hhead, hcmd⟩, hgo, hgone, hst⟩

end TapTunnel.Stack
