import TapTunnel.Stack.ListenerClose

namespace TapTunnel.Stack

open Framework Reference

variable {T U E : Type} {N : Smoltcp T U E}

/-- The entries of the maps of the stack that something may change. -/
structure Touched where
  sockets : Set SocketHandle := ∅
  pending : Set SocketHandle := ∅
  listeners : Set SocketHandle := ∅
  tcpStates : Set SocketHandle := ∅
  udpStates : Set SocketHandle := ∅

/-- From `w` to `w'` only the entries in `F` change, and the channels of the socket states among
them. -/
structure ChangesOnly (F : Touched) (w w' : World T U) : Prop where
  sockets : ∀ x ∉ F.sockets, w'.sockets.lookup x = w.sockets.lookup x
  pending : ∀ x ∉ F.pending, w'.pending.lookup x = w.pending.lookup x
  listeners : ∀ x ∉ F.listeners, w'.listeners.lookup x = w.listeners.lookup x
  tcpStates : ∀ x ∉ F.tcpStates, w'.tcpStates.lookup x = w.tcpStates.lookup x
  udpStates : ∀ x ∉ F.udpStates, w'.udpStates.lookup x = w.udpStates.lookup x
  tcpChans : ∀ ch, (∀ x ∈ F.tcpStates, ∀ st, w.tcpStates.lookup x = some st → st.chan ≠ ch) →
    w'.tcpChans ch = w.tcpChans ch
  udpChans : ∀ ch, (∀ x ∈ F.udpStates, ∀ st, w.udpStates.lookup x = some st → st.chan ≠ ch) →
    w'.udpChans ch = w.udpChans ch
  rest : { w' with
    sockets := w.sockets
    pending := w.pending
    listeners := w.listeners
    tcpStates := w.tcpStates
    udpStates := w.udpStates
    tcpChans := w.tcpChans
    udpChans := w.udpChans } = w

/-- What a close command is about: a socket and its state, or a listener with the accept that
waits on it and its listening sockets. -/
def closeTouches (w : World T U) : StackCommand → Touched
  | .tcpClose h => { sockets := {h}, tcpStates := {h} }
  | .udpClose h => { sockets := {h}, udpStates := {h} }
  | .tcpListenerClose h =>
    { sockets := {x | w.Listening h x}
      pending := {x | x = h ∧ ∃ r, w.pending.lookup h = some (.tcpAccept r)}
      listeners := {h} }
  | _ => {}

/-- A close command for a handle that the application has been given. -/
def CloseHeld (w : World T U) : StackCommand → Prop
  | .tcpClose h => w.HasStream h
  | .udpClose h => w.HasUdp h
  | .tcpListenerClose h => w.HasListener h
  | _ => False

/-- No connect is pending on a handle that was given out as a listener. -/
def ConnectsApart (w : World T U) : Prop :=
  ∀ h op, w.pending.lookup h = some op → op.isConnect = true → ¬w.HasListener h

namespace ConnectsApart

variable {w w' : World T U}

theorem mono (h : ConnectsApart w)
    (hp : ∀ k op, w'.pending.lookup k = some op → op.isConnect = true →
      w.pending.lookup k = some op)
    (ha : ∀ k, w'.HasListener k → w.HasListener k) : ConnectsApart w' :=
  fun k op hk hc hl => h k op (hp k op hk hc) hc (ha k hl)

theorem answer (h : ConnectsApart w) (r : ReqId) {rep : Reply} (hr : rep.listenerHandle? = none) :
    ConnectsApart (w.answer r rep) := by
  refine h.mono (fun _ _ hk _ => hk) (fun k hk => ?_)
  have hg := (gave_push w.answers r rep Reply.listenerHandle? k).mp hk
  exact hg.resolve_right (by simp [hr])

theorem erase (h : ConnectsApart w) (k : SocketHandle) : ConnectsApart (w.dropPending k) :=
  h.mono (fun _ _ hx _ => (Table.erase_cases hx).2) (fun _ => id)

theorem replaceListening (h : ConnectsApart w) (key : SocketHandle) (addr : SocketAddr)
    (rest : List SocketHandle) : ConnectsApart (w.replaceListening N key addr rest) := by
  refine h.mono (fun k op hk _ => ?_) (fun k hk => ?_)
  · rwa [World.replaceListening_pending] at hk
  · unfold World.HasListener at hk
    rwa [World.replaceListening_answers] at hk

theorem effect (ho : Owned w) (h : ConnectsApart w) {c : Option StackCommand}
    (he : Effect N c w w') : ConnectsApart w' := by
  cases he with
  | reject m port ips rep hr hm hb =>
    refine answer (w := { w with sockets := m, ephemeralPort := port, ipAddrs := ips }) h _ ?_
    rcases rep with (_ | _) | (_ | _) | (_ | _) | _ | _ <;> simp_all [Reply.bare,
      Reply.listenerHandle?]
  | connect k s port la hk hs =>
    intro x op hx hc hl
    rcases Table.insert_cases hx with ⟨rfl, -⟩ | ⟨-, hx⟩
    · obtain ⟨s0, hs0⟩ := ho.live.gaveListener x hl
      rw [hk] at hs0
      cases hs0
    · exact h x op hx hc hl
  | listen m hs primary hp hlen hnd hport hold hnew hrest =>
    intro x op hx hc hl
    rcases (gave_push w.answers _ _ Reply.listenerHandle? x).mp hl with hl | hl
    · exact h x op hx hc hl
    · obtain rfl : primary = x := Option.some.inj hl
      have hnone := (ho.unused (hold primary (List.mem_of_mem_head? hp))).2.2.1
      rw [show w.pending.lookup primary = some op from hx] at hnone
      cases hnone
  | accept l x rest s la pa hl hx hs hest =>
    rename_i key r
    have h1 := h.replaceListening (N := N) key l.addr rest
    exact h1.answer r rfl
  | wait l hl hnone =>
    refine h.mono (fun k op hk hc => ?_) (fun _ => id)
    rcases Table.insert_cases hk with ⟨-, rfl⟩ | ⟨-, hk⟩
    · cases hc
    · exact hk
  | listenerGone hl => exact h.erase _
  | listenerClose l m hl hout hin => exact h.erase _
  | tcpClose s hs => exact h
  | udpBind k s port addr hk => exact answer (w := w) h _ rfl
  | udpClose s hs => exact h
  | connected la pa ch r hp => exact answer (w := w.dropPending _) (h.erase _) r rfl
  | connectDead la pa ch r e hp => exact answer (w := w.dropPending _) (h.erase _) r rfl
  | acceptPending r l x rest s la pa hp hl hx hs hest =>
    rename_i key
    have h1 := (h.replaceListening (N := N) key l.addr rest).erase key
    exact h1.answer r rfl

theorem transition (hf : N.FreshHandles) (ho : Owned w) (h : ConnectsApart w) {a : Action E}
    (ht : Transition N a w w') : ConnectsApart w' := by
  cases ht with
  | env he =>
    have hfr := World.envStep_frame he
    refine h.mono (fun k op hk _ => hfr.pending ▸ hk) (fun k hk => ?_)
    unfold World.HasListener at hk ⊢
    rwa [hfr.answers] at hk
  | command cmd rest hph hq he =>
    have h1 := effect (w := { w with
      commands := rest
      received := w.received ++ cmd.response.toList }) (ho.popCommand hq _) h he
    exact h1
  | pending order he =>
    have h1 := ho.effects_rule hf ConnectsApart h (fun _ _ hu hp he => hp.effect hu he) he
    exact h1
  | fail =>
    exact World.failOps_rule ConnectsApart _ h (fun _ k r _ hv => (hv.erase k).answer r rfl)
  | control | writeTcp | writeUdp | tcpEvent | udpEvent | readTcp | readUdp => exact h

end ConnectsApart

theorem Reach.connectsApart (hf : N.FreshHandles) {cfg : StackConfig} {port : UInt16}
    {w : World T U} (h : Reach N cfg port w) : ConnectsApart w := by
  refine Reach.invariant hf ConnectsApart ?_ ?_ h
  · intro ips p k op hk
    cases hk
  · intro u v a ho hu _ ht
    exact hu.transition hf ho ht

/-- The UDP socket under `x` has been closed and has no state any more. -/
structure UdpShut (N : Smoltcp T U E) (x : SocketHandle) (w : World T U) : Prop where
  socket : ∃ s, w.sockets.lookup x = some (.udp (N.udpClose s))
  entry : w.udpStates.lookup x = none

namespace UdpShut

variable {x : SocketHandle} {w w' : World T U}

theorem ne_of_none (h : UdpShut N x w) {k : SocketHandle} (hk : w.sockets.lookup k = none) :
    x ≠ k := by
  rintro rfl
  obtain ⟨s, hs⟩ := h.socket
  rw [hk] at hs
  cases hs

theorem ne_of_tcp (h : UdpShut N x w) {k : SocketHandle} {s : T}
    (hk : w.sockets.lookup k = some (.tcp s)) : x ≠ k := by
  rintro rfl
  obtain ⟨s', hs'⟩ := h.socket
  rw [hk] at hs'
  cases hs'

theorem keep (h : UdpShut N x w) (hs : w'.sockets.lookup x = w.sockets.lookup x)
    (he : w'.udpStates.lookup x = w.udpStates.lookup x) : UdpShut N x w' :=
  ⟨hs ▸ h.socket, he ▸ h.entry⟩

theorem replaceListening (hf : N.FreshHandles) (h : UdpShut N x w) (key : SocketHandle)
    (addr : SocketAddr) (rest : List SocketHandle) :
    UdpShut N x (w.replaceListening N key addr rest) := by
  obtain ⟨s, hs⟩ := h.socket
  refine ⟨⟨s, World.replaceListening_lookup hf hs key addr rest⟩, ?_⟩
  rw [World.replaceListening_udpStates]
  exact h.entry

theorem effect (hf : N.FreshHandles) (hC : N.CloseContract) (h : UdpShut N x w)
    {c : Option StackCommand} (he : Effect N c w w') : UdpShut N x w' := by
  cases he with
  | reject m port ips rep hr hm hb => exact h.keep (hm x) rfl
  | connect k s port la hk hs => exact h.keep (AList.lookup_insert_ne (h.ne_of_none hk)) rfl
  | listen m hs primary hp hlen hnd hport hold hnew hrest =>
    have hx : x ∉ hs := fun hm => h.ne_of_none (hold x hm) rfl
    exact h.keep (hrest x hx) rfl
  | accept l y rest s la pa hl hy hs hest =>
    rename_i key r
    have h1 := h.replaceListening hf key l.addr rest
    exact h1.keep rfl rfl
  | listenerClose l m hl hout hin =>
    have hx : x ∉ l.listeningHandles := by
      intro hmem
      obtain ⟨s, hs, -⟩ := hin x hmem
      exact h.ne_of_tcp hs rfl
    exact h.keep (hout x hx) rfl
  | tcpClose s hs => exact h.keep (AList.lookup_insert_ne (h.ne_of_tcp hs)) rfl
  | udpBind k s port addr hk =>
    have hne := h.ne_of_none hk
    exact h.keep (AList.lookup_insert_ne hne) (AList.lookup_insert_ne hne)
  | udpClose s hs =>
    rename_i k
    by_cases hx : x = k
    · subst hx
      obtain ⟨s0, hs0⟩ := h.socket
      obtain rfl : s = N.udpClose s0 := by simpa [hs] using hs0
      have hnew := AList.lookup_insert (b := Socket.udp (N.udpClose (N.udpClose s0)))
        (a := x) w.sockets
      rw [hC.udpClose_again] at hnew ⊢
      exact ⟨⟨s0, hnew⟩, AList.lookup_erase _ _⟩
    · exact h.keep (AList.lookup_insert_ne hx) (AList.lookup_erase_ne hx)
  | acceptPending r l y rest s la pa hp hl hy hs hest =>
    rename_i key
    have h1 := h.replaceListening hf key l.addr rest
    exact h1.keep rfl rfl
  | wait | listenerGone | connected | connectDead => exact h.keep rfl rfl

theorem transition (hf : N.FreshHandles) (hC : N.CloseContract) (ho : Owned w)
    (h : UdpShut N x w) {a : Action E} (ht : Transition N a w w') : UdpShut N x w' := by
  have hentry : ∀ k st, w.udpStates.lookup k = some st → x ≠ k := by
    rintro k st hst rfl
    rw [h.entry] at hst
    cases hst
  cases ht with
  | env he =>
    have hfr := World.envStep_frame he
    exact h.keep (by rw [hfr.sockets]) (by rw [hfr.udpStates])
  | control p notify hp hw => exact h.keep rfl rfl
  | command cmd rest hph hq he =>
    have h1 := effect (w := { w with
      commands := rest
      received := w.received ++ cmd.response.toList }) hf hC (h.keep rfl rfl) he
    exact h1.keep rfl rfl
  | writeTcp k tcp udp st s hph hst hs =>
    exact h.keep (AList.lookup_insert_ne (h.ne_of_tcp hs)) rfl
  | readTcp k tcp udp changed st s hst hs =>
    exact h.keep (AList.lookup_insert_ne (h.ne_of_tcp hs)) rfl
  | tcpEvent k e s hs => exact h.keep (AList.lookup_insert_ne (h.ne_of_tcp hs)) rfl
  | writeUdp k udp st s hst hs => exact h.keep (AList.lookup_insert_ne (hentry k st hst)) rfl
  | readUdp k udp changed st s hst hs =>
    exact h.keep (AList.lookup_insert_ne (hentry k st hst)) rfl
  | udpEvent k e s hs =>
    by_cases hx : x = k
    · subst hx
      obtain ⟨s0, hs0⟩ := h.socket
      obtain rfl : s = N.udpClose s0 := by simpa [hs] using hs0
      rw [hC.udpProcess_closed]
      exact ⟨⟨s0, AList.lookup_insert _⟩, h.entry⟩
    · exact h.keep (AList.lookup_insert_ne hx) rfl
  | pending order he =>
    have h1 := ho.effects_rule hf (UdpShut N x) h (fun _ _ _ hu he => hu.effect hf hC he) he
    exact h1.keep rfl rfl
  | fail =>
    have h1 := World.failOps_rule (UdpShut N x) w.pending.entries h
      (fun _ _ _ _ hv => hv.keep rfl rfl)
    exact h1.keep rfl rfl

end UdpShut

/-- The listener under `x` is gone, and no operation is pending on it. -/
structure ListenerShut (x : SocketHandle) (w : World T U) : Prop where
  held : w.HasListener x
  listener : w.listeners.lookup x = none
  pending : w.pending.lookup x = none

namespace ListenerShut

variable {x : SocketHandle} {w w' : World T U}

theorem ne_of_none (ho : Owned w) (h : ListenerShut x w) {k : SocketHandle}
    (hk : w.sockets.lookup k = none) : x ≠ k := by
  rintro rfl
  obtain ⟨s, hs⟩ := ho.live.gaveListener x h.held
  rw [hk] at hs
  cases hs

theorem ne_of_listener (h : ListenerShut x w) {k : SocketHandle} {l : ListenerState}
    (hl : w.listeners.lookup k = some l) : x ≠ k := by
  rintro rfl
  rw [h.listener] at hl
  cases hl

theorem keep (h : ListenerShut x w) (ha : w.answers <+: w'.answers)
    (hl : w'.listeners.lookup x = w.listeners.lookup x)
    (hp : w'.pending.lookup x = w.pending.lookup x) : ListenerShut x w' :=
  ⟨h.held.mono ha, hl.trans h.listener, hp.trans h.pending⟩

/-- Operations are only taken away from `pending`. -/
theorem erase (h : ListenerShut x w) (k : SocketHandle) :
    (w.pending.erase k).lookup x = w.pending.lookup x := by
  rw [Table.lookup_erase_if, h.pending, ite_self]

theorem effect (ho : Owned w) (h : ListenerShut x w) {c : Option StackCommand}
    (he : Effect N c w w') : ListenerShut x w' := by
  have ha := he.answers
  cases he with
  | connect k s port la hk hs =>
    exact h.keep ha rfl (AList.lookup_insert_ne (h.ne_of_none ho hk))
  | listen m hs primary hp hlen hnd hport hold hnew hrest =>
    have hne := h.ne_of_none ho (hold primary (List.mem_of_mem_head? hp))
    exact h.keep ha (AList.lookup_insert_ne hne) rfl
  | accept l y rest s la pa hl hy hs hest =>
    refine h.keep ha (World.replaceListening_listener_ne (h.ne_of_listener hl) _ _) ?_
    rw [World.deliverAccepted_pending, World.replaceListening_pending]
  | wait l hl hnone => exact h.keep ha rfl (AList.lookup_insert_ne (h.ne_of_listener hl))
  | listenerGone hl => exact h.keep ha rfl (h.erase _)
  | listenerClose l m hl hout hin =>
    exact h.keep ha (AList.lookup_erase_ne (h.ne_of_listener hl)) (h.erase _)
  | connected | connectDead => exact h.keep ha rfl (h.erase _)
  | acceptPending r l y rest s la pa hp hl hy hs hest =>
    refine h.keep ha (World.replaceListening_listener_ne (h.ne_of_listener hl) _ _) ?_
    rw [World.deliverAccepted_pending, World.takePending_pending, World.replaceListening_pending]
    exact h.erase _
  | reject | tcpClose | udpBind | udpClose => exact h.keep ha rfl rfl

theorem transition (hf : N.FreshHandles) (ho : Owned w) (h : ListenerShut x w) {a : Action E}
    (ht : Transition N a w w') : ListenerShut x w' := by
  have ha := ht.answers
  cases ht with
  | env he =>
    have hfr := World.envStep_frame he
    exact h.keep ha (by rw [hfr.listeners]) (by rw [hfr.pending])
  | command cmd rest hph hq he =>
    have h1 := effect (w := { w with
      commands := rest
      received := w.received ++ cmd.response.toList }) (ho.popCommand hq _) ⟨h.held, h.listener,
        h.pending⟩ he
    exact ⟨h1.held, h1.listener, h1.pending⟩
  | pending order he =>
    have h1 := ho.effects_rule hf (ListenerShut x) h (fun _ _ hu hv he => hv.effect hu he) he
    exact ⟨h1.held, h1.listener, h1.pending⟩
  | fail =>
    have h1 := World.failOps_rule (ListenerShut x) w.pending.entries h
      (fun _ k _ _ hv => hv.keep (List.prefix_append _ _) rfl (hv.erase k))
    exact ⟨h1.held, h1.listener, h1.pending⟩
  | control | writeTcp | writeUdp | tcpEvent | udpEvent | readTcp | readUdp =>
    exact h.keep ha rfl rfl

end ListenerShut

/-- State after the close command has been handled. -/
def Shut (N : Smoltcp T U E) (w : World T U) : StackCommand → Prop
  | .tcpClose h => Orphan N h w
  | .udpClose h => UdpShut N h w
  | .tcpListenerClose h => ListenerShut h w
  | _ => True

section Close

variable {w w' : World T U} {cfg : StackConfig}

theorem Shut.transition (hf : N.FreshHandles) (hM : N.TcpMachine) (hC : N.CloseContract)
    {cmd : StackCommand} (ho : Owned w) (h : Shut N w cmd) {a : Action E}
    (ht : Transition N a w w') : Shut N w' cmd := by
  cases cmd with
  | tcpClose k => exact Orphan.transition hf hM h ht
  | udpClose k => exact UdpShut.transition hf hC ho h ht
  | tcpListenerClose k => exact ListenerShut.transition hf ho h ht
  | _ => trivial

/-- What a handled `TcpClose` has done, with the reason why nothing opens the socket again. -/
theorem handleCommand_tcpClose (hM : N.TcpMachine) (ho : Owned w) {h : SocketHandle}
    (hh : w.HasStream h) : ∃ w', w.handleCommand N cfg (.tcpClose h) = .ok w' ∧
      ChangesOnly (closeTouches w (.tcpClose h)) w w' ∧ Orphan N h w' := by
  obtain ⟨s, hs⟩ := ho.live.stream h hh
  refine ⟨_, World.handleTcpClose_eq hs, ?_, ?_⟩
  · refine ⟨fun x hx => AList.lookup_insert_ne hx, fun _ _ => rfl, fun _ _ => rfl,
      fun x hx => AList.lookup_erase_ne hx, fun _ _ => rfl, fun ch hch => ?_, fun _ _ => rfl, rfl⟩
    change releaseTcpState (w.tcpStates.lookup h) w.tcpChans ch = w.tcpChans ch
    cases hst : w.tcpStates.lookup h with
    | none => rfl
    | some st => exact Function.update_of_ne (hch h rfl st hst).symm _ _
  · refine ⟨⟨_, AList.lookup_insert _, ?_⟩, AList.lookup_erase _ _, ?_⟩
    · rw [hM.close_state]
      exact TcpState.closingDown_onClose _
    · exact fun k l hl hmem => ho.apart.stream k l hl h hmem hh

theorem handleCommand_udpClose (ho : Owned w) {h : SocketHandle} (hh : w.HasUdp h) :
    ∃ w', w.handleCommand N cfg (.udpClose h) = .ok w' ∧
      ChangesOnly (closeTouches w (.udpClose h)) w w' ∧ UdpShut N h w' := by
  obtain ⟨s, hs⟩ := ho.live.gaveUdp h hh
  refine ⟨_, World.handleUdpClose_eq hs, ?_, ⟨s, AList.lookup_insert _⟩, AList.lookup_erase _ _⟩
  refine ⟨fun x hx => AList.lookup_insert_ne hx, fun _ _ => rfl, fun _ _ => rfl, fun _ _ => rfl,
    fun x hx => AList.lookup_erase_ne hx, fun _ _ => rfl, fun ch hch => ?_, rfl⟩
  change releaseUdpState (w.udpStates.lookup h) w.udpChans ch = w.udpChans ch
  cases hst : w.udpStates.lookup h with
  | none => rfl
  | some st => exact Function.update_of_ne (hch h rfl st hst).symm _ _

/-- Dropping an operation that is not a connect drops no channel ends. -/
theorem releaseOp_accept {o : Option PendingOp} (h : ∀ op, o = some op → op.isConnect = false)
    (m : ChanId → TcpChan) : releaseOp o m = m := by
  rcases o with _ | (⟨la, pa, ch, r⟩ | r)
  · rfl
  · cases h _ rfl
  · rfl

theorem handleCommand_tcpListenerClose (ho : Owned w) (hc : ConnectsApart w) {h : SocketHandle}
    (hh : w.HasListener h) : ∃ w', w.handleCommand N cfg (.tcpListenerClose h) = .ok w' ∧
      ChangesOnly (closeTouches w (.tcpListenerClose h)) w w' ∧ ListenerShut h w' := by
  have hop : ∀ op, w.pending.lookup h = some op → op.isConnect = false := by
    intro op hp
    by_contra hcon
    exact hc h op hp (by simpa using hcon) hh
  have hchan : ∀ ch, releaseOp (w.pending.lookup h) w.tcpChans ch = w.tcpChans ch :=
    fun ch => congrFun (releaseOp_accept hop w.tcpChans) ch
  have hpend : ∀ x ∉ (closeTouches w (.tcpListenerClose h)).pending,
      (w.pending.erase h).lookup x = w.pending.lookup x := by
    intro x hx
    rw [Table.lookup_erase_if]
    split_ifs with hxh
    · subst hxh
      cases hp : w.pending.lookup x with
      | none => rfl
      | some op =>
        cases op with
        | tcpConnect la pa ch r => cases hop _ hp
        | tcpAccept r => exact absurd ⟨rfl, r, hp⟩ hx
    · rfl
  cases hl : w.listeners.lookup h with
  | none =>
    refine ⟨_, World.handleTcpListenerClose_none hl, ?_, hh, hl, AList.lookup_erase _ _⟩
    exact ⟨fun _ _ => rfl, hpend, fun _ _ => rfl, fun _ _ => rfl, fun _ _ => rfl,
      fun ch _ => hchan ch, fun _ _ => rfl, rfl⟩
  | some l =>
    obtain ⟨m, he, hout, -⟩ := World.handleTcpListenerClose_some (N := N) hl
      (ho.live.listening h l hl) (ho.apart.nodup h l hl)
    refine ⟨_, he, ?_, hh, AList.lookup_erase _ _, AList.lookup_erase _ _⟩
    exact ⟨fun x hx => hout x (fun hmem => hx ⟨l, hl, hmem⟩), hpend,
      fun x hx => AList.lookup_erase_ne hx, fun _ _ => rfl, fun _ _ => rfl,
      fun ch _ => hchan ch, fun _ _ => rfl, rfl⟩

/-- Spec of the three close handlers. -/
theorem handleCommand_close (cfg : StackConfig) (hM : N.TcpMachine) (ho : Owned w)
    (hc : ConnectsApart w) {cmd : StackCommand} (hh : CloseHeld w cmd) :
    ∃ w', w.handleCommand N cfg cmd = .ok w' ∧ ChangesOnly (closeTouches w cmd) w w' ∧
      Shut N w' cmd := by
  cases cmd with
  | tcpClose h => exact handleCommand_tcpClose hM ho hh
  | udpClose h => exact handleCommand_udpClose ho hh
  | tcpListenerClose h => exact handleCommand_tcpListenerClose ho hc hh
  | _ => exact hh.elim

/-- Handling a close command again changes nothing. -/
theorem Shut.handleCommand (hC : N.CloseContract) {cmd : StackCommand} (h : Shut N w cmd)
    (hh : CloseHeld w cmd) :
    ∃ w', w.handleCommand N cfg cmd = .ok w' ∧ ChangesOnly {} w w' := by
  cases cmd with
  | tcpClose k =>
    obtain ⟨s, hs, hdown⟩ := h.down
    have hentry : w.tcpStates.lookup k = none := h.entry
    refine ⟨_, World.handleTcpClose_eq hs, ?_⟩
    rw [hC.close_again s hdown]
    refine ⟨fun x _ => Table.lookup_insert_same hs x, fun _ _ => rfl, fun _ _ => rfl,
      fun x _ => Table.lookup_erase_same hentry x, fun _ _ => rfl, fun ch _ => ?_,
      fun _ _ => rfl, rfl⟩
    change releaseTcpState (w.tcpStates.lookup k) w.tcpChans ch = _
    rw [hentry]
    rfl
  | udpClose k =>
    obtain ⟨s, hs⟩ := h.socket
    have hentry : w.udpStates.lookup k = none := h.entry
    refine ⟨_, World.handleUdpClose_eq hs, ?_⟩
    rw [hC.udpClose_again s]
    refine ⟨fun x _ => Table.lookup_insert_same hs x, fun _ _ => rfl, fun _ _ => rfl,
      fun _ _ => rfl, fun x _ => Table.lookup_erase_same hentry x, fun _ _ => rfl,
      fun ch _ => ?_, rfl⟩
    change releaseUdpState (w.udpStates.lookup k) w.udpChans ch = _
    rw [hentry]
    rfl
  | tcpListenerClose k =>
    have hpend : w.pending.lookup k = none := h.pending
    refine ⟨_, World.handleTcpListenerClose_none h.listener, ?_⟩
    refine ⟨fun _ _ => rfl, fun x _ => Table.lookup_erase_same hpend x, fun _ _ => rfl,
      fun _ _ => rfl, fun _ _ => rfl, fun ch _ => ?_, fun _ _ => rfl, rfl⟩
    change releaseOp (w.pending.lookup k) w.tcpChans ch = _
    rw [hpend]
    rfl
  | _ => exact hh.elim

theorem CloseHeld.mono {cmd : StackCommand} (h : CloseHeld w cmd) (ha : w.answers <+: w'.answers) :
    CloseHeld w' cmd := by
  cases cmd with
  | tcpClose k => exact Gave.mono ha h
  | udpClose k => exact Gave.mono ha h
  | tcpListenerClose k => exact Gave.mono ha h
  | _ => exact h.elim

theorem Shut.withPhase {cmd : StackCommand} (h : Shut N w cmd) (p : Phase) :
    Shut N { w with phase := p } cmd := by
  cases cmd with
  | tcpClose k => exact h
  | udpClose k => exact ⟨h.socket, h.entry⟩
  | tcpListenerClose k => exact ⟨h.held, h.listener, h.pending⟩
  | _ => trivial

/-- The stream under `x` has its socket, its state and its channels as before. -/
def StreamUntouched (x : SocketHandle) (w w' : World T U) : Prop :=
  w'.sockets.lookup x = w.sockets.lookup x ∧ w'.tcpStates.lookup x = w.tcpStates.lookup x ∧
    ∀ st, w.tcpStates.lookup x = some st → w'.tcpChans st.chan = w.tcpChans st.chan

/-- Close commands are isolated: they change nothing but what they name, and closing a listener
leaves every stream that was handed out alone. They are idempotent: handled again, whatever has
happened in between, they change nothing. -/
theorem close_isolated_and_idempotent (N : Smoltcp T U E) (hf : N.FreshHandles)
    (hM : N.TcpMachine) (hC : N.CloseContract) (cfg : StackConfig) (port : UInt16)
    (w : World T U) (h : Reach N cfg port w) (cmd : StackCommand) (hheld : CloseHeld w cmd) :
    (∃ w', w.handleCommand N cfg cmd = .ok w' ∧ ChangesOnly (closeTouches w cmd) w w' ∧
      ∀ k, cmd = .tcpListenerClose k → ∀ x, w.HasStream x → StreamUntouched x w w') ∧
    (∀ w1 w2, w.commands.queue.head? = some cmd → World.step N cfg .command w = some w1 →
      Reachable (World.step N cfg) w1 w2 →
      ∃ w3, w2.handleCommand N cfg cmd = .ok w3 ∧ ChangesOnly {} w2 w3) := by
  have ho := Reach.owned hf h
  have hca := Reach.connectsApart hf h
  constructor
  · obtain ⟨w', hrun, honly, -⟩ := handleCommand_close cfg hM ho hca hheld
    refine ⟨w', hrun, honly, ?_⟩
    rintro k rfl x hx
    have hnot : x ∉ (closeTouches w (.tcpListenerClose k)).sockets := by
      rintro ⟨l, hl, hmem⟩
      exact ho.apart.stream k l hl x hmem hx
    exact ⟨honly.sockets x hnot, honly.tcpStates x id, fun st _ => honly.tcpChans st.chan
      (fun y hy => hy.elim)⟩
  · intro w1 w2 hq hs hrun
    have h1 : Reach N cfg port w1 := .next h trivial hs
    have hheld1 : CloseHeld w1 cmd := hheld.mono (ho.step_transition hf hs).answers
    have hshut : Shut N w1 cmd := by
      obtain ⟨rest, hq⟩ := List.head?_eq_some_iff.mp hq
      obtain ⟨-, rfl⟩ := World.step_command hq hs
      let v : World T U := { w with
        commands := { w.commands with queue := rest }
        received := w.received ++ cmd.response.toList }
      have hq' : w.commands.queue = cmd::({ w.commands with queue := rest } : Chan _).queue := hq
      have hov : Owned v := ho.popCommand hq' _
      have hheldv : CloseHeld v cmd := hheld.mono (List.prefix_refl _)
      obtain ⟨w', he, -, hshut⟩ := handleCommand_close (w := v) cfg hM hov hca hheldv
      rw [he]
      exact hshut.withPhase .startWrite
    obtain ⟨hshut2, hheld2⟩ := (Reach.owned hf h1).run_invariant hf
      (fun v => Shut N v cmd ∧ CloseHeld v cmd) ⟨hshut, hheld1⟩
      (fun u v a hu hp ht => ⟨hp.1.transition hf hM hC hu ht, hp.2.mono ht.answers⟩) hrun
    exact hshut2.handleCommand hC hheld2

end Close

/-- The stream accepted in `acceptRun` has the handle of its listener, which is closed twice. -/
theorem close_isolated_and_idempotent_acceptRun :
    ∃ w w' w1 w3, Reach refNet hostCfg 49152 w ∧ w.HasStream 0 ∧
      w.handleCommand refNet hostCfg (.tcpListenerClose 0) = .ok w' ∧ StreamUntouched 0 w w' ∧
      World.step refNet hostCfg .command w = some w1 ∧
      w1.handleCommand refNet hostCfg (.tcpListenerClose 0) = .ok w3 ∧ ChangesOnly {} w1 w3 := by
  obtain ⟨w, hr, -, hp⟩ := reachable_of_run (World.step refNet hostCfg)
    (acceptRun ++ [.issue (.tcpListenerClose 0)]) (World.init refNet hostCfg 49152)
    (fun w => decide (w.HasStream 0 ∧ w.HasListener 0 ∧
      w.commands.queue.head? = some (.tcpListenerClose 0) ∧
      (World.step refNet hostCfg .command w).isSome = true)) (by decide +kernel)
  obtain ⟨hstream, hlistener, hq, hsome⟩ := of_decide_eq_true hp
  obtain ⟨w1, hs⟩ := Option.isSome_iff_exists.mp hsome
  obtain ⟨⟨w', hrun, -, hkept⟩, hagain⟩ := close_isolated_and_idempotent refNet
    refNet_freshHandles refNet_tcpMachine refNet_closeContract hostCfg 49152 w hr
    (.tcpListenerClose 0) hlistener
  obtain ⟨w3, hrun3, hsame⟩ := hagain w1 w1 hq hs .start
  exact ⟨w, w', w1, w3, hr, hstream, hrun, hkept 0 rfl 0 hstream, hs, hrun3, hsame⟩

end TapTunnel.Stack
