import TapTunnel.Net.Reference
import TapTunnel.Stack.StepCases

namespace TapTunnel.Stack

open Framework Reference

variable {T U E : Type}

/-- Only a bad interface address makes the task panic. -/
theorem Reach.panic_ofAddress {N : Smoltcp T U E} (hf : N.FreshHandles) {cfg : StackConfig}
    {port : UInt16} {w : World T U} (h : Reach N cfg port w) :
    ∀ p, w.phase = .panicked p → p.ofAddress := by
  refine h.invariant_with _ (fun w => ∀ p, w.phase = .panicked p → p.ofAddress) Owned
    (fun _ hr => Reach.owned hf hr) ?_ ?_
  · obtain ⟨ips, p, he, hp⟩ := init_cases N cfg port
    rw [he]
    rcases hp with rfl | ⟨q, hq, rfl⟩
    · nofun
    · rintro _ ⟨⟩
      exact hq
  · intro s t a ho ih _ hs
    cases ho.step_transition hf hs with
    | env he =>
      rw [(World.envStep_frame he).phase]
      exact ih
    | control p notify hp hw => exact hp
    | tcpEvent => exact ih
    | udpEvent => exact ih
    | command => nofun
    | writeTcp => nofun
    | writeUdp => nofun
    | readTcp => nofun
    | readUdp => nofun
    | pending => nofun
    | fail => nofun

theorem Panic.ofAddress.not_handle {p : Panic} (h : p.ofAddress) (k : SocketHandle) :
    p ≠ .missingSocket k ∧ p ≠ .wrongSocketType k := by
  rcases h with rfl | rfl <;> simp

/-- In every reachable state the maps of the stack refer to live sockets of the right type,
no socket has two owners, pending operations have the entries they rely on, and no lookup in
the socket set has failed. -/
theorem handles_owned (N : Smoltcp T U E) (hf : N.FreshHandles) (cfg : StackConfig)
    (port : UInt16) (w : World T U) (h : Reach N cfg port w) :
    ((∀ k ∈ w.tcpStates.keys, LiveTcp w.sockets k) ∧
      (∀ k x, w.Listening k x → LiveTcp w.sockets x) ∧
      (∀ k ∈ w.udpStates.keys, LiveUdp w.sockets k) ∧
      (∀ k, w.HasStream k → LiveTcp w.sockets k) ∧
      (∀ k, w.HasListener k → LiveTcp w.sockets k) ∧
      (∀ k, w.HasUdp k → LiveUdp w.sockets k) ∧
      (∀ k, w.phase ≠ .panicked (.missingSocket k) ∧ w.phase ≠ .panicked (.wrongSocketType k))) ∧
    ((∀ k ∈ w.tcpStates.keys, k ∉ w.udpStates.keys) ∧
      (∀ k x, w.Listening k x → x ∉ w.tcpStates.keys ∧ x ∉ w.udpStates.keys) ∧
      (∀ k l, w.listeners.lookup k = some l → l.listeningHandles.Nodup) ∧
      (∀ k k' x, w.Listening k x → w.Listening k' x → k = k')) ∧
    ((∀ k la pa ch r, w.pending.lookup k = some (.tcpConnect la pa ch r) →
        k ∈ w.tcpStates.keys ∧ k ∉ w.listeners.keys) ∧
      (∀ k r, w.pending.lookup k = some (.tcpAccept r) → k ∈ w.listeners.keys)) := by
  have ho := Reach.owned hf h
  have htcp : ∀ k ∈ w.tcpStates.keys, LiveTcp w.sockets k := by
    intro k hk
    obtain ⟨st, hst⟩ := (Table.mem_keys_iff _ _).mp hk
    exact ho.live.tcp k st hst
  have hudp : ∀ k ∈ w.udpStates.keys, LiveUdp w.sockets k := by
    intro k hk
    obtain ⟨st, hst⟩ := (Table.mem_keys_iff _ _).mp hk
    exact ho.live.udp k st hst
  refine ⟨⟨htcp, fun k x ⟨l, hl, hx⟩ => ho.live.listening k l hl x hx, hudp, ho.live.stream,
    ho.live.gaveListener, ho.live.gaveUdp, ?_⟩, ⟨?_, ?_, ho.apart.nodup, ?_⟩, ?_, ?_⟩
  · intro k
    refine ⟨fun hp => ?_, fun hp => ?_⟩
    · exact ((Reach.panic_ofAddress hf h _ hp).not_handle k).1 rfl
    · exact ((Reach.panic_ofAddress hf h _ hp).not_handle k).2 rfl
  · exact fun k hk hu => (htcp k hk).not_udp (hudp k hu)
  · rintro k x ⟨l, hl, hx⟩
    refine ⟨fun hk => ?_, fun hk => (ho.live.listening k l hl x hx).not_udp (hudp x hk)⟩
    obtain ⟨st, hst⟩ := (Table.mem_keys_iff _ _).mp hk
    rw [ho.apart.tcp k l hl x hx] at hst
    cases hst
  · rintro k k' x ⟨l, hl, hx⟩ ⟨l', hl', hx'⟩
    by_contra hne
    exact ho.apart.inj k l hl x hx ⟨k', l', Ne.symm hne, hl', hx'⟩
  · intro k la pa ch r hp
    obtain ⟨hst, hl⟩ := ho.keys.connect k _ hp rfl
    refine ⟨(Table.mem_keys_iff _ _).mpr hst, fun hk => ?_⟩
    obtain ⟨l, hl'⟩ := (Table.mem_keys_iff _ _).mp hk
    rw [hl] at hl'
    cases hl'
  · exact fun k r hp => (Table.mem_keys_iff _ _).mpr (ho.keys.accept k _ hp rfl)

/-- Address and prefix of the stack in the runs over the reference network. -/
def hostCfg : StackConfig := ⟨.v4 0x0a000002, 24⟩

def serverAddr : SocketAddr := .v4 0x0a000002 8080

def serverEp : IpEndpoint := ⟨.ipv4 0x0a000002, 8080⟩

def peerEp : IpEndpoint := ⟨.ipv4 0x0a000001, 50000⟩

/-- One iteration of the loop after its select, with the given socket orders and events.
`pend` is the order in which pending operations are visited, if they are. -/
def iteration (tcp : List SocketHandle) (events : List (SocketHandle × RefEvent))
    (pend : Option (List SocketHandle)) : List (Action RefEvent) :=
  .flatten [[.beginWrite tcp []], List.replicate tcp.length .writeTcp, [.endWrite],
    events.map (fun e => .tcpEvent e.1 e.2), [.endPoll pend.isSome, .beginRead tcp []],
    List.replicate tcp.length .readTcp,
    [.endRead, pend.elim .skipPending fun order => .pending order, .checkDead]]

/-- A listener with backlog `b` is created. -/
def listenRun (b : Nat) : List (Action RefEvent) :=
  .issue (.tcpListen serverAddr b 0)::.command::iteration [] [] none

/-- A listener with backlog 1 gets a connection, which a waiting accept hands out. -/
def acceptRun : List (Action RefEvent) :=
  listenRun 1 ++ .issue (.tcpAccept 0 1)::.command::
    iteration [] [(0, .syn serverEp peerEp), (0, .ack 0)] (some [0])

/-- The first listening socket has become a stream, and is still live. -/
theorem handles_owned_acceptRun :
    ∃ w, Reach refNet hostCfg 49152 w ∧ w.HasStream 0 ∧ LiveTcp w.sockets 0 := by
  obtain ⟨w, hr, -, hp⟩ := reachable_of_run (World.step refNet hostCfg) acceptRun
    (World.init refNet hostCfg 49152) (fun w => decide (w.HasStream 0)) (by decide +kernel)
  have hs : w.HasStream 0 := of_decide_eq_true hp
  have ho := handles_owned refNet refNet_freshHandles hostCfg 49152 w hr
  exact ⟨w, hr, hs, ho.1.2.2.2.1 0 hs⟩

end TapTunnel.Stack
