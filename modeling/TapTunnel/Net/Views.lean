import TapTunnel.Net.Reference

namespace TapTunnel

variable {T U E : Type}

namespace Smoltcp

/-- `update_ip_addrs` takes unicast addresses and the unspecified one. -/
def ChecksAddresses (N : Smoltcp T U E) : Prop :=
  ∀ a, N.assignable a = (a.isUnicast || a.isUnspecified)

/-- Sending and receiving do not move the state machine, and `connect` starts a handshake. -/
structure HandshakeContract (N : Smoltcp T U E) : Prop where
  send_state : ∀ s data, N.tcpState (N.sendSlice s data).2 = N.tcpState s
  send_passive : ∀ s data, N.passive (N.sendSlice s data).2 = N.passive s
  recv_state : ∀ s len, N.tcpState (N.recvSlice s len).2 = N.tcpState s
  recv_passive : ∀ s len, N.passive (N.recvSlice s len).2 = N.passive s
  connect_new : ∀ ips remote ep s, N.connect ips N.tcpNew remote ep = .ok s →
    N.tcpState s = .synSent ∧ N.passive s = false

/-- The bytes that a TCP socket has been given to send. `send_slice` adds those that it reports as
taken, and nothing else changes them. -/
structure SentView (N : Smoltcp T U E) where
  sent : T → Bytes
  listen_sent : ∀ ep s, N.listen N.tcpNew ep = .ok s → sent s = []
  connect_sent : ∀ ips remote ep s, N.connect ips N.tcpNew remote ep = .ok s → sent s = []
  send_ok : ∀ s data n s', N.sendSlice s data = (.ok n, s') → sent s' = sent s ++ data.take n
  send_error : ∀ s data s', N.sendSlice s data = (.error (), s') → sent s' = sent s
  recv_sent : ∀ s len, sent (N.recvSlice s len).2 = sent s
  close_sent : ∀ s, sent (N.tcpClose s) = sent s
  process_sent : ∀ e s, sent (N.tcpProcess e s) = sent s

/-- The local port of a TCP socket that is not `Closed`. It is the one given to `listen` or
`connect`, and no segment changes it. -/
structure TcpPorts (N : Smoltcp T U E) where
  localPort : T → Option UInt16
  live : ∀ s, localPort s = none ↔ N.tcpState s = .closed
  listen_port : ∀ ep s, N.listen N.tcpNew ep = .ok s → localPort s = some ep.port
  connect_port : ∀ ips remote ep s, N.connect ips N.tcpNew remote ep = .ok s →
    localPort s = some ep.port
  send_port : ∀ s data, localPort (N.sendSlice s data).2 = localPort s
  recv_port : ∀ s len, localPort (N.recvSlice s len).2 = localPort s
  close_port : ∀ s, localPort (N.tcpClose s) = localPort s ∨ localPort (N.tcpClose s) = none
  process_port : ∀ e s,
    localPort (N.tcpProcess e s) = localPort s ∨ localPort (N.tcpProcess e s) = none

/-- What a UDP socket is bound to and holds. `send_slice` refuses destinations that cannot be
addressed, but not those of another family than the socket's own address. `recv_slice` takes the
oldest datagram, and drops it if the buffer is too short. -/
structure UdpView (N : Smoltcp T U E) where
  endpoint : U → Option IpListenEndpoint
  rx : U → List (Bytes × IpEndpoint)
  tx : U → List (Bytes × IpEndpoint)
  bind_ok : ∀ ep, ep.port ≠ 0 → ∃ s, N.udpBind N.udpNew ep = .ok s
  bind_new : ∀ ep s, N.udpBind N.udpNew ep = .ok s →
    endpoint s = some ep ∧ rx s = [] ∧ tx s = []
  send_ok : ∀ s data dest s', N.udpSendSlice s data dest = (.ok (), s') →
    endpoint s' = endpoint s ∧ rx s' = rx s ∧ tx s' = tx s ++ [(data, dest)]
  send_error : ∀ s data dest s', N.udpSendSlice s data dest = (.error (), s') → s' = s
  send_refused : ∀ s data dest, dest.port = 0 ∨ dest.addr.isUnspecified = true →
    (N.udpSendSlice s data dest).1 = .error ()
  canRecv_iff : ∀ s, N.udpCanRecv s = true ↔ rx s ≠ []
  recv : ∀ s d rest len, rx s = d::rest → ∃ s',
    N.udpRecvSlice s len = (if d.1.length ≤ len then .ok d else .error (), s') ∧
      endpoint s' = endpoint s ∧ rx s' = rest ∧ tx s' = tx s
  close_empty : ∀ s, endpoint (N.udpClose s) = none ∧ rx (N.udpClose s) = [] ∧
    tx (N.udpClose s) = []
  process_view : ∀ e s, endpoint (N.udpProcess e s) = endpoint s ∧
    rx s <+: rx (N.udpProcess e s) ∧ tx (N.udpProcess e s) <:+ tx s

/-- Sending never changes what the socket is bound to. -/
theorem UdpView.send_endpoint {N : Smoltcp T U E} (V : N.UdpView) (s : U) (data : Bytes)
    (dest : IpEndpoint) : V.endpoint (N.udpSendSlice s data dest).2 = V.endpoint s := by
  obtain ⟨res, s', h⟩ : ∃ res s', N.udpSendSlice s data dest = (res, s') := ⟨_, _, rfl⟩
  rw [h]
  cases res with
  | ok u => exact (V.send_ok s data dest s' h).1
  | error u => rw [V.send_error s data dest s' h]

end Smoltcp

namespace Reference

theorem refNet_checksAddresses : refNet.ChecksAddresses := by
  intro a
  cases a with
  | ipv4 a =>
    by_cases h0 : a = 0
    · subst h0
      decide
    · have hu : (a == 0) = false := beq_false_of_ne h0
      change (!(a >>> 28 == 14) && !(a == BitVec.allOnes 32)) =
        (!((a == BitVec.allOnes 32) || (a >>> 28 == 14) || (a == 0)) || (a == 0))
      rw [hu, Bool.or_false, Bool.or_false, Bool.not_or, Bool.and_comm]
  | ipv6 a =>
    by_cases h0 : a = 0
    · subst h0
      decide
    · have hu : (a == 0) = false := beq_false_of_ne h0
      change (!(a >>> 120 == 255)) = (!(false || (a >>> 120 == 255) || (a == 0)) || (a == 0))
      rw [hu, Bool.or_false, Bool.or_false, Bool.false_or]

theorem refNet_handshakeContract : refNet.HandshakeContract where
  send_state s data := by
    change (RefTcp.sendSlice s data).2.state = s.state
    unfold RefTcp.sendSlice
    split_ifs <;> rfl
  send_passive s data := by
    change (RefTcp.sendSlice s data).2.passive = s.passive
    unfold RefTcp.sendSlice
    split_ifs <;> rfl
  recv_state s len := by
    change (RefTcp.recvSlice s len).2.state = s.state
    unfold RefTcp.recvSlice
    split_ifs <;> rfl
  recv_passive s len := by
    change (RefTcp.recvSlice s len).2.passive = s.passive
    unfold RefTcp.recvSlice
    split_ifs <;> rfl
  connect_new ips remote ep s h := by
    change RefTcp.connect refNet.tcpNew remote ep = _ at h
    unfold RefTcp.connect at h
    split_ifs at h
    obtain rfl := Except.ok.inj h
    exact ⟨rfl, rfl⟩

theorem RefTcp.process_sent (e : RefEvent) (s : RefTcp) : (process e s).sent = s.sent := by
  cases e with
  | syn l r =>
    rcases process_syn l r s with he | ⟨-, -, he⟩ | ⟨-, he⟩
    all_goals
      rw [he]
  | _ =>
    obtain ⟨state, passive, tx, rx, l, r, sent⟩ := s
    cases state <;> cases passive <;> rfl

def refSentView : refNet.SentView where
  sent s := s.sent
  listen_sent ep s h := by
    change RefTcp.listen refNet.tcpNew ep = _ at h
    unfold RefTcp.listen at h
    split_ifs at h
    obtain rfl := Except.ok.inj h
    rfl
  connect_sent ips remote ep s h := by
    change RefTcp.connect refNet.tcpNew remote ep = _ at h
    unfold RefTcp.connect at h
    split_ifs at h
    obtain rfl := Except.ok.inj h
    rfl
  send_ok s data n s' h := by
    change RefTcp.sendSlice s data = _ at h
    unfold RefTcp.sendSlice at h
    split_ifs at h
    · obtain ⟨hn, rfl⟩ := Prod.mk.inj h
      obtain rfl := Except.ok.inj hn
      rfl
    · cases congrArg Prod.fst h
  send_error s data s' h := by
    change RefTcp.sendSlice s data = _ at h
    unfold RefTcp.sendSlice at h
    split_ifs at h
    · cases congrArg Prod.fst h
    · obtain rfl : s = s' := congrArg Prod.snd h
      rfl
  recv_sent s len := by
    change (RefTcp.recvSlice s len).2.sent = s.sent
    unfold RefTcp.recvSlice
    split_ifs <;> rfl
  close_sent _ := rfl
  process_sent := RefTcp.process_sent

def RefTcp.localPort (s : RefTcp) : Option UInt16 :=
  if s.state = .closed then none else some s.localEp.port

theorem RefTcp.localPort_live (s : RefTcp) : s.localPort = none ↔ s.state = .closed := by
  unfold localPort
  split_ifs with h <;> simp [h]

/-- A change of state keeps the port or closes the socket. -/
theorem RefTcp.localPort_keep {s s' : RefTcp} (hep : s'.localEp.port = s.localEp.port)
    (hc : s.state = .closed → s'.state = .closed) :
    s'.localPort = s.localPort ∨ s'.localPort = none := by
  by_cases h' : s'.state = .closed
  · exact .inr (s'.localPort_live.mpr h')
  · have h : ¬s.state = .closed := fun h => h' (hc h)
    left
    rw [localPort, localPort, if_neg h, if_neg h', hep]

theorem RefTcp.process_localPort (e : RefEvent) (s : RefTcp) :
    (process e s).localPort = s.localPort ∨ (process e s).localPort = none := by
  apply localPort_keep
  · cases e with
    | syn l r =>
      rcases process_syn l r s with he | ⟨-, hp, he⟩ | ⟨-, he⟩
      · rw [he]
      · rw [he]
        exact hp
      · rw [he]
    | _ =>
      obtain ⟨state, passive, tx, rx, l, r, sent⟩ := s
      cases state <;> cases passive <;> rfl
  · intro hs
    obtain ⟨state, passive, tx, rx, l, r, sent⟩ := s
    obtain rfl : state = .closed := hs
    cases e <;> cases passive <;> rfl

def refPorts : refNet.TcpPorts where
  localPort := RefTcp.localPort
  live := RefTcp.localPort_live
  listen_port ep s h := by
    change RefTcp.listen refNet.tcpNew ep = _ at h
    unfold RefTcp.listen at h
    split_ifs at h
    obtain rfl := Except.ok.inj h
    rfl
  connect_port ips remote ep s h := by
    change RefTcp.connect refNet.tcpNew remote ep = _ at h
    unfold RefTcp.connect at h
    split_ifs at h
    obtain rfl := Except.ok.inj h
    rfl
  send_port s data := by
    change (RefTcp.sendSlice s data).2.localPort = s.localPort
    unfold RefTcp.sendSlice
    split_ifs <;> rfl
  recv_port s len := by
    change (RefTcp.recvSlice s len).2.localPort = s.localPort
    unfold RefTcp.recvSlice
    split_ifs <;> rfl
  close_port s := by
    apply RefTcp.localPort_keep
    · rfl
    · intro h
      change s.state.onClose = .closed
      rw [h]
      rfl
  process_port := RefTcp.process_localPort

def refUdpView : refNet.UdpView where
  endpoint s := s.bound
  rx s := s.rx
  tx s := s.tx
  bind_ok ep h := ⟨_, if_neg h⟩
  bind_new ep s h := by
    change RefUdp.bind refNet.udpNew ep = _ at h
    unfold RefUdp.bind at h
    split_ifs at h
    obtain rfl := Except.ok.inj h
    exact ⟨rfl, rfl, rfl⟩
  send_ok s data dest s' h := by
    change RefUdp.sendSlice s data dest = _ at h
    unfold RefUdp.sendSlice at h
    split_ifs at h
    · obtain rfl := congrArg Prod.snd h
      exact ⟨rfl, rfl, rfl⟩
    · cases congrArg Prod.fst h
  send_error s data dest s' h := by
    change RefUdp.sendSlice s data dest = _ at h
    unfold RefUdp.sendSlice at h
    split_ifs at h
    · cases congrArg Prod.fst h
    · exact (congrArg Prod.snd h).symm
  send_refused s data dest h := by
    change (RefUdp.sendSlice s data dest).1 = _
    unfold RefUdp.sendSlice
    rw [if_neg]
    intro hc
    rcases h with h | h
    · exact hc.2.1 h
    · rw [hc.2.2] at h
      cases h
  canRecv_iff s := by
    change (!s.rx.isEmpty) = true ↔ s.rx ≠ []
    simp
  recv s d rest len h := by
    refine ⟨{ s with rx := rest }, ?_, rfl, rfl, rfl⟩
    change RefUdp.recvSlice s len = _
    unfold RefUdp.recvSlice
    rw [show s.rx = d::rest from h]
  close_empty _ := ⟨rfl, rfl, rfl⟩
  process_view e s := by
    change (RefUdp.process e s).bound = s.bound ∧ s.rx <+: (RefUdp.process e s).rx ∧
      (RefUdp.process e s).tx <:+ s.tx
    cases e with
    | datagram bytes source =>
      simp only [RefUdp.process]
      split_ifs
      · exact ⟨rfl, List.prefix_append _ _, List.suffix_refl _⟩
      · exact ⟨rfl, List.prefix_refl _, List.suffix_refl _⟩
    | sent => exact ⟨rfl, List.prefix_refl _, List.drop_suffix 1 s.tx⟩
    | _ => exact ⟨rfl, List.prefix_refl _, List.suffix_refl _⟩

end Reference

end TapTunnel
