import TapTunnel.Net.Smoltcp

namespace TapTunnel.Reference

/-- A TCP socket reduced to its state, its two buffers, its endpoints and the bytes it has been
given to send. The endpoints have a meaning only while there is a connection, except for the port of
a listening socket. -/
structure RefTcp where
  state : TcpState
  passive : Bool
  tx : Bytes
  rx : Bytes
  localEp : IpEndpoint
  remoteEp : IpEndpoint
  sent : Bytes
  deriving DecidableEq, Repr

structure RefUdp where
  bound : Option IpListenEndpoint
  tx : List (Bytes × IpEndpoint)
  rx : List (Bytes × IpEndpoint)
  deriving DecidableEq, Repr

/-- Segments that reach a socket, with what they bring, and the passing of time. -/
inductive RefEvent
  | syn (localEp remoteEp : IpEndpoint)
  | ack (n : Nat)
  | data (bytes : Bytes)
  | fin
  | rst
  | timer
  | datagram (bytes : Bytes) (source : IpEndpoint)
  | sent
  deriving DecidableEq, Repr

def bufferSize : Nat := 65535

/-- The least index that is not in use. -/
def firstFree (live : List SocketHandle) : SocketHandle :=
  ((List.range (live.length + 1)).find? (fun i => !live.contains i)).getD 0

def RefEvent.kind : RefEvent → EventKind
  | .syn _ _ => .syn
  | .fin => .fin
  | .rst => .rst
  | .timer => .timer
  | .ack _ | .data _ | .datagram _ _ | .sent => .plain

namespace RefTcp

def maySend (s : RefTcp) : Bool := s.state == .established || s.state == .closeWait

def mayRecv (s : RefTcp) : Bool :=
  s.state == .established || s.state == .finWait1 || s.state == .finWait2 || !s.rx.isEmpty

def txFree (s : RefTcp) : Nat := bufferSize - s.tx.length

def sendSlice (s : RefTcp) (data : Bytes) : Except Unit Nat × RefTcp :=
  if s.maySend then
    let n := min data.length s.txFree
    (.ok n, { s with tx := s.tx ++ data.take n, sent := s.sent ++ data.take n })
  else (.error (), s)

def recvSlice (s : RefTcp) (len : Nat) : Except Unit Bytes × RefTcp :=
  if s.mayRecv then (.ok (s.rx.take len), { s with rx := s.rx.drop len }) else (.error (), s)

def listen (s : RefTcp) (ep : IpListenEndpoint) : Except String RefTcp :=
  if ep.port = 0 then .error "Unaddressable"
  else if s.state ≠ .closed then .error "InvalidState"
  else .ok { s with
    state := .listen
    passive := true
    localEp := ⟨ep.addr.getD s.localEp.addr, ep.port⟩ }

def connect (s : RefTcp) (remote : IpEndpoint) (localEp : IpListenEndpoint) :
    Except String RefTcp :=
  if s.state ≠ .closed then .error "InvalidState"
  else if remote.port = 0 ∨ localEp.port = 0 then .error "Unaddressable"
  else .ok { s with
    state := .synSent
    localEp := ⟨localEp.addr.getD s.localEp.addr, localEp.port⟩
    remoteEp := remote }

/-- There are endpoints: the socket is neither closed nor waiting for a peer. -/
def connected (s : RefTcp) : Bool := s.state != .closed && s.state != .listen

def close (s : RefTcp) : RefTcp := { s with state := s.state.onClose }

/-- State after an acknowledgement that covers everything sent. -/
def onAck : TcpState → TcpState
  | .synReceived => .established
  | .finWait1 => .finWait2
  | .closing => .timeWait
  | .lastAck => .closed
  | s => s

def onFin : TcpState → TcpState
  | .synReceived | .established => .closeWait
  | .finWait1 => .closing
  | .finWait2 => .timeWait
  | s => s

def process (e : RefEvent) (s : RefTcp) : RefTcp :=
  match e with
  | .syn l r =>
    match s.state with
    | .listen =>
      -- a segment for another port does not reach the socket
      if l.port = s.localEp.port then
        { s with state := .synReceived, localEp := l, remoteEp := r }
      else s
    | .synSent => { s with state := .established, remoteEp := r }
    | _ => s
  | .ack n => { s with state := onAck s.state, tx := s.tx.drop n }
  | .data bytes =>
    if s.state = .established ∨ s.state = .finWait1 ∨ s.state = .finWait2 then
      { s with rx := s.rx ++ bytes.take (bufferSize - s.rx.length) }
    else s
  | .fin => { s with state := onFin s.state }
  | .rst =>
    match s.state, s.passive with
    | .listen, _ => s
    | .synReceived, true => { s with state := .listen }
    | _, _ => { s with state := .closed }
  | .timer => if s.state = .timeWait then { s with state := .closed } else s
  | .datagram _ _ | .sent => s

end RefTcp

namespace RefUdp

def bind (s : RefUdp) (ep : IpListenEndpoint) : Except String RefUdp :=
  if ep.port = 0 then .error "Unaddressable"
  else if s.bound.isSome then .error "InvalidState"
  else .ok { s with bound := some ep }

def sendSlice (s : RefUdp) (data : Bytes) (dest : IpEndpoint) : Except Unit Unit × RefUdp :=
  if s.bound.isSome ∧ dest.port ≠ 0 ∧ dest.addr.isUnspecified = false then
    (.ok (), { s with tx := s.tx ++ [(data, dest)] })
  else (.error (), s)

/-- A datagram that is too long for the buffer is dropped. -/
def recvSlice (s : RefUdp) (len : Nat) : Except Unit (Bytes × IpEndpoint) × RefUdp :=
  match s.rx with
  | [] => (.error (), s)
  | d::rx => (if d.1.length ≤ len then .ok d else .error (), { s with rx := rx })

def process (e : RefEvent) (s : RefUdp) : RefUdp :=
  match e with
  | .datagram bytes source =>
    if s.bound.isSome then { s with rx := s.rx ++ [(bytes, source)] } else s
  | .sent => { s with tx := s.tx.drop 1 }
  | _ => s

end RefUdp

/-- Addresses an interface may have: no broadcast and no multicast address. -/
def assignable : IpAddress → Bool
  | .ipv4 a => a >>> 28 != 14 && a != BitVec.allOnes 32
  | .ipv6 a => a >>> 120 != 255

/-- A small network stack with the behaviour that the contracts describe. -/
def refNet : Smoltcp RefTcp RefUdp RefEvent where
  fresh := firstFree
  tcpNew := ⟨.closed, false, [], [], ⟨.ipv4 0, 0⟩, ⟨.ipv4 0, 0⟩, []⟩
  tcpState s := s.state
  maySend := RefTcp.maySend
  canSend s := s.maySend && decide (0 < s.txFree)
  canRecv s := !s.rx.isEmpty
  txFree := RefTcp.txFree
  rxBuf s := s.rx
  passive s := s.passive
  sendSlice := RefTcp.sendSlice
  recvSlice := RefTcp.recvSlice
  listen := RefTcp.listen
  connect _ := RefTcp.connect
  tcpClose := RefTcp.close
  localEndpoint s := if s.connected then some s.localEp else none
  remoteEndpoint s := if s.connected then some s.remoteEp else none
  udpNew := ⟨none, [], []⟩
  udpBind := RefUdp.bind
  udpCanSend s := decide (s.tx.length < 64)
  udpCanRecv s := !s.rx.isEmpty
  udpSendSlice := RefUdp.sendSlice
  udpRecvSlice := RefUdp.recvSlice
  udpClose _ := ⟨none, [], []⟩
  assignable := assignable
  kind := RefEvent.kind
  tcpProcess := RefTcp.process
  udpProcess := RefUdp.process

/-- Among one more indices than there are live handles, one is free. -/
theorem refNet_freshHandles : refNet.FreshHandles := by
  intro live
  change firstFree live ∉ live
  cases hf : (List.range (live.length + 1)).find? (fun i => !live.contains i) with
  | some i =>
    have hi := List.find?_some hf
    simp only [firstFree, hf, Option.getD_some]
    simpa using hi
  | none =>
    have hall : ∀ i ∈ List.range (live.length + 1), i ∈ live := by
      simpa using List.find?_eq_none.mp hf
    have hle := (List.nodup_range.subperm hall).length_le
    rw [List.length_range] at hle
    omega

theorem RefTcp.sendSlice_of_maySend {s : RefTcp} (data : Bytes) (h : s.maySend = true) :
    s.sendSlice data = (.ok (min data.length s.txFree), { s with
      tx := s.tx ++ data.take (min data.length s.txFree)
      sent := s.sent ++ data.take (min data.length s.txFree) }) :=
  if_pos h

theorem refNet_sendContract : refNet.SendContract where
  send_ok s data h := congrArg Prod.fst (RefTcp.sendSlice_of_maySend data h)
  send_err s data h := by
    have hn : ¬s.maySend = true := by
      rw [show s.maySend = false from h]
      simp
    exact congrArg Prod.fst (if_neg hn)
  send_maySend s data h := by
    change (RefTcp.sendSlice s data).2.maySend = true
    rw [RefTcp.sendSlice_of_maySend data h]
    exact h
  send_txFree s data h := by
    change (RefTcp.sendSlice s data).2.txFree = s.txFree - min data.length s.txFree
    rw [RefTcp.sendSlice_of_maySend data h]
    simp only [RefTcp.txFree, List.length_append, List.length_take]
    omega
  canSend_iff s := by
    change (s.maySend && decide (0 < s.txFree)) = true ↔ s.maySend = true ∧ 0 < s.txFree
    simp

/-- A SYN is taken by a listening socket on its port, and as the answer to a connect. -/
theorem RefTcp.process_syn (l r : IpEndpoint) (s : RefTcp) :
    process (.syn l r) s = s ∨
    (s.state = .listen ∧ l.port = s.localEp.port ∧ process (.syn l r) s =
      { s with state := .synReceived, localEp := l, remoteEp := r }) ∨
    (s.state = .synSent ∧ process (.syn l r) s =
      { s with state := .established, remoteEp := r }) := by
  simp only [process]
  split
  · next hs =>
    split_ifs with hp
    · exact .inr (.inl ⟨hs, hp, rfl⟩)
    · exact .inl rfl
  · next hs => exact .inr (.inr ⟨hs, rfl⟩)
  · exact .inl rfl

theorem RefTcp.process_rx (e : RefEvent) (s : RefTcp) : s.rx <+: (process e s).rx := by
  cases e with
  | syn l r =>
    rcases process_syn l r s with he | ⟨-, -, he⟩ | ⟨-, he⟩
    all_goals
      rw [he]
  | data bytes =>
    simp only [process]
    split_ifs
    · exact List.prefix_append _ _
    · exact List.prefix_refl _
  | _ =>
    obtain ⟨state, passive, tx, rx, l, r, sent⟩ := s
    cases state <;> cases passive <;> exact List.prefix_refl _

theorem refNet_recvContract : refNet.RecvContract where
  recv_ok s len h hlen := by
    have hne : s.rx ≠ [] := by simpa [refNet] using h
    have hmay : s.mayRecv = true := by simp [RefTcp.mayRecv, hne]
    refine ⟨_, _, if_pos hmay, ?_, List.length_take_le _ _, (List.take_append_drop len s.rx).symm⟩
    simp only [ne_eq, List.take_eq_nil_iff, not_or]
    exact ⟨by omega, hne⟩
  send_rx s data := by
    change (RefTcp.sendSlice s data).2.rx = s.rx
    unfold RefTcp.sendSlice
    split_ifs <;> rfl
  close_rx _ := rfl
  listen_rx ep s h := by
    change RefTcp.listen refNet.tcpNew ep = _ at h
    unfold RefTcp.listen at h
    split_ifs at h
    exact (congrArg RefTcp.rx (Except.ok.inj h)).symm
  connect_rx ips remote ep s h := by
    change RefTcp.connect refNet.tcpNew remote ep = _ at h
    unfold RefTcp.connect at h
    split_ifs at h
    exact (congrArg RefTcp.rx (Except.ok.inj h)).symm
  process_rx e s := .inl (RefTcp.process_rx e s)

theorem RefTcp.process_moves (e : RefEvent) (s : RefTcp) :
    TcpState.moves s.passive e.kind s.state (process e s).state = true := by
  cases e with
  | syn l r =>
    rcases process_syn l r s with he | ⟨hs, -, he⟩ | ⟨hs, he⟩
    · rw [he]
      simp [TcpState.moves]
    · rw [he, hs]
      rfl
    · rw [he, hs]
      rfl
  | _ =>
    obtain ⟨state, passive, tx, rx, l, r, sent⟩ := s
    cases state <;> cases passive <;> rfl

theorem RefTcp.process_passive (e : RefEvent) (s : RefTcp) :
    (process e s).passive = s.passive := by
  cases e with
  | syn l r =>
    rcases process_syn l r s with he | ⟨-, -, he⟩ | ⟨-, he⟩
    all_goals
      rw [he]
  | _ =>
    obtain ⟨state, passive, tx, rx, l, r, sent⟩ := s
    cases state <;> cases passive <;> rfl

theorem refNet_tcpMachine : refNet.TcpMachine where
  listen_ok ep h := ⟨_, if_neg h, rfl, rfl⟩
  close_state _ := rfl
  process_state := RefTcp.process_moves
  process_passive := RefTcp.process_passive
  established_remote s h := by
    have hs : s.state = .established := h
    exact ⟨s.remoteEp, if_pos (by simp [RefTcp.connected, hs])⟩

theorem refNet_closeContract : refNet.CloseContract where
  close_again s h := by
    have hs : s.state.onClose = s.state := TcpState.onClose_of_closingDown h
    change RefTcp.close s = s
    rw [RefTcp.close, hs]
  udpClose_again _ := rfl
  udpProcess_closed e _ := by
    cases e <;> rfl

end TapTunnel.Reference
