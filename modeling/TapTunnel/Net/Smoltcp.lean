import TapTunnel.Net.Addr

namespace TapTunnel

abbrev SocketHandle := Nat

inductive TcpState
  | closed
  | listen
  | synSent
  | synReceived
  | established
  | finWait1
  | finWait2
  | closeWait
  | closing
  | lastAck
  | timeWait
  deriving DecidableEq, Repr

/-- What reaches a TCP socket while the interface is polled: the control bits of a
segment, or the socket's own timers during egress. -/
inductive EventKind
  | plain
  | syn
  | fin
  | rst
  | timer
  deriving DecidableEq, Repr

namespace TcpState

/-- Effect of `tcp::Socket::close` on the state. -/
def onClose : TcpState → TcpState
  | listen | synSent => closed
  | synReceived | established => finWait1
  | closeWait => lastAck
  | s => s

/-- The transmit half is closed: the socket is dead or on its way there, and no
segment can bring it back to a state that serves a peer. -/
def closingDown : TcpState → Bool
  | finWait1 | finWait2 | closing | lastAck | timeWait | closed => true
  | _ => false

/-- State changes a segment without SYN, FIN or RST may cause. -/
def movesPlain : TcpState → TcpState → Bool
  | synReceived, established | finWait1, finWait2 | closing, timeWait | lastAck, closed => true
  | _, _ => false

/-- The documented TCP state machine: `moves passive k a b` when an event of kind `k` may take
a socket from `a` to `b`. A FIN that is not yet in order counts as a plain segment. A reset
in `SynReceived` brings a socket that came from `listen` back to `Listen`. -/
def moves (passive : Bool) (k : EventKind) (a b : TcpState) : Bool :=
  a == b ||
  match k, a, b with
  | .plain, a, b => movesPlain a b
  | .syn, listen, synReceived | .syn, synSent, synReceived | .syn, synSent, established => true
  | .fin, synReceived, closeWait | .fin, established, closeWait => true
  | .fin, finWait1, closing | .fin, finWait1, timeWait | .fin, finWait2, timeWait => true
  | .fin, a, b => movesPlain a b
  | .rst, synReceived, listen => passive
  | .rst, synReceived, closed => !passive
  | .rst, synReceived, _ | .rst, listen, _ => false
  | .rst, _, closed => true
  | .timer, timeWait, closed => true
  | _, _, _ => false

/-- States of a socket that waits in a backlog and has not been handed out. -/
def inBacklog : TcpState → Bool
  | listen | synReceived | established | closeWait => true
  | _ => false

/-- The handshake is complete and the connection can still be served. -/
def usable : TcpState → Bool
  | established | closeWait => true
  | _ => false

def handshaking : TcpState → Bool
  | synSent | synReceived => true
  | _ => false

/-- States of a socket that was opened by `connect` and that its owner has not closed. -/
def connecting : TcpState → Bool
  | synSent | synReceived | established | closeWait | closed => true
  | _ => false

/-- The peer has finished sending, or the connection is gone. -/
def recvOver : TcpState → Bool
  | closeWait | lastAck | closing | timeWait | closed => true
  | _ => false

theorem moves_closingDown {p : Bool} {k : EventKind} {a b : TcpState}
    (h : moves p k a b = true) (ha : a.closingDown = true) : b.closingDown = true := by
  cases p <;> cases k <;> cases a <;> cases b <;> revert h ha <;> decide

theorem closingDown_onClose (a : TcpState) : a.onClose.closingDown = true := by
  cases a <;> rfl

theorem onClose_of_closingDown {a : TcpState} (ha : a.closingDown = true) : a.onClose = a := by
  cases a <;> revert ha <;> decide

theorem not_inBacklog_of_closingDown {a : TcpState} (ha : a.closingDown = true) :
    ¬a.inBacklog = true := by
  cases a <;> revert ha <;> decide

/-- Backlog sockets only ever leave the backlog states by dying. -/
theorem moves_inBacklog {p : Bool} {k : EventKind} {a b : TcpState} (h : moves p k a b = true)
    (ha : a.inBacklog = true ∨ a = closed) : b.inBacklog = true ∨ b = closed := by
  cases p <;> cases k <;> cases a <;> cases b <;> revert h ha <;> decide

/-- Without a reset on a completed connection a backlog socket does not die. -/
theorem moves_inBacklog_of_not_rst {k : EventKind} {a b : TcpState} (h : moves true k a b = true)
    (ha : a.inBacklog = true) (hk : ¬(k = .rst ∧ a.usable = true)) : b.inBacklog = true := by
  cases k <;> cases a <;> cases b <;> revert h ha hk <;> decide

/-- No segment takes an actively opened socket out of these states. -/
theorem moves_connecting {k : EventKind} {a b : TcpState} (h : moves false k a b = true)
    (ha : a.connecting = true) : b.connecting = true := by
  cases k <;> cases a <;> cases b <;> revert h ha <;> decide

end TcpState

/-- The smoltcp operations the stack uses, on abstract TCP sockets `T`, UDP sockets `U` and
poll events `E`. `txFree`, `rxBuf` and `passive` are observations that the stack never reads;
`passive` says that the socket was opened by `listen`. -/
structure Smoltcp (T U E : Type) where
  fresh : List SocketHandle → SocketHandle
  tcpNew : T
  tcpState : T → TcpState
  maySend : T → Bool
  canSend : T → Bool
  canRecv : T → Bool
  txFree : T → Nat
  rxBuf : T → Bytes
  passive : T → Bool
  sendSlice : T → Bytes → Except Unit Nat × T
  recvSlice : T → Nat → Except Unit Bytes × T
  listen : T → IpListenEndpoint → Except String T
  connect : List IpCidr → T → IpEndpoint → IpListenEndpoint → Except String T
  tcpClose : T → T
  localEndpoint : T → Option IpEndpoint
  remoteEndpoint : T → Option IpEndpoint
  udpNew : U
  udpBind : U → IpListenEndpoint → Except String U
  udpCanSend : U → Bool
  udpCanRecv : U → Bool
  udpSendSlice : U → Bytes → IpEndpoint → Except Unit Unit × U
  udpRecvSlice : U → Nat → Except Unit (Bytes × IpEndpoint) × U
  udpClose : U → U
  assignable : IpAddress → Bool
  kind : E → EventKind
  tcpProcess : E → T → T
  udpProcess : E → U → U

namespace Smoltcp

variable {T U E : Type}

/-- `SocketSet::add` never gives out a handle that is live. -/
def FreshHandles (N : Smoltcp T U E) : Prop := ∀ live, N.fresh live ∉ live

/-- Transmit side of a TCP socket: `send_slice` works exactly while the transmit half is
open and takes as much of the slice as there is room for. -/
structure SendContract (N : Smoltcp T U E) : Prop where
  send_ok : ∀ s data, N.maySend s = true →
    (N.sendSlice s data).1 = .ok (min data.length (N.txFree s))
  send_err : ∀ s data, N.maySend s = false → (N.sendSlice s data).1 = .error ()
  send_maySend : ∀ s data, N.maySend s = true → N.maySend (N.sendSlice s data).2 = true
  send_txFree : ∀ s data, N.maySend s = true →
    N.txFree (N.sendSlice s data).2 = N.txFree s - min data.length (N.txFree s)
  canSend_iff : ∀ s, N.canSend s = true ↔ N.maySend s = true ∧ 0 < N.txFree s

/-- Receive side of a TCP socket: `recv_slice` takes a non-empty piece from the front of the
receive buffer whenever `can_recv` holds, and otherwise only segments change that buffer, by
what they bring. When TIME-WAIT expires the socket is reset. -/
structure RecvContract (N : Smoltcp T U E) : Prop where
  recv_ok : ∀ s len, N.canRecv s = true → 0 < len → ∃ data s',
    N.recvSlice s len = (.ok data, s') ∧ data ≠ [] ∧ data.length ≤ len ∧
      N.rxBuf s = data ++ N.rxBuf s'
  send_rx : ∀ s data, N.rxBuf (N.sendSlice s data).2 = N.rxBuf s
  close_rx : ∀ s, N.rxBuf (N.tcpClose s) = N.rxBuf s
  listen_rx : ∀ ep s, N.listen N.tcpNew ep = .ok s → N.rxBuf s = []
  connect_rx : ∀ ips remote ep s, N.connect ips N.tcpNew remote ep = .ok s → N.rxBuf s = []
  process_rx : ∀ e s, N.rxBuf s <+: N.rxBuf (N.tcpProcess e s) ∨
    (N.kind e = .timer ∧ N.tcpState s = .timeWait)

/-- The documented TCP state machine of smoltcp, with `listen` on a fresh socket
succeeding for every non-zero port. -/
structure TcpMachine (N : Smoltcp T U E) : Prop where
  listen_ok : ∀ ep, ep.port ≠ 0 →
    ∃ s, N.listen N.tcpNew ep = .ok s ∧ N.tcpState s = .listen ∧ N.passive s = true
  close_state : ∀ s, N.tcpState (N.tcpClose s) = (N.tcpState s).onClose
  process_state : ∀ e s,
    TcpState.moves (N.passive s) (N.kind e) (N.tcpState s) (N.tcpState (N.tcpProcess e s)) = true
  process_passive : ∀ e s, N.passive (N.tcpProcess e s) = N.passive s
  established_remote : ∀ s, N.tcpState s = .established → ∃ r, N.remoteEndpoint s = some r

/-- Closing a socket whose transmit half is closed does nothing, and a UDP socket that has been
closed has no port on which a packet could reach it, and nothing to send. -/
structure CloseContract (N : Smoltcp T U E) : Prop where
  close_again : ∀ s, (N.tcpState s).closingDown = true → N.tcpClose s = s
  udpClose_again : ∀ s, N.udpClose (N.udpClose s) = N.udpClose s
  udpProcess_closed : ∀ e s, N.udpProcess e (N.udpClose s) = N.udpClose s

end Smoltcp

end TapTunnel
