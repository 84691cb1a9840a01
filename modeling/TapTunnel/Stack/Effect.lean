import TapTunnel.Stack.Spec
import TapTunnel.Stack.Run

namespace TapTunnel.Stack

open Framework

variable {T U E : Type}

/-- The reply gives no socket to the application. -/
def Reply.bare : Reply → Prop
  | .tcp (.ok _) | .listen (.ok _) | .udp (.ok _) => False
  | _ => True

/-- The commands that take a port from the process-wide counter. -/
def StackCommand.allocates : StackCommand → Bool
  | .tcpConnect _ _ _ => true
  | .udpBind addr _ => addr.port == 0
  | _ => false

def StackCommand.portAfter (cmd : StackCommand) (port : UInt16) : UInt16 :=
  if cmd.allocates then port + 1 else port

/-- What handling a command, or one round of `process_pending`, can do to the state. The
first argument is the command; rounds of `process_pending` have none. -/
inductive Effect (N : Smoltcp T U E) : Option StackCommand → World T U → World T U → Prop
  | reject {w : World T U} {cmd : StackCommand} {r : ReqId} (m : HandleMap (Socket T U))
      (port : UInt16) (ips : List IpCidr) (rep : Reply) (hr : cmd.response = some r)
      (hm : ∀ x, m.lookup x = w.sockets.lookup x) (hb : rep.bare)
      (hport : port = cmd.portAfter w.ephemeralPort)
      (hips : ips = w.ipAddrs ∨ ∀ c ∈ ips, N.assignable c.address = true) :
      Effect N (some cmd) w
        (World.answer { w with sockets := m, ephemeralPort := port, ipAddrs := ips } r rep)
  | connect {w : World T U} {ip : Option IpAddr} {addr : SocketAddr} {r : ReqId}
      (k : SocketHandle) (s : T) (port : UInt16) (localAddr : SocketAddr)
      (hk : w.sockets.lookup k = none)
      (hs : ∃ remote a, N.connect w.ipAddrs N.tcpNew remote ⟨a, w.ephemeralPort⟩ = .ok s)
      (hport : port = w.ephemeralPort + 1) :
      Effect N (some (.tcpConnect ip addr r)) w
        (World.connectStarted { w with ephemeralPort := port } k s localAddr addr r)
  | listen {w : World T U} {addr : SocketAddr} {backlog : Nat} {r : ReqId}
      (m : HandleMap (Socket T U)) (hs : List SocketHandle) (primary : SocketHandle)
      (hp : hs.head? = some primary) (hlen : hs.length = max backlog 1) (hnd : hs.Nodup)
      (hport : addr.port ≠ 0) (hold : ∀ x ∈ hs, w.sockets.lookup x = none)
      (hnew : ∀ x ∈ hs, ∃ s, N.listen N.tcpNew (socketAddrToListenEndpoint addr) = .ok s ∧
        m.lookup x = some (.tcp s))
      (hrest : ∀ x, x ∉ hs → m.lookup x = w.sockets.lookup x) :
      Effect N (some (.tcpListen addr backlog r)) w
        (World.listenerCreated { w with sockets := m } primary addr hs backlog r)
  | accept {w : World T U} {key : SocketHandle} {r : ReqId} (l : ListenerState)
      (x : SocketHandle) (rest : List SocketHandle) (s : T) (localAddr peerAddr : SocketAddr)
      (hl : w.listeners.lookup key = some l) (hx : (x::rest).Perm l.listeningHandles)
      (hs : w.sockets.lookup x = some (.tcp s)) (he : N.tcpState s = .established) :
      Effect N (some (.tcpAccept key r)) w
        ((w.replaceListening N key l.addr rest).deliverAccepted x localAddr peerAddr r)
  | wait {w : World T U} {key : SocketHandle} {r : ReqId} (l : ListenerState)
      (hl : w.listeners.lookup key = some l)
      (hnone : ∀ x ∈ l.listeningHandles, ∀ s, w.sockets.lookup x = some (.tcp s) →
        N.tcpState s = .established → N.remoteEndpoint s = none) :
      Effect N (some (.tcpAccept key r)) w (w.insertPending key (.tcpAccept r))
  | listenerGone {w : World T U} {key : SocketHandle} (hl : w.listeners.lookup key = none) :
      Effect N (some (.tcpListenerClose key)) w (w.dropPending key)
  | listenerClose {w : World T U} {key : SocketHandle} (l : ListenerState)
      (m : HandleMap (Socket T U)) (hl : w.listeners.lookup key = some l)
      (hout : ∀ x, x ∉ l.listeningHandles → m.lookup x = w.sockets.lookup x)
      (hin : ∀ x ∈ l.listeningHandles, ∃ s, w.sockets.lookup x = some (.tcp s) ∧
        m.lookup x = some (.tcp (if N.tcpState s = .listen then N.tcpClose s else s))) :
      Effect N (some (.tcpListenerClose key)) w
        { w.dropPending key with listeners := w.listeners.erase key, sockets := m }
  | tcpClose {w : World T U} {h : SocketHandle} (s : T)
      (hs : w.sockets.lookup h = some (.tcp s)) :
      Effect N (some (.tcpClose h)) w ((w.setTcp h (N.tcpClose s)).removeTcpState h)
  | udpBind {w : World T U} {addr : SocketAddr} {r : ReqId} (k : SocketHandle) (s : U)
      (port : UInt16) (boundAddr : SocketAddr) (hk : w.sockets.lookup k = none)
      (hs : N.udpBind N.udpNew (socketAddrToListenEndpointWithPort addr
        (w.bindPort addr)) = .ok s)
      (hport : port = (StackCommand.udpBind addr r).portAfter w.ephemeralPort) :
      Effect N (some (.udpBind addr r)) w
        (World.udpBound { w with ephemeralPort := port } k s boundAddr r)
  | udpClose {w : World T U} {h : SocketHandle} (s : U)
      (hs : w.sockets.lookup h = some (.udp s)) :
      Effect N (some (.udpClose h)) w ((w.setUdp h (N.udpClose s)).removeUdpState h)
  | connected {w : World T U} {h : SocketHandle} (localAddr peerAddr : SocketAddr) (ch : ChanId)
      (r : ReqId) (hp : w.pending.lookup h = some (.tcpConnect localAddr peerAddr ch r)) :
      Effect N none w
        ((w.takePending h).answer r (.tcp (.ok (h, localAddr, peerAddr, ch))))
  | connectDead {w : World T U} {h : SocketHandle} (localAddr peerAddr : SocketAddr)
      (ch : ChanId) (r : ReqId) (e : IoError)
      (hp : w.pending.lookup h = some (.tcpConnect localAddr peerAddr ch r)) :
      Effect N none w (((w.dropPending h).removeTcpState h).answer r (.tcp (.error e)))
  | acceptPending {w : World T U} {key : SocketHandle} (r : ReqId) (l : ListenerState)
      (x : SocketHandle) (rest : List SocketHandle) (s : T) (localAddr peerAddr : SocketAddr)
      (hp : w.pending.lookup key = some (.tcpAccept r))
      (hl : w.listeners.lookup key = some l) (hx : (x::rest).Perm l.listeningHandles)
      (hs : w.sockets.lookup x = some (.tcp s)) (he : N.tcpState s = .established) :
      Effect N none w
        (((w.replaceListening N key l.addr rest).takePending key).deliverAccepted
          x localAddr peerAddr r)

/-- Rule for `process_pending`: what one effect keeps, all its rounds keep. -/
theorem Effect.path_rule {N : Smoltcp T U E} {w w' : World T U} (P : World T U → Prop) (h0 : P w)
    (hstep : ∀ u v, P u → Effect N none u v → P v)
    (he : Relation.ReflTransGen (Effect N none) w w') : P w' := by
  induction he with
  | refl => exact h0
  | tail _ he ih => exact hstep _ _ ih he

theorem Effect.answers {N : Smoltcp T U E} {c : Option StackCommand} {w w' : World T U}
    (h : Effect N c w w') : w.answers <+: w'.answers := by
  cases h with
  | reject | listen | udpBind | connected | connectDead => exact List.prefix_append _ _
  | connect | wait | listenerGone | listenerClose | tcpClose | udpClose =>
    exact List.prefix_refl _
  | accept | acceptPending =>
    simp

theorem Effect.received {N : Smoltcp T U E} {c : Option StackCommand} {w w' : World T U}
    (h : Effect N c w w') : w'.received = w.received := by
  cases h with
  | accept | acceptPending => exact World.replaceListening_received _ _ _
  | _ => rfl

end TapTunnel.Stack
