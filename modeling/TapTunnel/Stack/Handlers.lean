import TapTunnel.Stack.State

namespace TapTunnel.Stack

open Framework

variable {T U E : Type}

namespace World

/-- `allocate_ephemeral_port`: the counter is a `u16` and wraps. -/
def allocateEphemeralPort (w : World T U) : UInt16 × World T U :=
  (w.ephemeralPort, { w with ephemeralPort := w.ephemeralPort + 1 })

/-- The socket of a connect that failed at once is removed again. -/
def connectFailed (w : World T U) (handle : SocketHandle) (e : String) (response : ReqId) :
    World T U :=
  answer { w with sockets := w.sockets.erase handle } response
    (.tcp (.error ⟨.other, "connect failed: " ++ e⟩))

/-- A connect under way: the socket gets its channels, and the application's ends wait in
`pending` until the handshake is over. -/
def connectStarted (w : World T U) (handle : SocketHandle) (socket : T)
    (localAddr peerAddr : SocketAddr) (response : ReqId) : World T U :=
  let w := w.setTcp handle socket
  let channels := w.nextChan
  let w := w.createTcpChannels
  let w := w.insertTcpState handle ⟨channels, none⟩
  w.insertPending handle (.tcpConnect localAddr peerAddr channels response)

def handleTcpConnect (N : Smoltcp T U E) (cfg : StackConfig) (localIp : Option IpAddr)
    (addr : SocketAddr) (response : ReqId) (w : World T U) : Except Panic (World T U) := do
  let handle := N.fresh w.sockets.keys
  let w := w.setTcp handle N.tcpNew
  let remote := socketAddrToEndpoint addr
  let sourceIp := localIp.getD cfg.ip
  let (localPort, w) := w.allocateEphemeralPort
  let localEp : IpListenEndpoint := ⟨some (ipAddrToSmoltcp sourceIp), localPort⟩
  let socket ← w.getTcp handle
  match N.connect w.ipAddrs socket remote localEp with
  | .error e => return w.connectFailed handle e response
  | .ok socket =>
    return w.connectStarted handle socket (makeSocketAddr sourceIp localPort) addr response

/-- Create listening sockets one by one. A failed `listen` stops the loop with its text and
the handles made so far. -/
def createListening (N : Smoltcp T U E) (endpoint : IpListenEndpoint) :
    Nat → List SocketHandle → HandleMap (Socket T U) →
      HandleMap (Socket T U) × List SocketHandle × Option String
  | 0, handles, sockets => (sockets, handles, none)
  | n+1, handles, sockets =>
    match N.listen N.tcpNew endpoint with
    | .error e => (sockets, handles, some e)
    | .ok socket =>
      let handle := N.fresh sockets.keys
      createListening N endpoint n (handles ++ [handle]) (sockets.insert handle (.tcp socket))

def removeSockets (sockets : HandleMap (Socket T U)) (handles : List SocketHandle) :
    HandleMap (Socket T U) := handles.foldl (fun m h => m.erase h) sockets

/-- The first listening socket names the listener. -/
def listenerCreated (w : World T U) (primary : SocketHandle) (addr : SocketAddr)
    (handles : List SocketHandle) (backlog : Nat) (response : ReqId) : World T U :=
  answer { w with
    listeners := w.listeners.insert primary ⟨addr, handles⟩
    created := w.created ++ [(primary, backlog)] } response (.listen (.ok (primary, addr)))

def handleTcpListen (N : Smoltcp T U E) (addr : SocketAddr) (backlog : Nat) (response : ReqId)
    (w : World T U) : Except Panic (World T U) := do
  let listenEndpoint := socketAddrToListenEndpoint addr
  if addr.port = 0 then
    return w.answer response (.listen (.error ⟨.invalidInput, "cannot listen on port 0"⟩))
  -- the source compares ports only, whatever the two addresses are
  if w.listeners.entries.any (fun e => e.2.addr.port == addr.port) then
    return w.answer response (.listen (.error ⟨.addrInUse, "address already in use"⟩))
  match createListening N listenEndpoint (max backlog 1) [] w.sockets with
  | (sockets, handles, some e) =>
    return answer { w with sockets := removeSockets sockets handles } response
      (.listen (.error ⟨.addrInUse, "listen failed: " ++ e⟩))
  | (sockets, handles, none) =>
    match handles.head? with
    | none => throw .indexOutOfBounds
    | some primary =>
      return listenerCreated { w with sockets := sockets } primary addr handles backlog response

/-- The search of `try_accept_socket`: the first established socket, with its position and
the local and peer address it will be reported with. -/
def findEstablished (N : Smoltcp T U E) (w : World T U) (addr : SocketAddr) :
    List SocketHandle → Nat → Except Panic (Option (Nat × SocketAddr × SocketAddr))
  | [], _ => return none
  | h::hs, idx => do
    let socket ← w.getTcp h
    if N.tcpState socket = .established then
      match N.remoteEndpoint socket with
      | some remote =>
        let peerAddr := endpointToSocketAddr remote
        let localAddr := match N.localEndpoint socket with
          | some localEp => endpointToSocketAddr localEp
          | none => addr
        return some (idx, localAddr, peerAddr)
      | none => findEstablished N w addr hs (idx+1)
    else findEstablished N w addr hs (idx+1)

/-- Put `rest` back into the listener stored under `key`, with a replacement listening socket
at the end if one can be made. -/
def replaceListening (N : Smoltcp T U E) (key : SocketHandle) (addr : SocketAddr)
    (rest : List SocketHandle) (w : World T U) : World T U :=
  match N.listen N.tcpNew (socketAddrToListenEndpoint addr) with
  | .ok socket =>
    let handle := N.fresh w.sockets.keys
    { w with
      sockets := w.sockets.insert handle (.tcp socket)
      listeners := w.listeners.insert key ⟨addr, rest ++ [handle]⟩ }
  | .error _ => { w with listeners := w.listeners.insert key ⟨addr, rest⟩ }

/-- `try_accept_socket` on the listener stored under `key`. The accepted handle leaves
`listening_handles` and a replacement takes a place at the end. -/
def tryAcceptSocket (N : Smoltcp T U E) (key : SocketHandle) (state : ListenerState)
    (w : World T U) :
    Except Panic (World T U × Option (SocketHandle × SocketAddr × SocketAddr)) := do
  match ← findEstablished N w state.addr state.listeningHandles 0 with
  | none => return (w, none)
  | some (idx, localAddr, peerAddr) =>
    match state.listeningHandles[idx]? with
    | none => throw .indexOutOfBounds
    | some accepted =>
      let rest := state.listeningHandles.eraseIdx idx
      return (w.replaceListening N key state.addr rest, some (accepted, localAddr, peerAddr))

/-- Channels for a socket that was just accepted, and the answer that hands them out. -/
def deliverAccepted (w : World T U) (accepted : SocketHandle) (localAddr peerAddr : SocketAddr)
    (response : ReqId) : World T U :=
  let channels := w.nextChan
  let w := w.createTcpChannels
  let w := w.insertTcpState accepted ⟨channels, none⟩
  w.answer response (.tcp (.ok (accepted, localAddr, peerAddr, channels)))

def handleTcpAccept (N : Smoltcp T U E) (handle : SocketHandle) (response : ReqId)
    (w : World T U) : Except Panic (World T U) := do
  match w.listeners.lookup handle with
  | none =>
    return w.answer response (.tcp (.error ⟨.invalidInput, "not a listener handle"⟩))
  | some state =>
    match ← tryAcceptSocket N handle state w with
    | (w, some (accepted, localAddr, peerAddr)) =>
      return w.deliverAccepted accepted localAddr peerAddr response
    | (w, none) => return w.insertPending handle (.tcpAccept response)

/-- Close the given sockets as far as they are still in `Listen`. -/
def closeListening (N : Smoltcp T U E) :
    List SocketHandle → World T U → Except Panic (World T U)
  | [], w => return w
  | h::hs, w => do
    let socket ← w.getTcp h
    if N.tcpState socket = .listen then closeListening N hs (w.setTcp h (N.tcpClose socket))
    else closeListening N hs w

def handleTcpListenerClose (N : Smoltcp T U E) (handle : SocketHandle) (w : World T U) :
    Except Panic (World T U) := do
  let w := w.dropPending handle
  match w.listeners.lookup handle with
  | none => return w
  | some state =>
    closeListening N state.listeningHandles
      { w with listeners := w.listeners.erase handle }

def handleTcpClose (N : Smoltcp T U E) (handle : SocketHandle) (w : World T U) :
    Except Panic (World T U) := do
  let socket ← w.getTcp handle
  let w := w.setTcp handle (N.tcpClose socket)
  return w.removeTcpState handle

def udpBound (w : World T U) (handle : SocketHandle) (socket : U) (boundAddr : SocketAddr)
    (response : ReqId) : World T U :=
  let w := w.setUdp handle socket
  let channels := w.nextChan
  let w := w.createUdpChannels
  let w := w.insertUdpState handle ⟨channels⟩
  w.answer response (.udp (.ok (handle, boundAddr, channels)))

def handleUdpBind (N : Smoltcp T U E) (addr : SocketAddr) (response : ReqId) (w : World T U) :
    Except Panic (World T U) := do
  let (port, w) := if addr.port = 0 then w.allocateEphemeralPort else (addr.port, w)
  let boundAddr := makeSocketAddr addr.ip port
  let endpoint := socketAddrToListenEndpointWithPort addr port
  match N.udpBind N.udpNew endpoint with
  | .error e => return w.answer response (.udp (.error ⟨.addrInUse, "bind failed: " ++ e⟩))
  | .ok socket => return w.udpBound (N.fresh w.sockets.keys) socket boundAddr response

def handleUdpClose (N : Smoltcp T U E) (handle : SocketHandle) (w : World T U) :
    Except Panic (World T U) := do
  let socket ← w.getUdp handle
  let w := w.setUdp handle (N.udpClose socket)
  return w.removeUdpState handle

/-- `IpCidr::new` panics on a prefix longer than the address. -/
def newCidr (address : IpAddress) (prefixLen : UInt8) : Except Panic IpCidr :=
  match address with
  | .ipv4 _ => if prefixLen ≤ 32 then .ok ⟨address, prefixLen⟩ else .error .cidrPrefixLen
  | .ipv6 _ => if prefixLen ≤ 128 then .ok ⟨address, prefixLen⟩ else .error .cidrPrefixLen

/-- `Interface::update_ip_addrs`: the new list is installed and then checked. -/
def updateIpAddrs (N : Smoltcp T U E) (addrs : List IpCidr) (w : World T U) :
    Except Panic (World T U) :=
  if addrs.all (fun c => N.assignable c.address) then .ok { w with ipAddrs := addrs }
  else .error .addrNotAssignable

def handleAddIp (N : Smoltcp T U E) (ip : IpAddr) (prefixLen : UInt8) (response : ReqId)
    (w : World T U) : Except Panic (World T U) := do
  let cidr ← newCidr (ipAddrToSmoltcp ip) prefixLen
  if cidr ∈ w.ipAddrs then return w.answer response (.unit (.ok ()))
  if w.ipAddrs.length < ifaceMaxAddrCount then
    let w ← w.updateIpAddrs N (w.ipAddrs ++ [cidr])
    return w.answer response (.unit (.ok ()))
  else
    -- the closure ran without pushing, but the list is still checked
    let w ← w.updateIpAddrs N w.ipAddrs
    return w.answer response (.unit (.error ⟨.outOfMemory, "address list full"⟩))

def handleRemoveIp (N : Smoltcp T U E) (ip : IpAddr) (response : ReqId) (w : World T U) :
    Except Panic (World T U) := do
  let target := ipAddrToSmoltcp ip
  let w ← w.updateIpAddrs N (w.ipAddrs.filter (fun c => c.address != target))
  return w.answer response (.unit (.ok ()))

def handleGetIps (response : ReqId) (w : World T U) : World T U :=
  w.answer response (.ips (w.ipAddrs.map (fun c => (smoltcpToIpAddr c.address, c.prefixLen))))

def handleCommand (N : Smoltcp T U E) (cfg : StackConfig) (cmd : StackCommand) (w : World T U) :
    Except Panic (World T U) :=
  match cmd with
  | .tcpConnect localIp addr r => w.handleTcpConnect N cfg localIp addr r
  | .tcpListen addr backlog r => w.handleTcpListen N addr backlog r
  | .tcpAccept h r => w.handleTcpAccept N h r
  | .tcpListenerClose h => w.handleTcpListenerClose N h
  | .tcpClose h => w.handleTcpClose N h
  | .udpBind addr r => w.handleUdpBind N addr r
  | .udpClose h => w.handleUdpClose N h
  | .addIp ip prefixLen r => w.handleAddIp N ip prefixLen r
  | .removeIp ip r => w.handleRemoveIp N ip r
  | .getIps r => .ok (w.handleGetIps r)

/-- One round of the loop of `process_pending`. -/
def processPendingOne (N : Smoltcp T U E) (handle : SocketHandle) (w : World T U) :
    Except Panic (World T U) := do
  match w.pending.lookup handle with
  | none => return w
  | some (.tcpConnect localAddr peerAddr channels response) =>
    let socket ← w.getTcp handle
    match N.tcpState socket with
    | .established =>
      let w := w.takePending handle
      return w.answer response (.tcp (.ok (handle, localAddr, peerAddr, channels)))
    | .closed | .timeWait =>
      let w := (w.dropPending handle).removeTcpState handle
      return w.answer response (.tcp (.error ⟨.connectionRefused, "connection failed"⟩))
    | _ => return w
  | some (.tcpAccept response) =>
    match w.listeners.lookup handle with
    | some state =>
      match ← tryAcceptSocket N handle state w with
      | (w, some (accepted, localAddr, peerAddr)) =>
        return (w.takePending handle).deliverAccepted accepted localAddr peerAddr response
      | (w, none) => return w
    | none =>
      let w := w.takePending handle
      return w.answer response (.tcp (.error ⟨.invalidInput, "listener closed"⟩))

/-- `process_pending` on the keys in the order the hash map lists them. -/
def processPending (N : Smoltcp T U E) (order : List SocketHandle) (w : World T U) :
    Except Panic (World T U) := order.foldlM (fun w h => w.processPendingOne N h) w

/-- The given operations are dropped and their senders told that the proxy is gone. -/
def failOps (ops : List ((_ : SocketHandle) × PendingOp)) (w : World T U) : World T U :=
  ops.foldl (fun w e => (w.dropPending e.1).answer e.2.response
    (.tcp (.error ⟨.connectionAborted, "proxy connection lost"⟩))) w

/-- Every pending operation fails when the connection to the proxy is lost. -/
def failPending (w : World T U) : World T U := failOps w.pending.entries w

end World

end TapTunnel.Stack
