import TapTunnel.Framework.Channel
import TapTunnel.Framework.Table
import TapTunnel.Net.Smoltcp

namespace TapTunnel.Stack

open Framework

def tcpSocketBufferSize : Nat := 65535
def udpReadBufSize : Nat := 9216
def ephemeralPortStart : UInt16 := 49152
def tcpChannelCapacity : Nat := 8
def udpChannelCapacity : Nat := 512
def commandChannelCapacity : Nat := 256
def ifaceMaxAddrCount : Nat := 8

/-- Name of the channel pair of one socket; both of its ends refer to the pair by it. -/
abbrev ChanId := Nat

/-- Name of the oneshot sender that came with a command. -/
abbrev ReqId := Nat

abbrev HandleMap (V : Type) := Table SocketHandle V

/-- The two data channels of a TCP socket with the left-over read buffer of the stream.
`written` and `accepted` only record history: the bytes of every completed write, and the
bytes `send_slice` has taken. -/
structure TcpChan where
  write : Chan Bytes
  read : Chan Bytes
  readBuf : Bytes
  written : Bytes
  accepted : Bytes
  deriving DecidableEq, Repr

structure UdpChan where
  write : Chan (Bytes × SocketAddr)
  read : Chan (Bytes × SocketAddr)
  deriving DecidableEq, Repr

/-- The stack holds the `write_rx` and `read_tx` ends of `chan`. -/
structure TcpSocketState where
  chan : ChanId
  pendingWrite : Option Bytes
  deriving DecidableEq, Repr

structure UdpSocketState where
  chan : ChanId
  deriving DecidableEq, Repr

inductive StackCommand
  | tcpConnect (localIp : Option IpAddr) (addr : SocketAddr) (response : ReqId)
  | tcpListen (addr : SocketAddr) (backlog : Nat) (response : ReqId)
  | tcpAccept (handle : SocketHandle) (response : ReqId)
  | tcpListenerClose (handle : SocketHandle)
  | tcpClose (handle : SocketHandle)
  | udpBind (addr : SocketAddr) (response : ReqId)
  | udpClose (handle : SocketHandle)
  | addIp (ip : IpAddr) (prefixLen : UInt8) (response : ReqId)
  | removeIp (ip : IpAddr) (response : ReqId)
  | getIps (response : ReqId)
  deriving DecidableEq, Repr

/-- The response sender a command carries, if any. -/
def StackCommand.response : StackCommand → Option ReqId
  | .tcpConnect _ _ r | .tcpListen _ _ r | .tcpAccept _ r | .udpBind _ r => some r
  | .addIp _ _ r | .removeIp _ r | .getIps r => some r
  | .tcpListenerClose _ | .tcpClose _ | .udpClose _ => none

/-- A pending connect also keeps the application's channel ends until it completes. -/
inductive PendingOp
  | tcpConnect (localAddr peerAddr : SocketAddr) (channels : ChanId) (response : ReqId)
  | tcpAccept (response : ReqId)
  deriving DecidableEq, Repr

def PendingOp.response : PendingOp → ReqId
  | .tcpConnect _ _ _ r | .tcpAccept r => r

structure ListenerState where
  addr : SocketAddr
  listeningHandles : List SocketHandle
  deriving DecidableEq, Repr

/-- What is sent through a oneshot, by the type of its command. -/
inductive Reply
  | tcp (r : Except IoError (SocketHandle × SocketAddr × SocketAddr × ChanId))
  | listen (r : Except IoError (SocketHandle × SocketAddr))
  | udp (r : Except IoError (SocketHandle × SocketAddr × ChanId))
  | unit (r : Except IoError Unit)
  | ips (r : List (IpAddr × UInt8))
  deriving Repr

inductive Socket (T U : Type)
  | tcp (s : T)
  | udp (s : U)
  deriving DecidableEq, Repr

/-- Ways in which the stack task can panic. -/
inductive Panic
  | missingSocket (handle : SocketHandle)
  | wrongSocketType (handle : SocketHandle)
  | indexOutOfBounds
  | cidrPrefixLen
  | addrNotAssignable
  deriving DecidableEq, Repr

/-- Position of the task in its loop. The lists are the sockets still to be visited by the
pass that is under way. -/
inductive Phase
  | select
  | startWrite
  | write (tcp udp : List SocketHandle)
  | poll
  | startRead (changed : Bool)
  | read (tcp udp : List SocketHandle) (changed : Bool)
  | pend (changed : Bool)
  | check
  | returned
  | panicked (p : Panic)
  deriving DecidableEq, Repr

/-- The UDP counters of the tunnel statistics. -/
structure UdpStats where
  txPackets : Nat
  txFailed : Nat
  rxPackets : Nat
  rxDropped : Nat
  deriving DecidableEq, Repr

/-- The part of the stack configuration that the handlers read. -/
structure StackConfig where
  ip : IpAddr
  prefixLen : UInt8
  deriving DecidableEq, Repr

/-- The stack task with everything it shares with the application. `received`, `answers` and
`created` only record history: the response senders that arrived, what was sent through
them, and the listeners with the backlog they were created with. -/
structure World (T U : Type) where
  phase : Phase
  sockets : HandleMap (Socket T U)
  pending : HandleMap PendingOp
  listeners : HandleMap ListenerState
  tcpStates : HandleMap TcpSocketState
  udpStates : HandleMap UdpSocketState
  ipAddrs : List IpCidr
  ephemeralPort : UInt16
  stats : UdpStats
  commands : Chan StackCommand
  writeNotify : Bool
  ipcDead : Bool
  tcpChans : ChanId → TcpChan
  udpChans : ChanId → UdpChan
  nextChan : ChanId
  nextReq : ReqId
  cancelled : List ReqId
  received : List ReqId
  answers : List (ReqId × Reply)
  created : List (SocketHandle × Nat)

def TcpChan.new : TcpChan :=
  ⟨.new tcpChannelCapacity, .new tcpChannelCapacity, [], [], []⟩

def UdpChan.new : UdpChan := ⟨.new udpChannelCapacity, .new udpChannelCapacity⟩

/-- Dropping a `TcpSocketState` drops `write_rx` and `read_tx`. -/
def TcpChan.dropStackEnds (c : TcpChan) : TcpChan :=
  { c with write := c.write.dropRx, read := c.read.dropTx }

/-- Dropping a `TcpChannels`, or a stream built from it, drops `write_tx` and `read_rx`. -/
def TcpChan.dropAppEnds (c : TcpChan) : TcpChan :=
  { c with write := c.write.dropTx, read := c.read.dropRx, readBuf := [] }

def UdpChan.dropStackEnds (c : UdpChan) : UdpChan := ⟨c.write.dropRx, c.read.dropTx⟩

def UdpChan.dropAppEnds (c : UdpChan) : UdpChan := ⟨c.write.dropTx, c.read.dropRx⟩

def releaseTcpState (old : Option TcpSocketState) (m : ChanId → TcpChan) : ChanId → TcpChan :=
  match old with
  | some st => Function.update m st.chan (m st.chan).dropStackEnds
  | none => m

def releaseUdpState (old : Option UdpSocketState) (m : ChanId → UdpChan) : ChanId → UdpChan :=
  match old with
  | some st => Function.update m st.chan (m st.chan).dropStackEnds
  | none => m

def releaseOp (old : Option PendingOp) (m : ChanId → TcpChan) : ChanId → TcpChan :=
  match old with
  | some (.tcpConnect _ _ ch _) => Function.update m ch (m ch).dropAppEnds
  | _ => m

/-- A reply whose receiver is gone is dropped with the channel ends in it. -/
def Reply.releaseTcp (rep : Reply) (m : ChanId → TcpChan) : ChanId → TcpChan :=
  match rep with
  | .tcp (.ok (_, _, _, ch)) => Function.update m ch (m ch).dropAppEnds
  | _ => m

def Reply.releaseUdp (rep : Reply) (m : ChanId → UdpChan) : ChanId → UdpChan :=
  match rep with
  | .udp (.ok (_, _, ch)) => Function.update m ch (m ch).dropAppEnds
  | _ => m

/-- Stream handle that an answer gives to the application. -/
def Reply.streamHandle? : Reply → Option SocketHandle
  | .tcp (.ok (h, _)) => some h
  | _ => none

def Reply.listenerHandle? : Reply → Option SocketHandle
  | .listen (.ok (h, _)) => some h
  | _ => none

def Reply.udpHandle? : Reply → Option SocketHandle
  | .udp (.ok (h, _)) => some h
  | _ => none

def Reply.tcpChan? : Reply → Option ChanId
  | .tcp (.ok (_, _, _, ch)) => some ch
  | _ => none

def Reply.udpChan? : Reply → Option ChanId
  | .udp (.ok (_, _, ch)) => some ch
  | _ => none

/-- Some answer so far contains `a`, where `f` looks for it. -/
def Gave (answers : List (ReqId × Reply)) (f : Reply → Option Nat) (a : Nat) : Prop :=
  ∃ p ∈ answers, f p.2 = some a

instance (answers : List (ReqId × Reply)) (f : Reply → Option Nat) (a : Nat) :
    Decidable (Gave answers f a) :=
  inferInstanceAs (Decidable (∃ p ∈ answers, f p.2 = some a))

theorem gave_push (answers : List (ReqId × Reply)) (r : ReqId) (rep : Reply)
    (f : Reply → Option Nat) (a : Nat) :
    Gave (answers ++ [(r, rep)]) f a ↔ Gave answers f a ∨ f rep = some a := by
  simp only [Gave, List.mem_append, List.mem_singleton, or_and_right, exists_or,
    exists_eq_left]

theorem Gave.mono {answers answers' : List (ReqId × Reply)} (h : answers <+: answers')
    {f : Reply → Option Nat} {a : Nat} (hg : Gave answers f a) : Gave answers' f a := by
  obtain ⟨p, hp, hf⟩ := hg
  exact ⟨p, h.subset hp, hf⟩

namespace World

variable {T U : Type}

/-- `SocketSet::get_mut::<tcp::Socket>`. -/
def getTcp (w : World T U) (h : SocketHandle) : Except Panic T :=
  match w.sockets.lookup h with
  | some (.tcp s) => .ok s
  | some (.udp _) => .error (.wrongSocketType h)
  | none => .error (.missingSocket h)

/-- `SocketSet::get_mut::<udp::Socket>`. -/
def getUdp (w : World T U) (h : SocketHandle) : Except Panic U :=
  match w.sockets.lookup h with
  | some (.udp s) => .ok s
  | some (.tcp _) => .error (.wrongSocketType h)
  | none => .error (.missingSocket h)

def setTcp (w : World T U) (h : SocketHandle) (s : T) : World T U :=
  { w with sockets := w.sockets.insert h (.tcp s) }

def setUdp (w : World T U) (h : SocketHandle) (s : U) : World T U :=
  { w with sockets := w.sockets.insert h (.udp s) }

/-- `create_tcp_channels`; the new pair is named by the old value of `nextChan`. -/
def createTcpChannels (w : World T U) : World T U :=
  { w with
    tcpChans := Function.update w.tcpChans w.nextChan .new
    nextChan := w.nextChan + 1 }

def createUdpChannels (w : World T U) : World T U :=
  { w with
    udpChans := Function.update w.udpChans w.nextChan .new
    nextChan := w.nextChan + 1 }

/-- Sending through a oneshot. -/
def answer (w : World T U) (r : ReqId) (rep : Reply) : World T U :=
  { w with
    answers := w.answers ++ [(r, rep)]
    tcpChans := if r ∈ w.cancelled then rep.releaseTcp w.tcpChans else w.tcpChans
    udpChans := if r ∈ w.cancelled then rep.releaseUdp w.udpChans else w.udpChans }

def insertTcpState (w : World T U) (h : SocketHandle) (st : TcpSocketState) : World T U :=
  { w with
    tcpStates := w.tcpStates.insert h st
    tcpChans := releaseTcpState (w.tcpStates.lookup h) w.tcpChans }

def removeTcpState (w : World T U) (h : SocketHandle) : World T U :=
  { w with
    tcpStates := w.tcpStates.erase h
    tcpChans := releaseTcpState (w.tcpStates.lookup h) w.tcpChans }

def insertUdpState (w : World T U) (h : SocketHandle) (st : UdpSocketState) : World T U :=
  { w with
    udpStates := w.udpStates.insert h st
    udpChans := releaseUdpState (w.udpStates.lookup h) w.udpChans }

def removeUdpState (w : World T U) (h : SocketHandle) : World T U :=
  { w with
    udpStates := w.udpStates.erase h
    udpChans := releaseUdpState (w.udpStates.lookup h) w.udpChans }

/-- `pending.insert`: an operation already stored under the key is dropped. -/
def insertPending (w : World T U) (h : SocketHandle) (op : PendingOp) : World T U :=
  { w with
    pending := w.pending.insert h op
    tcpChans := releaseOp (w.pending.lookup h) w.tcpChans }

/-- `pending.remove` with the removed operation dropped. -/
def dropPending (w : World T U) (h : SocketHandle) : World T U :=
  { w with
    pending := w.pending.erase h
    tcpChans := releaseOp (w.pending.lookup h) w.tcpChans }

/-- `pending.remove` with the removed operation taken apart by the caller. -/
def takePending (w : World T U) (h : SocketHandle) : World T U :=
  { w with pending := w.pending.erase h }

/-- The application has been given a stream with this handle. -/
def HasStream (w : World T U) (h : SocketHandle) : Prop := Gave w.answers Reply.streamHandle? h

def HasListener (w : World T U) (h : SocketHandle) : Prop :=
  Gave w.answers Reply.listenerHandle? h

def HasUdp (w : World T U) (h : SocketHandle) : Prop := Gave w.answers Reply.udpHandle? h

def HasTcpChan (w : World T U) (ch : ChanId) : Prop := Gave w.answers Reply.tcpChan? ch

def HasUdpChan (w : World T U) (ch : ChanId) : Prop := Gave w.answers Reply.udpChan? ch

instance (w : World T U) (h : SocketHandle) : Decidable (w.HasStream h) :=
  inferInstanceAs (Decidable (Gave _ _ h))

instance (w : World T U) (h : SocketHandle) : Decidable (w.HasListener h) :=
  inferInstanceAs (Decidable (Gave _ _ h))

instance (w : World T U) (h : SocketHandle) : Decidable (w.HasUdp h) :=
  inferInstanceAs (Decidable (Gave _ _ h))

instance (w : World T U) (ch : ChanId) : Decidable (w.HasTcpChan ch) :=
  inferInstanceAs (Decidable (Gave _ _ ch))

instance (w : World T U) (ch : ChanId) : Decidable (w.HasUdpChan ch) :=
  inferInstanceAs (Decidable (Gave _ _ ch))

/-- A response sender has been answered. -/
def Answered (w : World T U) (r : ReqId) : Prop := ∃ p ∈ w.answers, p.1 = r

/-- A response sender is stored in `pending`. -/
def Stored (w : World T U) (r : ReqId) : Prop := ∃ e ∈ w.pending.entries, e.2.response = r

instance (w : World T U) (r : ReqId) : Decidable (w.Answered r) :=
  inferInstanceAs (Decidable (∃ p ∈ w.answers, p.1 = r))

instance (w : World T U) (r : ReqId) : Decidable (w.Stored r) :=
  inferInstanceAs (Decidable (∃ e ∈ w.pending.entries, e.2.response = r))

/-- Some listener has `x` among its listening sockets. -/
def Listening (w : World T U) (k x : SocketHandle) : Prop :=
  ∃ l, w.listeners.lookup k = some l ∧ x ∈ l.listeningHandles

end World

end TapTunnel.Stack
