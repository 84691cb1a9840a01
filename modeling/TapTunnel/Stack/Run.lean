import TapTunnel.Framework.Transition
import TapTunnel.Socket.Stream
import TapTunnel.Stack.Pump
import TapTunnel.Stack.Handlers

namespace TapTunnel.Stack

open Framework

variable {T U E : Type}

/-- Steps of the system. The first group belongs to the application and to the rest of the
process and may come between any two steps of the stack task; the second group is the
loop of `run_stack`. The orders are those in which the hash maps list their keys. -/
inductive Action (E : Type)
  | issue (cmd : StackCommand)
  | cancel (r : ReqId)
  | streamWrite (ch : ChanId) (buf : Bytes)
  | streamRead (ch : ChanId) (len : Nat)
  | dropWriteTx (ch : ChanId)
  | dropReadRx (ch : ChanId)
  | udpSend (ch : ChanId) (buf : Bytes) (addr : SocketAddr)
  | udpRecv (ch : ChanId)
  | dropUdp (ch : ChanId)
  | dropCommands
  | foreignPort
  | ipcDies
  | command
  | disconnected
  | notified
  | timeout
  | beginWrite (tcp udp : List SocketHandle)
  | writeTcp
  | writeUdp
  | endWrite
  | tcpEvent (h : SocketHandle) (e : E)
  | udpEvent (h : SocketHandle) (e : E)
  | endPoll (changed : Bool)
  | beginRead (tcp udp : List SocketHandle)
  | readTcp
  | readUdp
  | endRead
  | pending (order : List SocketHandle)
  | skipPending
  | checkDead

namespace World

/-- Commands the public API can send: a handle in a command comes from an earlier `Ok`
response of the matching type, and every request brings a new oneshot. -/
def MayIssue (w : World T U) : StackCommand → Prop
  | .tcpAccept h r => w.HasListener h ∧ r = w.nextReq
  | .tcpListenerClose h => w.HasListener h
  | .tcpClose h => w.HasStream h
  | .udpClose h => w.HasUdp h
  | .tcpConnect _ _ r | .tcpListen _ _ r | .udpBind _ r => r = w.nextReq
  | .addIp _ _ r | .removeIp _ r | .getIps r => r = w.nextReq

instance (w : World T U) (cmd : StackCommand) : Decidable (w.MayIssue cmd) := by
  rcases cmd with _ | _ <;> unfold MayIssue <;> infer_instance

/-- The task is still running; the model follows a run up to its return or panic. -/
def Running (w : World T U) : Prop :=
  match w.phase with
  | .returned | .panicked _ => False
  | _ => True

instance (w : World T U) : Decidable w.Running := by
  unfold Running
  split <;> infer_instance

/-- Continue at `next`, or stop the task where a call panicked. -/
def continueAt (w : World T U) (next : Phase) : Except Panic (World T U) → World T U
  | .ok w' => { w' with phase := next }
  | .error p => { w with phase := .panicked p }

/-- Steps of the application and its environment. -/
def envStep (a : Action E) (w : World T U) : Option (World T U) :=
  match a with
  | .issue cmd =>
    if w.MayIssue cmd ∧ w.commands.txAlive then
      match w.commands.trySend cmd with
      | .ok q => some { w with
          commands := q
          nextReq := if cmd.response.isSome then w.nextReq + 1 else w.nextReq }
      | .error _ => none
    else none
  | .cancel r => some { w with cancelled := r::w.cancelled }
  | .streamWrite ch buf =>
    if w.HasTcpChan ch ∧ (w.tcpChans ch).write.txAlive then
      match TcpStream.write buf (w.tcpChans ch) with
      | (.ok _, c) => some { w with
          tcpChans := Function.update w.tcpChans ch c
          writeNotify := true }
      | _ => none
    else none
  | .streamRead ch len =>
    if w.HasTcpChan ch ∧ (w.tcpChans ch).read.rxAlive then
      some { w with
        tcpChans := Function.update w.tcpChans ch (TcpStream.read len (w.tcpChans ch)).2 }
    else none
  | .dropWriteTx ch =>
    if w.HasTcpChan ch then
      let c := w.tcpChans ch
      some { w with tcpChans := Function.update w.tcpChans ch { c with write := c.write.dropTx } }
    else none
  | .dropReadRx ch =>
    if w.HasTcpChan ch then
      let c := { w.tcpChans ch with read := (w.tcpChans ch).read.dropRx, readBuf := [] }
      some { w with tcpChans := Function.update w.tcpChans ch c }
    else none
  | .udpSend ch buf addr =>
    if w.HasUdpChan ch ∧ (w.udpChans ch).write.txAlive then
      match (w.udpChans ch).write.trySend (buf, addr) with
      | .ok tx => some { w with
          udpChans := Function.update w.udpChans ch { w.udpChans ch with write := tx }
          writeNotify := true }
      | .error _ => none
    else none
  | .udpRecv ch =>
    if w.HasUdpChan ch then
      match (w.udpChans ch).read.tryRecv with
      | .ok (_, rx) =>
        some { w with udpChans := Function.update w.udpChans ch { w.udpChans ch with read := rx } }
      | .error _ => none
    else none
  | .dropUdp ch =>
    if w.HasUdpChan ch then
      some { w with udpChans := Function.update w.udpChans ch (w.udpChans ch).dropAppEnds }
    else none
  | .dropCommands => some { w with commands := w.commands.dropTx }
  | .foreignPort => some { w with ephemeralPort := w.ephemeralPort + 1 }
  | .ipcDies => some { w with ipcDead := true }
  | _ => none

/-- The select at the head of the loop. It is biased: the other branches run only while no
command is waiting. -/
def selectStep (N : Smoltcp T U E) (cfg : StackConfig) (a : Action E) (w : World T U) :
    Option (World T U) :=
  match a, w.commands.tryRecv with
  | .command, .ok (cmd, rest) =>
    some (w.continueAt .startWrite (handleCommand N cfg cmd { w with
      commands := rest
      received := w.received ++ cmd.response.toList }))
  | .disconnected, .error .disconnected => some { w with phase := .returned }
  | .notified, .error .empty =>
    if w.writeNotify then some { w with writeNotify := false, phase := .startWrite } else none
  | .timeout, .error .empty => some { w with phase := .startWrite }
  | _, _ => none

/-- Smoltcp working on one socket while the interface is polled. -/
def pollStep (N : Smoltcp T U E) (a : Action E) (w : World T U) : Option (World T U) :=
  match a with
  | .tcpEvent h e =>
    match w.sockets.lookup h with
    | some (.tcp s) => some (w.setTcp h (N.tcpProcess e s))
    | _ => none
  | .udpEvent h e =>
    match w.sockets.lookup h with
    | some (.udp s) => some (w.setUdp h (N.udpProcess e s))
    | _ => none
  | .endPoll changed => some { w with phase := .startRead changed }
  | _ => none

def stackStep (N : Smoltcp T U E) (cfg : StackConfig) (a : Action E) (w : World T U) :
    Option (World T U) :=
  match w.phase, a with
  | .select, a => w.selectStep N cfg a
  | .startWrite, .beginWrite tcp udp =>
    if tcp.isPerm w.tcpStates.keys ∧ udp.isPerm w.udpStates.keys then
      some { w with phase := .write tcp udp }
    else none
  | .write (h::tcp) udp, .writeTcp => some (w.continueAt (.write tcp udp) (w.pumpTcpWrite N h))
  | .write [] (h::udp), .writeUdp => some (w.continueAt (.write [] udp) (w.pumpUdpWrite N h))
  | .write [] [], .endWrite => some { w with phase := .poll }
  | .poll, a => w.pollStep N a
  | .startRead changed, .beginRead tcp udp =>
    if tcp.isPerm w.tcpStates.keys ∧ udp.isPerm w.udpStates.keys then
      some { w with phase := .read tcp udp changed }
    else none
  | .read (h::tcp) udp changed, .readTcp =>
    some (w.continueAt (.read tcp udp changed) (w.pumpTcpRead N h))
  | .read [] (h::udp) changed, .readUdp =>
    some (w.continueAt (.read [] udp changed) (w.pumpUdpRead N h))
  | .read [] [] changed, .endRead => some { w with phase := .pend changed }
  | .pend true, .pending order =>
    if order.isPerm w.pending.keys then some (w.continueAt .check (w.processPending N order))
    else none
  | .pend false, .skipPending => some { w with phase := .check }
  | .check, .checkDead =>
    if w.ipcDead then some { w.failPending with phase := .returned }
    else some { w with phase := .select }
  | _, _ => none

def step (N : Smoltcp T U E) (cfg : StackConfig) (a : Action E) (w : World T U) :
    Option (World T U) :=
  if w.Running then (w.envStep a).or (w.stackStep N cfg a) else none

/-- The state before the interface has its first address. -/
def blank (port : UInt16) : World T U :=
  { phase := .select
    sockets := ∅
    pending := ∅
    listeners := ∅
    tcpStates := ∅
    udpStates := ∅
    ipAddrs := []
    ephemeralPort := port
    stats := ⟨0, 0, 0, 0⟩
    commands := .new commandChannelCapacity
    writeNotify := false
    ipcDead := false
    tcpChans := fun _ => .new
    udpChans := fun _ => .new
    nextChan := 0
    nextReq := 0
    cancelled := []
    received := []
    answers := []
    created := [] }

/-- The state in which `run_stack` enters its loop. -/
def init (N : Smoltcp T U E) (cfg : StackConfig) (port : UInt16) : World T U :=
  (blank port).continueAt .select (do
    let cidr ← newCidr (ipAddrToSmoltcp cfg.ip) cfg.prefixLen
    (blank port).updateIpAddrs N [cidr])

end World

/-- Reachable states of a stack task started with configuration `cfg`, in a process whose
port counter stands at `port`. -/
def Reach (N : Smoltcp T U E) (cfg : StackConfig) (port : UInt16) : World T U → Prop :=
  Reachable (World.step N cfg) (World.init N cfg port)

end TapTunnel.Stack
