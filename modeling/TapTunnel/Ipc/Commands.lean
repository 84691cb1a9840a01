import TapTunnel.Framework.Table
import TapTunnel.Ipc.Link

namespace TapTunnel.Ipc

open Framework

/-- `serde_json` at the two types of control messages. -/
structure Codec where
  command : Serde ProxyCommand
  response : Serde ProxyResponse

structure Codec.RoundTrips (J : Codec) : Prop where
  command : J.command.RoundTrips
  response : J.response.RoundTrips

/-- Answers of netlink and of `/proc/net/dev` at the moment of a command. -/
structure Kernel where
  addRoute : IpAddr → UInt8 → Except Bytes Unit
  removeRoute : IpAddr → UInt8 → Except Bytes Unit
  procNetDev : Except Bytes (List (Bytes × InterfaceStats))

def handleProxyCommand (k : Kernel) : ProxyCommand → ProxyResponse
  | .addRoute id destination prefixLen =>
    match k.addRoute destination prefixLen with
    | .ok _ => .ok id
    | .error e => .error id e
  | .removeRoute id destination prefixLen =>
    match k.removeRoute destination prefixLen with
    | .ok _ => .ok id
    | .error e => .error id e
  | .getIfaceStats id =>
    match k.procNetDev with
    | .ok interfaces => .ifaceStats id interfaces
    | .error e => .error id e

inductive CallResult
  | done
  | stats (interfaces : List (Bytes × InterfaceStats))
  | failed (error : Bytes)
  | unexpected
  deriving DecidableEq, Repr

def routeResult : ProxyResponse → CallResult
  | .ok _ => .done
  | .error _ e => .failed e
  | .ifaceStats _ _ => .unexpected

def getIfaceStatsResult : ProxyResponse → CallResult
  | .ifaceStats _ interfaces => .stats interfaces
  | .error _ e => .failed e
  | .ok _ => .unexpected

def ProxyCommand.result : ProxyCommand → ProxyResponse → CallResult
  | .addRoute _ _ _ | .removeRoute _ _ _ => routeResult
  | .getIfaceStats _ => getIfaceStatsResult

/-- Where a call of `send_proxy_command` stands: it has its number, its sender is in the map and
it waits for a place in the control channel, it waits for the response, or it is over. -/
inductive CallStage
  | numbered
  | registered
  | waiting
  | returned (response : ProxyResponse)
  | failed (error : IoError)
  | cancelled
  deriving DecidableEq, Repr

/-- `inbox` is the oneshot of the call. -/
structure Call where
  command : ProxyCommand
  stage : CallStage
  inbox : Option ProxyResponse
  deriving DecidableEq, Repr

/-- Task 3 of the proxy reads, or carries out a command, or waits to queue a response. -/
inductive ProxyTask
  | reading
  | handling (cmd : ProxyCommand)
  | responding (response : ProxyResponse)
  deriving DecidableEq, Repr

/-- Calls are named by their position in `calls`; the map of pending responses leads to them.
The last five fields only record history: the commands queued, the commands carried out with
their responses, the responses queued, those the library's reader has decoded, and those it has
put into the oneshot of a caller. -/
structure World where
  calls : List Call
  nextRequestId : UInt64
  pending : Table UInt64 Nat
  toProxy : Link
  proxy : ProxyTask
  toLibrary : Link
  submitted : List ProxyCommand
  handled : List (ProxyCommand × ProxyResponse)
  answered : List ProxyResponse
  seen : List ProxyResponse
  deliveries : List (Nat × ProxyResponse)

inductive Action
  | call (cmd : ProxyCommand)
  | register (c : Nat)
  | submit (c : Nat)
  | finish (c : Nat)
  | cancel (c : Nat)
  | toProxy (a : LinkAction)
  | handle (k : Kernel)
  | respond
  | toLibrary (a : LinkAction)

/-- The receiver of the call's oneshot still exists. -/
def Call.listens (c : Call) : Bool := c.stage == .registered || c.stage == .waiting

/-- Control messages enter a link only through `send_proxy_command` and task 3. -/
def LinkAction.free : LinkAction → Bool
  | .send (.offerControl _) => false
  | _ => true

def LinkAction.reads : LinkAction → Bool
  | .read _ => true
  | _ => false

namespace World

def init (mtu : UInt16) : World where
  calls := []
  nextRequestId := 1
  pending := ∅
  toProxy := toProxyInit mtu
  proxy := .reading
  toLibrary := toLibraryInit
  submitted := []
  handled := []
  answered := []
  seen := []
  deliveries := []

def setCall (c : Nat) (call : Call) (w : World) : World := { w with calls := w.calls.set c call }

variable (J : Codec)

/-- Control branch of the proxy's reader. A frame goes to the TAP device. -/
def proxyReceive (record : Bytes) (w : World) : World :=
  match decodeMessage record with
  | .ok (.control payload) =>
    match decodeControl J.command payload with
    | .ok cmd => { w with proxy := .handling cmd }
    | .error _ => w
  | .ok (.frame _) => w
  | .error _ => w

/-- The sender found in the map is used once; nobody may listen to it any more. -/
def deliver (c : Nat) (resp : ProxyResponse) (w : World) : World :=
  match w.calls[c]? with
  | some call =>
    if call.listens then
      { w.setCall c { call with inbox := some resp } with
        deliveries := w.deliveries ++ [(c, resp)] }
    else w
  | none => w

/-- `map.remove(&resp.id())` and the send to what it finds. -/
def takeResponse (resp : ProxyResponse) (w : World) : World :=
  let w' := { w with pending := w.pending.erase resp.id, seen := w.seen ++ [resp] }
  match w.pending.lookup resp.id with
  | some c => w'.deliver c resp
  | none => w'

/-- Control branch of the library's reader. A frame goes to the stack. -/
def libraryReceive (record : Bytes) (w : World) : World :=
  match decodeMessage record with
  | .ok (.control payload) =>
    match decodeControl J.response payload with
    | .ok resp => w.takeResponse resp
    | .error _ => w
  | .ok (.frame _) => w
  | .error _ => w

/-- `send_proxy_command` up to the first point where it can wait. -/
def call (cmd : ProxyCommand) (w : World) : World :=
  { w with
    calls := w.calls ++ [⟨cmd.setId w.nextRequestId, .numbered, none⟩]
    nextRequestId := w.nextRequestId+1 }

/-- The call gets a place in the control channel, or learns that the writer task is gone. -/
def submit (c : Nat) (call : Call) (w : World) : Option World :=
  match toProxyStep (.send (.offerControl (J.command.toVec call.command))) w.toProxy with
  | some l => some { w.setCall c { call with stage := .waiting } with
      toProxy := l, submitted := w.submitted ++ [call.command] }
  | none =>
    if w.toProxy.sender.control.rxAlive then none
    else some (w.setCall c { call with stage := .failed ⟨.brokenPipe, "IPC writer gone"⟩ })

/-- The call finds its response, or that its sender was dropped. -/
def finish (c : Nat) (call : Call) (w : World) : Option World :=
  match call.inbox with
  | some resp => some (w.setCall c { call with stage := .returned resp })
  | none =>
    if w.pending.lookup call.command.id = some c then none
    else some (w.setCall c { call with stage := .failed ⟨.brokenPipe, "proxy response lost"⟩ })

/-- Task 3 queues its response; nothing happens to it when the writer task is gone. -/
def respond (resp : ProxyResponse) (w : World) : Option World :=
  match toLibraryStep (.send (.offerControl (J.response.toVec resp))) w.toLibrary with
  | some l => some { w with toLibrary := l, proxy := .reading, answered := w.answered ++ [resp] }
  | none =>
    if w.toLibrary.sender.control.rxAlive then none else some { w with proxy := .reading }

def step : Action → World → Option World
  | .call cmd, w => some (w.call cmd)
  | .register c, w =>
    match w.calls[c]? with
    | some call =>
      if call.stage = .numbered then
        some { w.setCall c { call with stage := .registered } with
          pending := w.pending.insert call.command.id c }
      else none
    | none => none
  | .submit c, w =>
    match w.calls[c]? with
    | some call => if call.stage = .registered then w.submit J c call else none
    | none => none
  | .finish c, w =>
    match w.calls[c]? with
    | some call => if call.stage = .waiting then w.finish c call else none
    | none => none
  | .cancel c, w =>
    match w.calls[c]? with
    | some call =>
      if call.listens then some (w.setCall c { call with stage := .cancelled }) else none
    | none => none
  | .toProxy a, w =>
    if a.free && (w.proxy == .reading || !a.reads) then
      (toProxyStep a w.toProxy).map fun l =>
        match l.records[w.toProxy.records.length]? with
        | some record => { w with toProxy := l }.proxyReceive J record
        | none => { w with toProxy := l }
    else none
  | .handle k, w =>
    match w.proxy with
    | .handling cmd => some { w with
        proxy := .responding (handleProxyCommand k cmd)
        handled := w.handled ++ [(cmd, handleProxyCommand k cmd)] }
    | .reading | .responding _ => none
  | .respond, w =>
    match w.proxy with
    | .responding resp => w.respond J resp
    | .reading | .handling _ => none
  | .toLibrary a, w =>
    if a.free then
      (toLibraryStep a w.toLibrary).map fun l =>
        match l.records[w.toLibrary.records.length]? with
        | some record => { w with toLibrary := l }.libraryReceive J record
        | none => { w with toLibrary := l }
    else none

end World

end TapTunnel.Ipc
