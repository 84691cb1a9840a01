import TapTunnel.Framework.Simulation
import TapTunnel.Ipc.BookMoves
import TapTunnel.Ipc.Correlation
import TapTunnel.Ipc.ProcNetDev

namespace TapTunnel.Ipc

open Framework

/-- What `RouteMessageBuilder` puts together for a device route. -/
structure RouteMessage where
  destination : IpAddr
  prefixLen : UInt8
  outputInterface : UInt32
  deriving DecidableEq, Repr

/-- The system under the proxy, as rtnetlink and `/proc/net/dev` show it. The proxy changes it by
its requests, others by `other`. Errors come as their texts. -/
structure Netlink (K E : Type) where
  link : K → Bytes → Except Bytes (Option UInt32)
  add : RouteMessage → K → Except Bytes Unit × K
  del : RouteMessage → K → Except Bytes Unit × K
  procNetDev : K → Except Bytes (List Char)
  other : E → K → K

section Route

variable {K E : Type} (N : Netlink K E)

def getLinkIndex (ifaceName : Bytes) (k : K) : Except Bytes UInt32 :=
  match N.link k ifaceName with
  | .error e => .error (ascii "failed to query link " ++ ifaceName ++ ascii ": " ++ e)
  | .ok none => .error (ascii "interface " ++ ifaceName ++ ascii " not found")
  | .ok (some index) => .ok index

/-- What `add_route` and `remove_route` do with what `get_link_index` has returned. -/
def requestRoute (request : RouteMessage → K → Except Bytes Unit × K) (failed : String)
    (link : Except Bytes UInt32) (destination : IpAddr) (prefixLen : UInt8) (k : K) :
    Except Bytes Unit × K :=
  match link with
  | .error e => (.error e, k)
  | .ok index =>
    let r := request ⟨destination, prefixLen, index⟩ k
    (r.1.mapError (ascii failed ++ ·), r.2)

def addRoute := requestRoute N.add "failed to add route: "

def removeRoute := requestRoute N.del "failed to delete route: "

/-- The answers that a command gets at a moment, behind the link it has found before. -/
def kernelAt (link : Except Bytes UInt32) (k : K) : Kernel where
  addRoute destination prefixLen := (addRoute N link destination prefixLen k).1
  removeRoute destination prefixLen := (removeRoute N link destination prefixLen k).1
  procNetDev := (N.procNetDev k).map fun content =>
    (readProcNetDev content).entries.map fun e => (e.1.flatMap String.utf8EncodeChar, e.2)

/-- `handle_proxy_command` with what it does to the system. -/
def serve (link : Except Bytes UInt32) (cmd : ProxyCommand) (k : K) : ProxyResponse × K :=
  (handleProxyCommand (kernelAt N link k) cmd,
    match cmd with
    | .addRoute _ destination prefixLen => (addRoute N link destination prefixLen k).2
    | .removeRoute _ destination prefixLen => (removeRoute N link destination prefixLen k).2
    | .getIfaceStats _ => k)

end Route

/-- What happens to the system in the course of a run: the proxy asks for the index of its link,
requests a route of its command line, or carries out a command; or others change something. -/
inductive RouteEvent (E : Type)
  | query
  | initial (destination : IpAddr) (prefixLen : UInt8)
  | carry (cmd : ProxyCommand)
  | other (e : E)
  deriving DecidableEq, Repr

def RouteEvent.initialOf {E : Type} : RouteEvent E → Option (IpAddr × UInt8)
  | .initial destination prefixLen => some (destination, prefixLen)
  | _ => none

/-- One party that takes one command at a time: the system, the index of the link once it has been
asked for, and the commands with their responses. -/
structure RouteState (K : Type) where
  kernel : K
  link : Option (Except Bytes UInt32)
  handled : List (ProxyCommand × ProxyResponse)
  deriving DecidableEq

def ProxyCommand.needsLink : ProxyCommand → Bool
  | .addRoute _ _ _ | .removeRoute _ _ _ => true
  | .getIfaceStats _ => false

/-- The index of the link is asked for once before each request for a route. -/
def RouteState.step {K E : Type} (N : Netlink K E) (ifaceName : Bytes) :
    RouteEvent E → RouteState K → Option (RouteState K)
  | .query, st =>
    if st.link = none then some { st with link := some (getLinkIndex N ifaceName st.kernel) }
    else none
  | .initial destination prefixLen, st =>
    st.link.map fun link => { st with
      kernel := (addRoute N link destination prefixLen st.kernel).2
      link := none }
  | .carry cmd, st =>
    if cmd.needsLink = st.link.isSome then
      let r := serve N (st.link.getD (.error [])) cmd st.kernel
      some ⟨r.2, none, st.handled ++ [(cmd, r.1)]⟩
    else none
  | .other e, st => some { st with kernel := N.other e st.kernel }

/-- The proxy's side of the routes with all calls and both links. `initial` are the routes of the
command line that `run_proxy` has not requested yet, `link` is what `get_link_index` has returned
for the route in hand. -/
structure RouteSystem (K E : Type) where
  world : World
  kernel : K
  initial : List (IpAddr × UInt8)
  link : Option (Except Bytes UInt32)
  log : List (RouteEvent E)

inductive RouteAction (E : Type)
  | base (a : Action)
  | query
  | request
  | other (e : E)

def Action.handles : Action → Bool
  | .handle _ => true
  | _ => false

/-- Steps of the tasks that `run_frame_relay` starts. -/
def Action.ofRelay : Action → Bool
  | .toProxy (.read _) => true
  | .toLibrary (.send .abort) => false
  | .toLibrary (.send _) => true
  | _ => false

/-- What the proxy does with its netlink socket: the routes of the command line come first. -/
inductive RouteJob
  | initial (destination : IpAddr) (prefixLen : UInt8)
  | command (cmd : ProxyCommand)
  deriving DecidableEq, Repr

def RouteJob.needsLink : RouteJob → Bool
  | .initial _ _ => true
  | .command cmd => cmd.needsLink

namespace RouteSystem

variable {K E : Type}

def init (routes : List (IpAddr × UInt8)) (k : K) (mtu : UInt16) : RouteSystem K E where
  world := World.init mtu
  kernel := k
  initial := routes
  link := none
  log := []

def job (s : RouteSystem K E) : Option RouteJob :=
  match s.initial with
  | (destination, prefixLen)::_ => some (.initial destination prefixLen)
  | [] =>
    match s.world.proxy with
    | .handling cmd => some (.command cmd)
    | .reading | .responding _ => none

variable (J : Codec) (N : Netlink K E) (ifaceName : Bytes)

/-- An initial route that cannot be added is only logged. -/
def request (s : RouteSystem K E) : RouteJob → Option (RouteSystem K E)
  | .initial destination prefixLen => some { s with
      kernel := (addRoute N (s.link.getD (.error [])) destination prefixLen s.kernel).2
      initial := s.initial.tail
      link := none
      log := s.log ++ [.initial destination prefixLen] }
  | .command cmd =>
    (World.step J (.handle (kernelAt N (s.link.getD (.error [])) s.kernel)) s.world).map fun w =>
      { s with
        world := w
        kernel := (serve N (s.link.getD (.error [])) cmd s.kernel).2
        link := none
        log := s.log ++ [.carry cmd] }

/-- The index is asked for before each request for a route, and others may act in between. -/
def step : RouteAction E → RouteSystem K E → Option (RouteSystem K E)
  | .base a, s =>
    if a.handles || (a.ofRelay && !s.initial.isEmpty) then none
    else (World.step J a s.world).map fun w => { s with world := w }
  | .query, s =>
    match s.job with
    | some job =>
      if job.needsLink && s.link.isNone then
        some { s with
          link := some (getLinkIndex N ifaceName s.kernel)
          log := s.log ++ [.query] }
      else none
    | none => none
  | .request, s =>
    match s.job with
    | some job => if job.needsLink = s.link.isSome then s.request J N job else none
    | none => none
  | .other e, s => some { s with
      kernel := N.other e s.kernel
      log := s.log ++ [.other e] }

/-- Steps of the links and calls are as in `StepFits`. -/
def Fits (mtu : UInt16) (s : RouteSystem K E) : RouteAction E → Prop
  | .base a => StepFits J mtu s.world a
  | .query | .request | .other _ => True

end RouteSystem

end TapTunnel.Ipc
