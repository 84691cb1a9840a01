import TapTunnel.Framework.Arrivals
import TapTunnel.Framework.Bytes
import TapTunnel.Handshake.Config
import TapTunnel.Ipc.Protocol
import TapTunnel.Net.ClientIp

namespace TapTunnel.Handshake

open Framework Ipc

/-- Sent by the client at the start; it has no fields yet. -/
structure ClientHello where
  deriving DecidableEq

/-- What the proxy tells about itself. -/
structure ProxyConfig where
  tapIp : IpAddr
  tapMac : Mac
  prefixLen : UInt8
  mtu : UInt16
  deriving DecidableEq

/-- Why one of the programs does not come to its end: an error, the end of the process, a panic,
or a read for which nothing arrives. -/
inductive Stop
  | io (e : IoError)
  | exit (code : Nat)
  | panicked (message : String)
  | waiting
  deriving DecidableEq

/-- What the two programs take from their libraries and from the kernel. `parseArgs` is the
command-line parser of the proxy. -/
structure Host where
  parseIp : Bytes → Option IpAddr
  parseArgs : List Bytes → Option Args
  hello : Serde ClientHello
  proxyConfig : Serde ProxyConfig
  joinNamespace : UInt32 → Except IoError Unit
  createTap : Bytes → Except IoError Unit
  configureInterface : Bytes → Option IpWithPrefix → Option UInt16 → Except IoError Mac
  overflowChecks : Bool

/-- What the client sees when no byte has come for 100 ms: whether the deadline has passed, and
the status of the proxy if that has ended. -/
structure Tick where
  late : Bool
  exited : Option String
  deriving DecidableEq

abbrev Stream := List (Arrival Tick)

def ioResult {α : Type} : Except IoError α → Except Stop α
  | .ok a => .ok a
  | .error e => .error (.io e)

/-- A handshake message is a control message; `unexpected` is the text for a frame. -/
def expectControl {α : Type} (J : Serde α) (unexpected : String) (buf : Bytes) : Except Stop α :=
  match decodeMessage buf with
  | .ok (.control payload) => ioResult (decodeControl J payload)
  | .ok (.frame _) => .error (.io ⟨.invalidData, unexpected⟩)
  | .error e => .error (.io e)

section Proxy

variable (H : Host)

/-- Blocking, so nothing is seen of the time. -/
def readExactFd (n : Nat) (s : Stream) : Except Stop (Bytes × Stream) :=
  readFull (.io ⟨.unexpectedEof, "connection closed"⟩) .waiting (fun _ => none) n s

/-- The bytes that the proxy sends in the handshake. -/
def performHandshake (config : TapConfig) (tapMac : Mac) (s : Stream) : Except Stop Bytes := do
  let (lenBuf, s) ← readExactFd 4 s
  let (buf, _) ← readExactFd (ofBeBytes lenBuf) s
  let _ ← expectControl H.hello "expected ClientHello, got frame" buf
  match config.peerAddr with
  | none => .error (.io ⟨.invalidInput, "tap_addr must be configured"⟩)
  | some (tapIp, prefixLen) =>
    .ok (delimit (encodeControl H.proxyConfig ⟨tapIp, tapMac, prefixLen, config.mtu⟩))

structure Serving where
  config : TapConfig
  tapMac : Mac
  sent : Bytes
  deriving DecidableEq

/-- The MTU is set only where it is not the default one. -/
def mtuOption (mtu : UInt16) : Option UInt16 := if mtu ≠ 1500 then some mtu else none

def run (config : TapConfig) (s : Stream) : Except Stop Serving := do
  ioResult (H.createTap config.interfaceName)
  let tapMac ← ioResult
    (H.configureInterface config.interfaceName config.peerAddr (mtuOption config.mtu))
  let sent ← performHandshake H config tapMac s
  .ok ⟨config, tapMac, sent⟩

/-- `main` of the proxy, up to the relay. With a socket path the stream is that of the first
connection, so both branches come down to `run`. -/
def proxyMain (argv : List Bytes) (s : Stream) : Except Stop Serving :=
  match H.parseArgs argv with
  | none => .error (.exit 2)
  | some args =>
    if args.frameFd = none ∧ args.socketPath = none then .error (.exit 1)
    else match args.pid.map H.joinNamespace with
      | some (.error _) => .error (.exit 1)
      | some (.ok _) | none => run H (buildTapConfig H.parseIp args) s

end Proxy

section Client

variable (H : Host)

/-- A time-out ends the wait for the length when it is late or the proxy has ended. The standard
error of the proxy is not piped, so it adds nothing to the texts. -/
def onQuiet (t : Tick) : Option Stop :=
  if t.late then some (.io ⟨.timedOut, "timed out waiting for proxy handshake"⟩)
  else t.exited.map fun status => .io ⟨.other, "proxy exited with " ++ status⟩

def readLength (s : Stream) : Except Stop (Bytes × Stream) :=
  readFull (.io ⟨.unexpectedEof, "proxy closed connection during handshake"⟩) .waiting onQuiet 4 s

def readBody (n : Nat) (s : Stream) : Except Stop (Bytes × Stream) :=
  readFull (.io ⟨.unexpectedEof, "failed to fill whole buffer"⟩) .waiting (fun _ => none) n s

/-- What the client goes on with: its configuration, and the proxy's side of the link. -/
structure Connected where
  config : TapConfig
  gateway : IpAddr × Mac
  deriving DecidableEq

/-- The address that the client takes, if it can be computed. -/
def clientIp (overflowChecks : Bool) (config : TapConfig) (tapIp : IpAddr) : Option IpAddr :=
  (config.localAddr.map Prod.fst).or (defaultClientIp overflowChecks tapIp)

def pidMac (pid : UInt32) : Mac := #v[0x02, 0x00, 0x00, 0x00, 0x00, (pid &&& 0xff).toUInt8]

def clientHello : Bytes := delimit (encodeControl H.hello {})

/-- The end of `connect_with_config_blocking`, once the hello is sent. -/
def connectWithConfig (pid : UInt32) (config : TapConfig) (s : Stream) :
    Except Stop Connected := do
  let (lenBuf, s) ← readLength s
  let (buf, _) ← readBody (ofBeBytes lenBuf) s
  let proxy ← expectControl H.proxyConfig "expected ProxyConfig, got frame" buf
  match clientIp H.overflowChecks config proxy.tapIp with
  | none => .error (.panicked "attempt to add with overflow")
  | some ip =>
    .ok ⟨{ config with
        peerAddr := some (proxy.tapIp, proxy.prefixLen)
        localAddr := some (ip, proxy.prefixLen)
        mtu := proxy.mtu
        mac := some (config.mac.getD (pidMac pid)) },
      (proxy.tapIp, proxy.tapMac)⟩

end Client

/-- The libraries do what their documentation says: a text that was printed is read back, and
a message that was encoded is decoded and fits behind a 32-bit length. -/
structure Host.Faithful (H : Host) : Prop where
  parseIp : ∀ ip, H.parseIp (ipText ip) = some ip
  hello : H.hello.RoundTrips
  proxyConfig : H.proxyConfig.RoundTrips
  hello_length : ∀ m, (encodeControl H.hello m).length < 2^32
  proxyConfig_length : ∀ m, (encodeControl H.proxyConfig m).length < 2^32

/-- The proxy can be set up for the configuration: the command line comes through, and the kernel
does what it is asked to. -/
structure Host.SetsUp (H : Host) (pid : UInt32) (frameFd : Nat) (config : TapConfig) (mac : Mac) :
    Prop where
  parseArgs : H.parseArgs (spawnArgs pid frameFd config) = some (passedArgs pid frameFd config)
  joinNamespace : H.joinNamespace pid = .ok ()
  createTap : H.createTap config.interfaceName = .ok ()
  configureInterface : H.configureInterface config.interfaceName config.peerAddr
    (mtuOption config.mtu) = .ok mac

end TapTunnel.Handshake
