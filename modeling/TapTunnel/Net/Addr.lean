import Mathlib

namespace TapTunnel

abbrev Bytes := List UInt8

/-- `std::net::IpAddr`, by the bits of its octets in network order. -/
inductive IpAddr
  | v4 (bits : BitVec 32)
  | v6 (bits : BitVec 128)
  deriving DecidableEq, Repr

def IpAddr.isUnspecified : IpAddr → Bool
  | .v4 a => a == 0
  | .v6 a => a == 0

/-- `std::net::SocketAddr`; only the v6 form carries a flow label and a scope. -/
inductive SocketAddr
  | v4 (ip : BitVec 32) (port : UInt16)
  | v6 (ip : BitVec 128) (port : UInt16) (flowinfo scopeId : UInt32)
  deriving DecidableEq, Repr

namespace SocketAddr

def ip : SocketAddr → IpAddr
  | .v4 a _ => .v4 a
  | .v6 a _ _ _ => .v6 a

def port : SocketAddr → UInt16
  | .v4 _ p => p
  | .v6 _ p _ _ => p

end SocketAddr

/-- Address of the smoltcp wire layer. -/
inductive IpAddress
  | ipv4 (bits : BitVec 32)
  | ipv6 (bits : BitVec 128)
  deriving DecidableEq, Repr

inductive IpVersion
  | ipv4
  | ipv6
  deriving DecidableEq, Repr

namespace IpAddress

def version : IpAddress → IpVersion
  | .ipv4 _ => .ipv4
  | .ipv6 _ => .ipv6

def isUnspecified : IpAddress → Bool
  | .ipv4 a => a == 0
  | .ipv6 a => a == 0

def isBroadcast : IpAddress → Bool
  | .ipv4 a => a == .allOnes 32
  | .ipv6 _ => false

/-- 224.0.0.0/4 and ff00::/8. -/
def isMulticast : IpAddress → Bool
  | .ipv4 a => a >>> 28 == 14
  | .ipv6 a => a >>> 120 == 255

def isUnicast (a : IpAddress) : Bool := !(a.isBroadcast || a.isMulticast || a.isUnspecified)

end IpAddress

structure IpEndpoint where
  addr : IpAddress
  port : UInt16
  deriving DecidableEq, Repr

/-- A `none` address listens on every local address. -/
structure IpListenEndpoint where
  addr : Option IpAddress
  port : UInt16
  deriving DecidableEq, Repr

structure IpCidr where
  address : IpAddress
  prefixLen : UInt8
  deriving DecidableEq, Repr

def ipAddrToSmoltcp : IpAddr → IpAddress
  | .v4 a => .ipv4 a
  | .v6 a => .ipv6 a

def smoltcpToIpAddr : IpAddress → IpAddr
  | .ipv4 a => .v4 a
  | .ipv6 a => .v6 a

def makeSocketAddr (ip : IpAddr) (port : UInt16) : SocketAddr :=
  match ip with
  | .v4 a => .v4 a port
  | .v6 a => .v6 a port 0 0

def socketAddrToEndpoint (addr : SocketAddr) : IpEndpoint :=
  ⟨ipAddrToSmoltcp addr.ip, addr.port⟩

def endpointToSocketAddr (endpoint : IpEndpoint) : SocketAddr :=
  makeSocketAddr (smoltcpToIpAddr endpoint.addr) endpoint.port

def socketAddrToListenEndpointWithPort (addr : SocketAddr) (port : UInt16) : IpListenEndpoint :=
  ⟨if addr.ip.isUnspecified then none else some (ipAddrToSmoltcp addr.ip), port⟩

def socketAddrToListenEndpoint (addr : SocketAddr) : IpListenEndpoint :=
  socketAddrToListenEndpointWithPort addr addr.port

inductive ErrorKind
  | invalidInput
  | invalidData
  | addrInUse
  | connectionRefused
  | connectionAborted
  | brokenPipe
  | wouldBlock
  | writeZero
  | outOfMemory
  | unexpectedEof
  | timedOut
  | other
  deriving DecidableEq, Repr

/-- `std::io::Error` with its kind and its text. -/
structure IoError where
  kind : ErrorKind
  message : String
  deriving DecidableEq, Repr

end TapTunnel
