import TapTunnel.Net.Addr

namespace TapTunnel.Ipc

def msgTypeControl : UInt8 := 0x00

def msgTypeFrame : UInt8 := 0x01

/-- Counters of one line of `/proc/net/dev`. -/
structure InterfaceStats where
  rxBytes : UInt64
  rxPackets : UInt64
  rxErrors : UInt64
  rxDropped : UInt64
  txBytes : UInt64
  txPackets : UInt64
  txErrors : UInt64
  txDropped : UInt64
  deriving DecidableEq, Repr

/-- Command sent from the library to the proxy. -/
inductive ProxyCommand
  | addRoute (id : UInt64) (destination : IpAddr) (prefixLen : UInt8)
  | removeRoute (id : UInt64) (destination : IpAddr) (prefixLen : UInt8)
  | getIfaceStats (id : UInt64)
  deriving DecidableEq, Repr

/-- Response of the proxy to a command. Texts stand as their UTF-8 bytes, and the interface map
as the list of its entries. -/
inductive ProxyResponse
  | ok (id : UInt64)
  | error (id : UInt64) (error : Bytes)
  | ifaceStats (id : UInt64) (interfaces : List (Bytes × InterfaceStats))
  deriving DecidableEq, Repr

namespace ProxyCommand

def id : ProxyCommand → UInt64
  | .addRoute id _ _ | .removeRoute id _ _ | .getIfaceStats id => id

def setId (id : UInt64) : ProxyCommand → ProxyCommand
  | .addRoute _ destination prefixLen => .addRoute id destination prefixLen
  | .removeRoute _ destination prefixLen => .removeRoute id destination prefixLen
  | .getIfaceStats _ => .getIfaceStats id

@[simp] theorem id_setId (i : UInt64) (c : ProxyCommand) : (c.setId i).id = i := by
  cases c <;> rfl

end ProxyCommand

def ProxyResponse.id : ProxyResponse → UInt64
  | .ok id | .error id _ | .ifaceStats id _ => id

/-- `serde_json` at one type. -/
structure Serde (T : Type) where
  toVec : T → Bytes
  fromSlice : Bytes → Except String T

/-- What is encoded decodes to itself. -/
def Serde.RoundTrips {T : Type} (J : Serde T) : Prop := ∀ x, J.fromSlice (J.toVec x) = .ok x

/-- Decoded message from the wire. -/
inductive Message
  | control (payload : Bytes)
  | frame (frame : Bytes)
  deriving DecidableEq, Repr

def encodeControl {T : Type} (J : Serde T) (msg : T) : Bytes := msgTypeControl::J.toVec msg

def decodeControl {T : Type} (J : Serde T) (data : Bytes) : Except IoError T :=
  match J.fromSlice data with
  | .ok x => .ok x
  | .error e => .error ⟨.invalidData, e⟩

def encodeFrame (frame : Bytes) : Bytes := msgTypeFrame::frame

def hexDigit (n : UInt8) : Char := Nat.digitChar n.toNat

/-- A byte as `{:02x}` prints it. -/
def hexByte (b : UInt8) : String := String.ofList [hexDigit (b/16), hexDigit (b%16)]

def decodeMessage : Bytes → Except IoError Message
  | [] => .error ⟨.invalidData, "empty message"⟩
  | msgType::payload =>
    if msgType = msgTypeControl then .ok (.control payload)
    else if msgType = msgTypeFrame then .ok (.frame payload)
    else .error ⟨.invalidData, "unknown message type: 0x" ++ hexByte msgType⟩

namespace Message

/-- The bytes that stand for a message. -/
def encode : Message → Bytes
  | .control payload => msgTypeControl::payload
  | .frame f => encodeFrame f

def frame? : Message → Option Bytes
  | .frame f => some f
  | .control _ => none

def control? : Message → Option Bytes
  | .control p => some p
  | .frame _ => none

theorem encode_length_pos (m : Message) : 0 < m.encode.length := by
  cases m <;> simp [encode, encodeFrame]

/-- Decoding undoes encoding. -/
@[simp] theorem decodeMessage_encode (m : Message) : decodeMessage m.encode = .ok m := by
  cases m with
  | control payload => rfl
  | frame f => rfl

theorem map_decodeMessage_encode (ms : List Message) :
    (ms.map encode).map decodeMessage = ms.map .ok := by
  simp [List.map_map, Function.comp_def]

end Message

/-- The frames among some messages, in order. -/
def framesOf (ms : List Message) : List Bytes := ms.filterMap Message.frame?

/-- The control payloads among some messages, in order. -/
def controlsOf (ms : List Message) : List Bytes := ms.filterMap Message.control?

section Concat

variable (ms : List Message)

@[simp] theorem framesOf_concat_frame (f : Bytes) :
    framesOf (ms++[.frame f]) = framesOf ms ++ [f] := List.filterMap_append

@[simp] theorem framesOf_concat_control (p : Bytes) :
    framesOf (ms++[.control p]) = framesOf ms := by
  simp [framesOf, List.filterMap_append, Message.frame?, List.filterMap_cons]

@[simp] theorem controlsOf_concat_frame (f : Bytes) :
    controlsOf (ms++[.frame f]) = controlsOf ms := by
  simp [controlsOf, List.filterMap_append, Message.control?, List.filterMap_cons]

@[simp] theorem controlsOf_concat_control (p : Bytes) :
    controlsOf (ms++[.control p]) = controlsOf ms ++ [p] := List.filterMap_append

end Concat

theorem decodeControl_toVec {T : Type} {J : Serde T} (hJ : J.RoundTrips) (msg : T) :
    decodeControl J (J.toVec msg) = .ok msg := by
  simp [decodeControl, hJ msg]

end TapTunnel.Ipc
