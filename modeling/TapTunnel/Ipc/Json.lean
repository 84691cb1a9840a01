import TapTunnel.Framework.Json
import TapTunnel.Ipc.Commands
import TapTunnel.Net.AddrText

namespace TapTunnel.Ipc

open Framework

def u64Json (n : UInt64) : Json := .num n.toNat

def readU64 (j : Json) : Option UInt64 :=
  j.num?.bind fun n => if n < 2^64 then some (.ofNat n) else none

def readU8 (j : Json) : Option UInt8 :=
  j.num?.bind fun n => if n < 2^8 then some (.ofNat n) else none

@[simp] theorem readU64_u64Json (n : UInt64) : readU64 (u64Json n) = some n := by
  have := UInt64.toNat_lt n
  simp [readU64, u64Json, Json.num?]
  omega

@[simp] theorem readU8_num (n : UInt8) : readU8 (.num n.toNat) = some n := by
  have := UInt8.toNat_lt n
  simp [readU8, Json.num?]
  omega

/-- Nothing in an address has to be escaped. -/
theorem escapeByte_ipText (ip : IpAddr) : ∀ b ∈ ipText ip, escapeByte b = [b] := by
  intro b hb
  have hnot : ∀ c, IsMark c ∧ c ≠ dot ∧ c ≠ colon → b ≠ c := by
    intro c hc he
    exact mark_notMem_ipText ip hc.1 hc.2.1 hc.2.2 (he ▸ hb)
  have hge : 32 ≤ b := by
    by_contra hlt
    have hlt' : b.toNat < 32 := by simpa [UInt8.le_iff_toNat_le] using hlt
    refine hnot b ⟨⟨?_, ?_⟩, ?_, ?_⟩ rfl
    · simp [UInt8.le_iff_toNat_le]
      omega
    · simp [UInt8.le_iff_toNat_le]
      omega
    · simp [← UInt8.toNat_inj, dot]
      omega
    · simp [← UInt8.toNat_inj, colon]
      omega
  apply escapeByte_eq hge
  · exact hnot 34 (by unfold IsMark; decide)
  · exact hnot 92 (by unfold IsMark; decide)

theorem quote_ipText_length_le (ip : IpAddr) : (quote (ipText ip)).length ≤ 41 := by
  have hlen := ipText_length_le ip
  rw [quote_length (escapeByte_ipText ip)]
  omega

/-- Internally tagged, with the tag in front. -/
def ProxyCommand.toJson : ProxyCommand → Json
  | .addRoute id destination prefixLen => object [("cmd", .str (ascii "AddRoute")),
      ("id", u64Json id), ("destination", .str (ipText destination)),
      ("prefix_len", .num prefixLen.toNat)]
  | .removeRoute id destination prefixLen => object [("cmd", .str (ascii "RemoveRoute")),
      ("id", u64Json id), ("destination", .str (ipText destination)),
      ("prefix_len", .num prefixLen.toNat)]
  | .getIfaceStats id => object [("cmd", .str (ascii "GetIfaceStats")), ("id", u64Json id)]

/-- The two fields behind the id of a route command. -/
def readRoute (ms : Members) : Option (IpAddr × UInt8) :=
  (ms.take "destination").bind fun d => (d.1.str?.bind readIp).bind fun ip =>
    (d.2.take "prefix_len").bind fun p => (readU8 p.1).map fun len => (ip, len)

theorem readRoute_cons (d : IpAddr) (p : UInt8) (rest : Members) :
    readRoute (.cons (ascii "destination") (.str (ipText d))
      (.cons (ascii "prefix_len") (.num p.toNat) rest)) = some (d, p) := by
  simp only [readRoute, Members.take_cons, Json.str?, Option.bind_some, readIp_ipText, readU8_num,
    Option.map_some]

def readCommand (j : Json) : Option ProxyCommand :=
  j.obj?.bind fun ms => (ms.take "cmd").bind fun t => t.1.str?.bind fun tag =>
    (t.2.take "id").bind fun i => (readU64 i.1).bind fun id =>
      if tag = ascii "AddRoute" then (readRoute i.2).map fun r => .addRoute id r.1 r.2
      else if tag = ascii "RemoveRoute" then (readRoute i.2).map fun r => .removeRoute id r.1 r.2
      else if tag = ascii "GetIfaceStats" then some (.getIfaceStats id)
      else none

theorem readCommand_toJson (c : ProxyCommand) : readCommand c.toJson = some c := by
  have h1 : ascii "RemoveRoute" ≠ ascii "AddRoute" := by decide
  have h2 : ascii "GetIfaceStats" ≠ ascii "AddRoute" := by decide
  have h3 : ascii "GetIfaceStats" ≠ ascii "RemoveRoute" := by decide
  cases c with
  | addRoute id d p =>
    simp only [ProxyCommand.toJson, object, List.foldr_cons, readCommand, Json.obj?, Json.str?,
      Members.take_cons, Option.bind_some, readU64_u64Json, readRoute_cons, Option.map_some,
      if_true]
  | removeRoute id d p =>
    simp only [ProxyCommand.toJson, object, List.foldr_cons, readCommand, Json.obj?, Json.str?,
      Members.take_cons, Option.bind_some, readU64_u64Json, readRoute_cons, Option.map_some,
      if_true, if_neg h1]
  | getIfaceStats id =>
    simp only [ProxyCommand.toJson, object, List.foldr_cons, readCommand, Json.obj?, Json.str?,
      Members.take_cons, Option.bind_some, readU64_u64Json, if_true, if_neg h2, if_neg h3]

def InterfaceStats.toJson (s : InterfaceStats) : Json :=
  object [("rx_bytes", u64Json s.rxBytes), ("rx_packets", u64Json s.rxPackets),
    ("rx_errors", u64Json s.rxErrors), ("rx_dropped", u64Json s.rxDropped),
    ("tx_bytes", u64Json s.txBytes), ("tx_packets", u64Json s.txPackets),
    ("tx_errors", u64Json s.txErrors), ("tx_dropped", u64Json s.txDropped)]

def takeU64 (name : String) (ms : Members) : Option (UInt64 × Members) :=
  (ms.take name).bind fun v => (readU64 v.1).map fun n => (n, v.2)

@[simp] theorem takeU64_cons (name : String) (n : UInt64) (rest : Members) :
    takeU64 name (.cons (ascii name) (u64Json n) rest) = some (n, rest) := by
  simp [takeU64]

def readStats (j : Json) : Option InterfaceStats := do
  let ms ← j.obj?
  let (rxBytes, ms) ← takeU64 "rx_bytes" ms
  let (rxPackets, ms) ← takeU64 "rx_packets" ms
  let (rxErrors, ms) ← takeU64 "rx_errors" ms
  let (rxDropped, ms) ← takeU64 "rx_dropped" ms
  let (txBytes, ms) ← takeU64 "tx_bytes" ms
  let (txPackets, ms) ← takeU64 "tx_packets" ms
  let (txErrors, ms) ← takeU64 "tx_errors" ms
  let (txDropped, _) ← takeU64 "tx_dropped" ms
  some ⟨rxBytes, rxPackets, rxErrors, rxDropped, txBytes, txPackets, txErrors, txDropped⟩

theorem readStats_toJson (s : InterfaceStats) : readStats s.toJson = some s := by
  simp only [readStats, InterfaceStats.toJson, object, List.foldr_cons, Json.obj?, takeU64_cons,
    Option.bind_eq_bind, Option.bind_some]

def interfacesJson : List (Bytes × InterfaceStats) → Members
  | [] => .nil
  | i::is => .cons i.1 i.2.toJson (interfacesJson is)

def readInterfaces : Members → Option (List (Bytes × InterfaceStats))
  | .nil => some []
  | .cons key value rest =>
    (readStats value).bind fun s => (readInterfaces rest).map fun is => (key, s)::is

theorem readInterfaces_interfacesJson (is : List (Bytes × InterfaceStats)) :
    readInterfaces (interfacesJson is) = some is := by
  induction is with
  | nil => rfl
  | cons i is ih => simp [interfacesJson, readInterfaces, readStats_toJson, ih]

def ProxyResponse.toJson : ProxyResponse → Json
  | .ok id => object [("status", .str (ascii "Ok")), ("id", u64Json id)]
  | .error id e => object [("status", .str (ascii "Error")), ("id", u64Json id), ("error", .str e)]
  | .ifaceStats id interfaces => object [("status", .str (ascii "IfaceStats")),
      ("id", u64Json id), ("interfaces", .obj (interfacesJson interfaces))]

def readResponse (j : Json) : Option ProxyResponse :=
  j.obj?.bind fun ms => (ms.take "status").bind fun t => t.1.str?.bind fun tag =>
    (t.2.take "id").bind fun i => (readU64 i.1).bind fun id =>
      if tag = ascii "Ok" then some (.ok id)
      else if tag = ascii "Error" then
        (i.2.take "error").bind fun e => e.1.str?.map fun text => .error id text
      else if tag = ascii "IfaceStats" then
        (i.2.take "interfaces").bind fun is => is.1.obj?.bind fun ms =>
          (readInterfaces ms).map fun interfaces => .ifaceStats id interfaces
      else none

theorem readResponse_toJson (r : ProxyResponse) : readResponse r.toJson = some r := by
  have h1 : ascii "Error" ≠ ascii "Ok" := by decide
  have h2 : ascii "IfaceStats" ≠ ascii "Ok" := by decide
  have h3 : ascii "IfaceStats" ≠ ascii "Error" := by decide
  cases r with
  | ok id =>
    simp only [ProxyResponse.toJson, object, List.foldr_cons, readResponse, Json.obj?, Json.str?,
      Members.take_cons, Option.bind_some, readU64_u64Json, if_true]
  | error id e =>
    simp only [ProxyResponse.toJson, object, List.foldr_cons, readResponse, Json.obj?, Json.str?,
      Members.take_cons, Option.bind_some, readU64_u64Json, Option.map_some, if_true, if_neg h1]
  | ifaceStats id interfaces =>
    simp only [ProxyResponse.toJson, object, List.foldr_cons, readResponse, Json.obj?, Json.str?,
      Members.take_cons, Option.bind_some, readU64_u64Json, readInterfaces_interfacesJson,
      Option.map_some, if_true, if_neg h2, if_neg h3]

def serdeOf {T : Type} (toJson : T → Json) (read : Json → Option T) : Serde T where
  toVec x := (toJson x).render
  fromSlice bs := match (parseJson bs).bind read with
    | some x => .ok x
    | none => .error "invalid message"

theorem serdeOf_roundTrips {T : Type} {toJson : T → Json} {read : Json → Option T}
    (h : ∀ x, read (toJson x) = some x) : (serdeOf toJson read).RoundTrips := by
  intro x
  simp [serdeOf, parseJson_render, h]

/-- The compact texts that `serde_json` writes for the two types, and a reader of them. -/
def compactJson : Codec :=
  ⟨serdeOf ProxyCommand.toJson readCommand, serdeOf ProxyResponse.toJson readResponse⟩

theorem compactJson_roundTrips : compactJson.RoundTrips :=
  ⟨serdeOf_roundTrips readCommand_toJson, serdeOf_roundTrips readResponse_toJson⟩

end TapTunnel.Ipc
