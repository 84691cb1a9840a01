import TapTunnel.Handshake.Exchange
import TapTunnel.Ipc.Json

namespace TapTunnel.Handshake

open Framework Ipc

def dash : UInt8 := 45

/-- A command line of options that are each followed by their value. A value that looks like an
option is refused. -/
def readOptions : List Bytes → Option (List (Bytes × Bytes))
  | [] => some []
  | [_] => none
  | name::value::rest =>
    if value.head? = some dash ∧ value ≠ [dash] then none
    else (readOptions rest).map ((name, value)::·)

/-- A parser of command lines in place of `clap`. -/
def readArgs (argv : List Bytes) : Option Args := (readOptions argv).bind argsOf

def ClientHello.toJson (_ : ClientHello) : Json := object []

def readHello (j : Json) : Option ClientHello := j.obj?.map fun _ => {}

def bytesJson : List UInt8 → Items
  | [] => .nil
  | b::bs => .cons (.num b.toNat) (bytesJson bs)

def readBytes : Items → Option (List UInt8)
  | .nil => some []
  | .cons value rest => (readU8 value).bind fun b => (readBytes rest).map fun bs => b::bs

theorem readBytes_bytesJson (bs : List UInt8) : readBytes (bytesJson bs) = some bs := by
  induction bs with
  | nil => rfl
  | cons b bs ih => simp [bytesJson, readBytes, ih]

def readMac (items : Items) : Option Mac :=
  (readBytes items).bind fun bs =>
    if h : bs.length = 6 then some ⟨bs.toArray, by simpa using h⟩ else none

theorem readMac_bytesJson (mac : Mac) : readMac (bytesJson mac.toList) = some mac := by
  have harray : mac.toList.toArray = mac.toArray := Array.toArray_toList
  simp [readMac, readBytes_bytesJson, harray]

def readU16 (j : Json) : Option UInt16 :=
  j.num?.bind fun n => if n < 2^16 then some (.ofNat n) else none

@[simp] theorem readU16_num (n : UInt16) : readU16 (.num n.toNat) = some n := by
  have := UInt16.toNat_lt n
  simp [readU16, Json.num?]
  omega

def ProxyConfig.toJson (c : ProxyConfig) : Json :=
  object [("tap_ip", .str (ipText c.tapIp)), ("tap_mac", .arr (bytesJson c.tapMac.toList)),
    ("prefix_len", .num c.prefixLen.toNat), ("mtu", .num c.mtu.toNat)]

/-- A message of an older proxy may have no `mtu`. -/
def readProxyConfig (j : Json) : Option ProxyConfig :=
  j.obj?.bind fun ms => (ms.take "tap_ip").bind fun a => (a.1.str?.bind readIp).bind fun tapIp =>
    (a.2.take "tap_mac").bind fun m => (m.1.arr?.bind readMac).bind fun tapMac =>
      (m.2.take "prefix_len").bind fun p => (readU8 p.1).bind fun prefixLen =>
        ((p.2.take "mtu").map fun v => readU16 v.1).getD (some 1500) |>.map fun mtu =>
          ⟨tapIp, tapMac, prefixLen, mtu⟩

theorem readProxyConfig_toJson (c : ProxyConfig) : readProxyConfig c.toJson = some c := by
  simp only [ProxyConfig.toJson, object, List.foldr_cons, readProxyConfig, Json.obj?, Json.str?,
    Json.arr?, Members.take_cons, Option.bind_some, readIp_ipText, readMac_bytesJson, readU8_num,
    readU16_num, Option.map_some, Option.getD_some]

theorem bytesJson_length_le (bs : List UInt8) (first : Bool) :
    ((bytesJson bs).render first).length ≤ 4*bs.length+1 := by
  induction bs generalizing first with
  | nil => simp [bytesJson, Items.render]
  | cons b bs ih =>
    have hlt := UInt8.toNat_lt b
    have hb : (numeral 10 b.toNat).length ≤ 3 :=
      numeral_length_le (by decide) (by decide) (by omega)
    have hbs := ih false
    simp only [bytesJson, Items.render, Json.render, List.length_append, List.length_cons]
    cases first <;> simp <;> omega

theorem proxyConfig_length_lt (c : ProxyConfig) : c.toJson.render.length < 2000 := by
  have hip := quote_ipText_length_le c.tapIp
  have hmac := bytesJson_length_le c.tapMac.toList true
  have hlen : c.tapMac.toList.length = 6 := by simp
  have hlt8 := UInt8.toNat_lt c.prefixLen
  have hlt16 := UInt16.toNat_lt c.mtu
  have hprefix : (numeral 10 c.prefixLen.toNat).length ≤ 3 :=
    numeral_length_le (by decide) (by decide) (by omega)
  have hmtu : (numeral 10 c.mtu.toNat).length ≤ 5 :=
    numeral_length_le (by decide) (by decide) (by omega)
  have h1 : (quote (ascii "tap_ip")).length = 8 := by decide
  have h2 : (quote (ascii "tap_mac")).length = 9 := by decide
  have h3 : (quote (ascii "prefix_len")).length = 12 := by decide
  have h4 : (quote (ascii "mtu")).length = 5 := by decide
  simp only [ProxyConfig.toJson, object, List.foldr_cons, List.foldr_nil, Json.render,
    Members.render, List.length_append, List.length_cons, List.length_nil, if_true,
    Bool.false_eq_true, if_false, h1, h2, h3, h4]
  omega

/-- Programs that do what is documented, in a namespace that can be joined. -/
def refHost (mac : Mac) (overflowChecks : Bool) : Host where
  parseIp := readIp
  parseArgs := readArgs
  hello := serdeOf ClientHello.toJson readHello
  proxyConfig := serdeOf ProxyConfig.toJson readProxyConfig
  joinNamespace _ := .ok ()
  createTap _ := .ok ()
  configureInterface _ _ _ := .ok mac
  overflowChecks := overflowChecks

theorem refHost_faithful (mac : Mac) (overflowChecks : Bool) :
    (refHost mac overflowChecks).Faithful where
  parseIp := readIp_ipText
  hello := serdeOf_roundTrips fun _ => rfl
  proxyConfig := serdeOf_roundTrips readProxyConfig_toJson
  hello_length _ := by
    show (_ :: Json.render (object [])).length < 2^32
    decide
  proxyConfig_length c := by
    have h := proxyConfig_length_lt c
    show (_ :: c.toJson.render).length < 2^32
    rw [List.length_cons]
    omega

end TapTunnel.Handshake
