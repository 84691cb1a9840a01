import TapTunnel.Framework.Json
import TapTunnel.Net.AddrText
import TapTunnel.Net.ClientIp

namespace TapTunnel.Handshake

open Framework

abbrev Mac := Vector UInt8 6

/-- An address with the length of its prefix. -/
abbrev IpWithPrefix := IpAddr × UInt8

/-- `TapConfig`, which both programs use. Texts are given by their UTF-8 bytes. -/
structure TapConfig where
  interfaceName : Bytes
  peerAddr : Option IpWithPrefix
  localAddr : Option IpWithPrefix
  mac : Option Mac
  packetLossPercent : UInt8
  peerRoutes : List IpWithPrefix
  mtu : UInt16
  deriving DecidableEq

def TapConfig.default : TapConfig where
  interfaceName := ascii "tap0"
  peerAddr := none
  localAddr := none
  mac := none
  packetLossPercent := 0
  peerRoutes := []
  mtu := 1500

def maxPrefix : IpAddr → Nat
  | .v4 _ => 32
  | .v6 _ => 128

def PrefixValid (p : IpWithPrefix) : Prop := p.2.toNat ≤ maxPrefix p.1

instance (p : IpWithPrefix) : Decidable (PrefixValid p) :=
  inferInstanceAs (Decidable (p.2.toNat ≤ maxPrefix p.1))

/-- Every prefix is one of its address family. -/
structure TapConfig.PrefixesValid (config : TapConfig) : Prop where
  peer : ∀ p ∈ config.peerAddr, PrefixValid p
  client : ∀ p ∈ config.localAddr, PrefixValid p
  routes : ∀ p ∈ config.peerRoutes, PrefixValid p

def slash : UInt8 := 47

def plus : UInt8 := 43

/-- `format!("{}/{}", ip, prefix)` -/
def prefixText (p : IpWithPrefix) : Bytes := ipText p.1 ++ slash::numeral 10 p.2.toNat

/-- Arguments that `spawn_proxy` gives to the proxy. -/
def spawnArgs (pid : UInt32) (frameFd : Nat) (config : TapConfig) : List Bytes :=
  [ascii "--pid", numeral 10 pid.toNat, ascii "--frame-fd", numeral 10 frameFd,
    ascii "--tap-name", config.interfaceName] ++
  (config.peerAddr.map fun p => [ascii "--tap-addr", prefixText p]).getD [] ++
  [ascii "--mtu", numeral 10 config.mtu.toNat] ++
  config.peerRoutes.flatMap fun r => [ascii "--tap-route", prefixText r]

/-- What the proxy gets from its command line. -/
structure Args where
  pid : Option UInt32
  frameFd : Option Nat
  socketPath : Option Bytes
  tapName : Bytes
  tapAddr : Option Bytes
  packetLoss : UInt8
  tapRoute : List Bytes
  mtu : UInt16
  deriving DecidableEq

/-- `str::parse` at an unsigned type with `limit` values; it takes a leading `+` and leading
zeros. -/
def parseUnsigned (limit : Nat) (text : Bytes) : Option Nat :=
  (readNumeral 10 (if text.head? = some plus then text.tail else text)).bind fun n =>
    if n < limit then some n else none

def parseU8 (text : Bytes) : Option UInt8 := (parseUnsigned (2^8) text).map .ofNat

/-- The texts of the options of `Args`. -/
structure RawArgs where
  pid : Option Bytes := none
  frameFd : Option Bytes := none
  socketPath : Option Bytes := none
  tapName : Option Bytes := none
  tapAddr : Option Bytes := none
  packetLoss : Option Bytes := none
  tapRoute : List Bytes := []
  mtu : Option Bytes := none

/-- An option that takes one value may stand once. -/
def setOnce (old : Option Bytes) (value : Bytes) : Option (Option Bytes) :=
  if old = none then some (some value) else none

def RawArgs.addOption (raw : RawArgs) (option : Bytes × Bytes) : Option RawArgs :=
  let (name, value) := option
  if name = ascii "--pid" then (setOnce raw.pid value).map fun v => { raw with pid := v }
  else if name = ascii "--frame-fd" then
    (setOnce raw.frameFd value).map fun v => { raw with frameFd := v }
  else if name = ascii "--socket-path" then
    (setOnce raw.socketPath value).map fun v => { raw with socketPath := v }
  else if name = ascii "--tap-name" then
    (setOnce raw.tapName value).map fun v => { raw with tapName := v }
  else if name = ascii "--tap-addr" then
    (setOnce raw.tapAddr value).map fun v => { raw with tapAddr := v }
  else if name = ascii "--packet-loss" then
    (setOnce raw.packetLoss value).map fun v => { raw with packetLoss := v }
  else if name = ascii "--mtu" then (setOnce raw.mtu value).map fun v => { raw with mtu := v }
  else if name = ascii "--tap-route" then some { raw with tapRoute := raw.tapRoute ++ [value] }
  else none

/-- An option with a number, or its default. -/
def numberOr (limit default : Nat) : Option Bytes → Option Nat
  | none => some default
  | some text => parseUnsigned limit text

/-- `frame_fd` and `socket_path` exclude each other. -/
def RawArgs.args (raw : RawArgs) : Option Args := do
  if raw.frameFd ≠ none ∧ raw.socketPath ≠ none then none
  else
    let pid ← numberOr (2^32) 0 raw.pid
    let frameFd ← numberOr (2^31) 0 raw.frameFd
    let packetLoss ← numberOr (2^8) 0 raw.packetLoss
    let mtu ← numberOr (2^16) 1500 raw.mtu
    some {
      pid := raw.pid.map fun _ => .ofNat pid
      frameFd := raw.frameFd.map fun _ => frameFd
      socketPath := raw.socketPath
      tapName := raw.tapName.getD (ascii "tap0")
      tapAddr := raw.tapAddr
      packetLoss := .ofNat packetLoss
      tapRoute := raw.tapRoute
      mtu := .ofNat mtu }

/-- What the attributes of `Args` say of the options of a command line and their values. -/
def argsOf (options : List (Bytes × Bytes)) : Option Args :=
  (options.foldlM RawArgs.addOption {}).bind RawArgs.args

section Parsing

-- `str::parse::<IpAddr>`
variable (parseIp : Bytes → Option IpAddr)

def parseIpPrefix (s : Bytes) : Option IpWithPrefix :=
  match s.splitOn slash with
  | [addr, len] =>
    (parseIp addr).bind fun ip => (parseU8 len).bind fun prefixLen =>
      if maxPrefix ip < prefixLen.toNat then none else some (ip, prefixLen)
  | _ => none

/-- One round of the loop over the routes; a route that cannot be read is only logged. -/
def addRoute (config : TapConfig) (route : Bytes) : TapConfig :=
  match parseIpPrefix parseIp route with
  | some p => { config with peerRoutes := config.peerRoutes ++ [p] }
  | none => config

/-- The same goes for an address that cannot be read. -/
def buildTapConfig (args : Args) : TapConfig :=
  let config := { TapConfig.default with
    interfaceName := args.tapName
    packetLossPercent := args.packetLoss
    mtu := args.mtu }
  let config := match args.tapAddr.bind (parseIpPrefix parseIp) with
    | some p => { config with peerAddr := some p }
    | none => config
  args.tapRoute.foldl (addRoute parseIp) config

end Parsing

/-- The arguments as they were meant: each option with its text, the others left at their
defaults. -/
def passedArgs (pid : UInt32) (frameFd : Nat) (config : TapConfig) : Args where
  pid := some pid
  frameFd := some frameFd
  socketPath := none
  tapName := config.interfaceName
  tapAddr := config.peerAddr.map prefixText
  packetLoss := 0
  tapRoute := config.peerRoutes.map prefixText
  mtu := config.mtu

/-- The part of the configuration that is passed on, over the defaults of the proxy. -/
def passedConfig (config : TapConfig) : TapConfig :=
  { TapConfig.default with
    interfaceName := config.interfaceName
    peerAddr := config.peerAddr
    peerRoutes := config.peerRoutes
    mtu := config.mtu }

theorem parseUnsigned_numeral {limit n : Nat} (h : n < limit) :
    parseUnsigned limit (numeral 10 n) = some n := by
  have hmark : IsMark plus := by
    unfold IsMark
    decide
  have hplus : (numeral 10 n).head? ≠ some plus := by
    intro hhead
    have hmem := List.mem_of_mem_head? hhead
    exact mark_notMem_numeral (by decide) (by decide) n hmark hmem
  rw [parseUnsigned, if_neg hplus, readNumeral_numeral (by decide) (by decide), Option.bind_some,
    if_pos h]

theorem parseU8_numeral (n : UInt8) : parseU8 (numeral 10 n.toNat) = some n := by
  rw [parseU8, parseUnsigned_numeral (UInt8.toNat_lt n), Option.map_some, UInt8.ofNat_toNat]

theorem prefixText_splitOn (p : IpWithPrefix) :
    (prefixText p).splitOn slash = [ipText p.1, numeral 10 p.2.toNat] := by
  have hmark : IsMark slash := by
    unfold IsMark
    decide
  have hip : slash ∉ ipText p.1 := mark_notMem_ipText p.1 hmark (by decide) (by decide)
  have hlen : slash ∉ numeral 10 p.2.toNat := mark_notMem_numeral (by decide) (by decide) _ hmark
  rw [splitOn_eq_pair]
  refine ⟨?_, rfl⟩
  rw [prefixText, List.count_append, List.count_cons_self, List.count_eq_zero.mpr hip,
    List.count_eq_zero.mpr hlen]

section RoundTrip

variable {parseIp : Bytes → Option IpAddr} (hparse : ∀ ip, parseIp (ipText ip) = some ip)

include hparse

/-- The proxy reads back every address that the client writes. -/
theorem parseIpPrefix_prefixText {p : IpWithPrefix} (hp : PrefixValid p) :
    parseIpPrefix parseIp (prefixText p) = some p := by
  rw [parseIpPrefix, prefixText_splitOn]
  simp only [hparse, parseU8_numeral, Option.bind_some]
  rw [if_neg (Nat.not_lt.mpr hp)]

theorem foldl_addRoute {routes : List IpWithPrefix} (hr : ∀ p ∈ routes, PrefixValid p)
    (config : TapConfig) :
    (routes.map prefixText).foldl (addRoute parseIp) config =
      { config with peerRoutes := config.peerRoutes ++ routes } := by
  induction routes generalizing config with
  | nil => simp
  | cons p routes ih =>
    have hp := parseIpPrefix_prefixText hparse (hr p List.mem_cons_self)
    rw [List.map_cons, List.foldl_cons, addRoute, hp,
      ih fun q hq => hr q (List.mem_cons_of_mem p hq)]
    simp

/-- The proxy builds the client's configuration again, as far as it was passed on. -/
theorem buildTapConfig_passedArgs (pid : UInt32) (frameFd : Nat) {config : TapConfig}
    (hpeer : ∀ p ∈ config.peerAddr, PrefixValid p)
    (hroutes : ∀ p ∈ config.peerRoutes, PrefixValid p) :
    buildTapConfig parseIp (passedArgs pid frameFd config) = passedConfig config := by
  have haddr : (config.peerAddr.map prefixText).bind (parseIpPrefix parseIp) = config.peerAddr := by
    cases hp : config.peerAddr with
    | none => rfl
    | some p => exact parseIpPrefix_prefixText hparse (hpeer p hp)
  simp only [buildTapConfig, passedArgs, haddr, foldl_addRoute hparse hroutes]
  rw [passedConfig]
  cases config.peerAddr with
  | none => rfl
  | some p => rfl

end RoundTrip

/-- The texts that are taken for an address with a prefix. -/
theorem parseIpPrefix_eq_some {parseIp : Bytes → Option IpAddr} {s : Bytes} {p : IpWithPrefix} :
    parseIpPrefix parseIp s = some p ↔
      s.count slash = 1 ∧ ∃ addr len, s = addr ++ slash::len ∧ parseIp addr = some p.1 ∧
        parseU8 len = some p.2 ∧ PrefixValid p := by
  obtain ⟨ip, prefixLen⟩ := p
  constructor
  · intro h
    unfold parseIpPrefix at h
    split at h
    · next addr len hsplit =>
      obtain ⟨hcount, rfl⟩ := splitOn_eq_pair.mp hsplit
      obtain ⟨ip, hip, h⟩ := Option.bind_eq_some_iff.mp h
      obtain ⟨prefixLen, hlen, h⟩ := Option.bind_eq_some_iff.mp h
      split_ifs at h with hmax
      cases h
      exact ⟨hcount, addr, len, rfl, hip, hlen, Nat.not_lt.mp hmax⟩
    · cases h
  · rintro ⟨hcount, addr, len, hs, hip, hlen, hvalid⟩
    rw [parseIpPrefix, splitOn_eq_pair.mpr ⟨hcount, hs⟩]
    simp only [hip, hlen, Option.bind_some]
    rw [if_neg (Nat.not_lt.mpr hvalid)]

theorem parseIpPrefix_valid {parseIp : Bytes → Option IpAddr} {s : Bytes} {p : IpWithPrefix}
    (h : parseIpPrefix parseIp s = some p) : PrefixValid p := by
  obtain ⟨-, -, -, -, -, -, hvalid⟩ := parseIpPrefix_eq_some.mp h
  exact hvalid

/-- For a TAP address that the proxy accepts, the client's default address is a usable neighbour
unless the TAP address is the last one of its subnet. -/
theorem client_ip_usable_iff (parseIp : Bytes → Option IpAddr) (overflowChecks : Bool) {s : Bytes}
    {tap : IpAddr} {len : UInt8} (h : parseIpPrefix parseIp s = some (tap, len)) :
    (∃ client, UsableNeighbour overflowChecks tap len.toNat client) ↔
      ¬LastOfSubnet len.toNat tap := by
  have hvalid := parseIpPrefix_valid h
  have hwidth : len.toNat ≤ tap.width := by
    cases tap with
    | v4 a => exact hvalid
    | v6 a => exact hvalid
  exact usableNeighbour_iff overflowChecks hwidth

/-- The client of a proxy with the address 10.0.0.1/24 takes 10.0.0.2. -/
theorem client_ip_usable_iff_slash24 :
    parseIpPrefix readIp (ascii "10.0.0.1/24") = some (.v4 0x0a000001, 24) ∧
      ∃ client, UsableNeighbour true (.v4 0x0a000001) 24 client := by
  have hparse : parseIpPrefix readIp (ascii "10.0.0.1/24") = some (.v4 0x0a000001, 24) := by
    decide +kernel
  exact ⟨hparse, (client_ip_usable_iff readIp true hparse).mpr (by decide)⟩

/-- At the end of a subnet the client takes an address outside of it, at the end of the address
space none or the first address of all. -/
theorem client_ip_leaves_subnet :
    (parseIpPrefix readIp (ascii "10.0.0.255/24") = some (.v4 0x0a0000ff, 24) ∧
      defaultClientIp true (.v4 0x0a0000ff) = some (.v4 0x0a000100) ∧
      ¬SameSubnet 24 (.v4 0x0a0000ff) (.v4 0x0a000100)) ∧
    (parseIpPrefix readIp (ascii "255.255.255.255/0") = some (.v4 0xffffffff, 0) ∧
      defaultClientIp true (.v4 0xffffffff) = none ∧
      defaultClientIp false (.v4 0xffffffff) = some (.v4 0)) := by
  decide +kernel

end TapTunnel.Handshake
