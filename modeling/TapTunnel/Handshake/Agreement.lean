import TapTunnel.Handshake.Reference

namespace TapTunnel.Handshake

open Framework Ipc

/-- Both ends are done and agree on the gateway, the client's address and the MTU. -/
def Agree (H : Host) (config : TapConfig) (proxy : Except Stop Serving)
    (client : Except Stop Connected) : Prop :=
  ∃ p c tapIp prefixLen ip, proxy = .ok p ∧ client = .ok c ∧
    p.config.peerAddr = some (tapIp, prefixLen) ∧ c.gateway = (tapIp, p.tapMac) ∧
    clientIp H.overflowChecks config tapIp = some ip ∧
    c.config.localAddr = some (ip, prefixLen) ∧ c.config.mtu = p.config.mtu

/-- A message arrives whole, however the socket cuts it. -/
theorem readFull_delimit (eof : Stop) {q : Tick → Option Stop} {s : Stream} {msg : Bytes}
    (h : Carries q (delimit msg) s) :
    ∃ s', readFull eof .waiting q 4 s = .ok (beBytes msg.length, s') ∧
      ∀ eof' : Stop, ∃ s'', readFull eof' .waiting (fun _ => none) msg.length s' =
        .ok (msg, s'') := by
  have hlen : 4 ≤ (delimit msg).length := by
    rw [delimit_length]
    omega
  obtain ⟨s', hr, hs'⟩ := readFull_carries eof .waiting h hlen
  have htake : (delimit msg).take 4 = beBytes msg.length := List.take_left' rfl
  have hdrop : (delimit msg).drop 4 = msg := List.drop_left' rfl
  rw [htake] at hr
  rw [hdrop] at hs'
  refine ⟨s', hr, ?_⟩
  intro eof'
  have hs'' : Carries (fun _ => (none : Option Stop)) msg s' := hs'.mono fun _ _ => rfl
  obtain ⟨s'', hr', -⟩ := readFull_carries eof' .waiting hs'' (Nat.le_refl msg.length)
  rw [List.take_length] at hr'
  exact ⟨s'', hr'⟩

theorem expectControl_encodeControl {α : Type} {J : Serde α} (hJ : J.RoundTrips)
    (unexpected : String) (m : α) : expectControl J unexpected (encodeControl J m) = .ok m := by
  have hd : decodeMessage (encodeControl J m) = .ok (.control (J.toVec m)) := rfl
  simp only [expectControl, hd, decodeControl_toVec hJ, ioResult]

section Handshake

variable {H : Host}

theorem performHandshake_spec (hH : H.Faithful) {s : Stream}
    (hs : Carries (fun _ => (none : Option Stop)) (clientHello H) s) (config : TapConfig)
    (mac : Mac) :
    (config.peerAddr = none → performHandshake H config mac s =
      .error (.io ⟨.invalidInput, "tap_addr must be configured"⟩)) ∧
    ∀ tapIp prefixLen, config.peerAddr = some (tapIp, prefixLen) →
      performHandshake H config mac s =
        .ok (delimit (encodeControl H.proxyConfig ⟨tapIp, mac, prefixLen, config.mtu⟩)) := by
  obtain ⟨s', hr, hbody⟩ := readFull_delimit (.io ⟨.unexpectedEof, "connection closed"⟩) hs
  obtain ⟨s'', hr'⟩ := hbody (.io ⟨.unexpectedEof, "connection closed"⟩)
  have hlen := ofBeBytes_beBytes _ (hH.hello_length {})
  have hhello := expectControl_encodeControl hH.hello "expected ClientHello, got frame" {}
  constructor
  · intro hp
    simp only [performHandshake, readExactFd, hr, hlen, hr', hhello, hp, bind, Except.bind]
  · intro tapIp prefixLen hp
    simp only [performHandshake, readExactFd, hr, hlen, hr', hhello, hp, bind, Except.bind]

theorem run_eq (config : TapConfig) {mac : Mac} (hc : H.createTap config.interfaceName = .ok ())
    (hi : H.configureInterface config.interfaceName config.peerAddr (mtuOption config.mtu) =
      .ok mac) (s : Stream) :
    run H config s = (performHandshake H config mac s).map fun sent => ⟨config, mac, sent⟩ := by
  simp only [run, hc, hi, ioResult, bind, Except.bind]
  cases performHandshake H config mac s with
  | ok sent => rfl
  | error e => rfl

/-- The proxy of a host that is set up comes to the handshake with the client's configuration. -/
theorem proxyMain_eq (hH : H.Faithful) {pid : UInt32} {frameFd : Nat} {config : TapConfig}
    {mac : Mac} (hu : H.SetsUp pid frameFd config mac) (hv : config.PrefixesValid) (s : Stream) :
    proxyMain H (spawnArgs pid frameFd config) s =
      (performHandshake H (passedConfig config) mac s).map fun sent =>
        ⟨passedConfig config, mac, sent⟩ := by
  have hargs : ¬((passedArgs pid frameFd config).frameFd = none ∧
      (passedArgs pid frameFd config).socketPath = none) := by simp [passedArgs]
  have hjoin : (passedArgs pid frameFd config).pid.map H.joinNamespace = some (.ok ()) :=
    congrArg some hu.joinNamespace
  simp only [proxyMain, hu.parseArgs, if_neg hargs, hjoin,
    buildTapConfig_passedArgs hH.parseIp _ _ hv.peer hv.routes]
  exact run_eq (passedConfig config) hu.createTap hu.configureInterface s

/-- The client's side, once the proxy's message is on its way. -/
theorem connectWithConfig_spec (hH : H.Faithful) (pid : UInt32) (config : TapConfig) {s : Stream}
    {m : ProxyConfig} (hs : Carries onQuiet (delimit (encodeControl H.proxyConfig m)) s)
    {ip : IpAddr} (hip : clientIp H.overflowChecks config m.tapIp = some ip) :
    connectWithConfig H pid config s = .ok ⟨{ config with
      peerAddr := some (m.tapIp, m.prefixLen)
      localAddr := some (ip, m.prefixLen)
      mtu := m.mtu
      mac := some (config.mac.getD (pidMac pid)) }, (m.tapIp, m.tapMac)⟩ := by
  obtain ⟨s', hr, hbody⟩ := readFull_delimit
    (.io ⟨.unexpectedEof, "proxy closed connection during handshake"⟩) hs
  obtain ⟨s'', hr'⟩ := hbody (.io ⟨.unexpectedEof, "failed to fill whole buffer"⟩)
  have hlen := ofBeBytes_beBytes _ (hH.proxyConfig_length m)
  have hm := expectControl_encodeControl hH.proxyConfig "expected ProxyConfig, got frame" m
  simp only [connectWithConfig, readLength, readBody, hr, hlen, hr', hm, hip, bind, Except.bind]

theorem clientIp_isSome (checks : Bool) (config : TapConfig) (tapIp : IpAddr) :
    (clientIp checks config tapIp).isSome = true ↔
      config.localAddr ≠ none ∨ checks = false ∨ tapIp ≠ .v4 (BitVec.allOnes 32) := by
  rw [clientIp, Option.isSome_or, Bool.or_eq_true, defaultClientIp_isSome, Option.isSome_map,
    Option.isSome_iff_ne_none]

end Handshake

/-- Exactly which configurations the two ends can agree on: the address of the TAP interface must
be given, and if the client has to choose its own address the one behind it must exist. -/
theorem handshake_agrees_iff (H : Host) (hH : H.Faithful) (pid : UInt32) (frameFd : Nat)
    (config : TapConfig) (hv : config.PrefixesValid) (mac : Mac)
    (hu : H.SetsUp pid frameFd config mac) (toProxy toClient : Stream)
    (hto : Carries (fun _ => (none : Option Stop)) (clientHello H) toProxy)
    (hfrom : ∀ p, proxyMain H (spawnArgs pid frameFd config) toProxy = .ok p →
      Carries onQuiet p.sent toClient) :
    Agree H config (proxyMain H (spawnArgs pid frameFd config) toProxy)
        (connectWithConfig H pid config toClient) ↔
      ∃ tapIp prefixLen, config.peerAddr = some (tapIp, prefixLen) ∧
        (config.localAddr ≠ none ∨ H.overflowChecks = false ∨
          tapIp ≠ .v4 (BitVec.allOnes 32)) := by
  have hmain := proxyMain_eq hH hu hv toProxy
  obtain ⟨hnone, hsome⟩ := performHandshake_spec hH hto (passedConfig config) mac
  constructor
  · rintro ⟨p, c, tapIp, prefixLen, ip, hp, -, haddr, -, hip, -⟩
    refine ⟨tapIp, prefixLen, ?_, (clientIp_isSome _ _ _).mp (Option.isSome_of_eq_some hip)⟩
    rw [hmain] at hp
    cases hh : performHandshake H (passedConfig config) mac toProxy with
    | error e =>
      rw [hh] at hp
      cases hp
    | ok sent =>
      rw [hh] at hp
      obtain rfl := Except.ok.inj hp
      exact haddr
  · rintro ⟨tapIp, prefixLen, haddr, hok⟩
    obtain ⟨ip, hip⟩ := Option.isSome_iff_exists.mp ((clientIp_isSome _ _ _).mpr hok)
    rw [hsome tapIp prefixLen haddr] at hmain
    have hclient := connectWithConfig_spec hH pid config (hfrom _ hmain) hip
    exact ⟨_, _, tapIp, prefixLen, ip, hmain, hclient, haddr, rfl, hip, rfl, rfl⟩

def exampleMac : Mac := #v[0x02, 0x11, 0x22, 0x33, 0x44, 0x55]

def exampleHost : Host := refHost exampleMac true

/-- The TAP interface gets `10.0.0.1/24` and a route to `10.99.0.0/24`; the client leaves its
address to the library. -/
def exampleConfig : TapConfig :=
  { TapConfig.default with
    peerAddr := some (.v4 0x0a000001, 24)
    peerRoutes := [(.v4 0x0a630000, 24)]
    mtu := 1400 }

/-- The proxy, with a hello that comes byte by byte. -/
def exampleProxy (config : TapConfig) : Except Stop Serving :=
  proxyMain exampleHost (spawnArgs 1234 5 config) (bytewise (clientHello exampleHost))

/-- Its answer, for which the client has to wait. -/
def exampleAnswer (config : TapConfig) : Stream :=
  .quiet ⟨false, none⟩::((exampleProxy config).toOption.map fun p => bytewise p.sent).getD []

theorem exampleAnswer_carries {config : TapConfig} {p : Serving} (h : exampleProxy config = .ok p) :
    Carries onQuiet p.sent (exampleAnswer config) := by
  rw [exampleAnswer, h]
  exact carries_cons.mpr ⟨rfl, p.sent, rfl, carries_bytewise _ _⟩

theorem handshake_agrees_iff_exampleConfig :
    Agree exampleHost exampleConfig (exampleProxy exampleConfig)
      (connectWithConfig exampleHost 1234 exampleConfig (exampleAnswer exampleConfig)) := by
  have hv : exampleConfig.PrefixesValid := by
    constructor <;> decide
  have hu : exampleHost.SetsUp 1234 5 exampleConfig exampleMac :=
    ⟨by decide +kernel, rfl, rfl, rfl⟩
  apply (handshake_agrees_iff exampleHost (refHost_faithful _ _) 1234 5 exampleConfig hv
    exampleMac hu _ _ (carries_bytewise _ _) fun p hp => exampleAnswer_carries hp).mpr
  exact ⟨.v4 0x0a000001, 24, rfl, .inr (.inr (by decide))⟩

/-- `Tunnel::connect` passes no address for the TAP interface. The proxy refuses the handshake and
the client sees the socket closed. -/
theorem default_config_refused :
    exampleHost.Faithful ∧ TapConfig.default.PrefixesValid ∧
      exampleHost.SetsUp 1234 5 TapConfig.default exampleMac ∧
      exampleProxy TapConfig.default =
        .error (.io ⟨.invalidInput, "tap_addr must be configured"⟩) ∧
      connectWithConfig exampleHost 1234 TapConfig.default [.closed] =
        .error (.io ⟨.unexpectedEof, "proxy closed connection during handshake"⟩) ∧
      ∀ s, ¬Agree exampleHost TapConfig.default (exampleProxy TapConfig.default)
        (connectWithConfig exampleHost 1234 TapConfig.default s) := by
  have hv : TapConfig.default.PrefixesValid := by
    constructor <;> decide
  have hu : exampleHost.SetsUp 1234 5 TapConfig.default exampleMac :=
    ⟨by decide +kernel, rfl, rfl, rfl⟩
  have hproxy : exampleProxy TapConfig.default =
      .error (.io ⟨.invalidInput, "tap_addr must be configured"⟩) := by decide +kernel
  refine ⟨refHost_faithful _ _, hv, hu, hproxy, by decide +kernel, ?_⟩
  rintro s ⟨p, c, tapIp, prefixLen, ip, hp, -⟩
  rw [hproxy] at hp
  cases hp

end TapTunnel.Handshake
