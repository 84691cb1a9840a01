import TapTunnel.Handshake.Reference

namespace TapTunnel.Handshake

open Framework

/-- What is assumed of `clap`, which reads the command line into `Args`: `accepts` says which texts
it takes as the value of an option. These are at least those without a dash, and a command line of
options with such values is read as the attributes of `Args` say. -/
structure ReadsOptions (parseArgs : List Bytes → Option Args) (accepts : Bytes → Prop) : Prop where
  plain : ∀ value, dash ∉ value → accepts value
  reads : ∀ options args, (∀ o ∈ options, accepts o.2) → argsOf options = some args →
    parseArgs (options.flatMap fun o => [o.1, o.2]) = some args

/-- The options of `spawn_proxy`. -/
def spawnOptions (pid : UInt32) (frameFd : Nat) (config : TapConfig) : List (Bytes × Bytes) :=
  [(ascii "--pid", numeral 10 pid.toNat), (ascii "--frame-fd", numeral 10 frameFd),
    (ascii "--tap-name", config.interfaceName)] ++
  (config.peerAddr.map fun p => [(ascii "--tap-addr", prefixText p)]).getD [] ++
  [(ascii "--mtu", numeral 10 config.mtu.toNat)] ++
  config.peerRoutes.map fun r => (ascii "--tap-route", prefixText r)

theorem spawnArgs_eq (pid : UInt32) (frameFd : Nat) (config : TapConfig) :
    spawnArgs pid frameFd config =
      (spawnOptions pid frameFd config).flatMap fun o => [o.1, o.2] := by
  cases hp : config.peerAddr <;> simp [spawnArgs, spawnOptions, hp, List.flatMap_map]

theorem dash_mark : IsMark dash := by
  unfold IsMark
  decide

theorem dash_notMem_numeral (n : Nat) : dash ∉ numeral 10 n :=
  mark_notMem_numeral (by decide) (by decide) n dash_mark

theorem dash_notMem_prefixText (p : IpWithPrefix) : dash ∉ prefixText p := by
  have hip : dash ∉ ipText p.1 := mark_notMem_ipText p.1 dash_mark (by decide) (by decide)
  simp only [prefixText, List.mem_append, List.mem_cons, not_or]
  exact ⟨hip, by decide, dash_notMem_numeral p.2.toNat⟩

/-- The values that `spawn_proxy` passes are accepted if the name is. -/
theorem spawnOptions_accepted {accepts : Bytes → Prop}
    (hplain : ∀ value, dash ∉ value → accepts value) (pid : UInt32) (frameFd : Nat)
    {config : TapConfig} (hname : accepts config.interfaceName) :
    ∀ o ∈ spawnOptions pid frameFd config, accepts o.2 := by
  have hnumber : ∀ n, accepts (numeral 10 n) := fun n => hplain _ (dash_notMem_numeral n)
  have haddr : ∀ p, accepts (prefixText p) := fun p => hplain _ (dash_notMem_prefixText p)
  intro o ho
  cases hp : config.peerAddr with
  | none =>
    simp only [spawnOptions, hp, Option.map_none, Option.getD_none, List.mem_append, List.mem_cons,
      List.mem_map, List.not_mem_nil, or_false] at ho
    obtain ((rfl | rfl | rfl) | rfl) | ⟨r, -, rfl⟩ := ho
    exacts [hnumber _, hnumber _, hname, hnumber _, haddr r]
  | some p =>
    simp only [spawnOptions, hp, Option.map_some, Option.getD_some, List.mem_append, List.mem_cons,
      List.mem_map, List.not_mem_nil, or_false] at ho
    obtain (((rfl | rfl | rfl) | rfl) | rfl) | ⟨r, -, rfl⟩ := ho
    exacts [hnumber _, hnumber _, hname, haddr p, hnumber _, haddr r]

/-- Repeated options are kept in their order. -/
theorem foldlM_addOption_routes (routes : List IpWithPrefix) (raw : RawArgs) :
    (routes.map fun r => (ascii "--tap-route", prefixText r)).foldlM RawArgs.addOption raw =
      some { raw with tapRoute := raw.tapRoute ++ routes.map prefixText } := by
  induction routes generalizing raw with
  | nil => simp
  | cons r routes ih =>
    have hone : raw.addOption (ascii "--tap-route", prefixText r) =
        some { raw with tapRoute := raw.tapRoute ++ [prefixText r] } := rfl
    rw [List.map_cons, List.foldlM_cons, hone]
    simp [ih]

/-- The texts behind the options of `spawn_proxy`. -/
def passedTexts (pid : UInt32) (frameFd : Nat) (config : TapConfig) : RawArgs where
  pid := some (numeral 10 pid.toNat)
  frameFd := some (numeral 10 frameFd)
  tapName := some config.interfaceName
  tapAddr := config.peerAddr.map prefixText
  tapRoute := config.peerRoutes.map prefixText
  mtu := some (numeral 10 config.mtu.toNat)

theorem foldlM_addOption_spawnOptions (pid : UInt32) (frameFd : Nat) (config : TapConfig) :
    (spawnOptions pid frameFd config).foldlM RawArgs.addOption {} =
      some (passedTexts pid frameFd config) := by
  rw [spawnOptions, List.foldlM_append]
  cases hp : config.peerAddr with
  | none =>
    refine (foldlM_addOption_routes config.peerRoutes { passedTexts pid frameFd config with
      tapRoute := [], tapAddr := none }).trans ?_
    simp [passedTexts, hp]
  | some p =>
    refine (foldlM_addOption_routes config.peerRoutes { passedTexts pid frameFd config with
      tapRoute := [], tapAddr := some (prefixText p) }).trans ?_
    simp [passedTexts, hp]

theorem argsOf_spawnOptions (pid : UInt32) {frameFd : Nat} (hfd : frameFd < 2^31)
    (config : TapConfig) :
    argsOf (spawnOptions pid frameFd config) = some (passedArgs pid frameFd config) := by
  have hpid : numberOr (2^32) 0 (passedTexts pid frameFd config).pid = some pid.toNat :=
    parseUnsigned_numeral (UInt32.toNat_lt pid)
  have hframe : numberOr (2^31) 0 (passedTexts pid frameFd config).frameFd = some frameFd :=
    parseUnsigned_numeral hfd
  have hmtu : numberOr (2^16) 1500 (passedTexts pid frameFd config).mtu = some config.mtu.toNat :=
    parseUnsigned_numeral (UInt16.toNat_lt config.mtu)
  have hloss : numberOr (2^8) 0 (passedTexts pid frameFd config).packetLoss = some 0 := rfl
  have hone : ¬((passedTexts pid frameFd config).frameFd ≠ none ∧
      (passedTexts pid frameFd config).socketPath ≠ none) := fun h => h.2 rfl
  rw [argsOf, foldlM_addOption_spawnOptions, Option.bind_some, RawArgs.args, if_neg hone]
  simp only [bind, Option.bind_some, hpid, hframe, hmtu, hloss]
  simp [passedTexts, passedArgs]

/-- The proxy reads the client's configuration from the arguments that the client gives it, and it
takes no other text for an address than one of the right form. -/
theorem proxy_rebuilds_config (parseIp : Bytes → Option IpAddr)
    (hparse : ∀ ip, parseIp (ipText ip) = some ip) (parseArgs : List Bytes → Option Args)
    (accepts : Bytes → Prop) (hargs : ReadsOptions parseArgs accepts) (pid : UInt32)
    (frameFd : Nat) (hfd : frameFd < 2^31) (config : TapConfig)
    (hname : accepts config.interfaceName) (hpeer : ∀ p ∈ config.peerAddr, PrefixValid p)
    (hroutes : ∀ p ∈ config.peerRoutes, PrefixValid p) :
    (∃ args, parseArgs (spawnArgs pid frameFd config) = some args ∧
      (buildTapConfig parseIp args).interfaceName = config.interfaceName ∧
      (buildTapConfig parseIp args).peerAddr = config.peerAddr ∧
      (buildTapConfig parseIp args).mtu = config.mtu ∧
      (buildTapConfig parseIp args).peerRoutes = config.peerRoutes) ∧
    ∀ s p, parseIpPrefix parseIp s = some p ↔
      s.count slash = 1 ∧ ∃ addr len, s = addr ++ slash::len ∧ parseIp addr = some p.1 ∧
        parseU8 len = some p.2 ∧ p.2.toNat ≤ maxPrefix p.1 := by
  refine ⟨⟨passedArgs pid frameFd config, ?_, ?_⟩, fun s p => parseIpPrefix_eq_some⟩
  · rw [spawnArgs_eq]
    exact hargs.reads _ _ (spawnOptions_accepted hargs.plain pid frameFd hname)
      (argsOf_spawnOptions pid hfd config)
  · rw [buildTapConfig_passedArgs hparse pid frameFd hpeer hroutes]
    exact ⟨rfl, rfl, rfl, rfl⟩

/-- A text that the reference parser takes as a value. -/
def TakenAsValue (value : Bytes) : Prop := ¬(value.head? = some dash ∧ value ≠ [dash])

instance (value : Bytes) : Decidable (TakenAsValue value) :=
  inferInstanceAs (Decidable (¬(value.head? = some dash ∧ value ≠ [dash])))

theorem readOptions_pairs {options : List (Bytes × Bytes)}
    (h : ∀ o ∈ options, TakenAsValue o.2) :
    readOptions (options.flatMap fun o => [o.1, o.2]) = some options := by
  induction options with
  | nil => rfl
  | cons o options ih =>
    have ho := h o List.mem_cons_self
    have hrest := ih fun o' ho' => h o' (List.mem_cons_of_mem o ho')
    rw [List.flatMap_cons, List.cons_append, List.cons_append, List.nil_append, readOptions,
      if_neg ho, hrest]
    rfl

theorem readArgs_readsOptions : ReadsOptions readArgs TakenAsValue where
  plain value h := fun hd => h (List.mem_of_mem_head? hd.1)
  reads options args h hargs := by rw [readArgs, readOptions_pairs h, Option.bind_some, hargs]

/-- A configuration with an address and a route of each family. -/
def twoRoutes : TapConfig :=
  { TapConfig.default with
    peerAddr := some (.v4 0x0a000001, 24)
    peerRoutes := [(.v4 0xc0a80000, 16), (.v6 0xfd000000000000000000000000000000, 8)]
    mtu := 9000 }

theorem proxy_rebuilds_config_twoRoutes :
    ∃ args, readArgs (spawnArgs 4711 5 twoRoutes) = some args ∧
      (buildTapConfig readIp args).peerRoutes = twoRoutes.peerRoutes := by
  obtain ⟨⟨args, hargs, -, -, -, hroutes⟩, -⟩ := proxy_rebuilds_config readIp readIp_ipText readArgs
    TakenAsValue readArgs_readsOptions 4711 5 (by decide) twoRoutes (by decide) (by decide)
    (by decide)
  exact ⟨args, hargs, hroutes⟩

end TapTunnel.Handshake
