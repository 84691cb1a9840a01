import TapTunnel.Stack.UdpFamily

namespace TapTunnel.Stack

open Framework Reference

variable {T U E : Type} {N : Smoltcp T U E} {cfg : StackConfig} {w w' : World T U}

/-- A datagram may be for both: the ports are equal, and so are the addresses unless one of them
stands for all. -/
def Shares (a b : IpListenEndpoint) : Prop :=
  a.port = b.port ∧ (a.addr = b.addr ∨ a.addr = none ∨ b.addr = none)

theorem Shares.symm {a b : IpListenEndpoint} (h : Shares a b) : Shares b a :=
  ⟨h.1.symm, h.2.imp Eq.symm Or.symm⟩

section Sockets

variable (V : N.UdpView) {f g : SocketHandle → Option U} {k : SocketHandle} {s s' : U}
  {ep : IpListenEndpoint}

/-- The socket is bound to the endpoint. One that has been closed is bound to none. -/
def OpenAt (f : SocketHandle → Option U) (k : SocketHandle) (ep : IpListenEndpoint) : Prop :=
  ∃ s, f k = some s ∧ V.endpoint s = some ep

def Exclusive (f : SocketHandle → Option U) : Prop :=
  ∀ k k' ep ep', OpenAt V f k ep → OpenAt V f k' ep' → Shares ep ep' → k = k'

def Taken (f : SocketHandle → Option U) (ep : IpListenEndpoint) : Prop :=
  ∃ k ep', OpenAt V f k ep' ∧ Shares ep' ep

/-- The sockets of `g` that are open were so in `f`, at the same endpoints. -/
def OpenFrom (f g : SocketHandle → Option U) : Prop := ∀ k ep, OpenAt V g k ep → OpenAt V f k ep

variable {V}

theorem Exclusive.of_from (h : Exclusive V f) (hfrom : OpenFrom V f g) : Exclusive V g :=
  fun k k' ep ep' ho ho' => h k k' ep ep' (hfrom k ep ho) (hfrom k' ep' ho')

theorem OpenFrom.update (hk : f k = some s)
    (hep : V.endpoint s' = V.endpoint s ∨ V.endpoint s' = none) :
    OpenFrom V f (Function.update f k (some s')) := by
  rintro x ep ⟨u, hu, he⟩
  by_cases hx : x = k
  · subst hx
    obtain rfl : s' = u := by simpa using hu
    rcases hep with hep | hep
    · exact ⟨s, hk, hep ▸ he⟩
    · rw [hep] at he
      cases he
  · rw [Function.update_of_ne hx] at hu
    exact ⟨u, hu, he⟩

/-- A socket is opened beside the others. -/
theorem Exclusive.open_iff (h : Exclusive V f) (hk : f k = none) (hs : V.endpoint s = some ep) :
    Exclusive V (Function.update f k (some s)) ↔ ¬Taken V f ep := by
  have hnew : OpenAt V (Function.update f k (some s)) k ep :=
    ⟨s, Function.update_self k (some s) f, hs⟩
  -- an open socket is the new one, or has been open before under another handle
  have hcases : ∀ x ep', OpenAt V (Function.update f k (some s)) x ep' →
      x = k ∧ ep' = ep ∨ OpenAt V f x ep' := by
    rintro x ep' ⟨u, hu, he⟩
    by_cases hx : x = k
    · subst hx
      obtain rfl : s = u := by simpa using hu
      exact .inl ⟨rfl, Option.some.inj (he.symm.trans hs)⟩
    · exact .inr ⟨u, (Function.update_of_ne hx _ _).symm.trans hu, he⟩
  constructor
  · rintro hex ⟨x, ep', ⟨u, hu, he⟩, hsh⟩
    have hx : x ≠ k := by
      rintro rfl
      rw [hk] at hu
      cases hu
    exact hx (hex x k ep' ep ⟨u, (Function.update_of_ne hx _ _).trans hu, he⟩ hnew hsh)
  · intro hfree x y ep1 ep2 hx hy hsh
    rcases hcases x ep1 hx with ⟨rfl, rfl⟩ | hx1 <;>
      rcases hcases y ep2 hy with ⟨rfl, rfl⟩ | hy1
    · rfl
    · exact absurd ⟨y, ep2, hy1, hsh.symm⟩ hfree
    · exact absurd ⟨x, ep1, hx1, hsh⟩ hfree
    · exact h x y ep1 ep2 hx1 hy1 hsh

end Sockets

theorem processUdpWrite_endpoint (V : N.UdpView) (rx : Chan (Bytes × SocketAddr))
    (q : List (Bytes × SocketAddr)) (s : U) (stats : UdpStats) :
    let s' := (processUdpWrite N rx q s stats).1
    V.endpoint s' = V.endpoint s ∨ V.endpoint s' = none := by
  apply processUdpWrite_rule (fun s' => V.endpoint s' = V.endpoint s ∨ V.endpoint s' = none)
  · intro s' d _ hs'
    rw [V.send_endpoint]
    exact hs'
  · exact fun _ s' _ => .inr (V.close_empty s').1
  · exact .inl rfl

/-- No socket is opened but by a command. -/
theorem UdpMove.openFrom (V : N.UdpView) {a : Action E} {p : UdpPart U} (ha : a ≠ .command)
    (hm : UdpMove N w a p) : OpenFrom V (udpIn w.sockets) p.socket := by
  cases hm with
  | still | send | recv | drop => exact fun _ _ h => h
  | bind | close => exact absurd rfl ha
  | write k st s hst hs hp =>
    rw [World.writeUdpEntry_part]
    exact .update (udpIn_eq_some.mpr hs) (processUdpWrite_endpoint V _ _ s _)
  | read k st s hst hs hp =>
    rw [World.readUdpEntry_part]
    obtain ⟨⟨hep, -⟩, -⟩ := processUdpRead_spec V (w.udpChans st.chan).read
      (w.udpChans st.chan).read.room s [] w.stats
    exact .update (udpIn_eq_some.mpr hs) (.inl hep)
  | event k e s hs => exact .update (udpIn_eq_some.mpr hs) (.inl (V.process_view e s).1)

/-- A command that is not a bind leaves no socket open that was not. -/
theorem Effect.openFrom (hf : N.FreshHandles) (V : N.UdpView) {cmd : StackCommand}
    (he : Effect N (some cmd) w w') (hcmd : ∀ addr r, cmd ≠ .udpBind addr r) :
    OpenFrom V (udpIn w.sockets) (udpIn w'.sockets) := by
  rcases he.udp_cases hf with hsame | ⟨k, s, port, bound, addr, r, hc, -⟩ | ⟨k, s, -, hs, rfl⟩
  · have hsock : udpIn w'.sockets = udpIn w.sockets := congrArg UdpPart.socket hsame.1
    rw [hsock]
    exact fun _ _ h => h
  · exact absurd hc (hcmd addr r)
  · have hsock : udpIn ((w.setUdp k (N.udpClose s)).removeUdpState k).sockets =
      Function.update (udpIn w.sockets) k (some (N.udpClose s)) := udpIn_setUdp w.sockets k _
    rw [hsock]
    exact .update (udpIn_eq_some.mpr hs) (.inr (V.close_empty s).1)

/-- The endpoint `udp_bind` asks smoltcp for. -/
def World.bindEndpoint (w : World T U) (addr : SocketAddr) : IpListenEndpoint :=
  socketAddrToListenEndpointWithPort addr (w.bindPort addr)

/-- The request is answered with `AddrInUse`, and no socket and no entry has changed. -/
def BindRefused (w w' : World T U) (r : ReqId) : Prop :=
  (∃ text, w'.answers = w.answers ++ [(r, .udp (.error ⟨.addrInUse, text⟩))]) ∧
    w'.sockets = w.sockets ∧ w'.udpStates = w.udpStates

/-- smoltcp refuses to bind to port 0. -/
def RefusesPortZero (N : Smoltcp T U E) : Prop :=
  ∀ ep, ep.port = 0 → ∃ e, N.udpBind N.udpNew ep = .error e

/-- On port 0 a bind is refused. On any other it gets its endpoint, whoever has it already. -/
theorem step_udpBind (hf : N.FreshHandles) (V : N.UdpView) (hz : RefusesPortZero N)
    {addr : SocketAddr} {r : ReqId} {rest : List StackCommand}
    (hq : w.commands.queue = .udpBind addr r::rest)
    (hs : World.step N cfg .command w = some w') :
    (w.bindPort addr = 0 ∧ BindRefused w w' r) ∨
    (w.bindPort addr ≠ 0 ∧ ∃ k s, w.sockets.lookup k = none ∧
      V.endpoint s = some (w.bindEndpoint addr) ∧
      w'.sockets = w.sockets.insert k (.udp s)) := by
  obtain ⟨-, hw'⟩ := World.step_command hq hs
  let popped : World T U := { w with
    commands := { w.commands with queue := rest }
    received := w.received ++ [r] }
  change w' = w.continueAt .startWrite (popped.handleUdpBind N addr r) at hw'
  rcases popped.handleUdpBind_cases (N := N) addr r with ⟨e, he, hr⟩ | ⟨s, bound, hbind, hr⟩
  · rw [hr] at hw'
    subst hw'
    refine .inl ⟨?_, ⟨_, rfl⟩, rfl, rfl⟩
    by_contra hp
    obtain ⟨s, hbind⟩ := V.bind_ok (w.bindEndpoint addr) hp
    cases hbind.symm.trans he
  · rw [hr] at hw'
    subst hw'
    refine .inr ⟨fun hp => ?_, _, s, World.fresh_lookup hf w.sockets, (V.bind_new _ s hbind).1, rfl⟩
    obtain ⟨e, he⟩ := hz (w.bindEndpoint addr) hp
    cases hbind.symm.trans he

/-- The request for a UDP socket that the step takes, if it does. -/
def World.takesBind (w : World T U) (a : Action E) : Option (SocketAddr × ReqId) :=
  match a, w.commands.queue with
  | .command, .udpBind addr r::_ => some (addr, r)
  | _, _ => none

theorem World.takesBind_eq_some {a : Action E} {b : SocketAddr × ReqId} :
    w.takesBind a = some b ↔ a = .command ∧ ∃ rest, w.commands.queue = .udpBind b.1 b.2::rest := by
  unfold takesBind
  split
  · next addr r rest hq => simp [hq, Prod.ext_iff]
  · next hne =>
    constructor
    · nofun
    · rintro ⟨rfl, rest, hq⟩
      exact absurd hq (hne b.1 b.2 rest rfl)

/-- Condition on a step: no socket is bound where another one is open. -/
def BindsFree (V : N.UdpView) (w : World T U) (a : Action E) : Prop :=
  ∀ b ∈ w.takesBind a, w.bindPort b.1 ≠ 0 → ¬Taken V (udpIn w.sockets) (w.bindEndpoint b.1)

/-- A bind where another socket is open is refused. -/
def RefusesTaken (V : N.UdpView) (w : World T U) (a : Action E) (w' : World T U) : Prop :=
  ∀ b ∈ w.takesBind a, Taken V (udpIn w.sockets) (w.bindEndpoint b.1) → BindRefused w w' b.2

/-- Without a bind the open sockets of a step's end are those of its start. -/
theorem step_openFrom (hf : N.FreshHandles) (V : N.UdpView) (ho : Owned w) {a : Action E}
    (hs : World.step N cfg a w = some w') (hb : w.takesBind a = none) :
    OpenFrom V (udpIn w.sockets) (udpIn w'.sockets) := by
  have ht := ho.step_transition hf hs
  by_cases hc : a = .command
  · subst hc
    cases ht with
    | env he => cases he
    | control => exact fun _ _ h => h
    | command cmd rest hph hq he =>
      refine he.openFrom hf V (fun addr r hcmd => ?_)
      subst hcmd
      cases hb.symm.trans (World.takesBind_eq_some (b := (addr, r)).mpr ⟨rfl, _, hq⟩)
  · exact (ht.udpMove hf ho).openFrom V hc

theorem exclusive_step_iff (hf : N.FreshHandles) (V : N.UdpView) (hz : RefusesPortZero N)
    (ho : Owned w) (h : Exclusive V (udpIn w.sockets)) {a : Action E}
    (hs : World.step N cfg a w = some w') :
    (Exclusive V (udpIn w'.sockets) ∧ RefusesTaken V w a w') ↔ BindsFree V w a := by
  unfold RefusesTaken BindsFree
  cases hb : w.takesBind a with
  | none => simpa using h.of_from (step_openFrom hf V ho hs hb)
  | some b =>
    obtain ⟨rfl, rest, hq⟩ := World.takesBind_eq_some.mp hb
    simp only [Option.mem_some_iff, forall_eq']
    rcases step_udpBind hf V hz hq hs with ⟨hp, href⟩ | ⟨hp, k, s, hk, hep, hso⟩
    · exact iff_of_true ⟨by rwa [href.2.1], fun _ => href⟩ (fun hp' => absurd hp hp')
    · have hnone : udpIn w.sockets k = none := by
        unfold udpIn
        rw [hk]
      rw [hso, udpIn_setUdp, h.open_iff hnone hep]
      exact ⟨fun hfree _ => hfree.1, fun hfree => ⟨hfree hp, fun ht => absurd ht (hfree hp)⟩⟩

/-- Throughout a run no two open sockets share an endpoint, and a bind that would make two of them
do so is refused, exactly when no socket is ever bound where another one is open. Nothing in
`udp_bind` looks at the other sockets, so only port 0 is refused. -/
theorem udp_endpoints_exclusive_iff (N : Smoltcp T U E) (hf : N.FreshHandles) (V : N.UdpView)
    (hz : RefusesPortZero N) (cfg : StackConfig) (port : UInt16) (as : List (Action E)) :
    everyStep (World.step N cfg)
        (fun w a w' => Exclusive V (udpIn w'.sockets) ∧ RefusesTaken V w a w') as
        (World.init N cfg port) ↔
      everyStep (World.step N cfg) (fun w a _ => BindsFree V w a) as (World.init N cfg port) := by
  refine everyStep_iff_of_kept (World.step N cfg) (P := fun w => Exclusive V (udpIn w.sockets))
    (fun _ _ _ h => h.1) ?_ as .start ?_
  · intro w a w' hr h hs
    exact exclusive_step_iff hf V hz (Reach.owned hf hr) h hs
  · obtain ⟨ips, p, he, -⟩ := init_cases N cfg port
    rw [he]
    rintro k k' ep ep' ⟨s, hs, -⟩
    cases hs

instance (a b : IpListenEndpoint) : Decidable (Shares a b) :=
  inferInstanceAs (Decidable (a.port = b.port ∧ (a.addr = b.addr ∨ a.addr = none ∨ b.addr = none)))

instance (V : N.UdpView) (So : HandleMap (Socket T U)) (ep : IpListenEndpoint) :
    Decidable (Taken V (udpIn So) ep) :=
  decidable_of_iff (∃ e ∈ So.entries, ∃ s ∈ udpIn So e.1, ∃ ep' ∈ V.endpoint s, Shares ep' ep) (by
    constructor
    · rintro ⟨e, -, s, hs, ep', he, hsh⟩
      exact ⟨e.1, ep', ⟨s, hs, he⟩, hsh⟩
    · rintro ⟨k, ep', ⟨s, hs, he⟩, hsh⟩
      exact ⟨⟨k, .udp s⟩, AList.mem_lookup_iff.mp (udpIn_eq_some.mp hs), s, hs, ep', he, hsh⟩)

instance (V : N.UdpView) (w : World T U) (a : Action E) : Decidable (BindsFree V w a) :=
  inferInstanceAs (Decidable (∀ b ∈ w.takesBind a, _ → _))

theorem refNet_refusesPortZero : RefusesPortZero refNet := fun _ h => ⟨_, if_pos h⟩

def bindTwice (addr addr' : SocketAddr) : List (Action RefEvent) :=
  [.issue (.udpBind addr 0), .command, .beginWrite [] [0], .writeUdp, .endWrite, .endPoll false,
    .beginRead [] [0], .readUdp, .endRead, .skipPending, .checkDead, .issue (.udpBind addr' 1),
    .command]

/-- 10.0.0.2:5000 and 10.0.0.3:5000 are two endpoints. -/
theorem udp_endpoints_exclusive_twoAddresses :
    everyStep (World.step refNet hostCfg)
      (fun w a w' => Exclusive refUdpView (udpIn w'.sockets) ∧ RefusesTaken refUdpView w a w')
      (bindTwice (.v4 0x0a000002 5000) (.v4 0x0a000003 5000)) (World.init refNet hostCfg 49152) :=
  (udp_endpoints_exclusive_iff refNet refNet_freshHandles refUdpView refNet_refusesPortZero hostCfg
    49152 _).mpr (by decide +kernel)

theorem bindTwice_open (addr addr' : SocketAddr) (ep : IpListenEndpoint)
    (hrun : (runActions (World.step refNet hostCfg) (bindTwice addr addr')
      (World.init refNet hostCfg 49152)).map (fun w =>
        decide ((udpIn w.sockets 0).bind refUdpView.endpoint = some ep ∧
          (udpIn w.sockets 1).bind refUdpView.endpoint = some ep)) = some true) :
    ∃ w, Reach refNet hostCfg 49152 w ∧ OpenAt refUdpView (udpIn w.sockets) 0 ep ∧
      OpenAt refUdpView (udpIn w.sockets) 1 ep ∧ ¬Exclusive refUdpView (udpIn w.sockets) := by
  obtain ⟨w, hr, -, hw⟩ := reachable_of_run (World.step refNet hostCfg) _
    (World.init refNet hostCfg 49152) _ hrun
  obtain ⟨h0, h1⟩ := of_decide_eq_true hw
  have ho0 : OpenAt refUdpView (udpIn w.sockets) 0 ep := Option.bind_eq_some_iff.mp h0
  have ho1 : OpenAt refUdpView (udpIn w.sockets) 1 ep := Option.bind_eq_some_iff.mp h1
  refine ⟨w, hr, ho0, ho1, fun hex => ?_⟩
  cases hex 0 1 ep ep ho0 ho1 ⟨rfl, .inl rfl⟩

/-- A second bind to 10.0.0.2:5000 gets a socket. So does a bind to any port that is given 49152,
for which another socket has asked before. -/
theorem udp_endpoint_bound_twice :
    (∃ w, Reach refNet hostCfg 49152 w ∧
      OpenAt refUdpView (udpIn w.sockets) 0 ⟨some (.ipv4 0x0a000002), 5000⟩ ∧
      OpenAt refUdpView (udpIn w.sockets) 1 ⟨some (.ipv4 0x0a000002), 5000⟩ ∧
      ¬Exclusive refUdpView (udpIn w.sockets)) ∧
    ∃ w, Reach refNet hostCfg 49152 w ∧
      OpenAt refUdpView (udpIn w.sockets) 0 ⟨some (.ipv4 0x0a000002), 49152⟩ ∧
      OpenAt refUdpView (udpIn w.sockets) 1 ⟨some (.ipv4 0x0a000002), 49152⟩ ∧
      ¬Exclusive refUdpView (udpIn w.sockets) :=
  ⟨bindTwice_open (.v4 0x0a000002 5000) (.v4 0x0a000002 5000) _ (by decide +kernel),
    bindTwice_open (.v4 0x0a000002 49152) (.v4 0x0a000002 0) _ (by decide +kernel)⟩

end TapTunnel.Stack
