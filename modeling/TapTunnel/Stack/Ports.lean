import TapTunnel.Stack.HandleSafety
import TapTunnel.Stack.UdpPump

namespace TapTunnel.Stack

open Framework Reference

variable {T U E : Type} {N : Smoltcp T U E}

section Components

variable {P : N.TcpPorts} {V : N.UdpView} {n n' : Nat} {So So' : HandleMap (Socket T U)}
  {Li : HandleMap ListenerState}

/-- The local port of a socket that is not closed. -/
def boundPort (P : N.TcpPorts) (V : N.UdpView) : Socket T U → Option UInt16
  | .tcp s => P.localPort s
  | .udp s => (V.endpoint s).map (·.port)

/-- All ports of sockets and listeners are below `n`. -/
structure PortsUnder (P : N.TcpPorts) (V : N.UdpView) (n : Nat) (So : HandleMap (Socket T U))
    (Li : HandleMap ListenerState) : Prop where
  socket : ∀ x v, So.lookup x = some v → ∀ p, boundPort P V v = some p → p.toNat < n
  listener : ∀ k l, Li.lookup k = some l → l.addr.port.toNat < n

namespace PortsUnder

theorem empty (P : N.TcpPorts) (V : N.UdpView) (n : Nat) : PortsUnder P V n ∅ ∅ := by
  constructor <;> simp

theorem mono (h : PortsUnder P V n So Li) (hn : n ≤ n') : PortsUnder P V n' So Li where
  socket x v hx p hp := Nat.lt_of_lt_of_le (h.socket x v hx p hp) hn
  listener k l hk := Nat.lt_of_lt_of_le (h.listener k l hk) hn

/-- It is enough to look at the sockets that are not as before. -/
theorem rule (h : PortsUnder P V n So Li)
    (hx : ∀ x v, So'.lookup x = some v → So.lookup x = some v ∨
      ∀ p, boundPort P V v = some p → p.toNat < n) : PortsUnder P V n So' Li where
  socket x v hv p hp := (hx x v hv).elim (fun hold => h.socket x v hold p hp) (· p hp)
  listener := h.listener

theorem set (h : PortsUnder P V n So Li) (x : SocketHandle) {v : Socket T U}
    (hv : ∀ p, boundPort P V v = some p → p.toNat < n) : PortsUnder P V n (So.insert x v) Li := by
  refine h.rule (fun y u hu => ?_)
  rcases Table.insert_cases hu with ⟨-, rfl⟩ | ⟨-, hu⟩
  · exact .inr hv
  · exact .inl hu

/-- A socket changes and keeps its port, or is closed. -/
theorem touch (h : PortsUnder P V n So Li) {x : SocketHandle} {v v' : Socket T U}
    (hx : So.lookup x = some v)
    (hv : boundPort P V v' = boundPort P V v ∨ boundPort P V v' = none) :
    PortsUnder P V n (So.insert x v') Li := by
  apply h.set x
  intro p hp
  rcases hv with hv | hv
  · exact h.socket x v hx p (hv.symm.trans hp)
  · rw [hv] at hp
    cases hp

theorem insertListener (h : PortsUnder P V n So Li) (k : SocketHandle) {l : ListenerState}
    (hl : l.addr.port.toNat < n) : PortsUnder P V n So (Li.insert k l) where
  socket := h.socket
  listener k' l' hk' := by
    rcases Table.insert_cases hk' with ⟨-, rfl⟩ | ⟨-, hk'⟩
    · exact hl
    · exact h.listener k' l' hk'

theorem eraseListener (h : PortsUnder P V n So Li) (k : SocketHandle) :
    PortsUnder P V n So (Li.erase k) where
  socket := h.socket
  listener k' l' hk' := h.listener k' l' (Table.erase_cases hk').2

end PortsUnder

end Components

def PortsBelow (P : N.TcpPorts) (V : N.UdpView) (n : Nat) (w : World T U) : Prop :=
  PortsUnder P V n w.sockets w.listeners

/-- The port that the application asks for by its number. -/
def StackCommand.askedPort : StackCommand → Option UInt16
  | .tcpListen addr _ _ | .udpBind addr _ => if addr.port = 0 then none else some addr.port
  | _ => none

/-- Condition on a step: the command it takes asks for no port the counter is still to reach. -/
def AskedBelow (w : World T U) : Action E → Prop
  | .command => ∀ cmd ∈ w.commands.queue.head?, cmd.askedPort.all (· < w.ephemeralPort) = true
  | _ => True

instance (w : World T U) (a : Action E) : Decidable (AskedBelow w a) := by
  rcases a with _ | _ <;> unfold AskedBelow <;> infer_instance

namespace PortsBelow

variable {P : N.TcpPorts} {V : N.UdpView} {n : Nat} {w w' : World T U}

theorem replaceListening (h : PortsBelow P V n w) (key : SocketHandle) {addr : SocketAddr}
    (ha : addr.port.toNat < n) (rest : List SocketHandle) :
    PortsBelow P V n (w.replaceListening N key addr rest) := by
  unfold World.replaceListening
  split
  · next s hs =>
    have hset := PortsUnder.set h (N.fresh w.sockets.keys) (v := .tcp s) (by
      intro p hp
      obtain rfl := Option.some.inj ((P.listen_port _ s hs).symm.trans hp)
      cases addr <;> exact ha)
    exact hset.insertListener key ha
  · exact PortsUnder.insertListener h key ha

/-- Ports come from the counter, from a command that names one, or from a listener. -/
theorem effect {c : Option StackCommand} (h : PortsBelow P V n w)
    (halloc : ∀ cmd, c = some cmd → cmd.allocates = true → w.ephemeralPort.toNat < n)
    (hasked : ∀ cmd, c = some cmd → ∀ p ∈ cmd.askedPort, p.toNat < n) (he : Effect N c w w') :
    PortsBelow P V n w' := by
  cases he with
  | reject m port ips rep hr hm hb =>
    exact PortsUnder.rule h (fun x v hv => .inl ((hm x).symm.trans hv))
  | connect k s port la hk hs hport =>
    obtain ⟨remote, a, hs⟩ := hs
    refine PortsUnder.set h k (v := .tcp s) ?_
    intro p hp
    obtain rfl := Option.some.inj ((P.connect_port _ _ _ s hs).symm.trans hp)
    exact halloc _ rfl rfl
  | listen m hs primary hp hlen hnd hport hold hnew hrest =>
    rename_i addr backlog r
    have haddr : addr.port.toNat < n := hasked _ rfl _ (if_neg hport)
    have hsock : PortsUnder P V n m w.listeners := by
      refine PortsUnder.rule h (fun x v hv => ?_)
      by_cases hx : x ∈ hs
      · obtain ⟨s, hs', hm⟩ := hnew x hx
        obtain rfl := Option.some.inj (hm.symm.trans hv)
        right
        intro p hp
        obtain rfl := Option.some.inj ((P.listen_port _ s hs').symm.trans hp)
        cases addr <;> exact haddr
      · exact .inl ((hrest x hx).symm.trans hv)
    exact hsock.insertListener primary haddr
  | accept l x rest s la pa hl hx hs he =>
    exact h.replaceListening _ (h.listener _ l hl) rest
  | wait l hl hnone => exact h
  | listenerGone hl => exact h
  | listenerClose l m hl hout hin =>
    have hsock : PortsUnder P V n m w.listeners := by
      refine PortsUnder.rule h (fun x v hv => ?_)
      by_cases hx : x ∈ l.listeningHandles
      · obtain ⟨s, hs, hm⟩ := hin x hx
        obtain rfl := Option.some.inj (hm.symm.trans hv)
        right
        intro p hp
        have hport : boundPort P V (.tcp s) = some p := by
          split_ifs at hp with hst
          · rcases P.close_port s with hc | hc
            · exact hc.symm.trans hp
            · cases hc.symm.trans hp
          · exact hp
        exact h.socket x _ hs p hport
      · exact .inl ((hout x hx).symm.trans hv)
    exact hsock.eraseListener _
  | tcpClose s hs => exact PortsUnder.touch h hs (P.close_port s)
  | udpBind k s port addr hk hs hport =>
    rename_i asked r
    refine PortsUnder.set h k (v := .udp s) ?_
    intro p hp
    have hep : boundPort P V (.udp s : Socket T U) = some (w.bindPort asked) := by
      simp only [boundPort, (V.bind_new _ s hs).1, Option.map_some]
      cases asked <;> rfl
    obtain rfl := Option.some.inj (hep.symm.trans hp)
    unfold World.bindPort
    split_ifs with hz
    · exact halloc _ rfl (by simp [StackCommand.allocates, hz])
    · exact hasked _ rfl _ (if_neg hz)
  | udpClose s hs =>
    refine PortsUnder.touch h hs (.inr ?_)
    simp [boundPort, (V.close_empty s).1]
  | connected la pa ch r hp => exact h
  | connectDead la pa ch r e hp => exact h
  | acceptPending r l x rest s la pa hp hl hx hs he =>
    rename_i key
    have hrep := h.replaceListening key (h.listener key l hl) rest
    exact hrep

/-- Step lemma: a bound above the ports that the step brings in is kept. -/
theorem transition (h : PortsBelow P V n w) {a : Action E}
    (halloc : w.allocates a = true → w.ephemeralPort.toNat < n) (hok : AskedBelow w a)
    (hn : w.ephemeralPort.toNat ≤ n) (ht : Transition N a w w') : PortsBelow P V n w' := by
  cases ht with
  | env he =>
    have hf := World.envStep_frame he
    unfold PortsBelow
    rw [hf.sockets, hf.listeners]
    exact h
  | control p notify hp hw => exact h
  | command cmd rest hph hq he =>
    have hpop : PortsBelow P V n { w with
        commands := rest
        received := w.received ++ cmd.response.toList } := h
    have hhead : w.commands.queue.head? = some cmd := by rw [hq, List.head?_cons]
    have hend := hpop.effect (c := some cmd) (by
      rintro _ ⟨⟩ hcmd
      exact halloc (by simp [World.allocates, hhead, hcmd])) (by
      rintro _ ⟨⟩ p hp
      have hlt : p < w.ephemeralPort := by simpa [Option.mem_def.mp hp] using hok cmd hhead
      exact Nat.lt_of_lt_of_le (UInt16.lt_iff_toNat_lt.mp hlt) hn) he
    exact hend
  | writeTcp k tcp udp st s hph hst hs =>
    refine PortsUnder.touch h hs ?_
    apply processTcpWrite_rule (fun s' => boundPort P V (.tcp s' : Socket T U) =
      boundPort P V (.tcp s) ∨ boundPort P V (.tcp s' : Socket T U) = none)
    · intro s' data hs'
      simpa only [boundPort, P.send_port] using hs'
    · intro _ s' hs'
      rcases P.close_port s' with hc | hc
      · simpa only [boundPort, hc] using hs'
      · exact .inr hc
    · exact .inl rfl
  | writeUdp k udp st s hst hs hp =>
    refine PortsUnder.touch h hs ?_
    apply processUdpWrite_rule (fun s' => boundPort P V (.udp s' : Socket T U) =
      boundPort P V (.udp s) ∨ boundPort P V (.udp s' : Socket T U) = none)
    · intro s' d _ hs'
      simpa only [boundPort, V.send_endpoint] using hs'
    · intro _ s' _
      right
      simp [boundPort, (V.close_empty s').1]
    · exact .inl rfl
  | tcpEvent k e s hs => exact PortsUnder.touch h hs (P.process_port e s)
  | udpEvent k e s hs =>
    refine PortsUnder.touch h hs (.inl ?_)
    simp only [boundPort, (V.process_view e s).1]
  | readTcp k tcp udp changed st s hst hs =>
    refine PortsUnder.touch h hs (.inl ?_)
    apply processTcpRead_rule (fun s' => boundPort P V (.tcp s' : Socket T U) =
      boundPort P V (.tcp s))
    · intro s' len hs'
      simpa only [boundPort, P.recv_port] using hs'
    · rfl
  | readUdp k udp changed st s hst hs hp =>
    refine PortsUnder.touch h hs (.inl ?_)
    have hread := processUdpRead_spec V (w.udpChans st.chan).read
      (w.udpChans st.chan).read.room s [] w.stats
    simp only [boundPort, hread.1.1]
  | pending order he =>
    have hend := Effect.path_rule (PortsBelow P V n) h
      (fun _ _ hu he => hu.effect (c := none) (by simp) (by simp) he) he
    exact hend
  | fail =>
    have hend := World.failOps_rule (PortsBelow P V n) w.pending.entries h (fun _ _ _ _ hv => hv)
    exact hend

end PortsBelow

theorem Effect.port {c : Option StackCommand} {w w' : World T U} (he : Effect N c w w') :
    w'.ephemeralPort = c.elim w.ephemeralPort (·.portAfter w.ephemeralPort) := by
  cases he with
  | reject m port ips rep hr hm hb hport => exact hport
  | connect k s port la hk hs hport => exact hport
  | udpBind k s port addr hk hs hport => exact hport
  | accept l x rest s la pa hl hx hs he =>
    change (w.replaceListening N _ l.addr rest).ephemeralPort = _
    unfold World.replaceListening
    split <;> rfl
  | acceptPending r l x rest s la pa hp hl hx hs he =>
    change (w.replaceListening N _ l.addr rest).ephemeralPort = _
    unfold World.replaceListening
    split <;> rfl
  | _ => rfl

theorem World.envStep_port {a : Action E} {w w' : World T U} (h : w.envStep a = some w') :
    w'.ephemeralPort = if w.allocates a then w.ephemeralPort + 1 else w.ephemeralPort := by
  cases a with
  | issue cmd =>
    obtain ⟨-, n, rfl⟩ := envStep_issue h
    rfl
  | cancel | dropCommands | foreignPort | ipcDies =>
    obtain rfl := Option.some.inj h
    rfl
  | streamRead | dropWriteTx | dropReadRx | dropUdp =>
    simp only [envStep] at h
    split_ifs at h
    obtain rfl := Option.some.inj h
    rfl
  | streamWrite | udpSend | udpRecv =>
    simp only [envStep] at h
    split_ifs at h
    split at h
    · obtain rfl := Option.some.inj h
      rfl
    · cases h
  | _ => cases h

theorem Transition.port {a : Action E} {w w' : World T U} (ht : Transition N a w w') :
    w'.ephemeralPort = if w.allocates a then w.ephemeralPort + 1 else w.ephemeralPort := by
  cases ht with
  | env he => exact World.envStep_port he
  | control p notify hp hw hu hal => rw [if_neg (by simp [hal])]
  | command cmd rest hph hq he =>
    have hal : w.allocates (.command : Action E) = cmd.allocates := by simp [World.allocates, hq]
    rw [hal]
    exact he.port
  | pending order he =>
    have hend := Effect.path_rule (·.ephemeralPort = w.ephemeralPort) rfl
      (fun _ _ hu he => he.port.trans hu) he
    exact hend
  | fail =>
    have hend := World.failOps_rule (·.ephemeralPort = w.ephemeralPort) w.pending.entries rfl
      (fun _ _ _ _ hv => hv)
    exact hend
  | writeTcp | writeUdp | tcpEvent | udpEvent | readTcp | readUdp => rfl

section Runs

variable {P : N.TcpPorts} {V : N.UdpView} {cfg : StackConfig} {w w' : World T U}

/-- Run lemma: the counter is the number of allocations, reduced to 16 bits. -/
theorem Owned.run_port (hf : N.FreshHandles) (as : List (Action E)) (ho : Owned w)
    (h : runActions (World.step N cfg) as w = some w') :
    w'.ephemeralPort.toNat =
      (w.ephemeralPort.toNat + runCount (World.step N cfg) World.allocates as w) % 65536 := by
  induction as generalizing w with
  | nil =>
    obtain rfl : w = w' := by simpa using h
    exact (Nat.mod_eq_of_lt w.ephemeralPort.toNat_lt).symm
  | cons a as ih =>
    obtain ⟨u, hu, hrest⟩ := (runActions_cons_eq_some _).mp h
    have ht := ho.step_transition hf hu
    have hport := ht.port
    rw [runCount_cons _ hu, ih (ho.transition hf ht) hrest, hport]
    cases w.allocates a with
    | false => simp
    | true =>
      have hadd : (w.ephemeralPort + 1).toNat = (w.ephemeralPort.toNat + 1) % 65536 :=
        UInt16.toNat_add _ _
      simp only [if_true, hadd, Bool.toNat_true]
      omega

/-- Run lemma: while the counter does not wrap, and asked ports are behind it, all ports in use
are behind it. -/
theorem Owned.run_portsBelow (hf : N.FreshHandles) (as : List (Action E)) (ho : Owned w)
    (hb : PortsBelow P V w.ephemeralPort.toNat w)
    (hn : w.ephemeralPort.toNat + runCount (World.step N cfg) World.allocates as w ≤ 65535)
    (hok : everyStep (World.step N cfg) (fun w a _ => AskedBelow w a) as w)
    (h : runActions (World.step N cfg) as w = some w') :
    PortsBelow P V w'.ephemeralPort.toNat w' := by
  induction as generalizing w with
  | nil =>
    obtain rfl : w = w' := by simpa using h
    exact hb
  | cons a as ih =>
    obtain ⟨u, hu, hrest⟩ := (runActions_cons_eq_some _).mp h
    obtain ⟨hasked, hok⟩ := hok u hu
    have ht := ho.step_transition hf hu
    have hport := ht.port
    rw [runCount_cons _ hu] at hn
    have hcount : u.ephemeralPort.toNat = w.ephemeralPort.toNat + (w.allocates a).toNat := by
      rw [hport]
      cases hal : w.allocates a with
      | false => rfl
      | true =>
        have hadd : (w.ephemeralPort + 1).toNat = (w.ephemeralPort.toNat + 1) % 65536 :=
          UInt16.toNat_add _ _
        simp only [hal, Bool.toNat_true] at hn
        simp only [if_true, hadd, Bool.toNat_true]
        omega
    have hstep : PortsBelow P V u.ephemeralPort.toNat u := by
      refine PortsBelow.transition (PortsUnder.mono hb (by omega)) ?_ hasked (by omega) ht
      intro hal
      rw [hcount, hal, Bool.toNat_true]
      omega
    exact ih (ho.transition hf ht) hstep (by omega) hok hrest

end Runs

/-- No live TCP socket and no listener has the port. -/
def TcpPortFree (P : N.TcpPorts) (w : World T U) (p : UInt16) : Prop :=
  (∀ x s, w.sockets.lookup x = some (.tcp s) → P.localPort s ≠ some p) ∧
    ∀ k l, w.listeners.lookup k = some l → l.addr.port ≠ p

/-- No live UDP socket is bound to the port. -/
def UdpPortFree (V : N.UdpView) (w : World T U) (p : UInt16) : Prop :=
  ∀ x s, w.sockets.lookup x = some (.udp s) → ∀ ep, V.endpoint s = some ep → ep.port ≠ p

/-- The port that the allocator supplies after a run is the number of allocations before it,
modulo 65536. Before the counter has wrapped, and if no application has asked for a port that
the counter had yet to reach, the port is ephemeral and free for both protocols. -/
theorem ephemeral_port_supplied (N : Smoltcp T U E) (hf : N.FreshHandles) (P : N.TcpPorts)
    (V : N.UdpView) (cfg : StackConfig) (port : UInt16) (as : List (Action E)) (w : World T U)
    (hrun : runActions (World.step N cfg) as (World.init N cfg port) = some w) :
    let n := port.toNat +
      runCount (World.step N cfg) World.allocates as (World.init N cfg port)
    let p := w.allocateEphemeralPort.1
    p.toNat = n % 65536 ∧
    (ephemeralPortStart ≤ port → n ≤ 65535 →
      everyStep (World.step N cfg) (fun w a _ => AskedBelow w a) as (World.init N cfg port) →
      ephemeralPortStart ≤ p ∧ p ≠ 0 ∧ TcpPortFree P w p ∧ UdpPortFree V w p) := by
  intro n p
  have ho := owned_init N cfg port
  obtain ⟨ips, ph, he, -⟩ := init_cases N cfg port
  have hport : (World.init N cfg port).ephemeralPort = port := by rw [he]; rfl
  have hcount := ho.run_port hf as hrun
  rw [hport] at hcount
  refine ⟨hcount, ?_⟩
  intro hstart hn hok
  have hinit : PortsBelow P V (World.init N cfg port).ephemeralPort.toNat
      (World.init N cfg port) := by
    rw [he]
    exact PortsUnder.empty P V _
  have hbelow := ho.run_portsBelow hf as hinit (by rw [hport]; exact hn) hok hrun
  have hge : ephemeralPortStart ≤ p := by
    rw [UInt16.le_iff_toNat_le] at hstart ⊢
    change ephemeralPortStart.toNat ≤ w.ephemeralPort.toNat
    rw [hcount]
    omega
  have hfree : ∀ q : UInt16, q.toNat < p.toNat → q ≠ p := by
    rintro q hq rfl
    exact Nat.lt_irrefl _ hq
  refine ⟨hge, ?_, ⟨?_, ?_⟩, ?_⟩
  · intro h0
    rw [h0] at hge
    exact absurd hge (by decide)
  · intro x s hs hp
    exact hfree p (hbelow.socket x _ hs p hp) rfl
  · intro k l hl
    exact hfree _ (hbelow.listener k l hl)
  · intro x s hs ep hep
    exact hfree _ (hbelow.socket x _ hs ep.port (by simp [boundPort, hep]))

/-- After a listener on port 8080 the first port of the range is supplied. -/
theorem ephemeral_port_supplied_listenRun :
    ∃ w, Reach refNet hostCfg 49152 w ∧ w.HasListener 0 ∧ w.allocateEphemeralPort.1 = 49152 ∧
      TcpPortFree refPorts w 49152 ∧ UdpPortFree refUdpView w 49152 := by
  obtain ⟨w, hr, hrun, hp⟩ := reachable_of_run (World.step refNet hostCfg) (listenRun 1)
    (World.init refNet hostCfg 49152) (fun w => decide (w.HasListener 0 ∧
      w.allocateEphemeralPort.1 = 49152)) (by decide +kernel)
  obtain ⟨hl, hport⟩ := of_decide_eq_true hp
  have hcount : runCount (World.step refNet hostCfg) World.allocates (listenRun 1)
      (World.init refNet hostCfg 49152) = 0 := by decide +kernel
  have hsup := (ephemeral_port_supplied refNet refNet_freshHandles refPorts refUdpView hostCfg 49152
    (listenRun 1) w hrun).2 (by decide) (by rw [hcount]; decide) (by decide +kernel)
  rw [hport] at hsup
  exact ⟨w, hr, hl, hport, hsup.2.2⟩

theorem foreignPorts_run (N : Smoltcp T U E) (cfg : StackConfig) (n : Nat) {w : World T U}
    (h : w.Running) :
    runActions (World.step N cfg) (List.replicate n .foreignPort) w =
      some { w with ephemeralPort := w.ephemeralPort + UInt16.ofNat n } := by
  induction n generalizing w with
  | zero => simp
  | succ n ih =>
    have hstep : World.step N cfg .foreignPort w =
        some { w with ephemeralPort := w.ephemeralPort + 1 } := by
      unfold World.step
      rw [if_pos h]
      rfl
    have hadd : w.ephemeralPort + 1 + UInt16.ofNat n = w.ephemeralPort + UInt16.ofNat (n+1) := by
      rw [UInt16.add_assoc, UInt16.ofNat_add, UInt16.add_comm 1]
      rfl
    have hrest := ih (w := { w with ephemeralPort := w.ephemeralPort + 1 }) h
    rw [hadd] at hrest
    rw [List.replicate_succ, runActions_cons, hstep, Option.bind_some, hrest]

/-- An ephemeral UDP bind after 16384 allocations is given port 0 and fails, and a port that an
application has bound itself is supplied to the next bind. -/
theorem ephemeral_port_unusable :
    (∃ w w', Reach refNet hostCfg 49152 w ∧ w.commands.queue = [.udpBind (.v4 0 0) 0] ∧
      w.allocateEphemeralPort.1 = 0 ∧ World.step refNet hostCfg .command w = some w' ∧
      w'.Answered 0 ∧ ¬w'.HasUdp 0) ∧
    (∃ w, Reach refNet hostCfg 49152 w ∧ w.allocateEphemeralPort.1 = 49152 ∧
      ¬UdpPortFree refUdpView w 49152) := by
  constructor
  · have hstart : (World.init refNet hostCfg 49152).Running := by decide +kernel
    have hwrap : Reach refNet hostCfg 49152 _ :=
      Reachable.run _ .start (foreignPorts_run refNet hostCfg 16384 hstart)
    obtain ⟨w, hrun, hp⟩ : ∃ w, runActions (World.step refNet hostCfg)
        [.issue (.udpBind (.v4 0 0) 0)] { World.init refNet hostCfg 49152 with
          ephemeralPort := (World.init refNet hostCfg 49152).ephemeralPort + UInt16.ofNat 16384 } =
          some w ∧ decide (w.commands.queue = [.udpBind (.v4 0 0) 0] ∧
            w.allocateEphemeralPort.1 = 0 ∧
            (World.step refNet hostCfg .command w).map
              (fun w' => decide (w'.Answered 0 ∧ ¬w'.HasUdp 0)) = some true) = true :=
      Option.map_eq_some_iff.mp (by decide +kernel)
    obtain ⟨hq, hzero, hstep⟩ := of_decide_eq_true hp
    obtain ⟨w', hs, hans⟩ := Option.map_eq_some_iff.mp hstep
    exact ⟨w, w', Reachable.run _ hwrap hrun, hq, hzero, hs, of_decide_eq_true hans⟩
  · obtain ⟨w, hr, -, hp⟩ := reachable_of_run (World.step refNet hostCfg)
      [.issue (.udpBind (.v4 0x0a000002 49152) 0), .command] (World.init refNet hostCfg 49152)
      (fun w => decide (w.allocateEphemeralPort.1 = 49152 ∧
        w.sockets.lookup 0 = some (.udp ⟨some ⟨some (.ipv4 0x0a000002), 49152⟩, [], []⟩)))
      (by decide +kernel)
    obtain ⟨hport, hs⟩ := of_decide_eq_true hp
    exact ⟨w, hr, hport, fun hfree => hfree 0 _ hs _ rfl rfl⟩

end TapTunnel.Stack
