import TapTunnel.Stack.Accept

namespace TapTunnel.Stack

open Framework Reference

variable {T U E : Type} {N : Smoltcp T U E}

section Components

variable {Q : T → Prop} {So So' : HandleMap (Socket T U)} {Li : HandleMap ListenerState}
  {An : List (ReqId × Reply)} {Cr : List (SocketHandle × Nat)}

/-- Every listener has as many sockets as its backlog asks for, a port on which a replacement
can listen, and only sockets with the property `Q`. -/
structure BacklogAt (Q : T → Prop) (So : HandleMap (Socket T U)) (Li : HandleMap ListenerState)
    (An : List (ReqId × Reply)) (Cr : List (SocketHandle × Nat)) : Prop where
  given : ∀ p ∈ Cr, Gave An Reply.listenerHandle? p.1
  size : ∀ p ∈ Cr, ∀ l, Li.lookup p.1 = some l → l.listeningHandles.length = max p.2 1
  port : ∀ k l, Li.lookup k = some l → l.addr.port ≠ 0
  states : ∀ k l, Li.lookup k = some l → ∀ x ∈ l.listeningHandles,
    ∃ s, So.lookup x = some (.tcp s) ∧ Q s

namespace BacklogAt

theorem push (h : BacklogAt Q So Li An Cr) (p : ReqId × Reply) :
    BacklogAt Q So Li (An ++ [p]) Cr :=
  { h with given := fun q hq => Gave.mono (List.prefix_append _ _) (h.given q hq) }

theorem sockets (h : BacklogAt Q So Li An Cr)
    (hs : ∀ k l, Li.lookup k = some l → ∀ x ∈ l.listeningHandles, ∀ s,
      So.lookup x = some (.tcp s) → Q s → ∃ s', So'.lookup x = some (.tcp s') ∧ Q s') :
    BacklogAt Q So' Li An Cr where
  __ := h
  states k l hl x hx := by
    obtain ⟨s, hlook, hq⟩ := h.states k l hl x hx
    exact hs k l hl x hx s hlook hq

theorem keep (h : BacklogAt Q So Li An Cr)
    (hs : ∀ k l, Li.lookup k = some l → ∀ x ∈ l.listeningHandles, So'.lookup x = So.lookup x) :
    BacklogAt Q So' Li An Cr :=
  h.sockets (fun k l hl x hx s hlook hq => ⟨s, (hs k l hl x hx).trans hlook, hq⟩)

theorem eraseListener (h : BacklogAt Q So Li An Cr) (k : SocketHandle) :
    BacklogAt Q So (Li.erase k) An Cr where
  given := h.given
  size p hp l hl := h.size p hp l (Table.erase_cases hl).2
  port k' l hl := h.port k' l (Table.erase_cases hl).2
  states k' l hl := h.states k' l (Table.erase_cases hl).2

/-- A listener's sockets are exchanged for as many others. -/
theorem setListener (h : BacklogAt Q So Li An Cr) {k : SocketHandle} {l : ListenerState}
    (hl : Li.lookup k = some l) {hs : List SocketHandle}
    (hlen : hs.length = l.listeningHandles.length)
    (hq : ∀ x ∈ hs, ∃ s, So.lookup x = some (.tcp s) ∧ Q s) :
    BacklogAt Q So (Li.insert k ⟨l.addr, hs⟩) An Cr where
  given := h.given
  size p hp l' hl' := by
    rcases Table.insert_cases hl' with ⟨he, rfl⟩ | ⟨-, hl'⟩
    · exact hlen.trans (h.size p hp l (he ▸ hl))
    · exact h.size p hp l' hl'
  port k' l' hl' := by
    rcases Table.insert_cases hl' with ⟨-, rfl⟩ | ⟨-, hl'⟩
    · exact h.port k l hl
    · exact h.port k' l' hl'
  states k' l' hl' := by
    rcases Table.insert_cases hl' with ⟨-, rfl⟩ | ⟨-, hl'⟩
    · exact hq
    · exact h.states k' l' hl'

/-- A listener is created under a key that no earlier one had. -/
theorem newListener (h : BacklogAt Q So Li An Cr) {k : SocketHandle} {addr : SocketAddr}
    {hs : List SocketHandle} {b : Nat} (r : ReqId) (hnew : ¬Gave An Reply.listenerHandle? k)
    (hlen : hs.length = max b 1) (hport : addr.port ≠ 0)
    (hq : ∀ x ∈ hs, ∃ s, So.lookup x = some (.tcp s) ∧ Q s) :
    BacklogAt Q So (Li.insert k ⟨addr, hs⟩) (An ++ [(r, .listen (.ok (k, addr)))])
      (Cr ++ [(k, b)]) where
  given p hp := by
    rcases List.mem_append.mp hp with hp | hp
    · exact Gave.mono (List.prefix_append _ _) (h.given p hp)
    · obtain rfl := List.mem_singleton.mp hp
      exact (gave_push ..).mpr (.inr rfl)
  size p hp l hl := by
    rcases List.mem_append.mp hp with hp | hp
    · rcases Table.insert_cases hl with ⟨he, -⟩ | ⟨-, hl⟩
      · exact absurd (h.given p hp) (he ▸ hnew)
      · exact h.size p hp l hl
    · obtain rfl := List.mem_singleton.mp hp
      rw [AList.lookup_insert] at hl
      obtain rfl := Option.some.inj hl
      exact hlen
  port k' l hl := by
    rcases Table.insert_cases hl with ⟨-, rfl⟩ | ⟨-, hl⟩
    · exact hport
    · exact h.port k' l hl
  states k' l hl := by
    rcases Table.insert_cases hl with ⟨-, rfl⟩ | ⟨-, hl⟩
    · exact hq
    · exact h.states k' l hl

end BacklogAt

end Components

def Backlog (Q : T → Prop) (w : World T U) : Prop :=
  BacklogAt Q w.sockets w.listeners w.answers w.created

namespace Backlog

variable {Q : T → Prop} {w w' : World T U}

theorem deliverAccepted (h : Backlog Q w) (x : SocketHandle) (la pa : SocketAddr) (r : ReqId) :
    Backlog Q (w.deliverAccepted x la pa r) := h.push _

/-- A socket under a fresh handle does not touch the listening ones. -/
theorem lookup_fresh (ho : Owned w) {k x y : SocketHandle} {l : ListenerState}
    (hx : w.sockets.lookup x = none) (hl : w.listeners.lookup k = some l)
    (hy : y ∈ l.listeningHandles) (v : Socket T U) :
    (w.sockets.insert x v).lookup y = w.sockets.lookup y := by
  refine AList.lookup_insert_ne ?_
  rintro rfl
  exact (ho.unused hx).2.2.2.2 k l hl hy

/-- The replacement keeps the number of listening sockets. -/
theorem replaceListening (hf : N.FreshHandles) (hM : N.TcpMachine)
    (hnew : ∀ ep s, ep.port ≠ 0 → N.listen N.tcpNew ep = .ok s → Q s) (ho : Owned w)
    (h : Backlog Q w) {key x : SocketHandle} {l : ListenerState} {rest : List SocketHandle}
    (hl : w.listeners.lookup key = some l) (hx : (x::rest).Perm l.listeningHandles) :
    Backlog Q (w.replaceListening N key l.addr rest) := by
  have hport := h.port key l hl
  obtain ⟨s, hs, -, -⟩ := hM.listen_ok (socketAddrToListenEndpoint l.addr) hport
  have hfresh := World.fresh_lookup hf w.sockets
  unfold World.replaceListening
  rw [hs]
  simp only
  generalize N.fresh w.sockets.keys = k at hfresh
  have hkeep : Backlog Q (w.setTcp k s) :=
    h.keep (fun k' l' hl' y hy => lookup_fresh ho hfresh hl' hy _)
  refine BacklogAt.setListener hkeep hl ?_ ?_
  · rw [← hx.length_eq]
    simp
  · intro y hy
    rcases List.mem_append.mp hy with hy | hy
    · exact hkeep.states key l hl y (hx.mem_iff.mp (by simp [hy]))
    · obtain rfl := List.mem_singleton.mp hy
      exact ⟨s, AList.lookup_insert _, hnew _ s hport hs⟩

theorem effect (hf : N.FreshHandles) (hM : N.TcpMachine)
    (hnew : ∀ ep s, ep.port ≠ 0 → N.listen N.tcpNew ep = .ok s → Q s) (ho : Owned w)
    (h : Backlog Q w) {c : Option StackCommand}
    (hc : ∀ cmd, c = some cmd → CommandAllowed w.answers cmd) (he : Effect N c w w') :
    Backlog Q w' := by
  cases he with
  | reject m port ips rep hr hm hb =>
    exact (BacklogAt.keep h (fun _ _ _ x _ => hm x)).push _
  | connect k s port la hk => exact BacklogAt.keep h (fun _ _ hl y hy => lookup_fresh ho hk hl hy _)
  | listen m hs primary hp hlen hnd hport hold hlisten hrest =>
    have hprim := hold primary (List.mem_of_head? hp)
    have hkeep : BacklogAt Q m w.listeners w.answers w.created := by
      refine BacklogAt.keep h (fun k l hl x hx => hrest x (fun hm => ?_))
      exact (ho.unused (hold x hm)).2.2.2.2 k l hl hx
    refine BacklogAt.newListener hkeep _ ?_ hlen hport ?_
    · intro hg
      obtain ⟨s, hs'⟩ := ho.live.gaveListener primary hg
      rw [hprim] at hs'
      cases hs'
    · intro x hx
      obtain ⟨s, hs', hlook⟩ := hlisten x hx
      exact ⟨s, hlook, hnew _ s hport hs'⟩
  | accept l x rest s la pa hl hx hs hest =>
    exact (h.replaceListening hf hM hnew ho hl hx).deliverAccepted x la pa _
  | wait l hl hnone => exact h
  | listenerGone hl => exact h
  | listenerClose l m hl hout hin =>
    rename_i key
    have hrest := BacklogAt.eraseListener h key
    refine BacklogAt.keep hrest (fun k l' hl' x hx => hout x (fun hm => ?_))
    obtain ⟨hne, hl'⟩ := Table.erase_cases hl'
    exact ho.apart.inj key l hl x hm ⟨k, l', hne, hl', hx⟩
  | tcpClose s hs =>
    refine BacklogAt.keep h (fun k l hl x hx => AList.lookup_insert_ne ?_)
    rintro rfl
    exact ho.apart.stream k l hl x hx (hc _ rfl)
  | udpBind k s port addr hk =>
    exact (BacklogAt.keep h (fun _ _ hl y hy => lookup_fresh ho hk hl hy _)).push _
  | udpClose s hs =>
    refine BacklogAt.keep h (fun k l hl x hx => AList.lookup_insert_ne ?_)
    rintro rfl
    exact (ho.live.listening k l hl x hx).not_udp ⟨s, hs⟩
  | connected la pa ch r hp => exact h.push _
  | connectDead la pa ch r e hp => exact h.push _
  | acceptPending r l x rest s la pa hp hl hx hs hest =>
    exact (h.replaceListening hf hM hnew ho hl hx).push _

theorem effects (hf : N.FreshHandles) (hM : N.TcpMachine)
    (hnew : ∀ ep s, ep.port ≠ 0 → N.listen N.tcpNew ep = .ok s → Q s) (ho : Owned w)
    (h : Backlog Q w) (he : Relation.ReflTransGen (Effect N none) w w') : Backlog Q w' :=
  ho.effects_rule hf (Backlog Q) h
    (fun _ _ hu hv he => effect (c := none) hf hM hnew hu hv nofun he) he

/-- Step lemma: only an event on a listening socket can spoil the property of a listener. -/
theorem transition (hf : N.FreshHandles) (hM : N.TcpMachine)
    (hnew : ∀ ep s, ep.port ≠ 0 → N.listen N.tcpNew ep = .ok s → Q s) (ho : Owned w)
    (h : Backlog Q w) {a : Action E} (ht : Transition N a w w')
    (hproc : ∀ x e s k, a = .tcpEvent x e → w.Listening k x →
      w.sockets.lookup x = some (.tcp s) → Q s → Q (N.tcpProcess e s)) : Backlog Q w' := by
  have hentry : ∀ x st, w.tcpStates.lookup x = some st →
      ∀ k l, w.listeners.lookup k = some l → ∀ y ∈ l.listeningHandles, y ≠ x := by
    rintro x st hst k l hl y hy rfl
    rw [ho.apart.tcp k l hl y hy] at hst
    cases hst
  have hudp : ∀ x s, w.sockets.lookup x = some (.udp s) →
      ∀ k l, w.listeners.lookup k = some l → ∀ y ∈ l.listeningHandles, y ≠ x := by
    rintro x s hs k l hl y hy rfl
    exact (ho.live.listening k l hl y hy).not_udp ⟨s, hs⟩
  cases ht with
  | env he =>
    have hfr := World.envStep_frame he
    unfold Backlog
    rw [hfr.sockets, hfr.listeners, hfr.answers, hfr.created]
    exact h
  | control p notify hp hw => exact h
  | command cmd rest hph hq he =>
    have hallow : ∀ c, some cmd = some c → CommandAllowed w.answers c := by
      rintro c ⟨⟩
      exact ho.headAllowed hq
    have h1 := effect (w := { w with
      commands := rest
      received := w.received ++ cmd.response.toList }) hf hM hnew (ho.popCommand hq _) h hallow he
    exact h1
  | writeTcp x tcp udp st s hph hst hs =>
    exact BacklogAt.keep h (fun k l hl y hy => AList.lookup_insert_ne (hentry x st hst k l hl y hy))
  | writeUdp x udp st s hst hs =>
    exact BacklogAt.keep h (fun k l hl y hy => AList.lookup_insert_ne (hudp x s hs k l hl y hy))
  | tcpEvent x e s hs =>
    refine BacklogAt.sockets h (fun k l hl y hy s' hs' hq => ?_)
    by_cases hyx : y = x
    · subst hyx
      exact ⟨_, AList.lookup_insert _, hproc y e _ k rfl ⟨l, hl, hy⟩ hs (by
        obtain rfl : s' = s := by simpa [hs] using hs'.symm
        exact hq)⟩
    · exact ⟨s', (AList.lookup_insert_ne hyx).trans hs', hq⟩
  | udpEvent x e s hs =>
    exact BacklogAt.keep h (fun k l hl y hy => AList.lookup_insert_ne (hudp x s hs k l hl y hy))
  | readTcp x tcp udp changed st s hst hs =>
    exact BacklogAt.keep h (fun k l hl y hy => AList.lookup_insert_ne (hentry x st hst k l hl y hy))
  | readUdp x udp changed st s hst hs =>
    exact BacklogAt.keep h (fun k l hl y hy => AList.lookup_insert_ne (hudp x s hs k l hl y hy))
  | pending order he =>
    have h1 := effects hf hM hnew ho h he
    exact h1
  | fail =>
    have h1 := World.failOps_rule (Backlog Q) w.pending.entries h (fun _ _ _ _ hv => hv.push _)
    exact h1

end Backlog

/-- Run lemma: a property that `listen` establishes and every admitted event keeps holds of the
listening sockets of all listeners. -/
theorem Reach.backlog (hf : N.FreshHandles) (hM : N.TcpMachine) {Q : T → Prop}
    (hnew : ∀ ep s, ep.port ≠ 0 → N.listen N.tcpNew ep = .ok s → Q s) {cfg : StackConfig}
    {port : UInt16} {w : World T U} {ok : World T U → Action E → Prop}
    (hproc : ∀ v x e s k, ok v (.tcpEvent x e) → v.Listening k x →
      v.sockets.lookup x = some (.tcp s) → Q s → Q (N.tcpProcess e s))
    (h : ReachVia (World.step N cfg) ok (World.init N cfg port) w) : Backlog Q w := by
  refine Reach.invariant hf (Backlog Q) (fun _ _ => ⟨nofun, nofun, nofun, nofun⟩) ?_ h
  intro v v' a ho hv hok ht
  refine hv.transition hf hM hnew ho ht ?_
  rintro x e s k rfl
  exact hproc v x e s k hok

/-- A listening socket is in a backlog state, or dead. -/
theorem Reach.backlogState (hf : N.FreshHandles) (hM : N.TcpMachine) {cfg : StackConfig}
    {port : UInt16} {w : World T U} (h : Reach N cfg port w) {k x : SocketHandle}
    {l : ListenerState} (hl : w.listeners.lookup k = some l) (hx : x ∈ l.listeningHandles) {s : T}
    (hs : w.sockets.lookup x = some (.tcp s)) :
    (N.tcpState s).inBacklog = true ∨ N.tcpState s = .closed := by
  have hinv : Backlog (fun s => (N.tcpState s).inBacklog = true ∨ N.tcpState s = .closed) w := by
    refine Reach.backlog hf hM (fun ep s hp hs => ?_) (fun v x e s k _ _ _ hq => ?_) h
    · obtain ⟨s', hs', hst, -⟩ := hM.listen_ok ep hp
      obtain rfl := Except.ok.inj (hs.symm.trans hs')
      exact .inl (by rw [hst]; rfl)
    · exact TcpState.moves_inBacklog (hM.process_state e s) hq
  obtain ⟨s', hs', hq⟩ := hinv.states k l hl x hx
  obtain rfl : s' = s := by simpa [hs] using hs'.symm
  exact hq

/-- Condition on a step: it is not a reset of a connection that has been made but not yet been
accepted. -/
def NoBacklogReset (N : Smoltcp T U E) (w : World T U) : Action E → Prop
  | .tcpEvent x e => ¬(N.kind e = .rst ∧ Usable N w x ∧
      ∃ p ∈ w.listeners.entries, x ∈ p.2.listeningHandles)
  | _ => True

instance (w : World T U) (a : Action E) : Decidable (NoBacklogReset N w a) := by
  rcases a with _ | _ <;> unfold NoBacklogReset <;> infer_instance

/-- The socket of a backlog slot that still works. -/
def SlotWorks (N : Smoltcp T U E) (s : T) : Prop :=
  N.passive s = true ∧ (N.tcpState s).inBacklog = true

theorem slotWorks_new (hM : N.TcpMachine) (ep : IpListenEndpoint) (s : T) (hp : ep.port ≠ 0)
    (hs : N.listen N.tcpNew ep = .ok s) : SlotWorks N s := by
  obtain ⟨s', hs', hst, hpas⟩ := hM.listen_ok ep hp
  obtain rfl := Except.ok.inj (hs.symm.trans hs')
  exact ⟨hpas, by rw [hst]; rfl⟩

theorem usable_of_state {w : World T U} {x : SocketHandle} {s : T}
    (hs : w.sockets.lookup x = some (.tcp s)) (hu : (N.tcpState s).usable = true) :
    Usable N w x := by
  unfold Usable
  rw [stateOf_eq hs]
  cases hq : N.tcpState s <;> simp_all [TcpState.usable]

/-- In every run without a reset on an unaccepted connection, each of the sockets of a listener
created with backlog `b` works, and there are `max b 1` of them. -/
theorem backlog_kept (N : Smoltcp T U E) (hf : N.FreshHandles) (hM : N.TcpMachine)
    (cfg : StackConfig) (port : UInt16) (w : World T U)
    (h : ReachVia (World.step N cfg) (NoBacklogReset N) (World.init N cfg port) w)
    (k : SocketHandle) (b : Nat) (hb : (k, b) ∈ w.created) (l : ListenerState)
    (hl : w.listeners.lookup k = some l) :
    l.listeningHandles.length = max b 1 ∧
    ∀ x ∈ l.listeningHandles, ∃ q, stateOf N w x = some q ∧ q.inBacklog = true := by
  have hinv : Backlog (SlotWorks N) w := by
    refine Reach.backlog hf hM (slotWorks_new hM) ?_ h
    rintro v x e s k' hok ⟨l', hl', hx⟩ hs ⟨hpas, hq⟩
    have hmove := hM.process_state e s
    rw [hpas] at hmove
    refine ⟨(hM.process_passive e s).trans hpas, TcpState.moves_inBacklog_of_not_rst hmove hq ?_⟩
    rintro ⟨hk, hu⟩
    exact hok ⟨hk, usable_of_state hs hu, ⟨k', l'⟩, AList.mem_lookup_iff.mp hl', hx⟩
  refine ⟨hinv.size (k, b) hb l hl, fun x hx => ?_⟩
  obtain ⟨s, hs, -, hq⟩ := hinv.states k l hl x hx
  exact ⟨_, stateOf_eq hs, hq⟩

theorem backlog_kept_acceptRun :
    ∃ w l, w.created = [(0, 1)] ∧ w.listeners.lookup 0 = some l ∧
      l.listeningHandles.length = max 1 1 ∧
      ∀ x ∈ l.listeningHandles, ∃ q, stateOf refNet w x = some q ∧ q.inBacklog = true := by
  obtain ⟨w, hr, hp⟩ := reachVia_of_run (World.step refNet hostCfg) (NoBacklogReset refNet)
    acceptRun (World.init refNet hostCfg 49152) (fun w => decide (w.created = [(0, 1)] ∧
      w.listeners.lookup 0 = some ⟨serverAddr, [1]⟩)) (by decide +kernel)
  obtain ⟨hcr, hl⟩ := of_decide_eq_true hp
  exact ⟨w, _, hcr, hl, backlog_kept refNet refNet_freshHandles refNet_tcpMachine hostCfg 49152 w hr
    0 1 (by simp [hcr]) _ hl⟩

/-- A peer connects and resets before anybody accepts: the only slot of the listener is taken
by a closed socket. -/
theorem backlog_slot_dead :
    ∃ w l, Reach refNet hostCfg 49152 w ∧ w.phase = .select ∧ (0, 1) ∈ w.created ∧
      w.listeners.lookup 0 = some l ∧ l.listeningHandles = [0] ∧
      stateOf refNet w 0 = some .closed := by
  obtain ⟨w, hr, -, hp⟩ := reachable_of_run (World.step refNet hostCfg)
    (batchRun [.syn serverEp peerEp, .ack 0, .rst]) (World.init refNet hostCfg 49152)
    (fun w => decide (w.phase = .select ∧ (0, 1) ∈ w.created ∧
      w.listeners.lookup 0 = some ⟨serverAddr, [0]⟩ ∧ stateOf refNet w 0 = some .closed))
    (by decide +kernel)
  obtain ⟨hph, hcr, hl, hst⟩ := of_decide_eq_true hp
  exact ⟨w, _, hr, hph, hcr, hl, rfl, hst⟩

end TapTunnel.Stack
