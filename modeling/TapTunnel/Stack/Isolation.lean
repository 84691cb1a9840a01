import TapTunnel.Framework.Grants
import TapTunnel.Stack.HandleSafety
import TapTunnel.Stack.PendingRounds

namespace TapTunnel.Stack

open Framework Reference

variable {T U E : Type} {N : Smoltcp T U E}

/-- The stream that an answer gives to the application, by its handle and its channels. -/
def Reply.stream? : Reply → Option (SocketHandle × ChanId)
  | .tcp (.ok (h, _, _, ch)) => some (h, ch)
  | _ => none

/-- The UDP socket that an answer gives to the application. -/
def Reply.udp? : Reply → Option (SocketHandle × ChanId)
  | .udp (.ok (h, _, ch)) => some (h, ch)
  | _ => none

theorem Reply.streamHandle?_eq (rep : Reply) : rep.streamHandle? = rep.stream?.map Prod.fst := by
  cases rep with
  | tcp res => cases res <;> rfl
  | _ => rfl

theorem Reply.udpHandle?_eq (rep : Reply) : rep.udpHandle? = rep.udp?.map Prod.fst := by
  cases rep with
  | udp res => cases res <;> rfl
  | _ => rfl

/-- All streams given to the application so far, in their order. -/
def streamsOf (An : List (ReqId × Reply)) : List (SocketHandle × ChanId) :=
  An.filterMap (fun p => p.2.stream?)

def udpsOf (An : List (ReqId × Reply)) : List (SocketHandle × ChanId) :=
  An.filterMap (fun p => p.2.udp?)

def listenersOf (An : List (ReqId × Reply)) : List SocketHandle :=
  An.filterMap (fun p => p.2.listenerHandle?)

section Answers

variable (An : List (ReqId × Reply)) (r : ReqId) (rep : Reply)

theorem streamsOf_push : streamsOf (An ++ [(r, rep)]) = streamsOf An ++ rep.stream?.toList := by
  cases hrep : rep.stream? <;> simp [streamsOf, hrep]

theorem udpsOf_push : udpsOf (An ++ [(r, rep)]) = udpsOf An ++ rep.udp?.toList := by
  cases hrep : rep.udp? <;> simp [udpsOf, hrep]

theorem listenersOf_push :
    listenersOf (An ++ [(r, rep)]) = listenersOf An ++ rep.listenerHandle?.toList := by
  cases hrep : rep.listenerHandle? <;> simp [listenersOf, hrep]

variable {An}

/-- A socket in the list of those given out was given out by an answer. -/
theorem gave_of_given {handle : Reply → Option Nat} {given : Reply → Option (Nat × Nat)}
    (hfst : ∀ rep, handle rep = (given rep).map Prod.fst) {k : Nat}
    (h : k ∈ (An.filterMap (fun p => given p.2)).map Prod.fst) : Gave An handle k := by
  obtain ⟨p, hp, hk⟩ := List.mem_map.mp h
  obtain ⟨e, hm, he⟩ := List.mem_filterMap.mp hp
  refine ⟨e, hm, ?_⟩
  rw [hfst, he, Option.map_some, hk]

theorem gave_of_streamsOf {k : SocketHandle} (h : k ∈ (streamsOf An).map Prod.fst) :
    Gave An Reply.streamHandle? k :=
  gave_of_given Reply.streamHandle?_eq h

theorem gave_of_udpsOf {k : SocketHandle} (h : k ∈ (udpsOf An).map Prod.fst) :
    Gave An Reply.udpHandle? k :=
  gave_of_given Reply.udpHandle?_eq h

theorem gave_of_listenersOf {k : SocketHandle} (h : k ∈ listenersOf An) :
    Gave An Reply.listenerHandle? k := by
  obtain ⟨p, hm, hp⟩ := List.mem_filterMap.mp h
  exact ⟨p, hm, hp⟩

end Answers

theorem Reply.bare.gives {rep : Reply} (h : rep.bare) :
    rep.stream? = none ∧ rep.udp? = none ∧ rep.listenerHandle? = none := by
  unfold Reply.bare at h
  split at h
  · exact h.elim
  · exact h.elim
  · exact h.elim
  · next htcp hlisten hudp =>
    refine ⟨?_, ?_, ?_⟩
    · unfold Reply.stream?
      split
      · next x => exact absurd rfl (htcp _)
      · rfl
    · unfold Reply.udp?
      split
      · next x => exact absurd rfl (hudp _)
      · rfl
    · unfold Reply.listenerHandle?
      split
      · next x => exact absurd rfl (hlisten _)
      · rfl

/-- The sockets given to the application are all different, each with channels of its own, and the
entries of the stack's tables connect a socket with the channels it was given with. -/
structure Isolated (w : World T U) : Prop where
  tcp : Granted TcpSocketState.chan (streamsOf w.answers) w.tcpStates w.nextChan
  udp : Granted UdpSocketState.chan (udpsOf w.answers) w.udpStates w.nextChan
  listeners : (listenersOf w.answers).Nodup

namespace Isolated

variable {w w' : World T U}

/-- One more answer, with what it gives out. -/
theorem pushed (r : ReqId) (rep : Reply) (ha : w'.answers = w.answers ++ [(r, rep)])
    (ht : Granted TcpSocketState.chan (streamsOf w.answers ++ rep.stream?.toList) w'.tcpStates
      w'.nextChan)
    (hu : Granted UdpSocketState.chan (udpsOf w.answers ++ rep.udp?.toList) w'.udpStates
      w'.nextChan)
    (hl : (listenersOf w.answers ++ rep.listenerHandle?.toList).Nodup) : Isolated w' := by
  refine ⟨?_, ?_, ?_⟩
  · rw [ha, streamsOf_push]
    exact ht
  · rw [ha, udpsOf_push]
    exact hu
  · rw [ha, listenersOf_push]
    exact hl

theorem answer_bare (h : Isolated w) (r : ReqId) {rep : Reply} (hb : rep.bare) :
    Isolated (w.answer r rep) := by
  obtain ⟨hs, hu, hl⟩ := hb.gives
  apply pushed r rep rfl
  · rw [hs, Option.toList_none, List.append_nil]
    exact h.tcp
  · rw [hu, Option.toList_none, List.append_nil]
    exact h.udp
  · rw [hl, Option.toList_none, List.append_nil]
    exact h.listeners

/-- A stream is given out that has an entry, under a handle that was not given out before. -/
theorem answer_stream (h : Isolated w) (r : ReqId) {x : SocketHandle} {st : TcpSocketState}
    (la pa : SocketAddr) (hx : w.tcpStates.lookup x = some st)
    (hnew : ¬Gave w.answers Reply.streamHandle? x) :
    Isolated (w.answer r (.tcp (.ok (x, la, pa, st.chan)))) := by
  apply pushed r _ rfl
  · exact h.tcp.grant hx (fun hm => hnew (gave_of_streamsOf hm))
  · simp only [Reply.udp?, Option.toList_none, List.append_nil]
    exact h.udp
  · simp only [Reply.listenerHandle?, Option.toList_none, List.append_nil]
    exact h.listeners

theorem deliverAccepted (h : Isolated w) {x : SocketHandle} (la pa : SocketAddr) (r : ReqId)
    (hnew : ¬Gave w.answers Reply.streamHandle? x) :
    Isolated (w.deliverAccepted x la pa r) := by
  have hcreate : Isolated (w.createTcpChannels.insertTcpState x ⟨w.nextChan, none⟩) := by
    refine ⟨?_, h.udp.skip (Nat.le_succ _), h.listeners⟩
    exact h.tcp.create (fun hm => hnew (gave_of_streamsOf hm)) rfl
  exact hcreate.answer_stream r la pa (AList.lookup_insert _) hnew

theorem replaceListening (h : Isolated w) (key : SocketHandle) (addr : SocketAddr)
    (rest : List SocketHandle) : Isolated (w.replaceListening N key addr rest) := by
  unfold World.replaceListening
  split
  · exact ⟨h.tcp, h.udp, h.listeners⟩
  · exact ⟨h.tcp, h.udp, h.listeners⟩

theorem udpBound (h : Isolated w) {k : SocketHandle} (s : U) (addr : SocketAddr) (r : ReqId)
    (hnew : ¬Gave w.answers Reply.udpHandle? k) : Isolated (w.udpBound k s addr r) := by
  have hcreate := h.udp.create (k := k) (v := ⟨w.nextChan⟩) (fun hm => hnew (gave_of_udpsOf hm)) rfl
  apply pushed (w := w) r (.udp (.ok (k, addr, w.nextChan))) rfl
  · simp only [Reply.stream?, Option.toList_none, List.append_nil]
    exact h.tcp.skip (Nat.le_succ _)
  · exact hcreate.grant (AList.lookup_insert _) (fun hm => hnew (gave_of_udpsOf hm))
  · simp only [Reply.listenerHandle?, Option.toList_none, List.append_nil]
    exact h.listeners

theorem listenerCreated (h : Isolated w) {primary : SocketHandle} (addr : SocketAddr)
    (hs : List SocketHandle) (backlog : Nat) (r : ReqId)
    (hnew : ¬Gave w.answers Reply.listenerHandle? primary) :
    Isolated (w.listenerCreated primary addr hs backlog r) := by
  apply pushed (w := w) r (.listen (.ok (primary, addr))) rfl
  · simp only [Reply.stream?, Option.toList_none, List.append_nil]
    exact h.tcp
  · simp only [Reply.udp?, Option.toList_none, List.append_nil]
    exact h.udp
  · change (listenersOf w.answers ++ [primary]).Nodup
    rw [← List.concat_eq_append]
    exact h.listeners.concat (fun hm => hnew (gave_of_listenersOf hm))

/-- A handle that is not live has not been given out. -/
theorem not_gave (ho : Owned w) {k : SocketHandle} (hk : w.sockets.lookup k = none) :
    ¬Gave w.answers Reply.listenerHandle? k ∧ ¬Gave w.answers Reply.udpHandle? k := by
  refine ⟨?_, ?_⟩
  · intro hg
    obtain ⟨s, hs⟩ := ho.live.gaveListener k hg
    rw [hk] at hs
    cases hs
  · intro hg
    obtain ⟨s, hs⟩ := ho.live.gaveUdp k hg
    rw [hk] at hs
    cases hs

theorem effect {c : Option StackCommand} (h : Isolated w) (ho : Owned w) (hc : ConnectEntries w)
    (he : Effect N c w w') : Isolated w' := by
  cases he with
  | reject m port ips rep hr hm hb =>
    have hm : Isolated { w with sockets := m, ephemeralPort := port, ipAddrs := ips } :=
      ⟨h.tcp, h.udp, h.listeners⟩
    exact hm.answer_bare _ hb
  | connect k s port la hk =>
    refine ⟨?_, h.udp.skip (Nat.le_succ _), h.listeners⟩
    exact h.tcp.create (fun hm => (ho.unused hk).2.2.2.1 (gave_of_streamsOf hm)) rfl
  | listen m hs primary hp hlen hnd hport hold hnew hrest =>
    have hm : Isolated { w with sockets := m } := ⟨h.tcp, h.udp, h.listeners⟩
    exact hm.listenerCreated _ _ _ _ (not_gave ho (hold primary (List.mem_of_head? hp))).1
  | accept l x rest s la pa hl hx =>
    have hmem : x ∈ l.listeningHandles := hx.mem_iff.mp List.mem_cons_self
    apply (h.replaceListening _ l.addr rest).deliverAccepted
    rw [World.replaceListening_answers]
    exact ho.apart.stream _ l hl x hmem
  | wait | listenerGone | listenerClose => exact ⟨h.tcp, h.udp, h.listeners⟩
  | tcpClose s hs => exact ⟨h.tcp.erase _, h.udp, h.listeners⟩
  | udpBind k s port addr hk =>
    have hm : Isolated { w with ephemeralPort := port } := ⟨h.tcp, h.udp, h.listeners⟩
    exact hm.udpBound s addr _ (not_gave ho hk).2
  | udpClose s hs => exact ⟨h.tcp, h.udp.erase _, h.listeners⟩
  | connected la pa ch r hp =>
    rename_i k
    obtain ⟨st, hst, hch⟩ := hc k la pa ch r hp
    have htake : Isolated (w.takePending k) := ⟨h.tcp, h.udp, h.listeners⟩
    rw [← hch]
    apply htake.answer_stream r la pa hst
    intro hg
    cases ho.keys.done k _ hp hg
  | connectDead la pa ch r e hp =>
    rename_i k
    have hdrop : Isolated ((w.dropPending k).removeTcpState k) :=
      ⟨h.tcp.erase k, h.udp, h.listeners⟩
    exact hdrop.answer_bare r trivial
  | acceptPending r l x rest s la pa hp hl hx hs hest =>
    rename_i key
    have hmem : x ∈ l.listeningHandles := hx.mem_iff.mp List.mem_cons_self
    have hrep := h.replaceListening (N := N) key l.addr rest
    have htake : Isolated ((w.replaceListening N key l.addr rest).takePending key) :=
      ⟨hrep.tcp, hrep.udp, hrep.listeners⟩
    apply htake.deliverAccepted
    rw [World.takePending_answers, World.replaceListening_answers]
    exact ho.apart.stream key l hl x hmem

theorem failPending (h : Isolated w) : Isolated w.failPending := by
  apply World.failOps_rule Isolated _ h
  intro v k r e hv
  have hdrop : Isolated (v.dropPending k) := ⟨hv.tcp, hv.udp, hv.listeners⟩
  exact hdrop.answer_bare r trivial

/-- Step lemma. -/
theorem transition (hf : N.FreshHandles) {a : Action E} (h : Isolated w) (ho : Owned w)
    (hc : ConnectEntries w) (ht : Transition N a w w') : Isolated w' := by
  cases ht with
  | env he =>
    have hframe := World.envStep_frame he
    refine ⟨?_, ?_, ?_⟩
    · rw [hframe.answers, hframe.tcpStates, hframe.nextChan]
      exact h.tcp
    · rw [hframe.answers, hframe.udpStates, hframe.nextChan]
      exact h.udp
    · rw [hframe.answers]
      exact h.listeners
  | command cmd rest hph hq he =>
    have hpop : Isolated { w with
        commands := rest
        received := w.received ++ cmd.response.toList } := ⟨h.tcp, h.udp, h.listeners⟩
    have hend := hpop.effect (ho.popCommand hq _) hc he
    exact ⟨hend.tcp, hend.udp, hend.listeners⟩
  | writeTcp k tcp udp st s hph hst hs => exact ⟨h.tcp.replace hst rfl, h.udp, h.listeners⟩
  | pending order he =>
    have hend := ho.effects_rule hf (fun v => ConnectEntries v ∧ Isolated v) ⟨hc, h⟩ (by
      intro u v hu hp he
      exact ⟨hp.1.effect hu (by simp) he, hp.2.effect hu hp.1 he⟩) he
    exact ⟨hend.2.tcp, hend.2.udp, hend.2.listeners⟩
  | fail =>
    have hend := h.failPending
    exact ⟨hend.tcp, hend.udp, hend.listeners⟩
  | control | writeUdp | tcpEvent | udpEvent | readTcp | readUdp =>
    exact ⟨h.tcp, h.udp, h.listeners⟩

end Isolated

/-- Run lemma. -/
theorem Reach.isolated (hf : N.FreshHandles) {cfg : StackConfig} {port : UInt16} {w : World T U}
    (h : Reach N cfg port w) : Isolated w := by
  have hboth : ConnectEntries w ∧ Isolated w := by
    apply Reach.invariant hf (fun w => ConnectEntries w ∧ Isolated w) _ _ h
    · intro ips p
      refine ⟨?_, .empty _ _, .empty _ _, List.nodup_nil⟩
      intro k la pa ch r hp
      cases hp
    · intro u v a ho hp _ ht
      exact ⟨hp.1.transition hf ho ht, hp.2.transition hf ho hp.1 ht⟩
  exact hboth.2

/-- The steps that are one round of a pass over the sockets. -/
def Action.isRound : Action E → Bool
  | .writeTcp | .writeUdp | .readTcp | .readUdp => true
  | _ => false

/-- The socket that a round works on. -/
def Phase.roundOn : Phase → Action E → Option SocketHandle
  | .write (k::_) _, .writeTcp => some k
  | .write [] (k::_), .writeUdp => some k
  | .read (k::_) _ _, .readTcp => some k
  | .read [] (k::_) _, .readUdp => some k
  | _, _ => none

/-- All streams and UDP sockets of the application but the one with handle `k` are as they were. -/
structure OthersKept (k : SocketHandle) (w w' : World T U) : Prop where
  tcp : ∀ p ∈ streamsOf w.answers, p.1 ≠ k →
    w'.sockets.lookup p.1 = w.sockets.lookup p.1 ∧ w'.tcpChans p.2 = w.tcpChans p.2
  udp : ∀ p ∈ udpsOf w.answers, p.1 ≠ k →
    w'.sockets.lookup p.1 = w.sockets.lookup p.1 ∧ w'.udpChans p.2 = w.udpChans p.2

section Rounds

variable {w w' : World T U} {k : SocketHandle}

theorem Isolated.othersKept_tcp (h : Isolated w) {st : TcpSocketState}
    (hst : w.tcpStates.lookup k = some st)
    (hso : ∀ x ≠ k, w'.sockets.lookup x = w.sockets.lookup x)
    (hch : ∀ ch ≠ st.chan, w'.tcpChans ch = w.tcpChans ch) (hu : w'.udpChans = w.udpChans) :
    OthersKept k w w' := by
  refine ⟨fun p hp hne => ⟨hso p.1 hne, hch p.2 fun he => hne ?_⟩, fun p _ hne => ⟨hso p.1 hne, ?_⟩⟩
  · exact ((h.tcp.agree p hp k st hst).mpr he.symm).symm
  · rw [hu]

theorem Isolated.othersKept_udp (h : Isolated w) {st : UdpSocketState}
    (hst : w.udpStates.lookup k = some st)
    (hso : ∀ x ≠ k, w'.sockets.lookup x = w.sockets.lookup x)
    (hch : ∀ ch ≠ st.chan, w'.udpChans ch = w.udpChans ch) (ht : w'.tcpChans = w.tcpChans) :
    OthersKept k w w' := by
  refine ⟨fun p _ hne => ⟨hso p.1 hne, ?_⟩, fun p hp hne => ⟨hso p.1 hne, hch p.2 fun he => hne ?_⟩⟩
  · rw [ht]
  · exact ((h.udp.agree p hp k st hst).mpr he.symm).symm

/-- A round without an entry, or one that panics, changes the phase only. -/
theorem World.continueAt_pump {St S : Type} {states : World T U → HandleMap St}
    {get : World T U → SocketHandle → Except Panic S}
    {work : SocketHandle → St → S → World T U → World T U} (next : Phase)
    (hwork : ∀ st s, (states w).lookup k = some st →
      OthersKept k w { work k st s w with phase := next }) :
    OthersKept k w (w.continueAt next (w.pump states get work k)) := by
  have hphase : ∀ p, OthersKept k w { w with phase := p } :=
    fun p => ⟨fun _ _ _ => ⟨rfl, rfl⟩, fun _ _ _ => ⟨rfl, rfl⟩⟩
  cases hst : (states w).lookup k with
  | none =>
    rw [World.pump_none hst]
    exact hphase next
  | some st =>
    cases hs : get w k with
    | ok s =>
      rw [World.pump_some hst hs]
      exact hwork st s hst
    | error p =>
      simp only [World.pump, hst, hs]
      exact hphase (.panicked p)

/-- A round leaves every other socket and its channels as they are. -/
theorem Isolated.round_frame {cfg : StackConfig} {a : Action E} (h : Isolated w)
    (ha : a.isRound = true) (hstep : World.step N cfg a w = some w') :
    ∃ k, w.phase.roundOn a = some k ∧ OthersKept k w w' := by
  have hne : ∀ k so x, x ≠ k → (w.sockets.insert k so).lookup x = w.sockets.lookup x :=
    fun _ _ _ hx => AList.lookup_insert_ne hx
  have henv : w.envStep a = none := by
    cases a <;> first | rfl | cases ha
  have hselect : w.selectStep N cfg a = none := by
    cases a <;> first | rfl | cases ha
  have hpoll : w.pollStep N a = none := by
    cases a <;> first | rfl | cases ha
  have hs := (World.step_or hstep).resolve_left (by simp [henv])
  unfold World.stackStep at hs
  split at hs
  · rw [hselect] at hs
    cases hs
  · cases ha
  · next k tcp udp hph =>
    obtain rfl := Option.some.inj hs
    refine ⟨k, by rw [hph]; rfl, World.continueAt_pump _ fun st s hst => ?_⟩
    exact h.othersKept_tcp hst (hne k _) (fun _ hc => Function.update_of_ne hc _ _) rfl
  · next k udp hph =>
    obtain rfl := Option.some.inj hs
    refine ⟨k, by rw [hph]; rfl, World.continueAt_pump _ fun st s hst => ?_⟩
    exact h.othersKept_udp hst (hne k _) (fun _ hc => Function.update_of_ne hc _ _) rfl
  · cases ha
  · rw [hpoll] at hs
    cases hs
  · cases ha
  · next k tcp udp changed hph =>
    obtain rfl := Option.some.inj hs
    refine ⟨k, by rw [hph]; rfl, World.continueAt_pump _ fun st s hst => ?_⟩
    exact h.othersKept_tcp hst (hne k _) (fun _ hc => Function.update_of_ne hc _ _) rfl
  · next k udp changed hph =>
    obtain rfl := Option.some.inj hs
    refine ⟨k, by rw [hph]; rfl, World.continueAt_pump _ fun st s hst => ?_⟩
    exact h.othersKept_udp hst (hne k _) (fun _ hc => Function.update_of_ne hc _ _) rfl
  all_goals first | cases ha | cases hs

end Rounds

/-- No two calls are given the same socket or the same channels, in any run: each stream and each
UDP socket has a handle and a channel pair that no other one has or had, no handle stands for both,
and the stack connects a handle with the channels that were handed out with it and with no others.
So a round of a pass leaves all streams and UDP sockets as they are but the one whose turn it is. -/
theorem sockets_isolated (N : Smoltcp T U E) (hf : N.FreshHandles) (cfg : StackConfig)
    (port : UInt16) (w : World T U) (h : Reach N cfg port w) :
    ((streamsOf w.answers).map Prod.fst).Nodup ∧ ((streamsOf w.answers).map Prod.snd).Nodup ∧
    ((udpsOf w.answers).map Prod.fst).Nodup ∧ ((udpsOf w.answers).map Prod.snd).Nodup ∧
    (listenersOf w.answers).Nodup ∧
    (∀ p ∈ streamsOf w.answers, ∀ q ∈ udpsOf w.answers, p.1 ≠ q.1) ∧
    (∀ p ∈ streamsOf w.answers, ∀ k st, w.tcpStates.lookup k = some st →
      (k = p.1 ↔ st.chan = p.2)) ∧
    (∀ p ∈ udpsOf w.answers, ∀ k st, w.udpStates.lookup k = some st →
      (k = p.1 ↔ st.chan = p.2)) ∧
    (∀ a w', a.isRound = true → World.step N cfg a w = some w' →
      ∃ k, w.phase.roundOn a = some k ∧ OthersKept k w w') := by
  have hi := Reach.isolated hf h
  have ho := Reach.owned hf h
  refine ⟨hi.tcp.keys, hi.tcp.names, hi.udp.keys, hi.udp.names, hi.listeners, ?_, hi.tcp.agree,
    hi.udp.agree, ?_⟩
  · intro p hp q hq heq
    have hstream := ho.live.stream p.1 (gave_of_streamsOf (List.mem_map_of_mem hp))
    have hudp := ho.live.gaveUdp q.1 (gave_of_udpsOf (List.mem_map_of_mem hq))
    rw [← heq] at hudp
    exact hstream.not_udp hudp
  · intro a w' ha hs
    exact hi.round_frame ha hs

/-- Two connections are accepted one after the other. -/
def twoStreams : List (Action RefEvent) :=
  listenRun 2 ++ .issue (.tcpAccept 0 1)::.command::
    iteration [] [(0, .syn serverEp peerEp), (0, .ack 0), (1, .syn serverEp peerEp), (1, .ack 0)]
      (some [0]) ++
    [.issue (.tcpAccept 0 2), .command]

theorem sockets_isolated_twoStreams : ∃ w : World RefTcp RefUdp, Reach refNet hostCfg 49152 w ∧
    streamsOf w.answers = [(0, 0), (1, 1)] ∧ ((streamsOf w.answers).map Prod.snd).Nodup := by
  obtain ⟨w, hw, -, hp⟩ := reachable_of_run (World.step refNet hostCfg) twoStreams
    (World.init refNet hostCfg 49152)
    (fun w => decide (streamsOf w.answers = [(0, 0), (1, 1)])) (by decide +kernel)
  obtain ⟨-, hnames, -⟩ := sockets_isolated refNet refNet_freshHandles hostCfg 49152 w hw
  exact ⟨w, hw, of_decide_eq_true hp, hnames⟩

end TapTunnel.Stack
