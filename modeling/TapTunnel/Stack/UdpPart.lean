import TapTunnel.Stack.HandleSafety
import TapTunnel.Stack.UdpPump

namespace TapTunnel.Stack

open Framework

variable {T U E : Type} {N : Smoltcp T U E}

/-- The UDP socket under a handle. -/
def udpIn (So : HandleMap (Socket T U)) (x : SocketHandle) : Option U :=
  match So.lookup x with
  | some (.udp s) => some s
  | _ => none

section Sockets

variable {So So' : HandleMap (Socket T U)} {k x : SocketHandle}

theorem udpIn_eq_some {s : U} : udpIn So x = some s ↔ So.lookup x = some (.udp s) := by
  unfold udpIn
  split
  · next t ht => rw [ht]; simp
  · next hne =>
    constructor
    · intro h
      cases h
    · intro h
      exact absurd h (hne s)

theorem udpIn_congr (hm : ∀ x, So'.lookup x = So.lookup x) : udpIn So' = udpIn So := by
  funext x
  unfold udpIn
  rw [hm x]

theorem udpIn_setUdp (So : HandleMap (Socket T U)) (k : SocketHandle) (s : U) :
    udpIn (So.insert k (.udp s)) = Function.update (udpIn So) k (some s) := by
  funext x
  unfold udpIn
  rw [Table.lookup_insert_if]
  by_cases hx : x = k
  · rw [if_pos hx, hx, Function.update_self]
  · rw [if_neg hx, Function.update_of_ne hx]

/-- Sockets of the other protocol come and change under handles that are not in use here. -/
theorem udpIn_tcp (hm : ∀ x, So'.lookup x = So.lookup x ∨
    (¬LiveUdp So x ∧ ∃ s, So'.lookup x = some (.tcp s))) : udpIn So' = udpIn So := by
  funext x
  rcases hm x with h | ⟨hno, s, h⟩
  · unfold udpIn
    rw [h]
  · have hnone : udpIn So x = none := by
      refine Option.eq_none_iff_forall_ne_some.mpr (fun u hu => hno ⟨u, udpIn_eq_some.mp hu⟩)
    rw [hnone]
    unfold udpIn
    rw [h]

theorem udpIn_setTcp (hk : ¬LiveUdp So k) (s : T) :
    udpIn (So.insert k (.tcp s)) = udpIn So := by
  refine udpIn_tcp (fun x => ?_)
  rw [Table.lookup_insert_if]
  by_cases hx : x = k
  · rw [if_pos hx]
    exact .inr ⟨hx ▸ hk, s, rfl⟩
  · exact .inl (if_neg hx)

end Sockets

/-- The part of the state that belongs to the UDP sockets: the sockets, the entries of
`udp_states`, the channel pairs with those the application has been given, and the counters. -/
@[ext] structure UdpPart (U : Type) where
  socket : SocketHandle → Option U
  states : HandleMap UdpSocketState
  chans : ChanId → UdpChan
  next : ChanId
  given : ChanId → Prop
  stats : UdpStats

def World.udpPart (w : World T U) : UdpPart U :=
  ⟨udpIn w.sockets, w.udpStates, w.udpChans, w.nextChan, w.HasUdpChan, w.stats⟩

/-- The UDP part is as before, except that channel names may have been used for TCP. -/
def World.SameUdp (w w' : World T U) : Prop :=
  w'.udpPart = { w.udpPart with next := w'.nextChan } ∧ w.nextChan ≤ w'.nextChan

theorem Reply.bare.udpChan {rep : Reply} (h : rep.bare) : rep.udpChan? = none := by
  rcases rep with (_ | _) | (_ | _) | (_ | _) | _ | _ <;> first | rfl | exact h.elim

namespace World

variable {w w' w'' : World T U}

theorem SameUdp.refl (w : World T U) : SameUdp w w := ⟨rfl, Nat.le_refl _⟩

theorem SameUdp.trans (h : SameUdp w w') (h' : SameUdp w' w'') : SameUdp w w'' :=
  ⟨by rw [h'.1, h.1], Nat.le_trans h.2 h'.2⟩

theorem sameUdp_of (hso : udpIn w'.sockets = udpIn w.sockets) (hst : w'.udpStates = w.udpStates)
    (hch : w'.udpChans = w.udpChans) (hg : ∀ ch, w'.HasUdpChan ch ↔ w.HasUdpChan ch)
    (hs : w'.stats = w.stats) (hn : w.nextChan ≤ w'.nextChan) : SameUdp w w' := by
  refine ⟨?_, hn⟩
  have hgiven : w'.HasUdpChan = w.HasUdpChan := funext fun ch => propext (hg ch)
  unfold udpPart
  rw [hso, hst, hch, hgiven, hs]

/-- Only the answer to a UDP bind carries channels of this kind. -/
theorem sameUdp_answer (w : World T U) (r : ReqId) (rep : Reply) (h : rep.udpChan? = none) :
    SameUdp w (w.answer r rep) := by
  have hrel : rep.releaseUdp w.udpChans = w.udpChans := by
    unfold Reply.releaseUdp
    split
    · cases h
    · rfl
  refine sameUdp_of rfl rfl ?_ ?_ rfl (Nat.le_refl _)
  · simp only [answer, hrel, ite_self]
  · intro ch
    simp only [HasUdpChan, answer, gave_push, h, reduceCtorEq, or_false]

theorem sameUdp_replaceListening (hf : N.FreshHandles) (w : World T U) (key : SocketHandle)
    (addr : SocketAddr) (rest : List SocketHandle) :
    SameUdp w (w.replaceListening N key addr rest) := by
  unfold replaceListening
  split
  · refine sameUdp_of ?_ rfl rfl (fun _ => Iff.rfl) rfl (Nat.le_refl _)
    exact udpIn_setTcp (Owned.not_udp_of_none (fresh_lookup hf _)) _
  · exact sameUdp_of rfl rfl rfl (fun _ => Iff.rfl) rfl (Nat.le_refl _)

theorem sameUdp_deliverAccepted (w : World T U) (x : SocketHandle) (la pa : SocketAddr)
    (r : ReqId) : SameUdp w (w.deliverAccepted x la pa r) := by
  have h1 : SameUdp w (w.createTcpChannels.insertTcpState x ⟨w.nextChan, none⟩) :=
    sameUdp_of rfl rfl rfl (fun _ => Iff.rfl) rfl (Nat.le_succ _)
  exact h1.trans (sameUdp_answer _ r _ rfl)

end World

/-- What a step does to the UDP part. -/
inductive UdpMove (N : Smoltcp T U E) (w : World T U) : Action E → UdpPart U → Prop
  | still {a : Action E} (n : ChanId) (hn : w.nextChan ≤ n) (ha : ¬w.MovesUdp a) :
      UdpMove N w a { w.udpPart with next := n }
  | send (ch : ChanId) (buf : Bytes) (addr : SocketAddr) (tx : Chan (Bytes × SocketAddr))
      (hg : w.HasUdpChan ch) (hc : (w.udpChans ch).write.trySend (buf, addr) = .ok tx) :
      UdpMove N w (.udpSend ch buf addr) { w.udpPart with
        chans := Function.update w.udpChans ch { w.udpChans ch with write := tx } }
  | recv (ch : ChanId) (d : Bytes × SocketAddr) (rx : Chan (Bytes × SocketAddr))
      (hg : w.HasUdpChan ch) (hc : (w.udpChans ch).read.tryRecv = .ok (d, rx)) :
      UdpMove N w (.udpRecv ch) { w.udpPart with
        chans := Function.update w.udpChans ch { w.udpChans ch with read := rx } }
  | drop (ch : ChanId) (hg : w.HasUdpChan ch) :
      UdpMove N w (.dropUdp ch) { w.udpPart with
        chans := Function.update w.udpChans ch (w.udpChans ch).dropAppEnds }
  | bind (k : SocketHandle) (s : U) (addr : SocketAddr) (c : UdpChan)
      (hk : w.sockets.lookup k = none) (hst : w.udpStates.lookup k = none)
      (hs : N.udpBind N.udpNew (socketAddrToListenEndpointWithPort addr (w.bindPort addr)) = .ok s)
      (hc : c = .new ∨ c = UdpChan.new.dropAppEnds) :
      UdpMove N w .command
        { socket := Function.update (udpIn w.sockets) k (some s)
          states := w.udpStates.insert k ⟨w.nextChan⟩
          chans := Function.update w.udpChans w.nextChan c
          next := w.nextChan + 1
          given := fun ch => w.HasUdpChan ch ∨ ch = w.nextChan
          stats := w.stats }
  | close (k : SocketHandle) (s : U) (hs : w.sockets.lookup k = some (.udp s)) :
      UdpMove N w .command { w.udpPart with
        socket := Function.update (udpIn w.sockets) k (some (N.udpClose s))
        states := w.udpStates.erase k
        chans := releaseUdpState (w.udpStates.lookup k) w.udpChans }
  | write (h : SocketHandle) (st : UdpSocketState) (s : U) (hst : w.udpStates.lookup h = some st)
      (hs : w.sockets.lookup h = some (.udp s)) (hp : w.pumped = some (h, st, s)) :
      UdpMove N w .writeUdp (w.writeUdpEntry N h st s).udpPart
  | read (h : SocketHandle) (st : UdpSocketState) (s : U) (hst : w.udpStates.lookup h = some st)
      (hs : w.sockets.lookup h = some (.udp s)) (hp : w.pumped = some (h, st, s)) :
      UdpMove N w .readUdp (w.readUdpEntry N h st s).udpPart
  | event (h : SocketHandle) (e : E) (s : U) (hs : w.sockets.lookup h = some (.udp s)) :
      UdpMove N w (.udpEvent h e) { w.udpPart with
        socket := Function.update (udpIn w.sockets) h (some (N.udpProcess e s)) }

theorem World.writeUdpEntry_part (w : World T U) (h : SocketHandle) (st : UdpSocketState) (s : U) :
    let c := w.udpChans st.chan
    let r := processUdpWrite N c.write c.write.queue s w.stats
    (w.writeUdpEntry N h st s).udpPart = { w.udpPart with
      socket := Function.update (udpIn w.sockets) h (some r.1)
      chans := Function.update w.udpChans st.chan { c with write := r.2.1 }
      stats := r.2.2 } :=
  UdpPart.ext (udpIn_setUdp w.sockets h _) rfl rfl rfl rfl rfl

theorem World.readUdpEntry_part (w : World T U) (h : SocketHandle) (st : UdpSocketState) (s : U) :
    let c := w.udpChans st.chan
    let r := processUdpRead N c.read c.read.room s [] w.stats
    (w.readUdpEntry N h st s).udpPart = { w.udpPart with
      socket := Function.update (udpIn w.sockets) h (some r.1)
      chans := Function.update w.udpChans st.chan { c with read := r.2.1 }
      stats := r.2.2 } :=
  UdpPart.ext (udpIn_setUdp w.sockets h _) rfl rfl rfl rfl rfl

namespace UdpMove

variable {w w' : World T U}

theorem of_same {a : Action E} (h : w.SameUdp w') (ha : ¬w.MovesUdp a) :
    UdpMove N w a w'.udpPart := by
  rw [h.1]
  exact .still _ h.2 ha

/-- The handler starts after the command has left the queue, which UDP does not look at. -/
theorem of_popped {rest : Chan StackCommand} {received : List ReqId} {p : UdpPart U}
    (h : UdpMove N { w with commands := rest, received := received } .command p) :
    UdpMove N w .command p := by
  cases h with
  | still n hn ha => exact .still n hn ha
  | bind k s addr c hk hst hs hc => exact .bind k s addr c hk hst hs hc
  | close k s hs => exact .close k s hs

end UdpMove

/-- Rounds of `process_pending` do not concern UDP. -/
theorem Effect.sameUdp_none (hf : N.FreshHandles) {w w' : World T U} (he : Effect N none w w') :
    w.SameUdp w' := by
  cases he with
  | connected la pa ch r hp =>
    rename_i k
    have h1 := World.sameUdp_answer (w.takePending k) r (.tcp (.ok (k, la, pa, ch))) rfl
    exact h1
  | connectDead la pa ch r e hp =>
    rename_i k
    have h1 := World.sameUdp_answer ((w.dropPending k).removeTcpState k) r
      (.tcp (.error e)) rfl
    exact h1
  | acceptPending r l x rest s la pa hp hl hx hs he =>
    rename_i key
    have h1 := World.sameUdp_replaceListening hf w key l.addr rest
    have h2 := World.sameUdp_deliverAccepted
      ((w.replaceListening N key l.addr rest).takePending key) x la pa r
    exact h1.trans h2

/-- The UDP part of a state in which a socket has just been bound. -/
theorem World.udpBound_part {w : World T U} {k : SocketHandle} (hst : w.udpStates.lookup k = none)
    (port : UInt16) (s : U) (addr : SocketAddr) (r : ReqId) :
    ∃ c, (c = .new ∨ c = UdpChan.new.dropAppEnds) ∧
      (World.udpBound { w with ephemeralPort := port } k s addr r).udpPart =
        { socket := Function.update (udpIn w.sockets) k (some s)
          states := w.udpStates.insert k ⟨w.nextChan⟩
          chans := Function.update w.udpChans w.nextChan c
          next := w.nextChan + 1
          given := fun ch => w.HasUdpChan ch ∨ ch = w.nextChan
          stats := w.stats } := by
  have hgiven : World.HasUdpChan (World.udpBound { w with ephemeralPort := port } k s addr r) =
      fun ch => w.HasUdpChan ch ∨ ch = w.nextChan := by
    funext ch
    refine propext ((gave_push ..).trans (or_congr_right ?_))
    exact ⟨fun h => (Option.some.inj h).symm, fun h => congrArg some h.symm⟩
  obtain ⟨c, hc, hchans⟩ : ∃ c, (c = .new ∨ c = UdpChan.new.dropAppEnds) ∧
      (World.udpBound { w with ephemeralPort := port } k s addr r).udpChans =
        Function.update w.udpChans w.nextChan c := by
    by_cases hcan : r ∈ w.cancelled
    · refine ⟨_, .inr rfl, ?_⟩
      simp only [World.udpBound, World.answer, World.insertUdpState, World.createUdpChannels,
        World.setUdp, hst, releaseUdpState, Reply.releaseUdp, if_pos hcan, Function.update_self,
        Function.update_idem]
    · refine ⟨_, .inl rfl, ?_⟩
      simp only [World.udpBound, World.answer, World.insertUdpState, World.createUdpChannels,
        World.setUdp, hst, releaseUdpState, if_neg hcan]
  exact ⟨c, hc, UdpPart.ext (udpIn_setUdp w.sockets k s) rfl hchans rfl hgiven rfl⟩

/-- Only a bind and a close of their own kind concern UDP among the commands. -/
theorem Effect.udp_cases (hf : N.FreshHandles) {w w' : World T U} {cmd : StackCommand}
    (he : Effect N (some cmd) w w') :
    w.SameUdp w' ∨
    (∃ k s port bound addr r, cmd = .udpBind addr r ∧ w.sockets.lookup k = none ∧
      N.udpBind N.udpNew (socketAddrToListenEndpointWithPort addr (w.bindPort addr)) = .ok s ∧
      w' = World.udpBound { w with ephemeralPort := port } k s bound r) ∨
    (∃ k s, cmd = .udpClose k ∧ w.sockets.lookup k = some (.udp s) ∧
      w' = (w.setUdp k (N.udpClose s)).removeUdpState k) := by
  cases he with
  | reject m port ips rep hr hm hb =>
    have h1 : w.SameUdp { w with sockets := m, ephemeralPort := port, ipAddrs := ips } :=
      World.sameUdp_of (udpIn_congr hm) rfl rfl (fun _ => Iff.rfl) rfl (Nat.le_refl _)
    exact .inl (h1.trans (World.sameUdp_answer _ _ _ hb.udpChan))
  | connect k s port la hk hs =>
    refine .inl (World.sameUdp_of ?_ rfl rfl (fun _ => Iff.rfl) rfl (Nat.le_succ _))
    exact udpIn_setTcp (Owned.not_udp_of_none hk) s
  | listen m hs primary hp hlen hnd hport hold hnew hrest =>
    rename_i addr backlog r
    have hudp : udpIn m = udpIn w.sockets := by
      refine udpIn_tcp (fun x => ?_)
      by_cases hx : x ∈ hs
      · obtain ⟨s, -, hs'⟩ := hnew x hx
        exact .inr ⟨Owned.not_udp_of_none (hold x hx), s, hs'⟩
      · exact .inl (hrest x hx)
    have h1 : w.SameUdp { w with
        sockets := m
        listeners := w.listeners.insert primary ⟨addr, hs⟩
        created := w.created ++ [(primary, backlog)] } :=
      World.sameUdp_of hudp rfl rfl (fun _ => Iff.rfl) rfl (Nat.le_refl _)
    exact .inl (h1.trans (World.sameUdp_answer _ r (.listen (.ok (primary, addr))) rfl))
  | accept l x rest s la pa hl hx hs he =>
    rename_i key r
    have h1 := World.sameUdp_replaceListening hf w key l.addr rest
    exact .inl (h1.trans (World.sameUdp_deliverAccepted _ x la pa _))
  | wait | listenerGone =>
    exact .inl (World.sameUdp_of rfl rfl rfl (fun _ => Iff.rfl) rfl (Nat.le_refl _))
  | listenerClose l m hl hout hin =>
    refine .inl (World.sameUdp_of ?_ rfl rfl (fun _ => Iff.rfl) rfl (Nat.le_refl _))
    refine udpIn_tcp (fun x => ?_)
    by_cases hx : x ∈ l.listeningHandles
    · obtain ⟨s, hs, hs'⟩ := hin x hx
      exact .inr ⟨LiveTcp.not_udp ⟨s, hs⟩, _, hs'⟩
    · exact .inl (hout x hx)
  | tcpClose s hs =>
    refine .inl (World.sameUdp_of ?_ rfl rfl (fun _ => Iff.rfl) rfl (Nat.le_refl _))
    exact udpIn_setTcp (LiveTcp.not_udp ⟨s, hs⟩) _
  | udpBind k s port bound hk hs hport =>
    exact .inr (.inl ⟨k, s, port, bound, _, _, rfl, hk, hs, rfl⟩)
  | udpClose s hs => exact .inr (.inr ⟨_, s, rfl, hs, rfl⟩)

theorem Effect.udpMove (hf : N.FreshHandles) {w w' : World T U} {cmd : StackCommand} (ho : Owned w)
    (he : Effect N (some cmd) w w') : UdpMove N w .command w'.udpPart := by
  rcases he.udp_cases hf with hsame | ⟨k, s, port, bound, addr, r, -, hk, hs, rfl⟩ |
    ⟨k, s, -, hs, rfl⟩
  · exact .of_same hsame id
  · have hst : w.udpStates.lookup k = none := by
      refine Option.eq_none_iff_forall_ne_some.mpr (fun st hst => ?_)
      exact Owned.not_udp_of_none hk (ho.live.udp k st hst)
    obtain ⟨c, hc, hpart⟩ := World.udpBound_part hst port s bound r
    rw [hpart]
    exact .bind k s addr c hk hst hs hc
  · have hpart : ((w.setUdp k (N.udpClose s)).removeUdpState k).udpPart = { w.udpPart with
        socket := Function.update (udpIn w.sockets) k (some (N.udpClose s))
        states := w.udpStates.erase k
        chans := releaseUdpState (w.udpStates.lookup k) w.udpChans } :=
      UdpPart.ext (udpIn_setUdp w.sockets k _) rfl rfl rfl rfl rfl
    rw [hpart]
    exact .close k s hs

theorem World.envStep_udpMove {w w' : World T U} {a : Action E} (h : w.envStep a = some w') :
    UdpMove N w a w'.udpPart := by
  cases a with
  | udpSend ch buf addr =>
    simp only [envStep] at h
    split_ifs at h with hg
    split at h
    · next tx htx =>
      obtain rfl := Option.some.inj h
      exact .send ch buf addr tx hg.1 htx
    · cases h
  | udpRecv ch =>
    simp only [envStep] at h
    split_ifs at h with hg
    split at h
    · next d rx hrx =>
      obtain rfl := Option.some.inj h
      exact .recv ch d rx hg hrx
    · cases h
  | dropUdp ch =>
    simp only [envStep] at h
    split_ifs at h with hg
    obtain rfl := Option.some.inj h
    exact .drop ch hg
  | issue cmd =>
    obtain ⟨-, n, rfl⟩ := envStep_issue h
    exact .still _ (Nat.le_refl _) id
  | cancel | dropCommands | foreignPort | ipcDies =>
    obtain rfl := Option.some.inj h
    exact .still _ (Nat.le_refl _) id
  | streamRead | dropWriteTx | dropReadRx =>
    simp only [envStep] at h
    split_ifs at h
    obtain rfl := Option.some.inj h
    exact .still _ (Nat.le_refl _) id
  | streamWrite =>
    simp only [envStep] at h
    split_ifs at h
    split at h
    · obtain rfl := Option.some.inj h
      exact .still _ (Nat.le_refl _) id
    · cases h
  | _ => cases h

/-- The UDP sockets see every step of the system as one of the moves. -/
theorem Transition.udpMove (hf : N.FreshHandles) {w w' : World T U} {a : Action E} (ho : Owned w)
    (ht : Transition N a w w') : UdpMove N w a w'.udpPart := by
  cases ht with
  | env he => exact World.envStep_udpMove he
  | control p notify hp hw hu => exact .still _ (Nat.le_refl _) hu
  | command cmd rest hph hq he =>
    have hmove := (he.udpMove hf (ho.popCommand hq _)).of_popped
    exact hmove
  | writeTcp k tcp udp st s hph hst hs =>
    refine .of_same (World.sameUdp_of ?_ rfl rfl (fun _ => Iff.rfl) rfl (Nat.le_refl _)) id
    exact udpIn_setTcp (LiveTcp.not_udp ⟨s, hs⟩) _
  | writeUdp k udp st s hst hs hp => exact .write k st s hst hs hp
  | tcpEvent k e s hs =>
    refine .of_same (World.sameUdp_of ?_ rfl rfl (fun _ => Iff.rfl) rfl (Nat.le_refl _)) id
    exact udpIn_setTcp (LiveTcp.not_udp ⟨s, hs⟩) _
  | udpEvent k e s hs =>
    have hpart : (w.setUdp k (N.udpProcess e s)).udpPart = { w.udpPart with
        socket := Function.update (udpIn w.sockets) k (some (N.udpProcess e s)) } :=
      UdpPart.ext (udpIn_setUdp w.sockets k _) rfl rfl rfl rfl rfl
    rw [hpart]
    exact .event k e s hs
  | readTcp k tcp udp changed st s hst hs =>
    refine .of_same (World.sameUdp_of ?_ rfl rfl (fun _ => Iff.rfl) rfl (Nat.le_refl _)) id
    exact udpIn_setTcp (LiveTcp.not_udp ⟨s, hs⟩) _
  | readUdp k udp changed st s hst hs hp => exact .read k st s hst hs hp
  | pending order he =>
    have hend := Effect.path_rule w.SameUdp (.refl w)
      (fun _ _ hu he => hu.trans (he.sameUdp_none hf)) he
    exact .of_same hend id
  | fail =>
    have hend := World.failOps_rule w.SameUdp w.pending.entries (.refl w)
      (fun v k r e hv => hv.trans (World.sameUdp_answer (v.dropPending k) r (.tcp (.error e)) rfl))
    exact .of_same hend id

section Pumped

variable {cfg : StackConfig} {w w' : World T U} {k : SocketHandle} {st : UdpSocketState} {s : U}

theorem World.pumped_lookup (hp : w.pumped = some (k, st, s)) :
    w.udpStates.lookup k = some st ∧ w.sockets.lookup k = some (.udp s) := by
  unfold World.pumped at hp
  split at hp
  · split at hp
    · next hst hs =>
      obtain ⟨rfl, rfl, rfl⟩ := by simpa using hp
      exact ⟨hst, hs⟩
    · cases hp
  · split at hp
    · next hst hs =>
      obtain ⟨rfl, rfl, rfl⟩ := by simpa using hp
      exact ⟨hst, hs⟩
    · cases hp
  · cases hp

/-- The write pass visits the socket whose turn it is. -/
theorem Owned.step_writeUdp (hf : N.FreshHandles) (ho : Owned w) (hp : w.pumped = some (k, st, s))
    (hs : World.step N cfg .writeUdp w = some w') :
    ∃ p, w' = { w.writeUdpEntry N k st s with phase := p } := by
  have hmoves : w.pumped ≠ none := by simp [hp]
  cases ho.step_transition hf hs with
  | env he => cases he
  | control p notify hp' hw hu => exact absurd hmoves hu
  | writeUdp k' udp st' s' hst hs' hp' =>
    obtain ⟨rfl, rfl, rfl⟩ : k' = k ∧ st' = st ∧ s' = s := by simpa [hp'] using hp
    exact ⟨_, rfl⟩

theorem Owned.step_readUdp (hf : N.FreshHandles) (ho : Owned w) (hp : w.pumped = some (k, st, s))
    (hs : World.step N cfg .readUdp w = some w') :
    ∃ p, w' = { w.readUdpEntry N k st s with phase := p } := by
  have hmoves : w.pumped ≠ none := by simp [hp]
  cases ho.step_transition hf hs with
  | env he => cases he
  | control p notify hp' hw hu => exact absurd hmoves hu
  | readUdp k' udp changed st' s' hst hs' hp' =>
    obtain ⟨rfl, rfl, rfl⟩ : k' = k ∧ st' = st ∧ s' = s := by simpa [hp'] using hp
    exact ⟨_, rfl⟩

end Pumped

/-- Every open UDP socket has a channel pair of its own, and the application has no pair that is
not yet in use. -/
structure UdpOwn (p : UdpPart U) : Prop where
  lt : ∀ h st, p.states.lookup h = some st → st.chan < p.next
  inj : ∀ h h' st st', p.states.lookup h = some st → p.states.lookup h' = some st' →
    st.chan = st'.chan → h = h'
  given : ∀ ch, p.given ch → ch < p.next

theorem UdpOwn.move {w : World T U} {a : Action E} {p : UdpPart U} (h : UdpOwn w.udpPart)
    (hm : UdpMove N w a p) : UdpOwn p := by
  cases hm with
  | still n hn ha =>
    refine ⟨fun k st hk => ?_, h.inj, fun ch hg => ?_⟩
    · exact Nat.lt_of_lt_of_le (h.lt k st hk) hn
    · exact Nat.lt_of_lt_of_le (h.given ch hg) hn
  | bind k s addr c hk hst hs hc =>
    refine ⟨fun k' st hk' => ?_, fun k1 k2 st1 st2 h1 h2 he => ?_, fun ch hg => ?_⟩
    · rcases Table.insert_cases hk' with ⟨-, rfl⟩ | ⟨-, hk'⟩
      · exact Nat.lt_succ_self _
      · exact Nat.lt_succ_of_lt (h.lt k' st hk')
    · rcases Table.insert_cases h1 with ⟨rfl, rfl⟩ | ⟨-, h1⟩ <;>
        rcases Table.insert_cases h2 with ⟨hk2, rfl⟩ | ⟨-, h2⟩
      · exact hk2.symm
      · exact absurd he.symm (Nat.ne_of_lt (h.lt k2 st2 h2))
      · exact absurd he (Nat.ne_of_lt (h.lt k1 st1 h1))
      · exact h.inj k1 k2 st1 st2 h1 h2 he
    · rcases hg with hg | rfl
      · exact Nat.lt_succ_of_lt (h.given ch hg)
      · exact Nat.lt_succ_self _
  | close k s hs =>
    refine ⟨fun k' st hk' => ?_, fun k1 k2 st1 st2 h1 h2 => ?_, h.given⟩
    · exact h.lt k' st (Table.erase_cases hk').2
    · exact h.inj k1 k2 st1 st2 (Table.erase_cases h1).2 (Table.erase_cases h2).2
  | send | recv | drop | write | read | event => exact ⟨h.lt, h.inj, h.given⟩

/-- Another entry's channel pair is not touched. -/
theorem UdpOwn.update_of_ne {p : UdpPart U} (h : UdpOwn p) {k k' : SocketHandle}
    {st st' : UdpSocketState} (hk : p.states.lookup k = some st)
    (hk' : p.states.lookup k' = some st') (hne : k' ≠ k) (c : UdpChan) :
    Function.update p.chans st.chan c st'.chan = p.chans st'.chan := by
  refine Function.update_of_ne ?_ _ _
  intro he
  exact hne (h.inj k' k st' st hk' hk he)

theorem init_udpPart (N : Smoltcp T U E) (cfg : StackConfig) (port : UInt16) :
    (World.init N cfg port).udpPart = (World.blank (T := T) port).udpPart := by
  obtain ⟨ips, p, hw, -⟩ := init_cases N cfg port
  rw [hw]
  rfl

section Runs

variable {cfg : StackConfig} {port : UInt16} {w : World T U} {ok : World T U → Action E → Prop}

/-- Invariant rule for the UDP part: it is enough to look at its moves, from states in which the
sockets have their channels to themselves. -/
theorem Reach.udp_invariant (hf : N.FreshHandles) (P : UdpPart U → Prop)
    (h0 : ∀ ips p, P (World.udpPart (T := T) { World.blank port with ipAddrs := ips, phase := p }))
    (hstep : ∀ (w : World T U) a p, UdpOwn w.udpPart → P w.udpPart → ok w a → UdpMove N w a p → P p)
    (h : ReachVia (World.step N cfg) ok (World.init N cfg port) w) :
    UdpOwn w.udpPart ∧ P w.udpPart := by
  refine Reach.invariant hf (fun w => UdpOwn w.udpPart ∧ P w.udpPart) ?_ ?_ h
  · intro ips p
    refine ⟨⟨nofun, nofun, ?_⟩, h0 ips p⟩
    rintro ch ⟨e, he, -⟩
    cases he
  · intro w w' a ho hp hok ht
    have hm := ht.udpMove hf ho
    exact ⟨hp.1.move hm, hstep w a _ hp.1 hp.2 hok hm⟩

theorem Reach.udpOwn (hf : N.FreshHandles) (h : Reach N cfg port w) : UdpOwn w.udpPart :=
  (Reach.udp_invariant hf (fun _ => True) (fun _ _ => trivial) (fun _ _ _ _ _ _ _ => trivial) h).1

end Runs

end TapTunnel.Stack
