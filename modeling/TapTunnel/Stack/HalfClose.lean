import TapTunnel.Stack.ReadPath

namespace TapTunnel.Stack

open Framework Reference

variable {T U E : Type} {N : Smoltcp T U E}

theorem ReadKept.trans {c d e : TcpChan} (h1 : ReadKept c d) (h2 : ReadKept d e) :
    ReadKept c e := by
  refine ⟨?_, fun he => h1.tx (h2.tx he)⟩
  rcases h2.side with ⟨hq, hb, hr⟩ | hgone
  · rw [hq, hb, hr]
    exact h1.side
  · exact .inr hgone

/-- What everything but reads and `process_tcp_read` leaves of the streams: the read sides of
the channels that exist, and entries of `tcp_states` on those channels or on new ones. -/
structure ReadFrame (w w' : World T U) : Prop where
  next : w.nextChan ≤ w'.nextChan
  entry : ∀ k st, w'.tcpStates.lookup k = some st →
    (∃ k' st', w.tcpStates.lookup k' = some st' ∧ st'.chan = st.chan) ∨ w.nextChan ≤ st.chan
  kept : ∀ ch < w.nextChan, ReadKept (w.tcpChans ch) (w'.tcpChans ch)

namespace ReadFrame

variable {w w' : World T U}

theorem refl (w : World T U) : ReadFrame w w :=
  ⟨Nat.le_refl _, fun k st hk => .inl ⟨k, st, hk, rfl⟩, fun _ _ => .refl _⟩

theorem trans {v : World T U} (h1 : ReadFrame w v) (h2 : ReadFrame v w') : ReadFrame w w' where
  next := Nat.le_trans h1.next h2.next
  entry k st hk := by
    rcases h2.entry k st hk with ⟨k', st', hk', hc⟩ | hle
    · rw [← hc]
      exact h1.entry k' st' hk'
    · exact .inr (Nat.le_trans h1.next hle)
  kept ch hch := (h1.kept ch hch).trans (h2.kept ch (Nat.lt_of_lt_of_le hch h1.next))

/-- The common case: no entry is added. -/
theorem still (hn : w'.nextChan = w.nextChan)
    (he : ∀ k st, w'.tcpStates.lookup k = some st → w.tcpStates.lookup k = some st)
    (hm : ∀ ch, ReadKept (w.tcpChans ch) (w'.tcpChans ch)) : ReadFrame w w' :=
  ⟨Nat.le_of_eq hn.symm, fun k st hk => .inl ⟨k, st, he k st hk, rfl⟩, fun ch _ => hm ch⟩

/-- A new entry comes with new channels. -/
theorem newEntry (w : World T U) (x : SocketHandle) :
    ReadFrame w (w.createTcpChannels.insertTcpState x ⟨w.nextChan, none⟩) := by
  refine ⟨Nat.le_succ _, fun k st hk => ?_, fun ch hch => ?_⟩
  · rcases Table.insert_cases hk with ⟨-, rfl⟩ | ⟨-, hk⟩
    · exact .inr (Nat.le_refl _)
    · exact .inl ⟨k, st, hk, rfl⟩
  · have hsame : w.createTcpChannels.tcpChans ch = w.tcpChans ch :=
      Function.update_of_ne (Nat.ne_of_lt hch) _ _
    rw [← hsame]
    exact .releaseTcpState _ _ ch

theorem replaceListening (w : World T U) (key : SocketHandle) (addr : SocketAddr)
    (rest : List SocketHandle) : ReadFrame w (w.replaceListening N key addr rest) := by
  unfold World.replaceListening
  split <;> exact still rfl (fun _ _ => id) (fun _ => .refl _)

theorem deliverAccepted (w : World T U) (x : SocketHandle) (la pa : SocketAddr) (r : ReqId) :
    ReadFrame w (w.deliverAccepted x la pa r) :=
  (newEntry w x).trans (still rfl (fun _ _ => id) (.answer _ r _))

theorem effect {c : Option StackCommand} (he : Effect N c w w') : ReadFrame w w' := by
  cases he with
  | reject m port ips rep hr hm hb => exact still rfl (fun _ _ => id) (.answer w _ rep)
  | connect k s port la hk hs =>
    exact (newEntry w k).trans (still rfl (fun _ _ => id) (.releaseOp _ _))
  | listen => exact still rfl (fun _ _ => id) (.answer w _ _)
  | accept l x rest s la pa hl hx hs hest =>
    exact (replaceListening w _ l.addr rest).trans (deliverAccepted _ x la pa _)
  | wait l hl hnone => exact still rfl (fun _ _ => id) (.releaseOp _ _)
  | listenerGone hl => exact still rfl (fun _ _ => id) (.releaseOp _ _)
  | listenerClose l m hl hout hin => exact still rfl (fun _ _ => id) (.releaseOp _ _)
  | tcpClose s hs =>
    exact still rfl (fun _ _ hk => (Table.erase_cases hk).2) (.releaseTcpState _ _)
  | udpBind k s port addr hk =>
    exact ⟨Nat.le_succ _, fun k st hk => .inl ⟨k, st, hk, rfl⟩, fun ch _ => .answer w _ _ ch⟩
  | udpClose s hs => exact still rfl (fun _ _ => id) (fun _ => .refl _)
  | connected la pa ch r hp => exact still rfl (fun _ _ => id) (.answer w r _)
  | connectDead la pa ch r e hp =>
    rename_i k
    refine still rfl (fun _ _ hk => (Table.erase_cases hk).2) (fun c => ?_)
    have h1 := ReadKept.releaseOp (w.pending.lookup k) w.tcpChans c
    have h2 := h1.trans (.releaseTcpState (w.tcpStates.lookup k) (w.dropPending k).tcpChans c)
    exact h2.trans (.answer ((w.dropPending k).removeTcpState k) r _ c)
  | acceptPending r l x rest s la pa hp hl hx hs hest =>
    rename_i key
    have h1 := replaceListening (N := N) w key l.addr rest
    have h2 : ReadFrame w ((w.replaceListening N key l.addr rest).takePending key) :=
      h1.trans (still rfl (fun _ _ => id) (fun _ => .refl _))
    exact h2.trans (deliverAccepted _ x la pa r)

theorem effects (he : Relation.ReflTransGen (Effect N none) w w') : ReadFrame w w' :=
  Effect.path_rule (ReadFrame w) (refl w) (fun _ _ hu he => hu.trans (effect he)) he

end ReadFrame

/-- No entry of `tcp_states` uses the channel pair `ch`, and the stack has no sender for it. -/
structure CutOff (ch : ChanId) (w : World T U) : Prop where
  lt : ch < w.nextChan
  entry : ∀ k st, w.tcpStates.lookup k = some st → st.chan ≠ ch
  tx : (w.tcpChans ch).read.txAlive = false

namespace CutOff

variable {ch : ChanId} {w w' : World T U}

theorem frame (h : CutOff ch w) (hfr : ReadFrame w w') :
    CutOff ch w' ∧ ReadKept (w.tcpChans ch) (w'.tcpChans ch) := by
  have hkept := hfr.kept ch h.lt
  refine ⟨⟨Nat.lt_of_lt_of_le h.lt hfr.next, ?_, ?_⟩, hkept⟩
  · intro k st hk hc
    rcases hfr.entry k st hk with ⟨k', st', hk', hc'⟩ | hle
    · exact h.entry k' st' hk' (hc'.trans hc)
    · exact absurd (hc ▸ hle) (Nat.not_le_of_gt h.lt)
  · by_contra htx
    rw [Bool.not_eq_false] at htx
    have hold := hkept.tx htx
    rw [h.tx] at hold
    cases hold

/-- Nothing but a read changes the read side of a channel pair that is cut off. -/
theorem transition {a : Action E} (h : CutOff ch w) (hread : ∀ ch len, a ≠ .streamRead ch len)
    (ht : Transition N a w w') : CutOff ch w' ∧ ReadKept (w.tcpChans ch) (w'.tcpChans ch) := by
  cases ht with
  | env he =>
    have hfr := World.envStep_frame he
    refine h.frame ⟨Nat.le_of_eq hfr.nextChan.symm, ?_, fun c _ => .envStep he hread c⟩
    rw [hfr.tcpStates]
    exact fun k st hk => .inl ⟨k, st, hk, rfl⟩
  | control p notify hp hw => exact h.frame (.still rfl (fun _ _ => id) (fun _ => .refl _))
  | command cmd rest hph hq he =>
    have hfr := ReadFrame.effect he
    have h1 := frame (w := { w with
      commands := rest
      received := w.received ++ cmd.response.toList }) ⟨h.lt, h.entry, h.tx⟩ hfr
    exact ⟨⟨h1.1.lt, h1.1.entry, h1.1.tx⟩, h1.2⟩
  | writeTcp k tcp udp st s hph hst hs =>
    refine h.frame ⟨Nat.le_refl _, fun x sx hx => ?_, fun c _ => ?_⟩
    · rcases Table.insert_cases hx with ⟨rfl, rfl⟩ | ⟨-, hx⟩
      · exact .inl ⟨x, st, hst, rfl⟩
      · exact .inl ⟨x, sx, hx, rfl⟩
    · refine ReadKept.update w.tcpChans ?_ c
      exact ⟨.inl ⟨rfl, rfl, rfl⟩, id⟩
  | readTcp k tcp udp changed st s hst hs =>
    have hne := h.entry k st hst
    have hsame : (w.readTcpEntry N k st s).tcpChans ch = w.tcpChans ch :=
      Function.update_of_ne hne.symm _ _
    refine ⟨⟨h.lt, h.entry, ?_⟩, ?_⟩
    · show ((w.readTcpEntry N k st s).tcpChans ch).read.txAlive = false
      rw [hsame]
      exact h.tx
    · show ReadKept _ ((w.readTcpEntry N k st s).tcpChans ch)
      rw [hsame]
      exact .refl _
  | writeUdp | readUdp | udpEvent | tcpEvent =>
    exact ⟨⟨h.lt, h.entry, h.tx⟩, .refl _⟩
  | pending order he =>
    obtain ⟨h1, hkept⟩ := h.frame (.effects he)
    exact ⟨⟨h1.lt, h1.entry, h1.tx⟩, hkept⟩
  | fail =>
    have hfr : ReadFrame w w.failPending :=
      World.failOps_rule (ReadFrame w) _ (.refl w) (fun v k r e hv => hv.trans
        (.still rfl (fun _ _ => id) fun c => (ReadKept.releaseOp _ _ c).trans
          (.answer (v.dropPending k) r _ c)))
    obtain ⟨h1, hkept⟩ := h.frame hfr
    exact ⟨⟨h1.lt, h1.entry, h1.tx⟩, hkept⟩

end CutOff

/-- All that the reads of a stream have returned and will return before the end of the stream,
once the stack has no sender for it. -/
def Traced.readTotal (t : Traced T U) (ch : ChanId) : Bytes :=
  t.returned ch ++ (t.world.tcpChans ch).ahead

/-- The state after a channel pair has been cut off: as long as its reader exists, reads give
what there was and no more. -/
structure AfterCut (N : Smoltcp T U E) (ch : ChanId) (total : Bytes) (t : Traced T U) : Prop where
  owned : Owned t.world
  cut : CutOff ch t.world
  total : (t.world.tcpChans ch).read.rxAlive = true → t.readTotal ch = total

theorem AfterCut.step (hf : N.FreshHandles) {cfg : StackConfig} {a : TracedAction E} {ch : ChanId}
    {total : Bytes} {t t' : Traced T U} (h : AfterCut N ch total t)
    (hs : Traced.step N cfg a t = some t') : AfterCut N ch total t' := by
  cases Traced.step_cases hs with
  | stack a ha hw =>
    have ht := h.owned.step_transition hf hw
    obtain ⟨hcut, hkept⟩ := h.cut.transition ha ht
    refine ⟨h.owned.transition hf ht, hcut, fun hrx => ?_⟩
    rcases hkept.side with ⟨hq, hb, hr⟩ | ⟨-, -, hr⟩
    · have hold := h.total (hr ▸ hrx)
      simp only [Traced.readTotal, TcpChan.ahead, hq, hb]
      exact hold
    · rw [hr] at hrx
      cases hrx
  | read f ch' len hw =>
    have ht := h.owned.step_transition hf hw
    have ho' := h.owned.transition hf ht
    obtain rfl := World.step_streamRead hw
    by_cases hch : ch = ch'
    · subst hch
      have htx := (TcpStream.read_frame len (t.world.tcpChans ch)).2.2.2
      have hrxa := (TcpStream.read_queue len (t.world.tcpChans ch)).2
      have hbytes := TcpStream.read_bytes len (t.world.tcpChans ch)
      refine ⟨ho', ⟨h.cut.lt, h.cut.entry, ?_⟩, fun hrx => ?_⟩
      · simpa [htx] using h.cut.tx
      · simp only [Function.update_self] at hrx
        have hold := h.total (hrxa ▸ hrx)
        rw [← hold]
        simp only [Traced.readTotal, TcpChan.ahead, Function.update_self, ← hbytes,
          List.append_assoc]
    · have hsame : Function.update t.world.tcpChans ch'
          (TcpStream.read len (t.world.tcpChans ch')).2 ch = t.world.tcpChans ch :=
        Function.update_of_ne hch _ _
      refine ⟨ho', ⟨h.cut.lt, h.cut.entry, ?_⟩, fun hrx => ?_⟩
      · simpa [hsame] using h.cut.tx
      · simp only [hsame] at hrx
        have hold := h.total hrx
        simpa [Traced.readTotal, hsame, Function.update_of_ne hch] using hold
  | intoSplit ch' split => exact ⟨h.owned, h.cut, h.total⟩

/-- Run lemma for everything that happens after the cut. -/
theorem AfterCut.run (hf : N.FreshHandles) {cfg : StackConfig} {ch : ChanId} {total : Bytes}
    {t t' : Traced T U} (h : AfterCut N ch total t) (ht : Reachable (Traced.step N cfg) t t') :
    AfterCut N ch total t' :=
  ht.invariant (Traced.step N cfg) (AfterCut N ch total) h
    (fun _ _ _ hs _ hstep => hs.step hf hstep)

/-- Handling `TcpClose` cuts the channel pair of the entry off. -/
theorem afterCut_tcpClose (hf : N.FreshHandles) {cfg : StackConfig} {t t' : Traced T U}
    (ho : Owned t.world) (hc : OwnChannels t.world) {k : SocketHandle} {st : TcpSocketState}
    (hst : t.world.tcpStates.lookup k = some st)
    (hq : t.world.commands.queue.head? = some (.tcpClose k))
    (hs : Traced.step N cfg (.stack .command) t = some t') :
    AfterCut N st.chan (t.readTotal st.chan) t' ∧ t'.arrived k = t.arrived k := by
  cases Traced.step_cases hs with
  | stack a ha hw =>
    have ho' := ho.transition hf (ho.step_transition hf hw)
    obtain ⟨rest, hq⟩ := List.head?_eq_some_iff.mp hq
    obtain ⟨-, rfl⟩ := World.step_command hq hw
    obtain ⟨s, hsock⟩ := ho.live.tcp k st hst
    have hrun := World.handleTcpClose_eq (N := N) (w := { t.world with
      commands := { t.world.commands with queue := rest }
      received := t.world.received ++ (StackCommand.tcpClose k).response.toList }) hsock
    simp only [World.handleCommand, hrun, World.continueAt] at ho' ⊢
    refine ⟨⟨ho', ⟨hc.lt k st hst, ?_, ?_⟩, ?_⟩, ?_⟩
    · intro k' st' hk' heq
      obtain ⟨hne, hk'⟩ := Table.erase_cases hk'
      exact hne (hc.inj k' k st' st hk' hst heq)
    · simp [World.removeTcpState, World.setTcp, releaseTcpState, hst, TcpChan.dropStackEnds,
        Chan.dropTx]
    · intro _
      simp [Traced.readTotal, TcpChan.ahead, World.removeTcpState, World.setTcp, releaseTcpState,
        hst, TcpChan.dropStackEnds, Chan.dropTx]
    · simp [arrivals]

/-- The read side has not been cut since `t`: everything that was on its way to the reader then,
and everything that has arrived in the socket since, is among what reads return before EOF. -/
def ReadUncut (N : Smoltcp T U E) (t t' : Traced T U) (k : SocketHandle) (ch : ChanId) : Prop :=
  t'.readTotal ch =
    t.readTotal ch ++ rxOf N t.world k ++ (t'.arrived k).drop (t.arrived k).length

/-- Arrivals are only added to. -/
theorem Traced.arrived_prefix {cfg : StackConfig} {t t' : Traced T U}
    (h : Reachable (Traced.step N cfg) t t') (k : SocketHandle) : t.arrived k <+: t'.arrived k := by
  apply h.invariant (Traced.step N cfg) (fun s => t.arrived k <+: s.arrived k) (List.prefix_refl _)
  intro s s' a hs _ hstep
  cases Traced.step_cases hstep with
  | stack a ha hw => exact hs.trans (List.prefix_append _ _)
  | read f ch len hw => exact hs
  | intoSplit ch split => exact hs

/-- After a `TcpClose` has been handled the stack has no sender for the stream, so that reads
give what there is and then EOF. This is everything exactly when the receive buffer of the socket
was empty then and nothing has arrived in it since. -/
theorem shutdown_keeps_reads_iff (N : Smoltcp T U E) (hf : N.FreshHandles) (cfg : StackConfig)
    (port : UInt16) (t t1 t2 : Traced T U) (k : SocketHandle) (st : TcpSocketState)
    (h : Reachable (Traced.step N cfg) (Traced.init N cfg port) t)
    (hst : t.world.tcpStates.lookup k = some st)
    (hq : t.world.commands.queue.head? = some (.tcpClose k))
    (hs : Traced.step N cfg (.stack .command) t = some t1)
    (hrun : Reachable (Traced.step N cfg) t1 t2)
    (hrx : (t2.world.tcpChans st.chan).read.rxAlive = true) :
    (t2.world.tcpChans st.chan).read.txAlive = false ∧
    (ReadUncut N t t2 k st.chan ↔ rxOf N t.world k = [] ∧ t2.arrived k = t.arrived k) := by
  have hreach : Reach N cfg port t.world := Traced.reach h
  obtain ⟨hcut, harr⟩ := afterCut_tcpClose hf (Reach.owned hf hreach)
    (Reach.entries hf (entryRule_true N) hreach) hst hq hs
  have h2 := hcut.run hf hrun
  refine ⟨h2.cut.tx, ?_⟩
  obtain ⟨new, hnew⟩ := Traced.arrived_prefix hrun k
  rw [harr] at hnew
  rw [ReadUncut, h2.total hrx, ← hnew, List.drop_left]
  simp [List.append_assoc]

/-- Two bytes have reached the reader of a stream, which is then split and shut down. -/
def shutdownRun : List (TracedAction RefEvent) :=
  .flatten [acceptRun.map .stack, [.stack .timeout],
    (iteration [0] [(0, .data [1, 2])] none).map .stack,
    [.intoSplit 0, .stack (.issue (.tcpClose 0))]]

/-- The loop goes on with the segments `es` for the socket, and the read half reads. -/
def drainRun (es : List RefEvent) : List (TracedAction RefEvent) :=
  .flatten [(iteration [] (es.map (fun e => (0, e))) none).map .stack, [.read .halfRead 0 8]]

theorem shutdown_keeps_reads_iff_drainRun :
    ∃ t t1 t2 : Traced RefTcp RefUdp,
      Traced.step refNet hostCfg (.stack .command) t = some t1 ∧
      Reachable (Traced.step refNet hostCfg) t1 t2 ∧ t2.returned 0 = [1, 2] ∧
      ReadUncut refNet t t2 0 0 := by
  obtain ⟨t, hr, -, hp⟩ := reachable_of_run (Traced.step refNet hostCfg) shutdownRun
    (Traced.init refNet hostCfg 49152)
    (fun t => decide (t.world.tcpStates.lookup 0 = some ⟨0, none⟩ ∧
      t.world.commands.queue.head? = some (.tcpClose 0) ∧ rxOf refNet t.world 0 = [] ∧
      ((Traced.step refNet hostCfg (.stack .command) t).bind
        (runActions (Traced.step refNet hostCfg) (drainRun [.ack 0, .fin]))).map
          (fun t2 => ((t2.world.tcpChans 0).read.rxAlive, t2.arrived 0, t2.returned 0)) =
        some (true, t.arrived 0, [1, 2]))) (by decide +kernel)
  obtain ⟨hst, hq, hrx, hrun⟩ := of_decide_eq_true hp
  obtain ⟨t2, hrun, hend⟩ := Option.map_eq_some_iff.mp hrun
  obtain ⟨t1, hs, hrun⟩ := Option.bind_eq_some_iff.mp hrun
  simp only [Prod.mk.injEq] at hend
  obtain ⟨halive, harr, hret⟩ := hend
  have h2 : Reachable (Traced.step refNet hostCfg) t1 t2 := Reachable.run _ .start hrun
  have hiff := shutdown_keeps_reads_iff refNet refNet_freshHandles hostCfg 49152 t t1 t2 0 _ hr hst
    hq hs h2 halive
  exact ⟨t, t1, t2, hs, h2, hret, hiff.2.mpr ⟨hrx, harr⟩⟩

/-- A byte that the peer sends after it has acknowledged the FIN arrives in the socket; the read
half gets EOF without it. -/
theorem shutdown_cuts_reads :
    ∃ t t1 t2 : Traced RefTcp RefUdp,
      Reachable (Traced.step refNet hostCfg) (Traced.init refNet hostCfg 49152) t ∧
      t.world.commands.queue.head? = some (.tcpClose 0) ∧
      Traced.step refNet hostCfg (.stack .command) t = some t1 ∧
      Reachable (Traced.step refNet hostCfg) t1 t2 ∧ stateOf refNet t2.world 0 = some .finWait2 ∧
      t2.arrived 0 = [1, 2, 3] ∧ t2.returned 0 = [1, 2] ∧
      (ReadFn.halfRead.run 8 (t2.world.tcpChans 0)).1 = .ready [] := by
  obtain ⟨t, hr, -, hp⟩ := reachable_of_run (Traced.step refNet hostCfg) shutdownRun
    (Traced.init refNet hostCfg 49152)
    (fun t => decide (t.world.commands.queue.head? = some (.tcpClose 0) ∧
      ((Traced.step refNet hostCfg (.stack .command) t).bind
        (runActions (Traced.step refNet hostCfg) (drainRun [.ack 0, .data [3]]))).map
          (fun t2 => (stateOf refNet t2.world 0, t2.arrived 0, t2.returned 0,
            (ReadFn.halfRead.run 8 (t2.world.tcpChans 0)).1)) =
        some (some .finWait2, [1, 2, 3], [1, 2], .ready []))) (by decide +kernel)
  obtain ⟨hq, hrun⟩ := of_decide_eq_true hp
  obtain ⟨t2, hrun, hend⟩ := Option.map_eq_some_iff.mp hrun
  obtain ⟨t1, hs, hrun⟩ := Option.bind_eq_some_iff.mp hrun
  simp only [Prod.mk.injEq] at hend
  obtain ⟨hstate, harr, hret, heof⟩ := hend
  exact ⟨t, t1, t2, hr, hq, hs, Reachable.run _ .start hrun, hstate, harr, hret, heof⟩

end TapTunnel.Stack
