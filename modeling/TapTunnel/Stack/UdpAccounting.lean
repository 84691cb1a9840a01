import TapTunnel.Stack.UdpDelivery

namespace TapTunnel.Stack

open Framework Reference

variable {T U E : Type} {N : Smoltcp T U E}

section OnChan

variable {α : Type}

/-- The part of a log that concerns one channel pair. -/
def onChan (ch : ChanId) (l : List (ChanId × α)) : List α :=
  (l.filter fun e => e.1 = ch).map Prod.snd

theorem onChan_append (ch : ChanId) (l l' : List (ChanId × α)) :
    onChan ch (l ++ l') = onChan ch l ++ onChan ch l' := by
  simp [onChan]

theorem onChan_self (ch : ChanId) (l : List α) : onChan ch (l.map (ch, ·)) = l := by
  induction l with
  | nil => rfl
  | cons x l ih => simpa [onChan] using ih

theorem onChan_of_ne {ch ch' : ChanId} (h : ch' ≠ ch) (l : List α) :
    onChan ch (l.map (ch', ·)) = [] := by
  simp [onChan, h]

/-- A log without entries for channel pairs that are not yet in use. -/
def LogBelow (n : ChanId) (l : List (ChanId × α)) : Prop := ∀ e ∈ l, e.1 < n

theorem LogBelow.onChan_eq_nil {n : ChanId} {l : List (ChanId × α)} (h : LogBelow n l) :
    onChan n l = [] := by
  simp only [onChan, List.map_eq_nil_iff, List.filter_eq_nil_iff, decide_eq_true_eq]
  exact fun e he => Nat.ne_of_lt (h e he)

theorem LogBelow.mono {n m : ChanId} {l : List (ChanId × α)} (h : LogBelow n l) (hn : n ≤ m) :
    LogBelow m l := fun e he => Nat.lt_of_lt_of_le (h e he) hn

theorem LogBelow.append {n ch : ChanId} {l : List (ChanId × α)} (h : LogBelow n l) (hc : ch < n)
    (new : List α) : LogBelow n (l ++ new.map (ch, ·)) := by
  intro e he
  rcases List.mem_append.mp he with he | he
  · exact h e he
  · obtain ⟨x, -, rfl⟩ := List.mem_map.mp he
    exact hc

end OnChan

/-- The history of the UDP sockets by channel pair: datagrams that applications have queued, those
`process_udp_write` has taken with the result of `send_slice`, those `process_udp_read` has
removed from smoltcp's receive buffers and those it has put into channels, and those that
applications have received. -/
structure UdpLog where
  queued : List (ChanId × (Bytes × SocketAddr))
  taken : List (ChanId × ((Bytes × SocketAddr) × Bool))
  removed : List (ChanId × (Bytes × IpEndpoint))
  passed : List (ChanId × (Bytes × SocketAddr))
  received : List (ChanId × (Bytes × SocketAddr))

/-- What a visit of the read pass removes from the receive buffer. -/
def removedBy (V : N.UdpView) (s s' : U) : List (Bytes × IpEndpoint) :=
  (V.rx s).take ((V.rx s).length - (V.rx s').length)

/-- What a step adds to the history. -/
def UdpLog.record (V : N.UdpView) (w : World T U) (a : Action E) (l : UdpLog) : UdpLog :=
  match a with
  | .udpSend ch buf addr => { l with queued := l.queued ++ [(buf, addr)].map (ch, ·) }
  | .udpRecv ch =>
    match (w.udpChans ch).read.tryRecv with
    | .ok (d, _) => { l with received := l.received ++ [d].map (ch, ·) }
    | .error _ => l
  | .writeUdp =>
    match w.pumped with
    | some (_, st, s) =>
      let outs := udpWrites N (w.udpChans st.chan).write.queue s
      { l with taken := l.taken ++ outs.map (st.chan, ·) }
    | none => l
  | .readUdp =>
    match w.pumped with
    | some (_, st, s) =>
      let c := (w.udpChans st.chan).read
      let r := processUdpRead N c c.room s [] w.stats
      { l with
        removed := l.removed ++ (removedBy V s r.1).map (st.chan, ·)
        passed := l.passed ++ (r.2.1.queue.drop c.queue.length).map (st.chan, ·) }
    | none => l
  | _ => l

/-- The stack with the history of its UDP sockets. -/
structure Logged (T U : Type) where
  world : World T U
  log : UdpLog

namespace Logged

def init (N : Smoltcp T U E) (cfg : StackConfig) (port : UInt16) : Logged T U :=
  ⟨World.init N cfg port, ⟨[], [], [], [], []⟩⟩

def step (V : N.UdpView) (cfg : StackConfig) (a : Action E) (t : Logged T U) :
    Option (Logged T U) :=
  (World.step N cfg a t.world).map fun w => ⟨w, t.log.record V t.world a⟩

end Logged

/-- The history of one channel pair. -/
structure ChanLog where
  queued : List (Bytes × SocketAddr)
  taken : List ((Bytes × SocketAddr) × Bool)
  passed : List (Bytes × SocketAddr)
  received : List (Bytes × SocketAddr)

def UdpLog.on (l : UdpLog) (ch : ChanId) : ChanLog :=
  ⟨onChan ch l.queued, onChan ch l.taken, onChan ch l.passed, onChan ch l.received⟩

/-- What was queued has been taken in order or is still queued, and what was passed on has been
received in order or waits in the channel, unless its receiver is gone. -/
structure ChanBooks (c : UdpChan) (g : ChanLog) : Prop where
  tx : g.taken.map Prod.fst ++ c.write.queue = g.queued
  rx : Chan.Flow g.received c.read g.passed

/-- The books of the open sockets. What was taken is counted by its outcome and what was passed on
is counted, and the latter is what was removed, unmodified. -/
structure UdpBooks (p : UdpPart U) (l : UdpLog) : Prop where
  chan : ∀ h st, p.states.lookup h = some st → ChanBooks (p.chans st.chan) (l.on st.chan)
  txPackets : p.stats.txPackets = l.taken.countP (·.2.2)
  txFailed : p.stats.txFailed = l.taken.countP (!·.2.2)
  rxPackets : p.stats.rxPackets = l.passed.length
  unmodified : l.passed.Sublist (l.removed.map fun e => (e.1, toApp e.2))
  below : LogBelow p.next l.queued ∧ LogBelow p.next l.taken ∧ LogBelow p.next l.passed ∧
    LogBelow p.next l.received

/-- Every removed datagram that was not passed on is counted as dropped, and nothing else is. -/
def DropsExact (p : UdpPart U) (l : UdpLog) : Prop :=
  p.stats.rxDropped + l.passed.length = l.removed.length

/-- Condition on a step: a visit of the read pass finds room in the channel for all that has
arrived, and nothing that exceeds the read buffer. -/
def ReadsAll (V : N.UdpView) (w : World T U) : Action E → Prop
  | .readUdp => ∀ e ∈ w.pumped, (V.rx e.2.2).length ≤ (w.udpChans e.2.1.chan).read.room ∧
      ∀ d ∈ V.rx e.2.2, d.1.length ≤ udpReadBufSize
  | _ => True

instance (w : World RefTcp RefUdp) (a : Action RefEvent) : Decidable (ReadsAll refUdpView w a) := by
  rcases a with _ | _ <;> unfold ReadsAll <;> infer_instance

section Visit

theorem UdpLog.record_still (V : N.UdpView) {w : World T U} {a : Action E} (ha : ¬w.MovesUdp a)
    (l : UdpLog) : l.record V w a = l := by
  cases a with
  | udpSend | udpRecv => exact absurd trivial ha
  | writeUdp | readUdp =>
    have hnone : w.pumped = none := by simpa [World.MovesUdp] using ha
    simp only [record, hnone]
  | _ => rfl

/-- What is passed on is what was removed, but for a datagram that did not fit. -/
theorem delivered_sublist (outs : List ((Bytes × IpEndpoint) × Bool)) :
    (delivered outs).Sublist ((outs.map Prod.fst).map toApp) := by
  have hfilter : (delivered outs) = ((outs.filter (·.2)).map Prod.fst).map toApp := by
    simp [delivered, toApp]
  rw [hfilter]
  exact (List.filter_sublist.map _).map _

theorem length_delivered (outs : List ((Bytes × IpEndpoint) × Bool)) :
    (delivered outs).length = outs.countP (·.2) := by
  rw [delivered, List.length_map, List.countP_eq_length_filter]

theorem room_of_delivered {room : Nat} {rx : List (Bytes × IpEndpoint)}
    (h : delivered (udpReads room rx) ≠ []) : room ≠ 0 := by
  intro hroom
  subst hroom
  exact h rfl

/-- A visit counts drops right exactly if it neither stalls nor meets a datagram too long for its
buffer. It cannot do both. -/
theorem udpReads_exact_iff (room : Nat) (rx : List (Bytes × IpEndpoint)) :
    (udpStalls room rx).toNat + (delivered (udpReads room rx)).length =
        (udpReads room rx).length ↔
      rx.length ≤ room ∧ ∀ d ∈ rx, fitsReadBuf d = true := by
  induction room generalizing rx with
  | zero => cases rx <;> simp [udpStalls, udpReads, delivered]
  | succ room ih =>
    cases rx with
    | nil => simp [udpStalls, udpReads, delivered]
    | cons d rx =>
      cases hd : fitsReadBuf d with
      | false => simp [udpStalls, udpReads, delivered, hd]
      | true =>
        have hcons : (delivered ((d, true)::udpReads room rx)).length =
            (delivered (udpReads room rx)).length + 1 := rfl
        simp only [udpStalls, udpReads, hd, if_true, Bool.true_and, List.length_cons, hcons,
          List.forall_mem_cons, true_and]
        rw [← Nat.add_assoc, Nat.add_right_cancel_iff, ih, Nat.add_le_add_iff_right]

/-- The observations of a visit in terms of the receive queue. -/
theorem readUdp_observed (V : N.UdpView) (c : Chan (Bytes × SocketAddr)) (s : U)
    (stats : UdpStats) :
    let r := processUdpRead N c c.room s [] stats
    let outs := udpReads c.room (V.rx s)
    removedBy V s r.1 = outs.map Prod.fst ∧ r.2.1.queue.drop c.queue.length = delivered outs := by
  intro r outs
  obtain ⟨⟨-, -, hrx⟩, hchan, -⟩ := processUdpRead_spec V c c.room s [] stats
  change outs.map Prod.fst ++ V.rx r.1 = V.rx s at hrx
  constructor
  · have hlen : (V.rx s).length - (V.rx r.1).length = (outs.map Prod.fst).length := by
      rw [← hrx, List.length_append]
      omega
    rw [removedBy, hlen, ← hrx, List.take_left]
  · change List.drop _ (processUdpRead N c c.room s [] stats).2.1.queue = _
    rw [hchan]
    exact List.drop_left

/-- What a visit of the read pass adds to the history. -/
theorem UdpLog.record_readUdp (V : N.UdpView) {w : World T U} {k : SocketHandle}
    {st : UdpSocketState} {s : U} (hp : w.pumped = some (k, st, s)) (l : UdpLog) :
    let outs := udpReads (w.udpChans st.chan).read.room (V.rx s)
    l.record V w (.readUdp : Action E) = { l with
      removed := l.removed ++ (outs.map Prod.fst).map (st.chan, ·)
      passed := l.passed ++ (delivered outs).map (st.chan, ·) } := by
  intro outs
  obtain ⟨hgone, hgot⟩ := readUdp_observed V (w.udpChans st.chan).read s w.stats
  simp only [record, hp, hgone, hgot]
  rfl

/-- The counters after a visit. -/
theorem World.readUdpEntry_stats (V : N.UdpView) (w : World T U) (k : SocketHandle)
    (st : UdpSocketState) (s : U) :
    let room := (w.udpChans st.chan).read.room
    (w.readUdpEntry N k st s).stats =
      w.stats.read (udpReads room (V.rx s)) (udpStalls room (V.rx s)) :=
  (processUdpRead_spec V (w.udpChans st.chan).read _ s [] w.stats).2.2

end Visit

/-- One channel pair changes, and the history of no other. -/
theorem chanBooks_set {p : UdpPart U} {l l' : UdpLog}
    (h : ∀ k st, p.states.lookup k = some st → ChanBooks (p.chans st.chan) (l.on st.chan))
    (ch : ChanId) {c : UdpChan} (hne : ∀ ch', ch' ≠ ch → l'.on ch' = l.on ch')
    (hc : ChanBooks (p.chans ch) (l.on ch) → ChanBooks c (l'.on ch)) :
    ∀ k st, p.states.lookup k = some st →
      ChanBooks (Function.update p.chans ch c st.chan) (l'.on st.chan) := by
  intro k st hk
  have hold := h k st hk
  by_cases hch : st.chan = ch
  · rw [hch] at hold ⊢
    rw [Function.update_self]
    exact hc hold
  · rw [Function.update_of_ne hch, hne _ hch]
    exact hold

namespace UdpBooks

variable {w : World T U} {p : UdpPart U} {l : UdpLog}

/-- A channel pair that is not yet in use has no history. -/
theorem on_next (h : UdpBooks p l) : l.on p.next = ⟨[], [], [], []⟩ := by
  obtain ⟨hbq, hbt, hbp, hbr⟩ := h.below
  simp only [UdpLog.on, hbq.onChan_eq_nil, hbt.onChan_eq_nil, hbp.onChan_eq_nil,
    hbr.onChan_eq_nil]

/-- Step lemma. -/
theorem move (V : N.UdpView) {a : Action E} (ho : UdpOwn w.udpPart) (h : UdpBooks w.udpPart l)
    (hm : UdpMove N w a p) : UdpBooks p (l.record V w a) := by
  obtain ⟨hbq, hbt, hbp, hbr⟩ := h.below
  cases hm with
  | still n hn ha =>
    rw [UdpLog.record_still V ha]
    exact { h with below := ⟨hbq.mono hn, hbt.mono hn, hbp.mono hn, hbr.mono hn⟩ }
  | send ch buf addr tx hg hc =>
    obtain ⟨-, -, rfl⟩ := Chan.trySend_ok hc
    have hlt := ho.given ch hg
    refine { h with chan := ?_, below := ⟨hbq.append hlt _, hbt, hbp, hbr⟩ }
    refine chanBooks_set h.chan ch (fun ch' hne => ?_) (fun hb => ⟨?_, hb.rx⟩)
    · simp only [UdpLog.on, UdpLog.record, onChan_append, onChan_of_ne hne.symm, List.append_nil]
    · simp only [UdpLog.on, UdpLog.record, onChan_append, onChan_self]
      rw [← List.append_assoc]
      exact congrArg (· ++ [(buf, addr)]) hb.tx
  | recv ch d rx hg hc =>
    have hlt := ho.given ch hg
    simp only [UdpLog.record, hc]
    refine { h with chan := ?_, below := ⟨hbq, hbt, hbp, hbr.append hlt _⟩ }
    refine chanBooks_set h.chan ch (fun ch' hne => ?_) (fun hb => ⟨hb.tx, ?_⟩)
    · simp only [UdpLog.on, onChan_append, onChan_of_ne hne.symm, List.append_nil]
    · simp only [UdpLog.on, onChan_append, onChan_self]
      exact hb.rx.tryRecv hc
  | drop ch hg =>
    refine { h with chan := ?_ }
    exact chanBooks_set h.chan ch (fun _ _ => rfl) (fun hb => ⟨hb.tx, hb.rx.dropRx⟩)
  | bind k s addr c hk hst hs hc =>
    have hn := Nat.le_succ w.nextChan
    refine { h with
      chan := ?_
      below := ⟨hbq.mono hn, hbt.mono hn, hbp.mono hn, hbr.mono hn⟩ }
    intro k' st hk'
    rcases Table.insert_cases hk' with ⟨rfl, rfl⟩ | ⟨-, hk'⟩
    · change ChanBooks (Function.update w.udpChans w.nextChan c w.nextChan) (l.on w.udpPart.next)
      rw [Function.update_self, h.on_next]
      rcases hc with rfl | rfl
      · exact ⟨rfl, Chan.flow_new _⟩
      · exact ⟨rfl, (Chan.flow_new _).dropRx⟩
    · have hlt : st.chan ≠ w.nextChan := Nat.ne_of_lt (ho.lt k' st hk')
      simp only [Function.update_of_ne hlt]
      exact h.chan k' st hk'
  | close k s hs =>
    refine { h with chan := ?_ }
    intro k' st hk'
    obtain ⟨hne, hk'⟩ := Table.erase_cases hk'
    have hkeep : releaseUdpState (w.udpStates.lookup k) w.udpChans st.chan =
        w.udpChans st.chan := by
      cases hold : w.udpStates.lookup k with
      | none => rfl
      | some st' => exact ho.update_of_ne hold hk' hne _
    change ChanBooks (releaseUdpState (w.udpStates.lookup k) w.udpChans st.chan) (l.on st.chan)
    rw [hkeep]
    exact h.chan k' st hk'
  | write k st s hst hs hp =>
    rw [World.writeUdpEntry_part]
    obtain ⟨rest, hrest, htake, hstats⟩ := processUdpWrite_books (N := N) (w.udpChans st.chan).write
      (w.udpChans st.chan).write.queue s w.stats
    simp only [UdpLog.record, hp, hrest, hstats]
    refine { h with
      chan := ?_
      txPackets := ?_
      txFailed := ?_
      below := ⟨hbq, hbt.append (ho.lt k st hst) _, hbp, hbr⟩ }
    · refine chanBooks_set h.chan st.chan (fun ch' hne => ?_) (fun hb => ⟨?_, hb.rx⟩)
      · simp only [UdpLog.on, onChan_append, onChan_of_ne hne.symm, List.append_nil]
      · have hold : _ ++ (w.udpChans st.chan).write.queue = _ := hb.tx
        simp only [UdpLog.on, onChan_append, onChan_self, List.map_append, List.append_assoc, htake]
        exact hold
    · have hold : w.stats.txPackets = _ := h.txPackets
      simp [UdpStats.sent, hold, List.countP_map, Function.comp_def]
    · have hold : w.stats.txFailed = _ := h.txFailed
      simp [UdpStats.sent, hold, List.countP_map, Function.comp_def]
  | read k st s hst hs hp =>
    obtain ⟨-, hchan, hstats⟩ := processUdpRead_spec V (w.udpChans st.chan).read
      (w.udpChans st.chan).read.room s [] w.stats
    rw [List.nil_append] at hchan
    rw [World.readUdpEntry_part, UdpLog.record_readUdp V hp]
    simp only [hchan, hstats]
    refine { h with
      chan := ?_
      rxPackets := ?_
      unmodified := ?_
      below := ⟨hbq, hbt, hbp.append (ho.lt k st hst) _, hbr⟩ }
    · refine chanBooks_set h.chan st.chan (fun ch' hne => ?_) (fun hb => ⟨hb.tx, ?_⟩)
      · simp only [UdpLog.on, onChan_append, onChan_of_ne hne.symm, List.append_nil]
      · simp only [UdpLog.on, onChan_append, onChan_self]
        refine hb.rx.append (fun hne => ?_)
        exact Chan.rxAlive_of_room (room_of_delivered hne)
    · have hold : w.stats.rxPackets = _ := h.rxPackets
      simp [UdpStats.read, hold, length_delivered]
    · rw [List.map_append]
      refine h.unmodified.append ?_
      have hsub := (delivered_sublist (udpReads (w.udpChans st.chan).read.room (V.rx s))).map
        (st.chan, ·)
      simpa [Function.comp_def] using hsub
  | event k e s hs => exact { h with }

end UdpBooks

/-- Only visits of the read pass can break the count of drops, and exactly those that stall or
meet a datagram too long for their buffer do. -/
theorem DropsExact.move_iff (V : N.UdpView) {w : World T U} {a : Action E} {p : UdpPart U}
    {l : UdpLog} (h : DropsExact w.udpPart l) (hm : UdpMove N w a p) :
    DropsExact p (l.record V w a) ↔ ReadsAll V w a := by
  cases hm with
  | still n hn ha =>
    rw [UdpLog.record_still V ha]
    refine iff_of_true h ?_
    cases a with
    | readUdp =>
      have hnone : w.pumped = none := by simpa [World.MovesUdp] using ha
      intro e he
      simp [hnone] at he
    | _ => trivial
  | send | drop | bind | close | event => exact iff_of_true h trivial
  | recv ch d rx hg hc =>
    simp only [UdpLog.record, hc]
    exact iff_of_true h trivial
  | write k st s hst hs hp =>
    obtain ⟨rest, -, -, hstats⟩ := processUdpWrite_books (N := N) (w.udpChans st.chan).write
      (w.udpChans st.chan).write.queue s w.stats
    rw [World.writeUdpEntry_part]
    simp only [UdpLog.record, hp, hstats]
    exact iff_of_true h trivial
  | read k st s hst hs hp =>
    have hstats := World.readUdpEntry_stats V w k st s
    have hold : w.stats.rxDropped + l.passed.length = l.removed.length := h
    have hexact := udpReads_exact_iff (w.udpChans st.chan).read.room (V.rx s)
    have hfits : ∀ d : Bytes × IpEndpoint, fitsReadBuf d = true ↔ d.1.length ≤ udpReadBufSize := by
      simp [fitsReadBuf]
    rw [UdpLog.record_readUdp V hp]
    change (w.readUdpEntry N k st s).stats.rxDropped + _ = _ ↔ _
    simp only [ReadsAll, hp, Option.mem_some_iff, forall_eq', ← hfits, ← hexact]
    simp only [hstats, UdpStats.read, List.length_append, List.length_map]
    omega

namespace Logged

variable {cfg : StackConfig} {port : UInt16} {t u : Logged T U} {a : Action E} {V : N.UdpView}

theorem step_eq_some (h : step V cfg a t = some u) :
    World.step N cfg a t.world = some u.world ∧ u.log = t.log.record V t.world a := by
  obtain ⟨w, hw, rfl⟩ := Option.map_eq_some_iff.mp h
  exact ⟨hw, rfl⟩

/-- Keeping a history does not restrict the runs. -/
theorem reach_world (h : Reachable (step V cfg) (init N cfg port) t) :
    Reach N cfg port t.world := by
  induction h with
  | start => exact ReachVia.start
  | next _ _ hs ih => exact ReachVia.next ih trivial (step_eq_some hs).1

theorem step_udpMove (hf : N.FreshHandles) (h : Reachable (step V cfg) (init N cfg port) t)
    (hs : step V cfg a t = some u) : UdpMove N t.world a u.world.udpPart :=
  have ho := Reach.owned hf (reach_world h)
  (ho.step_transition hf (step_eq_some hs).1).udpMove hf ho

theorem books (hf : N.FreshHandles) (h : Reachable (step V cfg) (init N cfg port) t) :
    UdpBooks t.world.udpPart t.log := by
  induction h with
  | start =>
    change UdpBooks (World.init N cfg port).udpPart ⟨[], [], [], [], []⟩
    rw [init_udpPart]
    refine ⟨nofun, rfl, rfl, rfl, List.Sublist.refl _, ?_⟩
    exact ⟨List.forall_mem_nil _, List.forall_mem_nil _, List.forall_mem_nil _,
      List.forall_mem_nil _⟩
  | next hr _ hs ih =>
    rw [(step_eq_some hs).2]
    exact ih.move V (Reach.udpOwn hf (reach_world hr)) (step_udpMove hf hr hs)

theorem dropsExact_iff (hf : N.FreshHandles) (as : List (Action E)) :
    everyStep (step V cfg) (fun _ _ u => DropsExact u.world.udpPart u.log) as (init N cfg port) ↔
      everyStep (step V cfg) (fun t a _ => ReadsAll V t.world a) as (init N cfg port) := by
  refine everyStep_kept_iff (step V cfg) (P := fun t => DropsExact t.world.udpPart t.log)
    (R := fun t a => ReadsAll V t.world a) ?_ as .start ?_
  · intro t a u hr ht hs
    rw [(step_eq_some hs).2]
    exact ht.move_iff V (step_udpMove hf hr hs)
  · change DropsExact (World.init N cfg port).udpPart ⟨[], [], [], [], []⟩
    rw [init_udpPart]
    rfl

end Logged

/-- The counters of the UDP sockets and their history. In every state of every run, what was queued
for an open socket is still queued or was taken once, and is counted by its outcome. What the read
pass put into channels is counted, reached them unmodified and is received in order. The count of
drops is right throughout a run exactly if every visit of the read pass finds room for all that has
arrived and no payload above the size of its buffer. -/
theorem udp_accounting (N : Smoltcp T U E) (hf : N.FreshHandles) (V : N.UdpView) (cfg : StackConfig)
    (port : UInt16) :
    (∀ t, Reachable (Logged.step V cfg) (Logged.init N cfg port) t →
      UdpBooks t.world.udpPart t.log) ∧
    ∀ as : List (Action E),
      everyStep (Logged.step V cfg) (fun _ _ u => DropsExact u.world.udpPart u.log) as
          (Logged.init N cfg port) ↔
        everyStep (Logged.step V cfg) (fun t a _ => ReadsAll V t.world a) as
          (Logged.init N cfg port) :=
  ⟨fun _ h => Logged.books hf h, Logged.dropsExact_iff hf⟩

/-- Two datagrams arrive, the first of them short: both are counted, and nothing is dropped. -/
theorem udp_accounting_arriveRun :
    ∃ t, runActions (Logged.step refUdpView hostCfg) (udpArriveRun [7] ++ [.readUdp])
        (Logged.init refNet hostCfg 49152) = some t ∧ t.world.stats = ⟨0, 0, 2, 0⟩ ∧
      UdpBooks t.world.udpPart t.log ∧
      everyStep (Logged.step refUdpView hostCfg) (fun _ _ u => DropsExact u.world.udpPart u.log)
        (udpArriveRun [7] ++ [.readUdp]) (Logged.init refNet hostCfg 49152) := by
  obtain ⟨hbooks, hexact⟩ := udp_accounting refNet refNet_freshHandles refUdpView hostCfg 49152
  obtain ⟨t, hr, hrun, ht⟩ := reachable_of_run (Logged.step refUdpView hostCfg)
    (udpArriveRun [7] ++ [.readUdp]) (Logged.init refNet hostCfg 49152)
    (fun t => t.world.stats = ⟨0, 0, 2, 0⟩) (by decide +kernel)
  refine ⟨t, hrun, of_decide_eq_true ht, hbooks t hr, (hexact _).mpr ?_⟩
  decide +kernel

/-- An iteration of the loop in which `n` datagrams arrive at a UDP socket. -/
def udpRound (n : Nat) : List (Action RefEvent) :=
  List.replicate n (.udpEvent 0 (.datagram [1] peerEp)) ++
    [.endPoll false, .beginRead [] [0], .readUdp, .endRead, .skipPending, .checkDead, .timeout,
      .beginWrite [] [0], .writeUdp, .endWrite]

/-- Full batches arrive at a socket whose application does not receive. -/
def udpFloodRun : List (Action RefEvent) :=
  [.issue (.udpBind (.v4 0x0a000002 5000) 0), .command, .beginWrite [] [0], .writeUdp, .endWrite] ++
    udpRound 256 ++ udpRound 256 ++ udpRound 1

/-- The state of `udpArriveRun` before the visit, with its history. -/
theorem udpArriveRun_logged (first : Bytes) :
    ∃ t u, Reachable (Logged.step refUdpView hostCfg) (Logged.init refNet hostCfg 49152) u ∧
      t.log = ⟨[], [], [], [], []⟩ ∧ t.world.stats = ⟨0, 0, 0, 0⟩ ∧
      t.world.pumped = some (0, ⟨0⟩, udpReceiver first) ∧ (t.world.udpChans 0).read.room = 512 ∧
      Reach refNet hostCfg 49152 t.world ∧
      Logged.step refUdpView hostCfg .readUdp t = some u := by
  have hrun : (runActions (Logged.step refUdpView hostCfg) (udpArriveRun first)
      (Logged.init refNet hostCfg 49152)).map (fun t => (t.log, t.world.stats, t.world.pumped,
        (t.world.udpChans 0).read.room, (Logged.step refUdpView hostCfg .readUdp t).isSome)) =
      some (⟨[], [], [], [], []⟩, ⟨0, 0, 0, 0⟩, some (0, ⟨0⟩, udpReceiver first), 512, true) := rfl
  obtain ⟨t, ht, heq⟩ := Option.map_eq_some_iff.mp hrun
  simp only [Prod.mk.injEq] at heq
  obtain ⟨hlog, hstats, hp, hroom, hsome⟩ := heq
  obtain ⟨u, hu⟩ := Option.isSome_iff_exists.mp hsome
  have hr := Reachable.run _ ReachVia.start ht
  exact ⟨t, u, .next hr trivial hu, hlog, hstats, hp, hroom, Logged.reach_world hr, hu⟩

/-- A datagram that waits in the receive buffer for the application is counted as dropped, and one
of 9217 bytes is removed without being counted. -/
theorem udp_drops_miscounted :
    (∃ t, Reachable (Logged.step refUdpView hostCfg) (Logged.init refNet hostCfg 49152) t ∧
      t.world.stats = ⟨0, 0, 512, 1⟩ ∧ t.log.removed.length = 512 ∧ t.log.passed.length = 512 ∧
      (udpIn t.world.sockets 0).map (·.rx) = some [([1], peerEp)]) ∧
    ∃ t, Reachable (Logged.step refUdpView hostCfg) (Logged.init refNet hostCfg 49152) t ∧
      t.world.stats = ⟨0, 0, 0, 0⟩ ∧ (t.log.removed.map fun e => e.2.1.length) = [9217] ∧
      t.log.passed = [] := by
  constructor
  · obtain ⟨t, hr, -, ht⟩ := reachable_of_run (Logged.step refUdpView hostCfg) udpFloodRun
      (Logged.init refNet hostCfg 49152)
      (fun t => t.world.stats = ⟨0, 0, 512, 1⟩ ∧ t.log.removed.length = 512 ∧
        t.log.passed.length = 512 ∧ (udpIn t.world.sockets 0).map (·.rx) = some [([1], peerEp)])
      (by decide +kernel)
    exact ⟨t, hr, of_decide_eq_true ht⟩
  · obtain ⟨big, hbig⟩ : ∃ big : Bytes, big.length = 9217 := ⟨_, List.length_replicate (a := 0)⟩
    obtain ⟨t, u, hr, hlog, hstats, hp, hroom, hreach, hu⟩ := udpArriveRun_logged big
    obtain ⟨hw, hrec⟩ := Logged.step_eq_some hu
    obtain ⟨p, hworld⟩ := (Reach.owned refNet_freshHandles hreach).step_readUdp refNet_freshHandles
      hp hw
    have hlong : fitsReadBuf (big, peerEp) = false := by simp [fitsReadBuf, udpReadBufSize, hbig]
    have houts : udpReads 512 (udpReceiver big).rx = [((big, peerEp), false)] := by
      rw [udpReceiver, udpReads, hlong]
      rfl
    have hstall : udpStalls 512 (udpReceiver big).rx = false := by
      rw [udpReceiver, udpStalls, hlong]
      rfl
    have hstat := World.readUdpEntry_stats refUdpView t.world 0 ⟨0⟩ (udpReceiver big)
    rw [UdpLog.record_readUdp refUdpView hp, hlog] at hrec
    simp only [hroom, hstats] at hstat hrec
    change _ = UdpStats.read _ (udpReads 512 (udpReceiver big).rx)
      (udpStalls 512 (udpReceiver big).rx) at hstat
    change u.log = ⟨[], [], ((udpReads 512 (udpReceiver big).rx).map Prod.fst).map (0, ·),
      (delivered (udpReads 512 (udpReceiver big).rx)).map (0, ·), []⟩ at hrec
    rw [houts] at hstat hrec
    rw [hstall] at hstat
    refine ⟨u, hr, ?_, ?_, ?_⟩
    · rw [hworld]
      exact hstat
    · rw [hrec]
      exact congrArg (fun n => [n]) hbig
    · rw [hrec]
      rfl

end TapTunnel.Stack
