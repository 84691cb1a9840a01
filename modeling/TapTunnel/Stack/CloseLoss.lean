import TapTunnel.Stack.HandleSafety
import TapTunnel.Stack.WritePath

namespace TapTunnel.Stack

open Framework Reference

variable {T U E : Type} {N : Smoltcp T U E}

/-- A pass over the queue takes as many bytes as the transmit buffer has room for. -/
theorem pullWrites_accepted (hN : N.SendContract) (rx : Chan Bytes) (q : List Bytes) (s : T)
    (acc : Bytes) : (pullWrites N rx q s acc).accepted.length =
      acc.length + if N.maySend s then min q.flatten.length (N.txFree s) else 0 := by
  induction q generalizing s acc with
  | nil =>
    unfold pullWrites
    split_ifs <;> simp
  | cons data q ih =>
    unfold pullWrites
    by_cases hc : N.canSend s = true
    · have hm := ((hN.canSend_iff s).mp hc).1
      rw [if_pos hc, sendSlice_eq hN hm, if_pos hm]
      simp only
      split_ifs with hn
      · simp only [List.length_append, List.length_take, List.flatten_cons]
        omega
      · rw [ih, if_pos (hN.send_maySend s data hm), hN.send_txFree s data hm]
        simp only [List.length_append, List.length_take, List.flatten_cons]
        omega
    · rw [if_neg hc]
      have hzero : N.maySend s = true → N.txFree s = 0 := fun hm =>
        Nat.eq_zero_of_not_pos (fun hpos => hc ((hN.canSend_iff s).mpr ⟨hm, hpos⟩))
      split_ifs with hm
      · simp [hzero hm]
      · simp

theorem processTcpWrite_accepted (hN : N.SendContract) (s : T) (pending : Option Bytes)
    (rx : Chan Bytes) : (processTcpWrite N s pending rx).accepted.length =
      if N.maySend s then min (pending.getD [] ++ rx.queue.flatten).length (N.txFree s) else 0 := by
  cases pending with
  | none => exact (pullWrites_accepted hN rx rx.queue s []).trans (by simp)
  | some data =>
    unfold processTcpWrite
    by_cases hm : N.maySend s = true
    · simp only [if_pos hm]
      rw [sendSlice_eq hN hm]
      simp only
      split_ifs with hn
      · simp only [Option.getD_some, List.length_append, List.length_take]
        omega
      · rw [pullWrites_accepted hN, if_pos (hN.send_maySend s data hm), hN.send_txFree s data hm]
        simp only [Option.getD_some, List.length_append, List.length_take]
        omega
    · simp [if_neg hm]

/-- The two histories of a channel pair. -/
def TcpChan.history (c : TcpChan) : Bytes × Bytes := (c.written, c.accepted)

theorem history_update {m : ChanId → TcpChan} {k : ChanId} {d : TcpChan}
    (hd : d.history = (m k).history) (ch : ChanId) :
    (Function.update m k d ch).history = (m ch).history := by
  by_cases h : ch = k
  · rw [h, Function.update_self, hd]
  · rw [Function.update_of_ne h]

theorem releaseTcpState_history (o : Option TcpSocketState) (m : ChanId → TcpChan) (ch : ChanId) :
    (releaseTcpState o m ch).history = (m ch).history := by
  cases o with
  | none => rfl
  | some st =>
    refine history_update ?_ ch
    rfl

theorem releaseOp_history (o : Option PendingOp) (m : ChanId → TcpChan) (ch : ChanId) :
    (releaseOp o m ch).history = (m ch).history := by
  unfold releaseOp
  split
  · refine history_update ?_ ch
    rfl
  · rfl

theorem answer_history (w : World T U) (r : ReqId) (rep : Reply) (ch : ChanId) :
    ((w.answer r rep).tcpChans ch).history = (w.tcpChans ch).history := by
  simp only [World.answer, Reply.releaseTcp]
  split_ifs
  · split
    · refine history_update ?_ ch
      rfl
    · rfl
  · rfl

/-- The entry of `k` is not replaced by another one, and the histories of existing channel
pairs stand still. -/
structure StreamStillAt (k : SocketHandle) (Ts Ts' : HandleMap TcpSocketState)
    (m m' : ChanId → TcpChan) (next next' : ChanId) : Prop where
  entry : ∀ st, Ts'.lookup k = some st → Ts.lookup k = some st
  history : ∀ ch, ch < next → (m' ch).history = (m ch).history
  next : next ≤ next'

def StreamStill (k : SocketHandle) (w w' : World T U) : Prop :=
  StreamStillAt k w.tcpStates w'.tcpStates w.tcpChans w'.tcpChans w.nextChan w'.nextChan

namespace StreamStill

variable {u v w : World T U} {k : SocketHandle}

theorem refl (k : SocketHandle) (w : World T U) : StreamStill k w w :=
  ⟨fun _ => id, fun _ _ => rfl, Nat.le_refl _⟩

theorem trans (h1 : StreamStill k u v) (h2 : StreamStill k v w) : StreamStill k u w :=
  ⟨fun st hst => h1.entry st (h2.entry st hst),
    fun ch hch => (h2.history ch (Nat.lt_of_lt_of_le hch h1.next)).trans (h1.history ch hch),
    Nat.le_trans h1.next h2.next⟩

theorem answer (w : World T U) (r : ReqId) (rep : Reply) : StreamStill k w (w.answer r rep) :=
  ⟨fun _ => id, fun ch _ => answer_history w r rep ch, Nat.le_refl _⟩

theorem removeTcpState (w : World T U) (x : SocketHandle) :
    StreamStill k w (w.removeTcpState x) :=
  ⟨fun _ hst => (Table.erase_cases hst).2, fun ch _ => releaseTcpState_history _ _ ch,
    Nat.le_refl _⟩

/-- A new entry under another handle, on a new channel pair. -/
theorem newEntry (w : World T U) {x : SocketHandle} (hx : x ≠ k) :
    StreamStill k w (w.createTcpChannels.insertTcpState x ⟨w.nextChan, none⟩) := by
  refine ⟨?_, fun ch hch => ?_, Nat.le_succ _⟩
  · intro st hst
    rcases Table.insert_cases hst with ⟨he, -⟩ | ⟨-, hst⟩
    · exact absurd he.symm hx
    · exact hst
  · refine (releaseTcpState_history _ _ ch).trans ?_
    change (Function.update w.tcpChans w.nextChan .new ch).history = _
    rw [Function.update_of_ne (Nat.ne_of_lt hch)]

theorem insertPending (w : World T U) (x : SocketHandle) (op : PendingOp) :
    StreamStill k w (w.insertPending x op) :=
  ⟨fun _ => id, fun ch _ => releaseOp_history _ _ ch, Nat.le_refl _⟩

theorem dropPending (w : World T U) (x : SocketHandle) : StreamStill k w (w.dropPending x) :=
  ⟨fun _ => id, fun ch _ => releaseOp_history _ _ ch, Nat.le_refl _⟩

theorem replaceListening (w : World T U) (key : SocketHandle) (addr : SocketAddr)
    (rest : List SocketHandle) : StreamStill k w (w.replaceListening N key addr rest) := by
  unfold World.replaceListening
  split <;> exact refl k w

theorem deliverAccepted (w : World T U) {x : SocketHandle} (hx : x ≠ k) (la pa : SocketAddr)
    (r : ReqId) : StreamStill k w (w.deliverAccepted x la pa r) :=
  (newEntry w hx).trans (answer _ r _)

/-- An effect moves no stream of the application, except by closing it. -/
theorem effect {c : Option StackCommand} (ho : Owned v) (h : v.HasStream k)
    (he : Effect N c v w) : StreamStill k v w := by
  cases he with
  | reject m port ips rep hr hm hb =>
    exact answer { v with sockets := m, ephemeralPort := port, ipAddrs := ips } _ rep
  | connect x s port la hx =>
    have hne : x ≠ k := fun he => (ho.unused hx).2.2.2.1 (he ▸ h)
    have h1 := newEntry (World.setTcp { v with ephemeralPort := port } x s) hne
    exact h1.trans (insertPending _ _ _)
  | listen m hs primary hp hlen hnd hport hold hnew hrest =>
    exact ⟨fun _ => id, fun ch _ => answer_history _ _ _ ch, Nat.le_refl _⟩
  | accept l x rest s la pa hl hx hs hest =>
    have hne : x ≠ k := fun he =>
      ho.apart.stream _ l hl x (hx.mem_iff.mp List.mem_cons_self) (he ▸ h)
    exact (replaceListening v _ l.addr rest).trans (deliverAccepted _ hne la pa _)
  | wait l hl hnone => exact insertPending v _ _
  | listenerGone hl => exact dropPending v _
  | listenerClose l m hl hout hin => exact dropPending v _
  | tcpClose s hs => exact removeTcpState (v.setTcp _ _) _
  | udpBind x s port addr hx =>
    exact ⟨fun _ => id, fun ch _ => answer_history _ _ _ ch, Nat.le_succ _⟩
  | udpClose s hs => exact refl k v
  | connected la pa ch r hp => exact answer (v.takePending _) r _
  | connectDead la pa ch r e hp =>
    exact ((dropPending v _).trans (removeTcpState _ _)).trans (answer _ r _)
  | acceptPending r l x rest s la pa hp hl hx hs hest =>
    rename_i key
    have hne : x ≠ k := fun he =>
      ho.apart.stream key l hl x (hx.mem_iff.mp List.mem_cons_self) (he ▸ h)
    exact (replaceListening v key l.addr rest).trans
      (deliverAccepted ((v.replaceListening N key l.addr rest).takePending key) hne la pa r)

theorem effects (hf : N.FreshHandles) (ho : Owned v) (h : v.HasStream k)
    (he : Relation.ReflTransGen (Effect N none) v w) : StreamStill k v w := by
  induction he with
  | refl => exact refl k v
  | tail hpath he ih =>
    exact ih.trans (effect (ho.effects hf hpath) (Gave.mono (Effect.answers_path hpath) h) he)

theorem failPending (w : World T U) : StreamStill k w w.failPending :=
  World.failOps_rule (StreamStill k w) _ (refl k w)
    (fun v x r _ hv => (hv.trans (dropPending v x)).trans (answer _ r _))

end StreamStill

/-- The step is a pass of `process_tcp_write` over entry `k` whose socket can send and has room
for the stream up to position `n`. -/
def PassCovers (N : Smoltcp T U E) (k : SocketHandle) (n : Nat) (w : World T U)
    (a : Action E) : Prop :=
  a = .writeTcp ∧ ∃ tcp udp st s, w.phase = .write (k::tcp) udp ∧
    w.tcpStates.lookup k = some st ∧ w.sockets.lookup k = some (.tcp s) ∧
    N.maySend s = true ∧ n ≤ (w.tcpChans st.chan).accepted.length + N.txFree s

theorem PassCovers.writesEntry {k : SocketHandle} {n : Nat} {w : World T U} {a : Action E}
    (h : PassCovers N k n w a) : w.WritesEntry a := by
  obtain ⟨ha, tcp, udp, st, s, hph, hst, -⟩ := h
  exact ⟨ha, k, tcp, udp, st, hph, hst⟩

/-- How one step moves the stream of entry `k`: what was written stays, and position `n` is
accepted afterwards if it was before or the step is a pass that covers it. -/
structure StreamStep (N : Smoltcp T U E) (k : SocketHandle) (w w' : World T U) (a : Action E)
    (ch : ChanId) : Prop where
  written : (w.tcpChans ch).written <+: (w'.tcpChans ch).written
  accepted : ∀ n, n ≤ (w.tcpChans ch).written.length →
    (n ≤ (w'.tcpChans ch).accepted.length ↔
      n ≤ (w.tcpChans ch).accepted.length ∨ PassCovers N k n w a)

section Step

variable {k : SocketHandle} {w w' : World T U} {a : Action E}

theorem StreamStep.of_still (hs : EntriesOf StreamKept w) (h : StreamStill k w w')
    (ha : ¬w.WritesEntry a) {st : TcpSocketState} (hst : w'.tcpStates.lookup k = some st) :
    ∃ st0, w.tcpStates.lookup k = some st0 ∧ st0.chan = st.chan ∧
      StreamStep N k w w' a st.chan := by
  have hst0 := h.entry st hst
  have hh := h.history st.chan (hs.lt k st hst0)
  refine ⟨st, hst0, rfl, ?_, fun n _ => ?_⟩
  · rw [show (w'.tcpChans st.chan).written = (w.tcpChans st.chan).written from
      congrArg Prod.fst hh]
  · rw [show (w'.tcpChans st.chan).accepted = (w.tcpChans st.chan).accepted from
      congrArg Prod.snd hh]
    exact ⟨.inl, fun hn => hn.elim id (fun hc => absurd hc.writesEntry ha)⟩

theorem StreamStep.of_env (he : w.envStep a = some w') {st : TcpSocketState}
    (hst : w'.tcpStates.lookup k = some st) :
    ∃ st0, w.tcpStates.lookup k = some st0 ∧ st0.chan = st.chan ∧
      StreamStep N k w w' a st.chan := by
  have hf := World.envStep_frame he
  have ha : ¬w.WritesEntry a := by
    rintro ⟨rfl, -⟩
    cases he
  refine ⟨st, by rwa [hf.tcpStates] at hst, rfl, ?_, fun n _ => ?_⟩
  · rcases (hf.chans st.chan).write with ⟨-, hw⟩ | ⟨buf, -, hw⟩
    · rw [hw]
    · exact ⟨buf, hw.symm⟩
  · rw [(hf.chans st.chan).accepted]
    exact ⟨.inl, fun hn => hn.elim id (fun hc => absurd hc.writesEntry ha)⟩

/-- The pass over entry `k` itself: it takes as much as there is room for. -/
theorem StreamStep.of_pass (hN : N.SendContract) (hs : EntriesOf StreamKept w)
    {tcp udp : List SocketHandle} {st : TcpSocketState} {s : T}
    (hph : w.phase = .write (k::tcp) udp) (hst : w.tcpStates.lookup k = some st)
    (hsock : w.sockets.lookup k = some (.tcp s)) :
    StreamStep N k w { w.writeTcpEntry N k st s with phase := .write tcp udp } .writeTcp
      st.chan := by
  have hkept := (hs.good k st hst).1
  have hcov : ∀ n, PassCovers N k n w .writeTcp ↔
      N.maySend s = true ∧ n ≤ (w.tcpChans st.chan).accepted.length + N.txFree s := by
    intro n
    refine ⟨?_, fun hm => ⟨rfl, tcp, udp, st, s, hph, hst, hsock, hm⟩⟩
    rintro ⟨-, -, -, st', s', -, hst', hs', hm⟩
    obtain rfl : st = st' := Option.some.inj (hst.symm.trans hst')
    obtain rfl : s = s' := by simpa [hsock] using hs'
    exact hm
  refine ⟨?_, fun n hn => ?_⟩
  · simp [World.writeTcpEntry]
  · rw [hcov]
    have hlen := processTcpWrite_accepted hN s st.pendingWrite (w.tcpChans st.chan).write
    have hw := congrArg List.length hkept
    rw [List.length_append] at hw
    simp only [World.writeTcpEntry, Function.update_self, List.length_append]
    rw [List.length_append] at hlen hw
    by_cases hm : N.maySend s = true
    · rw [if_pos hm] at hlen
      simp only [hm, true_and]
      omega
    · rw [if_neg hm] at hlen
      rw [or_iff_left (fun hc => hm hc.1)]
      omega

theorem StreamStep.of_transition (hf : N.FreshHandles) (hN : N.SendContract) (ho : Owned w)
    (hs : EntriesOf StreamKept w) (h : w.HasStream k) (ht : Transition N a w w')
    {st : TcpSocketState} (hst : w'.tcpStates.lookup k = some st) :
    ∃ st0, w.tcpStates.lookup k = some st0 ∧ st0.chan = st.chan ∧
      StreamStep N k w w' a st.chan := by
  cases ht with
  | env he => exact of_env he hst
  | control p notify hp hw =>
    refine of_still hs ?_ hw hst
    exact StreamStill.refl k w
  | command cmd rest hph hq he =>
    have hstill := StreamStill.effect (ho.popCommand hq _) h he
    refine of_still hs ?_ ?_ hst
    · exact hstill
    · exact (nomatch ·.1)
  | writeTcp x tcp udp st1 s hph hst1 hsock =>
    by_cases hx : x = k
    · subst hx
      have hchan : st.chan = st1.chan := by
        rcases Table.insert_cases hst with ⟨-, rfl⟩ | ⟨hne, -⟩
        · rfl
        · exact absurd rfl hne
      rw [hchan]
      exact ⟨st1, hst1, rfl, of_pass hN hs hph hst1 hsock⟩
    · rcases Table.insert_cases hst with ⟨he, -⟩ | ⟨-, hst⟩
      · exact absurd he.symm hx
      have hch : st.chan ≠ st1.chan := fun he => hx (hs.inj k x st st1 hst hst1 he).symm
      refine ⟨st, hst, rfl, ?_, fun n _ => ?_⟩
      · simp [World.writeTcpEntry, Function.update_of_ne hch]
      · simp only [World.writeTcpEntry, Function.update_of_ne hch]
        refine ⟨.inl, fun hn => hn.elim id ?_⟩
        rintro ⟨-, tcp', udp', -, -, hph', -⟩
        rw [hph] at hph'
        cases hph'
        exact absurd rfl hx
  | readTcp x tcp udp changed st1 s hst1 hsock =>
    have hstill : StreamStill k w (w.readTcpEntry N x st1 s) :=
      ⟨fun _ => id, fun ch _ => history_update (by rfl) ch, Nat.le_refl _⟩
    refine of_still hs ?_ ?_ hst
    · exact hstill
    · exact (nomatch ·.1)
  | pending order he =>
    have hstill := StreamStill.effects hf ho h he
    refine of_still hs ?_ ?_ hst
    · exact hstill
    · exact (nomatch ·.1)
  | fail =>
    refine of_still hs ?_ ?_ hst
    · exact StreamStill.failPending w
    · exact (nomatch ·.1)
  | writeUdp | tcpEvent | udpEvent | readUdp =>
    refine of_still hs ?_ ?_ hst
    · exact StreamStill.refl k w
    · exact (nomatch ·.1)

end Step

/-- Over a run that ends with the entry of stream `k` still there, position `n` of the stream is
accepted at the end exactly if it was at the start or some pass of the run covers it. -/
theorem run_accepted_iff (hf : N.FreshHandles) (hN : N.SendContract) {cfg : StackConfig}
    {port : UInt16} {k : SocketHandle} {st : TcpSocketState} {w w' : World T U}
    (as : List (Action E)) (hr : Reach N cfg port w) (h : w.HasStream k)
    (hrun : runActions (World.step N cfg) as w = some w')
    (hst : w'.tcpStates.lookup k = some st) :
    (w.tcpChans st.chan).written <+: (w'.tcpChans st.chan).written ∧
    ∀ n, n ≤ (w.tcpChans st.chan).written.length →
      (n ≤ (w'.tcpChans st.chan).accepted.length ↔
        n ≤ (w.tcpChans st.chan).accepted.length ∨
        runMeets (World.step N cfg) (PassCovers N k n) as w) := by
  -- the entry at the end determines the entry, and so the channel pair, in every state before
  suffices ∃ st0, w.tcpStates.lookup k = some st0 ∧ st0.chan = st.chan ∧
      (w.tcpChans st.chan).written <+: (w'.tcpChans st.chan).written ∧
      ∀ n, n ≤ (w.tcpChans st.chan).written.length →
        (n ≤ (w'.tcpChans st.chan).accepted.length ↔
          n ≤ (w.tcpChans st.chan).accepted.length ∨
          runMeets (World.step N cfg) (PassCovers N k n) as w) by
    obtain ⟨-, -, -, hres⟩ := this
    exact hres
  induction as generalizing w with
  | nil =>
    obtain rfl : w = w' := by simpa using hrun
    exact ⟨st, hst, rfl, List.prefix_refl _, fun n _ => by simp [runMeets]⟩
  | cons a as ih =>
    obtain ⟨u, hu, hrest⟩ := (runActions_cons_eq_some _).mp hrun
    have ho := Reach.owned hf hr
    have hs := Reach.entries hf (streamKept_rule hN) hr
    have ht := ho.step_transition hf hu
    have hru : Reach N cfg port u := ReachVia.next hr trivial hu
    have hstream : u.HasStream k := Gave.mono ht.answers h
    obtain ⟨st1, hst1, hch1, hw1, hacc1⟩ := ih hru hstream hrest
    obtain ⟨st0, hst0, hch0, hstep⟩ := StreamStep.of_transition hf hN ho hs h ht hst1
    rw [hch1] at hch0 hstep
    refine ⟨st0, hst0, hch0, hstep.written.trans hw1, fun n hn => ?_⟩
    rw [hacc1 n (hn.trans hstep.written.length_le), hstep.accepted n hn,
      runMeets_cons _ hu, or_assoc]

/-- The stack takes the command that closes stream `k` and handles it. -/
def HandlesClose (N : Smoltcp T U E) (cfg : StackConfig) (k : SocketHandle) (w w' : World T U) :
    Prop :=
  w.commands.queue.head? = some (.tcpClose k) ∧ World.step N cfg .command w = some w'

theorem HandlesClose.still (hf : N.FreshHandles) {cfg : StackConfig} {k : SocketHandle}
    {w w' : World T U} (ho : Owned w) (h : w.HasStream k) (hc : HandlesClose N cfg k w w') :
    StreamStill k w w' := by
  cases ho.step_transition hf hc.2 with
  | env he => cases he
  | control p notify hp hw => exact StreamStill.refl k w
  | command cmd rest hph hq he =>
    have hstill := StreamStill.effect (ho.popCommand hq _) h he
    exact hstill

theorem Owned.stream_of_closing {cfg : StackConfig} {k : SocketHandle} {w w' : World T U}
    (h : Owned w) (hc : HandlesClose N cfg k w w') : w.HasStream k :=
  h.queue _ (List.mem_of_head? hc.1)

/-- When a stream is closed in `w1` and the stack handles that in `w3`, everything written by
then has reached the socket exactly if it already had in `w1`, or one of the passes in between
found room for all of it. -/
theorem close_keeps_written_iff (N : Smoltcp T U E) (hf : N.FreshHandles) (hN : N.SendContract)
    (cfg : StackConfig) (port : UInt16) (k : SocketHandle) (w1 w2 w3 w4 : World T U)
    (as : List (Action E)) (st : TcpSocketState) (hr : Reach N cfg port w1)
    (hissue : World.step N cfg (.issue (.tcpClose k)) w1 = some w2)
    (hrun : runActions (World.step N cfg) as w2 = some w3)
    (hst : w3.tcpStates.lookup k = some st) (hclose : HandlesClose N cfg k w3 w4) :
    (w1.tcpChans st.chan).written <+: (w4.tcpChans st.chan).accepted ↔
      (w1.tcpChans st.chan).written.length ≤ (w1.tcpChans st.chan).accepted.length ∨
      runMeets (World.step N cfg) (PassCovers N k (w1.tcpChans st.chan).written.length) as w2 := by
  have hr2 : Reach N cfg port w2 := ReachVia.next hr trivial hissue
  obtain ⟨hstream, n, rfl⟩ := World.envStep_issue (World.step_issue hissue)
  have hr3 : Reach N cfg port w3 := Reachable.run _ hr2 hrun
  have hs3 := Reach.entries hf (streamKept_rule hN) hr3
  have ho3 := Reach.owned hf hr3
  obtain ⟨hw, hacc⟩ := run_accepted_iff hf hN as hr2 hstream hrun hst
  have hstill := (hclose.still hf ho3 (ho3.stream_of_closing hclose)).history st.chan
    (hs3.lt k st hst)
  have hacc4 : (w4.tcpChans st.chan).accepted = (w3.tcpChans st.chan).accepted :=
    congrArg Prod.snd hstill
  have hpre : (w3.tcpChans st.chan).accepted <+: (w3.tcpChans st.chan).written :=
    ⟨_, (hs3.good k st hst).1⟩
  rw [hacc4, ← hacc _ (Nat.le_refl _)]
  exact ⟨fun h => h.length_le, fun h => List.prefix_of_prefix_length_le hw hpre h⟩

/-- A stream is accepted and used in `pre`, then closed, and the close is handled after `as`. -/
def closeRun (pre as : List (Action RefEvent)) :
    Option (World RefTcp RefUdp × World RefTcp RefUdp × World RefTcp RefUdp ×
      World RefTcp RefUdp × TcpSocketState) := do
  let w1 ← runActions (World.step refNet hostCfg) pre (World.init refNet hostCfg 49152)
  let w2 ← World.step refNet hostCfg (.issue (.tcpClose 0)) w1
  let w3 ← runActions (World.step refNet hostCfg) as w2
  let w4 ← World.step refNet hostCfg .command w3
  let st ← w3.tcpStates.lookup 0
  return (w1, w2, w3, w4, st)

theorem closeRun_spec {pre as : List (Action RefEvent)} {w1 w2 w3 w4 : World RefTcp RefUdp}
    {st : TcpSocketState} (h : closeRun pre as = some (w1, w2, w3, w4, st)) :
    Reach refNet hostCfg 49152 w1 ∧
    World.step refNet hostCfg (.issue (.tcpClose 0)) w1 = some w2 ∧
    runActions (World.step refNet hostCfg) as w2 = some w3 ∧
    World.step refNet hostCfg .command w3 = some w4 ∧ w3.tcpStates.lookup 0 = some st := by
  simp only [closeRun, bind, Option.bind_eq_some_iff, pure, Option.some.injEq,
    Prod.mk.injEq] at h
  obtain ⟨v1, h1, v2, h2, v3, h3, v4, h4, st', h5, rfl, rfl, rfl, rfl, rfl⟩ := h
  exact ⟨Reachable.run _ .start h1, h2, h3, h4, h5⟩

/-- The close is sent while the write passes of an iteration are still to come. -/
theorem close_keeps_written_iff_late :
    ∃ (w1 w2 w3 w4 : World RefTcp RefUdp) (as : List (Action RefEvent)) (st : TcpSocketState),
      Reach refNet hostCfg 49152 w1 ∧
      runActions (World.step refNet hostCfg) as w2 = some w3 ∧
      HandlesClose refNet hostCfg 0 w3 w4 ∧ (w1.tcpChans st.chan).written = [1] ∧
      runMeets (World.step refNet hostCfg) (PassCovers refNet 0 1) as w2 := by
  have hrun : (closeRun (acceptRun ++ [.streamWrite 0 [1], .notified])
      (iteration [0] [] none)).map (fun (w1, _, w3, w4, st) => decide
        (w3.commands.queue.head? = some (.tcpClose 0) ∧ (w1.tcpChans st.chan).written = [1] ∧
          (w1.tcpChans st.chan).accepted = [] ∧ (w4.tcpChans st.chan).accepted = [1])) =
      some true := by decide +kernel
  obtain ⟨⟨w1, w2, w3, w4, st⟩, hc, hp⟩ := Option.map_eq_some_iff.mp hrun
  obtain ⟨hr, hissue, hgo, hcmd, hst⟩ := closeRun_spec hc
  obtain ⟨hhead, hw, ha1, ha4⟩ := of_decide_eq_true hp
  have hiff := close_keeps_written_iff refNet refNet_freshHandles refNet_sendContract hostCfg 49152
    0 w1 w2 w3 w4 _ st hr hissue hgo hst ⟨hhead, hcmd⟩
  rw [hw, ha1, ha4] at hiff
  refine ⟨w1, w2, w3, w4, _, st, hr, hgo, ⟨hhead, hcmd⟩, hw, ?_⟩
  exact (hiff.mp (List.prefix_refl _)).resolve_left (by decide)

/-- One byte is written and the stream closed before the stack runs again: the select takes the
close first, and the byte never reaches the socket. -/
theorem close_loses_written :
    ∃ (w1 w2 w3 : World RefTcp RefUdp) (st : TcpSocketState), Reach refNet hostCfg 49152 w1 ∧
      World.step refNet hostCfg (.issue (.tcpClose 0)) w1 = some w2 ∧
      HandlesClose refNet hostCfg 0 w2 w3 ∧ w2.tcpStates.lookup 0 = some st ∧
      (w1.tcpChans st.chan).written = [1] ∧ (w3.tcpChans st.chan).accepted = [] := by
  have hrun : (closeRun (acceptRun ++ [.streamWrite 0 [1]]) []).map (fun (w1, _, w3, w4, st) =>
      decide (w3.commands.queue.head? = some (.tcpClose 0) ∧
        (w1.tcpChans st.chan).written = [1] ∧ (w4.tcpChans st.chan).accepted = [])) =
      some true := by decide +kernel
  obtain ⟨⟨w1, w2, w3, w4, st⟩, hc, hp⟩ := Option.map_eq_some_iff.mp hrun
  obtain ⟨hr, hissue, hgo, hcmd, hst⟩ := closeRun_spec hc
  obtain ⟨hhead, hw, ha⟩ := of_decide_eq_true hp
  obtain rfl : w2 = w3 := by simpa using hgo
  exact ⟨w1, w2, w4, st, hr, hissue, ⟨hhead, hcmd⟩, hst, hw, ha⟩

end TapTunnel.Stack
