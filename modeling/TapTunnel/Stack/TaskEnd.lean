import TapTunnel.Framework.Holders
import TapTunnel.Socket.Drain
import TapTunnel.Stack.HandleSafety
import TapTunnel.Stack.TcpPart
import TapTunnel.Stack.UdpPart

namespace TapTunnel.Stack

open Framework Reference

variable {T U E : Type} {N : Smoltcp T U E}

/-- Dropping the local variables of `run_stack`, when it returns, panics or is aborted: its receiver
of commands with the commands in it, the pending operations, and the channel ends of all sockets. -/
def World.dropLocals (w : World T U) : World T U :=
  { w with
    commands := w.commands.dropRx
    pending := ∅
    tcpStates := ∅
    udpStates := ∅
    tcpChans := w.tcpStates.entries.foldl (fun m e => releaseTcpState (some e.2) m)
      (w.pending.entries.foldl (fun m e => releaseOp (some e.2) m) w.tcpChans)
    udpChans := w.udpStates.entries.foldl (fun m e => releaseUdpState (some e.2) m) w.udpChans }

/-- Poll of an API call that waits for the answer to its command. -/
inductive CallPoll
  | pending
  | ready (rep : Reply)
  | err (e : IoError)

def stackTaskGone : IoError := ⟨.brokenPipe, "stack task gone"⟩

/-- `rx.await` of a call. A sender that is gone without an answer is an error. -/
def World.await (w : World T U) (r : ReqId) : CallPoll :=
  match w.answers.find? (fun p => p.1 == r) with
  | some p => .ready p.2
  | none =>
    if (∃ cmd ∈ w.commands.queue, cmd.response = some r) ∨ w.Stored r then .pending
    else .err stackTaskGone

/-- `commands.send(..).await` of a call; `none` while the channel is full. -/
def World.sendCommand (w : World T U) (cmd : StackCommand) : Option (Except IoError (World T U)) :=
  match w.commands.trySend cmd with
  | .ok q => some (.ok { w with commands := q })
  | .error .full => none
  | .error .closed => some (.error stackTaskGone)

section Tcp

/-- The stack holds an end of the channel pair. -/
def TcpChan.Attended (c : TcpChan) : Prop := c.read.txAlive = true ∨ c.write.rxAlive = true

theorem TcpChan.not_attended {c : TcpChan} (h : ¬c.Attended) :
    c.read.txAlive = false ∧ c.write.rxAlive = false := by
  simpa [Attended] using h

theorem TcpChan.dropStackEnds_not_attended (c : TcpChan) : ¬c.dropStackEnds.Attended := by
  simp [Attended, dropStackEnds, Chan.dropTx, Chan.dropRx]

/-- No chunk that waits for the reader is empty. -/
def TcpChan.Solid (c : TcpChan) : Prop := ∀ chunk ∈ c.read.queue, chunk ≠ []

/-- No operation of the application brings the stack's ends back. -/
theorem AppMove.attended {c d : TcpChan} (h : AppMove c d) (hd : d.Attended) : c.Attended := by
  cases h with
  | write buf tx hs =>
    obtain ⟨-, -, rfl⟩ := Chan.trySend_ok hs
    exact hd
  | read len =>
    have hframe := TcpStream.read_frame len c
    unfold TcpChan.Attended at hd ⊢
    rw [hframe.1, hframe.2.2.2] at hd
    exact hd
  | dropWriteTx | dropReadRx | dropAppEnds => exact hd

theorem AppMove.solid {c d : TcpChan} (h : AppMove c d) (hc : c.Solid) : d.Solid := by
  cases h with
  | write | dropWriteTx => exact hc
  | read len =>
    intro chunk hchunk
    exact hc chunk ((TcpStream.read_queue len c).1.subset hchunk)
  | dropReadRx | dropAppEnds => simp [TcpChan.Solid, TcpChan.dropAppEnds, Chan.dropRx]

theorem releaseTcpState_eq (old : Option TcpSocketState) (m : ChanId → TcpChan) :
    releaseTcpState old m = release TcpSocketState.chan TcpChan.dropStackEnds old m := by
  cases old <;> rfl

/-- Every stream of the application whose other ends exist has an entry of `tcp_states` that holds
them. -/
structure EndsHeld (p : TcpPart) : Prop extends p.Created where
  held : LiveHeld TcpSocketState.chan TcpChan.Attended p.given p.states p.chans
  solid : ∀ ch, (p.chans ch).Solid

namespace EndsHeld

variable {p q : TcpPart}

theorem empty : EndsHeld .empty where
  toCreated := .empty
  held ch hg := hg.elim
  solid ch := by simp [TcpPart.empty, TcpChan.Solid, TcpChan.new]

theorem solid_release {m : ChanId → TcpChan} (h : ∀ ch, (m ch).Solid) (old : Option TcpSocketState)
    (ch : ChanId) : (releaseTcpState old m ch).Solid := by
  rw [releaseTcpState_eq]
  have hdrop : ∀ c : TcpChan, c.Solid → c.dropStackEnds.Solid := fun c hc => hc
  exact release_rule _ _ (P := fun c d => c.Solid → d.Solid) (fun _ => id) hdrop old m ch (h ch)

/-- Step lemma. -/
theorem move (h : EndsHeld p) (hm : TcpMove N p q) : EndsHeld q := by
  have hcreated := h.toCreated.move hm
  cases hm with
  | @app ch c hc =>
    exact ⟨hcreated, h.held.touch hc.attended, forall_update h.solid (hc.solid (h.solid ch)) ch⟩
  | name => exact ⟨hcreated, h.held, h.solid⟩
  | create k =>
    have hnew : ¬p.given p.next := fun hg => Nat.lt_irrefl _ (h.given _ hg)
    refine ⟨hcreated, ?_, ?_⟩
    · have hheld := h.held.insert TcpChan.dropStackEnds_not_attended k ⟨p.next, none⟩ hnew .new
      dsimp only
      rw [releaseTcpState_eq]
      exact hheld
    · apply solid_release
      exact forall_update h.solid (by simp [TcpChan.Solid, TcpChan.new]) p.next
  | remove k =>
    refine ⟨hcreated, ?_, solid_release h.solid _⟩
    have hheld := h.held.erase TcpChan.dropStackEnds_not_attended k
    dsimp only
    rw [releaseTcpState_eq]
    exact hheld
  | @write k st hk s =>
    obtain ⟨rest, -, hrx⟩ := processTcpWrite_takes (N := N) s st.pendingWrite
      (p.chans st.chan).write
    refine ⟨hcreated, ?_, ?_⟩
    · have hset := h.held.rewrite hk { st with
        pendingWrite :=
          (processTcpWrite N s st.pendingWrite (p.chans st.chan).write).pendingWrite } rfl
      refine hset.touch fun ha => ?_
      rw [hrx] at ha
      exact ha
    · apply forall_update h.solid
      exact h.solid st.chan
  | @read k st hk s =>
    obtain ⟨new, hnew, hall, -⟩ := processTcpRead_chunks (N := N) (· ≠ [])
      (fun _ data _ _ _ hlen => List.ne_nil_of_length_pos hlen) s (p.chans st.chan).read
    refine ⟨hcreated, ?_, forall_update h.solid ?_ st.chan⟩
    · apply h.held.touch
      intro ha
      rw [hnew] at ha
      exact ha
    · unfold TcpChan.Solid
      rw [hnew]
      intro chunk hc
      rcases List.mem_append.mp hc with hc | hc
      · exact h.solid st.chan chunk hc
      · exact hall chunk hc
  | give hk => exact ⟨hcreated, h.held.use hk, h.solid⟩

end EndsHeld

/-- Dropping pending operations concerns the channel pairs of the connects among them. -/
theorem releaseOp_all (entries : List ((_ : SocketHandle) × PendingOp)) (m : ChanId → TcpChan)
    (ch : ChanId) :
    let m' := entries.foldl (fun m e => releaseOp (some e.2) m) m
    ((m' ch).Attended → (m ch).Attended) ∧ ((m ch).Solid → (m' ch).Solid) ∧
      ((∀ e ∈ entries, ¬e.2.connectsOn ch) → m' ch = m ch) := by
  induction entries generalizing m with
  | nil => simp
  | cons e entries ih =>
    have hrest := ih (releaseOp (some e.2) m)
    have hone : releaseOp (some e.2) m ch = m ch ∨
        releaseOp (some e.2) m ch = (m ch).dropAppEnds ∧ e.2.connectsOn ch := by
      rcases e with ⟨k, ⟨la, pa, ch', r⟩ | r⟩
      · by_cases h : ch = ch'
        · subst h
          exact .inr ⟨Function.update_self .., la, pa, r, rfl⟩
        · exact .inl (Function.update_of_ne h _ _)
      · exact .inl rfl
    dsimp only [List.foldl_cons] at hrest ⊢
    rcases hone with he | ⟨he, hch⟩
    · rw [he] at hrest
      refine ⟨hrest.1, hrest.2.1, fun hno => hrest.2.2 fun e' he' => hno e' ?_⟩
      exact List.mem_cons_of_mem _ he'
    · rw [he] at hrest
      refine ⟨hrest.1, fun hc => hrest.2.1 (AppMove.dropAppEnds.solid hc), fun hno => ?_⟩
      exact absurd hch (hno e List.mem_cons_self)

end Tcp

section Udp

def UdpChan.Attended (c : UdpChan) : Prop := c.read.txAlive = true ∨ c.write.rxAlive = true

theorem UdpChan.not_attended {c : UdpChan} (h : ¬c.Attended) :
    c.read.txAlive = false ∧ c.write.rxAlive = false := by
  simpa [Attended] using h

theorem UdpChan.dropStackEnds_not_attended (c : UdpChan) : ¬c.dropStackEnds.Attended := by
  simp [Attended, dropStackEnds, Chan.dropTx, Chan.dropRx]

theorem releaseUdpState_eq (old : Option UdpSocketState) (m : ChanId → UdpChan) :
    releaseUdpState old m = release UdpSocketState.chan UdpChan.dropStackEnds old m := by
  cases old <;> rfl

/-- The same for UDP sockets. -/
def UdpEndsHeld (p : UdpPart U) : Prop :=
  LiveHeld UdpSocketState.chan UdpChan.Attended p.given p.states p.chans

theorem UdpEndsHeld.move {w : World T U} {a : Action E} {p : UdpPart U} (ho : UdpOwn w.udpPart)
    (h : UdpEndsHeld w.udpPart) (hm : UdpMove N w a p) : UdpEndsHeld p := by
  cases hm with
  | still | event => exact h
  | send ch buf addr tx hg hc =>
    obtain ⟨-, -, rfl⟩ := Chan.trySend_ok hc
    exact LiveHeld.touch h id
  | recv ch d rx hg hc =>
    apply LiveHeld.touch h
    intro ha
    unfold UdpChan.Attended at ha
    rw [(Chan.tryRecv_ok hc).2.1] at ha
    exact ha
  | drop ch hg => exact LiveHeld.touch h id
  | bind k s addr c hk hst hs hc =>
    have hnew : ¬w.HasUdpChan w.nextChan := fun hg => Nat.lt_irrefl _ (ho.given _ hg)
    have hheld := LiveHeld.insert UdpChan.dropStackEnds_not_attended h k ⟨w.nextChan⟩ hnew c
    have hnone : w.udpPart.states.lookup k = none := hst
    rw [hnone] at hheld
    exact hheld.use (AList.lookup_insert _)
  | close k s hs =>
    have hheld := LiveHeld.erase UdpChan.dropStackEnds_not_attended h k
    unfold UdpEndsHeld
    rw [releaseUdpState_eq]
    exact hheld
  | write k st s hst hs hp =>
    obtain ⟨rest, hrx, -⟩ := processUdpWrite_books (N := N) (w.udpChans st.chan).write
      (w.udpChans st.chan).write.queue s w.stats
    rw [World.writeUdpEntry_part]
    apply LiveHeld.touch h
    intro ha
    rw [hrx] at ha
    exact ha
  | read k st s hst hs hp =>
    obtain ⟨new, hnew, -⟩ := processUdpRead_got (N := N) (fun _ => True) (by simp)
      (w.udpChans st.chan).read (w.udpChans st.chan).read.room s [] w.stats
    rw [World.readUdpEntry_part]
    apply LiveHeld.touch h
    intro ha
    rw [hnew] at ha
    exact ha

end Udp

/-- Steps of the application once there is no stack task any more. -/
def World.appStep (a : Action E) (w : World T U) : Option (World T U) := w.envStep a

/-- What the end of the task means for the application: no command can be sent or is still waiting,
the other ends of all its channels are gone, and the answers are the ones there were. -/
structure Ended (w v : World T U) : Prop where
  refused : v.commands.rxAlive = false
  dropped : v.commands.queue = []
  pending : v.pending = ∅
  answers : v.answers = w.answers
  tcp : ∀ ch, v.HasTcpChan ch → ¬(v.tcpChans ch).Attended
  solid : ∀ ch, (v.tcpChans ch).Solid
  udp : ∀ ch, v.HasUdpChan ch → ¬(v.udpChans ch).Attended

theorem World.envStep_commands {w w' : World T U} {a : Action E} (h : w.envStep a = some w')
    (hrx : w.commands.rxAlive = false) :
    w'.commands.rxAlive = false ∧ w'.commands.queue = w.commands.queue := by
  cases a with
  | issue cmd =>
    have hclosed : w.commands.trySend cmd = .error .closed := by simp [Chan.trySend, hrx]
    simp [envStep, hclosed] at h
  | streamWrite | udpSend | udpRecv =>
    simp only [envStep] at h
    split_ifs at h
    split at h
    · obtain rfl := Option.some.inj h
      exact ⟨hrx, rfl⟩
    · cases h
  | streamRead | dropWriteTx | dropReadRx | dropUdp =>
    simp only [envStep] at h
    split_ifs at h
    obtain rfl := Option.some.inj h
    exact ⟨hrx, rfl⟩
  | cancel | dropCommands | foreignPort | ipcDies =>
    obtain rfl := Option.some.inj h
    exact ⟨hrx, rfl⟩
  | _ => cases h

theorem World.envStep_udpAttended {w w' : World T U} {a : Action E} (h : w.envStep a = some w')
    (ch : ChanId) (ha : (w'.udpChans ch).Attended) : (w.udpChans ch).Attended := by
  have htouch : ∀ ch' c, (UdpChan.Attended c → (w.udpChans ch').Attended) →
      UdpChan.Attended (Function.update w.udpChans ch' c ch) → (w.udpChans ch).Attended := by
    intro ch' c hc ha
    rw [Function.update_apply] at ha
    split_ifs at ha with he
    · subst he
      exact hc ha
    · exact ha
  cases a with
  | issue cmd =>
    obtain ⟨-, n, rfl⟩ := envStep_issue h
    exact ha
  | streamWrite =>
    simp only [envStep] at h
    split_ifs at h
    split at h
    · obtain rfl := Option.some.inj h
      exact ha
    · cases h
  | udpSend ch' buf addr =>
    simp only [envStep] at h
    split_ifs at h
    split at h
    · next tx hs =>
      obtain rfl := Option.some.inj h
      obtain ⟨-, -, rfl⟩ := Chan.trySend_ok hs
      refine htouch ch' _ ?_ ha
      exact id
    · cases h
  | udpRecv ch' =>
    simp only [envStep] at h
    split_ifs at h
    split at h
    · next d rx hr =>
      obtain rfl := Option.some.inj h
      apply htouch ch' _ _ ha
      intro hc
      unfold UdpChan.Attended at hc
      rw [(Chan.tryRecv_ok hr).2.1] at hc
      exact hc
    · cases h
  | dropUdp ch' =>
    simp only [envStep] at h
    split_ifs at h
    obtain rfl := Option.some.inj h
    refine htouch ch' _ ?_ ha
    exact id
  | streamRead | dropWriteTx | dropReadRx =>
    simp only [envStep] at h
    split_ifs at h
    obtain rfl := Option.some.inj h
    exact ha
  | cancel | dropCommands | foreignPort | ipcDies =>
    obtain rfl := Option.some.inj h
    exact ha
  | _ => cases h

namespace Ended

variable {w v v' : World T U}

theorem step {a : Action E} (h : Ended w v) (hs : World.appStep a v = some v') : Ended w v' := by
  have hframe := World.envStep_frame hs
  obtain ⟨hrx, hqueue⟩ := World.envStep_commands hs h.refused
  have hgave : ∀ f ch, Gave v'.answers f ch → Gave v.answers f ch := by
    intro f ch hg
    rw [hframe.answers] at hg
    exact hg
  refine ⟨hrx, hqueue.trans h.dropped, hframe.pending.trans h.pending,
    hframe.answers.trans h.answers, fun ch hg => ?_, fun ch => ?_, fun ch hg ha => ?_⟩
  · have hdead := h.tcp ch (hgave _ ch hg)
    rcases World.envStep_tcpPart hs with ⟨hsame, -⟩ | ⟨ch', c, -, hmove, hpart, -⟩
    · have hchans : v'.tcpChans = v.tcpChans := congrArg TcpPart.chans hsame
      rw [hchans]
      exact hdead
    · have hchans : v'.tcpChans = Function.update v.tcpChans ch' c := congrArg TcpPart.chans hpart
      rw [hchans, Function.update_apply]
      split_ifs with he
      · subst he
        exact fun ha => hdead (hmove.attended ha)
      · exact hdead
  · rcases World.envStep_tcpPart hs with ⟨hsame, -⟩ | ⟨ch', c, -, hmove, hpart, -⟩
    · have hchans : v'.tcpChans = v.tcpChans := congrArg TcpPart.chans hsame
      rw [hchans]
      exact h.solid ch
    · have hchans : v'.tcpChans = Function.update v.tcpChans ch' c := congrArg TcpPart.chans hpart
      rw [hchans]
      exact forall_update h.solid (hmove.solid (h.solid ch')) ch' ch
  · exact h.udp ch (hgave _ ch hg) (World.envStep_udpAttended hs ch ha)

theorem await (h : Ended w v) (r : ReqId) : v.await r =
    match w.answers.find? (fun p => p.1 == r) with
    | some p => .ready p.2
    | none => .err stackTaskGone := by
  have hnone : ¬((∃ cmd ∈ v.commands.queue, cmd.response = some r) ∨ v.Stored r) := by
    rw [h.dropped]
    unfold World.Stored
    rw [h.pending]
    simp
  unfold World.await
  rw [h.answers, if_neg hnone]

theorem sendCommand (h : Ended w v) (cmd : StackCommand) :
    v.sendCommand cmd = some (.error stackTaskGone) := by
  simp [World.sendCommand, Chan.trySend, h.refused]

end Ended

/-- The state that the end of the task leaves. -/
theorem Reach.ended (hf : N.FreshHandles) {cfg : StackConfig} {port : UInt16} {w : World T U}
    (h : Reach N cfg port w) : Ended w w.dropLocals := by
  have htcp := Reach.tcp_invariant hf EndsHeld .empty (fun _ _ hp hm => hp.move hm) h
  have hudp := (Reach.udp_invariant hf UdpEndsHeld (fun _ _ ch hg => by
    obtain ⟨p, hp, -⟩ := hg
    simp [World.blank] at hp) (fun _ _ _ ho hp _ hm => hp.move ho hm) h).2
  refine ⟨rfl, rfl, rfl, rfl, fun ch hg => ?_, fun ch => ?_, fun ch hg => ?_⟩
  · have hheld := htcp.held.mono (fun _ => id)
      (fun ch' => (releaseOp_all w.pending.entries w.tcpChans ch').1)
    exact hheld.releaseAll TcpChan.dropStackEnds_not_attended hg
  · have hops := (releaseOp_all w.pending.entries w.tcpChans ch).2.1 (htcp.solid ch)
    exact releaseAll_rule TcpSocketState.chan TcpChan.dropStackEnds
      (P := fun c d => c.Solid → d.Solid) (fun _ => id) (fun _ _ h hc => h hc)
      w.tcpStates.entries _ ch hops
  · exact LiveHeld.releaseAll UdpChan.dropStackEnds_not_attended hudp hg

/-- What the application has not read yet is still there when the task has ended. -/
theorem Reach.ahead_kept (hf : N.FreshHandles) (hM : N.TcpMachine) (hH : N.HandshakeContract)
    {cfg : StackConfig} {port : UInt16} {w : World T U} (h : Reach N cfg port w) {ch : ChanId}
    (hg : w.HasTcpChan ch) : (w.dropLocals.tcpChans ch).ahead = (w.tcpChans ch).ahead := by
  have hnone : ∀ e ∈ w.pending.entries, ¬e.2.connectsOn ch := by
    intro e he hch
    have hp : w.pending.lookup e.1 = some e.2 := AList.mem_lookup_iff.mpr he
    exact ((Reach.connectsHold hf hM hH h).connects e.1 e.2 ch hp hch).kept hg
  have hops := (releaseOp_all w.pending.entries w.tcpChans ch).2.2 hnone
  have hstates : (w.dropLocals.tcpChans ch).ahead = ((w.pending.entries.foldl
      (fun m e => releaseOp (some e.2) m) w.tcpChans) ch).ahead :=
    releaseAll_rule TcpSocketState.chan TcpChan.dropStackEnds (P := fun c d => d.ahead = c.ahead)
      (fun _ => rfl) (fun _ _ h => h) w.tcpStates.entries _ ch
  rw [hstates, hops]

/-- Wherever the stack task ends, by returning, by a panic or by being aborted, nothing that the
application does afterwards waits for it. New calls fail, calls that wait get their answer or fail,
and so do writes and sends; reads return what had reached the application's side, in order and all
of it, and then the end of the stream; `recv_from` returns the datagrams that had, and then fails.
-/
theorem task_end_resolves (N : Smoltcp T U E) (hf : N.FreshHandles) (hM : N.TcpMachine)
    (hH : N.HandshakeContract) (cfg : StackConfig) (port : UInt16) (w : World T U)
    (h : Reach N cfg port w) (v : World T U)
    (hv : Reachable (World.appStep (E := E)) w.dropLocals v) :
    (∀ cmd, v.sendCommand cmd = some (.error stackTaskGone)) ∧
    (∀ r, v.await r =
      match w.answers.find? (fun p => p.1 == r) with
      | some p => .ready p.2
      | none => .err stackTaskGone) ∧
    (∀ ch, w.HasTcpChan ch → (w.dropLocals.tcpChans ch).ahead = (w.tcpChans ch).ahead) ∧
    (∀ ch, v.HasTcpChan ch →
      (∀ buf, (TcpStream.write buf (v.tcpChans ch)).1 = .err stackTaskGone ∧
        (TcpStream.pollWrite buf (v.tcpChans ch)).1 = .err stackTaskGone) ∧
      ∀ lens : List Nat, (∀ len ∈ lens, 0 < len) → ∃ (got : List Bytes) (n : Nat),
        TcpStream.reads lens (v.tcpChans ch) = got.map .ready ++ List.replicate n (.ready []) ∧
        (∀ data ∈ got, data ≠ []) ∧ got.flatten <+: (v.tcpChans ch).ahead ∧
        (0 < n → got.flatten = (v.tcpChans ch).ahead)) ∧
    (∀ ch, (w.dropLocals.udpChans ch).read.queue = (w.udpChans ch).read.queue) ∧
    (∀ ch, v.HasUdpChan ch →
      (∀ buf addr, (UdpSocket.sendTo buf addr (v.udpChans ch)).1 = .err stackTaskGone) ∧
      ∀ lens : List Nat, UdpSocket.recvs lens (v.udpChans ch) =
        List.zipWith (fun len (d : Bytes × SocketAddr) => .ready (d.1.take len) d.2) lens
          (v.udpChans ch).read.queue ++
        List.replicate (lens.length - (v.udpChans ch).read.queue.length)
          (.err ⟨.brokenPipe, "socket closed"⟩)) := by
  have hend : Ended w v := hv.invariant _ (Ended w) (Reach.ended hf h)
    (fun _ _ _ hs _ ht => hs.step ht)
  refine ⟨hend.sendCommand, hend.await, fun ch hg => Reach.ahead_kept hf hM hH h hg,
    fun ch hg => ?_, fun ch => ?_, fun ch hg => ?_⟩
  · obtain ⟨htx, hrx⟩ := TcpChan.not_attended (hend.tcp ch hg)
    refine ⟨fun buf => ?_, fun lens hlens => TcpStream.reads_drained htx (hend.solid ch) hlens⟩
    simp [TcpStream.write, TcpStream.pollWrite, Chan.trySend, hrx, stackTaskGone]
  · exact releaseAll_rule UdpSocketState.chan UdpChan.dropStackEnds
      (P := fun c d => d.read.queue = c.read.queue) (fun _ => rfl) (fun _ _ h => h)
      w.udpStates.entries _ ch
  · obtain ⟨htx, hrx⟩ := UdpChan.not_attended (hend.udp ch hg)
    refine ⟨fun buf addr => ?_, fun lens => UdpSocket.recvs_drained htx lens⟩
    simp [UdpSocket.sendTo, Chan.trySend, hrx, stackTaskGone]

/-- Three bytes wait for the reader of a stream and an accept for its turn when the task is
aborted; two of the bytes are read afterwards. -/
theorem task_end_resolves_acceptRun : ∃ w v : World RefTcp RefUdp, w.phase = .select ∧
    (w.tcpChans 0).ahead = [1, 2, 3] ∧ (v.tcpChans 0).ahead = [3] ∧ v.await 2 = .err stackTaskGone ∧
    (TcpStream.write [7] (v.tcpChans 0)).1 = .err stackTaskGone := by
  have hrun : (runActions (World.step refNet hostCfg) (acceptRun ++ .timeout::
        iteration [0] [(0, .data [1, 2, 3])] none ++ [.issue (.tcpAccept 0 2)])
        (World.init refNet hostCfg 49152)).bind (fun w =>
      (runActions (World.appStep (E := RefEvent)) [.streamRead 0 2] w.dropLocals).map fun v =>
        decide (w.phase = .select ∧ (w.tcpChans 0).ahead = [1, 2, 3] ∧ (v.tcpChans 0).ahead = [3] ∧
          v.HasTcpChan 0 ∧ w.answers.find? (fun p => p.1 == 2) = none)) = some true := by
    decide +kernel
  obtain ⟨w, hw, hrest⟩ := Option.bind_eq_some_iff.mp hrun
  obtain ⟨v, hv, hp⟩ := Option.map_eq_some_iff.mp hrest
  obtain ⟨hph, hahead, hleft, hgave, hnone⟩ := of_decide_eq_true hp
  obtain ⟨-, hawait, -, htcp, -⟩ := task_end_resolves refNet refNet_freshHandles refNet_tcpMachine
    refNet_handshakeContract hostCfg 49152 w (Reachable.run _ .start hw) v
    (Reachable.run _ .start hv)
  refine ⟨w, v, hph, hahead, hleft, ?_, ((htcp 0 hgave).1 [7]).1⟩
  rw [hawait, hnone]

end TapTunnel.Stack
