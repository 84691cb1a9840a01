import TapTunnel.Stack.Ownership

namespace TapTunnel.Stack

open Framework

variable {T U E : Type}

/-- What the application can do to its ends of a TCP channel pair. -/
structure AppOp (c d : TcpChan) : Prop where
  write : (d.write.queue = c.write.queue ∧ d.written = c.written) ∨
    ∃ buf, d.write.queue = c.write.queue ++ [buf] ∧ d.written = c.written ++ buf
  accepted : d.accepted = c.accepted
  readTx : d.read.txAlive = c.read.txAlive

theorem AppOp.refl (c : TcpChan) : AppOp c c := ⟨.inl ⟨rfl, rfl⟩, rfl, rfl⟩

theorem AppOp.dropAppEnds (c : TcpChan) : AppOp c c.dropAppEnds := ⟨.inl ⟨rfl, rfl⟩, rfl, rfl⟩

section Channels

variable {R : TcpChan → TcpChan → Prop} (hR : ∀ c, R c c)

include hR

/-- What an operation keeps of the channel pair it is on, it keeps of every pair. -/
theorem update_rel (m : ChanId → TcpChan) {ch : ChanId} {d : TcpChan} (h : R (m ch) d)
    (k : ChanId) : R (m k) (Function.update m ch d k) := by
  by_cases hk : k = ch
  · subst hk
    simpa using h
  · simpa [Function.update_of_ne hk] using hR (m k)

theorem releaseTcpState_rel (hstack : ∀ c : TcpChan, R c c.dropStackEnds)
    (st : Option TcpSocketState) (m : ChanId → TcpChan) (ch : ChanId) :
    R (m ch) (releaseTcpState st m ch) := by
  cases st with
  | none => exact hR _
  | some st => exact update_rel hR m (hstack _) ch

variable (happ : ∀ c : TcpChan, R c c.dropAppEnds)

include happ

theorem releaseOp_rel (op : Option PendingOp) (m : ChanId → TcpChan) (ch : ChanId) :
    R (m ch) (releaseOp op m ch) := by
  rcases op with _ | (⟨_, _, ch', _⟩ | _)
  · exact hR _
  · exact update_rel hR m (happ _) ch
  · exact hR _

theorem Reply.releaseTcp_rel (rep : Reply) (m : ChanId → TcpChan) (ch : ChanId) :
    R (m ch) (rep.releaseTcp m ch) := by
  unfold Reply.releaseTcp
  split
  · exact update_rel hR m (happ _) ch
  · exact hR _

theorem World.answer_rel (w : World T U) (r : ReqId) (rep : Reply) (ch : ChanId) :
    R (w.tcpChans ch) ((w.answer r rep).tcpChans ch) := by
  simp only [World.answer]
  split_ifs
  · exact rep.releaseTcp_rel hR happ _ ch
  · exact hR _

end Channels

theorem AppOp.update (m : ChanId → TcpChan) {ch : ChanId} {d : TcpChan} (h : AppOp (m ch) d)
    (k : ChanId) : AppOp (m k) (Function.update m ch d k) := update_rel .refl m h k

/-- What a step of the application or the environment leaves alone, and what it may change. -/
structure EnvFrame (w w' : World T U) : Prop where
  phase : w'.phase = w.phase
  sockets : w'.sockets = w.sockets
  pending : w'.pending = w.pending
  listeners : w'.listeners = w.listeners
  tcpStates : w'.tcpStates = w.tcpStates
  udpStates : w'.udpStates = w.udpStates
  answers : w'.answers = w.answers
  received : w'.received = w.received
  created : w'.created = w.created
  nextChan : w'.nextChan = w.nextChan
  ipAddrs : w'.ipAddrs = w.ipAddrs
  stats : w'.stats = w.stats
  queue : ∀ cmd ∈ w'.commands.queue, cmd ∈ w.commands.queue ∨ w.MayIssue cmd
  chans : ∀ ch, AppOp (w.tcpChans ch) (w'.tcpChans ch)

namespace World

variable {N : Smoltcp T U E} {w w' : World T U}

theorem envStep_issue {cmd : StackCommand} (h : w.envStep (.issue cmd : Action E) = some w') :
    w.MayIssue cmd ∧ ∃ n, w' = { w with
      commands := { w.commands with queue := w.commands.queue ++ [cmd] }
      nextReq := n } := by
  have hg : w.MayIssue cmd ∧ w.commands.txAlive = true := by
    by_contra hg
    rw [envStep, if_neg hg] at h
    cases h
  rw [envStep, if_pos hg] at h
  split at h
  · next q hs =>
    obtain rfl := Option.some.inj h
    obtain ⟨-, -, rfl⟩ := Chan.trySend_ok hs
    exact ⟨hg.1, _, rfl⟩
  · cases h

theorem step_or {cfg : StackConfig} {a : Action E} (h : step N cfg a w = some w') :
    w.envStep a = some w' ∨ w.stackStep N cfg a = some w' := by
  unfold step at h
  split_ifs at h
  cases henv : w.envStep a with
  | some v =>
    rw [henv, Option.some_or] at h
    exact .inl h
  | none =>
    rw [henv, Option.none_or] at h
    exact .inr h

/-- Sending a command is a step of the application only. -/
theorem step_issue {cfg : StackConfig} {cmd : StackCommand}
    (h : step N cfg (.issue cmd) w = some w') : w.envStep (.issue cmd : Action E) = some w' := by
  have hnone : w.stackStep N cfg (.issue cmd) = none := by
    unfold stackStep selectStep pollStep
    split <;> first | contradiction | rfl
  unfold step at h
  split_ifs at h
  rwa [hnone, Option.or_none] at h

/-- Taking a command is a step of the stack at the head of its loop. -/
theorem step_command {cfg : StackConfig} {cmd : StackCommand} {rest : List StackCommand}
    (hq : w.commands.queue = cmd::rest) (h : step N cfg .command w = some w') :
    w.phase = .select ∧ w' = w.continueAt .startWrite (handleCommand N cfg cmd { w with
      commands := { w.commands with queue := rest }
      received := w.received ++ cmd.response.toList }) := by
  unfold step at h
  split_ifs at h
  have henv : w.envStep (.command : Action E) = none := rfl
  rw [henv, Option.none_or] at h
  unfold stackStep at h
  split at h
  · next hph =>
    simp only [selectStep, Chan.tryRecv, hq] at h
    exact ⟨hph, (Option.some.inj h).symm⟩
  all_goals contradiction

theorem envStep_frame {a : Action E} (h : w.envStep a = some w') : EnvFrame w w' := by
  have hq : ∀ cmd ∈ w.commands.queue, cmd ∈ w.commands.queue ∨ w.MayIssue cmd := fun _ => .inl
  have hc : ∀ ch, AppOp (w.tcpChans ch) (w.tcpChans ch) := fun ch => .refl _
  cases a with
  | issue cmd =>
    obtain ⟨hmay, n, rfl⟩ := envStep_issue h
    refine ⟨rfl, rfl, rfl, rfl, rfl, rfl, rfl, rfl, rfl, rfl, rfl, rfl, ?_, hc⟩
    intro c hc
    rcases List.mem_append.mp hc with hc | hc
    · exact .inl hc
    · exact .inr (List.mem_singleton.mp hc ▸ hmay)
  | streamWrite ch buf =>
    simp only [envStep] at h
    split_ifs at h
    split at h
    · next n c hw =>
      obtain rfl := Option.some.inj h
      obtain rfl := TcpStream.write_ok hw
      exact ⟨rfl, rfl, rfl, rfl, rfl, rfl, rfl, rfl, rfl, rfl, rfl, rfl, hq,
        AppOp.update _ ⟨.inr ⟨buf, rfl, rfl⟩, rfl, rfl⟩⟩
    · cases h
  | streamRead ch len =>
    simp only [envStep] at h
    split_ifs at h
    obtain rfl := Option.some.inj h
    obtain ⟨h1, h2, h3, h4⟩ := TcpStream.read_frame len (w.tcpChans ch)
    exact ⟨rfl, rfl, rfl, rfl, rfl, rfl, rfl, rfl, rfl, rfl, rfl, rfl, hq,
      AppOp.update _ ⟨.inl ⟨by rw [h1], h2⟩, h3, h4⟩⟩
  | dropWriteTx ch | dropReadRx ch =>
    simp only [envStep] at h
    split_ifs at h
    obtain rfl := Option.some.inj h
    exact ⟨rfl, rfl, rfl, rfl, rfl, rfl, rfl, rfl, rfl, rfl, rfl, rfl, hq,
      AppOp.update _ ⟨.inl ⟨rfl, rfl⟩, rfl, rfl⟩⟩
  | udpSend ch buf addr =>
    simp only [envStep] at h
    split_ifs at h
    split at h
    · obtain rfl := Option.some.inj h
      exact ⟨rfl, rfl, rfl, rfl, rfl, rfl, rfl, rfl, rfl, rfl, rfl, rfl, hq, hc⟩
    · cases h
  | udpRecv ch =>
    simp only [envStep] at h
    split_ifs at h
    split at h
    · obtain rfl := Option.some.inj h
      exact ⟨rfl, rfl, rfl, rfl, rfl, rfl, rfl, rfl, rfl, rfl, rfl, rfl, hq, hc⟩
    · cases h
  | dropUdp ch =>
    simp only [envStep] at h
    split_ifs at h
    obtain rfl := Option.some.inj h
    exact ⟨rfl, rfl, rfl, rfl, rfl, rfl, rfl, rfl, rfl, rfl, rfl, rfl, hq, hc⟩
  | cancel r | dropCommands | foreignPort | ipcDies =>
    obtain rfl := Option.some.inj h
    exact ⟨rfl, rfl, rfl, rfl, rfl, rfl, rfl, rfl, rfl, rfl, rfl, rfl, hq, hc⟩
  | _ => cases h

end World

/-- The step is a call of `process_tcp_write`. -/
def World.WritesEntry (w : World T U) (a : Action E) : Prop :=
  a = .writeTcp ∧ ∃ h tcp udp st, w.phase = .write (h::tcp) udp ∧ w.tcpStates.lookup h = some st

/-- The UDP entry whose turn it is in a pass over the sockets, with its socket. -/
def World.pumped (w : World T U) : Option (SocketHandle × UdpSocketState × U) :=
  match w.phase with
  | .write [] (h::_) | .read [] (h::_) _ =>
    match w.udpStates.lookup h, w.sockets.lookup h with
    | some st, some (.udp s) => some (h, st, s)
    | _, _ => none
  | _ => none

/-- The step is one that works on a UDP socket or its channels. -/
def World.MovesUdp (w : World T U) : Action E → Prop
  | .udpSend .. | .udpRecv _ | .dropUdp _ | .udpEvent .. => True
  | .writeUdp | .readUdp => w.pumped ≠ none
  | _ => False

/-- The step takes a port from the process-wide counter, here or in another tunnel. -/
def World.allocates (w : World T U) : Action E → Bool
  | .foreignPort => true
  | .command => w.commands.queue.head?.any StackCommand.allocates
  | _ => false

/-- The steps of the system, one case for each way a step can change the state. -/
inductive Transition (N : Smoltcp T U E) : Action E → World T U → World T U → Prop
  | env {a : Action E} {w w' : World T U} (he : w.envStep a = some w') : Transition N a w w'
  | control {a : Action E} {w : World T U} (p : Phase) (notify : Bool)
      (hp : ∀ q, p = .panicked q → q.ofAddress) (hw : ¬w.WritesEntry a)
      (hu : ¬w.MovesUdp a) (hal : w.allocates a = false) :
      Transition N a w { w with phase := p, writeNotify := notify }
  | command {w w' : World T U} (cmd : StackCommand) (rest : Chan StackCommand)
      (hph : w.phase = .select) (hq : w.commands.queue = cmd::rest.queue)
      (he : Effect N (some cmd) { w with
        commands := rest
        received := w.received ++ cmd.response.toList } w') :
      Transition N .command w { w' with phase := .startWrite }
  | writeTcp {w : World T U} (h : SocketHandle) (tcp udp : List SocketHandle)
      (st : TcpSocketState) (s : T) (hph : w.phase = .write (h::tcp) udp)
      (hst : w.tcpStates.lookup h = some st) (hs : w.sockets.lookup h = some (.tcp s)) :
      Transition N .writeTcp w { w.writeTcpEntry N h st s with phase := .write tcp udp }
  | writeUdp {w : World T U} (h : SocketHandle) (udp : List SocketHandle) (st : UdpSocketState)
      (s : U) (hst : w.udpStates.lookup h = some st)
      (hs : w.sockets.lookup h = some (.udp s)) (hp : w.pumped = some (h, st, s)) :
      Transition N .writeUdp w { w.writeUdpEntry N h st s with phase := .write [] udp }
  | tcpEvent {w : World T U} (h : SocketHandle) (e : E) (s : T)
      (hs : w.sockets.lookup h = some (.tcp s)) :
      Transition N (.tcpEvent h e) w (w.setTcp h (N.tcpProcess e s))
  | udpEvent {w : World T U} (h : SocketHandle) (e : E) (s : U)
      (hs : w.sockets.lookup h = some (.udp s)) :
      Transition N (.udpEvent h e) w (w.setUdp h (N.udpProcess e s))
  | readTcp {w : World T U} (h : SocketHandle) (tcp udp : List SocketHandle) (changed : Bool)
      (st : TcpSocketState) (s : T) (hst : w.tcpStates.lookup h = some st)
      (hs : w.sockets.lookup h = some (.tcp s)) :
      Transition N .readTcp w { w.readTcpEntry N h st s with phase := .read tcp udp changed }
  | readUdp {w : World T U} (h : SocketHandle) (udp : List SocketHandle) (changed : Bool)
      (st : UdpSocketState) (s : U) (hst : w.udpStates.lookup h = some st)
      (hs : w.sockets.lookup h = some (.udp s)) (hp : w.pumped = some (h, st, s)) :
      Transition N .readUdp w { w.readUdpEntry N h st s with phase := .read [] udp changed }
  | pending {w w' : World T U} (order : List SocketHandle)
      (he : Relation.ReflTransGen (Effect N none) w w') :
      Transition N (.pending order) w { w' with phase := .check }
  | fail {w : World T U} : Transition N .checkDead w { w.failPending with phase := .returned }

/-- The common case of `control`: only the phase changes. -/
theorem Transition.move {N : Smoltcp T U E} {a : Action E} {w : World T U} (p : Phase)
    (hp : ∀ q, p ≠ .panicked q) (ha : a ≠ .writeTcp) (hu : ¬w.MovesUdp a)
    (hal : w.allocates a = false) : Transition N a w { w with phase := p } :=
  .control p w.writeNotify (fun q h => absurd h (hp q)) (fun h => ha h.1) hu hal

/-- Rule for `failPending`: it is enough to look at one dropped and answered operation. -/
theorem World.failOps_rule {w : World T U} (P : World T U → Prop)
    (ops : List ((_ : SocketHandle) × PendingOp)) (h : P w)
    (hstep : ∀ v k r e, P v → P ((v.dropPending k).answer r (.tcp (.error e)))) :
    P (World.failOps ops w) := by
  induction ops generalizing w with
  | nil => exact h
  | cons e es ih => exact ih (hstep w e.1 _ _ h)

theorem World.failOps_answers (ops : List ((_ : SocketHandle) × PendingOp)) (w : World T U) :
    w.answers <+: (World.failOps ops w).answers :=
  failOps_rule (w.answers <+: ·.answers) ops (List.prefix_refl _)
    (fun _ _ _ _ hv => hv.trans (List.prefix_append _ _))

theorem Effect.answers_path {N : Smoltcp T U E} {w w' : World T U}
    (h : Relation.ReflTransGen (Effect N none) w w') : w.answers <+: w'.answers :=
  Effect.path_rule (w.answers <+: ·.answers) (List.prefix_refl _)
    (fun _ _ hu he => hu.trans he.answers) h

theorem Transition.answers {N : Smoltcp T U E} {a : Action E} {w w' : World T U}
    (h : Transition N a w w') : w.answers <+: w'.answers := by
  cases h with
  | env he => rw [(World.envStep_frame he).answers]
  | command cmd rest hph hq he => exact he.answers
  | pending order he =>
    have hp := Effect.answers_path he
    exact hp
  | fail => exact World.failOps_answers _ w
  | control | writeTcp | writeUdp | tcpEvent | udpEvent | readTcp | readUdp =>
    exact List.prefix_refl _

namespace Owned

variable {N : Smoltcp T U E} {w w' : World T U}

theorem withPhase (h : Owned w) (p : Phase) : Owned { w with phase := p } :=
  ⟨h.live, h.apart, h.keys, h.queue⟩

theorem popCommand (h : Owned w) {cmd : StackCommand} {rest : Chan StackCommand}
    (hq : w.commands.queue = cmd::rest.queue) (received : List ReqId) :
    Owned { w with commands := rest, received := received } :=
  ⟨h.live, h.apart, h.keys, fun c hc => h.queue c (by rw [hq]; exact .tail _ hc)⟩

theorem headAllowed (h : Owned w) {cmd : StackCommand} {rest : Chan StackCommand}
    (hq : w.commands.queue = cmd::rest.queue) : CommandAllowed w.answers cmd :=
  h.queue cmd (by rw [hq]; exact .head _)

/-- The whole of `process_pending` is a sequence of effects. -/
theorem processPending_effects (hf : N.FreshHandles) (order : List SocketHandle) (h : Owned w) :
    ∃ w', w.processPending N order = .ok w' ∧ Relation.ReflTransGen (Effect N none) w w' := by
  induction order generalizing w with
  | nil => exact ⟨w, rfl, .refl⟩
  | cons k order ih =>
    rcases h.processPendingOne_effect (N := N) k with he | ⟨w1, he, heff⟩
    · obtain ⟨w', hrun, hpath⟩ := ih h
      exact ⟨w', (World.processPending_cons he order).trans hrun, hpath⟩
    · obtain ⟨w', hrun, hpath⟩ := ih (h.effect (c := none) hf nofun heff)
      exact ⟨w', (World.processPending_cons he order).trans hrun, hpath.head heff⟩

theorem selectStep_transition (hf : N.FreshHandles) (h : Owned w) (cfg : StackConfig)
    {a : Action E} (hph : w.phase = .select) (hs : w.selectStep N cfg a = some w') :
    Transition N a w w' := by
  unfold World.selectStep at hs
  split at hs
  · next cmd rest hrecv =>
    obtain rfl := Option.some.inj hs
    obtain ⟨hq, -, -, -⟩ := Chan.tryRecv_ok hrecv
    rcases (h.popCommand hq _).handleCommand_effect hf cfg (h.headAllowed hq) with
      ⟨p, hp, hal, he⟩ | ⟨w1, he, heff⟩
    · rw [he]
      refine .control (.panicked p) w.writeNotify ?_ (nomatch ·.1) id ?_
      · intro q hq
        cases hq
        exact hp
      · simpa [World.allocates, hq] using hal
    · rw [he]
      exact .command cmd rest hph hq heff
  · obtain rfl := Option.some.inj hs
    exact .move .returned (by simp) (by simp) id rfl
  · split_ifs at hs
    obtain rfl := Option.some.inj hs
    exact .control .startWrite false nofun (nomatch ·.1) id rfl
  · obtain rfl := Option.some.inj hs
    exact .move .startWrite (by simp) (by simp) id rfl
  · cases hs

theorem pollStep_transition {a : Action E} (hs : w.pollStep N a = some w') :
    Transition N a w w' := by
  unfold World.pollStep at hs
  split at hs
  · split at hs
    · next s hl =>
      obtain rfl := Option.some.inj hs
      exact .tcpEvent _ _ s hl
    · cases hs
  · split at hs
    · next s hl =>
      obtain rfl := Option.some.inj hs
      exact .udpEvent _ _ s hl
    · cases hs
  · obtain rfl := Option.some.inj hs
    exact .move _ (by simp) (by simp) id rfl
  · cases hs

/-- Under the invariant every step is one of the transitions. -/
theorem step_transition (hf : N.FreshHandles) (h : Owned w) {cfg : StackConfig} {a : Action E}
    (hs : World.step N cfg a w = some w') : Transition N a w w' := by
  unfold World.step at hs
  split_ifs at hs
  cases henv : w.envStep a with
  | some w1 =>
    rw [henv] at hs
    obtain rfl := Option.some.inj hs
    exact .env henv
  | none =>
    rw [henv, Option.none_or] at hs
    unfold World.stackStep at hs
    split at hs
    · next hph => exact h.selectStep_transition hf cfg hph hs
    · split_ifs at hs
      obtain rfl := Option.some.inj hs
      exact .move _ (by simp) (by simp) id rfl
    · next k tcp udp hph =>
      obtain rfl := Option.some.inj hs
      cases hst : w.tcpStates.lookup k with
      | none =>
        simp only [World.pumpTcpWrite, World.pump, hst]
        refine .control _ w.writeNotify (by simp) ?_ id rfl
        rintro ⟨-, h', tcp', udp', st, hph', hst'⟩
        obtain ⟨⟨rfl, -⟩, -⟩ : (k = h' ∧ tcp = tcp') ∧ udp = udp' := by simpa [hph] using hph'
        rw [hst] at hst'
        cases hst'
      | some st =>
        obtain ⟨s, hsock⟩ := h.live.tcp k st hst
        rw [World.pumpTcpWrite_eq hst hsock]
        exact .writeTcp k tcp udp st s hph hst hsock
    · next k udp hph =>
      obtain rfl := Option.some.inj hs
      cases hst : w.udpStates.lookup k with
      | none =>
        simp only [World.pumpUdpWrite, World.pump, hst]
        exact .move _ (by simp) (by simp) (fun hp => hp (by simp [World.pumped, hph, hst])) rfl
      | some st =>
        obtain ⟨s, hsock⟩ := h.live.udp k st hst
        rw [World.pumpUdpWrite_eq hst hsock]
        exact .writeUdp k udp st s hst hsock (by simp [World.pumped, hph, hst, hsock])
    · obtain rfl := Option.some.inj hs
      exact .move _ (by simp) (by simp) id rfl
    · exact pollStep_transition hs
    · split_ifs at hs
      obtain rfl := Option.some.inj hs
      exact .move _ (by simp) (by simp) id rfl
    · next k tcp udp changed hph =>
      obtain rfl := Option.some.inj hs
      cases hst : w.tcpStates.lookup k with
      | none =>
        simp only [World.pumpTcpRead, World.pump, hst]
        exact .move _ (by simp) (by simp) id rfl
      | some st =>
        obtain ⟨s, hsock⟩ := h.live.tcp k st hst
        rw [World.pumpTcpRead_eq hst hsock]
        exact .readTcp k tcp udp changed st s hst hsock
    · next k udp changed hph =>
      obtain rfl := Option.some.inj hs
      cases hst : w.udpStates.lookup k with
      | none =>
        simp only [World.pumpUdpRead, World.pump, hst]
        exact .move _ (by simp) (by simp) (fun hp => hp (by simp [World.pumped, hph, hst])) rfl
      | some st =>
        obtain ⟨s, hsock⟩ := h.live.udp k st hst
        rw [World.pumpUdpRead_eq hst hsock]
        exact .readUdp k udp changed st s hst hsock (by simp [World.pumped, hph, hst, hsock])
    · obtain rfl := Option.some.inj hs
      exact .move _ (by simp) (by simp) id rfl
    · split_ifs at hs
      obtain rfl := Option.some.inj hs
      obtain ⟨w1, hrun, hpath⟩ := h.processPending_effects hf _
      rw [hrun]
      exact .pending _ hpath
    · obtain rfl := Option.some.inj hs
      exact .move _ (by simp) (by simp) id rfl
    · split_ifs at hs
      · obtain rfl := Option.some.inj hs
        exact .fail
      · obtain rfl := Option.some.inj hs
        exact .move _ (by simp) (by simp) id rfl
    · cases hs

theorem allowed_of_mayIssue {cmd : StackCommand} (h : w.MayIssue cmd) :
    CommandAllowed w.answers cmd := by
  cases cmd with
  | tcpAccept => exact h.1
  | tcpListenerClose => exact h
  | tcpClose => exact h
  | udpClose => exact h
  | _ => trivial

theorem frame (h : Owned w) (hf : EnvFrame w w') : Owned w' := by
  refine ⟨?_, ?_, ?_, ?_⟩
  · rw [hf.sockets, hf.tcpStates, hf.udpStates, hf.listeners, hf.answers]
    exact h.live
  · rw [hf.tcpStates, hf.listeners, hf.answers]
    exact h.apart
  · rw [hf.pending, hf.tcpStates, hf.listeners, hf.answers]
    exact h.keys
  · intro cmd hc
    rw [hf.answers]
    exact (hf.queue cmd hc).elim (h.queue cmd) allowed_of_mayIssue

theorem effects (hf : N.FreshHandles) (h : Owned w)
    (he : Relation.ReflTransGen (Effect N none) w w') : Owned w' :=
  Effect.path_rule Owned h (fun _ _ hu he => hu.effect (c := none) hf nofun he) he

theorem failPending (h : Owned w) : Owned w.failPending :=
  World.failOps_rule Owned _ h (fun _ k r _ hv => (hv.dropPending k).answer_bare r trivial)

/-- The same rule for what one effect keeps in a state with ownership. -/
theorem effects_rule (hf : N.FreshHandles) (P : World T U → Prop) (h : Owned w) (h0 : P w)
    (hstep : ∀ u v, Owned u → P u → Effect N none u v → P v)
    (he : Relation.ReflTransGen (Effect N none) w w') : P w' := by
  have hboth := Effect.path_rule (fun v => Owned v ∧ P v) ⟨h, h0⟩
    (fun u v hu he => ⟨hu.1.effect (c := none) hf nofun he, hstep u v hu.1 hu.2 he⟩) he
  exact hboth.2

/-- Step lemma of the ownership invariant. -/
theorem transition (hf : N.FreshHandles) (h : Owned w) {a : Action E}
    (ht : Transition N a w w') : Owned w' := by
  cases ht with
  | env he => exact h.frame (World.envStep_frame he)
  | control p notify hp hw => exact ⟨h.live, h.apart, h.keys, h.queue⟩
  | command cmd rest hph hq he =>
    refine ((h.popCommand hq _).effect hf (fun c hc => ?_) he).withPhase _
    obtain rfl := Option.some.inj hc
    exact h.headAllowed hq
  | writeTcp k tcp udp st s hph hst hs =>
    have hlive := h.live.setTcp (processTcpWrite N s st.pendingWrite
      (w.tcpChans st.chan).write).socket (LiveTcp.not_udp ⟨s, hs⟩)
    have hfree : ∀ k' l, w.listeners.lookup k' = some l → k ∉ l.listeningHandles := by
      intro k' l hl hm
      rw [h.apart.tcp k' l hl k hm] at hst
      cases hst
    exact ⟨hlive.insertTcp _ (hlive.tcp k st hst), h.apart.insertTcp _ hfree,
      h.keys.insertTcp _ _, h.queue⟩
  | writeUdp k udp st s hst hs =>
    exact ⟨h.live.setUdp _ (fun ht => ht.not_udp ⟨s, hs⟩), h.apart, h.keys, h.queue⟩
  | tcpEvent k e s hs => exact h.setTcp _ (LiveTcp.not_udp ⟨s, hs⟩)
  | udpEvent k e s hs => exact h.setUdp _ (fun ht => ht.not_udp ⟨s, hs⟩)
  | readTcp k tcp udp changed st s hst hs =>
    exact ⟨h.live.setTcp _ (LiveTcp.not_udp ⟨s, hs⟩), h.apart, h.keys, h.queue⟩
  | readUdp k udp changed st s hst hs =>
    exact ⟨h.live.setUdp _ (fun ht => ht.not_udp ⟨s, hs⟩), h.apart, h.keys, h.queue⟩
  | pending order he => exact (h.effects hf he).withPhase _
  | fail => exact h.failPending.withPhase _

end Owned

section Runs

variable {N : Smoltcp T U E} {cfg : StackConfig} {port : UInt16} {w w' : World T U}

/-- The task starts with nothing but its address, or stops at once on a bad one. -/
theorem init_cases (N : Smoltcp T U E) (cfg : StackConfig) (port : UInt16) :
    ∃ ips p, World.init N cfg port = { World.blank port with ipAddrs := ips, phase := p } ∧
      (p = .select ∨ ∃ q, q.ofAddress ∧ p = .panicked q) := by
  unfold World.init
  rcases World.newCidr_cases (ipAddrToSmoltcp cfg.ip) cfg.prefixLen with hc | hc
  · rw [hc]
    simp only [bind, Except.bind]
    rcases (World.blank (T := T) (U := U) port).updateIpAddrs_cases (N := N)
      [⟨ipAddrToSmoltcp cfg.ip, cfg.prefixLen⟩] with ⟨-, hu⟩ | hu
    · exact ⟨_, .select, by rw [hu]; rfl, .inl rfl⟩
    · exact ⟨[], _, by rw [hu]; rfl, .inr ⟨_, .inr rfl, rfl⟩⟩
  · exact ⟨[], _, by rw [hc]; rfl, .inr ⟨_, .inl rfl, rfl⟩⟩

theorem owned_init (N : Smoltcp T U E) (cfg : StackConfig) (port : UInt16) :
    Owned (World.init N cfg port) := by
  obtain ⟨ips, p, he, -⟩ := init_cases N cfg port
  rw [he]
  exact ⟨.empty, .empty, .empty, List.forall_mem_nil _⟩

/-- Run lemma of the ownership invariant. -/
theorem Reach.owned (hf : N.FreshHandles) {ok : World T U → Action E → Prop}
    (h : ReachVia (World.step N cfg) ok (World.init N cfg port) w) : Owned w :=
  h.invariant _ Owned (owned_init N cfg port)
    (fun _ _ _ ho _ hs => ho.transition hf (ho.step_transition hf hs))

/-- Invariant rule of the stack task: it is enough to look at the transitions, from states in
which ownership holds. -/
theorem Reach.invariant (hf : N.FreshHandles) {ok : World T U → Action E → Prop}
    (P : World T U → Prop)
    (h0 : ∀ ips p, P { World.blank port with ipAddrs := ips, phase := p })
    (hstep : ∀ w w' a, Owned w → P w → ok w a → Transition N a w w' → P w')
    (h : ReachVia (World.step N cfg) ok (World.init N cfg port) w) : P w := by
  refine h.invariant_with _ P Owned (fun _ hr => Reach.owned hf hr) ?_ ?_
  · obtain ⟨ips, p, he, -⟩ := init_cases N cfg port
    rw [he]
    exact h0 ips p
  · exact fun s t a ho hp ha hs => hstep s t a ho hp ha (ho.step_transition hf hs)

/-- Invariant rule for the part of a run that starts in a state known to be well formed. -/
theorem Owned.run_invariant (hf : N.FreshHandles) (P : World T U → Prop) (ho : Owned w) (h0 : P w)
    (hstep : ∀ u v a, Owned u → P u → Transition N a u v → P v)
    (h : Reachable (World.step N cfg) w w') : P w' := by
  suffices Owned w' ∧ P w' from this.2
  refine h.invariant _ (fun v => Owned v ∧ P v) ⟨ho, h0⟩ ?_
  intro u v a hu _ hs
  have ht := hu.1.step_transition hf hs
  exact ⟨hu.1.transition hf ht, hstep u v a hu.1 hu.2 ht⟩

end Runs

end TapTunnel.Stack
