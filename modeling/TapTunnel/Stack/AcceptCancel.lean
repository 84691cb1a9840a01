import TapTunnel.Framework.Simulation
import TapTunnel.Stack.Accept
import TapTunnel.Stack.AnswersOnce

namespace TapTunnel.Stack

open Framework Reference

variable {T U E : Type} {N : Smoltcp T U E}

/-- The connections that a step takes out of the backlog of a listener, with the requests that it
sends them to. -/
def takenOut (w w' : World T U) : List (ReqId × SocketHandle) :=
  (w'.answers.drop w.answers.length).filterMap fun p =>
    (p.2.streamHandle?.filter (· ∈ w.backlogHandles)).map fun x => (p.1, x)

/-- They go to requests whose receiver still exists. -/
def TakenAlive (w w' : World T U) : Prop := ∀ p ∈ takenOut w w', p.1 ∉ w.cancelled

/-- Some connection on the listener under `key` is complete. -/
def ConnectionReady (N : Smoltcp T U E) (w : World T U) (key : SocketHandle) : Prop :=
  ∃ l ∈ w.listeners.lookup key, ∃ x ∈ l.listeningHandles, stateOf N w x = some .established

instance (w : World T U) (key : SocketHandle) : Decidable (ConnectionReady N w key) :=
  inferInstanceAs (Decidable (∃ l ∈ w.listeners.lookup key, _))

/-- The operation is not an accept that nobody waits for any more while a connection is ready. -/
def OpSpares (N : Smoltcp T U E) (w : World T U) (key : SocketHandle) : PendingOp → Prop
  | .tcpAccept r => r ∈ w.cancelled → ¬ConnectionReady N w key
  | .tcpConnect _ _ _ _ => True

def CommandSpares (N : Smoltcp T U E) (w : World T U) : StackCommand → Prop
  | .tcpAccept key r => r ∈ w.cancelled → ¬ConnectionReady N w key
  | _ => True

/-- Condition on a step: no accept that it serves, or looks at again, has been cancelled while a
connection is ready for it. -/
def StepSpares (N : Smoltcp T U E) (w : World T U) : Action E → Prop
  | .command => ∀ cmd ∈ w.commands.queue.head?, CommandSpares N w cmd
  | .pending _ => ∀ e ∈ w.pending.entries, OpSpares N w e.1 e.2
  | _ => True

instance (w : World T U) (key : SocketHandle) (op : PendingOp) :
    Decidable (OpSpares N w key op) := by
  rcases op with _ | _ <;> unfold OpSpares <;> infer_instance

instance (w : World T U) (cmd : StackCommand) : Decidable (CommandSpares N w cmd) := by
  rcases cmd with _ | _ <;> unfold CommandSpares <;> infer_instance

instance (w : World T U) (a : Action E) : Decidable (StepSpares N w a) := by
  rcases a with _ | _ <;> unfold StepSpares <;> infer_instance

theorem takenOut_of_same {w w' : World T U} (h : w'.answers = w.answers) : takenOut w w' = [] := by
  rw [takenOut, h, List.drop_length, List.filterMap_nil]

theorem takenAlive_of_same {w w' : World T U} (h : w'.answers = w.answers) : TakenAlive w w' := by
  intro p hp
  rw [takenOut_of_same h] at hp
  cases hp

theorem mem_takenOut {w w' : World T U} {ext : List (ReqId × Reply)}
    (h : w'.answers = w.answers ++ ext) {r : ReqId} {x : SocketHandle} :
    (r, x) ∈ takenOut w w' ↔
      ∃ la pa ch, (r, Reply.tcp (.ok (x, la, pa, ch))) ∈ ext ∧ ∃ k, w.Listening k x := by
  rw [takenOut, h, List.drop_left, List.mem_filterMap]
  constructor
  · rintro ⟨⟨q, rep⟩, hmem, hp⟩
    obtain ⟨y, hy, hpair⟩ := Option.map_eq_some_iff.mp hp
    obtain ⟨rfl, rfl⟩ := Prod.mk.inj hpair
    obtain ⟨hstream, hback⟩ := Option.filter_eq_some_iff.mp hy
    have hlis := mem_backlogHandles.mp (of_decide_eq_true hback)
    unfold Reply.streamHandle? at hstream
    split at hstream
    · next la pa ch heq =>
      obtain rfl := Option.some.inj hstream
      obtain rfl : rep = _ := heq
      exact ⟨_, _, _, hmem, hlis⟩
    · cases hstream
  · rintro ⟨la, pa, ch, hmem, hlis⟩
    refine ⟨_, hmem, ?_⟩
    simp [Reply.streamHandle?, Option.filter, mem_backlogHandles.mpr hlis]

theorem takenAlive_iff {w w' : World T U} {ext : List (ReqId × Reply)}
    (h : w'.answers = w.answers ++ ext) :
    TakenAlive w w' ↔ ∀ r x la pa ch, (r, Reply.tcp (.ok (x, la, pa, ch))) ∈ ext →
      (∃ k, w.Listening k x) → r ∉ w.cancelled := by
  constructor
  · intro halive r x la pa ch hmem hlis
    exact halive (r, x) ((mem_takenOut h).mpr ⟨la, pa, ch, hmem, hlis⟩)
  · rintro hext ⟨r, x⟩ hp
    obtain ⟨la, pa, ch, hmem, hlis⟩ := (mem_takenOut h).mp hp
    exact hext r x la pa ch hmem hlis

/-- The request `r` is the accept of the listener that had the established socket `x`. -/
def Takes (N : Smoltcp T U E) (c : Option StackCommand) (w : World T U) (r : ReqId)
    (x : SocketHandle) : Prop :=
  ∃ key l, w.listeners.lookup key = some l ∧ x ∈ l.listeningHandles ∧
    stateOf N w x = some .established ∧
    (c = some (.tcpAccept key r) ∨ (c = none ∧ w.pending.lookup key = some (.tcpAccept r)))

/-- An answer with the stream `x` is for a connect that was pending, or for an accept. -/
def StreamAnswers (N : Smoltcp T U E) (c : Option StackCommand) (w : World T U)
    (ext : List (ReqId × Reply)) : Prop :=
  ∀ r x la pa ch, (r, Reply.tcp (.ok (x, la, pa, ch))) ∈ ext →
    (∃ op, w.pending.lookup x = some op ∧ op.isConnect) ∨ Takes N c w r x

theorem streamAnswers_single {c : Option StackCommand} {w : World T U} {r : ReqId}
    {x : SocketHandle} {la pa : SocketAddr} {ch : ChanId}
    (h : (∃ op, w.pending.lookup x = some op ∧ op.isConnect) ∨ Takes N c w r x) :
    StreamAnswers N c w [(r, .tcp (.ok (x, la, pa, ch)))] := by
  intro r' x' la' pa' ch' hmem
  simp only [List.mem_singleton, Prod.mk.injEq, Reply.tcp.injEq, Except.ok.injEq] at hmem
  obtain ⟨rfl, rfl, -⟩ := hmem
  exact h

theorem Effect.streamAnswers {c : Option StackCommand} {w w' : World T U}
    (he : Effect N c w w') :
    ∃ ext, w'.answers = w.answers ++ ext ∧ StreamAnswers N c w ext := by
  cases he with
  | reject m port ips rep hr hm hb =>
    refine ⟨_, rfl, fun r x la pa ch hmem => ?_⟩
    obtain ⟨-, rfl⟩ := Prod.mk.inj (List.mem_singleton.mp hmem)
    exact hb.elim
  | connect | wait | listenerGone | listenerClose | tcpClose | udpClose =>
    exact ⟨[], (List.append_nil _).symm, by simp [StreamAnswers]⟩
  | listen | udpBind | connectDead => exact ⟨_, rfl, by simp [StreamAnswers]⟩
  | accept l x rest s la pa hl hx hs hest =>
    refine ⟨_, by rw [World.deliverAccepted_answers, World.replaceListening_answers],
      streamAnswers_single (.inr ?_)⟩
    exact ⟨_, l, hl, hx.mem_iff.mp List.mem_cons_self, by rw [stateOf_eq hs, hest], .inl rfl⟩
  | connected la pa ch r hp =>
    exact ⟨_, rfl, streamAnswers_single (.inl ⟨_, hp, rfl⟩)⟩
  | acceptPending r l x rest s la pa hp hl hx hs hest =>
    refine ⟨_, by rw [World.deliverAccepted_answers, World.takePending_answers,
      World.replaceListening_answers], streamAnswers_single (.inr ?_)⟩
    exact ⟨_, l, hl, hx.mem_iff.mp List.mem_cons_self, by rw [stateOf_eq hs, hest],
      .inr ⟨rfl, hp⟩⟩

/-- What rounds of `process_pending` leave of a state: pending operations and listening sockets
only become fewer, apart from new sockets, and sockets do not change. -/
structure RoundsFrame (w w' : World T U) : Prop where
  pending : ∀ k op, w'.pending.lookup k = some op → w.pending.lookup k = some op
  sockets : ∀ x v, w.sockets.lookup x = some v → w'.sockets.lookup x = some v
  listening : ∀ k x v, w'.Listening k x → w.sockets.lookup x = some v → w.Listening k x

namespace RoundsFrame

theorem refl (w : World T U) : RoundsFrame w w := ⟨fun _ _ => id, fun _ _ => id, fun _ _ _ h _ => h⟩

theorem trans {u v w : World T U} (h1 : RoundsFrame u v) (h2 : RoundsFrame v w) :
    RoundsFrame u w where
  pending k op hk := h1.pending k op (h2.pending k op hk)
  sockets x s hs := h2.sockets x s (h1.sockets x s hs)
  listening k x s hk hs := h1.listening k x s (h2.listening k x s hk (h1.sockets x s hs)) hs

theorem replaceListening (hf : N.FreshHandles) {w : World T U} {key x : SocketHandle}
    {l : ListenerState} {rest : List SocketHandle} (hl : w.listeners.lookup key = some l)
    (hx : (x::rest).Perm l.listeningHandles) :
    RoundsFrame w (w.replaceListening N key l.addr rest) := by
  have hnew := World.fresh_lookup hf w.sockets
  have hrest : ∀ y ∈ rest, w.Listening key y :=
    fun y hy => ⟨l, hl, hx.mem_iff.mp (List.mem_cons_of_mem x hy)⟩
  refine ⟨by simp, fun y v hv => World.replaceListening_lookup hf hv key l.addr rest, ?_⟩
  rintro k y v ⟨l', hl', hy⟩ hv
  by_cases hk : k = key
  · subst hk
    unfold World.replaceListening at hl'
    split at hl'
    · obtain rfl := Option.some.inj ((AList.lookup_insert _).symm.trans hl')
      rcases List.mem_append.mp hy with hy | hy
      · exact hrest y hy
      · rw [List.mem_singleton.mp hy, hnew] at hv
        cases hv
    · obtain rfl := Option.some.inj ((AList.lookup_insert _).symm.trans hl')
      exact hrest y hy
  · rw [World.replaceListening_listener_ne hk] at hl'
    exact ⟨l', hl', hy⟩

theorem effect (hf : N.FreshHandles) {w w' : World T U} (he : Effect N none w w') :
    RoundsFrame w w' := by
  cases he with
  | connected | connectDead =>
    exact ⟨fun k op hk => (Table.erase_cases hk).2, fun _ _ => id, fun _ _ _ h _ => h⟩
  | acceptPending r l x rest s la pa hp hl hx hs hest =>
    have h1 := replaceListening hf hl hx
    exact ⟨fun k op hk => h1.pending k op (Table.erase_cases hk).2, h1.sockets, h1.listening⟩

end RoundsFrame

/-- An accept that the state after some rounds can serve with an old socket was already there
before them. -/
theorem RoundsFrame.takes {w v : World T U} (h : RoundsFrame w v) {r : ReqId} {x : SocketHandle}
    (hx : LiveTcp w.sockets x) (ht : Takes N none v r x) : Takes N none w r x := by
  obtain ⟨s, hs⟩ := hx
  obtain ⟨key, l, hl, hmem, hst, hc⟩ := ht
  obtain ⟨l', hl', hmem'⟩ := h.listening key x _ ⟨l, hl, hmem⟩ hs
  have hc' : none = some (StackCommand.tcpAccept key r) ∨
      none = none ∧ w.pending.lookup key = some (.tcpAccept r) :=
    hc.imp id (And.imp id (h.pending key _))
  rw [stateOf_eq (h.sockets x _ hs)] at hst
  exact ⟨key, l', hl', hmem', by rw [stateOf_eq hs, hst], hc'⟩

/-- Rounds of `process_pending` hand out listening sockets only to accepts that were pending
when they started. -/
theorem Effect.takes_path (hf : N.FreshHandles) {w w' : World T U} (ho : Owned w)
    (he : Relation.ReflTransGen (Effect N none) w w') :
    RoundsFrame w w' ∧ ∃ ext, w'.answers = w.answers ++ ext ∧ ∀ r x la pa ch,
      (r, Reply.tcp (.ok (x, la, pa, ch))) ∈ ext → (∃ k, w.Listening k x) →
        Takes N none w r x := by
  induction he with
  | refl => exact ⟨.refl w, [], (List.append_nil _).symm, by simp⟩
  | tail _ he ih =>
    obtain ⟨hfr, ext, hans, hext⟩ := ih
    obtain ⟨ext', hans', hext'⟩ := he.streamAnswers
    refine ⟨hfr.trans (.effect hf he), ext ++ ext',
      by rw [hans', hans, List.append_assoc], ?_⟩
    intro r x la pa ch hmem hlis
    rcases List.mem_append.mp hmem with hmem | hmem
    · exact hext r x la pa ch hmem hlis
    · obtain ⟨k, l, hl, hx⟩ := hlis
      rcases hext' r x la pa ch hmem with ⟨op, hop, hcon⟩ | ht
      · rw [ho.listening_not_connect hl hx op (hfr.pending x op hop)] at hcon
        cases hcon
      · exact hfr.takes (ho.live.listening k l hl x hx) ht

/-- The round over `pending` is a step of the stack after a poll that changed sockets. -/
theorem World.step_pending {cfg : StackConfig} {order : List SocketHandle} {w w' : World T U}
    (h : step N cfg (.pending order) w = some w') :
    order.isPerm w.pending.keys = true ∧ w' = w.continueAt .check (w.processPending N order) := by
  unfold step at h
  split_ifs at h
  have henv : w.envStep (.pending order : Action E) = none := rfl
  rw [henv, Option.none_or] at h
  unfold stackStep at h
  split at h <;> try contradiction
  next heq =>
    obtain rfl := Action.pending.inj heq
    split_ifs at h with hperm
    exact ⟨hperm, (Option.some.inj h).symm⟩

/-- The error replies of `fail_pending` hand out no socket. -/
theorem World.failPending_takenAlive (w : World T U) :
    TakenAlive w { w.failPending with phase := .returned } := by
  have hext : ∃ ext, w.failPending.answers = w.answers ++ ext ∧
      ∀ r x la pa ch, (r, Reply.tcp (.ok (x, la, pa, ch))) ∉ ext := by
    refine failOps_rule (fun v => ∃ ext, v.answers = w.answers ++ ext ∧
      ∀ r x la pa ch, (r, Reply.tcp (.ok (x, la, pa, ch))) ∉ ext) _
      ⟨[], (List.append_nil _).symm, by simp⟩ ?_
    rintro v k r e ⟨ext, hans, hno⟩
    refine ⟨ext ++ [(r, .tcp (.error e))], ?_, fun r' x la pa ch hmem => ?_⟩
    · rw [← List.append_assoc, ← hans]
      rfl
    · rcases List.mem_append.mp hmem with hmem | hmem
      · exact hno r' x la pa ch hmem
      · simp at hmem
  obtain ⟨ext, hans, hno⟩ := hext
  refine (takenAlive_iff hans).mpr ?_
  intro r x la pa ch hmem
  exact absurd hmem (hno r x la pa ch)

/-- A step that meets the condition takes connections only for accepts that are alive. -/
theorem Transition.takenAlive (hf : N.FreshHandles) {a : Action E} {w w' : World T U}
    (ho : Owned w) (ht : Transition N a w w') (hok : StepSpares N w a) : TakenAlive w w' := by
  cases ht with
  | env he => exact takenAlive_of_same (World.envStep_frame he).answers
  | command cmd rest hph hq he =>
    obtain ⟨ext, hans, hext⟩ := he.streamAnswers
    refine (takenAlive_iff hans).mpr ?_
    intro r x la pa ch hmem hlis hcan
    obtain ⟨k, l, hl, hx⟩ := hlis
    rcases hext r x la pa ch hmem with ⟨op, hop, hcon⟩ | ⟨key, l', hl', hx', hst, hc⟩
    · rw [ho.listening_not_connect hl hx op hop] at hcon
      cases hcon
    · obtain rfl : cmd = .tcpAccept key r := by simpa using hc
      have hsp := hok (.tcpAccept key r) (by simp [hq])
      exact hsp hcan ⟨l', hl', x, hx', hst⟩
  | pending order he =>
    obtain ⟨-, ext, hans, hext⟩ := Effect.takes_path hf ho he
    refine (takenAlive_iff hans).mpr ?_
    intro r x la pa ch hmem hlis hcan
    obtain ⟨key, l, hl, hx, hst, hc⟩ := hext r x la pa ch hmem hlis
    have hp : w.pending.lookup key = some (.tcpAccept r) := by simpa using hc
    exact hok ⟨key, .tcpAccept r⟩ (AList.mem_lookup_iff.mp hp) hcan ⟨l, hl, x, hx, hst⟩
  | fail => exact w.failPending_takenAlive
  | control | writeTcp | writeUdp | tcpEvent | udpEvent | readTcp | readUdp =>
    exact takenAlive_of_same rfl

/-- A cancelled accept that finds a connection ready takes it. -/
theorem takenAlive_served {w w' : World T U} {key : SocketHandle} {l : ListenerState} {r : ReqId}
    {ext : List (ReqId × Reply)} (hl : w.listeners.lookup key = some l)
    (hans : w'.answers = w.answers ++ ext) (hs : ServedWith N w l r ext)
    (h : TakenAlive w w') : r ∉ w.cancelled := by
  obtain ⟨x, la, pa, ch, hmem, hx, -⟩ := hs
  exact (takenAlive_iff hans).mp h r x la pa ch hmem ⟨key, l, hl, hx⟩

/-- A step that takes connections only for live accepts meets the condition. -/
theorem TakenAlive.stepSpares (hf : N.FreshHandles) (hM : N.TcpMachine) {cfg : StackConfig}
    {w w' : World T U} {a : Action E} (ho : Owned w) (hs : World.step N cfg a w = some w')
    (halive : TakenAlive w w') : StepSpares N w a := by
  cases a with
  | command =>
    intro cmd hcmd
    cases cmd with
    | tcpAccept key r =>
      rintro hcan ⟨l, hl, hex⟩
      obtain ⟨rest, hq⟩ := List.head?_eq_some_iff.mp hcmd
      obtain ⟨-, hw'⟩ := World.step_command hq hs
      let v := { w with
        commands := { w.commands with queue := rest }
        received := w.received ++ (StackCommand.tcpAccept key r).response.toList }
      have hq' : w.commands.queue =
          .tcpAccept key r::({ w.commands with queue := rest } : Chan _).queue := hq
      have hov : Owned v := ho.popCommand hq' _
      obtain ⟨w1, ext, hrun, hans, hserved⟩ :=
        handleTcpAccept_serves (w := v) hM hov hl hex r
      rw [World.handleCommand, hrun] at hw'
      subst hw'
      exact takenAlive_served (w := v) hl hans hserved halive hcan
    | _ => trivial
  | pending order =>
    rintro ⟨key, op⟩ hmem
    cases op with
    | tcpAccept r =>
      rintro hcan ⟨l, hl, hex⟩
      have hp : w.pending.lookup key = some (.tcpAccept r) := AList.mem_lookup_iff.mpr hmem
      obtain ⟨hperm, hw'⟩ := World.step_pending hs
      have hkey : key ∈ order :=
        (List.isPerm_iff.mp hperm).mem_iff.mpr ((Table.mem_keys_iff _ _).mpr ⟨_, hp⟩)
      obtain ⟨w1, ext, hrun, hans, hserved⟩ := processPending_serves hf hM ho hl hex hp hkey
      rw [hrun] at hw'
      subst hw'
      exact takenAlive_served hl hans hserved halive hcan
    | _ => trivial
  | _ => trivial

/-- A step from a reachable state spares the connections exactly when no accept whose caller is
gone is served, or looked at again, while a connection is ready. -/
theorem takenAlive_iff_stepSpares (hf : N.FreshHandles) (hM : N.TcpMachine) {w w' : World T U}
    {cfg : StackConfig} {a : Action E} (ho : Owned w) (hs : World.step N cfg a w = some w') :
    TakenAlive w w' ↔ StepSpares N w a := by
  constructor
  · intro halive
    exact halive.stepSpares hf hM ho hs
  · intro hok
    have ht := ho.step_transition hf hs
    exact ht.takenAlive hf ho hok

/-- The stack with its callers. A call whose answer has been sent returns when it is polled again,
and until then it can still be dropped. `returned` are the requests whose calls have taken their
answer. `accepted` records the connections taken out of a backlog, with the accepts that they were
sent to. -/
structure Calls (T U : Type) where
  world : World T U
  returned : List ReqId
  accepted : List (ReqId × SocketHandle)

/-- The application may use an object before the call that opened it is polled: this only adds runs.
-/
inductive CallAction (E : Type)
  | stack (a : Action E)
  | take (r : ReqId)

/-- A oneshot receiver is dropped with what has been sent to it. -/
def World.dropReceiver (w : World T U) (r : ReqId) : World T U :=
  match w.answers.find? (·.1 = r) with
  | some (_, rep) => { w with
      tcpChans := rep.releaseTcp w.tcpChans
      udpChans := rep.releaseUdp w.udpChans }
  | none => w

namespace Calls

def init (N : Smoltcp T U E) (cfg : StackConfig) (port : UInt16) : Calls T U :=
  ⟨World.init N cfg port, [], []⟩

/-- The call has its answer and has not returned it yet. -/
def CanTake (t : Calls T U) (r : ReqId) : Prop :=
  t.world.Answered r ∧ r ∉ t.world.cancelled ∧ r ∉ t.returned

instance (t : Calls T U) (r : ReqId) : Decidable (t.CanTake r) :=
  inferInstanceAs (Decidable (_ ∧ _ ∧ _))

/-- A call that has returned cannot be dropped any more. -/
def step (N : Smoltcp T U E) (cfg : StackConfig) : CallAction E → Calls T U → Option (Calls T U)
  | .take r, t => if t.CanTake r then some { t with returned := r::t.returned } else none
  | .stack (.cancel r), t =>
    if r ∈ t.returned then none
    else (World.step N cfg (.cancel r) t.world).map fun w => { t with world := w.dropReceiver r }
  | .stack a, t => (World.step N cfg a t.world).map fun w =>
      { t with world := w, accepted := t.accepted ++ takenOut t.world w }

/-- Every connection that was taken out of a backlog has been returned by the accept that it was
sent to, or this call is still there to return it. -/
def NoneLost (t : Calls T U) : Prop := ∀ p ∈ t.accepted, p.1 ∈ t.returned ∨ t.CanTake p.1

instance (t : Calls T U) : Decidable t.NoneLost :=
  inferInstanceAs (Decidable (∀ p ∈ t.accepted, p.1 ∈ t.returned ∨ t.CanTake p.1))

/-- Condition on a step: it drops no accept that has been sent a connection, and no accept that it
serves, or looks at again, has been dropped while a connection is ready for it. -/
def Spares (N : Smoltcp T U E) (t : Calls T U) : CallAction E → Prop
  | .stack (.cancel r) => ∀ p ∈ t.accepted, p.1 ≠ r
  | .stack a => StepSpares N t.world a
  | .take _ => True

instance (t : Calls T U) (a : CallAction E) : Decidable (t.Spares N a) := by
  rcases a with a | r
  · rcases a with _ | _ <;> unfold Spares <;> infer_instance
  · exact .isTrue trivial

/-- The steps of the stack with its callers. -/
inductive Step (N : Smoltcp T U E) (cfg : StackConfig) (t : Calls T U) :
    CallAction E → Calls T U → Prop
  | take (r : ReqId) (hr : t.CanTake r) :
      Step N cfg t (.take r) { t with returned := r::t.returned }
  | cancel (r : ReqId) (hr : r ∉ t.returned) (hrun : t.world.Running) :
      Step N cfg t (.stack (.cancel r)) { t with
        world := { t.world with cancelled := r::t.world.cancelled }.dropReceiver r }
  | stack {w : World T U} (a : Action E) (ha : ∀ r, a ≠ .cancel r)
      (hs : World.step N cfg a t.world = some w) :
      Step N cfg t (.stack a)
        { t with world := w, accepted := t.accepted ++ takenOut t.world w }

theorem step_cases {cfg : StackConfig} {a : CallAction E} {t t' : Calls T U}
    (h : step N cfg a t = some t') : Step N cfg t a t' := by
  cases a with
  | take r =>
    simp only [step] at h
    split_ifs at h with hr
    obtain rfl := Option.some.inj h
    exact .take r hr
  | stack a =>
    by_cases ha : ∃ r, a = .cancel r
    · obtain ⟨r, rfl⟩ := ha
      simp only [step] at h
      split_ifs at h with hr
      obtain ⟨w, hw, rfl⟩ := Option.map_eq_some_iff.mp h
      have hrun := World.running_of_step hw
      rw [World.step, if_pos hrun] at hw
      obtain rfl := Option.some.inj hw
      exact .cancel r hr hrun
    · have hne : ∀ r, a ≠ .cancel r := fun r hr => ha ⟨r, hr⟩
      have hmap : (World.step N cfg a t.world).map (fun w =>
          ({ t with world := w, accepted := t.accepted ++ takenOut t.world w } : Calls T U)) =
            some t' := by
        cases a with
        | cancel r => exact absurd rfl (hne r)
        | _ => exact h
      obtain ⟨w, hw, rfl⟩ := Option.map_eq_some_iff.mp hmap
      exact .stack a hne hw

end Calls

/-- The drop of a stream drops both of its channel ends. -/
theorem World.dropStream_reachable {cfg : StackConfig} {w : World T U} (hrun : w.Running)
    {ch : ChanId} (hch : w.HasTcpChan ch) :
    Reachable (World.step N cfg) w
      { w with tcpChans := Function.update w.tcpChans ch (w.tcpChans ch).dropAppEnds } := by
  let c := w.tcpChans ch
  let v := { w with tcpChans := Function.update w.tcpChans ch { c with write := c.write.dropTx } }
  have hwrite : World.step N cfg (.dropWriteTx ch) w = some v := by
    rw [World.step, if_pos hrun, World.envStep, if_pos hch]
    rfl
  have hread : World.step N cfg (.dropReadRx ch) v = some
      { w with tcpChans := Function.update w.tcpChans ch c.dropAppEnds } := by
    rw [World.step, if_pos (show v.Running from hrun), World.envStep,
      if_pos (show v.HasTcpChan ch from hch)]
    simp [v, c, TcpChan.dropAppEnds]
  exact .next (.next .start trivial hwrite) trivial hread

/-- Dropping the receiver does to the channels what dropping the object in the answer does. -/
theorem World.dropReceiver_reachable {cfg : StackConfig} {w : World T U} (hrun : w.Running)
    (r : ReqId) : Reachable (World.step N cfg) w (w.dropReceiver r) := by
  unfold World.dropReceiver
  split
  · next q rep hfind =>
    have hmem : (q, rep) ∈ w.answers := List.mem_of_find?_eq_some hfind
    cases rep with
    | tcp res =>
      cases res with
      | error e => exact .start
      | ok data => exact World.dropStream_reachable hrun ⟨_, hmem, rfl⟩
    | udp res =>
      cases res with
      | error e => exact .start
      | ok data =>
        obtain ⟨x, la, ch⟩ := data
        have hch : w.HasUdpChan ch := ⟨_, hmem, rfl⟩
        refine .next .start (a := .dropUdp ch) trivial ?_
        rw [World.step, if_pos hrun, World.envStep, if_pos hch]
        rfl
    | listen | unit | ips => exact .start
  · exact .start

theorem World.dropReceiver_answers (w : World T U) (r : ReqId) :
    (w.dropReceiver r).answers = w.answers := by
  unfold World.dropReceiver
  split <;> rfl

theorem World.dropReceiver_cancelled (w : World T U) (r : ReqId) :
    (w.dropReceiver r).cancelled = w.cancelled := by
  unfold World.dropReceiver
  split <;> rfl

theorem World.envStep_cancelled {w w' : World T U} {a : Action E} (h : w.envStep a = some w')
    (ha : ∀ r, a ≠ .cancel r) : w'.cancelled = w.cancelled := by
  cases a with
  | cancel r => exact absurd rfl (ha r)
  | issue cmd =>
    obtain ⟨-, n, rfl⟩ := envStep_issue h
    rfl
  | dropCommands | foreignPort | ipcDies =>
    obtain rfl := Option.some.inj h
    rfl
  | streamRead | dropWriteTx | dropReadRx | dropUdp =>
    simp only [envStep] at h
    split_ifs at h
    obtain rfl := Option.some.inj h
    rfl
  | streamWrite | udpSend | udpRecv =>
    simp only [envStep] at h
    split_ifs at h
    split at h
    · obtain rfl := Option.some.inj h
      rfl
    · cases h
  | _ => cases h

theorem Effect.cancelled {c : Option StackCommand} {w w' : World T U} (he : Effect N c w w') :
    w'.cancelled = w.cancelled := by
  have hreplace : ∀ key addr rest,
      (w.replaceListening N key addr rest).cancelled = w.cancelled := by
    intro key addr rest
    unfold World.replaceListening
    split <;> rfl
  cases he with
  | accept | acceptPending => exact hreplace ..
  | _ => rfl

/-- Only its caller drops a receiver. -/
theorem Transition.cancelled {a : Action E} {w w' : World T U} (ht : Transition N a w w')
    (ha : ∀ r, a ≠ .cancel r) : w'.cancelled = w.cancelled := by
  cases ht with
  | env he => exact World.envStep_cancelled he ha
  | command cmd rest hph hq he => exact he.cancelled
  | pending order he =>
    have hpath := Effect.path_rule (·.cancelled = w.cancelled) rfl
      (fun _ _ hu he => he.cancelled.trans hu) he
    exact hpath
  | fail =>
    exact World.failOps_rule (·.cancelled = w.cancelled) _ rfl fun _ _ _ _ hv => hv
  | control | writeTcp | writeUdp | tcpEvent | udpEvent | readTcp | readUdp => rfl

namespace Calls

variable {cfg : StackConfig} {port : UInt16} {t t' : Calls T U}

/-- The callers do nothing to the stack but drop what they have been sent. -/
theorem reach (h : Reachable (step N cfg) (init N cfg port) t) : Reach N cfg port t.world := by
  induction h with
  | start => exact .start
  | @next s _ _ _ _ hs ih =>
    cases step_cases hs with
    | take r hr => exact ih
    | cancel r hr hrun =>
      let v := { s.world with cancelled := r::s.world.cancelled }
      have hcancel : World.step N cfg (.cancel r) s.world = some v := by
        rw [World.step, if_pos hrun]
        rfl
      have hdrop : Reachable (World.step N cfg) v (v.dropReceiver r) :=
        World.dropReceiver_reachable (show v.Running from hrun) r
      exact ReachVia.trans (.next ih trivial hcancel) hdrop
    | stack a ha hw => exact .next ih trivial hw

/-- Connections have been sent to the accepts they are recorded for, and no call has returned and
been dropped. -/
structure Kept (t : Calls T U) : Prop where
  answered : ∀ p ∈ t.accepted, t.world.Answered p.1
  apart : ∀ r ∈ t.returned, r ∉ t.world.cancelled

theorem answered_of_takenOut {w w' : World T U} (hans : w.answers <+: w'.answers)
    {p : ReqId × SocketHandle} (hp : p ∈ takenOut w w') : w'.Answered p.1 := by
  obtain ⟨ext, hext⟩ := hans
  obtain ⟨la, pa, ch, hmem, -⟩ := (mem_takenOut hext.symm).mp hp
  exact ⟨_, hext ▸ List.mem_append_right _ hmem, rfl⟩

theorem Kept.step (hf : N.FreshHandles) (ho : Owned t.world) (h : Kept t) {a : CallAction E}
    (hs : step N cfg a t = some t') : Kept t' := by
  cases step_cases hs with
  | take r hr =>
    refine ⟨h.answered, fun q hq => ?_⟩
    rcases List.mem_cons.mp hq with rfl | hq
    · exact hr.2.1
    · exact h.apart q hq
  | cancel r hr hrun =>
    constructor
    · intro p hp
      obtain ⟨q, hq, hqr⟩ := h.answered p hp
      exact ⟨q, by rwa [World.dropReceiver_answers], hqr⟩
    · intro q hq
      rw [World.dropReceiver_cancelled, List.mem_cons, not_or]
      refine ⟨?_, h.apart q hq⟩
      rintro rfl
      exact hr hq
  | stack a ha hw =>
    have ht := ho.step_transition hf hw
    constructor
    · intro p hp
      rcases List.mem_append.mp hp with hp | hp
      · obtain ⟨q, hq, hqr⟩ := h.answered p hp
        exact ⟨q, ht.answers.subset hq, hqr⟩
      · exact answered_of_takenOut ht.answers hp
    · intro q hq
      rw [ht.cancelled ha]
      exact h.apart q hq

theorem kept (hf : N.FreshHandles) (h : Reachable (Calls.step N cfg) (init N cfg port) t) :
    Kept t := by
  induction h with
  | start =>
    constructor
    · intro p hp
      cases hp
    · intro r hr
      cases hr
  | next hr _ hs ih => exact ih.step hf (Reach.owned hf (reach hr)) hs

theorem Kept.noneLost_iff (h : Kept t) :
    t.NoneLost ↔ ∀ p ∈ t.accepted, p.1 ∉ t.world.cancelled := by
  apply forall₂_congr
  intro p hp
  constructor
  · rintro (hr | hr)
    · exact h.apart _ hr
    · exact hr.2.1
  · intro hc
    by_cases hr : p.1 ∈ t.returned
    · exact .inl hr
    · exact .inr ⟨h.answered p hp, hc, hr⟩

/-- A step loses no connection exactly when it meets the condition. -/
theorem noneLost_step_iff (hf : N.FreshHandles) (hM : N.TcpMachine)
    (hr : Reachable (Calls.step N cfg) (init N cfg port) t) (h : t.NoneLost) {a : CallAction E}
    (hs : Calls.step N cfg a t = some t') : t'.NoneLost ↔ t.Spares N a := by
  have ho := Reach.owned hf (reach hr)
  have hk := kept hf hr
  rw [hk.noneLost_iff] at h
  rw [(hk.step hf ho hs).noneLost_iff]
  cases step_cases hs with
  | take r _ => exact iff_of_true h trivial
  | cancel r _ _ =>
    apply forall₂_congr
    intro p hp
    rw [World.dropReceiver_cancelled, List.mem_cons, not_or, and_iff_left (h p hp)]
  | stack a ha hw =>
    have ht := ho.step_transition hf hw
    have hspares : t.Spares N (.stack a) = StepSpares N t.world a := by
      cases a with
      | cancel r => exact absurd rfl (ha r)
      | _ => rfl
    rw [hspares, ← takenAlive_iff_stepSpares hf hM ho hw]
    simp only [List.forall_mem_append, ht.cancelled ha]
    exact and_iff_right h

end Calls

/-- Exactly when is accept cancel-safe in a run: no accept is dropped between the sending of its
connection and the poll that would return it, and no accept whose caller is gone is ever served, or
looked at again, while a connection is ready. -/
theorem accept_cancel_safe_iff (N : Smoltcp T U E) (hf : N.FreshHandles) (hM : N.TcpMachine)
    (cfg : StackConfig) (port : UInt16) (as : List (CallAction E)) :
    everyStep (Calls.step N cfg) (fun _ _ t' => t'.NoneLost) as (Calls.init N cfg port) ↔
      everyStep (Calls.step N cfg) (fun t a _ => t.Spares N a) as (Calls.init N cfg port) := by
  refine everyStep_kept_iff (Calls.step N cfg) (fun t a t' hr h hs => ?_) as .start ?_
  · exact Calls.noneLost_step_iff hf hM hr h hs
  · intro p hp
    cases hp

/-- An accept that waits gets its connection, and returns it. -/
theorem accept_cancel_safe_iff_acceptRun :
    (runActions (Calls.step refNet hostCfg) (acceptRun.map .stack ++ [.take 1])
        (Calls.init refNet hostCfg 49152)).map (fun t => (t.accepted, t.returned)) =
      some ([(1, 0)], [1]) ∧
    everyStep (Calls.step refNet hostCfg) (fun _ _ t' => t'.NoneLost)
      (acceptRun.map .stack ++ [.take 1]) (Calls.init refNet hostCfg 49152) :=
  ⟨by decide +kernel, (accept_cancel_safe_iff refNet refNet_freshHandles refNet_tcpMachine hostCfg
    49152 (acceptRun.map .stack ++ [.take 1])).mpr (by decide +kernel)⟩

/-- An accept waits on a listener with backlog 1. -/
def waitRun : List (Action RefEvent) :=
  .flatten [listenRun 1, [.issue (.tcpAccept 0 1), .command], iteration [] [] none]

/-- A connection comes in, up to the round over `pending`. -/
def connectionRun : List (Action RefEvent) :=
  .timeout::(iteration [] [(0, .syn serverEp peerEp), (0, .ack 0)] (some [0])).dropLast.dropLast

/-- The rest of the iteration, and the next accept. -/
def nextAcceptRun : List (Action RefEvent) :=
  .flatten [[.checkDead, .issue (.tcpAccept 0 2), .command], iteration [0] [] none]

/-- After the actions `before` no connection is lost and one is ready. The step `a` loses it: it is
closed, and the next accept is left waiting. -/
def LosesConnection (before : List (Action RefEvent)) (a : Action RefEvent) : Prop :=
  ∃ t t' t'', runActions (Calls.step refNet hostCfg) (before.map .stack)
      (Calls.init refNet hostCfg 49152) = some t ∧ t.NoneLost ∧
    stateOf refNet t.world 0 = some .established ∧
    Calls.step refNet hostCfg (.stack a) t = some t' ∧ ¬t'.NoneLost ∧
    runActions (Calls.step refNet hostCfg) (nextAcceptRun.map .stack) t' = some t'' ∧
    t''.world.pending.lookup 0 = some (.tcpAccept 2) ∧
    stateOf refNet t''.world 0 = some .finWait1

theorem losesConnection_of_run {before : List (Action RefEvent)} {a : Action RefEvent}
    (h : (runActions (Calls.step refNet hostCfg) (before.map .stack)
      (Calls.init refNet hostCfg 49152)).map (fun t => decide (t.NoneLost ∧
        stateOf refNet t.world 0 = some .established ∧
        ((Calls.step refNet hostCfg (.stack a) t).bind fun t' =>
          (runActions (Calls.step refNet hostCfg) (nextAcceptRun.map .stack) t').map fun t'' =>
            (decide t'.NoneLost, t''.world.pending.lookup 0, stateOf refNet t''.world 0)) =
          some (false, some (.tcpAccept 2), some .finWait1))) = some true) :
    LosesConnection before a := by
  obtain ⟨t, ht, hp⟩ := Option.map_eq_some_iff.mp h
  obtain ⟨hnone, hst, hafter⟩ := of_decide_eq_true hp
  obtain ⟨t', ht', hafter⟩ := Option.bind_eq_some_iff.mp hafter
  obtain ⟨t'', ht'', hend⟩ := Option.map_eq_some_iff.mp hafter
  obtain ⟨hlost, hend⟩ := Prod.mk.inj hend
  obtain ⟨hpend, hfin⟩ := Prod.mk.inj hend
  exact ⟨t, t', t'', ht, hnone, hst, ht', of_decide_eq_false hlost, ht'', hpend, hfin⟩

/-- The accept is dropped before the connection comes in, or when it has just been sent to it. -/
theorem cancelled_accept_takes :
    LosesConnection (waitRun ++ .cancel 1::connectionRun) (.pending [0]) ∧
    LosesConnection (waitRun ++ connectionRun ++ [.pending [0]]) (.cancel 1) :=
  ⟨losesConnection_of_run (by decide +kernel), losesConnection_of_run (by decide +kernel)⟩

end TapTunnel.Stack
