import TapTunnel.Stack.HandleSafety

namespace TapTunnel.Stack

open Framework Reference

variable {T U E : Type} {N : Smoltcp T U E}

/-- Some listening socket of `l` can be handed out at once. -/
def acceptReady (N : Smoltcp T U E) (w : World T U) (l : ListenerState) : Bool :=
  l.listeningHandles.any (fun x =>
    match w.sockets.lookup x with
    | some (.tcp s) => N.tcpState s == .established && (N.remoteEndpoint s).isSome
    | _ => false)

/-- Handling the command discards no stored sender: an accept that will have to wait finds
its slot in `pending` free, and so does the closing of a listener. -/
def SlotFree (N : Smoltcp T U E) (w : World T U) : StackCommand → Prop
  | .tcpAccept h _ => w.pending.lookup h = none ∨
      ∀ l ∈ w.listeners.lookup h, acceptReady N w l = true
  | .tcpListenerClose h => w.pending.lookup h = none
  | _ => True

/-- Condition on a step: the command it handles, if any, finds its slot free. -/
def StepSlotFree (N : Smoltcp T U E) (w : World T U) : Action E → Prop
  | .command => ∀ cmd ∈ w.commands.queue.head?, SlotFree N w cmd
  | _ => True

instance (w : World T U) (cmd : StackCommand) : Decidable (SlotFree N w cmd) := by
  rcases cmd with _ | _ <;> unfold SlotFree <;> infer_instance

instance (w : World T U) (a : Action E) : Decidable (StepSlotFree N w a) := by
  rcases a with _ | _ <;> unfold StepSlotFree <;> infer_instance

section Components

variable {An : List (ReqId × Reply)} {Pe : HandleMap PendingOp} {r : ReqId}

/-- The sender `r` has been answered or is stored. -/
def Accounted (An : List (ReqId × Reply)) (Pe : HandleMap PendingOp) (r : ReqId) : Prop :=
  (∃ p ∈ An, p.1 = r) ∨ ∃ h op, Pe.lookup h = some op ∧ op.response = r

namespace Accounted

theorem push (h : Accounted An Pe r) (p : ReqId × Reply) : Accounted (An ++ [p]) Pe r :=
  h.imp_left (fun ⟨q, hq, he⟩ => ⟨q, List.mem_append_left _ hq, he⟩)

theorem answered (rep : Reply) : Accounted (An ++ [(r, rep)]) Pe r :=
  .inl ⟨(r, rep), by simp, rfl⟩

theorem insert (h : Accounted An Pe r) {k : SocketHandle} (hk : Pe.lookup k = none)
    (op : PendingOp) : Accounted An (Pe.insert k op) r := by
  refine h.imp_right (fun ⟨x, op', hx, he⟩ => ⟨x, op', ?_, he⟩)
  have hne : x ≠ k := by
    rintro rfl
    rw [hk] at hx
    cases hx
  rw [AList.lookup_insert_ne hne, hx]

theorem stored (k : SocketHandle) (op : PendingOp) : Accounted An (Pe.insert k op) op.response :=
  .inr ⟨k, op, AList.lookup_insert _, rfl⟩

theorem erase (h : Accounted An Pe r) {k : SocketHandle} (hk : Pe.lookup k = none) :
    Accounted An (Pe.erase k) r := by
  refine h.imp_right (fun ⟨x, op, hx, he⟩ => ⟨x, op, ?_, he⟩)
  have hne : x ≠ k := by
    rintro rfl
    rw [hk] at hx
    cases hx
  rw [AList.lookup_erase_ne hne, hx]

/-- An operation may be removed when its sender is answered. -/
theorem finish (h : Accounted An Pe r) {k : SocketHandle} {op : PendingOp}
    (hk : Pe.lookup k = some op) (rep : Reply) :
    Accounted (An ++ [(op.response, rep)]) (Pe.erase k) r := by
  rcases h with ⟨q, hq, he⟩ | ⟨x, op', hx, he⟩
  · exact .inl ⟨q, List.mem_append_left _ hq, he⟩
  · by_cases hxk : x = k
    · subst hxk
      obtain rfl : op' = op := Option.some.inj (hx.symm.trans hk)
      exact he ▸ answered rep
    · exact .inr ⟨x, op', by rw [AList.lookup_erase_ne hxk, hx], he⟩

end Accounted

end Components

theorem accounted_iff (w : World T U) (r : ReqId) :
    Accounted w.answers w.pending r ↔ w.Answered r ∨ w.Stored r := by
  refine or_congr_right ⟨?_, ?_⟩
  · rintro ⟨h, op, hl, he⟩
    exact ⟨⟨h, op⟩, AList.mem_lookup_iff.mp hl, he⟩
  · rintro ⟨⟨h, op⟩, hm, he⟩
    exact ⟨h, op, AList.mem_lookup_iff.mpr hm, he⟩

theorem not_acceptReady {w : World T U} {l : ListenerState}
    (h : ∀ x ∈ l.listeningHandles, ∀ s, w.sockets.lookup x = some (.tcp s) →
      N.tcpState s = .established → N.remoteEndpoint s = none) :
    acceptReady N w l = false := by
  rw [acceptReady, List.any_eq_false]
  intro x hx
  split
  · next s hs =>
    simp only [Bool.and_eq_true, beq_iff_eq, not_and]
    intro he
    simp [h x hx s hs he]
  · simp

/-- An effect whose command finds its slot free keeps every sender, and settles or stores the
one that came with the command. -/
theorem Effect.accounted {c : Option StackCommand} {w w' : World T U} (ho : Owned w)
    (he : Effect N c w w') (hok : ∀ cmd, c = some cmd → SlotFree N w cmd) :
    (∀ r, Accounted w.answers w.pending r → Accounted w'.answers w'.pending r) ∧
    (∀ cmd r, c = some cmd → cmd.response = some r → Accounted w'.answers w'.pending r) := by
  cases he with
  | reject m port ips rep hr hm hb =>
    refine ⟨fun r h => h.push _, fun cmd r hc hcr => ?_⟩
    cases hc
    obtain rfl := Option.some.inj (hr.symm.trans hcr)
    exact .answered rep
  | connect k s port la hk =>
    refine ⟨fun r h => h.insert (ho.unused hk).2.2.1 _, fun cmd r hc hcr => ?_⟩
    cases hc
    cases hcr
    exact .stored k _
  | listen m hs primary hp hlen hnd hport hold hnew hrest =>
    refine ⟨fun r h => h.push _, fun cmd r hc hcr => ?_⟩
    cases hc
    cases hcr
    exact .answered _
  | accept l x rest s la pa hl hx hs hest =>
    simp only [World.deliverAccepted_answers, World.deliverAccepted_pending,
      World.replaceListening_answers, World.replaceListening_pending]
    refine ⟨fun r h => h.push _, fun cmd r hc hcr => ?_⟩
    cases hc
    cases hcr
    exact .answered _
  | wait l hl hnone =>
    rename_i key r
    have hfree : w.pending.lookup key = none := by
      rcases hok _ rfl with h | h
      · exact h
      · exact absurd (h l hl) (by simp [not_acceptReady hnone])
    refine ⟨fun r h => h.insert hfree _, fun cmd r hc hcr => ?_⟩
    cases hc
    cases hcr
    exact .stored key (.tcpAccept _)
  | listenerGone hl =>
    exact ⟨fun r h => h.erase (hok _ rfl), fun cmd r hc hcr => by cases hc; cases hcr⟩
  | listenerClose l m hl hout hin =>
    exact ⟨fun r h => h.erase (hok _ rfl), fun cmd r hc hcr => by cases hc; cases hcr⟩
  | tcpClose s hs => exact ⟨fun r h => h, fun cmd r hc hcr => by cases hc; cases hcr⟩
  | udpBind k s port addr hk =>
    refine ⟨fun r h => h.push _, fun cmd r hc hcr => ?_⟩
    cases hc
    cases hcr
    exact .answered _
  | udpClose s hs => exact ⟨fun r h => h, fun cmd r hc hcr => by cases hc; cases hcr⟩
  | connected la pa ch r hp => exact ⟨fun r h => h.finish hp _, nofun⟩
  | connectDead la pa ch r e hp => exact ⟨fun r h => h.finish hp _, nofun⟩
  | acceptPending r l x rest s la pa hp hl hx hs hest =>
    simp only [World.deliverAccepted_answers, World.deliverAccepted_pending,
      World.takePending_answers, World.takePending_pending, World.replaceListening_answers,
      World.replaceListening_pending]
    exact ⟨fun r h => h.finish hp _, nofun⟩

theorem Effect.accounted_path {w w' : World T U} (hf : N.FreshHandles) (ho : Owned w)
    (he : Relation.ReflTransGen (Effect N none) w w') :
    w'.received = w.received ∧
    ∀ r, Accounted w.answers w.pending r → Accounted w'.answers w'.pending r := by
  induction he with
  | refl => exact ⟨rfl, fun _ => id⟩
  | tail hpath he ih =>
    have hstep := he.accounted (ho.effects hf hpath) nofun
    exact ⟨he.received.trans ih.1, fun r h => hstep.1 r (ih.2 r h)⟩

/-- Failing an operation answers its sender. -/
theorem failOps_answered {ops : List ((_ : SocketHandle) × PendingOp)} {w : World T U}
    {e : (_ : SocketHandle) × PendingOp} (he : e ∈ ops) :
    (World.failOps ops w).Answered e.2.response := by
  induction ops generalizing w with
  | nil => cases he
  | cons e0 ops ih =>
    rcases List.mem_cons.mp he with rfl | he
    · refine ⟨(e.2.response, .tcp (.error ⟨.connectionAborted, "proxy connection lost"⟩)), ?_, rfl⟩
      exact (World.failOps_answers ops _).subset
        (List.mem_append_right _ (List.mem_singleton.mpr rfl))
    · exact ih he

theorem failPending_accounted (w : World T U) {r : ReqId} (h : w.Answered r ∨ w.Stored r) :
    w.failPending.Answered r := by
  rcases h with ⟨p, hp, he⟩ | ⟨e, hm, he⟩
  · exact ⟨p, (World.failOps_answers _ w).subset hp, he⟩
  · exact he ▸ failOps_answered hm

/-- Every sender that arrived has been answered or is stored. -/
def AllAccounted (w : World T U) : Prop :=
  ∀ r ∈ w.received, Accounted w.answers w.pending r

/-- Step lemma: a step that meets the condition loses no sender. -/
theorem AllAccounted.transition (hf : N.FreshHandles) {w w' : World T U} {a : Action E}
    (ho : Owned w) (h : AllAccounted w) (hok : StepSlotFree N w a) (ht : Transition N a w w') :
    AllAccounted w' := by
  cases ht with
  | env he =>
    have hfr := World.envStep_frame he
    unfold AllAccounted
    rw [hfr.received, hfr.answers, hfr.pending]
    exact h
  | command cmd rest hph hq he =>
    have hslot : SlotFree N w cmd := hok cmd (by simp [hq])
    obtain ⟨hkeep, hnew⟩ := he.accounted (ho.popCommand hq _) (fun c hc => by cases hc; exact hslot)
    intro r hr
    rw [show World.received _ = _ from he.received] at hr
    rcases List.mem_append.mp hr with hr | hr
    · exact hkeep r (h r hr)
    · exact hnew cmd r rfl (Option.mem_toList.mp hr)
  | pending order he =>
    obtain ⟨hrec, hkeep⟩ := Effect.accounted_path hf ho he
    intro r hr
    rw [show World.received _ = _ from hrec] at hr
    exact hkeep r (h r hr)
  | fail =>
    intro r hr
    have hrec : w.failPending.received = w.received :=
      World.failOps_rule (fun v => v.received = w.received) _ rfl (fun _ _ _ _ hv => hv)
    have hr' : r ∈ w.received := by rwa [← hrec]
    exact .inl (failPending_accounted w ((accounted_iff w r).mp (h r hr')))
  | control | writeTcp | writeUdp | tcpEvent | udpEvent | readTcp | readUdp => exact h

/-- In every run in which each handled accept and listener close finds its slot in `pending`
free, every sender that arrived has been answered or is still stored, in every state. -/
theorem requests_accounted (N : Smoltcp T U E) (hf : N.FreshHandles) (cfg : StackConfig)
    (port : UInt16) (w : World T U)
    (h : ReachVia (World.step N cfg) (StepSlotFree N) (World.init N cfg port) w) :
    ∀ r ∈ w.received, w.Answered r ∨ w.Stored r := by
  have hall := Reach.invariant hf AllAccounted (fun _ _ => nofun)
    (fun _ _ _ ho hs hok ht => hs.transition hf ho hok ht) h
  exact fun r hr => (accounted_iff w r).mp (hall r hr)

theorem requests_accounted_acceptRun :
    ∃ w : World RefTcp RefUdp, w.received = [0, 1] ∧ (w.Answered 1 ∨ w.Stored 1) := by
  obtain ⟨w, hr, hp⟩ := reachVia_of_run (World.step refNet hostCfg) (StepSlotFree refNet)
    acceptRun (World.init refNet hostCfg 49152) (fun w => decide (w.received = [0, 1]))
    (by decide +kernel)
  have hrec : w.received = [0, 1] := of_decide_eq_true hp
  exact ⟨w, hrec, requests_accounted refNet refNet_freshHandles hostCfg 49152 w hr 1
    (by simp [hrec])⟩

/-- A listener on which nobody connects, with the accepts 1 and 2 waiting on it. -/
def twoAccepts : List (Action RefEvent) :=
  listenRun 1 ++ .issue (.tcpAccept 0 1)::.command::iteration [] [] none ++
    .issue (.tcpAccept 0 2)::.command::iteration [] [] none

/-- A listener is closed while an accept waits on it. -/
def closeWhileAccepting : List (Action RefEvent) :=
  listenRun 1 ++ .issue (.tcpAccept 0 1)::.command::iteration [] [] none ++
    .issue (.tcpListenerClose 0)::.command::iteration [] [] none

/-- A second accept on a listener overwrites the sender of the first, and closing a listener
drops the sender of an accept that waits on it. -/
theorem accept_sender_dropped :
    (∃ w, Reach refNet hostCfg 49152 w ∧ w.phase = .select ∧ 1 ∈ w.received ∧
      ¬(w.Answered 1 ∨ w.Stored 1)) ∧
    (∃ w, Reach refNet hostCfg 49152 w ∧ w.phase = .select ∧ w.listeners.lookup 0 = none ∧
      1 ∈ w.received ∧ ¬(w.Answered 1 ∨ w.Stored 1)) := by
  refine ⟨?_, ?_⟩
  · obtain ⟨w, hr, -, hp⟩ := reachable_of_run (World.step refNet hostCfg) twoAccepts
      (World.init refNet hostCfg 49152) (fun w => decide (w.phase = .select ∧ 1 ∈ w.received ∧
        ¬(w.Answered 1 ∨ w.Stored 1))) (by decide +kernel)
    exact ⟨w, hr, of_decide_eq_true hp⟩
  · obtain ⟨w, hr, -, hp⟩ := reachable_of_run (World.step refNet hostCfg) closeWhileAccepting
      (World.init refNet hostCfg 49152) (fun w => decide (w.phase = .select ∧
        w.listeners.lookup 0 = none ∧ 1 ∈ w.received ∧ ¬(w.Answered 1 ∨ w.Stored 1)))
      (by decide +kernel)
    exact ⟨w, hr, of_decide_eq_true hp⟩

end TapTunnel.Stack
