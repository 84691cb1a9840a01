import TapTunnel.Stack.Accept
import TapTunnel.Stack.AnswersOnce
import TapTunnel.Stack.Connecting

namespace TapTunnel.Stack

open Framework Reference

variable {T U E : Type} {N : Smoltcp T U E}

/-- A TCP socket that belongs to no listener. -/
def NotListening (k : SocketHandle) (w : World T U) : Prop :=
  LiveTcp w.sockets k ∧ ∀ key l, w.listeners.lookup key = some l → k ∉ l.listeningHandles

/-- A socket is left alone, with its entry and the operation that waits on it. -/
structure Aside (k : SocketHandle) (w w' : World T U) : Prop where
  undisturbed : Undisturbed k w w'
  entry : w'.tcpStates.lookup k = w.tcpStates.lookup k
  quiet : NotListening k w'

theorem Aside.trans {k : SocketHandle} {u v w : World T U} (h1 : Aside k u v) (h2 : Aside k v w) :
    Aside k u w :=
  ⟨h1.undisturbed.trans h2.undisturbed, h2.entry.trans h1.entry, h2.quiet⟩

section Rounds

variable {w w' : World T U} {k x : SocketHandle}

theorem NotListening.replaceListening (hf : N.FreshHandles) (h : NotListening k w)
    (key : SocketHandle) {l : ListenerState} (hl : w.listeners.lookup key = some l)
    {y : SocketHandle} {rest : List SocketHandle} (hx : (y::rest).Perm l.listeningHandles)
    (addr : SocketAddr) : NotListening k (w.replaceListening N key addr rest) := by
  obtain ⟨⟨s, hs⟩, hno⟩ := h
  have hrest : k ∉ rest := fun hmem => hno key l hl (hx.mem_iff.mp (.tail _ hmem))
  have hfresh : k ≠ N.fresh w.sockets.keys := by
    intro he
    rw [he, World.fresh_lookup hf] at hs
    cases hs
  refine ⟨⟨s, World.replaceListening_lookup hf hs key addr rest⟩, fun key' l' hl' => ?_⟩
  unfold World.replaceListening at hl'
  split at hl'
  · rcases Table.insert_cases hl' with ⟨-, rfl⟩ | ⟨-, hl'⟩
    · simp [hrest, hfresh]
    · exact hno key' l' hl'
  · rcases Table.insert_cases hl' with ⟨-, rfl⟩ | ⟨-, hl'⟩
    · exact hrest
    · exact hno key' l' hl'

theorem processPendingOne_aside (hf : N.FreshHandles) (ho : Owned w) (hk : NotListening k w)
    (hne : k ≠ x) : ∃ w', w.processPendingOne N x = .ok w' ∧ Owned w' ∧ Aside k w w' := by
  obtain ⟨w', hrun, ho', hun⟩ := processPendingOne_undisturbed hf ho hne
  refine ⟨w', hrun, ho', ?_⟩
  suffices w'.tcpStates.lookup k = w.tcpStates.lookup k ∧ NotListening k w' from
    ⟨hun, this.1, this.2⟩
  unfold World.processPendingOne at hrun
  cases hp : w.pending.lookup x with
  | none =>
    rw [hp] at hrun
    obtain rfl := Except.ok.inj hrun
    exact ⟨rfl, hk⟩
  | some op =>
    cases op with
    | tcpConnect la pa ch r =>
      obtain ⟨⟨st, hst⟩, -⟩ := ho.keys.connect x _ hp rfl
      obtain ⟨s, hs⟩ := ho.live.tcp x st hst
      simp only [hp, World.getTcp_eq hs, bind, Except.bind] at hrun
      split at hrun
      · obtain rfl := Except.ok.inj hrun
        exact ⟨rfl, hk⟩
      · obtain rfl := Except.ok.inj hrun
        exact ⟨AList.lookup_erase_ne hne, hk⟩
      · obtain rfl := Except.ok.inj hrun
        exact ⟨AList.lookup_erase_ne hne, hk⟩
      · obtain rfl := Except.ok.inj hrun
        exact ⟨rfl, hk⟩
    | tcpAccept r =>
      obtain ⟨l, hl⟩ := ho.keys.accept x _ hp rfl
      simp only [hp, hl] at hrun
      rcases World.tryAcceptSocket_cases (N := N) x l (ho.live.listening x l hl) with
        ⟨he, -⟩ | ⟨y, rest, s, la, pa, hx, hs, hst, he⟩
      · rw [he] at hrun
        obtain rfl := Except.ok.inj hrun
        exact ⟨rfl, hk⟩
      · rw [he] at hrun
        obtain rfl := Except.ok.inj hrun
        have hy : k ≠ y := by
          intro hky
          exact hk.2 x l hl (hky ▸ hx.mem_iff.mp List.mem_cons_self)
        refine ⟨?_, hk.replaceListening hf x hl hx l.addr⟩
        refine (AList.lookup_insert_ne hy).trans ?_
        change (w.replaceListening N x l.addr rest).tcpStates.lookup k = _
        rw [World.replaceListening_tcpStates]

theorem processPending_aside (hf : N.FreshHandles) (ho : Owned w) (hk : NotListening k w)
    (order : List SocketHandle) (hnot : k ∉ order) :
    ∃ w', w.processPending N order = .ok w' ∧ Owned w' ∧ Aside k w w' := by
  induction order generalizing w with
  | nil => exact ⟨w, rfl, ho, .refl k w, rfl, hk⟩
  | cons x order ih =>
    simp only [List.mem_cons, not_or] at hnot
    obtain ⟨w1, hrun1, ho1, h1⟩ := processPendingOne_aside hf ho hk hnot.1
    obtain ⟨w2, hrun2, ho2, h2⟩ := ih ho1 h1.quiet hnot.2
    exact ⟨w2, (World.processPending_cons hrun1 order).trans hrun2, ho2, h1.trans h2⟩

def connectFailed : IoError := ⟨.connectionRefused, "connection failed"⟩

/-- The round on a pending connect looks for three of the states only. -/
theorem processPendingOne_connect {la pa : SocketAddr} {ch : ChanId} {r : ReqId} {s : T}
    (hp : w.pending.lookup k = some (.tcpConnect la pa ch r))
    (hs : w.sockets.lookup k = some (.tcp s)) :
    w.processPendingOne N k = .ok (match N.tcpState s with
      | .established => (w.takePending k).answer r (.tcp (.ok (k, la, pa, ch)))
      | .closed | .timeWait =>
        ((w.dropPending k).removeTcpState k).answer r (.tcp (.error connectFailed))
      | _ => w) := by
  unfold World.processPendingOne
  simp only [hp, World.getTcp_eq hs, bind, Except.bind]
  cases N.tcpState s <;> rfl

/-- A pass visits every handle once, and leaves it alone before and after. -/
theorem processPending_around (hf : N.FreshHandles) (ho : Owned w) (hk : NotListening k w)
    {order : List SocketHandle} (hmem : k ∈ order) (hnd : order.Nodup)
    (hrun : w.processPending N order = .ok w') :
    ∃ w1 w2, Aside k w w1 ∧ w1.processPendingOne N k = .ok w2 ∧
      (NotListening k w2 → Aside k w2 w') := by
  obtain ⟨pre, post, rfl, hpre⟩ := List.eq_append_cons_of_mem hmem
  have hpost : k ∉ post := by
    have htail := (List.nodup_append.mp hnd).2.1
    exact (List.nodup_cons.mp htail).1
  obtain ⟨w1, hrun1, ho1, h1⟩ := processPending_aside hf ho hk pre hpre
  obtain ⟨w2, hrun2, ho2⟩ : ∃ w2, w1.processPendingOne N k = .ok w2 ∧ Owned w2 := by
    rcases ho1.processPendingOne_effect (N := N) k with he | ⟨w2, he, -⟩
    · exact ⟨w1, he, ho1⟩
    · exact ⟨w2, he, ho1.processPendingOne hf he⟩
  refine ⟨w1, w2, h1, hrun2, fun hk2 => ?_⟩
  obtain ⟨w3, hrun3, -, h3⟩ := processPending_aside hf ho2 hk2 post hpost
  rw [World.processPending_append hrun1, World.processPending_cons hrun2, hrun3] at hrun
  obtain rfl := Except.ok.inj hrun
  exact h3

/-- What a pass makes of a pending connect, by the state of its socket. -/
theorem processPending_connect (hf : N.FreshHandles) (ho : Owned w) (hk : NotListening k w)
    {la pa : SocketAddr} {ch : ChanId} {r : ReqId} {s : T}
    (hp : w.pending.lookup k = some (.tcpConnect la pa ch r))
    (hs : w.sockets.lookup k = some (.tcp s)) {order : List SocketHandle} (hmem : k ∈ order)
    (hnd : order.Nodup) (hrun : w.processPending N order = .ok w') :
    match N.tcpState s with
    | .established => w'.pending.lookup k = none ∧ (r, .tcp (.ok (k, la, pa, ch))) ∈ w'.answers
    | .closed | .timeWait => w'.pending.lookup k = none ∧ w'.tcpStates.lookup k = none ∧
        (r, .tcp (.error connectFailed)) ∈ w'.answers
    | _ => w'.pending.lookup k = some (.tcpConnect la pa ch r) ∧
        w'.tcpStates.lookup k = w.tcpStates.lookup k := by
  obtain ⟨w1, w2, h1, hone, h2⟩ := processPending_around hf ho hk hmem hnd hrun
  have hround := processPendingOne_connect (N := N) (h1.undisturbed.pending.trans hp)
    (h1.undisturbed.sockets k _ hs)
  have hw2 := Except.ok.inj (hone.symm.trans hround)
  have hlast : ∀ (v : World T U) (rep : Reply), (r, rep) ∈ (v.answer r rep).answers := by
    intro v rep
    simp [World.answer]
  split
  · next hq =>
    rw [hq] at hw2
    subst hw2
    have hend := (h2 h1.quiet).undisturbed
    refine ⟨hend.pending.trans (AList.lookup_erase _ _), hend.answers.subset (hlast _ _)⟩
  · next hq =>
    rw [hq] at hw2
    subst hw2
    have hend := h2 h1.quiet
    exact ⟨hend.undisturbed.pending.trans (AList.lookup_erase _ _),
      hend.entry.trans (AList.lookup_erase _ _), hend.undisturbed.answers.subset (hlast _ _)⟩
  · next hq =>
    rw [hq] at hw2
    subst hw2
    have hend := h2 h1.quiet
    exact ⟨hend.undisturbed.pending.trans (AList.lookup_erase _ _),
      hend.entry.trans (AList.lookup_erase _ _), hend.undisturbed.answers.subset (hlast _ _)⟩
  · next hne1 hne2 hne3 =>
    have hsame : w2 = w1 := by
      rw [hw2]
      split
      · next hq => exact absurd hq hne1
      · next hq => exact absurd hq hne2
      · next hq => exact absurd hq hne3
      · rfl
    subst hsame
    have hend := h1.trans (h2 h1.quiet)
    exact ⟨hend.undisturbed.pending.trans hp, hend.entry⟩

end Rounds

theorem Effect.pending_none {w w' : World T U} (he : Effect N none w w') {k : SocketHandle}
    {op : PendingOp} (hk : w'.pending.lookup k = some op) : w.pending.lookup k = some op := by
  cases he with
  | connected | connectDead => exact (Table.erase_cases hk).2
  | acceptPending r l x rest s la pa hp hl hx hs hest =>
    rename_i key
    have hk' := (Table.erase_cases hk).2
    rwa [World.replaceListening_pending] at hk'

theorem Effect.sockets_none (hf : N.FreshHandles) {w w' : World T U} (he : Effect N none w w')
    {k : SocketHandle} {v : Socket T U} (hk : w.sockets.lookup k = some v) :
    w'.sockets.lookup k = some v := by
  cases he with
  | connected | connectDead => exact hk
  | acceptPending r l x rest s la pa hp hl hx hs hest =>
    rename_i key
    exact World.replaceListening_lookup hf hk key l.addr rest

theorem Owned.step_pending (hf : N.FreshHandles) {cfg : StackConfig} {w w' : World T U}
    {order : List SocketHandle} (ho : Owned w)
    (hs : World.step N cfg (.pending order) w = some w') :
    ∃ w1, order.Perm w.pending.keys ∧ w.processPending N order = .ok w1 ∧
      Relation.ReflTransGen (Effect N none) w w1 ∧ w' = { w1 with phase := .check } := by
  obtain ⟨w1, hrun, hpath⟩ := ho.processPending_effects hf order
  unfold World.step at hs
  split_ifs at hs
  have henv : w.envStep (.pending order : Action E) = none := rfl
  rw [henv, Option.none_or] at hs
  unfold World.stackStep at hs
  split at hs
  all_goals try contradiction
  rename_i order' hph hact
  obtain rfl := Action.pending.inj hact
  split_ifs at hs with hperm
  rw [hrun] at hs
  exact ⟨w1, List.isPerm_iff.mp hperm, hrun, hpath, (Option.some.inj hs).symm⟩

/-- The connect has been dealt with as its socket, in state `q`, requires: one that is still in the
handshake goes on, one that is complete has been answered with its channels, and one whose socket
is dead with an error, each of them exactly once. -/
def ConnectSettled (w w' : World T U) (k : SocketHandle) (la pa : SocketAddr) (ch : ChanId)
    (r : ReqId) (q : TcpState) : Prop :=
  if q.handshaking then
    w'.pending.lookup k = some (.tcpConnect la pa ch r) ∧
      w'.tcpStates.lookup k = w.tcpStates.lookup k ∧ ¬w'.Answered r
  else if q.usable then
    w'.pending.lookup k = none ∧
      w'.answers.filter (·.1 = r) = [(r, .tcp (.ok (k, la, pa, ch)))]
  else
    w'.pending.lookup k = none ∧ w'.tcpStates.lookup k = none ∧
      ∃ e, w'.answers.filter (·.1 = r) = [(r, .tcp (.error e))]

section Pass

variable {cfg : StackConfig} {port : UInt16} {w w' : World T U} {order : List SocketHandle}
  {k : SocketHandle} {la pa : SocketAddr} {ch : ChanId} {r : ReqId}

/-- A pass settles a connect exactly if its socket is not in `CloseWait`, and otherwise leaves it
pending. -/
theorem Reach.connectSettled_iff (hf : N.FreshHandles) (hM : N.TcpMachine)
    (hH : N.HandshakeContract) (h : Reach N cfg port w)
    (hs : World.step N cfg (.pending order) w = some w')
    (hp : w.pending.lookup k = some (.tcpConnect la pa ch r)) :
    ∃ q, stateOf N w k = some q ∧ stateOf N w' k = some q ∧
      (ConnectSettled w w' k la pa ch r q ↔ q ≠ .closeWait) ∧
      (w'.pending.lookup k = some (.tcpConnect la pa ch r) ↔
        q.handshaking = true ∨ q = .closeWait) := by
  have ho := Reach.owned hf h
  have hopen := (Reach.connectsHold hf hM hH h).connects k _ ch hp ⟨la, pa, r, rfl⟩
  obtain ⟨s, hsock, -, hcon⟩ := hopen.socket
  obtain ⟨st, hst, -⟩ := hopen.entry
  have hquiet : NotListening k w := by
    refine ⟨⟨s, hsock⟩, fun key l hl hmem => ?_⟩
    rw [ho.apart.tcp key l hl k hmem] at hst
    cases hst
  have hreach : Reach N cfg port w' := ReachVia.next h trivial hs
  obtain ⟨w1, hperm, hrun, hpath, rfl⟩ := ho.step_pending hf hs
  have hmem : k ∈ order := hperm.mem_iff.mpr ((Table.mem_keys_iff _ _).mpr ⟨_, hp⟩)
  have hnd : order.Nodup := hperm.nodup_iff.mpr w.pending.keys_nodup
  have hout := processPending_connect hf ho hquiet hp hsock hmem hnd hrun
  have honce := Reach.sendersOnce hf hreach trivial
  have hsock' : w1.sockets.lookup k = some (.tcp s) :=
    Effect.path_rule (fun v => v.sockets.lookup k = some (.tcp s)) hsock
      (fun _ _ hu he => he.sockets_none hf hu) hpath
  have hgone : w1.pending.lookup k = none →
      w1.pending.lookup k ≠ some (.tcpConnect la pa ch r) := by
    intro hnone hsome
    rw [hnone] at hsome
    cases hsome
  refine ⟨N.tcpState s, stateOf_eq hsock, stateOf_eq hsock', ?_⟩
  generalize N.tcpState s = q at hcon hout
  cases q with
  | synSent | synReceived =>
    refine ⟨iff_of_true ⟨hout.1, hout.2, honce.not_answered hout.1⟩ nofun, ?_⟩
    exact iff_of_true hout.1 (.inl rfl)
  | established =>
    refine ⟨iff_of_true ⟨hout.1, honce.answers_eq hout.2⟩ nofun, ?_⟩
    exact iff_of_false (hgone hout.1) (by simp [TcpState.handshaking])
  | closed =>
    refine ⟨iff_of_true ⟨hout.1, hout.2.1, _, honce.answers_eq hout.2.2⟩ nofun, ?_⟩
    exact iff_of_false (hgone hout.1) (by simp [TcpState.handshaking])
  | closeWait =>
    refine ⟨iff_of_false ?_ (fun h => h rfl), iff_of_true hout.1 (.inr rfl)⟩
    intro hset
    exact hgone hset.1 hout.1
  | _ => cases hcon

end Pass

/-- `process_pending`, in any order, from any state that the processing of ingress segments can
lead to. It settles each pending connect exactly if its socket is not in `CloseWait`, and leaves no
connect pending outside the handshake exactly if none of them is. -/
theorem connects_settled_iff (N : Smoltcp T U E) (hf : N.FreshHandles) (hM : N.TcpMachine)
    (hH : N.HandshakeContract) (cfg : StackConfig) (port : UInt16) (w w' : World T U)
    (h : Reach N cfg port w) (order : List SocketHandle)
    (hs : World.step N cfg (.pending order) w = some w') :
    (∀ k la pa ch r, w.pending.lookup k = some (.tcpConnect la pa ch r) →
      ∃ q, stateOf N w k = some q ∧ (ConnectSettled w w' k la pa ch r q ↔ q ≠ .closeWait)) ∧
    ((∀ k la pa ch r q, w'.pending.lookup k = some (.tcpConnect la pa ch r) →
        stateOf N w' k = some q → q.handshaking = true) ↔
      ∀ k la pa ch r, w.pending.lookup k = some (.tcpConnect la pa ch r) →
        stateOf N w k ≠ some .closeWait) := by
  refine ⟨?_, ?_, ?_⟩
  · intro k la pa ch r hp
    obtain ⟨q, hq, -, hset, -⟩ := Reach.connectSettled_iff hf hM hH h hs hp
    exact ⟨q, hq, hset⟩
  · intro hnone k la pa ch r hp hq
    obtain ⟨q, hq0, hq', -, hleft⟩ := Reach.connectSettled_iff hf hM hH h hs hp
    obtain rfl : q = .closeWait := Option.some.inj (hq0.symm.trans hq)
    cases hnone k la pa ch r _ (hleft.mpr (.inr rfl)) hq'
  · intro hno k la pa ch r q hp' hq'
    have ho := Reach.owned hf h
    obtain ⟨w1, -, -, hpath, rfl⟩ := ho.step_pending hf hs
    have hp : w.pending.lookup k = some (.tcpConnect la pa ch r) :=
      Effect.path_rule (fun v => v.pending.lookup k = some _ → w.pending.lookup k = some _) id
        (fun _ _ hu he hk => hu (he.pending_none hk)) hpath hp'
    obtain ⟨q0, hq0, hq0', -, hleft⟩ := Reach.connectSettled_iff hf hM hH h hs hp
    obtain rfl : q = q0 := Option.some.inj (hq'.symm.trans hq0')
    rcases hleft.mp hp' with hshake | rfl
    · exact hshake
    · exact absurd hq0 (hno k la pa ch r hp)

/-- A connect is started, and the segments of its peer arrive in one batch. -/
def connectRun (events : List RefEvent) : List (Action RefEvent) :=
  .flatten [[.issue (.tcpConnect none (.v4 0x0a000001 80) 0), .command, .beginWrite [0] [],
      .writeTcp, .endWrite],
    events.map (.tcpEvent 0 ·), [.endPoll true, .beginRead [0] [], .readTcp, .endRead]]

/-- The peer accepts, and the caller gets its connection. -/
theorem connects_settled_iff_accepted :
    ∃ w w', Reach refNet hostCfg 49152 w ∧ World.step refNet hostCfg (.pending [0]) w = some w' ∧
      stateOf refNet w 0 = some .established ∧ w'.pending.lookup 0 = none ∧
      w'.answers.filter (·.1 = 0) =
        [(0, .tcp (.ok (0, .v4 0x0a000002 49152, .v4 0x0a000001 80, 0)))] := by
  obtain ⟨w, hr, -, hw⟩ := reachable_of_run (World.step refNet hostCfg)
    (connectRun [.syn peerEp ⟨.ipv4 0x0a000001, 80⟩]) (World.init refNet hostCfg 49152)
    (fun w => (World.step refNet hostCfg (.pending [0]) w).isSome ∧
      stateOf refNet w 0 = some .established ∧
      w.pending.lookup 0 = some (.tcpConnect (.v4 0x0a000002 49152) (.v4 0x0a000001 80) 0 0))
    (by decide +kernel)
  obtain ⟨hsome, hst, hp⟩ := of_decide_eq_true hw
  obtain ⟨w', hs⟩ := Option.isSome_iff_exists.mp hsome
  have hall := (connects_settled_iff refNet refNet_freshHandles refNet_tcpMachine
    refNet_handshakeContract hostCfg 49152 w w' hr [0] hs).1
  obtain ⟨q, hq, hset⟩ := hall 0 _ _ 0 0 hp
  obtain rfl : q = .established := Option.some.inj (hq.symm.trans hst)
  obtain ⟨hnone, hans⟩ := hset.mpr nofun
  exact ⟨w, w', hr, hs, hst, hnone, hans⟩

/-- The peer accepts and closes at once, within one batch: the caller is left waiting. -/
theorem connect_left_waiting :
    ∃ w w', Reach refNet hostCfg 49152 w ∧ World.step refNet hostCfg (.pending [0]) w = some w' ∧
      stateOf refNet w' 0 = some .closeWait ∧ ¬w'.Answered 0 ∧
      w'.pending.lookup 0 = some (.tcpConnect (.v4 0x0a000002 49152) (.v4 0x0a000001 80) 0 0) := by
  obtain ⟨w, hr, -, hw⟩ := reachable_of_run (World.step refNet hostCfg)
    (connectRun [.syn peerEp ⟨.ipv4 0x0a000001, 80⟩, .fin]) (World.init refNet hostCfg 49152)
    (fun w => (World.step refNet hostCfg (.pending [0]) w).any fun w' =>
      stateOf refNet w' 0 = some .closeWait ∧ ¬w'.Answered 0 ∧
      w'.pending.lookup 0 = some (.tcpConnect (.v4 0x0a000002 49152) (.v4 0x0a000001 80) 0 0))
    (by decide +kernel)
  obtain ⟨w', hs, hw'⟩ := Option.any_eq_true _ _ |>.mp hw
  exact ⟨w, w', hr, hs, of_decide_eq_true hw'⟩

end TapTunnel.Stack
