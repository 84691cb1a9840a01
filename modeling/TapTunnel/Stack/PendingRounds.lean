import TapTunnel.Stack.ConnectDone
import TapTunnel.Stack.PassOrder

namespace TapTunnel.Stack

open Framework

variable {T U E : Type} {N : Smoltcp T U E}

/-- A pending connect has the channel pair of the entry of its socket. -/
def ConnectEntries (w : World T U) : Prop :=
  ∀ k la pa ch r, w.pending.lookup k = some (.tcpConnect la pa ch r) →
    ∃ st, w.tcpStates.lookup k = some st ∧ st.chan = ch

namespace ConnectEntries

variable {w w' : World T U}

theorem insertAccept (h : ConnectEntries w) (key : SocketHandle) (r : ReqId) :
    ConnectEntries (w.insertPending key (.tcpAccept r)) := by
  intro k la pa ch r' hk
  rcases Table.insert_cases hk with ⟨-, hop⟩ | ⟨-, hk⟩
  · cases hop
  · exact h k la pa ch r' hk

theorem erasePending (h : ConnectEntries w) (key : SocketHandle) :
    ConnectEntries { w with pending := w.pending.erase key } :=
  fun k la pa ch r hk => h k la pa ch r (Table.erase_cases hk).2

/-- A listening socket gets an entry; no connect is pending on it. -/
theorem insertAccepted (ho : Owned w) (h : ConnectEntries w) {key x : SocketHandle}
    {l : ListenerState} (hl : w.listeners.lookup key = some l) (hx : x ∈ l.listeningHandles)
    {st : TcpSocketState}
    (hp : ∀ k op, w'.pending.lookup k = some op → w.pending.lookup k = some op)
    (hst : w'.tcpStates = w.tcpStates.insert x st) : ConnectEntries w' := by
  intro k la pa ch r hk
  have hk := hp k _ hk
  have hne : k ≠ x := by
    rintro rfl
    exact absurd (ho.listening_not_connect hl hx _ hk) (by simp [PendingOp.isConnect])
  rw [hst, AList.lookup_insert_ne hne]
  exact h k la pa ch r hk

/-- Step lemma for the effects. -/
theorem effect {c : Option StackCommand} (ho : Owned w)
    (hc : ∀ cmd, c = some cmd → CommandAllowed w.answers cmd) (h : ConnectEntries w)
    (he : Effect N c w w') : ConnectEntries w' := by
  cases he with
  | reject | listen | udpBind | udpClose => exact h
  | connect k s port la hk =>
    intro k' la' pa' ch' r' hk'
    rcases Table.insert_cases hk' with ⟨rfl, hop⟩ | ⟨hne, hk'⟩
    · cases hop
      exact ⟨_, AList.lookup_insert _, rfl⟩
    · obtain ⟨st, hst, hch⟩ := h k' la' pa' ch' r' hk'
      exact ⟨st, (AList.lookup_insert_ne hne).trans hst, hch⟩
  | wait l hl hnone => exact h.insertAccept _ _
  | listenerGone | listenerClose | connected => exact h.erasePending _
  | tcpClose s hs =>
    rename_i x
    intro k la pa ch r hk
    have hne : k ≠ x := by
      rintro rfl
      exact absurd (ho.keys.done k _ hk (hc _ rfl)) (by simp [PendingOp.isConnect])
    obtain ⟨st, hst, hch⟩ := h k la pa ch r hk
    exact ⟨st, (AList.lookup_erase_ne hne).trans hst, hch⟩
  | connectDead la pa ch r e hp =>
    intro k la' pa' ch' r' hk
    obtain ⟨hne, hk⟩ := Table.erase_cases hk
    obtain ⟨st, hst, hch⟩ := h k la' pa' ch' r' hk
    exact ⟨st, (AList.lookup_erase_ne hne).trans hst, hch⟩
  | accept l x rest s la pa hl hx hs hest =>
    refine h.insertAccepted ho hl (hx.mem_iff.mp List.mem_cons_self) (fun k op hk => ?_)
      (congrArg (AList.insert x _) (World.replaceListening_tcpStates _ l.addr rest))
    simpa using hk
  | acceptPending r l x rest s la pa hp hl hx hs hest =>
    refine h.insertAccepted ho hl (hx.mem_iff.mp List.mem_cons_self) (fun k op hk => ?_)
      (congrArg (AList.insert x _) (World.replaceListening_tcpStates _ l.addr rest))
    simp only [World.deliverAccepted_pending, World.takePending_pending,
      World.replaceListening_pending] at hk
    exact (Table.erase_cases hk).2

theorem effects (hf : N.FreshHandles) (ho : Owned w) (h : ConnectEntries w)
    (he : Relation.ReflTransGen (Effect N none) w w') : ConnectEntries w' :=
  ho.effects_rule hf ConnectEntries h (fun _ _ hu h he => h.effect hu (c := none) nofun he) he

theorem transition (hf : N.FreshHandles) {a : Action E} (ho : Owned w) (h : ConnectEntries w)
    (ht : Transition N a w w') : ConnectEntries w' := by
  cases ht with
  | env he =>
    have hfr := World.envStep_frame he
    intro k la pa ch r hk
    rw [hfr.pending] at hk
    rw [hfr.tcpStates]
    exact h k la pa ch r hk
  | control | writeUdp | tcpEvent | udpEvent | readTcp | readUdp => exact h
  | command cmd rest hph hq he =>
    have hpop := ho.popCommand hq (w.received ++ cmd.response.toList)
    have hcmd : CommandAllowed w.answers cmd := ho.queue cmd (by rw [hq]; exact List.mem_cons_self)
    have h1 : ConnectEntries { w with
      commands := rest
      received := w.received ++ cmd.response.toList } := h
    have h2 := h1.effect hpop (fun c hc => Option.some.inj hc ▸ hcmd) he
    exact h2
  | writeTcp k tcp udp st s hph hst hs =>
    intro k' la pa ch r hk'
    obtain ⟨st', hst', hch⟩ := h k' la pa ch r hk'
    by_cases he : k' = k
    · subst he
      obtain rfl : st = st' := Option.some.inj (hst.symm.trans hst')
      exact ⟨_, AList.lookup_insert _, hch⟩
    · exact ⟨st', (AList.lookup_insert_ne he).trans hst', hch⟩
  | pending order he =>
    have h1 := h.effects hf ho he
    exact h1
  | fail => exact World.failOps_rule ConnectEntries _ h (fun _ k _ _ hv => hv.erasePending k)

end ConnectEntries

theorem Reach.connectEntries (hf : N.FreshHandles) {cfg : StackConfig} {port : UInt16}
    {w : World T U} (h : Reach N cfg port w) : ConnectEntries w :=
  Reach.invariant hf ConnectEntries (fun _ _ => nofun)
    (fun _ _ _ ho h _ ht => h.transition hf ho ht) h

/-- What a round of `process_pending` finds to do under a key: a connect that is through, one
that failed, or a connection that a listener has for a waiting accept. `repl` is the socket
that will take the place of the accepted one, if it can be made. -/
inductive Visit (T : Type)
  | connected (localAddr peerAddr : SocketAddr) (ch : ChanId) (response : ReqId)
  | refused (ch : ChanId) (response : ReqId)
  | accepted (x : SocketHandle) (localAddr peerAddr addr : SocketAddr)
      (rest : List SocketHandle) (repl : Option T) (response : ReqId)

/-- A round needs the pending operation, and the socket of a connect or the listener of an
accept with its listening sockets. -/
def World.visit (N : Smoltcp T U E) (w : World T U) (k : SocketHandle) : Option (Visit T) :=
  match w.pending.lookup k with
  | none => none
  | some (.tcpConnect localAddr peerAddr ch response) =>
    match w.sockets.lookup k with
    | some (.tcp s) =>
      match N.tcpState s with
      | .established => some (.connected localAddr peerAddr ch response)
      | .closed | .timeWait => some (.refused ch response)
      | _ => none
    | _ => none
  | some (.tcpAccept response) =>
    match w.listeners.lookup k with
    | none => none
    | some l =>
      match World.findEstablished N w l.addr l.listeningHandles 0 with
      | .ok (some (idx, localAddr, peerAddr)) =>
        (l.listeningHandles[idx]?).map fun x =>
          .accepted x localAddr peerAddr l.addr (l.listeningHandles.eraseIdx idx)
            (N.listen N.tcpNew (socketAddrToListenEndpoint l.addr)).toOption response
      | _ => none

namespace Visit

/-- The round makes a channel pair. -/
def accepts : Visit T → Bool
  | .accepted .. => true
  | _ => false

/-- The round makes a listening socket. -/
def replaces : Visit T → Bool
  | .accepted _ _ _ _ _ repl _ => repl.isSome
  | _ => false

end Visit

/-- The changes that one round makes, and the answer it sends. -/
structure Job (T : Type) where
  key : SocketHandle
  socket : Option (SocketHandle × T)
  listener : Option ListenerState
  state : Option (SocketHandle × Option TcpSocketState)
  chan : Option (ChanId × (TcpChan → TcpChan))
  answer : ReqId × Reply

/-- The job of a visit, once its new socket and its new channel pair have their names. -/
def Visit.job (cancelled : List ReqId) (k : SocketHandle) (name : SocketHandle × ChanId) :
    Visit T → Job T
  | .connected localAddr peerAddr ch r => {
      key := k
      socket := none
      listener := none
      state := none
      chan := if r ∈ cancelled then some (ch, TcpChan.dropAppEnds) else none
      answer := (r, .tcp (.ok (k, localAddr, peerAddr, ch))) }
  | .refused ch r => {
      key := k
      socket := none
      listener := none
      state := some (k, none)
      chan := some (ch, fun c => c.dropAppEnds.dropStackEnds)
      answer := (r, .tcp (.error connectFailed)) }
  | .accepted x localAddr peerAddr addr rest repl r => {
      key := k
      socket := repl.map fun s => (name.1, s)
      listener := some ⟨addr, rest ++ (repl.map fun _ => name.1).toList⟩
      state := some (x, some ⟨name.2, none⟩)
      chan := some (name.2, fun _ => if r ∈ cancelled then TcpChan.new.dropAppEnds else .new)
      answer := (r, .tcp (.ok (x, localAddr, peerAddr, name.2))) }

def Maps.perform (m : Maps T U) (j : Job T) : Maps T U :=
  { m with
    sockets := put (j.socket.map fun p => (p.1, some (.tcp p.2))) m.sockets
    pending := Function.update m.pending j.key none
    listeners := put (j.listener.map fun l => (j.key, some l)) m.listeners
    tcpStates := put j.state m.tcpStates
    tcpChans := touch j.chan m.tcpChans }

section Rounds

variable {v w : World T U} {k : SocketHandle}

theorem findEstablished_congr {addr : SocketAddr} {hs : List SocketHandle}
    (h : ∀ x ∈ hs, v.sockets.lookup x = w.sockets.lookup x) (idx : Nat) :
    World.findEstablished N v addr hs idx = World.findEstablished N w addr hs idx := by
  induction hs generalizing idx with
  | nil => rfl
  | cons x hs ih =>
    have hx : v.getTcp x = w.getTcp x := by
      unfold World.getTcp
      rw [h x List.mem_cons_self]
    simp only [World.findEstablished, hx, ih (fun y hy => h y (List.mem_cons_of_mem x hy))]

/-- A round that leaves alone what another needs does not change what the other finds. -/
theorem Undisturbed.visit_eq (ho : Owned w) (hu : Undisturbed k w v) :
    v.visit N k = w.visit N k := by
  unfold World.visit
  rw [hu.pending, hu.listener]
  cases hp : w.pending.lookup k with
  | none => rfl
  | some op =>
    cases op with
    | tcpConnect la pa ch r =>
      obtain ⟨⟨st, hst⟩, -⟩ := ho.keys.connect k _ hp rfl
      obtain ⟨s, hs⟩ := ho.live.tcp k st hst
      simp only [hs, hu.sockets k _ hs]
    | tcpAccept r =>
      cases hl : w.listeners.lookup k with
      | none => rfl
      | some l =>
        have hsame : ∀ x ∈ l.listeningHandles, v.sockets.lookup x = w.sockets.lookup x := by
          intro x hx
          obtain ⟨s, hs⟩ := ho.live.listening k l hl x hx
          rw [hs, hu.sockets x _ hs]
        simp only [findEstablished_congr hsame]

/-- What a visit is made of, in a state with ownership. -/
def Visit.Fits (w : World T U) (k : SocketHandle) : Visit T → Prop
  | .connected _ _ ch _ | .refused ch _ => ∃ st, w.tcpStates.lookup k = some st ∧ st.chan = ch
  | .accepted x _ _ _ rest _ _ =>
    ∃ l, w.listeners.lookup k = some l ∧ (x::rest).Perm l.listeningHandles

theorem visit_connect {la pa : SocketAddr} {ch : ChanId} {r : ReqId} {s : T}
    (hp : v.pending.lookup k = some (.tcpConnect la pa ch r))
    (hs : v.sockets.lookup k = some (.tcp s)) :
    v.visit N k = match N.tcpState s with
      | .established => some (.connected la pa ch r)
      | .closed | .timeWait => some (.refused ch r)
      | _ => none := by
  simp only [World.visit, hp, hs]

theorem visit_accept {l : ListenerState} {r : ReqId}
    (hp : v.pending.lookup k = some (.tcpAccept r)) (hl : v.listeners.lookup k = some l)
    (hlive : ∀ x ∈ l.listeningHandles, LiveTcp v.sockets x) :
    (v.visit N k = none ∧ World.tryAcceptSocket N k l v = .ok (v, none)) ∨
    ∃ x la pa rest, (x::rest).Perm l.listeningHandles ∧
      v.visit N k = some (.accepted x la pa l.addr rest
        (N.listen N.tcpNew (socketAddrToListenEndpoint l.addr)).toOption r) ∧
      World.tryAcceptSocket N k l v =
        .ok (v.replaceListening N k l.addr rest, some (x, la, pa)) := by
  simp only [World.visit, World.tryAcceptSocket, hp, hl]
  rcases World.findEstablished_cases (N := N) l.addr l.listeningHandles 0 hlive with
    ⟨heq, -⟩ | ⟨i, x, s, la, pa, heq, hi, -, -⟩
  · rw [heq]
    exact .inl ⟨rfl, rfl⟩
  · obtain ⟨hlt, hget⟩ := List.getElem?_eq_some_iff.mp hi
    rw [Nat.zero_add] at heq
    simp only [heq, hi, bind, Except.bind]
    refine .inr ⟨x, la, pa, l.listeningHandles.eraseIdx i, ?_, rfl, rfl⟩
    rw [← hget]
    exact List.getElem_cons_eraseIdx_perm hlt

theorem visit_fits (ho : Owned v) (hc : ConnectEntries v) {t : Visit T}
    (ht : v.visit N k = some t) : t.Fits v k := by
  cases hp : v.pending.lookup k with
  | none => simp [World.visit, hp] at ht
  | some op =>
    cases op with
    | tcpConnect la pa ch r =>
      obtain ⟨st, hst, hch⟩ := hc k la pa ch r hp
      obtain ⟨s, hs⟩ := ho.live.tcp k st hst
      rw [visit_connect hp hs] at ht
      split at ht
      all_goals first | cases ht; exact ⟨st, hst, hch⟩ | cases ht
    | tcpAccept r =>
      obtain ⟨l, hl⟩ := ho.keys.accept k _ hp rfl
      rcases visit_accept (N := N) hp hl (ho.live.listening k l hl) with
        ⟨hnone, -⟩ | ⟨x, la, pa, rest, hx, hsome, -⟩
      · rw [hnone] at ht
        cases ht
      · cases hsome.symm.trans ht
        exact ⟨l, hl, hx⟩

/-- The round did its job, with the names that were next in line. -/
structure RoundDone (N : Smoltcp T U E) (v v' : World T U) (k : SocketHandle) (t : Visit T) :
    Prop where
  maps : v'.maps = v.maps.perform (t.job v.cancelled k (N.fresh v.sockets.keys, v.nextChan))
  answers : v'.answers = v.answers ++
    [(t.job v.cancelled k (N.fresh v.sockets.keys, v.nextChan)).answer]
  cancelled : v'.cancelled = v.cancelled
  nextChan : v'.nextChan = v.nextChan + t.accepts.toNat
  keys : v'.sockets.keys =
    (if t.replaces then [N.fresh v.sockets.keys] else []) ++ v.sockets.keys

theorem answer_maps (r : ReqId)
    (res : Except IoError (SocketHandle × SocketAddr × SocketAddr × ChanId)) :
    (v.answer r (.tcp res)).maps = { v.maps with
      tcpChans := if r ∈ v.cancelled then (Reply.tcp res).releaseTcp v.tcpChans
        else v.tcpChans } := by
  simp [World.maps, World.answer, Reply.releaseUdp]

theorem roundDone_connected {la pa : SocketAddr} {ch : ChanId} {r : ReqId} :
    RoundDone N v ((v.takePending k).answer r (.tcp (.ok (k, la, pa, ch)))) k
      (.connected la pa ch r) where
  maps := by
    rw [answer_maps]
    by_cases hcan : r ∈ v.cancelled
    · rw [if_pos (show r ∈ (v.takePending k).cancelled from hcan)]
      simp only [World.takePending, World.maps, Maps.perform, Visit.job, lookup_erase_update,
        Option.map_none, if_pos hcan]
      rfl
    · rw [if_neg (show r ∉ (v.takePending k).cancelled from hcan)]
      simp only [World.takePending, World.maps, Maps.perform, Visit.job, lookup_erase_update,
        Option.map_none, if_neg hcan]
      rfl
  answers := rfl
  cancelled := rfl
  nextChan := rfl
  keys := rfl

theorem roundDone_refused {la pa : SocketAddr} {ch : ChanId} {r : ReqId}
    (hp : v.pending.lookup k = some (.tcpConnect la pa ch r)) {st : TcpSocketState}
    (hst : v.tcpStates.lookup k = some st) (hch : st.chan = ch) :
    RoundDone N v (((v.dropPending k).removeTcpState k).answer r (.tcp (.error connectFailed))) k
      (.refused ch r) where
  maps := by
    rw [answer_maps]
    simp only [World.dropPending, World.removeTcpState, World.maps, Maps.perform, Visit.job,
      lookup_erase_update, hp, hst, releaseOp, releaseTcpState, hch, Reply.releaseTcp, ite_self,
      Function.update_self, Function.update_idem, put, touch, Option.map_none, Option.map_some]
  answers := rfl
  cancelled := rfl
  nextChan := rfl
  keys := rfl

/-- The accepted socket has no entry yet, so that nothing is dropped for its new one. -/
theorem deliverAccepted_maps {x : SocketHandle} (hx : v.tcpStates.lookup x = none)
    (la pa : SocketAddr) (r : ReqId) :
    (v.deliverAccepted x la pa r).maps = { v.maps with
      tcpStates := Function.update v.maps.tcpStates x (some ⟨v.nextChan, none⟩)
      tcpChans := Function.update v.tcpChans v.nextChan
        (if r ∈ v.cancelled then TcpChan.new.dropAppEnds else .new) } := by
  unfold World.deliverAccepted
  rw [answer_maps]
  simp only [World.insertTcpState, World.createTcpChannels, World.maps, lookup_insert_update, hx,
    releaseTcpState, Reply.releaseTcp]
  by_cases hcan : r ∈ v.cancelled
  · simp only [if_pos hcan, Function.update_self, Function.update_idem]
  · simp only [if_neg hcan]

theorem roundDone_accepted (hf : N.FreshHandles) (addr : SocketAddr) {x : SocketHandle}
    (rest : List SocketHandle) (la pa : SocketAddr) (r : ReqId)
    (hx : v.tcpStates.lookup x = none) :
    RoundDone N v (((v.replaceListening N k addr rest).takePending k).deliverAccepted x la pa r) k
      (.accepted x la pa addr rest
        (N.listen N.tcpNew (socketAddrToListenEndpoint addr)).toOption r) := by
  have hx' : ((v.replaceListening N k addr rest).takePending k).tcpStates.lookup x = none :=
    (congrArg (AList.lookup x) (World.replaceListening_tcpStates k addr rest)).trans hx
  have hmaps := deliverAccepted_maps hx' la pa r
  cases hlisten : N.listen N.tcpNew (socketAddrToListenEndpoint addr) with
  | ok s =>
    simp only [World.replaceListening, hlisten] at hmaps ⊢
    refine ⟨?_, rfl, rfl, rfl, ?_⟩
    · rw [hmaps]
      simp only [World.takePending, World.maps, lookup_insert_update, lookup_erase_update,
        Maps.perform, Visit.job, Except.toOption, Option.map_some, Option.toList_some, put, touch]
      rfl
    · have hfresh := hf v.sockets.keys
      change (v.sockets.insert _ _).keys = _
      rw [AList.keys_insert, List.erase_of_not_mem hfresh]
      rfl
  | error e =>
    simp only [World.replaceListening, hlisten] at hmaps ⊢
    refine ⟨?_, rfl, rfl, rfl, rfl⟩
    rw [hmaps]
    simp only [World.takePending, World.maps, lookup_insert_update, lookup_erase_update,
      Maps.perform, Visit.job, Except.toOption, Option.map_some, Option.map_none,
      Option.toList_none, List.append_nil, put, touch]
    rfl

/-- A round finds nothing to do and does nothing, or does the job it finds. -/
theorem processPendingOne_visit (hf : N.FreshHandles) (ho : Owned v) (hc : ConnectEntries v)
    (k : SocketHandle) :
    (v.visit N k = none ∧ v.processPendingOne N k = .ok v) ∨
    ∃ t v', v.visit N k = some t ∧ v.processPendingOne N k = .ok v' ∧ RoundDone N v v' k t := by
  unfold World.processPendingOne
  cases hp : v.pending.lookup k with
  | none => exact .inl ⟨by simp only [World.visit, hp], rfl⟩
  | some op =>
    cases op with
    | tcpConnect la pa ch r =>
      obtain ⟨st, hst, hch⟩ := hc k la pa ch r hp
      obtain ⟨s, hs⟩ := ho.live.tcp k st hst
      rw [visit_connect hp hs]
      simp only [World.getTcp_eq hs, bind, Except.bind]
      cases N.tcpState s with
      | established => exact .inr ⟨_, _, rfl, rfl, roundDone_connected⟩
      | closed => exact .inr ⟨_, _, rfl, rfl, roundDone_refused hp hst hch⟩
      | timeWait => exact .inr ⟨_, _, rfl, rfl, roundDone_refused hp hst hch⟩
      | _ => exact .inl ⟨rfl, rfl⟩
    | tcpAccept r =>
      obtain ⟨l, hl⟩ := ho.keys.accept k _ hp rfl
      simp only [hl]
      rcases visit_accept (N := N) hp hl (ho.live.listening k l hl) with
        ⟨hnone, he⟩ | ⟨x, la, pa, rest, hx, hsome, he⟩
      · exact .inl ⟨hnone, by rw [he]; rfl⟩
      · have hstate := ho.apart.tcp k l hl x (hx.mem_iff.mp List.mem_cons_self)
        exact .inr ⟨_, _, hsome, by rw [he]; rfl,
          roundDone_accepted hf l.addr rest la pa r hstate⟩

end Rounds

section Runs

variable {v v' w : World T U} {k : SocketHandle} {order : List SocketHandle}
  {names names' : SocketHandle → SocketHandle × ChanId}

/-- The job of the round for `k`, where `names` has the new names of each round. -/
def World.job (N : Smoltcp T U E) (w : World T U) (names : SocketHandle → SocketHandle × ChanId)
    (k : SocketHandle) : Option (Job T) :=
  (w.visit N k).map (Visit.job w.cancelled k (names k))

def Maps.serve (m : Maps T U) (j : Option (Job T)) : Maps T U := j.elim m m.perform

/-- The keys whose rounds make a channel pair. -/
def World.accepting (N : Smoltcp T U E) (w : World T U) (order : List SocketHandle) :
    List SocketHandle := order.filter fun k => (w.visit N k).any Visit.accepts

/-- The keys whose rounds make a listening socket. -/
def World.replacing (N : Smoltcp T U E) (w : World T U) (order : List SocketHandle) :
    List SocketHandle := order.filter fun k => (w.visit N k).any Visit.replaces

/-- From `w` to `v` each key of `order` had its round: what a round did can be told from `w` and
the names it used, and these names were new. -/
structure Served (N : Smoltcp T U E) (w v : World T U) (order : List SocketHandle)
    (names : SocketHandle → SocketHandle × ChanId) : Prop where
  maps : v.maps = order.foldl (fun m k => m.serve (w.job N names k)) w.maps
  answers : v.answers = w.answers ++ order.filterMap fun k => (w.job N names k).map Job.answer
  cancelled : v.cancelled = w.cancelled
  handles : v.sockets.keys.Perm
    ((w.replacing N order).map (fun k => (names k).1) ++ w.sockets.keys)
  chans : List.range v.nextChan =
    List.range w.nextChan ++ (w.accepting N order).map fun k => (names k).2

namespace Served

theorem congr (h : Served N w v order names) (heq : ∀ k ∈ order, names' k = names k) :
    Served N w v order names' := by
  have hjob : ∀ k ∈ order, w.job N names' k = w.job N names k := by
    intro k hk
    unfold World.job
    rw [heq k hk]
  refine ⟨?_, ?_, h.cancelled, ?_, ?_⟩
  · rw [h.maps]
    exact List.foldl_ext _ _ _ (fun m k hk => by rw [hjob k hk])
  · rw [List.filterMap_congr (fun k hk => by rw [hjob k hk])]
    exact h.answers
  · rw [List.map_congr_left (fun k hk => by rw [heq k (List.mem_filter.mp hk).1])]
    exact h.handles
  · rw [List.map_congr_left (fun k hk => by rw [heq k (List.mem_filter.mp hk).1])]
    exact h.chans

theorem skip (h : Served N w v order names) (hv : w.visit N k = none) :
    Served N w v (order ++ [k]) names := by
  have hjob : w.job N names k = none := by rw [World.job, hv, Option.map_none]
  refine ⟨?_, ?_, h.cancelled, ?_, ?_⟩
  · rw [h.maps, List.foldl_append, List.foldl_cons, List.foldl_nil, hjob]
    rfl
  · rw [h.answers]
    simp [List.filterMap_append, hjob]
  · simpa [World.replacing, List.filter_append, hv] using h.handles
  · simpa [World.accepting, List.filter_append, hv] using h.chans

/-- Step lemma: one more round, with the names next in line. -/
theorem round (h : Served N w v order names) {t : Visit T} (hv : w.visit N k = some t)
    (hname : names k = (N.fresh v.sockets.keys, v.nextChan)) (hd : RoundDone N v v' k t) :
    Served N w v' (order ++ [k]) names := by
  have hjob : w.job N names k =
      some (t.job v.cancelled k (N.fresh v.sockets.keys, v.nextChan)) := by
    rw [World.job, hv, hname, h.cancelled, Option.map_some]
  refine ⟨?_, ?_, hd.cancelled.trans h.cancelled, ?_, ?_⟩
  · rw [hd.maps, h.maps, List.foldl_append, List.foldl_cons, List.foldl_nil, hjob]
    rfl
  · rw [hd.answers, h.answers]
    simp [List.filterMap_append, hjob]
  · rw [hd.keys]
    cases hr : t.replaces with
    | false => simpa [World.replacing, List.filter_append, hv, hr] using h.handles
    | true =>
      have hkeys : w.replacing N (order ++ [k]) = w.replacing N order ++ [k] := by
        simp [World.replacing, hv, hr]
      rw [hkeys, List.map_append, List.map_singleton, hname, List.append_assoc]
      exact (h.handles.cons _).trans List.perm_middle.symm
  · rw [hd.nextChan]
    cases ha : t.accepts with
    | false => simpa [World.accepting, List.filter_append, hv, ha] using h.chans
    | true =>
      have hkeys : w.accepting N (order ++ [k]) = w.accepting N order ++ [k] := by
        simp [World.accepting, hv, ha]
      rw [hkeys, List.map_append, List.map_singleton, hname, Bool.toNat_true, List.range_succ,
        h.chans, List.append_assoc]

end Served

/-- Run lemma: `process_pending` gives every key its round, in the order of the keys. -/
theorem processPending_served (hf : N.FreshHandles) (ho : Owned w) (hc : ConnectEntries w)
    (hnd : order.Nodup) :
    ∃ v names, w.processPending N order = .ok v ∧ Served N w v order names := by
  induction order using List.reverseRecOn with
  | nil =>
    refine ⟨w, fun _ => (0, 0), rfl, ?_⟩
    exact ⟨rfl, by simp, rfl, .refl _, by simp [World.accepting]⟩
  | append_singleton order k ih =>
    have hk : k ∉ order := fun hk => (List.nodup_append.mp hnd).2.2 k hk k (by simp) rfl
    obtain ⟨v, names, hrun, hv⟩ := ih (List.nodup_append.mp hnd).1
    obtain ⟨v1, hrun1, hov, hun⟩ := processPending_undisturbed hf ho order hk
    obtain rfl : v = v1 := Except.ok.inj (hrun.symm.trans hrun1)
    obtain ⟨v2, hrun2, hpath⟩ := ho.processPending_effects hf order
    obtain rfl : v = v2 := Except.ok.inj (hrun.symm.trans hrun2)
    rw [World.processPending_append hrun]
    rcases processPendingOne_visit hf hov (hc.effects hf ho hpath) k with
      ⟨hnone, hone⟩ | ⟨t, v', hsome, hone, hd⟩
    · rw [hun.visit_eq ho] at hnone
      exact ⟨v, names, World.processPending_cons hone [], hv.skip hnone⟩
    · rw [hun.visit_eq ho] at hsome
      let name := (N.fresh v.sockets.keys, v.nextChan)
      refine ⟨v', Function.update names k name, World.processPending_cons hone [], ?_⟩
      have hv' : Served N w v order (Function.update names k name) := hv.congr
        (fun x hx => Function.update_of_ne (fun he : x = k => hk (he ▸ hx)) _ _)
      exact hv'.round hsome (Function.update_self ..) hd

end Runs

end TapTunnel.Stack
