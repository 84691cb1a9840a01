import TapTunnel.Stack.HandleSafety

namespace TapTunnel.Stack

open Framework Reference

variable {T U E : Type} {N : Smoltcp T U E}

/-- State of the TCP socket under `x`. -/
def stateOf (N : Smoltcp T U E) (w : World T U) (x : SocketHandle) : Option TcpState :=
  match w.sockets.lookup x with
  | some (.tcp s) => some (N.tcpState s)
  | _ => none

theorem stateOf_eq {w : World T U} {x : SocketHandle} {s : T}
    (hs : w.sockets.lookup x = some (.tcp s)) : stateOf N w x = some (N.tcpState s) := by
  simp [stateOf, hs]

theorem stateOf_eq_some {w : World T U} {x : SocketHandle} {q : TcpState}
    (h : stateOf N w x = some q) :
    ∃ s, w.sockets.lookup x = some (.tcp s) ∧ N.tcpState s = q := by
  unfold stateOf at h
  split at h
  · next s hs => exact ⟨s, hs, Option.some.inj h⟩
  · cases h

/-- The sockets of all listeners that are open. -/
def World.backlogHandles (w : World T U) : List SocketHandle :=
  w.listeners.entries.flatMap (fun e => e.2.listeningHandles)

theorem mem_backlogHandles {w : World T U} {x : SocketHandle} :
    x ∈ w.backlogHandles ↔ ∃ k l, w.listeners.lookup k = some l ∧ x ∈ l.listeningHandles := by
  simp only [World.backlogHandles, List.mem_flatMap]
  constructor
  · rintro ⟨⟨k, l⟩, he, hx⟩
    exact ⟨k, l, AList.mem_lookup_iff.mpr he, hx⟩
  · rintro ⟨k, l, hk, hx⟩
    exact ⟨⟨k, l⟩, AList.mem_lookup_iff.mp hk, hx⟩

/-- The connection of `x` is complete and can still be served. -/
def Usable (N : Smoltcp T U E) (w : World T U) (x : SocketHandle) : Prop :=
  stateOf N w x = some .established ∨ stateOf N w x = some .closeWait

instance (w : World T U) (x : SocketHandle) : Decidable (Usable N w x) :=
  inferInstanceAs (Decidable (_ ∨ _))

/-- The request `r` has been given one of the usable connections of `l`, as one of the answers
`ext`. -/
def ServedWith (N : Smoltcp T U E) (w : World T U) (l : ListenerState) (r : ReqId)
    (ext : List (ReqId × Reply)) : Prop :=
  ∃ x la pa ch, (r, Reply.tcp (.ok (x, la, pa, ch))) ∈ ext ∧ x ∈ l.listeningHandles ∧ Usable N w x

/-- While some listening socket has a usable connection, an accept is answered at once with one
of them, and so is a pending accept by `process_pending`, in whatever order it visits. -/
def AcceptServes (N : Smoltcp T U E) (w : World T U) (key : SocketHandle) (l : ListenerState) :
    Prop :=
  (∃ x ∈ l.listeningHandles, Usable N w x) →
    (∀ r, ∃ w' ext, w.handleTcpAccept N key r = .ok w' ∧ w'.answers = w.answers ++ ext ∧
      ServedWith N w l r ext) ∧
    (∀ r order, w.pending.lookup key = some (.tcpAccept r) → order.isPerm w.pending.keys = true →
      ∃ w' ext, w.processPending N order = .ok w' ∧ w'.answers = w.answers ++ ext ∧
        ServedWith N w l r ext)

/-- Nothing about the listener under `key` has changed from `w` to `w'`. -/
structure Undisturbed (key : SocketHandle) (w w' : World T U) : Prop where
  listener : w'.listeners.lookup key = w.listeners.lookup key
  pending : w'.pending.lookup key = w.pending.lookup key
  sockets : ∀ x v, w.sockets.lookup x = some v → w'.sockets.lookup x = some v
  answers : w.answers <+: w'.answers

theorem Undisturbed.refl (key : SocketHandle) (w : World T U) : Undisturbed key w w :=
  ⟨rfl, rfl, fun _ _ => id, List.prefix_refl _⟩

theorem Undisturbed.trans {key : SocketHandle} {u v w : World T U} (h1 : Undisturbed key u v)
    (h2 : Undisturbed key v w) : Undisturbed key u w :=
  ⟨h2.listener.trans h1.listener, h2.pending.trans h1.pending,
    fun x s hs => h2.sockets x s (h1.sockets x s hs), h1.answers.trans h2.answers⟩

theorem replaceListening_undisturbed (hf : N.FreshHandles) {key k : SocketHandle} (hk : key ≠ k)
    (addr : SocketAddr) (rest : List SocketHandle) (w : World T U) :
    Undisturbed key w (w.replaceListening N k addr rest) := by
  refine ⟨World.replaceListening_listener_ne hk addr rest, ?_,
    fun x v hv => World.replaceListening_lookup hf hv k addr rest, ?_⟩
  · rw [World.replaceListening_pending]
  · rw [World.replaceListening_answers]

/-- A round of `process_pending` does not disturb the listeners under other keys. -/
theorem processPendingOne_undisturbed (hf : N.FreshHandles) {w : World T U} (ho : Owned w)
    {key k : SocketHandle} (hk : key ≠ k) :
    ∃ w', w.processPendingOne N k = .ok w' ∧ Owned w' ∧ Undisturbed key w w' := by
  suffices ∃ w', w.processPendingOne N k = .ok w' ∧ Undisturbed key w w' by
    obtain ⟨w', hrun, hun⟩ := this
    exact ⟨w', hrun, ho.processPendingOne hf hrun, hun⟩
  have herase : ∀ m : HandleMap PendingOp, (m.erase k).lookup key = m.lookup key :=
    fun m => AList.lookup_erase_ne hk
  unfold World.processPendingOne
  cases hp : w.pending.lookup k with
  | none => exact ⟨w, rfl, .refl key w⟩
  | some op =>
    cases op with
    | tcpConnect la pa ch r =>
      obtain ⟨⟨st, hst⟩, -⟩ := ho.keys.connect k _ hp rfl
      obtain ⟨s, hs⟩ := ho.live.tcp k st hst
      simp only [World.getTcp_eq hs, bind, Except.bind]
      split
      · exact ⟨_, rfl, rfl, herase _, fun _ _ => id, List.prefix_append _ _⟩
      · exact ⟨_, rfl, rfl, herase _, fun _ _ => id, List.prefix_append _ _⟩
      · exact ⟨_, rfl, rfl, herase _, fun _ _ => id, List.prefix_append _ _⟩
      · exact ⟨w, rfl, .refl key w⟩
    | tcpAccept r =>
      obtain ⟨l, hl⟩ := ho.keys.accept k _ hp rfl
      simp only [hl]
      rcases World.tryAcceptSocket_cases (N := N) k l (ho.live.listening k l hl) with
        ⟨he, -⟩ | ⟨x, rest, s, la, pa, hx, hs, hst, he⟩
      · exact ⟨w, by rw [he]; rfl, .refl key w⟩
      · have h1 := replaceListening_undisturbed hf hk l.addr rest w
        refine ⟨_, by rw [he]; rfl, h1.trans ?_⟩
        exact ⟨rfl, herase _, fun _ _ => id, List.prefix_append _ _⟩

theorem processPending_undisturbed (hf : N.FreshHandles) {w : World T U} (ho : Owned w)
    {key : SocketHandle} (order : List SocketHandle) (hk : key ∉ order) :
    ∃ w', w.processPending N order = .ok w' ∧ Owned w' ∧ Undisturbed key w w' := by
  induction order generalizing w with
  | nil => exact ⟨w, rfl, ho, .refl key w⟩
  | cons k order ih =>
    simp only [List.mem_cons, not_or] at hk
    obtain ⟨w1, hrun1, ho1, hun1⟩ := processPendingOne_undisturbed hf ho hk.1
    obtain ⟨w2, hrun2, ho2, hun2⟩ := ih ho1 hk.2
    exact ⟨w2, (World.processPending_cons hrun1 order).trans hrun2, ho2, hun1.trans hun2⟩

section Serving

variable {w : World T U} {key : SocketHandle} {l : ListenerState}

/-- The search cannot come back empty while there is an established socket. -/
theorem established_found (hM : N.TcpMachine)
    (hex : ∃ x ∈ l.listeningHandles, stateOf N w x = some .established) :
    ¬∀ x ∈ l.listeningHandles, ∀ s, w.sockets.lookup x = some (.tcp s) →
      N.tcpState s = .established → N.remoteEndpoint s = none := by
  intro hnone
  obtain ⟨x, hx, hst⟩ := hex
  obtain ⟨s, hs, he⟩ := stateOf_eq_some hst
  obtain ⟨remote, hr⟩ := hM.established_remote s he
  rw [hnone x hx s hs he] at hr
  cases hr

theorem servedWith_single {x : SocketHandle} {rest : List SocketHandle} {s : T}
    (hx : (x::rest).Perm l.listeningHandles) (hs : w.sockets.lookup x = some (.tcp s))
    (hst : N.tcpState s = .established) (r : ReqId) (la pa : SocketAddr) (ch : ChanId) :
    ServedWith N w l r [(r, .tcp (.ok (x, la, pa, ch)))] :=
  ⟨x, la, pa, ch, by simp, hx.mem_iff.mp List.mem_cons_self, .inl (by rw [stateOf_eq hs, hst])⟩

theorem handleTcpAccept_serves (hM : N.TcpMachine) (ho : Owned w)
    (hl : w.listeners.lookup key = some l)
    (hex : ∃ x ∈ l.listeningHandles, stateOf N w x = some .established) (r : ReqId) :
    ∃ w' ext, w.handleTcpAccept N key r = .ok w' ∧ w'.answers = w.answers ++ ext ∧
      ServedWith N w l r ext := by
  rcases World.handleTcpAccept_cases (N := N) hl (ho.live.listening key l hl) r with
    ⟨-, hnone⟩ | ⟨x, rest, s, la, pa, hx, hs, hst, he⟩
  · exact absurd hnone (established_found hM hex)
  · exact ⟨_, _, he, by simp,
      servedWith_single hx hs hst r la pa (w.replaceListening N key l.addr rest).nextChan⟩

theorem processPendingOne_serves (hM : N.TcpMachine) (ho : Owned w)
    (hl : w.listeners.lookup key = some l)
    (hex : ∃ x ∈ l.listeningHandles, stateOf N w x = some .established) {r : ReqId}
    (hp : w.pending.lookup key = some (.tcpAccept r)) :
    ∃ w' ext, w.processPendingOne N key = .ok w' ∧ w'.answers = w.answers ++ ext ∧
      ServedWith N w l r ext := by
  unfold World.processPendingOne
  simp only [hp, hl]
  rcases World.tryAcceptSocket_cases (N := N) key l (ho.live.listening key l hl) with
    ⟨-, hnone⟩ | ⟨x, rest, s, la, pa, hx, hs, hst, he⟩
  · exact absurd hnone (established_found hM hex)
  · exact ⟨_, _, by rw [he]; rfl, by simp; rfl,
      servedWith_single hx hs hst r la pa (w.replaceListening N key l.addr rest).nextChan⟩

/-- Sockets that were there keep their state while other listeners are served. -/
theorem Undisturbed.stateOf_eq {w' : World T U} (h : Undisturbed key w w') {x : SocketHandle}
    (hx : LiveTcp w.sockets x) : stateOf N w' x = stateOf N w x := by
  obtain ⟨s, hs⟩ := hx
  rw [Stack.stateOf_eq hs, Stack.stateOf_eq (h.sockets x _ hs)]

theorem processPending_serves (hf : N.FreshHandles) (hM : N.TcpMachine) (ho : Owned w)
    (hl : w.listeners.lookup key = some l)
    (hex : ∃ x ∈ l.listeningHandles, stateOf N w x = some .established) {r : ReqId}
    (hp : w.pending.lookup key = some (.tcpAccept r)) {order : List SocketHandle}
    (hkey : key ∈ order) :
    ∃ w' ext, w.processPending N order = .ok w' ∧ w'.answers = w.answers ++ ext ∧
      ServedWith N w l r ext := by
  -- rounds before the one for `key` leave its listener alone, later ones only add answers
  obtain ⟨pre, post, rfl, hpre⟩ := List.eq_append_cons_of_mem hkey
  obtain ⟨w1, hrun1, ho1, hun⟩ := processPending_undisturbed hf ho pre hpre
  have hstate : ∀ x ∈ l.listeningHandles, stateOf N w1 x = stateOf N w x :=
    fun x hx => hun.stateOf_eq (ho.live.listening key l hl x hx)
  obtain ⟨w2, ext2, hrun2, hans2, x, la, pa, ch, hin, hx, hus⟩ :=
    processPendingOne_serves hM ho1 (hun.listener.trans hl)
      (hex.imp (fun x hx => ⟨hx.1, (hstate x hx.1).trans hx.2⟩)) (hun.pending.trans hp)
  obtain ⟨w3, hrun3, hpath⟩ := (ho1.processPendingOne hf hrun2).processPending_effects hf post
  obtain ⟨ext1, hans1⟩ := hun.answers
  obtain ⟨ext3, hans3⟩ := Effect.answers_path hpath
  refine ⟨w3, ext1 ++ ext2 ++ ext3, ?_, ?_, x, la, pa, ch, by simp [hin], hx, ?_⟩
  · rw [World.processPending_append hrun1, World.processPending_cons hrun2, hrun3]
  · rw [← hans3, hans2, ← hans1]
    simp
  · unfold Usable at hus ⊢
    rwa [hstate x hx] at hus

/-- Exactly when is an accept served as it should: a connection in `CloseWait` alone is not
seen, one in `Established` always is. -/
theorem accept_serves_iff (N : Smoltcp T U E) (hf : N.FreshHandles) (hM : N.TcpMachine)
    (cfg : StackConfig) (port : UInt16) (w : World T U) (h : Reach N cfg port w)
    (key : SocketHandle) (l : ListenerState) (hl : w.listeners.lookup key = some l) :
    AcceptServes N w key l ↔
      (∃ x ∈ l.listeningHandles, stateOf N w x = some .established) ∨
      ∀ x ∈ l.listeningHandles, stateOf N w x ≠ some .closeWait := by
  have ho := Reach.owned hf h
  constructor
  · intro hserves
    by_contra hnot
    rw [not_or] at hnot
    obtain ⟨hnone, hcw⟩ := hnot
    simp only [ne_eq, not_forall, not_not] at hcw
    obtain ⟨x, hx, hxcw⟩ := hcw
    obtain ⟨w', ext, hrun, hans, x', la, pa, ch, hin, -⟩ :=
      (hserves ⟨x, hx, .inr hxcw⟩).1 0
    -- with nobody established the accept is stored, and no answer is given
    rcases World.handleTcpAccept_cases (N := N) hl (ho.live.listening key l hl) 0 with
      ⟨he, -⟩ | ⟨y, rest, s, -, -, hy, hs, hst, -⟩
    · obtain rfl := Except.ok.inj (he.symm.trans hrun)
      have hext : ext = [] := by simpa [World.insertPending] using hans
      rw [hext] at hin
      cases hin
    · exact hnone ⟨y, hy.mem_iff.mp List.mem_cons_self, by rw [stateOf_eq hs, hst]⟩
  · intro hcond hus
    have hex : ∃ x ∈ l.listeningHandles, stateOf N w x = some .established := by
      rcases hcond with hex | hnone
      · exact hex
      · obtain ⟨x, hx, hst | hst⟩ := hus
        · exact ⟨x, hx, hst⟩
        · exact absurd hst (hnone x hx)
    refine ⟨handleTcpAccept_serves hM ho hl hex, fun r order hp hperm => ?_⟩
    refine processPending_serves hf hM ho hl hex hp ?_
    exact (List.isPerm_iff.mp hperm).mem_iff.mpr ((Table.mem_keys_iff _ _).mpr ⟨_, hp⟩)

end Serving

/-- A listener with backlog 1 whose socket gets the segments `es` in one batch. -/
def batchRun (es : List RefEvent) : List (Action RefEvent) :=
  listenRun 1 ++ .timeout::iteration [] (es.map (fun e => (0, e))) none

theorem accept_serves_iff_established :
    ∃ w l, Reach refNet hostCfg 49152 w ∧ w.listeners.lookup 0 = some l ∧
      AcceptServes refNet w 0 l := by
  obtain ⟨w, hr, -, hp⟩ := reachable_of_run (World.step refNet hostCfg)
    (batchRun [.syn serverEp peerEp, .ack 0]) (World.init refNet hostCfg 49152)
    (fun w => decide (w.listeners.lookup 0 = some ⟨serverAddr, [0]⟩ ∧
      stateOf refNet w 0 = some .established)) (by decide +kernel)
  obtain ⟨hl, hst⟩ := of_decide_eq_true hp
  exact ⟨w, _, hr, hl, (accept_serves_iff refNet refNet_freshHandles refNet_tcpMachine hostCfg 49152
    w hr 0 _ hl).mpr (.inl ⟨0, by simp, hst⟩)⟩

/-- A client that connects, sends and closes within one batch: its connection is usable, but an
accept on the listener gets no answer. -/
theorem accept_misses_closeWait :
    ∃ w l, Reach refNet hostCfg 49152 w ∧ w.listeners.lookup 0 = some l ∧
      (∃ x ∈ l.listeningHandles, Usable refNet w x) ∧
      ∃ w', w.handleTcpAccept refNet 0 1 = .ok w' ∧ w'.answers.length = w.answers.length ∧
        w'.pending.lookup 0 = some (.tcpAccept 1) := by
  obtain ⟨w, hr, -, hp⟩ := reachable_of_run (World.step refNet hostCfg)
    (batchRun [.syn serverEp peerEp, .ack 0, .data [1, 2], .fin])
    (World.init refNet hostCfg 49152)
    (fun w => decide (w.listeners.lookup 0 = some ⟨serverAddr, [0]⟩ ∧ Usable refNet w 0) &&
      match w.handleTcpAccept refNet 0 1 with
      | .ok w' => decide (w'.answers.length = w.answers.length ∧
          w'.pending.lookup 0 = some (.tcpAccept 1))
      | .error _ => false) (by decide +kernel)
  rw [Bool.and_eq_true] at hp
  obtain ⟨hl, hus⟩ := of_decide_eq_true hp.1
  refine ⟨w, _, hr, hl, ⟨0, by simp, hus⟩, ?_⟩
  have hrun := hp.2
  split at hrun
  · next w' hw' => exact ⟨w', hw', of_decide_eq_true hrun⟩
  · cases hrun

end TapTunnel.Stack
