import TapTunnel.Stack.Accept

namespace TapTunnel.Stack

open Framework Reference

variable {T U E : Type} {N : Smoltcp T U E}

namespace World

/-- The sockets that serve an object the application has open. -/
def objects (w : World T U) : List SocketHandle :=
  w.tcpStates.keys ++ w.udpStates.keys ++ w.backlogHandles

/-- Some map of the stack refers to the socket. -/
def Referenced (w : World T U) (x : SocketHandle) : Prop :=
  x ∈ w.tcpStates.keys ∨ x ∈ w.udpStates.keys ∨ x ∈ w.pending.keys ∨ x ∈ w.backlogHandles

end World

/-- TCP sockets that no object uses any more and that have not come to `Closed` yet. -/
def stillClosing (N : Smoltcp T U E) (w : World T U) : List SocketHandle :=
  w.sockets.keys.filter (fun x =>
    !w.objects.contains x && (stateOf N w x).any (fun q => q != .closed))

/-- Every socket is referred to by some map, or is a TCP socket that has not closed yet. -/
def Reclaimed (N : Smoltcp T U E) (w : World T U) : Prop :=
  ∀ x ∈ w.sockets.keys, w.Referenced x ∨ ∃ q, stateOf N w x = some q ∧ q ≠ .closed

section Components

variable {So So' : HandleMap (Socket T U)} {Ts Ts' : HandleMap TcpSocketState}
  {Us Us' : HandleMap UdpSocketState} {Li Li' : HandleMap ListenerState} {x : SocketHandle}

/-- The socket is the one of an entry of `tcp_states` or `udp_states`, or a listening one. -/
def Held (Ts : HandleMap TcpSocketState) (Us : HandleMap UdpSocketState)
    (Li : HandleMap ListenerState) (x : SocketHandle) : Prop :=
  (∃ st, Ts.lookup x = some st) ∨ (∃ st, Us.lookup x = some st) ∨
    ∃ k l, Li.lookup k = some l ∧ x ∈ l.listeningHandles

namespace Held

theorem mono (h : Held Ts Us Li x)
    (ht : ∀ st, Ts.lookup x = some st → ∃ st', Ts'.lookup x = some st')
    (hl : ∀ k l, Li.lookup k = some l → x ∈ l.listeningHandles →
      ∃ k' l', Li'.lookup k' = some l' ∧ x ∈ l'.listeningHandles) : Held Ts' Us Li' x := by
  rcases h with ⟨st, hst⟩ | hu | ⟨k, l, hk, hx⟩
  · exact .inl (ht st hst)
  · exact .inr (.inl hu)
  · exact .inr (.inr (hl k l hk hx))

theorem insertTcp (h : Held Ts Us Li x) (k : SocketHandle) (st : TcpSocketState) :
    Held (Ts.insert k st) Us Li x := by
  refine h.mono (fun st' hst => ?_) (fun k l hk hx => ⟨k, l, hk, hx⟩)
  by_cases hx : x = k
  · exact ⟨st, by rw [hx, AList.lookup_insert]⟩
  · exact ⟨st', by rw [AList.lookup_insert_ne hx, hst]⟩

theorem eraseTcp (h : Held Ts Us Li x) {k : SocketHandle} (hx : x ≠ k) :
    Held (Ts.erase k) Us Li x :=
  h.mono (fun st hst => ⟨st, by rw [AList.lookup_erase_ne hx, hst]⟩)
    (fun k l hk hx => ⟨k, l, hk, hx⟩)

theorem insertUdp (h : Held Ts Us Li x) (k : SocketHandle) (st : UdpSocketState) :
    Held Ts (Us.insert k st) Li x := by
  rcases h with ht | ⟨st', hst⟩ | hl
  · exact .inl ht
  · by_cases hx : x = k
    · exact .inr (.inl ⟨st, by rw [hx, AList.lookup_insert]⟩)
    · exact .inr (.inl ⟨st', by rw [AList.lookup_insert_ne hx, hst]⟩)
  · exact .inr (.inr hl)

/-- Writing a listener entry lets go only of sockets that the old entry had. -/
theorem insertListener (h : Held Ts Us Li x) {key : SocketHandle} (l : ListenerState)
    (hold : ∀ l', Li.lookup key = some l' → x ∈ l'.listeningHandles → x ∈ l.listeningHandles) :
    Held Ts Us (Li.insert key l) x := by
  refine h.mono (fun st hst => ⟨st, hst⟩) (fun k l' hk hx => ?_)
  by_cases he : k = key
  · subst he
    exact ⟨k, l, AList.lookup_insert _, hold l' hk hx⟩
  · exact ⟨k, l', by rw [AList.lookup_insert_ne he, hk], hx⟩

theorem eraseListener (h : Held Ts Us Li x) {key : SocketHandle}
    (hx : ∀ l, Li.lookup key = some l → x ∉ l.listeningHandles) : Held Ts Us (Li.erase key) x := by
  refine h.mono (fun st hst => ⟨st, hst⟩) (fun k l hk hm => ?_)
  have hne : k ≠ key := by
    rintro rfl
    exact hx l hk hm
  exact ⟨k, l, by rw [AList.lookup_erase_ne hne, hk], hm⟩

end Held

/-- The socket is a TCP socket that is not `Closed`. -/
def TcpOpen (N : Smoltcp T U E) (v : Socket T U) : Prop := ∃ s, v = .tcp s ∧ N.tcpState s ≠ .closed

/-- Every socket is held, or is a TCP socket that is not `Closed`. Other than `Reclaimed` this
does not count an accept that waits on a listener as a use of the socket the listener is
named by. -/
def Kept (N : Smoltcp T U E) (So : HandleMap (Socket T U)) (Ts : HandleMap TcpSocketState)
    (Us : HandleMap UdpSocketState) (Li : HandleMap ListenerState) : Prop :=
  ∀ x v, So.lookup x = some v → Held Ts Us Li x ∨ TcpOpen N v

namespace Kept

/-- It is enough to look at the sockets that have changed or lost their holder. -/
theorem rule (h : Kept N So Ts Us Li)
    (hx : ∀ x v, So'.lookup x = some v → (Held Ts' Us' Li' x ∨ TcpOpen N v) ∨
      (So.lookup x = some v ∧ (Held Ts Us Li x → Held Ts' Us' Li' x))) :
    Kept N So' Ts' Us' Li' := by
  intro x v hv
  rcases hx x v hv with hk | ⟨hold, hheld⟩
  · exact hk
  · exact (h x v hold).imp_left hheld

/-- A socket changes that is held, or stays open. -/
theorem set (h : Kept N So Ts Us Li) {k : SocketHandle} (v : Socket T U)
    (hk : Held Ts Us Li k ∨ TcpOpen N v) : Kept N (So.insert k v) Ts Us Li := by
  refine h.rule (fun x u hu => ?_)
  rcases Table.insert_cases hu with ⟨rfl, rfl⟩ | ⟨-, hu⟩
  · exact .inl hk
  · exact .inr ⟨hu, id⟩

theorem insertTcp (h : Kept N So Ts Us Li) (k : SocketHandle) (st : TcpSocketState) :
    Kept N So (Ts.insert k st) Us Li :=
  h.rule (fun _ _ hu => .inr ⟨hu, fun hh => hh.insertTcp k st⟩)

end Kept

end Components

def AllKept (N : Smoltcp T U E) (w : World T U) : Prop :=
  Kept N w.sockets w.tcpStates w.udpStates w.listeners

/-- The command closes no UDP socket, no stream whose socket `close` takes straight to `Closed`, and
no listener with a socket in `Listen` or `Closed`. -/
def CommandKeeps (N : Smoltcp T U E) (w : World T U) : StackCommand → Prop
  | .udpClose _ => False
  | .tcpClose h => ∀ q ∈ stateOf N w h, q.onClose ≠ .closed
  | .tcpListenerClose key => ∀ l ∈ w.listeners.lookup key, ∀ x ∈ l.listeningHandles,
      stateOf N w x ≠ some .listen ∧ stateOf N w x ≠ some .closed
  | _ => True

/-- No connect that waits for its result has failed already. -/
def ConnectsOpen (N : Smoltcp T U E) (w : World T U) : Prop :=
  ∀ e ∈ w.pending.entries, e.2.isConnect = true → stateOf N w e.1 ≠ some .closed

/-- State of the TCP socket under `x` once smoltcp has worked on `e`. -/
def stateAfter (N : Smoltcp T U E) (w : World T U) (x : SocketHandle) (e : E) : Option TcpState :=
  match w.sockets.lookup x with
  | some (.tcp s) => some (N.tcpState (N.tcpProcess e s))
  | _ => none

/-- The socket under `x` is in use, or `e` does not bring it to `Closed`. -/
def EventKeeps (N : Smoltcp T U E) (w : World T U) (x : SocketHandle) (e : E) : Prop :=
  x ∈ w.objects ∨ stateAfter N w x e ≠ some .closed

/-- Condition on a step, by what it does: a command is one that `CommandKeeps` admits, an event does
not bring a socket without an entry or listener to `Closed`, and `process_pending` finds no connect
that has failed. -/
def StepKeeps (N : Smoltcp T U E) (w : World T U) : Action E → Prop
  | .command => ∀ cmd ∈ w.commands.queue.head?, CommandKeeps N w cmd
  | .tcpEvent x e => EventKeeps N w x e
  | .pending _ => ConnectsOpen N w
  | _ => True

instance (w : World T U) (cmd : StackCommand) : Decidable (CommandKeeps N w cmd) := by
  rcases cmd with _ | _ <;> unfold CommandKeeps <;> infer_instance

instance (w : World T U) : Decidable (ConnectsOpen N w) :=
  inferInstanceAs (Decidable (∀ e ∈ w.pending.entries, _ → _))

instance (w : World T U) (x : SocketHandle) (e : E) : Decidable (EventKeeps N w x e) :=
  inferInstanceAs (Decidable (_ ∨ _))

instance (w : World T U) (a : Action E) : Decidable (StepKeeps N w a) := by
  rcases a with _ | _ <;> unfold StepKeeps <;> infer_instance

theorem mem_objects {w : World T U} {x : SocketHandle} :
    x ∈ w.objects ↔ Held w.tcpStates w.udpStates w.listeners x := by
  simp only [World.objects, List.mem_append, Table.mem_keys_iff, mem_backlogHandles, Held, or_assoc]

/-- Rounds of `process_pending` start no connect and leave the sockets of the others alone. -/
theorem ConnectsOpen.effect (hf : N.FreshHandles) {w w' : World T U} (ho : Owned w)
    (h : ConnectsOpen N w) (he : Effect N none w w') : ConnectsOpen N w' := by
  suffices ∀ k op, w'.pending.lookup k = some op → op.isConnect = true →
      w.pending.lookup k = some op ∧ stateOf N w' k = stateOf N w k by
    intro e he hc
    obtain ⟨hold, hst⟩ := this e.1 e.2 (AList.mem_lookup_iff.mpr he) hc
    rw [hst]
    exact h e (AList.mem_lookup_iff.mp hold) hc
  intro k op hk hc
  cases he with
  | connected la pa ch r hp => exact ⟨(Table.erase_cases hk).2, rfl⟩
  | connectDead la pa ch r e hp => exact ⟨(Table.erase_cases hk).2, rfl⟩
  | acceptPending r l x rest s la pa hp hl hx hs hest =>
    have hold := (Table.erase_cases hk).2
    rw [World.replaceListening_pending] at hold
    obtain ⟨⟨st, hst⟩, hnl⟩ := ho.keys.connect k op hold hc
    obtain ⟨s', hs'⟩ := ho.live.tcp k st hst
    have hne : k ≠ _ := fun he => by rw [he, hl] at hnl; cases hnl
    have hkeep := (replaceListening_undisturbed hf hne l.addr rest w).sockets k _ hs'
    exact ⟨hold, (stateOf_eq hkeep).trans (stateOf_eq hs').symm⟩

namespace AllKept

variable {w w' : World T U}

/-- An accepted socket changes from the backlog to an entry of its own. -/
theorem accepted (h : AllKept N w) {key x : SocketHandle} {l : ListenerState}
    {rest : List SocketHandle} (hl : w.listeners.lookup key = some l)
    (hx : (x::rest).Perm l.listeningHandles) (la pa : SocketAddr) (r : ReqId) :
    AllKept N ((w.replaceListening N key l.addr rest).deliverAccepted x la pa r) := by
  let st : TcpSocketState := ⟨w.nextChan, none⟩
  have hheld : ∀ hs : List SocketHandle, (∀ y ∈ rest, y ∈ hs) → ∀ y,
      Held w.tcpStates w.udpStates w.listeners y →
      Held (w.tcpStates.insert x st) w.udpStates (w.listeners.insert key ⟨l.addr, hs⟩) y := by
    intro hs hrest y hy
    by_cases hyx : y = x
    · exact .inl ⟨st, by rw [hyx, AList.lookup_insert]⟩
    · refine (hy.insertTcp x st).insertListener _ (fun l' hl' hm => ?_)
      obtain rfl : l = l' := Option.some.inj (hl.symm.trans hl')
      have hmem : y ∈ x::rest := hx.mem_iff.mpr hm
      exact hrest y (List.mem_of_ne_of_mem hyx hmem)
  unfold World.replaceListening
  split
  · refine Kept.rule h (fun y v hv => ?_)
    rcases Table.insert_cases hv with ⟨rfl, -⟩ | ⟨-, hv⟩
    · exact .inl (.inl (.inr (.inr ⟨key, _, AList.lookup_insert _, by simp⟩)))
    · exact .inr ⟨hv, hheld _ (fun z hz => List.mem_append_left _ hz) y⟩
  · exact Kept.rule h (fun y v hv => .inr ⟨hv, hheld _ (fun _ => id) y⟩)

/-- Step lemma for commands that end no use of a closed socket, and for the rounds of
`process_pending` while no pending connect has failed. -/
theorem effect (hM : N.TcpMachine) {c : Option StackCommand} (ho : Owned w) (h : AllKept N w)
    (hc : ∀ cmd, c = some cmd → CommandKeeps N w cmd) (hn : c = none → ConnectsOpen N w)
    (he : Effect N c w w') : AllKept N w' := by
  cases he with
  | reject m port ips rep hr hm hb =>
    exact Kept.rule h (fun x v hv => .inr ⟨(hm x).symm.trans hv, id⟩)
  | connect k s port la hk =>
    have hheld : Held (w.tcpStates.insert k ⟨w.nextChan, none⟩) w.udpStates w.listeners k :=
      .inl ⟨_, AList.lookup_insert _⟩
    exact Kept.set (Kept.insertTcp h k _) _ (.inl hheld)
  | listen m hs primary hp hlen hnd hport hold hnew hrest =>
    refine Kept.rule h (fun x v hv => ?_)
    by_cases hx : x ∈ hs
    · exact .inl (.inl (.inr (.inr ⟨primary, _, AList.lookup_insert _, hx⟩)))
    · refine .inr ⟨(hrest x hx).symm.trans hv, fun hh => hh.insertListener _ (fun l' hl' _ => ?_)⟩
      have hnone := (ho.unused (hold primary (List.mem_of_head? hp))).2.1
      rw [hnone] at hl'
      cases hl'
  | accept l x rest s la pa hl hx hs hest => exact h.accepted hl hx la pa _
  | wait l hl hnone => exact h
  | listenerGone hl => exact h
  | listenerClose l m hl hout hin =>
    rename_i key
    have hkeep := hc _ rfl l hl
    refine Kept.rule h (fun x v hv => ?_)
    by_cases hx : x ∈ l.listeningHandles
    · obtain ⟨s, hs, hs'⟩ := hin x hx
      obtain ⟨hlis, hcl⟩ := hkeep x hx
      simp only [stateOf_eq hs, ne_eq, Option.some.injEq] at hlis hcl
      rw [if_neg hlis] at hs'
      obtain rfl := Option.some.inj (hs'.symm.trans hv)
      exact .inl (.inr ⟨s, rfl, hcl⟩)
    · refine .inr ⟨(hout x hx).symm.trans hv, fun hh => hh.eraseListener (fun l' hl' => ?_)⟩
      obtain rfl : l = l' := Option.some.inj (hl.symm.trans hl')
      exact hx
  | tcpClose s hs =>
    rename_i k
    have hkeep := hc _ rfl _ (stateOf_eq hs)
    have hopen : TcpOpen N (.tcp (N.tcpClose s) : Socket T U) := ⟨_, rfl, by rwa [hM.close_state]⟩
    refine Kept.rule h (fun x v hv => ?_)
    rcases Table.insert_cases hv with ⟨rfl, rfl⟩ | ⟨hne, hv⟩
    · exact .inl (.inr hopen)
    · exact .inr ⟨hv, fun hh => hh.eraseTcp hne⟩
  | udpBind k s port addr hk =>
    refine Kept.rule h (fun x v hv => ?_)
    rcases Table.insert_cases hv with ⟨rfl, -⟩ | ⟨-, hv⟩
    · exact .inl (.inl (.inr (.inl ⟨_, AList.lookup_insert _⟩)))
    · exact .inr ⟨hv, fun hh => hh.insertUdp k _⟩
  | udpClose s hs => exact (hc _ rfl).elim
  | connected la pa ch r hp => exact h
  | connectDead la pa ch r e hp =>
    rename_i k
    have hlive := hn rfl ⟨k, _⟩ (AList.mem_lookup_iff.mp hp) rfl
    obtain ⟨⟨st, hst⟩, -⟩ := ho.keys.connect k _ hp rfl
    obtain ⟨s, hs⟩ := ho.live.tcp k st hst
    rw [stateOf_eq hs, ne_eq, Option.some.injEq] at hlive
    refine Kept.rule h (fun x v hv => ?_)
    by_cases hx : x = k
    · subst hx
      obtain rfl := Option.some.inj (hs.symm.trans hv)
      exact .inl (.inr ⟨s, rfl, hlive⟩)
    · exact .inr ⟨hv, fun hh => hh.eraseTcp hx⟩
  | acceptPending r l x rest s la pa hp hl hx hs hest =>
    have h1 := h.accepted hl hx la pa r
    exact h1

theorem effects (hf : N.FreshHandles) (hM : N.TcpMachine) (ho : Owned w) (h : AllKept N w)
    (hopen : ConnectsOpen N w) (he : Relation.ReflTransGen (Effect N none) w w') :
    AllKept N w' := by
  have hboth := ho.effects_rule hf (fun v => AllKept N v ∧ ConnectsOpen N v) ⟨h, hopen⟩
    (fun _ _ hu hv he => ⟨hv.1.effect hM hu (by simp) (fun _ => hv.2) he, hv.2.effect hf hu he⟩) he
  exact hboth.1

theorem transition (hf : N.FreshHandles) (hM : N.TcpMachine) {a : Action E} (ho : Owned w)
    (h : AllKept N w) (hok : StepKeeps N w a) (ht : Transition N a w w') : AllKept N w' := by
  have hheld : ∀ k st, w.tcpStates.lookup k = some st →
      Held w.tcpStates w.udpStates w.listeners k := fun k st hst => .inl ⟨st, hst⟩
  have hudp : ∀ k st, w.udpStates.lookup k = some st →
      Held w.tcpStates w.udpStates w.listeners k := fun k st hst => .inr (.inl ⟨st, hst⟩)
  cases ht with
  | env he =>
    have hfr := World.envStep_frame he
    unfold AllKept
    rw [hfr.sockets, hfr.tcpStates, hfr.udpStates, hfr.listeners]
    exact h
  | control p notify hp hw => exact h
  | command cmd rest hph hq he =>
    have hkeep : CommandKeeps N w cmd := hok cmd (by simp [hq])
    have h1 := effect hM (ho.popCommand hq _) h (fun c hc => by cases hc; exact hkeep) (by simp) he
    exact h1
  | writeTcp k tcp udp st s hph hst hs =>
    exact (Kept.set h _ (.inl (hheld k st hst))).insertTcp k _
  | readTcp k tcp udp changed st s hst hs => exact Kept.set h _ (.inl (hheld k st hst))
  | writeUdp k udp st s hst hs => exact Kept.set h _ (.inl (hudp k st hst))
  | readUdp k udp changed st s hst hs => exact Kept.set h _ (.inl (hudp k st hst))
  | udpEvent k e s hs =>
    have hopen : ¬TcpOpen N (.udp s : Socket T U) := by
      rintro ⟨s', ⟨⟩, -⟩
    exact Kept.set h _ (.inl ((h k _ hs).resolve_right hopen))
  | tcpEvent k e s hs =>
    refine Kept.set h _ ?_
    rcases hok with hk | hk
    · exact .inl (mem_objects.mp hk)
    · simp only [stateAfter, hs, ne_eq, Option.some.injEq] at hk
      exact .inr ⟨_, rfl, hk⟩
  | pending order he =>
    have h1 := effects hf hM ho h hok he
    exact h1
  | fail => exact World.failOps_rule (AllKept N) _ h (fun _ _ _ _ hv => hv)

end AllKept

theorem AllKept.reclaimed {w : World T U} (h : AllKept N w) : Reclaimed N w := by
  intro x hx
  obtain ⟨v, hv⟩ := (Table.mem_keys_iff _ _).mp hx
  rcases h x v hv with hh | ⟨s, rfl, hs⟩
  · have hobj : x ∈ w.objects := mem_objects.mpr hh
    simp only [World.objects, List.mem_append, or_assoc] at hobj
    left
    unfold World.Referenced
    tauto
  · exact .inr ⟨_, stateOf_eq hv, hs⟩

/-- There are at most as many sockets as uses of them and connections that are closing. -/
theorem AllKept.length_le {w : World T U} (h : AllKept N w) :
    w.sockets.keys.length ≤ w.objects.length + (stillClosing N w).length := by
  have hsub : w.sockets.keys ⊆ w.objects ++ stillClosing N w := by
    intro x hx
    obtain ⟨v, hv⟩ := (Table.mem_keys_iff _ _).mp hx
    by_cases hobj : x ∈ w.objects
    · exact List.mem_append_left _ hobj
    · obtain ⟨s, rfl, hs⟩ := (h x v hv).resolve_left (fun hh => hobj (mem_objects.mpr hh))
      refine List.mem_append_right _ (List.mem_filter.mpr ⟨hx, ?_⟩)
      simp [hobj, stateOf_eq hv, hs]
  have hperm := w.sockets.keys_nodup.subperm hsub
  simpa using hperm.length_le

/-- In a run in which no socket is, or comes to be, `Closed` while out of use, every socket is
referred to or still closing, and their number is bounded accordingly. -/
theorem sockets_reclaimed (N : Smoltcp T U E) (hf : N.FreshHandles) (hM : N.TcpMachine)
    (cfg : StackConfig) (port : UInt16) (w : World T U)
    (h : ReachVia (World.step N cfg) (StepKeeps N) (World.init N cfg port) w) :
    Reclaimed N w ∧ w.sockets.keys.length ≤ w.objects.length + (stillClosing N w).length := by
  have hkept : AllKept N w := by
    apply Reach.invariant hf (AllKept N) _ _ h
    · intro ips p x v hv
      simp [World.blank] at hv
    · intro s t a ho hs hok ht
      exact hs.transition hf hM ho hok ht
  exact ⟨hkept.reclaimed, hkept.length_le⟩

/-- An accepted connection is closed by the application; its socket is in `FinWait1`. -/
def acceptCloseRun : List (Action RefEvent) :=
  .flatten [acceptRun, [.issue (.tcpClose 0), .command], iteration [] [] none]

theorem sockets_reclaimed_acceptCloseRun :
    ∃ w : World RefTcp RefUdp, w.phase = .select ∧ stateOf refNet w 0 = some .finWait1 ∧
      w.tcpStates.keys = [] ∧ Reclaimed refNet w := by
  obtain ⟨w, hr, hp⟩ := reachVia_of_run (World.step refNet hostCfg) (StepKeeps refNet)
    acceptCloseRun (World.init refNet hostCfg 49152) (fun w => decide (w.phase = .select ∧
      stateOf refNet w 0 = some .finWait1 ∧ w.tcpStates.keys = [])) (by decide +kernel)
  obtain ⟨hph, hst, hts⟩ := of_decide_eq_true hp
  exact ⟨w, hph, hst, hts, (sockets_reclaimed refNet refNet_freshHandles refNet_tcpMachine hostCfg
    49152 w hr).1⟩

/-- The peer refuses a connect; then a UDP socket is bound and closed. -/
def refusedRun : List (Action RefEvent) :=
  .flatten [[.issue (.tcpConnect none (.v4 0x0a000001 80) 0), .command],
    iteration [0] [(0, .rst)] (some [0]),
    [.issue (.udpBind serverAddr 1), .command, .beginWrite [] [1], .writeUdp, .endWrite,
      .endPoll false, .beginRead [] [1], .readUdp, .endRead, .skipPending, .checkDead,
      .issue (.udpClose 1), .command], iteration [] [] none]

/-- Neither the socket of the refused connect nor the closed UDP socket is ever removed. -/
theorem refused_socket_leaks :
    ∃ w : World RefTcp RefUdp, Reach refNet hostCfg 49152 w ∧ w.phase = .select ∧
      w.sockets.keys.length = 2 ∧ w.objects = [] ∧ stillClosing refNet w = [] ∧
      ¬Reclaimed refNet w := by
  obtain ⟨w, hr, -, hp⟩ := reachable_of_run (World.step refNet hostCfg) refusedRun
    (World.init refNet hostCfg 49152) (fun w => decide (w.phase = .select ∧
      w.sockets.keys.length = 2 ∧ w.objects = [] ∧ stillClosing refNet w = [] ∧
      0 ∈ w.sockets.keys ∧ stateOf refNet w 0 = some .closed ∧ w.pending.keys = []))
    (by decide +kernel)
  obtain ⟨hph, hlen, hobj, hclosing, h0, hst, hpend⟩ := of_decide_eq_true hp
  refine ⟨w, hr, hph, hlen, hobj, hclosing, fun hrec => ?_⟩
  rcases hrec 0 h0 with href | ⟨q, hq, hne⟩
  · have hmem : 0 ∈ w.objects ++ w.pending.keys := by
      simp only [World.Referenced, World.objects, List.mem_append] at href ⊢
      tauto
    rw [hobj, hpend] at hmem
    cases hmem
  · rw [hst] at hq
    exact hne (Option.some.inj hq).symm

end TapTunnel.Stack
