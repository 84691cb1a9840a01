import TapTunnel.Stack.PendingRounds

namespace TapTunnel.Stack

open Framework Reference

variable {T U E : Type} {N : Smoltcp T U E}

section Runs

variable {v v' w : World T U} {k : SocketHandle} {order : List SocketHandle}
  {names names' : SocketHandle → SocketHandle × ChanId}

/-- The two jobs change nothing in common. -/
structure Job.Apart (j j' : Job T) : Prop where
  key : j.key ≠ j'.key
  socket : ∀ p ∈ j.socket, ∀ q ∈ j'.socket, p.1 ≠ q.1
  state : ∀ p ∈ j.state, ∀ q ∈ j'.state, p.1 ≠ q.1
  chan : ∀ p ∈ j.chan, ∀ q ∈ j'.chan, p.1 ≠ q.1

theorem Job.Apart.symm {j j' : Job T} (h : j.Apart j') : j'.Apart j :=
  ⟨h.key.symm, fun p hp q hq => (h.socket q hq p hp).symm,
    fun p hp q hq => (h.state q hq p hp).symm, fun p hp q hq => (h.chan q hq p hp).symm⟩

theorem Maps.perform_comm {j j' : Job T} (h : j.Apart j') (m : Maps T U) :
    (m.perform j).perform j' = (m.perform j').perform j := by
  refine Maps.ext (put_comm ?_ _) (Function.update_comm h.key _ _ _) (put_comm ?_ _)
    (put_comm h.symm.state _) rfl (touch_comm h.symm.chan _) rfl rfl
  · intro p hp q hq
    obtain ⟨p', hp', rfl⟩ := Option.mem_map.mp hp
    obtain ⟨q', hq', rfl⟩ := Option.mem_map.mp hq
    exact (h.socket q' hq' p' hp').symm
  · intro p hp q hq
    obtain ⟨l, -, rfl⟩ := Option.mem_map.mp hp
    obtain ⟨l', -, rfl⟩ := Option.mem_map.mp hq
    exact h.key.symm

/-- The names that the rounds use are new and distinct. -/
structure NewNames (N : Smoltcp T U E) (w : World T U) (order : List SocketHandle)
    (names : SocketHandle → SocketHandle × ChanId) : Prop where
  handles : ((w.replacing N order).map (fun k => (names k).1) ++ w.sockets.keys).Nodup
  chans : (List.range w.nextChan ++ (w.accepting N order).map fun k => (names k).2).Nodup

theorem Served.newNames (h : Served N w v order names) : NewNames N w order names :=
  ⟨h.handles.nodup_iff.mp (AList.keys_nodup _), h.chans ▸ List.nodup_range⟩

namespace NewNames

theorem perm {order' : List SocketHandle} (h : NewNames N w order names)
    (hp : order.Perm order') : NewNames N w order' names := by
  refine ⟨?_, ?_⟩
  · exact (((hp.filter _).map _).append_right _).nodup_iff.mp h.handles
  · exact (((hp.filter _).map _).append_left _).nodup_iff.mp h.chans

theorem handle_inj (h : NewNames N w order names) {k k' : SocketHandle}
    (hk : k ∈ w.replacing N order) (hk' : k' ∈ w.replacing N order)
    (he : (names k).1 = (names k').1) : k = k' :=
  List.inj_on_of_nodup_map (List.nodup_append.mp h.handles).1 hk hk' he

theorem chan_inj (h : NewNames N w order names) {k k' : SocketHandle}
    (hk : k ∈ w.accepting N order) (hk' : k' ∈ w.accepting N order)
    (he : (names k).2 = (names k').2) : k = k' :=
  List.inj_on_of_nodup_map (List.nodup_append.mp h.chans).2.1 hk hk' he

theorem chan_new (h : NewNames N w order names) {k : SocketHandle}
    (hk : k ∈ w.accepting N order) {c : ChanId} (hc : c < w.nextChan) : c ≠ (names k).2 :=
  (List.nodup_append.mp h.chans).2.2 c (List.mem_range.mpr hc) _
    (List.mem_map_of_mem (f := fun k => (names k).2) hk)

end NewNames

/-- Where a round makes changes in `tcp_states`: at its own entry, or at a listening socket of its
listener. -/
theorem job_state (ho : Owned w) (hc : ConnectEntries w) {t : Visit T}
    {name : SocketHandle × ChanId} (ht : w.visit N k = some t)
    {p : SocketHandle × Option TcpSocketState} (hp : p ∈ (t.job w.cancelled k name).state) :
    (p.1 = k ∧ ∃ st, w.tcpStates.lookup k = some st) ∨
      ∃ l, w.listeners.lookup k = some l ∧ p.1 ∈ l.listeningHandles := by
  have hfit := visit_fits ho hc ht
  cases t with
  | connected => cases hp
  | refused ch r =>
    obtain rfl := Option.some.inj hp
    exact .inl ⟨rfl, hfit.imp fun st hst => hst.1⟩
  | accepted x la pa addr rest repl r =>
    obtain rfl := Option.some.inj hp
    obtain ⟨l, hl, hx⟩ := hfit
    exact .inr ⟨l, hl, hx.mem_iff.mp List.mem_cons_self⟩

/-- A round changes the channel pair of its own entry, or the one it makes. -/
theorem job_chan (ho : Owned w) (hc : ConnectEntries w) {t : Visit T} {name : SocketHandle × ChanId}
    (ht : w.visit N k = some t) {p : ChanId × (TcpChan → TcpChan)}
    (hp : p ∈ (t.job w.cancelled k name).chan) :
    (∃ st, w.tcpStates.lookup k = some st ∧ p.1 = st.chan) ∨
      (p.1 = name.2 ∧ t.accepts = true) := by
  have hfit := visit_fits ho hc ht
  cases t with
  | connected la pa ch r =>
    obtain ⟨st, hst, rfl⟩ := hfit
    simp only [Visit.job] at hp
    split_ifs at hp
    · obtain rfl := Option.some.inj hp
      exact .inl ⟨st, hst, rfl⟩
    · cases hp
  | refused ch r =>
    obtain ⟨st, hst, rfl⟩ := hfit
    obtain rfl := Option.some.inj hp
    exact .inl ⟨st, hst, rfl⟩
  | accepted x la pa addr rest repl r =>
    obtain rfl := Option.some.inj hp
    exact .inr ⟨rfl, rfl⟩

theorem job_socket {t : Visit T} {c : List ReqId} {name : SocketHandle × ChanId}
    {p : SocketHandle × T} (hp : p ∈ (t.job c k name).socket) :
    p.1 = name.1 ∧ t.replaces = true := by
  cases t with
  | connected | refused => cases hp
  | accepted x la pa addr rest repl r =>
    obtain ⟨s, hs, rfl⟩ := Option.mem_map.mp hp
    exact ⟨rfl, by rw [Visit.replaces, hs, Option.isSome_some]⟩

theorem job_key {t : Visit T} {c : List ReqId} {name : SocketHandle × ChanId} :
    (t.job c k name).key = k := by
  cases t <;> rfl

/-- The rounds of two keys have nothing in common. -/
theorem job_apart (ho : Owned w) (hc : ConnectEntries w) (he : EntriesOf (fun _ _ => True) w)
    (hn : NewNames N w order names) {k k' : SocketHandle} (hk : k ∈ order) (hk' : k' ∈ order)
    (hne : k ≠ k') {j j' : Job T} (hj : w.job N names k = some j)
    (hj' : w.job N names k' = some j') : j.Apart j' := by
  obtain ⟨t, ht, rfl⟩ := Option.map_eq_some_iff.mp hj
  obtain ⟨t', ht', rfl⟩ := Option.map_eq_some_iff.mp hj'
  have hacc : ∀ {x t}, x ∈ order → w.visit N x = some t → t.accepts = true →
      x ∈ w.accepting N order :=
    fun hx ht ha => List.mem_filter.mpr ⟨hx, by rw [ht, Option.any_some, ha]⟩
  refine ⟨by rwa [job_key, job_key], ?_, ?_, ?_⟩
  · intro p hp q hq heq
    obtain ⟨hp, hr⟩ := job_socket hp
    obtain ⟨hq, hr'⟩ := job_socket hq
    refine hne (hn.handle_inj ?_ ?_ (hp.symm.trans (heq.trans hq)))
    · exact List.mem_filter.mpr ⟨hk, by rw [ht, Option.any_some, hr]⟩
    · exact List.mem_filter.mpr ⟨hk', by rw [ht', Option.any_some, hr']⟩
  · intro p hp q hq heq
    rcases job_state ho hc ht hp with ⟨hp, st, hst⟩ | ⟨l, hl, hp⟩ <;>
      rcases job_state ho hc ht' hq with ⟨hq, st', hst'⟩ | ⟨l', hl', hq⟩
    · exact hne (hp.symm.trans (heq.trans hq))
    · rw [← heq, hp] at hq
      rw [ho.apart.tcp k' l' hl' k hq] at hst
      cases hst
    · rw [heq, hq] at hp
      rw [ho.apart.tcp k l hl k' hp] at hst'
      cases hst'
    · exact ho.apart.inj k l hl p.1 hp ⟨k', l', hne.symm, hl', heq ▸ hq⟩
  · intro p hp q hq heq
    rcases job_chan ho hc ht hp with ⟨st, hst, hp⟩ | ⟨hp, ha⟩ <;>
      rcases job_chan ho hc ht' hq with ⟨st', hst', hq⟩ | ⟨hq, ha'⟩
    · exact hne (he.inj k k' st st' hst hst' (hp.symm.trans (heq.trans hq)))
    · exact hn.chan_new (hacc hk' ht' ha') (he.lt k st hst) (hp.symm.trans (heq.trans hq))
    · exact hn.chan_new (hacc hk ht ha) (he.lt k' st' hst') (hq.symm.trans (heq.symm.trans hp))
    · exact hne (hn.chan_inj (hacc hk ht ha) (hacc hk' ht' ha') (hp.symm.trans (heq.trans hq)))

/-- With the names fixed, the rounds may be taken in any order. -/
theorem serve_perm (ho : Owned w) (hc : ConnectEntries w) (he : EntriesOf (fun _ _ => True) w)
    (hn : NewNames N w order names) (hnd : order.Nodup) {order' : List SocketHandle}
    (hp : order.Perm order') (m : Maps T U) :
    order.foldl (fun m k => m.serve (w.job N names k)) m =
      order'.foldl (fun m k => m.serve (w.job N names k)) m := by
  refine foldl_perm (I := fun _ => True) (R := fun k k' => ∀ j ∈ w.job N names k,
    ∀ j' ∈ w.job N names k', j.Apart j') ?_ (fun _ _ => id) ?_ hp ?_ trivial
  · intro k k' h j hj j' hj'
    exact (h j' hj' j hj).symm
  · intro m k k' h _
    cases hj : w.job N names k with
    | none => rfl
    | some j =>
      cases hj' : w.job N names k' with
      | none => rfl
      | some j' => exact Maps.perform_comm (h j hj j' hj') m
  · exact hnd.pairwise_of_forall_ne
      (fun k hk k' hk' hne j hj j' hj' => job_apart ho hc he hn hk hk' hne hj hj')

def ListenerState.rename (σ : SocketHandle → SocketHandle) (l : ListenerState) : ListenerState :=
  ⟨l.addr, l.listeningHandles.map σ⟩

def TcpSocketState.rename (τ : ChanId → ChanId) (st : TcpSocketState) : TcpSocketState :=
  { st with chan := τ st.chan }

/-- The result of a connect or accept names the channel pair that comes with it. -/
def Reply.rename (τ : ChanId → ChanId) : Reply → Reply
  | .tcp (.ok (h, localAddr, peerAddr, ch)) => .tcp (.ok (h, localAddr, peerAddr, τ ch))
  | rep => rep

def Job.rename (σ : SocketHandle → SocketHandle) (τ : ChanId → ChanId) (j : Job T) : Job T where
  key := j.key
  socket := j.socket.map fun p => (σ p.1, p.2)
  listener := j.listener.map (·.rename σ)
  state := j.state.map fun p => (p.1, p.2.map (·.rename τ))
  chan := j.chan.map fun p => (τ p.1, p.2)
  answer := (j.answer.1, j.answer.2.rename τ)

/-- The maps agree once the handles of listening sockets go by `σ` and the channel pairs by `τ`.
Only the channel pairs in `known` are compared. -/
structure Maps.Renamed (σ : Equiv.Perm SocketHandle) (τ : Equiv.Perm ChanId)
    (known : ChanId → Prop) (m m' : Maps T U) : Prop where
  sockets : ∀ h, m'.sockets (σ h) = m.sockets h
  pending : m'.pending = m.pending
  listeners : ∀ k, m'.listeners k = (m.listeners k).map (·.rename σ)
  tcpStates : ∀ h, m'.tcpStates h = (m.tcpStates h).map (·.rename τ)
  udpStates : m'.udpStates = m.udpStates
  tcpChans : ∀ c, known c → m'.tcpChans (τ c) = m.tcpChans c
  udpChans : m'.udpChans = m.udpChans
  stats : m'.stats = m.stats

/-- A renaming that moves new names only, from those of one run to those of another. -/
structure Renames (N : Smoltcp T U E) (w : World T U) (order : List SocketHandle)
    (names names' : SocketHandle → SocketHandle × ChanId) (σ : Equiv.Perm SocketHandle)
    (τ : Equiv.Perm ChanId) : Prop where
  oldHandle : ∀ h, w.sockets.lookup h ≠ none → σ h = h
  oldChan : ∀ c < w.nextChan, τ c = c
  handle : ∀ k ∈ w.replacing N order, σ (names k).1 = (names' k).1
  chan : ∀ k ∈ w.accepting N order, τ (names k).2 = (names' k).2

theorem exists_renames (h : NewNames N w order names) (h' : NewNames N w order names') :
    ∃ σ τ, Renames N w order names names' σ τ := by
  obtain ⟨σ, hσ⟩ := exists_perm_map_eq h.handles h'.handles (by simp)
  obtain ⟨τ, hτ⟩ := exists_perm_map_eq h.chans h'.chans (by simp)
  rw [List.map_append, List.map_map] at hσ hτ
  obtain ⟨hnew, hold⟩ := List.append_inj hσ (by simp)
  obtain ⟨holdc, hnewc⟩ := List.append_inj hτ (by simp)
  refine ⟨σ, τ, fun h hh => ?_, fun c hc => ?_, fun k hk => ?_, fun k hk => ?_⟩
  · have hmem : h ∈ w.sockets.keys :=
      (Table.mem_keys_iff _ _).mpr (Option.ne_none_iff_exists'.mp hh)
    exact List.map_inj_left.mp (hold.trans (List.map_id _).symm) h hmem
  · exact List.map_inj_left.mp (holdc.trans (List.map_id _).symm) c (List.mem_range.mpr hc)
  · exact List.map_inj_left.mp hnew k hk
  · exact List.map_inj_left.mp hnewc k hk

section Renaming

variable {σ : Equiv.Perm SocketHandle} {τ : Equiv.Perm ChanId}

/-- Listening sockets keep their handles. -/
theorem Renames.listening (h : Renames N w order names names' σ τ) (ho : Owned w)
    {l : ListenerState} (hl : w.listeners.lookup k = some l) {hs : List SocketHandle}
    (hsub : hs ⊆ l.listeningHandles) : hs.map σ = hs := by
  refine (List.map_congr_left fun y hy => ?_).trans (List.map_id hs)
  obtain ⟨s, hlive⟩ := ho.live.listening k l hl y (hsub hy)
  exact h.oldHandle y (by rw [hlive]; exact Option.some_ne_none _)

theorem Renames.job (h : Renames N w order names names' σ τ) (ho : Owned w)
    (hc : ConnectEntries w) (he : EntriesOf (fun _ _ => True) w) (hk : k ∈ order) :
    (w.job N names k).map (Job.rename σ τ) = w.job N names' k := by
  unfold World.job
  cases ht : w.visit N k with
  | none => rfl
  | some t =>
    have hfit := visit_fits ho hc ht
    refine congrArg some ?_
    cases t with
    | connected la pa ch r =>
      obtain ⟨st, hst, rfl⟩ := hfit
      have hch := h.oldChan st.chan (he.lt k st hst)
      by_cases hcan : r ∈ w.cancelled
      · simp [Visit.job, Job.rename, Reply.rename, if_pos hcan, hch]
      · simp [Visit.job, Job.rename, Reply.rename, if_neg hcan, hch]
    | refused ch r =>
      obtain ⟨st, hst, rfl⟩ := hfit
      have hch := h.oldChan st.chan (he.lt k st hst)
      simp [Visit.job, Job.rename, Reply.rename, hch]
    | accepted x la pa addr rest repl r =>
      obtain ⟨l, hl, hx⟩ := hfit
      have hrest := h.listening ho hl
        (fun y hy => hx.mem_iff.mp (List.mem_cons_of_mem x hy) : rest ⊆ l.listeningHandles)
      have hchan := h.chan k (List.mem_filter.mpr ⟨hk, by rw [ht]; rfl⟩)
      cases repl with
      | none =>
        simp [Visit.job, Job.rename, Reply.rename, ListenerState.rename, TcpSocketState.rename,
          hrest, hchan]
      | some s =>
        have hhandle := h.handle k (List.mem_filter.mpr ⟨hk, by rw [ht]; rfl⟩)
        simp [Visit.job, Job.rename, Reply.rename, ListenerState.rename, TcpSocketState.rename,
          hrest, hchan, hhandle]

theorem Renames.start (h : Renames N w order names names' σ τ) (ho : Owned w)
    (he : EntriesOf (fun _ _ => True) w) :
    Maps.Renamed σ τ (· < w.nextChan) w.maps w.maps where
  sockets x := by
    change w.sockets.lookup (σ x) = w.sockets.lookup x
    by_cases hx : w.sockets.lookup x = none
    · -- only a handle that is not in use goes to one that is not
      by_contra hne
      have hfix := h.oldHandle (σ x) (fun hnone => hne (hnone.trans hx.symm))
      exact hne (by rw [σ.injective hfix])
    · rw [h.oldHandle x hx]
  pending := rfl
  listeners k := by
    change w.listeners.lookup k = (w.listeners.lookup k).map _
    cases hl : w.listeners.lookup k with
    | none => rfl
    | some l =>
      rw [Option.map_some, ListenerState.rename, h.listening ho hl (List.Subset.refl _)]
  tcpStates x := by
    change w.tcpStates.lookup x = (w.tcpStates.lookup x).map _
    cases hst : w.tcpStates.lookup x with
    | none => rfl
    | some st =>
      rw [Option.map_some, TcpSocketState.rename, h.oldChan st.chan (he.lt x st hst)]
  udpStates := rfl
  tcpChans c hc := by rw [h.oldChan c hc]
  udpChans := rfl
  stats := rfl

/-- Step lemma: renamed jobs are done with renamed results. A channel pair that the job sets is
known from then on. -/
theorem Maps.Renamed.perform {known : ChanId → Prop} {m m' : Maps T U}
    (h : Maps.Renamed σ τ known m m') (j : Job T) :
    Maps.Renamed σ τ (fun c => known c ∨ ∃ d, j.chan = some (c, fun _ => d)) (m.perform j)
      (m'.perform (j.rename σ τ)) where
  sockets x := by
    have hput := put_rename σ (j.socket.map fun p => (p.1, some (Socket.tcp (U := U) p.2)))
      (h.sockets x)
    rw [Option.map_map] at hput
    simp only [Maps.perform, Job.rename, Option.map_map]
    exact hput
  pending := by
    simp only [Maps.perform, h.pending]
    rfl
  listeners k := by
    have hput := put_map (Option.map (ListenerState.rename σ))
      (j.listener.map fun l => (j.key, some l)) (h.listeners k)
    rw [Option.map_map] at hput
    simp only [Maps.perform, Job.rename, Option.map_map]
    exact hput
  tcpStates x := put_map (Option.map (TcpSocketState.rename τ)) j.state (h.tcpStates x)
  udpStates := h.udpStates
  tcpChans c hc := by
    rcases hc with hc | ⟨d, hd⟩
    · exact touch_rename τ j.chan (h.tcpChans c hc)
    · simp only [Maps.perform, Job.rename, hd, Option.map_some, touch, Function.update_self]
  udpChans := h.udpChans
  stats := h.stats

theorem Maps.Renamed.mono {known known' : ChanId → Prop} {m m' : Maps T U}
    (h : Maps.Renamed σ τ known m m') (hk : ∀ c, known' c → known c) :
    Maps.Renamed σ τ known' m m' :=
  { h with tcpChans := fun c hc => h.tcpChans c (hk c hc) }

/-- An accepting round sets the channel pair it makes. -/
theorem job_sets (names : SocketHandle → SocketHandle × ChanId) (hk : k ∈ w.accepting N order) :
    ∃ j d, w.job N names k = some j ∧ j.chan = some ((names k).2, fun _ => d) := by
  have ha := (List.mem_filter.mp hk).2
  unfold World.job
  cases ht : w.visit N k with
  | none => simp [ht] at ha
  | some t =>
    rw [ht] at ha
    cases t with
    | connected | refused => cases ha
    | accepted x la pa addr rest repl r => exact ⟨_, _, rfl, rfl⟩

/-- Run lemma: the rounds with one choice of names and with another. -/
theorem Renames.fold (h : Renames N w order names names' σ τ) (ho : Owned w)
    (hc : ConnectEntries w) (he : EntriesOf (fun _ _ => True) w) {l : List SocketHandle}
    (hl : l ⊆ order) {known : ChanId → Prop} {m m' : Maps T U}
    (hm : Maps.Renamed σ τ known m m') :
    Maps.Renamed σ τ (fun c => known c ∨ ∃ k ∈ w.accepting N l, (names k).2 = c)
      (l.foldl (fun m k => m.serve (w.job N names k)) m)
      (l.foldl (fun m k => m.serve (w.job N names' k)) m') := by
  induction l generalizing known m m' with
  | nil => exact hm.mono (fun c hc => hc.resolve_right (by simp [World.accepting]))
  | cons k l ih =>
    obtain ⟨hk, hl⟩ := List.cons_subset.mp hl
    have hjob := h.job ho hc he hk
    rw [List.foldl_cons, List.foldl_cons]
    -- the keys of `l` that accept, and `k` if it does
    have hacc : ∀ x, x ∈ w.accepting N (k::l) → x ∈ w.accepting N [k] ∨ x ∈ w.accepting N l := by
      intro x hx
      rwa [← List.mem_append, World.accepting, World.accepting, ← List.filter_append]
    cases hj : w.job N names k with
    | none =>
      rw [hj] at hjob
      rw [← hjob]
      refine (ih hl hm).mono (fun c hc => hc.imp_right ?_)
      rintro ⟨x, hx, rfl⟩
      refine ⟨x, (hacc x hx).resolve_left (fun hx => ?_), rfl⟩
      obtain rfl : x = k := List.mem_singleton.mp (List.mem_filter.mp hx).1
      obtain ⟨j, -, hsome, -⟩ := job_sets names hx
      rw [hj] at hsome
      cases hsome
    | some j =>
      rw [hj] at hjob
      rw [← hjob]
      refine (ih hl (hm.perform j)).mono ?_
      rintro c (hc | ⟨x, hx, rfl⟩)
      · exact .inl (.inl hc)
      rcases hacc x hx with hx | hx
      · obtain rfl : x = k := List.mem_singleton.mp (List.mem_filter.mp hx).1
        obtain ⟨j', d, hsome, hd⟩ := job_sets names hx
        obtain rfl : j = j' := Option.some.inj (hj.symm.trans hsome)
        exact .inl (.inr ⟨d, hd⟩)
      · exact .inr ⟨x, hx, rfl⟩

end Renaming

/-- Both calls return, and leave the same sockets, socket states, channels and counters. -/
def SameMaps (r r' : Except Panic (World T U)) : Prop :=
  ∃ v v', r = .ok v ∧ r' = .ok v' ∧ v'.maps = v.maps

/-- Both calls return, and what they leave differs in the handles of the listening sockets they
made and in the names of the channel pairs they made. They send the same answers, with the same
results and addresses. -/
def SameUpToNames (w : World T U) (r r' : Except Panic (World T U)) : Prop :=
  ∃ v v' sent sent' σ τ, r = .ok v ∧ r' = .ok v' ∧
    v.answers = w.answers ++ sent ∧ v'.answers = w.answers ++ sent' ∧
    sent'.Perm (sent.map fun p => (p.1, p.2.rename τ)) ∧
    (∀ h, w.sockets.lookup h ≠ none → σ h = h) ∧ (∀ c < w.nextChan, τ c = c) ∧
    Maps.Renamed σ τ (· < v.nextChan) v.maps v'.maps

/-- `process_pending` in two orders. -/
theorem processPending_perm (hf : N.FreshHandles) (ho : Owned w) (hc : ConnectEntries w)
    (he : EntriesOf (fun _ _ => True) w) (hnd : order.Nodup) {order' : List SocketHandle}
    (hp : order.Perm order') :
    SameUpToNames w (w.processPending N order) (w.processPending N order') := by
  obtain ⟨v, names, hrun, hv⟩ := processPending_served hf ho hc hnd
  obtain ⟨v', names', hrun', hv'⟩ := processPending_served hf ho hc (hp.nodup_iff.mp hnd)
  have hn' := hv'.newNames.perm hp.symm
  obtain ⟨σ, τ, hr⟩ := exists_renames hv.newNames hn'
  refine ⟨v, v', _, _, σ, τ, hrun, hrun', hv.answers, hv'.answers, ?_, hr.oldHandle, hr.oldChan,
    ?_⟩
  · have hsame : (order.filterMap fun k => (w.job N names k).map Job.answer).map
        (fun p => (p.1, p.2.rename τ)) =
          order.filterMap fun k => (w.job N names' k).map Job.answer := by
      rw [List.map_filterMap]
      refine List.filterMap_congr fun k hk => ?_
      rw [← hr.job ho hc he hk, Option.map_map, Option.map_map]
      rfl
    rw [hsame]
    exact (hp.filterMap _).symm
  · rw [hv.maps, hv'.maps, ← serve_perm ho hc he hn' hnd hp]
    refine (hr.fold ho hc he (List.Subset.refl _) (hr.start ho he)).mono (fun c hlt => ?_)
    have hmem : c ∈ List.range v.nextChan := List.mem_range.mpr hlt
    rw [hv.chans, List.mem_append, List.mem_range, List.mem_map] at hmem
    exact hmem

end Runs

/-- No pass depends on the order in which the hash maps list their entries. -/
theorem passes_ignore_order (N : Smoltcp T U E) (hf : N.FreshHandles) (cfg : StackConfig)
    (port : UInt16) (w : World T U) (hr : Reach N cfg port w) :
    (∀ tcp tcp' udp udp', tcp.Perm w.tcpStates.keys → tcp'.Perm w.tcpStates.keys →
      udp.Perm w.udpStates.keys → udp'.Perm w.udpStates.keys →
      SameMaps (w.pollWriteChannels N tcp udp) (w.pollWriteChannels N tcp' udp') ∧
      SameMaps (w.pollReadChannels N tcp udp) (w.pollReadChannels N tcp' udp')) ∧
    ∀ order order', order.Perm w.pending.keys → order'.Perm w.pending.keys →
      SameUpToNames w (w.processPending N order) (w.processPending N order') := by
  refine ⟨fun tcp tcp' udp udp' ht ht' hu hu' => ?_, fun order order' h h' => ?_⟩
  · have hm := Reach.maps_apart hf hr
    have hnt := ht.nodup_iff.mpr (AList.keys_nodup _)
    have hnu := hu.nodup_iff.mpr (AList.keys_nodup _)
    exact ⟨pollWriteChannels_perm hm hnt (ht.trans ht'.symm) hnu (hu.trans hu'.symm),
      pollReadChannels_perm hm hnt (ht.trans ht'.symm) hnu (hu.trans hu'.symm)⟩
  · exact processPending_perm hf (Reach.owned hf hr) (Reach.connectEntries hf hr)
      (Reach.entries hf (entryRule_true N) hr) (h.nodup_iff.mpr (AList.keys_nodup _))
      (h.trans h'.symm)

/-- Two listeners, an accept waiting on each, and a connection for each. -/
def twoAcceptsRun : List (Action RefEvent) :=
  listenRun 1 ++
    .issue (.tcpListen (.v4 0x0a000002 8081) 1 1)::.command::iteration [] [] none ++
    .issue (.tcpAccept 0 2)::.command::iteration [] [] none ++
    .issue (.tcpAccept 1 3)::.command::iteration [] [(0, .syn serverEp peerEp), (0, .ack 0),
      (1, .syn { serverEp with port := 8081 } peerEp), (1, .ack 0)] none

/-- The rounds of the two accepts, in either order. -/
theorem passes_ignore_order_twoAccepts :
    ∃ w, Reach refNet hostCfg 49152 w ∧ w.pending.keys = [1, 0] ∧
      SameUpToNames w (w.processPending refNet [0, 1]) (w.processPending refNet [1, 0]) := by
  obtain ⟨w, hr, -, hp⟩ := reachable_of_run (World.step refNet hostCfg) twoAcceptsRun
    (World.init refNet hostCfg 49152) (fun w => decide (w.pending.keys = [1, 0]))
    (by decide +kernel)
  have hkeys : w.pending.keys = [1, 0] := of_decide_eq_true hp
  have hpass := passes_ignore_order refNet refNet_freshHandles hostCfg 49152 w hr
  exact ⟨w, hr, hkeys, hpass.2 [0, 1] [1, 0] (by rw [hkeys]; exact .swap 1 0 []) (by rw [hkeys])⟩

end TapTunnel.Stack
