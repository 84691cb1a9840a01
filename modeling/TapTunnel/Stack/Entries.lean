import TapTunnel.Stack.StepCases

namespace TapTunnel.Stack

open Framework

variable {T U E : Type}

theorem releaseOp_app (op : Option PendingOp) (m : ChanId → TcpChan) (ch : ChanId) :
    AppOp (m ch) (releaseOp op m ch) := releaseOp_rel .refl .dropAppEnds op m ch

theorem World.answer_app (w : World T U) (r : ReqId) (rep : Reply) (ch : ChanId) :
    AppOp (w.tcpChans ch) ((w.answer r rep).tcpChans ch) := w.answer_rel .refl .dropAppEnds r rep ch

/-- A property of an entry of `tcp_states` and its channel pair that holds of a new entry and
is kept by everything that happens to an entry while it exists. -/
structure EntryRule (N : Smoltcp T U E) (G : TcpSocketState → TcpChan → Prop) : Prop where
  new : ∀ ch, G ⟨ch, none⟩ .new
  app : ∀ st c d, G st c → AppOp c d → G st d
  write : ∀ st c s, G st c →
    G { st with pendingWrite := (processTcpWrite N s st.pendingWrite c.write).pendingWrite }
      { c with
        write := (processTcpWrite N s st.pendingWrite c.write).writeRx
        accepted := c.accepted ++ (processTcpWrite N s st.pendingWrite c.write).accepted }
  read : ∀ st c s, G st c → G st { c with read := (processTcpRead N s c.read).2 }

/-- All entries have the property, and no two of them share a channel pair. -/
structure Entries (G : TcpSocketState → TcpChan → Prop) (Ts : HandleMap TcpSocketState)
    (m : ChanId → TcpChan) (next : ChanId) : Prop where
  lt : ∀ h st, Ts.lookup h = some st → st.chan < next
  inj : ∀ h h' st st', Ts.lookup h = some st → Ts.lookup h' = some st' →
    st.chan = st'.chan → h = h'
  good : ∀ h st, Ts.lookup h = some st → G st (m st.chan)

namespace Entries

variable {N : Smoltcp T U E} {G : TcpSocketState → TcpChan → Prop}
  {Ts : HandleMap TcpSocketState} {m m' : ChanId → TcpChan} {next : ChanId}

theorem app (hG : EntryRule N G) (h : Entries G Ts m next) (hm : ∀ ch, AppOp (m ch) (m' ch)) :
    Entries G Ts m' next :=
  ⟨h.lt, h.inj, fun k st hk => hG.app st _ _ (h.good k st hk) (hm st.chan)⟩

theorem mono (h : Entries G Ts m next) : Entries G Ts m (next + 1) :=
  ⟨fun k st hk => Nat.lt_succ_of_lt (h.lt k st hk), h.inj, h.good⟩

/-- Releasing the channel pair of one entry does not touch the pairs of the others. -/
theorem release_of_ne (h : Entries G Ts m next) {k k' : SocketHandle} {st : TcpSocketState}
    (hk' : Ts.lookup k' = some st) (hne : k' ≠ k) :
    releaseTcpState (Ts.lookup k) m st.chan = m st.chan := by
  cases hk : Ts.lookup k with
  | none => rfl
  | some old =>
    refine Function.update_of_ne ?_ _ _
    exact fun he => hne (h.inj k' k st old hk' hk he)

theorem erase (h : Entries G Ts m next) (k : SocketHandle) :
    Entries G (Ts.erase k) (releaseTcpState (Ts.lookup k) m) next := by
  refine ⟨fun k' st hk' => h.lt k' st (Table.erase_cases hk').2, ?_, ?_⟩
  · intro k1 k2 st1 st2 h1 h2
    exact h.inj k1 k2 st1 st2 (Table.erase_cases h1).2 (Table.erase_cases h2).2
  · intro k' st hk'
    obtain ⟨hne, hk'⟩ := Table.erase_cases hk'
    rw [h.release_of_ne hk' hne]
    exact h.good k' st hk'

/-- The channel pair of one entry changes. -/
theorem touch (h : Entries G Ts m next) {k : SocketHandle} {st : TcpSocketState}
    (hk : Ts.lookup k = some st) {c : TcpChan} (hg : G st c) :
    Entries G Ts (Function.update m st.chan c) next := by
  refine ⟨h.lt, h.inj, fun k' s hs => ?_⟩
  by_cases hc : s.chan = st.chan
  · obtain rfl := h.inj k' k s st hs hk hc
    obtain rfl : s = st := Option.some.inj (hs.symm.trans hk)
    rw [Function.update_self]
    exact hg
  · rw [Function.update_of_ne hc]
    exact h.good k' s hs

/-- An entry is replaced by one on the same channel pair. -/
theorem set (h : Entries G Ts m next) {k : SocketHandle} {st st' : TcpSocketState}
    (hk : Ts.lookup k = some st) (hc : st'.chan = st.chan) {c : TcpChan} (hg : G st' c) :
    Entries G (Ts.insert k st') (Function.update m st.chan c) next := by
  refine ⟨?_, ?_, ?_⟩
  · intro k' s hs
    rcases Table.insert_cases hs with ⟨rfl, rfl⟩ | ⟨-, hs⟩
    · exact hc ▸ h.lt k' st hk
    · exact h.lt k' s hs
  · intro k1 k2 s1 s2 h1 h2 he
    rcases Table.insert_cases h1 with ⟨hk1, hs1⟩ | ⟨-, h1⟩ <;>
      rcases Table.insert_cases h2 with ⟨hk2, hs2⟩ | ⟨-, h2⟩
    · exact hk1.trans hk2.symm
    · exact hk1.trans (h.inj k k2 st s2 hk h2 (by rw [← he, hs1, hc]))
    · exact (h.inj k1 k s1 st h1 hk (by rw [he, hs2, hc])).trans hk2.symm
    · exact h.inj k1 k2 s1 s2 h1 h2 he
  · intro k' s hs
    rcases Table.insert_cases hs with ⟨rfl, rfl⟩ | ⟨hne, hs⟩
    · rw [hc, Function.update_self]
      exact hg
    · rw [Function.update_of_ne (fun he => hne (h.inj k' k s st hs hk he))]
      exact h.good k' s hs

/-- A new entry gets a channel pair of its own. -/
theorem insert (hG : EntryRule N G) (h : Entries G Ts m next) (k : SocketHandle) :
    Entries G (Ts.insert k ⟨next, none⟩)
      (releaseTcpState (Ts.lookup k) (Function.update m next .new)) (next + 1) := by
  have h1 : Entries G Ts (Function.update m next .new) (next + 1) := by
    refine ⟨fun k' s hs => Nat.lt_succ_of_lt (h.lt k' s hs), h.inj, fun k' s hs => ?_⟩
    rw [Function.update_of_ne (Nat.ne_of_lt (h.lt k' s hs))]
    exact h.good k' s hs
  have hfresh : releaseTcpState (Ts.lookup k) (Function.update m next .new) next = .new := by
    cases hk : Ts.lookup k with
    | none => exact Function.update_self ..
    | some old =>
      refine (Function.update_of_ne ?_ _ _).trans (Function.update_self ..)
      exact (Nat.ne_of_lt (h.lt k old hk)).symm
  refine ⟨?_, ?_, ?_⟩
  · intro k' s hs
    rcases Table.insert_cases hs with ⟨-, rfl⟩ | ⟨-, hs⟩
    · exact Nat.lt_succ_self _
    · exact h1.lt k' s hs
  · intro k1 k2 s1 s2 hs1 hs2 he
    rcases Table.insert_cases hs1 with ⟨hk1, rfl⟩ | ⟨-, hs1⟩ <;>
      rcases Table.insert_cases hs2 with ⟨hk2, rfl⟩ | ⟨-, hs2⟩
    · exact hk1.trans hk2.symm
    · exact absurd he.symm (Nat.ne_of_lt (h.lt k2 s2 hs2))
    · exact absurd he (Nat.ne_of_lt (h.lt k1 s1 hs1))
    · exact h.inj k1 k2 s1 s2 hs1 hs2 he
  · intro k' s hs
    rcases Table.insert_cases hs with ⟨rfl, rfl⟩ | ⟨hne, hs⟩
    · change G _ (releaseTcpState _ _ next)
      rw [hfresh]
      exact hG.new next
    · rw [h1.release_of_ne hs hne]
      exact h1.good k' s hs

end Entries

/-- The entries of a state have the property. -/
def EntriesOf (G : TcpSocketState → TcpChan → Prop) (w : World T U) : Prop :=
  Entries G w.tcpStates w.tcpChans w.nextChan

/-- Every entry has a channel pair of its own. -/
def OwnChannels (w : World T U) : Prop := EntriesOf (fun _ _ => True) w

theorem entryRule_true (N : Smoltcp T U E) : EntryRule N (fun _ _ => True) :=
  ⟨fun _ => trivial, fun _ _ _ _ _ => trivial, fun _ _ _ _ => trivial, fun _ _ _ _ => trivial⟩

namespace EntriesOf

variable {N : Smoltcp T U E} {G : TcpSocketState → TcpChan → Prop} {w w' : World T U}

theorem answer (hG : EntryRule N G) (h : EntriesOf G w) (r : ReqId) (rep : Reply) :
    EntriesOf G (w.answer r rep) := Entries.app hG h (w.answer_app r rep)

theorem deliverAccepted (hG : EntryRule N G) (h : EntriesOf G w) (x : SocketHandle)
    (la pa : SocketAddr) (r : ReqId) : EntriesOf G (w.deliverAccepted x la pa r) := by
  have h1 : EntriesOf G (w.createTcpChannels.insertTcpState x ⟨w.nextChan, none⟩) :=
    Entries.insert hG h x
  exact h1.answer hG r _

theorem replaceListening (h : EntriesOf G w) (key : SocketHandle) (addr : SocketAddr)
    (rest : List SocketHandle) : EntriesOf G (w.replaceListening N key addr rest) := by
  unfold World.replaceListening
  split <;> exact h

theorem dropPending (hG : EntryRule N G) (h : EntriesOf G w) (k : SocketHandle) :
    EntriesOf G (w.dropPending k) := Entries.app hG h (releaseOp_app _ _)

theorem removeTcpState (h : EntriesOf G w) (k : SocketHandle) : EntriesOf G (w.removeTcpState k) :=
  Entries.erase h k

theorem effect (hG : EntryRule N G) {c : Option StackCommand} (h : EntriesOf G w)
    (he : Effect N c w w') : EntriesOf G w' := by
  cases he with
  | reject m port ips rep hr hm hb =>
    exact answer hG (w := { w with sockets := m, ephemeralPort := port, ipAddrs := ips }) h _ rep
  | connect k s port la hk => exact Entries.app hG (Entries.insert hG h k) (releaseOp_app _ _)
  | listen m hs primary hp hlen hnd hport hold hnew hrest =>
    exact Entries.app hG h (World.answer_app _ _ _)
  | accept l x rest s la pa hl hx hs hest =>
    exact (h.replaceListening _ _ _).deliverAccepted hG x la pa _
  | wait l hl hnone => exact Entries.app hG h (releaseOp_app _ _)
  | listenerGone hl => exact Entries.app hG h (releaseOp_app _ _)
  | listenerClose l m hl hout hin => exact Entries.app hG h (releaseOp_app _ _)
  | tcpClose s hs => exact removeTcpState (w := w.setTcp _ _) h _
  | udpBind k s port addr hk =>
    exact Entries.app hG (Entries.mono h) (World.answer_app _ _ _)
  | udpClose s hs => exact h
  | connected la pa ch r hp => exact answer hG (w := w.takePending _) h r _
  | connectDead la pa ch r e hp =>
    exact ((h.dropPending hG _).removeTcpState _).answer hG r _
  | acceptPending r l x rest s la pa hp hl hx hs hest =>
    rename_i key
    have h1 : EntriesOf G ((w.replaceListening N key l.addr rest).takePending key) :=
      h.replaceListening key l.addr rest
    exact h1.deliverAccepted hG x la pa r

theorem failPending (hG : EntryRule N G) (h : EntriesOf G w) : EntriesOf G w.failPending :=
  World.failOps_rule (EntriesOf G) _ h (fun _ k r _ hv => (hv.dropPending hG k).answer hG r _)

/-- Step lemma: a property with an `EntryRule` is kept by every transition. -/
theorem transition (hG : EntryRule N G) {a : Action E} (h : EntriesOf G w)
    (ht : Transition N a w w') : EntriesOf G w' := by
  cases ht with
  | env he =>
    have hf := World.envStep_frame he
    unfold EntriesOf
    rw [hf.tcpStates, hf.nextChan]
    exact Entries.app hG h hf.chans
  | control p notify hp hw => exact h
  | command cmd rest hph hq he =>
    have h1 : EntriesOf G _ := effect hG (w := { w with
      commands := rest
      received := w.received ++ cmd.response.toList }) h he
    exact h1
  | writeTcp k tcp udp st s hph hst hs =>
    refine Entries.set h hst ?_ (hG.write st _ s (h.good k st hst))
    rfl
  | writeUdp => exact h
  | tcpEvent => exact h
  | udpEvent => exact h
  | readTcp k tcp udp changed st s hst hs =>
    exact Entries.touch h hst (hG.read st _ s (h.good k st hst))
  | readUdp => exact h
  | pending order he =>
    have h1 := Effect.path_rule (EntriesOf G) h (fun _ _ hu he => effect hG hu he) he
    exact h1
  | fail => exact h.failPending hG

end EntriesOf

/-- Run lemma: in every reachable state all entries have the property. -/
theorem Reach.entries {N : Smoltcp T U E} {G : TcpSocketState → TcpChan → Prop}
    (hf : N.FreshHandles) (hG : EntryRule N G) {cfg : StackConfig} {port : UInt16}
    {w : World T U} {ok : World T U → Action E → Prop}
    (h : ReachVia (World.step N cfg) ok (World.init N cfg port) w) : EntriesOf G w :=
  Reach.invariant hf (EntriesOf G) (fun _ _ => ⟨nofun, nofun, nofun⟩)
    (fun _ _ _ _ he _ ht => he.transition hG ht) h

end TapTunnel.Stack
