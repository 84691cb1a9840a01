import TapTunnel.Framework.Simulation
import TapTunnel.Stack.HandleSafety
import TapTunnel.Stack.ListenPorts
import TapTunnel.Stack.TcpPart
import TapTunnel.Stack.WritePath

namespace TapTunnel.Stack

open Framework Reference

variable {T U E : Type} {N : Smoltcp T U E} {V : N.SentView}

theorem pullWrites_sent (V : N.SentView) (rx : Chan Bytes) (q : List Bytes) {s : T}
    {before acc : Bytes} (h : V.sent s = before ++ acc) :
    V.sent (pullWrites N rx q s acc).socket = before ++ (pullWrites N rx q s acc).accepted := by
  induction q generalizing s acc with
  | nil =>
    unfold pullWrites
    split_ifs
    · exact h
    · exact (V.close_sent s).trans h
    · exact h
  | cons data q ih =>
    unfold pullWrites
    split_ifs
    · split
      · next n s' hout =>
        have hs' : V.sent s' = before ++ (acc ++ data.take n) := by
          rw [V.send_ok s data n s' hout, h, List.append_assoc]
        split_ifs
        · exact hs'
        · exact ih hs'
      · next s' hout => exact (V.send_error s data s' hout).trans h
    · exact h

/-- The bytes that a pass counts as accepted are those that it has given to the socket. -/
theorem processTcpWrite_sent (V : N.SentView) (s : T) (pending : Option Bytes) (rx : Chan Bytes) :
    V.sent (processTcpWrite N s pending rx).socket =
      V.sent s ++ (processTcpWrite N s pending rx).accepted := by
  have hsame : V.sent s = V.sent s ++ [] := (List.append_nil _).symm
  cases pending with
  | none => exact pullWrites_sent V rx rx.queue hsame
  | some data =>
    unfold processTcpWrite
    simp only
    split_ifs
    · split
      · next n s' hout =>
        have hs' := V.send_ok s data n s' hout
        split_ifs
        · exact hs'
        · exact pullWrites_sent V rx rx.queue hs'
      · next s' hout => exact (V.send_error s data s' hout).trans hsame
    · exact hsame

theorem processTcpRead_sent (V : N.SentView) (s : T) (tx : Chan Bytes) :
    V.sent (processTcpRead N s tx).1 = V.sent s := by
  apply processTcpRead_rule (fun s' => V.sent s' = V.sent s)
  · intro s' len hs'
    rw [V.recv_sent, hs']
  · rfl

/-- What was written to a stream and what was taken from it stay as they are. -/
def SameRecord (c d : TcpChan) : Prop := d.written = c.written ∧ d.accepted = c.accepted

namespace SameRecord

theorem refl (c : TcpChan) : SameRecord c c := ⟨rfl, rfl⟩

theorem trans {c d e : TcpChan} (h1 : SameRecord c d) (h2 : SameRecord d e) : SameRecord c e :=
  ⟨h2.1.trans h1.1, h2.2.trans h1.2⟩

theorem dropAppEnds (c : TcpChan) : SameRecord c c.dropAppEnds := ⟨rfl, rfl⟩

theorem dropStackEnds (c : TcpChan) : SameRecord c c.dropStackEnds := ⟨rfl, rfl⟩

theorem releaseOp (op : Option PendingOp) (m : ChanId → TcpChan) (ch : ChanId) :
    SameRecord (m ch) (releaseOp op m ch) := releaseOp_rel refl dropAppEnds op m ch

theorem answer (w : World T U) (r : ReqId) (rep : Reply) (ch : ChanId) :
    SameRecord (w.tcpChans ch) ((w.answer r rep).tcpChans ch) :=
  w.answer_rel refl dropAppEnds r rep ch

/-- A new entry takes the first channel pair that is not in use. -/
theorem newEntry {w : World T U} (hnew : SameRecord (w.tcpChans w.nextChan) .new)
    (k : SocketHandle) (st : TcpSocketState) (ch : ChanId) :
    SameRecord (w.tcpChans ch) ((w.createTcpChannels.insertTcpState k st).tcpChans ch) :=
  (update_rel refl w.tcpChans hnew ch).trans (releaseTcpState_rel refl dropStackEnds _ _ ch)

/-- An accepted connection is delivered, in a state with the streams of `w`. -/
theorem deliverAccepted {v w : World T U} (hpart : v.tcpPart = w.tcpPart)
    (hnew : SameRecord (w.tcpChans w.nextChan) .new) (k : SocketHandle) (la pa : SocketAddr)
    (r : ReqId) : w.nextChan ≤ (v.deliverAccepted k la pa r).nextChan ∧
      ∀ ch, SameRecord (w.tcpChans ch) ((v.deliverAccepted k la pa r).tcpChans ch) := by
  obtain ⟨-, hchans, hnext, -⟩ := TcpPart.mk.inj hpart
  rw [← hchans, ← hnext] at hnew ⊢
  exact ⟨Nat.le_succ _, fun ch => (newEntry hnew k _ ch).trans (answer _ r _ ch)⟩

end SameRecord

theorem World.deliverAccepted_entry {v w : World T U} (hpart : v.tcpPart = w.tcpPart)
    {x k : SocketHandle} {la pa : SocketAddr} {r : ReqId} {st : TcpSocketState}
    (hst : (v.deliverAccepted x la pa r).tcpStates.lookup k = some st) :
    w.tcpStates.lookup k = some st ∨ st.chan = w.nextChan ∧ k = x := by
  obtain ⟨hstates, -, hnext, -⟩ := TcpPart.mk.inj hpart
  rcases Table.insert_cases hst with ⟨rfl, rfl⟩ | ⟨-, hst⟩
  · exact .inr ⟨hnext, rfl⟩
  · exact .inl (hstates ▸ hst)

namespace Effect

variable {c : Option StackCommand} {w w' : World T U}

/-- The handlers do not touch the records of the streams. -/
theorem sameRecord (hnew : SameRecord (w.tcpChans w.nextChan) .new) (he : Effect N c w w') :
    w.nextChan ≤ w'.nextChan ∧ ∀ ch, SameRecord (w.tcpChans ch) (w'.tcpChans ch) := by
  cases he with
  | reject m port ips rep hr hm hb => exact ⟨le_rfl, SameRecord.answer _ _ _⟩
  | connect k s port la hk =>
    refine ⟨Nat.le_succ _, fun ch => ?_⟩
    have h1 := SameRecord.newEntry hnew k ⟨w.nextChan, none⟩ ch
    exact h1.trans (SameRecord.releaseOp _ _ ch)
  | listen m hs primary hp hlen hnd hport hold hnew' hrest =>
    exact ⟨le_rfl, SameRecord.answer _ _ _⟩
  | accept l x rest =>
    exact SameRecord.deliverAccepted (World.replaceListening_tcpPart w _ l.addr rest) hnew _ _ _ _
  | wait l hl hnone => exact ⟨le_rfl, SameRecord.releaseOp _ _⟩
  | listenerGone hl => exact ⟨le_rfl, SameRecord.releaseOp _ _⟩
  | listenerClose l m hl hout hin => exact ⟨le_rfl, SameRecord.releaseOp _ _⟩
  | tcpClose s hs => exact ⟨le_rfl, releaseTcpState_rel .refl .dropStackEnds _ _⟩
  | udpBind k s port addr hk => exact ⟨Nat.le_succ _, SameRecord.answer _ _ _⟩
  | udpClose s hs => exact ⟨le_rfl, fun ch => .refl _⟩
  | connected la pa ch r hp => exact ⟨le_rfl, SameRecord.answer _ _ _⟩
  | @connectDead _ h la pa ch' r e hp =>
    refine ⟨le_rfl, fun ch => ?_⟩
    have h1 := SameRecord.releaseOp (w.pending.lookup h) w.tcpChans ch
    have h2 := releaseTcpState_rel SameRecord.refl SameRecord.dropStackEnds
      (w.tcpStates.lookup h) (w.dropPending h).tcpChans ch
    exact (h1.trans h2).trans (SameRecord.answer _ r _ ch)
  | acceptPending r l x rest =>
    exact SameRecord.deliverAccepted (World.replaceListening_tcpPart w _ l.addr rest) hnew _ _ _ _

/-- An entry after an effect was there before, or it is new, for a socket that was listening or has
just been opened by `connect`. -/
theorem entry_cases (he : Effect N c w w') {k : SocketHandle} {st : TcpSocketState}
    (hst : w'.tcpStates.lookup k = some st) :
    w.tcpStates.lookup k = some st ∨ st.chan = w.nextChan ∧ ((∃ key, w.Listening key k) ∨
      ∃ ips remote ep s, N.connect ips N.tcpNew remote ep = .ok s ∧
        w'.sockets.lookup k = some (.tcp s)) := by
  cases he with
  | @connect _ _ _ _ k' s port la hk hs =>
    obtain ⟨remote, a, hs⟩ := hs
    rcases Table.insert_cases hst with ⟨rfl, rfl⟩ | ⟨-, hst⟩
    · exact .inr ⟨rfl, .inr ⟨_, _, _, s, hs, AList.lookup_insert _⟩⟩
    · exact .inl hst
  | accept l x rest s la pa hl hx =>
    rcases World.deliverAccepted_entry (World.replaceListening_tcpPart w _ l.addr rest) hst with
      hst | ⟨hch, rfl⟩
    · exact .inl hst
    · exact .inr ⟨hch, .inl ⟨_, l, hl, hx.mem_iff.mp List.mem_cons_self⟩⟩
  | @acceptPending _ key r l x rest s la pa hp hl hx =>
    have hpart : ((w.replaceListening N key l.addr rest).takePending key).tcpPart = w.tcpPart :=
      World.replaceListening_tcpPart w key l.addr rest
    rcases World.deliverAccepted_entry hpart hst with hst | ⟨hch, rfl⟩
    · exact .inl hst
    · exact .inr ⟨hch, .inl ⟨_, l, hl, hx.mem_iff.mp List.mem_cons_self⟩⟩
  | tcpClose s hs => exact .inl (Table.erase_cases hst).2
  | connectDead la pa ch r e hp => exact .inl (Table.erase_cases hst).2
  | reject | listen | wait | listenerGone | listenerClose | udpBind | udpClose | connected =>
    exact .inl hst

end Effect

/-- The bytes that a run writes to the stream with the channel pair `ch`, in order. -/
def writtenBy (as : List (Action E)) (ch : ChanId) : Bytes := as.flatMap (·.writes ch)

theorem writtenBy_snoc (as : List (Action E)) (a : Action E) (ch : ChanId) :
    writtenBy (as ++ [a]) ch = writtenBy as ch ++ a.writes ch := by
  simp [writtenBy]

/-- The streams and their sockets, when `log` is what was written to each of them. -/
structure SentBooks (V : N.SentView) (log : ChanId → Bytes) (w : World T U) : Prop where
  written : ∀ ch, (w.tcpChans ch).written = log ch
  unused : ∀ ch, w.nextChan ≤ ch → log ch = [] ∧ (w.tcpChans ch).accepted = []
  listening : ∀ key k, w.Listening key k → ∀ s, w.sockets.lookup k = some (.tcp s) → V.sent s = []
  entries : ∀ k st, w.tcpStates.lookup k = some st → ∀ s, w.sockets.lookup k = some (.tcp s) →
    V.sent s = (w.tcpChans st.chan).accepted

/-- A socket has been given no more bytes than before. -/
def SentSame (V : N.SentView) (s s' : T) : Prop := V.sent s' = V.sent s

theorem SentSame.refl (V : N.SentView) (s : T) : SentSame V s s := rfl

namespace SentBooks

variable {log : ChanId → Bytes} {w w' : World T U}

theorem setPhase (h : SentBooks V log w) (p : Phase) : SentBooks V log { w with phase := p } :=
  ⟨h.written, h.unused, h.listening, h.entries⟩

theorem new (h : SentBooks V log w) : SameRecord (w.tcpChans w.nextChan) .new := by
  obtain ⟨hlog, hacc⟩ := h.unused w.nextChan le_rfl
  exact ⟨((h.written _).trans hlog).symm, hacc.symm⟩

/-- Rule for steps that do not touch the records. -/
theorem frame (h : SentBooks V log w) (ho : Owned w) (hnext : w.nextChan ≤ w'.nextChan)
    (hrec : ∀ ch, SameRecord (w.tcpChans ch) (w'.tcpChans ch))
    (hkept : SocketsKept (SentSame V) w.sockets w'.sockets)
    (hfrom : ListeningFrom N w.listeners w'.sockets w'.listeners)
    (hentry : ∀ k st, w'.tcpStates.lookup k = some st → w.tcpStates.lookup k = some st ∨
      st.chan = w.nextChan ∧ ((∃ key, w.Listening key k) ∨
        ∃ ips remote ep s, N.connect ips N.tcpNew remote ep = .ok s ∧
          w'.sockets.lookup k = some (.tcp s))) : SentBooks V log w' := by
  -- a socket that was there before has been given the same bytes
  have hold : ∀ k s', LiveTcp w.sockets k → w'.sockets.lookup k = some (.tcp s') →
      ∃ s, w.sockets.lookup k = some (.tcp s) ∧ V.sent s' = V.sent s := by
    rintro k s' ⟨s, hs⟩ hs'
    rcases hkept k s' hs' with hnone | hsame
    · rw [hnone] at hs
      cases hs
    · exact hsame
  constructor
  · exact fun ch => (hrec ch).1.trans (h.written ch)
  · intro ch hch
    obtain ⟨hlog, hacc⟩ := h.unused ch (hnext.trans hch)
    exact ⟨hlog, (hrec ch).2.trans hacc⟩
  · rintro key k ⟨l', hl', hk⟩ s' hs'
    rcases hfrom key l' hl' k hk with ⟨l, hl, -, hkl⟩ | ⟨s, hlisten, hs⟩
    · obtain ⟨s, hs, hsame⟩ := hold k s' (ho.live.listening key l hl k hkl) hs'
      exact hsame.trans (h.listening key k ⟨l, hl, hkl⟩ s hs)
    · rw [hs'] at hs
      cases hs
      exact V.listen_sent _ s' hlisten
  · intro k st hst s' hs'
    rcases hentry k st hst with hst | ⟨hch, hnew⟩
    · obtain ⟨s, hs, hsame⟩ := hold k s' (ho.live.tcp k st hst) hs'
      exact (hsame.trans (h.entries k st hst s hs)).trans (hrec st.chan).2.symm
    · -- a new entry starts with empty records
      have hacc : (w'.tcpChans st.chan).accepted = [] := by
        rw [(hrec st.chan).2, hch]
        exact (h.unused _ le_rfl).2
      rw [hacc]
      rcases hnew with ⟨key, l, hl, hk⟩ | ⟨ips, remote, ep, s, hconn, hs⟩
      · obtain ⟨s, hs, hsame⟩ := hold k s' (ho.live.listening key l hl k hk) hs'
        exact hsame.trans (h.listening key k ⟨l, hl, hk⟩ s hs)
      · rw [hs'] at hs
        cases hs
        exact V.connect_sent _ _ _ s' hconn

theorem effect (hf : N.FreshHandles) (h : SentBooks V log w) (ho : Owned w)
    {c : Option StackCommand} (he : Effect N c w w') : SentBooks V log w' := by
  obtain ⟨hnext, hrec⟩ := he.sameRecord h.new
  exact h.frame ho hnext hrec (he.socketsKept hf (.refl V) V.close_sent) he.listeningFrom
    (fun _ _ => he.entry_cases)

/-- A step that changes one socket, and neither the entries nor the records. -/
theorem socket (h : SentBooks V log w) (ho : Owned w) (hnext : w'.nextChan = w.nextChan)
    (hrec : ∀ ch, SameRecord (w.tcpChans ch) (w'.tcpChans ch))
    (hkept : SocketsKept (SentSame V) w.sockets w'.sockets)
    (hl : w'.listeners = w.listeners) (hst : w'.tcpStates = w.tcpStates) : SentBooks V log w' := by
  apply h.frame ho hnext.ge hrec hkept
  · rw [hl]
    exact .refl _ _
  · intro k st hk
    rw [hst] at hk
    exact .inl hk

/-- A step of the application adds to the books what it writes. -/
theorem envStep (h : SentBooks V log w) (hcr : w.tcpPart.Created) {a : Action E}
    (he : w.envStep a = some w') : SentBooks V (fun ch => log ch ++ a.writes ch) w' := by
  have hframe := World.envStep_frame he
  have hwritten : ∀ ch, (w'.tcpChans ch).written = (w.tcpChans ch).written ++ a.writes ch ∧
      (w.nextChan ≤ ch → a.writes ch = []) := by
    intro ch
    rcases World.envStep_tcpPart he with ⟨hsame, hno⟩ | ⟨ch', c, hg, -, hpart, hc, hno⟩
    · obtain ⟨-, hchans, -⟩ := TcpPart.mk.inj hsame
      rw [hchans, hno ch, List.append_nil]
      exact ⟨rfl, fun _ => rfl⟩
    · obtain ⟨-, hchans, -⟩ := TcpPart.mk.inj hpart
      rw [hchans]
      by_cases hch : ch = ch'
      · subst hch
        rw [Function.update_self]
        exact ⟨hc, fun hle => absurd (hcr.given ch hg) (Nat.not_lt.mpr hle)⟩
      · rw [Function.update_of_ne hch, hno ch hch, List.append_nil]
        exact ⟨rfl, fun _ => rfl⟩
  constructor
  · intro ch
    rw [(hwritten ch).1, h.written]
  · intro ch hch
    rw [hframe.nextChan] at hch
    obtain ⟨hlog, hacc⟩ := h.unused ch hch
    refine ⟨?_, (hframe.chans ch).accepted.trans hacc⟩
    rw [hlog, (hwritten ch).2 hch, List.append_nil]
  · intro key k hk s hs
    rw [World.Listening, hframe.listeners] at hk
    rw [hframe.sockets] at hs
    exact h.listening key k hk s hs
  · intro k st hst s hs
    rw [hframe.tcpStates] at hst
    rw [hframe.sockets] at hs
    rw [(hframe.chans _).accepted]
    exact h.entries k st hst s hs

/-- A round of the write pass gives the socket the bytes that it takes off the channel. -/
theorem writeTcpEntry (h : SentBooks V log w) (ho : Owned w) (hc : OwnChannels w)
    {k : SocketHandle} {st : TcpSocketState} {s : T} (hst : w.tcpStates.lookup k = some st)
    (hs : w.sockets.lookup k = some (.tcp s)) : SentBooks V log (w.writeTcpEntry N k st s) := by
  constructor
  · intro ch
    rw [← h.written ch]
    apply update_rel (R := fun c d : TcpChan => d.written = c.written) (fun _ => rfl)
    rfl
  · intro ch hch
    obtain ⟨hlog, hacc⟩ := h.unused ch hch
    have hne : ch ≠ st.chan := (Nat.lt_of_lt_of_le (hc.lt k st hst) hch).ne'
    refine ⟨hlog, ?_⟩
    simp only [World.writeTcpEntry]
    rw [Function.update_of_ne hne]
    exact hacc
  · intro key k' hk' s' hs'
    rcases Table.insert_cases hs' with ⟨rfl, -⟩ | ⟨-, hs'⟩
    · -- a listening socket has no entry
      obtain ⟨l, hl, hmem⟩ := hk'
      rw [ho.apart.tcp key l hl k' hmem] at hst
      cases hst
    · exact h.listening key k' hk' s' hs'
  · intro k' st' hst' s' hs'
    have hsent := processTcpWrite_sent V s st.pendingWrite (w.tcpChans st.chan).write
    simp only [World.writeTcpEntry]
    rcases Table.insert_cases hst' with ⟨rfl, rfl⟩ | ⟨hne, hst'⟩
    · rcases Table.insert_cases hs' with ⟨-, hs'⟩ | ⟨hne, -⟩
      · cases hs'
        rw [Function.update_self, hsent, h.entries k' st hst s hs]
      · exact absurd rfl hne
    · rcases Table.insert_cases hs' with ⟨rfl, -⟩ | ⟨-, hs'⟩
      · exact absurd rfl hne
      · rw [Function.update_of_ne (fun he => hne (hc.inj k' k st' st hst' hst he))]
        exact h.entries k' st' hst' s' hs'

/-- Step lemma for everything that writes nothing to a stream. -/
theorem transition (hf : N.FreshHandles) (h : SentBooks V log w) (ho : Owned w)
    (hc : OwnChannels w) (hcr : w.tcpPart.Created) {a : Action E} (ha : ∀ ch, a.writes ch = [])
    (ht : Transition N a w w') : SentBooks V log w' := by
  cases ht with
  | env he =>
    have hend := h.envStep hcr he
    simp only [ha, List.append_nil] at hend
    exact hend
  | control => exact ⟨h.written, h.unused, h.listening, h.entries⟩
  | command cmd rest hph hq he =>
    have hpop : SentBooks V log { w with
        commands := rest
        received := w.received ++ cmd.response.toList } :=
      ⟨h.written, h.unused, h.listening, h.entries⟩
    have hend := hpop.effect hf (ho.popCommand hq _) he
    exact hend.setPhase _
  | writeTcp k tcp udp st s hph hst hs =>
    have hend := h.writeTcpEntry ho hc hst hs
    exact hend.setPhase _
  | writeUdp k udp st s hst hs | readUdp k udp changed st s hst hs =>
    exact h.socket ho rfl (fun _ => .refl _) (.setUdp (.refl V) k _) rfl rfl
  | tcpEvent k e s hs =>
    refine h.socket ho rfl (fun _ => .refl _) (.setTcp (.refl V) (.inr ⟨s, hs, ?_⟩)) rfl rfl
    exact V.process_sent e s
  | udpEvent k e s hs =>
    exact h.socket ho rfl (fun _ => .refl _) (.setUdp (.refl V) k _) rfl rfl
  | readTcp k tcp udp changed st s hst hs =>
    refine h.socket ho rfl (fun ch => ?_) (.setTcp (.refl V) (.inr ⟨s, hs, ?_⟩)) rfl rfl
    · apply update_rel SameRecord.refl
      exact ⟨rfl, rfl⟩
    · exact processTcpRead_sent V s _
  | pending order he =>
    have hend := ho.effects_rule hf (SentBooks V log) h (fun u v hu hp he => hp.effect hf hu he) he
    exact hend.setPhase _
  | fail =>
    have hend : SentBooks V log w.failPending := by
      apply World.failOps_rule (SentBooks V log) _ h
      intro v k r e hv
      have hrec : ∀ ch, SameRecord (v.tcpChans ch)
          (((v.dropPending k).answer r (.tcp (.error e))).tcpChans ch) :=
        fun ch => (SameRecord.releaseOp _ _ ch).trans (.answer _ r _ ch)
      exact ⟨fun ch => (hrec ch).1.trans (hv.written ch),
        fun ch hch => ⟨(hv.unused ch hch).1, (hrec ch).2.trans (hv.unused ch hch).2⟩, hv.listening,
        fun k st hst s hs => (hv.entries k st hst s hs).trans (hrec st.chan).2.symm⟩
    exact hend.setPhase _

end SentBooks

/-- The task itself writes nothing to a stream. -/
theorem World.stackStep_writes {cfg : StackConfig} {a : Action E} {w w' : World T U}
    (h : w.stackStep N cfg a = some w') (ch : ChanId) : a.writes ch = [] := by
  cases a with
  | streamWrite ch' buf =>
    have hnone : w.stackStep N cfg (.streamWrite ch' buf) = none := by
      unfold stackStep selectStep pollStep
      split <;> first | contradiction | rfl
    rw [hnone] at h
    cases h
  | _ => rfl

/-- Run lemma: the books of a run hold what its actions have written. -/
theorem sentBooks_run (hf : N.FreshHandles) (V : N.SentView) {cfg : StackConfig} {port : UInt16}
    {as : List (Action E)} {w : World T U}
    (h : runActions (World.step N cfg) as (World.init N cfg port) = some w) :
    SentBooks V (writtenBy as) w := by
  apply runActions_history (fun as w => SentBooks V (writtenBy as) w) _ _ h
  · obtain ⟨ips, p, he, -⟩ := init_cases N cfg port
    rw [he]
    exact ⟨fun _ => rfl, fun _ _ => ⟨rfl, rfl⟩, by simp [World.Listening, World.blank],
      by simp [World.blank]⟩
  · intro as u v a hu hb hs
    have hreach : Reach N cfg port u := Reachable.run _ .start hu
    have ho := Reach.owned hf hreach
    have hcr := Reach.tcp_invariant hf TcpPart.Created .empty (fun _ _ hp hm => hp.move hm) hreach
    have hsnoc : writtenBy (as ++ [a]) = fun ch => writtenBy as ch ++ a.writes ch :=
      funext (writtenBy_snoc as a)
    rw [hsnoc]
    rcases World.step_or hs with he | hstack
    · exact hb.envStep hcr he
    · have hno := World.stackStep_writes hstack
      simp only [hno, List.append_nil]
      exact hb.transition hf ho (Reach.entries hf (entryRule_true N) hreach) hcr hno
        (ho.step_transition hf hs)

/-- The TCP write path conserves the byte stream of every entry of `tcp_states`. The last part is
about the next call of `process_tcp_write` for the entry, whatever else the socket does before. -/
theorem write_stream_conserved (N : Smoltcp T U E) (hf : N.FreshHandles) (hN : N.SendContract)
    (V : N.SentView) (cfg : StackConfig) (port : UInt16) (as : List (Action E)) (w : World T U)
    (h : runActions (World.step N cfg) as (World.init N cfg port) = some w)
    (k : SocketHandle) (st : TcpSocketState) (hst : w.tcpStates.lookup k = some st) :
    ∃ s, w.sockets.lookup k = some (.tcp s) ∧
      let rx := (w.tcpChans st.chan).write
      V.sent s ++ st.pendingWrite.getD [] ++ rx.queue.flatten = writtenBy as st.chan ∧
      st.pendingWrite ≠ some [] ∧
      ∀ s', let r := processTcpWrite N s' st.pendingWrite rx
        r.exit ≠ .pendingError ∧ r.exit ≠ .chunkError ∧
        (V.sent s' = V.sent s →
          V.sent r.socket ++ r.pendingWrite.getD [] ++ r.writeRx.queue.flatten =
            writtenBy as st.chan ∧
          (r.exit = .disconnected → V.sent r.socket = writtenBy as st.chan)) := by
  have hreach : Reach N cfg port w := Reachable.run _ .start h
  have hbooks := sentBooks_run hf V h
  obtain ⟨s, hs⟩ := (Reach.owned hf hreach).live.tcp k st hst
  obtain ⟨hstream, hne⟩ := (Reach.entries hf (streamKept_rule hN) hreach).good k st hst
  rw [← hbooks.entries k st hst s hs, hbooks.written] at hstream
  refine ⟨s, hs, by rw [List.append_assoc]; exact hstream, hne, fun s' => ?_⟩
  have hspec := processTcpWrite_spec hN s' st.pendingWrite (w.tcpChans st.chan).write hne
  refine ⟨hspec.noError.1, hspec.noError.2, fun hsame => ?_⟩
  -- the pass moves bytes from the channel to the socket
  have hafter := congrArg (V.sent s ++ ·) hspec.stream
  simp only [← List.append_assoc] at hafter
  rw [← hsame, ← processTcpWrite_sent, hsame, List.append_assoc (V.sent s), hstream] at hafter
  refine ⟨hafter, fun hexit => ?_⟩
  obtain ⟨hp, hq⟩ := hspec.drained hexit
  rw [hp, hq] at hafter
  simpa using hafter

/-- Two writes on an accepted stream, the first of them already passed to the socket. -/
def writeRun : List (Action RefEvent) :=
  acceptRun ++ .streamWrite 0 [1, 2]::.notified::iteration [0] [] none ++ [.streamWrite 0 [3]]

theorem write_stream_conserved_writeRun :
    ∃ w st s, runActions (World.step refNet hostCfg) writeRun (World.init refNet hostCfg 49152) =
        some w ∧ w.tcpStates.lookup 0 = some st ∧ w.sockets.lookup 0 = some (.tcp s) ∧
      s.sent ++ st.pendingWrite.getD [] ++ (w.tcpChans st.chan).write.queue.flatten =
        writtenBy writeRun st.chan ∧ s.sent = [1, 2] ∧ writtenBy writeRun st.chan = [1, 2, 3] := by
  obtain ⟨w, -, hrun, hp⟩ := reachable_of_run (World.step refNet hostCfg) writeRun
    (World.init refNet hostCfg 49152) (fun w => decide
      ((w.tcpStates.lookup 0).map (fun st => writtenBy writeRun st.chan) = some [1, 2, 3] ∧
        (w.getTcp 0).toOption.map (·.sent) = some [1, 2]))
    (by decide +kernel)
  obtain ⟨hst, hsock⟩ := of_decide_eq_true hp
  obtain ⟨st, hst, hw⟩ := Option.map_eq_some_iff.mp hst
  obtain ⟨s, hs, hc, -⟩ := write_stream_conserved refNet refNet_freshHandles refNet_sendContract
    refSentView hostCfg 49152 writeRun w hrun 0 st hst
  rw [World.getTcp_eq hs] at hsock
  exact ⟨w, st, s, hrun, hst, hs, hc, Option.some.inj hsock, hw⟩

end TapTunnel.Stack
