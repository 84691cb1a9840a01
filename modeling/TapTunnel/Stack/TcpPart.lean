import TapTunnel.Stack.PendingRounds
import TapTunnel.Stack.ReadPath

namespace TapTunnel.Stack

open Framework

variable {T U E : Type} {N : Smoltcp T U E}

/-- The part of the state that belongs to the TCP streams: the entries of `tcp_states`, and the
channel pairs with those the application has been given. -/
structure TcpPart where
  states : HandleMap TcpSocketState
  chans : ChanId → TcpChan
  next : ChanId
  given : ChanId → Prop

def World.tcpPart (w : World T U) : TcpPart :=
  ⟨w.tcpStates, w.tcpChans, w.nextChan, w.HasTcpChan⟩

/-- What the application's side of a channel pair can do to it. -/
inductive AppMove (c : TcpChan) : TcpChan → Prop
  | write (buf : Bytes) (tx : Chan Bytes) (h : c.write.trySend buf = .ok tx) :
      AppMove c { c with write := tx, written := c.written ++ buf }
  | read (len : Nat) : AppMove c (TcpStream.read len c).2
  | dropWriteTx : AppMove c { c with write := c.write.dropTx }
  | dropReadRx : AppMove c { c with read := c.read.dropRx, readBuf := [] }
  | dropAppEnds : AppMove c c.dropAppEnds

/-- What can happen to the TCP part. A step of the system is a sequence of these. -/
inductive TcpMove (N : Smoltcp T U E) (p : TcpPart) : TcpPart → Prop
  | app {ch : ChanId} {c : TcpChan} (h : AppMove (p.chans ch) c) :
      TcpMove N p { p with chans := Function.update p.chans ch c }
  | name : TcpMove N p { p with next := p.next + 1 }
  | create (k : SocketHandle) : TcpMove N p { p with
      states := p.states.insert k ⟨p.next, none⟩
      chans := releaseTcpState (p.states.lookup k) (Function.update p.chans p.next .new)
      next := p.next + 1 }
  | remove (k : SocketHandle) : TcpMove N p { p with
      states := p.states.erase k
      chans := releaseTcpState (p.states.lookup k) p.chans }
  | write {k : SocketHandle} {st : TcpSocketState} (hk : p.states.lookup k = some st) (s : T) :
      TcpMove N p { p with
        states := p.states.insert k { st with
          pendingWrite :=
            (processTcpWrite N s st.pendingWrite (p.chans st.chan).write).pendingWrite }
        chans := Function.update p.chans st.chan { p.chans st.chan with
          write := (processTcpWrite N s st.pendingWrite (p.chans st.chan).write).writeRx
          accepted := (p.chans st.chan).accepted ++
            (processTcpWrite N s st.pendingWrite (p.chans st.chan).write).accepted } }
  | read {k : SocketHandle} {st : TcpSocketState} (hk : p.states.lookup k = some st) (s : T) :
      TcpMove N p { p with
        chans := Function.update p.chans st.chan { p.chans st.chan with
          read := (processTcpRead N s (p.chans st.chan).read).2 } }
  | give {k : SocketHandle} {st : TcpSocketState} (hk : p.states.lookup k = some st) :
      TcpMove N p { p with given := fun ch => p.given ch ∨ ch = st.chan }

/-- What a pass of `process_tcp_read` puts into the channel: non-empty chunks, as `recv_slice` gives
them, and no more of them than there is room for. -/
theorem pullReads_chunks (Q : Bytes → Prop)
    (hQ : ∀ s data s', N.canRecv s = true → N.recvSlice s tcpSocketBufferSize = (.ok data, s') →
      0 < data.length → Q data) (room : Nat) (s : T) (chunks : List Bytes) :
    ∃ new, (pullReads N room s chunks).2 = chunks ++ new ∧ (∀ chunk ∈ new, Q chunk) ∧
      new.length ≤ room := by
  have hstop : ∃ new, chunks = chunks ++ new ∧ (∀ chunk ∈ new, Q chunk) ∧ new.length ≤ room :=
    ⟨[], by simp⟩
  induction room generalizing s chunks with
  | zero => exact hstop
  | succ room ih =>
    unfold pullReads
    split_ifs with hcan
    · split
      · next data s' hrecv =>
        split_ifs with hlen
        · obtain ⟨new, hnew, hall, hroom⟩ := ih s' (chunks ++ [data]) ⟨[], by simp⟩
          refine ⟨data::new, ?_, ?_, ?_⟩
          · rw [hnew, List.append_assoc, List.singleton_append]
          · intro chunk hc
            rcases List.mem_cons.mp hc with rfl | hc
            · exact hQ s chunk s' hcan hrecv hlen
            · exact hall chunk hc
          · simpa using hroom
        · exact hstop
      · exact hstop
    · exact hstop

theorem processTcpRead_chunks (Q : Bytes → Prop)
    (hQ : ∀ s data s', N.canRecv s = true → N.recvSlice s tcpSocketBufferSize = (.ok data, s') →
      0 < data.length → Q data) (s : T) (tx : Chan Bytes) :
    ∃ new, (processTcpRead N s tx).2 = { tx with queue := tx.queue ++ new } ∧
      (∀ chunk ∈ new, Q chunk) ∧ new.length ≤ tx.room := by
  obtain ⟨new, hnew, hall, hroom⟩ := pullReads_chunks Q hQ tx.room s []
  refine ⟨new, ?_, hall, hroom⟩
  rw [List.nil_append] at hnew
  rw [← hnew]
  rfl

/-- The bytes that an action writes to the stream with the channel pair `ch`. -/
def Action.writes (ch : ChanId) : Action E → Bytes
  | .streamWrite ch' buf => if ch' = ch then buf else []
  | _ => []

/-- A sequence of moves. -/
abbrev TcpMoves (N : Smoltcp T U E) : TcpPart → TcpPart → Prop :=
  Relation.ReflTransGen (TcpMove N)

namespace World

variable {w w' : World T U}

theorem tcpPart_answer_none (w : World T U) (r : ReqId) {rep : Reply} (h : rep.tcpChan? = none) :
    (w.answer r rep).tcpPart = w.tcpPart := by
  have hchans : (w.answer r rep).tcpChans = w.tcpChans := by
    simp only [answer]
    split_ifs
    · unfold Reply.releaseTcp
      split
      · cases h
      · rfl
    · rfl
  have hgiven : (w.answer r rep).HasTcpChan = w.HasTcpChan := by
    funext ch
    simp [HasTcpChan, answer, gave_push, h]
  unfold tcpPart
  rw [hchans, hgiven]
  rfl

/-- An answer that carries channels gives them to the application, which may be gone. -/
theorem tcpMoves_answer (w : World T U) (r : ReqId) {rep : Reply} {ch : ChanId}
    (h : rep.tcpChan? = some ch) {k : SocketHandle}
    (hk : ∃ st, w.tcpStates.lookup k = some st ∧ st.chan = ch) :
    TcpMoves N w.tcpPart (w.answer r rep).tcpPart := by
  obtain ⟨st, hst, rfl⟩ := hk
  have hrel : ∀ m, rep.releaseTcp m = Function.update m st.chan (m st.chan).dropAppEnds := by
    intro m
    unfold Reply.releaseTcp
    unfold Reply.tcpChan? at h
    split at h
    · obtain rfl := Option.some.inj h
      rfl
    · cases h
  have hgiven : (w.answer r rep).HasTcpChan = fun c => w.HasTcpChan c ∨ c = st.chan := by
    funext c
    simp [HasTcpChan, answer, gave_push, h, eq_comm]
  by_cases hc : r ∈ w.cancelled
  · have h1 : TcpMove N w.tcpPart { w.tcpPart with
        chans := Function.update w.tcpChans st.chan (w.tcpChans st.chan).dropAppEnds } :=
      .app .dropAppEnds
    have h2 : TcpMove N { w.tcpPart with
        chans := Function.update w.tcpChans st.chan (w.tcpChans st.chan).dropAppEnds }
        (w.answer r rep).tcpPart := by
      unfold tcpPart
      rw [hgiven]
      simp only [answer, if_pos hc, hrel]
      exact .give hst
    exact .tail (.single h1) h2
  · apply Relation.ReflTransGen.single
    unfold tcpPart
    rw [hgiven]
    simp only [answer, if_neg hc]
    exact .give hst

theorem tcpMoves_releaseOp (op : Option PendingOp) (p : TcpPart) :
    TcpMoves N p { p with chans := releaseOp op p.chans } := by
  cases op with
  | none => exact .refl
  | some op =>
    cases op with
    | tcpConnect la pa ch r => exact .single (.app .dropAppEnds)
    | tcpAccept r => exact .refl

theorem replaceListening_tcpPart (w : World T U) (key : SocketHandle) (addr : SocketAddr)
    (rest : List SocketHandle) : (w.replaceListening N key addr rest).tcpPart = w.tcpPart := by
  unfold replaceListening
  split <;> rfl

theorem tcpMoves_deliverAccepted (w : World T U) (x : SocketHandle) (la pa : SocketAddr)
    (r : ReqId) : TcpMoves N w.tcpPart (w.deliverAccepted x la pa r).tcpPart := by
  have h1 : TcpMove N w.tcpPart
    (w.createTcpChannels.insertTcpState x ⟨w.nextChan, none⟩).tcpPart := .create x
  exact .head h1 (tcpMoves_answer _ r rfl ⟨_, AList.lookup_insert _, rfl⟩)

/-- Only the application's own steps on a stream touch the TCP part. -/
theorem envStep_tcpPart {a : Action E} (h : w.envStep a = some w') :
    (w'.tcpPart = w.tcpPart ∧ ∀ ch, a.writes ch = []) ∨
    ∃ ch c, w.HasTcpChan ch ∧ AppMove (w.tcpChans ch) c ∧
      w'.tcpPart = { w.tcpPart with chans := Function.update w.tcpChans ch c } ∧
      c.written = (w.tcpChans ch).written ++ a.writes ch ∧ ∀ ch' ≠ ch, a.writes ch' = [] := by
  cases a with
  | issue cmd =>
    obtain ⟨-, n, rfl⟩ := envStep_issue h
    exact .inl ⟨rfl, fun _ => rfl⟩
  | streamWrite ch buf =>
    simp only [envStep] at h
    split_ifs at h with hg
    split at h
    · next n c hw =>
      obtain rfl := Option.some.inj h
      unfold TcpStream.write at hw
      split at hw
      · next tx htx =>
        obtain rfl := congrArg Prod.snd hw
        refine .inr ⟨ch, _, hg.1, .write buf tx htx, rfl, ?_, fun ch' hne => ?_⟩
        · simp [Action.writes]
        · simp [Action.writes, hne.symm]
      · simp at hw
      · simp at hw
    · cases h
  | streamRead ch len =>
    simp only [envStep] at h
    split_ifs at h with hg
    obtain rfl := Option.some.inj h
    have hsame := (TcpStream.read_frame len (w.tcpChans ch)).2.1
    exact .inr ⟨ch, _, hg.1, .read len, rfl, by simp [Action.writes, hsame], fun _ _ => rfl⟩
  | dropWriteTx ch =>
    simp only [envStep] at h
    split_ifs at h with hg
    obtain rfl := Option.some.inj h
    exact .inr ⟨ch, _, hg, .dropWriteTx, rfl, by simp [Action.writes], fun _ _ => rfl⟩
  | dropReadRx ch =>
    simp only [envStep] at h
    split_ifs at h with hg
    obtain rfl := Option.some.inj h
    exact .inr ⟨ch, _, hg, .dropReadRx, rfl, by simp [Action.writes], fun _ _ => rfl⟩
  | udpSend ch buf addr | udpRecv ch =>
    simp only [envStep] at h
    split_ifs at h
    split at h
    · obtain rfl := Option.some.inj h
      exact .inl ⟨rfl, fun _ => rfl⟩
    · cases h
  | dropUdp ch =>
    simp only [envStep] at h
    split_ifs at h
    obtain rfl := Option.some.inj h
    exact .inl ⟨rfl, fun _ => rfl⟩
  | cancel r | dropCommands | foreignPort | ipcDies =>
    obtain rfl := Option.some.inj h
    exact .inl ⟨rfl, fun _ => rfl⟩
  | _ => cases h

end World

theorem Effect.tcpMoves {c : Option StackCommand} {w w' : World T U} (hc : ConnectEntries w)
    (he : Effect N c w w') : TcpMoves N w.tcpPart w'.tcpPart := by
  cases he with
  | reject m port ips rep hr hm hb =>
    have hnone : rep.tcpChan? = none := by
      rcases rep with (_ | _) | (_ | _) | (_ | _) | _ | _ <;> first | rfl | exact hb.elim
    rw [World.tcpPart_answer_none _ _ hnone]
    exact .refl
  | connect k s port la hk =>
    have h1 : TcpMove N w.tcpPart _ := .create k
    exact .head h1 (World.tcpMoves_releaseOp _ _)
  | listen m hs primary hp hlen hnd hport hold hnew hrest =>
    unfold World.listenerCreated
    rw [World.tcpPart_answer_none _ _ rfl]
    exact .refl
  | @accept _ key r l x rest s la pa hl hx hs hest =>
    have hmoves := World.tcpMoves_deliverAccepted (N := N)
      (w.replaceListening N key l.addr rest) x la pa r
    rw [World.replaceListening_tcpPart] at hmoves
    exact hmoves
  | wait l hl hnone => exact World.tcpMoves_releaseOp _ w.tcpPart
  | listenerGone hl => exact World.tcpMoves_releaseOp _ w.tcpPart
  | listenerClose l m hl hout hin => exact World.tcpMoves_releaseOp _ w.tcpPart
  | tcpClose s hs => exact .single (.remove _)
  | udpBind k s port addr hk =>
    unfold World.udpBound
    rw [World.tcpPart_answer_none _ _ rfl]
    exact .single .name
  | udpClose s hs => exact .refl
  | connected la pa ch r hp =>
    have hentry := hc _ la pa ch r hp
    exact World.tcpMoves_answer (w.takePending _) r rfl hentry
  | connectDead la pa ch r e hp =>
    rw [World.tcpPart_answer_none _ _ rfl]
    exact .tail (World.tcpMoves_releaseOp _ w.tcpPart) (.remove _)
  | @acceptPending _ key r l x rest s la pa hp hl hx hs hest =>
    have hmoves := World.tcpMoves_deliverAccepted (N := N)
      ((w.replaceListening N key l.addr rest).takePending key) x la pa r
    have hsame : ((w.replaceListening N key l.addr rest).takePending key).tcpPart = w.tcpPart :=
      World.replaceListening_tcpPart w key l.addr rest
    rw [hsame] at hmoves
    exact hmoves

/-- Everything that a step of the system does to the TCP part. -/
theorem Transition.tcpMoves (hf : N.FreshHandles) {a : Action E} {w w' : World T U} (ho : Owned w)
    (hc : ConnectEntries w) (ht : Transition N a w w') : TcpMoves N w.tcpPart w'.tcpPart := by
  cases ht with
  | env he =>
    rcases World.envStep_tcpPart he with ⟨hsame, -⟩ | ⟨ch, c, -, hmove, hpart, -⟩
    · rw [hsame]
    · rw [hpart]
      exact .single (.app hmove)
  | control | writeUdp | tcpEvent | udpEvent | readUdp => exact .refl
  | command cmd rest hph hq he =>
    have hpop : ConnectEntries { w with
      commands := rest
      received := w.received ++ cmd.response.toList } := hc
    have hmoves := he.tcpMoves hpop
    exact hmoves
  | writeTcp k tcp udp st s hph hst hs => exact .single (.write hst s)
  | readTcp k tcp udp changed st s hst hs => exact .single (.read hst s)
  | @pending _ v order he =>
    have hpath : TcpMoves N w.tcpPart v.tcpPart ∧ ConnectEntries v := by
      apply ho.effects_rule hf (fun v => TcpMoves N w.tcpPart v.tcpPart ∧ ConnectEntries v)
        ⟨.refl, hc⟩ _ he
      intro u v hu h he
      exact ⟨h.1.trans (he.tcpMoves h.2), h.2.effect hu (by simp) he⟩
    exact hpath.1
  | fail =>
    apply World.failOps_rule (fun v => TcpMoves N w.tcpPart v.tcpPart)
    · exact .refl
    · intro v k r e hv
      rw [World.tcpPart_answer_none _ _ rfl]
      exact hv.trans (World.tcpMoves_releaseOp _ v.tcpPart)

/-- The TCP part before anything has happened. -/
def TcpPart.empty : TcpPart := ⟨∅, fun _ => .new, 0, fun _ => False⟩

/-- Run lemma: a reachable state's TCP part comes about by moves. -/
theorem Reach.tcpMoves (hf : N.FreshHandles) {cfg : StackConfig} {port : UInt16} {w : World T U}
    (h : Reach N cfg port w) : TcpMoves N .empty w.tcpPart := by
  have hall : ConnectEntries w ∧ TcpMoves N .empty w.tcpPart := by
    apply Reach.invariant hf (fun w => ConnectEntries w ∧ TcpMoves N .empty w.tcpPart) _ _ h
    · intro ips p
      refine ⟨by simp [ConnectEntries, World.blank], ?_⟩
      have hnone : World.HasTcpChan (T := T) (U := U)
          { World.blank port with ipAddrs := ips, phase := p } = fun _ => False := by
        funext ch
        simp [World.HasTcpChan, Gave, World.blank]
      unfold World.tcpPart
      rw [hnone]
      exact .refl
    · intro w w' a ho hw _ ht
      exact ⟨hw.1.transition hf ho ht, hw.2.trans (ht.tcpMoves hf ho hw.1)⟩
  exact hall.2

/-- Invariant rule for the TCP part: what a move keeps holds in every reachable state. -/
theorem Reach.tcp_invariant (hf : N.FreshHandles) {cfg : StackConfig} {port : UInt16}
    {w : World T U} (P : TcpPart → Prop) (h0 : P .empty) (hmove : ∀ p q, P p → TcpMove N p q → P q)
    (h : Reach N cfg port w) : P w.tcpPart := by
  have hpath := Reach.tcpMoves hf h
  generalize w.tcpPart = p at hpath
  induction hpath with
  | refl => exact h0
  | tail _ hm ih => exact hmove _ _ ih hm

/-- The channel pairs that the stack or the application has are among those created. -/
structure TcpPart.Created (p : TcpPart) : Prop where
  entries : ∀ k st, p.states.lookup k = some st → st.chan < p.next
  given : ∀ ch, p.given ch → ch < p.next

theorem TcpPart.Created.empty : Created .empty where
  entries k st hk := by simp [TcpPart.empty] at hk
  given ch hg := hg.elim

theorem TcpPart.Created.move {p q : TcpPart} (h : p.Created) (hm : TcpMove N p q) : q.Created := by
  cases hm with
  | app | read => exact ⟨h.entries, h.given⟩
  | name =>
    exact ⟨fun k st hk => Nat.lt_succ_of_lt (h.entries k st hk),
      fun ch hg => Nat.lt_succ_of_lt (h.given ch hg)⟩
  | create k =>
    refine ⟨fun k' st hk' => ?_, fun ch hg => Nat.lt_succ_of_lt (h.given ch hg)⟩
    rcases Table.insert_cases hk' with ⟨-, rfl⟩ | ⟨-, hk'⟩
    · exact Nat.lt_succ_self _
    · exact Nat.lt_succ_of_lt (h.entries k' st hk')
  | remove k => exact ⟨fun k' st hk' => h.entries k' st (Table.erase_cases hk').2, h.given⟩
  | @write k st hk s =>
    refine ⟨fun k' st' hk' => ?_, h.given⟩
    rcases Table.insert_cases hk' with ⟨rfl, rfl⟩ | ⟨-, hk'⟩
    · exact h.entries k' st hk
    · exact h.entries k' st' hk'
  | @give k st hk =>
    refine ⟨h.entries, fun ch hg => ?_⟩
    rcases hg with hg | rfl
    · exact h.given ch hg
    · exact h.entries k st hk

end TapTunnel.Stack
