import TapTunnel.Net.Views
import TapTunnel.Stack.Entries

namespace TapTunnel.Stack

open Framework

variable {T U E : Type} {N : Smoltcp T U E}

/-- The socket was opened by `connect` and its owner has not closed it. -/
def Connecting (N : Smoltcp T U E) (s : T) : Prop :=
  N.passive s = false ∧ (N.tcpState s).connecting = true

namespace Connecting

variable {s : T}

theorem of_connect (hH : N.HandshakeContract) {ips : List IpCidr} {remote : IpEndpoint}
    {ep : IpListenEndpoint} (h : N.connect ips N.tcpNew remote ep = .ok s) : Connecting N s := by
  obtain ⟨hst, hp⟩ := hH.connect_new ips remote ep s h
  refine ⟨hp, ?_⟩
  rw [hst]
  rfl

theorem process (hM : N.TcpMachine) (h : Connecting N s) (e : E) :
    Connecting N (N.tcpProcess e s) := by
  have hmove := hM.process_state e s
  rw [h.1] at hmove
  exact ⟨(hM.process_passive e s).trans h.1, TcpState.moves_connecting hmove h.2⟩

/-- The pump does not close a socket while there is a writer. -/
theorem write (hH : N.HandshakeContract) (h : Connecting N s) (pending : Option Bytes)
    {rx : Chan Bytes} (htx : rx.txAlive = true) :
    Connecting N (processTcpWrite N s pending rx).socket := by
  refine processTcpWrite_rule (Connecting N) rx ?_ ?_ s pending h
  · intro s data hs
    exact ⟨(hH.send_passive s data).trans hs.1, by rw [hH.send_state]; exact hs.2⟩
  · intro hno
    rw [htx] at hno
    cases hno

theorem read (hH : N.HandshakeContract) (h : Connecting N s) (tx : Chan Bytes) :
    Connecting N (processTcpRead N s tx).1 := by
  refine processTcpRead_rule (Connecting N) ?_ s tx h
  intro s len hs
  exact ⟨(hH.recv_passive s len).trans hs.1, by rw [hH.recv_state]; exact hs.2⟩

end Connecting

/-- What a pending connect on `k` has: the channel pair of the entry of `k`, with its writing end,
which the application has not got yet, and a socket that nobody has closed. -/
structure ConnectHolds (N : Smoltcp T U E) (w : World T U) (k : SocketHandle) (ch : ChanId) :
    Prop where
  entry : ∃ st, w.tcpStates.lookup k = some st ∧ st.chan = ch
  writer : (w.tcpChans ch).write.txAlive = true
  kept : ¬w.HasTcpChan ch
  socket : ∃ s, w.sockets.lookup k = some (.tcp s) ∧ Connecting N s

theorem ConnectHolds.frame {w w' : World T U} {k : SocketHandle} {ch : ChanId}
    (h : ConnectHolds N w k ch) (hst : w'.tcpStates.lookup k = w.tcpStates.lookup k)
    (hch : (w'.tcpChans ch).write.txAlive = (w.tcpChans ch).write.txAlive)
    (hg : w'.HasTcpChan ch → w.HasTcpChan ch)
    (hs : w'.sockets.lookup k = w.sockets.lookup k) : ConnectHolds N w' k ch where
  entry := by
    rw [hst]
    exact h.entry
  writer := hch.trans h.writer
  kept := fun hgave => h.kept (hg hgave)
  socket := by
    rw [hs]
    exact h.socket

/-- The operation is a connect with the given channel pair. -/
def PendingOp.connectsOn (op : PendingOp) (ch : ChanId) : Prop :=
  ∃ la pa r, op = .tcpConnect la pa ch r

/-- The application can only touch channels it has been given. -/
theorem World.envStep_tcpChans {w w' : World T U} {a : Action E} (h : w.envStep a = some w')
    {ch : ChanId} (hg : ¬w.HasTcpChan ch) : w'.tcpChans ch = w.tcpChans ch := by
  have hne : ∀ {ch'}, w.HasTcpChan ch' → ch ≠ ch' := fun hg' he => hg (he ▸ hg')
  cases a with
  | issue cmd =>
    obtain ⟨-, n, rfl⟩ := envStep_issue h
    rfl
  | cancel | dropCommands | foreignPort | ipcDies =>
    obtain rfl := Option.some.inj h
    rfl
  | streamRead ch' =>
    simp only [envStep] at h
    split_ifs at h with hg'
    obtain rfl := Option.some.inj h
    exact Function.update_of_ne (hne hg'.1) _ _
  | dropWriteTx ch' | dropReadRx ch' =>
    simp only [envStep] at h
    split_ifs at h with hg'
    obtain rfl := Option.some.inj h
    exact Function.update_of_ne (hne hg') _ _
  | streamWrite ch' =>
    simp only [envStep] at h
    split_ifs at h with hg'
    split at h
    · obtain rfl := Option.some.inj h
      exact Function.update_of_ne (hne hg'.1) _ _
    · cases h
  | dropUdp =>
    simp only [envStep] at h
    split_ifs at h
    obtain rfl := Option.some.inj h
    rfl
  | udpSend | udpRecv =>
    simp only [envStep] at h
    split_ifs at h
    split at h
    · obtain rfl := Option.some.inj h
      rfl
    · cases h
  | _ => cases h

/-- The invariant of the pending connects. -/
structure ConnectsHold (N : Smoltcp T U E) (w : World T U) : Prop where
  entries : EntriesOf (fun _ _ => True) w
  given : ∀ ch, w.HasTcpChan ch → ch < w.nextChan
  connects : ∀ k op ch, w.pending.lookup k = some op → op.connectsOn ch → ConnectHolds N w k ch

namespace ConnectsHold

variable {w w' : World T U} {k : SocketHandle} {op : PendingOp} {ch : ChanId}

/-- Pending connects have different channel pairs. -/
theorem chan_ne (h : ConnectsHold N w) (hk : w.pending.lookup k = some op)
    (hc : op.connectsOn ch) {k' : SocketHandle} {st : TcpSocketState}
    (hst : w.tcpStates.lookup k' = some st) (hne : k' ≠ k) : ch ≠ st.chan := by
  obtain ⟨st', hst', rfl⟩ := (h.connects k op ch hk hc).entry
  intro he
  exact hne (h.entries.inj k' k st st' hst hst' he.symm)

theorem chan_lt (h : ConnectsHold N w) (hk : w.pending.lookup k = some op)
    (hc : op.connectsOn ch) : ch < w.nextChan := by
  obtain ⟨st, hst, rfl⟩ := (h.connects k op ch hk hc).entry
  exact h.entries.lt k st hst

theorem answer (h : ConnectsHold N w) (r : ReqId) {rep : Reply}
    (hrep : ∀ ch, rep.tcpChan? = some ch → ch < w.nextChan ∧
      ∀ k op, w.pending.lookup k = some op → ¬op.connectsOn ch) :
    ConnectsHold N (w.answer r rep) where
  entries := h.entries.answer (entryRule_true N) r rep
  given := by
    intro ch hg
    rcases (gave_push w.answers r rep Reply.tcpChan? ch).mp hg with hg | hg
    · exact h.given ch hg
    · exact (hrep ch hg).1
  connects := by
    intro k op ch hk hc
    refine (h.connects k op ch hk hc).frame rfl ?_ ?_ rfl
    · simp only [World.answer]
      split_ifs with hcan
      · unfold Reply.releaseTcp
        split
        · next x la pa ch' =>
          have hne : ch ≠ ch' := fun he => (hrep ch' rfl).2 k op hk (he ▸ hc)
          rw [Function.update_of_ne hne]
        · rfl
      · rfl
    · intro hg
      rcases (gave_push w.answers r rep Reply.tcpChan? ch).mp hg with hg | hg
      · exact hg
      · exact absurd hc ((hrep ch hg).2 k op hk)

theorem answer_bare (h : ConnectsHold N w) (r : ReqId) {rep : Reply} (hrep : rep.tcpChan? = none) :
    ConnectsHold N (w.answer r rep) := by
  refine h.answer r (fun ch hch => ?_)
  rw [hrep] at hch
  cases hch

/-- Dropping the operation of one handle releases no channel of another. -/
theorem releaseOp_keeps (h : ConnectsHold N w) {k' : SocketHandle}
    (hk : w.pending.lookup k = some op) (hc : op.connectsOn ch) (hne : k ≠ k') :
    releaseOp (w.pending.lookup k') w.tcpChans ch = w.tcpChans ch := by
  cases hop : w.pending.lookup k' with
  | none => rfl
  | some op' =>
    cases op' with
    | tcpAccept r => rfl
    | tcpConnect la pa ch' r =>
      obtain ⟨st, hst, hch⟩ := (h.connects k' _ ch' hop ⟨la, pa, r, rfl⟩).entry
      have hne' : ch ≠ ch' := hch ▸ h.chan_ne hk hc hst hne.symm
      exact Function.update_of_ne hne' _ _

theorem takePending (h : ConnectsHold N w) (k : SocketHandle) :
    ConnectsHold N (w.takePending k) where
  entries := h.entries
  given := h.given
  connects := by
    intro k' op ch hk hc
    exact (h.connects k' op ch (Table.erase_cases hk).2 hc).frame rfl rfl id rfl

theorem dropPending (h : ConnectsHold N w) (k : SocketHandle) :
    ConnectsHold N (w.dropPending k) where
  entries := h.entries.dropPending (entryRule_true N) k
  given := h.given
  connects := by
    intro k' op ch hk hc
    obtain ⟨hne, hk⟩ := Table.erase_cases hk
    refine (h.connects k' op ch hk hc).frame rfl ?_ id rfl
    have hkeep := h.releaseOp_keeps hk hc hne
    exact congrArg (·.write.txAlive) hkeep

theorem insertAccept (h : ConnectsHold N w) (k : SocketHandle) (r : ReqId) :
    ConnectsHold N (w.insertPending k (.tcpAccept r)) where
  entries := Entries.app (entryRule_true N) h.entries (releaseOp_app _ _)
  given := h.given
  connects := by
    intro k' op ch hk hc
    rcases Table.insert_cases hk with ⟨-, rfl⟩ | ⟨hne, hk⟩
    · obtain ⟨la, pa, r', hop⟩ := hc
      cases hop
    · refine (h.connects k' op ch hk hc).frame rfl ?_ id rfl
      have hkeep := h.releaseOp_keeps hk hc hne
      exact congrArg (·.write.txAlive) hkeep

/-- An entry is removed that no pending connect has. -/
theorem removeTcpState (h : ConnectsHold N w)
    (hk : ∀ op ch, w.pending.lookup k = some op → ¬op.connectsOn ch) :
    ConnectsHold N (w.removeTcpState k) where
  entries := h.entries.removeTcpState k
  given := h.given
  connects := by
    intro k' op ch hk' hc
    have hne : k' ≠ k := fun he => hk op ch (he ▸ hk') hc
    obtain ⟨st, hst, hch⟩ := (h.connects k' op ch hk' hc).entry
    refine (h.connects k' op ch hk' hc).frame (AList.lookup_erase_ne hne) ?_ id rfl
    have hkeep := Entries.release_of_ne h.entries hst hne
    rw [hch] at hkeep
    exact congrArg (·.write.txAlive) hkeep

/-- The sockets with entries stay as they are, and nothing else changes that the connects have. -/
theorem of_sockets (h : ConnectsHold N w)
    (hs : ∀ k s, w.sockets.lookup k = some (.tcp s) → (∃ st, w.tcpStates.lookup k = some st) →
      w'.sockets.lookup k = some (.tcp s))
    (hp : w'.pending = w.pending) (hst : w'.tcpStates = w.tcpStates)
    (hch : w'.tcpChans = w.tcpChans) (hn : w.nextChan ≤ w'.nextChan)
    (ha : w'.answers = w.answers) : ConnectsHold N w' where
  entries := by
    unfold EntriesOf
    rw [hst, hch]
    exact ⟨fun k st hk => Nat.lt_of_lt_of_le (h.entries.lt k st hk) hn, h.entries.inj,
      h.entries.good⟩
  given := by
    intro ch hg
    unfold World.HasTcpChan at hg
    rw [ha] at hg
    exact Nat.lt_of_lt_of_le (h.given ch hg) hn
  connects := by
    intro k op ch hk hc
    rw [hp] at hk
    have hopen := h.connects k op ch hk hc
    obtain ⟨s, hsock, -⟩ := hopen.socket
    obtain ⟨st, hentry, -⟩ := hopen.entry
    refine hopen.frame (by rw [hst]) (by rw [hch]) ?_ ?_
    · intro hg
      unfold World.HasTcpChan at hg ⊢
      rwa [ha] at hg
    · rw [hs k s hsock ⟨st, hentry⟩, hsock]

/-- A UDP socket changes, with what belongs to it. -/
theorem of_udp (h : ConnectsHold N w) {u : U} (hu : w.sockets.lookup k = some (.udp u))
    (hs : ∀ x, x ≠ k → w'.sockets.lookup x = w.sockets.lookup x)
    (hp : w'.pending = w.pending) (hst : w'.tcpStates = w.tcpStates)
    (hch : w'.tcpChans = w.tcpChans) (hn : w'.nextChan = w.nextChan)
    (ha : w'.answers = w.answers) : ConnectsHold N w' := by
  refine h.of_sockets (fun x s hx _ => ?_) hp hst hch (Nat.le_of_eq hn.symm) ha
  have hne : x ≠ k := by
    intro he
    rw [he, hu] at hx
    cases hx
  exact (hs x hne).trans hx

/-- A new entry on a new channel pair, under a handle that has none. -/
theorem newEntry (h : ConnectsHold N w) {x : SocketHandle} (hx : w.tcpStates.lookup x = none) :
    ConnectsHold N (w.createTcpChannels.insertTcpState x ⟨w.nextChan, none⟩) where
  entries := Entries.insert (entryRule_true N) h.entries x
  given := fun ch hg => Nat.lt_succ_of_lt (h.given ch hg)
  connects := by
    intro k op ch hk hc
    have hopen := h.connects k op ch hk hc
    obtain ⟨st, hst, hch⟩ := hopen.entry
    have hne : k ≠ x := by
      intro he
      rw [he, hx] at hst
      cases hst
    have hlt := h.chan_lt hk hc
    refine hopen.frame (AList.lookup_insert_ne hne) ?_ id rfl
    simp only [World.insertTcpState, World.createTcpChannels, hx, releaseTcpState]
    rw [Function.update_of_ne (Nat.ne_of_lt hlt)]

theorem replaceListening (hf : N.FreshHandles) (h : ConnectsHold N w) (key : SocketHandle)
    (addr : SocketAddr) (rest : List SocketHandle) :
    ConnectsHold N (w.replaceListening N key addr rest) := by
  have hnext : (w.replaceListening N key addr rest).nextChan = w.nextChan := by
    unfold World.replaceListening
    split <;> rfl
  refine h.of_sockets (fun k s hk _ => World.replaceListening_lookup hf hk key addr rest)
    (World.replaceListening_pending ..) (World.replaceListening_tcpStates ..) ?_
    (Nat.le_of_eq hnext.symm) (World.replaceListening_answers ..)
  unfold World.replaceListening
  split <;> rfl

/-- An accepted socket gets a channel pair that no pending connect has. -/
theorem deliverAccepted (h : ConnectsHold N w) {x : SocketHandle}
    (hx : w.tcpStates.lookup x = none) (la pa : SocketAddr) (r : ReqId) :
    ConnectsHold N (w.deliverAccepted x la pa r) := by
  refine (h.newEntry hx).answer r (fun ch hch => ?_)
  obtain rfl : w.nextChan = ch := Option.some.inj hch
  refine ⟨Nat.lt_succ_self _, fun k op hk hc => ?_⟩
  exact absurd (h.chan_lt hk hc) (Nat.lt_irrefl _)

/-- A connect is started on a new socket, with a new channel pair. -/
theorem connectStarted (ho : Owned w) (h : ConnectsHold N w) (hk : w.sockets.lookup k = none)
    {s : T} (hs : Connecting N s) (port : UInt16) (la pa : SocketAddr) (r : ReqId) :
    ConnectsHold N (World.connectStarted { w with ephemeralPort := port } k s la pa r) := by
  obtain ⟨hst, -, hpend, -, -⟩ := ho.unused hk
  have h1 : ConnectsHold N (World.setTcp { w with ephemeralPort := port } k s) := by
    refine h.of_sockets (fun k' s' hk' _ => ?_) rfl rfl rfl (Nat.le_refl _) rfl
    have hne : k' ≠ k := by
      intro he
      rw [he, hk] at hk'
      cases hk'
    exact (AList.lookup_insert_ne hne).trans hk'
  have h2 := h1.newEntry (x := k) hst
  have hfresh : ¬w.HasTcpChan w.nextChan := fun hg => Nat.lt_irrefl _ (h.given _ hg)
  have hchan : (World.connectStarted { w with ephemeralPort := port } k s la pa r).tcpChans =
      Function.update w.tcpChans w.nextChan .new := by
    simp only [World.connectStarted, World.insertPending, World.insertTcpState,
      World.createTcpChannels, World.setTcp, hst, hpend, releaseTcpState, releaseOp]
  refine ⟨?_, h2.given, ?_⟩
  · have h3 := Entries.app (entryRule_true N) h2.entries (releaseOp_app (w.pending.lookup k) _)
    exact h3
  · intro k' op ch hk' hc
    rcases Table.insert_cases hk' with ⟨rfl, rfl⟩ | ⟨-, hk'⟩
    · obtain ⟨la', pa', r', hop⟩ := hc
      obtain rfl : w.nextChan = ch := by
        cases hop
        rfl
      refine ⟨⟨_, AList.lookup_insert _, rfl⟩, ?_, hfresh, ⟨s, AList.lookup_insert _, hs⟩⟩
      rw [hchan, Function.update_self]
      rfl
    · have hlt := h.chan_lt hk' hc
      refine (h2.connects k' op ch hk' hc).frame rfl ?_ id rfl
      rw [hchan]
      simp only [World.insertTcpState, World.createTcpChannels, World.setTcp, hst, releaseTcpState]

/-- Step lemma for the effects. -/
theorem effect (hf : N.FreshHandles) (hH : N.HandshakeContract) {c : Option StackCommand}
    (ho : Owned w) (hc : ∀ cmd, c = some cmd → CommandAllowed w.answers cmd) (h : ConnectsHold N w)
    (he : Effect N c w w') : ConnectsHold N w' := by
  cases he with
  | reject m port ips rep hr hm hb =>
    have h1 : ConnectsHold N { w with sockets := m, ephemeralPort := port, ipAddrs := ips } :=
      h.of_sockets (fun k s hk _ => (hm k).trans hk) rfl rfl rfl (Nat.le_refl _) rfl
    refine h1.answer_bare _ ?_
    rcases rep with (_ | _) | (_ | _) | (_ | _) | _ | _ <;> first | rfl | exact hb.elim
  | connect k s port la hk hs hport =>
    obtain ⟨remote, a, hs⟩ := hs
    exact h.connectStarted ho hk (.of_connect hH hs) port la _ _
  | listen m hs primary hp hlen hnd hport hold hnew hrest =>
    rename_i addr backlog r
    have h1 : ConnectsHold N { w with
        sockets := m
        listeners := w.listeners.insert primary ⟨addr, hs⟩
        created := w.created ++ [(primary, backlog)] } := by
      refine h.of_sockets (fun k s hk _ => ?_) rfl rfl rfl (Nat.le_refl _) rfl
      have hnot : k ∉ hs := by
        intro hmem
        rw [hold k hmem] at hk
        cases hk
      exact (hrest k hnot).trans hk
    exact h1.answer_bare r rfl
  | accept l x rest s la pa hl hx hs hest =>
    rename_i key r
    have hnone := ho.apart.tcp key l hl x (hx.mem_iff.mp List.mem_cons_self)
    refine (h.replaceListening hf key l.addr rest).deliverAccepted ?_ la pa r
    rwa [World.replaceListening_tcpStates]
  | wait l hl hnone => exact h.insertAccept _ _
  | listenerGone hl => exact h.dropPending _
  | listenerClose l m hl hout hin =>
    rename_i key
    refine (h.dropPending key).of_sockets (fun k s hk hst => ?_) rfl rfl rfl (Nat.le_refl _) rfl
    have hnot : k ∉ l.listeningHandles := by
      intro hmem
      obtain ⟨st, hst⟩ := hst
      have hnone := ho.apart.tcp key l hl k hmem
      rw [show w.tcpStates.lookup k = some st from hst] at hnone
      cases hnone
    exact (hout k hnot).trans hk
  | tcpClose s hs =>
    rename_i x
    have hpend : ∀ op ch, w.pending.lookup x = some op → ¬op.connectsOn ch := by
      rintro op ch hop ⟨la, pa, r, rfl⟩
      have hstream : w.HasStream x := hc _ rfl
      exact absurd (ho.keys.done x _ hop hstream) (by simp [PendingOp.isConnect])
    refine (h.removeTcpState hpend).of_sockets (fun k s' hk hst => ?_) rfl rfl rfl
      (Nat.le_refl _) rfl
    obtain ⟨st, hst⟩ := hst
    exact (AList.lookup_insert_ne (Table.erase_cases hst).1).trans hk
  | udpBind k s port addr hk hs hport =>
    rename_i r
    have h1 : ConnectsHold N ((World.createUdpChannels
        (World.setUdp { w with ephemeralPort := port } k s)).insertUdpState k ⟨w.nextChan⟩) := by
      refine h.of_sockets (fun k' s' hk' _ => ?_) rfl rfl rfl (Nat.le_succ _) rfl
      have hne : k' ≠ k := by
        intro he
        rw [he, hk] at hk'
        cases hk'
      exact (AList.lookup_insert_ne hne).trans hk'
    exact h1.answer_bare r rfl
  | udpClose s hs => exact h.of_udp hs (fun _ => AList.lookup_insert_ne) rfl rfl rfl rfl rfl
  | connected la pa ch r hp =>
    rename_i k
    refine (h.takePending k).answer r (fun ch' hch => ?_)
    obtain rfl : ch = ch' := Option.some.inj hch
    refine ⟨h.chan_lt hp ⟨la, pa, r, rfl⟩, fun k' op hk' hc' => ?_⟩
    obtain ⟨hne, hk'⟩ := Table.erase_cases hk'
    obtain ⟨st, hst, hch'⟩ := (h.connects k _ ch hp ⟨la, pa, r, rfl⟩).entry
    exact h.chan_ne hk' hc' hst hne.symm hch'.symm
  | connectDead la pa ch r e hp =>
    rename_i k
    refine ((h.dropPending k).removeTcpState ?_).answer_bare r rfl
    intro op ch' hk'
    exact absurd rfl (Table.erase_cases hk').1
  | acceptPending r l x rest s la pa hp hl hx hs hest =>
    rename_i key
    have hnone := ho.apart.tcp key l hl x (hx.mem_iff.mp List.mem_cons_self)
    refine ((h.replaceListening hf key l.addr rest).takePending key).deliverAccepted ?_ la pa r
    change (w.replaceListening N key l.addr rest).tcpStates.lookup x = none
    rwa [World.replaceListening_tcpStates]

theorem effects (hf : N.FreshHandles) (hH : N.HandshakeContract) (ho : Owned w)
    (h : ConnectsHold N w) (he : Relation.ReflTransGen (Effect N none) w w') :
    ConnectsHold N w' := by
  refine ho.effects_rule hf (ConnectsHold N) h (fun u v hu hv he => ?_) he
  refine hv.effect hf hH hu ?_ he
  intro cmd hcmd
  cases hcmd

theorem env (h : ConnectsHold N w) {a : Action E} (he : w.envStep a = some w') :
    ConnectsHold N w' := by
  have hfr := World.envStep_frame he
  have hgave : ∀ ch, w'.HasTcpChan ch ↔ w.HasTcpChan ch := by
    intro ch
    unfold World.HasTcpChan
    rw [hfr.answers]
  refine ⟨?_, ?_, ?_⟩
  · unfold EntriesOf
    rw [hfr.tcpStates, hfr.nextChan]
    exact Entries.app (entryRule_true N) h.entries hfr.chans
  · intro ch hg
    rw [hfr.nextChan]
    exact h.given ch ((hgave ch).mp hg)
  · intro k op ch hk hc
    rw [hfr.pending] at hk
    have hopen := h.connects k op ch hk hc
    have hkeep := World.envStep_tcpChans he hopen.kept
    exact hopen.frame (by rw [hfr.tcpStates]) (by rw [hkeep]) (hgave ch).mp (by rw [hfr.sockets])

/-- The socket of one entry changes in a way that keeps a connect on it open. -/
theorem setTcp (h : ConnectsHold N w) {s : T} (hs : w.sockets.lookup k = some (.tcp s)) (s' : T)
    (hk : Connecting N s → Connecting N s') : ConnectsHold N (w.setTcp k s') := by
  refine ⟨h.entries, h.given, fun k' op ch hk' hc => ?_⟩
  have hopen := h.connects k' op ch hk' hc
  by_cases hkk : k' = k
  · subst hkk
    obtain ⟨s0, hs0, hcon⟩ := hopen.socket
    obtain rfl : s0 = s := by simpa [hs] using hs0.symm
    exact ⟨hopen.entry, hopen.writer, hopen.kept, s', AList.lookup_insert _, hk hcon⟩
  · exact hopen.frame rfl rfl id (AList.lookup_insert_ne hkk)

/-- A visit of the write pass. The writer of a pending connect is there, so nothing is closed. -/
theorem writeTcpEntry (hH : N.HandshakeContract) (h : ConnectsHold N w)
    {st : TcpSocketState} {s : T} (hst : w.tcpStates.lookup k = some st)
    (hs : w.sockets.lookup k = some (.tcp s)) :
    ConnectsHold N (w.writeTcpEntry N k st s) := by
  have hentries : EntriesOf (fun _ _ => True) (w.writeTcpEntry N k st s) := by
    refine Entries.set h.entries hst ?_ trivial
    rfl
  refine ⟨hentries, h.given, fun k' op ch hk' hc => ?_⟩
  have hopen := h.connects k' op ch hk' hc
  by_cases hkk : k' = k
  · subst hkk
    obtain ⟨s0, hs0, hcon⟩ := hopen.socket
    obtain rfl : s0 = s := by simpa [hs] using hs0.symm
    obtain ⟨st0, hst0, hch⟩ := hopen.entry
    obtain rfl : st0 = st := by simpa [hst] using hst0.symm
    subst hch
    obtain ⟨rest, -, hrx⟩ := processTcpWrite_takes (N := N) s0 st0.pendingWrite
      (w.tcpChans st0.chan).write
    refine ⟨⟨_, AList.lookup_insert _, rfl⟩, ?_, hopen.kept, _, AList.lookup_insert _,
      hcon.write hH _ hopen.writer⟩
    simp only [World.writeTcpEntry, Function.update_self, hrx]
    exact hopen.writer
  · refine hopen.frame (AList.lookup_insert_ne hkk) ?_ id (AList.lookup_insert_ne hkk)
    simp only [World.writeTcpEntry]
    rw [Function.update_of_ne (h.chan_ne hk' hc hst (Ne.symm hkk))]

theorem readTcpEntry (hH : N.HandshakeContract) (h : ConnectsHold N w) {st : TcpSocketState} {s : T}
    (hst : w.tcpStates.lookup k = some st) (hs : w.sockets.lookup k = some (.tcp s)) :
    ConnectsHold N (w.readTcpEntry N k st s) := by
  have h1 := h.setTcp hs (processTcpRead N s (w.tcpChans st.chan).read).1
    (fun hcon => hcon.read hH _)
  refine ⟨Entries.touch h1.entries hst trivial, h1.given, fun k' op ch hk' hc => ?_⟩
  refine (h1.connects k' op ch hk' hc).frame rfl ?_ id rfl
  by_cases hch : ch = st.chan
  · subst hch
    simp only [World.readTcpEntry, Function.update_self]
    rfl
  · simp only [World.readTcpEntry, Function.update_of_ne hch]
    rfl

/-- Step lemma. -/
theorem transition (hf : N.FreshHandles) (hM : N.TcpMachine) (hH : N.HandshakeContract)
    {a : Action E} (ho : Owned w) (h : ConnectsHold N w) (ht : Transition N a w w') :
    ConnectsHold N w' := by
  cases ht with
  | env he => exact h.env he
  | control p notify hp hw =>
    exact h.of_sockets (fun k s hk _ => hk) rfl rfl rfl (Nat.le_refl _) rfl
  | command cmd rest hph hq he => 
    have h1 : ConnectsHold N { w with
        commands := rest
        received := w.received ++ cmd.response.toList } :=
      h.of_sockets (fun k s hk _ => hk) rfl rfl rfl (Nat.le_refl _) rfl
    have h2 := h1.effect hf hH (ho.popCommand hq _) ?_ he
    · exact h2.of_sockets (fun k s hk _ => hk) rfl rfl rfl (Nat.le_refl _) rfl
    · intro cmd' hcmd
      obtain rfl := Option.some.inj hcmd
      exact ho.headAllowed hq
  | writeTcp k tcp udp st s hph hst hs =>
    have hend := h.writeTcpEntry hH hst hs
    exact hend.of_sockets (fun k s hk _ => hk) rfl rfl rfl (Nat.le_refl _) rfl
  | writeUdp k udp st s hst hs =>
    exact h.of_udp hs (fun _ => AList.lookup_insert_ne) rfl rfl rfl rfl rfl
  | tcpEvent k e s hs => exact h.setTcp hs _ (fun hcon => hcon.process hM e)
  | udpEvent k e s hs => exact h.of_udp hs (fun _ => AList.lookup_insert_ne) rfl rfl rfl rfl rfl
  | readTcp k tcp udp changed st s hst hs =>
    have hend := h.readTcpEntry hH hst hs
    exact hend.of_sockets (fun k s hk _ => hk) rfl rfl rfl (Nat.le_refl _) rfl
  | readUdp k udp changed st s hst hs =>
    exact h.of_udp hs (fun _ => AList.lookup_insert_ne) rfl rfl rfl rfl rfl
  | pending order he =>
    have hend := h.effects hf hH ho he
    exact hend.of_sockets (fun k s hk _ => hk) rfl rfl rfl (Nat.le_refl _) rfl
  | fail =>
    have hend := World.failOps_rule (ConnectsHold N) w.pending.entries h
      (fun v k r e hv => (hv.dropPending k).answer_bare r rfl)
    exact hend.of_sockets (fun k s hk _ => hk) rfl rfl rfl (Nat.le_refl _) rfl

end ConnectsHold

/-- Run lemma. -/
theorem Reach.connectsHold (hf : N.FreshHandles) (hM : N.TcpMachine) (hH : N.HandshakeContract)
    {cfg : StackConfig} {port : UInt16} {w : World T U} (h : Reach N cfg port w) :
    ConnectsHold N w := by
  refine Reach.invariant hf (ConnectsHold N) ?_ ?_ h
  · intro ips p
    refine ⟨⟨nofun, nofun, nofun⟩, ?_, nofun⟩
    rintro ch ⟨e, he, -⟩
    cases he
  · intro u v a ho hu _ ht
    exact hu.transition hf hM hH ho ht

end TapTunnel.Stack
