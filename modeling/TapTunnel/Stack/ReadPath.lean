import TapTunnel.Stack.History
import TapTunnel.Stack.Reclaim

namespace TapTunnel.Stack

open Framework Reference

variable {T U E : Type} {N : Smoltcp T U E}

section Pump

/-- The transmit side of the pump does not touch the receive buffer. -/
theorem processTcpWrite_rx (hR : N.RecvContract) (s : T) (pending : Option Bytes)
    (rx : Chan Bytes) : N.rxBuf (processTcpWrite N s pending rx).socket = N.rxBuf s := by
  apply processTcpWrite_rule (fun s' => N.rxBuf s' = N.rxBuf s)
  · intro s' data h
    exact (hR.send_rx s' data).trans h
  · intro _ s' h
    exact (hR.close_rx s').trans h
  · rfl

/-- What the receive loop takes out of the socket is the chunks it adds, none of them empty. -/
theorem pullReads_spec (hR : N.RecvContract) (room : Nat) (s : T) (chunks : List Bytes) :
    ∃ new, (pullReads N room s chunks).2 = chunks ++ new ∧ (∀ chunk ∈ new, chunk ≠ []) ∧
      N.rxBuf s = new.flatten ++ N.rxBuf (pullReads N room s chunks).1 := by
  induction room generalizing s chunks with
  | zero => exact ⟨[], by simp [pullReads], by simp, rfl⟩
  | succ room ih =>
    unfold pullReads
    by_cases hc : N.canRecv s = true
    · obtain ⟨data, s', hrecv, hne, -, hrx⟩ := hR.recv_ok s tcpSocketBufferSize hc (by decide)
      have hpos : 0 < data.length := List.length_pos_of_ne_nil hne
      obtain ⟨new, hnew, hall, hrest⟩ := ih s' (chunks ++ [data])
      rw [if_pos hc, hrecv]
      simp only [if_pos hpos]
      refine ⟨data::new, by simp [hnew], by simpa [hne] using hall, ?_⟩
      rw [hrx, hrest, List.flatten_cons, List.append_assoc]
    · rw [if_neg hc]
      exact ⟨[], by simp, by simp, rfl⟩

theorem processTcpRead_spec (hR : N.RecvContract) (s : T) (tx : Chan Bytes) :
    ∃ new, (processTcpRead N s tx).2 = { tx with queue := tx.queue ++ new } ∧
      (∀ chunk ∈ new, chunk ≠ []) ∧
      N.rxBuf s = new.flatten ++ N.rxBuf (processTcpRead N s tx).1 := by
  obtain ⟨new, hnew, hall, hrx⟩ := pullReads_spec hR tx.room s []
  exact ⟨new, by simp [processTcpRead, hnew], hall, hrx⟩

end Pump

/-- Bytes that have reached the application's side of a stream and have not been read yet. -/
def TcpChan.ahead (c : TcpChan) : Bytes := c.readBuf ++ c.read.queue.flatten

/-- The read side of a stream stays as it is, or its receiver is dropped; a sender that is gone
does not come back. -/
structure ReadKept (c d : TcpChan) : Prop where
  side : (d.read.queue = c.read.queue ∧ d.readBuf = c.readBuf ∧
      d.read.rxAlive = c.read.rxAlive) ∨
    (d.read.queue = [] ∧ d.readBuf = [] ∧ d.read.rxAlive = false)
  tx : d.read.txAlive = true → c.read.txAlive = true

namespace ReadKept

theorem refl (c : TcpChan) : ReadKept c c := ⟨.inl ⟨rfl, rfl, rfl⟩, id⟩

theorem dropAppEnds (c : TcpChan) : ReadKept c c.dropAppEnds := ⟨.inr ⟨rfl, rfl, rfl⟩, id⟩

theorem dropStackEnds (c : TcpChan) : ReadKept c c.dropStackEnds := ⟨.inl ⟨rfl, rfl, rfl⟩, nofun⟩

theorem update (m : ChanId → TcpChan) {ch : ChanId} {d : TcpChan} (h : ReadKept (m ch) d)
    (k : ChanId) : ReadKept (m k) (Function.update m ch d k) := update_rel refl m h k

theorem releaseOp (op : Option PendingOp) (m : ChanId → TcpChan) (ch : ChanId) :
    ReadKept (m ch) (releaseOp op m ch) := releaseOp_rel refl dropAppEnds op m ch

theorem releaseTcpState (st : Option TcpSocketState) (m : ChanId → TcpChan) (ch : ChanId) :
    ReadKept (m ch) (releaseTcpState st m ch) := releaseTcpState_rel refl dropStackEnds st m ch

theorem answer (w : World T U) (r : ReqId) (rep : Reply) (ch : ChanId) :
    ReadKept (w.tcpChans ch) ((w.answer r rep).tcpChans ch) :=
  w.answer_rel refl dropAppEnds r rep ch

/-- Only a read changes the read side of a stream that is not dropped. -/
theorem envStep {w w' : World T U} {a : Action E} (h : w.envStep a = some w')
    (ha : ∀ ch len, a ≠ .streamRead ch len) (ch : ChanId) :
    ReadKept (w.tcpChans ch) (w'.tcpChans ch) := by
  cases a with
  | issue cmd =>
    obtain ⟨-, n, rfl⟩ := World.envStep_issue h
    exact refl _
  | streamWrite ch' buf =>
    simp only [World.envStep] at h
    split_ifs at h
    split at h
    · next n c hw =>
      obtain rfl := Option.some.inj h
      obtain rfl := TcpStream.write_ok hw
      refine update w.tcpChans ?_ ch
      exact ⟨.inl ⟨rfl, rfl, rfl⟩, id⟩
    · cases h
  | streamRead ch' len => exact absurd rfl (ha ch' len)
  | dropWriteTx ch' =>
    simp only [World.envStep] at h
    split_ifs at h
    obtain rfl := Option.some.inj h
    refine update w.tcpChans ?_ ch
    exact ⟨.inl ⟨rfl, rfl, rfl⟩, id⟩
  | dropReadRx ch' =>
    simp only [World.envStep] at h
    split_ifs at h
    obtain rfl := Option.some.inj h
    refine update w.tcpChans ?_ ch
    exact ⟨.inr ⟨rfl, rfl, rfl⟩, id⟩
  | udpSend ch' buf addr | udpRecv ch' =>
    simp only [World.envStep] at h
    split_ifs at h
    split at h
    · obtain rfl := Option.some.inj h
      exact refl _
    · cases h
  | dropUdp ch' =>
    simp only [World.envStep] at h
    split_ifs at h
    obtain rfl := Option.some.inj h
    exact refl _
  | cancel r | dropCommands | foreignPort | ipcDies =>
    obtain rfl := Option.some.inj h
    exact refl _
  | _ => cases h

end ReadKept

section Components

variable {So So' : HandleMap (Socket T U)} {Ts : HandleMap TcpSocketState}
  {Li : HandleMap ListenerState} {m m' : ChanId → TcpChan} {next : ChanId}
  {arrived : SocketHandle → Bytes} {returned : ChanId → Bytes}

/-- The books of the read paths. A listening socket still has everything it received; for an
entry of `tcp_states` with a reader, what was returned, what waits on the application's side and
what the socket still has are together what the socket received. -/
structure ReadBooksAt (N : Smoltcp T U E) (So : HandleMap (Socket T U))
    (Ts : HandleMap TcpSocketState) (Li : HandleMap ListenerState) (m : ChanId → TcpChan)
    (next : ChanId) (arrived : SocketHandle → Bytes) (returned : ChanId → Bytes) : Prop where
  fresh : ∀ x, So.lookup x = none → arrived x = []
  unused : ∀ ch, next ≤ ch → returned ch = [] ∧ (m ch).ahead = []
  chunks : ∀ ch, ∀ chunk ∈ (m ch).read.queue, chunk ≠ []
  listening : ∀ k l, Li.lookup k = some l → ∀ x ∈ l.listeningHandles, ∀ s,
    So.lookup x = some (.tcp s) → N.rxBuf s = arrived x
  entries : ∀ h st, Ts.lookup h = some st → ∀ s, So.lookup h = some (.tcp s) →
    (m st.chan).read.rxAlive = true →
    returned st.chan ++ (m st.chan).ahead ++ N.rxBuf s = arrived h

namespace ReadBooksAt

theorem empty (N : Smoltcp T U E) : ReadBooksAt N (∅ : HandleMap (Socket T U)) ∅ ∅
    (fun _ => .new) 0 (fun _ => []) (fun _ => []) := by
  constructor <;> simp [TcpChan.ahead, TcpChan.new]

theorem chans (h : ReadBooksAt N So Ts Li m next arrived returned)
    (hm : ∀ ch, ReadKept (m ch) (m' ch)) : ReadBooksAt N So Ts Li m' next arrived returned where
  __ := h
  unused ch hch := by
    obtain ⟨hret, hahead⟩ := h.unused ch hch
    refine ⟨hret, ?_⟩
    rcases (hm ch).side with ⟨hq, hb, -⟩ | ⟨hq, hb, -⟩
    · rw [TcpChan.ahead, hq, hb]
      exact hahead
    · simp [TcpChan.ahead, hq, hb]
  chunks ch := by
    rcases (hm ch).side with ⟨hq, -, -⟩ | ⟨hq, -, -⟩
    · rw [hq]
      exact h.chunks ch
    · simp [hq]
  entries k st hk s hs hrx := by
    rcases (hm st.chan).side with ⟨hq, hb, ha⟩ | ⟨-, -, ha⟩
    · have hold := h.entries k st hk s hs (ha ▸ hrx)
      rw [TcpChan.ahead, hq, hb]
      exact hold
    · rw [ha] at hrx
      cases hrx

/-- Sockets may change as long as their receive buffers do not, and new ones start empty. -/
theorem sockets (h : ReadBooksAt N So Ts Li m next arrived returned)
    (hs : ∀ x s, So'.lookup x = some (.tcp s) →
      (So.lookup x = none ∧ N.rxBuf s = []) ∨
        ∃ s0, So.lookup x = some (.tcp s0) ∧ N.rxBuf s = N.rxBuf s0)
    (hnone : ∀ x, So'.lookup x = none → So.lookup x = none)
    (hlive : ∀ k st, Ts.lookup k = some st → LiveTcp So k)
    (hlist : ∀ k l, Li.lookup k = some l → ∀ x ∈ l.listeningHandles, LiveTcp So x) :
    ReadBooksAt N So' Ts Li m next arrived returned where
  __ := h
  fresh x hx := h.fresh x (hnone x hx)
  listening k l hl x hx s hs' := by
    rcases hs x s hs' with ⟨hno, -⟩ | ⟨s0, hs0, hrx⟩
    · obtain ⟨s0, hs0⟩ := hlist k l hl x hx
      rw [hno] at hs0
      cases hs0
    · rw [hrx]
      exact h.listening k l hl x hx s0 hs0
  entries k st hk s hs' := by
    rcases hs k s hs' with ⟨hno, -⟩ | ⟨s0, hs0, hrx⟩
    · obtain ⟨s0, hs0⟩ := hlive k st hk
      rw [hno] at hs0
      cases hs0
    · rw [hrx]
      exact h.entries k st hk s0 hs0

theorem eraseTcp (h : ReadBooksAt N So Ts Li m next arrived returned) (k : SocketHandle) :
    ReadBooksAt N So (Ts.erase k) Li m next arrived returned where
  __ := h
  entries x st hx := h.entries x st (Table.erase_cases hx).2

theorem eraseListener (h : ReadBooksAt N So Ts Li m next arrived returned) (k : SocketHandle) :
    ReadBooksAt N So Ts (Li.erase k) m next arrived returned where
  __ := h
  listening x l hx := h.listening x l (Table.erase_cases hx).2

/-- A listener entry may be written when its sockets still have all they received. -/
theorem insertListener (h : ReadBooksAt N So Ts Li m next arrived returned) (key : SocketHandle)
    (l : ListenerState) (hl : ∀ x ∈ l.listeningHandles, ∀ s, So.lookup x = some (.tcp s) →
      N.rxBuf s = arrived x) : ReadBooksAt N So Ts (Li.insert key l) m next arrived returned where
  __ := h
  listening k l' hk := by
    rcases Table.insert_cases hk with ⟨-, rfl⟩ | ⟨-, hk⟩
    · exact hl
    · exact h.listening k l' hk

/-- A new entry on a socket that still has all it received. -/
theorem newEntry (h : ReadBooksAt N So Ts Li m next arrived returned) {x : SocketHandle}
    (hlt : ∀ k st, Ts.lookup k = some st → st.chan < next)
    (hx : ∀ s, So.lookup x = some (.tcp s) → N.rxBuf s = arrived x) :
    ReadBooksAt N So (Ts.insert x ⟨next, none⟩) Li (Function.update m next .new) (next+1) arrived
      returned where
  __ := h
  unused ch hch := by
    rw [Function.update_of_ne (Nat.ne_of_gt hch)]
    exact h.unused ch (Nat.le_of_succ_le hch)
  chunks ch := by
    by_cases hch : ch = next
    · subst hch
      simp [TcpChan.new]
    · rw [Function.update_of_ne hch]
      exact h.chunks ch
  entries k st hk s hs := by
    rcases Table.insert_cases hk with ⟨rfl, rfl⟩ | ⟨-, hk⟩
    · intro _
      simp [TcpChan.ahead, TcpChan.new, (h.unused next (Nat.le_refl _)).1, hx s hs]
    · rw [Function.update_of_ne (Nat.ne_of_lt (hlt k st hk))]
      exact h.entries k st hk s hs

/-- An entry is written again on the same channels. -/
theorem setEntry (h : ReadBooksAt N So Ts Li m next arrived returned) {k : SocketHandle}
    {st : TcpSocketState} (hk : Ts.lookup k = some st) (st' : TcpSocketState)
    (hc : st'.chan = st.chan) :
    ReadBooksAt N So (Ts.insert k st') Li m next arrived returned where
  __ := h
  entries x sx hx := by
    rcases Table.insert_cases hx with ⟨rfl, rfl⟩ | ⟨-, hx⟩
    · rw [hc]
      exact h.entries x st hk
    · exact h.entries x sx hx

theorem mono (h : ReadBooksAt N So Ts Li m next arrived returned) :
    ReadBooksAt N So Ts Li m (next+1) arrived returned where
  __ := h
  unused ch hch := h.unused ch (Nat.le_of_succ_le hch)

/-- Chunks go from the socket of an entry into its channel. -/
theorem pump (h : ReadBooksAt N So Ts Li m next arrived returned) {k : SocketHandle}
    {st : TcpSocketState} {s s' : T} {new : List Bytes} (hk : Ts.lookup k = some st)
    (hs : So.lookup k = some (.tcp s)) (hlt : st.chan < next) (hnew : ∀ chunk ∈ new, chunk ≠ [])
    (hrx : N.rxBuf s = new.flatten ++ N.rxBuf s')
    (hinj : ∀ k' st', Ts.lookup k' = some st' → st'.chan = st.chan → k' = k)
    (hlist : ∀ k' l, Li.lookup k' = some l → k ∉ l.listeningHandles) :
    ReadBooksAt N (So.insert k (.tcp s')) Ts Li
      (Function.update m st.chan { m st.chan with
        read := { (m st.chan).read with queue := (m st.chan).read.queue ++ new } })
      next arrived returned where
  fresh x hx := by
    rw [Table.lookup_insert_if] at hx
    split_ifs at hx
    exact h.fresh x hx
  unused ch hch := by
    rw [Function.update_of_ne (Nat.ne_of_gt (Nat.lt_of_lt_of_le hlt hch))]
    exact h.unused ch hch
  chunks ch := by
    by_cases hch : ch = st.chan
    · subst hch
      rw [Function.update_self]
      intro chunk hmem
      exact (List.mem_append.mp hmem).elim (h.chunks _ chunk) (hnew chunk)
    · rw [Function.update_of_ne hch]
      exact h.chunks ch
  listening k' l hl x hx sx hsx := by
    have hne : x ≠ k := fun he => hlist k' l hl (he ▸ hx)
    rw [AList.lookup_insert_ne hne] at hsx
    exact h.listening k' l hl x hx sx hsx
  entries k' st' hk' sx hsx := by
    by_cases hkk : k' = k
    · subst hkk
      obtain rfl : st' = st := Option.some.inj (hk'.symm.trans hk)
      rw [AList.lookup_insert, Option.some.injEq, Socket.tcp.injEq] at hsx
      subst hsx
      rw [Function.update_self]
      intro hrxa
      have hold := h.entries k' st' hk' s hs hrxa
      rw [hrx] at hold
      rw [← hold]
      simp [TcpChan.ahead]
    · rw [AList.lookup_insert_ne hkk] at hsx
      rw [Function.update_of_ne (fun hc => hkk (hinj k' st' hk' hc))]
      exact h.entries k' st' hk' sx hsx

/-- Bytes arrive in a socket, behind those it has. -/
theorem arrive (h : ReadBooksAt N So Ts Li m next arrived returned) {k : SocketHandle} {s : T}
    (hs : So.lookup k = some (.tcp s)) (s' : T)
    (hrx : (∃ st, Ts.lookup k = some st) ∨
        (∃ k' l, Li.lookup k' = some l ∧ k ∈ l.listeningHandles) →
      N.rxBuf s <+: N.rxBuf s') :
    ReadBooksAt N (So.insert k (.tcp s')) Ts Li m next
      (fun x => arrived x ++ if x = k then (N.rxBuf s').drop (N.rxBuf s).length else [])
      returned where
  fresh x hx := by
    rw [Table.lookup_insert_if] at hx
    split_ifs at hx with hxk
    rw [if_neg hxk, List.append_nil]
    exact h.fresh x hx
  unused := h.unused
  chunks := h.chunks
  listening k' l hl x hx sx hsx := by
    by_cases hxk : x = k
    · subst hxk
      rw [AList.lookup_insert, Option.some.injEq, Socket.tcp.injEq] at hsx
      subst hsx
      obtain ⟨new, hnew⟩ := hrx (.inr ⟨k', l, hl, hx⟩)
      rw [if_pos rfl, ← h.listening k' l hl x hx s hs, ← hnew, List.drop_left]
    · rw [AList.lookup_insert_ne hxk] at hsx
      rw [if_neg hxk, List.append_nil]
      exact h.listening k' l hl x hx sx hsx
  entries k' st' hk' sx hsx hrxa := by
    by_cases hkk : k' = k
    · subst hkk
      rw [AList.lookup_insert, Option.some.injEq, Socket.tcp.injEq] at hsx
      subst hsx
      obtain ⟨new, hnew⟩ := hrx (.inl ⟨st', hk'⟩)
      rw [if_pos rfl, ← h.entries k' st' hk' s hs hrxa, ← hnew, List.drop_left,
        List.append_assoc (_ ++ _)]
    · rw [AList.lookup_insert_ne hkk] at hsx
      rw [if_neg hkk, List.append_nil]
      exact h.entries k' st' hk' sx hsx hrxa

/-- A read takes bytes from the front of what waits on the application's side. -/
theorem read (h : ReadBooksAt N So Ts Li m next arrived returned) (ch : ChanId) (len : Nat) :
    ReadBooksAt N So Ts Li (Function.update m ch (TcpStream.read len (m ch)).2) next arrived
      (Function.update returned ch (returned ch ++ (TcpStream.read len (m ch)).1.bytes)) where
  fresh := h.fresh
  listening := h.listening
  unused ch' hle := by
    obtain ⟨hret, hahead⟩ := h.unused ch' hle
    by_cases he : ch' = ch
    · subst he
      have hbytes := TcpStream.read_bytes len (m ch')
      rw [show (m ch').readBuf ++ (m ch').read.queue.flatten = [] from hahead,
        List.append_eq_nil_iff] at hbytes
      rw [Function.update_self, Function.update_self, hret, hbytes.1]
      exact ⟨rfl, hbytes.2⟩
    · rw [Function.update_of_ne he, Function.update_of_ne he]
      exact ⟨hret, hahead⟩
  chunks ch' := by
    by_cases he : ch' = ch
    · subst he
      rw [Function.update_self]
      exact fun chunk hmem => h.chunks ch' chunk ((TcpStream.read_queue len _).1.subset hmem)
    · rw [Function.update_of_ne he]
      exact h.chunks ch'
  entries k st hk s hs := by
    by_cases he : st.chan = ch
    · subst he
      rw [Function.update_self, Function.update_self]
      intro hrx
      have hold := h.entries k st hk s hs ((TcpStream.read_queue len _).2 ▸ hrx)
      have hbytes := TcpStream.read_bytes len (m st.chan)
      rw [← hold, TcpChan.ahead, TcpChan.ahead, ← hbytes]
      simp
    · rw [Function.update_of_ne he, Function.update_of_ne he]
      exact h.entries k st hk s hs

end ReadBooksAt

end Components

/-- The books of a state. -/
def ReadBooks (N : Smoltcp T U E) (w : World T U) (arrived : SocketHandle → Bytes)
    (returned : ChanId → Bytes) : Prop :=
  ReadBooksAt N w.sockets w.tcpStates w.listeners w.tcpChans w.nextChan arrived returned

namespace ReadBooks

variable {w w' : World T U} {arrived : SocketHandle → Bytes} {returned : ChanId → Bytes}

/-- The receive buffers of all TCP sockets stay, and new sockets have nothing in theirs. -/
theorem sockets (ho : Owned w) (h : ReadBooks N w arrived returned) {So' : HandleMap (Socket T U)}
    (hs : ∀ x s, So'.lookup x = some (.tcp s) → (w.sockets.lookup x = none ∧ N.rxBuf s = []) ∨
      ∃ s0, w.sockets.lookup x = some (.tcp s0) ∧ N.rxBuf s = N.rxBuf s0)
    (hnone : ∀ x, So'.lookup x = none → w.sockets.lookup x = none) :
    ReadBooksAt N So' w.tcpStates w.listeners w.tcpChans w.nextChan arrived returned :=
  ReadBooksAt.sockets h hs hnone ho.live.tcp ho.live.listening

/-- One TCP socket changes, its receive buffer does not. -/
theorem setTcp (ho : Owned w) (h : ReadBooks N w arrived returned) {k : SocketHandle} {s s' : T}
    (hs : w.sockets.lookup k = some (.tcp s)) (hrx : N.rxBuf s' = N.rxBuf s) :
    ReadBooks N (w.setTcp k s') arrived returned := by
  refine h.sockets ho (fun x sx hx => .inr ?_) (fun x hx => ?_)
  · rcases Table.insert_cases hx with ⟨rfl, he⟩ | ⟨-, hx⟩
    · rw [Socket.tcp.injEq] at he
      subst he
      exact ⟨s, hs, hrx⟩
    · exact ⟨sx, hx, rfl⟩
  · rw [World.setTcp, Table.lookup_insert_if] at hx
    split_ifs at hx
    exact hx

theorem setUdp (ho : Owned w) (h : ReadBooks N w arrived returned) (k : SocketHandle) (s : U) :
    ReadBooks N (w.setUdp k s) arrived returned := by
  refine h.sockets ho (fun x sx hx => .inr ?_) (fun x hx => ?_)
  · rcases Table.insert_cases hx with ⟨-, he⟩ | ⟨-, hx⟩
    · cases he
    · exact ⟨sx, hx, rfl⟩
  · rw [World.setUdp, Table.lookup_insert_if] at hx
    split_ifs at hx
    exact hx

/-- A new TCP socket is added. -/
theorem addTcp (ho : Owned w) (h : ReadBooks N w arrived returned) {k : SocketHandle} {s : T}
    (hk : w.sockets.lookup k = none) (hrx : N.rxBuf s = []) :
    ReadBooks N (w.setTcp k s) arrived returned := by
  refine h.sockets ho (fun x sx hx => ?_) (fun x hx => ?_)
  · rcases Table.insert_cases hx with ⟨rfl, he⟩ | ⟨-, hx⟩
    · rw [Socket.tcp.injEq] at he
      subst he
      exact .inl ⟨hk, hrx⟩
    · exact .inr ⟨sx, hx, rfl⟩
  · rw [World.setTcp, Table.lookup_insert_if] at hx
    split_ifs at hx
    exact hx

theorem answer (h : ReadBooks N w arrived returned) (r : ReqId) (rep : Reply) :
    ReadBooks N (w.answer r rep) arrived returned := ReadBooksAt.chans h (ReadKept.answer w r rep)

theorem dropPending (h : ReadBooks N w arrived returned) (k : SocketHandle) :
    ReadBooks N (w.dropPending k) arrived returned := ReadBooksAt.chans h (ReadKept.releaseOp _ _)

theorem removeTcpState (h : ReadBooks N w arrived returned) (k : SocketHandle) :
    ReadBooks N (w.removeTcpState k) arrived returned :=
  (ReadBooksAt.eraseTcp h k).chans (ReadKept.releaseTcpState _ _)

theorem deliverAccepted (hc : OwnChannels w) (h : ReadBooks N w arrived returned)
    {x : SocketHandle} (hx : ∀ s, w.sockets.lookup x = some (.tcp s) → N.rxBuf s = arrived x)
    (la pa : SocketAddr) (r : ReqId) :
    ReadBooks N (w.deliverAccepted x la pa r) arrived returned := by
  have h1 : ReadBooks N (w.createTcpChannels.insertTcpState x ⟨w.nextChan, none⟩) arrived
      returned := (ReadBooksAt.newEntry h hc.lt hx).chans (ReadKept.releaseTcpState _ _)
  exact h1.answer r _

theorem replaceListening (hf : N.FreshHandles) (hR : N.RecvContract) (ho : Owned w)
    (h : ReadBooks N w arrived returned) {key x : SocketHandle} {l : ListenerState}
    {rest : List SocketHandle} (hl : w.listeners.lookup key = some l)
    (hx : (x::rest).Perm l.listeningHandles) :
    ReadBooks N (w.replaceListening N key l.addr rest) arrived returned ∧
    ∀ s, (w.replaceListening N key l.addr rest).sockets.lookup x = some (.tcp s) →
      N.rxBuf s = arrived x := by
  have hnew := World.fresh_lookup hf w.sockets
  have hmem : ∀ y ∈ x::rest, ∀ s, w.sockets.lookup y = some (.tcp s) → N.rxBuf s = arrived y :=
    fun y hy => h.listening key l hl y (hx.mem_iff.mp hy)
  have hlive : ∀ y ∈ x::rest, y ≠ N.fresh w.sockets.keys := by
    rintro y hy rfl
    obtain ⟨s, hs⟩ := ho.live.listening key l hl _ (hx.mem_iff.mp hy)
    rw [hnew] at hs
    cases hs
  unfold World.replaceListening
  split
  · next s hs =>
    have hrx := hR.listen_rx _ s hs
    refine ⟨ReadBooksAt.insertListener (h.addTcp ho hnew hrx) key _ ?_, ?_⟩
    · intro y hy sy hsy
      rcases List.mem_append.mp hy with hy | hy
      · rw [World.setTcp, AList.lookup_insert_ne (hlive y (List.mem_cons_of_mem x hy))] at hsy
        exact hmem y (List.mem_cons_of_mem x hy) sy hsy
      · obtain rfl := List.mem_singleton.mp hy
        rw [World.setTcp, AList.lookup_insert, Option.some.injEq, Socket.tcp.injEq] at hsy
        rw [← hsy, hrx, h.fresh _ hnew]
    · intro sx hsx
      rw [AList.lookup_insert_ne (hlive x List.mem_cons_self)] at hsx
      exact hmem x List.mem_cons_self sx hsx
  · exact ⟨ReadBooksAt.insertListener h key _ (fun y hy => hmem y (List.mem_cons_of_mem x hy)),
      hmem x List.mem_cons_self⟩

/-- Step lemma for commands and rounds of `process_pending`. -/
theorem effect (hf : N.FreshHandles) (hR : N.RecvContract) {c : Option StackCommand}
    (ho : Owned w) (hc : OwnChannels w) (h : ReadBooks N w arrived returned)
    (he : Effect N c w w') : ReadBooks N w' arrived returned := by
  cases he with
  | reject m port ips rep hr hm hb =>
    have h1 : ReadBooks N { w with sockets := m, ephemeralPort := port, ipAddrs := ips } arrived
        returned := h.sockets ho (fun x s hs => .inr ⟨s, (hm x).symm.trans hs, rfl⟩)
          (fun x hx => (hm x).symm.trans hx)
    exact h1.answer _ rep
  | connect k s port la hk hs =>
    obtain ⟨remote, ep, hs⟩ := hs
    have hrx := hR.connect_rx _ _ _ s hs
    have h1 := h.addTcp ho hk hrx
    have h2 := ReadBooksAt.newEntry h1 hc.lt (x := k) (fun s' hs' => by
      rw [World.setTcp, AList.lookup_insert, Option.some.injEq, Socket.tcp.injEq] at hs'
      rw [← hs', hrx, h.fresh k hk])
    exact (h2.chans (ReadKept.releaseTcpState _ _)).chans (ReadKept.releaseOp _ _)
  | listen m hs primary hp hlen hnd hport hold hnew hrest =>
    rename_i addr backlog r
    have hrx : ∀ x ∈ hs, ∀ s, m.lookup x = some (.tcp s) → N.rxBuf s = [] := by
      intro x hx s hs'
      obtain ⟨s0, hlis, hs0⟩ := hnew x hx
      rw [hs0, Option.some.injEq, Socket.tcp.injEq] at hs'
      exact hs' ▸ hR.listen_rx _ s0 hlis
    have h1 : ReadBooks N { w with sockets := m } arrived returned := by
      refine h.sockets ho (fun x s hs' => ?_) (fun x hx => ?_)
      · by_cases hm : x ∈ hs
        · exact .inl ⟨hold x hm, hrx x hm s hs'⟩
        · exact .inr ⟨s, (hrest x hm).symm.trans hs', rfl⟩
      · by_cases hm : x ∈ hs
        · exact hold x hm
        · exact (hrest x hm).symm.trans hx
    have h2 := ReadBooksAt.insertListener h1 primary ⟨addr, hs⟩ (fun x hx s hs' => by
      rw [hrx x hx s hs', h.fresh x (hold x hx)])
    exact h2.chans (ReadKept.answer w r _)
  | accept l x rest s la pa hl hx hs hest =>
    obtain ⟨h1, hxrx⟩ := h.replaceListening hf hR ho hl hx
    exact h1.deliverAccepted (EntriesOf.replaceListening hc _ _ _) hxrx la pa _
  | wait l hl hnone => exact ReadBooksAt.chans h (ReadKept.releaseOp _ _)
  | listenerGone hl => exact h.dropPending _
  | listenerClose l m hl hout hin =>
    rename_i key
    have h1 : ReadBooks N { w with sockets := m } arrived returned := by
      refine h.sockets ho (fun x s hs' => .inr ?_) (fun x hx => ?_)
      · by_cases hm : x ∈ l.listeningHandles
        · obtain ⟨s0, hs0, hs1⟩ := hin x hm
          rw [hs1, Option.some.injEq, Socket.tcp.injEq] at hs'
          refine ⟨s0, hs0, ?_⟩
          rw [← hs']
          split_ifs
          · exact hR.close_rx s0
          · rfl
        · exact ⟨s, (hout x hm).symm.trans hs', rfl⟩
      · by_cases hm : x ∈ l.listeningHandles
        · obtain ⟨s0, -, hs1⟩ := hin x hm
          rw [hs1] at hx
          cases hx
        · exact (hout x hm).symm.trans hx
    exact (ReadBooksAt.eraseListener h1 key).chans (ReadKept.releaseOp _ _)
  | tcpClose s hs => exact (h.setTcp ho hs (hR.close_rx s)).removeTcpState _
  | udpBind k s port addr hk =>
    have h1 := ReadBooksAt.mono (h.setUdp ho k s)
    exact h1.chans (ReadKept.answer w _ _)
  | udpClose s hs => exact h.setUdp ho _ _
  | connected la pa ch r hp => exact ReadBooksAt.chans h (ReadKept.answer w r _)
  | connectDead la pa ch r e hp => exact ((h.dropPending _).removeTcpState _).answer r _
  | acceptPending r l x rest s la pa hp hl hx hs hest =>
    rename_i key
    obtain ⟨h1, hxrx⟩ := h.replaceListening hf hR ho hl hx
    have hc1 : OwnChannels ((w.replaceListening N key l.addr rest).takePending key) :=
      EntriesOf.replaceListening hc key l.addr rest
    exact deliverAccepted (w := (w.replaceListening N key l.addr rest).takePending key) hc1 h1 hxrx
      la pa r

theorem effects (hf : N.FreshHandles) (hR : N.RecvContract) (ho : Owned w) (hc : OwnChannels w)
    (h : ReadBooks N w arrived returned) (he : Relation.ReflTransGen (Effect N none) w w') :
    ReadBooks N w' arrived returned := by
  have hboth := ho.effects_rule hf (fun v => OwnChannels v ∧ ReadBooks N v arrived returned) ⟨hc, h⟩
    (fun _ _ hu hv he => ⟨EntriesOf.effect (entryRule_true N) hv.1 he,
      hv.2.effect hf hR hu hv.1 he⟩) he
  exact hboth.2

/-- Step lemma for everything but reads and the arrival of bytes. -/
theorem transition (hf : N.FreshHandles) (hR : N.RecvContract) {a : Action E} (ho : Owned w)
    (hc : OwnChannels w) (h : ReadBooks N w arrived returned)
    (hread : ∀ ch len, a ≠ .streamRead ch len) (hevent : ∀ k e, a ≠ .tcpEvent k e)
    (ht : Transition N a w w') : ReadBooks N w' arrived returned := by
  cases ht with
  | env he =>
    have hfr := World.envStep_frame he
    unfold ReadBooks
    rw [hfr.sockets, hfr.tcpStates, hfr.listeners, hfr.nextChan]
    exact ReadBooksAt.chans h (ReadKept.envStep he hread)
  | control p notify hp hw => exact h
  | command cmd rest hph hq he =>
    have h1 := effect (w := { w with
      commands := rest
      received := w.received ++ cmd.response.toList }) hf hR (ho.popCommand hq _) hc h he
    exact h1
  | writeTcp k tcp udp st s hph hst hs =>
    have h1 := h.setTcp ho hs (processTcpWrite_rx hR s st.pendingWrite (w.tcpChans st.chan).write)
    have h2 := ReadBooksAt.setEntry h1 hst { st with
      pendingWrite :=
        (processTcpWrite N s st.pendingWrite (w.tcpChans st.chan).write).pendingWrite } rfl
    refine h2.chans (ReadKept.update w.tcpChans ?_)
    exact ⟨.inl ⟨rfl, rfl, rfl⟩, id⟩
  | readTcp k tcp udp changed st s hst hs =>
    obtain ⟨new, hq, hnew, hrx⟩ := processTcpRead_spec hR s (w.tcpChans st.chan).read
    have hlist : ∀ k' l, w.listeners.lookup k' = some l → k ∉ l.listeningHandles := by
      intro k' l hl hmem
      rw [ho.apart.tcp k' l hl k hmem] at hst
      cases hst
    have h1 := ReadBooksAt.pump h hst hs (hc.lt k st hst) hnew hrx
      (fun k' st' hk' he => hc.inj k' k st' st hk' hst he) hlist
    unfold ReadBooks World.readTcpEntry
    simp only [hq]
    exact h1
  | writeUdp k udp st s hst hs => exact h.setUdp ho k _
  | readUdp k udp changed st s hst hs => exact h.setUdp ho k _
  | udpEvent k e s hs => exact h.setUdp ho k _
  | tcpEvent k e s hs => exact absurd rfl (hevent k e)
  | pending order he =>
    have h1 := h.effects hf hR ho hc he
    exact h1
  | fail =>
    exact World.failOps_rule (ReadBooks N · arrived returned) _ h
      (fun _ k r _ hv => (hv.dropPending k).answer r _)

end ReadBooks

/-- Smoltcp working on a segment for one socket. -/
theorem World.step_tcpEvent {cfg : StackConfig} {w w' : World T U} {k : SocketHandle} {e : E}
    (h : World.step N cfg (.tcpEvent k e) w = some w') :
    ∃ s, w.sockets.lookup k = some (.tcp s) ∧ w' = w.setTcp k (N.tcpProcess e s) := by
  unfold World.step at h
  split_ifs at h
  have henv : w.envStep (.tcpEvent k e) = none := rfl
  rw [henv, Option.none_or] at h
  unfold World.stackStep at h
  split at h
  · unfold World.selectStep at h
    split at h <;> contradiction
  all_goals try contradiction
  simp only [World.pollStep] at h
  split at h
  · next s hs => exact ⟨s, hs, (Option.some.inj h).symm⟩
  · cases h

theorem World.step_streamRead {cfg : StackConfig} {w w' : World T U} {ch : ChanId} {len : Nat}
    (h : World.step N cfg (.streamRead ch len) w = some w') :
    w' = { w with
      tcpChans := Function.update w.tcpChans ch (TcpStream.read len (w.tcpChans ch)).2 } := by
  have hnone : w.stackStep N cfg (.streamRead ch len) = none := by
    unfold World.stackStep World.selectStep World.pollStep
    split <;> first | contradiction | rfl
  unfold World.step at h
  split_ifs at h
  rw [hnone, Option.or_none] at h
  simp only [World.envStep] at h
  split_ifs at h
  exact (Option.some.inj h).symm

/-- Condition on a step: no socket in use leaves TIME-WAIT, which resets its receive buffer. -/
def ExpiryFree (N : Smoltcp T U E) (t : Traced T U) : TracedAction E → Prop
  | .stack (.tcpEvent k e) => k ∈ t.world.objects →
      ¬(N.kind e = .timer ∧ stateOf N t.world k = some .timeWait)
  | _ => True

namespace Traced

/-- The books of a state with its history. -/
structure Kept (N : Smoltcp T U E) (t : Traced T U) : Prop where
  owned : Owned t.world
  channels : OwnChannels t.world
  books : ReadBooks N t.world t.arrived t.returned

theorem Kept.step (hf : N.FreshHandles) (hR : N.RecvContract) {cfg : StackConfig}
    {a : TracedAction E} {t t' : Traced T U} (h : Kept N t) (hok : ExpiryFree N t a)
    (hs : step N cfg a t = some t') : Kept N t' := by
  cases step_cases hs with
  | stack a ha hw =>
    rename_i w
    have ht := h.owned.step_transition hf hw
    refine ⟨h.owned.transition hf ht, EntriesOf.transition (entryRule_true N) h.channels ht, ?_⟩
    by_cases hev : ∃ k e, a = .tcpEvent k e
    · obtain ⟨k, e, rfl⟩ := hev
      obtain ⟨s, hsock, rfl⟩ := World.step_tcpEvent hw
      have hrx : k ∈ t.world.objects → N.rxBuf s <+: N.rxBuf (N.tcpProcess e s) := by
        intro hobj
        refine (hR.process_rx e s).resolve_right (fun hexp => hok hobj ⟨hexp.1, ?_⟩)
        rw [stateOf_eq hsock, hexp.2]
      have h1 := ReadBooksAt.arrive h.books hsock (N.tcpProcess e s)
        (fun hheld => hrx (mem_objects.mpr (hheld.imp_right .inr)))
      simpa [arrivals, hsock, ReadBooks, World.setTcp] using h1
    · have hnone : (fun x => t.arrived x ++ arrivals N t.world a x) = t.arrived := by
        funext x
        cases a with
        | tcpEvent k e => exact absurd ⟨k, e, rfl⟩ hev
        | _ => exact List.append_nil _
      simp only [hnone]
      exact h.books.transition hf hR h.owned h.channels ha (fun k e he => hev ⟨k, e, he⟩) ht
  | read f ch len hw =>
    rename_i w
    have ht := h.owned.step_transition hf hw
    refine ⟨h.owned.transition hf ht, EntriesOf.transition (entryRule_true N) h.channels ht, ?_⟩
    obtain rfl := World.step_streamRead hw
    exact ReadBooksAt.read h.books ch len
  | intoSplit ch split => exact ⟨h.owned, h.channels, h.books⟩

end Traced

/-- Run lemma: the books are right in every state. -/
theorem Traced.kept (hf : N.FreshHandles) (hR : N.RecvContract) {cfg : StackConfig} {port : UInt16}
    {t : Traced T U} (h : ReachVia (Traced.step N cfg) (ExpiryFree N) (Traced.init N cfg port) t) :
    Traced.Kept N t := by
  apply h.invariant (Traced.step N cfg) (Traced.Kept N)
  · have hstart : Reach N cfg port (World.init N cfg port) := .start
    refine ⟨Reach.owned hf hstart, Reach.entries hf (entryRule_true N) hstart, ?_⟩
    obtain ⟨ips, p, he, -⟩ := init_cases N cfg port
    simp only [Traced.init, he]
    exact ReadBooksAt.empty N
  · intro s t a hs hok hstep
    exact hs.step hf hR hok hstep

instance (t : Traced T U) (a : TracedAction E) : Decidable (ExpiryFree N t a) := by
  rcases a with a | _ | _
  · rcases a with _ | _ <;> unfold ExpiryFree <;> infer_instance
  · exact .isTrue trivial
  · exact .isTrue trivial

/-- The TCP read path conserves the byte stream of every entry of `tcp_states` whose reader
exists, whichever functions read it and whether or not it has been split. Chunks are never
empty, and a read reports the end of the stream only when there is nothing left of it. -/
theorem read_stream_conserved (N : Smoltcp T U E) (hf : N.FreshHandles) (hR : N.RecvContract)
    (cfg : StackConfig) (port : UInt16) (t : Traced T U)
    (h : ReachVia (Traced.step N cfg) (ExpiryFree N) (Traced.init N cfg port) t) :
    (∀ k st s, t.world.tcpStates.lookup k = some st → t.world.sockets.lookup k = some (.tcp s) →
      (t.world.tcpChans st.chan).read.rxAlive = true →
      t.returned st.chan ++ (t.world.tcpChans st.chan).readBuf ++
        (t.world.tcpChans st.chan).read.queue.flatten ++ N.rxBuf s = t.arrived k) ∧
    (∀ ch, ∀ chunk ∈ (t.world.tcpChans ch).read.queue, chunk ≠ []) ∧
    (∀ (f : ReadFn) ch len, 0 < len → (f.run len (t.world.tcpChans ch)).1 = .ready [] →
      (t.world.tcpChans ch).read.txAlive = false ∧ (t.world.tcpChans ch).readBuf = [] ∧
      (t.world.tcpChans ch).read.queue = []) := by
  have hbooks := (Traced.kept hf hR h).books
  refine ⟨?_, hbooks.chunks, ?_⟩
  · intro k st s hst hs hrx
    have heq := hbooks.entries k st hst s hs hrx
    rwa [TcpChan.ahead, ← List.append_assoc] at heq
  · intro f ch len hlen hzero
    rw [f.run_eq] at hzero
    obtain ⟨hb, hq, htx⟩ := TcpStream.read_zero hlen (hbooks.chunks ch) hzero
    exact ⟨htx, hb, hq⟩

/-- Two of three bytes are read before a stream is split, and a fourth has just arrived. -/
def splitReadRun : List (TracedAction RefEvent) :=
  .flatten [acceptRun.map .stack, [.stack .timeout],
    (iteration [0] [(0, .data [1, 2, 3])] none).map .stack,
    [.read .streamRead 0 2, .intoSplit 0, .read .halfPollRead 0 0],
    [.stack .timeout, .stack (.beginWrite [0] []), .stack .writeTcp, .stack .endWrite,
      .stack (.tcpEvent 0 (.data [4]))]]

theorem read_stream_conserved_splitReadRun :
    ∃ (t : Traced RefTcp RefUdp) (s : RefTcp), t.world.sockets.lookup 0 = some (.tcp s) ∧
      t.returned 0 = [1, 2] ∧ (t.world.tcpChans 0).readBuf = [3] ∧
      [1, 2] ++ [3] ++ (t.world.tcpChans 0).read.queue.flatten ++ refNet.rxBuf s = t.arrived 0 := by
  obtain ⟨t, ht, hp⟩ := reachVia_of_run (Traced.step refNet hostCfg) (ExpiryFree refNet)
    splitReadRun (Traced.init refNet hostCfg 49152) (fun t => decide
      (t.world.tcpStates.lookup 0 = some ⟨0, none⟩ ∧ (t.world.tcpChans 0).read.rxAlive = true ∧
        t.returned 0 = [1, 2] ∧ (t.world.tcpChans 0).readBuf = [3])) (by decide +kernel)
  obtain ⟨hst, hrx, hret, hbuf⟩ := of_decide_eq_true hp
  obtain ⟨s, hs⟩ := (Traced.kept refNet_freshHandles refNet_recvContract ht).owned.live.tcp 0 _ hst
  have heq := (read_stream_conserved refNet refNet_freshHandles refNet_recvContract hostCfg 49152 t
    ht).1 0 _ s hst hs hrx
  rw [hret, hbuf] at heq
  exact ⟨t, s, hs, hret, hbuf, heq⟩

end TapTunnel.Stack
