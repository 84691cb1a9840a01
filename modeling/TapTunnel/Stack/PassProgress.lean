import TapTunnel.Stack.Connecting
import TapTunnel.Stack.SentBytes

namespace TapTunnel.Stack

open Framework Reference

variable {T U E : Type} {N : Smoltcp T U E}

/-- A pass of the loop over the sockets, by the phases it goes through. -/
structure Pass where
  start : Phase
  mid : List SocketHandle → List SocketHandle → Phase
  inj : ∀ {tcp udp tcp' udp'}, mid tcp udp = mid tcp' udp' → tcp = tcp' ∧ udp = udp'
  start_ne : ∀ tcp udp, start ≠ mid tcp udp

/-- The round of a pass over the TCP socket `k`, which leaves `s` and `c` for the socket and its
channels. -/
structure PumpsOne (w w' : World T U) (k : SocketHandle) (ch : ChanId) (s : T) (c : TcpChan) :
    Prop where
  sockets : w'.sockets = w.sockets.insert k (.tcp s)
  entry : ∃ st, w'.tcpStates.lookup k = some st ∧ st.chan = ch
  others : ∀ x, x ≠ k → w'.tcpStates.lookup x = w.tcpStates.lookup x
  chans : w'.tcpChans = Function.update w.tcpChans ch c

/-- What a step can do between the start of a pass and its end. `V` says what the pass makes of the
socket and the channels of an entry. -/
inductive PassMove (p : Pass) (V : TcpSocketState → T → TcpChan → T → TcpChan → Prop)
    (w w' : World T U) : Prop
  | env (hframe : EnvFrame w w')
  | begins (tcp udp : List SocketHandle) (hph : w.phase = p.start)
      (htcp : tcp.Perm w.tcpStates.keys) (hw : w' = { w with phase := p.mid tcp udp })
  | tcp (k : SocketHandle) (tcp udp : List SocketHandle) (st : TcpSocketState) (s s' : T)
      (c' : TcpChan) (hph : w.phase = p.mid (k::tcp) udp) (hph' : w'.phase = p.mid tcp udp)
      (hst : w.tcpStates.lookup k = some st) (hs : w.sockets.lookup k = some (.tcp s))
      (hpump : PumpsOne w w' k st.chan s' c') (hV : V st s (w.tcpChans st.chan) s' c')
  | gone (k : SocketHandle) (tcp udp : List SocketHandle) (hph : w.phase = p.mid (k::tcp) udp)
      (hst : w.tcpStates.lookup k = none) (hw : w' = { w with phase := p.mid tcp udp })
  | udp (k : SocketHandle) (udp : List SocketHandle) (hph : w.phase = p.mid [] (k::udp))
      (hph' : w'.phase = p.mid [] udp) (hstates : w'.tcpStates = w.tcpStates)
      (hchans : w'.tcpChans = w.tcpChans)
      (hsockets : ∀ x s, w.sockets.lookup x = some (.tcp s) → w'.sockets.lookup x = some (.tcp s))

/-- The entry `k` with channels `ch` is still to be visited by the pass and `Ready` holds of it, or
it has been visited and `Done` holds. -/
def Passing (p : Pass) (Ready Done : T → TcpChan → Prop) (k : SocketHandle) (ch : ChanId)
    (w : World T U) : Prop :=
  ∃ st s, w.tcpStates.lookup k = some st ∧ st.chan = ch ∧ w.sockets.lookup k = some (.tcp s) ∧
    ((w.phase = p.start ∧ Ready s (w.tcpChans ch)) ∨
      ∃ tcp udp, w.phase = p.mid tcp udp ∧
        ((k ∈ tcp ∧ Ready s (w.tcpChans ch)) ∨ Done s (w.tcpChans ch)))

section Passing

variable {p : Pass} {V : TcpSocketState → T → TcpChan → T → TcpChan → Prop}
  {Ready Done Done' : T → TcpChan → Prop} {k : SocketHandle} {ch : ChanId} {w w' : World T U}

/-- Step lemma of a pass. -/
theorem Passing.move (h : Passing p Ready Done k ch w)
    (hinj : ∀ k' st', w.tcpStates.lookup k' = some st' → st'.chan = ch → k' = k)
    (hready : ∀ s c d, AppOp c d → Ready s c → Ready s d)
    (hdone : ∀ s c d, AppOp c d → Done s c → Done' s d)
    (hvisit : ∀ st s s', w.tcpStates.lookup k = some st → st.chan = ch →
      V st s (w.tcpChans ch) s' (w'.tcpChans ch) →
      Ready s (w.tcpChans ch) ∨ Done s (w.tcpChans ch) → Done' s' (w'.tcpChans ch))
    (hm : PassMove p V w w') : Passing p Ready Done' k ch w' := by
  obtain ⟨st, s, hst, hch, hs, hstate⟩ := h
  have hstill : ∀ c, Done s c → Done' s c := by
    intro c hd
    exact hdone s c c (.refl c) hd
  cases hm with
  | env hframe =>
    have happ := hframe.chans ch
    refine ⟨st, s, ?_, hch, ?_, ?_⟩
    · rw [hframe.tcpStates]
      exact hst
    · rw [hframe.sockets]
      exact hs
    · rw [hframe.phase]
      rcases hstate with ⟨hph, hr⟩ | ⟨tcp, udp, hph, hr⟩
      · exact .inl ⟨hph, hready s _ _ happ hr⟩
      · refine .inr ⟨tcp, udp, hph, ?_⟩
        rcases hr with ⟨hk, hr⟩ | hd
        · exact .inl ⟨hk, hready s _ _ happ hr⟩
        · exact .inr (hdone s _ _ happ hd)
  | begins tcp udp hph htcp hw =>
    rcases hstate with ⟨-, hr⟩ | ⟨tcp', udp', hph', -⟩
    · have hk : k ∈ tcp := htcp.mem_iff.mpr ((Table.mem_keys_iff _ k).mpr ⟨st, hst⟩)
      rw [hw]
      exact ⟨st, s, hst, hch, hs, .inr ⟨tcp, udp, rfl, .inl ⟨hk, hr⟩⟩⟩
    · exact absurd (hph.symm.trans hph') (p.start_ne tcp' udp')
  | tcp k' tcp udp st' s1 s' c' hph hph' hst' hs1 hpump hV =>
    rcases hstate with ⟨hstart, -⟩ | ⟨tcp0, udp0, hph0, hr⟩
    · exact absurd (hstart.symm.trans hph) (p.start_ne _ _)
    · obtain ⟨htcp, -⟩ := p.inj (hph0.symm.trans hph)
      by_cases hkk : k' = k
      · -- the entry itself is visited
        rw [hkk] at hst' hs1 hpump
        have heq : st' = st := Option.some.inj (hst'.symm.trans hst)
        have hsock : s1 = s := by
          have hsame := hs1.symm.trans hs
          simpa using hsame
        rw [heq, hch] at hpump hV
        rw [hsock] at hV
        have hc' : w'.tcpChans ch = c' := by
          rw [hpump.chans, Function.update_self]
        rw [← hc'] at hV
        obtain ⟨st2, hst2, hch2⟩ := hpump.entry
        refine ⟨st2, s', hst2, hch2, ?_, .inr ⟨tcp, udp, hph', .inr ?_⟩⟩
        · rw [hpump.sockets, AList.lookup_insert]
        · exact hvisit st s s' hst hch hV (hr.imp_left And.right)
      · have hne : st'.chan ≠ ch := fun hc => hkk (hinj k' st' hst' hc)
        have hkeep : w'.tcpChans ch = w.tcpChans ch := by
          rw [hpump.chans]
          exact Function.update_of_ne (Ne.symm hne) _ _
        refine ⟨st, s, ?_, hch, ?_, .inr ⟨tcp, udp, hph', ?_⟩⟩
        · rw [hpump.others k (Ne.symm hkk)]
          exact hst
        · rw [hpump.sockets, AList.lookup_insert_ne (Ne.symm hkk)]
          exact hs
        · rw [hkeep]
          rcases hr with ⟨hk, hr⟩ | hd
          · rw [htcp] at hk
            exact .inl ⟨(List.mem_cons.mp hk).resolve_left (Ne.symm hkk), hr⟩
          · exact .inr (hstill _ hd)
  | gone k' tcp udp hph hst' hw =>
    rcases hstate with ⟨hstart, -⟩ | ⟨tcp0, udp0, hph0, hr⟩
    · exact absurd (hstart.symm.trans hph) (p.start_ne _ _)
    · obtain ⟨htcp, -⟩ := p.inj (hph0.symm.trans hph)
      rw [hw]
      refine ⟨st, s, hst, hch, hs, .inr ⟨tcp, udp, rfl, ?_⟩⟩
      rcases hr with ⟨hk, hr⟩ | hd
      · rw [htcp] at hk
        rcases List.mem_cons.mp hk with hkk | hk
        · rw [← hkk, hst] at hst'
          cases hst'
        · exact .inl ⟨hk, hr⟩
      · exact .inr (hstill _ hd)
  | udp k' udp hph hph' hstates hchans hsockets =>
    rcases hstate with ⟨hstart, -⟩ | ⟨tcp0, udp0, hph0, hr⟩
    · exact absurd (hstart.symm.trans hph) (p.start_ne _ _)
    · obtain ⟨htcp, -⟩ := p.inj (hph0.symm.trans hph)
      refine ⟨st, s, ?_, hch, hsockets k s hs, .inr ⟨[], udp, hph', ?_⟩⟩
      · rw [hstates]
        exact hst
      · rw [hchans]
        rcases hr with ⟨hk, -⟩ | hd
        · rw [htcp] at hk
          cases hk
        · exact .inr (hstill _ hd)

theorem Passing.phase (h : Passing p Ready Done k ch w) :
    w.phase = p.start ∨ ∃ tcp udp, w.phase = p.mid tcp udp := by
  obtain ⟨st, s, -, -, -, hstate⟩ := h
  rcases hstate with ⟨hstart, -⟩ | ⟨tcp, udp, hmid, -⟩
  · exact .inl hstart
  · exact .inr ⟨tcp, udp, hmid⟩

/-- At the end of a pass every entry has been visited. -/
theorem Passing.ended (h : Passing p Ready Done k ch w) (hph : w.phase = p.mid [] []) :
    ∃ st s, w.tcpStates.lookup k = some st ∧ st.chan = ch ∧ w.sockets.lookup k = some (.tcp s) ∧
      Done s (w.tcpChans ch) := by
  obtain ⟨st, s, hst, hch, hs, hstate⟩ := h
  rcases hstate with ⟨hstart, -⟩ | ⟨tcp, udp, hph', hr⟩
  · exact absurd (hstart.symm.trans hph) (p.start_ne _ _)
  · obtain ⟨htcp, -⟩ := p.inj (hph'.symm.trans hph)
    rcases hr with ⟨hk, -⟩ | hd
    · rw [htcp] at hk
      cases hk
    · exact ⟨st, s, hst, hch, hs, hd⟩

end Passing

section Steps

variable {cfg : StackConfig} {a : Action E} {w w' : World T U}

/-- What `process_tcp_write` makes of a socket and its channels. -/
def WriteVisit (N : Smoltcp T U E) (st : TcpSocketState) (s : T) (c : TcpChan) (s' : T)
    (c' : TcpChan) : Prop :=
  s' = (processTcpWrite N s st.pendingWrite c.write).socket ∧
  c' = { c with
    write := (processTcpWrite N s st.pendingWrite c.write).writeRx
    accepted := c.accepted ++ (processTcpWrite N s st.pendingWrite c.write).accepted }

end Steps

/-- The loop over the queued chunks ends with nothing left, or with a full transmit buffer. -/
theorem pullWrites_drains (hN : N.SendContract) (rx : Chan Bytes) (q : List Bytes) (s : T)
    (acc : Bytes) (hs : N.maySend s = true) :
    ((pullWrites N rx q s acc).pendingWrite = none ∧ (pullWrites N rx q s acc).writeRx.queue = []) ∨
    (N.txFree (pullWrites N rx q s acc).socket = 0 ∧
      N.maySend (pullWrites N rx q s acc).socket = true) := by
  induction q generalizing s acc with
  | nil =>
    unfold pullWrites
    split_ifs
    · exact .inl ⟨rfl, rfl⟩
    · exact .inl ⟨rfl, rfl⟩
    · exact .inl ⟨rfl, rfl⟩
  | cons data q ih =>
    unfold pullWrites
    by_cases hc : N.canSend s = true
    · rw [if_pos hc, sendSlice_eq hN hs]
      simp only
      have hfree := hN.send_txFree s data hs
      have hmay := hN.send_maySend s data hs
      split_ifs with hn
      · right
        refine ⟨?_, hmay⟩
        simp only
        omega
      · exact ih _ _ hmay
    · rw [if_neg hc]
      right
      refine ⟨?_, hs⟩
      have hnot : ¬(N.maySend s = true ∧ 0 < N.txFree s) := mt (hN.canSend_iff s).mpr hc
      simp only
      have hzero : ¬0 < N.txFree s := fun hpos => hnot ⟨hs, hpos⟩
      omega

theorem processTcpWrite_drains (hN : N.SendContract) (s : T) (pending : Option Bytes)
    (rx : Chan Bytes) (hs : N.maySend s = true) :
    ((processTcpWrite N s pending rx).pendingWrite = none ∧
      (processTcpWrite N s pending rx).writeRx.queue = []) ∨
    (N.txFree (processTcpWrite N s pending rx).socket = 0 ∧
      N.maySend (processTcpWrite N s pending rx).socket = true) := by
  cases pending with
  | none => exact pullWrites_drains hN rx rx.queue s [] hs
  | some data =>
    unfold processTcpWrite
    simp only [if_pos hs]
    rw [sendSlice_eq hN hs]
    simp only
    have hfree := hN.send_txFree s data hs
    have hmay := hN.send_maySend s data hs
    split_ifs with hn
    · right
      refine ⟨?_, hmay⟩
      simp only
      omega
    · exact pullWrites_drains hN rx rx.queue _ _ hmay

section Runs

variable {cfg : StackConfig} {port : UInt16} {k : SocketHandle} {st : TcpSocketState} {s : T}
  {w u v : World T U} {bs : List (Action E)}

/-- What is still to be done for an entry in a write pass, and what has been done. `data` is what
the application had written when the pass began. -/
def WriteReady (N : Smoltcp T U E) (data : Bytes) (s : T) (c : TcpChan) : Prop :=
  N.maySend s = true ∧ data <+: c.written

def WriteDone (N : Smoltcp T U E) (data : Bytes) (s : T) (c : TcpChan) : Prop :=
  data <+: c.accepted ∨ (N.txFree s = 0 ∧ WriteReady N data s c)

theorem WriteReady.app {data : Bytes} {c d : TcpChan} (hop : AppOp c d)
    (h : WriteReady N data s c) : WriteReady N data s d := by
  refine ⟨h.1, ?_⟩
  rcases hop.write with ⟨-, hw⟩ | ⟨buf, -, hw⟩
  · rw [hw]
    exact h.2
  · rw [hw]
    exact h.2.trans (List.prefix_append _ _)

theorem WriteDone.app {data : Bytes} {c d : TcpChan} (hop : AppOp c d)
    (h : WriteDone N data s c) : WriteDone N data s d := by
  rcases h with hacc | ⟨hfree, hready⟩
  · rw [WriteDone, hop.accepted]
    exact .inl hacc
  · exact .inr ⟨hfree, hready.app hop⟩

/-- The call of `process_tcp_write` for the entry. -/
theorem WriteDone.visit (hN : N.SendContract) {data : Bytes} {c c' : TcpChan} {s' : T}
    (hkept : StreamKept st c) (hV : WriteVisit N st s c s' c')
    (h : WriteReady N data s c ∨ WriteDone N data s c) : WriteDone N data s' c' := by
  obtain ⟨hs', hc'⟩ := hV
  have hready : WriteReady N data s c → WriteDone N data s' c' := by
    intro hr
    have hspec := processTcpWrite_spec hN s st.pendingWrite c.write hkept.2
    rcases processTcpWrite_drains hN s st.pendingWrite c.write hr.1 with ⟨hp, hq⟩ | ⟨hfree, hmay⟩
    · left
      have hall := hspec.stream
      rw [hp, hq] at hall
      simp only [Option.getD_none, List.flatten_nil, List.append_nil] at hall
      rw [hc']
      simp only
      rw [hall, hkept.1]
      exact hr.2
    · rw [← hs'] at hfree hmay
      rw [hc']
      exact .inr ⟨hfree, hmay, hr.2⟩
  rcases h with hr | hacc | ⟨-, hr⟩
  · exact hready hr
  · left
    rw [hc']
    exact hacc.trans (List.prefix_append _ _)
  · exact hready hr

/-- At some point of the run the stream's channel to the application took no more. -/
def WasFull (N : Smoltcp T U E) (cfg : StackConfig) (ch : ChanId) (w : World T U)
    (bs : List (Action E)) : Prop :=
  ∃ cs ds x, bs = cs ++ ds ∧ runActions (World.step N cfg) cs w = some x ∧
    (x.tcpChans ch).read.room = 0

theorem WasFull.later {ch : ChanId} (h : WasFull N cfg ch w bs) (a : Action E) :
    WasFull N cfg ch w (bs ++ [a]) := by
  obtain ⟨cs, ds, x, hbs, hx, hroom⟩ := h
  refine ⟨cs, ds ++ [a], x, ?_, hx, hroom⟩
  rw [hbs, List.append_assoc]

end Runs

end TapTunnel.Stack
