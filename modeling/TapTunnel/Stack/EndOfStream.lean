import TapTunnel.Stack.Entries
import TapTunnel.Stack.HandleSafety

namespace TapTunnel.Stack

open Framework Reference

variable {T U E : Type} {N : Smoltcp T U E}

/-- The socket under `k` can never deliver another byte, and no connect is pending on it. -/
def connectionOver (N : Smoltcp T U E) (w : World T U) (k : SocketHandle) : Bool :=
  match w.pending.lookup k, w.sockets.lookup k with
  | some (.tcpConnect _ _ _ _), _ => false
  | _, some (.tcp s) => (N.rxBuf s).isEmpty && (N.tcpState s).recvOver
  | _, _ => false

def ReadTxHeld (_ : TcpSocketState) (c : TcpChan) : Prop := c.read.txAlive = true

theorem readTxHeld_rule : EntryRule N ReadTxHeld where
  new _ := rfl
  app _ _ _ h hop := hop.readTx.trans h
  write _ _ _ h := h
  read _ _ _ h := h

/-- The end of a connection that is over has been passed on: `read_tx` is gone. -/
def EndReported (N : Smoltcp T U E) (w : World T U) (k : SocketHandle) : Prop :=
  connectionOver N w k = true →
    ∀ st, w.tcpStates.lookup k = some st → (w.tcpChans st.chan).read.txAlive = false

/-- For an entry of `tcp_states` the end of its connection is never reported: the stack holds
`read_tx` as long as the entry exists, and a stream that has been read to the end waits. -/
theorem end_never_reported (N : Smoltcp T U E) (hf : N.FreshHandles) (cfg : StackConfig)
    (port : UInt16) (w : World T U) (h : Reach N cfg port w) (k : SocketHandle)
    (st : TcpSocketState) (hst : w.tcpStates.lookup k = some st) :
    (EndReported N w k ↔ connectionOver N w k = false) ∧
    ∀ len, (w.tcpChans st.chan).readBuf = [] → (w.tcpChans st.chan).read.queue = [] →
      (TcpStream.read len (w.tcpChans st.chan)).1 = .pending := by
  have hheld : (w.tcpChans st.chan).read.txAlive = true :=
    (Reach.entries hf readTxHeld_rule h).good k st hst
  refine ⟨⟨fun hrep => ?_, fun hn ho => ?_⟩,
    fun len hb hq => TcpStream.read_pending len _ hb hq hheld⟩
  · by_contra hover
    have hgone := hrep (by simpa using hover) st hst
    rw [hheld] at hgone
    cases hgone
  · rw [hn] at ho
    cases ho

/-- The peer of an accepted stream sends its FIN. -/
def peerFinRun : List (Action RefEvent) :=
  acceptRun ++ .timeout::iteration [0] [(0, .fin)] none

/-- Entry 0 is in `CloseWait` with nothing left to read at the head of the loop. -/
def closeWaitAtHead (w : World RefTcp RefUdp) : Bool :=
  decide (w.phase = .select) && connectionOver refNet w 0 && (w.tcpStates.lookup 0).isSome

theorem end_never_reported_peerFinRun :
    ∃ w, Reach refNet hostCfg 49152 w ∧ connectionOver refNet w 0 = true ∧
      ¬EndReported refNet w 0 := by
  obtain ⟨w, hr, -, hp⟩ := reachable_of_run (World.step refNet hostCfg) peerFinRun
    (World.init refNet hostCfg 49152) closeWaitAtHead (by decide +kernel)
  simp only [closeWaitAtHead, Bool.and_eq_true, decide_eq_true_eq] at hp
  obtain ⟨⟨-, hover⟩, hsome⟩ := hp
  obtain ⟨st, hst⟩ := Option.isSome_iff_exists.mp hsome
  refine ⟨w, hr, hover, fun hrep => ?_⟩
  have hn := (end_never_reported refNet refNet_freshHandles hostCfg 49152 w hr 0 st hst).1.mp hrep
  rw [hover] at hn
  cases hn

/-- The peer has closed and everything is read, but reading on waits instead of reporting
the end. -/
theorem end_missed_after_fin :
    ∃ w st, Reach refNet hostCfg 49152 w ∧ w.phase = .select ∧
      w.tcpStates.lookup 0 = some st ∧ connectionOver refNet w 0 = true ∧
      (w.tcpChans st.chan).read.txAlive = true ∧
      (TcpStream.read 16 (w.tcpChans st.chan)).1 = .pending := by
  obtain ⟨w, hr, -, hp⟩ := reachable_of_run (World.step refNet hostCfg) peerFinRun
    (World.init refNet hostCfg 49152) (fun w => closeWaitAtHead w && decide
      ((w.tcpStates.lookup 0).map (fun st => ((w.tcpChans st.chan).read.txAlive,
        (TcpStream.read 16 (w.tcpChans st.chan)).1)) = some (true, .pending)))
    (by decide +kernel)
  simp only [closeWaitAtHead, Bool.and_eq_true, decide_eq_true_eq] at hp
  obtain ⟨⟨⟨hph, hover⟩, -⟩, hread⟩ := hp
  obtain ⟨st, hst, he⟩ := Option.map_eq_some_iff.mp hread
  exact ⟨w, st, hr, hph, hst, hover, congrArg Prod.fst he, congrArg Prod.snd he⟩

end TapTunnel.Stack
