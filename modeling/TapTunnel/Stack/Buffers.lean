import TapTunnel.Framework.Holders
import TapTunnel.Stack.HandleSafety
import TapTunnel.Stack.AnswersOnce
import TapTunnel.Stack.TcpPart
import TapTunnel.Stack.UdpPart
import TapTunnel.Net.Views

namespace TapTunnel.Stack

open Framework Reference

variable {T U E : Type} {N : Smoltcp T U E}

/-- The bounds on the buffers of a TCP stream. -/
structure TcpChan.Bounded (c : TcpChan) : Prop where
  write : c.write.Within tcpChannelCapacity (fun _ => True)
  read : c.read.Within tcpChannelCapacity
    (fun chunk => chunk ≠ [] ∧ chunk.length ≤ tcpSocketBufferSize)
  readBuf : c.readBuf.length ≤ tcpSocketBufferSize

namespace TcpChan.Bounded

variable {c d : TcpChan}

theorem new : TcpChan.new.Bounded := ⟨.new _ _, .new _ _, Nat.zero_le _⟩

theorem dropStackEnds (h : c.Bounded) : c.dropStackEnds.Bounded :=
  ⟨h.write.dropRx, h.read.dropTx, h.readBuf⟩

/-- A read takes a chunk out of the queue, and leaves less than it in the buffer. -/
theorem streamRead (h : c.Bounded) (len : Nat) : (TcpStream.read len c).2.Bounded := by
  unfold TcpStream.read
  split_ifs
  · split
    · next data rx hrx =>
      have hdata := h.read.all data (by rw [(Chan.tryRecv_ok hrx).1]; exact List.mem_cons_self)
      refine ⟨h.write, h.read.tryRecv hrx, ?_⟩
      have hdrop : (data.drop len).length ≤ data.length := by simp
      exact Nat.le_trans hdrop hdata.2
    · exact h
    · exact h
  · refine ⟨h.write, h.read, ?_⟩
    have hdrop : (c.readBuf.drop len).length ≤ c.readBuf.length := by simp
    exact Nat.le_trans hdrop h.readBuf

theorem appMove (h : c.Bounded) (hm : AppMove c d) : d.Bounded := by
  cases hm with
  | write buf tx hs => exact ⟨h.write.trySend trivial hs, h.read, h.readBuf⟩
  | read len => exact h.streamRead len
  | dropWriteTx => exact ⟨h.write.dropTx, h.read, h.readBuf⟩
  | dropReadRx => exact ⟨h.write, h.read.dropRx, Nat.zero_le _⟩
  | dropAppEnds => exact ⟨h.write.dropTx, h.read.dropRx, Nat.zero_le _⟩

/-- All that waits for the application: the chunks of the channel and the left-over one. -/
theorem ahead_le (h : c.Bounded) :
    c.ahead.length ≤ (tcpChannelCapacity+1) * tcpSocketBufferSize := by
  have hsum : (c.read.queue.map List.length).sum ≤ c.read.queue.length * tcpSocketBufferSize := by
    have hle := List.sum_le_card_nsmul (c.read.queue.map List.length) tcpSocketBufferSize (by
      intro n hn
      obtain ⟨chunk, hc, rfl⟩ := List.mem_map.mp hn
      exact (h.read.all chunk hc).2)
    simpa using hle
  have hcount : c.read.queue.length * tcpSocketBufferSize ≤
      tcpChannelCapacity * tcpSocketBufferSize :=
    Nat.mul_le_mul_right _ h.read.length
  have hbuf := h.readBuf
  rw [TcpChan.ahead, List.length_append, List.length_flatten, Nat.add_mul, Nat.one_mul]
  omega

end TcpChan.Bounded

section Tcp

theorem bounded_release {m : ChanId → TcpChan} (h : ∀ ch, (m ch).Bounded)
    (old : Option TcpSocketState) (ch : ChanId) : (releaseTcpState old m ch).Bounded := by
  cases old with
  | none => exact h ch
  | some st => exact forall_update h (h st.chan).dropStackEnds st.chan ch

/-- Step lemma: a pass of `process_tcp_read` adds chunks only where it has reserved a place. -/
theorem TcpMove.bounded (hR : N.RecvContract) {p q : TcpPart} (h : ∀ ch, (p.chans ch).Bounded)
    (hm : TcpMove N p q) : ∀ ch, (q.chans ch).Bounded := by
  cases hm with
  | @app ch c hc => exact forall_update h ((h ch).appMove hc) ch
  | name | give => exact h
  | create k => exact bounded_release (forall_update h .new p.next) _
  | remove k => exact bounded_release h _
  | @write k st hk s =>
    obtain ⟨rest, hrest, hrx⟩ :=
      processTcpWrite_takes (N := N) s st.pendingWrite (p.chans st.chan).write
    apply forall_update h
    refine ⟨?_, (h st.chan).read, (h st.chan).readBuf⟩
    rw [hrx]
    exact (h st.chan).write.suffix hrest
  | @read k st hk s =>
    obtain ⟨new, hnew, hall, hroom⟩ := processTcpRead_chunks (N := N)
      (fun chunk => chunk ≠ [] ∧ chunk.length ≤ tcpSocketBufferSize) (by
        intro s data s' hcan hrecv hlen
        obtain ⟨data', s'', hrecv', hne, hle, -⟩ := hR.recv_ok s tcpSocketBufferSize hcan
          (by decide)
        rw [hrecv] at hrecv'
        obtain rfl := Except.ok.inj (congrArg Prod.fst hrecv')
        exact ⟨hne, hle⟩) s (p.chans st.chan).read
    apply forall_update h
    refine ⟨(h st.chan).write, ?_, (h st.chan).readBuf⟩
    rw [hnew]
    exact (h st.chan).read.append hall hroom

end Tcp

section Udp

/-- The bounds on the buffers of a UDP socket. -/
structure UdpChan.Bounded (c : UdpChan) : Prop where
  write : c.write.Within udpChannelCapacity (fun _ => True)
  read : c.read.Within udpChannelCapacity (fun d => d.1.length ≤ udpReadBufSize)

theorem UdpChan.Bounded.new : UdpChan.new.Bounded := ⟨.new _ _, .new _ _⟩

theorem UdpChan.Bounded.dropAppEnds {c : UdpChan} (h : c.Bounded) : c.dropAppEnds.Bounded :=
  ⟨h.write.dropTx, h.read.dropRx⟩

/-- Step lemma: a datagram longer than the read buffer is not passed on. -/
theorem UdpMove.bounded (V : N.UdpView) {w : World T U} {a : Action E} {p : UdpPart U}
    (h : ∀ ch, (w.udpChans ch).Bounded) (hm : UdpMove N w a p) : ∀ ch, (p.chans ch).Bounded := by
  cases hm with
  | still | event => exact h
  | send ch buf addr tx hg hc =>
    have hch : UdpChan.Bounded { w.udpChans ch with write := tx } :=
      ⟨(h ch).write.trySend trivial hc, (h ch).read⟩
    exact forall_update h hch ch
  | recv ch d rx hg hc =>
    have hch : UdpChan.Bounded { w.udpChans ch with read := rx } :=
      ⟨(h ch).write, (h ch).read.tryRecv hc⟩
    exact forall_update h hch ch
  | drop ch hg => exact forall_update h (h ch).dropAppEnds ch
  | bind k s addr c hk hst hs hc =>
    apply forall_update h
    rcases hc with rfl | rfl
    · exact .new
    · exact UdpChan.Bounded.new.dropAppEnds
  | close k s hs =>
    intro ch
    unfold releaseUdpState
    split
    · next st hst =>
      exact forall_update h ⟨(h st.chan).write.dropRx, (h st.chan).read.dropTx⟩ st.chan ch
    · exact h ch
  | write k st s hst hs hp =>
    obtain ⟨rest, hrx, hrest, -⟩ := processUdpWrite_books (N := N) (w.udpChans st.chan).write
      (w.udpChans st.chan).write.queue s w.stats
    rw [World.writeUdpEntry_part]
    apply forall_update h
    refine ⟨?_, (h st.chan).read⟩
    rw [hrx]
    exact (h st.chan).write.suffix ⟨_, hrest⟩
  | read k st s hst hs hp =>
    obtain ⟨new, hnew, hall, hroom⟩ := processUdpRead_got (N := N)
      (fun d => d.1.length ≤ udpReadBufSize) (by
        intro s data ep s' hcan hrecv
        have hrx : V.rx s ≠ [] := (V.canRecv_iff s).mp hcan
        obtain ⟨d, rest, hcons⟩ := List.exists_cons_of_ne_nil hrx
        obtain ⟨s'', hout, -⟩ := V.recv s d rest udpReadBufSize hcons
        rw [hrecv] at hout
        have hfst := congrArg Prod.fst hout
        dsimp only at hfst
        split_ifs at hfst with hlen
        rw [← Except.ok.inj hfst] at hlen
        exact hlen) (w.udpChans st.chan).read (w.udpChans st.chan).read.room s [] w.stats
    rw [World.readUdpEntry_part]
    apply forall_update h
    refine ⟨(h st.chan).write, ?_⟩
    rw [hnew, List.nil_append]
    exact (h st.chan).read.append hall hroom

end Udp

section Commands

theorem World.envStep_commands_within {w w' : World T U} {a : Action E}
    (hc : w.commands.Within commandChannelCapacity (fun _ => True)) (h : w.envStep a = some w') :
    w'.commands.Within commandChannelCapacity (fun _ => True) := by
  cases a with
  | issue cmd =>
    simp only [envStep] at h
    split_ifs at h <;>
    · split at h
      · next q hs =>
        obtain rfl := Option.some.inj h
        exact hc.trySend trivial hs
      · cases h
  | dropCommands =>
    obtain rfl := Option.some.inj h
    exact hc.dropTx
  | cancel | foreignPort | ipcDies =>
    obtain rfl := Option.some.inj h
    exact hc
  | streamRead | dropWriteTx | dropReadRx | dropUdp =>
    simp only [envStep] at h
    split_ifs at h
    obtain rfl := Option.some.inj h
    exact hc
  | streamWrite | udpSend | udpRecv =>
    simp only [envStep] at h
    split_ifs at h
    split at h
    · obtain rfl := Option.some.inj h
      exact hc
    · cases h
  | _ => cases h

/-- Step lemma for the command channel. -/
theorem Owned.step_commands_within (hf : N.FreshHandles) {cfg : StackConfig} {w w' : World T U}
    {a : Action E} (ho : Owned w) (hc : w.commands.Within commandChannelCapacity (fun _ => True))
    (h : World.step N cfg a w = some w') :
    w'.commands.Within commandChannelCapacity (fun _ => True) := by
  cases ho.step_transition hf h with
  | env he => exact World.envStep_commands_within hc he
  | control | writeTcp | writeUdp | tcpEvent | udpEvent | readTcp | readUdp => exact hc
  | command cmd rest hph hq he =>
    have hstep := (World.step_command hq h).2
    have hpop : w.commands.queue =
        cmd::({ w.commands with queue := rest.queue } : Chan _).queue := hq
    rcases (ho.popCommand hpop (w.received ++ cmd.response.toList)).handleCommand_effect hf cfg
      (ho.headAllowed hq) with ⟨p, -, -, hp⟩ | ⟨w1, hw1, heff⟩
    · rw [hstep, hp]
      exact hc
    · rw [hstep, hw1]
      have hcmds := heff.requests.1
      change w1.commands.Within _ _
      rw [hcmds]
      apply hc.suffix
      rw [hq]
      exact List.suffix_cons _ _
  | @pending _ v order he =>
    have hcmds : v.commands = w.commands :=
      Effect.path_rule (·.commands = w.commands) rfl (fun _ _ hu he => he.requests.1.trans hu) he
    change v.commands.Within _ _
    rw [hcmds]
    exact hc
  | fail =>
    have hcmds : w.failPending.commands = w.commands :=
      World.failOps_rule (·.commands = w.commands) _ rfl (fun _ _ _ _ hv => hv)
    change w.failPending.commands.Within _ _
    rw [hcmds]
    exact hc

theorem Reach.commands_within (hf : N.FreshHandles) {cfg : StackConfig} {port : UInt16}
    {w : World T U} (h : Reach N cfg port w) :
    w.commands.Within commandChannelCapacity (fun _ => True) := by
  apply h.invariant_with _ (fun w => w.commands.Within commandChannelCapacity (fun _ => True)) Owned
    (fun _ hr => Reach.owned hf hr)
  · obtain ⟨ips, p, he, -⟩ := init_cases N cfg port
    rw [he]
    exact .new _ _
  · intro s t a ho hs _ hstep
    exact ho.step_commands_within hf hs hstep

end Commands

/-- The memory that the stack task and the application share is bounded, whatever either side
does: 256 commands, and for each TCP stream 8 chunks in either direction, those on their way to the
application non-empty and no longer than the socket's buffer, so that at most 9 times that many
bytes wait for the application; for each UDP socket 512 datagrams in either direction, those on
their way to the application no longer than the read buffer. -/
theorem buffers_bounded (N : Smoltcp T U E) (hf : N.FreshHandles) (hR : N.RecvContract)
    (V : N.UdpView) (cfg : StackConfig) (port : UInt16) (w : World T U) (h : Reach N cfg port w) :
    w.commands.queue.length ≤ 256 ∧
    (∀ ch, (w.tcpChans ch).write.queue.length ≤ 8 ∧ (w.tcpChans ch).read.queue.length ≤ 8 ∧
      (∀ chunk ∈ (w.tcpChans ch).read.queue, 0 < chunk.length ∧ chunk.length ≤ 65535) ∧
      (w.tcpChans ch).ahead.length ≤ 9*65535) ∧
    (∀ ch, (w.udpChans ch).write.queue.length ≤ 512 ∧ (w.udpChans ch).read.queue.length ≤ 512 ∧
      ∀ d ∈ (w.udpChans ch).read.queue, d.1.length ≤ 9216) := by
  have htcp := Reach.tcp_invariant hf (fun p => ∀ ch, (p.chans ch).Bounded) (fun _ => .new)
    (fun _ _ hp hm => hm.bounded hR hp) h
  have hudp := (Reach.udp_invariant hf (fun p => ∀ ch, (p.chans ch).Bounded) (fun _ _ _ => .new)
    (fun _ _ _ _ hp _ hm => hm.bounded V hp) h).2
  refine ⟨(Reach.commands_within hf h).length, fun ch => ?_, fun ch => ?_⟩
  · have hch := htcp ch
    refine ⟨hch.write.length, hch.read.length, fun chunk hc => ?_, hch.ahead_le⟩
    exact ⟨List.length_pos_iff.mpr (hch.read.all chunk hc).1, (hch.read.all chunk hc).2⟩
  · have hch := hudp ch
    exact ⟨hch.write.length, hch.read.length, hch.read.all⟩

/-- Three bytes wait for the reader of an accepted connection. -/
theorem buffers_bounded_acceptRun : ∃ w : World RefTcp RefUdp, Reach refNet hostCfg 49152 w ∧
    (w.tcpChans 0).ahead = [1, 2, 3] ∧ (w.tcpChans 0).read.queue.length ≤ 8 := by
  obtain ⟨w, hw, -, hp⟩ := reachable_of_run (World.step refNet hostCfg)
    (acceptRun ++ .timeout::iteration [0] [(0, .data [1, 2, 3])] none)
    (World.init refNet hostCfg 49152) (fun w => decide ((w.tcpChans 0).ahead = [1, 2, 3]))
    (by decide +kernel)
  obtain ⟨-, htcp, -⟩ := buffers_bounded refNet refNet_freshHandles refNet_recvContract refUdpView
    hostCfg 49152 w hw
  exact ⟨w, hw, of_decide_eq_true hp, (htcp 0).2.1⟩

end TapTunnel.Stack
