import TapTunnel.Framework.Passes
import TapTunnel.Stack.Connecting
import TapTunnel.Stack.UdpPart

namespace TapTunnel.Stack

open Framework

variable {T U E : Type} {N : Smoltcp T U E}

namespace World

/-- `poll_write_channels`, with the orders in which the two hash maps list their entries. -/
def pollWriteChannels (N : Smoltcp T U E) (tcp udp : List SocketHandle) (w : World T U) :
    Except Panic (World T U) := do
  let w ← tcp.foldlM (fun w h => w.pumpTcpWrite N h) w
  udp.foldlM (fun w h => w.pumpUdpWrite N h) w

def pollReadChannels (N : Smoltcp T U E) (tcp udp : List SocketHandle) (w : World T U) :
    Except Panic (World T U) := do
  let w ← tcp.foldlM (fun w h => w.pumpTcpRead N h) w
  udp.foldlM (fun w h => w.pumpUdpRead N h) w

end World

/-- The tables of the stack as maps, whose entries have no order, with the channels and the
counters. -/
@[ext] structure Maps (T U : Type) where
  sockets : SocketHandle → Option (Socket T U)
  pending : SocketHandle → Option PendingOp
  listeners : SocketHandle → Option ListenerState
  tcpStates : SocketHandle → Option TcpSocketState
  udpStates : SocketHandle → Option UdpSocketState
  tcpChans : ChanId → TcpChan
  udpChans : ChanId → UdpChan
  stats : UdpStats

def World.maps (w : World T U) : Maps T U where
  sockets h := w.sockets.lookup h
  pending h := w.pending.lookup h
  listeners h := w.listeners.lookup h
  tcpStates h := w.tcpStates.lookup h
  udpStates h := w.udpStates.lookup h
  tcpChans := w.tcpChans
  udpChans := w.udpChans
  stats := w.stats

theorem lookup_insert_update {V : Type} (m : HandleMap V) (h : SocketHandle) (v : V) :
    (fun k => (m.insert h v).lookup k) = Function.update (fun k => m.lookup k) h (some v) := by
  funext k
  rw [Table.lookup_insert_if, Function.update_apply]

theorem lookup_erase_update {V : Type} (m : HandleMap V) (h : SocketHandle) :
    (fun k => (m.erase h).lookup k) = Function.update (fun k => m.lookup k) h none := by
  funext k
  rw [Table.lookup_erase_if, Function.update_apply]

namespace UdpStats

/-- Two amounts of work, counted together. -/
def add (a b : UdpStats) : UdpStats :=
  ⟨a.txPackets + b.txPackets, a.txFailed + b.txFailed, a.rxPackets + b.rxPackets,
    a.rxDropped + b.rxDropped⟩

def zero : UdpStats := ⟨0, 0, 0, 0⟩

theorem add_zero (a : UdpStats) : a.add zero = a := rfl

theorem add_right_comm (a b c : UdpStats) : (a.add b).add c = (a.add c).add b := by
  simp [add, Nat.add_right_comm]

end UdpStats

/-- The counters only run along: they decide nothing, and count the same from any start. -/
theorem processUdpWrite_add (rx : Chan (Bytes × SocketAddr)) (q : List (Bytes × SocketAddr))
    (s : U) (a b : UdpStats) :
    processUdpWrite N rx q s (a.add b) = ((processUdpWrite N rx q s b).1,
      (processUdpWrite N rx q s b).2.1, a.add (processUdpWrite N rx q s b).2.2) := by
  induction q generalizing s b with
  | nil =>
    simp only [processUdpWrite]
    split_ifs <;> rfl
  | cons d q ih =>
    obtain ⟨data, dest⟩ := d
    simp only [processUdpWrite]
    split_ifs
    · split
      · exact ih _ { b with txPackets := b.txPackets + 1 }
      · exact ih _ { b with txFailed := b.txFailed + 1 }
    · rfl

theorem processUdpRead_add (tx : Chan (Bytes × SocketAddr)) (room : Nat) (s : U)
    (got : List (Bytes × SocketAddr)) (a b : UdpStats) :
    processUdpRead N tx room s got (a.add b) = ((processUdpRead N tx room s got b).1,
      (processUdpRead N tx room s got b).2.1, a.add (processUdpRead N tx room s got b).2.2) := by
  induction room generalizing s got b with
  | zero =>
    simp only [processUdpRead]
    split_ifs <;> rfl
  | succ room ih =>
    simp only [processUdpRead]
    split_ifs
    · split
      · exact ih _ _ { b with rxPackets := b.rxPackets + 1 }
      · rfl
    · rfl

/-- What a round does with the entry of a TCP socket, its socket and its channels. -/
abbrev TcpWork (T : Type) := TcpSocketState → T → TcpChan → T × TcpSocketState × TcpChan

/-- What a round does with a UDP socket and its channels, and what it counts. -/
abbrev UdpWork (U : Type) := U → UdpChan → U × UdpChan × UdpStats

def tcpWriteWork (N : Smoltcp T U E) : TcpWork T := fun st s c =>
  let r := processTcpWrite N s st.pendingWrite c.write
  (r.socket, { st with pendingWrite := r.pendingWrite },
    { c with write := r.writeRx, accepted := c.accepted ++ r.accepted })

def tcpReadWork (N : Smoltcp T U E) : TcpWork T := fun st s c =>
  let r := processTcpRead N s c.read
  (r.1, st, { c with read := r.2 })

def udpWriteWork (N : Smoltcp T U E) : UdpWork U := fun s c =>
  let r := processUdpWrite N c.write c.write.queue s .zero
  (r.1, { c with write := r.2.1 }, r.2.2)

def udpReadWork (N : Smoltcp T U E) : UdpWork U := fun s c =>
  let r := processUdpRead N c.read c.read.room s [] .zero
  (r.1, { c with read := r.2.1 }, r.2.2)

namespace Maps

def tcpRound (g : TcpWork T) (m : Maps T U) (h : SocketHandle) : Maps T U :=
  match m.tcpStates h, m.sockets h with
  | some st, some (.tcp s) =>
    let r := g st s (m.tcpChans st.chan)
    { m with
      sockets := Function.update m.sockets h (some (.tcp r.1))
      tcpStates := Function.update m.tcpStates h (some r.2.1)
      tcpChans := Function.update m.tcpChans st.chan r.2.2 }
  | _, _ => m

def udpRound (g : UdpWork U) (m : Maps T U) (h : SocketHandle) : Maps T U :=
  match m.udpStates h, m.sockets h with
  | some st, some (.udp s) =>
    let r := g s (m.udpChans st.chan)
    { m with
      sockets := Function.update m.sockets h (some (.udp r.1))
      udpChans := Function.update m.udpChans st.chan r.2.1
      stats := m.stats.add r.2.2 }
  | _, _ => m

/-- Every entry has a socket and a channel pair of its own. -/
structure Apart (m : Maps T U) : Prop where
  tcpLive : ∀ h st, m.tcpStates h = some st → ∃ s, m.sockets h = some (.tcp s)
  udpLive : ∀ h st, m.udpStates h = some st → ∃ s, m.sockets h = some (.udp s)
  tcpInj : ∀ h h' st st', m.tcpStates h = some st → m.tcpStates h' = some st' →
    st.chan = st'.chan → h = h'
  udpInj : ∀ h h' st st', m.udpStates h = some st → m.udpStates h' = some st' →
    st.chan = st'.chan → h = h'

section Rounds

variable {m : Maps T U} {h k : SocketHandle} {g : TcpWork T} {u : UdpWork U}

theorem tcpRound_none (hst : m.tcpStates h = none) : m.tcpRound g h = m := by
  simp only [tcpRound, hst]

theorem tcpRound_some {st : TcpSocketState} {s : T} (hst : m.tcpStates h = some st)
    (hs : m.sockets h = some (.tcp s)) :
    m.tcpRound g h = { m with
      sockets := Function.update m.sockets h (some (.tcp (g st s (m.tcpChans st.chan)).1))
      tcpStates := Function.update m.tcpStates h (some (g st s (m.tcpChans st.chan)).2.1)
      tcpChans := Function.update m.tcpChans st.chan (g st s (m.tcpChans st.chan)).2.2 } := by
  simp only [tcpRound, hst, hs]

theorem udpRound_none (hst : m.udpStates h = none) : m.udpRound u h = m := by
  simp only [udpRound, hst]

theorem udpRound_some {st : UdpSocketState} {s : U} (hst : m.udpStates h = some st)
    (hs : m.sockets h = some (.udp s)) :
    m.udpRound u h = { m with
      sockets := Function.update m.sockets h (some (.udp (u s (m.udpChans st.chan)).1))
      udpChans := Function.update m.udpChans st.chan (u s (m.udpChans st.chan)).2.1
      stats := m.stats.add (u s (m.udpChans st.chan)).2.2 } := by
  simp only [udpRound, hst, hs]

namespace Apart

theorem tcpRound (hm : m.Apart) (hg : ∀ st s c, (g st s c).2.1.chan = st.chan)
    (h : SocketHandle) : (m.tcpRound g h).Apart := by
  cases hst : m.tcpStates h with
  | none => rwa [tcpRound_none hst]
  | some st =>
    obtain ⟨s, hs⟩ := hm.tcpLive h st hst
    rw [tcpRound_some hst hs]
    -- entries keep their channel pair
    have hold : ∀ k st', Function.update m.tcpStates h
        (some (g st s (m.tcpChans st.chan)).2.1) k = some st' →
        ∃ old, m.tcpStates k = some old ∧ old.chan = st'.chan := by
      intro k st' hk
      by_cases he : k = h
      · rw [he, Function.update_self] at hk
        rw [← Option.some.inj hk, hg]
        exact ⟨st, he ▸ hst, rfl⟩
      · rw [Function.update_of_ne he] at hk
        exact ⟨st', hk, rfl⟩
    refine ⟨fun k st' hk => ?_, fun k st' hk => ?_, fun k k' st1 st2 h1 h2 hc => ?_, hm.udpInj⟩
    · obtain ⟨old, hk, -⟩ := hold k st' hk
      by_cases he : k = h
      · subst he
        exact ⟨_, Function.update_self ..⟩
      · obtain ⟨s', hs'⟩ := hm.tcpLive k old hk
        exact ⟨s', (Function.update_of_ne he _ _).trans hs'⟩
    · obtain ⟨s', hs'⟩ := hm.udpLive k st' hk
      have he : k ≠ h := by
        rintro rfl
        rw [hs] at hs'
        cases hs'
      exact ⟨s', (Function.update_of_ne he _ _).trans hs'⟩
    · obtain ⟨old1, ho1, hc1⟩ := hold k st1 h1
      obtain ⟨old2, ho2, hc2⟩ := hold k' st2 h2
      exact hm.tcpInj k k' old1 old2 ho1 ho2 (by rw [hc1, hc, hc2])

theorem udpRound (hm : m.Apart) (h : SocketHandle) : (m.udpRound u h).Apart := by
  cases hst : m.udpStates h with
  | none => rwa [udpRound_none hst]
  | some st =>
    obtain ⟨s, hs⟩ := hm.udpLive h st hst
    rw [udpRound_some hst hs]
    refine ⟨fun k st' hk => ?_, fun k st' hk => ?_, hm.tcpInj, hm.udpInj⟩
    · obtain ⟨s', hs'⟩ := hm.tcpLive k st' hk
      have he : k ≠ h := by
        rintro rfl
        rw [hs] at hs'
        cases hs'
      exact ⟨s', (Function.update_of_ne he _ _).trans hs'⟩
    · by_cases he : k = h
      · subst he
        exact ⟨_, Function.update_self ..⟩
      · obtain ⟨s', hs'⟩ := hm.udpLive k st' hk
        exact ⟨s', (Function.update_of_ne he _ _).trans hs'⟩

theorem tcpRound_comm (hm : m.Apart) (hne : h ≠ k) :
    (m.tcpRound g h).tcpRound g k = (m.tcpRound g k).tcpRound g h := by
  cases hst : m.tcpStates h with
  | none =>
    rw [tcpRound_none hst]
    cases hst' : m.tcpStates k with
    | none => rw [tcpRound_none hst', tcpRound_none hst]
    | some st' =>
      obtain ⟨s', hs'⟩ := hm.tcpLive k st' hst'
      rw [tcpRound_some hst' hs', tcpRound_none]
      exact (Function.update_of_ne hne _ _).trans hst
  | some st =>
    obtain ⟨s, hs⟩ := hm.tcpLive h st hst
    cases hst' : m.tcpStates k with
    | none =>
      rw [tcpRound_none hst', tcpRound_some hst hs, tcpRound_none]
      exact (Function.update_of_ne hne.symm _ _).trans hst'
    | some st' =>
      obtain ⟨s', hs'⟩ := hm.tcpLive k st' hst'
      have hc : st.chan ≠ st'.chan := fun he => hne (hm.tcpInj h k st st' hst hst' he)
      -- each round finds its entry, socket and channels as the other would have found them
      rw [tcpRound_some hst hs, tcpRound_some hst' hs',
        tcpRound_some ((Function.update_of_ne hne.symm _ _).trans hst')
          ((Function.update_of_ne hne.symm _ _).trans hs'),
        tcpRound_some ((Function.update_of_ne hne _ _).trans hst)
          ((Function.update_of_ne hne _ _).trans hs)]
      simp only [Function.update_of_ne hc, Function.update_of_ne hc.symm]
      rw [Function.update_comm hne, Function.update_comm hne, Function.update_comm hc]

theorem udpRound_comm (hm : m.Apart) (hne : h ≠ k) :
    (m.udpRound u h).udpRound u k = (m.udpRound u k).udpRound u h := by
  cases hst : m.udpStates h with
  | none =>
    rw [udpRound_none hst]
    cases hst' : m.udpStates k with
    | none => rw [udpRound_none hst', udpRound_none hst]
    | some st' =>
      obtain ⟨s', hs'⟩ := hm.udpLive k st' hst'
      rw [udpRound_some hst' hs', udpRound_none]
      exact hst
  | some st =>
    obtain ⟨s, hs⟩ := hm.udpLive h st hst
    cases hst' : m.udpStates k with
    | none =>
      rw [udpRound_none hst', udpRound_some hst hs, udpRound_none]
      exact hst'
    | some st' =>
      obtain ⟨s', hs'⟩ := hm.udpLive k st' hst'
      have hc : st.chan ≠ st'.chan := fun he => hne (hm.udpInj h k st st' hst hst' he)
      rw [udpRound_some hst hs, udpRound_some hst' hs',
        udpRound_some (by exact hst') ((Function.update_of_ne hne.symm _ _).trans hs'),
        udpRound_some (by exact hst) ((Function.update_of_ne hne _ _).trans hs)]
      simp only [Function.update_of_ne hc, Function.update_of_ne hc.symm]
      rw [Function.update_comm hne, Function.update_comm hc, UdpStats.add_right_comm]

end Apart

end Rounds

end Maps

section Polls

variable {v w : World T U}

/-- A round is one on the maps if its work on an entry is. -/
theorem pump_maps {St S : Type} {states : World T U → HandleMap St}
    {get : World T U → SocketHandle → Except Panic S}
    {work : SocketHandle → St → S → World T U → World T U} {h : SocketHandle} {m : Maps T U}
    (hnone : (states v).lookup h = none → m = v.maps)
    (hsome : ∀ st, (states v).lookup h = some st →
      ∃ s, get v h = .ok s ∧ (work h st s v).maps = m) :
    ∃ v', v.pump states get work h = .ok v' ∧ v'.maps = m := by
  cases hst : (states v).lookup h with
  | none => exact ⟨v, World.pump_none hst, (hnone hst).symm⟩
  | some st =>
    obtain ⟨s, hs, hmaps⟩ := hsome st hst
    exact ⟨_, World.pump_some hst hs, hmaps⟩

theorem pumpTcpWrite_maps (hm : v.maps.Apart) (h : SocketHandle) :
    ∃ v', v.pumpTcpWrite N h = .ok v' ∧ v'.maps = v.maps.tcpRound (tcpWriteWork N) h := by
  refine pump_maps (Maps.tcpRound_none (m := v.maps)) (fun st hst => ?_)
  obtain ⟨s, hs⟩ := hm.tcpLive h st hst
  refine ⟨s, World.getTcp_eq hs, ?_⟩
  rw [Maps.tcpRound_some (m := v.maps) hst hs]
  simp only [World.maps, World.writeTcpEntry, lookup_insert_update, tcpWriteWork]

theorem pumpTcpRead_maps (hm : v.maps.Apart) (h : SocketHandle) :
    ∃ v', v.pumpTcpRead N h = .ok v' ∧ v'.maps = v.maps.tcpRound (tcpReadWork N) h := by
  refine pump_maps (Maps.tcpRound_none (m := v.maps)) (fun st hst => ?_)
  obtain ⟨s, hs⟩ := hm.tcpLive h st hst
  refine ⟨s, World.getTcp_eq hs, ?_⟩
  have hsame : Function.update v.maps.tcpStates h (some st) = v.maps.tcpStates :=
    Function.update_eq_self_iff.mpr hst.symm
  rw [Maps.tcpRound_some (m := v.maps) hst hs]
  simp only [tcpReadWork, hsame]
  simp only [World.maps, World.readTcpEntry, lookup_insert_update]

theorem pumpUdpWrite_maps (hm : v.maps.Apart) (h : SocketHandle) :
    ∃ v', v.pumpUdpWrite N h = .ok v' ∧ v'.maps = v.maps.udpRound (udpWriteWork N) h := by
  refine pump_maps (Maps.udpRound_none (m := v.maps)) (fun st hst => ?_)
  obtain ⟨s, hs⟩ := hm.udpLive h st hst
  refine ⟨s, World.getUdp_eq hs, ?_⟩
  have hadd := processUdpWrite_add (N := N) (v.udpChans st.chan).write
    (v.udpChans st.chan).write.queue s v.stats .zero
  rw [UdpStats.add_zero] at hadd
  rw [Maps.udpRound_some (m := v.maps) hst hs]
  simp only [World.maps, World.writeUdpEntry, lookup_insert_update, udpWriteWork, hadd]

theorem pumpUdpRead_maps (hm : v.maps.Apart) (h : SocketHandle) :
    ∃ v', v.pumpUdpRead N h = .ok v' ∧ v'.maps = v.maps.udpRound (udpReadWork N) h := by
  refine pump_maps (Maps.udpRound_none (m := v.maps)) (fun st hst => ?_)
  obtain ⟨s, hs⟩ := hm.udpLive h st hst
  refine ⟨s, World.getUdp_eq hs, ?_⟩
  have hadd := processUdpRead_add (N := N) (v.udpChans st.chan).read
    (v.udpChans st.chan).read.room s [] v.stats .zero
  rw [UdpStats.add_zero] at hadd
  rw [Maps.udpRound_some (m := v.maps) hst hs]
  simp only [World.maps, World.readUdpEntry, lookup_insert_update, udpReadWork, hadd]

/-- A pass over the TCP sockets and then the UDP sockets comes to one result in any order. -/
theorem pass_perm {f u : World T U → SocketHandle → Except Panic (World T U)} {g : TcpWork T}
    {gu : UdpWork U} (hg : ∀ st s c, (g st s c).2.1.chan = st.chan)
    (hf : ∀ v h, v.maps.Apart → ∃ v', f v h = .ok v' ∧ v'.maps = v.maps.tcpRound g h)
    (hu : ∀ v h, v.maps.Apart → ∃ v', u v h = .ok v' ∧ v'.maps = v.maps.udpRound gu h)
    (hm : w.maps.Apart) {tcp tcp' udp udp' : List SocketHandle} (ht : tcp.Nodup)
    (htp : tcp.Perm tcp') (hud : udp.Nodup) (hup : udp.Perm udp') :
    ∃ v v', tcp.foldlM f w >>= (fun w => udp.foldlM u w) = .ok v ∧
      tcp'.foldlM f w >>= (fun w => udp'.foldlM u w) = .ok v' ∧ v'.maps = v.maps := by
  have hrun : ∀ tcp udp : List SocketHandle, ∃ v,
      tcp.foldlM f w >>= (fun w => udp.foldlM u w) = .ok v ∧
        v.maps = udp.foldl (·.udpRound gu) (tcp.foldl (·.tcpRound g) w.maps) := by
    intro tcp udp
    obtain ⟨w1, hw1, hmaps1, ha1⟩ :=
      foldlM_refines hf (fun m h hm => Maps.Apart.tcpRound hm hg h) tcp hm
    obtain ⟨v, hv, hmaps, -⟩ := foldlM_refines hu (fun m h hm => hm.udpRound h) udp ha1
    refine ⟨v, ?_, by rw [hmaps, hmaps1]⟩
    rw [hw1]
    exact hv
  obtain ⟨v, hv, hmaps⟩ := hrun tcp udp
  obtain ⟨v', hv', hmaps'⟩ := hrun tcp' udp'
  refine ⟨v, v', hv, hv', ?_⟩
  have hapart : (tcp.foldl (·.tcpRound g) w.maps).Apart :=
    List.foldlRecOn (motive := Maps.Apart) tcp _ hm (fun m hm h _ => hm.tcpRound hg h)
  rw [hmaps, hmaps', ← foldl_perm Ne.symm (fun m h hm => Maps.Apart.tcpRound hm hg h)
    (fun m h k hne hm => hm.tcpRound_comm hne) htp ht hm]
  exact (foldl_perm Ne.symm (fun m h hm => hm.udpRound h)
    (fun m h k hne hm => hm.udpRound_comm hne) hup hud hapart).symm

theorem Reach.maps_apart (hf : N.FreshHandles) {cfg : StackConfig} {port : UInt16}
    (hr : Reach N cfg port w) : w.maps.Apart where
  tcpLive := (Reach.owned hf hr).live.tcp
  udpLive := (Reach.owned hf hr).live.udp
  tcpInj := (Reach.entries hf (entryRule_true N) hr).inj
  udpInj := (Reach.udpOwn hf hr).inj

theorem pollWriteChannels_perm (hm : w.maps.Apart) {tcp tcp' udp udp' : List SocketHandle}
    (ht : tcp.Nodup) (htp : tcp.Perm tcp') (hud : udp.Nodup) (hup : udp.Perm udp') :
    ∃ v v', w.pollWriteChannels N tcp udp = .ok v ∧ w.pollWriteChannels N tcp' udp' = .ok v' ∧
      v'.maps = v.maps :=
  pass_perm (fun _ _ _ => rfl) (fun _ h hm => pumpTcpWrite_maps hm h)
    (fun _ h hm => pumpUdpWrite_maps hm h) hm ht htp hud hup

theorem pollReadChannels_perm (hm : w.maps.Apart) {tcp tcp' udp udp' : List SocketHandle}
    (ht : tcp.Nodup) (htp : tcp.Perm tcp') (hud : udp.Nodup) (hup : udp.Perm udp') :
    ∃ v v', w.pollReadChannels N tcp udp = .ok v ∧ w.pollReadChannels N tcp' udp' = .ok v' ∧
      v'.maps = v.maps :=
  pass_perm (fun _ _ _ => rfl) (fun _ h hm => pumpTcpRead_maps hm h)
    (fun _ h hm => pumpUdpRead_maps hm h) hm ht htp hud hup

end Polls

section Task

variable {v w : World T U} {cfg : StackConfig} {tcp udp : List SocketHandle}
  {f u : World T U → SocketHandle → Except Panic (World T U)}

/-- The position of the task is of no concern to a round. -/
def IgnoresPhase (f : World T U → SocketHandle → Except Panic (World T U)) : Prop :=
  ∀ v v' h p, f v h = .ok v' → f { v with phase := p } h = .ok { v' with phase := p }

theorem pump_ignoresPhase {St S : Type} {states : World T U → HandleMap St}
    {get : World T U → SocketHandle → Except Panic S}
    {work : SocketHandle → St → S → World T U → World T U}
    (hstates : ∀ v p, states { v with phase := p } = states v)
    (hget : ∀ v h p, get { v with phase := p } h = get v h)
    (hwork : ∀ v h st s p, work h st s { v with phase := p } = { work h st s v with phase := p }) :
    IgnoresPhase fun v h => v.pump states get work h := by
  intro v v' h p hv
  cases hst : (states v).lookup h with
  | none =>
    obtain rfl : v = v' := Except.ok.inj ((World.pump_none hst).symm.trans hv)
    exact World.pump_none ((congrArg (·.lookup h) (hstates v p)).trans hst)
  | some st =>
    have hst' : (states { v with phase := p }).lookup h = some st := by rw [hstates, hst]
    cases hs : get v h with
    | error e =>
      simp only [World.pump, hst, hs] at hv
      cases hv
    | ok s =>
      obtain rfl : work h st s v = v' := Except.ok.inj ((World.pump_some hst hs).symm.trans hv)
      rw [← hwork]
      exact World.pump_some hst' ((hget v h p).trans hs)

/-- The rounds of a pass, taken by the task without interruption, are the loop over the keys. -/
theorem runActions_rounds {a : Action E} (phase : List SocketHandle → Phase)
    (hstep : ∀ h l v, v.phase = phase (h::l) →
      World.step N cfg a v = some (v.continueAt (phase l) (f v h)))
    (hphase : IgnoresPhase f) {l : List SocketHandle} (h : l.foldlM f w = .ok v) :
    runActions (World.step N cfg) (List.replicate l.length a) { w with phase := phase l } =
      some { v with phase := phase [] } := by
  induction l generalizing w with
  | nil =>
    obtain rfl : w = v := Except.ok.inj h
    rfl
  | cons k l ih =>
    rw [List.foldlM_cons] at h
    cases hk : f w k with
    | error p =>
      rw [hk] at h
      cases h
    | ok u =>
      rw [hk] at h
      rw [List.length_cons, List.replicate_succ, runActions_cons, hstep k l _ rfl,
        hphase w u k _ hk]
      exact ih (w := u) h

/-- The same for a whole pass, with the steps before and after its rounds. -/
theorem runActions_pass {start stop a b : Action E}
    (phase : List SocketHandle → List SocketHandle → Phase) {next : Phase}
    (hstart : World.step N cfg start w = some { w with phase := phase tcp udp })
    (ha : ∀ h l v, v.phase = phase (h::l) udp →
      World.step N cfg a v = some (v.continueAt (phase l udp) (f v h)))
    (hb : ∀ h l v, v.phase = phase [] (h::l) →
      World.step N cfg b v = some (v.continueAt (phase [] l) (u v h)))
    (hstop : ∀ v, v.phase = phase [] [] → World.step N cfg stop v = some { v with phase := next })
    (hf : IgnoresPhase f) (hu : IgnoresPhase u)
    (h : tcp.foldlM f w >>= (fun w => udp.foldlM u w) = .ok v) :
    runActions (World.step N cfg) (start::(List.replicate tcp.length a ++
      (List.replicate udp.length b ++ [stop]))) w = some { v with phase := next } := by
  cases h1 : tcp.foldlM f w with
  | error p =>
    rw [h1] at h
    cases h
  | ok w1 =>
    rw [h1] at h
    have hrounds := runActions_rounds (fun l => phase l udp) ha hf h1
    have hrounds' := runActions_rounds (phase []) hb hu (w := w1) h
    rw [runActions_cons, hstart, Option.bind_some, runActions_append _ hrounds,
      runActions_append _ hrounds', runActions_cons, hstop _ rfl]
    rfl

/-- Steps of the task itself. -/
theorem step_stackStep {a : Action E} (hrun : w.Running) (ha : w.envStep a = none) :
    World.step N cfg a w = w.stackStep N cfg a := by
  rw [World.step, if_pos hrun, ha, Option.none_or]

/-- A write pass that the task takes without interruption is a call of `poll_write_channels`. -/
theorem pollWriteChannels_run (hph : w.phase = .startWrite) (ht : tcp.Perm w.tcpStates.keys)
    (hu : udp.Perm w.udpStates.keys) (h : w.pollWriteChannels N tcp udp = .ok v) :
    runActions (World.step N cfg) (.beginWrite tcp udp::(List.replicate tcp.length .writeTcp ++
      (List.replicate udp.length .writeUdp ++ [.endWrite]))) w =
        some { v with phase := .poll } := by
  refine runActions_pass .write ?_ (fun k l v hv => ?_) (fun k l v hv => ?_)
    (fun v hv => ?_)
    (pump_ignoresPhase (fun _ _ => rfl) (fun _ _ _ => rfl) (fun _ _ _ _ _ => rfl))
    (pump_ignoresPhase (fun _ _ => rfl) (fun _ _ _ => rfl) (fun _ _ _ _ _ => rfl)) h
  · rw [step_stackStep (by simp [World.Running, hph]) rfl]
    simp only [World.stackStep, hph]
    rw [if_pos ⟨List.isPerm_iff.mpr ht, List.isPerm_iff.mpr hu⟩]
  all_goals
    rw [step_stackStep (by simp [World.Running, hv]) rfl]
    simp only [World.stackStep, hv, World.pumpTcpWrite, World.pumpUdpWrite]

theorem pollReadChannels_run {changed : Bool} (hph : w.phase = .startRead changed)
    (ht : tcp.Perm w.tcpStates.keys) (hu : udp.Perm w.udpStates.keys)
    (h : w.pollReadChannels N tcp udp = .ok v) :
    runActions (World.step N cfg) (.beginRead tcp udp::(List.replicate tcp.length .readTcp ++
      (List.replicate udp.length .readUdp ++ [.endRead]))) w =
        some { v with phase := .pend changed } := by
  refine runActions_pass (fun l l' => .read l l' changed) ?_ (fun k l v hv => ?_)
    (fun k l v hv => ?_) (fun v hv => ?_)
    (pump_ignoresPhase (fun _ _ => rfl) (fun _ _ _ => rfl) (fun _ _ _ _ _ => rfl))
    (pump_ignoresPhase (fun _ _ => rfl) (fun _ _ _ => rfl) (fun _ _ _ _ _ => rfl)) h
  · rw [step_stackStep (by simp [World.Running, hph]) rfl]
    simp only [World.stackStep, hph]
    rw [if_pos ⟨List.isPerm_iff.mpr ht, List.isPerm_iff.mpr hu⟩]
  all_goals
    rw [step_stackStep (by simp [World.Running, hv]) rfl]
    simp only [World.stackStep, hv, World.pumpTcpRead, World.pumpUdpRead]

end Task

end TapTunnel.Stack
