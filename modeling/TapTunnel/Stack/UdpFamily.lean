import TapTunnel.Stack.UdpPart

namespace TapTunnel.Stack

open Framework Reference

variable {T U E : Type} {N : Smoltcp T U E}

/-- The destination is of the family of the socket's own address, if it has a specific one. Where
it is not, smoltcp panics as it emits the datagram. -/
def SameFamily (bound : Option IpListenEndpoint) (dest : IpAddress) : Prop :=
  match bound with
  | some ⟨some a, _⟩ => a.version = dest.version
  | _ => True

/-- `send_slice` refuses the destination. -/
def Unaddressable (dest : IpEndpoint) : Prop := dest.port = 0 ∨ dest.addr.isUnspecified = true

/-- The datagram can be taken from the channel without harm. -/
def Sendable (bound : Option IpListenEndpoint) (dest : IpEndpoint) : Prop :=
  SameFamily bound dest.addr ∨ Unaddressable dest

instance (bound : Option IpListenEndpoint) (dest : IpAddress) :
    Decidable (SameFamily bound dest) := by
  unfold SameFamily
  split <;> infer_instance

instance (bound : Option IpListenEndpoint) (dest : IpEndpoint) :
    Decidable (Sendable bound dest) :=
  inferInstanceAs (Decidable (_ ∨ _ ∨ _))

/-- Condition on a step: an application sends only to destinations of its socket's own family, or
to such as smoltcp refuses. -/
def FamilyKept (V : N.UdpView) (w : World T U) : Action E → Prop
  | .udpSend ch _ addr => ∀ e ∈ w.udpStates.entries, e.2.chan = ch →
      ∀ s ∈ udpIn w.sockets e.1, Sendable (V.endpoint s) (socketAddrToEndpoint addr)
  | _ => True

instance (V : N.UdpView) (w : World T U) (a : Action E) : Decidable (FamilyKept V w a) := by
  rcases a with _ | _ <;> unfold FamilyKept <;> infer_instance

/-- What `send_slice` accepted does not have a refused destination. -/
theorem udpWrites_accepted (V : N.UdpView) (q : List (Bytes × SocketAddr)) (s : U) :
    ∀ e ∈ udpWrites N q s, e.2 = true → ¬Unaddressable (socketAddrToEndpoint e.1.2) := by
  induction q generalizing s with
  | nil => exact List.forall_mem_nil _
  | cons d q ih =>
    obtain ⟨data, dest⟩ := d
    unfold udpWrites
    split_ifs with hcan
    · obtain ⟨res, s', hout⟩ : ∃ res s', N.udpSendSlice s data (socketAddrToEndpoint dest) =
        (res, s') := ⟨_, _, rfl⟩
      simp only [hout]
      cases res with
      | ok u =>
        refine List.forall_mem_cons.mpr ⟨fun _ hun => ?_, ih s'⟩
        have herr := V.send_refused s data _ hun
        rw [hout] at herr
        cases herr
      | error u => exact List.forall_mem_cons.mpr ⟨nofun, ih s'⟩
    · exact List.forall_mem_nil _

/-- Nothing that smoltcp could not emit is in a transmit queue or can get there. -/
structure FamilyBooks (V : N.UdpView) (p : UdpPart U) : Prop where
  tx : ∀ h s, p.socket h = some s → ∀ d ∈ V.tx s, SameFamily (V.endpoint s) d.2.addr
  queue : ∀ h st s, p.states.lookup h = some st → p.socket h = some s →
    ∀ d ∈ (p.chans st.chan).write.queue, Sendable (V.endpoint s) (socketAddrToEndpoint d.2)

namespace FamilyBooks

variable {V : N.UdpView} {p : UdpPart U} {w : World T U}

theorem setChan (h : FamilyBooks V p) (ch : ChanId) {c : UdpChan}
    (hc : ∀ d ∈ c.write.queue, d ∈ (p.chans ch).write.queue) :
    FamilyBooks V { p with chans := Function.update p.chans ch c } := by
  refine ⟨h.tx, fun k st s hk hs d hd => ?_⟩
  by_cases hch : st.chan = ch
  · subst hch
    simp only [Function.update_self] at hd
    exact h.queue k st s hk hs d (hc d hd)
  · simp only [Function.update_of_ne hch] at hd
    exact h.queue k st s hk hs d hd

theorem setSocket (h : FamilyBooks V p) {k : SocketHandle} {s s' : U} (hk : p.socket k = some s)
    (hep : V.endpoint s' = V.endpoint s ∨ V.endpoint s' = none)
    (htx : ∀ d ∈ V.tx s', SameFamily (V.endpoint s') d.2.addr) :
    FamilyBooks V { p with socket := Function.update p.socket k (some s') } := by
  refine ⟨fun k' u hu => ?_, fun k' st u hst hu => ?_⟩
  · by_cases hx : k' = k
    · subst hx
      obtain rfl : s' = u := by simpa using hu
      exact htx
    · exact h.tx k' u ((Function.update_of_ne hx _ _).symm.trans hu)
  · by_cases hx : k' = k
    · subst hx
      obtain rfl : s' = u := by simpa using hu
      intro d hd
      rcases hep with hep | hep
      · rw [hep]
        exact h.queue k' st s hst hk d hd
      · rw [hep]
        exact .inl trivial
    · exact h.queue k' st u hst ((Function.update_of_ne hx _ _).symm.trans hu)

theorem setEntry (h : FamilyBooks V p) {k : SocketHandle} {s s' : U} (hk : p.socket k = some s)
    (hep : V.endpoint s' = V.endpoint s ∨ V.endpoint s' = none)
    (htx : ∀ d ∈ V.tx s', SameFamily (V.endpoint s') d.2.addr) (ch : ChanId) {c : UdpChan}
    (hc : ∀ d ∈ c.write.queue, d ∈ (p.chans ch).write.queue) (stats : UdpStats) :
    FamilyBooks V { p with
      socket := Function.update p.socket k (some s')
      chans := Function.update p.chans ch c
      stats := stats } := by
  have hboth := (h.setSocket hk hep htx).setChan ch hc
  exact ⟨hboth.tx, hboth.queue⟩

/-- `process_udp_write` puts what it takes into the transmit queue of its own socket. -/
theorem processUdpWrite_kept (V : N.UdpView) (rx : Chan (Bytes × SocketAddr))
    (q : List (Bytes × SocketAddr)) (s : U) (stats : UdpStats)
    (hq : ∀ d ∈ q, Sendable (V.endpoint s) (socketAddrToEndpoint d.2))
    (htx : ∀ d ∈ V.tx s, SameFamily (V.endpoint s) d.2.addr) :
    let s' := (processUdpWrite N rx q s stats).1
    (V.endpoint s' = V.endpoint s ∨ V.endpoint s' = none) ∧
      ∀ d ∈ V.tx s', SameFamily (V.endpoint s') d.2.addr := by
  apply processUdpWrite_rule (fun s' => (V.endpoint s' = V.endpoint s ∨ V.endpoint s' = none) ∧
    ∀ d ∈ V.tx s', SameFamily (V.endpoint s') d.2.addr)
  · intro s' d hd hs'
    rw [V.send_endpoint]
    refine ⟨hs'.1, ?_⟩
    obtain ⟨res, s'', hout⟩ : ∃ res s'', N.udpSendSlice s' d.1 (socketAddrToEndpoint d.2) =
      (res, s'') := ⟨_, _, rfl⟩
    rw [hout]
    cases res with
    | error u =>
      rw [V.send_error _ _ _ _ hout]
      exact hs'.2
    | ok u =>
      rw [(V.send_ok _ _ _ _ hout).2.2]
      refine List.forall_mem_append.mpr ⟨hs'.2, List.forall_mem_singleton.mpr ?_⟩
      rcases hs'.1 with hep | hep
      · rw [hep]
        refine (hq d hd).resolve_right (fun hun => ?_)
        have herr := V.send_refused s' d.1 _ hun
        rw [hout] at herr
        cases herr
      · rw [hep]
        trivial
  · intro _ s' _
    obtain ⟨hep, -, htx⟩ := V.close_empty s'
    rw [hep, htx]
    exact ⟨.inr rfl, List.forall_mem_nil _⟩
  · exact ⟨.inl rfl, htx⟩

theorem move {a : Action E} {p : UdpPart U} (ho : UdpOwn w.udpPart) (h : FamilyBooks V w.udpPart)
    (hok : FamilyKept V w a) (hm : UdpMove N w a p) : FamilyBooks V p := by
  cases hm with
  | still n hn ha => exact ⟨h.tx, h.queue⟩
  | send ch buf addr tx hg hc =>
    obtain ⟨-, -, rfl⟩ := Chan.trySend_ok hc
    refine ⟨h.tx, fun k st s hk hs d hd => ?_⟩
    by_cases hch : st.chan = ch
    · subst hch
      simp only [Function.update_self] at hd
      rcases List.mem_append.mp hd with hd | hd
      · exact h.queue k st s hk hs d hd
      · obtain rfl := List.mem_singleton.mp hd
        exact hok ⟨k, st⟩ (AList.mem_lookup_iff.mp hk) rfl s hs
    · simp only [Function.update_of_ne hch] at hd
      exact h.queue k st s hk hs d hd
  | recv ch d rx hg hc => exact h.setChan ch (fun _ hd => hd)
  | drop ch hg => exact h.setChan ch (fun _ hd => hd)
  | bind k s addr c hk hst hs hc =>
    obtain ⟨-, -, htx⟩ := V.bind_new _ s hs
    refine ⟨fun k' u hu => ?_, fun k' st u hk' hu => ?_⟩
    · by_cases hx : k' = k
      · subst hx
        obtain rfl : s = u := by simpa using hu
        rw [htx]
        exact List.forall_mem_nil _
      · exact h.tx k' u ((Function.update_of_ne hx _ _).symm.trans hu)
    · rcases Table.insert_cases hk' with ⟨rfl, rfl⟩ | ⟨hne, hk'⟩
      · rcases hc with rfl | rfl <;> simp [UdpChan.new, UdpChan.dropAppEnds]
      · have hlt : st.chan ≠ w.nextChan := Nat.ne_of_lt (ho.lt k' st hk')
        simp only [Function.update_of_ne hlt]
        exact h.queue k' st u hk' ((Function.update_of_ne hne _ _).symm.trans hu)
  | close k s hs =>
    have hset := h.setSocket (k := k) (udpIn_eq_some.mpr hs)
      (.inr (V.close_empty s).1) (by simp [(V.close_empty s).2.2])
    have hchan : FamilyBooks V { w.udpPart with
        socket := Function.update (udpIn w.sockets) k (some (N.udpClose s))
        chans := releaseUdpState (w.udpStates.lookup k) w.udpChans } := by
      cases hst : w.udpStates.lookup k with
      | none => exact hset
      | some st => exact hset.setChan st.chan (by simp [UdpChan.dropStackEnds, Chan.dropRx])
    refine ⟨hchan.tx, fun k' st u hk' hu => ?_⟩
    exact hchan.queue k' st u (Table.erase_cases hk').2 hu
  | write k st s hst hs hp =>
    rw [World.writeUdpEntry_part]
    obtain ⟨rest, hrest, htake, -⟩ := processUdpWrite_books (N := N) (w.udpChans st.chan).write
      (w.udpChans st.chan).write.queue s w.stats
    have hsock := udpIn_eq_some.mpr hs
    obtain ⟨hep, htx⟩ := processUdpWrite_kept V (w.udpChans st.chan).write
      (w.udpChans st.chan).write.queue s w.stats (h.queue k st s hst hsock) (h.tx k s hsock)
    have hqueue : ∀ d ∈ (processUdpWrite N (w.udpChans st.chan).write
        (w.udpChans st.chan).write.queue s w.stats).2.1.queue,
        d ∈ (w.udpChans st.chan).write.queue := by
      rw [hrest]
      intro d hd
      rw [← htake]
      exact List.mem_append_right _ hd
    exact h.setEntry hsock hep htx st.chan hqueue _
  | read k st s hst hs hp =>
    rw [World.readUdpEntry_part]
    have hsock := udpIn_eq_some.mpr hs
    obtain ⟨⟨hep, htx, -⟩, -⟩ := processUdpRead_spec V (w.udpChans st.chan).read
      (w.udpChans st.chan).read.room s [] w.stats
    refine h.setEntry hsock (.inl hep) ?_ st.chan ?_ _
    · rw [htx, hep]
      exact h.tx k s hsock
    · exact fun _ hd => hd
  | event k e s hs =>
    have hsock := udpIn_eq_some.mpr hs
    obtain ⟨hep, -, htx⟩ := V.process_view e s
    refine h.setSocket hsock (.inl hep) (fun d hd => ?_)
    rw [hep]
    exact h.tx k s hsock d (htx.subset hd)

end FamilyBooks

theorem Reach.familyBooks (hf : N.FreshHandles) {V : N.UdpView} {cfg : StackConfig}
    {port : UInt16} {w : World T U}
    (h : ReachVia (World.step N cfg) (FamilyKept V) (World.init N cfg port) w) :
    FamilyBooks V w.udpPart := by
  refine (Reach.udp_invariant hf (FamilyBooks V) ?_ ?_ h).2
  · exact fun ips p => ⟨nofun, nofun⟩
  · exact fun w a p ho hb hok hm => hb.move ho hok hm

/-- As long as applications send to destinations of the family of the socket's own address, or to
such as smoltcp refuses, no transmit queue holds a datagram of the other family. A datagram of
the other family that is taken from a channel is counted as failed, and the socket stays bound
as long as its application has it. -/
theorem udp_family_kept (N : Smoltcp T U E) (hf : N.FreshHandles) (V : N.UdpView)
    (cfg : StackConfig) (port : UInt16) (w : World T U)
    (h : ReachVia (World.step N cfg) (FamilyKept V) (World.init N cfg port) w) :
    (∀ k s, w.sockets.lookup k = some (.udp s) →
      ∀ d ∈ V.tx s, SameFamily (V.endpoint s) d.2.addr) ∧
    (∀ k st s w', w.pumped = some (k, st, s) → World.step N cfg .writeUdp w = some w' →
      let outs := udpWrites N (w.udpChans st.chan).write.queue s
      (∀ e ∈ outs, ¬SameFamily (V.endpoint s) (socketAddrToEndpoint e.1.2).addr → e.2 = false) ∧
      w'.stats = w.stats.sent outs ∧
      ((w.udpChans st.chan).write.txAlive = true → ∃ s', w'.sockets.lookup k = some (.udp s') ∧
        V.endpoint s' = V.endpoint s)) := by
  have hbooks := Reach.familyBooks hf h
  have ho := Reach.owned hf h
  refine ⟨fun k s hs => hbooks.tx k s (udpIn_eq_some.mpr hs), ?_⟩
  intro k st s w' hp hstep outs
  obtain ⟨hst, hs⟩ := World.pumped_lookup hp
  obtain ⟨p, rfl⟩ := ho.step_writeUdp hf hp hstep
  obtain ⟨rest, -, htake, hstats⟩ := processUdpWrite_books (N := N) (w.udpChans st.chan).write
    (w.udpChans st.chan).write.queue s w.stats
  refine ⟨?_, hstats, ?_⟩
  · intro e he hother
    have hqueued : e.1 ∈ (w.udpChans st.chan).write.queue := by
      rw [← htake]
      exact List.mem_append_left _ (List.mem_map_of_mem he)
    have hun := (hbooks.queue k st s hst (udpIn_eq_some.mpr hs) _ hqueued).resolve_left hother
    by_contra hacc
    exact udpWrites_accepted V _ s e he (by simpa using hacc) hun
  · intro htx
    refine ⟨_, AList.lookup_insert _, ?_⟩
    apply processUdpWrite_rule (fun s' => V.endpoint s' = V.endpoint s)
    · intro s' d _ hs'
      rw [V.send_endpoint]
      exact hs'
    · intro hgone
      rw [htx] at hgone
      cases hgone
    · rfl

/-- A UDP socket is bound to `10.0.0.2:5000` and a datagram sent from it. -/
def udpSendRun (dest : SocketAddr) : List (Action RefEvent) :=
  [.issue (.udpBind (.v4 0x0a000002 5000) 0), .command, .beginWrite [] [0], .writeUdp, .endWrite,
    .endPoll false, .beginRead [] [0], .readUdp, .endRead, .skipPending, .checkDead,
    .udpSend 0 [1] dest, .timeout, .beginWrite [] [0], .writeUdp]

def udpSender (sent : List (Bytes × IpEndpoint)) : RefUdp :=
  ⟨some ⟨some (.ipv4 0x0a000002), 5000⟩, sent, []⟩

theorem udp_family_kept_udpSendRun :
    ∃ w, ReachVia (World.step refNet hostCfg) (FamilyKept refUdpView)
        (World.init refNet hostCfg 49152) w ∧
      w.sockets.lookup 0 = some (.udp (udpSender [([1], peerEp)])) ∧
      ∀ d ∈ (udpSender [([1], peerEp)]).tx, SameFamily (udpSender []).bound d.2.addr := by
  obtain ⟨w, hr, hp⟩ := reachVia_of_run (World.step refNet hostCfg) (FamilyKept refUdpView)
    (udpSendRun (.v4 0x0a000001 50000)) (World.init refNet hostCfg 49152)
    (fun w => decide (w.sockets.lookup 0 = some (.udp (udpSender [([1], peerEp)]))))
    (by decide +kernel)
  have hs := of_decide_eq_true hp
  obtain ⟨hkept, -⟩ := udp_family_kept refNet refNet_freshHandles refUdpView hostCfg 49152 w hr
  exact ⟨w, hr, hs, hkept 0 _ hs⟩

/-- A socket bound to an IPv4 address accepts a datagram for `fd00::1`, counts it as sent and
leaves it for smoltcp to emit. -/
theorem udp_family_mixed :
    ∃ w, Reach refNet hostCfg 49152 w ∧
      w.sockets.lookup 0 = some (.udp (udpSender [([1], ⟨.ipv6 (0xfd00 <<< 112 ||| 1), 9⟩)])) ∧
      ¬SameFamily (udpSender []).bound (.ipv6 (0xfd00 <<< 112 ||| 1)) ∧
      w.stats = ⟨1, 0, 0, 0⟩ := by
  obtain ⟨w, hr, -, hp⟩ := reachable_of_run (World.step refNet hostCfg)
    (udpSendRun (.v6 (0xfd00 <<< 112 ||| 1) 9 0 0)) (World.init refNet hostCfg 49152)
    (fun w => decide (w.sockets.lookup 0 =
        some (.udp (udpSender [([1], ⟨.ipv6 (0xfd00 <<< 112 ||| 1), 9⟩)])) ∧
      w.stats = ⟨1, 0, 0, 0⟩)) (by decide +kernel)
  obtain ⟨hs, hstats⟩ := of_decide_eq_true hp
  exact ⟨w, hr, hs, by decide, hstats⟩

end TapTunnel.Stack
