import TapTunnel.Stack.UdpPart

namespace TapTunnel.Stack

open Framework Reference

variable {T U E : Type} {N : Smoltcp T U E}

/-- Length of the IP packet a datagram came in: the IP header of its family without options, the
UDP header and the payload. -/
def ipPacketLen (d : Bytes × IpEndpoint) : Nat :=
  (match d.2.addr.version with
    | .ipv4 => 20
    | .ipv6 => 40) + 8 + d.1.length

/-- The datagram can come over a link with the given MTU. -/
def FitsLink (mtu : UInt16) (d : Bytes × IpEndpoint) : Prop := ipPacketLen d ≤ mtu.toNat

instance (mtu : UInt16) (d : Bytes × IpEndpoint) : Decidable (FitsLink mtu d) :=
  inferInstanceAs (Decidable (_ ≤ _))

/-- A datagram as the application gets it. -/
def toApp (d : Bytes × IpEndpoint) : Bytes × SocketAddr := (d.1, endpointToSocketAddr d.2)

/-- The largest MTU with which every datagram of the link fits the read buffer. -/
def safeMtu : Nat := udpReadBufSize + 28

theorem FitsLink.fitsReadBuf {mtu : UInt16} {d : Bytes × IpEndpoint} (h : FitsLink mtu d)
    (hm : mtu.toNat ≤ safeMtu) : fitsReadBuf d = true := by
  have hlen : d.1.length + 28 ≤ ipPacketLen d := by
    unfold ipPacketLen
    split <;> omega
  unfold FitsLink at h
  unfold safeMtu at hm
  simp only [Stack.fitsReadBuf, decide_eq_true_eq]
  omega

/-- With any larger MTU some datagram of the link does not. -/
theorem fitsLink_iff (mtu : UInt16) :
    (∀ d, FitsLink mtu d → fitsReadBuf d = true) ↔ mtu.toNat ≤ safeMtu := by
  constructor
  · intro h
    by_contra hm
    let d : Bytes × IpEndpoint := (List.replicate (udpReadBufSize + 1) 0, ⟨.ipv4 0, 0⟩)
    have hlen : d.1.length = udpReadBufSize + 1 := List.length_replicate ..
    have hlink : FitsLink mtu d := by
      change 20 + 8 + d.1.length ≤ mtu.toNat
      unfold safeMtu at hm
      omega
    have hfit := h d hlink
    simp only [fitsReadBuf, hlen, decide_eq_true_eq] at hfit
    omega
  · intro hm d hd
    exact hd.fitsReadBuf hm

/-- Where there is room and all datagrams fit the buffer, all are removed and delivered. -/
theorem udpReads_of_fits {rx : List (Bytes × IpEndpoint)} (hfit : ∀ d ∈ rx, fitsReadBuf d = true)
    {room : Nat} (hroom : rx.length ≤ room) : udpReads room rx = rx.map (·, true) := by
  induction rx generalizing room with
  | nil => cases room <;> rfl
  | cons d rx ih =>
    obtain ⟨hd, hrest⟩ := List.forall_mem_cons.mp hfit
    cases room with
    | zero => simp at hroom
    | succ room =>
      rw [udpReads, if_pos hd, ih hrest (by simpa using hroom)]
      rfl

/-- What is delivered of the datagrams has their number only if all of them fit. -/
theorem fits_of_delivered {rx : List (Bytes × IpEndpoint)} (room : Nat)
    (h : (delivered (udpReads room rx)).length = rx.length) : ∀ d ∈ rx, fitsReadBuf d = true := by
  induction rx generalizing room with
  | nil => exact List.forall_mem_nil _
  | cons d rx ih =>
    cases room with
    | zero => simp [udpReads, delivered] at h
    | succ room =>
      unfold udpReads at h
      split_ifs at h with hd
      · refine List.forall_mem_cons.mpr ⟨hd, ih room ?_⟩
        simpa [delivered] using h
      · simp [delivered] at h

theorem delivered_all (rx : List (Bytes × IpEndpoint)) :
    delivered (rx.map (·, true)) = rx.map toApp := by
  induction rx with
  | nil => rfl
  | cons d rx ih =>
    have hcons : delivered ((d, true)::rx.map (·, true)) =
        toApp d::delivered (rx.map (·, true)) := rfl
    rw [List.map_cons, hcons, ih, List.map_cons]

/-- The visit to the socket has passed on all it held, complete and in order. -/
def AllDelivered (V : N.UdpView) (k : SocketHandle) (st : UdpSocketState) (s : U)
    (w w' : World T U) : Prop :=
  (∃ s', w'.sockets.lookup k = some (.udp s') ∧ V.rx s' = []) ∧
    (w'.udpChans st.chan).read.queue = (w.udpChans st.chan).read.queue ++ (V.rx s).map toApp

section Visit

variable {cfg : StackConfig} {w w' : World T U} {k : SocketHandle} {st : UdpSocketState} {s : U}

theorem Owned.readUdp_queues (hf : N.FreshHandles) (V : N.UdpView) (ho : Owned w)
    (hp : w.pumped = some (k, st, s)) (hs : World.step N cfg .readUdp w = some w') :
    let outs := udpReads (w.udpChans st.chan).read.room (V.rx s)
    (w'.udpChans st.chan).read.queue = (w.udpChans st.chan).read.queue ++ delivered outs ∧
      ∃ s', w'.sockets.lookup k = some (.udp s') ∧ outs.map Prod.fst ++ V.rx s' = V.rx s := by
  intro outs
  obtain ⟨p, rfl⟩ := ho.step_readUdp hf hp hs
  obtain ⟨⟨-, -, hrx⟩, hchan, -⟩ := processUdpRead_spec V (w.udpChans st.chan).read
    (w.udpChans st.chan).read.room s [] w.stats
  refine ⟨?_, _, AList.lookup_insert _, hrx⟩
  simp only [World.readUdpEntry, Function.update_self, hchan, List.nil_append]
  rfl

theorem Owned.allDelivered_iff (hf : N.FreshHandles) (V : N.UdpView) (ho : Owned w)
    (hp : w.pumped = some (k, st, s)) (hs : World.step N cfg .readUdp w = some w')
    (hroom : (V.rx s).length ≤ (w.udpChans st.chan).read.room) :
    AllDelivered V k st s w w' ↔ ∀ d ∈ V.rx s, fitsReadBuf d = true := by
  obtain ⟨hqueue, s', hs', hrx⟩ := ho.readUdp_queues hf V hp hs
  constructor
  · rintro ⟨-, hq⟩
    apply fits_of_delivered (w.udpChans st.chan).read.room
    have heq := List.append_cancel_left (hqueue.symm.trans hq)
    rw [heq, List.length_map]
  · intro hfit
    rw [udpReads_of_fits hfit hroom] at hqueue hrx
    refine ⟨⟨s', hs', ?_⟩, ?_⟩
    · simpa [Function.comp_def] using hrx
    · rw [hqueue, delivered_all]

end Visit

/-- When the read pass visits a UDP socket whose channel has room for all that has arrived over
the link, everything is delivered exactly if no payload exceeds the read buffer. That is so for
everything the link can carry exactly if its MTU is at most 9244. -/
theorem udp_all_delivered_iff (N : Smoltcp T U E) (hf : N.FreshHandles) (V : N.UdpView)
    (cfg : StackConfig) (port : UInt16) (w w' : World T U) (h : Reach N cfg port w)
    (k : SocketHandle) (st : UdpSocketState) (s : U) (hp : w.pumped = some (k, st, s))
    (hs : World.step N cfg .readUdp w = some w')
    (hroom : (V.rx s).length ≤ (w.udpChans st.chan).read.room) (mtu : UInt16)
    (hlink : ∀ d ∈ V.rx s, FitsLink mtu d) :
    (AllDelivered V k st s w w' ↔ ∀ d ∈ V.rx s, d.1.length ≤ udpReadBufSize) ∧
    (mtu.toNat ≤ safeMtu → AllDelivered V k st s w w') ∧
    ((∀ d, FitsLink mtu d → d.1.length ≤ udpReadBufSize) ↔ mtu.toNat ≤ safeMtu) := by
  have hall := (Reach.owned hf h).allDelivered_iff hf V hp hs hroom
  have hfits : ∀ d : Bytes × IpEndpoint, fitsReadBuf d = true ↔ d.1.length ≤ udpReadBufSize := by
    simp [fitsReadBuf]
  refine ⟨?_, ?_, ?_⟩
  · simpa only [hfits] using hall
  · exact fun hm => hall.mpr (fun d hd => (hlink d hd).fitsReadBuf hm)
  · simpa only [hfits] using fitsLink_iff mtu

/-- Two datagrams arrive at a UDP socket, whose turn comes in the read pass. -/
def udpArriveRun (first : Bytes) : List (Action RefEvent) :=
  [.issue (.udpBind (.v4 0x0a000002 5000) 0), .command, .beginWrite [] [0], .writeUdp, .endWrite,
    .udpEvent 0 (.datagram first peerEp), .udpEvent 0 (.datagram [1] peerEp), .endPoll true,
    .beginRead [] [0]]

def udpReceiver (first : Bytes) : RefUdp :=
  ⟨some ⟨some (.ipv4 0x0a000002), 5000⟩, [], [(first, peerEp), ([1], peerEp)]⟩

theorem udpArriveRun_reach (first : Bytes) :
    ∃ w w', Reach refNet hostCfg 49152 w ∧ w.pumped = some (0, ⟨0⟩, udpReceiver first) ∧
      (w.udpChans 0).read.room = 512 ∧ World.step refNet hostCfg .readUdp w = some w' := by
  have hrun : ((runActions (World.step refNet hostCfg) (udpArriveRun first)
      (World.init refNet hostCfg 49152)).map fun w =>
        (w.pumped, (w.udpChans 0).read.room, (World.step refNet hostCfg .readUdp w).isSome)) =
      some (some (0, ⟨0⟩, udpReceiver first), 512, true) := rfl
  obtain ⟨w, hw, heq⟩ := Option.map_eq_some_iff.mp hrun
  simp only [Prod.mk.injEq] at heq
  obtain ⟨w', hw'⟩ := Option.isSome_iff_exists.mp heq.2.2
  exact ⟨w, w', Reachable.run _ .start hw, heq.1, heq.2.1, hw'⟩

/-- On a link of MTU 1500 both arrive. -/
theorem udp_all_delivered_iff_ethernet :
    ∃ w w', Reach refNet hostCfg 49152 w ∧ World.step refNet hostCfg .readUdp w = some w' ∧
      AllDelivered refUdpView 0 ⟨0⟩ (udpReceiver [7]) w w' := by
  obtain ⟨w, w', hr, hp, hroom, hs⟩ := udpArriveRun_reach [7]
  refine ⟨w, w', hr, hs, ?_⟩
  refine (udp_all_delivered_iff refNet refNet_freshHandles refUdpView hostCfg 49152 w w' hr
    0 ⟨0⟩ _ hp hs ?_ 1500 ?_).2.1 (by decide)
  · rw [hroom]
    decide
  · decide

/-- With an MTU of 65535 a datagram of 9217 bytes is lost, and the one after it is left behind. -/
theorem udp_large_datagram_lost :
    ∃ (big : Bytes) (w w' : World RefTcp RefUdp) (s' : RefUdp), big.length = 9217 ∧
      Reach refNet hostCfg 49152 w ∧ w.pumped = some (0, ⟨0⟩, udpReceiver big) ∧
      (∀ d ∈ (udpReceiver big).rx, FitsLink 65535 d) ∧ (w.udpChans 0).read.room = 512 ∧
      World.step refNet hostCfg .readUdp w = some w' ∧
      (w'.udpChans 0).read.queue = (w.udpChans 0).read.queue ∧
      w'.sockets.lookup 0 = some (.udp s') ∧ s'.rx = [([1], peerEp)] := by
  obtain ⟨big, hbig⟩ : ∃ big : Bytes, big.length = 9217 := ⟨_, List.length_replicate (a := 0)⟩
  obtain ⟨w, w', hr, hp, hroom, hs⟩ := udpArriveRun_reach big
  obtain ⟨hqueue, s', hs', hrx⟩ := (Reach.owned refNet_freshHandles hr).readUdp_queues
    refNet_freshHandles refUdpView hp hs
  have hlong : fitsReadBuf (big, peerEp) = false := by simp [fitsReadBuf, udpReadBufSize, hbig]
  have houts : udpReads (w.udpChans 0).read.room (udpReceiver big).rx =
      [((big, peerEp), false)] := by
    rw [hroom, udpReceiver, udpReads, hlong]
    rfl
  refine ⟨big, w, w', s', hbig, hr, hp, ?_, hroom, hs, ?_, hs', ?_⟩
  · simp [udpReceiver, FitsLink, ipPacketLen, peerEp, IpAddress.version, hbig]
  · refine hqueue.trans ?_
    change _ ++ delivered (udpReads (w.udpChans 0).read.room (udpReceiver big).rx) = _
    rw [houts]
    exact List.append_nil _
  · change (udpReads (w.udpChans 0).read.room (udpReceiver big).rx).map Prod.fst ++ s'.rx =
      (big, peerEp)::[([1], peerEp)] at hrx
    rw [houts] at hrx
    exact (List.cons.inj hrx).2

end TapTunnel.Stack
