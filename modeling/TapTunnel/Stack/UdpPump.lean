import TapTunnel.Net.Views
import TapTunnel.Stack.Pump

namespace TapTunnel.Stack

open Framework

variable {T U E : Type} {N : Smoltcp T U E}

section Write

/-- The datagrams that one call of `process_udp_write` takes from the channel, each with whether
`send_slice` accepted it. -/
def udpWrites (N : Smoltcp T U E) :
    List (Bytes × SocketAddr) → U → List ((Bytes × SocketAddr) × Bool)
  | [], _ => []
  | (data, dest)::q, s =>
    if N.udpCanSend s then
      match N.udpSendSlice s data (socketAddrToEndpoint dest) with
      | (.ok _, s') => ((data, dest), true)::udpWrites N q s'
      | (.error _, s') => ((data, dest), false)::udpWrites N q s'
    else []

def UdpStats.sent (stats : UdpStats) (outs : List ((Bytes × SocketAddr) × Bool)) : UdpStats :=
  { stats with
    txPackets := stats.txPackets + outs.countP (·.2)
    txFailed := stats.txFailed + outs.countP (!·.2) }

theorem UdpStats.sent_cons (stats : UdpStats) (d : Bytes × SocketAddr)
    (outs : List ((Bytes × SocketAddr) × Bool)) (ok : Bool) :
    stats.sent ((d, ok)::outs) =
      (if ok then { stats with txPackets := stats.txPackets + 1 }
        else { stats with txFailed := stats.txFailed + 1 }).sent outs := by
  cases ok
  · simp [sent, Nat.add_assoc, Nat.add_comm]
  · simp [sent, Nat.add_assoc, Nat.add_comm]

/-- What is taken is taken from the front and counted once; the rest stays queued. -/
theorem processUdpWrite_books (rx : Chan (Bytes × SocketAddr)) (q : List (Bytes × SocketAddr))
    (s : U) (stats : UdpStats) :
    ∃ rest, (processUdpWrite N rx q s stats).2.1 = { rx with queue := rest } ∧
      (udpWrites N q s).map Prod.fst ++ rest = q ∧
      (processUdpWrite N rx q s stats).2.2 = stats.sent (udpWrites N q s) := by
  induction q generalizing s stats with
  | nil =>
    unfold processUdpWrite
    split_ifs <;> exact ⟨[], rfl, rfl, rfl⟩
  | cons d q ih =>
    obtain ⟨data, dest⟩ := d
    unfold processUdpWrite udpWrites
    split_ifs with hcan
    · obtain ⟨res, s', hout⟩ : ∃ res s', N.udpSendSlice s data (socketAddrToEndpoint dest) =
        (res, s') := ⟨_, _, rfl⟩
      simp only [hout]
      cases res with
      | ok u =>
        obtain ⟨rest, hq, htake, hst⟩ := ih s' { stats with txPackets := stats.txPackets + 1 }
        refine ⟨rest, hq, ?_, ?_⟩
        · rw [List.map_cons, List.cons_append, htake]
        · rw [hst, UdpStats.sent_cons, if_pos rfl]
      | error u =>
        obtain ⟨rest, hq, htake, hst⟩ := ih s' { stats with txFailed := stats.txFailed + 1 }
        refine ⟨rest, hq, ?_, ?_⟩
        · rw [List.map_cons, List.cons_append, htake]
        · rw [hst, UdpStats.sent_cons, if_neg (by simp)]
    · exact ⟨(data, dest)::q, rfl, rfl, rfl⟩

/-- Rule for the transmit side: what sending the queued datagrams keeps, and `close` where the
writer is gone, the whole call keeps. -/
theorem processUdpWrite_rule (P : U → Prop) (rx : Chan (Bytes × SocketAddr))
    (q : List (Bytes × SocketAddr)) (s : U) (stats : UdpStats)
    (hsend : ∀ s, ∀ d ∈ q, P s → P (N.udpSendSlice s d.1 (socketAddrToEndpoint d.2)).2)
    (hclose : rx.txAlive = false → ∀ s, P s → P (N.udpClose s)) (h : P s) :
    P (processUdpWrite N rx q s stats).1 := by
  induction q generalizing s stats with
  | nil =>
    unfold processUdpWrite
    split_ifs with hc
    · exact hclose hc.2 s h
    · exact h
  | cons d q ih =>
    have hs := hsend s d (by simp) h
    have hrest := fun s stats => ih s stats (fun s d hd => hsend s d (by simp [hd]))
    obtain ⟨data, dest⟩ := d
    unfold processUdpWrite
    split_ifs with hcan
    · obtain ⟨res, s', hout⟩ : ∃ res s', N.udpSendSlice s data (socketAddrToEndpoint dest) =
        (res, s') := ⟨_, _, rfl⟩
      rw [hout] at hs
      simp only [hout]
      cases res with
      | ok u => exact hrest s' _ hs
      | error u => exact hrest s' _ hs
    · exact h

end Write

section Read

/-- The datagram fits the buffer that `process_udp_read` supplies. -/
def fitsReadBuf (d : Bytes × IpEndpoint) : Bool := d.1.length ≤ udpReadBufSize

/-- The datagrams that one call of `process_udp_read` removes from a receive queue while the
channel has `room` slots, each with whether it was delivered. A datagram that does not fit the
buffer ends the loop. -/
def udpReads : Nat → List (Bytes × IpEndpoint) → List ((Bytes × IpEndpoint) × Bool)
  | 0, _ => []
  | _+1, [] => []
  | room+1, d::rest => if fitsReadBuf d then (d, true)::udpReads room rest else [(d, false)]

/-- The call ends because the channel has no slot for a datagram that is there. -/
def udpStalls : Nat → List (Bytes × IpEndpoint) → Bool
  | 0, rx => !rx.isEmpty
  | _+1, [] => false
  | room+1, d::rest => fitsReadBuf d && udpStalls room rest

def delivered (outs : List ((Bytes × IpEndpoint) × Bool)) : List (Bytes × SocketAddr) :=
  (outs.filter (·.2)).map fun e => (e.1.1, endpointToSocketAddr e.1.2)

def UdpStats.read (stats : UdpStats) (outs : List ((Bytes × IpEndpoint) × Bool))
    (stalled : Bool) : UdpStats :=
  { stats with
    rxPackets := stats.rxPackets + outs.countP (·.2)
    rxDropped := stats.rxDropped + stalled.toNat }

/-- The whole call in terms of the receive queue: delivered datagrams are counted, a stall is
counted as a drop, and a datagram that does not fit is removed without being counted. -/
theorem processUdpRead_spec (V : N.UdpView) (tx : Chan (Bytes × SocketAddr)) (room : Nat) (s : U)
    (got : List (Bytes × SocketAddr)) (stats : UdpStats) :
    let outs := udpReads room (V.rx s)
    let r := processUdpRead N tx room s got stats
    (V.endpoint r.1 = V.endpoint s ∧ V.tx r.1 = V.tx s ∧
      outs.map Prod.fst ++ V.rx r.1 = V.rx s) ∧
    r.2.1 = { tx with queue := tx.queue ++ (got ++ delivered outs) } ∧
    r.2.2 = stats.read outs (udpStalls room (V.rx s)) := by
  induction room generalizing s got stats with
  | zero =>
    simp only [processUdpRead, udpReads, udpStalls, delivered, UdpStats.read]
    cases hrx : V.rx s with
    | nil =>
      have hno : ¬N.udpCanRecv s = true := fun hc => (V.canRecv_iff s).mp hc hrx
      simp [hno]
    | cons d rest =>
      have hyes : N.udpCanRecv s = true := (V.canRecv_iff s).mpr (by simp [hrx])
      simp [hyes]
  | succ room ih =>
    unfold processUdpRead
    cases hrx : V.rx s with
    | nil =>
      have hno : ¬N.udpCanRecv s = true := fun hc => (V.canRecv_iff s).mp hc hrx
      simp [hno, udpReads, udpStalls, delivered, UdpStats.read, hrx]
    | cons d rest =>
      have hyes : N.udpCanRecv s = true := (V.canRecv_iff s).mpr (by simp [hrx])
      obtain ⟨s', hout, hep, hrest, htx⟩ := V.recv s d rest udpReadBufSize hrx
      obtain ⟨data, source⟩ := d
      rw [if_pos hyes, hout]
      by_cases hfit : data.length ≤ udpReadBufSize
      · have hf : fitsReadBuf (data, source) = true := by simpa [fitsReadBuf] using hfit
        rw [if_pos hfit]
        obtain ⟨⟨h1, h2, h3⟩, h4, h5⟩ := ih s' (got ++ [(data, endpointToSocketAddr source)])
          { stats with rxPackets := stats.rxPackets + 1 }
        rw [hrest] at h3 h4 h5
        refine ⟨⟨h1.trans hep, h2.trans htx, ?_⟩, ?_, ?_⟩
        · simp only [udpReads, hf, if_true, List.map_cons, List.cons_append, h3]
        · simp only [h4, udpReads, hf, if_true, delivered, List.filter_cons_of_pos, List.map_cons,
            List.append_assoc, List.cons_append, List.nil_append]
        · simp only [h5, udpReads, udpStalls, hf, if_true, Bool.true_and, UdpStats.read,
            List.countP_cons_of_pos]
          simp [Nat.add_assoc, Nat.add_comm]
      · have hf : fitsReadBuf (data, source) = false := by simpa [fitsReadBuf] using hfit
        rw [if_neg hfit]
        refine ⟨⟨hep, htx, ?_⟩, ?_, ?_⟩
        · simp [udpReads, hf, hrest]
        · simp [udpReads, hf, delivered]
        · simp [udpReads, udpStalls, hf, UdpStats.read]

end Read

/-- What a pass of `process_udp_read` puts into the channel: datagrams as `recv_slice` gives them,
and no more of them than there is room for. -/
theorem processUdpRead_got (Q : Bytes × SocketAddr → Prop)
    (hQ : ∀ s data ep s', N.udpCanRecv s = true →
      N.udpRecvSlice s udpReadBufSize = (.ok (data, ep), s') → Q (data, endpointToSocketAddr ep))
    (tx : Chan (Bytes × SocketAddr)) (room : Nat) (s : U) (got : List (Bytes × SocketAddr))
    (stats : UdpStats) :
    ∃ new, (processUdpRead N tx room s got stats).2.1 =
        { tx with queue := tx.queue ++ (got ++ new) } ∧ (∀ d ∈ new, Q d) ∧ new.length ≤ room := by
  have hstop : ∃ new, ({ tx with queue := tx.queue ++ got } : Chan (Bytes × SocketAddr)) =
      { tx with queue := tx.queue ++ (got ++ new) } ∧ (∀ d ∈ new, Q d) ∧ new.length ≤ room :=
    ⟨[], by simp⟩
  induction room generalizing s got stats with
  | zero => exact hstop
  | succ room ih =>
    unfold processUdpRead
    split_ifs with hcan
    · split
      · next data ep s' hrecv =>
        obtain ⟨new, hnew, hall, hroom⟩ := ih s' (got ++ [(data, endpointToSocketAddr ep)])
          { stats with rxPackets := stats.rxPackets + 1 } ⟨[], by simp⟩
        refine ⟨(data, endpointToSocketAddr ep)::new, ?_, ?_, ?_⟩
        · rw [hnew, List.append_assoc, List.singleton_append]
        · intro d hd
          rcases List.mem_cons.mp hd with rfl | hd
          · exact hQ s data ep s' hcan hrecv
          · exact hall d hd
        · simpa using hroom
      · exact hstop
    · exact hstop

end TapTunnel.Stack
