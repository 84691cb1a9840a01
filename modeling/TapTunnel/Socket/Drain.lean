import TapTunnel.Stack.ReadPath

namespace TapTunnel.UdpSocket

open Framework Stack TcpStream

inductive RecvPoll
  | pending
  | ready (data : Bytes) (source : SocketAddr)
  | err (e : IoError)
  deriving DecidableEq, Repr

/-- `UdpSocket::send_to`: the send completes as soon as the channel has room. -/
def sendTo (buf : Bytes) (addr : SocketAddr) (c : UdpChan) : WritePoll × UdpChan :=
  match c.write.trySend (buf, addr) with
  | .ok tx => (.ok buf.length, { c with write := tx })
  | .error .full => (.pending, c)
  | .error .closed => (.err ⟨.brokenPipe, "stack task gone"⟩, c)

/-- `UdpSocket::recv_from`. What does not fit of a datagram is lost. -/
def recvFrom (len : Nat) (c : UdpChan) : RecvPoll × UdpChan :=
  match c.read.tryRecv with
  | .ok ((data, source), rx) => (.ready (data.take len) source, { c with read := rx })
  | .error .empty => (.pending, c)
  | .error .disconnected => (.err ⟨.brokenPipe, "socket closed"⟩, c)

def recvs : List Nat → UdpChan → List RecvPoll
  | [], _ => []
  | len::lens, c => (recvFrom len c).1::recvs lens (recvFrom len c).2

/-- Each call takes the oldest datagram, and with none left it fails. -/
theorem recvs_drained {c : UdpChan} (htx : c.read.txAlive = false) (lens : List Nat) :
    recvs lens c =
      List.zipWith (fun len (d : Bytes × SocketAddr) => .ready (d.1.take len) d.2) lens
          c.read.queue ++
        List.replicate (lens.length - c.read.queue.length)
          (.err ⟨.brokenPipe, "socket closed"⟩) := by
  induction lens generalizing c with
  | nil => simp [recvs]
  | cons len lens ih =>
    simp only [recvs, recvFrom]
    cases hq : c.read.queue with
    | nil =>
      have hrest := ih htx
      rw [hq] at hrest
      simp [Chan.tryRecv, hq, htx, hrest, List.replicate_succ]
    | cons d rest =>
      have hrest := ih (c := { c with read := { c.read with queue := rest } }) htx
      simp [Chan.tryRecv, hq, hrest]

end TapTunnel.UdpSocket

namespace TapTunnel.TcpStream

open Framework Stack

def reads : List Nat → TcpChan → List ReadPoll
  | [], _ => []
  | len::lens, c => (read len c).1::reads lens (read len c).2

/-- A read returns at once when something is ahead or the sender is gone. -/
theorem read_ready {c : TcpChan} (htx : c.read.txAlive = false) (len : Nat) :
    ∃ data, (read len c).1 = .ready data := by
  unfold read
  split
  · split
    · exact ⟨_, rfl⟩
    · next he =>
      cases hq : c.read.queue with
      | nil => simp [Chan.tryRecv, hq, htx] at he
      | cons d rest => simp [Chan.tryRecv, hq] at he
    · exact ⟨_, rfl⟩
  · exact ⟨_, rfl⟩

theorem reads_end {c : TcpChan} (htx : c.read.txAlive = false) (hbuf : c.readBuf = [])
    (hq : c.read.queue = []) (lens : List Nat) :
    reads lens c = List.replicate lens.length (.ready []) := by
  induction lens with
  | nil => rfl
  | cons len lens ih =>
    have hread : read len c = (.ready [], c) := by simp [read, hbuf, Chan.tryRecv, hq, htx]
    simp [reads, hread, ih, List.replicate_succ]

/-- What is ahead is returned in order and all of it, before the end of the stream. -/
theorem reads_drained {c : TcpChan} (htx : c.read.txAlive = false)
    (hq : ∀ chunk ∈ c.read.queue, chunk ≠ []) {lens : List Nat} (hlens : ∀ len ∈ lens, 0 < len) :
    ∃ (got : List Bytes) (n : Nat), reads lens c = got.map .ready ++ List.replicate n (.ready []) ∧
      (∀ data ∈ got, data ≠ []) ∧ got.flatten <+: c.ahead ∧ (0 < n → got.flatten = c.ahead) := by
  induction lens generalizing c with
  | nil => exact ⟨[], 0, rfl, by simp, List.nil_prefix, by simp⟩
  | cons len lens ih =>
    have hpos : 0 < len := hlens len (by simp)
    obtain ⟨data, hdata⟩ := read_ready htx len
    by_cases hnil : data = []
    · -- zero bytes into a buffer: nothing is ahead any more
      subst hnil
      obtain ⟨hbuf, hqueue, -⟩ := read_zero hpos hq hdata
      refine ⟨[], lens.length+1, ?_, by simp, List.nil_prefix, fun _ => ?_⟩
      · rw [reads_end htx hbuf hqueue (len::lens)]
        simp
      · simp [TcpChan.ahead, hbuf, hqueue]
    · have hframe := read_frame len c
      have hqueue := (read_queue len c).1
      have hbytes := read_bytes len c
      rw [hdata] at hbytes
      obtain ⟨got, n, hreads, hgot, hpre, hall⟩ := ih (c := (read len c).2)
        (hframe.2.2.2.trans htx) (fun chunk hc => hq chunk (hqueue.subset hc))
        (fun l hl => hlens l (by simp [hl]))
      have hahead : data ++ (read len c).2.ahead = c.ahead := hbytes
      refine ⟨data::got, n, ?_, ?_, ?_, fun hn => ?_⟩
      · simp [reads, hdata, hreads]
      · intro d hd
        rcases List.mem_cons.mp hd with rfl | hd
        · exact hnil
        · exact hgot d hd
      · rw [List.flatten_cons, ← hahead]
        exact (List.prefix_append_right_inj data).mpr hpre
      · rw [List.flatten_cons, hall hn, hahead]

end TapTunnel.TcpStream
