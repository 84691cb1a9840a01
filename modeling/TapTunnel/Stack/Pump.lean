import TapTunnel.Stack.State

namespace TapTunnel.Stack

open Framework

variable {T U E : Type}

/-- The exits of `process_tcp_write`, in the order of the source. -/
inductive WriteExit
  | pendingPartial
  | pendingError
  | notMaySend
  | cannotSend
  | chunkPartial
  | chunkError
  | empty
  | disconnected
  deriving DecidableEq, Repr

/-- Result of one call of `process_tcp_write`. `accepted` lists the bytes that `send_slice`
took during the call and `exit` the way the call ended. -/
structure WriteOut (T : Type) where
  socket : T
  pendingWrite : Option Bytes
  writeRx : Chan Bytes
  accepted : Bytes
  exit : WriteExit

/-- The loop that pulls new data from the channel. It recurses on the queued chunks: every
round receives one, and `try_recv` on an empty queue ends it. -/
def pullWrites (N : Smoltcp T U E) (rx : Chan Bytes) : List Bytes → T → Bytes → WriteOut T
  | [], s, acc =>
    if N.canSend s then
      if rx.txAlive then ⟨s, none, { rx with queue := [] }, acc, .empty⟩
      else ⟨N.tcpClose s, none, { rx with queue := [] }, acc, .disconnected⟩
    else ⟨s, none, { rx with queue := [] }, acc, .cannotSend⟩
  | data::q, s, acc =>
    if N.canSend s then
      match N.sendSlice s data with
      | (.ok n, s') =>
        if n < data.length then
          ⟨s', some (data.drop n), { rx with queue := q }, acc ++ data.take n, .chunkPartial⟩
        else pullWrites N rx q s' (acc ++ data.take n)
      | (.error _, s') => ⟨s', none, { rx with queue := q }, acc, .chunkError⟩
    else ⟨s, none, { rx with queue := data::q }, acc, .cannotSend⟩

def processTcpWrite (N : Smoltcp T U E) (s : T) (pendingWrite : Option Bytes)
    (rx : Chan Bytes) : WriteOut T :=
  match pendingWrite with
  | some data =>
    if N.maySend s then
      match N.sendSlice s data with
      | (.ok n, s') =>
        if n < data.length then ⟨s', some (data.drop n), rx, data.take n, .pendingPartial⟩
        else pullWrites N rx rx.queue s' (data.take n)
      | (.error _, s') => ⟨s', none, rx, [], .pendingError⟩
    else ⟨s, some data, rx, [], .notMaySend⟩
  | none => pullWrites N rx rx.queue s []

/-- The loop of `process_tcp_read`, on the slots that `try_reserve` can still hand out. -/
def pullReads (N : Smoltcp T U E) : Nat → T → List Bytes → T × List Bytes
  | 0, s, chunks => (s, chunks)
  | room+1, s, chunks =>
    if N.canRecv s then
      match N.recvSlice s tcpSocketBufferSize with
      | (.ok data, s') =>
        if 0 < data.length then pullReads N room s' (chunks ++ [data]) else (s', chunks)
      | (.error _, s') => (s', chunks)
    else (s, chunks)

def processTcpRead (N : Smoltcp T U E) (s : T) (tx : Chan Bytes) : T × Chan Bytes :=
  let (s', chunks) := pullReads N tx.room s []
  (s', { tx with queue := tx.queue ++ chunks })

/-- `process_udp_write`, again by recursion on the queued datagrams. -/
def processUdpWrite (N : Smoltcp T U E) (rx : Chan (Bytes × SocketAddr)) :
    List (Bytes × SocketAddr) → U → UdpStats → U × Chan (Bytes × SocketAddr) × UdpStats
  | [], s, stats =>
    if N.udpCanSend s ∧ rx.txAlive = false then (N.udpClose s, { rx with queue := [] }, stats)
    else (s, { rx with queue := [] }, stats)
  | (data, dest)::q, s, stats =>
    if N.udpCanSend s then
      match N.udpSendSlice s data (socketAddrToEndpoint dest) with
      | (.ok _, s') => processUdpWrite N rx q s' { stats with txPackets := stats.txPackets + 1 }
      | (.error _, s') => processUdpWrite N rx q s' { stats with txFailed := stats.txFailed + 1 }
    else (s, { rx with queue := (data, dest)::q }, stats)

/-- `process_udp_read`: a reservation that fails while the socket still has a datagram counts
as a drop. -/
def processUdpRead (N : Smoltcp T U E) (tx : Chan (Bytes × SocketAddr)) :
    Nat → U → List (Bytes × SocketAddr) → UdpStats →
      U × Chan (Bytes × SocketAddr) × UdpStats
  | 0, s, got, stats =>
    (s, { tx with queue := tx.queue ++ got },
      if N.udpCanRecv s then { stats with rxDropped := stats.rxDropped + 1 } else stats)
  | room+1, s, got, stats =>
    if N.udpCanRecv s then
      match N.udpRecvSlice s udpReadBufSize with
      | (.ok (data, endpoint), s') =>
        processUdpRead N tx room s' (got ++ [(data, endpointToSocketAddr endpoint)])
          { stats with rxPackets := stats.rxPackets + 1 }
      | (.error _, s') => (s', { tx with queue := tx.queue ++ got }, stats)
    else (s, { tx with queue := tx.queue ++ got }, stats)

section Rules

variable {N : Smoltcp T U E}

/-- Rule for the transmit side: what `send_slice` keeps, and `close` where the writer is gone,
the whole pass keeps. -/
theorem pullWrites_rule (P : T → Prop) (rx : Chan Bytes)
    (hsend : ∀ s data, P s → P (N.sendSlice s data).2)
    (hclose : rx.txAlive = false → ∀ s, P s → P (N.tcpClose s)) (q : List Bytes) (s : T)
    (acc : Bytes) (h : P s) : P (pullWrites N rx q s acc).socket := by
  induction q generalizing s acc with
  | nil =>
    unfold pullWrites
    split_ifs with hcan htx
    · exact h
    · exact hclose (by simpa using htx) s h
    · exact h
  | cons data q ih =>
    unfold pullWrites
    have hs := hsend s data h
    obtain ⟨res, s', hout⟩ : ∃ res s', N.sendSlice s data = (res, s') := ⟨_, _, rfl⟩
    rw [hout] at hs
    simp only [hout]
    split_ifs
    · cases res with
      | ok n =>
        simp only
        split_ifs
        · exact hs
        · exact ih s' _ hs
      | error e => exact hs
    · exact h

theorem processTcpWrite_rule (P : T → Prop) (rx : Chan Bytes)
    (hsend : ∀ s data, P s → P (N.sendSlice s data).2)
    (hclose : rx.txAlive = false → ∀ s, P s → P (N.tcpClose s)) (s : T)
    (pending : Option Bytes) (h : P s) : P (processTcpWrite N s pending rx).socket := by
  cases pending with
  | none => exact pullWrites_rule P rx hsend hclose rx.queue s [] h
  | some data =>
    unfold processTcpWrite
    have hs := hsend s data h
    obtain ⟨res, s', hout⟩ : ∃ res s', N.sendSlice s data = (res, s') := ⟨_, _, rfl⟩
    rw [hout] at hs
    simp only [hout]
    split_ifs
    · cases res with
      | ok n =>
        simp only
        split_ifs
        · exact hs
        · exact pullWrites_rule P rx hsend hclose rx.queue s' _ hs
      | error e => exact hs
    · exact h

theorem pullWrites_takes (rx : Chan Bytes) (q : List Bytes) (s : T) (acc : Bytes) :
    ∃ rest, rest <:+ q ∧ (pullWrites N rx q s acc).writeRx = { rx with queue := rest } := by
  induction q generalizing s acc with
  | nil =>
    unfold pullWrites
    split_ifs <;> exact ⟨[], List.suffix_refl _, rfl⟩
  | cons data q ih =>
    have htail : q <:+ data::q := List.suffix_cons _ _
    unfold pullWrites
    split_ifs
    · split
      · split_ifs
        · exact ⟨q, htail, rfl⟩
        · obtain ⟨rest, hrest, hrx⟩ := ih _ _
          exact ⟨rest, hrest.trans htail, hrx⟩
      · exact ⟨q, htail, rfl⟩
    · exact ⟨data::q, List.suffix_refl _, rfl⟩

/-- A pass of `process_tcp_write` takes chunks from the front of the channel. -/
theorem processTcpWrite_takes (s : T) (pending : Option Bytes) (rx : Chan Bytes) :
    ∃ rest, rest <:+ rx.queue ∧
      (processTcpWrite N s pending rx).writeRx = { rx with queue := rest } := by
  have hsame : ∃ rest, rest <:+ rx.queue ∧ rx = { rx with queue := rest } :=
    ⟨rx.queue, List.suffix_refl _, rfl⟩
  cases pending with
  | none => exact pullWrites_takes rx rx.queue s []
  | some data =>
    unfold processTcpWrite
    simp only
    split_ifs
    · split
      · split_ifs
        · exact hsame
        · exact pullWrites_takes rx rx.queue _ _
      · exact hsame
    · exact hsame

theorem processTcpRead_rule (P : T → Prop) (hrecv : ∀ s len, P s → P (N.recvSlice s len).2)
    (s : T) (tx : Chan Bytes) (h : P s) : P (processTcpRead N s tx).1 := by
  suffices ∀ room chunks, P (pullReads N room s chunks).1 from this tx.room []
  intro room
  induction room generalizing s with
  | zero => exact fun _ => h
  | succ room ih =>
    intro chunks
    unfold pullReads
    have hs := hrecv s tcpSocketBufferSize h
    obtain ⟨res, s', hout⟩ : ∃ res s', N.recvSlice s tcpSocketBufferSize = (res, s') :=
      ⟨_, _, rfl⟩
    rw [hout] at hs
    simp only [hout]
    split_ifs
    · cases res with
      | ok data =>
        simp only
        split_ifs
        · exact ih s' hs _
        · exact hs
      | error e => exact hs
    · exact h

end Rules

namespace World

/-- A round of a pass: `work` on the entry under `h` and its socket, if there is such an entry. -/
def pump {St S : Type} (states : World T U → HandleMap St)
    (get : World T U → SocketHandle → Except Panic S)
    (work : SocketHandle → St → S → World T U → World T U) (h : SocketHandle) (w : World T U) :
    Except Panic (World T U) := do
  match (states w).lookup h with
  | none => return w
  | some st => return work h st (← get w h) w

/-- One entry of `tcp_states` after `process_tcp_write` on its socket `s`. -/
def writeTcpEntry (N : Smoltcp T U E) (h : SocketHandle) (st : TcpSocketState) (s : T)
    (w : World T U) : World T U :=
  let c := w.tcpChans st.chan
  let r := processTcpWrite N s st.pendingWrite c.write
  { w with
    sockets := w.sockets.insert h (.tcp r.socket)
    tcpStates := w.tcpStates.insert h { st with pendingWrite := r.pendingWrite }
    tcpChans := Function.update w.tcpChans st.chan
      { c with write := r.writeRx, accepted := c.accepted ++ r.accepted } }

/-- One round of the TCP loop of `poll_write_channels`. -/
def pumpTcpWrite (N : Smoltcp T U E) (h : SocketHandle) (w : World T U) :
    Except Panic (World T U) :=
  w.pump tcpStates getTcp (writeTcpEntry N) h

def writeUdpEntry (N : Smoltcp T U E) (h : SocketHandle) (st : UdpSocketState) (s : U)
    (w : World T U) : World T U :=
  let c := w.udpChans st.chan
  let r := processUdpWrite N c.write c.write.queue s w.stats
  { w with
    sockets := w.sockets.insert h (.udp r.1)
    udpChans := Function.update w.udpChans st.chan { c with write := r.2.1 }
    stats := r.2.2 }

def pumpUdpWrite (N : Smoltcp T U E) (h : SocketHandle) (w : World T U) :
    Except Panic (World T U) :=
  w.pump udpStates getUdp (writeUdpEntry N) h

def readTcpEntry (N : Smoltcp T U E) (h : SocketHandle) (st : TcpSocketState) (s : T)
    (w : World T U) : World T U :=
  let c := w.tcpChans st.chan
  let r := processTcpRead N s c.read
  { w with
    sockets := w.sockets.insert h (.tcp r.1)
    tcpChans := Function.update w.tcpChans st.chan { c with read := r.2 } }

/-- One round of the TCP loop of `poll_read_channels`. -/
def pumpTcpRead (N : Smoltcp T U E) (h : SocketHandle) (w : World T U) :
    Except Panic (World T U) :=
  w.pump tcpStates getTcp (readTcpEntry N) h

def readUdpEntry (N : Smoltcp T U E) (h : SocketHandle) (st : UdpSocketState) (s : U)
    (w : World T U) : World T U :=
  let c := w.udpChans st.chan
  let r := processUdpRead N c.read c.read.room s [] w.stats
  { w with
    sockets := w.sockets.insert h (.udp r.1)
    udpChans := Function.update w.udpChans st.chan { c with read := r.2.1 }
    stats := r.2.2 }

def pumpUdpRead (N : Smoltcp T U E) (h : SocketHandle) (w : World T U) :
    Except Panic (World T U) :=
  w.pump udpStates getUdp (readUdpEntry N) h

end World

end TapTunnel.Stack
