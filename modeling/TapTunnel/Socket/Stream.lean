import TapTunnel.Stack.State

namespace TapTunnel.TcpStream

open Framework Stack

/-- Outcome of polling a read: `ready []` on a non-empty buffer is how EOF is reported. -/
inductive ReadPoll
  | pending
  | ready (data : Bytes)
  deriving DecidableEq, Repr

def ReadPoll.bytes : ReadPoll → Bytes
  | .pending => []
  | .ready data => data

inductive WritePoll
  | pending
  | ok (n : Nat)
  | err (e : IoError)
  deriving DecidableEq, Repr

/-- `TcpStream::read` and its three copies, polled with a buffer of `len` bytes. -/
def read (len : Nat) (c : TcpChan) : ReadPoll × TcpChan :=
  if c.readBuf.isEmpty then
    match c.read.tryRecv with
    | .ok (data, rx) => (.ready (data.take len), { c with read := rx, readBuf := data.drop len })
    | .error .empty => (.pending, c)
    | .error .disconnected => (.ready [], c)
  else (.ready (c.readBuf.take len), { c with readBuf := c.readBuf.drop len })

/-- `AsyncRead::poll_read` of a stream; `len` is what the buffer has remaining. -/
def pollRead (len : Nat) (c : TcpChan) : ReadPoll × TcpChan := read len c

/-- `TcpStream::write` and `OwnedWriteHalf::write` complete as soon as the channel has room. -/
def write (buf : Bytes) (c : TcpChan) : WritePoll × TcpChan :=
  match c.write.trySend buf with
  | .ok tx => (.ok buf.length, { c with write := tx, written := c.written ++ buf })
  | .error .full => (.pending, c)
  | .error .closed => (.err ⟨.brokenPipe, "stack task gone"⟩, c)

/-- `AsyncWrite::poll_write` of a stream. It does not wait: a full channel is an error. -/
def pollWrite (buf : Bytes) (c : TcpChan) : WritePoll × TcpChan :=
  match c.write.trySend buf with
  | .ok tx => (.ok buf.length, { c with write := tx, written := c.written ++ buf })
  | .error .full => (.err ⟨.wouldBlock, "channel full"⟩, c)
  | .error .closed => (.err ⟨.brokenPipe, "stack task gone"⟩, c)

/-- A drained stream whose sender is still held by the stack cannot report EOF. -/
theorem read_pending (len : Nat) (c : TcpChan) (hb : c.readBuf = [])
    (hq : c.read.queue = []) (ht : c.read.txAlive = true) : (read len c).1 = .pending := by
  simp [read, hb, Chan.tryRecv, hq, ht]

theorem write_ok {buf : Bytes} {c d : TcpChan} {n : Nat} (h : write buf c = (.ok n, d)) :
    d = { c with
      write := { c.write with queue := c.write.queue ++ [buf] }
      written := c.written ++ buf } := by
  unfold write at h
  split at h
  · next tx htx =>
    obtain ⟨-, -, rfl⟩ := Chan.trySend_ok htx
    simpa using (congrArg Prod.snd h).symm
  · simp at h
  · simp at h

theorem read_frame (len : Nat) (c : TcpChan) :
    (read len c).2.write = c.write ∧ (read len c).2.written = c.written ∧
    (read len c).2.accepted = c.accepted ∧
    (read len c).2.read.txAlive = c.read.txAlive := by
  unfold read
  split
  · split
    · next data rx hrx => exact ⟨rfl, rfl, rfl, (Chan.tryRecv_ok hrx).2.1⟩
    · exact ⟨rfl, rfl, rfl, rfl⟩
    · exact ⟨rfl, rfl, rfl, rfl⟩
  · exact ⟨rfl, rfl, rfl, rfl⟩

/-- What a poll of the read side returns is taken from the front of what it has. -/
theorem read_bytes (len : Nat) (c : TcpChan) :
    (read len c).1.bytes ++ ((read len c).2.readBuf ++ (read len c).2.read.queue.flatten) =
      c.readBuf ++ c.read.queue.flatten := by
  unfold read
  split
  · next hb =>
    split
    · next data rx hrx =>
      rw [List.isEmpty_iff.mp hb, (Chan.tryRecv_ok hrx).1, List.nil_append, List.flatten_cons]
      simp only [ReadPoll.bytes]
      rw [← List.append_assoc, List.take_append_drop]
    · rfl
    · rfl
  · simp only [ReadPoll.bytes]
    rw [← List.append_assoc, List.take_append_drop]

theorem read_queue (len : Nat) (c : TcpChan) :
    (read len c).2.read.queue <:+ c.read.queue ∧ (read len c).2.read.rxAlive = c.read.rxAlive := by
  unfold read
  split
  · split
    · next data rx hrx =>
      obtain ⟨hq, -, hrx, -⟩ := Chan.tryRecv_ok hrx
      rw [hq]
      exact ⟨List.suffix_cons _ _, hrx⟩
    · exact ⟨List.suffix_refl _, rfl⟩
    · exact ⟨List.suffix_refl _, rfl⟩
  · exact ⟨List.suffix_refl _, rfl⟩

/-- Without empty chunks a read into a buffer reports 0 bytes only at the end of the stream. -/
theorem read_zero {len : Nat} {c : TcpChan} (hlen : 0 < len)
    (hq : ∀ chunk ∈ c.read.queue, chunk ≠ []) (h : (read len c).1 = .ready []) :
    c.readBuf = [] ∧ c.read.queue = [] ∧ c.read.txAlive = false := by
  have htake : ∀ data : Bytes, data.take len = [] → data = [] := by
    intro data hd
    rcases List.take_eq_nil_iff.mp hd with h0 | h0
    · omega
    · exact h0
  unfold read at h
  split at h
  · next hb =>
    cases hqueue : c.read.queue with
    | cons data q =>
      simp only [Chan.tryRecv, hqueue, ReadPoll.ready.injEq] at h
      exact absurd (htake data h) (hq data (by simp [hqueue]))
    | nil =>
      refine ⟨List.isEmpty_iff.mp hb, rfl, ?_⟩
      by_contra htx
      rw [Bool.not_eq_false] at htx
      simp [Chan.tryRecv, hqueue, htx] at h
  · next hb =>
    exact absurd (List.isEmpty_iff.mpr (htake _ (ReadPoll.ready.inj h))) hb

end TapTunnel.TcpStream

namespace TapTunnel.OwnedReadHalf

open Stack TcpStream

/-- `OwnedReadHalf::read`. The half has the receiver and the left-over buffer of its stream. -/
def read (len : Nat) (c : TcpChan) : ReadPoll × TcpChan := TcpStream.read len c

def pollRead (len : Nat) (c : TcpChan) : ReadPoll × TcpChan := TcpStream.read len c

end TapTunnel.OwnedReadHalf

namespace TapTunnel.OwnedWriteHalf

open Stack TcpStream

def write (buf : Bytes) (c : TcpChan) : WritePoll × TcpChan := TcpStream.write buf c

def pollWrite (buf : Bytes) (c : TcpChan) : WritePoll × TcpChan := TcpStream.pollWrite buf c

end TapTunnel.OwnedWriteHalf
