import TapTunnel.Framework.Framed
import TapTunnel.Framework.Transition
import TapTunnel.Ipc.WriterSpec

namespace TapTunnel.Ipc

open Framework

/-- One direction of the IPC socket: a writer task, the bytes on their way, and a reader task.
The reader has read `taken` of the bytes that reached the socket; `records` only records the
message bodies it has completed. -/
structure Link where
  sender : Sender
  taken : Nat
  reader : FrameReader
  readerAlive : Bool
  records : List Bytes
  deriving DecidableEq, Repr

/-- `read k` is one read of `k` bytes within the current `read_exact`; `stopReader` ends the
reader task, for whatever reason. -/
inductive LinkAction
  | send (a : SendAction)
  | read (k : Nat)
  | stopReader
  deriving DecidableEq, Repr

namespace Link

def new (sender : Sender) (msgBuf : Bytes) : Link := ⟨sender, 0, .new msgBuf, true, []⟩

/-- Bytes in the socket. -/
def unread (l : Link) : Bytes := l.sender.writer.out.drop l.taken

/-- What the reader task has decoded. -/
def received (l : Link) : List (Except IoError Message) := l.records.map decodeMessage

def step (write : SendAction → Sender → Option Sender)
    (fit : Nat → Bytes → Option Bytes) : LinkAction → Link → Option Link
  | .send a, l => (write a l.sender).map fun s => { l with sender := s }
  | .read k, l =>
    if l.readerAlive ∧ 0 < k ∧ k ≤ l.reader.wants ∧ k ≤ l.unread.length then
      let r := l.reader.read fit (l.unread.take k)
      some { l with taken := l.taken+k, reader := r.1, records := l.records ++ r.2.toList }
    else none
  | .stopReader, l => some { l with readerAlive := false }

end Link

/-- Task 3 of `run_frame_relay` refuses a length that is zero or exceeds its buffer. -/
def relayFit (msgLen : Nat) (msgBuf : Bytes) : Option Bytes :=
  if msgLen = 0 ∨ msgBuf.length < msgLen then none else some msgBuf

/-- The library's IPC reader enlarges its buffer to whatever length is declared. -/
def ipcFit (msgLen : Nat) (msgBuf : Bytes) : Option Bytes :=
  some (if msgBuf.length < msgLen then msgBuf ++ List.replicate (msgLen-msgBuf.length) 0
    else msgBuf)

theorem relayFit_fits : FrameReader.Fits relayFit := by
  intro n buf buf' h
  unfold relayFit at h
  split_ifs at h with hn
  obtain rfl := Option.some.inj h
  omega

theorem ipcFit_fits : FrameReader.Fits ipcFit := by
  intro n buf buf' h
  obtain rfl := Option.some.inj h
  split_ifs with hn
  · simp
    omega
  · omega

def ethernetHeaderSize : Nat := 14

def maxFrameSize (mtu : UInt16) : Nat := mtu.toNat+ethernetHeaderSize

/-- Library to proxy. -/
def toProxyInit (mtu : UInt16) : Link :=
  .new (.new frameChannelCapacity controlChannelCapacity libIpcBufferSize)
    (List.replicate (maxFrameSize mtu+16) 0)

def toProxyStep : LinkAction → Link → Option Link := Link.step ipcWriter relayFit

/-- Proxy to library. -/
def toLibraryInit : Link :=
  .new (.new proxyFrameChannelCapacity proxyResponseCapacity proxyIpcBufferSize)
    (List.replicate 2048 0)

def toLibraryStep : LinkAction → Link → Option Link := Link.step relayWriter ipcFit

def LinkAction.NoError : LinkAction → Prop
  | .send a => a.NoError
  | .read _ | .stopReader => True

instance (a : LinkAction) : Decidable a.NoError := by
  cases a <;> unfold LinkAction.NoError <;> infer_instance

/-- A link without I/O errors: the writer's books are right, and the reader is where the bytes
it has read put it, whatever pieces they came in. -/
structure Carried (form : FrameForm) (fit : Nat → Bytes → Option Bytes) (msgBuf : Bytes)
    (l : Link) : Prop where
  sent : Sent form l.sender
  taken : l.taken ≤ l.sender.writer.out.length
  fed : (FrameReader.new msgBuf).feed fit (l.sender.writer.out.take l.taken) =
    (l.reader, l.records)

namespace Carried

variable {form : FrameForm} {fit : Nat → Bytes → Option Bytes} {msgBuf : Bytes} {l l' : Link}

theorem new {s : Sender} (hs : Sent form s) : Carried form fit msgBuf (.new s msgBuf) :=
  ⟨hs, Nat.zero_le _, rfl⟩

theorem sound (hfit : FrameReader.Fits fit) (hl : Carried form fit msgBuf l) :
    l.reader.Sound := by
  have h := FrameReader.feed_sound hfit (l.sender.writer.out.take l.taken)
    (FrameReader.new_sound msgBuf)
  rw [hl.fed] at h
  exact h

theorem send (hl : Carried form fit msgBuf l) {a : SendAction} {s : Sender}
    (h : SendStep form a l.sender s) :
    Carried form fit msgBuf { l with sender := s } := by
  obtain ⟨rest, hrest⟩ := h.out_prefix
  refine ⟨hl.sent.step h, ?_, ?_⟩
  · have := hl.taken
    rw [← hrest, List.length_append]
    exact Nat.le_add_right_of_le this
  · change (FrameReader.new msgBuf).feed fit (s.writer.out.take l.taken) = _
    rw [← hrest, List.take_append_of_le_length hl.taken]
    exact hl.fed

theorem read (hfit : FrameReader.Fits fit) (hl : Carried form fit msgBuf l) {k : Nat}
    (h0 : 0 < k) (hw : k ≤ l.reader.wants) (hk : k ≤ l.unread.length) :
    Carried form fit msgBuf { l with
      taken := l.taken+k
      reader := (l.reader.read fit (l.unread.take k)).1
      records := l.records ++ (l.reader.read fit (l.unread.take k)).2.toList } := by
  have hlen : (l.unread.take k).length = k := by simp [hk]
  have hne : l.unread.take k ≠ [] := List.ne_nil_of_length_pos (by omega)
  refine ⟨hl.sent, ?_, ?_⟩
  · have := hl.taken
    simp only [Link.unread, List.length_drop] at hk
    change l.taken+k ≤ l.sender.writer.out.length
    omega
  · change (FrameReader.new msgBuf).feed fit (l.sender.writer.out.take (l.taken+k)) = _
    rw [List.take_add, FrameReader.feed_append, hl.fed]
    have h := FrameReader.read_eq_feed hfit (hl.sound hfit) _ hne (by omega)
    exact congrArg (fun p => (p.1, l.records ++ p.2)) h

/-- The step lemma. -/
theorem step {write : SendAction → Sender → Option Sender}
    (hwrite : ∀ a s s', a.NoError → write a s = some s' → SendStep form a s s')
    (hfit : FrameReader.Fits fit) (hl : Carried form fit msgBuf l) {a : LinkAction}
    (ha : a.NoError) (h : Link.step write fit a l = some l') : Carried form fit msgBuf l' := by
  cases a with
  | send a =>
    obtain ⟨s, hs, rfl⟩ := Option.map_eq_some_iff.mp h
    exact hl.send (hwrite a _ _ ha hs)
  | read k =>
    simp only [Link.step] at h
    split_ifs at h with hc
    obtain rfl := Option.some.inj h
    exact hl.read hfit hc.2.1 hc.2.2.1 hc.2.2.2
  | stopReader =>
    obtain rfl := Option.some.inj h
    exact ⟨hl.sent, hl.taken, hl.fed⟩

end Carried

end TapTunnel.Ipc
