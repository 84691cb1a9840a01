import TapTunnel.Framework.Transition
import TapTunnel.Ipc.WriterSpec

namespace TapTunnel.Ipc

open Framework

/-- The frame path of the library, between the IPC socket and smoltcp: the channel from the IPC
reader to the device, the IPC writer with the channel that the device fills, and the counters of
`TunnelStats` for it (`ipc_tx_frames` and `ipc_tx_errors` are the writer's). The last three fields
are what an observer of the calls writes down. -/
structure DataPath where
  rx : Chan Bytes
  writer : Sender
  readerAlive : Bool
  ipcRxFrames : Nat
  ipcRxDropped : Nat
  deviceRxFrames : Nat
  deviceTxFrames : Nat
  deviceTxDropped : Nat
  received : List (Bytes × Bool)
  handed : List Bytes
  transmitted : List (Bytes × Bool)
  deriving DecidableEq, Repr

/-- `message` is one round of the reader's loop, `write` a step of the writer or of those who
send it control messages. The last two end the reader and the stack task. -/
inductive DataAction
  | message (msg : Bytes)
  | receive
  | consume (buffer : Bytes)
  | write (a : SendAction)
  | dropReader
  | dropDevice
  deriving DecidableEq, Repr

/-- Frame in a message body, if it is one. -/
def frameOf (record : Bytes) : Option Bytes :=
  match decodeMessage record with
  | .ok m => m.frame?
  | .error _ => none

/-- The frames of a history that were not dropped. -/
def keptFrames (history : List (Bytes × Bool)) : List Bytes :=
  (history.filter (fun f => !f.2)).map Prod.fst

def droppedFrames (history : List (Bytes × Bool)) : Nat := (history.filter (fun f => f.2)).length

namespace DataPath

def new : DataPath where
  rx := .new frameChannelCapacity
  writer := .new frameChannelCapacity controlChannelCapacity libIpcBufferSize
  readerAlive := true
  ipcRxFrames := 0
  ipcRxDropped := 0
  deviceRxFrames := 0
  deviceTxFrames := 0
  deviceTxDropped := 0
  received := []
  handed := []
  transmitted := []

/-- The reader task ends, which drops its sender. -/
def exitReader (p : DataPath) : DataPath := { p with readerAlive := false, rx := p.rx.dropTx }

/-- The frame branch of the IPC reader. -/
def readFrame (frame : Bytes) (p : DataPath) : DataPath :=
  let p := { p with ipcRxFrames := p.ipcRxFrames+1 }
  match p.rx.trySend frame with
  | .ok rx => { p with rx := rx }
  | .error .full => { p with ipcRxDropped := p.ipcRxDropped+1 }
  | .error .closed => p.exitReader

/-- The IPC reader decodes a message. Responses go to their callers, decode errors are
ignored. -/
def readMessage (msg : Bytes) (p : DataPath) : DataPath :=
  match decodeMessage msg with
  | .ok (.frame frame) => p.readFrame frame
  | .ok (.control _) | .error _ => p

/-- `ProxyDevice::receive`. -/
def receive (p : DataPath) : Option Bytes × DataPath :=
  match p.rx.tryRecv with
  | .ok (frame, rx) => (some frame, { p with rx := rx, deviceRxFrames := p.deviceRxFrames+1 })
  | .error _ => (none, p)

/-- `ProxyTxToken::consume` with a buffer that smoltcp has filled. -/
def consume (buffer : Bytes) (p : DataPath) : DataPath :=
  match p.writer.frames.trySend buffer with
  | .error _ => { p with deviceTxDropped := p.deviceTxDropped+1 }
  | .ok _ => { p with
      writer := p.writer.offerFrame buffer buffer
      deviceTxFrames := p.deviceTxFrames+1 }

section Observed

-- The observer sees what the calls are given and return, and which counters they move.

def observeMessage (msg : Bytes) (p : DataPath) : DataPath :=
  let next := p.readMessage msg
  let dropped := decide (next.ipcRxDropped ≠ p.ipcRxDropped)
  { next with received := p.received ++ (frameOf msg).toList.map fun frame => (frame, dropped) }

def observeReceive (p : DataPath) : DataPath :=
  { p.receive.2 with handed := p.handed ++ p.receive.1.toList }

def observeConsume (buffer : Bytes) (p : DataPath) : DataPath :=
  let next := p.consume buffer
  let dropped := decide (next.deviceTxDropped ≠ p.deviceTxDropped)
  { next with transmitted := p.transmitted ++ [(buffer, dropped)] }

end Observed

/-- Only the device puts frames into the channel to the writer. -/
def step : DataAction → DataPath → Option DataPath
  | .message msg, p => if p.readerAlive then some (p.observeMessage msg) else none
  | .receive, p => some p.observeReceive
  | .consume buffer, p => some (p.observeConsume buffer)
  | .write (.offerFrame _), _ => none
  | .write a, p => (ipcWriter a p.writer).map fun s => { p with writer := s }
  | .dropReader, p => some p.exitReader
  | .dropDevice, p => some { p with
      rx := p.rx.dropRx
      writer := { p.writer with frames := p.writer.frames.dropTx } }

/-- Both frame channels have both of their ends. -/
def Open (p : DataPath) : Prop :=
  p.rx.txAlive = true ∧ p.rx.rxAlive = true ∧
    p.writer.frames.txAlive = true ∧ p.writer.frames.rxAlive = true

@[simp] theorem observeMessage_received (msg : Bytes) (p : DataPath) :
    (p.observeMessage msg).received.map Prod.fst =
      p.received.map Prod.fst ++ (frameOf msg).toList := by
  cases h : frameOf msg <;> simp [observeMessage, h]

theorem observeMessage_none {msg : Bytes} (h : frameOf msg = none) (p : DataPath) :
    p.observeMessage msg = p := by
  have hsame : p.readMessage msg = p := by
    unfold readMessage
    split
    · next hframe => simp [frameOf, hframe, Message.frame?] at h
    · rfl
    · rfl
  simp [observeMessage, hsame, h]

theorem readMessage_frame {msg frame : Bytes} (h : frameOf msg = some frame) (p : DataPath) :
    p.readMessage msg = p.readFrame frame := by
  unfold readMessage
  unfold frameOf at h
  split
  · next hframe =>
    rw [hframe] at h
    rw [show _ = frame from Option.some.inj h]
  · next hcontrol =>
    rw [hcontrol] at h
    cases h
  · next herror =>
    rw [herror] at h
    cases h

/-- What becomes of a frame that the reader has read. -/
theorem observeMessage_frame {msg frame : Bytes} (h : frameOf msg = some frame) (p : DataPath) :
    (∃ rx, p.rx.trySend frame = .ok rx ∧ p.observeMessage msg = { p with
      ipcRxFrames := p.ipcRxFrames+1, rx := rx, received := p.received ++ [(frame, false)] }) ∨
    (p.rx.trySend frame = .error .full ∧ p.observeMessage msg = { p with
      ipcRxFrames := p.ipcRxFrames+1, ipcRxDropped := p.ipcRxDropped+1,
      received := p.received ++ [(frame, true)] }) ∨
    (p.rx.trySend frame = .error .closed ∧ p.observeMessage msg = exitReader { p with
      ipcRxFrames := p.ipcRxFrames+1, received := p.received ++ [(frame, false)] }) := by
  rw [observeMessage, readMessage_frame h, h]
  cases hs : p.rx.trySend frame with
  | ok rx => exact .inl ⟨rx, rfl, by simp [readFrame, hs]⟩
  | error e =>
    cases e with
    | full => exact .inr (.inl ⟨rfl, by simp [readFrame, hs]⟩)
    | closed => exact .inr (.inr ⟨rfl, by simp [readFrame, hs, exitReader]⟩)

theorem observeReceive_cases (p : DataPath) :
    (∃ frame rx, p.rx.tryRecv = .ok (frame, rx) ∧ p.observeReceive = { p with
      rx := rx, deviceRxFrames := p.deviceRxFrames+1, handed := p.handed ++ [frame] }) ∨
    p.observeReceive = p := by
  rw [observeReceive]
  cases hr : p.rx.tryRecv with
  | ok r => exact .inl ⟨r.1, r.2, rfl, by simp [receive, hr]⟩
  | error e => exact .inr (by simp [receive, hr])

theorem observeConsume_cases (buffer : Bytes) (p : DataPath) :
    (∃ frames, p.writer.frames.trySend buffer = .ok frames ∧ p.observeConsume buffer = { p with
      writer := { p.writer with
        frames := frames, offeredFrames := p.writer.offeredFrames ++ [buffer] }
      deviceTxFrames := p.deviceTxFrames+1
      transmitted := p.transmitted ++ [(buffer, false)] }) ∨
    ∃ e, p.writer.frames.trySend buffer = .error e ∧ p.observeConsume buffer = { p with
      deviceTxDropped := p.deviceTxDropped+1
      transmitted := p.transmitted ++ [(buffer, true)] } := by
  rw [observeConsume]
  cases hs : p.writer.frames.trySend buffer with
  | ok frames => exact .inl ⟨frames, rfl, by simp [consume, hs, Sender.offerFrame]⟩
  | error e => exact .inr ⟨e, rfl, by simp [consume, hs]⟩

end DataPath

/-- Frames that have left a writer's channel and frames still in it. -/
def Sender.counted (s : Sender) : Nat := s.txFrames + s.txErrors + s.frames.queue.length

/-- A frame that leaves the channel is counted once, as sent or as an error. -/
theorem counted_take {s : Sender} {x : Bytes} {c : Chan Bytes} {n e : Nat}
    (h : s.frames.tryRecv = .ok (x, c)) (hn : n + e = s.txFrames + s.txErrors + 1) :
    c.rxAlive = s.frames.rxAlive ∧ n + e + c.queue.length = s.counted := by
  obtain ⟨hq, -, hrx, -⟩ := Chan.tryRecv_ok h
  refine ⟨hrx, ?_⟩
  rw [Sender.counted, hq, List.length_cons]
  omega

/-- A step of the writer or of those who send it control messages keeps the count, unless the
task ends and drops the channel. -/
theorem ipcWriter_counted {a : SendAction} {s s' : Sender} (ha : ∀ f, a ≠ .offerFrame f)
    (h : ipcWriter a s = some s') (hrx : s'.frames.rxAlive = true) :
    s.frames.rxAlive = true ∧ s'.counted = s.counted := by
  have hexit : ∀ u : Sender, s' = u.exit → s.frames.rxAlive = true ∧ s'.counted = s.counted := by
    rintro u rfl
    cases hrx
  cases a with
  | offerFrame f => exact absurd rfl (ha f)
  | offerControl p =>
    simp only [ipcWriter, Sender.offerControl] at h
    split at h
    · obtain rfl := Option.some.inj h
      exact ⟨hrx, rfl⟩
    · cases h
  | dropFrames | dropControl =>
    obtain rfl := Option.some.inj h
    exact ⟨hrx, rfl⟩
  | recvFrame r =>
    simp only [ipcWriter] at h
    split at h
    · next frame c hp hr =>
      cases r with
      | ok =>
        obtain rfl := Option.some.inj h
        obtain ⟨halive, hcount⟩ := counted_take (n := s.txFrames+1) (e := s.txErrors) hr (by omega)
        exact ⟨halive ▸ hrx, hcount⟩
      | failed written => exact hexit _ (Option.some.inj h).symm
    · exact hexit _ (Option.some.inj h).symm
    · cases h
  | recvControl r =>
    simp only [ipcWriter] at h
    split at h
    · cases r with
      | ok =>
        obtain rfl := Option.some.inj h
        exact ⟨hrx, rfl⟩
      | failed written => exact hexit _ (Option.some.inj h).symm
    · exact hexit _ (Option.some.inj h).symm
    · cases h
  | advance r =>
    simp only [ipcWriter] at h
    split at h
    · split at h
      · next frame c hr =>
        cases r with
        | ok =>
          obtain rfl := Option.some.inj h
          obtain ⟨halive, hcount⟩ :=
            counted_take (n := s.txFrames+1) (e := s.txErrors) hr (by omega)
          exact ⟨halive ▸ hrx, hcount⟩
        | failed written =>
          obtain rfl := Option.some.inj h
          obtain ⟨halive, hcount⟩ :=
            counted_take (n := s.txFrames) (e := s.txErrors+1) hr (by omega)
          exact ⟨halive ▸ hrx, hcount⟩
      · obtain rfl := Option.some.inj h
        exact ⟨hrx, rfl⟩
    · split at h
      · cases r <;> obtain rfl := Option.some.inj h <;> exact ⟨hrx, rfl⟩
      · obtain rfl := Option.some.inj h
        exact ⟨hrx, rfl⟩
    · cases r with
      | ok =>
        obtain rfl := Option.some.inj h
        exact ⟨hrx, rfl⟩
      | failed written => exact hexit _ (Option.some.inj h).symm
    · cases h
    · cases h
  | abort =>
    simp only [ipcWriter] at h
    split_ifs at h
    exact hexit _ (Option.some.inj h).symm

theorem length_history (history : List (Bytes × Bool)) :
    history.length = droppedFrames history + (keptFrames history).length := by
  have h := List.length_eq_length_filter_add (l := history) (fun f => f.2)
  simpa [keptFrames, droppedFrames] using h

/-- The books of the frame path. What concerns the contents of a channel holds as long as its
receiver exists. -/
structure Accounted (p : DataPath) : Prop where
  read : p.ipcRxFrames = p.received.length
  dropped : p.ipcRxDropped = droppedFrames p.received
  deviceRx : p.deviceRxFrames = p.handed.length
  flow : Chan.Flow p.handed p.rx (keptFrames p.received)
  deviceTx : p.writer.frames.rxAlive = true → p.deviceTxFrames = p.writer.counted
  transmitted : p.deviceTxFrames = (keptFrames p.transmitted).length
  txDropped : p.deviceTxDropped = droppedFrames p.transmitted

namespace Accounted

variable {p p' : DataPath}

theorem observeMessage (h : Accounted p) (msg : Bytes) : Accounted (p.observeMessage msg) := by
  cases hf : frameOf msg with
  | none =>
    rw [DataPath.observeMessage_none hf]
    exact h
  | some frame =>
    rcases DataPath.observeMessage_frame hf p with ⟨rx, hrx, he⟩ | ⟨-, he⟩ | ⟨hclosed, he⟩
    · rw [he]
      refine ⟨by simp [h.read], by simpa [droppedFrames] using h.dropped, h.deviceRx, ?_,
        h.deviceTx, h.transmitted, h.txDropped⟩
      simpa [keptFrames] using h.flow.trySend hrx
    · rw [he]
      refine ⟨by simp [h.read], by simp [h.dropped, droppedFrames], h.deviceRx, ?_, h.deviceTx,
        h.transmitted, h.txDropped⟩
      simpa [keptFrames] using h.flow
    · rw [he]
      -- The frame is counted as read, but the stack task is gone and nobody will get it.
      have hflow := h.flow.lose (Chan.trySend_closed hclosed) [frame]
      refine ⟨by simp [DataPath.exitReader, h.read],
        by simpa [DataPath.exitReader, droppedFrames] using h.dropped, h.deviceRx, ?_, h.deviceTx,
        h.transmitted, h.txDropped⟩
      simpa [DataPath.exitReader, keptFrames] using hflow.dropTx

theorem observeReceive (h : Accounted p) : Accounted p.observeReceive := by
  rcases p.observeReceive_cases with ⟨frame, rx, hrx, he⟩ | he
  · rw [he]
    refine ⟨h.read, h.dropped, ?_, h.flow.tryRecv hrx, h.deviceTx, h.transmitted, h.txDropped⟩
    simp [h.deviceRx]
  · rw [he]
    exact h

theorem observeConsume (h : Accounted p) (buffer : Bytes) :
    Accounted (p.observeConsume buffer) := by
  rcases p.observeConsume_cases buffer with ⟨frames, hs, he⟩ | ⟨e, -, he⟩
  · rw [he]
    obtain ⟨halive, -, rfl⟩ := Chan.trySend_ok hs
    refine ⟨h.read, h.dropped, h.deviceRx, h.flow, fun _ => ?_, ?_, ?_⟩
    · have hcount := h.deviceTx halive
      simp only [Sender.counted, List.length_append, List.length_singleton]
      rw [hcount, Sender.counted]
      omega
    · simp [h.transmitted, keptFrames]
    · simpa [droppedFrames] using h.txDropped
  · rw [he]
    refine ⟨h.read, h.dropped, h.deviceRx, h.flow, h.deviceTx, ?_, ?_⟩
    · simpa [keptFrames] using h.transmitted
    · simp [h.txDropped, droppedFrames]

theorem step {a : DataAction} (h : Accounted p) (hs : DataPath.step a p = some p') :
    Accounted p' := by
  cases a with
  | message msg =>
    simp only [DataPath.step] at hs
    split_ifs at hs
    obtain rfl := Option.some.inj hs
    exact h.observeMessage msg
  | receive =>
    obtain rfl := Option.some.inj hs
    exact h.observeReceive
  | consume buffer =>
    obtain rfl := Option.some.inj hs
    exact h.observeConsume buffer
  | write b =>
    have hne : ∀ f, b ≠ .offerFrame f := by
      rintro f rfl
      cases hs
    have hmap : (ipcWriter b p.writer).map (fun s => { p with writer := s }) = some p' := by
      cases b with
      | offerFrame f => cases hs
      | _ => exact hs
    obtain ⟨s, hw, rfl⟩ := Option.map_eq_some_iff.mp hmap
    refine ⟨h.read, h.dropped, h.deviceRx, h.flow, fun hrx => ?_, h.transmitted, h.txDropped⟩
    obtain ⟨halive, hcount⟩ := ipcWriter_counted hne hw hrx
    exact (h.deviceTx halive).trans hcount.symm
  | dropReader =>
    obtain rfl := Option.some.inj hs
    exact ⟨h.read, h.dropped, h.deviceRx, h.flow.dropTx, h.deviceTx, h.transmitted, h.txDropped⟩
  | dropDevice =>
    obtain rfl := Option.some.inj hs
    exact ⟨h.read, h.dropped, h.deviceRx, h.flow.dropRx, h.deviceTx, h.transmitted, h.txDropped⟩

theorem reachable (h : Reachable DataPath.step DataPath.new p) : Accounted p := by
  refine h.invariant DataPath.step Accounted ?_ (fun _ _ _ hs _ hstep => hs.step hstep)
  exact ⟨rfl, rfl, rfl, Chan.flow_new _, fun _ => rfl, rfl, rfl⟩

end Accounted

/-- Frames are accounted for: after every step, while the frame channels are open, every frame
is counted in one category at each point of the path, and smoltcp gets the frames that were not
counted as dropped, in order. -/
theorem frames_accounted (p : DataPath) (h : Reachable DataPath.step DataPath.new p)
    (hopen : p.Open) :
    p.ipcRxFrames = p.ipcRxDropped + p.deviceRxFrames + p.rx.queue.length ∧
    p.deviceTxFrames = p.writer.txFrames + p.writer.txErrors + p.writer.frames.queue.length ∧
    p.transmitted.length = p.deviceTxFrames + p.deviceTxDropped ∧
    p.deviceTxDropped = droppedFrames p.transmitted ∧
    p.ipcRxFrames = p.received.length ∧
    p.ipcRxDropped = droppedFrames p.received ∧
    p.deviceRxFrames = p.handed.length ∧
    p.handed ++ p.rx.queue = keptFrames p.received := by
  have hacc := Accounted.reachable h
  obtain ⟨-, hrx, -, hwx⟩ := hopen
  have hflow := hacc.flow.eq_of_rxAlive hrx
  refine ⟨?_, hacc.deviceTx hwx, ?_, hacc.txDropped, hacc.read, hacc.dropped, hacc.deviceRx, hflow⟩
  · have hlen := congrArg List.length hflow
    rw [List.length_append] at hlen
    rw [hacc.read, length_history, hacc.dropped, hacc.deviceRx, ← hlen, Nat.add_assoc]
  · rw [length_history, hacc.transmitted, hacc.txDropped, Nat.add_comm]

instance (p : DataPath) : Decidable p.Open :=
  inferInstanceAs (Decidable (p.rx.txAlive = true ∧ p.rx.rxAlive = true ∧
    p.writer.frames.txAlive = true ∧ p.writer.frames.rxAlive = true))

/-- Two frames and an undecodable message come in, the device takes one frame; it sends three,
of which the writer sends one and fails on the next. -/
def dataRun : List DataAction :=
  [.message (encodeFrame [1]), .message [7], .message (encodeFrame [2]), .receive,
    .consume [3], .consume [4], .consume [5], .write (.recvFrame .ok),
    .write (.advance (.failed 2))]

theorem frames_accounted_dataRun :
    ∃ p, Reachable DataPath.step DataPath.new p ∧ p.Open ∧ p.writer.txErrors = 1 ∧
      p.ipcRxFrames = p.ipcRxDropped + p.deviceRxFrames + p.rx.queue.length ∧
      p.deviceTxFrames = p.writer.txFrames + p.writer.txErrors + p.writer.frames.queue.length ∧
      p.handed ++ p.rx.queue = [[1], [2]] := by
  obtain ⟨p, hr, -, hp⟩ := reachable_of_run DataPath.step dataRun DataPath.new
    (fun p => decide (p.Open ∧ p.writer.txErrors = 1 ∧ keptFrames p.received = [[1], [2]]))
    (by decide +kernel)
  obtain ⟨hopen, herr, hkept⟩ := of_decide_eq_true hp
  obtain ⟨hrx, htx, -, -, -, -, -, hflow⟩ := frames_accounted p hr hopen
  exact ⟨p, hr, hopen, herr, hrx, htx, hflow.trans hkept⟩

end TapTunnel.Ipc
