import TapTunnel.Ipc.Writer

namespace TapTunnel.Ipc

open Framework

/-- How a frame stands in the frame queue, what is written for a queued entry, and which frame
that entry carries. -/
structure FrameForm where
  queued : Bytes → Bytes
  sent : Bytes → Bytes
  body : Bytes → Bytes
  sent_queued : ∀ f, sent (queued f) = encodeFrame f
  body_queued : ∀ f, body (queued f) = f

/-- The library encodes a frame when it writes it. -/
def ipcForm : FrameForm := ⟨id, encodeFrame, id, fun _ => rfl, fun _ => rfl⟩

/-- The proxy queues encoded frames. -/
def relayForm : FrameForm := ⟨encodeFrame, id, List.tail, fun _ => rfl, fun _ => rfl⟩

/-- The action's writes succeed. -/
def SendAction.NoError : SendAction → Prop
  | .recvFrame r | .recvControl r | .advance r => r = .ok
  | .offerFrame _ | .offerControl _ | .dropFrames | .dropControl | .abort => True

instance (a : SendAction) : Decidable a.NoError := by
  cases a <;> unfold SendAction.NoError <;> infer_instance

/-- The action is not a producer's. -/
def SendAction.silent : SendAction → Bool
  | .offerFrame _ | .offerControl _ => false
  | _ => true

/-- Everything the action `a`, without an I/O error, can do to a writer task. -/
inductive SendStep (form : FrameForm) (a : SendAction) (s : Sender) : Sender → Prop
  | refused (f : Bytes) (ha : a = .offerFrame f) : SendStep form a s s
  | offerFrame (f : Bytes) {c : Chan Bytes} (ha : a = .offerFrame f)
      (h : s.frames.trySend (form.queued f) = .ok c) :
      SendStep form a s { s with frames := c, offeredFrames := s.offeredFrames ++ [f] }
  | offerControl (p : Bytes) {c : Chan Bytes} (ha : a = .offerControl p)
      (h : s.control.trySend (msgTypeControl::p) = .ok c) :
      SendStep form a s { s with control := c, offeredControls := s.offeredControls ++ [p] }
  | dropFrames (ha : a.silent = true) : SendStep form a s { s with frames := s.frames.dropTx }
  | dropControl (ha : a.silent = true) : SendStep form a s { s with control := s.control.dropTx }
  | takeFrame {x : Bytes} {c : Chan Bytes} (n : Nat) (ha : a.silent = true)
      (hp : s.phase ≠ .exited) (h : s.frames.tryRecv = .ok (x, c)) :
      SendStep form a s { { s with frames := c }.emit (.frame (form.body x)) (form.sent x) .ok with
        txFrames := n, phase := .drainFrames }
  | takeControl {x : Bytes} {c : Chan Bytes} {ph : SendPhase} (ha : a.silent = true)
      (hp : s.phase ≠ .exited) (hph : ph = .drainFrames ∨ ph = .drainControl)
      (h : s.control.tryRecv = .ok (x, c)) :
      SendStep form a s { { s with control := c }.emit (.control x.tail) x .ok with phase := ph }
  | move {ph : SendPhase} (ha : a.silent = true) (hp : s.phase ≠ .exited)
      (hph : ph = .drainControl ∨ ph = .flush) : SendStep form a s { s with phase := ph }
  | flush (ha : a.silent = true) (hp : s.phase ≠ .exited) :
      SendStep form a s { s with writer := s.writer.flush, phase := .select }
  | exit {w : BufWriter} (ha : a.silent = true) (hw : w = s.writer ∨ w = s.writer.flush) :
      SendStep form a s { s with writer := w }.exit

theorem Sender.offerFrame_step (form : FrameForm) (f : Bytes) (s : Sender) :
    SendStep form (.offerFrame f) s (s.offerFrame f (form.queued f)) := by
  unfold Sender.offerFrame
  split
  · next c h => exact .offerFrame f rfl h
  · exact .refused f rfl

theorem Sender.offerControl_step {form : FrameForm} {p : Bytes} {s s' : Sender}
    (h : s.offerControl p = some s') : SendStep form (.offerControl p) s s' := by
  unfold Sender.offerControl at h
  split at h
  · next c hc =>
    obtain rfl := Option.some.inj h
    exact .offerControl p rfl hc
  · cases h

/-- What the two writer tasks differ in: how they queue and send frames, whether they keep counters,
whether a failed write in a drain loop ends that loop only, whether they flush when the frame queue
is closed, and whether a closed control queue ends them. -/
structure WriterKind where
  form : FrameForm
  counts : Bool
  drainsOn : Bool
  flushesLast : Bool
  endsWithControl : Bool

def ipcKind : WriterKind := ⟨ipcForm, true, true, false, true⟩

def relayKind : WriterKind := ⟨relayForm, false, false, true, false⟩

namespace WriterKind

variable (k : WriterKind)

/-- A write has failed; `next` is where a task goes on that does. -/
def failed (errors : Nat) (next : Option SendPhase) (s : Sender) : Sender :=
  let s := { s with
    txErrors := if k.counts then s.txErrors+errors else s.txErrors
    ipcDead := k.counts || s.ipcDead }
  match next, k.drainsOn with
  | some ph, true => { s with phase := ph }
  | _, _ => s.exit

/-- A frame is taken from its queue and written. -/
def passFrame (x : Bytes) (c : Chan Bytes) (r : WriteResult) (next : Option SendPhase)
    (s : Sender) : Sender :=
  let s := { s with frames := c }.emit (.frame (k.form.body x)) (k.form.sent x) r
  match r with
  | .ok => { s with
      txFrames := if k.counts then s.txFrames+1 else s.txFrames, phase := .drainFrames }
  | .failed _ => k.failed 1 next s

def passControl (x : Bytes) (c : Chan Bytes) (r : WriteResult) (ph : SendPhase)
    (next : Option SendPhase) (s : Sender) : Sender :=
  let s := { s with control := c }.emit (.control x.tail) x r
  match r with
  | .ok => { s with phase := ph }
  | .failed _ => k.failed 0 next s

/-- The loop of either writer task. -/
def task : SendAction → Sender → Option Sender
  | .offerFrame frame, s => some (s.offerFrame frame (k.form.queued frame))
  | .offerControl payload, s => s.offerControl payload
  | .dropFrames, s => some { s with frames := s.frames.dropTx }
  | .dropControl, s => some { s with control := s.control.dropTx }
  | .recvFrame r, s =>
    match s.phase, s.frames.tryRecv with
    | .select, .ok (x, c) => some (k.passFrame x c r none s)
    | .select, .error .disconnected =>
      some (if k.flushesLast then { s with writer := flushWriter r s.writer } else s).exit
    | _, _ => none
  | .recvControl r, s =>
    match s.phase, s.control.tryRecv with
    | .select, .ok (x, c) => some (k.passControl x c r .drainFrames none s)
    | .select, .error .disconnected => if k.endsWithControl then some s.exit else none
    | _, _ => none
  | .advance r, s =>
    match s.phase with
    | .drainFrames =>
      match s.frames.tryRecv with
      | .ok (x, c) => some (k.passFrame x c r (some .drainControl) s)
      | .error _ => some { s with phase := .drainControl }
    | .drainControl =>
      match s.control.tryRecv with
      | .ok (x, c) => some (k.passControl x c r .drainControl (some .flush) s)
      | .error _ => some { s with phase := .flush }
    | .flush =>
      let s := { s with writer := flushWriter r s.writer }
      match r with
      | .ok => some { s with phase := .select }
      | .failed _ => some (k.failed 0 none s)
    | .select | .exited => none
  | .abort, s => if s.phase = .exited then none else some s.exit

end WriterKind

/-- A drain loop that goes on keeps its phase. -/
theorem ipcWriter_eq : ipcWriter = ipcKind.task := by
  funext a ⟨frames, control, ph, writer, ipcDead, txFrames, txErrors, offF, offC, log⟩
  cases a with
  | recvFrame r | recvControl r => cases r <;> rfl
  | advance r => cases ph <;> cases r <;> rfl
  | _ => rfl

theorem relayWriter_eq : relayWriter = relayKind.task := by
  funext a ⟨frames, control, ph, writer, ipcDead, txFrames, txErrors, offF, offC, log⟩
  cases a with
  | recvFrame r => cases r <;> rfl
  | recvControl r =>
    simp only [relayWriter, WriterKind.task]
    cases hr : control.tryRecv with
    | ok p => cases ph <;> cases r <;> rfl
    | error e => cases ph <;> cases e <;> rfl
  | advance r => cases ph <;> cases r <;> rfl
  | _ => rfl

theorem WriterKind.task_step (k : WriterKind) {a : SendAction} {s s' : Sender} (ha : a.NoError)
    (h : k.task a s = some s') : SendStep k.form a s s' := by
  cases a with
  | offerFrame f =>
    obtain rfl := Option.some.inj h
    exact s.offerFrame_step k.form f
  | offerControl p => exact Sender.offerControl_step h
  | dropFrames =>
    obtain rfl := Option.some.inj h
    exact .dropFrames rfl
  | dropControl =>
    obtain rfl := Option.some.inj h
    exact .dropControl rfl
  | recvFrame r =>
    obtain rfl : r = .ok := ha
    simp only [task] at h
    split at h
    · next hp hr =>
      obtain rfl := Option.some.inj h
      exact .takeFrame _ rfl (by simp [hp]) hr
    · obtain rfl := Option.some.inj h
      split_ifs
      · exact .exit rfl (.inr rfl)
      · exact .exit rfl (.inl rfl)
    · cases h
  | recvControl r =>
    obtain rfl : r = .ok := ha
    simp only [task] at h
    split at h
    · next hp hr =>
      obtain rfl := Option.some.inj h
      exact .takeControl rfl (by simp [hp]) (.inl rfl) hr
    · split_ifs at h
      obtain rfl := Option.some.inj h
      exact .exit rfl (.inl rfl)
    · cases h
  | advance r =>
    obtain rfl : r = .ok := ha
    simp only [task] at h
    split at h
    · next hp =>
      split at h
      · next hr =>
        obtain rfl := Option.some.inj h
        exact .takeFrame _ rfl (by simp [hp]) hr
      · obtain rfl := Option.some.inj h
        exact .move rfl (by simp [hp]) (.inl rfl)
    · next hp =>
      split at h
      · next hr =>
        obtain rfl := Option.some.inj h
        exact .takeControl rfl (by simp [hp]) (.inr rfl) hr
      · obtain rfl := Option.some.inj h
        exact .move rfl (by simp [hp]) (.inr rfl)
    · next hp =>
      obtain rfl := Option.some.inj h
      exact .flush rfl (by simp [hp])
    · cases h
    · cases h
  | abort =>
    simp only [task] at h
    split_ifs at h
    obtain rfl := Option.some.inj h
    exact .exit rfl (.inl rfl)

theorem ipcWriter_step {a : SendAction} {s s' : Sender} (ha : a.NoError)
    (h : ipcWriter a s = some s') : SendStep ipcForm a s s' :=
  ipcKind.task_step ha (ipcWriter_eq ▸ h)

theorem relayWriter_step {a : SendAction} {s s' : Sender} (ha : a.NoError)
    (h : relayWriter a s = some s') : SendStep relayForm a s s' :=
  relayKind.task_step ha (relayWriter_eq ▸ h)

theorem writeFramed_ok_content (msg : Bytes) (w : BufWriter) :
    (writeFramed msg .ok w).content = w.content ++ delimit msg := by
  simp [writeFramed, BufWriter.writeAll_content, delimit]

theorem out_prefix_writeFramed_ok (msg : Bytes) (w : BufWriter) :
    w.out <+: (writeFramed msg .ok w).out :=
  (w.out_prefix_writeAll _).trans (BufWriter.out_prefix_writeAll _ _)

/-- The wire form of some messages, one behind the other. -/
def wireOf (ms : List Message) : Bytes := (ms.map Message.encode).flatMap delimit

theorem wireOf_concat (ms : List Message) (m : Message) :
    wireOf (ms++[m]) = wireOf ms ++ delimit m.encode := by
  simp [wireOf]

/-- Both queues are emptied in the order in which they were filled, for as long as the task runs. -/
structure Drained (form : FrameForm) (s : Sender) : Prop where
  frames : Chan.Flow ((framesOf s.log).map form.queued) s.frames
    (s.offeredFrames.map form.queued)
  control : Chan.Flow ((controlsOf s.log).map (msgTypeControl::·)) s.control
    (s.offeredControls.map (msgTypeControl::·))
  alive : s.phase ≠ .exited → s.frames.rxAlive = true ∧ s.control.rxAlive = true

namespace Drained

variable {form : FrameForm} {s s' : Sender}

/-- A frame is taken from its queue, whatever becomes of its write. -/
theorem takeFrame (hs : Drained form s) {x : Bytes} {c : Chan Bytes} (r : WriteResult)
    (h : s.frames.tryRecv = .ok (x, c)) :
    Drained form ({ s with frames := c }.emit (.frame (form.body x)) (form.sent x) r) := by
  obtain ⟨f, -, rfl⟩ := List.mem_map.mp (hs.frames.mem_of_tryRecv h)
  have hflow := hs.frames.tryRecv h
  obtain ⟨-, -, hrx, -⟩ := Chan.tryRecv_ok h
  refine ⟨?_, ?_, fun hp => ⟨hrx.trans (hs.alive hp).1, (hs.alive hp).2⟩⟩
  · simpa [Sender.emit, form.body_queued] using hflow
  · simpa [Sender.emit] using hs.control

theorem takeControl (hs : Drained form s) {x : Bytes} {c : Chan Bytes} (r : WriteResult)
    (h : s.control.tryRecv = .ok (x, c)) :
    Drained form ({ s with control := c }.emit (.control x.tail) x r) := by
  obtain ⟨p, -, rfl⟩ := List.mem_map.mp (hs.control.mem_of_tryRecv h)
  have hflow := hs.control.tryRecv h
  obtain ⟨-, -, hrx, -⟩ := Chan.tryRecv_ok h
  refine ⟨?_, ?_, fun hp => ⟨(hs.alive hp).1, hrx.trans (hs.alive hp).2⟩⟩
  · simpa [Sender.emit] using hs.frames
  · simpa [Sender.emit] using hflow

theorem exit (hs : Drained form s) : Drained form s.exit :=
  ⟨hs.frames.dropRx, hs.control.dropRx, fun h => absurd rfl h⟩

/-- What the task does beside its queues. -/
theorem goOn (hs : Drained form s) (hp : s.phase ≠ .exited) (w : BufWriter) (dead : Bool)
    (n e : Nat) (ph : SendPhase) : Drained form { s with
      writer := w, ipcDead := dead, txFrames := n, txErrors := e, phase := ph } :=
  ⟨hs.frames, hs.control, fun _ => hs.alive hp⟩

theorem step {a : SendAction} (hs : Drained form s) (h : SendStep form a s s') :
    Drained form s' := by
  cases h with
  | refused f ha => exact hs
  | offerFrame f ha h =>
    obtain ⟨hrx, -, rfl⟩ := Chan.trySend_ok h
    refine ⟨?_, hs.control, hs.alive⟩
    rw [List.map_append]
    exact hs.frames.trySend h
  | offerControl p ha h =>
    obtain ⟨hrx, -, rfl⟩ := Chan.trySend_ok h
    refine ⟨hs.frames, ?_, hs.alive⟩
    rw [List.map_append]
    exact hs.control.trySend h
  | dropFrames ha => exact ⟨hs.frames.dropTx, hs.control, hs.alive⟩
  | dropControl ha => exact ⟨hs.frames, hs.control.dropTx, hs.alive⟩
  | takeFrame n ha hp h => exact (hs.takeFrame .ok h).goOn hp _ _ n _ _
  | takeControl ha hp hph h => exact (hs.takeControl .ok h).goOn hp _ _ _ _ _
  | move ha hp hph => exact hs.goOn hp _ _ _ _ _
  | flush ha hp => exact hs.goOn hp _ _ _ _ _
  | exit ha hw => exact ⟨hs.frames.dropRx, hs.control.dropRx, fun h => absurd rfl h⟩

end Drained

/-- Bookkeeping of a writer task whose writes have all succeeded: the bytes written are those of
the messages dequeued, nothing is left in the buffer while the task waits in its select, and both
queues are emptied in the order in which they were filled. -/
structure Sent (form : FrameForm) (s : Sender) : Prop where
  content : s.writer.content = wireOf s.log
  flushed : s.phase = .select → s.writer.buf = []
  frames : Chan.Flow ((framesOf s.log).map form.queued) s.frames
    (s.offeredFrames.map form.queued)
  control : Chan.Flow ((controlsOf s.log).map (msgTypeControl::·)) s.control
    (s.offeredControls.map (msgTypeControl::·))
  alive : s.phase ≠ .exited → s.frames.rxAlive = true ∧ s.control.rxAlive = true

theorem new_sent (form : FrameForm) (frameCap controlCap bufferSize : Nat) :
    Sent form (.new frameCap controlCap bufferSize) :=
  ⟨rfl, fun _ => rfl, Chan.flow_new _, Chan.flow_new _, fun _ => ⟨rfl, rfl⟩⟩

namespace Sent

variable {form : FrameForm} {s s' : Sender}

theorem drained (hs : Sent form s) : Drained form s := ⟨hs.frames, hs.control, hs.alive⟩

/-- The step lemma. -/
theorem step {a : SendAction} (hs : Sent form s) (h : SendStep form a s s') : Sent form s' := by
  have hd := hs.drained.step h
  refine ⟨?_, ?_, hd.frames, hd.control, hd.alive⟩
  · cases h with
    | takeFrame n ha hp h =>
      obtain ⟨f, -, rfl⟩ := List.mem_map.mp (hs.frames.mem_of_tryRecv h)
      simp only [Sender.emit, writeFramed_ok_content, hs.content, wireOf_concat, form.sent_queued,
        form.body_queued, Message.encode]
    | takeControl ha hp hph h =>
      obtain ⟨p, -, rfl⟩ := List.mem_map.mp (hs.control.mem_of_tryRecv h)
      simp only [Sender.emit, writeFramed_ok_content, hs.content, wireOf_concat, List.tail_cons,
        Message.encode]
    | flush ha hp => exact s.writer.flush_content.trans hs.content
    | exit ha hw =>
      obtain rfl | rfl := hw
      · exact hs.content
      · exact s.writer.flush_content.trans hs.content
    | _ => exact hs.content
  · cases h with
    | takeFrame | exit =>
      intro hph
      cases hph
    | takeControl ha hp hph | move ha hp hph =>
      rintro rfl
      obtain hph | hph := hph <;> cases hph
    | flush => exact fun _ => rfl
    | _ => exact hs.flushed

end Sent

namespace SendStep

variable {form : FrameForm} {a : SendAction} {s s' : Sender}

/-- What has reached the socket stays there, in front of everything that follows. -/
theorem out_prefix (h : SendStep form a s s') : s.writer.out <+: s'.writer.out := by
  cases h with
  | takeFrame n ha hp h => exact out_prefix_writeFramed_ok _ _
  | takeControl ha hp hph h => exact out_prefix_writeFramed_ok _ _
  | flush ha hp => exact List.prefix_append _ _
  | exit ha hw =>
    obtain rfl | rfl := hw
    · exact List.prefix_refl _
    · exact List.prefix_append _ _
  | _ => exact List.prefix_refl _

/-- Only its producer fills the control queue. -/
theorem offeredControls (h : SendStep form a s s') :
    s'.offeredControls = s.offeredControls ∧ (∀ p, a ≠ .offerControl p) ∨
      ∃ p, a = .offerControl p ∧ s'.offeredControls = s.offeredControls ++ [p] := by
  cases h with
  | offerControl p ha h => exact .inr ⟨p, ha, rfl⟩
  | refused f ha => exact .inl ⟨rfl, by rintro p rfl; cases ha⟩
  | offerFrame f ha h => exact .inl ⟨rfl, by rintro p rfl; cases ha⟩
  | takeFrame n ha hp h => exact .inl ⟨rfl, by rintro p rfl; cases ha⟩
  | _ ha => exact .inl ⟨rfl, by rintro p rfl; cases ha⟩

theorem offeredFrames (h : SendStep form a s s') :
    s'.offeredFrames = s.offeredFrames ∨
      ∃ f, a = .offerFrame f ∧ s'.offeredFrames = s.offeredFrames ++ [f] := by
  cases h with
  | offerFrame f ha h => exact .inr ⟨f, ha, rfl⟩
  | _ => exact .inl rfl

end SendStep

end TapTunnel.Ipc
