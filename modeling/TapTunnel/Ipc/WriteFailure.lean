import TapTunnel.Framework.Transition
import TapTunnel.Ipc.RoundTrip

namespace TapTunnel.Ipc

open Framework

variable {a : SendAction} {s s' : Sender}

/-- How the writes of a step go. -/
def SendAction.result : SendAction → WriteResult
  | .recvFrame r | .recvControl r | .advance r => r
  | .offerFrame _ | .offerControl _ | .dropFrames | .dropControl | .abort => .ok

/-- The message that a step takes from a queue to write it. -/
def Sender.next (s : Sender) : SendAction → Option Message
  | .recvFrame _ => if s.phase = .select then s.frames.queue.head?.map .frame else none
  | .recvControl _ =>
    if s.phase = .select then s.control.queue.head?.map fun msg => .control msg.tail else none
  | .advance _ =>
    match s.phase with
    | .drainFrames => s.frames.queue.head?.map .frame
    | .drainControl => s.control.queue.head?.map fun msg => .control msg.tail
    | .select | .flush | .exited => none
  | .offerFrame _ | .offerControl _ | .dropFrames | .dropControl | .abort => none

def Sender.flushes (s : Sender) : SendAction → Bool
  | .advance _ => decide (s.phase = .flush)
  | _ => false

/-- The step makes a write or a flush, and that fails. -/
def Sender.fails (s : Sender) (a : SendAction) : Bool :=
  decide (a.result ≠ .ok) && ((s.next a).isSome || s.flushes a)

/-- The task is in one of its drain loops. -/
def Sender.draining (s : Sender) : Bool :=
  decide (s.phase = .drainFrames ∨ s.phase = .drainControl)

/-- The writer of the task behind a step. -/
def Sender.writerAfter (s : Sender) (a : SendAction) : BufWriter :=
  match s.next a with
  | some m => writeFramed m.encode a.result s.writer
  | none => if s.flushes a then flushWriter a.result s.writer else s.writer

/-- The library's writer task under observation: `failed` says that a write or a flush has failed,
`drainFailed` that one has failed in a drain loop. -/
structure WriterRun where
  sender : Sender
  failed : Bool
  drainFailed : Bool

namespace WriterRun

def new (frameCap controlCap bufferSize : Nat) : WriterRun :=
  ⟨.new frameCap controlCap bufferSize, false, false⟩

def step (a : SendAction) (w : WriterRun) : Option WriterRun :=
  (ipcWriter a w.sender).map fun s =>
    { sender := s
      failed := w.failed || w.sender.fails a
      drainFailed := w.drainFailed || (w.sender.fails a && w.sender.draining) }

end WriterRun

/-- The bytes on the stream are the beginning of complete messages of the two queues, in their
orders. -/
def OnStream (s : Sender) : Prop :=
  ∃ ms, s.writer.out <+: wireOf ms ∧ framesOf ms <+: s.offeredFrames ∧
    controlsOf ms <+: s.offeredControls

/-- The stream is in order, and after a failed write nothing more has been put on it. -/
structure WireKept (w w' : WriterRun) : Prop where
  wire : OnStream w'.sender
  quiet : w.failed = true → w'.sender.writer.out = w.sender.writer.out

/-- There is room in the buffer for a message behind its length, or for as much of them as a write
that fails gets through. -/
def Buffered (w : BufWriter) (msg : Bytes) : WriteResult → Prop
  | .ok => w.buf.length+(4+msg.length) ≤ w.cap
  | .failed n =>
    n = 0 ∨ w.buf.length+min n (3+msg.length) ≤ w.cap ∧ min n (3+msg.length) < w.cap

/-- A message that is taken finds room in the buffer, and a flush finds nothing there or fails at
once. -/
def PutsNothing (s : Sender) (a : SendAction) : Prop :=
  (∀ m ∈ s.next a, Buffered s.writer m.encode a.result) ∧
    (s.flushes a = true → s.writer.buf = [] ∨ a.result = .failed 0)

section Writing

/-- The bytes of a message that are written. A failed write leaves out the last of them at least. -/
def written (msg : Bytes) : WriteResult → Bytes
  | .ok => delimit msg
  | .failed n => (delimit msg).dropLast.take n

theorem writeFramed_content (msg : Bytes) (r : WriteResult) (w : BufWriter) :
    (writeFramed msg r w).content = w.content ++ written msg r := by
  cases r with
  | ok => exact writeFramed_ok_content msg w
  | failed n => exact BufWriter.writeAll_content _ w

theorem written_initial (msg : Bytes) (r : WriteResult) : written msg r <+: delimit msg := by
  cases r with
  | ok => exact List.prefix_refl _
  | failed n => exact (List.take_prefix n _).trans (List.dropLast_prefix _)

theorem flushWriter_content (r : WriteResult) (w : BufWriter) :
    (flushWriter r w).content = w.content := by
  cases r with
  | ok => exact w.flush_content
  | failed n => simp [flushWriter, BufWriter.content]

theorem flushWriter_out_eq_iff (r : WriteResult) (w : BufWriter) :
    (flushWriter r w).out = w.out ↔ w.buf = [] ∨ r = .failed 0 := by
  cases r with
  | ok => simp [flushWriter, BufWriter.content]
  | failed n => simp [flushWriter, or_comm]

theorem writeFramed_out_eq_iff {w : BufWriter} (hw : w.buf.length ≤ w.cap) {msg : Bytes}
    (hmsg : msg ≠ []) (r : WriteResult) :
    (writeFramed msg r w).out = w.out ↔ Buffered w msg r := by
  cases r with
  | failed n =>
    have hlen : ((delimit msg).dropLast.take n).length = min n (3+msg.length) := by
      simp only [List.length_take, List.length_dropLast, delimit_length]
      omega
    have hnil : (delimit msg).dropLast.take n = [] ↔ n = 0 := by
      rw [← List.length_eq_zero_iff, hlen]
      omega
    rw [writeFramed, BufWriter.writeAll_out_eq_iff hw, hlen, hnil, Buffered]
  | ok =>
    have hpos : 0 < msg.length := List.length_pos_iff.mpr hmsg
    have hsize : beBytes msg.length ≠ [] := List.ne_nil_of_length_pos (by simp)
    have hfirst := BufWriter.writeAll_out_eq_iff hw (beBytes msg.length)
    simp only [hsize, false_or, beBytes_length] at hfirst
    have hroom := BufWriter.writeAll_room hw (beBytes msg.length)
    have hsecond := BufWriter.writeAll_out_eq_iff hroom msg
    simp only [hmsg, false_or, BufWriter.writeAll_cap] at hsecond
    -- While the length stays in the buffer, the buffer has grown by it.
    have hgrown : (w.writeAll (beBytes msg.length)).out = w.out →
        (w.writeAll (beBytes msg.length)).buf.length = w.buf.length+4 := by
      intro hout
      have hcontent := congrArg List.length (w.writeAll_content (beBytes msg.length))
      simp only [BufWriter.content, hout, List.length_append, beBytes_length] at hcontent
      omega
    rw [writeFramed, Buffered]
    constructor
    · intro hout
      have hback : (w.writeAll (beBytes msg.length)).out <+: w.out :=
        hout ▸ BufWriter.out_prefix_writeAll msg _
      have hlen := (w.out_prefix_writeAll (beBytes msg.length)).eq_of_length_le hback.length_le
      have := hgrown hlen.symm
      have := hsecond.mp (hout.trans hlen)
      omega
    · intro hfits
      have hlen := hfirst.mpr (by omega)
      have := hgrown hlen
      exact (hsecond.mpr (by omega)).trans hlen

theorem writerAfter_room (h : s.writer.buf.length ≤ s.writer.cap) (a : SendAction) :
    (s.writerAfter a).buf.length ≤ (s.writerAfter a).cap := by
  unfold Sender.writerAfter
  cases s.next a with
  | some m =>
    cases a.result with
    | ok => exact BufWriter.writeAll_room (BufWriter.writeAll_room h _) _
    | failed n => exact BufWriter.writeAll_room h _
  | none =>
    cases s.flushes a with
    | false => exact h
    | true =>
      cases a.result with
      | ok => exact Nat.zero_le _
      | failed n =>
        simp only [if_true, flushWriter, List.length_drop]
        omega

theorem writerAfter_out_eq_iff (hw : s.writer.buf.length ≤ s.writer.cap) :
    (s.writerAfter a).out = s.writer.out ↔ PutsNothing s a := by
  unfold Sender.writerAfter PutsNothing
  cases hm : s.next a with
  | some m =>
    -- A step that takes a message does not flush.
    have hflush : s.flushes a = false := by
      cases a with
      | advance r =>
        apply decide_eq_false
        intro hp
        simp [Sender.next, hp] at hm
      | _ => rfl
    have hmsg : m.encode ≠ [] := by cases m <;> simp [Message.encode, encodeFrame]
    simp [hflush, writeFramed_out_eq_iff hw hmsg]
  | none =>
    cases hf : s.flushes a with
    | true => simp [flushWriter_out_eq_iff]
    | false => simp

end Writing

/-- What a step of the task does, apart from its queues. -/
structure StepDone (s : Sender) (a : SendAction) (s' : Sender) : Prop where
  writer : s'.writer = s.writerAfter a
  log : s'.log = s.log ++ (s.next a).toList
  ended : s.fails a = true → s.draining = false → s'.phase = .exited
  gone : s.phase = .exited → s'.phase = .exited
  frames : s.offeredFrames <+: s'.offeredFrames
  controls : s.offeredControls <+: s'.offeredControls

namespace StepDone

/-- The step has no part in the writing. -/
theorem idle (hm : s.next a = none) (hf : s.flushes a = false) (hw : s'.writer = s.writer)
    (hl : s'.log = s.log) (hp : s.phase = .exited → s'.phase = .exited)
    (hframes : s.offeredFrames <+: s'.offeredFrames)
    (hcontrols : s.offeredControls <+: s'.offeredControls) : StepDone s a s' := by
  refine ⟨?_, ?_, ?_, hp, hframes, hcontrols⟩
  · simp [Sender.writerAfter, hm, hf, hw]
  · simp [hm, hl]
  · simp [Sender.fails, hm, hf]

/-- A message is taken and written. -/
theorem message {m : Message} (hm : s.next a = some m) (hp : s.phase ≠ .exited)
    (hw : s'.writer = writeFramed m.encode a.result s.writer) (hl : s'.log = s.log ++ [m])
    (hend : a.result ≠ .ok → s.draining = false → s'.phase = .exited)
    (hframes : s'.offeredFrames = s.offeredFrames)
    (hcontrols : s'.offeredControls = s.offeredControls) : StepDone s a s' := by
  refine ⟨?_, ?_, fun hf => hend ?_, fun h => absurd h hp, hframes ▸ List.prefix_rfl,
    hcontrols ▸ List.prefix_rfl⟩
  · simp [Sender.writerAfter, hm, hw]
  · simp [hm, hl]
  · simp only [Sender.fails, Bool.and_eq_true, decide_eq_true_eq] at hf
    exact hf.1

end StepDone

/-- What stands in the control queue is encoded already. -/
theorem Drained.encode_control {form : FrameForm} (hs : Drained form s) {x : Bytes} {c : Chan Bytes}
    (h : s.control.tryRecv = .ok (x, c)) : (Message.control x.tail).encode = x := by
  obtain ⟨p, -, rfl⟩ := List.mem_map.mp (hs.control.mem_of_tryRecv h)
  rfl

theorem ipcWriter_done (hs : Drained ipcForm s) (h : ipcWriter a s = some s') :
    StepDone s a s' := by
  cases a with
  | offerFrame f =>
    obtain rfl := Option.some.inj h
    unfold Sender.offerFrame
    split
    · exact .idle rfl rfl rfl rfl id (List.prefix_append _ _) List.prefix_rfl
    · exact .idle rfl rfl rfl rfl id List.prefix_rfl List.prefix_rfl
  | offerControl p =>
    simp only [ipcWriter, Sender.offerControl] at h
    split at h
    · obtain rfl := Option.some.inj h
      exact .idle rfl rfl rfl rfl id List.prefix_rfl (List.prefix_append _ _)
    · cases h
  | dropFrames | dropControl =>
    obtain rfl := Option.some.inj h
    exact .idle rfl rfl rfl rfl id List.prefix_rfl List.prefix_rfl
  | recvFrame r =>
    simp only [ipcWriter] at h
    split at h
    · next x c hp hr =>
      have hnext : s.next (.recvFrame r) = some (.frame x) := by
        simp [Sender.next, hp, (Chan.tryRecv_ok hr).1]
      cases r <;> obtain rfl := Option.some.inj h
      · exact .message hnext (by simp [hp]) rfl rfl (by simp [SendAction.result]) rfl rfl
      · exact .message hnext (by simp [hp]) rfl rfl (fun _ _ => rfl) rfl rfl
    · next hp hr =>
      obtain rfl := Option.some.inj h
      refine .idle ?_ rfl rfl rfl (fun _ => rfl) List.prefix_rfl List.prefix_rfl
      simp [Sender.next, Chan.tryRecv_error hr]
    · cases h
  | recvControl r =>
    simp only [ipcWriter] at h
    split at h
    · next x c hp hr =>
      have hnext : s.next (.recvControl r) = some (.control x.tail) := by
        simp [Sender.next, hp, (Chan.tryRecv_ok hr).1]
      cases r <;> obtain rfl := Option.some.inj h
      · exact .message hnext (by simp [hp]) (by rw [hs.encode_control hr]; rfl) rfl
          (by simp [SendAction.result]) rfl rfl
      · exact .message hnext (by simp [hp]) (by rw [hs.encode_control hr]; rfl) rfl
          (fun _ _ => rfl) rfl rfl
    · next hp hr =>
      obtain rfl := Option.some.inj h
      refine .idle ?_ rfl rfl rfl (fun _ => rfl) List.prefix_rfl List.prefix_rfl
      simp [Sender.next, Chan.tryRecv_error hr]
    · cases h
  | advance r =>
    simp only [ipcWriter] at h
    split at h
    · next hp =>
      have hdrain : s.draining = true := by simp [Sender.draining, hp]
      split at h
      · next x c hr =>
        have hnext : s.next (.advance r) = some (.frame x) := by
          simp [Sender.next, hp, (Chan.tryRecv_ok hr).1]
        cases r <;> obtain rfl := Option.some.inj h <;>
          exact .message hnext (by simp [hp]) rfl rfl (by simp [hdrain]) rfl rfl
      · next hr =>
        obtain rfl := Option.some.inj h
        exact .idle (by simp [Sender.next, hp, Chan.tryRecv_error hr])
          (by simp [Sender.flushes, hp]) rfl rfl (by simp [hp]) List.prefix_rfl List.prefix_rfl
    · next hp =>
      have hdrain : s.draining = true := by simp [Sender.draining, hp]
      split at h
      · next x c hr =>
        have hnext : s.next (.advance r) = some (.control x.tail) := by
          simp [Sender.next, hp, (Chan.tryRecv_ok hr).1]
        cases r <;> obtain rfl := Option.some.inj h <;>
          exact .message hnext (by simp [hp]) (by rw [hs.encode_control hr]; rfl) rfl
            (by simp [hdrain]) rfl rfl
      · next hr =>
        obtain rfl := Option.some.inj h
        exact .idle (by simp [Sender.next, hp, Chan.tryRecv_error hr])
          (by simp [Sender.flushes, hp]) rfl rfl (by simp [hp]) List.prefix_rfl List.prefix_rfl
    · next hp =>
      have hnext : s.next (.advance r) = none := by simp [Sender.next, hp]
      have hflush : s.flushes (.advance r) = true := by simp [Sender.flushes, hp]
      cases r <;> obtain rfl := Option.some.inj h
      · exact ⟨by simp [Sender.writerAfter, hnext, hflush, SendAction.result], by simp [hnext],
          by simp [Sender.fails, SendAction.result], by simp [hp], List.prefix_rfl, List.prefix_rfl⟩
      · exact ⟨by simp [Sender.writerAfter, hnext, hflush, SendAction.result, Sender.exit],
          by simp [hnext, Sender.exit], fun _ _ => rfl, fun _ => rfl, List.prefix_rfl,
          List.prefix_rfl⟩
    · cases h
    · cases h
  | abort =>
    simp only [ipcWriter] at h
    split_ifs at h
    obtain rfl := Option.some.inj h
    exact .idle rfl rfl rfl rfl (fun _ => rfl) List.prefix_rfl List.prefix_rfl

section Queues

variable {k : WriterKind}

theorem Drained.failed (hs : Drained k.form s) (hp : s.phase ≠ .exited) (errors : Nat)
    (next : Option SendPhase) : Drained k.form (k.failed errors next s) := by
  unfold WriterKind.failed
  simp only
  split
  · exact hs.goOn hp _ _ _ _ _
  · exact (hs.goOn hp _ _ _ _ s.phase).exit

/-- The queues are emptied in their order whatever becomes of the writes. -/
theorem Drained.task (hs : Drained k.form s) (h : k.task a s = some s') : Drained k.form s' := by
  by_cases hok : a.NoError
  · exact hs.step (k.task_step hok h)
  cases a with
  | recvFrame r =>
    simp only [WriterKind.task] at h
    split at h
    · next hp hr =>
      obtain rfl := Option.some.inj h
      cases r with
      | ok => exact absurd rfl hok
      | failed n => exact (hs.takeFrame (.failed n) hr).failed (by simp [Sender.emit, hp]) 1 none
    · next hp hr =>
      obtain rfl := Option.some.inj h
      split_ifs
      · exact (hs.goOn (by simp [hp]) _ _ _ _ s.phase).exit
      · exact hs.exit
    · cases h
  | recvControl r =>
    simp only [WriterKind.task] at h
    split at h
    · next hp hr =>
      obtain rfl := Option.some.inj h
      cases r with
      | ok => exact absurd rfl hok
      | failed n => exact (hs.takeControl (.failed n) hr).failed (by simp [Sender.emit, hp]) 0 none
    · split_ifs at h
      obtain rfl := Option.some.inj h
      exact hs.exit
    · cases h
  | advance r =>
    simp only [WriterKind.task] at h
    split at h
    · next hp =>
      split at h
      · next hr =>
        obtain rfl := Option.some.inj h
        cases r with
        | ok => exact absurd rfl hok
        | failed n => exact (hs.takeFrame (.failed n) hr).failed (by simp [Sender.emit, hp]) 1 _
      · obtain rfl := Option.some.inj h
        exact hs.goOn (by simp [hp]) _ _ _ _ _
    · next hp =>
      split at h
      · next hr =>
        obtain rfl := Option.some.inj h
        cases r with
        | ok => exact absurd rfl hok
        | failed n => exact (hs.takeControl (.failed n) hr).failed (by simp [Sender.emit, hp]) 0 _
      · obtain rfl := Option.some.inj h
        exact hs.goOn (by simp [hp]) _ _ _ _ _
    · next hp =>
      cases r with
      | ok => exact absurd rfl hok
      | failed n =>
        obtain rfl := Option.some.inj h
        have hne : s.phase ≠ .exited := by simp [hp]
        have hflush := hs.goOn hne (flushWriter (.failed n) s.writer) s.ipcDead s.txFrames
          s.txErrors s.phase
        exact hflush.failed hne 0 none
    · cases h
    · cases h
  | offerFrame | offerControl | dropFrames | dropControl | abort => exact absurd trivial hok

end Queues

/-- Bookkeeping of the task in any run: as long as no write has failed, the bytes are those of the
messages taken, and a task that runs after a failed write has had it in a drain loop. -/
structure Watched (w : WriterRun) : Prop where
  drained : Drained ipcForm w.sender
  room : w.sender.writer.buf.length ≤ w.sender.writer.cap
  whole : w.failed = false → w.sender.writer.content = wireOf w.sender.log
  drain : w.failed = true → w.drainFailed = true ∨ w.sender.phase = .exited
  failed : w.drainFailed = true → w.failed = true

namespace Watched

variable {w w' : WriterRun}

theorem new (frameCap controlCap bufferSize : Nat) :
    Watched (.new frameCap controlCap bufferSize) :=
  ⟨(new_sent ipcForm frameCap controlCap bufferSize).drained, Nat.zero_le _, fun _ => rfl,
    by simp [WriterRun.new], by simp [WriterRun.new]⟩

/-- Without a failed write the bytes of a step are the beginning of the message it takes. -/
theorem content (hw : Watched w) (hok : w.failed = false) {s : Sender}
    (h : StepDone w.sender a s) :
    s.writer.content <+: wireOf s.log ∧
      (w.sender.fails a = false → s.writer.content = wireOf s.log) := by
  have hwhole := hw.whole hok
  have hwriter := h.writer
  have hlog := h.log
  unfold Sender.writerAfter at hwriter
  cases hm : w.sender.next a with
  | some m =>
    simp only [hm, Option.toList_some] at hwriter hlog
    rw [hwriter, writeFramed_content, hlog, wireOf_concat, hwhole]
    refine ⟨(List.prefix_append_right_inj _).mpr (written_initial _ _), fun hf => ?_⟩
    have hr : a.result = .ok := by simpa [Sender.fails, hm] using hf
    rw [hr, written]
  | none =>
    simp only [hm, Option.toList_none, List.append_nil] at hwriter hlog
    have hsame : s.writer.content = wireOf s.log := by
      rw [hlog, ← hwhole, hwriter]
      split_ifs
      · exact flushWriter_content _ _
      · rfl
    exact ⟨hsame ▸ List.prefix_rfl, fun _ => hsame⟩

theorem step (hw : Watched w) (h : WriterRun.step a w = some w') : Watched w' := by
  obtain ⟨s, hs, rfl⟩ := Option.map_eq_some_iff.mp h
  have hdone := ipcWriter_done hw.drained hs
  refine ⟨Drained.task (k := ipcKind) hw.drained (ipcWriter_eq ▸ hs),
    hdone.writer ▸ writerAfter_room hw.room a, fun hok => ?_, fun hfailed => ?_, fun hdrain => ?_⟩
  · obtain ⟨hold, hnew⟩ := Bool.or_eq_false_iff.mp hok
    exact (hw.content hold hdone).2 hnew
  · rcases Bool.or_eq_true_iff.mp hfailed with hold | hnew
    · rcases hw.drain hold with hdrain | hgone
      · exact .inl (by simp [hdrain])
      · exact .inr (hdone.gone hgone)
    · cases hdrain : w.sender.draining with
      | true => exact .inl (by simp [hnew])
      | false => exact .inr (hdone.ended hnew hdrain)
  · rcases Bool.or_eq_true_iff.mp hdrain with hold | hnew
    · simp [hw.failed hold]
    · simp [(Bool.and_eq_true_iff.mp hnew).1]

/-- Step lemma. -/
theorem wireKept_iff (hw : Watched w) (hstream : OnStream w.sender)
    (h : WriterRun.step a w = some w') :
    WireKept w w' ↔ (w.drainFailed = true → PutsNothing w.sender a) := by
  have hw' := hw.step h
  obtain ⟨s, hs, rfl⟩ := Option.map_eq_some_iff.mp h
  have hdone := ipcWriter_done hw.drained hs
  have hout : s.writer.out = w.sender.writer.out ↔ PutsNothing w.sender a := by
    rw [hdone.writer]
    exact writerAfter_out_eq_iff hw.room
  constructor
  · intro hkept hdrain
    exact hout.mp (hkept.quiet (hw.failed hdrain))
  · intro hnothing
    have hquiet : w.failed = true → s.writer.out = w.sender.writer.out := by
      intro hfailed
      rcases hw.drain hfailed with hdrain | hgone
      · exact hout.mpr (hnothing hdrain)
      · have hidle : w.sender.next a = none ∧ w.sender.flushes a = false := by
          cases a <;> simp [Sender.next, Sender.flushes, hgone]
        rw [hdone.writer, Sender.writerAfter, hidle.1, hidle.2]
        rfl
    refine ⟨?_, hquiet⟩
    cases hf : w.failed with
    | true =>
      obtain ⟨ms, hpre, hframes, hcontrols⟩ := hstream
      exact ⟨ms, (hquiet hf).symm ▸ hpre, hframes.trans hdone.frames,
        hcontrols.trans hdone.controls⟩
    | false =>
      have hpre := (hw.content hf hdone).1
      exact ⟨s.log, (List.prefix_append _ _).trans hpre, hw'.drained.framesOf_prefix,
        hw'.drained.controlsOf_prefix⟩

end Watched

/-- The writer task keeps the stream to the beginning of complete messages, and silent after a
failed write, exactly when behind a write that failed in a drain loop every message finds room in
the buffer and every flush finds nothing there or fails at once: a failure there ends that loop
only, and the task goes on to the next loop, to the flush and to the next batch. A failure elsewhere
ends the task. -/
theorem writer_stops_after_failure_iff (frameCap controlCap bufferSize : Nat)
    (as : List SendAction) :
    everyStep WriterRun.step (fun w _ w' => WireKept w w') as
        (.new frameCap controlCap bufferSize) ↔
      everyStep WriterRun.step (fun w a _ => w.drainFailed = true → PutsNothing w.sender a) as
        (.new frameCap controlCap bufferSize) := by
  refine everyStep_iff_of_kept WriterRun.step (P := fun w => OnStream w.sender)
    (fun _ _ _ h => h.wire) ?_ as .start ?_
  · intro w a w' hr hstream h
    have hw : Watched w := hr.invariant WriterRun.step Watched
      (.new frameCap controlCap bufferSize) (fun _ _ _ hs _ h => hs.step h)
    exact hw.wireKept_iff hstream h
  · exact ⟨[], List.prefix_rfl, List.nil_prefix, List.nil_prefix⟩

/-- Messages that the library's reader finds in the beginning of a stream. -/
theorem records_of_wire {ms : List Message} (hms : ∀ m ∈ ms, m.encode.length < 2^32) {bs : Bytes}
    (h : bs <+: wireOf ms) : ((FrameReader.new []).feed ipcFit bs).2 <+: ms.map Message.encode := by
  have hall := FrameReader.feed_records ipcFit_fits (fun _ => True) (ms.map Message.encode)
    (fun m hm => by
      obtain ⟨m', hm', rfl⟩ := List.mem_map.mp hm
      exact ipcFit_admits (hms m' hm'))
    (FrameReader.new_sound _) (FrameReader.new_idle []) trivial
  rw [← hall.1]
  exact FrameReader.feed_prefix ipcFit h (.new [])

/-- A control message starts a batch, the frame behind it fails after one byte, and the drain loop
for control messages writes the next one all the same. The flush puts all of it on the stream. -/
def failedBatch : List SendAction :=
  [.offerControl [1], .offerFrame [2], .recvControl .ok, .offerControl [3], .advance (.failed 1),
    .advance .ok, .advance .ok]

theorem control_follows_partial_frame :
    ∃ w w', Reachable WriterRun.step
        (.new frameChannelCapacity controlChannelCapacity libIpcBufferSize) w ∧
      w.failed = true ∧ w.sender.writer.out = [] ∧ WriterRun.step (.advance .ok) w = some w' ∧
      w'.sender.writer.out = delimit [0, 1] ++ [0] ++ delimit [0, 3] ∧
      ¬OnStream w'.sender ∧ ¬WireKept w w' := by
  obtain ⟨w, hr, -, hp⟩ := reachable_of_run WriterRun.step failedBatch
    (.new frameChannelCapacity controlChannelCapacity libIpcBufferSize)
    (fun w => decide (w.failed = true ∧ w.sender.writer.out = [] ∧
      (WriterRun.step (.advance .ok) w).map (fun w' => (w'.sender.writer.out,
        w'.sender.offeredFrames, w'.sender.offeredControls)) =
          some (delimit [0, 1] ++ [0] ++ delimit [0, 3], [[2]], [[1], [3]]))) (by decide +kernel)
  obtain ⟨hfailed, hout, hstep⟩ := of_decide_eq_true hp
  obtain ⟨w', hw', hdata⟩ := Option.map_eq_some_iff.mp hstep
  obtain ⟨hout', hdata⟩ := Prod.mk.inj hdata
  obtain ⟨hframes, hcontrols⟩ := Prod.mk.inj hdata
  have hno : ¬OnStream w'.sender := by
    rintro ⟨ms, hpre, hf, hc⟩
    rw [hframes] at hf
    rw [hcontrols] at hc
    have hms : ∀ m ∈ ms, m.encode.length < 2^32 := by
      intro m hm
      cases m with
      | frame f =>
        have hmem := hf.subset (List.mem_filterMap.mpr ⟨.frame f, hm, rfl⟩)
        rw [List.mem_singleton.mp hmem]
        decide
      | control p =>
        have hmem := hc.subset (List.mem_filterMap.mpr ⟨.control p, hm, rfl⟩)
        simp only [List.mem_cons, List.not_mem_nil, or_false] at hmem
        rcases hmem with rfl | rfl <;> decide
    rw [hout'] at hpre
    have hrecords := records_of_wire hms hpre
    -- The length of the second message is read as zero, which no message has.
    have hempty : ([] : Bytes) ∈ ms.map Message.encode := hrecords.subset (by decide +kernel)
    obtain ⟨m, -, hm⟩ := List.mem_map.mp hempty
    cases m <;> cases hm
  exact ⟨w, w', hr, hfailed, hout, hw', hout', hno, fun hk => hno hk.wire⟩

end TapTunnel.Ipc
