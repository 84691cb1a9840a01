import TapTunnel.Framework.Bytes
import TapTunnel.Framework.Channel
import TapTunnel.Ipc.Protocol

namespace TapTunnel.Ipc

open Framework

def frameChannelCapacity : Nat := 2048
def controlChannelCapacity : Nat := 32
def libIpcBufferSize : Nat := 256*1024
def proxyFrameChannelCapacity : Nat := 4096
def proxyResponseCapacity : Nat := 8
def proxyIpcBufferSize : Nat := 256*1024

/-- Outcome of the writes of one message or of a flush; a failed one has still passed on some
bytes, though not all of them. -/
inductive WriteResult
  | ok
  | failed (written : Nat)
  deriving DecidableEq, Repr

/-- Where a writer task stands: in its select, in one of the two drain loops, before the flush,
or gone. -/
inductive SendPhase
  | select
  | drainFrames
  | drainControl
  | flush
  | exited
  deriving DecidableEq, Repr

/-- A writer task with its two queues. `offeredFrames`, `offeredControls` and `log` only record
history: what the queues have taken in, and the messages taken out of them. -/
structure Sender where
  frames : Chan Bytes
  control : Chan Bytes
  phase : SendPhase
  writer : BufWriter
  ipcDead : Bool
  txFrames : Nat
  txErrors : Nat
  offeredFrames : List Bytes
  offeredControls : List Bytes
  log : List Message
  deriving DecidableEq, Repr

/-- The first two are the producers', the next two say that the last producer is gone. `abort`
cancels the task while it waits. -/
inductive SendAction
  | offerFrame (frame : Bytes)
  | offerControl (payload : Bytes)
  | dropFrames
  | dropControl
  | recvFrame (r : WriteResult)
  | recvControl (r : WriteResult)
  | advance (r : WriteResult)
  | abort
  deriving DecidableEq, Repr

/-- The two `write_all` calls for a length prefix and its message. -/
def writeFramed (msg : Bytes) (r : WriteResult) (w : BufWriter) : BufWriter :=
  match r with
  | .ok => (w.writeAll (beBytes msg.length)).writeAll msg
  | .failed written => w.writeAll ((delimit msg).dropLast.take written)

def flushWriter (r : WriteResult) (w : BufWriter) : BufWriter :=
  match r with
  | .ok => w.flush
  | .failed written =>
    { w with buf := w.buf.drop written, out := w.out ++ w.buf.take written }

namespace Sender

def new (frameCap controlCap bufferSize : Nat) : Sender where
  frames := .new frameCap
  control := .new controlCap
  phase := .select
  writer := .new bufferSize
  ipcDead := false
  txFrames := 0
  txErrors := 0
  offeredFrames := []
  offeredControls := []
  log := []

/-- The message `m`, dequeued before, is written as `msg`. -/
def emit (m : Message) (msg : Bytes) (r : WriteResult) (s : Sender) : Sender :=
  { s with writer := writeFramed msg r s.writer, log := s.log ++ [m] }

/-- The task ends, which drops both of its receivers. -/
def exit (s : Sender) : Sender :=
  { s with phase := .exited, frames := s.frames.dropRx, control := s.control.dropRx }

/-- A frame is put into the queue in the form `queued`, or dropped when that is full. -/
def offerFrame (frame queued : Bytes) (s : Sender) : Sender :=
  match s.frames.trySend queued with
  | .ok frames => { s with frames := frames, offeredFrames := s.offeredFrames ++ [frame] }
  | .error _ => s

/-- The sender of a control message waits for a free place. -/
def offerControl (payload : Bytes) (s : Sender) : Option Sender :=
  match s.control.trySend (msgTypeControl::payload) with
  | .ok control =>
    some { s with control := control, offeredControls := s.offeredControls ++ [payload] }
  | .error _ => none

end Sender

/-- The library's IPC writer task. A failed write in a drain loop only ends that loop. -/
def ipcWriter : SendAction → Sender → Option Sender
  | .offerFrame frame, s => some (s.offerFrame frame frame)
  | .offerControl payload, s => s.offerControl payload
  | .dropFrames, s => some { s with frames := s.frames.dropTx }
  | .dropControl, s => some { s with control := s.control.dropTx }
  | .recvFrame r, s =>
    match s.phase, s.frames.tryRecv with
    | .select, .ok (frame, frames) =>
      let s := { s with frames := frames }.emit (.frame frame) (encodeFrame frame) r
      match r with
      | .ok => some { s with txFrames := s.txFrames+1, phase := .drainFrames }
      | .failed _ => some { s with txErrors := s.txErrors+1, ipcDead := true }.exit
    | .select, .error .disconnected => some s.exit
    | _, _ => none
  | .recvControl r, s =>
    match s.phase, s.control.tryRecv with
    | .select, .ok (msg, control) =>
      let s := { s with control := control }.emit (.control msg.tail) msg r
      match r with
      | .ok => some { s with phase := .drainFrames }
      | .failed _ => some { s with ipcDead := true }.exit
    | .select, .error .disconnected => some s.exit
    | _, _ => none
  | .advance r, s =>
    match s.phase with
    | .drainFrames =>
      match s.frames.tryRecv with
      | .ok (frame, frames) =>
        let s := { s with frames := frames }.emit (.frame frame) (encodeFrame frame) r
        match r with
        | .ok => some { s with txFrames := s.txFrames+1 }
        | .failed _ =>
          some { s with txErrors := s.txErrors+1, ipcDead := true, phase := .drainControl }
      | .error _ => some { s with phase := .drainControl }
    | .drainControl =>
      match s.control.tryRecv with
      | .ok (msg, control) =>
        let s := { s with control := control }.emit (.control msg.tail) msg r
        match r with
        | .ok => some s
        | .failed _ => some { s with ipcDead := true, phase := .flush }
      | .error _ => some { s with phase := .flush }
    | .flush =>
      let s := { s with writer := flushWriter r s.writer }
      match r with
      | .ok => some { s with phase := .select }
      | .failed _ => some { s with ipcDead := true }.exit
    | .select | .exited => none
  | .abort, s => if s.phase = .exited then none else some s.exit

/-- Task 2 of `run_frame_relay`, with the encoding that task 1 does before it queues a frame.
Any failed write ends the task, and so does a closed frame queue, after a flush; a closed
response queue only disables its branch of the select. -/
def relayWriter : SendAction → Sender → Option Sender
  | .offerFrame frame, s => some (s.offerFrame frame (encodeFrame frame))
  | .offerControl payload, s => s.offerControl payload
  | .dropFrames, s => some { s with frames := s.frames.dropTx }
  | .dropControl, s => some { s with control := s.control.dropTx }
  | .recvFrame r, s =>
    match s.phase, s.frames.tryRecv with
    | .select, .ok (msg, frames) =>
      let s := { s with frames := frames }.emit (.frame msg.tail) msg r
      match r with
      | .ok => some { s with phase := .drainFrames }
      | .failed _ => some s.exit
    | .select, .error .disconnected => some { s with writer := flushWriter r s.writer }.exit
    | _, _ => none
  | .recvControl r, s =>
    match s.phase, s.control.tryRecv with
    | .select, .ok (response, control) =>
      let s := { s with control := control }.emit (.control response.tail) response r
      match r with
      | .ok => some { s with phase := .drainFrames }
      | .failed _ => some s.exit
    | _, _ => none
  | .advance r, s =>
    match s.phase with
    | .drainFrames =>
      match s.frames.tryRecv with
      | .ok (msg, frames) =>
        let s := { s with frames := frames }.emit (.frame msg.tail) msg r
        match r with
        | .ok => some s
        | .failed _ => some s.exit
      | .error _ => some { s with phase := .drainControl }
    | .drainControl =>
      match s.control.tryRecv with
      | .ok (response, control) =>
        let s := { s with control := control }.emit (.control response.tail) response r
        match r with
        | .ok => some s
        | .failed _ => some s.exit
      | .error _ => some { s with phase := .flush }
    | .flush =>
      let s := { s with writer := flushWriter r s.writer }
      match r with
      | .ok => some { s with phase := .select }
      | .failed _ => some s.exit
    | .select | .exited => none
  | .abort, s => if s.phase = .exited then none else some s.exit

end TapTunnel.Ipc
