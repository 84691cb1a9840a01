import TapTunnel.Framework.Simulation
import TapTunnel.Ipc.DataPath
import TapTunnel.Ipc.LinkMoves
import TapTunnel.Ipc.Quiescence
import TapTunnel.Ipc.ReaderSync

namespace TapTunnel.Ipc

open Framework

/-- The way of a frame between the TAP device and smoltcp, in both directions: task 1 of the proxy,
the IPC tasks of both sides, and the device of the stack with its two channels. `dropped` is the
counter of task 1, the others are those of `TunnelStats`. The last five fields are what an observer
writes down: the frames read from the TAP device and those written to it, the frames the library has
read, those given to smoltcp, and the buffers smoltcp has sent; the flags say which were dropped. -/
structure Wire where
  world : World
  tapReader : Bool
  dropped : Nat
  rx : Chan Bytes
  ipcRxFrames : Nat
  ipcRxDropped : Nat
  deviceRxFrames : Nat
  deviceTxFrames : Nat
  deviceTxDropped : Nat
  tapRead : List (Bytes × Bool)
  tapWritten : List Bytes
  received : List (Bytes × Bool)
  handed : List Bytes
  transmitted : List (Bytes × Bool)

/-- `base` is a step of the IPC tasks or of a caller; if it completes a frame in task 3, the TAP
device takes that. `tapFails` is a read from the socket whose frame the TAP device refuses. A TAP
read brings one frame, `tapEnds` is the end of file or an error of it. `dropDevice` ends the stack
task, `proxyExits` the proxy process. -/
inductive WireAction
  | base (a : Action)
  | tapRead (frame : Bytes)
  | tapEnds
  | tapFails (k : Nat)
  | receive
  | consume (buffer : Bytes)
  | dropDevice
  | proxyExits

/-- Frames come into the queues only from task 1 and from the device, which also hold the senders of
these queues. -/
def Action.feeds : Action → Bool
  | .toProxy (.send (.offerFrame _)) | .toProxy (.send .dropFrames)
  | .toLibrary (.send (.offerFrame _)) | .toLibrary (.send .dropFrames) => true
  | _ => false

/-- The task is gone, whether it had ended before or not. -/
def Sender.kill (s : Sender) : Sender := if s.phase = .exited then s else s.exit

namespace Wire

/-- The relay starts when `run_proxy` has written the frames `arps` to the socket, which are the
first ones the library reads. -/
def init (mtu : UInt16) (arps : List Bytes) : Wire where
  world := { World.init mtu with
    toLibrary := { toLibraryInit with
      sender := { toLibraryInit.sender with
        writer := { toLibraryInit.sender.writer with out := wireOf (arps.map .frame) }
        offeredFrames := arps
        log := arps.map .frame } } }
  tapReader := true
  dropped := 0
  rx := .new frameChannelCapacity
  ipcRxFrames := 0
  ipcRxDropped := 0
  deviceRxFrames := 0
  deviceTxFrames := 0
  deviceTxDropped := 0
  tapRead := []
  tapWritten := []
  received := []
  handed := []
  transmitted := []

/-- The library's part of the way. -/
def path (w : Wire) : DataPath where
  rx := w.rx
  writer := w.world.toProxy.sender
  readerAlive := w.world.toLibrary.readerAlive
  ipcRxFrames := w.ipcRxFrames
  ipcRxDropped := w.ipcRxDropped
  deviceRxFrames := w.deviceRxFrames
  deviceTxFrames := w.deviceTxFrames
  deviceTxDropped := w.deviceTxDropped
  received := w.received
  handed := w.handed
  transmitted := w.transmitted

def withPath (p : DataPath) (w : Wire) : Wire :=
  { w with
    world := { w.world with
      toProxy := { w.world.toProxy with sender := p.writer }
      toLibrary := { w.world.toLibrary with readerAlive := p.readerAlive } }
    rx := p.rx
    ipcRxFrames := p.ipcRxFrames
    ipcRxDropped := p.ipcRxDropped
    deviceRxFrames := p.deviceRxFrames
    deviceTxFrames := p.deviceTxFrames
    deviceTxDropped := p.deviceTxDropped
    received := p.received
    handed := p.handed
    transmitted := p.transmitted }

/-- The IPC tasks go on to `v`. What the readers have completed goes to the TAP device and into the
queue to the stack. -/
def carry (v : World) (w : Wire) : Wire :=
  let up := v.toProxy.records.drop w.world.toProxy.records.length
  let down := v.toLibrary.records.drop w.world.toLibrary.records.length
  let w := { w with world := v, tapWritten := w.tapWritten ++ up.flatMap tapWrites }
  down.foldl (fun w record => w.withPath (w.path.observeMessage record)) w

/-- The queue to the stack loses its sender with the library's reader. -/
def follow (v : World) (w : Wire) : Wire :=
  if v.toLibrary.readerAlive then w.carry v else (w.carry v).withPath (w.carry v).path.exitReader

/-- Task 1 returns, which drops its sender. -/
def endTap (w : Wire) : Wire :=
  { w with
    tapReader := false
    world := { w.world with
      toLibrary := { w.world.toLibrary with
        sender := { w.world.toLibrary.sender with
          frames := w.world.toLibrary.sender.frames.dropTx } } } }

/-- Task 1 has read `frame` and queues it in its encoded form. -/
def readTap (frame : Bytes) (w : Wire) : Wire :=
  match w.world.toLibrary.sender.frames.trySend (encodeFrame frame) with
  | .ok _ =>
    { w with
      world := { w.world with
        toLibrary := { w.world.toLibrary with
          sender := w.world.toLibrary.sender.offerFrame frame (encodeFrame frame) } } }
  | .error .full => { w with dropped := w.dropped+1 }
  | .error .closed => w.endTap

def observeTapRead (frame : Bytes) (w : Wire) : Wire :=
  let next := w.readTap frame
  { next with tapRead := w.tapRead ++ [(frame, decide (next.dropped ≠ w.dropped))] }

/-- The proxy ends with all of its tasks: `run_frame_relay` returns as soon as one of them has, and
the process may also be killed. -/
def exitProxy (w : Wire) : Wire :=
  { w with
    world := { w.world with
      toProxy := { w.world.toProxy with readerAlive := false }
      toLibrary := { w.world.toLibrary with
        sender := w.world.toLibrary.sender.kill } } }.endTap

def step (J : Codec) (mtu : UInt16) : WireAction → Wire → Option Wire
  | .base a, w => if a.feeds then none else (World.step J a w.world).map w.follow
  | .tapRead frame, w =>
    if w.tapReader ∧ 0 < frame.length ∧ frame.length ≤ maxFrameSize mtu then
      some (w.observeTapRead frame)
    else none
  | .tapEnds, w => if w.tapReader then some w.endTap else none
  | .tapFails k, w =>
    (World.step J (.toProxy (.read k)) w.world).bind fun v =>
      if (v.toProxy.records.drop w.world.toProxy.records.length).flatMap tapWrites = [] then none
      else some { w with world := v }.exitProxy
  | .receive, w => some (w.withPath w.path.observeReceive)
  | .consume buffer, w => some (w.withPath (w.path.observeConsume buffer))
  | .dropDevice, w => some (w.withPath { w.path with
      rx := w.rx.dropRx
      writer := { w.path.writer with frames := w.path.writer.frames.dropTx } })
  | .proxyExits, w => some w.exitProxy

/-- What smoltcp sends has the size of the device's frames at most; the rest is as on a relay whose
messages fit. -/
def Fits (J : Codec) (mtu : UInt16) (w : Wire) : WireAction → Prop
  | .base a => StepFits J mtu w.world a
  | .consume buffer => buffer.length ≤ maxFrameSize mtu
  | _ => True

end Wire

namespace DataPath

variable (p : DataPath)

theorem observeMessage_keeps (record : Bytes) :
    (p.observeMessage record).writer = p.writer ∧
      (p.observeMessage record).transmitted = p.transmitted ∧
      ((p.observeMessage record).readerAlive = p.readerAlive ∨
        (p.observeMessage record).readerAlive = false) := by
  cases hf : frameOf record with
  | none =>
    rw [observeMessage_none hf]
    exact ⟨rfl, rfl, .inl rfl⟩
  | some frame =>
    rcases observeMessage_frame hf p with ⟨rx, -, he⟩ | ⟨-, he⟩ | ⟨-, he⟩ <;> rw [he]
    · exact ⟨rfl, rfl, .inl rfl⟩
    · exact ⟨rfl, rfl, .inl rfl⟩
    · exact ⟨rfl, rfl, .inr rfl⟩

theorem observeReceive_keeps :
    p.observeReceive.writer = p.writer ∧ p.observeReceive.readerAlive = p.readerAlive := by
  rcases p.observeReceive_cases with ⟨frame, rx, -, he⟩ | he <;> rw [he] <;> exact ⟨rfl, rfl⟩

theorem observeConsume_keeps (buffer : Bytes) :
    (p.observeConsume buffer).writer = p.writer.offerFrame buffer buffer ∧
      (p.observeConsume buffer).readerAlive = p.readerAlive := by
  rcases p.observeConsume_cases buffer with ⟨frames, hs, he⟩ | ⟨e, hs, he⟩ <;> rw [he]
  · exact ⟨by simp [Sender.offerFrame, hs], rfl⟩
  · exact ⟨by simp [Sender.offerFrame, hs], rfl⟩

end DataPath

namespace Wire

variable {J : Codec} {mtu : UInt16} {w w' : Wire} {v : World}

@[simp] theorem path_withPath (p : DataPath) : (w.withPath p).path = p := rfl

theorem carry_same (hup : v.toProxy.records = w.world.toProxy.records)
    (hdown : v.toLibrary.records = w.world.toLibrary.records) :
    w.carry v = { w with world := v } := by
  simp [carry, hup, hdown]

theorem carry_up {record : Bytes} (hup : v.toProxy.records = w.world.toProxy.records ++ [record])
    (hdown : v.toLibrary.records = w.world.toLibrary.records) :
    w.carry v = { w with world := v, tapWritten := w.tapWritten ++ tapWrites record } := by
  simp [carry, hup, hdown]

theorem carry_down {record : Bytes} (hup : v.toProxy.records = w.world.toProxy.records)
    (hdown : v.toLibrary.records = w.world.toLibrary.records ++ [record]) :
    w.carry v =
      { w with world := v }.withPath ({ w with world := v }.path.observeMessage record) := by
  simp [carry, hup, hdown]

theorem path_write {a : SendAction} (ha : ∀ f, a ≠ .offerFrame f) {s : Sender}
    (hs : ipcWriter a w.world.toProxy.sender = some s) :
    DataPath.step (.write a) w.path = some { w.path with writer := s } := by
  cases a with
  | offerFrame f => exact absurd rfl (ha f)
  | _ => simp [DataPath.step, path, hs]

theorem not_offered {a : Action} (ha : a.feeds = false) {b : LinkAction}
    (hb : a = .toProxy b ∧ b.free = true ∨ ∃ c call, a = .submit c ∧
      w.world.calls[c]? = some call ∧ b = .send (.offerControl (J.command.toVec call.command)))
    {c : SendAction} (hc : b = .send c) : ∀ f, c ≠ .offerFrame f := by
  intro f hf
  subst hc hf
  rcases hb with ⟨rfl, -⟩ | ⟨c, call, -, -, hp⟩
  · cases ha
  · cases hp

/-- The library's part of the wire goes on as the frame path does on its own, as far as the end of
the reader goes that `follow` adds. -/
theorem carry_path {a : Action} (ha : a.feeds = false) (h : LinkMove J a w.world v) :
    ∃ p, Reachable DataPath.step w.path p ∧ p.exitReader = (w.carry v).path.exitReader ∧
      (v.toLibrary.readerAlive = true → p = (w.carry v).path) := by
  cases h with
  | none hup hdown =>
    have hpath : (w.carry v).path = w.path := by
      rw [carry_same (by rw [hup]) (by rw [hdown])]
      simp [path, hup, hdown]
    exact ⟨w.path, .start, by rw [hpath], fun _ => hpath.symm⟩
  | up b hb hup hdown =>
    have hpath : (w.carry v).path = { w.path with writer := v.toProxy.sender } := by
      simp [carry, path, hdown]
    rcases (Link.step_effect hup).sender with hsame | ⟨c, hc, hs⟩
    · have hpath' : (w.carry v).path = w.path := by
        rw [hpath, hsame]
        rfl
      exact ⟨w.path, .start, by rw [hpath'], fun _ => hpath'.symm⟩
    · have hstep := path_write (not_offered ha hb hc) hs
      exact ⟨_, .next .start trivial hstep, by rw [hpath], fun _ => hpath.symm⟩
  | down b hb hup hdown =>
    rcases (Link.step_effect hdown).reader with ⟨hrec, halive⟩ | ⟨record, hrec, hold, hnew, -⟩
    · have hpath : (w.carry v).path = { w.path with readerAlive := v.toLibrary.readerAlive } := by
        rw [carry_same (by rw [hup]) hrec]
        simp [path, hup]
      refine ⟨w.path, .start, by rw [hpath]; rfl, fun hv => ?_⟩
      rcases halive with hsame | hdead
      · rw [hpath, hsame]
        rfl
      · rw [hdead] at hv
        cases hv
    · have hpath : ({ w with world := v } : Wire).path = w.path := by
        simp [path, hup, hold, hnew]
      have hcarry : (w.carry v).path = w.path.observeMessage record := by
        rw [carry_down (by rw [hup]) hrec, hpath, path_withPath]
      have hstep : DataPath.step (.message record) w.path = some (w.path.observeMessage record) :=
        if_pos hold
      exact ⟨_, .next .start trivial hstep, by rw [hcarry], fun _ => hcarry.symm⟩

theorem follow_path {a : Action} (ha : a.feeds = false) (h : LinkMove J a w.world v) :
    Reachable DataPath.step w.path (w.follow v).path := by
  obtain ⟨p, hp, hexit, hsame⟩ := carry_path ha h
  unfold follow
  split_ifs with hv
  · rw [← hsame hv]
    exact hp
  · rw [path_withPath, ← hexit]
    exact .next hp trivial (a := .dropReader) rfl

/-- The way between the queues of the library is that of the frame path. -/
theorem step_path {a : WireAction} (h : step J mtu a w = some w') :
    Reachable DataPath.step w.path w'.path := by
  cases a with
  | base a =>
    simp only [step] at h
    split_ifs at h with ha
    obtain ⟨v, hv, rfl⟩ := Option.map_eq_some_iff.mp h
    exact follow_path (by simpa using ha) (World.step_linkMove hv)
  | tapRead frame =>
    simp only [step] at h
    split_ifs at h
    obtain rfl := Option.some.inj h
    have hpath : (w.observeTapRead frame).path = w.path := by
      unfold observeTapRead readTap
      split <;> rfl
    rw [hpath]
    exact .start
  | tapEnds =>
    simp only [step] at h
    split_ifs at h
    obtain rfl := Option.some.inj h
    exact .start
  | tapFails k =>
    obtain ⟨v, hv, h⟩ := Option.bind_eq_some_iff.mp h
    split_ifs at h
    obtain rfl := Option.some.inj h
    obtain ⟨hsender, hdown⟩ := World.step_read_toProxy hv
    have hpath : ({ w with world := v } : Wire).exitProxy.path = w.path := by
      simp [exitProxy, endTap, path, hsender, hdown]
    rw [hpath]
    exact .start
  | receive =>
    obtain rfl := Option.some.inj h
    rw [path_withPath]
    exact .next .start trivial (a := .receive) rfl
  | consume buffer =>
    obtain rfl := Option.some.inj h
    rw [path_withPath]
    exact .next .start trivial (a := .consume buffer) rfl
  | dropDevice =>
    obtain rfl := Option.some.inj h
    rw [path_withPath]
    exact .next .start trivial (a := .dropDevice) rfl
  | proxyExits =>
    obtain rfl := Option.some.inj h
    exact .start

theorem accounted {ok : Wire → WireAction → Prop} {arps : List Bytes}
    (h : ReachVia (step J mtu) ok (init mtu arps) w) : Accounted w.path :=
  Accounted.reachable (h.simulate path fun _ _ _ _ hs => step_path hs)

/-- Runs of the IPC tasks in which every message fits. -/
abbrev Goes (J : Codec) (mtu : UInt16) : World → World → Prop :=
  ReachVia (World.step J) (StepFits J mtu)

theorem withPath_world {p : DataPath} (hwriter : p.writer = w.world.toProxy.sender)
    (halive : p.readerAlive = w.world.toLibrary.readerAlive ∨ p.readerAlive = false) :
    Goes J mtu w.world (w.withPath p).world := by
  rcases halive with hsame | hdead
  · have hworld : (w.withPath p).world = w.world := by
      simp only [withPath, hwriter, hsame]
    rw [hworld]
    exact .start
  · have hworld : World.step J (.toLibrary .stopReader) w.world = some (w.withPath p).world := by
      simp only [withPath, hwriter, hdead]
      simp [World.step, LinkAction.free, toLibraryStep, Link.step]
    exact .one (.toLibrary .stopReader) ⟨trivial, trivial⟩ hworld

theorem withPath_send {p : DataPath} {a : SendAction}
    (halive : p.readerAlive = w.world.toLibrary.readerAlive)
    (hfree : (LinkAction.send a).free = true)
    (hfits : StepFits J mtu w.world (.toProxy (.send a)))
    (hs : ipcWriter a w.world.toProxy.sender = some p.writer) :
    Goes J mtu w.world (w.withPath p).world := by
  refine .one _ hfits ?_
  rw [World.step_toProxy_send hfree hs]
  simp only [withPath, halive]

theorem carry_world {a : Action} (h : LinkMove J a w.world v) : Goes J mtu v (w.carry v).world := by
  have hsame : ∀ u : Wire, u.world = v → Goes J mtu v u.world := by
    intro u hu
    rw [hu]
    exact .start
  cases h with
  | none hup hdown => exact hsame _ (by rw [carry_same (by rw [hup]) (by rw [hdown])])
  | up b hb hup hdown =>
    exact hsame _ (by simp [carry, hdown])
  | down b hb hup hdown =>
    rcases (Link.step_effect hdown).reader with ⟨hrec, -⟩ | ⟨record, hrec, -, -, -⟩
    · exact hsame _ (by rw [carry_same (by rw [hup]) hrec])
    · rw [carry_down (by rw [hup]) hrec]
      obtain ⟨hwriter, -, halive⟩ := ({ w with world := v } : Wire).path.observeMessage_keeps record
      exact withPath_world hwriter halive

theorem follow_world {a : Action} (h : LinkMove J a w.world v) :
    Goes J mtu v (w.follow v).world := by
  have hcarry : Goes J mtu v (w.carry v).world := carry_world h
  unfold follow
  split_ifs
  · exact hcarry
  · exact hcarry.trans (withPath_world rfl (.inr rfl))

theorem endTap_world (w : Wire) : Goes J mtu w.world w.endTap.world :=
  .one (.toLibrary (.send .dropFrames)) ⟨trivial, trivial⟩ (World.step_toLibrary_send rfl rfl)

theorem readTap_world {frame : Bytes} (h : frame.length ≤ maxFrameSize mtu) :
    Goes J mtu w.world (w.readTap frame).world := by
  unfold readTap
  split
  · have hmtu := mtu.toNat_lt
    have hfits : StepFits J mtu w.world (.toLibrary (.send (.offerFrame frame))) := by
      refine ⟨trivial, ?_⟩
      simp only [LinkAction.FrameWithin, encodeFrame, List.length_cons]
      simp only [maxFrameSize, ethernetHeaderSize] at h
      omega
    exact .one _ hfits (World.step_toLibrary_send rfl rfl)
  · exact .start
  · exact endTap_world w

theorem exitProxy_world (w : Wire) : Goes J mtu w.world w.exitProxy.world := by
  let v : World := { w.world with toProxy := { w.world.toProxy with readerAlive := false } }
  have hstop : Goes J mtu w.world v := by
    refine .one (.toProxy .stopReader) ⟨trivial, trivial⟩ ?_
    simp [World.step, LinkAction.free, LinkAction.reads, toProxyStep, Link.step, v]
  have hkill : Goes J mtu v { v with
      toLibrary := { v.toLibrary with sender := v.toLibrary.sender.kill } } := by
    unfold Sender.kill
    split_ifs with hphase
    · exact .start
    · exact .one (.toLibrary (.send .abort)) ⟨trivial, trivial⟩
        (World.step_toLibrary_send rfl (if_neg hphase))
  have hend : Goes J mtu _ w.exitProxy.world := endTap_world ({ w with world := { v with
    toLibrary := { v.toLibrary with sender := v.toLibrary.sender.kill } } } : Wire)
  exact (hstop.trans hkill).trans hend

/-- The IPC tasks of a wire take steps of their own system, and what they carry fits. -/
theorem step_world {a : WireAction} (ha : Fits J mtu w a) (h : step J mtu a w = some w') :
    Goes J mtu w.world w'.world := by
  cases a with
  | base a =>
    simp only [step] at h
    split_ifs at h
    obtain ⟨v, hv, rfl⟩ := Option.map_eq_some_iff.mp h
    exact (ReachVia.one a ha hv).trans (follow_world (World.step_linkMove hv))
  | tapRead frame =>
    simp only [step] at h
    split_ifs at h with hframe
    obtain rfl := Option.some.inj h
    exact (readTap_world hframe.2.2 : Goes J mtu w.world (w.readTap frame).world)
  | tapEnds =>
    simp only [step] at h
    split_ifs at h
    obtain rfl := Option.some.inj h
    exact endTap_world w
  | tapFails k =>
    obtain ⟨v, hv, h⟩ := Option.bind_eq_some_iff.mp h
    split_ifs at h
    obtain rfl := Option.some.inj h
    exact (ReachVia.one _ ⟨trivial, trivial⟩ hv).trans
      (exitProxy_world ({ w with world := v } : Wire))
  | receive =>
    obtain rfl := Option.some.inj h
    obtain ⟨hwriter, halive⟩ := w.path.observeReceive_keeps
    exact withPath_world hwriter (.inl halive)
  | consume buffer =>
    obtain rfl := Option.some.inj h
    obtain ⟨hwriter, halive⟩ := w.path.observeConsume_keeps buffer
    refine withPath_send (a := .offerFrame buffer) halive rfl ⟨trivial, ?_⟩
      (by rw [hwriter]; rfl)
    have hlen : buffer.length ≤ maxFrameSize mtu := ha
    simp only [LinkAction.FrameWithin, encodeFrame, List.length_cons]
    omega
  | dropDevice =>
    obtain rfl := Option.some.inj h
    exact withPath_send (a := .dropFrames) rfl rfl ⟨trivial, trivial⟩ rfl
  | proxyExits =>
    obtain rfl := Option.some.inj h
    exact exitProxy_world w

end Wire

end TapTunnel.Ipc
