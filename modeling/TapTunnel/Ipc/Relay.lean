import TapTunnel.Framework.Pipe
import TapTunnel.Ipc.DeadProxy

namespace TapTunnel.Ipc

open Framework

/-- The capacities of the relay: the three frame queues and the two control queues, the buffers
of the buffered readers and writers, and what the socket holds in each direction. -/
structure Capacities where
  frames : Nat
  rxFrames : Nat
  control : Nat
  proxyFrames : Nat
  responses : Nat
  libBuffer : Nat
  proxyBuffer : Nat
  toProxy : Nat
  toLibrary : Nat
  frames_pos : 0 < frames
  rxFrames_pos : 0 < rxFrames
  control_pos : 0 < control
  proxyFrames_pos : 0 < proxyFrames
  responses_pos : 0 < responses
  toProxy_pos : 0 < toProxy
  toLibrary_pos : 0 < toLibrary

/-- The capacities in the source, over a socket that holds `n` bytes each way. -/
def Capacities.source (n : Nat) (hn : 0 < n) : Capacities where
  frames := frameChannelCapacity
  rxFrames := frameChannelCapacity
  control := controlChannelCapacity
  proxyFrames := proxyFrameChannelCapacity
  responses := proxyResponseCapacity
  libBuffer := libIpcBufferSize
  proxyBuffer := proxyIpcBufferSize
  toProxy := n
  toLibrary := n
  frames_pos := by decide
  rxFrames_pos := by decide
  control_pos := by decide
  proxyFrames_pos := by decide
  responses_pos := by decide
  toProxy_pos := hn
  toLibrary_pos := hn

/-- The IPC tasks of both sides and the callers, over a socket that holds a bounded number of
bytes each way. `rx` is the frame queue from the library's reader to the stack. -/
structure Relay where
  world : World
  rx : Chan Bytes
  toProxyPipe : Pipe
  toLibraryPipe : Pipe

/-- The first is a step of the unbounded system, `receive` takes a frame to the stack, the others
are calls of `write` and `read` on the socket that move `k` bytes. -/
inductive RelayAction
  | base (a : Action)
  | receive
  | pushToProxy (k : Nat)
  | fetchToProxy (k : Nat)
  | pushToLibrary (k : Nat)
  | fetchToLibrary (k : Nat)

inductive RelayTask
  | libraryReader
  | libraryWriter
  | proxyWriter
  | proxyReader
  deriving DecidableEq, Repr

/-- The action is one of the writer task itself. -/
def SendAction.ofWriter : SendAction → Bool
  | .recvFrame _ | .recvControl _ | .advance _ => true
  | .offerFrame _ | .offerControl _ | .dropFrames | .dropControl | .abort => false

/-- The task whose step the action is; the others are those of callers, of the stack and of the
TAP reader, or end a task. -/
def RelayAction.task : RelayAction → Option RelayTask
  | .base (.toProxy (.send a)) => if a.ofWriter then some .libraryWriter else none
  | .base (.toProxy (.read _)) | .base (.handle _) | .base .respond => some .proxyReader
  | .base (.toLibrary (.send a)) => if a.ofWriter then some .proxyWriter else none
  | .base (.toLibrary (.read _)) => some .libraryReader
  | .base _ | .receive => none
  | .pushToProxy _ => some .libraryWriter
  | .fetchToProxy _ => some .proxyReader
  | .pushToLibrary _ => some .proxyWriter
  | .fetchToLibrary _ => some .libraryReader

/-- Bytes that the writer has handed to its socket. -/
def Link.written (l : Link) : Nat := l.sender.writer.out.length

/-- A writer goes on once the socket has taken all it wrote; a reader gets what is in its
buffer. -/
def linkAdmits (p : Pipe) (l : Link) : LinkAction → Bool
  | .send a => !a.ofWriter || p.pushed == l.written
  | .read k => decide (l.taken+k ≤ p.fetched)
  | .stopReader => true

/-- Frame branch of the library's reader: a frame that finds the queue to the stack full is
dropped. -/
def passFrame (record : Bytes) (rx : Chan Bytes) : Chan Bytes :=
  match decodeMessage record with
  | .ok (.frame frame) =>
    match rx.trySend frame with
    | .ok rx' => rx'
    | .error _ => rx
  | .ok (.control _) | .error _ => rx

namespace Relay

def init (cap : Capacities) (mtu : UInt16) : Relay where
  world := { World.init mtu with
    toProxy := .new (.new cap.frames cap.control cap.libBuffer)
      (List.replicate (maxFrameSize mtu+16) 0)
    toLibrary := .new (.new cap.proxyFrames cap.responses cap.proxyBuffer)
      (List.replicate 2048 0) }
  rx := .new cap.rxFrames
  toProxyPipe := .new cap.toProxy cap.proxyBuffer
  toLibraryPipe := .new cap.toLibrary cap.libBuffer

def admits (r : Relay) : Action → Bool
  | .toProxy a => linkAdmits r.toProxyPipe r.world.toProxy a
  | .toLibrary a => linkAdmits r.toLibraryPipe r.world.toLibrary a
  | _ => true

/-- The queue to the stack after the world has gone on to `w`. -/
def rxAfter (r : Relay) (w : World) : Chan Bytes :=
  match w.toLibrary.records[r.world.toLibrary.records.length]? with
  | some record => passFrame record r.rx
  | none => r.rx

def step (J : Codec) : RelayAction → Relay → Option Relay
  | .base a, r =>
    if r.admits a then
      (World.step J a r.world).map fun w => { r with world := w, rx := r.rxAfter w }
    else none
  | .receive, r =>
    match r.rx.tryRecv with
    | .ok (_, rx) => some { r with rx := rx }
    | .error _ => none
  | .pushToProxy k, r =>
    if r.world.toProxy.sender.phase = .exited then none
    else (r.toProxyPipe.push r.world.toProxy.written k).map fun p => { r with toProxyPipe := p }
  | .fetchToProxy k, r =>
    if r.world.toProxy.readerAlive ∧ r.world.proxy = .reading then
      (r.toProxyPipe.fetch r.world.toProxy.taken r.world.toProxy.reader.wants k).map fun p =>
        { r with toProxyPipe := p }
    else none
  | .pushToLibrary k, r =>
    if r.world.toLibrary.sender.phase = .exited then none
    else (r.toLibraryPipe.push r.world.toLibrary.written k).map fun p =>
      { r with toLibraryPipe := p }
  | .fetchToLibrary k, r =>
    if r.world.toLibrary.readerAlive then
      (r.toLibraryPipe.fetch r.world.toLibrary.taken r.world.toLibrary.reader.wants k).map fun p =>
        { r with toLibraryPipe := p }
    else none

/-- Neither side has closed: the four tasks run. -/
def Open (r : Relay) : Prop :=
  r.world.toProxy.sender.phase ≠ .exited ∧ r.world.toProxy.readerAlive = true ∧
    r.world.toLibrary.sender.phase ≠ .exited ∧ r.world.toLibrary.readerAlive = true

/-- Some pipe, or some queue that one of the four tasks empties, is not empty. `rx` is left to the
stack, and the reader never waits for a place in it. -/
def Busy (r : Relay) : Prop :=
  r.world.toProxy.sender.frames.queue ≠ [] ∨ r.world.toProxy.sender.control.queue ≠ [] ∨
    r.world.toLibrary.sender.frames.queue ≠ [] ∨ r.world.toLibrary.sender.control.queue ≠ [] ∨
    0 < r.toProxyPipe.size ∨ 0 < r.toLibraryPipe.size

instance (r : Relay) : Decidable r.Open := inferInstanceAs (Decidable (_ ∧ _ ∧ _ ∧ _))

instance (r : Relay) : Decidable r.Busy := inferInstanceAs (Decidable (_ ∨ _ ∨ _ ∨ _ ∨ _ ∨ _))

/-- One of the four tasks can take a step. -/
def Enabled (J : Codec) (r : Relay) : Prop := ∃ a r', a.task.isSome = true ∧ step J a r = some r'

theorem init_source (n : Nat) (hn : 0 < n) (mtu : UInt16) :
    (init (.source n hn) mtu).world = World.init mtu := rfl

/-- The bounded socket only takes runs away. -/
theorem reach {J : Codec} {r r' : Relay} (h : Reachable (step J) r r') :
    Reachable (World.step J) r.world r'.world := by
  apply h.invariant (step J) (fun s => Reachable (World.step J) r.world s.world) .start
  intro s t a hr _ hs
  cases a with
  | base a =>
    simp only [step] at hs
    split_ifs at hs
    obtain ⟨w, hw, rfl⟩ := Option.map_eq_some_iff.mp hs
    exact .next hr trivial hw
  | receive =>
    simp only [step] at hs
    split at hs
    · obtain rfl := Option.some.inj hs
      exact hr
    · cases hs
  | pushToProxy k | fetchToProxy k | pushToLibrary k | fetchToLibrary k =>
    simp only [step] at hs
    split_ifs at hs
    obtain ⟨p, -, rfl⟩ := Option.map_eq_some_iff.mp hs
    exact hr

end Relay

section Writers

/-- A writer takes nothing back from its socket, and its response queue stays the size it is. -/
def SendKeeps (s s' : Sender) : Prop :=
  s.writer.out.length ≤ s'.writer.out.length ∧ s'.control.cap = s.control.cap

theorem out_le_writeFramed (msg : Bytes) (r : WriteResult) (w : BufWriter) :
    w.out.length ≤ (writeFramed msg r w).out.length := by
  cases r with
  | ok => exact (out_prefix_writeFramed_ok msg w).length_le
  | failed written => exact (w.out_prefix_writeAll _).length_le

theorem out_le_flushWriter (r : WriteResult) (w : BufWriter) :
    w.out.length ≤ (flushWriter r w).out.length := by
  cases r <;> simp [flushWriter, BufWriter.content]

variable {s s' : Sender}

theorem SendKeeps.refl (s : Sender) : SendKeeps s s := ⟨Nat.le_refl _, rfl⟩

theorem SendKeeps.offerFrame (f q : Bytes) (s : Sender) : SendKeeps s (s.offerFrame f q) := by
  unfold Sender.offerFrame
  split <;> exact .refl s

theorem SendKeeps.offerControl {p : Bytes} (h : s.offerControl p = some s') : SendKeeps s s' := by
  unfold Sender.offerControl at h
  split at h
  · next c hc =>
    obtain rfl := Option.some.inj h
    obtain ⟨-, -, rfl⟩ := Chan.trySend_ok hc
    exact .refl s
  · cases h

theorem SendKeeps.failed (h : SendKeeps s s') (k : WriterKind) (errors : Nat)
    (next : Option SendPhase) : SendKeeps s (k.failed errors next s') := by
  unfold WriterKind.failed
  simp only
  split <;> exact h

theorem SendKeeps.passFrame (k : WriterKind) (x : Bytes) (c : Chan Bytes) (r : WriteResult)
    (next : Option SendPhase) (s : Sender) : SendKeeps s (k.passFrame x c r next s) := by
  cases r with
  | ok => exact ⟨out_le_writeFramed _ .ok s.writer, rfl⟩
  | failed n =>
    have hwrite : SendKeeps s ({ s with frames := c }.emit (.frame (k.form.body x)) (k.form.sent x)
        (.failed n)) := ⟨out_le_writeFramed _ (.failed n) s.writer, rfl⟩
    exact hwrite.failed k 1 next

theorem SendKeeps.passControl (k : WriterKind) {x : Bytes} {c : Chan Bytes} (r : WriteResult)
    (ph : SendPhase) (next : Option SendPhase) (h : s.control.tryRecv = .ok (x, c)) :
    SendKeeps s (k.passControl x c r ph next s) := by
  have hcap := (Chan.tryRecv_ok h).2.2.2
  cases r with
  | ok => exact ⟨out_le_writeFramed _ .ok s.writer, hcap⟩
  | failed n =>
    have hwrite : SendKeeps s ({ s with control := c }.emit (.control x.tail) x (.failed n)) :=
      ⟨out_le_writeFramed _ (.failed n) s.writer, hcap⟩
    exact hwrite.failed k 0 next

theorem WriterKind.task_keeps (k : WriterKind) {a : SendAction} (h : k.task a s = some s') :
    SendKeeps s s' := by
  cases a with
  | offerFrame f =>
    obtain rfl := Option.some.inj h
    exact .offerFrame f (k.form.queued f) s
  | offerControl p => exact .offerControl h
  | dropFrames | dropControl =>
    obtain rfl := Option.some.inj h
    exact .refl s
  | recvFrame r =>
    simp only [task] at h
    split at h
    · obtain rfl := Option.some.inj h
      exact .passFrame k _ _ r none s
    · obtain rfl := Option.some.inj h
      split_ifs
      · exact ⟨out_le_flushWriter _ s.writer, rfl⟩
      · exact .refl s
    · cases h
  | recvControl r =>
    simp only [task] at h
    split at h
    · next hr =>
      obtain rfl := Option.some.inj h
      exact .passControl k r _ none hr
    · split_ifs at h
      obtain rfl := Option.some.inj h
      exact .refl s
    · cases h
  | advance r =>
    simp only [task] at h
    split at h
    · split at h
      · obtain rfl := Option.some.inj h
        exact .passFrame k _ _ r _ s
      · obtain rfl := Option.some.inj h
        exact .refl s
    · split at h
      · next hr =>
        obtain rfl := Option.some.inj h
        exact .passControl k r _ _ hr
      · obtain rfl := Option.some.inj h
        exact .refl s
    · cases r with
      | ok =>
        obtain rfl := Option.some.inj h
        exact ⟨out_le_flushWriter .ok s.writer, rfl⟩
      | failed n =>
        obtain rfl := Option.some.inj h
        have hflush : SendKeeps s { s with writer := flushWriter (.failed n) s.writer } :=
          ⟨out_le_flushWriter (.failed n) s.writer, rfl⟩
        exact hflush.failed k 0 none
    · cases h
    · cases h
  | abort =>
    simp only [task] at h
    split_ifs at h
    obtain rfl := Option.some.inj h
    exact .refl s

end Writers

section Links

variable {J : Codec} {w w' : World}

theorem World.deliver_toProxy (c : Nat) (resp : ProxyResponse) (w : World) :
    (w.deliver c resp).toProxy = w.toProxy := by
  unfold World.deliver
  split
  · split_ifs <;> rfl
  · rfl

theorem World.libraryReceive_toProxy (J : Codec) (record : Bytes) (w : World) :
    (w.libraryReceive J record).toProxy = w.toProxy := by
  unfold World.libraryReceive
  split
  · split
    · unfold World.takeResponse
      split
      · exact World.deliver_toProxy _ _ _
      · rfl
    · rfl
  · rfl
  · rfl

/-- A step of the system leaves a link alone, is a step of it, or queues a control message. -/
theorem World.step_links {a : Action} (h : World.step J a w = some w') :
    (w'.toProxy = w.toProxy ∨ ∃ b, toProxyStep b w.toProxy = some w'.toProxy ∧
      (a = .toProxy b ∨ ∃ p, b = .send (.offerControl p))) ∧
    (w'.toLibrary = w.toLibrary ∨ ∃ b, toLibraryStep b w.toLibrary = some w'.toLibrary ∧
      (a = .toLibrary b ∨ ∃ p, b = .send (.offerControl p))) := by
  cases a with
  | call cmd =>
    obtain rfl := Option.some.inj h
    exact ⟨.inl rfl, .inl rfl⟩
  | register c | cancel c =>
    simp only [World.step] at h
    split at h
    · split_ifs at h
      obtain rfl := Option.some.inj h
      exact ⟨.inl rfl, .inl rfl⟩
    · cases h
  | submit c =>
    simp only [World.step] at h
    split at h
    · split_ifs at h
      unfold World.submit at h
      split at h
      · next l hl =>
        obtain rfl := Option.some.inj h
        exact ⟨.inr ⟨_, hl, .inr ⟨_, rfl⟩⟩, .inl rfl⟩
      · split_ifs at h
        obtain rfl := Option.some.inj h
        exact ⟨.inl rfl, .inl rfl⟩
    · cases h
  | finish c =>
    simp only [World.step] at h
    split at h
    · split_ifs at h
      unfold World.finish at h
      split at h
      · obtain rfl := Option.some.inj h
        exact ⟨.inl rfl, .inl rfl⟩
      · split_ifs at h
        obtain rfl := Option.some.inj h
        exact ⟨.inl rfl, .inl rfl⟩
    · cases h
  | toProxy b =>
    obtain ⟨-, l, hl, ⟨-, rfl⟩ | ⟨record, -, -, rfl⟩⟩ := World.step_toProxy h
    · exact ⟨.inr ⟨b, hl, .inl rfl⟩, .inl rfl⟩
    · obtain ⟨p, hp⟩ := World.proxyReceive_frame J record { w with toProxy := l }
      rw [hp]
      exact ⟨.inr ⟨b, hl, .inl rfl⟩, .inl rfl⟩
  | handle k =>
    simp only [World.step] at h
    split at h
    · obtain rfl := Option.some.inj h
      exact ⟨.inl rfl, .inl rfl⟩
    · cases h
    · cases h
  | respond =>
    simp only [World.step] at h
    split at h
    · unfold World.respond at h
      split at h
      · next l hl =>
        obtain rfl := Option.some.inj h
        exact ⟨.inl rfl, .inr ⟨_, hl, .inr ⟨_, rfl⟩⟩⟩
      · split_ifs at h
        obtain rfl := Option.some.inj h
        exact ⟨.inl rfl, .inl rfl⟩
    · cases h
    · cases h
  | toLibrary b =>
    obtain ⟨-, l, hl, ⟨-, rfl⟩ | ⟨record, -, rfl⟩⟩ := World.step_toLibrary h
    · exact ⟨.inl rfl, .inr ⟨b, hl, .inl rfl⟩⟩
    · rw [World.libraryReceive_toProxy, World.libraryReceive_toLibrary]
      exact ⟨.inl rfl, .inr ⟨b, hl, .inl rfl⟩⟩

/-- What a step of a link keeps over a bounded pipe. -/
theorem Link.step_ordered {write : SendAction → Sender → Option Sender}
    {fit : Nat → Bytes → Option Bytes} (hw : ∀ a s s', write a s = some s' → SendKeeps s s')
    (hfit : FrameReader.Fits fit) {b : LinkAction} {l l' : Link} {p : Pipe}
    (h : Link.step write fit b l = some l') (hadm : linkAdmits p l b = true)
    (ho : p.Ordered l.taken l.written) (hr : l.reader.Sound) :
    p.Ordered l'.taken l'.written ∧ l'.reader.Sound ∧
      l'.sender.control.cap = l.sender.control.cap := by
  cases b with
  | send a =>
    obtain ⟨s, hs, rfl⟩ := Option.map_eq_some_iff.mp h
    obtain ⟨hout, hcap⟩ := hw a l.sender s hs
    exact ⟨ho.write hout, hr, hcap⟩
  | read k =>
    simp only [Link.step] at h
    split_ifs at h with hk
    obtain rfl := Option.some.inj h
    have hlen : (l.unread.take k).length ≤ l.reader.wants := by
      rw [List.length_take]
      exact Nat.le_trans (Nat.min_le_left _ _) hk.2.2.1
    exact ⟨ho.read (of_decide_eq_true hadm), FrameReader.read_sound hfit hr hlen, rfl⟩
  | stopReader =>
    obtain rfl := Option.some.inj h
    exact ⟨ho, hr, rfl⟩

end Links

namespace Relay

/-- The invariant of the relay: the pipes are in order, the readers wait for something, and the
response queue has room for a response. -/
structure Sound (r : Relay) : Prop where
  toProxy : r.toProxyPipe.Ordered r.world.toProxy.taken r.world.toProxy.written
  toLibrary : r.toLibraryPipe.Ordered r.world.toLibrary.taken r.world.toLibrary.written
  proxyReader : r.world.toProxy.reader.Sound
  libraryReader : r.world.toLibrary.reader.Sound
  responses : 0 < r.world.toLibrary.sender.control.cap

variable {J : Codec} {r r' : Relay}

theorem init_sound (cap : Capacities) (mtu : UInt16) : (init cap mtu).Sound :=
  ⟨.new cap.toProxy_pos _, .new cap.toLibrary_pos _, FrameReader.new_sound _,
    FrameReader.new_sound _, cap.responses_pos⟩

theorem Sound.base (h : r.Sound) {a : Action} {w : World} (hadm : r.admits a = true)
    (hs : World.step J a r.world = some w) (rx : Chan Bytes) :
    Sound { r with world := w, rx := rx } := by
  have hP : r.toProxyPipe.Ordered w.toProxy.taken w.toProxy.written ∧ w.toProxy.reader.Sound := by
    rcases (World.step_links hs).1 with heq | ⟨b, hb, hfrom⟩
    · rw [heq]
      exact ⟨h.toProxy, h.proxyReader⟩
    · have hb' : linkAdmits r.toProxyPipe r.world.toProxy b = true := by
        rcases hfrom with rfl | ⟨p, rfl⟩
        · exact hadm
        · rfl
      obtain ⟨ho, hr, -⟩ := Link.step_ordered
        (fun _ _ _ hw => ipcKind.task_keeps (ipcWriter_eq ▸ hw)) relayFit_fits hb hb' h.toProxy
        h.proxyReader
      exact ⟨ho, hr⟩
  have hL : r.toLibraryPipe.Ordered w.toLibrary.taken w.toLibrary.written ∧
      w.toLibrary.reader.Sound ∧ 0 < w.toLibrary.sender.control.cap := by
    rcases (World.step_links hs).2 with heq | ⟨b, hb, hfrom⟩
    · rw [heq]
      exact ⟨h.toLibrary, h.libraryReader, h.responses⟩
    · have hb' : linkAdmits r.toLibraryPipe r.world.toLibrary b = true := by
        rcases hfrom with rfl | ⟨p, rfl⟩
        · exact hadm
        · rfl
      obtain ⟨ho, hr, hcap⟩ := Link.step_ordered
        (fun _ _ _ hw => relayKind.task_keeps (relayWriter_eq ▸ hw)) ipcFit_fits hb hb' h.toLibrary
        h.libraryReader
      exact ⟨ho, hr, hcap ▸ h.responses⟩
  exact ⟨hP.1, hL.1, hP.2, hL.2.1, hL.2.2⟩

theorem Sound.step (h : r.Sound) {a : RelayAction} (hs : Relay.step J a r = some r') :
    r'.Sound := by
  cases a with
  | base a =>
    simp only [Relay.step] at hs
    split_ifs at hs with hadm
    obtain ⟨w, hw, rfl⟩ := Option.map_eq_some_iff.mp hs
    exact h.base hadm hw _
  | receive =>
    simp only [Relay.step] at hs
    split at hs
    · obtain rfl := Option.some.inj hs
      exact ⟨h.toProxy, h.toLibrary, h.proxyReader, h.libraryReader, h.responses⟩
    · cases hs
  | pushToProxy k =>
    simp only [Relay.step] at hs
    split_ifs at hs
    obtain ⟨p, hp, rfl⟩ := Option.map_eq_some_iff.mp hs
    exact ⟨h.toProxy.push hp, h.toLibrary, h.proxyReader, h.libraryReader, h.responses⟩
  | fetchToProxy k =>
    simp only [Relay.step] at hs
    split_ifs at hs
    obtain ⟨p, hp, rfl⟩ := Option.map_eq_some_iff.mp hs
    exact ⟨h.toProxy.fetch hp, h.toLibrary, h.proxyReader, h.libraryReader, h.responses⟩
  | pushToLibrary k =>
    simp only [Relay.step] at hs
    split_ifs at hs
    obtain ⟨p, hp, rfl⟩ := Option.map_eq_some_iff.mp hs
    exact ⟨h.toProxy, h.toLibrary.push hp, h.proxyReader, h.libraryReader, h.responses⟩
  | fetchToLibrary k =>
    simp only [Relay.step] at hs
    split_ifs at hs
    obtain ⟨p, hp, rfl⟩ := Option.map_eq_some_iff.mp hs
    exact ⟨h.toProxy, h.toLibrary.fetch hp, h.proxyReader, h.libraryReader, h.responses⟩

theorem sound {cap : Capacities} {mtu : UInt16} (h : Reachable (step J) (init cap mtu) r) :
    r.Sound :=
  h.invariant (step J) Sound (init_sound cap mtu) (fun _ _ _ hs _ hstep => hs.step hstep)

end Relay

end TapTunnel.Ipc
