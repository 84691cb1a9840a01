import TapTunnel.Ipc.BookMoves

namespace TapTunnel.Ipc

open Framework

def RelayAction.NoError : RelayAction → Prop
  | .base (.toProxy a) | .base (.toLibrary a) => a.NoError
  | _ => True

/-- A step of one of the four tasks in which no write fails. -/
def RelayAction.Works (a : RelayAction) : Prop := a.task.isSome = true ∧ a.NoError

/-- What the four tasks work on. -/
structure Core where
  up : Link
  upPipe : Pipe
  proxy : ProxyTask
  down : Link
  downPipe : Pipe

def Relay.core (r : Relay) : Core :=
  ⟨r.world.toProxy, r.toProxyPipe, r.world.proxy, r.world.toLibrary, r.toLibraryPipe⟩

/-- Everything that a step of one of the four tasks can do as long as no write fails. -/
inductive TaskStep (c : Core) : Core → Prop
  | writeUp {a : SendAction} {s : Sender} (ha : a.ofWriter = true) (hok : a.NoError)
      (h : ipcWriter a c.up.sender = some s) : TaskStep c { c with up := { c.up with sender := s } }
  | pushUp {k : Nat} {p : Pipe} (h : c.upPipe.push c.up.written k = some p) :
      TaskStep c { c with upPipe := p }
  | fetchUp {k : Nat} {p : Pipe} (h : c.upPipe.fetch c.up.taken c.up.reader.wants k = some p) :
      TaskStep c { c with upPipe := p }
  | readUp {k : Nat} {l : Link} {proxy : ProxyTask} (hk : c.up.taken+k ≤ c.upPipe.fetched)
      (h : toProxyStep (.read k) c.up = some l) (hold : c.proxy = .reading)
      (hnew : proxy = .reading ∨ ∃ cmd, proxy = .handling cmd) :
      TaskStep c { c with up := l, proxy := proxy }
  | handle {cmd : ProxyCommand} {resp : ProxyResponse} (hold : c.proxy = .handling cmd) :
      TaskStep c { c with proxy := .responding resp }
  | respond {resp : ProxyResponse} {l : Link} (hold : c.proxy = .responding resp)
      (hl : l = c.down ∨ ∃ p, toLibraryStep (.send (.offerControl p)) c.down = some l) :
      TaskStep c { c with proxy := .reading, down := l }
  | writeDown {a : SendAction} {s : Sender} (ha : a.ofWriter = true) (hok : a.NoError)
      (h : relayWriter a c.down.sender = some s) :
      TaskStep c { c with down := { c.down with sender := s } }
  | pushDown {k : Nat} {p : Pipe} (h : c.downPipe.push c.down.written k = some p) :
      TaskStep c { c with downPipe := p }
  | fetchDown {k : Nat} {p : Pipe}
      (h : c.downPipe.fetch c.down.taken c.down.reader.wants k = some p) :
      TaskStep c { c with downPipe := p }
  | readDown {k : Nat} {l : Link} (hk : c.down.taken+k ≤ c.downPipe.fetched)
      (h : toLibraryStep (.read k) c.down = some l) : TaskStep c { c with down := l }

theorem World.proxyReceive_proxy (J : Codec) (record : Bytes) (w : World) :
    ∃ p, w.proxyReceive J record = { w with proxy := p } ∧
      (p = w.proxy ∨ ∃ cmd, p = .handling cmd) := by
  unfold World.proxyReceive
  split
  · split
    · next cmd hcmd => exact ⟨.handling cmd, rfl, .inr ⟨cmd, rfl⟩⟩
    · exact ⟨w.proxy, rfl, .inl rfl⟩
  · exact ⟨w.proxy, rfl, .inl rfl⟩
  · exact ⟨w.proxy, rfl, .inl rfl⟩

namespace Relay

variable {J : Codec} {r r' : Relay}

theorem base_core {a : Action} (h : step J (.base a) r = some r') :
    r.admits a = true ∧ ∃ w, World.step J a r.world = some w ∧
      r'.core = ⟨w.toProxy, r.toProxyPipe, w.proxy, w.toLibrary, r.toLibraryPipe⟩ := by
  simp only [step] at h
  split_ifs at h with hadm
  obtain ⟨w, hw, rfl⟩ := Option.map_eq_some_iff.mp h
  exact ⟨hadm, w, hw, rfl⟩

/-- The step lemma of the four tasks. -/
theorem taskStep {a : RelayAction} (ha : a.Works) (h : step J a r = some r') :
    TaskStep r.core r'.core := by
  obtain ⟨htask, hok⟩ := ha
  cases a with
  | base a =>
    obtain ⟨hadm, w, hw, hcore⟩ := base_core h
    rw [hcore]
    cases a with
    | toProxy b =>
      obtain ⟨-, l, hl, hcase⟩ := World.step_toProxy hw
      cases b with
      | send b =>
        have hb : b.ofWriter = true := by
          by_contra hne
          simp [RelayAction.task, hne] at htask
        obtain ⟨s, hs, rfl⟩ := Option.map_eq_some_iff.mp hl
        rcases hcase with ⟨-, rfl⟩ | ⟨record, hrec, -, rfl⟩
        · exact TaskStep.writeUp hb hok hs
        · simp at hrec
      | read k =>
        have hk : r.world.toProxy.taken+k ≤ r.toProxyPipe.fetched := of_decide_eq_true hadm
        have hreading : r.world.proxy = .reading := by
          simp only [World.step] at hw
          split_ifs at hw with hg
          simpa [LinkAction.reads, LinkAction.free] using hg
        rcases hcase with ⟨-, rfl⟩ | ⟨record, -, -, rfl⟩
        · exact TaskStep.readUp (c := r.core) hk hl hreading (.inl hreading)
        · obtain ⟨p, hp, hcases⟩ := World.proxyReceive_proxy J record { r.world with toProxy := l }
          rw [hp]
          refine TaskStep.readUp (c := r.core) hk hl hreading ?_
          rcases hcases with rfl | hcmd
          · exact .inl hreading
          · exact .inr hcmd
      | stopReader => cases htask
    | handle k =>
      simp only [World.step] at hw
      split at hw
      · next cmd hp =>
        obtain rfl := Option.some.inj hw
        exact TaskStep.handle (c := r.core) hp
      · cases hw
      · cases hw
    | respond =>
      simp only [World.step] at hw
      split at hw
      · next resp hp =>
        unfold World.respond at hw
        split at hw
        · next l hl =>
          obtain rfl := Option.some.inj hw
          exact TaskStep.respond (c := r.core) hp (.inr ⟨_, hl⟩)
        · split_ifs at hw
          obtain rfl := Option.some.inj hw
          exact TaskStep.respond (c := r.core) hp (.inl rfl)
      · cases hw
      · cases hw
    | toLibrary b =>
      obtain ⟨-, l, hl, hcase⟩ := World.step_toLibrary hw
      cases b with
      | send b =>
        have hb : b.ofWriter = true := by
          by_contra hne
          simp [RelayAction.task, hne] at htask
        obtain ⟨s, hs, rfl⟩ := Option.map_eq_some_iff.mp hl
        rcases hcase with ⟨-, rfl⟩ | ⟨record, hrec, rfl⟩
        · exact TaskStep.writeDown hb hok hs
        · simp at hrec
      | read k =>
        have hk : r.world.toLibrary.taken+k ≤ r.toLibraryPipe.fetched := of_decide_eq_true hadm
        rcases hcase with ⟨-, rfl⟩ | ⟨record, -, rfl⟩
        · exact TaskStep.readDown (c := r.core) hk hl
        · rw [World.libraryReceive_toProxy, (World.libraryReceive_books J record _).2.1,
            World.libraryReceive_toLibrary]
          exact TaskStep.readDown (c := r.core) hk hl
      | stopReader => cases htask
    | call | register | submit | finish | cancel => cases htask
  | receive => cases htask
  | pushToProxy k =>
    simp only [step] at h
    split_ifs at h
    obtain ⟨p, hp, rfl⟩ := Option.map_eq_some_iff.mp h
    exact TaskStep.pushUp (c := r.core) hp
  | fetchToProxy k =>
    simp only [step] at h
    split_ifs at h
    obtain ⟨p, hp, rfl⟩ := Option.map_eq_some_iff.mp h
    exact TaskStep.fetchUp (c := r.core) hp
  | pushToLibrary k =>
    simp only [step] at h
    split_ifs at h
    obtain ⟨p, hp, rfl⟩ := Option.map_eq_some_iff.mp h
    exact TaskStep.pushDown (c := r.core) hp
  | fetchToLibrary k =>
    simp only [step] at h
    split_ifs at h
    obtain ⟨p, hp, rfl⟩ := Option.map_eq_some_iff.mp h
    exact TaskStep.fetchDown (c := r.core) hp

end Relay

section Measure

/-- Steps a writer still makes before its next select. -/
def SendPhase.rank : SendPhase → Nat
  | .drainFrames => 3
  | .drainControl => 2
  | .flush => 1
  | .select | .exited => 0

/-- A message that waits counts for its way to the socket and for each of its bytes. -/
def queueWork (q : List Bytes) : Nat := (q.map fun m => 4+5*(m.length+5)).sum

def Sender.work (s : Sender) : Nat :=
  queueWork s.frames.queue + queueWork s.control.queue + s.phase.rank + 5*s.writer.content.length

/-- Work that is left in one direction. A byte counts less after each of its moves, and least once
it has been read. -/
def Link.work (l : Link) (p : Pipe) : Nat := l.sender.work - (p.pushed+p.fetched+3*l.taken)

def ProxyTask.rank : ProxyTask → Nat
  | .reading => 0
  | .handling _ => 2
  | .responding _ => 1

/-- Work on the commands comes before work on the responses, which it makes. -/
def Core.work (c : Core) : Nat × Nat := (c.up.work c.upPipe + c.proxy.rank, c.down.work c.downPipe)

@[simp] theorem queueWork_cons (m : Bytes) (q : List Bytes) :
    queueWork (m::q) = 4+5*(m.length+5)+queueWork q := by
  simp [queueWork]

variable {s s' : Sender} {l l' : Link} {p p' : Pipe} {a : SendAction}

theorem work_takeFrame {x : Bytes} {c : Chan Bytes} (h : s.frames.tryRecv = .ok (x, c))
    (m : Message) (msg : Bytes) (hmsg : msg.length ≤ x.length+1) (n : Nat) (ph : SendPhase)
    (hph : ph.rank ≤ 3) :
    Sender.work { { s with frames := c }.emit m msg .ok with txFrames := n, phase := ph } <
      s.work := by
  obtain ⟨hq, -⟩ := Chan.tryRecv_ok h
  simp only [Sender.work, Sender.emit, writeFramed_ok_content, hq, queueWork_cons,
    List.length_append, delimit_length]
  omega

theorem work_takeControl {x : Bytes} {c : Chan Bytes} (h : s.control.tryRecv = .ok (x, c))
    (m : Message) (ph : SendPhase) (hph : ph.rank ≤ 3) :
    Sender.work { { s with control := c }.emit m x .ok with phase := ph } < s.work := by
  obtain ⟨hq, -⟩ := Chan.tryRecv_ok h
  simp only [Sender.work, Sender.emit, writeFramed_ok_content, hq, queueWork_cons,
    List.length_append, delimit_length]
  omega

theorem content_le_emit (s : Sender) (m : Message) (msg : Bytes) :
    s.writer.content.length ≤ (s.emit m msg .ok).writer.content.length := by
  simp [Sender.emit, writeFramed_ok_content]

/-- The writer has less to do and does not end. -/
structure GoesOn (s s' : Sender) : Prop where
  less : s'.work < s.work
  content : s.writer.content.length ≤ s'.writer.content.length
  phase : s'.phase ≠ .exited
  frames : s'.frames.txAlive = s.frames.txAlive
  control : s'.control.txAlive = s.control.txAlive

theorem GoesOn.takeFrame {x : Bytes} {c : Chan Bytes} (h : s.frames.tryRecv = .ok (x, c))
    (m : Message) (msg : Bytes) (hmsg : msg.length ≤ x.length+1) (n : Nat) :
    GoesOn s { { s with frames := c }.emit m msg .ok with txFrames := n, phase := .drainFrames } :=
  ⟨work_takeFrame h m msg hmsg n .drainFrames (Nat.le_refl 3), content_le_emit _ m msg, by simp,
    (Chan.tryRecv_ok h).2.1, rfl⟩

theorem GoesOn.takeControl {x : Bytes} {c : Chan Bytes} (h : s.control.tryRecv = .ok (x, c))
    (m : Message) {ph : SendPhase} (hph : ph = .drainFrames ∨ ph = .drainControl) :
    GoesOn s { { s with control := c }.emit m x .ok with phase := ph } := by
  obtain ⟨hrank, hne⟩ : ph.rank ≤ 3 ∧ ph ≠ .exited := by
    rcases hph with rfl | rfl <;> simp [SendPhase.rank]
  exact ⟨work_takeControl h m ph hrank, content_le_emit _ m x, hne, rfl, (Chan.tryRecv_ok h).2.1⟩

/-- A drain loop that finds its queue empty. -/
theorem GoesOn.move {ph : SendPhase} (hrank : ph.rank < s.phase.rank) (hne : ph ≠ .exited) :
    GoesOn s { s with phase := ph } := by
  refine ⟨?_, Nat.le_refl _, hne, rfl, rfl⟩
  simp only [Sender.work]
  omega

theorem GoesOn.flush (hp : s.phase = .flush) :
    GoesOn s { s with writer := s.writer.flush, phase := .select } := by
  refine ⟨?_, by simp, by simp, rfl, rfl⟩
  simp only [Sender.work, BufWriter.flush_content, hp, SendPhase.rank]
  omega

theorem tryRecv_ne_disconnected {c : Chan Bytes} (h : c.txAlive = true) :
    c.tryRecv ≠ .error .disconnected := by
  unfold Chan.tryRecv
  split <;> simp [h]

/-- Encoding adds the type byte at most. -/
theorem WriterKind.task_goesOn (k : WriterKind)
    (hsent : ∀ x, (k.form.sent x).length ≤ x.length+1) (ha : a.ofWriter = true) (hok : a.NoError)
    (hf : s.frames.txAlive = true) (hc : k.endsWithControl = true → s.control.txAlive = true)
    (h : k.task a s = some s') : GoesOn s s' := by
  cases a with
  | recvFrame r =>
    obtain rfl : r = .ok := hok
    simp only [task] at h
    split at h
    · next hr =>
      obtain rfl := Option.some.inj h
      exact .takeFrame hr _ _ (hsent _) _
    · next hr => exact absurd hr (tryRecv_ne_disconnected hf)
    · cases h
  | recvControl r =>
    obtain rfl : r = .ok := hok
    simp only [task] at h
    split at h
    · next hr =>
      obtain rfl := Option.some.inj h
      exact .takeControl hr _ (.inl rfl)
    · next hr =>
      split_ifs at h with hends
      exact absurd hr (tryRecv_ne_disconnected (hc hends))
    · cases h
  | advance r =>
    obtain rfl : r = .ok := hok
    simp only [task] at h
    split at h
    · next hp =>
      split at h
      · next hr =>
        obtain rfl := Option.some.inj h
        exact .takeFrame hr _ _ (hsent _) _
      · obtain rfl := Option.some.inj h
        exact .move (by simp [hp, SendPhase.rank]) (by simp)
    · next hp =>
      split at h
      · next hr =>
        obtain rfl := Option.some.inj h
        exact .takeControl hr _ (.inr rfl)
      · obtain rfl := Option.some.inj h
        exact .move (by simp [hp, SendPhase.rank]) (by simp)
    · next hp =>
      obtain rfl := Option.some.inj h
      exact .flush hp
    · cases h
    · cases h
  | offerFrame | offerControl | dropFrames | dropControl | abort => cases ha

theorem ipcWriter_goesOn (ha : a.ofWriter = true) (hok : a.NoError)
    (hf : s.frames.txAlive = true) (hc : s.control.txAlive = true)
    (h : ipcWriter a s = some s') : GoesOn s s' :=
  ipcKind.task_goesOn (fun _ => Nat.le_refl _) ha hok hf (fun _ => hc) (ipcWriter_eq ▸ h)

theorem relayWriter_goesOn (ha : a.ofWriter = true) (hok : a.NoError)
    (hf : s.frames.txAlive = true) (h : relayWriter a s = some s') : GoesOn s s' :=
  relayKind.task_goesOn (fun _ => Nat.le_succ _) ha hok hf (by simp [relayKind])
    (relayWriter_eq ▸ h)

/-- The positions in a link are within what its writer has written. -/
theorem Link.positions (h : p.Ordered l.taken l.written) :
    p.pushed+p.fetched+3*l.taken ≤ 5*l.sender.writer.content.length := by
  have h1 := h.taken
  have h2 := h.fetched
  have h3 := h.pushed
  have h4 : l.written ≤ l.sender.writer.content.length := by
    simp [Link.written, BufWriter.content]
  omega

theorem Link.work_write (h : p.Ordered l.taken l.written) (hs : GoesOn l.sender s) :
    Link.work { l with sender := s } p < l.work p := by
  have hpos := Link.positions h
  have hless := hs.less
  have hcontent := hs.content
  have hwork : 5*s.writer.content.length ≤ s.work := by
    simp [Sender.work]
  simp only [Link.work]
  omega

theorem Link.work_move (hp : p.pushed+p.fetched < p'.pushed+p'.fetched)
    (hp' : p'.Ordered l.taken l.written) : l.work p' < l.work p := by
  have hpos := Link.positions hp'
  have hwork : 5*l.sender.writer.content.length ≤ l.sender.work := by
    simp [Sender.work]
  simp only [Link.work]
  omega

theorem Link.work_read {write : SendAction → Sender → Option Sender}
    {fit : Nat → Bytes → Option Bytes} {k : Nat} (h : p.Ordered l.taken l.written)
    (hk : l.taken+k ≤ p.fetched) (hl : Link.step write fit (.read k) l = some l') :
    l'.work p+3 ≤ l.work p := by
  simp only [Link.step] at hl
  split_ifs at hl with hc
  obtain rfl := Option.some.inj hl
  have hpos := Link.positions (l := { l with taken := l.taken+k }) (h.read hk)
  have hwork : 5*l.sender.writer.content.length ≤ l.sender.work := by
    simp [Sender.work]
  have hpos' : 0 < k := hc.2.1
  simp only [Link.work] at hpos ⊢
  omega

theorem Pipe.push_less {written k : Nat} (h : p.push written k = some p') :
    p.pushed+p.fetched < p'.pushed+p'.fetched := by
  unfold Pipe.push at h
  split_ifs at h with hk
  obtain rfl := Option.some.inj h
  change p.pushed+p.fetched < p.pushed+k+p.fetched
  omega

theorem Pipe.fetch_less {taken wants k : Nat} (h : p.fetch taken wants k = some p') :
    p.pushed+p.fetched < p'.pushed+p'.fetched := by
  unfold Pipe.fetch at h
  split_ifs at h with hk
  obtain rfl := Option.some.inj h
  change p.pushed+p.fetched < p.pushed+(p.fetched+k)
  omega

end Measure

/-- The four tasks run, and nobody has closed a queue on them. -/
structure Core.Runs (c : Core) : Prop where
  upPhase : c.up.sender.phase ≠ .exited
  upReader : c.up.readerAlive = true
  downPhase : c.down.sender.phase ≠ .exited
  downReader : c.down.readerAlive = true
  frames : c.up.sender.frames.txAlive = true
  control : c.up.sender.control.txAlive = true
  tapFrames : c.down.sender.frames.txAlive = true

/-- Queueing a response touches only the control queue of the writer. -/
theorem toLibrary_offer_frame {p : Bytes} {l l' : Link}
    (h : toLibraryStep (.send (.offerControl p)) l = some l') :
    l'.sender.phase = l.sender.phase ∧ l'.readerAlive = l.readerAlive ∧
      l'.sender.frames = l.sender.frames := by
  obtain ⟨s, hs, rfl⟩ := Option.map_eq_some_iff.mp h
  simp only [relayWriter, Sender.offerControl] at hs
  split at hs
  · obtain rfl := Option.some.inj hs
    exact ⟨rfl, rfl, rfl⟩
  · cases hs

namespace TaskStep

variable {c c' : Core}

theorem runs (h : TaskStep c c') (hr : c.Runs) : c'.Runs := by
  cases h with
  | writeUp ha hok hs =>
    have hgo := ipcWriter_goesOn ha hok hr.frames hr.control hs
    exact ⟨hgo.phase, hr.upReader, hr.downPhase, hr.downReader, hgo.frames.trans hr.frames,
      hgo.control.trans hr.control, hr.tapFrames⟩
  | readUp hk hl hold hnew =>
    obtain ⟨hsender, halive⟩ := Link.read_frame hl
    refine ⟨?_, halive.trans hr.upReader, hr.downPhase, hr.downReader, ?_, ?_, hr.tapFrames⟩ <;>
      simp only [hsender]
    exacts [hr.upPhase, hr.frames, hr.control]
  | respond hold hl =>
    rcases hl with rfl | ⟨p, hl⟩
    · exact ⟨hr.upPhase, hr.upReader, hr.downPhase, hr.downReader, hr.frames, hr.control,
        hr.tapFrames⟩
    · obtain ⟨hphase, halive, hframes⟩ := toLibrary_offer_frame hl
      refine ⟨hr.upPhase, hr.upReader, ?_, halive.trans hr.downReader, hr.frames, hr.control, ?_⟩
      · rw [hphase]
        exact hr.downPhase
      · rw [hframes]
        exact hr.tapFrames
  | writeDown ha hok hs =>
    have hgo := relayWriter_goesOn ha hok hr.tapFrames hs
    exact ⟨hr.upPhase, hr.upReader, hgo.phase, hr.downReader, hr.frames, hr.control,
      hgo.frames.trans hr.tapFrames⟩
  | readDown hk hl =>
    obtain ⟨hsender, halive⟩ := Link.read_frame hl
    refine ⟨hr.upPhase, hr.upReader, ?_, halive.trans hr.downReader, hr.frames, hr.control, ?_⟩ <;>
      simp only [hsender]
    exacts [hr.downPhase, hr.tapFrames]
  | pushUp | fetchUp | handle | pushDown | fetchDown =>
    exact ⟨hr.upPhase, hr.upReader, hr.downPhase, hr.downReader, hr.frames, hr.control,
      hr.tapFrames⟩

/-- Every step leaves less to do. -/
theorem less (h : TaskStep c c') (hr : c.Runs)
    (hup : c.upPipe.Ordered c.up.taken c.up.written)
    (hdown : c.downPipe.Ordered c.down.taken c.down.written) :
    Prod.Lex (· < ·) (· < ·) c'.work c.work := by
  cases h with
  | writeUp ha hok hs =>
    have hgo := ipcWriter_goesOn ha hok hr.frames hr.control hs
    exact .left _ _ (Nat.add_lt_add_right (Link.work_write hup hgo) _)
  | pushUp hp =>
    exact .left _ _ (Nat.add_lt_add_right (Link.work_move (Pipe.push_less hp) (hup.push hp)) _)
  | fetchUp hp =>
    exact .left _ _ (Nat.add_lt_add_right (Link.work_move (Pipe.fetch_less hp) (hup.fetch hp)) _)
  | readUp hk hl hold hnew =>
    have hwork := Link.work_read hup hk hl
    apply Prod.Lex.left
    -- a command that was read counts for two more steps
    have hrank : ∀ proxy, (proxy = .reading ∨ ∃ cmd, proxy = .handling cmd) →
        ProxyTask.rank proxy ≤ 2 := by
      rintro proxy (rfl | ⟨cmd, rfl⟩) <;> simp [ProxyTask.rank]
    have hnew' := hrank _ hnew
    dsimp only
    omega
  | handle hold =>
    apply Prod.Lex.left
    simp [hold, ProxyTask.rank]
  | respond hold hl =>
    apply Prod.Lex.left
    simp [hold, ProxyTask.rank]
  | writeDown ha hok hs =>
    have hgo := relayWriter_goesOn ha hok hr.tapFrames hs
    exact .right _ (Link.work_write hdown hgo)
  | pushDown hp => exact .right _ (Link.work_move (Pipe.push_less hp) (hdown.push hp))
  | fetchDown hp => exact .right _ (Link.work_move (Pipe.fetch_less hp) (hdown.fetch hp))
  | readDown hk hl =>
    have hwork := Link.work_read hdown hk hl
    apply Prod.Lex.right
    dsimp only
    omega

end TaskStep

end TapTunnel.Ipc
