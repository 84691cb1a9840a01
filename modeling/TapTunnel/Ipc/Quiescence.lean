import TapTunnel.Framework.Simulation
import TapTunnel.Framework.Settling
import TapTunnel.Ipc.Progress
import TapTunnel.Ipc.RelayWork

namespace TapTunnel.Ipc

open Framework

/-- Nothing is left to do in one direction: the writer waits with both queues empty, and the reader
has read every byte. -/
structure Link.Idle (l : Link) : Prop where
  phase : l.sender.phase = .select
  frames : l.sender.frames.queue = []
  control : l.sender.control.queue = []
  unread : l.unread = []

structure Relay.Idle (r : Relay) : Prop where
  toProxy : r.world.toProxy.Idle
  proxy : r.world.proxy = .reading
  toLibrary : r.world.toLibrary.Idle

/-- The stack task, the tunnel and the TAP reader exist, so no queue is closed at its start. -/
structure Relay.Fed (r : Relay) : Prop where
  frames : r.world.toProxy.sender.frames.txAlive = true
  control : r.world.toProxy.sender.control.txAlive = true
  tapFrames : r.world.toLibrary.sender.frames.txAlive = true

/-- A step that a writer can make it can also make without an error. -/
def SendAction.succeed : SendAction → SendAction
  | .recvFrame _ => .recvFrame .ok
  | .recvControl _ => .recvControl .ok
  | .advance _ => .advance .ok
  | a => a

theorem SendAction.succeed_noError (a : SendAction) : a.succeed.NoError := by
  cases a <;> trivial

theorem SendAction.succeed_ofWriter (a : SendAction) : a.succeed.ofWriter = a.ofWriter := by
  cases a <;> rfl

theorem WriterKind.task_succeed (k : WriterKind) {a : SendAction} {s s' : Sender}
    (h : k.task a s = some s') : ∃ t, k.task a.succeed s = some t := by
  cases a with
  | recvFrame r | recvControl r =>
    simp only [task] at h
    simp only [SendAction.succeed, task]
    split at h
    · exact ⟨_, rfl⟩
    · first | exact ⟨_, rfl⟩ | exact ⟨_, h⟩
    · cases h
  | advance r =>
    simp only [task] at h
    simp only [SendAction.succeed, task]
    split at h
    · split at h <;> exact ⟨_, rfl⟩
    · split at h <;> exact ⟨_, rfl⟩
    · exact ⟨_, rfl⟩
    · cases h
    · cases h
  | offerFrame | offerControl | dropFrames | dropControl | abort => exact ⟨s', h⟩

/-- The writer waits in its select and finds both queues empty. -/
def Sender.Waits (s : Sender) : Prop :=
  s.phase = .select ∧ s.frames.queue = [] ∧ s.control.queue = []

/-- A writer that cannot go on waits. -/
theorem Sender.waits_of_stuck (k : WriterKind) {s : Sender} (hphase : s.phase ≠ .exited)
    (hstuck : ∀ a, a.ofWriter = true → a.NoError → k.task a s = none) : s.Waits := by
  by_contra hne
  have hwork : s.frames.queue ≠ [] ∨ s.control.queue ≠ [] ∨ s.phase ≠ .select := by
    unfold Sender.Waits at hne
    tauto
  obtain ⟨a, s', ha, hs⟩ := k.task_enabled hphase hwork
  obtain ⟨t, ht⟩ := k.task_succeed hs
  rw [hstuck a.succeed (a.succeed_ofWriter.trans ha) a.succeed_noError] at ht
  cases ht

/-- When nothing can be pushed, fetched or read any more, everything written has been read. -/
theorem Link.all_read {write : SendAction → Sender → Option Sender}
    {fit : Nat → Bytes → Option Bytes} {l : Link} {p : Pipe}
    (ho : p.Ordered l.taken l.written) (hr : l.reader.Sound) (halive : l.readerAlive = true)
    (hpush : ∀ k, p.push l.written k = none)
    (hfetch : ∀ k, p.fetch l.taken l.reader.wants k = none)
    (hread : ∀ k, l.taken+k ≤ p.fetched → Link.step write fit (.read k) l = none) :
    p.pushed = l.written ∧ l.unread = [] := by
  have htaken : l.taken = p.fetched := by
    rcases Nat.lt_or_eq_of_le ho.taken with hlt | heq
    · obtain ⟨l', hl'⟩ := Link.read_enabled write fit ho hr halive hlt
      rw [hread 1 hlt] at hl'
      cases hl'
    · exact heq
  have hsize : p.size = 0 := by
    by_contra hne
    rcases ho.fetch_enabled hr.filled (Nat.pos_of_ne_zero hne) with hlt | ⟨p', hp'⟩
    · omega
    · rw [hfetch 1] at hp'
      cases hp'
  have hpushed : p.pushed = l.written := by
    rcases Nat.lt_or_eq_of_le ho.pushed with hlt | heq
    · obtain ⟨p', hp'⟩ := ho.push_enabled hlt hsize
      rw [hpush 1] at hp'
      cases hp'
    · exact heq
  refine ⟨hpushed, ?_⟩
  have hfetched := ho.fetched
  simp only [Pipe.size] at hsize
  simp only [Link.written] at hpushed
  rw [Link.unread, List.drop_eq_nil_iff]
  omega

namespace Relay

variable {J : Codec} {r : Relay}

theorem toLibrary_idle (hs : r.Sound) (hr : r.core.Runs)
    (hq : Quiet (step J) RelayAction.Works r) : r.world.toLibrary.Idle := by
  have hphase : r.world.toLibrary.sender.phase ≠ .exited := hr.downPhase
  have halive : r.world.toLibrary.readerAlive = true := hr.downReader
  have hpush : ∀ k, r.toLibraryPipe.push r.world.toLibrary.written k = none := by
    intro k
    have h := hq (.pushToLibrary k) ⟨rfl, trivial⟩
    simpa only [step, if_neg hphase, Option.map_eq_none_iff] using h
  have hfetch : ∀ k, r.toLibraryPipe.fetch r.world.toLibrary.taken
      r.world.toLibrary.reader.wants k = none := by
    intro k
    have h := hq (.fetchToLibrary k) ⟨rfl, trivial⟩
    simpa only [step, if_pos halive, Option.map_eq_none_iff] using h
  have hread : ∀ k, r.world.toLibrary.taken+k ≤ r.toLibraryPipe.fetched →
      toLibraryStep (.read k) r.world.toLibrary = none := by
    intro k hk
    have h := hq (.base (.toLibrary (.read k))) ⟨rfl, trivial⟩
    simpa only [step, admits, linkAdmits, hk, decide_true, if_true, World.step, LinkAction.free,
      Option.map_eq_none_iff] using h
  obtain ⟨hpushed, hunread⟩ :=
    Link.all_read hs.toLibrary hs.libraryReader halive hpush hfetch hread
  have hwaits : r.world.toLibrary.sender.Waits := by
    apply Sender.waits_of_stuck relayKind hphase
    intro a ha hok
    have h := hq (.base (.toLibrary (.send a))) ⟨by simp [RelayAction.task, ha], hok⟩
    have hfree : (LinkAction.send a).free = true := by
      cases a <;> first | rfl | cases ha
    rw [← relayWriter_eq]
    simpa only [step, admits, linkAdmits, hpushed, beq_self_eq_true, Bool.or_true, if_true,
      World.step, hfree, toLibraryStep, Link.step, Option.map_eq_none_iff] using h
  exact ⟨hwaits.1, hwaits.2.1, hwaits.2.2, hunread⟩

/-- Task 3 reads: it is never stuck with a command, and with a response only while the response
queue is full. -/
theorem proxy_reading (hs : r.Sound) (hq : Quiet (step J) RelayAction.Works r)
    (hdown : r.world.toLibrary.Idle) : r.world.proxy = .reading := by
  cases hproxy : r.world.proxy with
  | reading => rfl
  | handling cmd =>
    have h := hq (.base (.handle quietKernel)) ⟨rfl, trivial⟩
    simp [step, admits, World.step, hproxy] at h
  | responding resp =>
    have h := hq (.base .respond) ⟨rfl, trivial⟩
    simp only [step, admits, World.step, hproxy, if_true, Option.map_eq_none_iff] at h
    have hfull := World.respond_blocked h
    have hroom := hs.responses
    rw [hdown.control, List.length_nil] at hfull
    omega

theorem toProxy_idle (hs : r.Sound) (hr : r.core.Runs)
    (hq : Quiet (step J) RelayAction.Works r) (hreading : r.world.proxy = .reading) :
    r.world.toProxy.Idle := by
  have hphase : r.world.toProxy.sender.phase ≠ .exited := hr.upPhase
  have halive : r.world.toProxy.readerAlive = true := hr.upReader
  have hpush : ∀ k, r.toProxyPipe.push r.world.toProxy.written k = none := by
    intro k
    have h := hq (.pushToProxy k) ⟨rfl, trivial⟩
    simpa only [step, if_neg hphase, Option.map_eq_none_iff] using h
  have hfetch : ∀ k, r.toProxyPipe.fetch r.world.toProxy.taken
      r.world.toProxy.reader.wants k = none := by
    intro k
    have h := hq (.fetchToProxy k) ⟨rfl, trivial⟩
    simpa only [step, if_pos (And.intro halive hreading), Option.map_eq_none_iff] using h
  have hread : ∀ k, r.world.toProxy.taken+k ≤ r.toProxyPipe.fetched →
      toProxyStep (.read k) r.world.toProxy = none := by
    intro k hk
    have h := hq (.base (.toProxy (.read k))) ⟨rfl, trivial⟩
    simpa only [step, admits, linkAdmits, hk, decide_true, if_true, World.step, LinkAction.free,
      hreading, beq_self_eq_true, Bool.true_or, Bool.and_true, Option.map_eq_none_iff] using h
  obtain ⟨hpushed, hunread⟩ :=
    Link.all_read hs.toProxy hs.proxyReader halive hpush hfetch hread
  have hwaits : r.world.toProxy.sender.Waits := by
    apply Sender.waits_of_stuck ipcKind hphase
    intro a ha hok
    have h := hq (.base (.toProxy (.send a))) ⟨by simp [RelayAction.task, ha], hok⟩
    have hfree : (LinkAction.send a).free = true := by
      cases a <;> first | rfl | cases ha
    rw [← ipcWriter_eq]
    simpa only [step, admits, linkAdmits, hpushed, beq_self_eq_true, Bool.or_true, Bool.and_true,
      Bool.true_or, hreading, if_true, World.step, hfree, toProxyStep, Link.step,
      Option.map_eq_none_iff] using h
  exact ⟨hwaits.1, hwaits.2.1, hwaits.2.2, hunread⟩

theorem idle_of_quiet (hs : r.Sound) (hr : r.core.Runs)
    (hq : Quiet (step J) RelayAction.Works r) : r.Idle := by
  have hdown := toLibrary_idle hs hr hq
  have hproxy := proxy_reading hs hq hdown
  exact ⟨toProxy_idle hs hr hq hproxy, hproxy, hdown⟩

theorem runs (hopen : r.Open) (hfed : r.Fed) : r.core.Runs :=
  ⟨hopen.1, hopen.2.1, hopen.2.2.1, hopen.2.2.2, hfed.frames, hfed.control, hfed.tapFrames⟩

theorem settles (hs : r.Sound) (hr : r.core.Runs) :
    Settles (step J) RelayAction.Works Idle r := by
  apply Settles.of_variant (P := fun r => r.Sound ∧ r.core.Runs)
    (WellFounded.prod_lex wellFounded_lt wellFounded_lt) (fun r => r.core.work)
  · intro s t a hp ha ht
    exact ⟨hp.1.step ht, (taskStep ha ht).runs hp.2⟩
  · intro s t a hp ha ht
    exact (taskStep ha ht).less hp.2 hp.1.toProxy hp.1.toLibrary
  · intro s hp hq
    exact idle_of_quiet hp.1 hp.2 hq
  · exact ⟨hs, hr⟩

end Relay

/-- The relay comes to rest. Once callers, stack and TAP device are silent and no write fails, the
four tasks cannot go on for ever, whatever order they run in, and where they stop both queues of
both writers are empty, every byte has been read and no command is in hand. They can be brought
there from wherever they have got to. -/
theorem relay_settles (J : Codec) (cap : Capacities) (mtu : UInt16) (r : Relay)
    (h : Reachable (Relay.step J) (Relay.init cap mtu) r) (hopen : r.Open) (hfed : r.Fed) :
    (∀ f : Nat → Relay, f 0 = r →
      ∃ n, ∀ a : RelayAction, a.Works → Relay.step J a (f n) ≠ some (f (n+1))) ∧
    ∀ t, ReachVia (Relay.step J) (fun _ a => a.Works) r t →
      (Quiet (Relay.step J) RelayAction.Works t → t.Idle) ∧
      ∃ u, ReachVia (Relay.step J) (fun _ a => a.Works) t u ∧ u.Idle := by
  have hset := Relay.settles (J := J) (Relay.sound h) (Relay.runs hopen hfed)
  exact ⟨hset.finite, fun t ht => ⟨hset.stopped ht, (hset.reach ht).end_reachable⟩⟩

instance (r : Relay) : Decidable r.Fed :=
  decidable_of_iff (r.world.toProxy.sender.frames.txAlive = true ∧
      r.world.toProxy.sender.control.txAlive = true ∧
      r.world.toLibrary.sender.frames.txAlive = true)
    ⟨fun h => ⟨h.1, h.2.1, h.2.2⟩, fun h => ⟨h.frames, h.control, h.tapFrames⟩⟩

theorem relay_settles_congestedRun :
    ∃ r : Relay, r.Busy ∧ r.toProxyPipe.size = 1 ∧
      (∀ f : Nat → Relay, f 0 = r →
        ∃ n, ∀ a : RelayAction, a.Works → Relay.step compactJson a (f n) ≠ some (f (n+1))) ∧
      ∃ u, ReachVia (Relay.step compactJson) (fun _ a => a.Works) r u ∧ u.Idle := by
  obtain ⟨r, hr, -, hp⟩ := reachable_of_run (Relay.step compactJson) congestedRun
    (Relay.init tightCapacities 1500) (fun r => decide (r.Open ∧ r.Fed ∧ r.Busy ∧
      r.toProxyPipe.size = 1)) (by decide +kernel)
  obtain ⟨hopen, hfed, hbusy, hsize⟩ := of_decide_eq_true hp
  have h := relay_settles compactJson tightCapacities 1500 r hr hopen hfed
  exact ⟨r, hbusy, hsize, h.1, (h.2 r .start).2⟩

/-- The step is one of a run in which every message fits the reader at the other end. -/
def RelayFits (J : Codec) (mtu : UInt16) (r : Relay) : RelayAction → Prop
  | .base a => StepFits J mtu r.world a
  | _ => True

theorem Relay.reachVia {J : Codec} {mtu : UInt16} {r r' : Relay}
    (h : ReachVia (Relay.step J) (RelayFits J mtu) r r') :
    ReachVia (World.step J) (StepFits J mtu) r.world r'.world := by
  apply h.simulate (fun s : Relay => s.world)
  intro s t a ha hs
  cases a with
  | base a =>
    simp only [Relay.step] at hs
    split_ifs at hs
    obtain ⟨w, hw, ht⟩ := Option.map_eq_some_iff.mp hs
    rw [← ht]
    exact .one a ha hw
  | receive =>
    simp only [Relay.step] at hs
    split at hs
    · rw [← Option.some.inj hs]
      exact .start
    · cases hs
  | pushToProxy k | fetchToProxy k | pushToLibrary k | fetchToLibrary k =>
    simp only [Relay.step] at hs
    split_ifs at hs
    obtain ⟨p, -, ht⟩ := Option.map_eq_some_iff.mp hs
    rw [← ht]
    exact .start

/-- The reader has decoded exactly what was offered, each kind of message in its order. -/
def Link.Delivered (l : Link) : Prop :=
  ∃ ms : List Message, l.received = ms.map .ok ∧ framesOf ms = l.sender.offeredFrames ∧
    controlsOf ms = l.sender.offeredControls

theorem Serde.RoundTrips.injective {T : Type} {J : Serde T} (hJ : J.RoundTrips) :
    Function.Injective J.toVec := by
  intro x y hxy
  have hx := hJ x
  rw [hxy, hJ y] at hx
  exact (Except.ok.inj hx).symm

/-- At rest an idle link has delivered everything. -/
theorem Fitting.delivered {form : FrameForm} {fit : Nat → Bytes → Option Bytes} {msgBuf : Bytes}
    {I : Nat → Prop} {l : Link} (hl : Fitting form fit msgBuf I l) (hfit : FrameReader.Fits fit)
    (write : SendAction → Sender → Option Sender) (hidle : l.Idle) : l.Delivered := by
  have htrip := hl.carried.roundTrip hfit hl.size hl.log_admits write
  exact htrip.complete hidle.phase hidle.frames hidle.control hidle.unread

theorem Link.Delivered.controls {l : Link} (h : l.Delivered) :
    l.controls = l.sender.offeredControls := by
  obtain ⟨ms, hrec, -, hcontrols⟩ := h
  rw [controls_eq hrec, hcontrols]

namespace World

variable {J : Codec} {mtu : UInt16} {w : World}

/-- Commands were carried out in the order in which they were queued, each once. -/
theorem handled_all (hJ : J.RoundTrips) (hm : Matched J mtu w) (hproxy : w.proxy = .reading)
    (hup : w.toProxy.Delivered) : w.handled.map Prod.fst = w.submitted := by
  have hcontrols := hup.controls
  rw [hm.books.carriedUp, hm.books.offeredUp, hproxy] at hcontrols
  have hmap := List.map_injective_iff.mpr hJ.command.injective hcontrols
  simpa [ProxyTask.inHand] using hmap

theorem seen_all (hJ : J.RoundTrips) (hm : Matched J mtu w) (hb : w.Booked)
    (hproxy : w.proxy = .reading) (hdown : w.toLibrary.Delivered)
    (hrx : w.toLibrary.sender.control.rxAlive = true) : w.seen = w.handled.map Prod.snd := by
  have hcontrols := hdown.controls
  rw [hm.books.carriedDown, hm.books.offeredDown] at hcontrols
  have hseen := List.map_injective_iff.mpr hJ.response.injective hcontrols
  have hanswers := hb.answers hrx
  rw [hproxy] at hanswers
  rw [hseen, ← hanswers]
  simp [ProxyTask.toQueue]

/-- A caller that still waits has its own response in hand. -/
theorem waiting_answered (hJ : J.RoundTrips) (hm : Matched J mtu w) (hb : w.Booked)
    (hhandled : w.handled.map Prod.fst = w.submitted) (hseen : w.seen = w.handled.map Prod.snd)
    {i : Nat} {c : Call} (hi : w.calls[i]? = some c) (hst : c.stage = .waiting) :
    ∃ resp, c.inbox = some resp ∧ (c.command, resp) ∈ w.handled := by
  have hmem := hb.sent i c hi (.inl hst)
  rw [← hhandled] at hmem
  obtain ⟨p, hp, hcmd⟩ := List.mem_map.mp hmem
  have hsee : p.2 ∈ w.seen := by
    rw [hseen]
    exact List.mem_map_of_mem hp
  have hid : c.command.id = p.2.id := by
    rw [hm.handled_id p hp, hcmd]
  have hnot := hm.callers.kept p.2 hsee i c hi hid
  cases hbox : c.inbox with
  | none =>
    have hlisten : c.listens = true := by
      simp [Call.listens, hst]
    exact absurd ⟨hlisten, hbox⟩ hnot
  | some resp => exact ⟨resp, rfl, (hm.responsesOwn hJ i c resp hi (.inl hbox)).1⟩

end World

/-- A relay at rest owes nobody anything. Both directions have delivered every frame that was
queued, in order; the proxy has carried out every command exactly once, in the order in which the
commands were queued; the library has seen every response, and every call that still waits has the
response to its own command. -/
theorem relay_idle_delivered (J : Codec) (hJ : J.RoundTrips) (n : Nat) (hn : 0 < n)
    (mtu : UInt16) (r : Relay)
    (h : ReachVia (Relay.step J) (RelayFits J mtu) (Relay.init (.source n hn) mtu) r)
    (hidle : r.Idle) :
    r.world.toProxy.Delivered ∧ r.world.toLibrary.Delivered ∧
    r.world.handled.map Prod.fst = r.world.submitted ∧
    r.world.seen = r.world.handled.map Prod.snd ∧
    ∀ (i : Nat) c, r.world.calls[i]? = some c → c.stage = .waiting →
      ∃ resp, c.inbox = some resp ∧ (c.command, resp) ∈ r.world.handled := by
  have hreach := Relay.reachVia h
  rw [Relay.init_source n hn mtu] at hreach
  have hm := matched_of_reachVia hJ hreach
  have hb := World.booked (hreach.mono (World.step J) fun _ _ _ => trivial)
  have hup := hm.up.delivered relayFit_fits ipcWriter hidle.toProxy
  have hdown := hm.down.delivered ipcFit_fits relayWriter hidle.toLibrary
  have hrx : r.world.toLibrary.sender.control.rxAlive = true :=
    (hm.down.carried.sent.alive (by simp [hidle.toLibrary.phase])).2
  have hhandled := World.handled_all hJ hm hidle.proxy hup
  have hseen := World.seen_all hJ hm hb hidle.proxy hdown hrx
  exact ⟨hup, hdown, hhandled, hseen, fun i c hi hst =>
    World.waiting_answered hJ hm hb hhandled hseen hi hst⟩

instance (J : Codec) (mtu : UInt16) (r : Relay) (a : RelayAction) :
    Decidable (RelayFits J mtu r a) := by
  cases a <;> unfold RelayFits <;> infer_instance

/-- `add_peer_route` through a socket of 128 bytes, up to the response in the caller's hands. -/
def relayedRouteRun : List RelayAction :=
  .flatten [
    [.base (.call (.addRoute 0 (.v4 0x0a000000) 8)), .base (.register 0), .base (.submit 0)],
    passControl.map (fun a => .base (.toProxy (.send a))),
    [.pushToProxy 70, .fetchToProxy 70, .base (.toProxy (.read 4)), .base (.toProxy (.read 66)),
      .base (.handle quietKernel), .base .respond],
    passControl.map (fun a => .base (.toLibrary (.send a))),
    [.pushToLibrary 27, .fetchToLibrary 27, .base (.toLibrary (.read 4)),
      .base (.toLibrary (.read 23))]]

instance (l : Link) : Decidable l.Idle :=
  decidable_of_iff (l.sender.phase = .select ∧ l.sender.frames.queue = [] ∧
      l.sender.control.queue = [] ∧ l.unread = [])
    ⟨fun h => ⟨h.1, h.2.1, h.2.2.1, h.2.2.2⟩, fun h => ⟨h.phase, h.frames, h.control, h.unread⟩⟩

instance (r : Relay) : Decidable r.Idle :=
  decidable_of_iff (r.world.toProxy.Idle ∧ r.world.proxy = .reading ∧ r.world.toLibrary.Idle)
    ⟨fun h => ⟨h.1, h.2.1, h.2.2⟩, fun h => ⟨h.toProxy, h.proxy, h.toLibrary⟩⟩

theorem relay_idle_delivered_relayedRouteRun :
    ∃ r : Relay, (∃ c, r.world.calls = [c] ∧ c.stage = .waiting) ∧
      r.world.toProxy.Delivered ∧ r.world.toLibrary.Delivered ∧
      r.world.handled.map Prod.fst = r.world.submitted ∧
      r.world.seen = r.world.handled.map Prod.snd := by
  obtain ⟨r, hr, hp⟩ := reachVia_of_run (Relay.step compactJson) (RelayFits compactJson 1500)
    relayedRouteRun (Relay.init (.source 128 (by decide)) 1500) (fun r => decide (r.Idle ∧
      r.world.calls = [⟨.addRoute 1 (.v4 0x0a000000) 8, .waiting, some (.ok 1)⟩]))
    (by decide +kernel)
  obtain ⟨hidle, hcalls⟩ := of_decide_eq_true hp
  obtain ⟨hup, hdown, hhandled, hseen, -⟩ :=
    relay_idle_delivered compactJson compactJson_roundTrips 128 (by decide) 1500 r hr hidle
  exact ⟨r, ⟨_, hcalls, rfl⟩, hup, hdown, hhandled, hseen⟩

end TapTunnel.Ipc
