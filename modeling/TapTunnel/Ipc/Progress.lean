import TapTunnel.Ipc.Relay
import TapTunnel.Ipc.Correlation

namespace TapTunnel.Ipc

open Framework

theorem tryRecv_of_ne_nil {c : Chan Bytes} (h : c.queue ≠ []) : ∃ x d, c.tryRecv = .ok (x, d) := by
  obtain ⟨x, q, hq⟩ := List.exists_cons_of_ne_nil h
  exact ⟨x, { c with queue := q }, by simp [Chan.tryRecv, hq]⟩

/-- A writer task goes on unless it waits in its select with both queues empty. -/
theorem WriterKind.task_enabled (k : WriterKind) {s : Sender} (hp : s.phase ≠ .exited)
    (hwork : s.frames.queue ≠ [] ∨ s.control.queue ≠ [] ∨ s.phase ≠ .select) :
    ∃ a s', a.ofWriter = true ∧ k.task a s = some s' := by
  cases hph : s.phase with
  | exited => exact absurd hph hp
  | select =>
    rcases hwork with hq | hq | hne
    · obtain ⟨x, c, hr⟩ := tryRecv_of_ne_nil hq
      exact ⟨.recvFrame .ok, _, rfl, by simp only [task, hph, hr]; rfl⟩
    · obtain ⟨x, c, hr⟩ := tryRecv_of_ne_nil hq
      exact ⟨.recvControl .ok, _, rfl, by simp only [task, hph, hr]; rfl⟩
    · exact absurd hph hne
  | drainFrames =>
    cases hr : s.frames.tryRecv with
    | ok p => exact ⟨.advance .ok, _, rfl, by simp only [task, hph, hr]; rfl⟩
    | error e => exact ⟨.advance .ok, _, rfl, by simp only [task, hph, hr]; rfl⟩
  | drainControl =>
    cases hr : s.control.tryRecv with
    | ok p => exact ⟨.advance .ok, _, rfl, by simp only [task, hph, hr]; rfl⟩
    | error e => exact ⟨.advance .ok, _, rfl, by simp only [task, hph, hr]; rfl⟩
  | flush => exact ⟨.advance .ok, _, rfl, by simp only [task, hph]; rfl⟩

theorem Link.read_enabled (write : SendAction → Sender → Option Sender)
    (fit : Nat → Bytes → Option Bytes) {l : Link} {p : Pipe} (ho : p.Ordered l.taken l.written)
    (hr : l.reader.Sound) (halive : l.readerAlive = true) (hlt : l.taken < p.fetched) :
    ∃ l', Link.step write fit (.read 1) l = some l' := by
  have hunread : 1 ≤ l.unread.length := by
    have h1 := ho.fetched
    have h2 := ho.pushed
    simp only [Link.written] at h2
    simp only [Link.unread, List.length_drop]
    omega
  exact ⟨_, if_pos ⟨halive, Nat.one_pos, hr.filled, hunread⟩⟩

/-- Task 3 waits with its response only while the response queue is full. -/
theorem World.respond_blocked {J : Codec} {resp : ProxyResponse} {w : World}
    (h : w.respond J resp = none) :
    w.toLibrary.sender.control.cap ≤ w.toLibrary.sender.control.queue.length := by
  cases hs : w.toLibrary.sender.control.trySend (msgTypeControl::J.response.toVec resp) with
  | ok c =>
    simp [World.respond, toLibraryStep, Link.step, relayWriter, Sender.offerControl, hs] at h
  | error e =>
    simp only [World.respond, toLibraryStep, Link.step, relayWriter, Sender.offerControl, hs,
      Option.map_none] at h
    split_ifs at h with halive
    cases e with
    | full => exact (Chan.trySend_full hs).2
    | closed =>
      rw [Chan.trySend_closed hs] at halive
      cases halive

namespace Relay

variable {J : Codec} {r : Relay}

theorem Enabled.base {a : Action} (ht : (RelayAction.base a).task.isSome = true)
    (hadm : r.admits a = true) (hs : ∃ w, World.step J a r.world = some w) : r.Enabled J := by
  obtain ⟨w, hw⟩ := hs
  refine ⟨.base a, { r with world := w, rx := r.rxAfter w }, ht, ?_⟩
  simp only [step, hadm, if_true, hw, Option.map_some]

/-- The library's reader waits for nothing but bytes. -/
theorem libraryReader_enabled (h : r.Sound) (ho : r.Open) (hsize : 0 < r.toLibraryPipe.size) :
    r.Enabled J := by
  obtain ⟨-, -, -, halive⟩ := ho
  rcases h.toLibrary.fetch_enabled h.libraryReader.filled hsize with hlt | ⟨p, hp⟩
  · obtain ⟨l, hl⟩ := Link.read_enabled relayWriter ipcFit h.toLibrary
      h.libraryReader halive hlt
    refine .base (a := .toLibrary (.read 1)) rfl (decide_eq_true hlt) ?_
    exact ⟨_, by
      simp only [World.step, LinkAction.free, if_true, toLibraryStep, hl, Option.map_some]
      rfl⟩
  · exact ⟨.fetchToLibrary 1, _, rfl, by
      simp only [step, halive, if_true, hp, Option.map_some]
      rfl⟩

/-- The proxy's writer goes on as soon as it has something to write, or is stopped by bytes that
the library's reader can take. -/
theorem proxyWriter_enabled (h : r.Sound) (ho : r.Open)
    (hwork : r.world.toLibrary.sender.frames.queue ≠ [] ∨
      r.world.toLibrary.sender.control.queue ≠ []) : r.Enabled J := by
  by_cases hsize : 0 < r.toLibraryPipe.size
  · exact libraryReader_enabled h ho hsize
  · obtain ⟨-, -, hphase, -⟩ := ho
    rcases Nat.lt_or_eq_of_le h.toLibrary.pushed with hlt | heq
    · obtain ⟨p, hp⟩ := h.toLibrary.push_enabled hlt (by omega)
      exact ⟨.pushToLibrary 1, _, rfl, by simp only [step, if_neg hphase, hp, Option.map_some]; rfl⟩
    · obtain ⟨a, s, ha, hs⟩ := relayKind.task_enabled hphase (by tauto)
      rw [← relayWriter_eq] at hs
      refine .base (a := .toLibrary (.send a)) ?_ ?_ ?_
      · simp [RelayAction.task, ha]
      · simp [admits, linkAdmits, heq]
      · have hfree : (LinkAction.send a).free = true := by
          cases a <;> first | rfl | cases ha
        exact ⟨_, by simp only [World.step, hfree, if_true, toLibraryStep, Link.step, hs,
          Option.map_some]; rfl⟩

/-- Task 3 of the proxy is stopped only by a full response queue, which the proxy's writer
empties. -/
theorem proxyReader_enabled (h : r.Sound) (ho : r.Open) (hsize : 0 < r.toProxyPipe.size) :
    r.Enabled J := by
  have halive := ho.2.1
  cases hproxy : r.world.proxy with
  | reading =>
    rcases h.toProxy.fetch_enabled h.proxyReader.filled hsize with hlt | ⟨p, hp⟩
    · obtain ⟨l, hl⟩ := Link.read_enabled ipcWriter relayFit h.toProxy
        h.proxyReader halive hlt
      refine .base (a := .toProxy (.read 1)) rfl (decide_eq_true hlt) ?_
      exact ⟨_, by simp only [World.step, LinkAction.free, hproxy, beq_self_eq_true, Bool.true_or,
        Bool.and_true, if_true, toProxyStep, hl, Option.map_some]; rfl⟩
    · refine ⟨.fetchToProxy 1, { r with toProxyPipe := p }, rfl, ?_⟩
      simp only [step, halive, hproxy, and_self, if_true, hp, Option.map_some]
  | handling cmd =>
    exact .base (a := .handle quietKernel) rfl rfl ⟨_, by simp only [World.step, hproxy]; rfl⟩
  | responding resp =>
    cases hrun : r.world.respond J resp with
    | some w => exact .base (a := .respond) rfl rfl ⟨w, by simp only [World.step, hproxy, hrun]⟩
    | none =>
      apply proxyWriter_enabled h ho
      right
      have hfull := World.respond_blocked hrun
      have hroom := h.responses
      intro hempty
      rw [hempty, List.length_nil] at hfull
      omega

/-- The library's writer is stopped only by bytes that the proxy has yet to take. -/
theorem libraryWriter_enabled (h : r.Sound) (ho : r.Open)
    (hwork : r.world.toProxy.sender.frames.queue ≠ [] ∨
      r.world.toProxy.sender.control.queue ≠ []) : r.Enabled J := by
  by_cases hsize : 0 < r.toProxyPipe.size
  · exact proxyReader_enabled h ho hsize
  · obtain ⟨hphase, -, -, -⟩ := ho
    rcases Nat.lt_or_eq_of_le h.toProxy.pushed with hlt | heq
    · obtain ⟨p, hp⟩ := h.toProxy.push_enabled hlt (by omega)
      exact ⟨.pushToProxy 1, _, rfl, by simp only [step, if_neg hphase, hp, Option.map_some]; rfl⟩
    · obtain ⟨a, s, ha, hs⟩ := ipcKind.task_enabled hphase (by tauto)
      rw [← ipcWriter_eq] at hs
      refine .base (a := .toProxy (.send a)) ?_ ?_ ?_
      · simp [RelayAction.task, ha]
      · simp [admits, linkAdmits, heq]
      · have hfree : (LinkAction.send a).free = true := by
          cases a <;> first | rfl | cases ha
        exact ⟨_, by simp only [World.step, hfree, LinkAction.reads, Bool.not_false, Bool.or_true,
          Bool.and_true, if_true, toProxyStep, Link.step, hs, Option.map_some]; rfl⟩

end Relay

/-- The relay cannot deadlock: whatever the capacities, as long as some queue or pipe is not
empty and neither side has closed, one of the four tasks can take a step. -/
theorem relay_never_stuck (J : Codec) (cap : Capacities) (mtu : UInt16) (r : Relay)
    (h : Reachable (Relay.step J) (Relay.init cap mtu) r) (hopen : r.Open) (hbusy : r.Busy) :
    r.Enabled J := by
  have hs := Relay.sound h
  rcases hbusy with hq | hq | hq | hq | hsize | hsize
  · exact Relay.libraryWriter_enabled hs hopen (.inl hq)
  · exact Relay.libraryWriter_enabled hs hopen (.inr hq)
  · exact Relay.proxyWriter_enabled hs hopen (.inl hq)
  · exact Relay.proxyWriter_enabled hs hopen (.inr hq)
  · exact Relay.proxyReader_enabled hs hopen hsize
  · exact Relay.libraryReader_enabled hs hopen hsize

def tightCapacities : Capacities where
  frames := 1
  rxFrames := 1
  control := 1
  proxyFrames := 1
  responses := 1
  libBuffer := 1
  proxyBuffer := 1
  toProxy := 1
  toLibrary := 1
  frames_pos := Nat.one_pos
  rxFrames_pos := Nat.one_pos
  control_pos := Nat.one_pos
  proxyFrames_pos := Nat.one_pos
  responses_pos := Nat.one_pos
  toProxy_pos := Nat.one_pos
  toLibrary_pos := Nat.one_pos

/-- A frame for the TAP device is half way through a socket that holds one byte, a second one and
a command wait behind it, and a frame from the TAP device waits as well. -/
def congestedRun : List RelayAction :=
  [.base (.toProxy (.send (.offerFrame [1, 2]))), .base (.toProxy (.send (.recvFrame .ok))),
    .pushToProxy 1, .base (.toProxy (.send (.offerFrame [3]))),
    .base (.call (.addRoute 0 (.v4 0x0a000000) 8)), .base (.register 0), .base (.submit 0),
    .base (.toLibrary (.send (.offerFrame [4])))]

theorem relay_never_stuck_congestedRun :
    ∃ r : Relay, r.Open ∧ r.Busy ∧ r.toProxyPipe.size = 1 ∧
      r.world.toProxy.sender.frames.queue = [[3]] ∧ r.Enabled compactJson := by
  obtain ⟨r, hr, -, hp⟩ := reachable_of_run (Relay.step compactJson) congestedRun
    (Relay.init tightCapacities 1500) (fun r => decide (r.Open ∧ r.Busy ∧ r.toProxyPipe.size = 1 ∧
      r.world.toProxy.sender.frames.queue = [[3]])) (by decide +kernel)
  obtain ⟨hopen, hbusy, hsize, hqueue⟩ := of_decide_eq_true hp
  exact ⟨r, hopen, hbusy, hsize, hqueue,
    relay_never_stuck compactJson tightCapacities 1500 r hr hopen hbusy⟩

end TapTunnel.Ipc
