import TapTunnel.Ipc.Relay

namespace TapTunnel.Ipc

open Framework

/-- A step of the IPC tasks is one of at most one link, and a control message that enters a link is
the command of a caller or the response of task 3. -/
inductive LinkMove (J : Codec) (a : Action) (w v : World) : Prop
  | none (hup : v.toProxy = w.toProxy) (hdown : v.toLibrary = w.toLibrary)
  | up (b : LinkAction) (hb : a = .toProxy b ∧ b.free = true ∨ ∃ c call, a = .submit c ∧
        w.calls[c]? = some call ∧ b = .send (.offerControl (J.command.toVec call.command)))
      (hup : toProxyStep b w.toProxy = some v.toProxy) (hdown : v.toLibrary = w.toLibrary)
  | down (b : LinkAction) (hb : a = .toLibrary b ∧ b.free = true ∨ ∃ resp, a = .respond ∧
        w.proxy = .responding resp ∧ b = .send (.offerControl (J.response.toVec resp)))
      (hup : v.toProxy = w.toProxy) (hdown : toLibraryStep b w.toLibrary = some v.toLibrary)

theorem World.step_linkMove {J : Codec} {a : Action} {w v : World}
    (h : World.step J a w = some v) : LinkMove J a w v := by
  cases a with
  | call cmd =>
    obtain rfl := Option.some.inj h
    exact .none rfl rfl
  | register c | cancel c =>
    simp only [World.step] at h
    split at h
    · split_ifs at h
      obtain rfl := Option.some.inj h
      exact .none rfl rfl
    · cases h
  | submit c =>
    simp only [World.step] at h
    split at h
    · next call hc =>
      split_ifs at h
      unfold World.submit at h
      split at h
      · next l hl =>
        obtain rfl := Option.some.inj h
        exact .up _ (.inr ⟨c, call, rfl, hc, rfl⟩) hl rfl
      · split_ifs at h
        obtain rfl := Option.some.inj h
        exact .none rfl rfl
    · cases h
  | finish c =>
    simp only [World.step] at h
    split at h
    · split_ifs at h
      unfold World.finish at h
      split at h
      · obtain rfl := Option.some.inj h
        exact .none rfl rfl
      · split_ifs at h
        obtain rfl := Option.some.inj h
        exact .none rfl rfl
    · cases h
  | toProxy b =>
    obtain ⟨hfree, l, hl, ⟨-, rfl⟩ | ⟨record, -, -, rfl⟩⟩ := World.step_toProxy h
    · exact .up b (.inl ⟨rfl, hfree⟩) hl rfl
    · obtain ⟨p, hp⟩ := World.proxyReceive_frame J record { w with toProxy := l }
      rw [hp]
      exact .up b (.inl ⟨rfl, hfree⟩) hl rfl
  | handle k =>
    simp only [World.step] at h
    split at h
    · obtain rfl := Option.some.inj h
      exact .none rfl rfl
    · cases h
    · cases h
  | respond =>
    simp only [World.step] at h
    split at h
    · next resp hold =>
      unfold World.respond at h
      split at h
      · next l hl =>
        obtain rfl := Option.some.inj h
        exact .down _ (.inr ⟨resp, rfl, hold, rfl⟩) rfl hl
      · split_ifs at h
        obtain rfl := Option.some.inj h
        exact .none rfl rfl
    · cases h
    · cases h
  | toLibrary b =>
    obtain ⟨hfree, l, hl, ⟨-, rfl⟩ | ⟨record, -, rfl⟩⟩ := World.step_toLibrary h
    · exact .down b (.inl ⟨rfl, hfree⟩) rfl hl
    · refine .down b (.inl ⟨rfl, hfree⟩) (World.libraryReceive_toProxy _ _ _) ?_
      rw [World.libraryReceive_toLibrary]
      exact hl

/-- Everything that an action of a link can do to it. -/
inductive LinkEffect (write : SendAction → Sender → Option Sender) (l : Link) :
    LinkAction → Link → Prop
  | send (a : SendAction) {s : Sender} (hs : write a l.sender = some s) :
      LinkEffect write l (.send a) { l with sender := s }
  | read (k taken : Nat) (reader : FrameReader) (record : Option Bytes)
      (halive : l.readerAlive = true) :
      LinkEffect write l (.read k)
        { l with taken := taken, reader := reader, records := l.records ++ record.toList }
  | stop : LinkEffect write l .stopReader { l with readerAlive := false }

theorem Link.step_effect {write : SendAction → Sender → Option Sender}
    {fit : Nat → Bytes → Option Bytes} {b : LinkAction} {l l' : Link}
    (h : Link.step write fit b l = some l') : LinkEffect write l b l' := by
  cases b with
  | send a =>
    obtain ⟨s, hs, rfl⟩ := Option.map_eq_some_iff.mp h
    exact .send a hs
  | read k =>
    simp only [Link.step] at h
    split_ifs at h with hk
    obtain rfl := Option.some.inj h
    exact .read k _ _ _ hk.1
  | stopReader =>
    obtain rfl := Option.some.inj h
    exact .stop

theorem LinkEffect.sender {write : SendAction → Sender → Option Sender} {b : LinkAction}
    {l l' : Link} (h : LinkEffect write l b l') :
    l'.sender = l.sender ∨ ∃ a, b = .send a ∧ write a l.sender = some l'.sender := by
  cases h with
  | send a hs => exact .inr ⟨a, rfl, hs⟩
  | read => exact .inl rfl
  | stop => exact .inl rfl

/-- Only a read of a live reader completes a message. -/
theorem LinkEffect.reader {write : SendAction → Sender → Option Sender} {b : LinkAction}
    {l l' : Link} (h : LinkEffect write l b l') :
    (l'.records = l.records ∧ (l'.readerAlive = l.readerAlive ∨ l'.readerAlive = false)) ∨
      ∃ record, l'.records = l.records ++ [record] ∧ l.readerAlive = true ∧
        l'.readerAlive = true ∧ l'.sender = l.sender := by
  cases h with
  | send a hs => exact .inl ⟨rfl, .inl rfl⟩
  | read k taken reader record halive =>
    cases record with
    | none => exact .inl ⟨by simp, .inl rfl⟩
    | some record => exact .inr ⟨record, rfl, halive, halive, rfl⟩
  | stop => exact .inl ⟨rfl, .inr rfl⟩

/-- A read of the proxy touches neither the library's writer nor the other direction. -/
theorem World.step_read_toProxy {J : Codec} {k : Nat} {w v : World}
    (h : World.step J (.toProxy (.read k)) w = some v) :
    v.toProxy.sender = w.toProxy.sender ∧ v.toLibrary = w.toLibrary := by
  obtain ⟨-, l, hl, hcase⟩ := World.step_toProxy h
  have hsender : l.sender = w.toProxy.sender := by
    rcases (Link.step_effect hl).sender with hsame | ⟨c, hc, -⟩
    · exact hsame
    · cases hc
  rcases hcase with ⟨-, rfl⟩ | ⟨record, -, -, rfl⟩
  · exact ⟨hsender, rfl⟩
  · obtain ⟨p, hp⟩ := World.proxyReceive_frame J record { w with toProxy := l }
    rw [hp]
    exact ⟨hsender, rfl⟩

/-- What a reader has completed stays. -/
theorem World.step_records_toProxy {J : Codec} {a : Action} {w v : World}
    (h : World.step J a w = some v) : w.toProxy.records <+: v.toProxy.records := by
  cases World.step_linkMove h with
  | none hup hdown => exact hup ▸ List.prefix_rfl
  | up b hb hup hdown =>
    rcases (Link.step_effect hup).reader with ⟨hrec, -⟩ | ⟨record, hrec, -⟩
    · exact hrec ▸ List.prefix_rfl
    · exact hrec ▸ List.prefix_append _ _
  | down b hb hup hdown => exact hup ▸ List.prefix_rfl

theorem World.step_toLibrary_send {J : Codec} {w : World} {a : SendAction} {s : Sender}
    (hfree : (LinkAction.send a).free = true) (hs : relayWriter a w.toLibrary.sender = some s) :
    World.step J (.toLibrary (.send a)) w =
      some { w with toLibrary := { w.toLibrary with sender := s } } := by
  simp [World.step, hfree, toLibraryStep, Link.step, hs]

theorem World.step_toProxy_send {J : Codec} {w : World} {a : SendAction} {s : Sender}
    (hfree : (LinkAction.send a).free = true) (hs : ipcWriter a w.toProxy.sender = some s) :
    World.step J (.toProxy (.send a)) w =
      some { w with toProxy := { w.toProxy with sender := s } } := by
  simp [World.step, hfree, LinkAction.reads, toProxyStep, Link.step, hs]

/-- Both links of the IPC tasks are without errors and carry only what their readers take in. -/
structure World.Fitted (mtu : UInt16) (w : World) : Prop where
  up : Fitting ipcForm relayFit (List.replicate (maxFrameSize mtu+16) 0)
    (· = maxFrameSize mtu+16) w.toProxy
  down : Fitting relayForm ipcFit (List.replicate 2048 0) (fun _ => True) w.toLibrary

theorem World.Fitted.step {J : Codec} {mtu : UInt16} {w v : World} {a : Action}
    (h : w.Fitted mtu) (ha : StepFits J mtu w a) (hs : World.step J a w = some v) :
    v.Fitted mtu := by
  cases World.step_linkMove hs with
  | none hup hdown => exact ⟨hup ▸ h.up, hdown ▸ h.down⟩
  | up b hb hup hdown =>
    refine ⟨?_, hdown ▸ h.down⟩
    rcases hb with ⟨rfl, hfree⟩ | ⟨c, call, rfl, hc, rfl⟩
    · exact h.up.step (fun _ _ _ => ipcWriter_step) relayFit_fits ha.1 (toProxy_fits hfree ha.2) hup
    · have hadm := relayFit_admits (m := .control (J.command.toVec call.command)) (ha call hc)
      exact h.up.step (fun _ _ _ => ipcWriter_step) relayFit_fits
        (a := .send (.offerControl _)) trivial hadm hup
  | down b hb hup hdown =>
    refine ⟨hup ▸ h.up, ?_⟩
    rcases hb with ⟨rfl, hfree⟩ | ⟨resp, rfl, hold, rfl⟩
    · exact h.down.step (fun _ _ _ => relayWriter_step) ipcFit_fits ha.1 (toLibrary_fits hfree ha.2)
        hdown
    · have hadm := ipcFit_admits (ha resp (by simp [hold, ProxyTask.toQueue]))
      exact h.down.step (fun _ _ _ => relayWriter_step) ipcFit_fits
        (a := .send (.offerControl _)) trivial hadm hdown

theorem World.Fitted.reach {J : Codec} {mtu : UInt16} {w v : World} (h : w.Fitted mtu)
    (hv : ReachVia (World.step J) (StepFits J mtu) w v) : v.Fitted mtu :=
  hv.invariant (World.step J) (World.Fitted mtu) h fun _ _ _ hs ha hstep => hs.step ha hstep

end TapTunnel.Ipc
