import TapTunnel.Handshake.Session
import TapTunnel.Ipc.Wire

namespace TapTunnel.Ipc

open Framework Handshake

/-- The frames a link has carried so far. -/
def Link.frames (l : Link) : List Bytes := l.records.filterMap frameOf

theorem frames_eq {l : Link} {ms : List Message} (h : l.received = ms.map .ok) :
    l.frames = framesOf ms := by
  have hf : ∀ e : Bytes, frameOf e = (decodeMessage e).toOption.bind Message.frame? := by
    intro e
    unfold frameOf
    cases decodeMessage e <;> rfl
  have h' : (l.received.filterMap fun e => e.toOption.bind Message.frame?) = framesOf ms := by
    rw [h, List.filterMap_map]
    rfl
  rw [← h', Link.received, List.filterMap_map]
  exact List.filterMap_congr fun e _ => hf e

/-- The frames carried are the first ones of those offered. -/
theorem Fitting.frames_first {form : FrameForm} {fit : Nat → Bytes → Option Bytes}
    {msgBuf : Bytes} {I : Nat → Prop} {l : Link} (hfit : FrameReader.Fits fit)
    (hl : Fitting form fit msgBuf I l) : l.frames <+: l.sender.offeredFrames := by
  obtain ⟨ms, hpre, hrec⟩ := hl.carried.received_prefix hfit hl.size hl.log_admits
  rw [frames_eq hrec]
  exact (hpre.filterMap _).trans hl.carried.sent.drained.framesOf_prefix

theorem Link.Delivered.frames {l : Link} (h : l.Delivered) : l.frames = l.sender.offeredFrames := by
  obtain ⟨ms, hrec, hframes, -⟩ := h
  rw [frames_eq hrec, hframes]

theorem Link.frames_concat {l l' : Link} {record : Bytes}
    (h : l'.records = l.records ++ [record]) :
    l'.frames = l.frames ++ (frameOf record).toList := by
  rw [Link.frames, h, List.filterMap_append]
  cases hc : frameOf record <;> simp [hc, Link.frames]

/-- Only its end takes the frame queue from a writer task. -/
theorem SendStep.rxAlive {form : FrameForm} {a : SendAction} {s s' : Sender}
    (h : SendStep form a s s') (halive : s'.frames.rxAlive = true) : s.frames.rxAlive = true := by
  cases h with
  | offerFrame f ha h => exact (Chan.trySend_ok h).1
  | takeFrame n ha hp h =>
    obtain ⟨-, -, hrx, -⟩ := Chan.tryRecv_ok h
    exact hrx.symm.trans halive
  | exit => cases halive
  | _ => exact halive

/-- A link action that offers no frame leaves the frames offered as they are. -/
theorem LinkEffect.offered {form : FrameForm} {write : SendAction → Sender → Option Sender}
    (hwrite : ∀ a s s', a.NoError → write a s = some s' → SendStep form a s s')
    {b : LinkAction} {l l' : Link} (h : LinkEffect write l b l') (hok : b.NoError)
    (hne : ∀ f, b ≠ .send (.offerFrame f)) :
    l'.sender.offeredFrames = l.sender.offeredFrames ∧
      (l'.sender.frames.rxAlive = true → l.sender.frames.rxAlive = true) := by
  cases h with
  | send a hs =>
    have hstep := hwrite a _ _ hok hs
    refine ⟨?_, hstep.rxAlive⟩
    rcases hstep.offeredFrames with he | ⟨f, rfl, -⟩
    · exact he
    · exact absurd rfl (hne f)
  | read => exact ⟨rfl, id⟩
  | stop => exact ⟨rfl, id⟩

namespace Wire

/-- The histories of the wire agree with what the links have carried. A frame that task 1 reads when
the proxy's writer has ended is in no queue. -/
structure Carries (arps : List Bytes) (w : Wire) : Prop where
  queued : w.world.toLibrary.sender.offeredFrames <+: arps ++ keptFrames w.tapRead
  queuedAll : w.world.toLibrary.sender.frames.rxAlive = true →
    w.world.toLibrary.sender.offeredFrames = arps ++ keptFrames w.tapRead
  dropped : w.dropped = droppedFrames w.tapRead
  inbound : w.received.map Prod.fst = w.world.toLibrary.frames
  outbound : w.tapWritten <+: w.world.toProxy.records.flatMap tapWrites
  outboundAll : w.world.toProxy.readerAlive = true →
    w.tapWritten = w.world.toProxy.records.flatMap tapWrites
  sent : w.world.toProxy.sender.offeredFrames = keptFrames w.transmitted

variable {J : Codec} {mtu : UInt16} {w w' : Wire} {v : World} {arps : List Bytes}

theorem init_carries (mtu : UInt16) (arps : List Bytes) :
    (init mtu arps).Carries arps := by
  have hqueued : arps = arps ++ keptFrames [] := (List.append_nil _).symm
  exact ⟨hqueued ▸ List.prefix_rfl, fun _ => hqueued, rfl, rfl, List.prefix_rfl, fun _ => rfl, rfl⟩

namespace Carries

/-- The IPC tasks go on without a frame that enters or leaves a link. -/
theorem same (h : w.Carries arps)
    (hup : v.toProxy.sender.offeredFrames = w.world.toProxy.sender.offeredFrames)
    (hupRec : v.toProxy.records = w.world.toProxy.records)
    (hupAlive : v.toProxy.readerAlive = w.world.toProxy.readerAlive ∨ v.toProxy.readerAlive = false)
    (hdown : v.toLibrary.sender.offeredFrames = w.world.toLibrary.sender.offeredFrames)
    (hdownAlive : v.toLibrary.sender.frames.rxAlive = true →
      w.world.toLibrary.sender.frames.rxAlive = true)
    (hdownRec : v.toLibrary.records = w.world.toLibrary.records) :
    Carries arps { w with world := v } := by
  have hframes : w.world.toLibrary.frames = v.toLibrary.frames := by
    rw [Link.frames, ← hdownRec, Link.frames]
  refine ⟨?_, fun halive => hdown.trans (h.queuedAll (hdownAlive halive)), h.dropped,
    h.inbound.trans hframes, ?_, ?_, hup.trans h.sent⟩
  · change v.toLibrary.sender.offeredFrames <+: _
    rw [hdown]
    exact h.queued
  · change _ <+: v.toProxy.records.flatMap tapWrites
    rw [hupRec]
    exact h.outbound
  · intro halive
    change w.tapWritten = v.toProxy.records.flatMap tapWrites
    rw [hupRec]
    rcases hupAlive with hsame | hdead
    · exact h.outboundAll (hsame.symm.trans halive)
    · rw [show v.toProxy.readerAlive = true from halive] at hdead
      cases hdead

/-- Task 3 writes what it has read to the TAP device. -/
theorem up (h : w.Carries arps) {record : Bytes}
    (hup : v.toProxy.sender = w.world.toProxy.sender)
    (hrec : v.toProxy.records = w.world.toProxy.records ++ [record])
    (halive : w.world.toProxy.readerAlive = true) (hdown : v.toLibrary = w.world.toLibrary) :
    Carries arps { w with world := v, tapWritten := w.tapWritten ++ tapWrites record } := by
  have hwritten : w.tapWritten ++ tapWrites record = v.toProxy.records.flatMap tapWrites := by
    rw [h.outboundAll halive, hrec]
    simp
  exact ⟨hdown ▸ h.queued, hdown ▸ h.queuedAll, h.dropped, hdown ▸ h.inbound,
    hwritten ▸ List.prefix_rfl, fun _ => hwritten, hup ▸ h.sent⟩

/-- The library's part of the wire changes, with no frame read or sent. -/
theorem withPath (h : w.Carries arps) {p : DataPath} (hreceived : p.received = w.received)
    (hwriter : p.writer.offeredFrames = w.world.toProxy.sender.offeredFrames)
    (htransmitted : p.transmitted = w.transmitted) : (w.withPath p).Carries arps := by
  refine ⟨h.queued, h.queuedAll, h.dropped, ?_, h.outbound, h.outboundAll, ?_⟩
  · exact (congrArg (List.map Prod.fst) hreceived).trans h.inbound
  · exact (hwriter.trans h.sent).trans (congrArg keptFrames htransmitted.symm)

/-- The library's reader takes in a message. -/
theorem down (h : w.Carries arps) {record : Bytes} (hup : v.toProxy = w.world.toProxy)
    (hdown : v.toLibrary.sender = w.world.toLibrary.sender)
    (hrec : v.toLibrary.records = w.world.toLibrary.records ++ [record]) :
    Carries arps
      ({ w with world := v }.withPath ({ w with world := v }.path.observeMessage record)) := by
  let u : Wire := { w with world := v }
  obtain ⟨hwriter, htransmitted, -⟩ := u.path.observeMessage_keeps record
  have hreceived : (u.path.observeMessage record).received.map Prod.fst = v.toLibrary.frames := by
    rw [DataPath.observeMessage_received, Link.frames_concat hrec, ← h.inbound]
    rfl
  have hsent : (u.path.observeMessage record).writer.offeredFrames =
      keptFrames (u.path.observeMessage record).transmitted := by
    rw [hwriter, htransmitted]
    exact (congrArg (·.sender.offeredFrames) hup).trans h.sent
  have houtbound : w.tapWritten <+: v.toProxy.records.flatMap tapWrites := hup ▸ h.outbound
  have houtboundAll : v.toProxy.readerAlive = true →
      w.tapWritten = v.toProxy.records.flatMap tapWrites := hup ▸ h.outboundAll
  exact ⟨hdown ▸ h.queued, hdown ▸ h.queuedAll, h.dropped, hreceived, houtbound, houtboundAll,
    hsent⟩

theorem carry (h : w.Carries arps) {a : Action} (ha : a.feeds = false)
    (hfits : StepFits J mtu w.world a) (hmove : LinkMove J a w.world v) :
    (w.carry v).Carries arps := by
  cases hmove with
  | none hup hdown =>
    rw [carry_same (by rw [hup]) (by rw [hdown])]
    exact h.same (by rw [hup]) (by rw [hup]) (.inl (by rw [hup])) (by rw [hdown])
      (by rw [hdown]; exact id) (by rw [hdown])
  | up b hb hup hdown =>
    have heffect := Link.step_effect hup
    have hok : b.NoError := by
      rcases hb with ⟨rfl, -⟩ | ⟨c, call, -, -, rfl⟩
      · exact hfits.1
      · trivial
    obtain ⟨hoff, -⟩ := heffect.offered (fun _ _ _ => ipcWriter_step) hok
      (fun f hf => not_offered ha hb hf f rfl)
    rcases heffect.reader with ⟨hrec, halive⟩ | ⟨record, hrec, hold, -, hsender⟩
    · rw [carry_same hrec (by rw [hdown])]
      exact h.same hoff hrec halive (by rw [hdown]) (by rw [hdown]; exact id) (by rw [hdown])
    · rw [carry_up hrec (by rw [hdown])]
      exact h.up hsender hrec hold hdown
  | down b hb hup hdown =>
    have heffect := Link.step_effect hdown
    rcases heffect.reader with ⟨hrec, -⟩ | ⟨record, hrec, -, -, hsender⟩
    · have hok : b.NoError := by
        rcases hb with ⟨rfl, -⟩ | ⟨resp, -, -, rfl⟩
        · exact hfits.1
        · trivial
      have hne : ∀ f, b ≠ .send (.offerFrame f) := by
        intro f hf
        subst hf
        rcases hb with ⟨rfl, -⟩ | ⟨resp, -, -, hp⟩
        · cases ha
        · cases hp
      obtain ⟨hoff, halive⟩ := heffect.offered (fun _ _ _ => relayWriter_step) hok hne
      rw [carry_same (by rw [hup]) hrec]
      exact h.same (by rw [hup]) (by rw [hup]) (.inl (by rw [hup])) hoff halive hrec
    · rw [carry_down (by rw [hup]) hrec]
      exact h.down hup hsender hrec

theorem endTap (h : w.Carries arps) : w.endTap.Carries arps :=
  ⟨h.queued, h.queuedAll, h.dropped, h.inbound, h.outbound, h.outboundAll, h.sent⟩

theorem observeTapRead (h : w.Carries arps) (frame : Bytes) :
    (w.observeTapRead frame).Carries arps := by
  unfold Wire.observeTapRead Wire.readTap
  cases hs : w.world.toLibrary.sender.frames.trySend (encodeFrame frame) with
  | ok c =>
    have halive := (Chan.trySend_ok hs).1
    have hoff : (w.world.toLibrary.sender.offerFrame frame (encodeFrame frame)).offeredFrames =
        arps ++ keptFrames (w.tapRead ++ [(frame, false)]) := by
      simp [Sender.offerFrame, hs, h.queuedAll halive, keptFrames]
    refine ⟨?_, fun _ => ?_, ?_, h.inbound, h.outbound, h.outboundAll, h.sent⟩
    · simp [hoff]
    · simp [hoff]
    · simpa [droppedFrames] using h.dropped
  | error e =>
    cases e with
    | full =>
      refine ⟨?_, fun halive => ?_, ?_, h.inbound, h.outbound, h.outboundAll, h.sent⟩
      · simpa [keptFrames] using h.queued
      · simpa [keptFrames] using h.queuedAll halive
      · simp [h.dropped, droppedFrames]
    | closed =>
      have hdead := Chan.trySend_closed hs
      have hkept : keptFrames (w.tapRead ++ [(frame, false)]) =
          keptFrames w.tapRead ++ [frame] := by
        simp [keptFrames]
      refine ⟨?_, fun halive => ?_, ?_, h.inbound, h.outbound, h.outboundAll, h.sent⟩
      · simp only [Wire.endTap, ne_eq, not_true_eq_false, decide_false, hkept, ← List.append_assoc]
        exact h.queued.trans (List.prefix_append _ _)
      · rw [show w.world.toLibrary.sender.frames.rxAlive = true from halive] at hdead
        cases hdead
      · simpa [Wire.endTap, droppedFrames] using h.dropped

theorem exitProxy (h : w.Carries arps) : w.exitProxy.Carries arps := by
  have hkill : w.world.toLibrary.sender.kill.offeredFrames =
        w.world.toLibrary.sender.offeredFrames ∧
      (w.world.toLibrary.sender.kill.frames.rxAlive = true →
        w.world.toLibrary.sender.frames.rxAlive = true) := by
    unfold Sender.kill
    split_ifs
    · exact ⟨rfl, id⟩
    · exact ⟨rfl, by simp [Sender.exit, Chan.dropRx]⟩
  apply endTap
  refine ⟨?_, fun halive => hkill.1.trans (h.queuedAll (hkill.2 halive)), h.dropped, h.inbound,
    h.outbound, by simp, h.sent⟩
  exact hkill.1 ▸ h.queued

/-- The TAP device does not take what task 3 has read, which ends the task. -/
theorem tapFails (h : w.Carries arps) (hup : v.toProxy.sender = w.world.toProxy.sender)
    (hrec : w.world.toProxy.records <+: v.toProxy.records)
    (hdown : v.toLibrary = w.world.toLibrary) :
    ({ w with world := v } : Wire).exitProxy.Carries arps := by
  have hstop : Carries arps { w with
      world := { v with toProxy := { v.toProxy with readerAlive := false } } } := by
    refine ⟨hdown ▸ h.queued, hdown ▸ h.queuedAll, h.dropped, hdown ▸ h.inbound, ?_, by simp,
      hup ▸ h.sent⟩
    exact h.outbound.trans (hrec.flatMap tapWrites)
  exact hstop.exitProxy

theorem receive (h : w.Carries arps) :
    (w.withPath w.path.observeReceive).Carries arps := by
  rcases w.path.observeReceive_cases with ⟨frame, rx, -, he⟩ | he
  · rw [he]
    exact h.withPath rfl rfl rfl
  · rw [he]
    exact h.withPath rfl rfl rfl

theorem consume (h : w.Carries arps) (buffer : Bytes) :
    (w.withPath (w.path.observeConsume buffer)).Carries arps := by
  rcases w.path.observeConsume_cases buffer with ⟨frames, -, he⟩ | ⟨e, -, he⟩ <;> rw [he]
  · refine ⟨h.queued, h.queuedAll, h.dropped, h.inbound, h.outbound, h.outboundAll, ?_⟩
    simp [Wire.withPath, Wire.path, h.sent, keptFrames]
  · refine ⟨h.queued, h.queuedAll, h.dropped, h.inbound, h.outbound, h.outboundAll, ?_⟩
    simp [Wire.withPath, Wire.path, h.sent, keptFrames]

theorem step (h : w.Carries arps) {a : WireAction} (ha : Fits J mtu w a)
    (hs : Wire.step J mtu a w = some w') : w'.Carries arps := by
  cases a with
  | base a =>
    simp only [Wire.step] at hs
    split_ifs at hs with hfeeds
    obtain ⟨v, hv, rfl⟩ := Option.map_eq_some_iff.mp hs
    have hcarry := h.carry (by simpa using hfeeds) ha (World.step_linkMove hv)
    unfold follow
    split_ifs
    · exact hcarry
    · exact hcarry.withPath rfl rfl rfl
  | tapRead frame =>
    simp only [Wire.step] at hs
    split_ifs at hs
    obtain rfl := Option.some.inj hs
    exact h.observeTapRead frame
  | tapEnds =>
    simp only [Wire.step] at hs
    split_ifs at hs
    obtain rfl := Option.some.inj hs
    exact h.endTap
  | tapFails k =>
    obtain ⟨v, hv, hs⟩ := Option.bind_eq_some_iff.mp hs
    split_ifs at hs
    obtain rfl := Option.some.inj hs
    obtain ⟨hup, hdown⟩ := World.step_read_toProxy hv
    exact h.tapFails hup (World.step_records_toProxy hv) hdown
  | receive =>
    obtain rfl := Option.some.inj hs
    exact h.receive
  | consume buffer =>
    obtain rfl := Option.some.inj hs
    exact h.consume buffer
  | dropDevice =>
    obtain rfl := Option.some.inj hs
    exact h.withPath rfl rfl rfl
  | proxyExits =>
    obtain rfl := Option.some.inj hs
    exact h.exitProxy

end Carries

theorem carries (h : ReachVia (step J mtu) (Fits J mtu) (init mtu arps) w) :
    w.Carries arps :=
  h.invariant (step J mtu) (Carries arps) (init_carries mtu arps)
    fun _ _ _ hs ha hstep => hs.step ha hstep

/-- The announced frames are in the books of the link as if the relay had written them. -/
theorem init_fitted (mtu : UInt16) (hfit : ∀ f ∈ arps, (encodeFrame f).length < 2^32) :
    (init mtu arps).world.Fitted mtu := by
  have hframes : framesOf (arps.map Message.frame) = arps := by
    simp [framesOf, List.filterMap_map, Function.comp_def, Message.frame?]
  have hcontrols : controlsOf (arps.map Message.frame) = [] := by
    simp [controlsOf, List.filterMap_map, Function.comp_def, Message.control?]
  have hflow : (framesOf (arps.map Message.frame)).map encodeFrame ++ [] ++ [] =
      arps.map encodeFrame := by
    rw [hframes, List.append_nil, List.append_nil]
  have hcontrol : (controlsOf (arps.map Message.frame)).map (msgTypeControl::·) ++ [] ++ [] =
      ([] : List Bytes) := by
    rw [hcontrols]
    rfl
  refine ⟨.new (List.length_replicate ..), ⟨⟨⟨List.append_nil _, fun _ => rfl, ?_, ?_, fun _ =>
    ⟨rfl, rfl⟩⟩, Nat.zero_le _, rfl⟩, trivial, fun f hf => ipcFit_admits (hfit f hf),
    List.forall_mem_nil _⟩⟩
  · exact ⟨[], hflow, fun _ => rfl⟩
  · exact ⟨[], hcontrol, fun _ => rfl⟩

theorem fitted (hfit : ∀ f ∈ arps, (encodeFrame f).length < 2^32)
    (h : ReachVia (step J mtu) (Fits J mtu) (init mtu arps) w) : w.world.Fitted mtu :=
  World.Fitted.reach (init_fitted mtu hfit)
    (h.simulate world fun _ _ _ ha hs => step_world ha hs)

theorem flatMap_tapWrites (records : List Bytes) :
    records.flatMap tapWrites = (records.filterMap frameOf).filter (· ≠ []) := by
  induction records with
  | nil => rfl
  | cons record records ih =>
    have hone : tapWrites record = (frameOf record).toList.filter (· ≠ []) := by
      unfold tapWrites frameOf
      cases decodeMessage record with
      | error e => rfl
      | ok m =>
        cases m with
        | control payload => rfl
        | frame frame => by_cases hempty : frame = [] <;> simp [Message.frame?, hempty]
    rw [List.flatMap_cons, ih, hone, List.filterMap_cons]
    cases frameOf record with
    | none => rfl
    | some frame =>
      rw [← List.filter_append]
      rfl

/-- The TAP device has got the first ones of the buffers that the device of the stack has queued. -/
theorem tapWritten_first (hc : w.Carries arps) (hf : w.world.Fitted mtu) :
    w.tapWritten <+: (keptFrames w.transmitted).filter (· ≠ []) := by
  have hwritten := hc.outbound
  rw [flatMap_tapWrites] at hwritten
  rw [← hc.sent]
  exact hwritten.trans ((hf.up.frames_first relayFit_fits).filter _)

/-- A proxy that has read everything has written every frame that was queued for it. -/
theorem tapWritten_idle (hc : w.Carries arps) (hf : w.world.Fitted mtu)
    (halive : w.world.toProxy.readerAlive = true) (hidle : w.world.toProxy.Idle) :
    w.tapWritten = (keptFrames w.transmitted).filter (· ≠ []) := by
  rw [hc.outboundAll halive, flatMap_tapWrites, ← hc.sent]
  exact congrArg _ (hf.up.delivered relayFit_fits ipcWriter hidle).frames

/-- The frames that `run_proxy` writes in front of those of the relay. -/
def arpFrames (config : TapConfig) (tapMac : Mac) : List Bytes := framesOf (announced config tapMac)

theorem arpFrames_length (config : TapConfig) (tapMac : Mac) :
    ∀ f ∈ arpFrames config tapMac, (encodeFrame f).length < 2^32 := by
  intro f hf
  obtain ⟨m, hm, hf⟩ := List.mem_filterMap.mp hf
  cases m with
  | frame g =>
    obtain rfl := Option.some.inj hf
    exact announced_encode_length config tapMac _ hm
  | control p => cases hf

/-- The wire when the relay of a proxy with this configuration starts. -/
def start (config : TapConfig) (tapMac : Mac) : Wire := init config.mtu (arpFrames config tapMac)

end Wire

/-- From smoltcp to the TAP device as well: what is written to the TAP device are the first ones of
the non-empty buffers that smoltcp has sent and the device has not dropped, unchanged, in their
order and none twice. Each buffer sent is counted once, as sent or as dropped; and once the
library's writer and a running task 3 have nothing left to do, the TAP device has got all of them.
-/
theorem smoltcp_to_tap (J : Codec) (config : TapConfig) (tapMac : Mac) (w : Wire)
    (h : ReachVia (Wire.step J config.mtu) (Wire.Fits J config.mtu) (Wire.start config tapMac) w) :
    w.tapWritten <+: (keptFrames w.transmitted).filter (· ≠ []) ∧
    w.deviceTxFrames = (keptFrames w.transmitted).length ∧
    w.deviceTxDropped = droppedFrames w.transmitted ∧
    w.transmitted.length = w.deviceTxFrames + w.deviceTxDropped ∧
    (w.world.toProxy.readerAlive = true → w.world.toProxy.Idle →
      w.tapWritten = (keptFrames w.transmitted).filter (· ≠ [])) := by
  have ha := Wire.accounted h
  have hc := Wire.carries h
  have hf := Wire.fitted (Wire.arpFrames_length config tapMac) h
  have hsent : w.deviceTxFrames = (keptFrames w.transmitted).length := ha.transmitted
  have hdropped : w.deviceTxDropped = droppedFrames w.transmitted := ha.txDropped
  refine ⟨Wire.tapWritten_first hc hf, hsent, hdropped, ?_, Wire.tapWritten_idle hc hf⟩
  rw [hsent, hdropped, length_history, Nat.add_comm]

instance (J : Codec) (mtu : UInt16) (w : Wire) (a : WireAction) :
    Decidable (Wire.Fits J mtu w a) := by
  cases a <;> unfold Wire.Fits <;> infer_instance

/-- The steps that pass one queued frame on, up to the select. -/
def passFrames : List SendAction := [.recvFrame .ok, .advance .ok, .advance .ok, .advance .ok]

/-- The library reads the announcement. A frame goes one way and two go the other; a second one read
from the TAP device waits in the proxy. -/
def wireRun : List WireAction :=
  .flatten [[.base (.toLibrary (.read 4)), .base (.toLibrary (.read 43)), .receive],
    [.tapRead [1, 2], .consume [3], .consume [], .consume [4, 5]],
    passFrames.map (fun a => .base (.toLibrary (.send a))),
    [.base (.toLibrary (.read 4)), .base (.toLibrary (.read 3)), .receive, .tapRead [6]],
    [.base (.toProxy (.send (.recvFrame .ok)))],
    List.replicate 5 (.base (.toProxy (.send (.advance .ok)))),
    [.base (.toProxy (.read 4)), .base (.toProxy (.read 2)), .base (.toProxy (.read 4)),
      .base (.toProxy (.read 1)), .base (.toProxy (.read 4)), .base (.toProxy (.read 3))]]

theorem smoltcp_to_tap_wireRun :
    ∃ w : Wire, w.world.toProxy.Idle ∧ w.transmitted.map Prod.fst = [[3], [], [4, 5]] ∧
      w.tapWritten = (keptFrames w.transmitted).filter (· ≠ []) ∧ w.tapWritten = [[3], [4, 5]] := by
  obtain ⟨w, hw, hp⟩ := reachVia_of_run (Wire.step compactJson exampleConfig.mtu)
    (Wire.Fits compactJson exampleConfig.mtu) wireRun (Wire.start exampleConfig exampleMac)
    (fun w => decide (w.world.toProxy.Idle ∧ w.world.toProxy.readerAlive = true ∧
      w.transmitted.map Prod.fst = [[3], [], [4, 5]] ∧ w.tapWritten = [[3], [4, 5]]))
    (by decide +kernel)
  obtain ⟨hidle, halive, hsent, hwritten⟩ := of_decide_eq_true hp
  obtain ⟨-, -, -, -, hall⟩ := smoltcp_to_tap compactJson exampleConfig exampleMac w hw
  exact ⟨w, hidle, hsent, hall halive hidle, hwritten⟩

end TapTunnel.Ipc
