import TapTunnel.Ipc.Commands
import TapTunnel.Ipc.RoundTrip

namespace TapTunnel.Ipc

open Framework

/-- Control payload of a message body, if it is one. -/
def controlOf (record : Bytes) : Option Bytes :=
  match decodeMessage record with
  | .ok m => m.control?
  | .error _ => none

/-- The control payloads a link has carried so far. -/
def Link.controls (l : Link) : List Bytes := l.records.filterMap controlOf

theorem controls_eq {l : Link} {ms : List Message} (h : l.received = ms.map .ok) :
    l.controls = controlsOf ms := by
  have hc : ∀ e : Bytes, controlOf e = (decodeMessage e).toOption.bind Message.control? := by
    intro e
    unfold controlOf
    cases decodeMessage e <;> rfl
  have h' : (l.received.filterMap fun e => e.toOption.bind Message.control?) = controlsOf ms := by
    rw [h, List.filterMap_map]
    rfl
  rw [← h', Link.received, List.filterMap_map]
  exact List.filterMap_congr fun e _ => hc e

/-- A link without I/O errors into which only messages go that its reader takes in. -/
structure Fitting (form : FrameForm) (fit : Nat → Bytes → Option Bytes) (msgBuf : Bytes)
    (I : Nat → Prop) (l : Link) : Prop where
  carried : Carried form fit msgBuf l
  size : I msgBuf.length
  frames : ∀ f ∈ l.sender.offeredFrames, Admits fit I (encodeFrame f)
  controls : ∀ p ∈ l.sender.offeredControls, Admits fit I (msgTypeControl::p)

/-- What `a` offers is taken in by the reader. -/
def LinkAction.Fits (fit : Nat → Bytes → Option Bytes) (I : Nat → Prop) : LinkAction → Prop
  | .send (.offerFrame f) => Admits fit I (encodeFrame f)
  | .send (.offerControl p) => Admits fit I (msgTypeControl::p)
  | _ => True

namespace Fitting

variable {form : FrameForm} {fit : Nat → Bytes → Option Bytes} {msgBuf : Bytes} {I : Nat → Prop}
  {l l' : Link}

theorem new {frameCap controlCap bufferSize : Nat} (hI : I msgBuf.length) :
    Fitting form fit msgBuf I (.new (.new frameCap controlCap bufferSize) msgBuf) :=
  ⟨.new (new_sent _ _ _ _), hI, List.forall_mem_nil _, List.forall_mem_nil _⟩

theorem log_admits (hl : Fitting form fit msgBuf I l) :
    ∀ m ∈ l.sender.log, Admits fit I m.encode := by
  intro m hm
  cases m with
  | frame f =>
    refine hl.frames f (hl.carried.sent.drained.framesOf_prefix.subset ?_)
    exact List.mem_filterMap.mpr ⟨_, hm, rfl⟩
  | control p =>
    refine hl.controls p (hl.carried.sent.drained.controlsOf_prefix.subset ?_)
    exact List.mem_filterMap.mpr ⟨_, hm, rfl⟩

/-- The control payloads carried are the first ones of those offered. -/
theorem controls_prefix (hfit : FrameReader.Fits fit) (hl : Fitting form fit msgBuf I l) :
    l.controls <+: l.sender.offeredControls := by
  obtain ⟨ms, hpre, hrec⟩ := hl.carried.received_prefix hfit hl.size hl.log_admits
  rw [controls_eq hrec]
  exact (hpre.filterMap _).trans hl.carried.sent.drained.controlsOf_prefix

theorem step {write : SendAction → Sender → Option Sender}
    (hwrite : ∀ a s s', a.NoError → write a s = some s' → SendStep form a s s')
    (hfit : FrameReader.Fits fit) (hl : Fitting form fit msgBuf I l) {a : LinkAction}
    (ha : a.NoError) (hf : a.Fits fit I) (h : Link.step write fit a l = some l') :
    Fitting form fit msgBuf I l' := by
  have hc := hl.carried.step hwrite hfit ha h
  cases a with
  | send a =>
    obtain ⟨s, hs, rfl⟩ := Option.map_eq_some_iff.mp h
    have hsend := hwrite a _ _ ha hs
    refine ⟨hc, hl.size, fun f hmem => ?_, fun p hmem => ?_⟩
    · obtain he | ⟨f', rfl, he⟩ := hsend.offeredFrames
      · exact hl.frames f (he ▸ hmem)
      · obtain hmem | hmem := List.mem_append.mp (he ▸ hmem)
        · exact hl.frames f hmem
        · obtain rfl := List.mem_singleton.mp hmem
          exact hf
    · obtain ⟨he, -⟩ | ⟨p', rfl, he⟩ := hsend.offeredControls
      · exact hl.controls p (he ▸ hmem)
      · obtain hmem | hmem := List.mem_append.mp (he ▸ hmem)
        · exact hl.controls p hmem
        · obtain rfl := List.mem_singleton.mp hmem
          exact hf
  | read k =>
    simp only [Link.step] at h
    split_ifs at h
    obtain rfl := Option.some.inj h
    exact ⟨hc, hl.size, hl.frames, hl.controls⟩
  | stopReader =>
    obtain rfl := Option.some.inj h
    exact ⟨hc, hl.size, hl.frames, hl.controls⟩

end Fitting

/-- A link action completes at most one message body, and only a read does. -/
theorem Link.step_records {write : SendAction → Sender → Option Sender}
    {fit : Nat → Bytes → Option Bytes} {a : LinkAction} {l l' : Link}
    (h : Link.step write fit a l = some l') :
    ∃ o : Option Bytes, l'.records = l.records ++ o.toList ∧ (a.reads = false → o = none) := by
  cases a with
  | send a =>
    obtain ⟨s, hs, rfl⟩ := Option.map_eq_some_iff.mp h
    exact ⟨none, by simp, fun _ => rfl⟩
  | read k =>
    simp only [Link.step] at h
    split_ifs at h
    obtain rfl := Option.some.inj h
    exact ⟨_, rfl, by simp [LinkAction.reads]⟩
  | stopReader =>
    obtain rfl := Option.some.inj h
    exact ⟨none, by simp, fun _ => rfl⟩

/-- A free action offers no control message. -/
theorem Link.step_offeredControls {form : FrameForm} {write : SendAction → Sender → Option Sender}
    (hwrite : ∀ a s s', a.NoError → write a s = some s' → SendStep form a s s')
    {fit : Nat → Bytes → Option Bytes} {a : LinkAction} {l l' : Link} (ha : a.NoError)
    (hfree : a.free = true) (h : Link.step write fit a l = some l') :
    l'.sender.offeredControls = l.sender.offeredControls := by
  cases a with
  | send a =>
    obtain ⟨s, hs, rfl⟩ := Option.map_eq_some_iff.mp h
    obtain ⟨he, -⟩ | ⟨p, rfl, -⟩ := (hwrite a _ _ ha hs).offeredControls
    · exact he
    · cases hfree
  | read k =>
    simp only [Link.step] at h
    split_ifs at h
    obtain rfl := Option.some.inj h
    rfl
  | stopReader =>
    obtain rfl := Option.some.inj h
    rfl

end TapTunnel.Ipc
