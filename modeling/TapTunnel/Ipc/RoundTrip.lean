import TapTunnel.Ipc.Link

namespace TapTunnel.Ipc

open Framework

/-- A reader whose buffer size satisfies `I` takes in `m`, and keeps `I`. -/
def Admits (fit : Nat → Bytes → Option Bytes) (I : Nat → Prop) (m : Bytes) : Prop :=
  m.length < 2^32 ∧
    ∀ buf : Bytes, I buf.length → ∃ buf', fit m.length buf = some buf' ∧ I buf'.length

theorem relayFit_admits {mtu : UInt16} {m : Message}
    (h : m.encode.length ≤ maxFrameSize mtu+16) :
    Admits relayFit (· = maxFrameSize mtu+16) m.encode := by
  have hmtu := mtu.toNat_lt
  have hpos := m.encode_length_pos
  refine ⟨by simp only [maxFrameSize, ethernetHeaderSize] at h; omega,
    fun buf hbuf => ⟨buf, ?_, hbuf⟩⟩
  unfold relayFit
  rw [if_neg (by omega)]

theorem ipcFit_admits {m : Bytes} (h : m.length < 2^32) :
    Admits ipcFit (fun _ => True) m := ⟨h, fun _ _ => ⟨_, rfl, trivial⟩⟩

namespace Carried

variable {form : FrameForm} {fit : Nat → Bytes → Option Bytes} {msgBuf : Bytes} {l : Link}
  {I : Nat → Prop}

theorem out_prefix (hl : Carried form fit msgBuf l) :
    l.sender.writer.out.take l.taken <+: wireOf l.sender.log := by
  rw [← hl.sent.content]
  exact (List.take_prefix _ _).trans (List.prefix_append _ _)

/-- The messages read are the first ones of those written. -/
theorem received_prefix (hfit : FrameReader.Fits fit) (hl : Carried form fit msgBuf l)
    (hI : I msgBuf.length) (hms : ∀ m ∈ l.sender.log, Admits fit I m.encode) :
    ∃ ms, ms <+: l.sender.log ∧ l.received = ms.map .ok := by
  have hall := FrameReader.feed_records hfit I (l.sender.log.map Message.encode)
    (by simpa [Admits] using hms) (FrameReader.new_sound msgBuf) (FrameReader.new_idle msgBuf) hI
  have hpre := FrameReader.feed_prefix fit hl.out_prefix (.new msgBuf)
  rw [hl.fed, wireOf, hall.1, List.prefix_iff_eq_take, ← List.map_take] at hpre
  have hrec : l.records = (l.sender.log.take l.records.length).map Message.encode := hpre
  refine ⟨_, List.take_prefix l.records.length _, ?_⟩
  rw [Link.received]
  nth_rewrite 1 [hrec]
  exact Message.map_decodeMessage_encode _

/-- Once everything written has been flushed and read, all of it has been received. -/
theorem received_all (hfit : FrameReader.Fits fit) (hl : Carried form fit msgBuf l)
    (hI : I msgBuf.length) (hms : ∀ m ∈ l.sender.log, Admits fit I m.encode)
    (hb : l.sender.writer.buf = []) (hu : l.unread = []) :
    l.received = l.sender.log.map .ok := by
  have hall := FrameReader.feed_records hfit I (l.sender.log.map Message.encode)
    (by simpa [Admits] using hms) (FrameReader.new_sound msgBuf) (FrameReader.new_idle msgBuf) hI
  have hout : l.sender.writer.out.take l.taken = wireOf l.sender.log := by
    rw [List.take_of_length_le (List.drop_eq_nil_iff.mp hu), ← hl.sent.content]
    simp [BufWriter.content, hb]
  have hfed := hl.fed
  rw [hout] at hfed
  have hrec : l.records = l.sender.log.map Message.encode := by
    rw [← hall.1, ← wireOf, hfed]
  rw [Link.received, hrec, Message.map_decodeMessage_encode]

/-- A reader task that is alive can always take the next byte. -/
theorem read_enabled (hfit : FrameReader.Fits fit) (hl : Carried form fit msgBuf l)
    (write : SendAction → Sender → Option Sender) (ha : l.readerAlive = true)
    (hu : l.unread ≠ []) : ∃ l', Link.step write fit (.read 1) l = some l' := by
  have hpos := List.length_pos_of_ne_nil hu
  have hw := (hl.sound hfit).filled
  simp only [Link.step]
  rw [if_pos ⟨ha, by omega, hw, hpos⟩]
  exact ⟨_, rfl⟩

end Carried

theorem Drained.framesOf_prefix {form : FrameForm} {s : Sender} (hs : Drained form s) :
    framesOf s.log <+: s.offeredFrames := by
  have h := hs.frames.done_prefix.map form.body
  simpa [List.map_map, Function.comp_def, form.body_queued] using h

theorem Drained.controlsOf_prefix {form : FrameForm} {s : Sender} (hs : Drained form s) :
    controlsOf s.log <+: s.offeredControls := by
  have h := hs.control.done_prefix.map List.tail
  simpa [List.map_map, Function.comp_def] using h

/-- A live task whose queues are empty has taken out everything that was offered. -/
theorem Sent.all_taken {form : FrameForm} {s : Sender} (hs : Sent form s)
    (hp : s.phase = .select) (hf : s.frames.queue = []) (hc : s.control.queue = []) :
    framesOf s.log = s.offeredFrames ∧ controlsOf s.log = s.offeredControls := by
  obtain ⟨hfa, hca⟩ := hs.alive (by simp [hp])
  have h1 := hs.frames.eq_of_rxAlive hfa
  have h2 := hs.control.eq_of_rxAlive hca
  rw [hf, List.append_nil] at h1
  rw [hc, List.append_nil] at h2
  constructor
  · have h := congrArg (List.map form.body) h1
    simpa [List.map_map, Function.comp_def, form.body_queued] using h
  · have h := congrArg (List.map List.tail) h2
    simpa [List.map_map, Function.comp_def] using h

/-- What a link owes its users. The messages decoded are the first frames and the first control
payloads that were offered, in order; they are all of them once the queues are empty and the
bytes read; and bytes that wait can be read. -/
structure Link.RoundTrip (step : LinkAction → Link → Option Link) (l : Link) : Prop where
  inOrder : ∃ ms : List Message, l.received = ms.map .ok ∧
    framesOf ms <+: l.sender.offeredFrames ∧ controlsOf ms <+: l.sender.offeredControls
  complete : l.sender.phase = .select → l.sender.frames.queue = [] →
    l.sender.control.queue = [] → l.unread = [] →
    ∃ ms : List Message, l.received = ms.map .ok ∧
      framesOf ms = l.sender.offeredFrames ∧ controlsOf ms = l.sender.offeredControls
  progress : l.readerAlive = true → l.unread ≠ [] → ∃ l', step (.read 1) l = some l'

/-- A task in its select has written and flushed every message it has dequeued. -/
def Sender.Flushed (s : Sender) : Prop :=
  s.phase = .select → s.writer.buf = [] ∧ s.writer.out = wireOf s.log

theorem Carried.roundTrip {form : FrameForm} {fit : Nat → Bytes → Option Bytes} {msgBuf : Bytes}
    {l : Link} {I : Nat → Prop} (hfit : FrameReader.Fits fit) (hl : Carried form fit msgBuf l)
    (hI : I msgBuf.length) (hms : ∀ m ∈ l.sender.log, Admits fit I m.encode)
    (write : SendAction → Sender → Option Sender) : l.RoundTrip (Link.step write fit) where
  inOrder := by
    obtain ⟨ms, hpre, hrec⟩ := hl.received_prefix hfit hI hms
    exact ⟨ms, hrec, (hpre.filterMap _).trans hl.sent.drained.framesOf_prefix,
      (hpre.filterMap _).trans hl.sent.drained.controlsOf_prefix⟩
  complete := by
    intro hp hf hc hu
    obtain ⟨h1, h2⟩ := hl.sent.all_taken hp hf hc
    exact ⟨_, hl.received_all hfit hI hms (hl.sent.flushed hp) hu, h1, h2⟩
  progress := hl.read_enabled hfit write

theorem Sent.flushed_all {form : FrameForm} {s : Sender} (hs : Sent form s) : s.Flushed := by
  intro hp
  have hb := hs.flushed hp
  have hc := hs.content
  rw [BufWriter.content, hb, List.append_nil] at hc
  exact ⟨hb, hc⟩

theorem toProxy_carried {mtu : UInt16} {l : Link}
    (h : ReachVia toProxyStep (fun _ a => a.NoError) (toProxyInit mtu) l) :
    Carried ipcForm relayFit (List.replicate (maxFrameSize mtu+16) 0) l :=
  h.invariant toProxyStep _ (.new (new_sent _ _ _ _)) fun _ _ _ hl ha hs =>
    hl.step (fun _ _ _ => ipcWriter_step) relayFit_fits ha hs

theorem toLibrary_carried {l : Link}
    (h : ReachVia toLibraryStep (fun _ a => a.NoError) toLibraryInit l) :
    Carried relayForm ipcFit (List.replicate 2048 0) l :=
  h.invariant toLibraryStep _ (.new (new_sent _ _ _ _)) fun _ _ _ hl ha hs =>
    hl.step (fun _ _ _ => relayWriter_step) ipcFit_fits ha hs

/-- Both directions carry frames and control messages unchanged and in order, under every
interleaving of the queues and every segmentation of the bytes, and neither writer task waits
with a message only half sent. -/
theorem framing_round_trip (mtu : UInt16) :
    (∀ l, ReachVia toProxyStep (fun _ a => a.NoError) (toProxyInit mtu) l →
      l.sender.Flushed ∧
        ((∀ m ∈ l.sender.log, 1 ≤ m.encode.length ∧ m.encode.length ≤ maxFrameSize mtu+16) →
          l.RoundTrip toProxyStep)) ∧
    (∀ l, ReachVia toLibraryStep (fun _ a => a.NoError) toLibraryInit l →
      l.sender.Flushed ∧
        ((∀ m ∈ l.sender.log, m.encode.length < 2^32) → l.RoundTrip toLibraryStep)) := by
  refine ⟨fun l h => ?_, fun l h => ?_⟩
  · have hl := toProxy_carried h
    refine ⟨hl.sent.flushed_all, fun hm => ?_⟩
    exact hl.roundTrip (I := (· = maxFrameSize mtu+16)) relayFit_fits (List.length_replicate ..)
      (fun m hmem => relayFit_admits (hm m hmem).2) ipcWriter
  · have hl := toLibrary_carried h
    refine ⟨hl.sent.flushed_all, fun hm => ?_⟩
    exact hl.roundTrip (I := fun _ => True) ipcFit_fits trivial
      (fun m hmem => ipcFit_admits (hm m hmem)) relayWriter

/-- A control message overtakes a frame, and both are read in pieces. -/
def mixedRun : List LinkAction :=
  [.send (.offerFrame [9, 8]), .send (.offerControl [0x7b, 0x7d]), .send (.recvControl .ok),
    .send (.advance .ok), .send (.advance .ok), .send (.advance .ok), .send (.advance .ok),
    .read 1, .read 3, .read 3, .read 4, .read 2, .read 1]

/-- What the reader makes of `mixedRun`. -/
def mixedResult : List (Except IoError Message) :=
  [.ok (.control [0x7b, 0x7d]), .ok (.frame [9, 8])]

theorem framing_round_trip_mixedRun :
    (∃ l : Link, l.sender.Flushed ∧ l.RoundTrip toProxyStep ∧ l.received = mixedResult) ∧
    (∃ l : Link, l.sender.Flushed ∧ l.RoundTrip toLibraryStep ∧ l.received = mixedResult) := by
  obtain ⟨l, hl, hp⟩ := reachVia_of_run toProxyStep (fun _ a => a.NoError) mixedRun
    (toProxyInit 68) (fun l => decide (l.received = mixedResult ∧
      ∀ m ∈ l.sender.log, 1 ≤ m.encode.length ∧ m.encode.length ≤ maxFrameSize 68+16))
    (by decide +kernel)
  obtain ⟨l', hl', hp'⟩ := reachVia_of_run toLibraryStep (fun _ a => a.NoError) mixedRun
    toLibraryInit (fun l => decide (l.received = mixedResult ∧
      ∀ m ∈ l.sender.log, m.encode.length < 2^32)) (by decide +kernel)
  obtain ⟨hrec, hlen⟩ := of_decide_eq_true hp
  obtain ⟨hrec', hlen'⟩ := of_decide_eq_true hp'
  have h := (framing_round_trip 68).1 l hl
  have h' := (framing_round_trip 68).2 l' hl'
  exact ⟨⟨l, h.1, h.2 hlen, hrec⟩, ⟨l', h'.1, h'.2 hlen', hrec'⟩⟩

end TapTunnel.Ipc
