import TapTunnel.Handshake.Agreement
import TapTunnel.Handshake.ConfigReaders
import TapTunnel.Ipc.RoundTrip

namespace TapTunnel.Handshake

open Framework Ipc

def broadcastMac : Mac := #v[0xff, 0xff, 0xff, 0xff, 0xff, 0xff]

/-- The reply that tells everyone which MAC address `senderIp` has. -/
def buildGratuitousArp (senderMac : Mac) (senderIp : BitVec 32) (targetMac : Mac) : Bytes :=
  targetMac.toList ++ senderMac.toList ++ [0x08, 0x06] ++
    [0x00, 0x01] ++ [0x08, 0x00] ++ [6] ++ [4] ++ [0x00, 0x02] ++
    senderMac.toList ++ beBytes senderIp.toNat ++ targetMac.toList ++ beBytes senderIp.toNat

/-- What `run_proxy` writes before the relay starts, if the TAP address is an IPv4 one. -/
def greeting (config : TapConfig) (tapMac : Mac) : Bytes :=
  match config.peerAddr with
  | some (.v4 ipv4, _) => delimit (encodeFrame (buildGratuitousArp tapMac ipv4 broadcastMac))
  | some (.v6 _, _) | none => []

theorem length_buildGratuitousArp (senderMac targetMac : Mac) (senderIp : BitVec 32) :
    (buildGratuitousArp senderMac senderIp targetMac).length = 42 := by
  simp [buildGratuitousArp]

/-- What the library's IPC reader makes of the bytes it gets. -/
def ipcMessages (bs : Bytes) : List (Except IoError Message) :=
  ((FrameReader.new (List.replicate 2048 0)).feed ipcFit bs).2.map decodeMessage

/-- The messages in front of those of the relay. -/
def announced (config : TapConfig) (tapMac : Mac) : List Message :=
  match config.peerAddr with
  | some (.v4 ipv4, _) => [.frame (buildGratuitousArp tapMac ipv4 broadcastMac)]
  | some (.v6 _, _) | none => []

theorem wireOf_append (ms ms' : List Message) : wireOf (ms ++ ms') = wireOf ms ++ wireOf ms' := by
  simp [wireOf]

theorem greeting_eq (config : TapConfig) (tapMac : Mac) :
    greeting config tapMac = wireOf (announced config tapMac) := by
  unfold greeting announced
  split <;> simp [wireOf, Message.encode]

theorem announced_encode_length (config : TapConfig) (tapMac : Mac) :
    ∀ m ∈ announced config tapMac, m.encode.length < 2^32 := by
  unfold announced
  split
  · simp [Message.encode, encodeFrame, length_buildGratuitousArp]
  · simp
  · simp

/-- The reader decodes as many messages as have arrived whole. -/
theorem ipcMessages_of_wire {ms : List Message} (hms : ∀ m ∈ ms, m.encode.length < 2^32)
    {bs : Bytes} (h : bs <+: wireOf ms) :
    (∃ got, got <+: ms ∧ ipcMessages bs = got.map .ok) ∧
      (bs = wireOf ms → ipcMessages bs = ms.map .ok) := by
  have hadmits : ∀ m ∈ ms.map Message.encode, Admits ipcFit (fun _ => True) m := by
    intro m hm
    obtain ⟨m', hm', rfl⟩ := List.mem_map.mp hm
    exact ipcFit_admits (hms m' hm')
  have hall := FrameReader.feed_records ipcFit_fits (fun _ => True) (ms.map Message.encode) hadmits
    (FrameReader.new_sound _) (FrameReader.new_idle (List.replicate 2048 0)) trivial
  have hpre := FrameReader.feed_prefix ipcFit h (.new (List.replicate 2048 0))
  rw [wireOf, hall.1, List.prefix_iff_eq_take, ← List.map_take] at hpre
  generalize ((FrameReader.new (List.replicate 2048 0)).feed ipcFit bs).2.length = n at hpre
  refine ⟨⟨ms.take n, List.take_prefix n ms, ?_⟩, fun hbs => ?_⟩
  · rw [ipcMessages, hpre]
    exact Message.map_decodeMessage_encode _
  · rw [ipcMessages, hbs, wireOf, hall.1]
    exact Message.map_decodeMessage_encode _

section Boundary

variable {H : Host}

theorem firstMessage_delimit {msg : Bytes} (hlen : msg.length < 2^32) (rest : Bytes) :
    firstMessage (delimit msg ++ rest) = some msg ∧ behindFirst (delimit msg ++ rest) = rest := by
  have hbytes : delimit msg ++ rest = beBytes msg.length ++ (msg ++ rest) := List.append_assoc _ _ _
  have htake : (delimit msg ++ rest).take 4 = beBytes msg.length := by
    rw [hbytes]
    exact List.take_left' (beBytes_length _)
  have hdrop : (delimit msg ++ rest).drop 4 = msg ++ rest := by
    rw [hbytes]
    exact List.drop_left' (beBytes_length _)
  have hn := ofBeBytes_beBytes _ hlen
  constructor
  · rw [firstMessage_eq_some (by simp; omega) (by rw [htake, hdrop, hn]; simp), htake, hdrop, hn,
      List.take_left' rfl]
  · rw [behindFirst, htake, hn, ← List.drop_drop, hdrop, List.drop_left' rfl]

/-- A reader that meets a `ProxyConfig` gets it and stops behind it. -/
theorem Received.config {m : ProxyConfig} {rest : Bytes} {eof : Bool}
    {r : Except Stop (ProxyConfig × Stream)} (hH : H.Faithful)
    (h : Received H (delimit (encodeControl H.proxyConfig m) ++ rest) eof r) :
    ∃ s', r = .ok (m, s') ∧ incoming s' = rest := by
  obtain ⟨hfirst, hrest⟩ := firstMessage_delimit (hH.proxyConfig_length m) rest
  have hm := expectControl_encodeControl hH.proxyConfig "expected ProxyConfig, got frame" m
  cases h with
  | ok hmsg hp hin hend =>
    obtain rfl := Option.some.inj (hfirst.symm.trans hmsg)
    obtain rfl := Except.ok.inj (hm.symm.trans hp)
    exact ⟨_, rfl, hin.trans hrest⟩
  | rejected hmsg hp =>
    obtain rfl := Option.some.inj (hfirst.symm.trans hmsg)
    cases hm.symm.trans hp
  | truncated hmsg | waiting hmsg => cases hfirst.symm.trans hmsg

theorem performHandshake_sent {config : TapConfig} {mac : Mac} {s : Stream} {sent : Bytes}
    (h : performHandshake H config mac s = .ok sent) :
    ∃ tapIp prefixLen, config.peerAddr = some (tapIp, prefixLen) ∧
      sent = delimit (encodeControl H.proxyConfig ⟨tapIp, mac, prefixLen, config.mtu⟩) := by
  simp only [performHandshake, bind, Except.bind] at h
  split at h
  · cases h
  · split at h
    · cases h
    · split at h
      · cases h
      · split at h
        · cases h
        · next tapIp prefixLen hpeer => exact ⟨tapIp, prefixLen, hpeer, (Except.ok.inj h).symm⟩

end Boundary

/-- Task 2 of the proxy when the relay starts. -/
def relaySender : Sender := .new proxyFrameChannelCapacity proxyResponseCapacity proxyIpcBufferSize

/-- The session starts in step. On the bytes that the proxy sends, first in the handshake, then as
its greeting, then from the relay, and however they are cut, either client gets the proxy's
`ProxyConfig` and leaves the rest to its IPC reader; and that reader decodes the announcement of the
TAP address, if there is one, and then the messages of the relay, in order, none of them with a part
of the handshake in it. Once all bytes have arrived it has decoded all messages. -/
theorem session_in_step (H : Host) (hH : H.Faithful) (config : TapConfig) (mac : Mac)
    (hello : Stream) (sent : Bytes) (hsent : performHandshake H config mac hello = .ok sent)
    (relay : Sender) (hrelay : ReachVia relayWriter (fun _ a => a.NoError) relaySender relay)
    (hlog : ∀ m ∈ relay.log, m.encode.length < 2^32) (s : Stream)
    (hin : incoming s <+: sent ++ greeting config mac ++ relay.writer.out)
    (hlen : sent.length ≤ (incoming s).length) :
    ∃ tapIp prefixLen, config.peerAddr = some (tapIp, prefixLen) ∧
      ∀ r, (r = receiveInline H s ∧ Patient onQuiet s ∨
          r = receiveFramed H s ∧ ∀ tick, .quiet tick ∉ s) →
        ∃ s' got, r = .ok (⟨tapIp, mac, prefixLen, config.mtu⟩, s') ∧
          ipcMessages (incoming s') = got.map .ok ∧ got <+: announced config mac ++ relay.log ∧
          (incoming s = sent ++ greeting config mac ++ relay.writer.out → relay.phase = .select →
            got = announced config mac ++ relay.log) := by
  obtain ⟨tapIp, prefixLen, hpeer, rfl⟩ := performHandshake_sent hsent
  refine ⟨tapIp, prefixLen, hpeer, fun r hr => ?_⟩
  have hs : Sent relayForm relay := hrelay.invariant relayWriter (Sent relayForm)
    (new_sent _ _ _ _) fun _ _ _ hs ha hstep => hs.step (relayWriter_step ha hstep)
  rw [List.append_assoc] at hin
  obtain ⟨rest, hrest⟩ := List.prefix_of_prefix_length_le (List.prefix_append _ _) hin hlen
  rw [← hrest, List.prefix_append_right_inj] at hin
  have hreceived : Received H (delimit (encodeControl H.proxyConfig
      ⟨tapIp, mac, prefixLen, config.mtu⟩) ++ rest) (ended s) r := by
    rw [hrest]
    rcases hr with ⟨rfl, hpatient⟩ | ⟨rfl, hquiet⟩
    · exact receiveInline_received hpatient
    · exact receiveFramed_received hquiet
  obtain ⟨s', hok, hs'⟩ := hreceived.config hH
  have hwire : greeting config mac ++ relay.writer.out <+:
      wireOf (announced config mac ++ relay.log) := by
    rw [greeting_eq, wireOf_append, List.prefix_append_right_inj, ← hs.content]
    exact List.prefix_append _ _
  have hfits : ∀ m ∈ announced config mac ++ relay.log, m.encode.length < 2^32 := by
    intro m hm
    rcases List.mem_append.mp hm with hm | hm
    · exact announced_encode_length config mac m hm
    · exact hlog m hm
  obtain ⟨⟨got, hgot, hdecoded⟩, hall⟩ := ipcMessages_of_wire hfits (hin.trans hwire)
  rw [← hs'] at hdecoded hall
  refine ⟨s', got, hok, hdecoded, hgot, fun hcomplete hselect => ?_⟩
  rw [← hrest, List.append_assoc, List.append_cancel_left_eq] at hcomplete
  have hout := (hs.flushed_all hselect).2
  have hbytes : incoming s' = wireOf (announced config mac ++ relay.log) := by
    rw [hs', hcomplete, hout, greeting_eq, wireOf_append]
  exact List.map_injective_iff.mpr (fun _ _ => Except.ok.inj) (hdecoded.symm.trans (hall hbytes))

/-- One frame goes through the relay of the proxy. -/
def oneFrame : List SendAction :=
  [.offerFrame [9, 8], .recvFrame .ok, .advance .ok, .advance .ok, .advance .ok]

/-- The handshake message of the proxy. -/
def exampleSent : Bytes :=
  delimit (encodeControl exampleHost.proxyConfig ⟨.v4 0x0a000001, exampleMac, 24, 1400⟩)

/-- The bytes come one at a time and behind a time-out. -/
theorem session_in_step_exampleConfig :
    ∃ s s' : Stream, receiveInline exampleHost s =
        .ok (⟨.v4 0x0a000001, exampleMac, 24, 1400⟩, s') ∧
      ipcMessages (incoming s') =
        [.ok (.frame (buildGratuitousArp exampleMac 0x0a000001 broadcastMac)),
          .ok (.frame [9, 8])] := by
  have hsent : performHandshake exampleHost exampleConfig exampleMac
      (bytewise (clientHello exampleHost)) = .ok exampleSent := by decide +kernel
  obtain ⟨relay, hrelay, hp⟩ := reachVia_of_run relayWriter (fun _ a => a.NoError) oneFrame
    relaySender (fun s => decide (s.log = [.frame [9, 8]] ∧ s.phase = .select)) (by decide +kernel)
  obtain ⟨hlog, hphase⟩ := of_decide_eq_true hp
  let bytes := exampleSent ++ greeting exampleConfig exampleMac ++ relay.writer.out
  let s : Stream := .quiet ⟨false, none⟩::bytewise bytes
  obtain ⟨hin, -, hpatient⟩ := carries_iff.mp
    (carries_cons.mpr ⟨rfl, bytes, rfl, carries_bytewise onQuiet bytes⟩ : Carries onQuiet bytes s)
  have hfits : ∀ m ∈ relay.log, m.encode.length < 2^32 := by
    rw [hlog]
    decide
  obtain ⟨tapIp, prefixLen, hpeer, hr⟩ := session_in_step exampleHost (refHost_faithful _ _)
    exampleConfig exampleMac _ exampleSent hsent relay hrelay hfits s (hin ▸ List.prefix_rfl)
    (by rw [hin]; simp [bytes])
  obtain ⟨s', got, hok, hgot, -, hall⟩ := hr _ (.inl ⟨rfl, hpatient⟩)
  obtain ⟨rfl, rfl⟩ := Prod.mk.inj (Option.some.inj hpeer)
  rw [hall hin hphase, hlog] at hgot
  exact ⟨s, s', hok, hgot⟩

end TapTunnel.Handshake
