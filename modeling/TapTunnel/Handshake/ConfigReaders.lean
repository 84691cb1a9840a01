import TapTunnel.Handshake.Reference

namespace TapTunnel.Handshake

open Framework Ipc

section Readers

variable (H : Host)

/-- `read_exact` under a read timeout: the first time-out fails it. -/
def readTimed (n : Nat) (s : Stream) : Except Stop (Bytes × Stream) :=
  readFull (.io ⟨.unexpectedEof, "failed to fill whole buffer"⟩) .waiting
    (fun _ => some (.io ⟨.wouldBlock, "Resource temporarily unavailable (os error 11)"⟩)) n s

/-- The length of the message, the buffer with the message at its front, and what is unread. -/
def readFramedSync (buf : Bytes) (s : Stream) : Except Stop (Nat × Bytes × Stream) := do
  let (lenBuf, s) ← readTimed 4 s
  let len := ofBeBytes lenBuf
  if len = 0 then .error (.io ⟨.invalidData, "zero-length frame"⟩)
  else
    let buf := if buf.length < len then buf ++ List.replicate (len - buf.length) 0 else buf
    let (body, s) ← readTimed len s
    .ok (len, body ++ buf.drop len, s)

/-- The part of `connect_to_blocking` that receives the `ProxyConfig`, with the stream that is left
to the relay. -/
def receiveFramed (s : Stream) : Except Stop (ProxyConfig × Stream) := do
  let (n, buf, s) ← readFramedSync (List.replicate 1024 0) s
  let proxy ← expectControl H.proxyConfig "expected ProxyConfig, got frame" (buf.take n)
  .ok (proxy, s)

/-- The same part of `connect_with_config_blocking`. -/
def receiveInline (s : Stream) : Except Stop (ProxyConfig × Stream) := do
  let (lenBuf, s) ← readLength s
  let (buf, s) ← readBody (ofBeBytes lenBuf) s
  let proxy ← expectControl H.proxyConfig "expected ProxyConfig, got frame" buf
  .ok (proxy, s)

/-- The end of `connect_to_blocking`, once the hello is sent. -/
def connectTo (localIp : Option IpAddr) (s : Stream) : Except Stop Connected := do
  let (proxy, _) ← receiveFramed H s
  match localIp.or (defaultClientIp H.overflowChecks proxy.tapIp) with
  | none => .error (.panicked "attempt to add with overflow")
  | some ip =>
    .ok ⟨{ TapConfig.default with
        peerAddr := some (proxy.tapIp, proxy.prefixLen)
        localAddr := some (ip, proxy.prefixLen)
        mtu := proxy.mtu },
      (proxy.tapIp, proxy.tapMac)⟩

end Readers

section Spec

variable {H : Host} {s : Stream}

theorem connectWithConfig_eq (pid : UInt32) (config : TapConfig) :
    connectWithConfig H pid config s = (receiveInline H s).bind fun (proxy, _) =>
      match clientIp H.overflowChecks config proxy.tapIp with
      | none => .error (.panicked "attempt to add with overflow")
      | some ip =>
        .ok ⟨{ config with
            peerAddr := some (proxy.tapIp, proxy.prefixLen)
            localAddr := some (ip, proxy.prefixLen)
            mtu := proxy.mtu
            mac := some (config.mac.getD (pidMac pid)) },
          (proxy.tapIp, proxy.tapMac)⟩ := by
  simp only [connectWithConfig, receiveInline, bind, Except.bind]
  cases readLength s with
  | error e => rfl
  | ok p =>
    simp only
    cases readBody (ofBeBytes p.1) p.2 with
    | error e => rfl
    | ok q =>
      simp only
      cases expectControl H.proxyConfig "expected ProxyConfig, got frame" q.1 with
      | error e => rfl
      | ok proxy => rfl

/-- What the first message of some bytes is to a client, however they arrive: the message, or none
that is complete. -/
def firstMessage (bs : Bytes) : Option Bytes :=
  let body := bs.drop 4
  let len := ofBeBytes (bs.take 4)
  if 4 ≤ bs.length ∧ len ≤ body.length then some (body.take len) else none

/-- What is left behind the first message. -/
def behindFirst (bs : Bytes) : Bytes := bs.drop (4 + ofBeBytes (bs.take 4))

/-- The outcome of a reader that stops at the message boundary of the bytes `bs`, which the end of
the stream follows if `eof` holds: the `ProxyConfig` of the first message with the rest of the
stream, or a failure. It waits only for what may still come. -/
inductive Received (H : Host) (bs : Bytes) (eof : Bool) :
    Except Stop (ProxyConfig × Stream) → Prop
  | ok {msg : Bytes} {proxy : ProxyConfig} {s' : Stream} (hmsg : firstMessage bs = some msg)
      (hp : expectControl H.proxyConfig "expected ProxyConfig, got frame" msg = .ok proxy)
      (hin : incoming s' = behindFirst bs) (hend : ended s' = eof) :
      Received H bs eof (.ok (proxy, s'))
  | rejected {msg : Bytes} {e e' : IoError} (hmsg : firstMessage bs = some msg)
      (hp : expectControl H.proxyConfig "expected ProxyConfig, got frame" msg = .error (.io e)) :
      Received H bs eof (.error (.io e'))
  | truncated {e : IoError} (hmsg : firstMessage bs = none) (heof : eof = true) :
      Received H bs eof (.error (.io e))
  | waiting (hmsg : firstMessage bs = none) (heof : eof = false) :
      Received H bs eof (.error .waiting)

theorem expectControl_error {α : Type} {J : Serde α} {unexpected : String} {buf : Bytes} {e : Stop}
    (h : expectControl J unexpected buf = .error e) : ∃ io, e = .io io := by
  unfold expectControl at h
  split at h
  · next payload hd =>
    cases hj : decodeControl J payload with
    | ok a =>
      rw [hj] at h
      cases h
    | error io =>
      rw [hj] at h
      exact ⟨io, (Except.error.inj h).symm⟩
  · exact ⟨_, (Except.error.inj h).symm⟩
  · exact ⟨_, (Except.error.inj h).symm⟩

theorem Received.short {bs : Bytes} (hmsg : firstMessage bs = none) (eof : Bool) (io : IoError) :
    Received H bs eof (.error (if eof then .io io else .waiting)) := by
  cases eof with
  | true => exact .truncated hmsg rfl
  | false => exact .waiting hmsg rfl

/-- Once the length has been read, the message is there, or its end is missing. -/
theorem firstMessage_eq_some {bs : Bytes} (h4 : 4 ≤ bs.length)
    (hlen : ofBeBytes (bs.take 4) ≤ (bs.drop 4).length) :
    firstMessage bs = some ((bs.drop 4).take (ofBeBytes (bs.take 4))) := if_pos ⟨h4, hlen⟩

theorem firstMessage_eq_none {bs : Bytes}
    (h : 4 ≤ bs.length → (bs.drop 4).length < ofBeBytes (bs.take 4)) : firstMessage bs = none :=
  if_neg fun hc => Nat.lt_irrefl _ (Nat.lt_of_lt_of_le (h hc.1) hc.2)

/-- A decoded message, or an error of the decoder, ends the reader behind the message. -/
theorem Received.decoded {bs msg : Bytes} {eof : Bool} (hmsg : firstMessage bs = some msg)
    {s' : Stream} (hin : incoming s' = behindFirst bs) (hend : ended s' = eof) :
    Received H bs eof ((expectControl H.proxyConfig "expected ProxyConfig, got frame" msg).map
      (·, s')) := by
  cases hp : expectControl H.proxyConfig "expected ProxyConfig, got frame" msg with
  | ok proxy => exact .ok hmsg hp hin hend
  | error e =>
    obtain ⟨io, rfl⟩ := expectControl_error hp
    exact .rejected hmsg hp

theorem receiveInline_received (hs : Patient onQuiet s) :
    Received H (incoming s) (ended s) (receiveInline H s) := by
  have hquiet : ∀ s' : Stream, Patient (fun _ => (none : Option Stop)) s' := fun _ _ _ => rfl
  simp only [receiveInline, readLength, bind, Except.bind]
  rcases readFull_incoming (.io ⟨.unexpectedEof, "proxy closed connection during handshake"⟩)
    .waiting hs 4 with ⟨h4, s', hr, hin, hend, -⟩ | ⟨hshort, hr⟩
  · rw [hr]
    simp only [readBody]
    rcases readFull_incoming (.io ⟨.unexpectedEof, "failed to fill whole buffer"⟩) .waiting
      (hquiet s') (ofBeBytes ((incoming s).take 4)) with
      ⟨hlen, s'', hr', hin', hend', -⟩ | ⟨hshort, hr'⟩
    · rw [hin] at hlen hin' hr'
      rw [hr']
      refine Received.decoded (firstMessage_eq_some h4 hlen) ?_ (hend'.trans hend)
      rw [hin', List.drop_drop]
      rfl
    · rw [hr', hend]
      rw [hin] at hshort
      exact .short (firstMessage_eq_none fun _ => hshort) _ _
  · rw [hr]
    exact .short (firstMessage_eq_none fun h4 => absurd hshort (Nat.not_lt.mpr h4)) _ _

theorem expectControl_nil {α : Type} (J : Serde α) (unexpected : String) :
    expectControl J unexpected [] = .error (.io ⟨.invalidData, "empty message"⟩) := rfl

theorem receiveFramed_received (hs : ∀ t, .quiet t ∉ s) :
    Received H (incoming s) (ended s) (receiveFramed H s) := by
  have hpatient : ∀ {q : Tick → Option Stop}, Patient q s := fun t ht => absurd ht (hs t)
  simp only [receiveFramed, readFramedSync, readTimed, bind, Except.bind]
  rcases readFull_incoming (.io ⟨.unexpectedEof, "failed to fill whole buffer"⟩) .waiting
    (hpatient (q := fun _ =>
      some (.io ⟨.wouldBlock, "Resource temporarily unavailable (os error 11)"⟩))) 4 with
    ⟨h4, s', hr, hin, hend, hq⟩ | ⟨hshort, hr⟩
  · rw [hr]
    simp only
    generalize hlen : ofBeBytes ((incoming s).take 4) = len
    by_cases h0 : len = 0
    · -- the inline reader decodes the empty message here
      rw [if_pos h0]
      have hmsg := firstMessage_eq_some h4 (by rw [hlen, h0]; exact Nat.zero_le _)
      rw [hlen, h0, List.take_zero] at hmsg
      exact .rejected hmsg (expectControl_nil _ _)
    · rw [if_neg h0]
      have hpatient' : Patient (fun _ => some (Stop.io ⟨.wouldBlock,
          "Resource temporarily unavailable (os error 11)"⟩)) s' :=
        fun t ht => absurd (hq t ht) (hs t)
      rcases readFull_incoming (.io ⟨.unexpectedEof, "failed to fill whole buffer"⟩) .waiting
        hpatient' len with ⟨hle, s'', hr', hin', hend', -⟩ | ⟨hshort, hr'⟩
      · rw [hin] at hle hin' hr'
        rw [hr']
        simp only
        have hfront : ((incoming s).drop 4 |>.take len).length = len := List.length_take_of_le hle
        rw [List.take_left' hfront]
        subst hlen
        refine Received.decoded (firstMessage_eq_some h4 hle) ?_ (hend'.trans hend)
        rw [hin', List.drop_drop]
        rfl
      · rw [hr', hend]
        rw [hin] at hshort
        subst hlen
        exact .short (firstMessage_eq_none fun _ => hshort) _ _
  · rw [hr]
    exact .short (firstMessage_eq_none fun h4 => absurd hshort (Nat.not_lt.mpr h4)) _ _

theorem length_of_firstMessage {bs msg : Bytes} (h : firstMessage bs = some msg) :
    4 + ofBeBytes (bs.take 4) ≤ bs.length := by
  unfold firstMessage at h
  simp only at h
  split_ifs at h with hc
  rw [List.length_drop] at hc
  omega

/-- The bytes decide the outcome, up to the text of an error. -/
theorem Received.agree {bs : Bytes} {eof : Bool} {r r' : Except Stop (ProxyConfig × Stream)}
    (h1 : Received H bs eof r) (h2 : Received H bs eof r') :
    (∃ proxy s' t', r = .ok (proxy, s') ∧ r' = .ok (proxy, t') ∧
      4 + ofBeBytes (bs.take 4) ≤ bs.length ∧
      incoming s' = behindFirst bs ∧ incoming t' = behindFirst bs) ∨
    ∃ e e', r = .error e ∧ r' = .error e' ∧
      (e = .waiting ↔ e' = .waiting) ∧ (e = .waiting → eof = false) := by
  cases h1 with
  | ok hmsg hp hin1 hend1 =>
    cases h2 with
    | ok hmsg' hp' hin2 hend2 =>
      obtain rfl := Option.some.inj (hmsg.symm.trans hmsg')
      obtain rfl := Except.ok.inj (hp.symm.trans hp')
      exact .inl ⟨_, _, _, rfl, rfl, length_of_firstMessage hmsg, hin1, hin2⟩
    | rejected hmsg' hp' =>
      obtain rfl := Option.some.inj (hmsg.symm.trans hmsg')
      cases hp.symm.trans hp'
    | truncated hmsg' | waiting hmsg' => cases hmsg.symm.trans hmsg'
  | rejected hmsg hp =>
    cases h2 with
    | ok hmsg' hp' =>
      obtain rfl := Option.some.inj (hmsg.symm.trans hmsg')
      cases hp.symm.trans hp'
    | rejected hmsg' hp' => exact .inr ⟨_, _, rfl, rfl, by simp, nofun⟩
    | truncated hmsg' | waiting hmsg' => cases hmsg.symm.trans hmsg'
  | truncated hmsg heof =>
    cases h2 with
    | ok hmsg' | rejected hmsg' => cases hmsg.symm.trans hmsg'
    | truncated hmsg' heof' => exact .inr ⟨_, _, rfl, rfl, by simp, nofun⟩
    | waiting hmsg' heof' => cases heof.symm.trans heof'
  | waiting hmsg heof =>
    cases h2 with
    | ok hmsg' | rejected hmsg' => cases hmsg.symm.trans hmsg'
    | truncated hmsg' heof' => cases heof.symm.trans heof'
    | waiting hmsg' heof' => exact .inr ⟨_, _, rfl, rfl, Iff.rfl, fun _ => heof⟩

/-- Where `connect_with_config` succeeds, `connect_to` does, with the same link. -/
theorem connectTo_of_connectWithConfig {t : Stream} {pid : UInt32} {config : TapConfig}
    {c : Connected} (hs : Patient onQuiet s) (ht : ∀ tick, .quiet tick ∉ t)
    (hin : incoming s = incoming t) (hend : ended s = ended t)
    (h : connectWithConfig H pid config s = .ok c) :
    ∃ c', connectTo H (config.localAddr.map Prod.fst) t = .ok c' ∧ c'.gateway = c.gateway ∧
      c'.config.peerAddr = c.config.peerAddr ∧ c'.config.localAddr = c.config.localAddr ∧
      c'.config.mtu = c.config.mtu := by
  have h2 := receiveFramed_received (H := H) ht
  rw [← hin, ← hend] at h2
  rw [connectWithConfig_eq] at h
  rcases (receiveInline_received (H := H) hs).agree h2 with
    ⟨proxy, s', t', h1, h2, -⟩ | ⟨e, -, he, -⟩
  · simp only [h1, Except.bind, clientIp] at h
    simp only [connectTo, h2, bind, Except.bind]
    cases hip : (config.localAddr.map Prod.fst).or
      (defaultClientIp H.overflowChecks proxy.tapIp) with
    | none =>
      rw [hip] at h
      cases h
    | some ip =>
      rw [hip] at h
      cases h
      exact ⟨_, rfl, rfl, rfl, rfl, rfl⟩
  · rw [he] at h
    cases h

end Spec

/-- The two readers of the `ProxyConfig` on the same bytes. Both obtain the same configuration and
stop behind its message, or both fail. They wait on the same streams only, which have not ended. So
a client that connects to a running proxy gets the link that it would have got from one of its own.
-/
theorem client_readers_agree (H : Host) (s t : Stream) (hs : Patient onQuiet s)
    (ht : ∀ tick, .quiet tick ∉ t) (hin : incoming s = incoming t) (hend : ended s = ended t) :
    ((∃ proxy s' t', receiveInline H s = .ok (proxy, s') ∧ receiveFramed H t = .ok (proxy, t') ∧
      4 + ofBeBytes ((incoming s).take 4) ≤ (incoming s).length ∧
      incoming s' = (incoming s).drop (4 + ofBeBytes ((incoming s).take 4)) ∧
      incoming t' = (incoming s).drop (4 + ofBeBytes ((incoming s).take 4))) ∨
    ∃ e e', receiveInline H s = .error e ∧ receiveFramed H t = .error e' ∧
      (e = .waiting ↔ e' = .waiting) ∧ (e = .waiting → ended s = false)) ∧
    ∀ pid config c, connectWithConfig H pid config s = .ok c →
      ∃ c', connectTo H (config.localAddr.map Prod.fst) t = .ok c' ∧ c'.gateway = c.gateway ∧
        c'.config.peerAddr = c.config.peerAddr ∧ c'.config.localAddr = c.config.localAddr ∧
        c'.config.mtu = c.config.mtu := by
  have h2 := receiveFramed_received (H := H) ht
  rw [← hin, ← hend] at h2
  refine ⟨(receiveInline_received hs).agree h2, fun pid config c h => ?_⟩
  exact connectTo_of_connectWithConfig hs ht hin hend h

/-- The message of a proxy on 10.0.0.1/24, with the start of a frame behind it. -/
def exampleReply : Bytes :=
  delimit (encodeControl (refHost #v[2, 0, 0, 0, 0, 1] true).proxyConfig
    ⟨.v4 0x0a000001, #v[2, 0, 0, 0, 0, 1], 24, 1500⟩) ++ [0, 0]

/-- One client gets the bytes one at a time and after a time-out, the other gets all at once. -/
theorem client_readers_agree_exampleReply :
    ∃ proxy s' t',
      receiveInline (refHost #v[2, 0, 0, 0, 0, 1] true)
        (.quiet ⟨false, none⟩::bytewise exampleReply) = .ok (proxy, s') ∧
      receiveFramed (refHost #v[2, 0, 0, 0, 0, 1] true)
        [.bytes 0 exampleReply.tail] = .ok (proxy, t') ∧
      incoming s' = [0, 0] ∧ incoming t' = [0, 0] := by
  have hs : Patient onQuiet (.quiet ⟨false, none⟩::bytewise exampleReply) := by
    intro t ht
    rcases List.mem_cons.mp ht with ht | ht
    · cases ht
      rfl
    · simp [bytewise] at ht
  have hbytes : incoming (.quiet ⟨false, none⟩::bytewise exampleReply : Stream) = exampleReply := by
    decide +kernel
  have hok : (receiveInline (refHost #v[2, 0, 0, 0, 0, 1] true)
      (.quiet ⟨false, none⟩::bytewise exampleReply)).isOk = true := by decide +kernel
  have hrest : exampleReply.drop (4 + ofBeBytes (exampleReply.take 4)) = [0, 0] := by decide +kernel
  rcases (client_readers_agree (refHost #v[2, 0, 0, 0, 0, 1] true) _ [.bytes 0 exampleReply.tail] hs
    (by simp) (by decide +kernel) (by decide +kernel)).1 with
    ⟨proxy, s', t', h1, h2, -, h3, h4⟩ | ⟨e, -, he, -⟩
  · rw [hbytes, hrest] at h3 h4
    exact ⟨proxy, s', t', h1, h2, h3, h4⟩
  · rw [he] at hok
    cases hok

end TapTunnel.Handshake
