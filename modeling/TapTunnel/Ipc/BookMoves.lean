import TapTunnel.Ipc.Relay

namespace TapTunnel.Ipc

open Framework

/-- Everything that an action can do to the commands queued, to the command or response that task 3
has in hand, to the commands carried out and to the responses queued. -/
inductive BookMove (w : World) : Action → List ProxyCommand → ProxyTask →
    List (ProxyCommand × ProxyResponse) → List ProxyResponse → Prop
  | submit {c : Nat} {call : Call} (hc : w.calls[c]? = some call)
      (hst : call.stage = .registered) :
      BookMove w (.submit c) (w.submitted ++ [call.command]) w.proxy w.handled w.answered
  | begin {k : Nat} {cmd : ProxyCommand} (hold : w.proxy = .reading) :
      BookMove w (.toProxy (.read k)) w.submitted (.handling cmd) w.handled w.answered
  | handle {k : Kernel} {cmd : ProxyCommand} (hold : w.proxy = .handling cmd) :
      BookMove w (.handle k) w.submitted (.responding (handleProxyCommand k cmd))
        (w.handled ++ [(cmd, handleProxyCommand k cmd)]) w.answered
  | respond {resp : ProxyResponse} (hold : w.proxy = .responding resp) :
      BookMove w .respond w.submitted .reading w.handled (w.answered ++ [resp])
  | discard {resp : ProxyResponse} (hold : w.proxy = .responding resp)
      (hrx : w.toLibrary.sender.control.rxAlive = false) :
      BookMove w .respond w.submitted .reading w.handled w.answered
  | other {a : Action} (hhandle : ∀ k, a ≠ .handle k) :
      BookMove w a w.submitted w.proxy w.handled w.answered

namespace World

variable {J : Codec} {w w' : World} {a : Action}

theorem libraryReceive_books (J : Codec) (record : Bytes) (w : World) :
    (w.libraryReceive J record).submitted = w.submitted ∧
      (w.libraryReceive J record).proxy = w.proxy ∧
      (w.libraryReceive J record).handled = w.handled ∧
      (w.libraryReceive J record).answered = w.answered := by
  unfold World.libraryReceive World.takeResponse World.deliver
  split
  · split
    · simp only
      split
      · split
        · split_ifs <;> exact ⟨rfl, rfl, rfl, rfl⟩
        · exact ⟨rfl, rfl, rfl, rfl⟩
      · exact ⟨rfl, rfl, rfl, rfl⟩
    · exact ⟨rfl, rfl, rfl, rfl⟩
  · exact ⟨rfl, rfl, rfl, rfl⟩
  · exact ⟨rfl, rfl, rfl, rfl⟩

theorem step_bookMove (h : World.step J a w = some w') :
    BookMove w a w'.submitted w'.proxy w'.handled w'.answered := by
  cases a with
  | call cmd =>
    obtain rfl := Option.some.inj h
    exact .other (by simp)
  | register c | cancel c =>
    simp only [World.step] at h
    split at h
    · split_ifs at h
      obtain rfl := Option.some.inj h
      exact .other (by simp)
    · cases h
  | submit c =>
    simp only [World.step] at h
    split at h
    · next call hc =>
      split_ifs at h with hst
      unfold World.submit at h
      split at h
      · obtain rfl := Option.some.inj h
        exact .submit hc hst
      · split_ifs at h
        obtain rfl := Option.some.inj h
        exact .other (by simp)
    · cases h
  | finish c =>
    simp only [World.step] at h
    split at h
    · split_ifs at h
      unfold World.finish at h
      split at h
      · obtain rfl := Option.some.inj h
        exact .other (by simp)
      · split_ifs at h
        obtain rfl := Option.some.inj h
        exact .other (by simp)
    · cases h
  | toProxy b =>
    obtain ⟨-, l, hl, ⟨-, rfl⟩ | ⟨record, hrec, hreading, rfl⟩⟩ := World.step_toProxy h
    · exact .other (by simp)
    · rcases (Link.step_readerAlive hl).2 with hsame | ⟨-, k, rfl⟩
      · rw [hrec] at hsame
        simp at hsame
      · unfold World.proxyReceive
        split
        · split
          · exact .begin hreading
          · exact .other (by simp)
        · exact .other (by simp)
        · exact .other (by simp)
  | handle k =>
    simp only [World.step] at h
    split at h
    · next cmd hold =>
      obtain rfl := Option.some.inj h
      exact .handle hold
    · cases h
    · cases h
  | respond =>
    simp only [World.step] at h
    split at h
    · next resp hold =>
      unfold World.respond at h
      split at h
      · obtain rfl := Option.some.inj h
        exact .respond hold
      · split_ifs at h with hrx
        obtain rfl := Option.some.inj h
        exact .discard hold (by simpa using hrx)
    · cases h
    · cases h
  | toLibrary b =>
    obtain ⟨-, l, -, ⟨-, rfl⟩ | ⟨record, -, rfl⟩⟩ := World.step_toLibrary h
    · exact .other (by simp)
    · obtain ⟨h1, h2, h3, h4⟩ := libraryReceive_books J record { w with toLibrary := l }
      rw [h1, h2, h3, h4]
      exact .other (by simp)

end World

namespace BookMove

variable {w : World} {a : Action} {submitted : List ProxyCommand} {proxy : ProxyTask}
  {handled : List (ProxyCommand × ProxyResponse)} {answered : List ProxyResponse}

/-- The books are only ever continued. -/
theorem grows (h : BookMove w a submitted proxy handled answered) :
    w.submitted <+: submitted ∧ w.handled <+: handled := by
  cases h with
  | submit => exact ⟨List.prefix_append _ _, List.prefix_refl _⟩
  | handle => exact ⟨List.prefix_refl _, List.prefix_append _ _⟩
  | begin | respond | discard | other => exact ⟨List.prefix_refl _, List.prefix_refl _⟩

/-- As long as its writer task takes responses in, the proxy queues every response it makes. -/
theorem answers (h : BookMove w a submitted proxy handled answered)
    (hrx : w.toLibrary.sender.control.rxAlive = true)
    (hall : w.answered ++ w.proxy.toQueue = w.handled.map Prod.snd) :
    answered ++ proxy.toQueue = handled.map Prod.snd := by
  cases h with
  | submit | other => exact hall
  | begin hold => simpa [hold, ProxyTask.toQueue] using hall
  | handle hold => simpa [hold, ProxyTask.toQueue] using hall
  | respond hold => simpa [hold, ProxyTask.toQueue] using hall
  | discard hold hdead =>
    rw [hrx] at hdead
    cases hdead

end BookMove

/-- Only its end takes the queues from a writer task. -/
theorem relayWriter_rxAlive {a : SendAction} {s s' : Sender} (h : relayWriter a s = some s')
    (halive : s'.control.rxAlive = true) : s.control.rxAlive = true := by
  have hexit : ∀ u : Sender, s' = u.exit → s.control.rxAlive = true := by
    intro u hu
    rw [hu] at halive
    cases halive
  cases a with
  | offerFrame f =>
    obtain rfl := Option.some.inj h
    unfold Sender.offerFrame at halive
    split at halive <;> exact halive
  | offerControl p =>
    simp only [relayWriter, Sender.offerControl] at h
    split at h
    · next c hc => exact (Chan.trySend_ok hc).1
    · cases h
  | dropFrames | dropControl =>
    obtain rfl := Option.some.inj h
    exact halive
  | recvFrame r =>
    simp only [relayWriter] at h
    split at h
    · cases r with
      | ok =>
        obtain rfl := Option.some.inj h
        exact halive
      | failed n => exact hexit _ (Option.some.inj h).symm
    · exact hexit _ (Option.some.inj h).symm
    · cases h
  | recvControl r =>
    simp only [relayWriter] at h
    split at h
    · next hr =>
      cases r with
      | ok =>
        obtain rfl := Option.some.inj h
        exact (Chan.tryRecv_ok hr).2.2.1.symm.trans halive
      | failed n => exact hexit _ (Option.some.inj h).symm
    · cases h
  | advance r =>
    simp only [relayWriter] at h
    split at h
    · split at h
      · cases r with
        | ok =>
          obtain rfl := Option.some.inj h
          exact halive
        | failed n => exact hexit _ (Option.some.inj h).symm
      · obtain rfl := Option.some.inj h
        exact halive
    · split at h
      · next hr =>
        cases r with
        | ok =>
          obtain rfl := Option.some.inj h
          exact (Chan.tryRecv_ok hr).2.2.1.symm.trans halive
        | failed n => exact hexit _ (Option.some.inj h).symm
      · obtain rfl := Option.some.inj h
        exact halive
    · cases r with
      | ok =>
        obtain rfl := Option.some.inj h
        exact halive
      | failed n => exact hexit _ (Option.some.inj h).symm
    · cases h
    · cases h
  | abort =>
    simp only [relayWriter] at h
    split_ifs at h
    exact hexit _ (Option.some.inj h).symm

/-- A read touches neither the writer nor whether the reader runs. -/
theorem Link.read_frame {write : SendAction → Sender → Option Sender}
    {fit : Nat → Bytes → Option Bytes} {k : Nat} {l l' : Link}
    (h : Link.step write fit (.read k) l = some l') :
    l'.sender = l.sender ∧ l'.readerAlive = l.readerAlive := by
  simp only [Link.step] at h
  split_ifs at h
  obtain rfl := Option.some.inj h
  exact ⟨rfl, rfl⟩

/-- The command of the call is in the control channel, or has been. -/
def Call.IsSent (c : Call) : Prop := c.stage = .waiting ∨ ∃ resp, c.stage = .returned resp

/-- The books account for every call that has sent its command, and for every response that the
proxy could queue. -/
structure World.Booked (w : World) : Prop where
  sent : ∀ (i : Nat) c, w.calls[i]? = some c → c.IsSent → c.command ∈ w.submitted
  answers : w.toLibrary.sender.control.rxAlive = true →
    w.answered ++ w.proxy.toQueue = w.handled.map Prod.snd

namespace World

variable {J : Codec} {w w' : World} {a : Action}

theorem step_rxAlive (h : World.step J a w = some w')
    (halive : w'.toLibrary.sender.control.rxAlive = true) :
    w.toLibrary.sender.control.rxAlive = true := by
  rcases (World.step_links h).2 with heq | ⟨b, hb, -⟩
  · rwa [heq] at halive
  · cases b with
    | send b =>
      obtain ⟨s, hs, hl⟩ := Option.map_eq_some_iff.mp hb
      rw [← hl] at halive
      exact relayWriter_rxAlive hs halive
    | read k => rwa [(Link.read_frame hb).1] at halive
    | stopReader =>
      obtain hl := Option.some.inj hb
      rwa [← hl] at halive

/-- A call that has sent its command had done so before, or does it in this step. -/
theorem submit_sent {c : Nat} {call : Call} (h : w.submit J c call = some w')
    (hw : ∀ (i : Nat) c, w.calls[i]? = some c → c.IsSent → c.command ∈ w.submitted) :
    ∀ (i : Nat) c, w'.calls[i]? = some c → c.IsSent → c.command ∈ w'.submitted := by
  intro i c' hi hsent
  unfold World.submit at h
  split at h
  · obtain rfl := Option.some.inj h
    rcases getElem?_set_cases hi with ⟨-, rfl⟩ | ⟨-, hi⟩
    · simp
    · exact List.mem_append_left _ (hw i c' hi hsent)
  · split_ifs at h
    obtain rfl := Option.some.inj h
    rcases getElem?_set_cases hi with ⟨-, rfl⟩ | ⟨-, hi⟩
    · simp [Call.IsSent] at hsent
    · exact hw i c' hi hsent

theorem callMove_sent {calls : List Call} {pending : Table UInt64 Nat}
    (h : CallMove w a calls pending) (ha : ∀ c, a ≠ .submit c)
    (hw : ∀ (i : Nat) c, w.calls[i]? = some c → c.IsSent → c.command ∈ w.submitted) :
    ∀ (i : Nat) c, calls[i]? = some c → c.IsSent → c.command ∈ w.submitted := by
  intro i c' hi hsent
  cases h with
  | call cmd =>
    rcases getElem?_concat_cases hi with ⟨-, rfl⟩ | hi
    · simp [Call.IsSent] at hsent
    · exact hw i c' hi hsent
  | register hc hst | lose hc hst | cancel hc hl =>
    rcases getElem?_set_cases hi with ⟨-, rfl⟩ | ⟨-, hi⟩
    · simp [Call.IsSent] at hsent
    · exact hw i c' hi hsent
  | submit | refuse => exact absurd rfl (ha _)
  | finish hc hst hin =>
    rcases getElem?_set_cases hi with ⟨-, rfl⟩ | ⟨-, hi⟩
    · have hold := hw _ _ hc (.inl hst)
      exact hold
    · exact hw i c' hi hsent
  | take resp | other => exact hw i c' hi hsent
  | deliver halive hp hc hl =>
    rcases getElem?_set_cases hi with ⟨-, rfl⟩ | ⟨-, hi⟩
    · have hold := hw _ _ hc hsent
      exact hold
    · exact hw i c' hi hsent

theorem Booked.step (h : w.Booked) (hs : World.step J a w = some w') : w'.Booked := by
  have hmove := step_bookMove hs
  refine ⟨?_, fun halive => ?_⟩
  · by_cases ha : ∃ c, a = .submit c
    · obtain ⟨c, rfl⟩ := ha
      simp only [World.step] at hs
      split at hs
      · split_ifs at hs
        exact submit_sent hs h.sent
      · cases hs
    · have hkept := callMove_sent (step_callMove hs).1 (fun c hc => ha ⟨c, hc⟩) h.sent
      intro i c hi hsent
      exact hmove.grows.1.subset (hkept i c hi hsent)
  · have hrx := step_rxAlive hs halive
    exact hmove.answers hrx (h.answers hrx)

theorem booked {mtu : UInt16} (h : Reachable (World.step J) (World.init mtu) w) : w.Booked := by
  apply h.invariant (World.step J) World.Booked
  · exact ⟨by simp [World.init], fun _ => rfl⟩
  · intro s t a hw _ hs
    exact hw.step hs

end World

end TapTunnel.Ipc
