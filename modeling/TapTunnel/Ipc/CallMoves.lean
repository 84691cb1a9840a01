import TapTunnel.Ipc.Matching

namespace TapTunnel.Ipc

open Framework

/-- Everything that an action can do to the calls and to the map of pending responses. -/
inductive CallMove (w : World) : Action → List Call → Table UInt64 Nat → Prop
  | call (cmd : ProxyCommand) :
      CallMove w (.call cmd) (w.calls ++ [⟨cmd.setId w.nextRequestId, .numbered, none⟩]) w.pending
  | register {c : Nat} {call : Call} (hc : w.calls[c]? = some call) (hst : call.stage = .numbered) :
      CallMove w (.register c) (w.calls.set c { call with stage := .registered })
        (w.pending.insert call.command.id c)
  | submit {c : Nat} {call : Call} (hc : w.calls[c]? = some call) (hst : call.stage = .registered)
      (hrx : w.toProxy.sender.control.rxAlive = true) :
      CallMove w (.submit c) (w.calls.set c { call with stage := .waiting }) w.pending
  | refuse {c : Nat} {call : Call} (hc : w.calls[c]? = some call) (hst : call.stage = .registered)
      (hrx : w.toProxy.sender.control.rxAlive = false) (e : IoError) :
      CallMove w (.submit c) (w.calls.set c { call with stage := .failed e }) w.pending
  | finish {c : Nat} {call : Call} {resp : ProxyResponse} (hc : w.calls[c]? = some call)
      (hst : call.stage = .waiting) (hin : call.inbox = some resp) :
      CallMove w (.finish c) (w.calls.set c { call with stage := .returned resp }) w.pending
  | lose {c : Nat} {call : Call} (hc : w.calls[c]? = some call) (hst : call.stage = .waiting)
      (hno : w.pending.lookup call.command.id ≠ some c) (e : IoError) :
      CallMove w (.finish c) (w.calls.set c { call with stage := .failed e }) w.pending
  | cancel {c : Nat} {call : Call} (hc : w.calls[c]? = some call) (hl : call.listens = true) :
      CallMove w (.cancel c) (w.calls.set c { call with stage := .cancelled }) w.pending
  | take {k : Nat} (resp : ProxyResponse) (halive : w.toLibrary.readerAlive = true)
      (hnone : ∀ (c : Nat) call, w.pending.lookup resp.id = some c → w.calls[c]? = some call →
        call.listens = false) :
      CallMove w (.toLibrary (.read k)) w.calls (w.pending.erase resp.id)
  | deliver {k c : Nat} {call : Call} {resp : ProxyResponse}
      (halive : w.toLibrary.readerAlive = true) (hp : w.pending.lookup resp.id = some c)
      (hc : w.calls[c]? = some call) (hl : call.listens = true) :
      CallMove w (.toLibrary (.read k)) (w.calls.set c { call with inbox := some resp })
        (w.pending.erase resp.id)
  | other {a : Action} (hcancel : ∀ c, a ≠ .cancel c) (hsubmit : ∀ c, a ≠ .submit c) :
      CallMove w a w.calls w.pending

/-- Only the end of the reader changes whether it runs, and only a running reader completes a
message. -/
theorem Link.step_readerAlive {write : SendAction → Sender → Option Sender}
    {fit : Nat → Bytes → Option Bytes} {a : LinkAction} {l l' : Link}
    (h : Link.step write fit a l = some l') :
    (a ≠ .stopReader → l'.readerAlive = l.readerAlive) ∧
    (l'.records = l.records ∨ l.readerAlive = true ∧ ∃ k, a = .read k) := by
  cases a with
  | send a =>
    obtain ⟨s, hs, rfl⟩ := Option.map_eq_some_iff.mp h
    exact ⟨fun _ => rfl, .inl rfl⟩
  | read k =>
    simp only [Link.step] at h
    split_ifs at h with hc
    obtain rfl := Option.some.inj h
    exact ⟨fun _ => rfl, .inr ⟨hc.1, k, rfl⟩⟩
  | stopReader =>
    obtain rfl := Option.some.inj h
    exact ⟨fun hne => absurd rfl hne, .inl rfl⟩

namespace World

variable {J : Codec} {w w' : World}

theorem proxyReceive_frame (J : Codec) (record : Bytes) (w : World) :
    ∃ p, w.proxyReceive J record = { w with proxy := p } := by
  unfold World.proxyReceive
  split
  · split
    · exact ⟨_, rfl⟩
    · exact ⟨w.proxy, rfl⟩
  · exact ⟨w.proxy, rfl⟩
  · exact ⟨w.proxy, rfl⟩

theorem deliver_toLibrary (c : Nat) (resp : ProxyResponse) (w : World) :
    (w.deliver c resp).toLibrary = w.toLibrary := by
  unfold World.deliver
  split
  · split_ifs <;> rfl
  · rfl

theorem libraryReceive_toLibrary (J : Codec) (record : Bytes) (w : World) :
    (w.libraryReceive J record).toLibrary = w.toLibrary := by
  unfold World.libraryReceive
  split
  · split
    · unfold World.takeResponse
      split
      · exact World.deliver_toLibrary _ _ _
      · rfl
    · rfl
  · rfl
  · rfl

theorem takeResponse_callMove {l : Link} {k : Nat} (resp : ProxyResponse)
    (halive : w.toLibrary.readerAlive = true) :
    CallMove w (.toLibrary (.read k)) ({ w with toLibrary := l }.takeResponse resp).calls
      ({ w with toLibrary := l }.takeResponse resp).pending := by
  unfold World.takeResponse
  cases hp : w.pending.lookup resp.id with
  | none => exact .take resp halive (by simp [hp])
  | some c =>
    simp only [World.deliver]
    cases hc : w.calls[c]? with
    | none =>
      refine .take resp halive fun c' call' hp' hc' => ?_
      obtain rfl := Option.some.inj (hp.symm.trans hp')
      cases hc.symm.trans hc'
    | some call =>
      simp only
      split_ifs with hl
      · exact .deliver halive hp hc hl
      · refine .take resp halive fun c' call' hp' hc' => ?_
        obtain rfl := Option.some.inj (hp.symm.trans hp')
        obtain rfl := Option.some.inj (hc.symm.trans hc')
        exact Bool.eq_false_iff.mpr hl

theorem libraryReceive_callMove {l : Link} {k : Nat} (record : Bytes)
    (halive : w.toLibrary.readerAlive = true) :
    CallMove w (.toLibrary (.read k)) ({ w with toLibrary := l }.libraryReceive J record).calls
      ({ w with toLibrary := l }.libraryReceive J record).pending := by
  unfold World.libraryReceive
  split
  · split
    · exact takeResponse_callMove _ halive
    · exact .other (by simp) (by simp)
  · exact .other (by simp) (by simp)
  · exact .other (by simp) (by simp)

theorem submit_callMove {c : Nat} {call : Call} (hc : w.calls[c]? = some call)
    (hst : call.stage = .registered) (h : w.submit J c call = some w') :
    CallMove w (.submit c) w'.calls w'.pending ∧ w'.toLibrary = w.toLibrary := by
  unfold World.submit at h
  split at h
  · next l hl =>
    obtain rfl := Option.some.inj h
    obtain ⟨s, hs, -⟩ := Option.map_eq_some_iff.mp hl
    refine ⟨.submit hc hst ?_, rfl⟩
    simp only [ipcWriter, Sender.offerControl] at hs
    split at hs
    · next q hq => exact (Chan.trySend_ok hq).1
    · cases hs
  · split_ifs at h with hrx
    obtain rfl := Option.some.inj h
    exact ⟨.refuse hc hst (by simpa using hrx) _, rfl⟩

theorem finish_callMove {c : Nat} {call : Call} (hc : w.calls[c]? = some call)
    (hst : call.stage = .waiting) (h : w.finish c call = some w') :
    CallMove w (.finish c) w'.calls w'.pending ∧ w'.toLibrary = w.toLibrary := by
  unfold World.finish at h
  split at h
  · next resp hin =>
    obtain rfl := Option.some.inj h
    exact ⟨.finish hc hst hin, rfl⟩
  · split_ifs at h with hno
    obtain rfl := Option.some.inj h
    exact ⟨.lose hc hst hno _, rfl⟩

theorem respond_callMove {resp : ProxyResponse} (h : w.respond J resp = some w') :
    CallMove w .respond w'.calls w'.pending ∧
      w'.toLibrary.readerAlive = w.toLibrary.readerAlive := by
  unfold World.respond at h
  split at h
  · next l hl =>
    obtain rfl := Option.some.inj h
    exact ⟨.other (by simp) (by simp), (Link.step_readerAlive hl).1 (by simp)⟩
  · split_ifs at h
    obtain rfl := Option.some.inj h
    exact ⟨.other (by simp) (by simp), rfl⟩

theorem toLibrary_callMove {a : LinkAction} (h : World.step J (.toLibrary a) w = some w') :
    CallMove w (.toLibrary a) w'.calls w'.pending ∧
      (a ≠ .stopReader → w'.toLibrary.readerAlive = w.toLibrary.readerAlive) := by
  obtain ⟨-, l, hl, hcase⟩ := step_toLibrary h
  obtain ⟨hkeep, hread⟩ := Link.step_readerAlive hl
  rcases hcase with ⟨-, rfl⟩ | ⟨record, hcon, rfl⟩
  · exact ⟨.other (by simp) (by simp), hkeep⟩
  · rcases hread with hsame | ⟨halive, k, rfl⟩
    · rw [hcon] at hsame
      simp at hsame
    · refine ⟨libraryReceive_callMove record halive, ?_⟩
      rw [libraryReceive_toLibrary]
      exact hkeep

/-- Every step is such a move, and only the end of the library's reader stops it. -/
theorem step_callMove {a : Action} (h : World.step J a w = some w') :
    CallMove w a w'.calls w'.pending ∧
      (a ≠ .toLibrary .stopReader → w'.toLibrary.readerAlive = w.toLibrary.readerAlive) := by
  cases a with
  | call cmd =>
    obtain rfl := Option.some.inj h
    exact ⟨.call cmd, fun _ => rfl⟩
  | register c =>
    simp only [World.step] at h
    split at h
    · next call hc =>
      split_ifs at h with hst
      obtain rfl := Option.some.inj h
      exact ⟨.register hc hst, fun _ => rfl⟩
    · cases h
  | submit c =>
    simp only [World.step] at h
    split at h
    · next call hc =>
      split_ifs at h with hst
      obtain ⟨hmove, hlib⟩ := submit_callMove hc hst h
      exact ⟨hmove, fun _ => congrArg Link.readerAlive hlib⟩
    · cases h
  | finish c =>
    simp only [World.step] at h
    split at h
    · next call hc =>
      split_ifs at h with hst
      obtain ⟨hmove, hlib⟩ := finish_callMove hc hst h
      exact ⟨hmove, fun _ => congrArg Link.readerAlive hlib⟩
    · cases h
  | cancel c =>
    simp only [World.step] at h
    split at h
    · next call hc =>
      split_ifs at h with hl
      obtain rfl := Option.some.inj h
      exact ⟨.cancel hc hl, fun _ => rfl⟩
    · cases h
  | toProxy a =>
    obtain ⟨-, l, -, ⟨-, rfl⟩ | ⟨record, -, -, rfl⟩⟩ := step_toProxy h
    · exact ⟨.other (by simp) (by simp), fun _ => rfl⟩
    · obtain ⟨p, hp⟩ := proxyReceive_frame J record { w with toProxy := l }
      rw [hp]
      exact ⟨.other (by simp) (by simp), fun _ => rfl⟩
  | handle k =>
    simp only [World.step] at h
    split at h
    · obtain rfl := Option.some.inj h
      exact ⟨.other (by simp) (by simp), fun _ => rfl⟩
    · cases h
    · cases h
  | respond =>
    simp only [World.step] at h
    split at h
    · obtain ⟨hmove, halive⟩ := respond_callMove h
      exact ⟨hmove, fun _ => halive⟩
    · cases h
    · cases h
  | toLibrary a =>
    obtain ⟨hmove, halive⟩ := toLibrary_callMove h
    exact ⟨hmove, fun hne => halive fun ha => hne (congrArg _ ha)⟩

end World

end TapTunnel.Ipc
