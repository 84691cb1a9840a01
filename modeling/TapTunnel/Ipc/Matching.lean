import TapTunnel.Ipc.Callers
import TapTunnel.Ipc.Controls

namespace TapTunnel.Ipc

open Framework

/-- The command that task 3 is carrying out. -/
def ProxyTask.inHand : ProxyTask → List ProxyCommand
  | .handling cmd => [cmd]
  | .reading | .responding _ => []

/-- The response that task 3 has not queued yet. -/
def ProxyTask.toQueue : ProxyTask → List ProxyResponse
  | .responding resp => [resp]
  | .reading | .handling _ => []

/-- The histories agree with what the links carry, and each is a part of the one before it. -/
structure BooksAt (J : Codec) (upOffered upControls downOffered downControls : List Bytes)
    (submitted : List ProxyCommand) (proxy : ProxyTask)
    (handled : List (ProxyCommand × ProxyResponse)) (answered seen : List ProxyResponse)
    (deliveries : List (Nat × ProxyResponse)) : Prop where
  offeredUp : upOffered = submitted.map J.command.toVec
  carriedUp : upControls = (handled.map Prod.fst ++ proxy.inHand).map J.command.toVec
  offeredDown : downOffered = answered.map J.response.toVec
  carriedDown : downControls = seen.map J.response.toVec
  computed : ∀ p ∈ handled, ∃ k, p.2 = handleProxyCommand k p.1
  responses : (answered ++ proxy.toQueue).Sublist (handled.map Prod.snd)
  delivered : (deliveries.map Prod.snd).Sublist seen

theorem BooksAt.new (J : Codec) : BooksAt J [] [] [] [] [] .reading [] [] [] [] := by
  constructor <;> simp [ProxyTask.inHand, ProxyTask.toQueue]

/-- Everything that holds of the callers, the two links and the proxy while the messages fit. -/
structure Matched (J : Codec) (mtu : UInt16) (w : World) : Prop where
  up : Fitting ipcForm relayFit (List.replicate (maxFrameSize mtu+16) 0)
    (· = maxFrameSize mtu+16) w.toProxy
  down : Fitting relayForm ipcFit (List.replicate 2048 0) (fun _ => True) w.toLibrary
  books : BooksAt J w.toProxy.sender.offeredControls w.toProxy.controls
    w.toLibrary.sender.offeredControls w.toLibrary.controls w.submitted w.proxy w.handled
    w.answered w.seen w.deliveries
  callers : CallersAt w.calls w.nextRequestId w.pending w.submitted w.seen w.deliveries

theorem handleProxyCommand_id (k : Kernel) (cmd : ProxyCommand) :
    (handleProxyCommand k cmd).id = cmd.id := by
  cases cmd with
  | addRoute id d p =>
    simp only [handleProxyCommand]
    cases k.addRoute d p <;> rfl
  | removeRoute id d p =>
    simp only [handleProxyCommand]
    cases k.removeRoute d p <;> rfl
  | getIfaceStats id =>
    simp only [handleProxyCommand]
    cases k.procNetDev <;> rfl

/-- The response to a command is one that its caller expects. -/
theorem handleProxyCommand_expected (k : Kernel) (cmd : ProxyCommand) :
    cmd.result (handleProxyCommand k cmd) ≠ .unexpected := by
  cases cmd with
  | addRoute id d p =>
    simp only [handleProxyCommand]
    cases k.addRoute d p <;> simp [ProxyCommand.result, routeResult]
  | removeRoute id d p =>
    simp only [handleProxyCommand]
    cases k.removeRoute d p <;> simp [ProxyCommand.result, routeResult]
  | getIfaceStats id =>
    simp only [handleProxyCommand]
    cases k.procNetDev <;> simp [ProxyCommand.result, getIfaceStatsResult]

theorem Serde.prefix_of_map {T : Type} {J : Serde T} (hJ : J.RoundTrips) {as bs : List T}
    (h : as.map J.toVec <+: bs.map J.toVec) : as <+: bs := by
  have hback : ∀ xs : List T,
      (xs.map J.toVec).filterMap (fun b => (J.fromSlice b).toOption) = xs := by
    intro xs
    have hf : (fun b => (J.fromSlice b).toOption) ∘ J.toVec = some := by
      funext x
      simp [hJ x, Except.toOption]
    rw [List.filterMap_map, hf, List.filterMap_some]
  have h' := h.filterMap fun b => (J.fromSlice b).toOption
  rwa [hback, hback] at h'

namespace Matched

variable {J : Codec} {mtu : UInt16} {w : World}

/-- The proxy takes the commands in the order in which they were queued. -/
theorem taken_prefix (hJ : J.RoundTrips) (h : Matched J mtu w) :
    w.handled.map Prod.fst ++ w.proxy.inHand <+: w.submitted := by
  have hp := h.up.controls_prefix relayFit_fits
  rw [h.books.carriedUp, h.books.offeredUp] at hp
  exact Serde.prefix_of_map hJ.command hp

/-- What the library has seen are responses of the proxy, each at most once. -/
theorem seen_sublist (hJ : J.RoundTrips) (h : Matched J mtu w) :
    w.seen.Sublist (w.handled.map Prod.snd) := by
  have hp := h.down.controls_prefix ipcFit_fits
  rw [h.books.carriedDown, h.books.offeredDown] at hp
  have hs := (Serde.prefix_of_map hJ.response hp).sublist
  exact (hs.trans (List.sublist_append_left _ _)).trans h.books.responses

theorem handled_id (h : Matched J mtu w) : ∀ p ∈ w.handled, p.2.id = p.1.id := by
  intro p hp
  obtain ⟨k, hk⟩ := h.books.computed p hp
  rw [hk, handleProxyCommand_id]

theorem handled_submitted (hJ : J.RoundTrips) (h : Matched J mtu w) :
    ∀ p ∈ w.handled, p.1 ∈ w.submitted := by
  intro p hp
  refine (h.taken_prefix hJ).subset (List.mem_append_left _ ?_)
  exact List.mem_map_of_mem hp

theorem seen_submitted (hJ : J.RoundTrips) (h : Matched J mtu w) :
    ∀ r ∈ w.seen, ∃ cmd ∈ w.submitted, cmd.id = r.id := by
  intro r hr
  obtain ⟨p, hp, rfl⟩ := List.mem_map.mp ((h.seen_sublist hJ).subset hr)
  exact ⟨p.1, h.handled_submitted hJ p hp, (h.handled_id p hp).symm⟩

/-- No two responses have the same id. -/
theorem handled_ids_nodup (hJ : J.RoundTrips) (h : Matched J mtu w) :
    (w.handled.map fun p => p.2.id).Nodup := by
  have hsub := ((List.prefix_append _ _).trans (h.taken_prefix hJ)).sublist.map ProxyCommand.id
  have hnd := h.callers.once.sublist hsub
  rw [List.map_map] at hnd
  rwa [List.map_congr_left fun p hp => h.handled_id p hp]

end Matched

theorem Link.controls_same {l l' : Link} (h : l'.records = l.records) : l'.controls = l.controls :=
  congrArg (List.filterMap controlOf) h

theorem Link.controls_concat {l l' : Link} {record : Bytes}
    (h : l'.records = l.records ++ [record]) :
    l'.controls = l.controls ++ (controlOf record).toList := by
  rw [Link.controls, h, List.filterMap_append]
  cases hc : controlOf record <;> simp [hc, Link.controls]

section Receive

variable {J : Codec} {record p : Bytes} (w : World)

theorem proxyReceive_none (h : controlOf record = none) : w.proxyReceive J record = w := by
  unfold controlOf at h
  unfold World.proxyReceive
  split <;> simp_all [Message.control?]

theorem proxyReceive_some {cmd : ProxyCommand} (h : controlOf record = some p)
    (hd : decodeControl J.command p = .ok cmd) :
    w.proxyReceive J record = { w with proxy := .handling cmd } := by
  unfold controlOf at h
  unfold World.proxyReceive
  split <;> simp_all [Message.control?]

theorem libraryReceive_none (h : controlOf record = none) : w.libraryReceive J record = w := by
  unfold controlOf at h
  unfold World.libraryReceive
  split <;> simp_all [Message.control?]

theorem libraryReceive_some {resp : ProxyResponse} (h : controlOf record = some p)
    (hd : decodeControl J.response p = .ok resp) :
    w.libraryReceive J record = w.takeResponse resp := by
  unfold controlOf at h
  unfold World.libraryReceive
  split <;> simp_all [Message.control?]

end Receive

namespace World

variable {J : Codec} {w w' : World} {a : LinkAction}

theorem step_toProxy (h : World.step J (.toProxy a) w = some w') :
    a.free = true ∧ ∃ l, toProxyStep a w.toProxy = some l ∧
      ((l.records = w.toProxy.records ∧ w' = { w with toProxy := l }) ∨
        ∃ record, l.records = w.toProxy.records ++ [record] ∧ w.proxy = .reading ∧
          w' = { w with toProxy := l }.proxyReceive J record) := by
  simp only [World.step] at h
  split_ifs at h with hg
  simp only [Bool.and_eq_true, Bool.or_eq_true, beq_iff_eq, Bool.not_eq_true'] at hg
  obtain ⟨l, hl, rfl⟩ := Option.map_eq_some_iff.mp h
  refine ⟨hg.1, l, hl, ?_⟩
  obtain ⟨o, ho, hreads⟩ := Link.step_records hl
  cases o with
  | none =>
    rw [Option.toList_none, List.append_nil] at ho
    exact .inl ⟨ho, by simp [ho]⟩
  | some record =>
    refine .inr ⟨record, ho, ?_, by simp [ho]⟩
    obtain hp | hr := hg.2
    · exact hp
    · cases hreads hr

theorem step_toLibrary (h : World.step J (.toLibrary a) w = some w') :
    a.free = true ∧ ∃ l, toLibraryStep a w.toLibrary = some l ∧
      ((l.records = w.toLibrary.records ∧ w' = { w with toLibrary := l }) ∨
        ∃ record, l.records = w.toLibrary.records ++ [record] ∧
          w' = { w with toLibrary := l }.libraryReceive J record) := by
  simp only [World.step] at h
  split_ifs at h with hg
  obtain ⟨l, hl, rfl⟩ := Option.map_eq_some_iff.mp h
  refine ⟨hg, l, hl, ?_⟩
  obtain ⟨o, ho, -⟩ := Link.step_records hl
  cases o with
  | none =>
    rw [Option.toList_none, List.append_nil] at ho
    exact .inl ⟨ho, by simp [ho]⟩
  | some record => exact .inr ⟨record, ho, by simp [ho]⟩

end World

/-- A frame that the action offers has at most `n` bytes when encoded. -/
def LinkAction.FrameWithin (n : Nat) : LinkAction → Prop
  | .send (.offerFrame f) => (encodeFrame f).length ≤ n
  | _ => True

/-- The step has no I/O error, what it puts into a link is within what the reader at the other
end takes in, and it is not the call of number `2^64`. -/
def StepFits (J : Codec) (mtu : UInt16) (w : World) : Action → Prop
  | .call _ => w.calls.length+1 < 2^64
  | .submit c => ∀ call ∈ w.calls[c]?,
      (encodeControl J.command call.command).length ≤ maxFrameSize mtu+16
  | .toProxy a => a.NoError ∧ a.FrameWithin (maxFrameSize mtu+16)
  | .respond => ∀ resp ∈ w.proxy.toQueue, (encodeControl J.response resp).length < 2^32
  | .toLibrary a => a.NoError ∧ a.FrameWithin (2^32-1)
  | .register _ | .finish _ | .cancel _ | .handle _ => True

theorem toProxy_fits {mtu : UInt16} {a : LinkAction} (hfree : a.free = true)
    (hf : a.FrameWithin (maxFrameSize mtu+16)) : a.Fits relayFit (· = maxFrameSize mtu+16) := by
  cases a with
  | send a =>
    cases a with
    | offerFrame f => exact relayFit_admits (m := .frame f) hf
    | offerControl p => cases hfree
    | _ => trivial
  | _ => trivial

theorem toLibrary_fits {a : LinkAction} (hfree : a.free = true) (hf : a.FrameWithin (2^32-1)) :
    a.Fits ipcFit (fun _ => True) := by
  cases a with
  | send a =>
    cases a with
    | offerFrame f => exact ipcFit_admits (Nat.lt_of_le_pred (by decide) hf)
    | offerControl p => cases hfree
    | _ => trivial
  | _ => trivial

namespace Matched

variable {J : Codec} {mtu : UInt16} {w w' : World} {a : LinkAction}

/-- The next control message the proxy decodes is the next command that was queued. -/
theorem toProxy (hJ : J.RoundTrips) (h : Matched J mtu w) (ha : a.NoError)
    (hf : a.FrameWithin (maxFrameSize mtu+16)) (hs : World.step J (.toProxy a) w = some w') :
    Matched J mtu w' := by
  obtain ⟨hfree, l, hl, hcase⟩ := World.step_toProxy hs
  have hup := h.up.step (fun _ _ _ => ipcWriter_step) relayFit_fits ha (toProxy_fits hfree hf) hl
  have hoff := (Link.step_offeredControls (fun _ _ _ => ipcWriter_step) ha hfree hl).trans
    h.books.offeredUp
  obtain ⟨hrec, rfl⟩ | ⟨record, hrec, hread, rfl⟩ := hcase
  · exact ⟨hup, h.down, { h.books with
      offeredUp := hoff
      carriedUp := (Link.controls_same hrec).trans h.books.carriedUp }, h.callers⟩
  · have hcon := Link.controls_concat hrec
    cases hc : controlOf record with
    | none =>
      rw [proxyReceive_none _ hc]
      rw [hc, Option.toList_none, List.append_nil] at hcon
      exact ⟨hup, h.down, { h.books with
        offeredUp := hoff, carriedUp := hcon.trans h.books.carriedUp }, h.callers⟩
    | some p =>
      have hmem : p ∈ w.submitted.map J.command.toVec := by
        rw [← hoff]
        refine (hup.controls_prefix relayFit_fits).subset ?_
        simp [hcon, hc]
      obtain ⟨cmd, -, rfl⟩ := List.mem_map.mp hmem
      rw [proxyReceive_some _ hc (decodeControl_toVec hJ.command cmd)]
      have hcar := h.books.carriedUp
      have hres := h.books.responses
      rw [hread] at hcar hres
      refine ⟨hup, h.down, { h.books with
        offeredUp := hoff, carriedUp := ?_, responses := hres }, h.callers⟩
      change l.controls = _
      rw [hcon, hc, hcar]
      simp [ProxyTask.inHand]

/-- The library's reader takes in a response of the proxy. -/
theorem takeResponse (h : Matched J mtu w) {l : Link} {resp : ProxyResponse}
    (hdown : Fitting relayForm ipcFit (List.replicate 2048 0) (fun _ => True) l)
    (hoff : l.sender.offeredControls = w.answered.map J.response.toVec)
    (hcar : l.controls = (w.seen ++ [resp]).map J.response.toVec) :
    Matched J mtu ({ w with toLibrary := l }.takeResponse resp) := by
  have hsee : ∀ ds : List (Nat × ProxyResponse), (ds.map Prod.snd).Sublist (w.seen ++ [resp]) →
      BooksAt J w.toProxy.sender.offeredControls w.toProxy.controls l.sender.offeredControls
        l.controls w.submitted w.proxy w.handled w.answered (w.seen ++ [resp]) ds :=
    fun ds hds => { h.books with offeredDown := hoff, carriedDown := hcar, delivered := hds }
  have hkeep := h.books.delivered.trans (List.sublist_append_left _ [resp])
  have hdrop : (∀ (i : Nat) (c : Call), w.calls[i]? = some c → c.command.id = resp.id →
      ¬c.Awaits) → Matched J mtu { w with
        toLibrary := l, pending := w.pending.erase resp.id, seen := w.seen ++ [resp] } :=
    fun hno => ⟨h.up, hdown, hsee _ hkeep, h.callers.see hno⟩
  unfold World.takeResponse
  cases hp : w.pending.lookup resp.id with
  | none =>
    refine hdrop fun i c hi hid hawait => ?_
    have := h.callers.awaited i c hi hawait
    rw [hid, hp] at this
    cases this
  | some i =>
    obtain ⟨c, hi, -⟩ := h.callers.entries _ _ hp
    simp only [World.deliver, hi]
    split_ifs with hlis
    · refine ⟨h.up, hdown, hsee _ ?_, h.callers.deliver hp hi hlis⟩
      rw [List.map_append]
      exact h.books.delivered.append (List.Sublist.refl _)
    · refine hdrop fun j cj hj hid hawait => ?_
      have := h.callers.awaited j cj hj hawait
      rw [hid, hp] at this
      obtain rfl := Option.some.inj this
      obtain rfl : c = cj := Option.some.inj (hi.symm.trans hj)
      exact hlis hawait.1

theorem toLibrary (hJ : J.RoundTrips) (h : Matched J mtu w) (ha : a.NoError)
    (hf : a.FrameWithin (2^32-1)) (hs : World.step J (.toLibrary a) w = some w') :
    Matched J mtu w' := by
  obtain ⟨hfree, l, hl, hcase⟩ := World.step_toLibrary hs
  have hdown := h.down.step (fun _ _ _ => relayWriter_step) ipcFit_fits ha
    (toLibrary_fits hfree hf) hl
  have hoff := (Link.step_offeredControls (fun _ _ _ => relayWriter_step) ha hfree hl).trans
    h.books.offeredDown
  obtain ⟨hrec, rfl⟩ | ⟨record, hrec, rfl⟩ := hcase
  · exact ⟨h.up, hdown, { h.books with
      offeredDown := hoff
      carriedDown := (Link.controls_same hrec).trans h.books.carriedDown }, h.callers⟩
  · have hcon := Link.controls_concat hrec
    cases hc : controlOf record with
    | none =>
      rw [libraryReceive_none _ hc]
      rw [hc, Option.toList_none, List.append_nil] at hcon
      exact ⟨h.up, hdown, { h.books with
        offeredDown := hoff, carriedDown := hcon.trans h.books.carriedDown }, h.callers⟩
    | some p =>
      have hmem : p ∈ w.answered.map J.response.toVec := by
        rw [← hoff]
        refine (hdown.controls_prefix ipcFit_fits).subset ?_
        simp [hcon, hc]
      obtain ⟨resp, -, rfl⟩ := List.mem_map.mp hmem
      rw [libraryReceive_some _ hc (decodeControl_toVec hJ.response resp)]
      refine h.takeResponse hdown hoff ?_
      rw [hcon, hc, h.books.carriedDown]
      simp

theorem submit (h : Matched J mtu w) {i : Nat} {c : Call}
    (hi : w.calls[i]? = some c) (hst : c.stage = .registered)
    (hlen : (encodeControl J.command c.command).length ≤ maxFrameSize mtu+16)
    (hs : w.submit J i c = some w') : Matched J mtu w' := by
  unfold World.submit at hs
  split at hs
  · next l hl =>
    obtain rfl := Option.some.inj hs
    have hadm := relayFit_admits (m := .control (J.command.toVec c.command)) hlen
    have hup := h.up.step (fun _ _ _ => ipcWriter_step) relayFit_fits
      (a := .send (.offerControl _)) trivial hadm hl
    obtain ⟨s, hsend, rfl⟩ := Option.map_eq_some_iff.mp hl
    obtain ⟨-, hne⟩ | ⟨p, ⟨⟩, hoff⟩ := (ipcWriter_step (a := .offerControl _) trivial
      hsend).offeredControls
    · exact absurd rfl (hne _)
    · refine ⟨hup, h.down, { h.books with offeredUp := ?_ }, h.callers.submit hi hst⟩
      change s.offeredControls = _
      rw [hoff, h.books.offeredUp, List.map_append]
      rfl
  · split_ifs at hs
    obtain rfl := Option.some.inj hs
    exact ⟨h.up, h.down, h.books, h.callers.setStage hi _ (by simp) nofun nofun⟩

theorem finish (h : Matched J mtu w) {i : Nat} {c : Call} (hi : w.calls[i]? = some c)
    (hs : w.finish i c = some w') : Matched J mtu w' := by
  unfold World.finish at hs
  split at hs
  · next resp hresp =>
    obtain rfl := Option.some.inj hs
    refine ⟨h.up, h.down, h.books, h.callers.setStage hi _ (by simp) ?_ nofun⟩
    rintro r ⟨⟩
    exact hresp
  · split_ifs at hs
    obtain rfl := Option.some.inj hs
    exact ⟨h.up, h.down, h.books, h.callers.setStage hi _ (by simp) nofun nofun⟩

theorem handle (h : Matched J mtu w) {cmd : ProxyCommand} (hp : w.proxy = .handling cmd)
    (k : Kernel) : Matched J mtu { w with
      proxy := .responding (handleProxyCommand k cmd)
      handled := w.handled ++ [(cmd, handleProxyCommand k cmd)] } := by
  have hcar := h.books.carriedUp
  have hres := h.books.responses
  rw [hp] at hcar hres
  refine ⟨h.up, h.down, { h.books with carriedUp := ?_, computed := ?_, responses := ?_ },
    h.callers⟩
  · simpa [ProxyTask.inHand] using hcar
  · intro p hmem
    obtain hmem | hmem := List.mem_append.mp hmem
    · exact h.books.computed p hmem
    · obtain rfl := List.mem_singleton.mp hmem
      exact ⟨k, rfl⟩
  · simp only [ProxyTask.toQueue, List.append_nil] at hres
    rw [List.map_append]
    exact hres.append (List.Sublist.refl _)

theorem respond (h : Matched J mtu w) {resp : ProxyResponse} (hp : w.proxy = .responding resp)
    (hlen : (encodeControl J.response resp).length < 2^32) (hs : w.respond J resp = some w') :
    Matched J mtu w' := by
  have hcar := h.books.carriedUp
  have hres := h.books.responses
  rw [hp] at hcar hres
  unfold World.respond at hs
  split at hs
  · next l hl =>
    obtain rfl := Option.some.inj hs
    have hdown := h.down.step (fun _ _ _ => relayWriter_step) ipcFit_fits
      (a := .send (.offerControl _)) trivial (ipcFit_admits hlen) hl
    obtain ⟨s, hsend, rfl⟩ := Option.map_eq_some_iff.mp hl
    obtain ⟨-, hne⟩ | ⟨p, ⟨⟩, hoff⟩ := (relayWriter_step (a := .offerControl _) trivial
      hsend).offeredControls
    · exact absurd rfl (hne _)
    · refine ⟨h.up, hdown, { h.books with
        carriedUp := hcar, offeredDown := ?_, responses := ?_ }, h.callers⟩
      · change s.offeredControls = _
        rw [hoff, h.books.offeredDown, List.map_append]
        rfl
      · simpa [ProxyTask.toQueue] using hres
  · split_ifs at hs
    obtain rfl := Option.some.inj hs
    refine ⟨h.up, h.down, { h.books with carriedUp := hcar, responses := ?_ }, h.callers⟩
    simpa [ProxyTask.toQueue] using (List.sublist_append_left _ _).trans hres

/-- The step lemma. -/
theorem step (hJ : J.RoundTrips) (h : Matched J mtu w) {act : Action}
    (hfits : StepFits J mtu w act) (hs : World.step J act w = some w') :
    Matched J mtu w' := by
  cases act with
  | call cmd =>
    obtain rfl := Option.some.inj hs
    exact ⟨h.up, h.down, h.books, h.callers.call cmd hfits⟩
  | register i =>
    simp only [World.step] at hs
    split at hs
    · next c hi =>
      split_ifs at hs with hst
      obtain rfl := Option.some.inj hs
      exact ⟨h.up, h.down, h.books, h.callers.register hi hst (h.seen_submitted hJ)⟩
    · cases hs
  | submit i =>
    simp only [World.step] at hs
    split at hs
    · next c hi =>
      split_ifs at hs with hst
      exact h.submit hi hst (hfits c hi) hs
    · cases hs
  | finish i =>
    simp only [World.step] at hs
    split at hs
    · next c hi =>
      split_ifs at hs
      exact h.finish hi hs
    · cases hs
  | cancel i =>
    simp only [World.step] at hs
    split at hs
    · next c hi =>
      split_ifs at hs
      obtain rfl := Option.some.inj hs
      exact ⟨h.up, h.down, h.books, h.callers.setStage hi _ (by simp) nofun nofun⟩
    · cases hs
  | toProxy a => exact h.toProxy hJ hfits.1 hfits.2 hs
  | handle k =>
    simp only [World.step] at hs
    split at hs
    · next cmd hp =>
      obtain rfl := Option.some.inj hs
      exact h.handle hp k
    · cases hs
    · cases hs
  | respond =>
    simp only [World.step] at hs
    split at hs
    · next resp hp =>
      exact h.respond hp (hfits resp (by simp [hp, ProxyTask.toQueue])) hs
    · cases hs
    · cases hs
  | toLibrary a => exact h.toLibrary hJ hfits.1 hfits.2 hs

end Matched

end TapTunnel.Ipc
