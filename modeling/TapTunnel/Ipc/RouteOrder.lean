import TapTunnel.Ipc.Routes

namespace TapTunnel.Ipc

open Framework

/-- The call learned that the library's writer task is gone. -/
def Call.Refused (c : Call) : Prop := c.stage = .failed ⟨.brokenPipe, "IPC writer gone"⟩

namespace World

variable {J : Codec} {w w' : World} {a : Action}

theorem handled_of_not_handles (h : World.step J a w = some w') (ha : a.handles = false) :
    w'.handled = w.handled := by
  have hmove := step_bookMove h
  generalize w'.submitted = submitted, w'.proxy = proxy, w'.handled = handled,
    w'.answered = answered at hmove ⊢
  cases hmove with
  | handle => cases ha
  | submit | begin | respond | discard | other => rfl

/-- The text of the error tells a refused call from one whose response was lost. -/
theorem finish_not_refused {i c : Nat} {call c' : Call} (h : w.finish c call = some w')
    (hi : w'.calls[i]? = some c') (hr : c'.Refused) : w.calls[i]? = some c' := by
  unfold World.finish at h
  split at h
  · obtain rfl := Option.some.inj h
    rcases getElem?_set_cases hi with ⟨-, rfl⟩ | ⟨-, hi⟩
    · cases hr
    · exact hi
  · split_ifs at h
    obtain rfl := Option.some.inj h
    rcases getElem?_set_cases hi with ⟨-, rfl⟩ | ⟨-, hi⟩
    · simp [Call.Refused] at hr
    · exact hi

/-- A refused call was refused before, or is in this step, in which nothing is queued. -/
theorem step_refused (h : World.step J a w = some w') {i : Nat} {c : Call}
    (hi : w'.calls[i]? = some c) (hr : c.Refused) :
    w.calls[i]? = some c ∨ w'.submitted = w.submitted ∧
      ∃ c₀, w.calls[i]? = some c₀ ∧ c₀.stage = .registered ∧ c₀.command = c.command := by
  by_cases hsubmit : ∃ k, a = .submit k
  · obtain ⟨k, rfl⟩ := hsubmit
    simp only [World.step] at h
    split at h
    · next call hc =>
      split_ifs at h with hst
      unfold World.submit at h
      split at h
      · obtain rfl := Option.some.inj h
        rcases getElem?_set_cases hi with ⟨-, rfl⟩ | ⟨-, hi⟩
        · cases hr
        · exact .inl hi
      · split_ifs at h
        obtain rfl := Option.some.inj h
        rcases getElem?_set_cases hi with ⟨rfl, rfl⟩ | ⟨-, hi⟩
        · exact .inr ⟨rfl, call, hc, hst, rfl⟩
        · exact .inl hi
    · cases h
  by_cases hfinish : ∃ k, a = .finish k
  · obtain ⟨k, rfl⟩ := hfinish
    simp only [World.step] at h
    split at h
    · split_ifs at h
      exact .inl (finish_not_refused h hi hr)
    · cases h
  have hmove := (step_callMove h).1
  generalize w'.calls = calls, w'.pending = pending at hmove hi
  left
  cases hmove with
  | call cmd =>
    rcases getElem?_concat_cases hi with ⟨-, rfl⟩ | hi
    · cases hr
    · exact hi
  | register | cancel =>
    rcases getElem?_set_cases hi with ⟨-, rfl⟩ | ⟨-, hi⟩
    · cases hr
    · exact hi
  | submit | refuse => exact absurd ⟨_, rfl⟩ hsubmit
  | finish | lose => exact absurd ⟨_, rfl⟩ hfinish
  | take | other => exact hi
  | @deliver k c' call resp halive hp hc hl =>
    rcases getElem?_set_cases hi with ⟨-, rfl⟩ | ⟨-, hi⟩
    · have hstage : call.stage = .failed ⟨.brokenPipe, "IPC writer gone"⟩ := hr
      simp [Call.listens, hstage] at hl
    · exact hi

/-- No command of a refused call is queued. -/
def RefusedUnsent (w : World) : Prop :=
  ∀ (i : Nat) c, w.calls[i]? = some c → c.Refused → c.command ∉ w.submitted

theorem RefusedUnsent.step {mtu : UInt16} (hm : Matched J mtu w) (hw : w.RefusedUnsent)
    (h : World.step J a w = some w') : w'.RefusedUnsent := by
  intro i c hi hr
  rcases step_refused h hi hr with hold | ⟨hsame, c₀, hc₀, hst, hcmd⟩
  · have hno := hw i c hold hr
    have hmove := step_bookMove h
    generalize w'.submitted = submitted, w'.proxy = proxy, w'.handled = handled,
      w'.answered = answered at hmove ⊢
    cases hmove with
    | @submit k call hk hst =>
      intro hmem
      rcases List.mem_append.mp hmem with hmem | hmem
      · exact hno hmem
      · have heq := List.mem_singleton.mp hmem
        have hik := hm.callers.id_inj hold hk (by rw [heq])
        subst hik
        rw [hold] at hk
        obtain rfl := Option.some.inj hk
        have hstage : c.stage = _ := hr
        rw [hst] at hstage
        cases hstage
    | begin | handle | respond | discard | other => exact hno
  · rw [hsame]
    intro hmem
    obtain ⟨j, cj, hj, hcj, hsent⟩ := hm.callers.owners _ hmem
    have hij := hm.callers.id_inj hj hc₀ (by rw [hcj, hcmd])
    subst hij
    rw [hj] at hc₀
    obtain rfl := Option.some.inj hc₀
    exact hsent (.inr hst)

theorem refusedUnsent (hJ : J.RoundTrips) {mtu : UInt16}
    (h : ReachVia (World.step J) (StepFits J mtu) (World.init mtu) w) : w.RefusedUnsent := by
  apply h.invariant_with (World.step J) World.RefusedUnsent (Matched J mtu)
  · intro s hs
    exact matched_of_reachVia hJ hs
  · intro i c hi
    simp [World.init] at hi
  · intro s t a hm hw _ hs
    exact hw.step hm hs

/-- The books are only continued in the course of a run. -/
theorem handled_prefix_of_reachVia {ok : World → Action → Prop}
    (h : ReachVia (World.step J) ok w w') : w.handled <+: w'.handled := by
  induction h with
  | start => exact List.prefix_refl _
  | next _ _ hs ih => exact ih.trans (step_bookMove hs).grows.2

end World

/-- A call that is not among the calls of an earlier moment had queued nothing then. -/
theorem Matched.later_unsent {J : Codec} {mtu : UInt16} {w w' : World} (hm : Matched J mtu w)
    (hm' : Matched J mtu w') {j : Nat} {c : Call} (hlate : w.calls.length ≤ j)
    (hj : w'.calls[j]? = some c) : c.command ∉ w.submitted := by
  intro hmem
  obtain ⟨i, ci, hi, hcmd, -⟩ := hm.callers.owners _ hmem
  obtain ⟨hilt, -⟩ := List.getElem?_eq_some_iff.mp hi
  obtain ⟨hjlt, -⟩ := List.getElem?_eq_some_iff.mp hj
  have hid := hm.callers.ids i ci hi
  rw [hcmd, hm'.callers.ids j c hj] at hid
  have hnat := congrArg UInt64.toNat hid
  have hfew := hm'.callers.few
  simp only [UInt64.toNat_ofNat'] at hnat
  omega

/-- Everything that a step of the system can do. -/
inductive RouteMove {K E : Type} (J : Codec) (N : Netlink K E) (ifaceName : Bytes)
    (s : RouteSystem K E) : RouteAction E → RouteSystem K E → Prop
  | base {a : Action} {w : World} (hhandle : a.handles = false)
      (hw : World.step J a s.world = some w) :
      RouteMove J N ifaceName s (.base a) { s with world := w }
  | query (hlink : s.link = none) : RouteMove J N ifaceName s .query { s with
      link := some (getLinkIndex N ifaceName s.kernel)
      log := s.log ++ [.query] }
  | initial {destination : IpAddr} {prefixLen : UInt8} {rest : List (IpAddr × UInt8)}
      {link : Except Bytes UInt32} (hinitial : s.initial = (destination, prefixLen)::rest)
      (hlink : s.link = some link) : RouteMove J N ifaceName s .request { s with
      kernel := (addRoute N link destination prefixLen s.kernel).2
      initial := rest
      link := none
      log := s.log ++ [.initial destination prefixLen] }
  | carry {cmd : ProxyCommand} {w : World} (hinitial : s.initial = [])
      (hlink : cmd.needsLink = s.link.isSome) (hproxy : s.world.proxy = .handling cmd)
      (hw : World.step J (.handle (kernelAt N (s.link.getD (.error [])) s.kernel)) s.world =
        some w) :
      RouteMove J N ifaceName s .request { s with
        world := w
        kernel := (serve N (s.link.getD (.error [])) cmd s.kernel).2
        link := none
        log := s.log ++ [.carry cmd] }
  | other (e : E) : RouteMove J N ifaceName s (.other e) { s with
      kernel := N.other e s.kernel
      log := s.log ++ [.other e] }

namespace RouteSystem

variable {K E : Type} {J : Codec} {N : Netlink K E} {ifaceName : Bytes} {s t : RouteSystem K E}
  {a : RouteAction E}

theorem step_routeMove (h : RouteSystem.step J N ifaceName a s = some t) :
    RouteMove J N ifaceName s a t := by
  cases a with
  | base a =>
    simp only [RouteSystem.step] at h
    split_ifs at h with hc
    obtain ⟨w, hw, rfl⟩ := Option.map_eq_some_iff.mp h
    apply RouteMove.base _ hw
    simp at hc
    exact hc.1
  | query =>
    simp only [RouteSystem.step] at h
    split at h
    · split_ifs at h with hc
      obtain rfl := Option.some.inj h
      apply RouteMove.query
      simp at hc
      exact hc.2
    · cases h
  | request =>
    simp only [RouteSystem.step] at h
    split at h
    · next job hjob =>
      split_ifs at h with hlink
      unfold RouteSystem.job at hjob
      split at hjob
      · next destination prefixLen rest hinitial =>
        obtain rfl := Option.some.inj hjob
        obtain rfl := Option.some.inj h
        obtain ⟨link, hl⟩ := Option.isSome_iff_exists.mp hlink.symm
        have hmove : RouteMove J N ifaceName s .request _ := .initial hinitial hl
        rw [hl, hinitial]
        exact hmove
      · next hinitial =>
        split at hjob
        · next cmd hproxy =>
          obtain rfl := Option.some.inj hjob
          obtain ⟨w, hw, rfl⟩ := Option.map_eq_some_iff.mp h
          exact .carry hinitial hlink hproxy hw
        · cases hjob
        · cases hjob
    · cases h
  | other e =>
    obtain rfl := Option.some.inj h
    exact .other e

/-- The calls and links of the system run as they do on their own. -/
theorem world_reachVia {mtu : UInt16}
    (h : ReachVia (RouteSystem.step J N ifaceName) (RouteSystem.Fits J mtu) s t) :
    ReachVia (World.step J) (StepFits J mtu) s.world t.world := by
  apply h.simulate RouteSystem.world
  intro s t a ha hs
  cases step_routeMove hs with
  | base hhandle hw => exact .one _ ha hw
  | carry hinitial hlink hproxy hw => exact .one (.handle _) trivial hw
  | query | initial | other => exact .start

/-- The log is a run of one party that takes one command at a time. -/
def Replayed (N : Netlink K E) (ifaceName : Bytes) (k : K) (s : RouteSystem K E) : Prop :=
  runActions (RouteState.step N ifaceName) s.log ⟨k, none, []⟩ =
    some ⟨s.kernel, s.link, s.world.handled⟩

theorem Replayed.step {k : K} (hr : s.Replayed N ifaceName k) (h : RouteMove J N ifaceName s a t) :
    t.Replayed N ifaceName k := by
  unfold Replayed at hr ⊢
  cases h with
  | base hhandle hw =>
    rw [World.handled_of_not_handles hw hhandle]
    exact hr
  | query hlink =>
    rw [runActions_append _ hr]
    simp [runActions, RouteState.step, hlink]
  | initial hinitial hlink =>
    rw [runActions_append _ hr]
    simp [runActions, RouteState.step, hlink]
  | carry hinitial hlink hproxy hw =>
    rw [runActions_append _ hr]
    simp only [World.step, hproxy, Option.some.injEq] at hw
    subst hw
    simp [runActions, RouteState.step, hlink, serve]
  | other e =>
    rw [runActions_append _ hr]
    simp [runActions, RouteState.step]

end RouteSystem

/-- The routes of the command line are requested in their order, and all of them before the first
command. -/
structure InitialFirst {E : Type} (routes : List (IpAddr × UInt8)) (log : List (RouteEvent E))
    (initial : List (IpAddr × UInt8)) : Prop where
  all : log.filterMap RouteEvent.initialOf ++ initial = routes
  first : ∃ start rest, log = start ++ rest ∧ (∀ cmd, .carry cmd ∉ start) ∧
    rest.filterMap RouteEvent.initialOf = []
  before : initial ≠ [] → ∀ cmd, .carry cmd ∉ log

namespace InitialFirst

variable {E : Type} {routes initial : List (IpAddr × UInt8)} {log : List (RouteEvent E)}

theorem new (routes : List (IpAddr × UInt8)) :
    InitialFirst routes ([] : List (RouteEvent E)) routes where
  all := rfl
  first := ⟨[], [], rfl, by simp, rfl⟩
  before := by simp

theorem later (h : InitialFirst routes log initial) {e : RouteEvent E} (he : e.initialOf = none)
    (hcarry : initial ≠ [] → ∀ cmd, e ≠ .carry cmd) : InitialFirst routes (log ++ [e]) initial := by
  obtain ⟨start, rest, hlog, hstart, hrest⟩ := h.first
  refine ⟨?_, ⟨start, rest ++ [e], ?_, hstart, ?_⟩, ?_⟩
  · simpa [he] using h.all
  · rw [hlog, List.append_assoc]
  · simp [hrest, he]
  · intro hne cmd hmem
    rcases List.mem_append.mp hmem with hmem | hmem
    · exact h.before hne cmd hmem
    · exact hcarry hne cmd (List.mem_singleton.mp hmem).symm

theorem next {destination : IpAddr} {prefixLen : UInt8}
    (h : InitialFirst routes log ((destination, prefixLen)::initial)) :
    InitialFirst routes (log ++ [.initial destination prefixLen]) initial := by
  have hnone : ∀ cmd, .carry cmd ∉ log ++ [RouteEvent.initial destination prefixLen] := by
    intro cmd
    simpa using h.before (by simp) cmd
  refine ⟨?_, ⟨_, [], (List.append_nil _).symm, hnone, rfl⟩, fun _ => hnone⟩
  simpa [RouteEvent.initialOf] using h.all

end InitialFirst

namespace RouteSystem

variable {K E : Type} {J : Codec} {N : Netlink K E} {ifaceName : Bytes} {s t : RouteSystem K E}
  {a : RouteAction E}

theorem initialFirst_step {routes : List (IpAddr × UInt8)}
    (hs : InitialFirst routes s.log s.initial) (h : RouteMove J N ifaceName s a t) :
    InitialFirst routes t.log t.initial := by
  cases h with
  | base => exact hs
  | query => exact hs.later rfl (by simp)
  | other => exact hs.later rfl (by simp)
  | initial hinitial hlink =>
    rw [hinitial] at hs
    exact hs.next
  | carry hinitial =>
    apply hs.later rfl
    intro hne
    exact absurd hinitial hne

/-- What the calls of the route API come to at one moment: the commands were carried out one at a
time, in the order in which they were queued and each at most once, behind the routes of the
command line; and what a refused call asked for is not among them. -/
structure OneAtATime (N : Netlink K E) (ifaceName : Bytes) (routes : List (IpAddr × UInt8)) (k : K)
    (s : RouteSystem K E) : Prop where
  replayed : s.Replayed N ifaceName k
  initialFirst : InitialFirst routes s.log s.initial
  queued : s.world.handled.map Prod.fst <+: s.world.submitted
  once : (s.world.submitted.map ProxyCommand.id).Nodup
  refused : s.world.RefusedUnsent

/-- A call that had returned at the earlier moment was carried out by then, with the response it
returned, and one that started since then was not. -/
structure RealTime (s t : RouteSystem K E) : Prop where
  continued : s.world.handled <+: t.world.handled
  returned : ∀ (i : Nat) c resp, s.world.calls[i]? = some c → c.stage = .returned resp →
    (c.command, resp) ∈ s.world.handled
  started : ∀ (j : Nat) c, s.world.calls.length ≤ j → t.world.calls[j]? = some c →
    c.command ∉ s.world.handled.map Prod.fst

variable {mtu : UInt16} {routes : List (IpAddr × UInt8)} {k : K}

theorem oneAtATime (hJ : J.RoundTrips)
    (h : ReachVia (RouteSystem.step J N ifaceName) (RouteSystem.Fits J mtu)
      (RouteSystem.init routes k mtu) s) : s.OneAtATime N ifaceName routes k := by
  have hworld := world_reachVia h
  have hm := matched_of_reachVia hJ hworld
  have hlog : s.Replayed N ifaceName k ∧ InitialFirst routes s.log s.initial := by
    apply h.invariant (RouteSystem.step J N ifaceName)
      (fun s => s.Replayed N ifaceName k ∧ InitialFirst routes s.log s.initial)
    · exact ⟨rfl, .new routes⟩
    · intro s t a hs _ ht
      have hmove := step_routeMove ht
      exact ⟨hs.1.step hmove, initialFirst_step hs.2 hmove⟩
  have hqueued := (List.prefix_append _ _).trans (hm.taken_prefix hJ)
  exact ⟨hlog.1, hlog.2, hqueued, hm.callers.once, World.refusedUnsent hJ hworld⟩

theorem realTime (hJ : J.RoundTrips)
    (h : ReachVia (RouteSystem.step J N ifaceName) (RouteSystem.Fits J mtu)
      (RouteSystem.init routes k mtu) s)
    (h' : ReachVia (RouteSystem.step J N ifaceName) (RouteSystem.Fits J mtu) s t) :
    RealTime s t := by
  have hm := matched_of_reachVia hJ (world_reachVia h)
  have hm' := matched_of_reachVia hJ (world_reachVia (h.trans h'))
  refine ⟨World.handled_prefix_of_reachVia (world_reachVia h'), ?_, ?_⟩
  · intro i c resp hi hst
    exact (hm.responsesOwn hJ i c resp hi (.inr hst)).1
  · intro j c hlate hj hmem
    have hqueued := (List.prefix_append _ _).trans (hm.taken_prefix hJ)
    exact hm.later_unsent hm' hlate hj (hqueued.subset hmem)

end RouteSystem

/-- The route API is linearizable: concurrent calls come to one call after the other, in an order
that agrees with the order in which calls return and start. -/
theorem routes_linearizable {K E : Type} (J : Codec) (hJ : J.RoundTrips) (N : Netlink K E)
    (ifaceName : Bytes) (routes : List (IpAddr × UInt8)) (k : K) (mtu : UInt16)
    (s t : RouteSystem K E)
    (h : ReachVia (RouteSystem.step J N ifaceName) (RouteSystem.Fits J mtu)
      (RouteSystem.init routes k mtu) s)
    (h' : ReachVia (RouteSystem.step J N ifaceName) (RouteSystem.Fits J mtu) s t) :
    t.OneAtATime N ifaceName routes k ∧ RouteSystem.RealTime s t :=
  ⟨RouteSystem.oneAtATime hJ (h.trans h'), RouteSystem.realTime hJ h h'⟩

instance RouteSystem.decidableFits {K E : Type} (J : Codec) (mtu : UInt16) (s : RouteSystem K E)
    (a : RouteAction E) : Decidable (RouteSystem.Fits J mtu s a) := by
  cases a <;> unfold RouteSystem.Fits <;> infer_instance

/-- A system with one link and a table of routes, which others may flush. -/
def tableNetlink : Netlink (List RouteMessage) Unit where
  link _ _ := .ok (some 7)
  add r k := if r ∈ k then (.error (ascii "File exists (os error 17)"), k) else (.ok (), k ++ [r])
  del r k :=
    if r ∈ k then (.ok (), k.erase r) else (.error (ascii "No such process (os error 3)"), k)
  procNetDev _ := .ok []
  other _ _ := []

/-- The proxy carries out the command of `m` bytes that has been sent to it, and its response of
`n` bytes comes back to call `c`. -/
def carryRun (c m n : Nat) : List (RouteAction Unit) :=
  .flatten [[.base (.toProxy (.read 4)), .base (.toProxy (.read m)), .query, .request,
      .base .respond],
    passControl.map (fun a => .base (.toLibrary (.send a))),
    [.base (.toLibrary (.read 4)), .base (.toLibrary (.read n)), .base (.finish c)]]

def passRun : List (RouteAction Unit) := passControl.map (fun a => .base (.toProxy (.send a)))

def callRun (c : Nat) (cmd : ProxyCommand) : List (RouteAction Unit) :=
  [.base (.call cmd), .base (.register c), .base (.submit c)]

/-- The proxy was started with `10.0.0.0/8`. Two calls ask for it again at the same time, and the
first has returned when a third one asks to remove it. -/
theorem routes_linearizable_tableNetlink : ∃ s t : RouteSystem (List RouteMessage) Unit,
    (s.world.calls.map Call.stage = [.returned (.error 1
      (ascii "failed to add route: File exists (os error 17)")), .waiting] ∧
    t.world.handled.map Prod.fst = [.addRoute 1 (.v4 0x0a000000) 8,
      .addRoute 2 (.v4 0x0a000000) 8, .removeRoute 3 (.v4 0x0a000000) 8] ∧ t.kernel = []) ∧
    t.OneAtATime tableNetlink (ascii "tap0") [(.v4 0x0a000000, 8)] [] ∧
      RouteSystem.RealTime s t := by
  obtain ⟨s, t, hs, ht, hp⟩ := reachVia_of_runs
    (RouteSystem.step compactJson tableNetlink (ascii "tap0")) (RouteSystem.Fits compactJson 1500)
    (.flatten [[.query, .request], callRun 0 (.addRoute 0 (.v4 0x0a000000) 8), passRun,
      callRun 1 (.addRoute 0 (.v4 0x0a000000) 8), carryRun 0 66 83])
    (.flatten [passRun, callRun 2 (.removeRoute 0 (.v4 0x0a000000) 8), carryRun 1 66 83, passRun,
      carryRun 2 69 23])
    (RouteSystem.init [(.v4 0x0a000000, 8)] [] 1500)
    (fun s t => decide (s.world.calls.map Call.stage = [.returned (.error 1
      (ascii "failed to add route: File exists (os error 17)")), .waiting] ∧
    t.world.handled.map Prod.fst = [.addRoute 1 (.v4 0x0a000000) 8,
      .addRoute 2 (.v4 0x0a000000) 8, .removeRoute 3 (.v4 0x0a000000) 8] ∧ t.kernel = []))
    (by decide +kernel)
  exact ⟨s, t, of_decide_eq_true hp, routes_linearizable compactJson compactJson_roundTrips
    tableNetlink (ascii "tap0") [(.v4 0x0a000000, 8)] [] 1500 s t hs ht⟩

end TapTunnel.Ipc
