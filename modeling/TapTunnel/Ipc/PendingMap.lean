import TapTunnel.Ipc.CallMoves
import TapTunnel.Ipc.Json

namespace TapTunnel.Ipc

open Framework

/-- The call has neither returned nor been dropped. -/
def Call.inProgress (c : Call) : Bool := c.stage == .numbered || c.listens

namespace World

/-- Every entry of `pending_proxy_responses` belongs to a call that is still in progress. -/
def EntriesInProgress (w : World) : Prop :=
  ∀ id c, w.pending.lookup id = some c → ∃ call, w.calls[c]? = some call ∧ call.inProgress = true

/-- The action ends the call `c` before a response arrives: its future is dropped, or the control
channel is closed. -/
def Abandons (w : World) : Action → Nat → Prop
  | .cancel c, c' => c = c'
  | .submit c, c' => c = c' ∧ w.toProxy.sender.control.rxAlive = false
  | _, _ => False

/-- The sender of the call `c` is in the map. -/
def HasEntry (w : World) (c : Nat) : Prop := ∃ id, w.pending.lookup id = some c

end World

/-- An entry stands under the id of its call, which has registered it and has no response; a call
that has not registered has none either. -/
structure EntriesAt (calls : List Call) (pending : Table UInt64 Nat) : Prop where
  owner : ∀ id c, pending.lookup id = some c → ∃ call, calls[c]? = some call ∧
    call.command.id = id ∧ call.stage ≠ .numbered ∧ call.inbox = none
  fresh : ∀ (c : Nat) (call : Call), calls[c]? = some call → call.stage = .numbered →
    call.inbox = none

namespace EntriesAt

variable {calls : List Call} {pending : Table UInt64 Nat} {c : Nat} {call : Call}

theorem new : EntriesAt [] ∅ := ⟨by simp, by simp⟩

theorem setStage (h : EntriesAt calls pending) (hc : calls[c]? = some call) {st : CallStage}
    (hst : st ≠ .numbered) : EntriesAt (calls.set c { call with stage := st }) pending := by
  obtain ⟨hlt, -⟩ := List.getElem?_eq_some_iff.mp hc
  constructor
  · intro id c' hp
    obtain ⟨call', hc', hid, hst', hin⟩ := h.owner id c' hp
    by_cases hcc : c = c'
    · subst hcc
      obtain rfl : call = call' := Option.some.inj (hc.symm.trans hc')
      exact ⟨_, List.getElem?_set_self hlt, hid, hst, hin⟩
    · exact ⟨call', by rw [List.getElem?_set_ne hcc]; exact hc', hid, hst', hin⟩
  · intro c' call' hc' hnum
    obtain ⟨-, rfl⟩ | ⟨-, hc'⟩ := getElem?_set_cases hc'
    · exact absurd hnum hst
    · exact h.fresh c' call' hc' hnum

theorem erase (h : EntriesAt calls pending) (id : UInt64) : EntriesAt calls (pending.erase id) :=
  ⟨fun id' c hp => h.owner id' c (Table.erase_cases hp).2, h.fresh⟩

theorem deliver (h : EntriesAt calls pending) {resp : ProxyResponse}
    (hp : pending.lookup resp.id = some c) (hl : call.listens = true) :
    EntriesAt (calls.set c { call with inbox := some resp }) (pending.erase resp.id) := by
  constructor
  · intro id c' hp'
    obtain ⟨hne, hp'⟩ := Table.erase_cases hp'
    obtain ⟨call', hc', hid, hrest⟩ := h.owner id c' hp'
    refine ⟨call', ?_, hid, hrest⟩
    by_cases hcc : c = c'
    · -- both entries would stand under the id of the call
      subst hcc
      obtain ⟨call'', hc'', hid', -⟩ := h.owner _ _ hp
      obtain rfl : call' = call'' := Option.some.inj (hc'.symm.trans hc'')
      exact absurd (hid.symm.trans hid') hne
    · rw [List.getElem?_set_ne hcc]
      exact hc'
  · intro c' call' hc' hnum
    obtain ⟨-, rfl⟩ | ⟨-, hc'⟩ := getElem?_set_cases hc'
    · simp [Call.listens, show call.stage = .numbered from hnum] at hl
    · exact h.fresh c' call' hc' hnum

theorem register (h : EntriesAt calls pending) (hc : calls[c]? = some call)
    (hst : call.stage = .numbered) :
    EntriesAt (calls.set c { call with stage := .registered })
      (pending.insert call.command.id c) := by
  obtain ⟨hlt, -⟩ := List.getElem?_eq_some_iff.mp hc
  have hset : EntriesAt (calls.set c { call with stage := .registered }) pending :=
    h.setStage hc (by simp)
  refine ⟨?_, hset.fresh⟩
  intro id c' hp
  obtain ⟨rfl, rfl⟩ | ⟨-, hp⟩ := Table.insert_cases hp
  · exact ⟨_, List.getElem?_set_self hlt, rfl, (by simp), h.fresh c' call hc hst⟩
  · exact hset.owner id c' hp

theorem move {w : World} {a : Action} (h : EntriesAt w.calls w.pending)
    (hm : CallMove w a calls pending) : EntriesAt calls pending := by
  cases hm with
  | call cmd =>
    constructor
    · intro id c hp
      obtain ⟨call, hc, hrest⟩ := h.owner id c hp
      exact ⟨call, List.getElem?_append_left (List.getElem?_eq_some_iff.mp hc).1 ▸ hc, hrest⟩
    · intro c call hc hnum
      obtain ⟨-, rfl⟩ | hc := getElem?_concat_cases hc
      · rfl
      · exact h.fresh c call hc hnum
  | register hc hst => exact h.register hc hst
  | submit hc | refuse hc | finish hc | lose hc | cancel hc => exact h.setStage hc (by simp)
  | take resp => exact h.erase resp.id
  | deliver _ hp hc hl => exact h.deliver hp hl
  | other => exact h

end EntriesAt

section Kept

variable {w w' : World} {a : Action} {J : Codec}

/-- A call that is over leaves all entries in progress exactly if it has none. -/
theorem World.EntriesInProgress.over_iff (hp : w.EntriesInProgress) {c : Nat} {call : Call}
    (hc : w.calls[c]? = some call) {st : CallStage}
    (hover : ({ call with stage := st } : Call).inProgress = false) :
    (∀ id c', w.pending.lookup id = some c' → ∃ d,
      (w.calls.set c { call with stage := st })[c']? = some d ∧ d.inProgress = true) ↔
    ¬w.HasEntry c := by
  obtain ⟨hlt, -⟩ := List.getElem?_eq_some_iff.mp hc
  constructor
  · rintro hall ⟨id, hid⟩
    obtain ⟨d, hd, hprog⟩ := hall id c hid
    rw [List.getElem?_set_self hlt] at hd
    obtain rfl := Option.some.inj hd
    rw [hover] at hprog
    cases hprog
  · intro hno id c' hid
    obtain ⟨d, hd, hprog⟩ := hp id c' hid
    refine ⟨d, ?_, hprog⟩
    rw [List.getElem?_set_ne]
    · exact hd
    · rintro rfl
      exact hno ⟨id, hid⟩

theorem World.EntriesInProgress.still (hp : w.EntriesInProgress) {c : Nat} {call call' : Call}
    (hc : w.calls[c]? = some call) (hprog : call'.inProgress = true) {id : UInt64} {c' : Nat}
    (hid : w.pending.lookup id = some c') :
    ∃ d, (w.calls.set c call')[c']? = some d ∧ d.inProgress = true := by
  obtain ⟨hlt, -⟩ := List.getElem?_eq_some_iff.mp hc
  by_cases hcc : c = c'
  · subst hcc
    exact ⟨call', List.getElem?_set_self hlt, hprog⟩
  · obtain ⟨d, hd, hdp⟩ := hp id c' hid
    exact ⟨d, by rw [List.getElem?_set_ne hcc]; exact hd, hdp⟩

/-- What a step does to the property: it is lost exactly when a call is abandoned that has its
sender in the map. -/
theorem World.entriesInProgress_step_iff (he : EntriesAt w.calls w.pending)
    (hp : w.EntriesInProgress) (hs : World.step J a w = some w') :
    w'.EntriesInProgress ↔ ∀ c, w.Abandons a c → ¬w.HasEntry c := by
  have hmove := (World.step_callMove hs).1
  unfold World.EntriesInProgress
  generalize w'.calls = calls at hmove ⊢
  generalize w'.pending = pending at hmove ⊢
  cases hmove with
  | call cmd =>
    refine iff_of_true ?_ (by simp [World.Abandons])
    intro id c hid
    obtain ⟨call, hc, hprog⟩ := hp id c hid
    exact ⟨call, List.getElem?_append_left (List.getElem?_eq_some_iff.mp hc).1 ▸ hc, hprog⟩
  | register hc hst =>
    refine iff_of_true ?_ (by simp [World.Abandons])
    obtain ⟨hlt, -⟩ := List.getElem?_eq_some_iff.mp hc
    intro id c' hid
    obtain ⟨rfl, rfl⟩ | ⟨-, hid⟩ := Table.insert_cases hid
    · exact ⟨_, List.getElem?_set_self hlt, rfl⟩
    · exact hp.still hc rfl hid
  | submit hc hst hrx =>
    refine iff_of_true (fun id c' hid => hp.still hc rfl hid) ?_
    rintro c ⟨-, hdead⟩
    rw [hrx] at hdead
    cases hdead
  | @refuse c call hc hst hrx e =>
    rw [hp.over_iff hc rfl]
    constructor
    · rintro hno c' ⟨rfl, -⟩
      exact hno
    · intro h
      exact h c ⟨rfl, hrx⟩
  | finish hc hst hin =>
    refine iff_of_true ((hp.over_iff hc rfl).mpr ?_) (by simp [World.Abandons])
    rintro ⟨id, hid⟩
    obtain ⟨d, hd, -, -, hnone⟩ := he.owner id _ hid
    obtain rfl := Option.some.inj (hc.symm.trans hd)
    rw [hin] at hnone
    cases hnone
  | lose hc hst hno e =>
    refine iff_of_true ((hp.over_iff hc rfl).mpr ?_) (by simp [World.Abandons])
    rintro ⟨id, hid⟩
    obtain ⟨d, hd, rfl, -⟩ := he.owner id _ hid
    obtain rfl := Option.some.inj (hc.symm.trans hd)
    exact hno hid
  | @cancel c call hc hl =>
    rw [hp.over_iff hc rfl]
    constructor
    · rintro hno c' rfl
      exact hno
    · intro h
      exact h c rfl
  | take resp =>
    exact iff_of_true (fun id c hid => hp id c (Table.erase_cases hid).2) (by simp [World.Abandons])
  | @deliver _ c call resp _ hlook hc hl =>
    refine iff_of_true (fun id c' hid => hp.still hc ?_ (Table.erase_cases hid).2)
      (by simp [World.Abandons])
    simpa [Call.inProgress, Call.listens] using Or.inr hl
  | other hcancel hsubmit =>
    refine iff_of_true hp ?_
    intro c hab
    cases a with
    | cancel c' => exact absurd rfl (hcancel c')
    | submit c' => exact absurd rfl (hsubmit c')
    | _ => exact hab.elim

end Kept

/-- In every run, for any codec and MTU: all entries of the map belong to calls in progress, in
every state, exactly if no step of the run drops a call, or fails its send, while its sender is in
the map. -/
theorem pending_entries_in_progress_iff (J : Codec) (mtu : UInt16) (as : List Action) :
    everyStep (World.step J) (fun _ _ w => w.EntriesInProgress) as (World.init mtu) ↔
      everyStep (World.step J) (fun w a _ => ∀ c, w.Abandons a c → ¬w.HasEntry c) as
        (World.init mtu) := by
  have hinv : ∀ w, Reachable (World.step J) (World.init mtu) w → EntriesAt w.calls w.pending := by
    intro w hw
    refine ReachVia.invariant (World.step J) (fun w => EntriesAt w.calls w.pending) ?_ ?_ hw
    · exact EntriesAt.new
    · intro s t a hs _ ht
      exact hs.move (World.step_callMove ht).1
  refine everyStep_kept_iff (World.step J) ?_ as .start ?_
  · intro w a w' hw hp hs
    exact World.entriesInProgress_step_iff (hinv w hw) hp hs
  · intro id c hid
    simp [World.init] at hid

/-- A call that is dropped while it waits, and one that fails because the writer task is gone, both
stay in the map. -/
theorem failed_call_leaves_entry :
    (∃ w, Reachable (World.step compactJson) (World.init 1500) w ∧
      w.calls.map Call.stage = [.cancelled] ∧ w.pending.lookup 1 = some 0) ∧
    ∃ w, Reachable (World.step compactJson) (World.init 1500) w ∧
      w.calls.map Call.stage = [.failed ⟨.brokenPipe, "IPC writer gone"⟩] ∧
      w.pending.lookup 1 = some 0 := by
  constructor
  · obtain ⟨w, hw, -, hp⟩ := reachable_of_run (World.step compactJson)
      [.call (.getIfaceStats 0), .register 0, .submit 0, .cancel 0] (World.init 1500)
      (fun w => decide (w.calls.map Call.stage = [.cancelled] ∧ w.pending.lookup 1 = some 0))
      (by decide +kernel)
    exact ⟨w, hw, of_decide_eq_true hp⟩
  · obtain ⟨w, hw, -, hp⟩ := reachable_of_run (World.step compactJson)
      [.call (.getIfaceStats 0), .register 0, .toProxy (.send (.offerFrame [0])),
        .toProxy (.send (.recvFrame (.failed 0))), .submit 0] (World.init 1500)
      (fun w => decide (w.calls.map Call.stage = [.failed ⟨.brokenPipe, "IPC writer gone"⟩] ∧
        w.pending.lookup 1 = some 0)) (by decide +kernel)
    exact ⟨w, hw, of_decide_eq_true hp⟩

end TapTunnel.Ipc
