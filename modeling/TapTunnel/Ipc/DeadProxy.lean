import TapTunnel.Framework.Simulation
import TapTunnel.Ipc.PendingMap

namespace TapTunnel.Ipc

open Framework

namespace World

/-- The caller of `c` still waits for the end of its call. -/
def waits (w : World) (c : Nat) : Bool := w.calls[c]?.any Call.listens

/-- The map holds no sender of a caller that still waits. -/
def NoneWaits (w : World) : Prop := ∀ e ∈ w.pending.entries, w.waits e.2 = false

instance (w : World) : Decidable w.NoneWaits :=
  inferInstanceAs (Decidable (∀ e ∈ w.pending.entries, w.waits e.2 = false))

end World

/-- Ids are the positions of the calls, and the sender of a call that awaits a response is in the
map. -/
structure AwaitedAt (calls : List Call) (pending : Table UInt64 Nat) : Prop where
  ids : ∀ (i : Nat) c, calls[i]? = some c → c.command.id = UInt64.ofNat (i+1)
  awaited : calls.length < 2^64 → ∀ (i : Nat) c, calls[i]? = some c → c.Awaits →
    pending.lookup c.command.id = some i

namespace AwaitedAt

variable {calls : List Call} {pending : Table UInt64 Nat} {c : Nat} {call : Call}

theorem new : AwaitedAt [] ∅ := ⟨by simp, by simp⟩

theorem ids_inj (h : AwaitedAt calls pending) (hfew : calls.length < 2^64) {i j : Nat}
    {ci cj : Call} (hi : calls[i]? = some ci) (hj : calls[j]? = some cj)
    (hid : ci.command.id = cj.command.id) : i = j := by
  rw [h.ids i ci hi, h.ids j cj hj] at hid
  obtain ⟨hil, -⟩ := List.getElem?_eq_some_iff.mp hi
  obtain ⟨hjl, -⟩ := List.getElem?_eq_some_iff.mp hj
  have := congrArg UInt64.toNat hid
  simp only [UInt64.toNat_ofNat'] at this
  omega

/-- A call moves on. It does not come to await a response by that. -/
theorem set (h : AwaitedAt calls pending) (hc : calls[c]? = some call) {call' : Call}
    (hcmd : call'.command = call.command) (hawait : call'.Awaits → call.Awaits) :
    AwaitedAt (calls.set c call') pending := by
  constructor
  · intro i d hd
    obtain ⟨rfl, rfl⟩ | ⟨-, hd⟩ := getElem?_set_cases hd
    · rw [hcmd]
      exact h.ids i call hc
    · exact h.ids i d hd
  · intro hfew i d hd ha
    rw [List.length_set] at hfew
    obtain ⟨rfl, rfl⟩ | ⟨-, hd⟩ := getElem?_set_cases hd
    · rw [hcmd]
      exact h.awaited hfew i call hc (hawait ha)
    · exact h.awaited hfew i d hd ha

theorem register (h : AwaitedAt calls pending) (hc : calls[c]? = some call) :
    AwaitedAt (calls.set c { call with stage := .registered })
      (pending.insert call.command.id c) := by
  constructor
  · intro i d hd
    obtain ⟨rfl, rfl⟩ | ⟨-, hd⟩ := getElem?_set_cases hd
    · exact h.ids i call hc
    · exact h.ids i d hd
  · intro hfew i d hd ha
    rw [List.length_set] at hfew
    obtain ⟨rfl, rfl⟩ | ⟨hne, hd⟩ := getElem?_set_cases hd
    · rw [Table.lookup_insert_if, if_pos rfl]
    · have hid : d.command.id ≠ call.command.id := fun he => hne (h.ids_inj hfew hd hc he)
      rw [Table.lookup_insert_if, if_neg hid]
      exact h.awaited hfew i d hd ha

/-- The entry that a response removes is that of a call that does not await it any more. -/
theorem erase (h : AwaitedAt calls pending) {id : UInt64}
    (hnone : ∀ (i : Nat) d, pending.lookup id = some i → calls[i]? = some d → ¬d.Awaits) :
    AwaitedAt calls (pending.erase id) := by
  refine ⟨h.ids, fun hfew i d hd ha => ?_⟩
  have hlook := h.awaited hfew i d hd ha
  have hid : d.command.id ≠ id := by
    rintro rfl
    exact hnone i d hlook hd ha
  rw [Table.lookup_erase_if, if_neg hid]
  exact hlook

theorem move {w : World} {a : Action} (h : AwaitedAt w.calls w.pending)
    (hnext : w.nextRequestId = UInt64.ofNat (w.calls.length+1))
    (hm : CallMove w a calls pending) : AwaitedAt calls pending := by
  cases hm with
  | call cmd =>
    constructor
    · intro i d hd
      obtain ⟨rfl, rfl⟩ | hd := getElem?_concat_cases hd
      · rw [ProxyCommand.id_setId, hnext]
      · exact h.ids i d hd
    · intro hfew i d hd ha
      rw [List.length_append] at hfew
      obtain ⟨-, rfl⟩ | hd := getElem?_concat_cases hd
      · cases ha.1
      · exact h.awaited (Nat.lt_of_le_of_lt (Nat.le_add_right _ _) hfew) i d hd ha
  | register hc hst => exact h.register hc
  | submit hc hst => exact h.set hc rfl fun ha => ⟨by simp [Call.listens, hst], ha.2⟩
  | refuse hc | finish hc | lose hc | cancel hc => exact h.set hc rfl fun ha => by cases ha.1
  | take resp _ hnone =>
    refine h.erase fun i d hlook hd ha => ?_
    cases ha.1.symm.trans (hnone i d hlook hd)
  | @deliver _ c call resp _ hlook hc hl =>
    have hset : AwaitedAt (w.calls.set c { call with inbox := some resp }) w.pending :=
      h.set hc rfl fun ha => by cases ha.2
    refine hset.erase fun i d hlook' hd ha => ?_
    obtain rfl := Option.some.inj (hlook.symm.trans hlook')
    rw [List.getElem?_set_self (List.getElem?_eq_some_iff.mp hc).1] at hd
    obtain rfl := Option.some.inj hd
    cases ha.2
  | other => exact h

end AwaitedAt

section Steps

variable {J : Codec} {w w' : World} {a : Action}

theorem World.libraryReceive_nextRequestId (J : Codec) (record : Bytes) (w : World) :
    (w.libraryReceive J record).nextRequestId = w.nextRequestId := by
  have hdeliver : ∀ (c : Nat) resp (v : World),
      (v.deliver c resp).nextRequestId = v.nextRequestId := by
    intro c resp v
    unfold World.deliver
    split
    · split_ifs <;> rfl
    · rfl
  unfold World.libraryReceive
  split
  · split
    · unfold World.takeResponse
      split
      · exact hdeliver _ _ _
      · rfl
    · rfl
  · rfl
  · rfl

theorem CallMove.length {calls : List Call} {pending : Table UInt64 Nat}
    (h : CallMove w a calls pending) :
    calls.length = w.calls.length ∨ ∃ cmd, a = .call cmd ∧ calls.length = w.calls.length+1 := by
  cases h with
  | call cmd => exact .inr ⟨cmd, rfl, List.length_append⟩
  | take | other => exact .inl rfl
  | _ => exact .inl List.length_set

/-- Only a new call takes an id. -/
theorem World.step_nextRequestId (h : World.step J a w = some w')
    (ha : ∀ cmd, a ≠ .call cmd) : w'.nextRequestId = w.nextRequestId := by
  cases a with
  | call cmd => exact absurd rfl (ha cmd)
  | toLibrary a =>
    obtain ⟨-, l, -, ⟨-, rfl⟩ | ⟨record, -, rfl⟩⟩ := World.step_toLibrary h
    · rfl
    · exact World.libraryReceive_nextRequestId J record _
  | toProxy a =>
    obtain ⟨-, l, -, ⟨-, rfl⟩ | ⟨record, -, -, rfl⟩⟩ := World.step_toProxy h
    · rfl
    · obtain ⟨p, hp⟩ := World.proxyReceive_frame J record { w with toProxy := l }
      rw [hp]
  | submit c =>
    simp only [World.step] at h
    split at h
    · split_ifs at h
      unfold World.submit at h
      split at h
      · obtain rfl := Option.some.inj h
        rfl
      · split_ifs at h
        obtain rfl := Option.some.inj h
        rfl
    · cases h
  | finish c =>
    simp only [World.step] at h
    split at h
    · split_ifs at h
      unfold World.finish at h
      split at h
      · obtain rfl := Option.some.inj h
        rfl
      · split_ifs at h
        obtain rfl := Option.some.inj h
        rfl
    · cases h
  | respond =>
    simp only [World.step] at h
    split at h
    · unfold World.respond at h
      split at h
      · obtain rfl := Option.some.inj h
        rfl
      · split_ifs at h
        obtain rfl := Option.some.inj h
        rfl
    · cases h
    · cases h
  | register c | cancel c =>
    simp only [World.step] at h
    split at h
    · split_ifs at h
      obtain rfl := Option.some.inj h
      rfl
    · cases h
  | handle k =>
    simp only [World.step] at h
    split at h
    · obtain rfl := Option.some.inj h
      rfl
    · cases h
    · cases h

/-- What holds of the calls and the map in every run. -/
structure World.Tracked (w : World) : Prop where
  nextId : w.nextRequestId = UInt64.ofNat (w.calls.length+1)
  entries : EntriesAt w.calls w.pending
  awaited : AwaitedAt w.calls w.pending

theorem World.Tracked.step (h : w.Tracked) (hs : World.step J a w = some w') : w'.Tracked := by
  have hmove := (World.step_callMove hs).1
  refine ⟨?_, h.entries.move hmove, h.awaited.move h.nextId hmove⟩
  by_cases hcall : ∃ cmd, a = .call cmd
  · obtain ⟨cmd, rfl⟩ := hcall
    obtain rfl := Option.some.inj hs
    simp only [World.call, h.nextId, List.length_append, List.length_singleton]
    exact (UInt64.ofNat_add (w.calls.length+1) 1).symm
  · have hlen : w'.calls.length = w.calls.length := by
      rcases hmove.length with hlen | ⟨cmd, hcmd, -⟩
      · exact hlen
      · exact absurd ⟨cmd, hcmd⟩ hcall
    rw [World.step_nextRequestId hs (not_exists.mp hcall), h.nextId, hlen]

theorem World.tracked {mtu : UInt16} (h : Reachable (World.step J) (World.init mtu) w) :
    w.Tracked :=
  ReachVia.invariant (World.step J) World.Tracked ⟨rfl, .new, .new⟩
    (fun _ _ _ hs _ ht => hs.step ht) h

/-- The callers with an entry in the map are those that await a response. -/
theorem World.Tracked.noneWaits_iff (h : w.Tracked) (hfew : w.calls.length < 2^64) :
    w.NoneWaits ↔ ∀ (c : Nat) call, w.calls[c]? = some call → ¬call.Awaits := by
  have hwaits : ∀ (c : Nat) call, w.calls[c]? = some call → w.waits c = call.listens := by
    intro c call hc
    simp [World.waits, hc]
  constructor
  · intro hnone c call hc ha
    have hlook := h.awaited.awaited hfew c call hc ha
    have hno := hnone ⟨_, c⟩ (AList.mem_lookup_iff.mp hlook)
    rw [hwaits c call hc, ha.1] at hno
    cases hno
  · intro hall e he
    obtain ⟨call, hc, -, -, hin⟩ := h.entries.owner e.1 e.2 (AList.mem_lookup_iff.mpr he)
    rw [hwaits e.2 call hc]
    exact Bool.eq_false_iff.mpr fun hl => hall e.2 call hc ⟨hl, hin⟩

/-- The call `c` is as it was, with its sender in the map, or it has been cancelled. -/
def World.Left (c : Nat) (call : Call) (w : World) : Prop :=
  w.calls[c]? = some call ∧ w.pending.lookup call.command.id = some c ∨
    w.calls[c]? = some { call with stage := .cancelled }

/-- Step lemma: without the reader nothing but its caller ends a call that waits. -/
theorem World.Left.step {c : Nat} {call : Call} (h : w.Left c call) (ht : w.Tracked)
    (hwait : call.stage = .waiting) (hin : call.inbox = none)
    (hdead : w.toLibrary.readerAlive = false) (hs : World.step J a w = some w')
    (hfew : w.calls.length < 2^64) : w'.Left c call := by
  have hmove := (World.step_callMove hs).1
  have hcall : ∀ d, w.calls[c]? = some d →
      d = call ∧ w.pending.lookup call.command.id = some c ∨
        d = { call with stage := .cancelled } := by
    intro d hd
    rcases h with ⟨hc, hlook⟩ | hc
    · exact .inl ⟨Option.some.inj (hd.symm.trans hc), hlook⟩
    · exact .inr (Option.some.inj (hd.symm.trans hc))
  -- the step is one of another call
  have hother : ∀ {i : Nat} (d' : Call), i ≠ c →
      (w.calls.set i d')[c]? = some call ∧ w.pending.lookup call.command.id = some c ∨
        (w.calls.set i d')[c]? = some { call with stage := .cancelled } := by
    intro i d' hne
    rw [List.getElem?_set_ne hne]
    exact h
  have hne : ∀ {i : Nat} {d : Call}, w.calls[i]? = some d → d.stage ≠ .waiting →
      d.stage ≠ .cancelled → i ≠ c := by
    rintro i d hi hw hcan rfl
    rcases hcall d hi with ⟨rfl, -⟩ | rfl
    · exact hw hwait
    · exact hcan rfl
  unfold World.Left
  generalize w'.calls = calls at hmove ⊢
  generalize w'.pending = pending at hmove ⊢
  cases hmove with
  | call cmd =>
    have hlt : c < w.calls.length := by
      rcases h with ⟨hc, -⟩ | hc <;> exact (List.getElem?_eq_some_iff.mp hc).1
    rw [List.getElem?_append_left hlt]
    exact h
  | @register i d hi hst =>
    have hic := hne hi (by simp [hst]) (by simp [hst])
    rcases hother { d with stage := .registered } hic with ⟨hc, hlook⟩ | hc
    · refine .inl ⟨hc, ?_⟩
      rw [List.getElem?_set_ne hic] at hc
      rw [Table.lookup_insert_if, if_neg fun hid => hic (ht.awaited.ids_inj hfew hc hi hid).symm]
      exact hlook
    · exact .inr hc
  | submit hi hst | refuse hi hst => exact hother _ (hne hi (by simp [hst]) (by simp [hst]))
  | finish hi hst hresp =>
    apply hother
    rintro rfl
    rcases hcall _ hi with ⟨rfl, -⟩ | rfl
    · cases hin.symm.trans hresp
    · cases hst
  | lose hi hst hno =>
    apply hother
    rintro rfl
    rcases hcall _ hi with ⟨rfl, hlook⟩ | rfl
    · exact hno hlook
    · cases hst
  | @cancel i d hi hl =>
    by_cases hic : i = c
    · subst hic
      rcases hcall d hi with ⟨rfl, -⟩ | rfl
      · exact .inr (List.getElem?_set_self (List.getElem?_eq_some_iff.mp hi).1)
      · cases hl
    · exact hother _ hic
  | take _ halive | deliver halive => cases hdead.symm.trans halive
  | other => exact h

/-- The reader stays gone. -/
theorem World.step_dead (hs : World.step J a w = some w')
    (hdead : w.toLibrary.readerAlive = false) : w'.toLibrary.readerAlive = false := by
  by_cases hstop : a = .toLibrary .stopReader
  · subst hstop
    obtain ⟨-, l, hl, ⟨-, rfl⟩ | ⟨record, -, rfl⟩⟩ := World.step_toLibrary hs
    · obtain rfl := Option.some.inj hl
      rfl
    · obtain rfl := Option.some.inj hl
      rw [World.libraryReceive_toLibrary]
  · exact ((World.step_callMove hs).2 hstop).trans hdead

theorem World.step_calls_length (hs : World.step J a w = some w') :
    w.calls.length ≤ w'.calls.length := by
  rcases (World.step_callMove hs).1.length with hlen | ⟨cmd, -, hlen⟩ <;> omega

/-- Run lemma. -/
theorem World.Left.reach {mtu : UInt16} {c : Nat} {call : Call} (h : w.Left c call)
    (hw : Reachable (World.step J) (World.init mtu) w) (hwait : call.stage = .waiting)
    (hin : call.inbox = none) (hdead : w.toLibrary.readerAlive = false)
    (h' : Reachable (World.step J) w w') : w'.calls.length < 2^64 → w'.Left c call := by
  have hrun : Reachable (World.step J) (World.init mtu) w' ∧
      w'.toLibrary.readerAlive = false ∧ (w'.calls.length < 2^64 → w'.Left c call) := by
    refine ReachVia.invariant (World.step J) (fun v => Reachable (World.step J) (World.init mtu) v ∧
      v.toLibrary.readerAlive = false ∧ (v.calls.length < 2^64 → v.Left c call))
      ⟨hw, hdead, fun _ => h⟩ ?_ h'
    rintro u v a ⟨hu, hud, hleft⟩ - hv
    refine ⟨.next hu trivial hv, World.step_dead hv hud, fun hfew => ?_⟩
    have hfew' : u.calls.length < 2^64 := Nat.lt_of_le_of_lt (World.step_calls_length hv) hfew
    exact (hleft hfew').step (World.tracked hu) hwait hin hud hv hfew'
  exact hrun.2.2

end Steps

/-- Once the library's reader has ended, in every later state: nobody is left in the map exactly if
no call awaits a response, and a call that had sent its command and got no response before still
waits for it, cannot end, and is still in the map, unless its caller has dropped it. -/
theorem waiting_call_never_ends (J : Codec) (mtu : UInt16) (w : World)
    (h : Reachable (World.step J) (World.init mtu) w) (hdead : w.toLibrary.readerAlive = false)
    (w' : World) (h' : Reachable (World.step J) w w') (hfew : w'.calls.length < 2^64) :
    (w'.NoneWaits ↔ ∀ (c : Nat) call, w'.calls[c]? = some call → ¬call.Awaits) ∧
    ∀ (c : Nat) call, w.calls[c]? = some call → call.stage = .waiting → call.inbox = none →
      w'.calls[c]? = some { call with stage := .cancelled } ∨
      w'.calls[c]? = some call ∧ ¬w'.NoneWaits ∧ World.step J (.finish c) w' = none := by
  have htracked : w'.Tracked := World.tracked (h.trans h')
  have hnone := htracked.noneWaits_iff hfew
  refine ⟨hnone, fun c call hc hwait hin => ?_⟩
  have hawaits : call.Awaits := ⟨by simp [Call.listens, hwait], hin⟩
  have hlen : w.calls.length ≤ w'.calls.length :=
    ReachVia.invariant (World.step J) (fun v => w.calls.length ≤ v.calls.length) (Nat.le_refl _)
      (fun u v a hu _ hv => hu.trans (World.step_calls_length hv)) h'
  have hlook := (World.tracked h).awaited.awaited (Nat.lt_of_le_of_lt hlen hfew) c call hc hawaits
  rcases World.Left.reach (.inl ⟨hc, hlook⟩) h hwait hin hdead h' hfew with
    ⟨hc', hlook'⟩ | hcancelled
  · refine .inr ⟨hc', fun hno => hnone.mp hno c call hc' hawaits, ?_⟩
    simp [World.step, hc', hwait, World.finish, hin, hlook']
  · exact .inl hcancelled

/-- A call is sent, and then the proxy goes away. -/
def deadProxyRun : List Action :=
  [.call (.getIfaceStats 0), .register 0, .submit 0, .toLibrary .stopReader]

/-- Another call is made after that. -/
theorem waiting_call_never_ends_deadProxyRun :
    ∃ w w' : World, w.toLibrary.readerAlive = false ∧ w'.calls.length = 2 ∧ ¬w'.NoneWaits ∧
      World.step compactJson (.finish 0) w' = none := by
  obtain ⟨w, w', hw, hw', hp⟩ := reachVia_of_runs (World.step compactJson) (fun _ _ => True)
    deadProxyRun [.call (.getIfaceStats 0), .register 1, .submit 1] (World.init 1500)
    (fun w w' => decide (w.toLibrary.readerAlive = false ∧ w'.calls.length = 2 ∧
      w.calls[0]? = some (⟨.getIfaceStats 1, .waiting, none⟩ : Call) ∧
      w'.calls[0]? ≠ some (⟨.getIfaceStats 1, .cancelled, none⟩ : Call))) (by decide +kernel)
  obtain ⟨hdead, hlen, hcall, hkept⟩ := of_decide_eq_true hp
  obtain ⟨-, hleft⟩ := waiting_call_never_ends compactJson 1500 w hw hdead w' hw'
    (by rw [hlen]; decide)
  rcases hleft 0 _ hcall rfl rfl with hcancelled | ⟨-, hwaits, hstuck⟩
  · exact absurd hcancelled hkept
  · exact ⟨w, w', hdead, hlen, hwaits, hstuck⟩

/-- The proxy dies after the command was queued: its caller stays in the map, and cannot finish
although the reader that would answer it is gone. -/
theorem caller_stranded :
    ∃ w : World, Reachable (World.step compactJson) (World.init 1500) w ∧
      w.toLibrary.readerAlive = false ∧ ¬w.NoneWaits ∧
      World.step compactJson (.finish 0) w = none := by
  obtain ⟨w, hw, -, hp⟩ := reachable_of_run (World.step compactJson) deadProxyRun (World.init 1500)
    (fun w => decide (w.toLibrary.readerAlive = false ∧ ¬w.NoneWaits) &&
      (World.step compactJson (.finish 0) w).isNone) (by decide +kernel)
  rw [Bool.and_eq_true] at hp
  obtain ⟨hdead, hwaits⟩ := of_decide_eq_true hp.1
  exact ⟨w, hw, hdead, hwaits, Option.isNone_iff_eq_none.mp hp.2⟩

end TapTunnel.Ipc
