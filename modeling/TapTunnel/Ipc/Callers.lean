import TapTunnel.Ipc.Commands

namespace TapTunnel.Ipc

open Framework

/-- The call has no response yet and would take one. -/
def Call.Awaits (c : Call) : Prop := c.listens = true ∧ c.inbox = none

/-- The call has not handed its command to the control channel. -/
def Call.Unsent (c : Call) : Prop := c.stage = .numbered ∨ c.stage = .registered

theorem getElem?_set_cases {α : Type} {l : List α} {i j : Nat} {x y : α}
    (h : (l.set i x)[j]? = some y) : (j = i ∧ y = x) ∨ (j ≠ i ∧ l[j]? = some y) := by
  rw [List.getElem?_set] at h
  split_ifs at h with hij hlt
  · exact .inl ⟨hij.symm, (Option.some.inj h).symm⟩
  · exact .inr ⟨Ne.symm hij, h⟩

theorem getElem?_concat_cases {α : Type} {l : List α} {j : Nat} {x y : α}
    (h : (l++[x])[j]? = some y) : (j = l.length ∧ y = x) ∨ l[j]? = some y := by
  rw [List.getElem?_append] at h
  split_ifs at h with hj
  · exact .inr h
  · rw [List.getElem?_singleton] at h
    split_ifs at h with h0
    exact .inl ⟨by omega, (Option.some.inj h).symm⟩

/-- The callers' side of the protocol. Ids are the positions of the calls; the map holds the
sender of every call that awaits a response; a response seen by the reader is not one that a
call still awaits. -/
structure CallersAt (calls : List Call) (nextRequestId : UInt64) (pending : Table UInt64 Nat)
    (submitted : List ProxyCommand) (seen : List ProxyResponse)
    (deliveries : List (Nat × ProxyResponse)) : Prop where
  few : calls.length < 2^64
  nextId : nextRequestId = UInt64.ofNat (calls.length+1)
  ids : ∀ i c, calls[i]? = some c → c.command.id = UInt64.ofNat (i+1)
  owners : ∀ cmd ∈ submitted, ∃ (i : Nat) (c : Call),
    calls[i]? = some c ∧ c.command = cmd ∧ ¬c.Unsent
  once : (submitted.map ProxyCommand.id).Nodup
  entries : ∀ id i, pending.lookup id = some i → ∃ c, calls[i]? = some c ∧ c.command.id = id
  awaited : ∀ i c, calls[i]? = some c → c.Awaits → pending.lookup c.command.id = some i
  returned : ∀ (i : Nat) (c : Call) r, calls[i]? = some c → c.stage = .returned r →
    c.inbox = some r
  inbox : ∀ i c r, calls[i]? = some c → c.inbox = some r → (i, r) ∈ deliveries
  delivered : ∀ i r, (i, r) ∈ deliveries → ∃ c, calls[i]? = some c ∧ c.command.id = r.id
  kept : ∀ r ∈ seen, ∀ (i : Nat) (c : Call), calls[i]? = some c → c.command.id = r.id → ¬c.Awaits

namespace CallersAt

variable {calls : List Call} {nextRequestId : UInt64} {pending : Table UInt64 Nat}
  {submitted : List ProxyCommand} {seen : List ProxyResponse}
  {deliveries : List (Nat × ProxyResponse)}

theorem new : CallersAt [] 1 ∅ [] [] [] := by
  constructor <;> simp

/-- Fewer than `2^64` calls have distinct ids. -/
theorem id_inj (h : CallersAt calls nextRequestId pending submitted seen deliveries)
    {i j : Nat} {ci cj : Call} (hi : calls[i]? = some ci)
    (hj : calls[j]? = some cj) (hid : ci.command.id = cj.command.id) : i = j := by
  rw [h.ids i ci hi, h.ids j cj hj] at hid
  obtain ⟨hil, -⟩ := List.getElem?_eq_some_iff.mp hi
  obtain ⟨hjl, -⟩ := List.getElem?_eq_some_iff.mp hj
  have hfew := h.few
  have := congrArg UInt64.toNat hid
  simp only [UInt64.toNat_ofNat'] at this
  omega

theorem call (h : CallersAt calls nextRequestId pending submitted seen deliveries)
    (cmd : ProxyCommand) (hn : calls.length+1 < 2^64) :
    CallersAt (calls++[⟨cmd.setId nextRequestId, .numbered, none⟩]) (nextRequestId+1) pending
      submitted seen deliveries := by
  have hold : ∀ (i : Nat) (c : Call), calls[i]? = some c →
      (calls++[⟨cmd.setId nextRequestId, .numbered, none⟩])[i]? = some c := by
    intro i c hi
    obtain ⟨hil, -⟩ := List.getElem?_eq_some_iff.mp hi
    rw [List.getElem?_append_left hil]
    exact hi
  refine ⟨?_, ?_, ?_, ?_, h.once, ?_, ?_, ?_, ?_, ?_, ?_⟩
  · simpa using hn
  · rw [h.nextId, List.length_append, List.length_singleton]
    exact (UInt64.ofNat_add (calls.length+1) 1).symm
  · intro i c hi
    obtain ⟨rfl, rfl⟩ | hi := getElem?_concat_cases hi
    · rw [ProxyCommand.id_setId, h.nextId]
    · exact h.ids i c hi
  · intro cmd' hc
    obtain ⟨i, c, hi, hcmd, hst⟩ := h.owners cmd' hc
    exact ⟨i, c, hold i c hi, hcmd, hst⟩
  · intro id i hp
    obtain ⟨c, hi, hid⟩ := h.entries id i hp
    exact ⟨c, hold i c hi, hid⟩
  · intro i c hi ha
    obtain ⟨rfl, rfl⟩ | hi := getElem?_concat_cases hi
    · cases ha.1
    · exact h.awaited i c hi ha
  · intro i c r hi hr
    obtain ⟨rfl, rfl⟩ | hi := getElem?_concat_cases hi
    · cases hr
    · exact h.returned i c r hi hr
  · intro i c r hi hr
    obtain ⟨rfl, rfl⟩ | hi := getElem?_concat_cases hi
    · cases hr
    · exact h.inbox i c r hi hr
  · intro i r hd
    obtain ⟨c, hi, hid⟩ := h.delivered i r hd
    exact ⟨c, hold i c hi, hid⟩
  · intro r hr i c hi hid ha
    obtain ⟨rfl, rfl⟩ | hi := getElem?_concat_cases hi
    · cases ha.1
    · exact h.kept r hr i c hi hid ha

/-- A call is replaced by a later state of itself. -/
theorem set (h : CallersAt calls nextRequestId pending submitted seen deliveries) {i : Nat}
    {c : Call} (hi : calls[i]? = some c) (c' : Call) (hcmd : c'.command = c.command)
    (hunsent : c'.Unsent → c.Unsent) (hret : ∀ r, c'.stage = .returned r → c'.inbox = some r)
    (hinbox : ∀ r, c'.inbox = some r → (i, r) ∈ deliveries)
    (hawait : c'.Awaits → pending.lookup c.command.id = some i ∧ ∀ r ∈ seen, c.command.id ≠ r.id) :
    CallersAt (calls.set i c') nextRequestId pending submitted seen deliveries := by
  have hlook : ∀ (j : Nat) (cj : Call), calls[j]? = some cj →
      ∃ cj', (calls.set i c')[j]? = some cj' ∧ cj'.command = cj.command ∧
        (cj'.Unsent → cj.Unsent) := by
    intro j cj hj
    by_cases hij : i = j
    · subst hij
      obtain ⟨hlt, -⟩ := List.getElem?_eq_some_iff.mp hi
      obtain rfl : c = cj := Option.some.inj (hi.symm.trans hj)
      exact ⟨c', List.getElem?_set_self hlt, hcmd, hunsent⟩
    · exact ⟨cj, by rw [List.getElem?_set_ne hij]; exact hj, rfl, id⟩
  refine ⟨?_, ?_, ?_, ?_, h.once, ?_, ?_, ?_, ?_, ?_, ?_⟩
  · rw [List.length_set]
    exact h.few
  · rw [List.length_set]
    exact h.nextId
  · intro j cj hj
    obtain ⟨rfl, rfl⟩ | ⟨-, hj⟩ := getElem?_set_cases hj
    · rw [hcmd]
      exact h.ids j c hi
    · exact h.ids j cj hj
  · intro cmd hc
    obtain ⟨j, cj, hj, hcj, hst⟩ := h.owners cmd hc
    obtain ⟨cj', hj', hcmd', hun⟩ := hlook j cj hj
    exact ⟨j, cj', hj', hcmd'.trans hcj, fun hu => hst (hun hu)⟩
  · intro id j hp
    obtain ⟨cj, hj, hid⟩ := h.entries id j hp
    obtain ⟨cj', hj', hcmd', -⟩ := hlook j cj hj
    exact ⟨cj', hj', by rw [hcmd', hid]⟩
  · intro j cj hj ha
    obtain ⟨rfl, rfl⟩ | ⟨-, hj⟩ := getElem?_set_cases hj
    · rw [hcmd]
      exact (hawait ha).1
    · exact h.awaited j cj hj ha
  · intro j cj r hj hr
    obtain ⟨rfl, rfl⟩ | ⟨-, hj⟩ := getElem?_set_cases hj
    · exact hret r hr
    · exact h.returned j cj r hj hr
  · intro j cj r hj hr
    obtain ⟨rfl, rfl⟩ | ⟨-, hj⟩ := getElem?_set_cases hj
    · exact hinbox r hr
    · exact h.inbox j cj r hj hr
  · intro j r hd
    obtain ⟨cj, hj, hid⟩ := h.delivered j r hd
    obtain ⟨cj', hj', hcmd', -⟩ := hlook j cj hj
    exact ⟨cj', hj', by rw [hcmd', hid]⟩
  · intro r hr j cj hj hid ha
    obtain ⟨rfl, rfl⟩ | ⟨-, hj⟩ := getElem?_set_cases hj
    · exact (hawait ha).2 r hr (hcmd ▸ hid)
    · exact h.kept r hr j cj hj hid ha

/-- A call only moves on to another stage. -/
theorem setStage (h : CallersAt calls nextRequestId pending submitted seen deliveries) {i : Nat}
    {c : Call} (hi : calls[i]? = some c) (st : CallStage)
    (hunsent : st ≠ .numbered ∧ st ≠ .registered) (hret : ∀ r, st = .returned r → c.inbox = some r)
    (hawait : st = .waiting → c.listens = true) :
    CallersAt (calls.set i { c with stage := st }) nextRequestId pending submitted seen
      deliveries := by
  refine h.set hi _ rfl ?_ hret (h.inbox i c · hi) ?_
  · rintro (hs | hs)
    · exact absurd hs hunsent.1
    · exact absurd hs hunsent.2
  · rintro ⟨hl, hnone⟩
    have hw : st = .waiting := by simpa [Call.listens, hunsent.2] using hl
    have ha : c.Awaits := ⟨hawait hw, hnone⟩
    exact ⟨h.awaited i c hi ha, fun r hr hid => h.kept r hr i c hi hid ha⟩

/-- `map.insert(id, tx)`. No response can have been seen for a command not sent. -/
theorem register (h : CallersAt calls nextRequestId pending submitted seen deliveries)
    {i : Nat} {c : Call} (hi : calls[i]? = some c)
    (hst : c.stage = .numbered)
    (hseen : ∀ r ∈ seen, ∃ cmd ∈ submitted, cmd.id = r.id) :
    CallersAt (calls.set i { c with stage := .registered }) nextRequestId
      (pending.insert c.command.id i) submitted seen deliveries := by
  have hnew : CallersAt calls nextRequestId (pending.insert c.command.id i) submitted seen
      deliveries := by
    refine { h with entries := fun id j hp => ?_, awaited := fun j cj hj ha => ?_ }
    · obtain ⟨rfl, rfl⟩ | ⟨-, hp⟩ := Table.insert_cases hp
      · exact ⟨c, hi, rfl⟩
      · exact h.entries id j hp
    · rw [Table.lookup_insert_if]
      split_ifs with hid
      · rw [h.id_inj hj hi hid]
      · exact h.awaited j cj hj ha
  refine hnew.set hi _ rfl (fun _ => .inl hst) nofun (hnew.inbox i c · hi) fun _ => ⟨?_, ?_⟩
  · rw [Table.lookup_insert_if, if_pos rfl]
  · intro r hr hid
    obtain ⟨cmd, hcmd, hcid⟩ := hseen r hr
    obtain ⟨j, cj, hj, rfl, hsent⟩ := h.owners cmd hcmd
    obtain rfl := h.id_inj hj hi (hcid.trans hid.symm)
    obtain rfl : c = cj := Option.some.inj (hi.symm.trans hj)
    exact hsent (.inl hst)

theorem submit (h : CallersAt calls nextRequestId pending submitted seen deliveries)
    {i : Nat} {c : Call} (hi : calls[i]? = some c)
    (hst : c.stage = .registered) :
    CallersAt (calls.set i { c with stage := .waiting }) nextRequestId pending
      (submitted++[c.command]) seen deliveries := by
  have hnew := h.setStage hi .waiting (by simp) nofun (by simp [Call.listens, hst])
  refine { hnew with owners := fun cmd hc => ?_, once := ?_ }
  · obtain hc | hc := List.mem_append.mp hc
    · exact hnew.owners cmd hc
    · obtain rfl := List.mem_singleton.mp hc
      obtain ⟨hlt, -⟩ := List.getElem?_eq_some_iff.mp hi
      exact ⟨i, _, List.getElem?_set_self hlt, rfl, by simp [Call.Unsent]⟩
  · rw [List.map_append, List.nodup_append]
    refine ⟨h.once, by simp, ?_⟩
    rintro id hid id' hid' rfl
    obtain ⟨cmd, hcmd, rfl⟩ := List.mem_map.mp hid
    obtain ⟨j, cj, hj, rfl, hsent⟩ := h.owners cmd hcmd
    obtain rfl := h.id_inj hj hi (by simpa using hid')
    obtain rfl : c = cj := Option.some.inj (hi.symm.trans hj)
    exact hsent (.inr hst)

/-- A response that no call awaits is dropped. -/
theorem see (h : CallersAt calls nextRequestId pending submitted seen deliveries)
    {resp : ProxyResponse}
    (hno : ∀ (i : Nat) (c : Call), calls[i]? = some c → c.command.id = resp.id → ¬c.Awaits) :
    CallersAt calls nextRequestId (pending.erase resp.id) submitted (seen++[resp])
      deliveries := by
  refine { h with
    entries := fun id j hp => h.entries id j (Table.erase_cases hp).2
    awaited := fun j cj hj ha => ?_
    kept := fun r hr j cj hj hid => ?_ }
  · rw [Table.lookup_erase_if]
    split_ifs with hid
    · exact absurd ha (hno j cj hj hid)
    · exact h.awaited j cj hj ha
  · obtain hr | hr := List.mem_append.mp hr
    · exact h.kept r hr j cj hj hid
    · obtain rfl := List.mem_singleton.mp hr
      exact hno j cj hj hid

/-- A response for which the map has the sender of a listening call is delivered to it. -/
theorem deliver (h : CallersAt calls nextRequestId pending submitted seen deliveries)
    {resp : ProxyResponse} {i : Nat} {c : Call} (hp : pending.lookup resp.id = some i)
    (hi : calls[i]? = some c) (hl : c.listens = true) :
    CallersAt (calls.set i { c with inbox := some resp }) nextRequestId (pending.erase resp.id)
      submitted (seen++[resp]) (deliveries++[(i, resp)]) := by
  obtain ⟨c', hi', hid⟩ := h.entries _ _ hp
  obtain rfl : c = c' := Option.some.inj (hi.symm.trans hi')
  have hrec : CallersAt calls nextRequestId pending submitted seen (deliveries++[(i, resp)]) := by
    refine { h with
      inbox := fun j cj r hj hr => List.mem_append_left _ (h.inbox j cj r hj hr)
      delivered := fun j r hd => ?_ }
    obtain hd | hd := List.mem_append.mp hd
    · exact h.delivered j r hd
    · obtain ⟨rfl, rfl⟩ := Prod.mk.inj (List.mem_singleton.mp hd)
      exact ⟨c, hi, hid⟩
  have hset := hrec.set hi { c with inbox := some resp } rfl id
    (fun r hr => by simp [Call.listens, show c.stage = .returned r from hr] at hl)
    (by rintro r ⟨⟩; simp) (by rintro ⟨-, ⟨⟩⟩)
  refine hset.see fun j cj hj hcid ha => ?_
  obtain ⟨rfl, rfl⟩ | ⟨hne, hj⟩ := getElem?_set_cases hj
  · cases ha.2
  · have := h.awaited j cj hj ha
    rw [hcid, hp] at this
    exact hne (Option.some.inj this).symm

end CallersAt

end TapTunnel.Ipc
