import TapTunnel.Ipc.Json
import TapTunnel.Ipc.Matching

namespace TapTunnel.Ipc

open Framework

theorem World.init_matched (J : Codec) (mtu : UInt16) : Matched J mtu (World.init mtu) where
  up := .new (List.length_replicate ..)
  down := .new trivial
  books := .new J
  callers := .new

theorem matched_of_reachVia {J : Codec} (hJ : J.RoundTrips) {mtu : UInt16} {w : World}
    (h : ReachVia (World.step J) (StepFits J mtu) (World.init mtu) w) : Matched J mtu w :=
  h.invariant (World.step J) _ (World.init_matched J mtu) fun _ _ _ hm ha hs => hm.step hJ ha hs

namespace World

/-- No two calls have the same id. -/
def IdsDistinct (w : World) : Prop :=
  ∀ (i j : Nat) (ci cj : Call), w.calls[i]? = some ci → w.calls[j]? = some cj →
    ci.command.id = cj.command.id → i = j

/-- A response that reached a caller was computed for the command of that caller, who expects
it. -/
def ResponsesOwn (w : World) : Prop :=
  ∀ (i : Nat) (c : Call) r, w.calls[i]? = some c → (c.inbox = some r ∨ c.stage = .returned r) →
    (c.command, r) ∈ w.handled ∧ (∃ k, r = handleProxyCommand k c.command) ∧
      c.command.result r ≠ .unexpected

/-- Deliveries are some of the responses computed, no response and no caller twice. -/
def DeliveredOnce (w : World) : Prop :=
  (w.deliveries.map Prod.snd).Sublist (w.handled.map Prod.snd) ∧
    (w.deliveries.map fun d => d.2.id).Nodup ∧ (w.deliveries.map Prod.fst).Nodup

/-- Every response that arrived was understood, and none of them is still awaited. -/
def NoneDiscarded (J : Codec) (w : World) : Prop :=
  w.toLibrary.controls = w.seen.map J.response.toVec ∧
    ∀ r ∈ w.seen, ∀ c ∈ w.calls, c.command.id = r.id → ¬c.Awaits

end World

namespace Matched

variable {J : Codec} {mtu : UInt16} {w : World}

theorem responsesOwn (hJ : J.RoundTrips) (h : Matched J mtu w) : w.ResponsesOwn := by
  intro i c r hi hr
  have hbox : c.inbox = some r := hr.elim id (h.callers.returned i c r hi)
  have hdel := h.callers.inbox i c r hi hbox
  have hsub := h.books.delivered.trans (h.seen_sublist hJ)
  obtain ⟨p, hp, rfl⟩ := List.mem_map.mp (hsub.subset (List.mem_map_of_mem hdel))
  obtain ⟨c', hi', hid⟩ := h.callers.delivered i p.2 hdel
  obtain rfl : c = c' := Option.some.inj (hi.symm.trans hi')
  -- the command of this response is the one of the call with its id
  obtain ⟨j, cj, hj, hcj, -⟩ := h.callers.owners p.1 (h.handled_submitted hJ p hp)
  obtain rfl := h.callers.id_inj hi hj (by rw [hid, h.handled_id p hp, hcj])
  obtain rfl : c = cj := Option.some.inj (hi.symm.trans hj)
  obtain ⟨k, hk⟩ := h.books.computed p hp
  rw [hcj]
  exact ⟨hp, ⟨k, hk⟩, hk ▸ handleProxyCommand_expected k p.1⟩

theorem deliveredOnce (hJ : J.RoundTrips) (h : Matched J mtu w) : w.DeliveredOnce := by
  have hsub := h.books.delivered.trans (h.seen_sublist hJ)
  have hids : (w.deliveries.map fun d => d.2.id).Nodup := by
    have hmap := hsub.map ProxyResponse.id
    rw [List.map_map, List.map_map] at hmap
    exact (h.handled_ids_nodup hJ).sublist hmap
  refine ⟨hsub, hids, ?_⟩
  have heq : (w.deliveries.map fun d => d.2.id) =
      (w.deliveries.map Prod.fst).map fun i => UInt64.ofNat (i+1) := by
    rw [List.map_map]
    refine List.map_congr_left fun d hd => ?_
    obtain ⟨c, hi, hid⟩ := h.callers.delivered d.1 d.2 hd
    rw [← hid, h.callers.ids d.1 c hi]
    rfl
  rw [heq] at hids
  exact hids.of_map _

end Matched

/-- Responses reach the callers of their own commands, whatever calls, cancellations and frames
are interleaved, as long as every message is within what the reader at the other end takes in. -/
theorem responses_matched (J : Codec) (hJ : J.RoundTrips) (mtu : UInt16) (w : World)
    (h : ReachVia (World.step J) (StepFits J mtu) (World.init mtu) w) :
    w.IdsDistinct ∧ w.ResponsesOwn ∧ w.DeliveredOnce ∧ w.NoneDiscarded J := by
  have hm := matched_of_reachVia hJ h
  refine ⟨fun i j ci cj hi hj hid => hm.callers.id_inj hi hj hid, hm.responsesOwn hJ,
    hm.deliveredOnce hJ, hm.books.carriedDown, ?_⟩
  intro r hr c hc hid
  obtain ⟨i, hi⟩ := List.mem_iff_getElem?.mp hc
  exact hm.callers.kept r hr i c hi hid

instance (n : Nat) (a : LinkAction) : Decidable (a.FrameWithin n) := by
  unfold LinkAction.FrameWithin
  split <;> infer_instance

instance (J : Codec) (mtu : UInt16) (w : World) (a : Action) : Decidable (StepFits J mtu w a) := by
  cases a <;> unfold StepFits <;> infer_instance

/-- A system on which every route change succeeds and no interface is listed. -/
def quietKernel : Kernel := ⟨fun _ _ => .ok (), fun _ _ => .ok (), .ok []⟩

/-- The steps that pass one queued control message on, up to the select. -/
def passControl : List SendAction := [.recvControl .ok, .advance .ok, .advance .ok, .advance .ok]

/-- The proxy carries out the command it has read and its response of `n` bytes comes back to the
first caller. -/
def answerRun (n : Nat) : List Action :=
  .flatten [[.handle quietKernel, .respond], passControl.map (fun a => .toLibrary (.send a)),
    [.toLibrary (.read 4), .toLibrary (.read n), .finish 0]]

/-- `add_peer_route` for `10.0.0.0/8`. -/
def addRouteRun : List Action :=
  .flatten [[.call (.addRoute 0 (.v4 0x0a000000) 8), .register 0, .submit 0],
    passControl.map (fun a => .toProxy (.send a)), [.toProxy (.read 4), .toProxy (.read 66)],
    answerRun 23]

theorem responses_matched_addRouteRun :
    ∃ w : World, w.calls = [⟨.addRoute 1 (.v4 0x0a000000) 8, .returned (.ok 1), some (.ok 1)⟩] ∧
      w.IdsDistinct ∧ w.ResponsesOwn ∧ w.DeliveredOnce ∧ w.NoneDiscarded compactJson := by
  obtain ⟨w, hw, hp⟩ := reachVia_of_run (World.step compactJson) (StepFits compactJson 1500)
    addRouteRun (World.init 1500) (fun w => decide (w.calls =
      [⟨.addRoute 1 (.v4 0x0a000000) 8, .returned (.ok 1), some (.ok 1)⟩])) (by decide +kernel)
  exact ⟨w, of_decide_eq_true hp, responses_matched compactJson compactJson_roundTrips 1500 w hw⟩

/-- An UDP datagram from `10.0.0.2` to `10.0.0.1` that carries the wire form of a control
message of the library. -/
def strayFrame : Bytes :=
  [0x02, 0x00, 0x00, 0x00, 0x00, 0x01, 0x02, 0x00, 0x00, 0x00, 0x00, 0x07, 0x08, 0x00,
    0x45, 0x00, 0x00, 0x42, 0x00, 0x00, 0x40, 0x00, 0x40, 0x11, 0x26, 0xa9,
    0x0a, 0x00, 0x00, 0x02, 0x0a, 0x00, 0x00, 0x01,
    0xc0, 0x00, 0x23, 0x28, 0x00, 0x2e, 0xd6, 0xd2, 0xff, 0xff, 0xff] ++
    delimit (encodeControl compactJson.command (.getIfaceStats 1))

/-- `remove_peer_route` for an IPv6 destination, in a command of 102 bytes. -/
def longCommand (id : UInt64) : ProxyCommand :=
  .removeRoute id (.v6 0xfd001111222233334444555566667777) 128

/-- At an MTU of 68 the proxy takes in 98 bytes at most. Of a longer command it skips only the
length, and looks for the next length in what follows. -/
def longCommandRun : List Action :=
  .flatten [[.call (longCommand 0), .register 0, .submit 0,
      .toProxy (.send (.offerFrame strayFrame))],
    passControl.map (fun a => .toProxy (.send a)), [.toProxy (.send (.advance .ok))],
    List.replicate 40 (.toProxy (.read 4)), [.toProxy (.read 31)], answerRun 47]

/-- The proxy carries out what the datagram says, and the caller of `remove_peer_route` gets the
answer. -/
theorem response_misdelivered : ∃ w, Reachable (World.step compactJson) (World.init 68) w ∧
    w.calls = [⟨longCommand 1, .returned (.ifaceStats 1 []), some (.ifaceStats 1 [])⟩] ∧
    (longCommand 1).result (.ifaceStats 1 []) = .unexpected ∧ ¬w.ResponsesOwn := by
  obtain ⟨w, hw, -, hp⟩ := reachable_of_run (World.step compactJson) longCommandRun (World.init 68)
    (fun w => decide (w.calls =
      [⟨longCommand 1, .returned (.ifaceStats 1 []), some (.ifaceStats 1 [])⟩])) (by decide +kernel)
  have hcalls := of_decide_eq_true hp
  refine ⟨w, hw, hcalls, rfl, fun hown => ?_⟩
  exact (hown 0 _ _ (by rw [hcalls]; rfl) (.inl rfl)).2.2 rfl

end TapTunnel.Ipc
