import TapTunnel.Framework.Settling
import TapTunnel.Stack.HandleSafety

namespace TapTunnel.Stack

open Framework Reference

variable {T U E : Type} {N : Smoltcp T U E}

/-- The action is a step of `run_stack` itself. Smoltcp's work on a socket while the interface is
polled is not counted: how much of it there is depends on the frames that have come in. -/
def Action.ofStack : Action E → Bool
  | .command | .disconnected | .notified | .timeout => true
  | .beginWrite _ _ | .writeTcp | .writeUdp | .endWrite | .endPoll _ => true
  | .beginRead _ _ | .readTcp | .readUdp | .endRead => true
  | .pending _ | .skipPending | .checkDead => true
  | .issue _ | .cancel _ | .streamWrite .. | .streamRead .. => false
  | .dropWriteTx _ | .dropReadRx _ => false
  | .udpSend .. | .udpRecv _ | .dropUdp _ | .dropCommands | .foreignPort | .ipcDies => false
  | .tcpEvent .. | .udpEvent .. => false

/-- Number of sockets that the two passes of an iteration visit. -/
def World.visited (w : World T U) : Nat := w.tcpStates.keys.length + w.udpStates.keys.length

/-- Steps up to the end of the current iteration, with `n` sockets to visit in each pass; the
command that a select may take can add one. -/
def Phase.left (n : Nat) : Phase → Nat
  | .select => 2*n + 11
  | .startWrite => 2*n + 8
  | .write tcp udp => tcp.length + udp.length + n + 7
  | .poll => n + 6
  | .startRead _ => n + 5
  | .read tcp udp _ => tcp.length + udp.length + 4
  | .pend _ => 3
  | .check => 2
  | .returned | .panicked _ => 0

def World.left (w : World T U) : Nat := w.phase.left w.visited

/-- A pass has no more sockets before it than there are. -/
def Phase.Fits (n : Nat) : Phase → Prop
  | .write tcp udp | .read tcp udp _ => tcp.length + udp.length ≤ n
  | _ => True

theorem Phase.Fits.left_le {n : Nat} {p : Phase} (h : p.Fits n) : p.left n ≤ 2*n + 11 := by
  cases p <;> simp only [Fits, left] at h ⊢ <;> omega

section Steps

variable {w w' : World T U} {cfg : StackConfig} {a : Action E}

theorem envStep_ofStack (ha : a.ofStack = true) : w.envStep a = none := by
  cases a <;> first | rfl | cases ha

theorem length_keys_insert_le {V : Type} (m : HandleMap V) (k : SocketHandle) (v : V) :
    (m.insert k v).keys.length ≤ m.keys.length + 1 := by
  have h : (m.keys.erase k).length ≤ m.keys.length := List.length_erase_le
  rw [AList.keys_insert, List.length_cons]
  omega

theorem length_keys_insert_of_lookup {V : Type} {m : HandleMap V} {k : SocketHandle} {u : V}
    (h : m.lookup k = some u) (v : V) : (m.insert k v).keys.length = m.keys.length := by
  have hk : k ∈ m.keys := (Table.mem_keys_iff m k).mpr ⟨u, h⟩
  have hpos := List.length_pos_of_mem hk
  rw [AList.keys_insert, List.length_cons, List.length_erase_of_mem hk]
  omega

theorem length_keys_erase_le {V : Type} (m : HandleMap V) (k : SocketHandle) :
    (m.erase k).keys.length ≤ m.keys.length := by
  rw [AList.keys_erase]
  exact List.length_erase_le

namespace World

/-- One of the two tables changes, and by one entry at most. -/
theorem visited_le (h : (w'.tcpStates.keys.length ≤ w.tcpStates.keys.length + 1 ∧
      w'.udpStates = w.udpStates) ∨
    (w'.tcpStates = w.tcpStates ∧
      w'.udpStates.keys.length ≤ w.udpStates.keys.length + 1)) : w'.visited ≤ w.visited + 1 := by
  rw [visited, visited]
  rcases h with ⟨ht, hu⟩ | ⟨ht, hu⟩
  · rw [hu]
    omega
  · rw [ht]
    omega

theorem replaceListening_visited (w : World T U) (key : SocketHandle) (addr : SocketAddr)
    (rest : List SocketHandle) :
    (w.replaceListening N key addr rest).visited = w.visited ∧
      (w.replaceListening N key addr rest).ipcDead = w.ipcDead := by
  unfold replaceListening
  split <;> exact ⟨rfl, rfl⟩

end World

/-- A command adds at most one socket to those that a pass visits. -/
theorem Effect.visited_le {c : Option StackCommand} (he : Effect N c w w') :
    w'.visited ≤ w.visited + 1 ∧ w'.ipcDead = w.ipcDead := by
  have hfewer {V : Type} (t : HandleMap V) (k : SocketHandle) :
      (t.erase k).keys.length ≤ t.keys.length + 1 :=
    (length_keys_erase_le t k).trans (Nat.le_succ _)
  cases he with
  | reject | listen | wait | listenerGone | listenerClose | connected => exact ⟨Nat.le_succ _, rfl⟩
  | connect => exact ⟨World.visited_le (.inl ⟨length_keys_insert_le .., rfl⟩), rfl⟩
  | @accept _ key r l x rest s la pa hl hx hs hest =>
    have hsame := World.replaceListening_visited (N := N) w key l.addr rest
    refine ⟨?_, hsame.2⟩
    rw [← hsame.1]
    exact World.visited_le (.inl ⟨length_keys_insert_le .., rfl⟩)
  | @acceptPending _ key r l x rest s la pa hp hl hx hs hest =>
    have hsame := World.replaceListening_visited (N := N) w key l.addr rest
    refine ⟨?_, hsame.2⟩
    rw [← hsame.1]
    exact World.visited_le (.inl ⟨length_keys_insert_le .., rfl⟩)
  | udpBind => exact ⟨World.visited_le (.inr ⟨rfl, length_keys_insert_le ..⟩), rfl⟩
  | tcpClose | connectDead => exact ⟨World.visited_le (.inl ⟨hfewer .., rfl⟩), rfl⟩
  | udpClose => exact ⟨World.visited_le (.inr ⟨rfl, hfewer ..⟩), rfl⟩

/-- The round of a pass over the sockets comes to its end, and there are as many sockets as before.
-/
def PassesOn (w : World T U) (r : Except Panic (World T U)) : Prop :=
  ∃ v, r = .ok v ∧ v.visited = w.visited ∧ v.ipcDead = w.ipcDead

theorem pump_passes {St S : Type} {states : World T U → HandleMap St}
    {get : World T U → SocketHandle → Except Panic S}
    {work : SocketHandle → St → S → World T U → World T U} {k : SocketHandle}
    (hsome : ∀ st, (states w).lookup k = some st → ∃ s, get w k = .ok s ∧
      (work k st s w).visited = w.visited ∧ (work k st s w).ipcDead = w.ipcDead) :
    PassesOn w (w.pump states get work k) := by
  cases hst : (states w).lookup k with
  | none => exact ⟨w, World.pump_none hst, rfl, rfl⟩
  | some st =>
    obtain ⟨s, hs, hsame⟩ := hsome st hst
    exact ⟨_, World.pump_some hst hs, hsame⟩

namespace Owned

theorem getTcp_entry (ho : Owned w) {k : SocketHandle} {st : TcpSocketState}
    (hst : w.tcpStates.lookup k = some st) : ∃ s, w.getTcp k = .ok s := by
  obtain ⟨s, hs⟩ := ho.live.tcp k st hst
  exact ⟨s, World.getTcp_eq hs⟩

theorem getUdp_entry (ho : Owned w) {k : SocketHandle} {st : UdpSocketState}
    (hst : w.udpStates.lookup k = some st) : ∃ s, w.getUdp k = .ok s := by
  obtain ⟨s, hs⟩ := ho.live.udp k st hst
  exact ⟨s, World.getUdp_eq hs⟩

/-- Only `process_tcp_write` has something to put back into its table, under a key that is there. -/
theorem pumpTcpWrite_passes (ho : Owned w) (k : SocketHandle) :
    PassesOn w (w.pumpTcpWrite N k) := by
  apply pump_passes
  intro st hst
  obtain ⟨s, hs⟩ := ho.getTcp_entry hst
  refine ⟨s, hs, ?_, rfl⟩
  rw [World.visited, World.visited, World.writeTcpEntry, length_keys_insert_of_lookup hst]

theorem pumpTcpRead_passes (ho : Owned w) (k : SocketHandle) : PassesOn w (w.pumpTcpRead N k) :=
  pump_passes fun _ hst => (ho.getTcp_entry hst).imp fun _ hs => ⟨hs, rfl, rfl⟩

theorem pumpUdpWrite_passes (ho : Owned w) (k : SocketHandle) : PassesOn w (w.pumpUdpWrite N k) :=
  pump_passes fun _ hst => (ho.getUdp_entry hst).imp fun _ hs => ⟨hs, rfl, rfl⟩

theorem pumpUdpRead_passes (ho : Owned w) (k : SocketHandle) : PassesOn w (w.pumpUdpRead N k) :=
  pump_passes fun _ hst => (ho.getUdp_entry hst).imp fun _ hs => ⟨hs, rfl, rfl⟩

end Owned

/-- How a step of the task moves it through its iteration. -/
structure Advances (w w' : World T U) : Prop where
  nearer : w.ipcDead = true → w'.left < w.left
  dead : w.ipcDead = true → w'.ipcDead = true
  fits : w.phase.Fits w.visited → w'.phase.Fits w'.visited

theorem PassesOn.advances {r : Except Panic (World T U)} (h : PassesOn w r) {next : Phase}
    (hleft : next.left w.visited < w.left)
    (hfits : w.phase.Fits w.visited → next.Fits w.visited) : Advances w (w.continueAt next r) := by
  obtain ⟨v, rfl, hvis, hipc⟩ := h
  refine ⟨fun _ => ?_, hipc.trans, fun hw => ?_⟩
  · change next.left v.visited < w.left
    rw [hvis]
    exact hleft
  · change next.Fits v.visited
    rw [hvis]
    exact hfits hw

/-- A step that only goes on to the next phase. -/
theorem Advances.next {next : Phase} (hleft : next.left w.visited < w.left)
    (hfits : next.Fits w.visited) : Advances w { w with phase := next } :=
  ⟨fun _ => hleft, id, fun _ => hfits⟩

theorem Advances.panicked (p : Panic) (hleft : 0 < w.left) :
    Advances w { w with phase := .panicked p } :=
  .next hleft trivial

theorem Owned.selectStep_advances (hf : N.FreshHandles) (ho : Owned w) (hph : w.phase = .select)
    (h : w.selectStep N cfg a = some w') : Advances w w' := by
  have hleft : w.left = 2*w.visited + 11 := by
    rw [World.left, hph]
    rfl
  have hstart : Advances w { w with phase := .startWrite } := by
    refine Advances.next ?_ trivial
    rw [hleft, Phase.left]
    omega
  unfold World.selectStep at h
  split at h
  · next cmd rest hrecv =>
    obtain rfl := Option.some.inj h
    obtain ⟨hq, -, -, -⟩ := Chan.tryRecv_ok hrecv
    rcases (ho.popCommand hq _).handleCommand_effect hf cfg (ho.headAllowed hq) with
      ⟨p, -, -, he⟩ | ⟨v, he, heff⟩
    · rw [he]
      exact .panicked p (by omega)
    · rw [he]
      obtain ⟨hvis, hipc⟩ := heff.visited_le
      have hle : v.visited ≤ w.visited + 1 := hvis
      refine ⟨fun _ => ?_, hipc.trans, fun _ => trivial⟩
      change 2*v.visited + 8 < w.left
      omega
  · obtain rfl := Option.some.inj h
    refine Advances.next ?_ trivial
    rw [hleft, Phase.left]
    omega
  · split_ifs at h
    obtain rfl := Option.some.inj h
    exact ⟨hstart.nearer, hstart.dead, hstart.fits⟩
  · obtain rfl := Option.some.inj h
    exact hstart
  · cases h

/-- Each step of the task brings it nearer to the end of its iteration, and to its own end once the
connection to the proxy is lost. -/
theorem Owned.stackStep_advances (hf : N.FreshHandles) (ho : Owned w) (ha : a.ofStack = true)
    (h : w.stackStep N cfg a = some w') : Advances w w' := by
  -- both passes start with all sockets that there are
  have hall : ∀ tcp udp : List SocketHandle,
      tcp.isPerm w.tcpStates.keys ∧ udp.isPerm w.udpStates.keys →
      tcp.length + udp.length = w.visited := by
    intro tcp udp hperm
    rw [(List.isPerm_iff.mp hperm.1).length_eq, (List.isPerm_iff.mp hperm.2).length_eq]
    rfl
  unfold World.stackStep at h
  split at h
  · next hph => exact ho.selectStep_advances hf hph h
  · next tcp udp hph =>
    split_ifs at h with hperm
    obtain rfl := Option.some.inj h
    have hlen := hall tcp udp hperm
    apply Advances.next
    · rw [World.left, hph, Phase.left, Phase.left]
      omega
    · exact Nat.le_of_eq hlen
  · next k tcp udp hph =>
    obtain rfl := Option.some.inj h
    apply (ho.pumpTcpWrite_passes k).advances
    · rw [World.left, hph, Phase.left, Phase.left, List.length_cons]
      omega
    · rw [hph, Phase.Fits, Phase.Fits, List.length_cons]
      omega
  · next k udp hph =>
    obtain rfl := Option.some.inj h
    apply (ho.pumpUdpWrite_passes k).advances
    · rw [World.left, hph, Phase.left, Phase.left, List.length_cons]
      omega
    · rw [hph, Phase.Fits, Phase.Fits, List.length_cons]
      omega
  · next hph =>
    obtain rfl := Option.some.inj h
    refine Advances.next ?_ trivial
    rw [World.left, hph, Phase.left, Phase.left]
    omega
  · next hph =>
    unfold World.pollStep at h
    split at h
    · cases ha
    · cases ha
    · obtain rfl := Option.some.inj h
      refine Advances.next ?_ trivial
      rw [World.left, hph, Phase.left, Phase.left]
      omega
    · cases h
  · next changed tcp udp hph =>
    split_ifs at h with hperm
    obtain rfl := Option.some.inj h
    have hlen := hall tcp udp hperm
    apply Advances.next
    · rw [World.left, hph, Phase.left, Phase.left]
      omega
    · exact Nat.le_of_eq hlen
  · next k tcp udp changed hph =>
    obtain rfl := Option.some.inj h
    apply (ho.pumpTcpRead_passes k).advances
    · rw [World.left, hph, Phase.left, Phase.left, List.length_cons]
      omega
    · rw [hph, Phase.Fits, Phase.Fits, List.length_cons]
      omega
  · next k udp changed hph =>
    obtain rfl := Option.some.inj h
    apply (ho.pumpUdpRead_passes k).advances
    · rw [World.left, hph, Phase.left, Phase.left, List.length_cons]
      omega
    · rw [hph, Phase.Fits, Phase.Fits, List.length_cons]
      omega
  · next hph =>
    obtain rfl := Option.some.inj h
    refine Advances.next ?_ trivial
    rw [World.left, hph, Phase.left, Phase.left]
    omega
  · next order hph =>
    split_ifs at h
    obtain rfl := Option.some.inj h
    obtain ⟨v, hrun, hpath⟩ := ho.processPending_effects hf order
    have hipc : v.ipcDead = w.ipcDead :=
      Effect.path_rule (·.ipcDead = w.ipcDead) rfl (fun _ _ hu he => he.visited_le.2.trans hu) hpath
    rw [hrun]
    refine ⟨fun _ => ?_, hipc.trans, fun _ => trivial⟩
    rw [World.left, World.left, hph]
    exact Nat.lt_succ_self 2
  · next hph =>
    obtain rfl := Option.some.inj h
    refine Advances.next ?_ trivial
    rw [World.left, hph]
    exact Nat.lt_succ_self 2
  · next hph =>
    split_ifs at h with hd
    · obtain rfl := Option.some.inj h
      have hipc : w.failPending.ipcDead = w.ipcDead :=
        World.failOps_rule (·.ipcDead = w.ipcDead) _ rfl (fun _ _ _ _ hv => hv)
      refine ⟨fun _ => ?_, hipc.trans, fun _ => trivial⟩
      rw [World.left, World.left, hph]
      exact Nat.succ_pos 1
    · obtain rfl := Option.some.inj h
      exact ⟨fun hdead => absurd hdead hd, id, fun _ => trivial⟩
  · cases h

theorem Owned.step_advances (hf : N.FreshHandles) (ho : Owned w) (ha : a.ofStack = true)
    (h : World.step N cfg a w = some w') : Advances w w' := by
  unfold World.step at h
  split_ifs at h
  rw [envStep_ofStack ha, Option.none_or] at h
  exact ho.stackStep_advances hf ha h

/-- The connection does not come back. -/
theorem World.envStep_ipcDead (h : w.envStep a = some w') (hdead : w.ipcDead = true) :
    w'.ipcDead = true := by
  cases a with
  | issue cmd =>
    obtain ⟨-, n, rfl⟩ := envStep_issue h
    exact hdead
  | streamRead | dropWriteTx | dropReadRx | dropUdp =>
    simp only [envStep] at h
    split_ifs at h
    obtain rfl := Option.some.inj h
    exact hdead
  | streamWrite | udpSend | udpRecv =>
    simp only [envStep] at h
    split_ifs at h
    split at h
    · obtain rfl := Option.some.inj h
      exact hdead
    · cases h
  | cancel | dropCommands | foreignPort =>
    obtain rfl := Option.some.inj h
    exact hdead
  | ipcDies =>
    obtain rfl := Option.some.inj h
    rfl
  | _ => cases h

/-- The application and smoltcp leave the task where it is. -/
theorem World.step_of_others (ha : a.ofStack = false) (h : World.step N cfg a w = some w') :
    w'.phase = w.phase ∧ w'.visited = w.visited ∧ (w.ipcDead = true → w'.ipcDead = true) := by
  unfold World.step at h
  split_ifs at h
  cases henv : w.envStep a with
  | some v =>
    rw [henv] at h
    obtain rfl := Option.some.inj h
    have hframe := World.envStep_frame henv
    refine ⟨hframe.phase, ?_, World.envStep_ipcDead henv⟩
    rw [World.visited, World.visited, hframe.tcpStates, hframe.udpStates]
  | none =>
    rw [henv, Option.none_or] at h
    unfold World.stackStep at h
    split at h
    · unfold World.selectStep at h
      split at h <;> first | cases ha | cases h
    all_goals try cases ha
    · unfold World.pollStep at h
      split at h
      · split at h
        · obtain rfl := Option.some.inj h
          exact ⟨rfl, rfl, id⟩
        · cases h
      · split at h
        · obtain rfl := Option.some.inj h
          exact ⟨rfl, rfl, id⟩
        · cases h
      · cases ha
      · cases h
    · cases h

theorem Owned.step_ipcDead (hf : N.FreshHandles) (ho : Owned w) (hdead : w.ipcDead = true)
    (h : World.step N cfg a w = some w') : w'.ipcDead = true := by
  cases ha : a.ofStack with
  | true => exact (ho.step_advances hf ha h).dead hdead
  | false => exact (World.step_of_others ha h).2.2 hdead

theorem Owned.step_fits (hf : N.FreshHandles) (ho : Owned w) (hw : w.phase.Fits w.visited)
    (h : World.step N cfg a w = some w') : w'.phase.Fits w'.visited := by
  cases ha : a.ofStack with
  | true => exact (ho.step_advances hf ha h).fits hw
  | false =>
    obtain ⟨hph, hvis, -⟩ := World.step_of_others ha h
    rw [hph, hvis]
    exact hw

/-- The task is never stuck: as long as it runs, it can go on. -/
theorem World.Running.enabled (N : Smoltcp T U E) (cfg : StackConfig) (h : w.Running) :
    ∃ a v, a.ofStack = true ∧ World.step N cfg a w = some v := by
  have hgo : ∀ a : Action E, a.ofStack = true → (w.stackStep N cfg a).isSome = true →
      ∃ a v, a.ofStack = true ∧ World.step N cfg a w = some v := by
    intro a ha hsome
    obtain ⟨v, hv⟩ := Option.isSome_iff_exists.mp hsome
    refine ⟨a, v, ha, ?_⟩
    rw [World.step, if_pos h, envStep_ofStack ha, Option.none_or]
    exact hv
  have hperm : ∀ l : List SocketHandle, l.isPerm l = true := fun l => List.isPerm_iff.mpr .rfl
  cases hph : w.phase with
  | select =>
    cases hrecv : w.commands.tryRecv with
    | ok p =>
      apply hgo .command rfl
      simp [stackStep, hph, selectStep, hrecv]
    | error e =>
      cases e with
      | empty =>
        apply hgo .timeout rfl
        simp [stackStep, hph, selectStep, hrecv]
      | disconnected =>
        apply hgo .disconnected rfl
        simp [stackStep, hph, selectStep, hrecv]
  | startWrite =>
    apply hgo (.beginWrite w.tcpStates.keys w.udpStates.keys) rfl
    simp [stackStep, hph, hperm]
  | write tcp udp =>
    cases tcp with
    | cons k tcp =>
      apply hgo .writeTcp rfl
      simp [stackStep, hph]
    | nil =>
      cases udp with
      | cons k udp =>
        apply hgo .writeUdp rfl
        simp [stackStep, hph]
      | nil =>
        apply hgo .endWrite rfl
        simp [stackStep, hph]
  | poll =>
    apply hgo (.endPoll true) rfl
    simp [stackStep, hph, pollStep]
  | startRead changed =>
    apply hgo (.beginRead w.tcpStates.keys w.udpStates.keys) rfl
    simp [stackStep, hph, hperm]
  | read tcp udp changed =>
    cases tcp with
    | cons k tcp =>
      apply hgo .readTcp rfl
      simp [stackStep, hph]
    | nil =>
      cases udp with
      | cons k udp =>
        apply hgo .readUdp rfl
        simp [stackStep, hph]
      | nil =>
        apply hgo .endRead rfl
        simp [stackStep, hph]
  | pend changed =>
    cases changed with
    | true =>
      apply hgo (.pending w.pending.keys) rfl
      simp [stackStep, hph, hperm]
    | false =>
      apply hgo .skipPending rfl
      simp [stackStep, hph]
  | check =>
    apply hgo .checkDead rfl
    by_cases hd : w.ipcDead = true <;> simp [stackStep, hph, hd]
  | returned | panicked =>
    unfold World.Running at h
    rw [hph] at h
    exact h.elim

end Steps

theorem Reach.phase_fits (hf : N.FreshHandles) {cfg : StackConfig} {port : UInt16} {w : World T U}
    (h : Reach N cfg port w) : w.phase.Fits w.visited := by
  apply h.invariant_with _ (fun w => w.phase.Fits w.visited) Owned (fun _ hr => Reach.owned hf hr)
  · obtain ⟨ips, p, he, hp⟩ := init_cases N cfg port
    rw [he]
    rcases hp with rfl | ⟨q, -, rfl⟩ <;> trivial
  · intro s t a ho hs _ ht
    exact ho.step_fits hf hs ht

/-- Once the connection to the proxy is lost, or the tunnel has been closed, the stack task comes to
its end with the current iteration: whatever the application and smoltcp do in between, it takes at
most a fixed number of further steps, two for each socket and a few for the iteration itself. It
never waits on the way there, since some step of it is enabled as long as it runs. -/
theorem stack_stops (N : Smoltcp T U E) (hf : N.FreshHandles) (cfg : StackConfig) (port : UInt16)
    (w : World T U) (h : Reach N cfg port w) (hdead : w.ipcDead = true) (as : List (Action E))
    (v : World T U) (hv : runActions (World.step N cfg) as w = some v) :
    as.countP Action.ofStack ≤ 2*(w.tcpStates.keys.length + w.udpStates.keys.length) + 11 ∧
    (v.Running → ∃ a v', a.ofStack = true ∧ World.step N cfg a v = some v') := by
  have howned := Reach.owned hf h
  have hcount : as.countP Action.ofStack + v.left ≤ w.left := by
    apply countP_le_of_variant (P := fun w => Owned w ∧ w.ipcDead = true) World.left _ _ _
      ⟨howned, hdead⟩ hv
    · intro s t a hs ht
      exact ⟨hs.1.transition hf (hs.1.step_transition hf ht), hs.1.step_ipcDead hf hs.2 ht⟩
    · intro s t a hs ha ht
      exact (hs.1.step_advances hf ha ht).nearer hs.2
    · intro s t a hs ha ht
      obtain ⟨hph, hvis, -⟩ := World.step_of_others ha ht
      rw [World.left, World.left, hph, hvis]
  have hmax : w.left ≤ 2*w.visited + 11 := (Reach.phase_fits hf h).left_le
  refine ⟨?_, fun hrun => hrun.enabled N cfg⟩
  change _ ≤ 2*w.visited + 11
  omega

/-- An iteration with one stream, during which the application goes on writing. -/
def lastIteration : List (Action RefEvent) :=
  .timeout::.streamWrite 0 [7]::iteration [0] [] none

theorem stack_stops_acceptRun : ∃ w v : World RefTcp RefUdp, Reach refNet hostCfg 49152 w ∧
    w.ipcDead = true ∧ runActions (World.step refNet hostCfg) lastIteration w = some v ∧
    v.phase = .returned ∧ lastIteration.countP Action.ofStack ≤ 13 := by
  have hrun : (runActions (World.step refNet hostCfg) (acceptRun ++ [.ipcDies])
        (World.init refNet hostCfg 49152)).bind (fun w =>
      (runActions (World.step refNet hostCfg) lastIteration w).map fun v =>
        decide (w.ipcDead = true ∧ w.visited = 1 ∧ v.phase = .returned)) = some true := by
    decide +kernel
  obtain ⟨w, hw, hrest⟩ := Option.bind_eq_some_iff.mp hrun
  obtain ⟨v, hv, hp⟩ := Option.map_eq_some_iff.mp hrest
  obtain ⟨hdead, hvis, hret⟩ := of_decide_eq_true hp
  have hreach : Reach refNet hostCfg 49152 w := Reachable.run _ .start hw
  have hstop := stack_stops refNet refNet_freshHandles hostCfg 49152 w hreach hdead
    lastIteration v hv
  have hcount : lastIteration.countP Action.ofStack ≤ 2*w.visited + 11 := hstop.1
  rw [hvis] at hcount
  exact ⟨w, v, hreach, hdead, hv, hret, hcount⟩

end TapTunnel.Stack
