import TapTunnel.Stack.StepCases

namespace TapTunnel.Stack

open Framework

variable {T U E : Type} {N : Smoltcp T U E}

/-- How many response senders of a request there are or have been used: answers to it, pending
operations that hold it and commands that will bring it. -/
def World.tally (w : World T U) (r : ReqId) : Nat :=
  w.answers.countP (·.1 = r) + Table.countVal (·.response = r) w.pending +
    w.commands.queue.countP (·.response = some r)

namespace World

variable {w w' : World T U} {r : ReqId}

theorem tally_answer (w : World T U) (q : ReqId) (rep : Reply) (r : ReqId) :
    (w.answer q rep).tally r = w.tally r + (decide (q = r)).toNat := by
  by_cases hq : q = r
  · simp only [tally, answer, List.countP_append, List.countP_singleton, hq]
    simp only [decide_true, Bool.toNat_true, if_true]
    omega
  · simp only [tally, answer, List.countP_append, List.countP_singleton, hq]
    simp

theorem tally_insertPending (w : World T U) (k : SocketHandle) (op : PendingOp) (r : ReqId) :
    (w.insertPending k op).tally r ≤ w.tally r + (decide (op.response = r)).toNat := by
  have h := Table.countVal_insert_le (·.response = r) w.pending k op
  simp only [tally, insertPending]
  omega

theorem tally_dropPending (w : World T U) (k : SocketHandle) (r : ReqId) :
    (w.dropPending k).tally r ≤ w.tally r := by
  have h := Table.countVal_erase_le (·.response = r) w.pending k
  simp only [tally, dropPending]
  omega

/-- An operation that is taken out and answered counts as before. -/
theorem tally_finish {k : SocketHandle} {op : PendingOp} (hp : w.pending.lookup k = some op)
    (r : ReqId) : (w.takePending k).tally r + (decide (op.response = r)).toNat = w.tally r := by
  have h := Table.countVal_erase_add (·.response = r) hp
  simp only [tally, takePending]
  omega

theorem tally_replaceListening (w : World T U) (key : SocketHandle) (addr : SocketAddr)
    (rest : List SocketHandle) (r : ReqId) :
    (w.replaceListening N key addr rest).tally r = w.tally r := by
  unfold replaceListening
  split <;> rfl

theorem replaceListening_requests (w : World T U) (key : SocketHandle) (addr : SocketAddr)
    (rest : List SocketHandle) :
    (w.replaceListening N key addr rest).commands = w.commands ∧
      (w.replaceListening N key addr rest).nextReq = w.nextReq := by
  unfold replaceListening
  split <;> exact ⟨rfl, rfl⟩

end World

/-- The sender that a command brings counts for the request of the command. -/
theorem StackCommand.brings {cmd : StackCommand} {q : ReqId} (hq : cmd.response = some q)
    (r : ReqId) :
    (decide ((some cmd).bind StackCommand.response = some r)).toNat = (decide (q = r)).toNat := by
  rw [Option.bind_some, hq]
  simp only [Option.some.injEq]

/-- An effect brings at most one more of the sender its command came with. -/
theorem Effect.tally {c : Option StackCommand} {w w' : World T U} (he : Effect N c w w')
    (r : ReqId) :
    w'.tally r ≤ w.tally r + (decide (c.bind StackCommand.response = some r)).toNat := by
  cases he with
  | reject m port ips rep hr hm hb =>
    rw [StackCommand.brings hr]
    exact Nat.le_of_eq (World.tally_answer ..)
  | connect k s port la hk hs hport =>
    rw [StackCommand.brings rfl]
    exact w.tally_insertPending k _ r
  | listen m hs primary hp hlen hnd hport hold hnew hrest =>
    rw [StackCommand.brings rfl]
    exact Nat.le_of_eq (World.tally_answer ..)
  | accept l x rest s la pa hl hx hs hest =>
    rename_i key q
    rw [StackCommand.brings rfl]
    have h := World.tally_answer (w.replaceListening N key l.addr rest) q
      (.tcp (.ok (x, la, pa, (w.replaceListening N key l.addr rest).nextChan))) r
    rw [World.tally_replaceListening] at h
    exact Nat.le_of_eq h
  | wait l hl hnone =>
    rw [StackCommand.brings rfl]
    exact w.tally_insertPending _ _ r
  | listenerGone hl => exact Nat.le_add_right_of_le (w.tally_dropPending _ r)
  | listenerClose l m hl hout hin => exact Nat.le_add_right_of_le (w.tally_dropPending _ r)
  | tcpClose s hs => exact Nat.le_add_right _ _
  | udpBind k s port addr hk =>
    rw [StackCommand.brings rfl]
    exact Nat.le_of_eq (World.tally_answer ..)
  | udpClose s hs => exact Nat.le_add_right _ _
  | connected la pa ch q hp =>
    rename_i k
    have h := World.tally_finish hp r
    rw [World.tally_answer]
    exact Nat.le_of_eq h
  | connectDead la pa ch q e hp =>
    rename_i k
    have h := World.tally_finish hp r
    have h1 := World.tally_answer ((w.dropPending k).removeTcpState k) q (.tcp (.error e)) r
    exact Nat.le_of_eq (h1.trans h)
  | acceptPending q l x rest s la pa hp hl hx hs hest =>
    rename_i key
    have hp' : (w.replaceListening N key l.addr rest).pending.lookup key = some (.tcpAccept q) := by
      rwa [World.replaceListening_pending]
    have h := World.tally_finish hp' r
    rw [World.tally_replaceListening] at h
    have h1 := World.tally_answer ((w.replaceListening N key l.addr rest).takePending key) q
      (.tcp (.ok (x, la, pa, (w.replaceListening N key l.addr rest).nextChan))) r
    exact Nat.le_of_eq (h1.trans h)

theorem Effect.requests {c : Option StackCommand} {w w' : World T U} (he : Effect N c w w') :
    w'.commands = w.commands ∧ w'.nextReq = w.nextReq := by
  cases he with
  | accept | acceptPending => exact World.replaceListening_requests ..
  | _ => exact ⟨rfl, rfl⟩

theorem World.MayIssue.response {w : World T U} {cmd : StackCommand} (h : w.MayIssue cmd) :
    cmd.response = none ∨ cmd.response = some w.nextReq := by
  cases cmd with
  | tcpListenerClose | tcpClose | udpClose => exact .inl rfl
  | tcpAccept => exact .inr (congrArg some h.2)
  | _ => exact .inr (congrArg some h)

/-- Only `issue` brings a sender, of a new request. -/
theorem World.envStep_tally {w w' : World T U} {a : Action E} (h : w.envStep a = some w') :
    w.nextReq ≤ w'.nextReq ∧ ∀ r, w'.tally r = w.tally r ∨
      (r = w.nextReq ∧ r < w'.nextReq ∧ w'.tally r = w.tally r + 1) := by
  have hstill : ∀ w' : World T U, w'.answers = w.answers → w'.pending = w.pending →
      w'.commands.queue = w.commands.queue → w'.nextReq = w.nextReq →
      w.nextReq ≤ w'.nextReq ∧ ∀ r, w'.tally r = w.tally r ∨
        (r = w.nextReq ∧ r < w'.nextReq ∧ w'.tally r = w.tally r + 1) := by
    intro w' ha hp hq hn
    refine ⟨Nat.le_of_eq hn.symm, fun r => .inl ?_⟩
    rw [tally, tally, ha, hp, hq]
  cases a with
  | issue cmd =>
    simp only [envStep] at h
    split_ifs at h with hg hsome
    · split at h
      · next q hs =>
        obtain rfl := Option.some.inj h
        obtain ⟨-, -, rfl⟩ := Chan.trySend_ok hs
        have hr : cmd.response = some w.nextReq := by
          refine hg.1.response.resolve_left (fun hnone => ?_)
          rw [hnone] at hsome
          cases hsome
        refine ⟨Nat.le_succ _, fun r => ?_⟩
        by_cases hw : w.nextReq = r
        · refine .inr ⟨hw.symm, hw ▸ Nat.lt_succ_self _, ?_⟩
          simp only [tally, List.countP_append, List.countP_singleton, hr, hw, decide_true, if_true]
          omega
        · refine .inl ?_
          simp [tally, hr, hw]
      · cases h
    · split at h
      · next q hs =>
        obtain rfl := Option.some.inj h
        obtain ⟨-, -, rfl⟩ := Chan.trySend_ok hs
        have hr : cmd.response = none := by simpa using hsome
        refine ⟨Nat.le_refl _, fun r => .inl ?_⟩
        simp [tally, hr]
      · cases h
  | cancel | dropCommands | foreignPort | ipcDies =>
    obtain rfl := Option.some.inj h
    exact hstill _ rfl rfl rfl rfl
  | streamRead | dropWriteTx | dropReadRx | dropUdp =>
    simp only [envStep] at h
    split_ifs at h
    obtain rfl := Option.some.inj h
    exact hstill _ rfl rfl rfl rfl
  | streamWrite | udpSend | udpRecv =>
    simp only [envStep] at h
    split_ifs at h
    split at h
    · obtain rfl := Option.some.inj h
      exact hstill _ rfl rfl rfl rfl
    · cases h
  | _ => cases h

theorem World.running_of_step {cfg : StackConfig} {w w' : World T U} {a : Action E}
    (h : World.step N cfg a w = some w') : w.Running := by
  unfold World.step at h
  split_ifs at h with hrun
  exact hrun

/-- No request has two senders, and requests that were not made yet have none. -/
def SendersOnce (w : World T U) : Prop :=
  ∀ r, w.tally r ≤ 1 ∧ (w.nextReq ≤ r → w.tally r = 0)

namespace SendersOnce

variable {w w' : World T U}

theorem mono (h : SendersOnce w) (ht : ∀ r, w'.tally r ≤ w.tally r)
    (hn : w.nextReq ≤ w'.nextReq) : SendersOnce w' := by
  intro r
  have hr := ht r
  obtain ⟨h1, h2⟩ := h r
  refine ⟨Nat.le_trans hr h1, fun hle => ?_⟩
  have h0 := h2 (Nat.le_trans hn hle)
  omega

theorem effects (h : SendersOnce w) (he : Relation.ReflTransGen (Effect N none) w w') :
    SendersOnce w' := by
  refine Effect.path_rule SendersOnce h (fun u v hu he => ?_) he
  exact hu.mono he.tally (Nat.le_of_eq he.requests.2.symm)

/-- Step lemma. What is left when the connection to the proxy is lost ends the task. -/
theorem transition {a : Action E} (h : SendersOnce w) (ht : Transition N a w w') :
    w'.Running → SendersOnce w' := by
  intro hrun
  cases ht with
  | env he =>
    obtain ⟨hn, hr⟩ := World.envStep_tally he
    intro r
    obtain ⟨h1, h2⟩ := h r
    rcases hr r with heq | ⟨hnew, hlt, heq⟩
    · rw [heq]
      exact ⟨h1, fun hle => h2 (Nat.le_trans hn hle)⟩
    · have h0 := h2 (Nat.le_of_eq hnew.symm)
      refine ⟨by omega, fun hle => ?_⟩
      exact absurd hlt (Nat.not_lt_of_le hle)
  | control p notify hp hw => exact h.mono (fun _ => Nat.le_refl _) (Nat.le_refl _)
  | command cmd rest hph hq he =>
    obtain ⟨hcmds, hn⟩ := he.requests
    refine h.mono (fun r => ?_) (Nat.le_of_eq hn.symm)
    have hpop : World.tally { w with
        commands := rest
        received := w.received ++ cmd.response.toList } r +
          (decide ((some cmd).bind StackCommand.response = some r)).toNat = w.tally r := by
      simp only [World.tally, hq, List.countP_cons, Option.bind_some]
      by_cases hr : cmd.response = some r
      · simp only [hr, decide_true, Bool.toNat_true, if_true]
        omega
      · simp [hr]
    exact Nat.le_trans (he.tally r) (Nat.le_of_eq hpop)
  | writeTcp | writeUdp | tcpEvent | udpEvent | readTcp | readUdp =>
    exact h.mono (fun _ => Nat.le_refl _) (Nat.le_refl _)
  | pending order he =>
    have hend := h.effects he
    exact hend
  | fail => exact hrun.elim

/-- The only answer to a request. -/
theorem answers_eq (h : SendersOnce w) {r : ReqId} {rep : Reply} (hm : (r, rep) ∈ w.answers) :
    w.answers.filter (·.1 = r) = [(r, rep)] := by
  have hle : (w.answers.filter (·.1 = r)).length ≤ 1 := by
    have hr := (h r).1
    unfold World.tally at hr
    rw [← List.countP_eq_length_filter]
    omega
  have hmem : (r, rep) ∈ w.answers.filter (·.1 = r) := by simp [hm]
  obtain ⟨p, hp⟩ := List.length_eq_one_iff.mp (Nat.le_antisymm hle (List.length_pos_of_mem hmem))
  rw [hp] at hmem ⊢
  rw [List.mem_singleton.mp hmem]

theorem not_answered (h : SendersOnce w) {k : SocketHandle} {op : PendingOp}
    (hp : w.pending.lookup k = some op) : ¬w.Answered op.response := by
  rintro ⟨p, hm, hr⟩
  have hans : 0 < w.answers.countP (·.1 = op.response) :=
    List.countP_pos_iff.mpr ⟨p, hm, by simpa using hr⟩
  have hpend := Table.countVal_pos (·.response = op.response) hp (by simp)
  have hle := (h op.response).1
  unfold World.tally at hle
  omega

end SendersOnce

/-- In every state of a run no request has two senders, so none is answered twice. -/
theorem Reach.sendersOnce (hf : N.FreshHandles) {cfg : StackConfig} {port : UInt16}
    {w : World T U} (h : Reach N cfg port w) : w.Running → SendersOnce w := by
  refine h.invariant_with _ (fun w => w.Running → SendersOnce w) Owned
    (fun _ hr => Reach.owned hf hr) ?_ ?_
  · intro _ r
    obtain ⟨ips, p, hw, -⟩ := init_cases N cfg port
    rw [hw]
    exact ⟨Nat.zero_le _, fun _ => rfl⟩
  · intro s t a ho hs _ hstep
    exact (hs (World.running_of_step hstep)).transition (ho.step_transition hf hstep)

end TapTunnel.Stack
