import TapTunnel.Framework.Simulation
import TapTunnel.Stack.HandleSafety
import TapTunnel.Stack.AnswersOnce
import TapTunnel.Stack.ConnectDone
import TapTunnel.Stack.ListenPorts

namespace TapTunnel.Stack

open Framework Reference

variable {T U E : Type} {N : Smoltcp T U E}

@[simp] theorem makeSocketAddr_ip (ip : IpAddr) (port : UInt16) :
    (makeSocketAddr ip port).ip = ip := by
  cases ip <;> rfl

@[simp] theorem makeSocketAddr_port (ip : IpAddr) (port : UInt16) :
    (makeSocketAddr ip port).port = port := by
  cases ip <;> rfl

/-- What may be sent through the oneshot of a command. A stream or a socket comes with the addresses
that the caller asked for, and an accepted stream with the port of the listener, which an earlier
answer gave to the application. -/
def StackCommand.Fits (cfg : StackConfig) (An : List (ReqId × Reply)) :
    StackCommand → Reply → Prop
  | .tcpConnect localIp addr _, .tcp res => ∀ h la pa ch, res = .ok (h, la, pa, ch) →
      la.ip = localIp.getD cfg.ip ∧ pa = addr
  | .tcpListen addr _ _, .listen res => ∀ h la, res = .ok (h, la) → la = addr
  | .tcpAccept key _, .tcp res => ∀ h la pa ch, res = .ok (h, la, pa, ch) →
      ∃ r addr, (r, Reply.listen (.ok (key, addr))) ∈ An ∧ la.port = addr.port
  | .udpBind addr _, .udp res => ∀ h la ch, res = .ok (h, la, ch) →
      la.ip = addr.ip ∧ (addr.port ≠ 0 → la.port = addr.port)
  | .addIp _ _ _, .unit _ => True
  | .removeIp _ _, .unit res => res = .ok ()
  | .getIps _, .ips _ => True
  | _, _ => False

theorem StackCommand.Fits.mono {cfg : StackConfig} {An An' : List (ReqId × Reply)}
    {cmd : StackCommand} {rep : Reply} (h : cmd.Fits cfg An rep) (ha : An <+: An') :
    cmd.Fits cfg An' rep := by
  cases cmd with
  | tcpAccept key r =>
    cases rep with
    | tcp res =>
      intro x la pa ch hres
      obtain ⟨q, addr, hq, hport⟩ := h x la pa ch hres
      exact ⟨q, addr, ha.subset hq, hport⟩
    | _ => exact h
  | _ => cases rep <;> exact h

/-- The command whose answer an operation stored under `k` waits for. -/
def PendingOp.Serves (cfg : StackConfig) (k : SocketHandle) (cmd : StackCommand) : PendingOp → Prop
  | .tcpConnect la pa _ r => ∃ localIp, cmd = .tcpConnect localIp pa r ∧ la.ip = localIp.getD cfg.ip
  | .tcpAccept r => cmd = .tcpAccept k r

theorem PendingOp.Serves.response {cfg : StackConfig} {k : SocketHandle} {cmd : StackCommand}
    {op : PendingOp} (h : op.Serves cfg k cmd) : cmd.response = some op.response := by
  cases op with
  | tcpConnect la pa ch r =>
    obtain ⟨localIp, hcmd, -⟩ := h
    rw [hcmd]
    rfl
  | tcpAccept r =>
    rw [show cmd = .tcpAccept k r from h]
    rfl

/-- An error is an answer to any command that opens a stream. -/
theorem PendingOp.Serves.fits_error {cfg : StackConfig} {k : SocketHandle} {cmd : StackCommand}
    {op : PendingOp} (h : op.Serves cfg k cmd) (An : List (ReqId × Reply)) (e : IoError) :
    cmd.Fits cfg An (.tcp (.error e)) := by
  cases op with
  | tcpConnect la pa ch r =>
    obtain ⟨localIp, hcmd, -⟩ := h
    rw [hcmd]
    intro x la pa ch hres
    cases hres
  | tcpAccept r =>
    rw [show cmd = .tcpAccept k r from h]
    intro x la pa ch hres
    cases hres

/-- The endpoint that a socket reports is on its local port. -/
def LocalEndpoints (P : N.TcpPorts) : Prop :=
  ∀ s ep, N.localEndpoint s = some ep → P.localPort s = some ep.port

section Accepting

variable {P : N.TcpPorts} {w : World T U}

/-- The search reports a local address on the port of the listener. -/
theorem findEstablished_port (hP : LocalEndpoints P) (addr : SocketAddr)
    (hs : List SocketHandle)
    (hport : ∀ x ∈ hs, ∀ s, w.sockets.lookup x = some (.tcp s) →
      P.localPort s = some addr.port ∨ P.localPort s = none) (idx : Nat) {i : Nat}
    {la pa : SocketAddr} (h : World.findEstablished N w addr hs idx = .ok (some (i, la, pa))) :
    la.port = addr.port := by
  induction hs generalizing idx with
  | nil => cases h
  | cons x hs ih =>
    have htail := ih (fun y hy => hport y (List.mem_cons_of_mem x hy)) (idx + 1)
    cases hx : w.sockets.lookup x with
    | none =>
      simp only [World.findEstablished, World.getTcp, hx, bind, Except.bind] at h
      cases h
    | some v =>
      cases v with
      | udp u =>
        simp only [World.findEstablished, World.getTcp, hx, bind, Except.bind] at h
        cases h
      | tcp s =>
        rw [World.findEstablished_cons addr hx] at h
        split_ifs at h with hest
        · cases hr : N.remoteEndpoint s with
          | none =>
            rw [hr] at h
            exact htail h
          | some remote =>
            rw [hr] at h
            cases hl : N.localEndpoint s with
            | none =>
              rw [hl] at h
              cases h
              rfl
            | some ep =>
              rw [hl] at h
              cases h
              have hep := hP s ep hl
              rcases hport x List.mem_cons_self s hx with hs | hs
              · rw [hep] at hs
                exact (makeSocketAddr_port _ _).trans (Option.some.inj hs)
              · rw [hep] at hs
                cases hs
        · exact htail h

theorem tryAcceptSocket_port (hP : LocalEndpoints P) (key : SocketHandle) (l : ListenerState)
    (hport : ∀ x ∈ l.listeningHandles, ∀ s, w.sockets.lookup x = some (.tcp s) →
      P.localPort s = some l.addr.port ∨ P.localPort s = none) {w' : World T U}
    {x : SocketHandle} {la pa : SocketAddr}
    (h : World.tryAcceptSocket N key l w = .ok (w', some (x, la, pa))) :
    la.port = l.addr.port := by
  unfold World.tryAcceptSocket at h
  cases hf : World.findEstablished N w l.addr l.listeningHandles 0 with
  | error e =>
    rw [hf] at h
    cases h
  | ok res =>
    rw [hf] at h
    cases res with
    | none => cases h
    | some found =>
      obtain ⟨i, la', pa'⟩ := found
      simp only [bind, Except.bind] at h
      cases hi : l.listeningHandles[i]? with
      | none =>
        rw [hi] at h
        cases h
      | some y =>
        rw [hi] at h
        cases h
        exact findEstablished_port hP l.addr l.listeningHandles hport 0 hf

end Accepting

/-- What handling a command does to the calls: it is answered, stored, or it was a close that nobody
waits for. -/
inductive Handled (cfg : StackConfig) (cmd : StackCommand) (w w' : World T U) : Prop
  | answered (r : ReqId) (rep : Reply) (hr : cmd.response = some r)
      (hfit : cmd.Fits cfg w.answers rep) (ha : w'.answers = w.answers ++ [(r, rep)])
      (hp : w'.pending = w.pending)
  | stored (k : SocketHandle) (op : PendingOp) (hop : op.Serves cfg k cmd)
      (ha : w'.answers = w.answers) (hp : w'.pending = w.pending.insert k op)
  | closed (ha : w'.answers = w.answers)
      (hp : ∀ k op, w'.pending.lookup k = some op → w.pending.lookup k = some op)

namespace Handled

variable {P : N.TcpPorts} {cfg : StackConfig} {w w' : World T U}

theorem tcpConnect {localIp : Option IpAddr} {addr : SocketAddr} {r : ReqId}
    (h : w.handleTcpConnect N cfg localIp addr r = .ok w') :
    Handled cfg (.tcpConnect localIp addr r) w w' := by
  let k := N.fresh w.sockets.keys
  let w1 := (w.setTcp k N.tcpNew).allocateEphemeralPort.2
  have hget : w1.getTcp k = .ok N.tcpNew := World.getTcp_eq (AList.lookup_insert _)
  change (w1.getTcp k >>= _) = _ at h
  simp only [hget, bind, Except.bind] at h
  split at h
  · next e he =>
    cases h
    refine .answered r _ rfl ?_ rfl rfl
    intro x la pa ch hres
    cases hres
  · next s hs =>
    cases h
    exact .stored k (.tcpConnect (makeSocketAddr (localIp.getD cfg.ip) w.ephemeralPort) addr
      w.nextChan r) ⟨localIp, rfl, makeSocketAddr_ip _ _⟩ rfl rfl

theorem tcpListen (hf : N.FreshHandles) {addr : SocketAddr} {backlog : Nat} {r : ReqId}
    (h : w.handleTcpListen N addr backlog r = .ok w') :
    Handled cfg (.tcpListen addr backlog r) w w' := by
  rcases World.handleTcpListen_cases hf addr backlog r with
    ⟨m, e, -, -, hrun⟩ | ⟨m, hs, primary, -, -, -, -, -, -, -, -, hrun⟩
  · cases hrun.symm.trans h
    refine .answered r _ rfl ?_ rfl rfl
    intro x la hres
    cases hres
  · cases hrun.symm.trans h
    refine .answered r _ rfl ?_ rfl rfl
    intro x la hres
    cases hres
    rfl

theorem tcpAccept (hP : LocalEndpoints P) (ho : Owned w) (hL : ListensOn P w) {key : SocketHandle}
    {r : ReqId} (h : w.handleTcpAccept N key r = .ok w') :
    Handled cfg (.tcpAccept key r) w w' := by
  cases hl : w.listeners.lookup key with
  | none =>
    cases (World.handleTcpAccept_none hl).symm.trans h
    refine .answered r _ rfl ?_ rfl rfl
    intro x la pa ch hres
    cases hres
  | some l =>
    rcases World.tryAcceptSocket_cases (N := N) key l (ho.live.listening key l hl) with
      ⟨he, -⟩ | ⟨x, rest, s, la, pa, -, -, -, he⟩
    · simp only [World.handleTcpAccept, hl, he, bind, Except.bind] at h
      cases h
      exact .stored key (.tcpAccept r) rfl rfl rfl
    · simp only [World.handleTcpAccept, hl, he, bind, Except.bind] at h
      cases h
      refine .answered r (.tcp (.ok (x, la, pa, (w.replaceListening N key l.addr rest).nextChan)))
        rfl ?_ (by simp) (by simp)
      intro y la' pa' ch hres
      cases hres
      obtain ⟨q, hq⟩ := hL.given key l hl
      exact ⟨q, l.addr, hq, tryAcceptSocket_port hP key l (hL.port key l hl) he⟩

theorem tcpListenerClose (ho : Owned w) {key : SocketHandle}
    (h : w.handleTcpListenerClose N key = .ok w') :
    Handled cfg (.tcpListenerClose key) w w' := by
  cases hl : w.listeners.lookup key with
  | none =>
    cases (World.handleTcpListenerClose_none hl).symm.trans h
    exact .closed rfl (fun k op hk => (Table.erase_cases hk).2)
  | some l =>
    obtain ⟨m, hrun, -, -⟩ := World.handleTcpListenerClose_some (N := N) hl
      (ho.live.listening key l hl) (ho.apart.nodup key l hl)
    cases hrun.symm.trans h
    exact .closed rfl (fun k op hk => (Table.erase_cases hk).2)

theorem udpBind {addr : SocketAddr} {r : ReqId} (h : w.handleUdpBind N addr r = .ok w') :
    Handled cfg (.udpBind addr r) w w' := by
  by_cases hp : addr.port = 0
  · simp only [World.handleUdpBind, if_pos hp, World.allocateEphemeralPort] at h
    split at h
    · cases h
      refine .answered r _ rfl ?_ rfl rfl
      intro x la ch hres
      cases hres
    · cases h
      refine .answered r _ rfl ?_ rfl rfl
      intro x la ch hres
      cases hres
      exact ⟨makeSocketAddr_ip _ _, fun hne => absurd hp hne⟩
  · simp only [World.handleUdpBind, if_neg hp] at h
    split at h
    · cases h
      refine .answered r _ rfl ?_ rfl rfl
      intro x la ch hres
      cases hres
    · cases h
      refine .answered r _ rfl ?_ rfl rfl
      intro x la ch hres
      cases hres
      exact ⟨makeSocketAddr_ip _ _, fun _ => makeSocketAddr_port _ _⟩

theorem addIp {ip : IpAddr} {prefixLen : UInt8} {r : ReqId}
    (h : w.handleAddIp N ip prefixLen r = .ok w') : Handled cfg (.addIp ip prefixLen r) w w' := by
  rcases World.handleAddIp_cases (N := N) ip prefixLen r with ⟨p, -, hrun⟩ | ⟨ips, res, -, hrun⟩
  · cases hrun.symm.trans h
  · cases hrun.symm.trans h
    exact .answered r (.unit res) rfl trivial rfl rfl

theorem removeIp {ip : IpAddr} {r : ReqId} (h : w.handleRemoveIp N ip r = .ok w') :
    Handled cfg (.removeIp ip r) w w' := by
  unfold World.handleRemoveIp at h
  rcases w.updateIpAddrs_cases (N := N)
    (w.ipAddrs.filter (fun c => c.address != ipAddrToSmoltcp ip)) with ⟨-, hu⟩ | hu
  · simp only [hu, bind, Except.bind] at h
    cases h
    exact .answered r (.unit (.ok ())) rfl rfl rfl rfl
  · simp only [hu, bind, Except.bind] at h
    cases h

/-- Every command is handled. -/
theorem handleCommand (hf : N.FreshHandles) (hP : LocalEndpoints P) (ho : Owned w)
    (hL : ListensOn P w) {cmd : StackCommand} (hc : CommandAllowed w.answers cmd)
    (h : World.handleCommand N cfg cmd w = .ok w') : Handled cfg cmd w w' := by
  cases cmd with
  | tcpConnect localIp addr r => exact tcpConnect h
  | tcpListen addr backlog r => exact tcpListen hf h
  | tcpAccept key r => exact tcpAccept hP ho hL h
  | tcpListenerClose key => exact tcpListenerClose ho h
  | tcpClose k =>
    obtain ⟨s, hs⟩ := ho.live.stream k hc
    cases (World.handleTcpClose_eq hs).symm.trans h
    exact .closed rfl (fun _ _ hk => hk)
  | udpBind addr r => exact udpBind h
  | udpClose k =>
    obtain ⟨s, hs⟩ := ho.live.gaveUdp k hc
    cases (World.handleUdpClose_eq hs).symm.trans h
    exact .closed rfl (fun _ _ hk => hk)
  | addIp ip prefixLen r => exact addIp h
  | removeIp ip r => exact removeIp h
  | getIps r =>
    cases h
    exact .answered r (.ips _) rfl trivial rfl rfl

end Handled

/-- A round of `process_pending` leaves the calls alone, or answers an operation as its command
allows. -/
theorem processPendingOne_fits (cfg : StackConfig) {P : N.TcpPorts} {w w' : World T U}
    (hP : LocalEndpoints P) (ho : Owned w) (hL : ListensOn P w) {k : SocketHandle}
    (h : w.processPendingOne N k = .ok w') : w' = w ∨
    ∃ op rep, w.pending.lookup k = some op ∧ w'.answers = w.answers ++ [(op.response, rep)] ∧
      w'.pending = w.pending.erase k ∧
      ∀ cmd, op.Serves cfg k cmd → cmd.Fits cfg w.answers rep := by
  unfold World.processPendingOne at h
  cases hp : w.pending.lookup k with
  | none =>
    rw [hp] at h
    cases h
    exact .inl rfl
  | some op =>
    rw [hp] at h
    cases op with
    | tcpConnect la pa ch r =>
      obtain ⟨⟨st, hst⟩, -⟩ := ho.keys.connect k _ hp rfl
      obtain ⟨s, hs⟩ := ho.live.tcp k st hst
      simp only [World.getTcp_eq hs, bind, Except.bind] at h
      split at h
      · cases h
        refine .inr ⟨_, _, rfl, rfl, rfl, ?_⟩
        rintro cmd ⟨localIp, rfl, hip⟩ x la' pa' ch' hres
        cases hres
        exact ⟨hip, rfl⟩
      · cases h
        exact .inr ⟨_, _, rfl, rfl, rfl, fun cmd hcmd => hcmd.fits_error _ _⟩
      · cases h
        exact .inr ⟨_, _, rfl, rfl, rfl, fun cmd hcmd => hcmd.fits_error _ _⟩
      · cases h
        exact .inl rfl
    | tcpAccept r =>
      obtain ⟨l, hl⟩ := ho.keys.accept k _ hp rfl
      simp only [hl] at h
      rcases World.tryAcceptSocket_cases (N := N) k l (ho.live.listening k l hl) with
        ⟨he, -⟩ | ⟨x, rest, s, la, pa, -, -, -, he⟩
      · simp only [he, bind, Except.bind] at h
        cases h
        exact .inl rfl
      · simp only [he, bind, Except.bind] at h
        cases h
        refine .inr ⟨_, .tcp (.ok (x, la, pa, (w.replaceListening N k l.addr rest).nextChan)),
          rfl, ?_, by simp, ?_⟩
        · rw [World.deliverAccepted_answers, World.takePending_answers,
            World.replaceListening_answers]
          rfl
        · rintro cmd rfl y la' pa' ch hres
          cases hres
          obtain ⟨q, hq⟩ := hL.given k l hl
          exact ⟨q, l.addr, hq, tryAcceptSocket_port hP k l (hL.port k l hl) he⟩

/-- Every command that waits, every stored operation and every answer goes back to a command that
the application has sent. -/
structure Explained (cfg : StackConfig) (as : List (Action E)) (w : World T U) : Prop where
  queue : ∀ cmd ∈ w.commands.queue, Action.issue cmd ∈ as
  pending : ∀ k op, w.pending.lookup k = some op → ∃ cmd, Action.issue cmd ∈ as ∧
    op.Serves cfg k cmd
  answers : ∀ r rep, (r, rep) ∈ w.answers → ∃ cmd, Action.issue cmd ∈ as ∧
    cmd.response = some r ∧ cmd.Fits cfg w.answers rep

namespace Explained

variable {cfg : StackConfig} {as bs : List (Action E)} {w w' : World T U}

theorem later (h : Explained cfg as w) (bs : List (Action E)) : Explained cfg (as ++ bs) w where
  queue cmd hc := List.mem_append_left bs (h.queue cmd hc)
  pending k op hk := by
    obtain ⟨cmd, hcmd, hop⟩ := h.pending k op hk
    exact ⟨cmd, List.mem_append_left bs hcmd, hop⟩
  answers r rep hr := by
    obtain ⟨cmd, hcmd, hres, hfit⟩ := h.answers r rep hr
    exact ⟨cmd, List.mem_append_left bs hcmd, hres, hfit⟩

/-- Nothing is added to what has to be explained. -/
theorem congr (h : Explained cfg as w) (hq : ∀ cmd ∈ w'.commands.queue, cmd ∈ w.commands.queue)
    (hp : ∀ k op, w'.pending.lookup k = some op → w.pending.lookup k = some op)
    (ha : w'.answers = w.answers) : Explained cfg as w' where
  queue cmd hc := h.queue cmd (hq cmd hc)
  pending k op hk := h.pending k op (hp k op hk)
  answers := by
    rw [ha]
    exact h.answers

/-- An answer is added that fits a command. -/
theorem answer (h : Explained cfg as w) {cmd : StackCommand} {r : ReqId} {rep : Reply}
    (hcmd : Action.issue cmd ∈ as) (hr : cmd.response = some r) (hfit : cmd.Fits cfg w.answers rep)
    (hq : ∀ cmd ∈ w'.commands.queue, cmd ∈ w.commands.queue)
    (hp : ∀ k op, w'.pending.lookup k = some op → w.pending.lookup k = some op)
    (ha : w'.answers = w.answers ++ [(r, rep)]) : Explained cfg as w' where
  queue c hc := h.queue c (hq c hc)
  pending k op hk := h.pending k op (hp k op hk)
  answers := by
    have hpre : w.answers <+: w'.answers := by
      rw [ha]
      exact List.prefix_append _ _
    intro q rep' hm
    rw [ha] at hm
    rcases List.mem_append.mp hm with hm | hm
    · obtain ⟨c, hc, hres, hold⟩ := h.answers q rep' hm
      exact ⟨c, hc, hres, hold.mono hpre⟩
    · cases List.mem_singleton.mp hm
      exact ⟨cmd, hcmd, hr, hfit.mono hpre⟩

theorem handled (h : Explained cfg as w) {cmd : StackCommand} (hcmd : Action.issue cmd ∈ as)
    (hc : w'.commands.queue = w.commands.queue) (hh : Handled cfg cmd w w') :
    Explained cfg as w' := by
  have hq : ∀ c ∈ w'.commands.queue, c ∈ w.commands.queue := by
    intro c hm
    rwa [hc] at hm
  cases hh with
  | answered r rep hr hfit ha hp =>
    apply h.answer hcmd hr hfit hq _ ha
    intro k op hk
    rwa [hp] at hk
  | stored k op hop ha hp =>
    refine ⟨fun c hm => h.queue c (hq c hm), ?_, ?_⟩
    · intro x op' hx
      rw [hp] at hx
      rcases Table.insert_cases hx with ⟨hxk, he⟩ | ⟨-, hx⟩
      · rw [hxk, he]
        exact ⟨cmd, hcmd, hop⟩
      · exact h.pending x op' hx
    · rw [ha]
      exact h.answers
  | closed ha hp => exact h.congr hq hp ha

/-- All rounds of `process_pending`. -/
theorem processPending {P : N.TcpPorts} (hf : N.FreshHandles) (hP : LocalEndpoints P)
    (order : List SocketHandle) (h : Explained cfg as w) (ho : Owned w) (hL : ListensOn P w)
    (hrun : w.processPending N order = .ok w') : Explained cfg as w' := by
  induction order generalizing w with
  | nil =>
    cases hrun
    exact h
  | cons k order ih =>
    rcases ho.processPendingOne_effect (N := N) k with he | ⟨w1, he, heff⟩
    · rw [World.processPending_cons he] at hrun
      exact ih h ho hL hrun
    · rw [World.processPending_cons he] at hrun
      apply ih _ (ho.processPendingOne hf he) (hL.effect hf ho heff) hrun
      rcases processPendingOne_fits cfg hP ho hL he with hsame | ⟨op, rep, hk, ha, hp, hfit⟩
      · rw [hsame]
        exact h
      · obtain ⟨cmd, hcmd, hserves⟩ := h.pending k op hk
        apply h.answer hcmd hserves.response (hfit cmd hserves) _ _ ha
        · intro c hc
          rwa [heff.requests.1] at hc
        · intro x op' hx
          rw [hp] at hx
          exact (Table.erase_cases hx).2

/-- The operations that fail with the connection to the proxy. -/
theorem failOps (ops : List ((_ : SocketHandle) × PendingOp)) (h : Explained cfg as w)
    (hops : ∀ e ∈ ops, ∃ cmd, Action.issue cmd ∈ as ∧ e.2.Serves cfg e.1 cmd) :
    Explained cfg as (World.failOps ops w) := by
  induction ops generalizing w with
  | nil => exact h
  | cons e ops ih =>
    obtain ⟨cmd, hcmd, hserves⟩ := hops e List.mem_cons_self
    apply ih _ (fun e' he' => hops e' (List.mem_cons_of_mem e he'))
    refine h.answer hcmd hserves.response (hserves.fits_error w.answers
      ⟨.connectionAborted, "proxy connection lost"⟩) (fun c hc => hc) ?_ rfl
    intro k op hk
    exact (Table.erase_cases hk).2

theorem failPending (h : Explained cfg as w) : Explained cfg as w.failPending := by
  apply h.failOps
  intro e he
  exact h.pending e.1 e.2 (AList.mem_lookup_iff.mpr he)

end Explained

/-- What the application does to the queue of commands and the number of its requests. -/
theorem World.envStep_requests {w w' : World T U} {a : Action E} (h : w.envStep a = some w') :
    (∃ cmd, a = .issue cmd ∧ w.MayIssue cmd ∧ w'.commands.queue = w.commands.queue ++ [cmd] ∧
      w'.nextReq = if cmd.response.isSome then w.nextReq + 1 else w.nextReq) ∨
    ((∀ cmd, a ≠ .issue cmd) ∧ w'.commands.queue = w.commands.queue ∧ w'.nextReq = w.nextReq) := by
  cases a with
  | issue cmd =>
    left
    have hmay := (envStep_issue h).1
    simp only [envStep] at h
    split at h
    · split at h
      · next q hs =>
        obtain ⟨-, -, hq⟩ := Chan.trySend_ok hs
        have hw := Option.some.inj h
        refine ⟨cmd, rfl, hmay, ?_, ?_⟩
        · rw [← hw, hq]
        · rw [← hw]
      · cases h
    · cases h
  | cancel | dropCommands | foreignPort | ipcDies =>
    right
    rw [← Option.some.inj h]
    exact ⟨by simp, rfl, rfl⟩
  | streamRead | dropWriteTx | dropReadRx | dropUdp =>
    right
    simp only [envStep] at h
    split_ifs at h
    rw [← Option.some.inj h]
    exact ⟨by simp, rfl, rfl⟩
  | streamWrite | udpSend | udpRecv =>
    right
    simp only [envStep] at h
    split_ifs at h
    split at h
    · rw [← Option.some.inj h]
      exact ⟨by simp, rfl, rfl⟩
    · cases h
  | _ => cases h

theorem Explained.step {P : N.TcpPorts} (hf : N.FreshHandles) (hP : LocalEndpoints P)
    {cfg : StackConfig} {as : List (Action E)} {a : Action E} {w w' : World T U} (ho : Owned w)
    (hL : ListensOn P w) (h : Explained cfg as w) (hs : World.step N cfg a w = some w') :
    Explained cfg (as ++ [a]) w' := by
  have hlater := h.later [a]
  have ht := ho.step_transition hf hs
  cases ht with
  | env he =>
    have hframe := World.envStep_frame he
    rcases World.envStep_requests he with ⟨cmd, ha, -, hq, -⟩ | ⟨-, hq, -⟩
    · refine ⟨?_, ?_, ?_⟩
      · intro c hc
        rw [hq] at hc
        rcases List.mem_append.mp hc with hc | hc
        · exact hlater.queue c hc
        · rw [List.mem_singleton.mp hc, ha]
          exact List.mem_append_right as (List.mem_singleton.mpr rfl)
      · rw [hframe.pending]
        exact hlater.pending
      · rw [hframe.answers]
        exact hlater.answers
    · apply hlater.congr _ _ hframe.answers
      · intro c hc
        rwa [hq] at hc
      · intro k op hk
        rwa [hframe.pending] at hk
  | control => exact hlater.congr (fun _ hc => hc) (fun _ _ hk => hk) rfl
  | command cmd rest hph hq he =>
    have hcmd : Action.issue cmd ∈ as ++ [.command] := by
      apply hlater.queue cmd
      rw [hq]
      exact List.mem_cons_self
    have hpop : Explained cfg (as ++ [.command]) { w with
        commands := { w.commands with queue := rest.queue }
        received := w.received ++ cmd.response.toList } := by
      refine hlater.congr ?_ (fun _ _ hk => hk) rfl
      intro c hc
      rw [hq]
      exact List.mem_cons_of_mem cmd hc
    have hopop : Owned { w with
        commands := { w.commands with queue := rest.queue }
        received := w.received ++ cmd.response.toList } :=
      ho.popCommand (show _ = cmd::Chan.queue { w.commands with queue := rest.queue } from hq) _
    have hend := (World.step_command hq hs).2
    rcases hopop.handleCommand_effect hf cfg (ho.headAllowed hq) with
      ⟨p, -, -, hrun⟩ | ⟨w1, hrun, heff⟩
    · rw [hrun] at hend
      rw [hend]
      exact hlater.congr (fun _ hc => hc) (fun _ _ hk => hk) rfl
    · rw [hrun] at hend
      rw [hend]
      have hh := Handled.handleCommand hf hP hopop ⟨hL.given, hL.port⟩ (ho.headAllowed hq) hrun
      have hdone := hpop.handled hcmd (by rw [heff.requests.1]) hh
      exact hdone.congr (fun _ hc => hc) (fun _ _ hk => hk) rfl
  | pending order he =>
    obtain ⟨w1, -, hrun, -, hend⟩ := ho.step_pending hf hs
    rw [hend]
    have hdone := hlater.processPending hf hP order ho hL hrun
    exact hdone.congr (fun _ hc => hc) (fun _ _ hk => hk) rfl
  | fail => exact hlater.failPending.congr (fun _ hc => hc) (fun _ _ hk => hk) rfl
  | writeTcp | writeUdp | tcpEvent | udpEvent | readTcp | readUdp =>
    exact hlater.congr (fun _ hc => hc) (fun _ _ hk => hk) rfl

/-- No two commands bring the same oneshot. -/
structure IssuedOnce (as : List (Action E)) (next : Nat) : Prop where
  below : ∀ cmd (r : Nat), Action.issue cmd ∈ as → cmd.response = some r → r < next
  once : ∀ c c' (r : Nat), Action.issue c ∈ as → Action.issue c' ∈ as → c.response = some r →
    c'.response = some r → c = c'

namespace IssuedOnce

variable {as : List (Action E)} {a : Action E} {next : Nat}

theorem skip (h : IssuedOnce as next) (ha : ∀ cmd, a ≠ .issue cmd) :
    IssuedOnce (as ++ [a]) next := by
  have hold : ∀ cmd, Action.issue cmd ∈ as ++ [a] → Action.issue cmd ∈ as := by
    intro cmd hm
    rcases List.mem_append.mp hm with hm | hm
    · exact hm
    · exact absurd (List.mem_singleton.mp hm).symm (ha cmd)
  refine ⟨?_, ?_⟩
  · intro cmd r hm
    exact h.below cmd r (hold cmd hm)
  · intro c c' r hc hc'
    exact h.once c c' r (hold c hc) (hold c' hc')

theorem issue (h : IssuedOnce as next) {cmd : StackCommand}
    (hr : cmd.response = none ∨ cmd.response = some next) :
    IssuedOnce (as ++ [.issue cmd]) (if cmd.response.isSome then next + 1 else next) := by
  have hcases : ∀ c, Action.issue c ∈ as ++ [.issue cmd] → Action.issue c ∈ as ∨ c = cmd := by
    intro c hm
    rcases List.mem_append.mp hm with hm | hm
    · exact .inl hm
    · cases List.mem_singleton.mp hm
      exact .inr rfl
  have hnew : ∀ r : Nat, cmd.response = some r → r = next := by
    intro r hres
    rcases hr with hr | hr
    · rw [hr] at hres
      cases hres
    · rw [hr] at hres
      exact (Option.some.inj hres).symm
  refine ⟨?_, ?_⟩
  · intro c r hm hres
    rcases hcases c hm with hold | hc
    · have hlt := h.below c r hold hres
      split_ifs <;> omega
    · rw [hc] at hres
      have heq := hnew r hres
      rw [hres]
      simp only [Option.isSome_some, if_true]
      omega
  · intro c c' r hm hm' hres hres'
    rcases hcases c hm with hold | hc
    · have hlt := h.below c r hold hres
      rcases hcases c' hm' with hold' | hc'
      · exact h.once c c' r hold hold' hres hres'
      · rw [hc'] at hres'
        have heq := hnew r hres'
        omega
    · rw [hc] at hres
      have heq := hnew r hres
      rcases hcases c' hm' with hold' | hc'
      · have hlt := h.below c' r hold' hres'
        omega
      · rw [hc, hc']

theorem step (hf : N.FreshHandles) {cfg : StackConfig} {w w' : World T U} (ho : Owned w)
    (h : IssuedOnce as w.nextReq) (hs : World.step N cfg a w = some w') :
    IssuedOnce (as ++ [a]) w'.nextReq := by
  have ht := ho.step_transition hf hs
  cases ht with
  | env he =>
    rcases World.envStep_requests he with ⟨cmd, ha, hmay, -, hn⟩ | ⟨ha, -, hn⟩
    · rw [ha, hn]
      exact h.issue hmay.response
    · rw [hn]
      exact h.skip ha
  | control p notify hp hw hu hal =>
    by_cases ha : ∃ cmd, a = .issue cmd
    · obtain ⟨cmd, hcmd⟩ := ha
      rw [hcmd] at hs ⊢
      rcases World.envStep_requests (World.step_issue hs) with ⟨c, hc, hmay, -, hn⟩ | ⟨hno, -⟩
      · rw [← Action.issue.inj hc] at hmay hn
        rw [hn]
        exact h.issue hmay.response
      · exact absurd rfl (hno cmd)
    · exact h.skip (fun cmd hcmd => ha ⟨cmd, hcmd⟩)
  | command cmd rest hph hq he =>
    have hn : _ = w.nextReq := he.requests.2
    change IssuedOnce _ (World.nextReq _)
    rw [hn]
    exact h.skip (by simp)
  | pending order he =>
    have hn := Effect.path_rule (·.nextReq = w.nextReq) rfl
      (fun _ _ hu he => he.requests.2.trans hu) he
    change IssuedOnce _ (World.nextReq _)
    rw [hn]
    exact h.skip (by simp)
  | fail =>
    have hn := World.failOps_rule (·.nextReq = w.nextReq) w.pending.entries rfl
      (fun _ _ _ _ hv => hv)
    change IssuedOnce _ (World.nextReq _)
    rw [show (World.nextReq { w.failPending with phase := .returned }) = w.nextReq from hn]
    exact h.skip (by simp)
  | writeTcp | writeUdp | tcpEvent | udpEvent | readTcp | readUdp => exact h.skip (by simp)

end IssuedOnce

/-- Every answer that the stack task sends in a run is the answer to one command, the only one that
came with this oneshot, and it is of the kind and about the addresses that the command asked for. -/
theorem replies_fit (N : Smoltcp T U E) (hf : N.FreshHandles) (P : N.TcpPorts)
    (hP : LocalEndpoints P) (cfg : StackConfig) (port : UInt16) (as : List (Action E))
    (w : World T U) (h : runActions (World.step N cfg) as (World.init N cfg port) = some w)
    (r : ReqId) (rep : Reply) (hr : (r, rep) ∈ w.answers) :
    ∃ cmd, Action.issue cmd ∈ as ∧ cmd.response = some r ∧ cmd.Fits cfg w.answers rep ∧
      ∀ cmd', Action.issue cmd' ∈ as → cmd'.response = some r → cmd' = cmd := by
  have hboth : Explained cfg as w ∧ IssuedOnce as w.nextReq := by
    apply runActions_history
      (fun as (w : World T U) => Explained cfg as w ∧ IssuedOnce as w.nextReq) _ _ h
    · obtain ⟨ips, p, hw, -⟩ := init_cases N cfg port
      rw [hw]
      refine ⟨⟨?_, ?_, ?_⟩, ⟨?_, ?_⟩⟩
      · intro cmd hc
        cases hc
      · intro k op hk
        cases hk
      · intro q rep' hq
        cases hq
      · intro cmd q hc
        cases hc
      · intro c c' q hc
        cases hc
    · intro bs s t a hbs hp hs
      have hreach : Reach N cfg port s := Reachable.run _ .start hbs
      have ho := Reach.owned hf hreach
      exact ⟨hp.1.step hf hP ho (Reach.listensOn hf P hreach) hs, hp.2.step hf ho hs⟩
  obtain ⟨hexp, honce⟩ := hboth
  obtain ⟨cmd, hcmd, hres, hfit⟩ := hexp.answers r rep hr
  exact ⟨cmd, hcmd, hres, hfit, fun c hc hcr => honce.once c cmd r hc hcmd hcr hres⟩

theorem refLocalEndpoints : LocalEndpoints refPorts := by
  intro s ep h
  change (if s.connected then some s.localEp else none) = some ep at h
  split_ifs at h with hc
  have hopen : s.state ≠ .closed := by
    intro hcl
    simp [RefTcp.connected, hcl] at hc
  change (if s.state = .closed then none else some s.localEp.port) = some ep.port
  rw [if_neg hopen, Option.some.inj h]

/-- The answer to the waiting accept. -/
theorem replies_fit_acceptRun : ∃ (w : World RefTcp RefUdp) (rep : Reply),
    runActions (World.step refNet hostCfg) acceptRun (World.init refNet hostCfg 49152) = some w ∧
    (1, rep) ∈ w.answers ∧ rep.streamHandle? = some 0 ∧
    (StackCommand.tcpAccept 0 1).Fits hostCfg w.answers rep := by
  obtain ⟨w, -, hrun, hp⟩ := reachable_of_run (World.step refNet hostCfg) acceptRun
    (World.init refNet hostCfg 49152)
    (fun w => decide (∃ p ∈ w.answers, p.1 = 1 ∧ p.2.streamHandle? = some 0)) (by decide +kernel)
  obtain ⟨p, hm, h1, hstream⟩ := of_decide_eq_true hp
  have hpair : (1, p.2) ∈ w.answers := by
    rw [← h1]
    exact hm
  obtain ⟨cmd, -, -, hfit, honly⟩ := replies_fit refNet refNet_freshHandles refPorts
    refLocalEndpoints hostCfg 49152 acceptRun w hrun 1 p.2 hpair
  have hcmd : Action.issue (.tcpAccept 0 1) ∈ acceptRun := by
    simp [acceptRun]
  rw [← honly _ hcmd rfl] at hfit
  exact ⟨w, p.2, hrun, hpair, hstream, hfit⟩

end TapTunnel.Stack
