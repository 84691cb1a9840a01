import TapTunnel.Stack.Pump
import TapTunnel.Stack.Handlers

namespace TapTunnel.Stack

open Framework

variable {T U E : Type} {N : Smoltcp T U E} {w : World T U}

/-- The panics that a bad interface address causes. -/
def Panic.ofAddress (p : Panic) : Prop := p = .cidrPrefixLen ∨ p = .addrNotAssignable

/-- `h` is a live TCP socket. -/
def LiveTcp (m : HandleMap (Socket T U)) (h : SocketHandle) : Prop :=
  ∃ s, m.lookup h = some (.tcp s)

/-- `h` is a live UDP socket. -/
def LiveUdp (m : HandleMap (Socket T U)) (h : SocketHandle) : Prop :=
  ∃ s, m.lookup h = some (.udp s)

theorem LiveTcp.not_udp {m : HandleMap (Socket T U)} {h : SocketHandle} (ht : LiveTcp m h) :
    ¬LiveUdp m h := by
  rintro ⟨u, hu⟩
  obtain ⟨s, hs⟩ := ht
  rw [hs] at hu
  cases hu

namespace World

theorem getTcp_eq {h : SocketHandle} {s : T} (hs : w.sockets.lookup h = some (.tcp s)) :
    w.getTcp h = .ok s := by
  simp [getTcp, hs]

theorem getUdp_eq {h : SocketHandle} {s : U} (hs : w.sockets.lookup h = some (.udp s)) :
    w.getUdp h = .ok s := by
  simp [getUdp, hs]

/-- A handle from `SocketSet::add` is not in use. -/
theorem fresh_lookup (hf : N.FreshHandles) (m : HandleMap (Socket T U)) :
    m.lookup (N.fresh m.keys) = none :=
  Table.lookup_eq_none_of_notMem (hf _)

theorem handleTcpClose_eq {h : SocketHandle} {s : T} (hs : w.sockets.lookup h = some (.tcp s)) :
    w.handleTcpClose N h = .ok ((w.setTcp h (N.tcpClose s)).removeTcpState h) := by
  simp only [handleTcpClose, getTcp_eq hs]
  rfl

theorem handleUdpClose_eq {h : SocketHandle} {s : U} (hs : w.sockets.lookup h = some (.udp s)) :
    w.handleUdpClose N h = .ok ((w.setUdp h (N.udpClose s)).removeUdpState h) := by
  simp only [handleUdpClose, getUdp_eq hs]
  rfl

/-- A connect either fails at once or is under way, in both cases under a fresh handle. -/
theorem handleTcpConnect_cases (cfg : StackConfig) (localIp : Option IpAddr) (addr : SocketAddr)
    (r : ReqId) :
    let k := N.fresh w.sockets.keys
    let w1 := (w.setTcp k N.tcpNew).allocateEphemeralPort.2
    (∃ e, w.handleTcpConnect N cfg localIp addr r = .ok (w1.connectFailed k e r)) ∨
    (∃ s localAddr remote a, N.connect w.ipAddrs N.tcpNew remote ⟨a, w.ephemeralPort⟩ = .ok s ∧
      w.handleTcpConnect N cfg localIp addr r = .ok (w1.connectStarted k s localAddr addr r)) := by
  intro k w1
  have hget : w1.getTcp k = .ok N.tcpNew := getTcp_eq (AList.lookup_insert _)
  generalize hres : w.handleTcpConnect N cfg localIp addr r = res
  change (w1.getTcp k >>= _) = res at hres
  simp only [hget, bind, Except.bind] at hres
  split at hres
  · exact .inl ⟨_, hres.symm⟩
  · next s hs => exact .inr ⟨s, _, _, _, hs, hres.symm⟩

/-- The listening sockets that `tcp_listen` makes: new handles, all distinct, each holding the
socket that `listen` returned, and nothing else touched. -/
theorem createListening_spec (hf : N.FreshHandles) (ep : IpListenEndpoint) (n : Nat)
    (hs : List SocketHandle) (m : HandleMap (Socket T U)) :
    ∃ new, (createListening N ep n hs m).2.1 = hs ++ new ∧ new.Nodup ∧
      (∀ x ∈ new, m.lookup x = none) ∧
      (∀ x ∈ new, ∃ s, N.listen N.tcpNew ep = .ok s ∧
        (createListening N ep n hs m).1.lookup x = some (.tcp s)) ∧
      (∀ x, x ∉ new → (createListening N ep n hs m).1.lookup x = m.lookup x) ∧
      ((createListening N ep n hs m).2.2 = none → new.length = n) ∧
      (∀ e, (createListening N ep n hs m).2.2 = some e → N.listen N.tcpNew ep = .error e) := by
  induction n generalizing hs m with
  | zero => exact ⟨[], by simp [createListening]⟩
  | succ n ih =>
    cases hl : N.listen N.tcpNew ep with
    | error e => exact ⟨[], by simp [createListening, hl]⟩
    | ok s =>
      have hnone := fresh_lookup hf m
      obtain ⟨new, h1, hnd, hold, hnew, hrest, hlen, herr⟩ :=
        ih (hs ++ [N.fresh m.keys]) (m.insert (N.fresh m.keys) (.tcp s))
      have hnot : N.fresh m.keys ∉ new := by
        intro hmem
        have := hold _ hmem
        rw [AList.lookup_insert] at this
        cases this
      refine ⟨N.fresh m.keys::new, ?_, List.nodup_cons.mpr ⟨hnot, hnd⟩, ?_, ?_, ?_, ?_, ?_⟩
      · simpa [createListening, hl] using h1
      · intro x hx
        rcases List.mem_cons.mp hx with rfl | hx
        · exact hnone
        · have := hold x hx
          rw [Table.lookup_insert_if] at this
          split_ifs at this
          exact this
      · intro x hx
        simp only [createListening, hl]
        rcases List.mem_cons.mp hx with rfl | hx
        · exact ⟨s, rfl, by rw [hrest _ hnot, AList.lookup_insert]⟩
        · obtain ⟨s', hs', hlook⟩ := hnew x hx
          rw [hl] at hs'
          exact ⟨s', hs', hlook⟩
      · intro x hx
        simp only [List.mem_cons, not_or] at hx
        simp only [createListening, hl]
        rw [hrest x hx.2, AList.lookup_insert_ne hx.1]
      · intro h
        simp only [createListening, hl] at h
        simp [hlen h]
      · intro e h
        simp only [createListening, hl] at h
        rw [hl] at herr
        exact herr e h

theorem removeSockets_lookup (m : HandleMap (Socket T U)) (hs : List SocketHandle)
    (x : SocketHandle) :
    (removeSockets m hs).lookup x = if x ∈ hs then none else m.lookup x := by
  induction hs generalizing m with
  | nil => simp [removeSockets]
  | cons h hs ih =>
    have := ih (m.erase h)
    simp only [removeSockets, List.foldl_cons, List.mem_cons] at this ⊢
    rw [this, Table.lookup_erase_if]
    by_cases h1 : x ∈ hs <;> by_cases h2 : x = h <;> simp [h1, h2]

/-- Some listener has the port, on whatever address. -/
def PortTaken (w : World T U) (port : UInt16) : Prop :=
  ∃ k l, w.listeners.lookup k = some l ∧ l.addr.port = port

theorem portTaken_iff (port : UInt16) :
    w.listeners.entries.any (fun e => e.2.addr.port == port) = true ↔ w.PortTaken port := by
  rw [List.any_eq_true]
  constructor
  · rintro ⟨e, he, hp⟩
    exact ⟨e.1, e.2, AList.mem_lookup_iff.mpr he, by simpa using hp⟩
  · rintro ⟨k, l, hl, hp⟩
    exact ⟨⟨k, l⟩, AList.mem_lookup_iff.mp hl, by simpa using hp⟩

/-- A port that some listener has is refused at once. -/
theorem handleTcpListen_taken {addr : SocketAddr} (hp : addr.port ≠ 0)
    (ht : w.PortTaken addr.port) (backlog : Nat) (r : ReqId) :
    w.handleTcpListen N addr backlog r =
      .ok (w.answer r (.listen (.error ⟨.addrInUse, "address already in use"⟩))) := by
  unfold handleTcpListen
  rw [if_neg hp, if_pos ((portTaken_iff addr.port).mpr ht)]
  rfl

/-- A listen request is refused with all sockets as before, or creates a listener on new
sockets only. -/
theorem handleTcpListen_cases (hf : N.FreshHandles) (addr : SocketAddr) (backlog : Nat)
    (r : ReqId) :
    (∃ m e, (addr.port = 0 ∨ w.PortTaken addr.port ∨
        ∃ text, N.listen N.tcpNew (socketAddrToListenEndpoint addr) = .error text) ∧
      (∀ x, m.lookup x = w.sockets.lookup x) ∧
      w.handleTcpListen N addr backlog r =
        .ok (answer { w with sockets := m } r (.listen (.error e)))) ∨
    (∃ m hs primary, hs.head? = some primary ∧ hs.length = max backlog 1 ∧ hs.Nodup ∧
      addr.port ≠ 0 ∧ ¬w.PortTaken addr.port ∧
      (∀ x ∈ hs, w.sockets.lookup x = none) ∧
      (∀ x ∈ hs, ∃ s, N.listen N.tcpNew (socketAddrToListenEndpoint addr) = .ok s ∧
        m.lookup x = some (.tcp s)) ∧
      (∀ x, x ∉ hs → m.lookup x = w.sockets.lookup x) ∧
      w.handleTcpListen N addr backlog r =
        .ok (listenerCreated { w with sockets := m } primary addr hs backlog r)) := by
  by_cases hu : addr.port ≠ 0 ∧ w.PortTaken addr.port
  · exact .inl ⟨w.sockets, _, .inr (.inl hu.2), fun _ => rfl,
      handleTcpListen_taken hu.1 hu.2 backlog r⟩
  unfold handleTcpListen
  by_cases hp : addr.port = 0
  · exact .inl ⟨w.sockets, _, .inl hp, fun _ => rfl, by rw [if_pos hp]; rfl⟩
  have hfree : ¬w.PortTaken addr.port := fun ht => hu ⟨hp, ht⟩
  rw [if_neg hp, if_neg (mt (portTaken_iff addr.port).mp hfree)]
  obtain ⟨new, h1, hnd, hold, hnew, hrest, hlen, herr⟩ := createListening_spec hf
    (socketAddrToListenEndpoint addr) (max backlog 1) [] w.sockets
  rw [List.nil_append] at h1
  obtain ⟨m, hs, res, hc⟩ : ∃ m hs res, createListening N (socketAddrToListenEndpoint addr)
    (max backlog 1) [] w.sockets = (m, hs, res) := ⟨_, _, _, rfl⟩
  rw [hc] at h1 hnew hrest hlen herr ⊢
  simp only at h1 hnew hrest hlen herr
  subst h1
  cases res with
  | some e =>
    left
    refine ⟨removeSockets m hs, _, .inr (.inr ⟨e, herr e rfl⟩), ?_, rfl⟩
    intro x
    rw [removeSockets_lookup]
    split_ifs with hx
    · exact (hold x hx).symm
    · exact hrest x hx
  | none =>
    right
    have hl := hlen rfl
    cases hs with
    | nil => simp at hl; omega
    | cons p hs =>
      exact ⟨m, p::hs, p, rfl, hl, hnd, hp, hfree, hold, hnew, hrest, rfl⟩

theorem findEstablished_cons (addr : SocketAddr) {h : SocketHandle} {s : T}
    (hlook : w.sockets.lookup h = some (.tcp s)) (hs : List SocketHandle) (idx : Nat) :
    findEstablished N w addr (h::hs) idx =
      if N.tcpState s = .established then
        match N.remoteEndpoint s with
        | some remote => .ok (some (idx,
            (match N.localEndpoint s with
              | some localEp => endpointToSocketAddr localEp
              | none => addr), endpointToSocketAddr remote))
        | none => findEstablished N w addr hs (idx+1)
      else findEstablished N w addr hs (idx+1) := by
  simp only [findEstablished, getTcp_eq hlook]
  rfl

/-- The search finds the first established socket that knows its peer, or there is none. -/
theorem findEstablished_cases (addr : SocketAddr) (hs : List SocketHandle) (idx : Nat)
    (hl : ∀ x ∈ hs, LiveTcp w.sockets x) :
    (findEstablished N w addr hs idx = .ok none ∧
      ∀ x ∈ hs, ∀ s, w.sockets.lookup x = some (.tcp s) → N.tcpState s = .established →
        N.remoteEndpoint s = none) ∨
    (∃ i x s localAddr peerAddr,
      findEstablished N w addr hs idx = .ok (some (idx+i, localAddr, peerAddr)) ∧
      hs[i]? = some x ∧ w.sockets.lookup x = some (.tcp s) ∧ N.tcpState s = .established) := by
  induction hs generalizing idx with
  | nil => exact .inl ⟨rfl, by simp⟩
  | cons h hs ih =>
    obtain ⟨s, hlook⟩ := hl h (by simp)
    have htail := ih (idx+1) (fun x hx => hl x (by simp [hx]))
    by_cases hfound : N.tcpState s = .established ∧ N.remoteEndpoint s ≠ none
    · obtain ⟨remote, hr⟩ := Option.ne_none_iff_exists'.mp hfound.2
      exact .inr ⟨0, h, s, _, _, by rw [findEstablished_cons addr hlook, if_pos hfound.1, hr]; rfl,
        rfl, hlook, hfound.1⟩
    have hskip : N.tcpState s = .established → N.remoteEndpoint s = none := by
      intro he
      by_contra hne
      exact hfound ⟨he, hne⟩
    have heq : findEstablished N w addr (h::hs) idx = findEstablished N w addr hs (idx+1) := by
      rw [findEstablished_cons addr hlook]
      split_ifs with he
      · rw [hskip he]
      · rfl
    rw [heq]
    rcases htail with ⟨hrun, hnone⟩ | ⟨i, x, s', la, pa, hrun, hi, hx, he⟩
    · left
      refine ⟨hrun, ?_⟩
      intro x hx s' hs' he
      rcases List.mem_cons.mp hx with rfl | hx
      · rw [hlook] at hs'
        obtain rfl : s = s' := by simpa using hs'
        exact hskip he
      · exact hnone x hx s' hs' he
    · right
      refine ⟨i+1, x, s', la, pa, ?_, by simpa using hi, hx, he⟩
      rw [hrun, Nat.add_assoc, Nat.add_comm 1]

/-- `try_accept_socket` changes nothing, or takes one established socket out of the listener
and puts a replacement in. -/
theorem tryAcceptSocket_cases (key : SocketHandle) (st : ListenerState)
    (hl : ∀ x ∈ st.listeningHandles, LiveTcp w.sockets x) :
    (tryAcceptSocket N key st w = .ok (w, none) ∧
      ∀ x ∈ st.listeningHandles, ∀ s, w.sockets.lookup x = some (.tcp s) →
        N.tcpState s = .established → N.remoteEndpoint s = none) ∨
    (∃ x rest s localAddr peerAddr, (x::rest).Perm st.listeningHandles ∧
      w.sockets.lookup x = some (.tcp s) ∧ N.tcpState s = .established ∧
      tryAcceptSocket N key st w =
        .ok (w.replaceListening N key st.addr rest, some (x, localAddr, peerAddr))) := by
  rcases findEstablished_cases (N := N) st.addr st.listeningHandles 0 hl with
    ⟨heq, hnone⟩ | ⟨i, x, s, la, pa, heq, hi, hx, he⟩
  · left
    refine ⟨?_, hnone⟩
    unfold tryAcceptSocket
    rw [heq]
    rfl
  · right
    obtain ⟨hlt, hget⟩ := List.getElem?_eq_some_iff.mp hi
    refine ⟨x, st.listeningHandles.eraseIdx i, s, la, pa, ?_, hx, he, ?_⟩
    · rw [← hget]
      exact List.getElem_cons_eraseIdx_perm hlt
    · unfold tryAcceptSocket
      simp only [heq, Nat.zero_add, bind, Except.bind, hi]
      rfl

@[simp] theorem replaceListening_pending (key : SocketHandle) (addr : SocketAddr)
    (rest : List SocketHandle) : (w.replaceListening N key addr rest).pending = w.pending := by
  unfold replaceListening
  split <;> rfl

@[simp] theorem replaceListening_answers (key : SocketHandle) (addr : SocketAddr)
    (rest : List SocketHandle) : (w.replaceListening N key addr rest).answers = w.answers := by
  unfold replaceListening
  split <;> rfl

theorem replaceListening_received (key : SocketHandle) (addr : SocketAddr)
    (rest : List SocketHandle) : (w.replaceListening N key addr rest).received = w.received := by
  unfold replaceListening
  split <;> rfl

/-- The replacement has a fresh handle, so that other sockets stay. -/
theorem replaceListening_lookup (hf : N.FreshHandles) {x : SocketHandle} {v : Socket T U}
    (hv : w.sockets.lookup x = some v) (key : SocketHandle) (addr : SocketAddr)
    (rest : List SocketHandle) :
    (w.replaceListening N key addr rest).sockets.lookup x = some v := by
  unfold replaceListening
  split
  · have hne : x ≠ N.fresh w.sockets.keys := by
      rintro rfl
      rw [fresh_lookup hf] at hv
      cases hv
    exact (AList.lookup_insert_ne hne).trans hv
  · exact hv

theorem replaceListening_listener_ne {x key : SocketHandle} (hx : x ≠ key) (addr : SocketAddr)
    (rest : List SocketHandle) :
    (w.replaceListening N key addr rest).listeners.lookup x = w.listeners.lookup x := by
  unfold replaceListening
  split <;> exact AList.lookup_insert_ne hx

theorem replaceListening_tcpStates (key : SocketHandle) (addr : SocketAddr)
    (rest : List SocketHandle) : (w.replaceListening N key addr rest).tcpStates = w.tcpStates := by
  unfold replaceListening
  split <;> rfl

theorem replaceListening_udpStates (key : SocketHandle) (addr : SocketAddr)
    (rest : List SocketHandle) : (w.replaceListening N key addr rest).udpStates = w.udpStates := by
  unfold replaceListening
  split <;> rfl

@[simp] theorem deliverAccepted_pending (x : SocketHandle) (la pa : SocketAddr) (r : ReqId) :
    (w.deliverAccepted x la pa r).pending = w.pending := rfl

@[simp] theorem deliverAccepted_answers (x : SocketHandle) (la pa : SocketAddr) (r : ReqId) :
    (w.deliverAccepted x la pa r).answers =
      w.answers ++ [(r, .tcp (.ok (x, la, pa, w.nextChan)))] := rfl

@[simp] theorem takePending_pending (k : SocketHandle) :
    (w.takePending k).pending = w.pending.erase k := rfl

@[simp] theorem takePending_answers (k : SocketHandle) :
    (w.takePending k).answers = w.answers := rfl

section Rounds

variable {St S : Type} {states : World T U → HandleMap St}
  {get : World T U → SocketHandle → Except Panic S}
  {work : SocketHandle → St → S → World T U → World T U} {h : SocketHandle}

theorem pump_none (hst : (states w).lookup h = none) : w.pump states get work h = .ok w := by
  simp only [pump, hst]
  rfl

theorem pump_some {st : St} {s : S} (hst : (states w).lookup h = some st) (hs : get w h = .ok s) :
    w.pump states get work h = .ok (work h st s w) := by
  simp only [pump, hst, hs]
  rfl

end Rounds

theorem pumpTcpWrite_eq {h : SocketHandle} {st : TcpSocketState} {s : T}
    (hst : w.tcpStates.lookup h = some st) (hs : w.sockets.lookup h = some (.tcp s)) :
    w.pumpTcpWrite N h = .ok (w.writeTcpEntry N h st s) :=
  pump_some hst (getTcp_eq hs)

theorem pumpTcpRead_eq {h : SocketHandle} {st : TcpSocketState} {s : T}
    (hst : w.tcpStates.lookup h = some st) (hs : w.sockets.lookup h = some (.tcp s)) :
    w.pumpTcpRead N h = .ok (w.readTcpEntry N h st s) :=
  pump_some hst (getTcp_eq hs)

theorem pumpUdpWrite_eq {h : SocketHandle} {st : UdpSocketState} {s : U}
    (hst : w.udpStates.lookup h = some st) (hs : w.sockets.lookup h = some (.udp s)) :
    w.pumpUdpWrite N h = .ok (w.writeUdpEntry N h st s) :=
  pump_some hst (getUdp_eq hs)

theorem pumpUdpRead_eq {h : SocketHandle} {st : UdpSocketState} {s : U}
    (hst : w.udpStates.lookup h = some st) (hs : w.sockets.lookup h = some (.udp s)) :
    w.pumpUdpRead N h = .ok (w.readUdpEntry N h st s) :=
  pump_some hst (getUdp_eq hs)

/-- Closing the listening sockets touches nothing but those of them that are in `Listen`. -/
theorem closeListening_spec (hs : List SocketHandle) (w : World T U)
    (hl : ∀ x ∈ hs, LiveTcp w.sockets x) (hnd : hs.Nodup) :
    ∃ m, closeListening N hs w = .ok { w with sockets := m } ∧
      (∀ x, x ∉ hs → m.lookup x = w.sockets.lookup x) ∧
      (∀ x ∈ hs, ∃ s, w.sockets.lookup x = some (.tcp s) ∧
        m.lookup x = some (.tcp (if N.tcpState s = .listen then N.tcpClose s else s))) := by
  induction hs generalizing w with
  | nil => exact ⟨w.sockets, rfl, fun _ _ => rfl, by simp⟩
  | cons h hs ih =>
    obtain ⟨s, hlook⟩ := hl h (by simp)
    obtain ⟨hnot, hnd⟩ := List.nodup_cons.mp hnd
    let s' := if N.tcpState s = .listen then N.tcpClose s else s
    let m1 := if N.tcpState s = .listen then w.sockets.insert h (.tcp (N.tcpClose s))
      else w.sockets
    have hm1 : ∀ x, m1.lookup x = if x = h then some (.tcp s') else w.sockets.lookup x := by
      intro x
      simp only [m1, s']
      split_ifs with hst hx hx
      · rw [Table.lookup_insert_if, if_pos hx]
      · rw [Table.lookup_insert_if, if_neg hx]
      · rw [hx, hlook]
      · rfl
    have hrun : closeListening N (h::hs) w = closeListening N hs { w with sockets := m1 } := by
      simp only [closeListening, getTcp_eq hlook]
      change (if N.tcpState s = .listen then _ else _) = _
      simp only [m1]
      split_ifs <;> rfl
    have hne : ∀ x ∈ hs, x ≠ h := by
      rintro x hx rfl
      exact hnot hx
    have hlive : ∀ x ∈ hs, LiveTcp m1 x := by
      intro x hx
      obtain ⟨t, ht⟩ := hl x (by simp [hx])
      exact ⟨t, by rw [hm1, if_neg (hne x hx), ht]⟩
    obtain ⟨m, heq, hout, hin⟩ := ih { w with sockets := m1 } hlive hnd
    refine ⟨m, hrun.trans heq, ?_, ?_⟩
    · intro x hx
      simp only [List.mem_cons, not_or] at hx
      rw [hout x hx.2]
      exact (hm1 x).trans (if_neg hx.1)
    · intro x hx
      rcases List.mem_cons.mp hx with rfl | hx
      · exact ⟨s, hlook, by rw [hout _ hnot]; exact (hm1 _).trans (if_pos rfl)⟩
      · obtain ⟨t, ht, hmt⟩ := hin x hx
        exact ⟨t, ((hm1 x).trans (if_neg (hne x hx))).symm.trans ht, hmt⟩

theorem handleTcpAccept_none {key : SocketHandle} {r : ReqId}
    (hl : w.listeners.lookup key = none) :
    w.handleTcpAccept N key r =
      .ok (w.answer r (.tcp (.error ⟨.invalidInput, "not a listener handle"⟩))) := by
  simp only [handleTcpAccept, hl]
  rfl

/-- An accept on a listener waits, or is answered with one of its established sockets. -/
theorem handleTcpAccept_cases {key : SocketHandle} {l : ListenerState}
    (hl : w.listeners.lookup key = some l) (hlive : ∀ x ∈ l.listeningHandles, LiveTcp w.sockets x)
    (r : ReqId) :
    (w.handleTcpAccept N key r = .ok (w.insertPending key (.tcpAccept r)) ∧
      ∀ x ∈ l.listeningHandles, ∀ s, w.sockets.lookup x = some (.tcp s) →
        N.tcpState s = .established → N.remoteEndpoint s = none) ∨
    (∃ x rest s localAddr peerAddr, (x::rest).Perm l.listeningHandles ∧
      w.sockets.lookup x = some (.tcp s) ∧ N.tcpState s = .established ∧
      w.handleTcpAccept N key r =
        .ok ((w.replaceListening N key l.addr rest).deliverAccepted x localAddr peerAddr r)) := by
  rcases tryAcceptSocket_cases (N := N) key l hlive with
    ⟨he, hnone⟩ | ⟨x, rest, s, la, pa, hx, hs, hst, he⟩
  · left
    refine ⟨?_, hnone⟩
    simp only [handleTcpAccept, hl, he]
    rfl
  · right
    refine ⟨x, rest, s, la, pa, hx, hs, hst, ?_⟩
    simp only [handleTcpAccept, hl, he]
    rfl

theorem handleTcpListenerClose_none {key : SocketHandle} (hl : w.listeners.lookup key = none) :
    w.handleTcpListenerClose N key = .ok (w.dropPending key) := by
  have hl' : (w.dropPending key).listeners.lookup key = none := hl
  simp only [handleTcpListenerClose, hl']
  rfl

theorem handleTcpListenerClose_some {key : SocketHandle} {l : ListenerState}
    (hl : w.listeners.lookup key = some l) (hlive : ∀ x ∈ l.listeningHandles, LiveTcp w.sockets x)
    (hnd : l.listeningHandles.Nodup) :
    ∃ m, w.handleTcpListenerClose N key =
        .ok { w.dropPending key with listeners := w.listeners.erase key, sockets := m } ∧
      (∀ x, x ∉ l.listeningHandles → m.lookup x = w.sockets.lookup x) ∧
      (∀ x ∈ l.listeningHandles, ∃ s, w.sockets.lookup x = some (.tcp s) ∧
        m.lookup x = some (.tcp (if N.tcpState s = .listen then N.tcpClose s else s))) := by
  obtain ⟨m, he, hout, hin⟩ := closeListening_spec (N := N) l.listeningHandles
    { w.dropPending key with listeners := w.listeners.erase key } hlive hnd
  refine ⟨m, ?_, hout, hin⟩
  have hl' : (w.dropPending key).listeners.lookup key = some l := hl
  simp only [handleTcpListenerClose, hl']
  exact he

theorem processPending_cons {k : SocketHandle} {w' : World T U}
    (h : w.processPendingOne N k = .ok w') (ks : List SocketHandle) :
    w.processPending N (k::ks) = w'.processPending N ks := by
  unfold processPending
  rw [List.foldlM_cons, h]
  rfl

theorem processPending_append {ks : List SocketHandle} {w' : World T U}
    (h : w.processPending N ks = .ok w') (ks' : List SocketHandle) :
    w.processPending N (ks ++ ks') = w'.processPending N ks' := by
  unfold processPending at h ⊢
  rw [List.foldlM_append, h]
  rfl

/-- The port `udp_bind` uses: the one asked for, or the next of the counter. -/
def bindPort (w : World T U) (addr : SocketAddr) : UInt16 :=
  if addr.port = 0 then w.ephemeralPort else addr.port

/-- A UDP bind is refused without a socket if smoltcp refuses it, or gets a new one. -/
theorem handleUdpBind_cases (addr : SocketAddr) (r : ReqId) :
    let port := if addr.port = 0 then w.ephemeralPort + 1 else w.ephemeralPort
    let endpoint := socketAddrToListenEndpointWithPort addr (w.bindPort addr)
    (∃ e, N.udpBind N.udpNew endpoint = .error e ∧ w.handleUdpBind N addr r =
        .ok (answer { w with ephemeralPort := port } r
          (.udp (.error ⟨.addrInUse, "bind failed: " ++ e⟩)))) ∨
      (∃ s boundAddr, N.udpBind N.udpNew endpoint = .ok s ∧ w.handleUdpBind N addr r = .ok
        (udpBound { w with ephemeralPort := port } (N.fresh w.sockets.keys) s boundAddr r)) := by
  intro port endpoint
  by_cases hp : addr.port = 0
  · simp only [port, endpoint, handleUdpBind, bindPort, if_pos hp, allocateEphemeralPort]
    split
    · next e he => exact .inl ⟨e, he, rfl⟩
    · next s hs => exact .inr ⟨s, _, hs, rfl⟩
  · simp only [port, endpoint, handleUdpBind, bindPort, if_neg hp]
    split
    · next e he => exact .inl ⟨e, he, rfl⟩
    · next s hs => exact .inr ⟨s, _, hs, rfl⟩

theorem updateIpAddrs_cases (addrs : List IpCidr) :
    ((∀ c ∈ addrs, N.assignable c.address = true) ∧
      w.updateIpAddrs N addrs = .ok { w with ipAddrs := addrs }) ∨
    w.updateIpAddrs N addrs = .error .addrNotAssignable := by
  unfold updateIpAddrs
  split_ifs with h
  · exact .inl ⟨List.all_eq_true.mp h, rfl⟩
  · exact .inr rfl

theorem newCidr_cases (address : IpAddress) (prefixLen : UInt8) :
    newCidr address prefixLen = .ok ⟨address, prefixLen⟩ ∨
    newCidr address prefixLen = .error .cidrPrefixLen := by
  cases address <;> simp only [newCidr] <;> split_ifs <;> simp

theorem handleAddIp_cases (ip : IpAddr) (prefixLen : UInt8) (r : ReqId) :
    (∃ p, p.ofAddress ∧ w.handleAddIp N ip prefixLen r = .error p) ∨
    (∃ ips res, (ips = w.ipAddrs ∨ ∀ c ∈ ips, N.assignable c.address = true) ∧
      w.handleAddIp N ip prefixLen r = .ok (answer { w with ipAddrs := ips } r (.unit res))) := by
  unfold handleAddIp
  rcases newCidr_cases (ipAddrToSmoltcp ip) prefixLen with hc | hc
  · simp only [hc, bind, Except.bind]
    split_ifs with hin hroom
    · exact .inr ⟨w.ipAddrs, _, .inl rfl, rfl⟩
    · rcases w.updateIpAddrs_cases (N := N) (w.ipAddrs ++ [⟨ipAddrToSmoltcp ip, prefixLen⟩])
        with ⟨hall, hu⟩ | hu
      · exact .inr ⟨_, _, .inr hall, by rw [hu]; rfl⟩
      · exact .inl ⟨_, .inr rfl, by rw [hu]⟩
    · rcases w.updateIpAddrs_cases (N := N) w.ipAddrs with ⟨-, hu⟩ | hu
      · exact .inr ⟨_, _, .inl rfl, by rw [hu]; rfl⟩
      · exact .inl ⟨_, .inr rfl, by rw [hu]⟩
  · exact .inl ⟨_, .inl rfl, by rw [hc]; rfl⟩

theorem handleRemoveIp_cases (ip : IpAddr) (r : ReqId) :
    (∃ p, p.ofAddress ∧ w.handleRemoveIp N ip r = .error p) ∨
    (∃ ips res, (∀ c ∈ ips, N.assignable c.address = true) ∧ w.handleRemoveIp N ip r =
      .ok (answer { w with ipAddrs := ips } r (.unit res))) := by
  unfold handleRemoveIp
  rcases w.updateIpAddrs_cases (N := N)
    (w.ipAddrs.filter (fun c => c.address != ipAddrToSmoltcp ip)) with ⟨hall, hu⟩ | hu
  · exact .inr ⟨_, _, hall, by simp only [hu]; rfl⟩
  · exact .inl ⟨_, .inr rfl, by simp only [hu]; rfl⟩

end World

end TapTunnel.Stack
