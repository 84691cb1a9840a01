import TapTunnel.Stack.Effect

namespace TapTunnel.Stack

open Framework

variable {T U E : Type}

section Components

variable {So So' : HandleMap (Socket T U)} {Pe : HandleMap PendingOp}
  {Li : HandleMap ListenerState} {Ts : HandleMap TcpSocketState} {Us : HandleMap UdpSocketState}
  {An : List (ReqId × Reply)}

def PendingOp.isConnect : PendingOp → Bool
  | .tcpConnect _ _ _ _ => true
  | .tcpAccept _ => false

/-- `x` is a listening socket of a listener stored under another key than `k`. -/
def ListeningElsewhere (Li : HandleMap ListenerState) (k x : SocketHandle) : Prop :=
  ∃ k' l, k' ≠ k ∧ Li.lookup k' = some l ∧ x ∈ l.listeningHandles

/-- Every handle in use is a live socket of its type. -/
structure HandlesLive (So : HandleMap (Socket T U)) (Ts : HandleMap TcpSocketState)
    (Us : HandleMap UdpSocketState) (Li : HandleMap ListenerState) (An : List (ReqId × Reply)) :
    Prop where
  tcp : ∀ h st, Ts.lookup h = some st → LiveTcp So h
  udp : ∀ h st, Us.lookup h = some st → LiveUdp So h
  listening : ∀ k l, Li.lookup k = some l → ∀ x ∈ l.listeningHandles, LiveTcp So x
  listener : ∀ k l, Li.lookup k = some l → LiveTcp So k
  stream : ∀ h, Gave An Reply.streamHandle? h → LiveTcp So h
  gaveListener : ∀ h, Gave An Reply.listenerHandle? h → LiveTcp So h
  gaveUdp : ∀ h, Gave An Reply.udpHandle? h → LiveUdp So h

namespace HandlesLive

theorem empty : HandlesLive (∅ : HandleMap (Socket T U)) ∅ ∅ ∅ [] := by
  constructor <;> simp [Gave]

theorem mono (h : HandlesLive So Ts Us Li An) (ht : ∀ x, LiveTcp So x → LiveTcp So' x)
    (hu : ∀ x, LiveUdp So x → LiveUdp So' x) : HandlesLive So' Ts Us Li An where
  tcp k st hk := ht k (h.tcp k st hk)
  udp k st hk := hu k (h.udp k st hk)
  listening k l hk x hx := ht x (h.listening k l hk x hx)
  listener k l hk := ht k (h.listener k l hk)
  stream k hk := ht k (h.stream k hk)
  gaveListener k hk := ht k (h.gaveListener k hk)
  gaveUdp k hk := hu k (h.gaveUdp k hk)

theorem congr (h : HandlesLive So Ts Us Li An) (hm : ∀ x, So'.lookup x = So.lookup x) :
    HandlesLive So' Ts Us Li An :=
  h.mono (fun x ⟨s, hs⟩ => ⟨s, (hm x).trans hs⟩) (fun x ⟨s, hs⟩ => ⟨s, (hm x).trans hs⟩)

theorem setTcp (h : HandlesLive So Ts Us Li An) {k : SocketHandle} (s : T) (hk : ¬LiveUdp So k) :
    HandlesLive (So.insert k (.tcp s)) Ts Us Li An := by
  refine h.mono ?_ ?_
  · rintro x ⟨t, ht⟩
    by_cases hx : x = k
    · exact ⟨s, by rw [hx, AList.lookup_insert]⟩
    · exact ⟨t, by rw [AList.lookup_insert_ne hx, ht]⟩
  · intro x hu
    have hx : x ≠ k := fun he => hk (he ▸ hu)
    obtain ⟨t, ht⟩ := hu
    exact ⟨t, by rw [AList.lookup_insert_ne hx, ht]⟩

theorem setUdp (h : HandlesLive So Ts Us Li An) {k : SocketHandle} (s : U) (hk : ¬LiveTcp So k) :
    HandlesLive (So.insert k (.udp s)) Ts Us Li An := by
  refine h.mono ?_ ?_
  · intro x hu
    have hx : x ≠ k := fun he => hk (he ▸ hu)
    obtain ⟨t, ht⟩ := hu
    exact ⟨t, by rw [AList.lookup_insert_ne hx, ht]⟩
  · rintro x ⟨t, ht⟩
    by_cases hx : x = k
    · exact ⟨s, by rw [hx, AList.lookup_insert]⟩
    · exact ⟨t, by rw [AList.lookup_insert_ne hx, ht]⟩

theorem push (h : HandlesLive So Ts Us Li An) (r : ReqId) (rep : Reply)
    (hs : ∀ k, rep.streamHandle? = some k → LiveTcp So k)
    (hl : ∀ k, rep.listenerHandle? = some k → LiveTcp So k)
    (hu : ∀ k, rep.udpHandle? = some k → LiveUdp So k) :
    HandlesLive So Ts Us Li (An ++ [(r, rep)]) :=
  { h with
    stream := fun k hk => ((gave_push ..).mp hk).elim (h.stream k) (hs k)
    gaveListener := fun k hk => ((gave_push ..).mp hk).elim (h.gaveListener k) (hl k)
    gaveUdp := fun k hk => ((gave_push ..).mp hk).elim (h.gaveUdp k) (hu k) }

theorem insertTcp (h : HandlesLive So Ts Us Li An) {k : SocketHandle} (st : TcpSocketState)
    (hk : LiveTcp So k) : HandlesLive So (Ts.insert k st) Us Li An where
  __ := h
  tcp x st' hx := by
    rcases Table.insert_cases hx with ⟨rfl, -⟩ | ⟨-, hx⟩
    · exact hk
    · exact h.tcp x st' hx

theorem eraseTcp (h : HandlesLive So Ts Us Li An) (k : SocketHandle) :
    HandlesLive So (Ts.erase k) Us Li An where
  __ := h
  tcp x st' hx := h.tcp x st' (Table.erase_cases hx).2

theorem insertUdp (h : HandlesLive So Ts Us Li An) {k : SocketHandle} (st : UdpSocketState)
    (hk : LiveUdp So k) : HandlesLive So Ts (Us.insert k st) Li An where
  __ := h
  udp x st' hx := by
    rcases Table.insert_cases hx with ⟨rfl, -⟩ | ⟨-, hx⟩
    · exact hk
    · exact h.udp x st' hx

theorem eraseUdp (h : HandlesLive So Ts Us Li An) (k : SocketHandle) :
    HandlesLive So Ts (Us.erase k) Li An where
  __ := h
  udp x st' hx := h.udp x st' (Table.erase_cases hx).2

theorem insertListener (h : HandlesLive So Ts Us Li An) {k : SocketHandle} (l : ListenerState)
    (hk : LiveTcp So k) (hl : ∀ x ∈ l.listeningHandles, LiveTcp So x) :
    HandlesLive So Ts Us (Li.insert k l) An where
  __ := h
  listening k' l' hk' := by
    rcases Table.insert_cases hk' with ⟨-, rfl⟩ | ⟨-, hk'⟩
    · exact hl
    · exact h.listening k' l' hk'
  listener k' l' hk' := by
    rcases Table.insert_cases hk' with ⟨rfl, -⟩ | ⟨-, hk'⟩
    · exact hk
    · exact h.listener k' l' hk'

theorem eraseListener (h : HandlesLive So Ts Us Li An) (k : SocketHandle) :
    HandlesLive So Ts Us (Li.erase k) An where
  __ := h
  listening k' l' hk' := h.listening k' l' (Table.erase_cases hk').2
  listener k' l' hk' := h.listener k' l' (Table.erase_cases hk').2

end HandlesLive

/-- No socket has two owners: the listening sockets of all listeners are distinct, and none
of them is a key of `tcp_states` or has been handed out as a stream. -/
structure HandlesApart (Ts : HandleMap TcpSocketState) (Li : HandleMap ListenerState)
    (An : List (ReqId × Reply)) : Prop where
  tcp : ∀ k l, Li.lookup k = some l → ∀ x ∈ l.listeningHandles, Ts.lookup x = none
  stream : ∀ k l, Li.lookup k = some l → ∀ x ∈ l.listeningHandles,
    ¬Gave An Reply.streamHandle? x
  nodup : ∀ k l, Li.lookup k = some l → l.listeningHandles.Nodup
  inj : ∀ k l, Li.lookup k = some l → ∀ x ∈ l.listeningHandles, ¬ListeningElsewhere Li k x

namespace HandlesApart

theorem empty : HandlesApart ∅ ∅ [] := by
  constructor <;> simp

theorem push (h : HandlesApart Ts Li An) (r : ReqId) (rep : Reply)
    (hs : ∀ x, rep.streamHandle? = some x →
      ∀ k l, Li.lookup k = some l → x ∉ l.listeningHandles) :
    HandlesApart Ts Li (An ++ [(r, rep)]) where
  __ := h
  stream k l hk x hx hg := by
    rcases (gave_push ..).mp hg with hg | hg
    · exact h.stream k l hk x hx hg
    · exact hs x hg k l hk hx

theorem insertTcp (h : HandlesApart Ts Li An) {k : SocketHandle} (st : TcpSocketState)
    (hk : ∀ k' l, Li.lookup k' = some l → k ∉ l.listeningHandles) :
    HandlesApart (Ts.insert k st) Li An where
  __ := h
  tcp k' l hk' x hx := by
    have hne : x ≠ k := fun he => hk k' l hk' (he ▸ hx)
    rw [AList.lookup_insert_ne hne]
    exact h.tcp k' l hk' x hx

theorem eraseTcp (h : HandlesApart Ts Li An) (k : SocketHandle) :
    HandlesApart (Ts.erase k) Li An where
  __ := h
  tcp k' l hk' x hx := by
    rw [Table.lookup_erase_if, h.tcp k' l hk' x hx, ite_self]

theorem eraseListener (h : HandlesApart Ts Li An) (k : SocketHandle) :
    HandlesApart Ts (Li.erase k) An where
  tcp k' l hk' := h.tcp k' l (Table.erase_cases hk').2
  stream k' l hk' := h.stream k' l (Table.erase_cases hk').2
  nodup k' l hk' := h.nodup k' l (Table.erase_cases hk').2
  inj k' l hk' x hx := fun ⟨k2, l2, hne, hk2, hx2⟩ =>
    h.inj k' l (Table.erase_cases hk').2 x hx ⟨k2, l2, hne, (Table.erase_cases hk2).2, hx2⟩

/-- A listener entry may be written when its sockets belong to nobody else. -/
theorem insertListener (h : HandlesApart Ts Li An) {k : SocketHandle} (l : ListenerState)
    (ht : ∀ x ∈ l.listeningHandles, Ts.lookup x = none)
    (hs : ∀ x ∈ l.listeningHandles, ¬Gave An Reply.streamHandle? x)
    (hnd : l.listeningHandles.Nodup)
    (hin : ∀ x ∈ l.listeningHandles, ¬ListeningElsewhere Li k x) :
    HandlesApart Ts (Li.insert k l) An := by
  refine ⟨?_, ?_, ?_, ?_⟩
  · intro k' l' hk'
    rcases Table.insert_cases hk' with ⟨-, rfl⟩ | ⟨-, hk'⟩
    · exact ht
    · exact h.tcp k' l' hk'
  · intro k' l' hk'
    rcases Table.insert_cases hk' with ⟨-, rfl⟩ | ⟨-, hk'⟩
    · exact hs
    · exact h.stream k' l' hk'
  · intro k' l' hk'
    rcases Table.insert_cases hk' with ⟨-, rfl⟩ | ⟨-, hk'⟩
    · exact hnd
    · exact h.nodup k' l' hk'
  · rintro k' l' hk' x hx ⟨k2, l2, hne, hk2, hx2⟩
    rcases Table.insert_cases hk' with ⟨rfl, rfl⟩ | ⟨hk, hold⟩
    · rcases Table.insert_cases hk2 with ⟨rfl, -⟩ | ⟨-, hold2⟩
      · exact hne rfl
      · exact hin x hx ⟨k2, l2, hne, hold2, hx2⟩
    · rcases Table.insert_cases hk2 with ⟨rfl, rfl⟩ | ⟨-, hold2⟩
      · exact hin x hx2 ⟨k', l', hk, hold, hx⟩
      · exact h.inj k' l' hold x hx ⟨k2, l2, hne, hold2, hx2⟩

end HandlesApart

/-- A pending connect has its entry in `tcp_states` and is not a listener, a pending accept is
on a listener, and a stream that was handed out has no connect pending. -/
structure PendingKeys (Pe : HandleMap PendingOp) (Ts : HandleMap TcpSocketState)
    (Li : HandleMap ListenerState) (An : List (ReqId × Reply)) : Prop where
  connect : ∀ h op, Pe.lookup h = some op → op.isConnect = true →
    (∃ st, Ts.lookup h = some st) ∧ Li.lookup h = none
  accept : ∀ h op, Pe.lookup h = some op → op.isConnect = false → ∃ l, Li.lookup h = some l
  done : ∀ h op, Pe.lookup h = some op → Gave An Reply.streamHandle? h → op.isConnect = false

namespace PendingKeys

theorem empty : PendingKeys ∅ ∅ ∅ [] := by
  constructor <;> simp

theorem push (h : PendingKeys Pe Ts Li An) (r : ReqId) (rep : Reply)
    (hs : ∀ k op, rep.streamHandle? = some k → Pe.lookup k = some op → op.isConnect = false) :
    PendingKeys Pe Ts Li (An ++ [(r, rep)]) where
  __ := h
  done k op hk hg := by
    rcases (gave_push ..).mp hg with hg | hg
    · exact h.done k op hk hg
    · exact hs k op hg hk

theorem insertTcp (h : PendingKeys Pe Ts Li An) (k : SocketHandle) (st : TcpSocketState) :
    PendingKeys Pe (Ts.insert k st) Li An where
  __ := h
  connect x op hx hc := by
    obtain ⟨⟨st', hst⟩, hl⟩ := h.connect x op hx hc
    by_cases he : x = k
    · exact ⟨⟨st, by rw [he, AList.lookup_insert]⟩, hl⟩
    · exact ⟨⟨st', by rw [AList.lookup_insert_ne he, hst]⟩, hl⟩

theorem eraseTcp (h : PendingKeys Pe Ts Li An) {k : SocketHandle}
    (hk : ∀ op, Pe.lookup k = some op → op.isConnect = false) :
    PendingKeys Pe (Ts.erase k) Li An where
  __ := h
  connect x op hx hc := by
    have hne : x ≠ k := by
      rintro rfl
      rw [hk op hx] at hc
      cases hc
    rw [AList.lookup_erase_ne hne]
    exact h.connect x op hx hc

theorem insertListener (h : PendingKeys Pe Ts Li An) {k : SocketHandle} (l : ListenerState)
    (hk : ∀ op, Pe.lookup k = some op → op.isConnect = false) :
    PendingKeys Pe Ts (Li.insert k l) An where
  __ := h
  connect x op hx hc := by
    have hne : x ≠ k := by
      rintro rfl
      rw [hk op hx] at hc
      cases hc
    rw [AList.lookup_insert_ne hne]
    exact h.connect x op hx hc
  accept x op hx hc := by
    obtain ⟨l', hl'⟩ := h.accept x op hx hc
    by_cases he : x = k
    · exact ⟨l, by rw [he, AList.lookup_insert]⟩
    · exact ⟨l', by rw [AList.lookup_insert_ne he, hl']⟩

theorem eraseListener (h : PendingKeys Pe Ts Li An) {k : SocketHandle}
    (hk : Pe.lookup k = none) : PendingKeys Pe Ts (Li.erase k) An where
  __ := h
  connect x op hx hc := by
    obtain ⟨hst, hl⟩ := h.connect x op hx hc
    exact ⟨hst, by rw [Table.lookup_erase_if, hl, ite_self]⟩
  accept x op hx hc := by
    have hne : x ≠ k := by
      rintro rfl
      rw [hk] at hx
      cases hx
    rw [AList.lookup_erase_ne hne]
    exact h.accept x op hx hc

theorem insertPending (h : PendingKeys Pe Ts Li An) {k : SocketHandle} (op : PendingOp)
    (hc : op.isConnect = true →
      (∃ st, Ts.lookup k = some st) ∧ Li.lookup k = none ∧ ¬Gave An Reply.streamHandle? k)
    (ha : op.isConnect = false → ∃ l, Li.lookup k = some l) :
    PendingKeys (Pe.insert k op) Ts Li An := by
  refine ⟨?_, ?_, ?_⟩
  · intro x op' hx hop
    rcases Table.insert_cases hx with ⟨rfl, rfl⟩ | ⟨-, hx⟩
    · exact ⟨(hc hop).1, (hc hop).2.1⟩
    · exact h.connect x op' hx hop
  · intro x op' hx hop
    rcases Table.insert_cases hx with ⟨rfl, rfl⟩ | ⟨-, hx⟩
    · exact ha hop
    · exact h.accept x op' hx hop
  · intro x op' hx hg
    rcases Table.insert_cases hx with ⟨rfl, rfl⟩ | ⟨-, hx⟩
    · exact Bool.eq_false_iff.mpr (fun hop => (hc hop).2.2 hg)
    · exact h.done x op' hx hg

theorem erasePending (h : PendingKeys Pe Ts Li An) (k : SocketHandle) :
    PendingKeys (Pe.erase k) Ts Li An where
  connect x op hx := h.connect x op (Table.erase_cases hx).2
  accept x op hx := h.accept x op (Table.erase_cases hx).2
  done x op hx := h.done x op (Table.erase_cases hx).2

end PendingKeys

/-- The handle in a command was given to the application earlier. -/
def CommandAllowed (An : List (ReqId × Reply)) : StackCommand → Prop
  | .tcpAccept h _ | .tcpListenerClose h => Gave An Reply.listenerHandle? h
  | .tcpClose h => Gave An Reply.streamHandle? h
  | .udpClose h => Gave An Reply.udpHandle? h
  | _ => True

theorem CommandAllowed.push {cmd : StackCommand} (h : CommandAllowed An cmd) (r : ReqId)
    (rep : Reply) : CommandAllowed (An ++ [(r, rep)]) cmd := by
  cases cmd <;> first | exact (gave_push ..).mpr (.inl h) | trivial

end Components

/-- The ownership invariant of the stack task. -/
structure Owned (w : World T U) : Prop where
  live : HandlesLive w.sockets w.tcpStates w.udpStates w.listeners w.answers
  apart : HandlesApart w.tcpStates w.listeners w.answers
  keys : PendingKeys w.pending w.tcpStates w.listeners w.answers
  queue : ∀ cmd ∈ w.commands.queue, CommandAllowed w.answers cmd

namespace Owned

variable {N : Smoltcp T U E} {w : World T U}

/-- A handle that is not live occurs in none of the maps. -/
theorem unused (h : Owned w) {x : SocketHandle} (hx : w.sockets.lookup x = none) :
    w.tcpStates.lookup x = none ∧ w.listeners.lookup x = none ∧ w.pending.lookup x = none ∧
    ¬Gave w.answers Reply.streamHandle? x ∧
    ∀ k l, w.listeners.lookup k = some l → x ∉ l.listeningHandles := by
  have hdead : ¬LiveTcp w.sockets x := by
    rintro ⟨s, hs⟩
    rw [hx] at hs
    cases hs
  have ht : w.tcpStates.lookup x = none :=
    Option.eq_none_iff_forall_ne_some.mpr (fun st hst => hdead (h.live.tcp x st hst))
  have hl : w.listeners.lookup x = none :=
    Option.eq_none_iff_forall_ne_some.mpr (fun l hl => hdead (h.live.listener x l hl))
  refine ⟨ht, hl, ?_, fun hg => hdead (h.live.stream x hg),
    fun k l hk hmem => hdead (h.live.listening k l hk x hmem)⟩
  refine Option.eq_none_iff_forall_ne_some.mpr (fun op hop => ?_)
  cases hc : op.isConnect with
  | true =>
    obtain ⟨⟨st, hst⟩, -⟩ := h.keys.connect x op hop hc
    rw [ht] at hst
    cases hst
  | false =>
    obtain ⟨l, hl'⟩ := h.keys.accept x op hop hc
    rw [hl] at hl'
    cases hl'

theorem not_udp_of_none {x : SocketHandle} (hx : w.sockets.lookup x = none) :
    ¬LiveUdp w.sockets x := by
  rintro ⟨s, hs⟩
  rw [hx] at hs
  cases hs

theorem congr (h : Owned w) {m : HandleMap (Socket T U)}
    (hm : ∀ x, m.lookup x = w.sockets.lookup x) (port : UInt16) (ips : List IpCidr) :
    Owned { w with sockets := m, ephemeralPort := port, ipAddrs := ips } :=
  ⟨h.live.congr hm, h.apart, h.keys, h.queue⟩

theorem setTcp (h : Owned w) {k : SocketHandle} (s : T) (hk : ¬LiveUdp w.sockets k) :
    Owned (w.setTcp k s) := ⟨h.live.setTcp s hk, h.apart, h.keys, h.queue⟩

theorem setUdp (h : Owned w) {k : SocketHandle} (s : U) (hk : ¬LiveTcp w.sockets k) :
    Owned (w.setUdp k s) := ⟨h.live.setUdp s hk, h.apart, h.keys, h.queue⟩

theorem insertTcpState (h : Owned w) {k : SocketHandle} (st : TcpSocketState)
    (hk : LiveTcp w.sockets k)
    (hl : ∀ k' l, w.listeners.lookup k' = some l → k ∉ l.listeningHandles) :
    Owned (w.insertTcpState k st) :=
  ⟨h.live.insertTcp st hk, h.apart.insertTcp st hl, h.keys.insertTcp k st, h.queue⟩

theorem removeTcpState (h : Owned w) {k : SocketHandle}
    (hk : ∀ op, w.pending.lookup k = some op → op.isConnect = false) :
    Owned (w.removeTcpState k) :=
  ⟨h.live.eraseTcp k, h.apart.eraseTcp k, h.keys.eraseTcp hk, h.queue⟩

theorem removeUdpState (h : Owned w) (k : SocketHandle) : Owned (w.removeUdpState k) :=
  ⟨h.live.eraseUdp k, h.apart, h.keys, h.queue⟩

theorem dropPending (h : Owned w) (k : SocketHandle) : Owned (w.dropPending k) :=
  ⟨h.live, h.apart, h.keys.erasePending k, h.queue⟩

theorem takePending (h : Owned w) (k : SocketHandle) : Owned (w.takePending k) :=
  ⟨h.live, h.apart, h.keys.erasePending k, h.queue⟩

theorem answer_bare (h : Owned w) (r : ReqId) {rep : Reply} (hb : rep.bare) :
    Owned (w.answer r rep) := by
  have hs : rep.streamHandle? = none ∧ rep.listenerHandle? = none ∧ rep.udpHandle? = none := by
    rcases rep with (_ | _) | (_ | _) | (_ | _) | _ | _ <;> simp_all [Reply.bare,
      Reply.streamHandle?, Reply.listenerHandle?, Reply.udpHandle?]
  exact ⟨h.live.push r rep (by simp [hs]) (by simp [hs]) (by simp [hs]),
    h.apart.push r rep (by simp [hs]), h.keys.push r rep (by simp [hs]),
    fun cmd hc => (h.queue cmd hc).push r rep⟩

theorem answer_stream (h : Owned w) (r : ReqId) {x : SocketHandle} (la pa : SocketAddr)
    (ch : ChanId) (hx : LiveTcp w.sockets x)
    (hl : ∀ k l, w.listeners.lookup k = some l → x ∉ l.listeningHandles)
    (hp : ∀ op, w.pending.lookup x = some op → op.isConnect = false) :
    Owned (w.answer r (.tcp (.ok (x, la, pa, ch)))) := by
  refine ⟨h.live.push r _ ?_ (by simp [Reply.listenerHandle?]) (by simp [Reply.udpHandle?]),
    h.apart.push r _ ?_, h.keys.push r _ ?_, fun cmd hc => (h.queue cmd hc).push r _⟩
  · rintro k ⟨⟩
    exact hx
  · rintro k ⟨⟩
    exact hl
  · rintro k op ⟨⟩
    exact hp op

/-- No connect is pending on a listening socket. -/
theorem listening_not_connect (h : Owned w) {k x : SocketHandle} {l : ListenerState}
    (hl : w.listeners.lookup k = some l) (hx : x ∈ l.listeningHandles) :
    ∀ op, w.pending.lookup x = some op → op.isConnect = false := by
  intro op hop
  by_contra hc
  obtain ⟨⟨st, hst⟩, -⟩ := h.keys.connect x op hop (by simpa using hc)
  rw [h.apart.tcp k l hl x hx] at hst
  cases hst

/-- Taking `x` out of a listener and putting a replacement in leaves `x` without an owner. -/
theorem replaceListening (hf : N.FreshHandles) (h : Owned w) {key x : SocketHandle}
    {l : ListenerState} {rest : List SocketHandle} (hl : w.listeners.lookup key = some l)
    (hx : (x::rest).Perm l.listeningHandles) :
    Owned (w.replaceListening N key l.addr rest) ∧
    LiveTcp (w.replaceListening N key l.addr rest).sockets x ∧
    (∀ k l', (w.replaceListening N key l.addr rest).listeners.lookup k = some l' →
      x ∉ l'.listeningHandles) := by
  have hmem : ∀ y ∈ x::rest, y ∈ l.listeningHandles := fun y hy => hx.mem_iff.mp hy
  obtain ⟨hxr, hnd⟩ := List.nodup_cons.mp (hx.nodup_iff.mpr (h.apart.nodup key l hl))
  have hlive := h.live.listening key l hl
  have hkey : ∀ op, w.pending.lookup key = some op → op.isConnect = false := by
    intro op hop
    by_contra hc
    have := (h.keys.connect key op hop (by simpa using hc)).2
    rw [hl] at this
    cases this
  have helse : ∀ hs, x ∉ hs → ∀ k l', (w.listeners.insert key ⟨l.addr, hs⟩).lookup k = some l' →
      x ∉ l'.listeningHandles := by
    intro hs hxs k l' hk
    rw [Table.lookup_insert_if] at hk
    split_ifs at hk with he
    · obtain rfl := Option.some.inj hk
      exact hxs
    · exact fun hx' => h.apart.inj key l hl x (hmem x (by simp)) ⟨k, l', he, hk, hx'⟩
  unfold World.replaceListening
  split
  · next s _ =>
    have hk := World.fresh_lookup hf w.sockets
    generalize N.fresh w.sockets.keys = k at hk
    obtain ⟨hkt, -, -, hks, hkl⟩ := h.unused hk
    have hxk : x ≠ k := fun he => hkl key l hl (he ▸ hmem x (by simp))
    have hkr : k ∉ rest := fun hr => hkl key l hl (hmem k (by simp [hr]))
    have hlive' := h.live.setTcp s (not_udp_of_none hk)
    refine ⟨⟨hlive'.insertListener _ (hlive'.listener key l hl) ?_,
      h.apart.insertListener _ ?_ ?_ ?_ ?_, h.keys.insertListener _ hkey, h.queue⟩,
      hlive'.listening key l hl x (hmem x (by simp)), helse _ (by simp [hxr, hxk])⟩
    · intro y hy
      rcases List.mem_append.mp hy with hy | hy
      · exact hlive'.listening key l hl y (hmem y (by simp [hy]))
      · exact ⟨s, by rw [List.mem_singleton.mp hy, AList.lookup_insert]⟩
    · intro y hy
      rcases List.mem_append.mp hy with hy | hy
      · exact h.apart.tcp key l hl y (hmem y (by simp [hy]))
      · exact List.mem_singleton.mp hy ▸ hkt
    · intro y hy
      rcases List.mem_append.mp hy with hy | hy
      · exact h.apart.stream key l hl y (hmem y (by simp [hy]))
      · exact List.mem_singleton.mp hy ▸ hks
    · have hne : ∀ a ∈ rest, ¬a = k := fun a ha he => hkr (he ▸ ha)
      exact List.nodup_append.mpr ⟨hnd, by simp, by simpa using hne⟩
    · intro y hy
      rcases List.mem_append.mp hy with hy | hy
      · exact h.apart.inj key l hl y (hmem y (by simp [hy]))
      · rintro ⟨k', l', -, hk', hy'⟩
        exact hkl k' l' hk' (List.mem_singleton.mp hy ▸ hy')
  · refine ⟨⟨h.live.insertListener _ (h.live.listener key l hl) ?_,
      h.apart.insertListener _ ?_ ?_ hnd ?_, h.keys.insertListener _ hkey, h.queue⟩,
      hlive x (hmem x (by simp)), helse _ hxr⟩
    · exact fun y hy => hlive y (hmem y (by simp [hy]))
    · exact fun y hy => h.apart.tcp key l hl y (hmem y (by simp [hy]))
    · exact fun y hy => h.apart.stream key l hl y (hmem y (by simp [hy]))
    · exact fun y hy => h.apart.inj key l hl y (hmem y (by simp [hy]))

/-- Handing out a socket that has no owner makes it a stream. -/
theorem deliverAccepted (h : Owned w) {x : SocketHandle} (la pa : SocketAddr) (r : ReqId)
    (hx : LiveTcp w.sockets x)
    (hl : ∀ k l, w.listeners.lookup k = some l → x ∉ l.listeningHandles)
    (hp : ∀ op, w.pending.lookup x = some op → op.isConnect = false) :
    Owned (w.deliverAccepted x la pa r) := by
  have h1 : Owned w.createTcpChannels := ⟨h.live, h.apart, h.keys, h.queue⟩
  exact (h1.insertTcpState ⟨w.nextChan, none⟩ hx hl).answer_stream r la pa _ hx hl hp

/-- Every effect keeps the ownership invariant, given that its command was allowed. -/
theorem effect (hf : N.FreshHandles) {c : Option StackCommand} {w' : World T U} (h : Owned w)
    (hc : ∀ cmd, c = some cmd → CommandAllowed w.answers cmd) (he : Effect N c w w') :
    Owned w' := by
  cases he with
  | reject m port ips rep hr hm hb => exact (h.congr hm port ips).answer_bare _ hb
  | connect k s port la hk =>
    obtain ⟨-, hl, -, hs, hlist⟩ := h.unused hk
    have h1 : Owned { w with ephemeralPort := port } := ⟨h.live, h.apart, h.keys, h.queue⟩
    have h2 := h1.setTcp s (not_udp_of_none hk)
    have h3 : Owned (World.setTcp { w with ephemeralPort := port } k s).createTcpChannels :=
      ⟨h2.live, h2.apart, h2.keys, h2.queue⟩
    have h4 := h3.insertTcpState (k := k) ⟨w.nextChan, none⟩
      ⟨s, AList.lookup_insert _⟩ hlist
    exact ⟨h4.live, h4.apart, h4.keys.insertPending _
      (fun _ => ⟨⟨_, AList.lookup_insert _⟩, hl, hs⟩) (fun ho => nomatch ho), h4.queue⟩
  | listen m hs primary hp hlen hnd hport hold hnew hrest =>
    rename_i addr backlog r
    have hpm : primary ∈ hs := List.mem_of_head? hp
    have hlive : HandlesLive m w.tcpStates w.udpStates w.listeners w.answers := by
      have hne : ∀ x ∈ hs, ∀ v, w.sockets.lookup x ≠ some v := fun x hx v hv => by
        rw [hold x hx] at hv
        cases hv
      refine h.live.mono (fun x hx => ?_) (fun x hx => ?_)
      · obtain ⟨s, hs'⟩ := hx
        exact ⟨s, (hrest x (fun hm => hne x hm _ hs')).trans hs'⟩
      · obtain ⟨s, hs'⟩ := hx
        exact ⟨s, (hrest x (fun hm => hne x hm _ hs')).trans hs'⟩
    have hnewLive : ∀ x ∈ hs, LiveTcp m x := fun x hx => by
      obtain ⟨s, -, hs'⟩ := hnew x hx
      exact ⟨s, hs'⟩
    have hpend : ∀ op, w.pending.lookup primary = some op → op.isConnect = false := by
      intro op hop
      rw [(h.unused (hold primary hpm)).2.2.1] at hop
      cases hop
    have hlive' := hlive.insertListener ⟨addr, hs⟩ (hnewLive primary hpm) hnewLive
    have hapart := h.apart.insertListener (k := primary) ⟨addr, hs⟩
      (fun x hx => (h.unused (hold x hx)).1) (fun x hx => (h.unused (hold x hx)).2.2.2.1) hnd
      (fun x hx ⟨k', l', _, hk', hx'⟩ => (h.unused (hold x hx)).2.2.2.2 k' l' hk' hx')
    refine ⟨hlive'.push r _ nofun ?_ nofun, hapart.push r _ nofun,
      (h.keys.insertListener _ hpend).push r _ nofun, fun cmd hc => (h.queue cmd hc).push r _⟩
    rintro k ⟨⟩
    exact hnewLive primary hpm
  | accept l x rest s la pa hl hx hs hest =>
    obtain ⟨h1, hlive, hfree⟩ := h.replaceListening hf hl hx
    have hpend := h.listening_not_connect hl (hx.mem_iff.mp List.mem_cons_self)
    refine h1.deliverAccepted la pa _ hlive hfree (fun op hop => hpend op ?_)
    rwa [World.replaceListening_pending] at hop
  | wait l hl hnone =>
    exact ⟨h.live, h.apart, h.keys.insertPending _ (fun ho => nomatch ho) (fun _ => ⟨l, hl⟩),
      h.queue⟩
  | listenerGone hl => exact h.dropPending _
  | listenerClose l m hl hout hin =>
    rename_i key
    have h1 := h.dropPending key
    have hlive : HandlesLive m w.tcpStates w.udpStates w.listeners w.answers := by
      refine h.live.mono (fun x hx => ?_) (fun x hx => ?_)
      · by_cases hm : x ∈ l.listeningHandles
        · obtain ⟨s, -, hs⟩ := hin x hm
          exact ⟨_, hs⟩
        · obtain ⟨s, hs⟩ := hx
          exact ⟨s, (hout x hm).trans hs⟩
      · obtain ⟨s, hs⟩ := hx
        have hm : x ∉ l.listeningHandles := fun hm =>
          (h.live.listening key l hl x hm).not_udp ⟨s, hs⟩
        exact ⟨s, (hout x hm).trans hs⟩
    exact ⟨hlive.eraseListener key, h1.apart.eraseListener key,
      h1.keys.eraseListener (AList.lookup_erase _ _), h1.queue⟩
  | tcpClose s hs =>
    rename_i k
    have hg : Gave w.answers Reply.streamHandle? k := hc _ rfl
    have h1 := h.setTcp (N.tcpClose s) (LiveTcp.not_udp ⟨s, hs⟩)
    exact h1.removeTcpState (fun op hop => h.keys.done k op hop hg)
  | udpBind k s port addr hk =>
    have hdead : ¬LiveTcp w.sockets k := by
      rintro ⟨s, hs⟩
      rw [hk] at hs
      cases hs
    have h1 := h.live.setUdp s hdead
    have h2 := h1.insertUdp (k := k) ⟨w.nextChan⟩ ⟨s, AList.lookup_insert _⟩
    refine ⟨h2.push _ _ nofun nofun ?_, h.apart.push _ _ nofun, h.keys.push _ _ nofun,
      fun cmd hc => (h.queue cmd hc).push _ _⟩
    rintro x ⟨⟩
    exact ⟨s, AList.lookup_insert _⟩
  | udpClose s hs =>
    have hnt : ¬LiveTcp w.sockets _ := fun ht => ht.not_udp ⟨s, hs⟩
    exact (h.setUdp (N.udpClose s) hnt).removeUdpState _
  | connected la pa ch r hp =>
    rename_i k
    obtain ⟨⟨st, hst⟩, -⟩ := h.keys.connect k _ hp rfl
    refine (h.takePending k).answer_stream r la pa ch (h.live.tcp k st hst) ?_ ?_
    · intro k' l hl hm
      rw [h.apart.tcp k' l hl k hm] at hst
      cases hst
    · intro op hop
      rw [World.takePending, AList.lookup_erase] at hop
      cases hop
  | connectDead la pa ch r e hp =>
    rename_i k
    refine ((h.dropPending k).removeTcpState (k := k) ?_).answer_bare r trivial
    intro op hop
    rw [World.dropPending, AList.lookup_erase] at hop
    cases hop
  | acceptPending r l x rest s la pa hp hl hx hs hest =>
    rename_i key
    obtain ⟨h1, hlive, hfree⟩ := h.replaceListening hf hl hx
    have hpend := h.listening_not_connect hl (hx.mem_iff.mp List.mem_cons_self)
    refine (h1.takePending key).deliverAccepted la pa r hlive hfree (fun op hop => hpend op ?_)
    rw [World.takePending, Table.lookup_erase_if, World.replaceListening_pending] at hop
    split_ifs at hop
    exact hop

/-- Under the invariant a command has one of the effects; only a bad address can panic. -/
theorem handleCommand_effect (hf : N.FreshHandles) (h : Owned w) (cfg : StackConfig)
    {cmd : StackCommand} (hc : CommandAllowed w.answers cmd) :
    (∃ p, p.ofAddress ∧ cmd.allocates = false ∧ World.handleCommand N cfg cmd w = .error p) ∨
    (∃ w', World.handleCommand N cfg cmd w = .ok w' ∧ Effect N (some cmd) w w') := by
  cases cmd with
  | tcpConnect ip addr r =>
    right
    have hk := World.fresh_lookup hf w.sockets
    rcases World.handleTcpConnect_cases (N := N) (w := w) cfg ip addr r with
      ⟨e, he⟩ | ⟨s, la, remote, a, hs, he⟩
    · refine ⟨_, he, .reject _ _ _ _ rfl ?_ trivial rfl (.inl rfl)⟩
      intro x
      change ((w.sockets.insert _ _).erase _).lookup x = _
      rw [Table.lookup_erase_if, Table.lookup_insert_if]
      split_ifs with hx
      · rw [hx, hk]
      · rfl
    · refine ⟨_, he, ?_⟩
      have hconn : Effect N (some (.tcpConnect ip addr r)) w _ :=
        .connect _ s (w.ephemeralPort + 1) la hk ⟨remote, a, hs⟩ rfl
      simpa only [World.connectStarted, World.setTcp, World.allocateEphemeralPort,
        AList.insert_insert] using hconn
  | tcpListen addr backlog r =>
    right
    rcases World.handleTcpListen_cases (w := w) hf addr backlog r with
      ⟨m, e, -, hm, he⟩ | ⟨m, hs, primary, hp, hlen, hnd, hport, -, hold, hnew, hrest, he⟩
    · exact ⟨_, he, .reject m w.ephemeralPort w.ipAddrs _ rfl hm trivial rfl (.inl rfl)⟩
    · exact ⟨_, he, .listen m hs primary hp hlen hnd hport hold hnew hrest⟩
  | tcpAccept key r =>
    right
    cases hl : w.listeners.lookup key with
    | none =>
      exact ⟨_, World.handleTcpAccept_none hl,
        .reject w.sockets w.ephemeralPort w.ipAddrs _ rfl (fun _ => rfl) trivial rfl (.inl rfl)⟩
    | some l =>
      rcases World.handleTcpAccept_cases (N := N) hl (h.live.listening key l hl) r with
        ⟨he, hnone⟩ | ⟨x, rest, s, la, pa, hx, hs, hst, he⟩
      · exact ⟨_, he, .wait l hl hnone⟩
      · exact ⟨_, he, .accept l x rest s la pa hl hx hs hst⟩
  | tcpListenerClose key =>
    right
    cases hl : w.listeners.lookup key with
    | none => exact ⟨_, World.handleTcpListenerClose_none hl, .listenerGone hl⟩
    | some l =>
      obtain ⟨m, he, hout, hin⟩ := World.handleTcpListenerClose_some (N := N) hl
        (h.live.listening key l hl) (h.apart.nodup key l hl)
      exact ⟨_, he, .listenerClose l m hl hout hin⟩
  | tcpClose k =>
    right
    obtain ⟨s, hs⟩ := h.live.stream k hc
    exact ⟨_, World.handleTcpClose_eq hs, .tcpClose s hs⟩
  | udpBind addr r =>
    right
    have hport : (if addr.port = 0 then w.ephemeralPort + 1 else w.ephemeralPort) =
        (StackCommand.udpBind addr r).portAfter w.ephemeralPort := by
      simp [StackCommand.portAfter, StackCommand.allocates]
    rcases World.handleUdpBind_cases (N := N) (w := w) addr r with ⟨e, -, he⟩ | ⟨s, bound, hs, he⟩
    · exact ⟨_, he, .reject w.sockets _ w.ipAddrs _ rfl (fun _ => rfl) trivial hport (.inl rfl)⟩
    · exact ⟨_, he, .udpBind _ s _ bound (World.fresh_lookup hf w.sockets) hs hport⟩
  | udpClose k =>
    right
    obtain ⟨s, hs⟩ := h.live.gaveUdp k hc
    exact ⟨_, World.handleUdpClose_eq hs, .udpClose s hs⟩
  | addIp ip len r =>
    rcases World.handleAddIp_cases (N := N) (w := w) ip len r with
      ⟨p, hp, he⟩ | ⟨ips, res, hips, he⟩
    · exact .inl ⟨p, hp, rfl, he⟩
    · exact .inr ⟨_, he, .reject w.sockets w.ephemeralPort ips _ rfl
        (fun _ => rfl) trivial rfl hips⟩
  | removeIp ip r =>
    rcases World.handleRemoveIp_cases (N := N) (w := w) ip r with ⟨p, hp, he⟩ | ⟨ips, res, hips, he⟩
    · exact .inl ⟨p, hp, rfl, he⟩
    · exact .inr ⟨_, he,
        .reject w.sockets w.ephemeralPort ips _ rfl (fun _ => rfl) trivial rfl (.inr hips)⟩
  | getIps r =>
    exact .inr ⟨_, rfl,
      .reject w.sockets w.ephemeralPort w.ipAddrs _ rfl (fun _ => rfl) trivial rfl (.inl rfl)⟩

/-- A round of `process_pending` does nothing or has one of the effects. -/
theorem processPendingOne_effect (h : Owned w) (k : SocketHandle) :
    w.processPendingOne N k = .ok w ∨
    ∃ w', w.processPendingOne N k = .ok w' ∧ Effect N none w w' := by
  unfold World.processPendingOne
  cases hp : w.pending.lookup k with
  | none => exact .inl rfl
  | some op =>
    cases op with
    | tcpConnect la pa ch r =>
      obtain ⟨⟨st, hst⟩, -⟩ := h.keys.connect k _ hp rfl
      obtain ⟨s, hs⟩ := h.live.tcp k st hst
      simp only [World.getTcp_eq hs, bind, Except.bind]
      split
      · exact .inr ⟨_, rfl, .connected la pa ch r hp⟩
      · exact .inr ⟨_, rfl, .connectDead la pa ch r _ hp⟩
      · exact .inr ⟨_, rfl, .connectDead la pa ch r _ hp⟩
      · exact .inl rfl
    | tcpAccept r =>
      obtain ⟨l, hl⟩ := h.keys.accept k _ hp rfl
      simp only [hl]
      rcases World.tryAcceptSocket_cases (N := N) k l (h.live.listening k l hl) with
        ⟨he, -⟩ | ⟨x, rest, s, la, pa, hx, hs, hst, he⟩
      · exact .inl (by rw [he]; rfl)
      · exact .inr ⟨_, by rw [he]; rfl, .acceptPending r l x rest s la pa hp hl hx hs hst⟩

theorem processPendingOne (hf : N.FreshHandles) (h : Owned w) {k : SocketHandle} {w' : World T U}
    (hrun : w.processPendingOne N k = .ok w') : Owned w' := by
  rcases h.processPendingOne_effect (N := N) k with he | ⟨w1, he, heff⟩
  · exact Except.ok.inj (he.symm.trans hrun) ▸ h
  · exact Except.ok.inj (he.symm.trans hrun) ▸ h.effect (c := none) hf nofun heff

end Owned

end TapTunnel.Stack
