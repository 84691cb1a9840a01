import TapTunnel.Stack.StepCases
import TapTunnel.Net.Views

namespace TapTunnel.Stack

open Framework

variable {T U E : Type} {N : Smoltcp T U E}

section Components

variable {R : T → T → Prop} {P : N.TcpPorts} {So So' : HandleMap (Socket T U)}
  {Li Li' : HandleMap ListenerState}

/-- A TCP socket is one from before, changed as `R` has it, or new. -/
def SocketsKept (R : T → T → Prop) (So So' : HandleMap (Socket T U)) : Prop :=
  ∀ x s', So'.lookup x = some (.tcp s') → So.lookup x = none ∨
    ∃ s, So.lookup x = some (.tcp s) ∧ R s s'

namespace SocketsKept

theorem congr (hR : ∀ s, R s s) (h : ∀ x, So'.lookup x = So.lookup x) : SocketsKept R So So' := by
  intro x s' hx
  exact .inr ⟨s', (h x).symm.trans hx, hR s'⟩

theorem refl (hR : ∀ s, R s s) (So : HandleMap (Socket T U)) : SocketsKept R So So :=
  congr hR (fun _ => rfl)

theorem setTcp (hR : ∀ s, R s s) {k : SocketHandle} {s' : T}
    (hk : So.lookup k = none ∨ ∃ s, So.lookup k = some (.tcp s) ∧ R s s') :
    SocketsKept R So (So.insert k (.tcp s')) := by
  intro x t hx
  rcases Table.insert_cases hx with ⟨hxk, ht⟩ | ⟨-, hx⟩
  · cases ht
    rw [hxk]
    exact hk
  · exact refl hR So x t hx

theorem setUdp (hR : ∀ s, R s s) (k : SocketHandle) (s : U) :
    SocketsKept R So (So.insert k (.udp s)) := by
  intro x t hx
  rcases Table.insert_cases hx with ⟨-, ht⟩ | ⟨-, hx⟩
  · cases ht
  · exact refl hR So x t hx

end SocketsKept

/-- A socket keeps its local port until it is closed. -/
def PortKept (P : N.TcpPorts) (s s' : T) : Prop :=
  P.localPort s' = P.localPort s ∨ P.localPort s' = none

theorem PortKept.refl (P : N.TcpPorts) (s : T) : PortKept P s s := .inl rfl

/-- The listening sockets of a listener after a step are those it had before, or new sockets on
which `listen` was called with its address. -/
def ListeningFrom (N : Smoltcp T U E) (Li : HandleMap ListenerState) (So' : HandleMap (Socket T U))
    (Li' : HandleMap ListenerState) : Prop :=
  ∀ k l', Li'.lookup k = some l' → ∀ x ∈ l'.listeningHandles,
    (∃ l, Li.lookup k = some l ∧ l.addr = l'.addr ∧ x ∈ l.listeningHandles) ∨
    ∃ s, N.listen N.tcpNew (socketAddrToListenEndpoint l'.addr) = .ok s ∧
      So'.lookup x = some (.tcp s)

namespace ListeningFrom

theorem refl (Li : HandleMap ListenerState) (So' : HandleMap (Socket T U)) :
    ListeningFrom N Li So' Li := by
  intro k l hl x hx
  exact .inl ⟨l, hl, rfl, hx⟩

theorem erase (Li : HandleMap ListenerState) (So' : HandleMap (Socket T U)) (key : SocketHandle) :
    ListeningFrom N Li So' (Li.erase key) := by
  intro k l hl x hx
  exact refl Li So' k l (Table.erase_cases hl).2 x hx

theorem insert {key : SocketHandle} {l' : ListenerState} (h : ∀ x ∈ l'.listeningHandles,
    (∃ l, Li.lookup key = some l ∧ l.addr = l'.addr ∧ x ∈ l.listeningHandles) ∨
    ∃ s, N.listen N.tcpNew (socketAddrToListenEndpoint l'.addr) = .ok s ∧
      So'.lookup x = some (.tcp s)) : ListeningFrom N Li So' (Li.insert key l') := by
  intro k l hl x hx
  rcases Table.insert_cases hl with ⟨hk, he⟩ | ⟨-, hl⟩
  · rw [hk]
    rw [he] at hx ⊢
    exact h x hx
  · exact refl Li So' k l hl x hx

end ListeningFrom

/-- A listening socket has the port of its listener, unless it is closed. -/
def OnPort (P : N.TcpPorts) (So : HandleMap (Socket T U)) (Li : HandleMap ListenerState) : Prop :=
  ∀ k l, Li.lookup k = some l → ∀ x ∈ l.listeningHandles, ∀ s, So.lookup x = some (.tcp s) →
    P.localPort s = some l.addr.port ∨ P.localPort s = none

theorem socketAddrToListenEndpoint_port (addr : SocketAddr) :
    (socketAddrToListenEndpoint addr).port = addr.port := rfl

/-- What a step has to do for the listening sockets to stay on their ports. -/
theorem OnPort.step (h : OnPort P So Li)
    (hlive : ∀ k l, Li.lookup k = some l → ∀ x ∈ l.listeningHandles, LiveTcp So x)
    (hkept : SocketsKept (PortKept P) So So') (hfrom : ListeningFrom N Li So' Li') :
    OnPort P So' Li' := by
  intro k l' hl' x hx s' hs'
  rcases hfrom k l' hl' x hx with ⟨l, hl, haddr, hxl⟩ | ⟨s, hlisten, hs⟩
  · rcases hkept x s' hs' with hnone | ⟨s, hs, hport⟩
    · -- a listening socket is live, so it is not one of the new ones
      obtain ⟨s, hs⟩ := hlive k l hl x hxl
      rw [hnone] at hs
      cases hs
    · rcases hport with hport | hport
      · rw [hport, ← haddr]
        exact h k l hl x hxl s hs
      · exact .inr hport
  · have heq : s' = s := by
      rw [hs'] at hs
      simpa using hs
    rw [heq, P.listen_port _ s hlisten, socketAddrToListenEndpoint_port]
    exact .inl rfl

end Components

namespace World

variable {R : T → T → Prop} {w : World T U}

theorem replaceListening_kept (hf : N.FreshHandles) (hR : ∀ s, R s s) (key : SocketHandle)
    (addr : SocketAddr) (rest : List SocketHandle) :
    SocketsKept R w.sockets (w.replaceListening N key addr rest).sockets := by
  unfold replaceListening
  split
  · exact .setTcp hR (.inl (fresh_lookup hf w.sockets))
  · exact .refl hR w.sockets

theorem replaceListening_from {key : SocketHandle} {l : ListenerState} {rest : List SocketHandle}
    (hl : w.listeners.lookup key = some l) (hrest : ∀ x ∈ rest, x ∈ l.listeningHandles) :
    ListeningFrom N w.listeners (w.replaceListening N key l.addr rest).sockets
      (w.replaceListening N key l.addr rest).listeners := by
  unfold replaceListening
  split
  · next s hs =>
    apply ListeningFrom.insert
    intro x hx
    rcases List.mem_append.mp hx with hx | hx
    · exact .inl ⟨l, hl, rfl, hrest x hx⟩
    · rw [List.mem_singleton.mp hx]
      exact .inr ⟨s, hs, AList.lookup_insert _⟩
  · apply ListeningFrom.insert
    intro x hx
    exact .inl ⟨l, hl, rfl, hrest x hx⟩

end World

namespace Effect

variable {R : T → T → Prop} {c : Option StackCommand} {w w' : World T U}

/-- The handlers do nothing to a TCP socket that is there but close it. -/
theorem socketsKept (hf : N.FreshHandles) (hR : ∀ s, R s s) (hclose : ∀ s, R s (N.tcpClose s))
    (he : Effect N c w w') : SocketsKept R w.sockets w'.sockets := by
  cases he with
  | reject m port ips rep hr hm hb => exact .congr hR hm
  | connect k s port la hk => exact .setTcp hR (.inl hk)
  | listen m hs primary hp hlen hnd hport hold hnew hrest =>
    intro x s' hx
    by_cases hin : x ∈ hs
    · exact .inl (hold x hin)
    · exact .inr ⟨s', (hrest x hin).symm.trans hx, hR s'⟩
  | accept | acceptPending => exact World.replaceListening_kept hf hR _ _ _
  | listenerClose l m hl hout hin =>
    intro x s' hx
    by_cases hmem : x ∈ l.listeningHandles
    · obtain ⟨s, hs, hm⟩ := hin x hmem
      have heq : s' = if N.tcpState s = .listen then N.tcpClose s else s := by
        have hsame := hx.symm.trans hm
        simpa using hsame
      refine .inr ⟨s, hs, ?_⟩
      rw [heq]
      split_ifs
      · exact hclose s
      · exact hR s
    · exact .inr ⟨s', (hout x hmem).symm.trans hx, hR s'⟩
  | tcpClose s hs => exact .setTcp hR (.inr ⟨s, hs, hclose s⟩)
  | udpBind k s port addr hk => exact .setUdp hR k s
  | udpClose s hs => exact .setUdp hR _ _
  | wait | listenerGone | connected | connectDead => exact .refl hR w.sockets

theorem listeningFrom (he : Effect N c w w') :
    ListeningFrom N w.listeners w'.sockets w'.listeners := by
  cases he with
  | listen m hs primary hp hlen hnd hport hold hnew hrest =>
    apply ListeningFrom.insert
    intro x hx
    exact .inr (hnew x hx)
  | accept l x rest s la pa hl hx =>
    exact World.replaceListening_from hl (fun y hy => hx.mem_iff.mp (List.mem_cons_of_mem x hy))
  | acceptPending r l x rest s la pa hp hl hx =>
    exact World.replaceListening_from hl (fun y hy => hx.mem_iff.mp (List.mem_cons_of_mem x hy))
  | listenerClose l m hl => exact .erase _ _ _
  | reject | connect | wait | listenerGone | tcpClose | udpBind | udpClose | connected
  | connectDead => exact .refl _ _

end Effect

/-- A listener after a step is one from before, or it has just been given to the application. -/
def ListenersGiven (Li : HandleMap ListenerState) (An' : List (ReqId × Reply))
    (Li' : HandleMap ListenerState) : Prop :=
  ∀ k l', Li'.lookup k = some l' → (∃ l, Li.lookup k = some l ∧ l.addr = l'.addr) ∨
    ∃ r, (r, Reply.listen (.ok (k, l'.addr))) ∈ An'

theorem ListenersGiven.refl (Li : HandleMap ListenerState) (An' : List (ReqId × Reply)) :
    ListenersGiven Li An' Li := by
  intro k l hl
  exact .inl ⟨l, hl, rfl⟩

theorem World.replaceListening_given {w : World T U} {key : SocketHandle} {l : ListenerState}
    (hl : w.listeners.lookup key = some l) (rest : List SocketHandle)
    (An' : List (ReqId × Reply)) :
    ListenersGiven w.listeners An' (w.replaceListening N key l.addr rest).listeners := by
  have hput : ∀ hs, ListenersGiven w.listeners An' (w.listeners.insert key ⟨l.addr, hs⟩) := by
    intro hs k l' hl'
    rcases Table.insert_cases hl' with ⟨hk, he⟩ | ⟨-, hl'⟩
    · rw [hk, he]
      exact .inl ⟨l, hl, rfl⟩
    · exact .inl ⟨l', hl', rfl⟩
  unfold World.replaceListening
  split
  · exact hput _
  · exact hput _

theorem Effect.listenersGiven {c : Option StackCommand} {w w' : World T U} (he : Effect N c w w') :
    ListenersGiven w.listeners w'.answers w'.listeners := by
  cases he with
  | listen m hs primary hp hlen hnd hport hold hnew hrest =>
    rename_i addr backlog r
    intro k l' hl'
    rcases Table.insert_cases hl' with ⟨hk, he⟩ | ⟨-, hl'⟩
    · rw [hk, he]
      exact .inr ⟨r, List.mem_append_right _ (List.mem_singleton.mpr rfl)⟩
    · exact .inl ⟨l', hl', rfl⟩
  | accept l x rest s la pa hl => exact World.replaceListening_given hl rest _
  | acceptPending r l x rest s la pa hp hl => exact World.replaceListening_given hl rest _
  | listenerClose l m hl =>
    intro k l' hl'
    exact .inl ⟨l', (Table.erase_cases hl').2, rfl⟩
  | reject | connect | wait | listenerGone | tcpClose | udpBind | udpClose | connected
  | connectDead => exact .refl _ _

/-- Every listener was given to the application with the address it has, and its listening sockets
are on the port of that address. -/
structure ListensOn (P : N.TcpPorts) (w : World T U) : Prop where
  given : ∀ k l, w.listeners.lookup k = some l →
    ∃ r, (r, Reply.listen (.ok (k, l.addr))) ∈ w.answers
  port : OnPort P w.sockets w.listeners

namespace ListensOn

variable {P : N.TcpPorts} {w w' : World T U}

/-- What a step may do. -/
theorem step (h : ListensOn P w) (ho : Owned w)
    (hkept : SocketsKept (PortKept P) w.sockets w'.sockets)
    (hfrom : ListeningFrom N w.listeners w'.sockets w'.listeners) (ha : w.answers <+: w'.answers)
    (hgiven : ListenersGiven w.listeners w'.answers w'.listeners) : ListensOn P w' where
  given := by
    intro k l' hl'
    rcases hgiven k l' hl' with ⟨l, hl, haddr⟩ | hnew
    · obtain ⟨r, hr⟩ := h.given k l hl
      rw [← haddr]
      exact ⟨r, ha.subset hr⟩
    · exact hnew
  port := h.port.step ho.live.listening hkept hfrom

theorem effect (hf : N.FreshHandles) (h : ListensOn P w) (ho : Owned w) {c : Option StackCommand}
    (he : Effect N c w w') : ListensOn P w' :=
  h.step ho (he.socketsKept hf (.refl P) P.close_port) he.listeningFrom he.answers he.listenersGiven

/-- A step that changes sockets only. -/
theorem sockets (h : ListensOn P w) (ho : Owned w)
    (hkept : SocketsKept (PortKept P) w.sockets w'.sockets) (hl : w'.listeners = w.listeners)
    (ha : w'.answers = w.answers) : ListensOn P w' := by
  apply h.step ho hkept
  · rw [hl]
    exact .refl _ _
  · rw [ha]
  · rw [hl]
    exact .refl _ _

theorem failPending (h : ListensOn P w) : ListensOn P w.failPending := by
  apply World.failOps_rule (ListensOn P) _ h
  intro v k r e hv
  refine ⟨?_, hv.port⟩
  intro key l hl
  obtain ⟨q, hq⟩ := hv.given key l hl
  exact ⟨q, List.mem_append_left _ hq⟩

/-- Step lemma. -/
theorem transition (hf : N.FreshHandles) (h : ListensOn P w) (ho : Owned w) {a : Action E}
    (ht : Transition N a w w') : ListensOn P w' := by
  cases ht with
  | env he =>
    have hframe := World.envStep_frame he
    apply h.sockets ho _ hframe.listeners hframe.answers
    rw [hframe.sockets]
    exact .refl (.refl P) _
  | control => exact ⟨h.given, h.port⟩
  | command cmd rest hph hq he =>
    have hpop : ListensOn P { w with
        commands := rest
        received := w.received ++ cmd.response.toList } := ⟨h.given, h.port⟩
    have hend := hpop.effect hf (ho.popCommand hq _) he
    exact ⟨hend.given, hend.port⟩
  | writeTcp k tcp udp st s hph hst hs =>
    refine h.sockets ho (.setTcp (.refl P) (.inr ⟨s, hs, ?_⟩)) rfl rfl
    apply processTcpWrite_rule (PortKept P s)
    · intro s' data hs'
      rwa [PortKept, P.send_port]
    · intro _ s' hs'
      rcases P.close_port s' with hc | hc
      · rwa [PortKept, hc]
      · exact .inr hc
    · exact .refl P s
  | writeUdp k udp st s hst hs => exact h.sockets ho (.setUdp (.refl P) k _) rfl rfl
  | tcpEvent k e s hs =>
    exact h.sockets ho (.setTcp (.refl P) (.inr ⟨s, hs, P.process_port e s⟩)) rfl rfl
  | udpEvent k e s hs => exact h.sockets ho (.setUdp (.refl P) k _) rfl rfl
  | readTcp k tcp udp changed st s hst hs =>
    refine h.sockets ho (.setTcp (.refl P) (.inr ⟨s, hs, .inl ?_⟩)) rfl rfl
    apply processTcpRead_rule (fun s' => P.localPort s' = P.localPort s)
    · intro s' len hs'
      rwa [P.recv_port]
    · rfl
  | readUdp k udp changed st s hst hs => exact h.sockets ho (.setUdp (.refl P) k _) rfl rfl
  | pending order he =>
    have hend := ho.effects_rule hf (ListensOn P) h (fun u v hu hp he => hp.effect hf hu he) he
    exact ⟨hend.given, hend.port⟩
  | fail => exact ⟨h.failPending.given, h.failPending.port⟩

end ListensOn

/-- Run lemma. -/
theorem Reach.listensOn (hf : N.FreshHandles) (P : N.TcpPorts) {cfg : StackConfig} {port : UInt16}
    {w : World T U} (h : Reach N cfg port w) : ListensOn P w := by
  apply Reach.invariant hf (ListensOn P) _ _ h
  · intro ips p
    constructor <;> intro k l hl <;> cases hl
  · intro u v a ho hp _ ht
    exact hp.transition hf ho ht

end TapTunnel.Stack
