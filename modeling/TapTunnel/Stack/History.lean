import TapTunnel.Stack.Entries
import TapTunnel.Stack.HandleSafety

namespace TapTunnel.Stack

open Framework

variable {T U E : Type} {N : Smoltcp T U E}

/-- The functions by which an application reads from a stream. -/
inductive ReadFn
  | streamRead
  | streamPollRead
  | halfRead
  | halfPollRead
  deriving DecidableEq, Repr

namespace ReadFn

def run : ReadFn → Nat → TcpChan → TcpStream.ReadPoll × TcpChan
  | .streamRead => TcpStream.read
  | .streamPollRead => TcpStream.pollRead
  | .halfRead => OwnedReadHalf.read
  | .halfPollRead => OwnedReadHalf.pollRead

/-- The function is one of the read half, which exists after `into_split` only. -/
def ofHalf : ReadFn → Bool
  | .streamRead | .streamPollRead => false
  | .halfRead | .halfPollRead => true

theorem run_eq (f : ReadFn) : f.run = TcpStream.read := by
  cases f <;> rfl

end ReadFn

/-- The stack with the history of its read paths: the bytes each socket has received, the bytes
each stream has returned to its reader, and the streams that have been split. -/
structure Traced (T U : Type) where
  world : World T U
  arrived : SocketHandle → Bytes
  returned : ChanId → Bytes
  split : ChanId → Bool

inductive TracedAction (E : Type)
  | stack (a : Action E)
  | read (f : ReadFn) (ch : ChanId) (len : Nat)
  | intoSplit (ch : ChanId)

/-- The receive buffer of the TCP socket under `h`. -/
def rxOf (N : Smoltcp T U E) (w : World T U) (h : SocketHandle) : Bytes :=
  match w.sockets.lookup h with
  | some (.tcp s) => N.rxBuf s
  | _ => []

/-- What an action adds to the receive buffer of the socket under `h`. -/
def arrivals (N : Smoltcp T U E) (w : World T U) (a : Action E) (h : SocketHandle) : Bytes :=
  match a with
  | .tcpEvent k e =>
    if h = k then
      match w.sockets.lookup k with
      | some (.tcp s) => (N.rxBuf (N.tcpProcess e s)).drop (N.rxBuf s).length
      | _ => []
    else []
  | _ => []

namespace Traced

def init (N : Smoltcp T U E) (cfg : StackConfig) (port : UInt16) : Traced T U :=
  ⟨World.init N cfg port, fun _ => [], fun _ => [], fun _ => false⟩

/-- Reads go through one of the four functions. `into_split` moves `read_rx`, `read_buf`,
`write_tx` and `write_notify` to the halves as they are. -/
def step (N : Smoltcp T U E) (cfg : StackConfig) (a : TracedAction E) (t : Traced T U) :
    Option (Traced T U) :=
  match a with
  | .stack (.streamRead _ _) => none
  | .stack a => (World.step N cfg a t.world).map fun w =>
      { t with world := w, arrived := fun h => t.arrived h ++ arrivals N t.world a h }
  | .read f ch len =>
    if f.ofHalf = t.split ch then
      (World.step N cfg (.streamRead ch len) t.world).map fun w =>
        { t with
          world := w
          returned := Function.update t.returned ch
            (t.returned ch ++ (f.run len (t.world.tcpChans ch)).1.bytes) }
    else none
  | .intoSplit ch =>
    if t.world.HasTcpChan ch ∧ t.split ch = false ∧ (t.world.tcpChans ch).read.rxAlive ∧
        (t.world.tcpChans ch).write.txAlive then
      some { t with split := Function.update t.split ch true }
    else none

/-- The steps of the layer with history are those of the stack, and `into_split`. -/
inductive Step (N : Smoltcp T U E) (cfg : StackConfig) :
    TracedAction E → Traced T U → Traced T U → Prop
  | stack {t : Traced T U} {w : World T U} (a : Action E) (ha : ∀ ch len, a ≠ .streamRead ch len)
      (hs : World.step N cfg a t.world = some w) :
      Step N cfg (.stack a) t
        { t with world := w, arrived := fun h => t.arrived h ++ arrivals N t.world a h }
  | read {t : Traced T U} {w : World T U} (f : ReadFn) (ch : ChanId) (len : Nat)
      (hs : World.step N cfg (.streamRead ch len) t.world = some w) :
      Step N cfg (.read f ch len) t
        { t with
          world := w
          returned := Function.update t.returned ch
            (t.returned ch ++ (TcpStream.read len (t.world.tcpChans ch)).1.bytes) }
  | intoSplit {t : Traced T U} (ch : ChanId) (split : ChanId → Bool) :
      Step N cfg (.intoSplit ch) t { t with split := split }

theorem step_cases {cfg : StackConfig} {a : TracedAction E} {t t' : Traced T U}
    (h : step N cfg a t = some t') : Step N cfg a t t' := by
  cases a with
  | stack a =>
    have hne : ∀ ch len, a ≠ .streamRead ch len := by
      rintro ch len rfl
      cases h
    have hmap : (World.step N cfg a t.world).map (fun w =>
        ({ t with world := w, arrived := fun h => t.arrived h ++ arrivals N t.world a h } :
          Traced T U)) = some t' := by
      cases a with
      | streamRead ch len => cases h
      | _ => exact h
    obtain ⟨w, hw, rfl⟩ := Option.map_eq_some_iff.mp hmap
    exact .stack a hne hw
  | read f ch len =>
    simp only [step, f.run_eq] at h
    split_ifs at h
    obtain ⟨w, hw, rfl⟩ := Option.map_eq_some_iff.mp h
    exact .read f ch len hw
  | intoSplit ch =>
    simp only [step] at h
    split_ifs at h
    obtain rfl := Option.some.inj h
    exact .intoSplit ch _

/-- The layer with history simulates nothing but runs of the stack. -/
theorem reach {cfg : StackConfig} {port : UInt16} {ok : Traced T U → TracedAction E → Prop}
    {t : Traced T U} (h : ReachVia (step N cfg) ok (init N cfg port) t) :
    Reach N cfg port t.world := by
  induction h with
  | start => exact .start
  | next _ _ hs ih =>
    cases step_cases hs with
    | stack a ha hw => exact .next ih trivial hw
    | read f ch len hw => exact .next ih trivial hw
    | intoSplit ch split => exact ih

end Traced

end TapTunnel.Stack
