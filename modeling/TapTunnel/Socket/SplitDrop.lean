import TapTunnel.Stack.Run

namespace TapTunnel.Socket

open Framework Stack

inductive Half
  | read
  | write
  deriving DecidableEq, Repr

instance : Fintype Half := ⟨{.read, .write}, fun x => by cases x <;> simp⟩

def Half.other : Half → Half
  | .read => .write
  | .write => .read

/-- How far a half is: in use, past the body of its `drop`, or with its reference released. -/
inductive Stage
  | alive
  | checked
  | gone
  deriving DecidableEq, Repr

/-- `strong` is the count of the `Arc`; `sent` only records what was put into the channel. -/
structure Split where
  handle : SocketHandle
  commands : Chan StackCommand
  strong : Nat
  stage : Half → Stage
  sent : List StackCommand

/-- A half drops or releases its reference, another part sends, or the stack takes a command. -/
inductive SplitAction
  | drop (x : Half)
  | release (x : Half)
  | issue (cmd : StackCommand)
  | receive
  deriving DecidableEq, Repr

end TapTunnel.Socket

namespace TapTunnel.TcpStreamInner

open Framework Stack Socket

/-- The result of `try_send` is ignored. -/
def close (p : Split) : Split :=
  match p.commands.trySend (.tcpClose p.handle) with
  | .ok tx => { p with commands := tx, sent := p.sent ++ [.tcpClose p.handle] }
  | .error _ => p

/-- The body of `drop` of both halves; the reference is released only behind it. -/
def closeIfLast (p : Split) : Split := if p.strong = 1 then close p else p

end TapTunnel.TcpStreamInner

namespace TapTunnel.OwnedReadHalf

def drop (p : Socket.Split) : Socket.Split := TcpStreamInner.closeIfLast p

end TapTunnel.OwnedReadHalf

namespace TapTunnel.OwnedWriteHalf

def drop (p : Socket.Split) : Socket.Split := TcpStreamInner.closeIfLast p

end TapTunnel.OwnedWriteHalf

namespace TapTunnel.TcpStream

open Framework Stack Socket

def intoSplit (handle : SocketHandle) (commands : Chan StackCommand) : Split :=
  ⟨handle, commands, 2, fun _ => .alive, []⟩

end TapTunnel.TcpStream

namespace TapTunnel.Socket

open Framework Stack

def Half.drop : Half → Split → Split
  | .read => OwnedReadHalf.drop
  | .write => OwnedWriteHalf.drop

namespace Split

def step (a : SplitAction) (p : Split) : Option Split :=
  match a with
  | .drop x =>
    if p.stage x = .alive then
      some { x.drop p with stage := Function.update p.stage x .checked }
    else none
  | .release x =>
    if p.stage x = .checked then
      some { p with strong := p.strong-1, stage := Function.update p.stage x .gone }
    else none
  | .issue cmd =>
    match p.commands.trySend cmd with
    | .ok tx => some { p with commands := tx }
    | .error _ => none
  | .receive =>
    match p.commands.tryRecv with
    | .ok (_, rx) => some { p with commands := rx }
    | .error _ => none

/-- A half sends the close, with room for it, or leaves everything as it is. -/
theorem drop_eq (x : Half) (p : Split) :
    x.drop p = if p.strong = 1 ∧ p.commands.room ≠ 0 then
      { p with
        commands := { p.commands with queue := p.commands.queue ++ [.tcpClose p.handle] }
        sent := p.sent ++ [.tcpClose p.handle] }
    else p := by
  have hbody : x.drop p = TcpStreamInner.closeIfLast p := by cases x <;> rfl
  rw [hbody]
  unfold TcpStreamInner.closeIfLast
  by_cases hlast : p.strong = 1
  · rw [if_pos hlast]
    unfold TcpStreamInner.close
    by_cases hroom : p.commands.room = 0
    · obtain ⟨e, he⟩ := Chan.trySend_of_no_room hroom (StackCommand.tcpClose p.handle)
      rw [he, if_neg fun h => h.2 hroom]
    · rw [Chan.trySend_of_room hroom, if_pos ⟨hlast, hroom⟩]
  · rw [if_neg hlast, if_neg fun h => hlast h.1]

theorem step_cases {a : SplitAction} {p q : Split} (h : step a p = some q) :
    (∃ x, a = .drop x ∧ p.stage x = .alive ∧
      q = { x.drop p with stage := Function.update p.stage x .checked }) ∨
    (∃ x, a = .release x ∧ p.stage x = .checked ∧
      q = { p with strong := p.strong-1, stage := Function.update p.stage x .gone }) ∨
    ((∀ x, a ≠ .drop x) ∧ ∃ c, q = { p with commands := c }) := by
  cases a with
  | drop x =>
    simp only [step] at h
    split_ifs at h with halive
    exact .inl ⟨x, rfl, halive, (Option.some.inj h).symm⟩
  | release x =>
    simp only [step] at h
    split_ifs at h with hchecked
    exact .inr (.inl ⟨x, rfl, hchecked, (Option.some.inj h).symm⟩)
  | issue cmd =>
    simp only [step] at h
    split at h
    · exact .inr (.inr ⟨nofun, _, (Option.some.inj h).symm⟩)
    · cases h
  | receive =>
    simp only [step] at h
    split at h
    · exact .inr (.inr ⟨nofun, _, (Option.some.inj h).symm⟩)
    · cases h

def held : Stage → Nat
  | .alive | .checked => 1
  | .gone => 0

/-- The count is that of the halves not released; only the last of them sends a close. -/
structure Counted (handle : SocketHandle) (p : Split) : Prop where
  handle_eq : p.handle = handle
  strong : p.strong = held (p.stage .read) + held (p.stage .write)
  sent : p.sent = [] ∨ p.sent = [.tcpClose handle] ∧ (∀ x, p.stage x ≠ .alive) ∧
    ∃ x, p.stage x = .gone

section Invariant

variable {handle : SocketHandle} {p q : Split} {a : SplitAction}

theorem Counted.strong_at (hc : Counted handle p) (x : Half) :
    p.strong = held (p.stage x) + held (p.stage x.other) := by
  cases x with
  | read => exact hc.strong
  | write => rw [hc.strong, Nat.add_comm]; rfl

/-- A half that holds its reference sees a count of 1 when the other has released. -/
theorem Counted.last_iff (hc : Counted handle p) {x : Half} (hx : p.stage x ≠ .gone) :
    p.strong = 1 ↔ p.stage x.other = .gone := by
  have hcount := hc.strong_at x
  cases hs : p.stage x with
  | gone => exact absurd hs hx
  | alive | checked => cases ho : p.stage x.other <;> simp [hcount, hs, ho, held]

theorem Counted.sent_of_alive (hc : Counted handle p) {x : Half} (hx : p.stage x = .alive) :
    p.sent = [] := by
  rcases hc.sent with hnil | ⟨-, hall, -⟩
  · exact hnil
  · exact absurd hx (hall x)

theorem other_ne (x : Half) : x.other ≠ x := by cases x <;> nofun

/-- When one half has moved on, only the other can still be in use. -/
theorem none_alive_update (f : Half → Stage) (x : Half) (s : Stage) (hs : s ≠ .alive) :
    (∀ y, Function.update f x s y ≠ .alive) ↔ f x.other ≠ .alive := by
  constructor
  · intro h
    simpa [Function.update_of_ne (other_ne x)] using h x.other
  · intro h y
    by_cases hy : y = x
    · subst hy
      simpa using hs
    · have hyo : y = x.other := by cases x <;> cases y <;> first | rfl | exact absurd rfl hy
      rw [Function.update_of_ne hy, hyo]
      exact h

theorem counted_intoSplit (handle : SocketHandle) (commands : Chan StackCommand) :
    Counted handle (TcpStream.intoSplit handle commands) := ⟨rfl, rfl, .inl rfl⟩

theorem Counted.drop (hc : Counted handle p) {x : Half} (hx : p.stage x = .alive) :
    Counted handle { x.drop p with stage := Function.update p.stage x .checked } := by
  have hsame : ∀ y, held (Function.update p.stage x .checked y) = held (p.stage y) := by
    intro y
    by_cases hy : y = x
    · subst hy
      rw [Function.update_self, hx]
      rfl
    · rw [Function.update_of_ne hy]
  rw [drop_eq]
  split_ifs with hlast
  · have hgone := (hc.last_iff (x := x) (by simp [hx])).mp hlast.1
    refine ⟨hc.handle_eq, by simp only [hsame]; exact hc.strong, .inr ⟨?_, ?_, x.other, ?_⟩⟩
    · simp [hc.sent_of_alive hx, hc.handle_eq]
    · exact (none_alive_update p.stage x .checked nofun).mpr (by simp [hgone])
    · simp [Function.update_of_ne (other_ne x), hgone]
  · exact ⟨hc.handle_eq, by simp only [hsame]; exact hc.strong, .inl (hc.sent_of_alive hx)⟩

theorem Counted.release (hc : Counted handle p) {x : Half} (hx : p.stage x = .checked) :
    Counted handle
      { p with strong := p.strong-1, stage := Function.update p.stage x .gone } := by
  have hcount := hc.strong_at x
  rw [hx] at hcount
  refine ⟨hc.handle_eq, ?_, ?_⟩
  · cases x <;> simp_all [held, Half.other]
  · rcases hc.sent with hnil | ⟨hone, hall, -⟩
    · exact .inl hnil
    · exact .inr ⟨hone, (none_alive_update p.stage x .gone nofun).mpr (hall _), x, by simp⟩

theorem Counted.step (hc : Counted handle p) (h : step a p = some q) : Counted handle q := by
  rcases step_cases h with ⟨x, -, hx, rfl⟩ | ⟨x, -, hx, rfl⟩ | ⟨-, c, rfl⟩
  · exact hc.drop hx
  · exact hc.release hx
  · exact ⟨hc.handle_eq, hc.strong, hc.sent⟩

/-- Once both halves have come through their `drop`, a close has been sent. -/
def Announced (handle : SocketHandle) (p : Split) : Prop :=
  (∀ x, p.stage x ≠ .alive) → p.sent = [.tcpClose handle]

/-- A half that drops finds the other one in use, or gone and room in the channel. -/
def Apart (p : Split) (a : SplitAction) : Prop :=
  ∀ x, a = .drop x →
    p.stage x.other ≠ .checked ∧ (p.stage x.other = .gone → p.commands.room ≠ 0)

theorem drop_announced_iff (hc : Counted handle p) {x : Half} (hx : p.stage x = .alive) :
    Announced handle { x.drop p with stage := Function.update p.stage x .checked } ↔
      Apart p (.drop x) := by
  have hsent := hc.sent_of_alive hx
  have hlast := hc.last_iff (x := x) (by simp [hx])
  have hall := none_alive_update p.stage x .checked nofun
  simp only [Announced, Apart, SplitAction.drop.injEq, forall_eq', hall, drop_eq]
  cases ho : p.stage x.other with
  | alive => simp
  | checked =>
    have hne : p.strong ≠ 1 := by simp [hlast, ho]
    simp [hne, hsent]
  | gone =>
    have h1 : p.strong = 1 := by simp [hlast, ho]
    by_cases hroom : p.commands.room = 0
    · simp [hroom, hsent]
    · simp [h1, hroom, hsent, hc.handle_eq]

/-- A step keeps a close announced exactly when the halves are apart. -/
theorem announced_step_iff (hc : Counted handle p) (hp : Announced handle p)
    (h : step a p = some q) : Announced handle q ↔ Apart p a := by
  rcases step_cases h with ⟨x, rfl, hx, rfl⟩ | ⟨x, rfl, hx, rfl⟩ | ⟨hno, c, rfl⟩
  · exact drop_announced_iff hc hx
  · have hx' : p.stage x ≠ .alive := by simp [hx]
    refine iff_of_true ?_ nofun
    intro hall
    apply hp
    rw [← Function.update_eq_self x p.stage, none_alive_update p.stage x _ hx']
    exact (none_alive_update p.stage x .gone nofun).mp hall
  · exact iff_of_true hp fun x hx => absurd hx (hno x)

/-- A close that is missing once both halves are through stays missing. -/
theorem announced_back (h : step a p = some q) (hq : Announced handle q) : Announced handle p := by
  intro hall
  rcases step_cases h with ⟨x, -, hx, -⟩ | ⟨x, -, hx, rfl⟩ | ⟨-, c, rfl⟩
  · exact absurd hx (hall x)
  · exact hq ((none_alive_update p.stage x .gone nofun).mpr (hall _))
  · exact hq hall

end Invariant

/-- A drop of the halves is no step of the tunnel or the sending of one command. -/
theorem drop_envStep {E T U : Type} (x : Half) (p : Split) (w : World T U)
    (hcmd : w.commands = p.commands) (hhas : w.HasStream p.handle)
    (htx : w.commands.txAlive = true) :
    (x.drop p = p) ∨
    (w.envStep (E := E) (.issue (.tcpClose p.handle)) =
        some { w with commands := (x.drop p).commands } ∧
      (x.drop p).sent = p.sent ++ [.tcpClose p.handle]) := by
  rw [drop_eq]
  split_ifs with hlast
  · refine .inr ⟨?_, rfl⟩
    rw [hcmd] at htx
    simp [World.envStep, World.MayIssue, hhas, hcmd, htx, Chan.trySend_of_room hlast.2,
      StackCommand.response]
  · exact .inl rfl

end Split

/-- Two halves are dropped on two threads. While a half is in use no close has been sent, and never
more than one. When both are gone, one has been sent exactly if neither half ran its `drop` between
the `drop` of the other and the release of its reference. -/
theorem split_drop_closes_once_iff (handle : SocketHandle) (commands : Chan StackCommand)
    (as : List SplitAction) (t : Split)
    (hrun : runActions Split.step as (TcpStream.intoSplit handle commands) = some t)
    (hroom : everyStep Split.step (fun p a _ => ∀ x, a = .drop x → p.commands.room ≠ 0) as
      (TcpStream.intoSplit handle commands)) :
    ((∃ x, t.stage x = .alive) → t.sent = []) ∧
    (t.sent = [] ∨ t.sent = [.tcpClose handle]) ∧
    ((∀ x, t.stage x = .gone) →
      (t.sent = [.tcpClose handle] ↔
        everyStep Split.step (fun p a _ => ∀ x, a = .drop x → p.stage x.other ≠ .checked) as
          (TcpStream.intoSplit handle commands))) := by
  have hinv : ∀ p, Reachable Split.step (TcpStream.intoSplit handle commands) p →
      p.Counted handle := fun p hp =>
    hp.invariant _ _ (Split.counted_intoSplit handle commands) fun _ _ _ hc _ h => hc.step h
  have hstart : Reachable Split.step (TcpStream.intoSplit handle commands)
      (TcpStream.intoSplit handle commands) := .start
  have hcount := hinv t (hstart.run _ hrun)
  have hann : (TcpStream.intoSplit handle commands).Announced handle :=
    fun h => absurd rfl (h .read)
  refine ⟨fun ⟨x, hx⟩ => hcount.sent_of_alive hx, hcount.sent.imp id And.left, ?_⟩
  intro hgone
  have hlast : t.Announced handle ↔ t.sent = [.tcpClose handle] :=
    ⟨fun h => h fun x => by simp [hgone x], fun h _ => h⟩
  rw [← hlast, ← everyStep_last_iff Split.step (fun p a q _ => Split.announced_back) as hstart hrun
    hann, everyStep_kept_iff Split.step (fun p a q hp => Split.announced_step_iff (hinv p hp)) as
    hstart hann]
  exact everyStep_congr_of Split.step hroom fun p a q ha => by
    refine forall_congr' fun x => imp_congr_right fun hx => ?_
    exact and_iff_left fun _ => ha x hx

def sequentialDrop : List SplitAction :=
  [.drop .read, .release .read, .drop .write, .release .write]

theorem split_drop_closes_once_sequentialDrop :
    ∃ t, runActions Split.step sequentialDrop
        (TcpStream.intoSplit 7 (.new commandChannelCapacity)) = some t ∧
      t.sent = [.tcpClose 7] := by
  obtain ⟨t, -, hrun, hgone⟩ := reachable_of_run Split.step sequentialDrop
    (TcpStream.intoSplit 7 (.new commandChannelCapacity))
    (fun t => decide (∀ x, t.stage x = .gone)) (by decide)
  have hclose := (split_drop_closes_once_iff 7 _ sequentialDrop t hrun (by decide)).2.2
    (of_decide_eq_true hgone)
  exact ⟨t, hrun, hclose.mpr (by decide)⟩

/-- Each half sees the reference of the other and leaves the close to it. -/
theorem split_drop_sends_no_close :
    (runActions Split.step [.drop .read, .drop .write, .release .read, .release .write]
        (TcpStream.intoSplit 7 (.new commandChannelCapacity))).map
      (fun t => (t.stage .read, t.stage .write, t.sent, t.commands.queue)) =
    some (.gone, .gone, [], []) := by decide

end TapTunnel.Socket
