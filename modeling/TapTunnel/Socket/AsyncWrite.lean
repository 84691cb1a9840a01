import TapTunnel.Framework.Transition
import TapTunnel.Socket.Stream
import TapTunnel.Stack.Pump

namespace TapTunnel.Socket

open Framework Stack TcpStream

inductive Sink
  | stream
  | writeHalf
  deriving DecidableEq, Repr

def Sink.write : Sink → Bytes → TcpChan → WritePoll × TcpChan
  | .stream => TcpStream.write
  | .writeHalf => OwnedWriteHalf.write

/-- `AsyncWrite::poll_write` of the type. -/
def Sink.pollWrite : Sink → Bytes → TcpChan → WritePoll × TcpChan
  | .stream => TcpStream.pollWrite
  | .writeHalf => OwnedWriteHalf.pollWrite

/-- A single write for each buffer, or a loop that fails with `zero` when a write takes nothing. -/
inductive Driver
  | once
  | loop (zero : IoError)
  deriving DecidableEq, Repr

/-- The loop of `write_all` makes no call for an empty buffer. -/
def Driver.skips : Driver → Bytes → Bool
  | .once, _ => false
  | .loop _, buf => buf.isEmpty

def Driver.rest : Driver → Nat → Bytes → List Bytes → Except IoError (List Bytes)
  | .once, _, _, bufs => .ok bufs
  | .loop zero, n, buf, bufs => if n = 0 then .error zero else .ok (buf.drop n::bufs)

/-- `TcpStream::write_all` calls the inherent `write` once. -/
def streamWriteAll : Driver := .once

def halfWriteAll : Driver := .loop ⟨.writeZero, "failed to write whole buffer"⟩

/-- `AsyncWriteExt::write_all`, which drives `poll_write`. -/
def tokioWriteAll : Driver := .loop ⟨.writeZero, "write zero"⟩

/-- A task that writes buffers to a channel: those that are left, and the error that ended it. -/
structure Writer where
  chan : TcpChan
  todo : List Bytes
  failed : Option IoError
  deriving DecidableEq, Repr

/-- The task calls, the stack takes the oldest chunk, or it drops its receiver. -/
inductive Turn
  | call
  | drain
  | close
  deriving DecidableEq, Repr

namespace Writer

/-- The task goes on to its next call and stays there while that is pending. -/
def call (d : Driver) (poll : Bytes → TcpChan → WritePoll × TcpChan) (t : Writer) : Writer :=
  match t.failed, t.todo with
  | none, buf::bufs =>
    if d.skips buf then { t with todo := bufs }
    else
      match poll buf t.chan with
      | (.pending, c) => { t with chan := c }
      | (.err e, c) => { t with chan := c, failed := some e }
      | (.ok n, c) =>
        match d.rest n buf bufs with
        | .ok todo => { t with chan := c, todo := todo }
        | .error e => { t with chan := c, failed := some e }
  | _, _ => t

def step (d : Driver) (poll : Bytes → TcpChan → WritePoll × TcpChan) (turn : Turn) (t : Writer) :
    Option Writer :=
  match turn with
  | .call => some (t.call d poll)
  | .drain =>
    match t.chan.write.tryRecv with
    | .ok (_, rx) => some { t with chan := { t.chan with write := rx } }
    | .error _ => none
  | .close => some { t with chan := { t.chan with write := t.chan.write.dropRx } }

/-- The task makes a call while the channel is full and the stack still has its receiver. -/
def Blocked (d : Driver) (t : Writer) : Turn → Prop
  | .call => t.failed = none ∧ (∃ buf ∈ t.todo.head?, d.skips buf = false) ∧
      t.chan.write.rxAlive = true ∧ t.chan.write.cap ≤ t.chan.write.queue.length
  | _ => False

def Fails (t t' : Writer) : Prop := t.failed = none ∧ t'.failed ≠ none

end Writer

theorem Sink.write_eq (k : Sink) : k.write = TcpStream.write := by
  cases k <;> rfl

theorem Sink.pollWrite_eq (k : Sink) : k.pollWrite = TcpStream.pollWrite := by
  cases k <;> rfl

section Call

variable {d : Driver} {t : Writer} {buf : Bytes} {bufs : List Bytes}

theorem Driver.rest_whole (h : d.skips buf = false) (bufs : List Bytes) :
    ∃ todo, d.rest buf.length buf bufs = .ok todo ∧ todo.flatten = bufs.flatten := by
  cases d with
  | once => exact ⟨bufs, rfl, rfl⟩
  | loop zero =>
    have hlen : buf.length ≠ 0 := by
      intro h0
      rw [List.length_eq_zero_iff.mp h0] at h
      cases h
    refine ⟨buf.drop buf.length::bufs, if_neg hlen, ?_⟩
    rw [List.drop_length, List.flatten_cons, List.nil_append]

theorem Driver.flatten_of_skips (h : d.skips buf = true) (bufs : List Bytes) :
    (buf::bufs).flatten = bufs.flatten := by
  cases d with
  | once => cases h
  | loop zero => rw [List.flatten_cons, List.isEmpty_iff.mp h, List.nil_append]

namespace Writer

/-- The stream is kept, and the task fails only where the receiver is gone. -/
structure Sound (t t' : Writer) : Prop where
  bytes : t'.chan.written ++ t'.todo.flatten = t.chan.written ++ t.todo.flatten
  fails : t.Fails t' → t.chan.write.rxAlive = false

theorem Sound.of_failed {t' : Writer} (hb : t'.chan.written ++ t'.todo.flatten =
    t.chan.written ++ t.todo.flatten) (hf : t'.failed = t.failed) : Sound t t' := by
  refine ⟨hb, fun h => ?_⟩
  exact absurd (hf.trans h.1) h.2

theorem call_idle (h : ¬∃ buf bufs, t.failed = none ∧ t.todo = buf::bufs)
    (poll : Bytes → TcpChan → WritePoll × TcpChan) : t.call d poll = t := by
  unfold call
  split
  · next buf bufs hf ht => exact absurd ⟨buf, bufs, hf, ht⟩ h
  · rfl

theorem call_polls (hf : t.failed = none) (ht : t.todo = buf::bufs) (hskip : d.skips buf = false)
    (poll : Bytes → TcpChan → WritePoll × TcpChan) :
    (poll buf t.chan = (.pending, t.chan) → t.call d poll = t) ∧
    (∀ e, poll buf t.chan = (.err e, t.chan) → t.call d poll = { t with failed := some e }) ∧
    ∀ c, poll buf t.chan = (.ok buf.length, c) → ∃ todo, todo.flatten = bufs.flatten ∧
      t.call d poll = { t with chan := c, todo := todo } := by
  refine ⟨fun h => ?_, fun e h => ?_, fun c h => ?_⟩
  · simp only [call, hf, ht, hskip, h]
    rw [← hf, ← ht]
    rfl
  · simp only [call, hf, ht, hskip, h]
    rw [← ht]
    rfl
  · obtain ⟨todo, hrest, hflat⟩ := Driver.rest_whole hskip bufs
    refine ⟨todo, hflat, ?_⟩
    simp only [call, hf, ht, hskip, h, hrest]
    rfl

theorem call_congr (hf : t.failed = none) (ht : t.todo = buf::bufs)
    {poll poll' : Bytes → TcpChan → WritePoll × TcpChan} (h : poll buf t.chan = poll' buf t.chan) :
    t.call d poll = t.call d poll' := by
  unfold call
  simp only [hf, ht, h]

/-- The two ways to write differ exactly in what they make of a full channel. -/
theorem call_cases (d : Driver) (k : Sink) (t : Writer) :
    (t.Blocked d .call ∧ t.call d k.write = t ∧
      t.call d k.pollWrite = { t with failed := some ⟨.wouldBlock, "channel full"⟩ }) ∨
    (¬t.Blocked d .call ∧ t.call d k.pollWrite = t.call d k.write ∧
      t.Sound (t.call d k.write)) := by
  rw [k.write_eq, k.pollWrite_eq]
  by_cases hnext : ∃ buf bufs, t.failed = none ∧ t.todo = buf::bufs
  · obtain ⟨buf, bufs, hf, ht⟩ := hnext
    cases hskip : d.skips buf with
    | true =>
      have hcall : ∀ poll, t.call d poll = { t with todo := bufs } := by
        intro poll
        simp [call, hf, ht, hskip]
      refine .inr ⟨?_, ?_, ?_⟩
      · rintro ⟨-, ⟨b, hb, hno⟩, -⟩
        rw [ht] at hb
        obtain rfl := Option.some.inj hb
        rw [hskip] at hno
        cases hno
      · rw [hcall, hcall]
      · rw [hcall]
        refine .of_failed ?_ rfl
        rw [ht, Driver.flatten_of_skips hskip]
    | false =>
      obtain ⟨hpend, herr, hok⟩ := call_polls hf ht hskip write
      rcases Chan.trySend_cases buf t.chan.write with ⟨hs, hl⟩ | ⟨hs, hr, hl⟩ | ⟨hs, hr⟩
      · -- There is room.
        have hw : ∃ tx, write buf t.chan =
            (.ok buf.length, { t.chan with write := tx, written := t.chan.written ++ buf }) := by
          rw [write, hs]
          exact ⟨_, rfl⟩
        have hp : pollWrite buf t.chan = write buf t.chan := by rw [write, pollWrite, hs]
        obtain ⟨tx, hw⟩ := hw
        obtain ⟨todo, hflat, hcall⟩ := hok _ hw
        refine .inr ⟨?_, call_congr hf ht hp, ?_⟩
        · rintro ⟨-, -, -, hle⟩
          omega
        · rw [hcall]
          refine .of_failed ?_ rfl
          rw [ht, List.flatten_cons, hflat, List.append_assoc]
      · -- The channel is full.
        have hw : write buf t.chan = (.pending, t.chan) := by rw [write, hs]
        have hp : pollWrite buf t.chan = (.err ⟨.wouldBlock, "channel full"⟩, t.chan) := by
          rw [pollWrite, hs]
        have hbuf : ∃ b ∈ t.todo.head?, d.skips b = false := ⟨buf, by simp [ht], hskip⟩
        exact .inl ⟨⟨hf, hbuf, hr, hl⟩, hpend hw, (call_polls hf ht hskip pollWrite).2.1 _ hp⟩
      · -- The receiver is gone.
        have hw : write buf t.chan = (.err ⟨.brokenPipe, "stack task gone"⟩, t.chan) := by
          rw [write, hs]
        have hp : pollWrite buf t.chan = write buf t.chan := by rw [write, pollWrite, hs]
        refine .inr ⟨?_, call_congr hf ht hp, ?_⟩
        · rintro ⟨-, -, hr', -⟩
          rw [hr] at hr'
          cases hr'
        · rw [herr _ hw]
          exact ⟨rfl, fun _ => hr⟩
  · refine .inr ⟨?_, ?_, ?_⟩
    · rintro ⟨hf, ⟨buf, hb, -⟩, -⟩
      obtain ⟨bufs, ht⟩ := List.head?_eq_some_iff.mp hb
      exact hnext ⟨buf, bufs, hf, ht⟩
    · rw [call_idle hnext, call_idle hnext]
    · rw [call_idle hnext]
      exact .of_failed rfl rfl

end Writer

end Call

section Steps

variable (d : Driver) (k : Sink) {t t' : Writer} {turn : Turn}

theorem Writer.step_stack {poll : Bytes → TcpChan → WritePoll × TcpChan} (hne : turn ≠ .call)
    (h : t.step d poll turn = some t') :
    t'.chan.written = t.chan.written ∧ t'.todo = t.todo ∧ t'.failed = t.failed := by
  cases turn with
  | call => exact absurd rfl hne
  | drain =>
    simp only [step] at h
    split at h
    · obtain rfl := Option.some.inj h
      exact ⟨rfl, rfl, rfl⟩
    · cases h
  | close =>
    obtain rfl := Option.some.inj h
    exact ⟨rfl, rfl, rfl⟩

/-- Awaiting `write` and driving `poll_write` differ exactly at a full channel. -/
theorem Writer.step_agrees_iff (h : t.step d k.write turn = some t') :
    t.step d k.pollWrite turn = some t' ↔ ¬t.Blocked d turn := by
  cases turn with
  | drain | close => exact iff_of_true h id
  | call =>
    obtain rfl := Option.some.inj h
    rcases call_cases d k t with ⟨hb, hw, hp⟩ | ⟨hb, heq, -⟩
    · refine iff_of_false ?_ (not_not_intro hb)
      intro hstep
      have hfail := congrArg Writer.failed ((hp.symm.trans (Option.some.inj hstep)).trans hw)
      rw [hb.1] at hfail
      cases hfail
    · exact iff_of_true (congrArg some heq) hb

/-- With the receiver alive, `poll_write` fails exactly at a full channel. -/
theorem Writer.step_fails_iff (h : t.step d k.pollWrite turn = some t') :
    (t.Fails t' → t.chan.write.rxAlive = false) ↔ ¬t.Blocked d turn := by
  by_cases hcall : turn = .call
  · subst hcall
    obtain rfl := Option.some.inj h
    rcases call_cases d k t with ⟨hb, -, hp⟩ | ⟨hb, heq, hsound⟩
    · refine iff_of_false ?_ (not_not_intro hb)
      intro hclosed
      have hfails : t.Fails (t.call d k.pollWrite) := ⟨hb.1, by simp [hp]⟩
      have hopen := hb.2.2.1
      rw [hclosed hfails] at hopen
      cases hopen
    · rw [heq]
      exact iff_of_true hsound.fails hb
  · obtain ⟨-, -, hf⟩ := step_stack d hcall h
    refine iff_of_true (fun hfails => absurd (hf.trans hfails.1) hfails.2) ?_
    cases turn with
    | call => exact absurd rfl hcall
    | drain | close => exact id

theorem Writer.step_bytes {poll : Bytes → TcpChan → WritePoll × TcpChan}
    (hk : poll = k.write ∨ poll = k.pollWrite) (h : t.step d poll turn = some t') :
    t'.chan.written ++ t'.todo.flatten = t.chan.written ++ t.todo.flatten := by
  by_cases hcall : turn = .call
  · subst hcall
    obtain rfl := Option.some.inj h
    rcases call_cases d k t with ⟨-, hw, hp⟩ | ⟨-, heq, hsound⟩
    · rcases hk with rfl | rfl
      · rw [hw]
      · rw [hp]
    · rcases hk with rfl | rfl
      · exact hsound.bytes
      · rw [heq]
        exact hsound.bytes
  · obtain ⟨hw, ht, -⟩ := step_stack d hcall h
    rw [hw, ht]

end Steps

section StackTurns

variable {T U E : Type} {N : Smoltcp T U E} (d : Driver)
  (poll : Bytes → TcpChan → WritePoll × TcpChan)

theorem Writer.run_drains (t : Writer) (front rest : List Bytes)
    (h : t.chan.write.queue = front ++ rest) :
    runActions (step d poll) (List.replicate front.length .drain) t =
      some { t with chan := { t.chan with write := { t.chan.write with queue := rest } } } := by
  induction front generalizing t with
  | nil =>
    rw [List.nil_append] at h
    rw [← h]
    rfl
  | cons chunk front ih =>
    have hstep : t.step d poll .drain =
        some { t with
          chan := { t.chan with write := { t.chan.write with queue := front ++ rest } } } := by
      simp only [step, Chan.tryRecv, h, List.cons_append]
    rw [List.length_cons, List.replicate_succ, runActions_cons, hstep]
    exact ih _ rfl

/-- What a visit of the stack or a removal does to the channel is made up of turns. -/
theorem Writer.stack_turns (w : World T U) (k : SocketHandle) (st : TcpSocketState) (s : T)
    (todo : List Bytes) (failed : Option IoError) :
    (∃ n, runActions (step d poll) (List.replicate n .drain)
        ⟨w.tcpChans st.chan, todo, failed⟩ = some
          ⟨{ w.tcpChans st.chan with
            write := ((w.writeTcpEntry N k st s).tcpChans st.chan).write }, todo, failed⟩) ∧
    (w.tcpStates.lookup k = some st → step d poll .close ⟨w.tcpChans st.chan, todo, failed⟩ = some
        ⟨{ w.tcpChans st.chan with
          write := ((w.removeTcpState k).tcpChans st.chan).write }, todo, failed⟩) := by
  constructor
  · obtain ⟨rest, ⟨front, hfront⟩, hrx⟩ := processTcpWrite_takes (N := N) s st.pendingWrite
      (w.tcpChans st.chan).write
    refine ⟨front.length, ?_⟩
    rw [run_drains d poll ⟨w.tcpChans st.chan, todo, failed⟩ front rest hfront.symm]
    simp only [World.writeTcpEntry, Function.update_self, hrx]
  · intro hst
    simp only [World.removeTcpState, hst, releaseTcpState, Function.update_self]
    rfl

end StackTurns

/-- A task that drives `poll_write` takes the same steps as one that awaits the inherent `write`,
and fails only at a dropped receiver, exactly if no call meets a full channel. The channel gets a
prefix of the buffers with either, and all of it when the task has finished without an error. -/
theorem poll_write_agrees_iff (d : Driver) (k : Sink) (c : TcpChan) (bufs : List Bytes)
    (turns : List Turn) :
    (everyStep (Writer.step d k.write) (fun t turn t' => t.step d k.pollWrite turn = some t') turns
        ⟨c, bufs, none⟩ ↔
      everyStep (Writer.step d k.write) (fun t turn _ => ¬t.Blocked d turn) turns
        ⟨c, bufs, none⟩) ∧
    (everyStep (Writer.step d k.pollWrite)
        (fun t _ t' => t.Fails t' → t.chan.write.rxAlive = false) turns ⟨c, bufs, none⟩ ↔
      everyStep (Writer.step d k.pollWrite) (fun t turn _ => ¬t.Blocked d turn) turns
        ⟨c, bufs, none⟩) ∧
    ∀ poll, poll = k.write ∨ poll = k.pollWrite →
      ∀ t, runActions (Writer.step d poll) turns ⟨c, bufs, none⟩ = some t →
        t.chan.written ++ t.todo.flatten = c.written ++ bufs.flatten := by
  refine ⟨?_, ?_, ?_⟩
  · refine everyStep_congr _ ?_ turns .start
    intro t turn t' _ h
    exact Writer.step_agrees_iff d k h
  · refine everyStep_congr _ ?_ turns .start
    intro t turn t' _ h
    exact Writer.step_fails_iff d k h
  · intro poll hk t ht
    refine runActions_preserves (Writer.step d poll)
      (fun t => t.chan.written ++ t.todo.flatten = c.written ++ bufs.flatten) ?_ turns _ t rfl ht
    intro s u turn hs hstep
    exact (Writer.step_bytes d k hk hstep).trans hs

/-- Nine buffers are written while the stack takes nothing: `poll_write` fails after eight of them,
where the inherent `write` waits and goes on. -/
theorem poll_write_fails_midway :
    (∃ t, runActions (Writer.step tokioWriteAll Sink.stream.pollWrite) (List.replicate 17 .call)
        ⟨.new, List.replicate 9 [1], none⟩ = some t ∧
      t.failed = some ⟨.wouldBlock, "channel full"⟩ ∧ t.chan.write.rxAlive = true ∧
      t.chan.written = List.replicate 8 1 ∧ t.todo.flatten = [1]) ∧
    (∃ t, runActions (Writer.step tokioWriteAll Sink.writeHalf.pollWrite) (List.replicate 17 .call)
        ⟨.new, List.replicate 9 [1], none⟩ = some t ∧
      t.failed = some ⟨.wouldBlock, "channel full"⟩ ∧ t.chan.write.rxAlive = true ∧
      t.chan.written = List.replicate 8 1 ∧ t.todo.flatten = [1]) ∧
    ∃ t, runActions (Writer.step .once Sink.stream.write)
        (List.replicate 9 .call ++ [.drain, .call]) ⟨.new, List.replicate 9 [1], none⟩ = some t ∧
      t.failed = none ∧ t.chan.written = List.replicate 9 1 ∧ t.todo = [] :=
  ⟨⟨_, rfl, by decide⟩, ⟨_, rfl, by decide⟩, ⟨_, rfl, by decide⟩⟩

end TapTunnel.Socket
