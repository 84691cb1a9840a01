import Mathlib

namespace TapTunnel.Framework

/-- Bounded multi-producer single-consumer queue, seen from both of its ends.
`txAlive` says that some sender still exists, `rxAlive` that the receiver does. -/
structure Chan (α : Type) where
  cap : Nat
  queue : List α
  txAlive : Bool
  rxAlive : Bool
  deriving DecidableEq, Repr

inductive TryRecvError
  | empty
  | disconnected
  deriving DecidableEq, Repr

inductive TrySendError
  | full
  | closed
  deriving DecidableEq, Repr

namespace Chan

variable {α : Type}

def new (cap : Nat) : Chan α := ⟨cap, [], true, true⟩

def trySend (x : α) (c : Chan α) : Except TrySendError (Chan α) :=
  if c.rxAlive then
    if c.queue.length < c.cap then .ok { c with queue := c.queue ++ [x] } else .error .full
  else .error .closed

/-- An empty queue is `disconnected` only once every sender is gone. -/
def tryRecv (c : Chan α) : Except TryRecvError (α × Chan α) :=
  match c.queue with
  | x::q => .ok (x, { c with queue := q })
  | [] => .error (if c.txAlive then .empty else .disconnected)

/-- Slots a sender may still reserve; none once the receiver is gone. -/
def room (c : Chan α) : Nat := if c.rxAlive then c.cap - c.queue.length else 0

def dropTx (c : Chan α) : Chan α := { c with txAlive := false }

/-- Dropping the receiver discards what is still queued. -/
def dropRx (c : Chan α) : Chan α := { c with rxAlive := false, queue := [] }

@[simp] theorem new_queue (cap : Nat) : (new cap : Chan α).queue = [] := rfl

@[simp] theorem dropTx_queue (c : Chan α) : c.dropTx.queue = c.queue := rfl

@[simp] theorem dropTx_rxAlive (c : Chan α) : c.dropTx.rxAlive = c.rxAlive := rfl

@[simp] theorem dropRx_txAlive (c : Chan α) : c.dropRx.txAlive = c.txAlive := rfl

theorem rxAlive_of_room {c : Chan α} (h : c.room ≠ 0) : c.rxAlive = true := by
  by_contra hr
  exact h (if_neg hr)

/-- A successful send appends one message and changes nothing else. -/
theorem trySend_ok {x : α} {c d : Chan α} (h : c.trySend x = .ok d) :
    c.rxAlive = true ∧ c.queue.length < c.cap ∧ d = { c with queue := c.queue ++ [x] } := by
  unfold trySend at h
  split_ifs at h with hr hl
  exact ⟨hr, hl, (Except.ok.inj h).symm⟩

theorem trySend_full {x : α} {c : Chan α} (h : c.trySend x = .error .full) :
    c.rxAlive = true ∧ c.cap ≤ c.queue.length := by
  unfold trySend at h
  split_ifs at h with hr hl
  · exact ⟨hr, Nat.le_of_not_lt hl⟩
  · cases h

theorem trySend_closed {x : α} {c : Chan α} (h : c.trySend x = .error .closed) :
    c.rxAlive = false := by
  unfold trySend at h
  split_ifs at h with hr
  · cases h
  · simpa using hr

theorem trySend_cases (x : α) (c : Chan α) :
    (c.trySend x = .ok { c with queue := c.queue ++ [x] } ∧ c.queue.length < c.cap) ∨
    (c.trySend x = .error .full ∧ c.rxAlive = true ∧ c.cap ≤ c.queue.length) ∨
    (c.trySend x = .error .closed ∧ c.rxAlive = false) := by
  cases h : c.trySend x with
  | ok d =>
    obtain ⟨-, hl, rfl⟩ := trySend_ok h
    exact .inl ⟨rfl, hl⟩
  | error e =>
    cases e with
    | full => exact .inr (.inl ⟨rfl, trySend_full h⟩)
    | closed => exact .inr (.inr ⟨rfl, trySend_closed h⟩)

theorem trySend_of_room {c : Chan α} (h : c.room ≠ 0) (x : α) :
    c.trySend x = .ok { c with queue := c.queue ++ [x] } := by
  have hrx := rxAlive_of_room h
  unfold room at h
  rw [if_pos hrx] at h
  unfold trySend
  rw [if_pos hrx, if_pos (Nat.lt_of_sub_ne_zero h)]

theorem trySend_of_no_room {c : Chan α} (h : c.room = 0) (x : α) : ∃ e, c.trySend x = .error e := by
  rcases trySend_cases x c with ⟨hok, hlt⟩ | ⟨hfull, -⟩ | ⟨hclosed, -⟩
  · have hrx := (trySend_ok hok).1
    unfold room at h
    rw [if_pos hrx] at h
    omega
  · exact ⟨_, hfull⟩
  · exact ⟨_, hclosed⟩

/-- A successful receive takes the oldest message. -/
theorem tryRecv_ok {x : α} {c d : Chan α} (h : c.tryRecv = .ok (x, d)) :
    c.queue = x::d.queue ∧ d.txAlive = c.txAlive ∧ d.rxAlive = c.rxAlive ∧ d.cap = c.cap := by
  cases hq : c.queue with
  | nil => simp [tryRecv, hq] at h
  | cons y q =>
    simp only [tryRecv, hq, Except.ok.injEq, Prod.mk.injEq] at h
    obtain ⟨rfl, rfl⟩ := h
    simp

theorem tryRecv_error {c : Chan α} {e : TryRecvError} (h : c.tryRecv = .error e) :
    c.queue = [] := by
  cases hq : c.queue with
  | nil => rfl
  | cons x q => simp [tryRecv, hq] at h

/-- `done` has left the queue in the order of `offered`; what is neither done nor queued was
discarded when the receiver went. -/
def Flow (done : List α) (c : Chan α) (offered : List α) : Prop :=
  ∃ lost, done ++ c.queue ++ lost = offered ∧ (c.rxAlive = true → lost = [])

section Flow

variable {done offered : List α} {c : Chan α}

theorem flow_new (cap : Nat) : Flow [] (new cap : Chan α) [] := ⟨[], rfl, fun _ => rfl⟩

theorem Flow.trySend {d : Chan α} {x : α} (hf : Flow done c offered) (h : c.trySend x = .ok d) :
    Flow done d (offered++[x]) := by
  obtain ⟨hr, -, rfl⟩ := trySend_ok h
  obtain ⟨lost, rfl, hl⟩ := hf
  exact ⟨[], by simp [hl hr], fun _ => rfl⟩

theorem Flow.tryRecv {d : Chan α} {x : α} (hf : Flow done c offered)
    (h : c.tryRecv = .ok (x, d)) : Flow (done++[x]) d offered := by
  obtain ⟨hq, -, hr, -⟩ := tryRecv_ok h
  obtain ⟨lost, rfl, hl⟩ := hf
  exact ⟨lost, by simp [hq], fun hd => hl (hr ▸ hd)⟩

theorem Flow.mem_of_tryRecv {d : Chan α} {x : α} (hf : Flow done c offered)
    (h : c.tryRecv = .ok (x, d)) : x ∈ offered := by
  obtain ⟨lost, rfl, -⟩ := hf.tryRecv h
  simp

/-- Several messages are added, for which there is room only while the receiver exists. -/
theorem Flow.append {new : List α} (hf : Flow done c offered) (hr : new ≠ [] → c.rxAlive = true) :
    Flow done { c with queue := c.queue ++ new } (offered++new) := by
  obtain ⟨lost, rfl, hl⟩ := hf
  by_cases hnew : new = []
  · subst hnew
    exact ⟨lost, by simp, hl⟩
  · exact ⟨[], by simp [hl (hr hnew)], fun _ => rfl⟩

theorem Flow.dropTx (hf : Flow done c offered) : Flow done c.dropTx offered := hf

theorem Flow.dropRx (hf : Flow done c offered) : Flow done c.dropRx offered := by
  obtain ⟨lost, rfl, -⟩ := hf
  exact ⟨c.queue++lost, by simp [Chan.dropRx], nofun⟩

/-- What is sent to a receiver that is gone is lost. -/
theorem Flow.lose (hf : Flow done c offered) (hr : c.rxAlive = false) (new : List α) :
    Flow done c (offered++new) := by
  obtain ⟨lost, rfl, -⟩ := hf
  refine ⟨lost++new, by simp, fun halive => ?_⟩
  rw [hr] at halive
  cases halive

theorem Flow.eq_of_rxAlive (hf : Flow done c offered) (h : c.rxAlive = true) :
    done ++ c.queue = offered := by
  obtain ⟨lost, rfl, hl⟩ := hf
  simp [hl h]

theorem Flow.done_prefix (hf : Flow done c offered) : done <+: offered := by
  obtain ⟨lost, rfl, -⟩ := hf
  exact ⟨c.queue++lost, by simp⟩

end Flow

/-- The queue holds at most `n` messages, all of them with `Q`. -/
structure Within (n : Nat) (Q : α → Prop) (c : Chan α) : Prop where
  cap : c.cap = n
  length : c.queue.length ≤ n
  all : ∀ x ∈ c.queue, Q x

namespace Within

variable {n : Nat} {Q : α → Prop} {c d : Chan α}

theorem new (n : Nat) (Q : α → Prop) : Within n Q (.new n) := ⟨rfl, Nat.zero_le _, by simp⟩

theorem trySend {x : α} (hc : Within n Q c) (hx : Q x) (h : c.trySend x = .ok d) :
    Within n Q d := by
  obtain ⟨-, hlen, rfl⟩ := trySend_ok h
  have hcap := hc.cap
  refine ⟨hcap, ?_, ?_⟩
  · rw [List.length_append, List.length_singleton]
    omega
  · intro y hy
    rcases List.mem_append.mp hy with hy | hy
    · exact hc.all y hy
    · rw [List.mem_singleton.mp hy]
      exact hx

/-- What is left after taking messages from the front. -/
theorem suffix (hc : Within n Q c) {rest : List α} (h : rest <:+ c.queue) :
    Within n Q { c with queue := rest } :=
  ⟨hc.cap, Nat.le_trans h.length_le hc.length, fun x hx => hc.all x (h.subset hx)⟩

theorem tryRecv {x : α} (hc : Within n Q c) (h : c.tryRecv = .ok (x, d)) : Within n Q d := by
  obtain ⟨hq, -, -, hcap⟩ := tryRecv_ok h
  have hrest : d.queue <:+ c.queue := by
    rw [hq]
    exact List.suffix_cons _ _
  exact ⟨hcap.trans hc.cap, (hc.suffix hrest).length, (hc.suffix hrest).all⟩

/-- Several messages are added, as many as there is room for. -/
theorem append (hc : Within n Q c) {new : List α} (hnew : ∀ x ∈ new, Q x)
    (hroom : new.length ≤ c.room) : Within n Q { c with queue := c.queue ++ new } := by
  have hcap := hc.cap
  have hlen := hc.length
  refine ⟨hcap, ?_, ?_⟩
  · unfold room at hroom
    rw [List.length_append]
    split_ifs at hroom <;> omega
  · intro x hx
    rcases List.mem_append.mp hx with hx | hx
    · exact hc.all x hx
    · exact hnew x hx

theorem dropTx (hc : Within n Q c) : Within n Q c.dropTx := ⟨hc.cap, hc.length, hc.all⟩

theorem dropRx (hc : Within n Q c) : Within n Q c.dropRx :=
  ⟨hc.cap, Nat.zero_le _, by simp [Chan.dropRx]⟩

end Within

end Chan

end TapTunnel.Framework
