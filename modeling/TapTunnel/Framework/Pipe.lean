import Mathlib

namespace TapTunnel.Framework

/-- Bounded byte pipe between a writer and a reader with a buffer of `readBuf` bytes, by two
positions in the stream: `pushed` bytes have been put in, `fetched` bytes taken out. -/
structure Pipe where
  cap : Nat
  readBuf : Nat
  pushed : Nat
  fetched : Nat
  deriving DecidableEq, Repr

namespace Pipe

def new (cap readBuf : Nat) : Pipe := ⟨cap, readBuf, 0, 0⟩

/-- Bytes in the pipe. -/
def size (p : Pipe) : Nat := p.pushed-p.fetched

/-- One write call, by a writer who has got `written` bytes to write altogether. -/
def push (written k : Nat) (p : Pipe) : Option Pipe :=
  if 0 < k ∧ p.pushed+k ≤ written ∧ p.size+k ≤ p.cap then some { p with pushed := p.pushed+k }
  else none

/-- One read call, by a reader who has used `taken` bytes and waits for `wants` more. It is made
when the buffer is empty, and goes past the buffer when that is the smaller one. -/
def fetch (taken wants k : Nat) (p : Pipe) : Option Pipe :=
  if p.fetched = taken ∧ 0 < k ∧ k ≤ p.size ∧ k ≤ max p.readBuf wants then
    some { p with fetched := p.fetched+k }
  else none

/-- The positions are in order. -/
structure Ordered (taken written : Nat) (p : Pipe) : Prop where
  cap : 0 < p.cap
  taken : taken ≤ p.fetched
  fetched : p.fetched ≤ p.pushed
  pushed : p.pushed ≤ written

namespace Ordered

variable {taken written : Nat} {p p' : Pipe}

theorem new {cap : Nat} (h : 0 < cap) (readBuf : Nat) : Ordered 0 0 (.new cap readBuf) :=
  ⟨h, Nat.le_refl _, Nat.le_refl _, Nat.le_refl _⟩

theorem write (h : Ordered taken written p) {n : Nat} (hn : written ≤ n) : Ordered taken n p :=
  ⟨h.cap, h.taken, h.fetched, Nat.le_trans h.pushed hn⟩

theorem read (h : Ordered taken written p) {k : Nat} (hk : taken+k ≤ p.fetched) :
    Ordered (taken+k) written p := ⟨h.cap, hk, h.fetched, h.pushed⟩

theorem push (h : Ordered taken written p) {k : Nat} (hp : p.push written k = some p') :
    Ordered taken written p' := by
  unfold Pipe.push at hp
  split_ifs at hp with hk
  obtain rfl := Option.some.inj hp
  exact ⟨h.cap, h.taken, Nat.le_add_right_of_le h.fetched, hk.2.1⟩

theorem fetch (h : Ordered taken written p) {wants k : Nat}
    (hp : p.fetch taken wants k = some p') : Ordered taken written p' := by
  unfold Pipe.fetch at hp
  split_ifs at hp with hk
  obtain rfl := Option.some.inj hp
  have hfetched := h.fetched
  have hsize := hk.2.2.1
  simp only [size] at hsize
  refine ⟨h.cap, Nat.le_add_right_of_le h.taken, ?_, h.pushed⟩
  change p.fetched+k ≤ p.pushed
  omega

/-- A writer is stopped by nothing but bytes in the pipe. -/
theorem push_enabled (h : Ordered taken written p) (hlt : p.pushed < written)
    (hsize : p.size = 0) : ∃ p', p.push written 1 = some p' := by
  have hcap := h.cap
  exact ⟨_, if_pos ⟨Nat.one_pos, hlt, by omega⟩⟩

/-- A reader who wants something and finds the pipe not empty has a byte in its buffer, or can
get one. -/
theorem fetch_enabled (h : Ordered taken written p) {wants : Nat} (hw : 0 < wants)
    (hsize : 0 < p.size) : taken < p.fetched ∨ ∃ p', p.fetch taken wants 1 = some p' := by
  rcases Nat.lt_or_eq_of_le h.taken with hlt | heq
  · exact .inl hlt
  · exact .inr ⟨_, if_pos ⟨heq.symm, Nat.one_pos, hsize, by omega⟩⟩

end Ordered

end Pipe

end TapTunnel.Framework
