import Mathlib

namespace TapTunnel.Framework

/-- What a call of `read` on a socket meets: bytes that have arrived, a time-out, with what the
caller can see then, or the end of the stream. -/
inductive Arrival (τ : Type)
  | bytes (b : UInt8) (bs : List UInt8)
  | quiet (tick : τ)
  | closed
  deriving DecidableEq, Repr

namespace Arrival

variable {τ ε : Type}

def content : Arrival τ → List UInt8
  | .bytes b bs => b::bs
  | .quiet _ | .closed => []

/-- The caller goes on after it. -/
def Harmless (onQuiet : τ → Option ε) : Arrival τ → Prop
  | .bytes _ _ => True
  | .quiet t => onQuiet t = none
  | .closed => False

end Arrival

variable {τ ε : Type}

/-- Read until `need` bytes have come, in whatever pieces they arrive; `onQuiet` tells which
time-outs end the read. It waits when nothing more arrives. -/
def readFull (eof waits : ε) (onQuiet : τ → Option ε) :
    Nat → List (Arrival τ) → Except ε (List UInt8 × List (Arrival τ))
  | 0, s => .ok ([], s)
  | _+1, [] => .error waits
  | _+1, .closed::_ => .error eof
  | need+1, .quiet t::s =>
    match onQuiet t with
    | some e => .error e
    | none => readFull eof waits onQuiet (need+1) s
  | need+1, .bytes b bs::s =>
    match bs.drop need with
    | [] => (readFull eof waits onQuiet (need-bs.length) s).map fun p => (b::bs ++ p.1, p.2)
    | c::cs => .ok (b::bs.take need, .bytes c cs::s)

/-- The stream brings `bs` and nothing that ends a read. -/
def Carries (onQuiet : τ → Option ε) (bs : List UInt8) (s : List (Arrival τ)) : Prop :=
  s.flatMap Arrival.content = bs ∧ ∀ a ∈ s, a.Harmless onQuiet

theorem Carries.mono {onQuiet : τ → Option ε} {onQuiet' : τ → Option ε} {bs : List UInt8}
    {s : List (Arrival τ)} (h : Carries onQuiet bs s)
    (hq : ∀ t, onQuiet t = none → onQuiet' t = none) : Carries onQuiet' bs s := by
  refine ⟨h.1, ?_⟩
  intro a ha
  have hh := h.2 a ha
  cases a with
  | bytes b bs => trivial
  | quiet t => exact hq t hh
  | closed => exact hh.elim

theorem carries_cons {onQuiet : τ → Option ε} {bs : List UInt8} {a : Arrival τ}
    {s : List (Arrival τ)} :
    Carries onQuiet bs (a::s) ↔
      a.Harmless onQuiet ∧ ∃ cs, bs = a.content ++ cs ∧ Carries onQuiet cs s := by
  simp only [Carries, List.flatMap_cons, List.forall_mem_cons]
  constructor
  · rintro ⟨rfl, ha, hs⟩
    exact ⟨ha, _, rfl, rfl, hs⟩
  · rintro ⟨ha, cs, rfl, rfl, hs⟩
    exact ⟨rfl, ha, hs⟩

/-- The bytes that the stream brings before it ends. -/
def incoming : List (Arrival τ) → List UInt8
  | [] | .closed::_ => []
  | .quiet _::s => incoming s
  | .bytes b bs::s => b::bs ++ incoming s

/-- The other side has closed the stream. -/
def ended : List (Arrival τ) → Bool
  | [] => false
  | .closed::_ => true
  | .quiet _::s | .bytes _ _::s => ended s

/-- No time-out of the stream ends a read. -/
def Patient (onQuiet : τ → Option ε) (s : List (Arrival τ)) : Prop :=
  ∀ t, .quiet t ∈ s → onQuiet t = none

theorem Patient.tail {onQuiet : τ → Option ε} {a : Arrival τ} {s : List (Arrival τ)}
    (h : Patient onQuiet (a::s)) : Patient onQuiet s :=
  fun t ht => h t (List.mem_cons_of_mem a ht)

theorem carries_iff {onQuiet : τ → Option ε} {bs : List UInt8} {s : List (Arrival τ)} :
    Carries onQuiet bs s ↔ incoming s = bs ∧ ended s = false ∧ Patient onQuiet s := by
  induction s generalizing bs with
  | nil => simp [Carries, incoming, ended, Patient]
  | cons a s ih =>
    rw [carries_cons]
    simp only [ih]
    cases a with
    | closed => simp [Arrival.Harmless, ended]
    | quiet t =>
      simp only [Arrival.Harmless, Arrival.content, List.nil_append, incoming, ended, Patient,
        List.mem_cons, Arrival.quiet.injEq]
      constructor
      · rintro ⟨ht, _, rfl, rfl, hend, hp⟩
        refine ⟨rfl, hend, ?_⟩
        rintro t' (rfl | ht')
        · exact ht
        · exact hp t' ht'
      · rintro ⟨rfl, hend, hp⟩
        exact ⟨hp t (.inl rfl), _, rfl, rfl, hend, fun t' ht' => hp t' (.inr ht')⟩
    | bytes b cs =>
      simp only [Arrival.Harmless, Arrival.content, incoming, ended, Patient, List.mem_cons,
        reduceCtorEq, false_or, true_and]
      constructor
      · rintro ⟨_, rfl, rfl, hend, hp⟩
        exact ⟨rfl, hend, hp⟩
      · rintro ⟨rfl, hend, hp⟩
        exact ⟨_, rfl, rfl, hend, hp⟩

/-- A read gets the next bytes of the stream, however they are cut, or meets its end. -/
theorem readFull_incoming (eof waits : ε) {onQuiet : τ → Option ε} {s : List (Arrival τ)}
    (h : Patient onQuiet s) (need : Nat) :
    (need ≤ (incoming s).length ∧ ∃ s', readFull eof waits onQuiet need s =
        .ok ((incoming s).take need, s') ∧ incoming s' = (incoming s).drop need ∧
      ended s' = ended s ∧ ∀ t, .quiet t ∈ s' → .quiet t ∈ s) ∨
    ((incoming s).length < need ∧
      readFull eof waits onQuiet need s = .error (if ended s then eof else waits)) := by
  induction s generalizing need with
  | nil =>
    cases need with
    | zero => exact .inl ⟨Nat.zero_le _, [], rfl, rfl, rfl, fun _ => id⟩
    | succ need => exact .inr ⟨Nat.succ_pos _, rfl⟩
  | cons a s ih =>
    cases need with
    | zero => exact .inl ⟨Nat.zero_le _, a::s, rfl, rfl, rfl, fun _ => id⟩
    | succ need =>
      cases a with
      | closed => exact .inr ⟨Nat.succ_pos _, rfl⟩
      | quiet t =>
        have ht : onQuiet t = none := h t List.mem_cons_self
        simp only [readFull, ht, incoming, ended]
        rcases ih h.tail (need+1) with ⟨hle, s', hr, hin, hend, hq⟩ | hshort
        · exact .inl ⟨hle, s', hr, hin, hend, fun t' ht' => List.mem_cons_of_mem _ (hq t' ht')⟩
        · exact .inr hshort
      | bytes b bs =>
        simp only [incoming, ended, List.cons_append, List.length_cons, List.length_append,
          List.take_succ_cons, List.drop_succ_cons]
        cases hd : bs.drop need with
        | nil =>
          -- the piece is used up, and the rest is read from the arrivals behind it
          have hle : bs.length ≤ need := List.drop_eq_nil_iff.mp hd
          simp only [readFull, hd]
          rcases ih h.tail (need-bs.length) with ⟨hrest, s', hr, hin, hend, hq⟩ | ⟨hshort, hr⟩
          · refine .inl ⟨by omega, s', ?_, ?_, hend, fun t ht => List.mem_cons_of_mem _ (hq t ht)⟩
            · simp only [hr, Except.map, List.take_append, List.take_of_length_le hle,
                List.cons_append]
            · rw [hin, List.drop_append, hd, List.nil_append]
          · refine .inr ⟨by omega, ?_⟩
            rw [hr]
            rfl
        | cons c cs =>
          have hlt : need < bs.length := by
            by_contra hge
            rw [List.drop_of_length_le (by omega)] at hd
            cases hd
          refine .inl ⟨by omega, .bytes c cs::s, ?_, ?_, rfl, ?_⟩
          · simp only [readFull, hd, List.take_append_of_le_length (Nat.le_of_lt hlt)]
          · simp only [incoming, List.drop_append_of_le_length (Nat.le_of_lt hlt), hd]
          · intro t ht
            simpa using ht

/-- On a stream without an end a read gets the bytes it asks for as long as there are enough. -/
theorem readFull_carries (eof waits : ε) {onQuiet : τ → Option ε} {s : List (Arrival τ)}
    {bs : List UInt8} {need : Nat} (h : Carries onQuiet bs s) (hneed : need ≤ bs.length) :
    ∃ s', readFull eof waits onQuiet need s = .ok (bs.take need, s') ∧
      Carries onQuiet (bs.drop need) s' := by
  obtain ⟨rfl, hend, hp⟩ := carries_iff.mp h
  rcases readFull_incoming eof waits hp need with ⟨-, s', hr, hin, hend', hq⟩ | ⟨hshort, -⟩
  · exact ⟨s', hr, carries_iff.mpr ⟨hin, hend'.trans hend, fun t ht => hp t (hq t ht)⟩⟩
  · omega

/-- Bytes that arrive one at a time. -/
def bytewise (bs : List UInt8) : List (Arrival τ) := bs.map fun b => .bytes b []

theorem carries_bytewise (onQuiet : τ → Option ε) (bs : List UInt8) :
    Carries onQuiet bs (bytewise bs) := by
  induction bs with
  | nil => exact ⟨rfl, nofun⟩
  | cons b bs ih => exact carries_cons.mpr ⟨trivial, bs, rfl, ih⟩

end TapTunnel.Framework
