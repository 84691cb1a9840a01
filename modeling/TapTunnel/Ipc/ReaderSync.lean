import TapTunnel.Ipc.Json
import TapTunnel.Ipc.RoundTrip

namespace TapTunnel.Ipc

open Framework

/-- What task 3 of `run_frame_relay` sets out to do because of a message. -/
inductive RelayAct
  | tapWrite (frame : Bytes)
  | handleProxyCommand (cmd : ProxyCommand)
  deriving DecidableEq, Repr

/-- A message that does not decode is logged and has no effect. -/
def relayAct (J : Serde ProxyCommand) (body : Bytes) : Option RelayAct :=
  match decodeMessage body with
  | .ok (.frame frame) => some (.tapWrite frame)
  | .ok (.control payload) =>
    match decodeControl J payload with
    | .ok cmd => some (.handleProxyCommand cmd)
    | .error _ => none
  | .error _ => none

/-- Frame branch of task 3. `write_all` makes no call for an empty frame. -/
def tapWrites (record : Bytes) : List Bytes :=
  match decodeMessage record with
  | .ok (.frame frame) => if frame = [] then [] else [frame]
  | .ok (.control _) | .error _ => []

/-- The messages that task 3 handles of those it reads, and whether it then goes on. `tap k` is the
result of the `k`-th write to the TAP device, `n` such writes have gone before; one that fails ends
the task. -/
def relayServe (tap : Nat → Bool) : Nat → List Bytes → List Bytes × Bool
  | _, [] => ([], true)
  | n, m::ms =>
    if tapWrites m ≠ [] ∧ tap n = false then ([m], false)
    else
      let rest := relayServe tap (n+(tapWrites m).length) ms
      (m::rest.1, rest.2)

/-- Size of the buffer of task 3, and so the longest message it takes. -/
def relayLimit (mtu : UInt16) : Nat := maxFrameSize mtu+16

/-- The reads of task 3 on `stream`, in whatever pieces it arrives. -/
def relayReads (mtu : UInt16) (stream : Bytes) : FrameReader × List Bytes :=
  (FrameReader.new (List.replicate (relayLimit mtu) 0)).feed relayFit stream

def relayActs (J : Serde ProxyCommand) (mtu : UInt16) (tap : Nat → Bool) (stream : Bytes) :
    List RelayAct :=
  (relayServe tap 0 (relayReads mtu stream).2).1.filterMap (relayAct J)

def relayRuns (mtu : UInt16) (tap : Nat → Bool) (stream : Bytes) : Bool :=
  (relayServe tap 0 (relayReads mtu stream).2).2

/-- Task 3 is in step with the stream of the messages `ms`: it acts on those that are well
formed and within its limit, each once and in order, and it takes no byte for the start of a
length prefix that is not the start of a message. -/
structure ReaderInSync (J : Serde ProxyCommand) (mtu : UInt16) (tap : Nat → Bool)
    (ms : List Bytes) : Prop where
  acts : relayActs J mtu tap (ms.flatMap delimit) =
    (ms.filter (fun m => decide (m.length ≤ relayLimit mtu))).filterMap (relayAct J)
  headers : ∀ p < (ms.flatMap delimit).length,
    relayRuns mtu tap ((ms.flatMap delimit).take p) = true →
    (relayReads mtu ((ms.flatMap delimit).take p)).1.Idle → FrameReader.AtBoundary ms p

section Serve

variable {tap : Nat → Bool}

variable (tap) in
theorem relayServe_first (n : Nat) (ms : List Bytes) : (relayServe tap n ms).1 <+: ms := by
  induction ms generalizing n with
  | nil => exact List.prefix_rfl
  | cons m ms ih =>
    unfold relayServe
    split_ifs
    · exact ⟨ms, rfl⟩
    · exact List.cons_prefix_cons.mpr ⟨rfl, ih _⟩

theorem relayServe_all {n : Nat} {ms : List Bytes} (h : (relayServe tap n ms).2 = true) :
    (relayServe tap n ms).1 = ms := by
  induction ms generalizing n with
  | nil => rfl
  | cons m ms ih =>
    unfold relayServe at h ⊢
    split_ifs at h ⊢
    exact congrArg (m::·) (ih h)

theorem relayServe_append {n : Nat} {ms : List Bytes} (h : (relayServe tap n ms).2 = false)
    (more : List Bytes) : relayServe tap n (ms ++ more) = relayServe tap n ms := by
  induction ms generalizing n with
  | nil => cases h
  | cons m ms ih =>
    rw [List.cons_append]
    unfold relayServe at h ⊢
    split_ifs at h ⊢
    · rfl
    · simp only [ih h]

theorem relayServe_goes {n : Nat} {ms pre post : List Bytes} {m : Bytes}
    (h : (relayServe tap n ms).1 = pre ++ m::post) : (relayServe tap n pre).2 = true := by
  by_contra hstop
  obtain ⟨rest, hrest⟩ := relayServe_first tap n ms
  have hsame := relayServe_append (Bool.eq_false_iff.mpr hstop) (m::post ++ rest)
  rw [← List.append_assoc, ← h, hrest] at hsame
  have hlen := (relayServe_first tap n pre).length_le
  rw [← hsame, h, List.length_append, List.length_cons] at hlen
  omega

theorem relayServe_served (n : Nat) (ms : List Bytes) :
    relayServe tap n (relayServe tap n ms).1 = relayServe tap n ms := by
  induction ms generalizing n with
  | nil => rfl
  | cons m ms ih =>
    by_cases hstop : tapWrites m ≠ [] ∧ tap n = false
    · simp [relayServe, hstop]
    · simp only [relayServe, if_neg hstop, ih]

/-- Empty messages, for which there is no read of a body, make no difference. -/
theorem relayServe_filter (n : Nat) (ms : List Bytes) :
    relayServe tap n (ms.filter (fun m => !m.isEmpty)) =
      ((relayServe tap n ms).1.filter (fun m => !m.isEmpty), (relayServe tap n ms).2) := by
  induction ms generalizing n with
  | nil => rfl
  | cons m ms ih =>
    cases m with
    | nil => simpa [relayServe, show tapWrites [] = [] from rfl] using ih n
    | cons b bs =>
      by_cases hstop : tapWrites (b::bs) ≠ [] ∧ tap n = false
      · simp [relayServe, hstop]
      · simp [relayServe, hstop, ih]

end Serve

section Relay

variable {mtu : UInt16}

theorem relayFit_zero (buf : Bytes) : relayFit 0 buf = none := rfl

theorem relayFit_admit {m buf : Bytes} (h0 : m ≠ []) (hm : m.length ≤ relayLimit mtu)
    (hb : buf.length = relayLimit mtu) :
    ∃ buf', relayFit m.length buf = some buf' ∧ buf'.length = relayLimit mtu := by
  have hpos := List.length_pos_of_ne_nil h0
  refine ⟨buf, ?_, hb⟩
  unfold relayFit
  rw [if_neg (by omega)]

/-- Messages within the limit, empty ones included, leave task 3 in step. -/
theorem relayReads_within {ms : List Bytes}
    (hms : ∀ m ∈ ms, m.length < 2^32 ∧ m.length ≤ relayLimit mtu) :
    (relayReads mtu (ms.flatMap delimit)).2 = ms.filter (fun m => !m.isEmpty) ∧
    (relayReads mtu (ms.flatMap delimit)).1.Idle ∧
    (relayReads mtu (ms.flatMap delimit)).1.msgBuf.length = relayLimit mtu ∧
    ∀ q ≤ (ms.flatMap delimit).length,
      (relayReads mtu ((ms.flatMap delimit).take q)).1.Idle → FrameReader.AtBoundary ms q := by
  apply FrameReader.feed_stream relayFit_fits relayFit_zero (fun n => n = relayLimit mtu) ms
  · intro m hm
    obtain ⟨hlen, hle⟩ := hms m hm
    exact ⟨hlen, fun h0 buf hb => relayFit_admit h0 hle hb⟩
  · exact FrameReader.new_sound _
  · exact FrameReader.new_idle _
  · exact List.length_replicate

end Relay

theorem relayAct_nil (J : Serde ProxyCommand) : relayAct J [] = none := rfl

theorem filterMap_relayAct (J : Serde ProxyCommand) (ms : List Bytes) :
    (ms.filter (fun m => !m.isEmpty)).filterMap (relayAct J) = ms.filterMap (relayAct J) := by
  induction ms with
  | nil => rfl
  | cons m ms ih =>
    cases m with
    | nil => simpa [List.filterMap_cons, relayAct_nil] using ih
    | cons b bs => simp [List.filterMap_cons, ih]

/-- Behind the length of a message over the limit task 3 expects the next length. -/
theorem relayReads_long {mtu : UInt16} {pre : List Bytes} {m : Bytes}
    (hpre : ∀ m ∈ pre, m.length < 2^32 ∧ m.length ≤ relayLimit mtu) (hm : m.length < 2^32)
    (hlong : relayLimit mtu < m.length) :
    (relayReads mtu (pre.flatMap delimit ++ beBytes m.length)).1.Idle ∧
      (relayReads mtu (pre.flatMap delimit ++ beBytes m.length)).2 =
        pre.filter (fun m => !m.isEmpty) := by
  obtain ⟨hrec, hidle, hbuf, -⟩ := relayReads_within hpre
  have hnone : relayFit m.length (relayReads mtu (pre.flatMap delimit)).1.msgBuf = none := by
    unfold relayFit
    rw [if_pos (.inr (by omega))]
  have hsound : (relayReads mtu (pre.flatMap delimit)).1.Sound :=
    FrameReader.feed_sound relayFit_fits _ (FrameReader.new_sound _)
  obtain ⟨hnothing, hafter, -⟩ := FrameReader.feed_refused relayFit_fits hsound hidle hm hnone
  rw [relayReads, FrameReader.feed_append]
  refine ⟨hafter, ?_⟩
  rw [← hrec]
  exact (congrArg _ hnothing).trans (List.append_nil _)

theorem exists_first {α : Type} {P : α → Prop} {l : List α} (h : ¬∀ x ∈ l, P x) :
    ∃ pre x post, l = pre++x::post ∧ (∀ y ∈ pre, P y) ∧ ¬P x := by
  induction l with
  | nil => exact absurd (by simp) h
  | cons a l ih =>
    by_cases ha : P a
    · obtain ⟨pre, x, post, rfl, hpre, hx⟩ := ih (fun hl => h (by simpa [ha] using hl))
      exact ⟨a::pre, x, post, rfl, by simpa [ha] using hpre, hx⟩
    · exact ⟨[], a, l, rfl, by simp, ha⟩

section Sync

variable {J : Serde ProxyCommand} {mtu : UInt16} {tap : Nat → Bool} {ms : List Bytes}

/-- The messages up to the one whose write to the TAP device fails. -/
def served (tap : Nat → Bool) (ms : List Bytes) : List Bytes := (relayServe tap 0 ms).1

theorem served_append (tap : Nat → Bool) (ms : List Bytes) :
    ms = served tap ms ++ ms.drop (served tap ms).length :=
  (List.prefix_iff_eq_append.mp (relayServe_first tap 0 ms)).symm

/-- As far as all messages are within the limit, task 3 reads them and handles them. -/
theorem relayServe_relayReads (hms : ∀ m ∈ ms, m.length < 2^32)
    (hle : ∀ m ∈ served tap ms, m.length ≤ relayLimit mtu) :
    relayServe tap 0 (relayReads mtu (ms.flatMap delimit)).2 =
      ((served tap ms).filter (fun m => !m.isEmpty), (relayServe tap 0 ms).2) := by
  have hsplit := served_append tap ms
  have hin : ∀ m ∈ served tap ms, m.length < 2^32 ∧ m.length ≤ relayLimit mtu := by
    intro m hm
    exact ⟨hms m ((relayServe_first tap 0 ms).subset hm), hle m hm⟩
  obtain ⟨hrec, -⟩ := relayReads_within hin
  have hserved : relayServe tap 0 ((served tap ms).filter (fun m => !m.isEmpty)) =
      ((served tap ms).filter (fun m => !m.isEmpty), (relayServe tap 0 ms).2) := by
    rw [relayServe_filter, served, relayServe_served]
  cases hruns : (relayServe tap 0 ms).2 with
  | true =>
    have hall : served tap ms = ms := relayServe_all hruns
    rw [hall] at hrec hserved
    rw [hrec, hserved, hall, hruns]
  | false =>
    rw [hruns] at hserved
    conv_lhs => rw [hsplit, List.flatMap_append]
    rw [relayReads, FrameReader.feed_append]
    change relayServe tap 0 ((relayReads mtu ((served tap ms).flatMap delimit)).2 ++ _) = _
    rw [hrec, relayServe_append (by rw [hserved]), hserved]

theorem relayActs_served (hms : ∀ m ∈ ms, m.length < 2^32)
    (hle : ∀ m ∈ served tap ms, m.length ≤ relayLimit mtu) :
    relayActs J mtu tap (ms.flatMap delimit) = (served tap ms).filterMap (relayAct J) := by
  rw [relayActs, relayServe_relayReads hms hle]
  exact filterMap_relayAct J _

theorem expected_eq (hle : ∀ m ∈ served tap ms, m.length ≤ relayLimit mtu) :
    (ms.filter (fun m => decide (m.length ≤ relayLimit mtu))).filterMap (relayAct J) =
      (served tap ms).filterMap (relayAct J) ++
        ((ms.drop (served tap ms).length).filter
          (fun m => decide (m.length ≤ relayLimit mtu))).filterMap (relayAct J) := by
  have hfilter : (served tap ms).filter (fun m => decide (m.length ≤ relayLimit mtu)) =
      served tap ms := List.filter_eq_self.mpr fun m hm => decide_eq_true (hle m hm)
  conv_lhs => rw [served_append tap ms, List.filter_append, List.filterMap_append, hfilter]

/-- A task that looks for length prefixes only where messages start refuses none that it gets to. -/
theorem served_within (hms : ∀ m ∈ ms, m.length < 2^32) (h : ReaderInSync J mtu tap ms) :
    ∀ m ∈ served tap ms, m.length ≤ relayLimit mtu := by
  by_contra hlong
  obtain ⟨pre, m, post, hserved, hpre, hm⟩ := exists_first hlong
  obtain ⟨rest, hsplit⟩ : ∃ rest, ms = pre ++ m::rest := by
    obtain ⟨more, hmore⟩ : served tap ms <+: ms := relayServe_first tap 0 ms
    rw [hserved, List.append_assoc, List.cons_append] at hmore
    exact ⟨post ++ more, hmore.symm⟩
  have hmem : ∀ x ∈ pre ++ [m], x.length < 2^32 := by
    intro x hx
    refine hms x ?_
    rw [hsplit]
    rcases List.mem_append.mp hx with hx | hx
    · exact List.mem_append_left _ hx
    · simp [List.mem_singleton.mp hx]
  have hpos : 0 < m.length := by omega
  obtain ⟨hidle, hrec⟩ := relayReads_long
    (fun x hx => ⟨hmem x (List.mem_append_left _ hx), hpre x hx⟩)
    (hmem m (by simp)) (Nat.not_le.mp hm)
  have htake : (ms.flatMap delimit).take ((pre.flatMap delimit).length+4) =
      pre.flatMap delimit ++ beBytes m.length := by
    rw [hsplit, List.flatMap_append, List.flatMap_cons, delimit, List.take_length_add_append,
      List.append_assoc, ← beBytes_length m.length, List.take_left]
  have hruns : relayRuns mtu tap (pre.flatMap delimit ++ beBytes m.length) = true := by
    rw [relayRuns, hrec, relayServe_filter]
    exact relayServe_goes hserved
  have hlen : (pre.flatMap delimit).length+4 < (ms.flatMap delimit).length := by
    rw [hsplit]
    simp only [List.flatMap_append, List.flatMap_cons, List.length_append, delimit_length]
    omega
  have hbound := h.headers _ hlen (htake ▸ hruns) (htake ▸ hidle)
  rw [hsplit] at hbound
  exact FrameReader.not_atBoundary (List.ne_nil_of_length_pos hpos) hbound

theorem headers_of_within (hms : ∀ m ∈ ms, m.length < 2^32)
    (hle : ∀ m ∈ served tap ms, m.length ≤ relayLimit mtu) {p : Nat}
    (hp : p < (ms.flatMap delimit).length)
    (hruns : relayRuns mtu tap ((ms.flatMap delimit).take p) = true)
    (hidle : (relayReads mtu ((ms.flatMap delimit).take p)).1.Idle) :
    FrameReader.AtBoundary ms p := by
  have hfirst : served tap ms <+: ms := relayServe_first tap 0 ms
  have hin : ∀ m ∈ served tap ms, m.length < 2^32 ∧ m.length ≤ relayLimit mtu := by
    intro m hm
    exact ⟨hms m (hfirst.subset hm), hle m hm⟩
  obtain ⟨hrec, -, -, hbound⟩ := relayReads_within hin
  have hstream : (served tap ms).flatMap delimit <+: ms.flatMap delimit := hfirst.flatMap delimit
  by_cases hq : p ≤ ((served tap ms).flatMap delimit).length
  · have htake : (ms.flatMap delimit).take p = ((served tap ms).flatMap delimit).take p := by
      obtain ⟨rest, hrest⟩ := hstream
      rw [← hrest, List.take_append_of_le_length hq]
    obtain ⟨pre, hpre, hlen⟩ := hbound p hq (htake ▸ hidle)
    exact ⟨pre, hpre.trans hfirst, hlen⟩
  -- Further on the task has met the write that ends it, or there is nothing further on.
  · exfalso
    have hstop : (relayServe tap 0 ms).2 = false := by
      by_contra hgoes
      have hall : served tap ms = ms := relayServe_all (by simpa using hgoes)
      rw [hall] at hq
      omega
    have hpast : (served tap ms).flatMap delimit <+: (ms.flatMap delimit).take p :=
      List.prefix_take_iff.mpr ⟨hstream, by omega⟩
    obtain ⟨more, hmore⟩ := FrameReader.feed_prefix relayFit hpast
      (.new (List.replicate (relayLimit mtu) 0))
    have hserve : (relayServe tap 0 ((served tap ms).filter (fun m => !m.isEmpty))).2 = false := by
      rw [relayServe_filter, served, relayServe_served]
      exact hstop
    have hread : (relayReads mtu ((ms.flatMap delimit).take p)).2 =
        (served tap ms).filter (fun m => !m.isEmpty) ++ more := by
      rw [← hrec]
      exact hmore.symm
    rw [relayRuns, hread, relayServe_append hserve, hserve] at hruns
    cases hruns

end Sync

/-- Task 3 stays in step with a stream of messages exactly if none is over its limit, up to a write
that the TAP device refuses, and behind that write there is nothing to act on: the length of a
message over the limit gets refused, and its body is read as if it were messages. -/
theorem reader_in_sync_iff (J : Serde ProxyCommand) (mtu : UInt16) (tap : Nat → Bool)
    (ms : List Bytes) (hms : ∀ m ∈ ms, m.length < 2^32) :
    ReaderInSync J mtu tap ms ↔
      (∀ m ∈ served tap ms, m.length ≤ relayLimit mtu) ∧
      ∀ m ∈ ms.drop (served tap ms).length, m.length ≤ relayLimit mtu → relayAct J m = none := by
  constructor
  · intro hsync
    have hle := served_within hms hsync
    refine ⟨hle, fun m hm hin => ?_⟩
    have hacts := hsync.acts
    rw [relayActs_served hms hle, expected_eq hle, List.self_eq_append_right,
      List.filterMap_eq_nil_iff] at hacts
    exact hacts m (List.mem_filter.mpr ⟨hm, decide_eq_true hin⟩)
  · rintro ⟨hle, hrest⟩
    refine ⟨?_, fun p hp hruns hidle => headers_of_within hms hle hp hruns hidle⟩
    rw [relayActs_served hms hle, expected_eq hle, List.self_eq_append_right,
      List.filterMap_eq_nil_iff]
    intro m hm
    obtain ⟨hm, hin⟩ := List.mem_filter.mp hm
    exact hrest m hm (of_decide_eq_true hin)

/-- An empty message, one of an unknown type and one that is not JSON stand before two frames, and a
message over the limit behind them. -/
def mixedMessages : List Bytes :=
  [[], [7, 7], [0, 0x7b], [1, 0xaa], [1, 0xbb], List.replicate 99 0]

/-- The TAP device refuses the second frame. -/
theorem reader_in_sync_iff_rejected :
    ReaderInSync compactJson.command 68 (· = 0) mixedMessages ∧
      relayActs compactJson.command 68 (· = 0) (mixedMessages.flatMap delimit) =
        [.tapWrite [0xaa], .tapWrite [0xbb]] := by
  have hsync := (reader_in_sync_iff compactJson.command 68 (· = 0) mixedMessages
    (by simp [mixedMessages])).mpr (by decide +kernel)
  refine ⟨hsync, ?_⟩
  rw [hsync.acts]
  decide +kernel

/-- A message one byte over the limit for an MTU of 68. Its first bytes are the length and the
body of another message. -/
def longMessage : Bytes := [0, 0, 0, 2, 1, 0xaa] ++ List.replicate 93 0

/-- The body of a message that is refused for its length is written to the TAP device. -/
theorem reader_desynchronised :
    (∀ m ∈ [longMessage], m.length < 2^32) ∧
    relayActs compactJson.command 68 (fun _ => true) ([longMessage].flatMap delimit) =
      [.tapWrite [0xaa]] ∧
    ¬ReaderInSync compactJson.command 68 (fun _ => true) [longMessage] := by
  have hacts : relayActs compactJson.command 68 (fun _ => true) ([longMessage].flatMap delimit) =
      [.tapWrite [0xaa]] := by decide +kernel
  refine ⟨by simp [longMessage], hacts, fun hsync => ?_⟩
  have hexpected := hsync.acts
  rw [hacts] at hexpected
  revert hexpected
  decide +kernel

end TapTunnel.Ipc
