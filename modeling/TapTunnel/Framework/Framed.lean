import TapTunnel.Framework.Bytes

namespace TapTunnel.Framework

inductive FramePhase
  | header
  | body (len : Nat)
  deriving DecidableEq, Repr

/-- Reader of length-delimited records. `lenBuf` and `msgBuf` are reused from record to record,
so they hold stale bytes beyond the first `filled` ones of the read in progress. -/
structure FrameReader where
  phase : FramePhase
  filled : Nat
  lenBuf : List UInt8
  msgBuf : List UInt8
  deriving DecidableEq, Repr

namespace FrameReader

def new (msgBuf : List UInt8) : FrameReader := ⟨.header, 0, List.replicate 4 0, msgBuf⟩

/-- Bytes the read in progress still waits for. -/
def wants (r : FrameReader) : Nat :=
  match r.phase with
  | .header => 4-r.filled
  | .body n => n-r.filled

def Idle (r : FrameReader) : Prop := r.phase = .header ∧ r.filled = 0

variable (fit : Nat → List UInt8 → Option (List UInt8))

/-- The length prefix is complete. `fit` gives the buffer for a body of that length, or refuses
it; a refused length is dropped and the next record is expected right behind it. -/
def accept (n : Nat) (r : FrameReader) : FrameReader × Option (List UInt8) :=
  match fit n r.msgBuf with
  | none => ({ r with phase := .header, filled := 0 }, none)
  | some buf =>
    if n = 0 then ({ r with phase := .header, filled := 0, msgBuf := buf }, some [])
    else ({ r with phase := .body n, filled := 0, msgBuf := buf }, none)

/-- The read in progress gets `chunk`; a record that it completes is given out. -/
def read (chunk : List UInt8) (r : FrameReader) : FrameReader × Option (List UInt8) :=
  match r.phase with
  | .header =>
    let r := { r with
      lenBuf := overwrite r.lenBuf r.filled chunk, filled := r.filled+chunk.length }
    if r.filled < 4 then (r, none) else r.accept fit (ofBeBytes r.lenBuf)
  | .body n =>
    let r := { r with
      msgBuf := overwrite r.msgBuf r.filled chunk, filled := r.filled+chunk.length }
    if r.filled < n then (r, none)
    else ({ r with phase := .header, filled := 0 }, some (r.msgBuf.take n))

/-- A whole stream, one byte at a time, with the records it completes. -/
def feed : List UInt8 → FrameReader → FrameReader × List (List UInt8)
  | [], r => (r, [])
  | b::bs, r => ((feed bs (r.read fit [b]).1).1,
      (r.read fit [b]).2.toList ++ (feed bs (r.read fit [b]).1).2)

/-- Buffers are large enough for the read in progress, which is not complete. -/
structure Sound (r : FrameReader) : Prop where
  lenBuf : r.lenBuf.length = 4
  filled : 0 < r.wants
  body : ∀ n, r.phase = .body n → n ≤ r.msgBuf.length

theorem new_sound (msgBuf : List UInt8) : (new msgBuf).Sound :=
  ⟨rfl, by simp [wants, new], nofun⟩

theorem new_idle (msgBuf : List UInt8) : (new msgBuf).Idle := ⟨rfl, rfl⟩

theorem body_sound {n : Nat} {lenBuf msgBuf : List UInt8} (hn : n ≠ 0) (hl : lenBuf.length = 4)
    (hb : n ≤ msgBuf.length) : (⟨.body n, 0, lenBuf, msgBuf⟩ : FrameReader).Sound := by
  refine ⟨hl, by simp [wants]; omega, ?_⟩
  rintro n' ⟨⟩
  exact hb

variable {fit}

def Fits (fit : Nat → List UInt8 → Option (List UInt8)) : Prop :=
  ∀ n buf buf', fit n buf = some buf' → n ≤ buf'.length

theorem accept_sound (hfit : Fits fit) {r : FrameReader} (n : Nat) (hl : r.lenBuf.length = 4) :
    (r.accept fit n).1.Sound := by
  unfold accept
  split
  · exact ⟨hl, by simp [wants], by simp⟩
  · next buf hb =>
    split_ifs with hn
    · exact ⟨hl, by simp [wants], by simp⟩
    · exact body_sound hn hl (hfit n _ buf hb)

theorem read_sound (hfit : Fits fit) {r : FrameReader} (hr : r.Sound) {chunk : List UInt8}
    (hc : chunk.length ≤ r.wants) : (r.read fit chunk).1.Sound := by
  obtain ⟨hl, hf, hb⟩ := hr
  cases hp : r.phase with
  | header =>
    simp only [wants, hp] at hc hf
    have hlen : (overwrite r.lenBuf r.filled chunk).length = 4 := by
      rw [overwrite_length (by omega), hl]
    simp only [read, hp]
    split_ifs with h4
    · exact ⟨hlen, by simp only [wants]; omega, by simp⟩
    · exact accept_sound hfit _ hlen
  | body n =>
    simp only [wants, hp] at hc hf
    simp only [read, hp]
    split_ifs with hn
    · refine ⟨hl, by simp only [wants]; omega, ?_⟩
      rintro n' hn'
      obtain rfl : n = n' := by simpa [hp] using hn'
      rw [overwrite_length (by have := hb n hp; omega)]
      exact hb n hp
    · exact ⟨hl, by simp [wants], by simp⟩

/-- A chunk that does not complete the read is only stored. -/
theorem read_short (fit : Nat → List UInt8 → Option (List UInt8)) {r : FrameReader}
    {a : List UInt8} (ha : a.length < r.wants) :
    (r.read fit a).2 = none ∧ (r.read fit a).1.phase = r.phase ∧
      (r.read fit a).1.wants = r.wants-a.length := by
  cases hp : r.phase with
  | header =>
    simp only [wants, hp] at ha
    have h4 : r.filled+a.length < 4 := by omega
    simp only [read, wants, hp, h4, if_true, true_and]
    omega
  | body n =>
    simp only [wants, hp] at ha
    have hn : r.filled+a.length < n := by omega
    simp only [read, wants, hp, hn, if_true, true_and]
    omega

theorem read_append (fit : Nat → List UInt8 → Option (List UInt8)) {r : FrameReader}
    (hr : r.Sound) {a : List UInt8} (b : List UInt8)
    (ha : a.length < r.wants) : r.read fit (a++b) = (r.read fit a).1.read fit b := by
  obtain ⟨hl, hf, hb⟩ := hr
  cases hp : r.phase with
  | header =>
    simp only [wants, hp] at ha hf
    have h4 : r.filled+a.length < 4 := by omega
    simp only [read, hp, h4, if_true, overwrite_append (show r.filled ≤ r.lenBuf.length by omega),
      List.length_append, Nat.add_assoc]
  | body n =>
    simp only [wants, hp] at ha hf
    have hn : r.filled+a.length < n := by omega
    have hm := hb n hp
    simp only [read, hp, hn, if_true, overwrite_append (show r.filled ≤ r.msgBuf.length by omega),
      List.length_append, Nat.add_assoc]

theorem feed_append (as bs : List UInt8) (r : FrameReader) :
    r.feed fit (as++bs) = (((r.feed fit as).1.feed fit bs).1,
      (r.feed fit as).2 ++ ((r.feed fit as).1.feed fit bs).2) := by
  induction as generalizing r with
  | nil => simp [feed]
  | cons a as ih => simp [feed, ih]

/-- A read of any size within what is asked for is the bytes of it one by one. -/
theorem read_eq_feed (hfit : Fits fit) {r : FrameReader} (hr : r.Sound) (chunk : List UInt8)
    (h0 : chunk ≠ []) (hc : chunk.length ≤ r.wants) :
    r.feed fit chunk = ((r.read fit chunk).1, (r.read fit chunk).2.toList) := by
  induction chunk generalizing r with
  | nil => exact absurd rfl h0
  | cons b bs ih =>
    cases bs with
    | nil => simp [feed]
    | cons c cs =>
      have hb : [b].length < r.wants := by
        simp only [List.length_cons, List.length_nil] at hc ⊢
        omega
      obtain ⟨hnone, -, hw⟩ := read_short fit hb
      have hs : (r.read fit [b]).1.Sound := read_sound hfit hr (Nat.le_of_lt hb)
      have hle : (c::cs).length ≤ (r.read fit [b]).1.wants := by
        rw [hw]
        simp only [List.length_cons, List.length_nil] at hc ⊢
        omega
      have happ := read_append fit hr (c::cs) hb
      rw [feed, ih hs (List.cons_ne_nil _ _) hle, hnone, Option.toList_none, List.nil_append]
      rw [List.singleton_append] at happ
      rw [happ]

theorem feed_sound (hfit : Fits fit) (bs : List UInt8) {r : FrameReader} (hr : r.Sound) :
    (r.feed fit bs).1.Sound := by
  induction bs generalizing r with
  | nil => exact hr
  | cons b bs ih => exact ih (read_sound hfit hr hr.filled)

/-- The records seen so far are the first ones of whatever the stream becomes. -/
theorem feed_prefix (fit : Nat → List UInt8 → Option (List UInt8)) {as bs : List UInt8}
    (h : as <+: bs) (r : FrameReader) : (r.feed fit as).2 <+: (r.feed fit bs).2 := by
  obtain ⟨cs, rfl⟩ := h
  rw [feed_append]
  exact List.prefix_append _ _

/-- A length prefix is handed to `accept` whole. -/
theorem feed_header (hfit : Fits fit) {r : FrameReader} (hr : r.Sound) (hi : r.Idle) {n : Nat}
    (hn : n < 2^32) : r.feed fit (beBytes n) =
      (((⟨r.phase, 4, beBytes n, r.msgBuf⟩ : FrameReader).accept fit n).1,
        ((⟨r.phase, 4, beBytes n, r.msgBuf⟩ : FrameReader).accept fit n).2.toList) := by
  obtain ⟨hp, hz⟩ := hi
  have hlen : overwrite r.lenBuf 0 (beBytes n) = beBytes n := by
    simp [overwrite, hr.lenBuf]
  have hw : r.wants = 4 := by simp [wants, hp, hz]
  rw [read_eq_feed hfit hr (beBytes n) (by simp [beBytes]) (by simp [hw])]
  simp [read, hp, hz, hlen, ofBeBytes_beBytes _ hn]

/-- One record whose length is admitted is given out whole, and leaves the reader idle. -/
theorem feed_delimit (hfit : Fits fit) {r : FrameReader} (hr : r.Sound) (hi : r.Idle)
    {m buf : List UInt8} (hm : m.length < 2^32) (hb : fit m.length r.msgBuf = some buf) :
    (r.feed fit (delimit m)).2 = [m] ∧ (r.feed fit (delimit m)).1.Idle ∧
      (r.feed fit (delimit m)).1.msgBuf.length = buf.length := by
  rw [delimit, feed_append, feed_header hfit hr hi hm]
  simp only [accept, hb]
  split_ifs with h0
  · obtain rfl : m = [] := List.length_eq_zero_iff.mp h0
    simp [feed, Idle]
  · have hs := body_sound h0 (beBytes_length m.length) (hfit _ _ _ hb)
    have hbody := read_eq_feed hfit hs m (by rintro rfl; exact h0 rfl) (by simp [wants])
    have htake := overwrite_take (Nat.zero_le buf.length) m
    have hkeep : (overwrite buf 0 m).length = buf.length :=
      overwrite_length (by simpa using hfit _ _ _ hb)
    rw [hbody]
    simpa [read, Idle, hkeep] using htake

/-- A length that is refused leaves the reader idle right behind it, whatever follows. -/
theorem feed_refused (hfit : Fits fit) {r : FrameReader} (hr : r.Sound) (hi : r.Idle) {n : Nat}
    (hn : n < 2^32) (hb : fit n r.msgBuf = none) :
    (r.feed fit (beBytes n)).2 = [] ∧ (r.feed fit (beBytes n)).1.Idle ∧
      (r.feed fit (beBytes n)).1.msgBuf = r.msgBuf := by
  rw [feed_header hfit hr hi hn]
  simp [accept, hb, Idle]

/-- Bytes that do not complete the read in progress leave the reader in it. -/
theorem feed_short (hfit : Fits fit) {r : FrameReader} (hr : r.Sound) {a : List UInt8}
    (ha : a.length < r.wants) :
    (r.feed fit a).1.phase = r.phase ∧ (r.feed fit a).1.wants = r.wants-a.length := by
  by_cases h0 : a = []
  · subst h0
    exact ⟨rfl, rfl⟩
  · have hread := read_short fit ha
    rw [read_eq_feed hfit hr a h0 (Nat.le_of_lt ha)]
    exact ⟨hread.2.1, hread.2.2⟩

/-- Between the ends of an admitted record the reader is not idle. -/
theorem feed_delimit_busy (hfit : Fits fit) {r : FrameReader} (hr : r.Sound) (hi : r.Idle)
    {m buf : List UInt8} (hm : m.length < 2^32)
    (hb : m = [] ∨ fit m.length r.msgBuf = some buf) {q : Nat} (h0 : 0 < q)
    (hq : q < (delimit m).length) : ¬(r.feed fit ((delimit m).take q)).1.Idle := by
  have hw : r.wants = 4 := by simp [wants, hi.1, hi.2]
  intro hidle
  by_cases h4 : q < 4
  · have hlen : ((delimit m).take q).length = q := by simp; omega
    have hshort := (feed_short hfit hr (a := (delimit m).take q) (by omega)).2
    have hwants : (r.feed fit ((delimit m).take q)).1.wants = 4 := by
      simp [wants, hidle.1, hidle.2]
    omega
  · have hne : m.length ≠ 0 := by
      simp only [delimit_length] at hq
      omega
    have hfit' : fit m.length r.msgBuf = some buf :=
      hb.resolve_left (fun he => hne (by rw [he, List.length_nil]))
    have htake : (delimit m).take q = beBytes m.length ++ m.take (q-4) := by
      rw [delimit, List.take_append, beBytes_length,
        List.take_of_length_le (by rw [beBytes_length]; omega)]
    rw [htake, feed_append, feed_header hfit hr hi hm] at hidle
    simp only [accept, hfit', if_neg hne] at hidle
    have hs := body_sound hne (beBytes_length m.length) (hfit _ _ _ hfit')
    have hlen : (m.take (q-4)).length < m.length := by
      simp only [delimit_length] at hq
      simp only [List.length_take]
      omega
    have hphase := (feed_short hfit hs (a := m.take (q-4)) (by simpa [wants] using hlen)).1
    rw [hidle.1] at hphase
    cases hphase

/-- Records admitted whatever size the buffer has grown to come out unchanged and in order. -/
theorem feed_records (hfit : Fits fit) (I : Nat → Prop) (ms : List (List UInt8))
    (hms : ∀ m ∈ ms, m.length < 2^32 ∧ ∀ buf : List UInt8, I buf.length →
      ∃ buf', fit m.length buf = some buf' ∧ I buf'.length)
    {r : FrameReader} (hr : r.Sound) (hi : r.Idle) (hI : I r.msgBuf.length) :
    (r.feed fit (ms.flatMap delimit)).2 = ms ∧ (r.feed fit (ms.flatMap delimit)).1.Idle := by
  induction ms generalizing r with
  | nil => exact ⟨rfl, hi⟩
  | cons m ms ih =>
    obtain ⟨hlen, hm⟩ := hms m List.mem_cons_self
    obtain ⟨buf, hbuf, hIbuf⟩ := hm r.msgBuf hI
    obtain ⟨hout, hidle, hmsg⟩ := feed_delimit hfit hr hi hlen hbuf
    obtain ⟨hrest, hend⟩ := ih (fun m' hm' => hms m' (List.mem_cons_of_mem m hm'))
      (feed_sound hfit (delimit m) hr) hidle (hmsg ▸ hIbuf)
    rw [List.flatMap_cons, feed_append, hout, hrest]
    exact ⟨rfl, hend⟩

/-- Position `p` of a stream of records is the start of one of them, or its end. -/
def AtBoundary (ms : List (List UInt8)) (p : Nat) : Prop :=
  ∃ pre, pre <+: ms ∧ (pre.flatMap delimit).length = p

theorem AtBoundary.cons {ms : List (List UInt8)} {p : Nat} (h : AtBoundary ms p)
    (m : List UInt8) : AtBoundary (m::ms) ((delimit m).length+p) := by
  obtain ⟨pre, hpre, rfl⟩ := h
  exact ⟨m::pre, List.cons_prefix_cons.mpr ⟨rfl, hpre⟩, by simp⟩

/-- Right behind the length of a record with a body no record starts. -/
theorem not_atBoundary {pre post : List (List UInt8)} {m : List UInt8} (hm : m ≠ []) :
    ¬AtBoundary (pre++m::post) ((pre.flatMap delimit).length+4) := by
  rintro ⟨as, has, hlen⟩
  have hpos := List.length_pos_of_ne_nil hm
  have hmono : ∀ {as bs : List (List UInt8)}, as <+: bs →
      (as.flatMap delimit).length ≤ (bs.flatMap delimit).length := by
    rintro as bs ⟨cs, rfl⟩
    simp
  have hstep : pre++[m] <+: pre++m::post := ⟨post, by simp⟩
  rcases List.prefix_or_prefix_of_prefix has hstep with h | h
  · rcases List.prefix_concat_iff.mp h with rfl | h
    · simp only [List.flatMap_append, List.flatMap_singleton, List.length_append,
        delimit_length] at hlen
      omega
    · have := hmono h
      omega
  · have hle := hmono h
    simp only [List.flatMap_append, List.flatMap_singleton, List.length_append,
      delimit_length] at hle
    omega

/-- A stream of records none of which is refused, except that empty ones are: the others come
out unchanged and in order, and the reader expects a length only where a record starts. -/
theorem feed_stream (hfit : Fits fit) (hz : ∀ buf, fit 0 buf = none) (I : Nat → Prop)
    (ms : List (List UInt8))
    (hms : ∀ m ∈ ms, m.length < 2^32 ∧ (m ≠ [] → ∀ buf : List UInt8, I buf.length →
      ∃ buf', fit m.length buf = some buf' ∧ I buf'.length))
    {r : FrameReader} (hr : r.Sound) (hi : r.Idle) (hI : I r.msgBuf.length) :
    (r.feed fit (ms.flatMap delimit)).2 = ms.filter (fun m => !m.isEmpty) ∧
    (r.feed fit (ms.flatMap delimit)).1.Idle ∧
    I (r.feed fit (ms.flatMap delimit)).1.msgBuf.length ∧
    ∀ q ≤ (ms.flatMap delimit).length,
      (r.feed fit ((ms.flatMap delimit).take q)).1.Idle → AtBoundary ms q := by
  induction ms generalizing r with
  | nil =>
    refine ⟨rfl, hi, hI, fun q hq _ => ⟨[], List.prefix_refl _, ?_⟩⟩
    exact (Nat.le_zero.mp hq).symm
  | cons m ms ih =>
    obtain ⟨hlen, hm⟩ := hms m List.mem_cons_self
    have hone : (r.feed fit (delimit m)).2 = [m].filter (fun m => !m.isEmpty) ∧
        (r.feed fit (delimit m)).1.Idle ∧ I (r.feed fit (delimit m)).1.msgBuf.length ∧
        ∃ buf, m = [] ∨ fit m.length r.msgBuf = some buf := by
      by_cases h0 : m = []
      · subst h0
        obtain ⟨hout, hidle, hbuf⟩ := feed_refused hfit hr hi hlen (hz r.msgBuf)
        have hz : delimit [] = beBytes 0 := List.append_nil _
        rw [hz]
        exact ⟨hout, hidle, hbuf ▸ hI, [], .inl rfl⟩
      · obtain ⟨buf, hbuf, hIbuf⟩ := hm h0 r.msgBuf hI
        obtain ⟨hout, hidle, hmsg⟩ := feed_delimit hfit hr hi hlen hbuf
        exact ⟨by simp [hout, h0], hidle, hmsg ▸ hIbuf, buf, .inr hbuf⟩
    obtain ⟨hout, hidle, hI', buf, hbuf⟩ := hone
    obtain ⟨hrest, hend, hIend, hbound⟩ := ih (fun m' hm' => hms m' (List.mem_cons_of_mem m hm'))
      (feed_sound hfit (delimit m) hr) hidle hI'
    rw [List.flatMap_cons, feed_append]
    refine ⟨?_, hend, hIend, ?_⟩
    · rw [hout, hrest, ← List.filter_append, List.singleton_append]
    · intro q hq hqi
      by_cases h0 : q = 0
      · exact ⟨[], List.nil_prefix, by simp [h0]⟩
      by_cases hin : q < (delimit m).length
      · rw [List.take_append_of_le_length (Nat.le_of_lt hin)] at hqi
        exact absurd hqi (feed_delimit_busy hfit hr hi hlen hbuf (by omega) hin)
      · obtain ⟨q', rfl⟩ := Nat.exists_eq_add_of_le (Nat.not_lt.mp hin)
        rw [List.take_length_add_append, feed_append] at hqi
        refine AtBoundary.cons (hbound q' ?_ hqi) m
        simp only [List.length_append] at hq
        omega

end FrameReader

end TapTunnel.Framework
