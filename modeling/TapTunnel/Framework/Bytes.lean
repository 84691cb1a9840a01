import Mathlib

namespace TapTunnel.Framework

/-- `n as u32`, most significant byte first. -/
def beBytes (n : Nat) : List UInt8 :=
  [.ofNat (n / 2^24), .ofNat (n / 2^16), .ofNat (n / 2^8), .ofNat n]

def ofBeBytes (bs : List UInt8) : Nat := bs.foldl (fun n b => 256*n+b.toNat) 0

/-- A record behind its length. -/
def delimit (m : List UInt8) : List UInt8 := beBytes m.length ++ m

@[simp] theorem beBytes_length (n : Nat) : (beBytes n).length = 4 := rfl

@[simp] theorem delimit_length (m : List UInt8) : (delimit m).length = 4+m.length := by
  simp [delimit]

theorem ofBeBytes_beBytes (n : Nat) (h : n < 2^32) : ofBeBytes (beBytes n) = n := by
  simp only [ofBeBytes, beBytes, List.foldl_cons, List.foldl_nil, UInt8.toNat_ofNat']
  omega

/-- `chunk` stored into a buffer from position `pos` on; everything else stays as it was. -/
def overwrite (buf : List UInt8) (pos : Nat) (chunk : List UInt8) : List UInt8 :=
  buf.take pos ++ chunk ++ buf.drop (pos+chunk.length)

section Overwrite

variable {buf : List UInt8} {pos : Nat}

theorem overwrite_length {chunk : List UInt8} (h : pos+chunk.length ≤ buf.length) :
    (overwrite buf pos chunk).length = buf.length := by
  simp only [overwrite, List.length_append, List.length_take, List.length_drop]
  omega

theorem overwrite_take (h : pos ≤ buf.length) (chunk : List UInt8) :
    (overwrite buf pos chunk).take (pos+chunk.length) = buf.take pos ++ chunk := by
  rw [overwrite, List.take_left']
  simp [h]

theorem overwrite_append (h : pos ≤ buf.length) (a b : List UInt8) :
    overwrite (overwrite buf pos a) (pos+a.length) b = overwrite buf pos (a++b) := by
  have hd : (overwrite buf pos a).drop (pos+a.length+b.length) =
      buf.drop (pos+(a++b).length) := by
    have hl : (buf.take pos ++ a).length = pos+a.length := by simp [h]
    rw [← List.drop_drop, overwrite, ← hl, List.drop_left, List.drop_drop, hl]
    simp [Nat.add_assoc]
  rw [overwrite, overwrite_take h, hd]
  simp [overwrite]

end Overwrite

/-- Buffered writer over a byte sink: `out` is what the sink has been given so far. -/
structure BufWriter where
  cap : Nat
  buf : List UInt8
  out : List UInt8
  deriving DecidableEq, Repr

namespace BufWriter

def new (cap : Nat) : BufWriter := ⟨cap, [], []⟩

def flush (w : BufWriter) : BufWriter := { w with buf := [], out := w.out ++ w.buf }

/-- A write that would overflow the buffer flushes it first, and one as large as the whole
buffer goes past it. -/
def writeAll (data : List UInt8) (w : BufWriter) : BufWriter :=
  let w := if w.cap < w.buf.length+data.length then w.flush else w
  if w.cap ≤ data.length then { w with out := w.out ++ data } else { w with buf := w.buf ++ data }

/-- Everything written, whether it has reached the sink or not. -/
def content (w : BufWriter) : List UInt8 := w.out ++ w.buf

@[simp] theorem flush_content (w : BufWriter) : w.flush.content = w.content := by
  simp [flush, content]

@[simp] theorem flush_out (w : BufWriter) : w.flush.out = w.content := rfl

theorem writeAll_content (data : List UInt8) (w : BufWriter) :
    (w.writeAll data).content = w.content ++ data := by
  unfold writeAll
  by_cases hf : w.cap < w.buf.length+data.length
  · simp only [hf, if_true]
    split_ifs <;> simp [content, flush]
  · simp only [hf, if_false]
    split_ifs with hl
    · have hb : w.buf = [] := List.length_eq_zero_iff.mp (by omega)
      simp [content, hb]
    · simp [content]

theorem out_prefix_writeAll (data : List UInt8) (w : BufWriter) :
    w.out <+: (w.writeAll data).out := by
  unfold writeAll
  by_cases hf : w.cap < w.buf.length+data.length
  · simp only [hf, if_true]
    split_ifs <;> simp [flush]
  · simp only [hf, if_false]
    split_ifs <;> simp

@[simp] theorem writeAll_cap (data : List UInt8) (w : BufWriter) :
    (w.writeAll data).cap = w.cap := by
  simp only [writeAll]
  split_ifs <;> rfl

theorem writeAll_room {w : BufWriter} (hw : w.buf.length ≤ w.cap) (data : List UInt8) :
    (w.writeAll data).buf.length ≤ (w.writeAll data).cap := by
  rw [writeAll_cap]
  unfold writeAll
  by_cases hf : w.cap < w.buf.length+data.length
  · simp only [hf, if_true, flush]
    split_ifs with hl
    · exact Nat.zero_le _
    · simp only [List.nil_append]
      omega
  · simp only [hf, if_false]
    split_ifs with hl
    · exact hw
    · simp only [List.length_append]
      omega

/-- Nothing reaches the sink as long as there is room in the buffer. -/
theorem writeAll_out_eq_iff {w : BufWriter} (hw : w.buf.length ≤ w.cap) (data : List UInt8) :
    (w.writeAll data).out = w.out ↔
      data = [] ∨ w.buf.length+data.length ≤ w.cap ∧ data.length < w.cap := by
  rcases eq_or_ne data [] with rfl | hdata
  · simp only [writeAll, List.length_nil, Nat.add_zero, if_neg (Nat.not_lt.mpr hw)]
    split_ifs <;> simp
  have hpos : 0 < data.length := List.length_pos_iff.mpr hdata
  unfold writeAll
  by_cases hf : w.cap < w.buf.length+data.length
  · simp only [hf, if_true, flush]
    split_ifs with hl
    · simp [hdata, hf]
    · -- The buffer is not empty, and is flushed.
      have hbuf : w.buf ≠ [] := List.ne_nil_of_length_pos (by omega)
      simp [hdata, hbuf, hf]
  · simp only [hf, if_false]
    split_ifs with hl
    · simp [hdata, hl]
    · simp [Nat.not_lt.mp hf, Nat.not_le.mp hl]

end BufWriter

end TapTunnel.Framework
