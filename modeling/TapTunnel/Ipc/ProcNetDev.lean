import TapTunnel.Framework.Table
import TapTunnel.Framework.Tokens
import TapTunnel.Handshake.Config
import TapTunnel.Ipc.Protocol

namespace TapTunnel.Ipc

open Framework

/-- `char::is_whitespace`: the `White_Space` property of Unicode. -/
def isWhitespace (c : Char) : Bool :=
  let n := c.toNat
  (9 ≤ n && n ≤ 13) || n == 0x20 || n == 0x85 || n == 0xa0 || n == 0x1680 ||
    (0x2000 ≤ n && n ≤ 0x200a) || n == 0x2028 || n == 0x2029 || n == 0x202f || n == 0x205f ||
    n == 0x3000

/-- `str::parse::<u64>` -/
def parseU64 (text : List Char) : Option UInt64 :=
  (Handshake.parseUnsigned (2^64) (text.flatMap String.utf8EncodeChar)).map .ofNat

/-- One round of the loop over the lines, with the value that stands in for a column that cannot
be read. -/
def addLine (fallback : UInt64) (stats : Table (List Char) InterfaceStats) (line : List Char) :
    Table (List Char) InterfaceStats :=
  let parts := words isWhitespace line
  if h : 13 ≤ parts.length then
    let column (text : List Char) := (parseU64 text).getD fallback
    stats.insert (parts[0].rdropWhile (· == ':')) {
      rxBytes := column parts[1]
      rxPackets := column parts[2]
      rxErrors := column parts[3]
      rxDropped := column parts[4]
      txBytes := column parts[9]
      txPackets := column parts[10]
      txErrors := column parts[11]
      txDropped := column parts[12] }
  else stats

def readLines (fallback : UInt64) (content : List Char) : Table (List Char) InterfaceStats :=
  ((lines '\n' '\r' content).drop 2).foldl (addLine fallback) ∅

/-- `read_proc_net_dev` on the text of the file. -/
def readProcNetDev (content : List Char) : Table (List Char) InterfaceStats := readLines 0 content

/-- A line of the kernel's table: an interface with its eight receive and eight transmit counters,
and the blanks before the name and, beyond the first, before each counter. -/
structure DevLine where
  name : List Char
  counters : Fin 16 → UInt64
  pad : Nat
  gap : Fin 16 → Nat

/-- A number as it is printed. -/
def decimal (n : Nat) : List Char := (numeral 10 n).map (fun b => Char.ofNat b.toNat)

namespace DevLine

/-- What the kernel accepts as the name of an interface. -/
def Valid (l : DevLine) : Prop :=
  l.name ≠ [] ∧ ∀ c ∈ l.name, isWhitespace c = false ∧ c ≠ '/' ∧ c ≠ ':'

def render (l : DevLine) : List Char :=
  List.replicate l.pad ' ' ++ ((l.name ++ [':']) ++
    spaced ' ' (List.ofFn fun i => (l.gap i, decimal (l.counters i).toNat)))

/-- Bytes, packets, errors and drops are the first four counters of each direction. -/
def stats (l : DevLine) : InterfaceStats where
  rxBytes := l.counters 0
  rxPackets := l.counters 1
  rxErrors := l.counters 2
  rxDropped := l.counters 3
  txBytes := l.counters 8
  txPackets := l.counters 9
  txErrors := l.counters 10
  txDropped := l.counters 11

end DevLine

/-- The file: two header lines, and a line for each interface. -/
def procNetDev (header header' : List Char) (ls : List DevLine) : List Char :=
  (header::header'::ls.map DevLine.render).flatMap (· ++ ['\n'])

theorem digitByte_ascii : ∀ d < 10,
    String.utf8EncodeChar (Char.ofNat (digitByte d).toNat) = [digitByte d] ∧
      isWhitespace (Char.ofNat (digitByte d).toNat) = false := by
  decide

theorem utf8_decimal (n : Nat) : (decimal n).flatMap String.utf8EncodeChar = numeral 10 n := by
  rw [decimal, List.flatMap_map]
  conv_rhs => rw [← List.flatMap_singleton' (numeral 10 n)]
  apply List.flatMap_congr
  intro b hb
  obtain ⟨d, hd, rfl⟩ := numeral_digits (by decide) (by decide) n b hb
  exact (digitByte_ascii d hd).1

theorem parseU64_decimal (n : UInt64) : parseU64 (decimal n.toNat) = some n := by
  rw [parseU64, utf8_decimal, Handshake.parseUnsigned_numeral n.toNat_lt, Option.map_some,
    UInt64.ofNat_toNat]

theorem isWord_decimal (n : Nat) : IsWord isWhitespace (decimal n) := by
  constructor
  · rw [decimal, Ne, List.map_eq_nil_iff]
    exact numeral_ne_nil 10 n
  · intro c hc
    obtain ⟨b, hb, rfl⟩ := List.mem_map.mp hc
    obtain ⟨d, hd, rfl⟩ := numeral_digits (by decide) (by decide) n b hb
    exact (digitByte_ascii d hd).2

namespace DevLine

variable {l : DevLine}

theorem isWord_name (h : l.Valid) : IsWord isWhitespace (l.name ++ [':']) := by
  refine ⟨by simp, fun c hc => ?_⟩
  rcases List.mem_append.mp hc with hc | hc
  · exact (h.2 c hc).1
  · rw [List.mem_singleton.mp hc]
    decide

/-- A line has 17 words, whatever its blanks. -/
theorem words_render (h : l.Valid) : words isWhitespace l.render =
    (l.name ++ [':'])::List.ofFn (fun i => decimal (l.counters i).toNat) := by
  have hblank : isWhitespace ' ' = true := by decide
  rw [render, words_replicate hblank, words_spaced hblank (isWord_name h), List.map_ofFn]
  · rfl
  · intro v hv
    obtain ⟨i, rfl⟩ := List.mem_ofFn.mp hv
    exact isWord_decimal _

theorem trim_name (h : l.Valid) : (l.name ++ [':']).rdropWhile (· == ':') = l.name := by
  rw [List.rdropWhile_concat_pos _ _ _ (by decide), List.rdropWhile_eq_self_iff]
  intro hne hlast
  exact (h.2 _ (List.getLast_mem hne)).2.2 (eq_of_beq hlast)

/-- Step lemma: a line of the kernel adds the entry of its interface. -/
theorem addLine_render (h : l.Valid) (fallback : UInt64)
    (stats : Table (List Char) InterfaceStats) :
    addLine fallback stats l.render = stats.insert l.name l.stats := by
  unfold addLine
  simp only [words_render h]
  rw [dif_pos (by simp)]
  simp [trim_name h, parseU64_decimal, DevLine.stats]

theorem mem_render (h : l.Valid) {c : Char} (hc : c ∈ l.render) :
    c = ' ' ∨ isWhitespace c = false := by
  rcases List.mem_append.mp hc with hc | hc
  · exact .inl (List.eq_of_mem_replicate hc)
  rcases List.mem_append.mp hc with hc | hc
  · exact .inr ((isWord_name h).2 c hc)
  rcases mem_spaced hc with hc | ⟨v, hv, hc⟩
  · exact .inl hc
  · obtain ⟨i, rfl⟩ := List.mem_ofFn.mp hv
    exact .inr ((isWord_decimal _).2 c hc)

theorem notMem_render (h : l.Valid) {c : Char} (hc : c ≠ ' ' ∧ isWhitespace c = true) :
    c ∉ l.render := by
  intro hmem
  rcases mem_render h hmem with he | he
  · exact hc.1 he
  · rw [hc.2] at he
    cases he

end DevLine

/-- Run lemma: the loop over the lines of the kernel makes one entry after the other. -/
theorem foldl_addLine {ls : List DevLine} (h : ∀ l ∈ ls, l.Valid) (fallback : UInt64)
    (stats : Table (List Char) InterfaceStats) :
    (ls.map DevLine.render).foldl (addLine fallback) stats =
      stats.insertAll DevLine.name DevLine.stats ls := by
  induction ls generalizing stats with
  | nil => rfl
  | cons l ls ih =>
    obtain ⟨hl, hls⟩ := List.forall_mem_cons.mp h
    rw [List.map_cons, List.foldl_cons, DevLine.addLine_render hl, ih hls]
    rfl

theorem readLines_procNetDev {header header' : List Char} (hh : '\n' ∉ header)
    (hh' : '\n' ∉ header') {ls : List DevLine} (h : ∀ l ∈ ls, l.Valid) (fallback : UInt64) :
    readLines fallback (procNetDev header header' ls) =
      Table.insertAll DevLine.name DevLine.stats ls ∅ := by
  have hno : ∀ l ∈ header::header'::ls.map DevLine.render, '\n' ∉ l := by
    simp only [List.forall_mem_cons, List.forall_mem_map]
    exact ⟨hh, hh', fun l hl => DevLine.notMem_render (h l hl) (by decide)⟩
  have hchomp : (ls.map DevLine.render).map (chomp '\r') = ls.map DevLine.render := by
    rw [List.map_map]
    apply List.map_congr_left
    intro l hl
    exact chomp_of_notMem _ (DevLine.notMem_render (h l hl) (by decide))
  rw [readLines, procNetDev, lines_terminated _ hno, List.map_cons, List.map_cons]
  change ((ls.map DevLine.render).map (chomp '\r')).foldl (addLine fallback) ∅ = _
  rw [hchomp, foldl_addLine h]

/-- Reading back what the kernel prints gives one entry for each interface, with its own counters,
for all widths of the columns. The same comes out whatever stands in for a column that cannot be
read, so none does. -/
theorem proc_net_dev_read (header header' : List Char) (hh : '\n' ∉ header) (hh' : '\n' ∉ header')
    (ls : List DevLine) (hvalid : ∀ l ∈ ls, l.Valid) (hnames : (ls.map DevLine.name).Nodup) :
    (readProcNetDev (procNetDev header header' ls)).keys.Perm (ls.map DevLine.name) ∧
    (∀ l ∈ ls, (readProcNetDev (procNetDev header header' ls)).lookup l.name = some l.stats) ∧
    ∀ fallback, readLines fallback (procNetDev header header' ls) =
      readProcNetDev (procNetDev header header' ls) := by
  have hread := readLines_procNetDev hh hh' hvalid
  refine ⟨?_, fun l hl => ?_, fun fallback => ?_⟩
  · rw [readProcNetDev, hread]
    exact Table.keys_insertAll hnames
  · rw [readProcNetDev, hread]
    exact Table.lookup_insertAll hnames hl ∅
  · rw [readProcNetDev, hread, hread]

/-- An interface in columns of the widths the kernel gives them. -/
def kernelLine (name : List Char) (counters : Fin 16 → UInt64) : DevLine :=
  let width : Fin 16 → Nat := ![7, 7, 4, 4, 4, 5, 10, 9, 8, 7, 4, 4, 4, 5, 7, 10]
  ⟨name, counters, 6-name.length, fun i => width i-(decimal (counters i).toNat).length⟩

def exampleDevices : List DevLine :=
  [kernelLine ['l', 'o'] fun _ => 0,
    kernelLine ['t', 'a', 'p', '0']
      ![18446744073709551615, 2, 3, 4, 5, 6, 7, 8, 9, 10, 11, 12, 13, 14, 15, 16]]

theorem proc_net_dev_read_twoDevices :
    (readProcNetDev (procNetDev [] [] exampleDevices)).lookup ['t', 'a', 'p', '0'] =
      some ⟨18446744073709551615, 2, 3, 4, 9, 10, 11, 12⟩ := by
  have hvalid : ∀ l ∈ exampleDevices, l.Valid := by
    simp [exampleDevices, DevLine.Valid, kernelLine, isWhitespace]
  have hnames : (exampleDevices.map DevLine.name).Nodup := by decide
  exact (proc_net_dev_read [] [] (by decide) (by decide) exampleDevices hvalid hnames).2.1
    (kernelLine _ _) (.tail _ (.head _))

end TapTunnel.Ipc
