import TapTunnel.Framework.Text
import TapTunnel.Net.Addr

namespace TapTunnel

open Framework

/-- `.` and `:` -/
def dot : UInt8 := 46

def colon : UInt8 := 58

/-- `Display` of `Ipv4Addr`. -/
def ipv4Text (a : BitVec 32) : Bytes :=
  [dot].intercalate ((places 256 4 a.toNat).reverse.map (numeral 10))

def readIpv4 (text : Bytes) : Option (BitVec 32) :=
  ((text.splitOn dot).mapM (readNumeral 10)).map fun octets =>
    BitVec.ofNat 32 (Nat.ofDigits 256 octets.reverse)

/-- The eight groups of an IPv6 address. -/
def segments (a : BitVec 128) : List Nat := (places 65536 8 a.toNat).reverse

def ofSegments (segs : List Nat) : BitVec 128 := BitVec.ofNat 128 (Nat.ofDigits 65536 segs.reverse)

/-- Start and length of the longest run of at least two zero groups, the first one of those. -/
def zeroRun (segs : List Nat) : Option (Nat × Nat) :=
  ((List.range 7).flatMap fun k => (List.range (k+1)).map fun start => (start, 8-k)).find?
    fun r => (segs.drop r.1).take r.2 = List.replicate r.2 0

/-- Nothing between two colons at an end of the text. -/
def padEnd (ts : List Bytes) : List Bytes := if ts = [] then [[]] else ts

def isIpv4Mapped (a : BitVec 128) : Bool := a.toNat/2^32 == 0xffff

/-- What stands between the colons of an IPv6 address. -/
def ipv6Groups (a : BitVec 128) : List Bytes :=
  if isIpv4Mapped a then [[], [], numeral 16 0xffff, ipv4Text (a.setWidth 32)]
  else match zeroRun (segments a) with
    | some (start, len) => padEnd (((segments a).take start).map (numeral 16)) ++ []::
        padEnd (((segments a).drop (start+len)).map (numeral 16))
    | none => (segments a).map (numeral 16)

/-- `Display` of `Ipv6Addr`. -/
def ipv6Text (a : BitVec 128) : Bytes := [colon].intercalate (ipv6Groups a)

/-- Groups before and behind the `::`, or all of them if there is none. -/
def readGroups (groups : List Bytes) : Option (BitVec 128) :=
  let left := groups.takeWhile (· ≠ [])
  let right := (groups.drop left.length).filter (· ≠ [])
  (left.mapM (readNumeral 16)).bind fun l => (right.mapM (readNumeral 16)).map fun r =>
    ofSegments (l ++ List.replicate (8-l.length-r.length) 0 ++ r)

def readIpv6 (text : Bytes) : Option (BitVec 128) :=
  match text.splitOn colon with
  | [[], [], m, v4] =>
    if m = numeral 16 0xffff ∧ dot ∈ v4 then
      (readIpv4 v4).map fun a => BitVec.ofNat 128 (0xffff*2^32+a.toNat)
    else readGroups [[], [], m, v4]
  | groups => readGroups groups

def ipText : IpAddr → Bytes
  | .v4 a => ipv4Text a
  | .v6 a => ipv6Text a

def readIp (text : Bytes) : Option IpAddr :=
  if colon ∈ text then (readIpv6 text).map .v6 else (readIpv4 text).map .v4

theorem mem_intercalate {α : Type} {s x : α} {ls : List (List α)}
    (h : x ∈ [s].intercalate ls) : x = s ∨ ∃ l ∈ ls, x ∈ l := by
  induction ls with
  | nil => simp at h
  | cons l ls ih =>
    cases ls with
    | nil => exact .inr ⟨l, by simp, by simpa using h⟩
    | cons l' ls =>
      rw [List.intercalate_cons_cons] at h
      simp only [List.append_assoc, List.mem_append, List.mem_singleton] at h
      obtain h | h | h := h
      · exact .inr ⟨l, by simp, h⟩
      · exact .inl h
      · obtain h | ⟨m, hm, hx⟩ := ih h
        · exact .inl h
        · exact .inr ⟨m, List.mem_cons_of_mem l hm, hx⟩

section Bytes

/-- No digit of a number, in any base up to sixteen. -/
def IsMark (c : UInt8) : Prop := ¬(48 ≤ c ∧ c ≤ 57) ∧ ¬(97 ≤ c ∧ c ≤ 102)

theorem mark_notMem_numeral {base : Nat} (h2 : 2 ≤ base) (h16 : base ≤ 16) (n : Nat) {c : UInt8}
    (hc : IsMark c) : c ∉ numeral base n := by
  intro h
  obtain h | h := numeral_byte h2 h16 n c h
  · exact hc.1 h
  · exact hc.2 h

theorem dot_mark : IsMark dot := by
  unfold IsMark
  decide

theorem colon_mark : IsMark colon := by
  unfold IsMark
  decide

end Bytes

theorem ipv4Text_splitOn (a : BitVec 32) :
    (ipv4Text a).splitOn dot = (places 256 4 a.toNat).reverse.map (numeral 10) := by
  refine List.splitOn_intercalate dot ?_ ?_
  · intro l hl
    obtain ⟨d, -, rfl⟩ := List.mem_map.mp hl
    exact mark_notMem_numeral (by decide) (by decide) d dot_mark
  · simp [places]

theorem readIpv4_ipv4Text (a : BitVec 32) : readIpv4 (ipv4Text a) = some a := by
  rw [readIpv4, ipv4Text_splitOn,
    mapM_map_eq_some fun d _ => readNumeral_numeral (by decide) (by decide) d]
  simp only [Option.map_some, List.reverse_reverse, ofDigits_places]
  have h : a.toNat%256^4 = a.toNat := Nat.mod_eq_of_lt a.isLt
  rw [h, BitVec.ofNat_toNat]
  simp

theorem mark_notMem_ipv4Text (a : BitVec 32) {c : UInt8} (hc : IsMark c) (hdot : c ≠ dot) :
    c ∉ ipv4Text a := by
  intro h
  obtain h | ⟨l, hl, h⟩ := mem_intercalate h
  · exact hdot h
  · obtain ⟨d, -, rfl⟩ := List.mem_map.mp hl
    exact mark_notMem_numeral (by decide) (by decide) d hc h

theorem colon_notMem_ipv4Text (a : BitVec 32) : colon ∉ ipv4Text a :=
  mark_notMem_ipv4Text a colon_mark (by decide)

theorem dot_mem_ipv4Text (a : BitVec 32) : dot ∈ ipv4Text a := by
  simp [ipv4Text, places, List.intercalate_cons_cons]

@[simp] theorem segments_length (a : BitVec 128) : (segments a).length = 8 := by
  simp [segments]

theorem ofSegments_segments (a : BitVec 128) : ofSegments (segments a) = a := by
  simp only [ofSegments, segments, List.reverse_reverse, ofDigits_places]
  have h : a.toNat%65536^8 = a.toNat := Nat.mod_eq_of_lt a.isLt
  rw [h, BitVec.ofNat_toNat]
  simp

/-- A run found is one, within the address. -/
theorem zeroRun_spec {segs : List Nat} {start len : Nat} (h : zeroRun segs = some (start, len)) :
    (segs.drop start).take len = List.replicate len 0 ∧ start+len ≤ 8 ∧ 2 ≤ len := by
  have hp := List.find?_some h
  have hm := List.mem_of_find?_eq_some h
  simp only [List.mem_flatMap, List.mem_range, List.mem_map, Prod.mk.injEq] at hm
  obtain ⟨k, hk, s, hs, rfl, rfl⟩ := hm
  exact ⟨by simpa using hp, by omega, by omega⟩

theorem mapM_hex (ds : List Nat) : (ds.map (numeral 16)).mapM (readNumeral 16) = some ds :=
  mapM_map_eq_some fun d _ => readNumeral_numeral (by decide) (by decide) d

theorem hex_ne_nil (ds : List Nat) : ∀ g ∈ ds.map (numeral 16), (g ≠ []) = true := by
  intro g hg
  obtain ⟨d, -, rfl⟩ := List.mem_map.mp hg
  simpa using numeral_ne_nil 16 d

theorem padEnd_filter (ds : List Nat) :
    (padEnd (ds.map (numeral 16))).filter (· ≠ []) = ds.map (numeral 16) := by
  unfold padEnd
  split_ifs with h
  · simp [h]
  · exact List.filter_eq_self.mpr fun g hg => by simpa using hex_ne_nil ds g hg

theorem takeWhile_hex (ds : List Nat) (rest : List Bytes) :
    (ds.map (numeral 16) ++ []::rest).takeWhile (· ≠ []) = ds.map (numeral 16) := by
  rw [List.takeWhile_append_of_pos fun g hg => by simpa using hex_ne_nil ds g hg]
  simp

/-- Groups with a `::` among them. -/
theorem readGroups_run (as bs : List Nat) :
    readGroups (padEnd (as.map (numeral 16)) ++ []::padEnd (bs.map (numeral 16))) =
      some (ofSegments (as ++ List.replicate (8-as.length-bs.length) 0 ++ bs)) := by
  have hright : ([]::padEnd (bs.map (numeral 16))).filter (· ≠ []) = bs.map (numeral 16) := by
    rw [List.filter_cons_of_neg (by simp), padEnd_filter]
  cases as with
  | nil =>
    have hleft : (padEnd (([] : List Nat).map (numeral 16)) ++
        []::padEnd (bs.map (numeral 16))).takeWhile (· ≠ []) = [] := by simp [padEnd]
    have hdrop : (padEnd (([] : List Nat).map (numeral 16)) ++
        []::padEnd (bs.map (numeral 16))).filter (· ≠ []) = bs.map (numeral 16) := by
      change ([]::[]::padEnd (bs.map (numeral 16))).filter (· ≠ []) = _
      rw [List.filter_cons_of_neg (by simp), hright]
    simp only [readGroups, hleft, List.length_nil, List.drop_zero, hdrop, mapM_hex]
    rfl
  | cons a as =>
    have hpad : padEnd ((a::as).map (numeral 16)) = (a::as).map (numeral 16) := by simp [padEnd]
    rw [hpad]
    simp only [readGroups, takeWhile_hex, List.drop_left, hright, mapM_hex]
    rfl

theorem readGroups_all (ds : List Nat) (h : ds.length = 8) :
    readGroups (ds.map (numeral 16)) = some (ofSegments ds) := by
  have hleft : (ds.map (numeral 16)).takeWhile (· ≠ []) = ds.map (numeral 16) := by
    have happ : (ds.map (numeral 16) ++ []).takeWhile (· ≠ []) =
        ds.map (numeral 16) ++ [].takeWhile (· ≠ []) :=
      List.takeWhile_append_of_pos fun g hg => by simpa using hex_ne_nil ds g hg
    simpa using happ
  simp only [readGroups, hleft, List.drop_length, List.filter_nil, mapM_hex]
  simp [h]

theorem padEnd_length (ts : List Bytes) : (padEnd ts).length = max ts.length 1 := by
  unfold padEnd
  split_ifs with h
  · simp [h]
  · have hpos := List.length_pos_of_ne_nil h
    omega

theorem ipv6Groups_cases {a : BitVec 128} (h : isIpv4Mapped a = false) :
    (∃ start len, zeroRun (segments a) = some (start, len) ∧
      ipv6Groups a = padEnd (((segments a).take start).map (numeral 16)) ++ []::
        padEnd (((segments a).drop (start+len)).map (numeral 16))) ∨
      ipv6Groups a = (segments a).map (numeral 16) := by
  rw [ipv6Groups, if_neg (by simp [h])]
  split
  · next start len hrun => exact .inl ⟨start, len, hrun, rfl⟩
  · exact .inr rfl

/-- Without a dotted part, a group is empty or a number. -/
theorem ipv6Groups_form {a : BitVec 128} (h : isIpv4Mapped a = false) :
    ∀ g ∈ ipv6Groups a, g = [] ∨ ∃ d, g = numeral 16 d := by
  have hpad : ∀ (ds : List Nat), ∀ g ∈ padEnd (ds.map (numeral 16)),
      g = [] ∨ ∃ d, g = numeral 16 d := by
    intro ds g hg
    unfold padEnd at hg
    split_ifs at hg
    · exact .inl (List.mem_singleton.mp hg)
    · obtain ⟨d, -, rfl⟩ := List.mem_map.mp hg
      exact .inr ⟨d, rfl⟩
  intro g hg
  obtain ⟨start, len, -, he⟩ | he := ipv6Groups_cases h
  · obtain hg | hg := List.mem_append.mp (he ▸ hg)
    · exact hpad _ g hg
    · obtain rfl | hg := List.mem_cons.mp hg
      · exact .inl rfl
      · exact hpad _ g hg
  · obtain ⟨d, -, rfl⟩ := List.mem_map.mp (he ▸ hg)
    exact .inr ⟨d, rfl⟩

theorem readGroups_ipv6Groups {a : BitVec 128} (h : isIpv4Mapped a = false) :
    readGroups (ipv6Groups a) = some a := by
  obtain ⟨start, len, hrun, he⟩ | he := ipv6Groups_cases h
  · obtain ⟨hz, hle, -⟩ := zeroRun_spec hrun
    have hlen :
        8-((segments a).take start).length-((segments a).drop (start+len)).length = len := by
      simp only [List.length_take, List.length_drop, segments_length]
      omega
    rw [he, readGroups_run, hlen, ← hz, List.append_assoc, ← List.drop_drop,
      List.take_append_drop, List.take_append_drop, ofSegments_segments]
  · rw [he, readGroups_all _ (segments_length a), ofSegments_segments]

theorem mark_notMem_group (a : BitVec 128) {c : UInt8} (hc : IsMark c) (hdot : c ≠ dot) :
    ∀ g ∈ ipv6Groups a, c ∉ g := by
  cases h : isIpv4Mapped a with
  | false =>
    intro g hg
    obtain rfl | ⟨d, rfl⟩ := ipv6Groups_form h g hg
    · simp
    · exact mark_notMem_numeral (by decide) (by decide) d hc
  | true =>
    simp only [ipv6Groups, h, if_true, List.forall_mem_cons]
    exact ⟨by simp, by simp, mark_notMem_numeral (by decide) (by decide) _ hc,
      mark_notMem_ipv4Text _ hc hdot, by simp⟩

theorem two_le_ipv6Groups (a : BitVec 128) : ∃ g g' gs, ipv6Groups a = g::g'::gs := by
  have hlen : 2 ≤ (ipv6Groups a).length := by
    cases h : isIpv4Mapped a with
    | true => simp [ipv6Groups, h]
    | false =>
      obtain ⟨start, len, -, he⟩ | he := ipv6Groups_cases h
      · rw [he, List.length_append, List.length_cons, padEnd_length]
        omega
      · simp [he]
  match hg : ipv6Groups a, hlen with
  | g::g'::gs, _ => exact ⟨g, g', gs, rfl⟩

theorem ipv6Text_splitOn (a : BitVec 128) : (ipv6Text a).splitOn colon = ipv6Groups a := by
  refine List.splitOn_intercalate colon (mark_notMem_group a colon_mark (by decide)) ?_
  obtain ⟨g, g', gs, h⟩ := two_le_ipv6Groups a
  simp [h]

theorem mapped_eq {a : BitVec 128} (h : isIpv4Mapped a = true) :
    BitVec.ofNat 128 (0xffff*2^32+(a.setWidth 32).toNat) = a := by
  have hq : a.toNat/2^32 = 0xffff := by simpa [isIpv4Mapped] using h
  apply BitVec.eq_of_toNat_eq
  simp only [BitVec.toNat_ofNat, BitVec.toNat_setWidth]
  omega

theorem readIpv6_ipv6Text (a : BitVec 128) : readIpv6 (ipv6Text a) = some a := by
  unfold readIpv6
  rw [ipv6Text_splitOn]
  cases h : isIpv4Mapped a with
  | true =>
    simp only [ipv6Groups, h, if_true, dot_mem_ipv4Text, and_self, readIpv4_ipv4Text,
      Option.map_some, mapped_eq h]
  | false =>
    split
    · next m v4 hg =>
      have hdot : dot ∉ v4 := by
        obtain rfl | ⟨d, rfl⟩ := ipv6Groups_form h v4 (by simp [hg])
        · simp
        · exact mark_notMem_numeral (by decide) (by decide) d dot_mark
      rw [if_neg (by simp [hdot]), ← hg, readGroups_ipv6Groups h]
    · exact readGroups_ipv6Groups h

/-- Parsing undoes printing. -/
theorem readIp_ipText (a : IpAddr) : readIp (ipText a) = some a := by
  cases a with
  | v4 a =>
    rw [readIp, ipText, if_neg (colon_notMem_ipv4Text a), readIpv4_ipv4Text]
    rfl
  | v6 a =>
    obtain ⟨g, g', gs, hg⟩ := two_le_ipv6Groups a
    have hc : colon ∈ ipv6Text a := by
      rw [ipv6Text, hg, List.intercalate_cons_cons]
      simp
    rw [readIp, ipText, if_pos hc, readIpv6_ipv6Text]
    rfl

/-- An address is written with digits, dots and colons. -/
theorem mark_notMem_ipText (a : IpAddr) {c : UInt8} (hc : IsMark c) (hdot : c ≠ dot)
    (hcolon : c ≠ colon) : c ∉ ipText a := by
  cases a with
  | v4 a => exact mark_notMem_ipv4Text a hc hdot
  | v6 a =>
    intro h
    obtain h | ⟨g, hg, h⟩ := mem_intercalate h
    · exact hcolon h
    · exact mark_notMem_group a hc hdot g hg h

section Lengths

theorem length_intercalate_le {α : Type} {s : α} {ls : List (List α)} {k : Nat}
    (h : ∀ l ∈ ls, l.length ≤ k) : ([s].intercalate ls).length ≤ ls.length*(k+1)-1 := by
  induction ls with
  | nil => simp
  | cons l ls ih =>
    have hl := h l List.mem_cons_self
    have hls := ih fun m hm => h m (List.mem_cons_of_mem l hm)
    cases ls with
    | nil =>
      simp
      omega
    | cons l' ls =>
      have hpos : k+1 ≤ (l'::ls).length*(k+1) := Nat.le_mul_of_pos_left (k+1) (by simp)
      rw [List.length_cons, Nat.succ_mul, List.intercalate_cons_cons]
      simp only [List.length_append, List.length_singleton]
      omega

theorem ipv4Text_length_le (a : BitVec 32) : (ipv4Text a).length ≤ 15 := by
  have hgroups : ∀ l ∈ (places 256 4 a.toNat).reverse.map (numeral 10), l.length ≤ 3 := by
    intro l hl
    obtain ⟨d, hd, rfl⟩ := List.mem_map.mp hl
    have hlt := places_lt (by decide) 4 a.toNat d (List.mem_reverse.mp hd)
    exact numeral_length_le (by decide) (by decide) (by omega)
  have h := length_intercalate_le (s := dot) hgroups
  simpa [ipv4Text] using h

theorem hex_length_le (a : BitVec 128) {ds : List Nat} (h : ds ⊆ segments a) :
    ∀ g ∈ ds.map (numeral 16), g.length ≤ 4 := by
  intro g hg
  obtain ⟨d, hd, rfl⟩ := List.mem_map.mp hg
  have hlt := places_lt (by decide) 8 a.toNat d (List.mem_reverse.mp (h hd))
  exact numeral_length_le (by decide) (by decide) (by omega)

theorem padEnd_forall {ts : List Bytes} {k : Nat} (h : ∀ g ∈ ts, g.length ≤ k) :
    ∀ g ∈ padEnd ts, g.length ≤ k := by
  unfold padEnd
  split_ifs
  · simp
  · exact h

/-- A run of zero groups leaves room for the colons around it. -/
theorem ipv6Groups_bounds {a : BitVec 128} (h : isIpv4Mapped a = false) :
    (ipv6Groups a).length ≤ 8 ∧ ∀ g ∈ ipv6Groups a, g.length ≤ 4 := by
  obtain ⟨start, len, hrun, he⟩ | he := ipv6Groups_cases h
  · obtain ⟨-, hle, htwo⟩ := zeroRun_spec hrun
    refine ⟨?_, ?_⟩
    · rw [he, List.length_append, List.length_cons, padEnd_length, padEnd_length]
      simp only [List.length_map, List.length_take, List.length_drop, segments_length]
      omega
    · intro g hg
      obtain hg | hg := List.mem_append.mp (he ▸ hg)
      · exact padEnd_forall (hex_length_le a (List.take_subset start _)) g hg
      · obtain rfl | hg := List.mem_cons.mp hg
        · simp
        · exact padEnd_forall (hex_length_le a (List.drop_subset (start+len) _)) g hg
  · rw [he]
    exact ⟨by simp, hex_length_le a (List.Subset.refl _)⟩

theorem ipv6Text_length_le (a : BitVec 128) : (ipv6Text a).length ≤ 39 := by
  cases h : isIpv4Mapped a with
  | true =>
    have hv4 := ipv4Text_length_le (a.setWidth 32)
    have hffff : (numeral 16 0xffff).length = 4 := by decide
    simp only [ipv6Text, ipv6Groups, h, if_true, List.intercalate_cons_cons,
      List.intercalate_singleton, List.length_append, List.length_singleton, List.length_nil, hffff]
    omega
  | false =>
    obtain ⟨hlen, hgroups⟩ := ipv6Groups_bounds h
    have htext := length_intercalate_le (s := colon) hgroups
    have hmul := Nat.mul_le_mul_right 5 hlen
    unfold ipv6Text
    omega

/-- No address is longer than eight groups of four digits. -/
theorem ipText_length_le (a : IpAddr) : (ipText a).length ≤ 39 := by
  cases a with
  | v4 a => exact (ipv4Text_length_le a).trans (by decide)
  | v6 a => exact ipv6Text_length_le a

end Lengths

example : ipText (.v6 0xfd000000000000000000000000000001) =
    [102, 100, 48, 48, 58, 58, 49] := by decide +kernel

end TapTunnel
