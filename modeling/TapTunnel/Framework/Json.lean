import TapTunnel.Framework.Text

namespace TapTunnel.Framework

mutual

/-- JSON built from unsigned numbers, strings, arrays and objects; a string stands as its UTF-8
bytes. -/
inductive Json
  | num (n : Nat)
  | str (s : List UInt8)
  | arr (items : Items)
  | obj (members : Members)

inductive Items
  | nil
  | cons (value : Json) (rest : Items)

inductive Members
  | nil
  | cons (key : List UInt8) (value : Json) (rest : Members)

end

def escapeByte (b : UInt8) : List UInt8 :=
  if b = 34 then [92, 34]
  else if b = 92 then [92, 92]
  else if b = 8 then [92, 98]
  else if b = 9 then [92, 116]
  else if b = 10 then [92, 110]
  else if b = 12 then [92, 102]
  else if b = 13 then [92, 114]
  else if b < 32 then [92, 117, 48, 48, digitByte (b.toNat/16), digitByte (b.toNat%16)]
  else [b]

def unescapeByte (c : UInt8) : Option UInt8 :=
  if c = 34 then some 34
  else if c = 92 then some 92
  else if c = 98 then some 8
  else if c = 116 then some 9
  else if c = 110 then some 10
  else if c = 102 then some 12
  else if c = 114 then some 13
  else none

def quote (s : List UInt8) : List UInt8 := 34::s.flatMap escapeByte ++ [34]

/-- Where the reader of a string is: between characters, behind a backslash, or with `more`
hexadecimal digits to come behind the next one. -/
inductive Escape
  | plain
  | slash
  | hex (more acc : Nat)

/-- The rest of a string, up to its closing quote. -/
def readString : Escape → List UInt8 → Option (List UInt8 × List UInt8)
  | _, [] => none
  | .plain, b::bs =>
    if b = 34 then some ([], bs)
    else if b = 92 then readString .slash bs
    else (readString .plain bs).map fun p => (b::p.1, p.2)
  | .slash, b::bs =>
    if b = 117 then readString (.hex 3 0) bs
    else (unescapeByte b).bind fun x => (readString .plain bs).map fun p => (x::p.1, p.2)
  | .hex 0 acc, b::bs =>
    (digitValue b).bind fun d => (readString .plain bs).map fun p =>
      (UInt8.ofNat (16*acc+d)::p.1, p.2)
  | .hex (more+1) acc, b::bs =>
    (digitValue b).bind fun d => readString (.hex more (16*acc+d)) bs

theorem readString_escapeByte (b : UInt8) (bs : List UInt8) :
    readString .plain (escapeByte b ++ bs) = (readString .plain bs).map fun p => (b::p.1, p.2) := by
  unfold escapeByte
  split_ifs with h1 h2 h3 h4 h5 h6 h7 h8
  iterate 7
    subst_vars
    simp [readString, unescapeByte]
  · have hhi := (digitByte_spec (b.toNat/16) (by have := UInt8.toNat_lt b; omega)).1
    have hlo := (digitByte_spec (b.toNat%16) (by omega)).1
    have h0 : digitValue 48 = some 0 := rfl
    have hb : UInt8.ofNat (16*(b.toNat/16)+b.toNat%16) = b := by
      rw [Nat.div_add_mod, UInt8.ofNat_toNat]
    simp [readString, hhi, hlo, h0, hb, -UInt8.ofNat_add]
  · simp [readString, h1, h2]

theorem escapeByte_eq {b : UInt8} (h : 32 ≤ b) (hquote : b ≠ 34) (hslash : b ≠ 92) :
    escapeByte b = [b] := by
  have hge : 32 ≤ b.toNat := UInt8.le_iff_toNat_le.mp h
  have hne : ∀ c : UInt8, c.toNat < 32 → b ≠ c := by
    intro c hc he
    rw [he] at hge
    omega
  have hnot : ¬b < 32 := by
    rw [UInt8.lt_iff_toNat_lt]
    exact Nat.not_lt.mpr hge
  simp [escapeByte, hquote, hslash, hnot, hne]

/-- A text without characters to escape grows by its quotes only. -/
theorem quote_length {s : List UInt8} (h : ∀ b ∈ s, escapeByte b = [b]) :
    (quote s).length = s.length+2 := by
  have hflat : s.flatMap escapeByte = s := by
    induction s with
    | nil => rfl
    | cons b s ih =>
      rw [List.flatMap_cons, h b List.mem_cons_self, ih fun c hc => h c (List.mem_cons_of_mem b hc)]
      rfl
  simp [quote, hflat]

theorem readString_quote (s bs : List UInt8) :
    readString .plain (s.flatMap escapeByte ++ 34::bs) = some (s, bs) := by
  induction s with
  | nil => simp [readString]
  | cons b s ih =>
    rw [List.flatMap_cons, List.append_assoc, readString_escapeByte, ih]
    rfl

mutual

/-- Compact form, without any blanks. -/
def Json.render : Json → List UInt8
  | .num n => numeral 10 n
  | .str s => quote s
  | .arr items => 91::items.render true
  | .obj ms => 123::ms.render true

def Items.render (first : Bool) : Items → List UInt8
  | .nil => [93]
  | .cons value rest => (if first then [] else [44]) ++ (value.render ++ rest.render false)

def Members.render (first : Bool) : Members → List UInt8
  | .nil => [125]
  | .cons key value rest =>
    (if first then [] else [44]) ++ (quote key ++ 58::(value.render ++ rest.render false))

end

mutual

def Json.size : Json → Nat
  | .num _ => 1
  | .str _ => 1
  | .arr items => items.size+1
  | .obj ms => ms.size+1

def Items.size : Items → Nat
  | .nil => 1
  | .cons value rest => value.size+rest.size

def Members.size : Members → Nat
  | .nil => 1
  | .cons _ value rest => value.size+rest.size+1

end

theorem Json.size_pos (j : Json) : 0 < j.size := by
  cases j <;> simp [Json.size]

theorem Items.size_pos (items : Items) : 0 < items.size := by
  cases items with
  | nil => simp [Items.size]
  | cons value rest => exact Nat.add_pos_left value.size_pos _

def expect (c : UInt8) : List UInt8 → Option (List UInt8)
  | [] => none
  | b::bs => if b = c then some bs else none

def isDigit (b : UInt8) : Bool := 48 ≤ b && b ≤ 57

mutual

def readJson : Nat → List UInt8 → Option (Json × List UInt8)
  | 0, _ => none
  | fuel+1, bs =>
    if bs.head? = some 34 then (readString .plain bs.tail).map fun p => (.str p.1, p.2)
    else if bs.head? = some 91 then (readItems fuel true bs.tail).map fun p => (.arr p.1, p.2)
    else if bs.head? = some 123 then (readMembers fuel true bs.tail).map fun p => (.obj p.1, p.2)
    else (readNumeral 10 (bs.takeWhile isDigit)).map fun n => (.num n, bs.dropWhile isDigit)

def readItems : Nat → Bool → List UInt8 → Option (Items × List UInt8)
  | 0, _, _ => none
  | fuel+1, first, bs =>
    if bs.head? = some 93 then some (.nil, bs.tail)
    else (if first then some bs else expect 44 bs).bind fun bs =>
      (readJson fuel bs).bind fun v => (readItems fuel false v.2).map fun vs =>
        (.cons v.1 vs.1, vs.2)

def readMembers : Nat → Bool → List UInt8 → Option (Members × List UInt8)
  | 0, _, _ => none
  | fuel+1, first, bs =>
    if bs.head? = some 125 then some (.nil, bs.tail)
    else (if first then some bs else expect 44 bs).bind fun bs => (expect 34 bs).bind fun bs =>
      (readString .plain bs).bind fun k => (expect 58 k.2).bind fun bs =>
        (readJson fuel bs).bind fun v => (readMembers fuel false v.2).map fun ms =>
          (.cons k.1 v.1 ms.1, ms.2)

end

/-- A whole text. -/
def parseJson (bs : List UInt8) : Option Json :=
  (readJson bs.length bs).bind fun p => if p.2 = [] then some p.1 else none

theorem takeWhile_isDigit (n : Nat) {bs : List UInt8} (h : ∀ b ∈ bs.head?, isDigit b = false) :
    (numeral 10 n ++ bs).takeWhile isDigit = numeral 10 n ∧
      (numeral 10 n ++ bs).dropWhile isDigit = bs := by
  have hd : ∀ b ∈ numeral 10 n, isDigit b = true := by
    intro b hb
    obtain ⟨d, hd, rfl⟩ := numeral_digits (by decide) (by decide) n b hb
    exact (by decide : ∀ d < 10, isDigit (digitByte d) = true) d hd
  have ht : bs.takeWhile isDigit = [] ∧ bs.dropWhile isDigit = bs := by
    cases bs with
    | nil => exact ⟨rfl, rfl⟩
    | cons b bs =>
      have hb : isDigit b = false := h b rfl
      simp [hb]
  rw [List.takeWhile_append_of_pos hd, List.dropWhile_append_of_pos hd, ht.1, ht.2]
  simp

theorem numeral_head (n : Nat) (bs : List UInt8) :
    ∃ d, d < 10 ∧ (numeral 10 n ++ bs).head? = some (digitByte d) := by
  cases hn : numeral 10 n with
  | nil => exact absurd hn (numeral_ne_nil 10 n)
  | cons b ds =>
    have hmem : b ∈ numeral 10 n := by simp [hn]
    obtain ⟨d, hd, rfl⟩ := numeral_digits (by decide) (by decide) n b hmem
    exact ⟨d, hd, rfl⟩

@[simp] theorem quote_append (s bs : List UInt8) :
    quote s ++ bs = 34::(s.flatMap escapeByte ++ 34::bs) := by
  simp [quote]

/-- The members of an object are followed by a comma or a brace. -/
theorem Members.render_false_head (ms : Members) (bs : List UInt8) :
    ∀ b ∈ (ms.render false ++ bs).head?, isDigit b = false := by
  cases ms with
  | nil =>
    simp only [Members.render]
    rintro b ⟨⟩
    rfl
  | cons key value rest =>
    simp only [Members.render]
    rintro b ⟨⟩
    rfl

/-- The items of an array are followed by a comma or a bracket. -/
theorem Items.render_false_head (items : Items) (bs : List UInt8) :
    ∀ b ∈ (items.render false ++ bs).head?, isDigit b = false := by
  cases items with
  | nil =>
    simp only [Items.render]
    rintro b ⟨⟩
    rfl
  | cons value rest =>
    simp only [Items.render]
    rintro b ⟨⟩
    rfl

/-- No value starts like the end of an array. -/
theorem Json.render_head_ne (j : Json) (bs : List UInt8) : (j.render ++ bs).head? ≠ some 93 := by
  cases j with
  | num n =>
    obtain ⟨d, hd, hhead⟩ := numeral_head n bs
    have h93 : ∀ d < 10, digitByte d ≠ 93 := by decide
    simp only [Json.render, hhead, ne_eq, Option.some.injEq, h93 d hd, not_false_eq_true]
  | str s => simp [Json.render]
  | arr items => simp [Json.render]
  | obj ms => simp [Json.render]

mutual

/-- Reading a value gives it back, provided that a number does not go on in what follows. -/
theorem readJson_render (j : Json) (fuel : Nat) (bs : List UInt8) (hf : j.size ≤ fuel)
    (h : ∀ b ∈ bs.head?, isDigit b = false) : readJson fuel (j.render ++ bs) = some (j, bs) := by
  cases fuel with
  | zero => cases j <;> simp [Json.size] at hf
  | succ fuel =>
    cases j with
    | num n =>
      obtain ⟨d, hd, hhead⟩ := numeral_head n bs
      have h34 : ∀ d < 10, digitByte d ≠ 34 ∧ digitByte d ≠ 91 ∧ digitByte d ≠ 123 := by decide
      obtain ⟨ht, hdrop⟩ := takeWhile_isDigit n h
      simp only [Json.render, readJson, hhead, Option.some.injEq, (h34 d hd).1, (h34 d hd).2.1,
        (h34 d hd).2.2, if_false, ht, hdrop, readNumeral_numeral (by decide : 2 ≤ 10) (by decide),
        Option.map_some]
    | str s => simp [Json.render, readJson, readString_quote]
    | arr items =>
      have hi := readItems_render items fuel true bs (by simpa [Json.size] using hf)
      simp [Json.render, readJson, hi]
    | obj ms =>
      have hm := readMembers_render ms fuel true bs (by simpa [Json.size] using hf)
      simp [Json.render, readJson, hm]

theorem readItems_render (items : Items) (fuel : Nat) (first : Bool) (bs : List UInt8)
    (hf : items.size ≤ fuel) :
    readItems fuel first (items.render first ++ bs) = some (items, bs) := by
  cases fuel with
  | zero => exact absurd items.size_pos (by omega)
  | succ fuel =>
    cases items with
    | nil => simp [Items.render, readItems]
    | cons value rest =>
      simp only [Items.size] at hf
      have hvalue := value.size_pos
      have hrest := rest.size_pos
      have hv := readJson_render value fuel (rest.render false ++ bs) (by omega)
        (rest.render_false_head bs)
      have hr := readItems_render rest fuel false bs (by omega)
      have hne := value.render_head_ne (rest.render false ++ bs)
      cases first with
      | true =>
        simp only [Items.render, if_true, List.nil_append, List.append_assoc, readItems, if_neg hne,
          Option.bind_some, hv, hr, Option.map_some]
      | false => simp [Items.render, readItems, expect, hv, hr]

theorem readMembers_render (ms : Members) (fuel : Nat) (first : Bool) (bs : List UInt8)
    (hf : ms.size ≤ fuel) : readMembers fuel first (ms.render first ++ bs) = some (ms, bs) := by
  cases fuel with
  | zero => cases ms <;> simp [Members.size] at hf
  | succ fuel =>
    cases ms with
    | nil => simp [Members.render, readMembers]
    | cons key value rest =>
      simp only [Members.size] at hf
      have hv := readJson_render value fuel (rest.render false ++ bs) (by omega)
        (rest.render_false_head bs)
      have hr := readMembers_render rest fuel false bs (by omega)
      cases first <;>
        simp [Members.render, readMembers, expect, readString_quote, hv, hr]

end

mutual

theorem Json.size_le_length (j : Json) : j.size ≤ j.render.length := by
  cases j with
  | num n => exact List.length_pos_of_ne_nil (numeral_ne_nil 10 n)
  | str s => simp [Json.size, Json.render, quote]
  | arr items =>
    have := items.size_le_length true
    simp only [Json.size, Json.render, List.length_cons]
    omega
  | obj ms =>
    have := ms.size_le_length true
    simp only [Json.size, Json.render, List.length_cons]
    omega

theorem Items.size_le_length (items : Items) (first : Bool) :
    items.size ≤ (items.render first).length := by
  cases items with
  | nil => simp [Items.size, Items.render]
  | cons value rest =>
    have hv := value.size_le_length
    have hr := rest.size_le_length false
    simp only [Items.size, Items.render, List.length_append]
    omega

theorem Members.size_le_length (ms : Members) (first : Bool) :
    ms.size ≤ (ms.render first).length := by
  cases ms with
  | nil => simp [Members.size, Members.render]
  | cons key value rest =>
    have hv := value.size_le_length
    have hr := rest.size_le_length false
    simp only [Members.size, Members.render, List.length_append, List.length_cons]
    omega

end

/-- Parsing undoes rendering. -/
theorem parseJson_render (j : Json) : parseJson j.render = some j := by
  have h := readJson_render j j.render.length [] j.size_le_length (by simp)
  rw [List.append_nil] at h
  simp [parseJson, h]

/-- The bytes of an ASCII text. -/
def ascii (s : String) : List UInt8 := s.toList.map fun c => UInt8.ofNat c.toNat

/-- An object with members in the given order. -/
def object (members : List (String × Json)) : Json :=
  .obj (members.foldr (fun m ms => .cons (ascii m.1) m.2 ms) .nil)

def Json.num? : Json → Option Nat
  | .num n => some n
  | _ => none

def Json.str? : Json → Option (List UInt8)
  | .str s => some s
  | _ => none

def Json.arr? : Json → Option Items
  | .arr items => some items
  | _ => none

def Json.obj? : Json → Option Members
  | .obj ms => some ms
  | _ => none

/-- The first member, which must have the given name. -/
def Members.take (name : String) : Members → Option (Json × Members)
  | .nil => none
  | .cons key value rest => if key = ascii name then some (value, rest) else none

@[simp] theorem Members.take_cons (name : String) (value : Json) (rest : Members) :
    (Members.cons (ascii name) value rest).take name = some (value, rest) := if_pos rfl

end TapTunnel.Framework
