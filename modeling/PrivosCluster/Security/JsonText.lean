import PrivosCluster.Security.Artifacts

/-!
# JSON texts

`JSON.parse` and `JSON.stringify`. How a number is read and written is left open. A surrogate
without its partner becomes the replacement character. What is written without numbers is read
back.
-/

namespace PrivosCluster.Json

open List Option

/-! ## Reading -/

def isSpace (c : Char) : Bool := c = ' ' || c = '\t' || c = '\n' || c = '\r'

def skipSpace (cs : List Char) : List Char := cs.dropWhile isSpace

def hexValue (c : Char) : Option Nat :=
  if c.isDigit then some (c.toNat - 48)
  else if 'a' ≤ c ∧ c ≤ 'f' then some (c.toNat - 87)
  else if 'A' ≤ c ∧ c ≤ 'F' then some (c.toNat - 55)
  else none

/-- The code unit of four hexadecimal digits. -/
def codeUnit (a b c d : Char) : Option Nat := do
  let a ← hexValue a
  let b ← hexValue b
  let c ← hexValue c
  let d ← hexValue d
  some (((a * 16 + b) * 16 + c) * 16 + d)

def replacement : Char := '\uFFFD'

def isHighSurrogate (unit : Nat) : Bool := 0xD800 ≤ unit && unit < 0xDC00

def isLowSurrogate (unit : Nat) : Bool := 0xDC00 ≤ unit && unit < 0xE000

/-- The character that a code unit begins, with what follows the unit. -/
def readSurrogate (high : Nat) (rest : List Char) : Char × List Char :=
  match rest with
  | '\\' :: 'u' :: a :: b :: c :: d :: rest' =>
    match codeUnit a b c d with
    | some low =>
      if isLowSurrogate low then
        (Char.ofNat (0x10000 + (high - 0xD800) * 0x400 + (low - 0xDC00)), rest')
      else (replacement, rest)
    | none => (replacement, rest)
  | _ => (replacement, rest)

/-- What follows a backslash. -/
def readEscape : List Char → Option (Char × List Char)
  | '"' :: rest => some ('"', rest)
  | '\\' :: rest => some ('\\', rest)
  | '/' :: rest => some ('/', rest)
  | 'b' :: rest => some (Char.ofNat 8, rest)
  | 'f' :: rest => some (Char.ofNat 12, rest)
  | 'n' :: rest => some ('\n', rest)
  | 'r' :: rest => some ('\r', rest)
  | 't' :: rest => some ('\t', rest)
  | 'u' :: a :: b :: c :: d :: rest =>
    (codeUnit a b c d).map fun unit ↦
      if isHighSurrogate unit then readSurrogate unit rest
      else if isLowSurrogate unit then (replacement, rest)
      else (Char.ofNat unit, rest)
  | _ => none

/-- One character of a string. -/
def readChar : List Char → Option (Char × List Char)
  | [] => none
  | c :: rest =>
    if c = '\\' then readEscape rest
    else if c.toNat < 32 then none
    else some (c, rest)

/-- The characters of a string up to its closing quote, of which there are fewer than `fuel`. -/
def readString : (fuel : Nat) → List Char → Option (List Char × List Char)
  | 0, _ => none
  | fuel + 1, cs =>
    match cs with
    | '"' :: rest => some ([], rest)
    | cs => do
      let (c, rest) ← readChar cs
      let (s, rest) ← readString fuel rest
      some (c :: s, rest)

def isNumberChar (c : Char) : Bool :=
  c.isDigit || c = '-' || c = '+' || c = '.' || c = 'e' || c = 'E'

/-- `[0-9]+` at the end of a number. -/
def isDigits (cs : List Char) : Bool := !cs.isEmpty && cs.all Char.isDigit

def isExponent : List Char → Bool
  | [] => true
  | c :: rest =>
    (c = 'e' || c = 'E') &&
      match rest with
      | '+' :: digits => isDigits digits
      | '-' :: digits => isDigits digits
      | digits => isDigits digits

def isFraction : List Char → Bool
  | '.' :: rest => !(rest.takeWhile Char.isDigit).isEmpty && isExponent (rest.dropWhile Char.isDigit)
  | rest => isExponent rest

def isUnsigned : List Char → Bool
  | '0' :: rest => isFraction rest
  | c :: rest => c.isDigit && isFraction (rest.dropWhile Char.isDigit)
  | [] => false

/-- The grammar of numbers. -/
def isNumeral : List Char → Bool
  | '-' :: rest => isUnsigned rest
  | cs => isUnsigned cs

/-- A member that repeats a name replaces the earlier value. -/
def setMember (members : List (String × Json)) (key : String) (value : Json) :
    List (String × Json) :=
  if members.any fun m ↦ m.1 = key then
    members.map fun m ↦ if m.1 = key then (key, value) else m
  else members ++ [(key, value)]

def ofMembers (members : List (String × Json)) : Json :=
  .obj (members.foldl (fun members m ↦ setMember members m.1 m.2) [])

section Read

variable (number : String → Option Rat)

def readNumber (cs : List Char) : Option (Json × List Char) :=
  let token := cs.takeWhile isNumberChar
  if isNumeral token then
    (number (String.ofList token)).map fun n ↦ (.num n, cs.dropWhile isNumberChar)
  else none

mutual

def readValue : (fuel : Nat) → List Char → Option (Json × List Char)
  | 0, _ => none
  | fuel + 1, cs =>
    match skipSpace cs with
    | '"' :: rest => do
      let (s, rest) ← readString fuel rest
      some (.str (String.ofList s), rest)
    | '[' :: rest =>
      match skipSpace rest with
      | ']' :: rest => some (.arr [], rest)
      | rest => do
        let (items, rest) ← readItems fuel rest
        some (.arr items, rest)
    | '\x7b' :: rest =>
      match skipSpace rest with
      | '\x7d' :: rest => some (.obj [], rest)
      | rest => do
        let (members, rest) ← readMembers fuel rest
        some (ofMembers members, rest)
    | 'n' :: 'u' :: 'l' :: 'l' :: rest => some (.null, rest)
    | 't' :: 'r' :: 'u' :: 'e' :: rest => some (.bool true, rest)
    | 'f' :: 'a' :: 'l' :: 's' :: 'e' :: rest => some (.bool false, rest)
    | cs => readNumber number cs

/-- The items of an array and its closing bracket. -/
def readItems : (fuel : Nat) → List Char → Option (List Json × List Char)
  | 0, _ => none
  | fuel + 1, cs => do
    let (item, rest) ← readValue fuel cs
    match skipSpace rest with
    | ',' :: rest => do
      let (items, rest) ← readItems fuel rest
      some (item :: items, rest)
    | ']' :: rest => some ([item], rest)
    | _ => none

/-- The members of an object and its closing brace. -/
def readMembers : (fuel : Nat) → List Char → Option (List (String × Json) × List Char)
  | 0, _ => none
  | fuel + 1, cs =>
    match skipSpace cs with
    | '"' :: rest => do
      let (key, rest) ← readString fuel rest
      match skipSpace rest with
      | ':' :: rest => do
        let (value, rest) ← readValue fuel rest
        match skipSpace rest with
        | ',' :: rest => do
          let (members, rest) ← readMembers fuel rest
          some ((String.ofList key, value) :: members, rest)
        | '\x7d' :: rest => some ([(String.ofList key, value)], rest)
        | _ => none
      | _ => none
    | _ => none

end

/-- `JSON.parse`, which may throw. -/
def parse (text : String) : Option Json :=
  match readValue number (text.length + 1) text.toList with
  | some (value, rest) => if skipSpace rest = [] then some value else none
  | none => none

end Read

/-! ## Writing -/

section Write

variable (numberText : Rat → String)

def quoteChars (s : String) : List Char := '"' :: s.toList.flatMap escapeChar ++ ['"']

mutual

def textChars : Json → List Char
  | .null => "null".toList
  | .bool b => if b then "true".toList else "false".toList
  | .num n => (numberText n).toList
  | .str s => quoteChars s
  | .arr items => '[' :: itemChars items ++ [']']
  | .obj members => '\x7b' :: memberChars members ++ ['\x7d']

def itemChars : List Json → List Char
  | [] => []
  | [item] => textChars item
  | item :: items => textChars item ++ ',' :: itemChars items

def memberChars : List (String × Json) → List Char
  | [] => []
  | [(key, value)] => quoteChars key ++ ':' :: textChars value
  | (key, value) :: members => quoteChars key ++ ':' :: textChars value ++ ',' :: memberChars members

end

/-- `JSON.stringify` of a value with its members in property order. -/
def stringify (value : Json) : String := String.ofList (textChars numberText value)

end Write

/-! ## Strings are read back -/

theorem hexValue_hexDigit {n : Nat} (h : n < 16) : hexValue (hexDigit n) = some n := by
  have hall : ∀ n < 16, hexValue (hexDigit n) = some n := by decide
  exact hall n h

theorem codeUnit_hexDigits {n : Nat} (h : n < 256) :
    codeUnit '0' '0' (hexDigit (n / 16)) (hexDigit (n % 16)) = some n := by
  have hzero : hexValue '0' = some 0 := by decide
  have hhigh := hexValue_hexDigit (n := n / 16) (by omega)
  have hlow := hexValue_hexDigit (n := n % 16) (by omega)
  simp only [codeUnit, hzero, hhigh, hlow, bind_eq_bind, bind_some]
  congr 1
  omega

/-- A character is read back from the way it is written in a string. -/
theorem readChar_escapeChar (c : Char) (rest : List Char) :
    readChar (escapeChar c ++ rest) = some (c, rest) := by
  unfold escapeChar
  split
  · rfl
  · rfl
  · rfl
  · rfl
  · rfl
  next hquote hbackslash _ _ _ =>
    split
    next height =>
      have hc : c = Char.ofNat 8 := by rw [← height, Char.ofNat_toNat]
      rw [hc]
      rfl
    · split
      next htwelve =>
        have hc : c = Char.ofNat 12 := by rw [← htwelve, Char.ofNat_toNat]
        rw [hc]
        rfl
      · split
        next hcontrol =>
          have hunit := codeUnit_hexDigits (n := c.toNat) (by omega)
          have hhigh : isHighSurrogate c.toNat = false := by
            simp [isHighSurrogate]
            omega
          have hlow : isLowSurrogate c.toNat = false := by
            simp [isLowSurrogate]
            omega
          simp [readChar, readEscape, hunit, hhigh, hlow]
        next hplain =>
          have hne : c ≠ '\\' := hbackslash
          simp [readChar, hne, hplain]

theorem escapeChar_head (c : Char) : ∃ first rest, escapeChar c = first :: rest ∧ first ≠ '"' := by
  unfold escapeChar
  split
  · exact ⟨_, _, rfl, by decide⟩
  · exact ⟨_, _, rfl, by decide⟩
  · exact ⟨_, _, rfl, by decide⟩
  · exact ⟨_, _, rfl, by decide⟩
  · exact ⟨_, _, rfl, by decide⟩
  next hquote _ _ _ _ =>
    split
    · exact ⟨_, _, rfl, by decide⟩
    · split
      · exact ⟨_, _, rfl, by decide⟩
      · split
        · exact ⟨_, _, rfl, by decide⟩
        · exact ⟨c, [], rfl, hquote⟩

variable {rest : List Char} {value : Json}

theorem readString_escaped {s : List Char} {fuel : Nat} (h : s.length < fuel) :
    readString fuel (s.flatMap escapeChar ++ '"' :: rest) = some (s, rest) := by
  induction s generalizing fuel with
  | nil =>
    obtain ⟨fuel, rfl⟩ := Nat.exists_eq_add_one.mpr h
    rfl
  | cons c s ih =>
    obtain ⟨fuel, rfl⟩ := Nat.exists_eq_add_one.mpr (Nat.zero_lt_of_lt h)
    have hrest := @ih fuel (by simpa using h)
    have hchar := readChar_escapeChar c (s.flatMap escapeChar ++ '"' :: rest)
    obtain ⟨first, tail, hescape, hfirst⟩ := escapeChar_head c
    rw [flatMap_cons, append_assoc]
    rw [hescape, cons_append] at hchar ⊢
    rw [readString, hchar]
    · simp [hrest]
    · exact fun _ hquote ↦ hfirst (List.cons.inj hquote).1

theorem length_le_escaped (s : List Char) : s.length ≤ (s.flatMap escapeChar).length := by
  induction s with
  | nil => exact le_rfl
  | cons c s ih =>
    obtain ⟨first, tail, hescape, -⟩ := escapeChar_head c
    rw [flatMap_cons, length_append, hescape, length_cons, length_cons]
    omega

/-! ## Values are read back -/

mutual

/-- Only numbers that are finite, and no object with two members of one name. -/
def Printable (finite : Rat → Prop) : Json → Prop
  | .null => True
  | .bool _ => True
  | .num n => finite n
  | .str _ => True
  | .arr items => PrintableItems finite items
  | .obj members => (members.map Prod.fst).Nodup ∧ PrintableMembers finite members

def PrintableItems (finite : Rat → Prop) : List Json → Prop
  | [] => True
  | item :: items => Printable finite item ∧ PrintableItems finite items

def PrintableMembers (finite : Rat → Prop) : List (String × Json) → Prop
  | [] => True
  | (_, value) :: members => Printable finite value ∧ PrintableMembers finite members

end

/-- No numbers, and no object with two members of one name. -/
abbrev Textual := Printable fun _ ↦ False

abbrev TextualMembers := PrintableMembers fun _ ↦ False

/-- The finite numbers are written as numerals, and read back from them. -/
structure NumberFormat (finite : Rat → Prop) (number : String → Option Rat)
    (numberText : Rat → String) : Prop where
  chars : ∀ n, finite n → ∀ c ∈ (numberText n).toList, isNumberChar c = true
  numeral : ∀ n, finite n → isNumeral (numberText n).toList = true
  number : ∀ n, finite n → number (numberText n) = some n

/-- No number goes on here. -/
def Delimited (rest : List Char) : Prop := ∀ c ∈ rest.head?, isNumberChar c = false

theorem delimited_cons {c : Char} (h : isNumberChar c = false) : Delimited (c :: rest) := by
  simpa [Delimited] using h

section RoundTrip

variable {finite : Rat → Prop} {number : String → Option Rat} {numberText : Rat → String}
  (hformat : NumberFormat finite number numberText)

theorem foldl_setMember (members done : List (String × Json))
    (h : ((done ++ members).map Prod.fst).Nodup) :
    members.foldl (fun members m ↦ setMember members m.1 m.2) done = done ++ members := by
  induction members generalizing done with
  | nil => simp
  | cons m members ih =>
    have hnew : (done.any fun m' ↦ m'.1 = m.1) = false := by
      rw [map_append, nodup_append] at h
      rw [List.any_eq_false]
      intro m' hm'
      have hne := h.2.2 m'.1 (List.mem_map_of_mem hm') m.1 (by simp)
      simpa using hne
    have hset : setMember done m.1 m.2 = done ++ [m] := by simp [setMember, hnew]
    rw [foldl_cons, hset, ih _ (by simpa using h)]
    simp

include hformat in
/-- How the text of a value begins. -/
theorem textChars_head (h : Printable finite value) :
    ∃ first rest, textChars numberText value = first :: rest ∧ isSpace first = false ∧
      first ≠ ']' := by
  cases value with
  | null => exact ⟨_, _, rfl, by decide⟩
  | bool b => cases b <;> exact ⟨_, _, rfl, by decide⟩
  | num n =>
    have hchars := hformat.chars n h
    have hnumeral := hformat.numeral n h
    simp only [textChars]
    cases hc : (numberText n).toList with
    | nil => simp [hc, isNumeral, isUnsigned] at hnumeral
    | cons first rest =>
      have hfirst := hchars first (by simp [hc])
      refine ⟨first, rest, rfl, ?_, ?_⟩
      · apply Bool.eq_false_iff.mpr
        intro hspace
        simp only [isSpace, Bool.or_eq_true, decide_eq_true_eq] at hspace
        obtain ((rfl | rfl) | rfl) | rfl := hspace <;> exact absurd hfirst (by decide)
      · rintro rfl
        exact absurd hfirst (by decide)
  | str s => exact ⟨'"', _, rfl, by decide⟩
  | arr items => exact ⟨'[', _, rfl, by decide⟩
  | obj members => exact ⟨'\x7b', _, rfl, by decide⟩

theorem skipSpace_cons {c : Char} (h : isSpace c = false) : skipSpace (c :: rest) = c :: rest := by
  simp [skipSpace, h]

theorem readString_quoteChars (key : String) (rest : List Char) (fuel : Nat)
    (h : (quoteChars key).length ≤ fuel + 1) :
    readString fuel (key.toList.flatMap escapeChar ++ '"' :: rest) = some (key.toList, rest) := by
  apply readString_escaped
  have hle := length_le_escaped key.toList
  simp only [quoteChars, length_append, length_cons, length_nil] at h
  omega

theorem itemChars_cons {item : Json} {items : List Json} :
    itemChars numberText (item :: items) = textChars numberText item ++
      (match items with
        | [] => []
        | items => ',' :: itemChars numberText items) := by
  cases items with
  | nil => simp [itemChars]
  | cons next items => rfl

theorem memberChars_cons {key : String} {members : List (String × Json)} :
    memberChars numberText ((key, value) :: members) =
      quoteChars key ++ ':' :: textChars numberText value ++
        (match members with
          | [] => []
          | members => ',' :: memberChars numberText members) := by
  cases members with
  | nil => simp [memberChars]
  | cons next members => rfl

include hformat

theorem readNumber_numberText {n : Rat} (h : finite n) (hrest : Delimited rest) :
    readNumber number ((numberText n).toList ++ rest) = some (.num n, rest) := by
  have hchars := hformat.chars n h
  have htake : rest.takeWhile isNumberChar = [] := by
    cases rest with
    | nil => rfl
    | cons c rest => simp [hrest c rfl]
  have hdrop : rest.dropWhile isNumberChar = rest := by
    cases rest with
    | nil => rfl
    | cons c rest => simp [hrest c rfl]
  unfold readNumber
  rw [takeWhile_append_of_pos hchars, dropWhile_append_of_pos hchars, htake, hdrop,
    append_nil, if_pos (hformat.numeral n h), String.ofList_toList, hformat.number n h]
  rfl

set_option linter.unusedSectionVars false in
mutual

theorem readValue_textChars : ∀ (value : Json), Printable finite value →
    ∀ (rest : List Char), Delimited rest → ∀ fuel, (textChars numberText value).length < fuel →
      readValue number fuel (textChars numberText value ++ rest) = some (value, rest)
  | _, _, _, _, 0, hfuel => absurd hfuel (Nat.not_lt_zero _)
  | .null, _, _, _, _ + 1, _ => rfl
  | .bool true, _, _, _, _ + 1, _ => rfl
  | .bool false, _, _, _, _ + 1, _ => rfl
  | .num n, h, rest, hrest, fuel + 1, _ => by
    have hread := readNumber_numberText hformat h hrest
    have hchars := hformat.chars n h
    have hprintable : Printable finite (.num n) := h
    obtain ⟨first, tail, htext, hspace, -⟩ := textChars_head hformat hprintable
    simp only [textChars] at htext ⊢
    have hfirst := hchars first (by simp [htext])
    rw [htext, cons_append] at hread ⊢
    rw [readValue, skipSpace_cons hspace]
    split
    iterate 6
      next heq => exact absurd ((List.cons.inj heq).1 ▸ hfirst) (by decide)
    exact hread
  | .str s, _, rest, _, fuel + 1, hfuel => by
    have hread := readString_quoteChars s rest fuel
      (by simpa [textChars] using hfuel.le)
    simp only [textChars, quoteChars, cons_append, append_assoc, nil_append]
    rw [readValue, skipSpace_cons (by decide)]
    simp only [hread, bind_eq_bind, bind_some, String.ofList_toList]
  | .arr [], _, _, _, _ + 1, _ => rfl
  | .arr (item :: items), h, rest, _, fuel + 1, hfuel => by
    have hread := readItems_itemChars (item :: items) (by simp) h rest fuel
      (by simpa [textChars] using hfuel)
    obtain ⟨first, tail, htext, hspace, hbracket⟩ := textChars_head hformat h.1
    simp only [textChars, cons_append, append_assoc, nil_append]
    rw [readValue, skipSpace_cons (by decide)]
    rw [itemChars_cons, htext] at hread ⊢
    simp only [cons_append] at hread ⊢
    rw [skipSpace_cons hspace]
    split
    next heq => exact absurd (List.cons.inj heq).1 hbracket
    · simp only [hread, bind_eq_bind, bind_some]
  | .obj [], _, _, _, _ + 1, _ => rfl
  | .obj ((key, member) :: members), h, rest, _, fuel + 1, hfuel => by
    have hread := readMembers_memberChars ((key, member) :: members) (by simp) h.2 rest fuel
      (by simpa [textChars] using hfuel)
    have hset := foldl_setMember ((key, member) :: members) [] h.1
    simp only [textChars, cons_append, append_assoc, nil_append]
    rw [readValue, skipSpace_cons (by decide)]
    rw [memberChars_cons, quoteChars] at hread ⊢
    simp only [cons_append] at hread ⊢
    rw [skipSpace_cons (by decide)]
    split
    next heq => exact absurd (List.cons.inj heq).1 (by decide)
    · simp only [hread, bind_eq_bind, bind_some, ofMembers, hset, nil_append]

theorem readItems_itemChars : ∀ (items : List Json), items ≠ [] → PrintableItems finite items →
    ∀ (rest : List Char) (fuel : Nat), (itemChars numberText items).length + 1 < fuel →
      readItems number fuel (itemChars numberText items ++ ']' :: rest) = some (items, rest)
  | _, _, _, _, 0, hfuel => absurd hfuel (Nat.not_lt_zero _)
  | [], hne, _, _, _, _ => absurd rfl hne
  | [item], _, h, rest, fuel + 1, hfuel => by
    have hread := readValue_textChars item h.1 (']' :: rest) (delimited_cons (by decide)) fuel
      (by simp only [itemChars] at hfuel; omega)
    simp only [itemChars, readItems, hread, bind_eq_bind, bind_some]
    rw [skipSpace_cons (by decide)]
    rfl
  | item :: next :: items, _, h, rest, fuel + 1, hfuel => by
    have hread := readValue_textChars item h.1
      (',' :: (itemChars numberText (next :: items) ++ ']' :: rest)) (delimited_cons (by decide)) fuel
      (by simp only [itemChars, length_append, length_cons] at hfuel; omega)
    have hrest := readItems_itemChars (next :: items) (by simp) h.2 rest fuel
      (by simp only [itemChars, length_append, length_cons] at hfuel ⊢; omega)
    simp only [itemChars, readItems, append_assoc, cons_append, hread,
      bind_eq_bind, bind_some]
    rw [skipSpace_cons (by decide)]
    simp only [hrest, bind_some]

theorem readMembers_memberChars : ∀ (members : List (String × Json)), members ≠ [] →
    PrintableMembers finite members → ∀ (rest : List Char) (fuel : Nat),
    (memberChars numberText members).length + 1 < fuel →
      readMembers number fuel (memberChars numberText members ++ '\x7d' :: rest) =
        some (members, rest)
  | _, _, _, _, 0, hfuel => absurd hfuel (Nat.not_lt_zero _)
  | [], hne, _, _, _, _ => absurd rfl hne
  | [(key, value)], _, h, rest, fuel + 1, hfuel => by
    simp only [memberChars, length_append, length_cons] at hfuel
    have hkey := readString_quoteChars key (':' :: (textChars numberText value ++ '\x7d' :: rest))
      fuel (by omega)
    have hread := readValue_textChars value h.1 ('\x7d' :: rest) (delimited_cons (by decide)) fuel
      (by omega)
    simp only [memberChars, quoteChars, append_assoc, cons_append, nil_append]
    rw [readMembers, skipSpace_cons (by decide)]
    simp only [hkey, bind_eq_bind, bind_some]
    rw [skipSpace_cons (by decide)]
    simp only [hread, bind_some]
    rw [skipSpace_cons (by decide)]
    simp only [String.ofList_toList]
  | (key, value) :: next :: members, _, h, rest, fuel + 1, hfuel => by
    simp only [memberChars, length_append, length_cons] at hfuel
    have hkey := readString_quoteChars key
      (':' :: (textChars numberText value ++
        ',' :: (memberChars numberText (next :: members) ++ '\x7d' :: rest))) fuel (by omega)
    have hread := readValue_textChars value h.1
      (',' :: (memberChars numberText (next :: members) ++ '\x7d' :: rest))
      (delimited_cons (by decide)) fuel (by omega)
    have hrest := readMembers_memberChars (next :: members) (by simp) h.2 rest fuel (by omega)
    simp only [memberChars, quoteChars, append_assoc, cons_append, nil_append]
    rw [readMembers, skipSpace_cons (by decide)]
    simp only [hkey, bind_eq_bind, bind_some]
    rw [skipSpace_cons (by decide)]
    simp only [hread, bind_some]
    rw [skipSpace_cons (by decide)]
    simp only [hrest, bind_some, String.ofList_toList]

end

/-- What is written is read back. -/
theorem parse_stringify (h : Printable finite value) :
    parse number (stringify numberText value) = some value := by
  have hread : readValue number ((stringify numberText value).length + 1)
      (textChars numberText value ++ []) = some (value, []) :=
    readValue_textChars hformat value h [] (by simp [Delimited]) _ (by simp [stringify])
  unfold parse
  rw [append_nil] at hread
  simp only [stringify, String.toList_ofList] at hread ⊢
  rw [hread]
  rfl

omit hformat

/-- A value without numbers is read back, however numbers are written. -/
theorem parse_textual (h : Textual value) :
    parse number (stringify numberText value) = some value :=
  parse_stringify ⟨fun _ h ↦ h.elim, fun _ h ↦ h.elim, fun _ h ↦ h.elim⟩ h

theorem textual_texts (texts : List String) : Textual (.arr (texts.map Json.str)) := by
  induction texts with
  | nil => trivial
  | cons text texts ih => exact ⟨trivial, ih⟩

end RoundTrip

/-! ## What is read -/

theorem printableMembers_iff {P : Rat → Prop} {members : List (String × Json)} :
    PrintableMembers P members ↔ ∀ m ∈ members, Printable P m.2 := by
  induction members with
  | nil => simp [PrintableMembers]
  | cons m members ih => simp [PrintableMembers, ih]

section

variable {P : Rat → Prop} {number : String → Option Rat} {members : List (String × Json)}
  (hnumber : ∀ token n, number token = some n → P n)

theorem printable_setMember {key : String} (h : Printable P (.obj members))
    (hvalue : Printable P value) : Printable P (.obj (setMember members key value)) := by
  obtain ⟨hnodup, hmembers⟩ := h
  rw [printableMembers_iff] at hmembers
  unfold setMember
  split
  · constructor
    · have hnames : (members.map fun m ↦ if m.1 = key then (key, value) else m).map Prod.fst =
          members.map Prod.fst := by
        rw [List.map_map]
        apply map_congr_left
        intro m _
        simp only [Function.comp_apply]
        split <;> simp_all
      rwa [hnames]
    · apply printableMembers_iff.mpr
      intro m hm
      obtain ⟨m', hm', rfl⟩ := List.mem_map.mp hm
      split
      · exact hvalue
      · exact hmembers m' hm'
  next hnew =>
    constructor
    · rw [map_append, nodup_append]
      refine ⟨hnodup, by simp, ?_⟩
      intro name hname other hother heq
      obtain ⟨m, hm, rfl⟩ := List.mem_map.mp hname
      have hkey : other = key := by simpa using hother
      exact hnew (List.any_eq_true.mpr ⟨m, hm, by simp [heq, hkey]⟩)
    · apply printableMembers_iff.mpr
      intro m hm
      obtain hm | hm := mem_append.mp hm
      · exact hmembers m hm
      · rw [mem_singleton.mp hm]
        exact hvalue

theorem printable_ofMembers (h : PrintableMembers P members) : Printable P (ofMembers members) := by
  have hfold : ∀ done, Printable P (.obj done) →
      Printable P (.obj (members.foldl (fun members m ↦ setMember members m.1 m.2) done)) := by
    induction members with
    | nil => exact fun _ hdone ↦ hdone
    | cons m members ih => exact fun done hdone ↦ ih h.2 _ (printable_setMember hdone h.1)
  exact hfold [] ⟨nodup_nil, trivial⟩

include hnumber

theorem printable_read (fuel : Nat) :
    (∀ cs value rest, readValue number fuel cs = some (value, rest) → Printable P value) ∧
    (∀ cs items rest, readItems number fuel cs = some (items, rest) → PrintableItems P items) ∧
    ∀ cs members rest, readMembers number fuel cs = some (members, rest) →
      PrintableMembers P members := by
  induction fuel with
  | zero => exact ⟨nofun, nofun, nofun⟩
  | succ fuel ih =>
    obtain ⟨hvalue, hitems, hmembers⟩ := ih
    refine ⟨fun cs value rest h ↦ ?_, fun cs items rest h ↦ ?_, fun cs members rest h ↦ ?_⟩
    · rw [readValue] at h
      split at h
      · simp only [bind_eq_bind, bind_eq_some_iff] at h
        obtain ⟨_, -, h⟩ := h
        cases h
        trivial
      · split at h
        · cases h
          trivial
        · simp only [bind_eq_bind, bind_eq_some_iff] at h
          obtain ⟨_, hread, h⟩ := h
          cases h
          exact hitems _ _ _ hread
      · split at h
        · cases h
          exact ⟨nodup_nil, trivial⟩
        · simp only [bind_eq_bind, bind_eq_some_iff] at h
          obtain ⟨_, hread, h⟩ := h
          cases h
          exact printable_ofMembers (hmembers _ _ _ hread)
      · cases h; trivial
      · cases h; trivial
      · cases h; trivial
      · unfold readNumber at h
        dsimp only at h
        split at h
        · obtain ⟨n, hn, h⟩ := map_eq_some_iff.mp h
          cases h
          exact hnumber _ n hn
        · cases h
    · rw [readItems] at h
      simp only [bind_eq_bind, bind_eq_some_iff] at h
      obtain ⟨⟨item, after⟩, hread, h⟩ := h
      split at h
      · obtain ⟨⟨items', _⟩, hread', h⟩ := bind_eq_some_iff.mp h
        cases h
        exact ⟨hvalue _ _ _ hread, hitems _ _ _ hread'⟩
      · cases h
        exact ⟨hvalue _ _ _ hread, trivial⟩
      · cases h
    · rw [readMembers] at h
      split at h
      · simp only [bind_eq_bind, bind_eq_some_iff] at h
        obtain ⟨⟨name, after⟩, -, h⟩ := h
        split at h
        · obtain ⟨⟨value, after'⟩, hread, h⟩ := bind_eq_some_iff.mp h
          split at h
          · obtain ⟨⟨members', _⟩, hread', h⟩ := bind_eq_some_iff.mp h
            cases h
            exact ⟨hvalue _ _ _ hread, hmembers _ _ _ hread'⟩
          · cases h
            exact ⟨hvalue _ _ _ hread, trivial⟩
          · cases h
        · cases h
      · cases h

/-- No object that was read has two members of one name. -/
theorem printable_of_parse {text : String} (h : parse number text = some value) :
    Printable P value := by
  unfold parse at h
  split at h
  next hread =>
    split at h
    · cases h
      exact (printable_read hnumber _).1 _ _ _ hread
    · cases h
  · cases h

end

end PrivosCluster.Json
