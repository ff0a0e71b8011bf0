import Mathlib.Algebra.GroupWithZero.Nat
import Mathlib.Data.List.Forall2
import PrivosCluster.Text.Fields
import PrivosCluster.Url.Target

/-!
# References against an origin

A reference that begins with a slash is a path on the origin, or after two slashes an authority of
its own. Whatever the parser does to a path, each segment that is left is a segment of the text or
several segments' worth of escapes short of it. The last theorem of this file says for which texts
the segments of the path are those of the text, apart from the percent-encoding.
-/

namespace Url

open List

/-! ## The parser -/

/-- A path ends before a question mark or a number sign. -/
def inPath (c : Char) : Bool := c ≠ '?' && c ≠ '#'

/-- An authority ends before a slash, a question mark or a number sign. -/
def inAuthority (c : Char) : Bool := !isSlash c && inPath c

/-- What the parser takes away before it begins. -/
def cleaned (text : List Char) : List Char :=
  (Text.strip isC0OrSpace text).filter fun c ↦ !isTabOrNewline c

def dropSlash : List Char → List Char
  | [] => []
  | c :: rest => if isSlash c then rest else c :: rest

/-- The path start state. -/
def pathStart (text : List Char) : Target where
  path := (pathState [] [] (dropSlash text)).1
  query := queryState (pathState [] [] (dropSlash text)).2

structure Location where
  host : List Char
  target : Target

/-- The authority after two slashes; further slashes before it are passed over. -/
def authorityState (hostOf : List Char → Option (List Char)) (text : List Char) :
    Option Location :=
  let body := text.dropWhile isSlash
  (hostOf (body.takeWhile inAuthority)).map fun host ↦
    ⟨host, pathStart (body.dropWhile inAuthority)⟩

/-- A reference against an origin with a special scheme and the root as its path. `hostOf` reads an
authority, and `other` the references that begin with a scheme or a segment. -/
def resolve (hostOf : List Char → Option (List Char)) (other : List Char → Option Location)
    (origin text : List Char) : Option Location :=
  match cleaned text with
  | [] => some ⟨origin, pathStart []⟩
  | c :: rest =>
    if isSlash c then
      match rest with
      | [] => some ⟨origin, pathStart [c]⟩
      | d :: more =>
        if isSlash d then authorityState hostOf more else some ⟨origin, pathStart (c :: d :: more)⟩
    else if inPath c then other (c :: rest)
    else some ⟨origin, pathStart (c :: rest)⟩

/-! ## Paths by their segments -/

/-- Segments entered in order; no slash stands after the last. -/
def enter : List (List Char) → List (List Char) → List (List Char)
  | path, [] => path
  | path, [segment] => endSegment path segment false
  | path, segment :: next :: segments => enter (endSegment path segment true) (next :: segments)

def encodeAll (s : List Char) : List Char := s.flatMap (encode pathSet)

variable {c : Char}

theorem inPath_of_isSlash (h : isSlash c) : inPath c := by
  simp only [isSlash, Bool.or_eq_true, decide_eq_true_eq] at h
  rcases h with rfl | rfl <;> decide

theorem inPath_of_inAuthority (h : inAuthority c) : inPath c := by
  unfold inAuthority at h
  rw [Bool.and_eq_true] at h
  exact h.2

/-- The path state splits the path at its slashes and enters the encoded segments. -/
theorem pathState_eq (path : List (List Char)) (segment text : List Char) :
    pathState path segment text =
      (enter path ((((text.takeWhile inPath).splitOnP isSlash).map encodeAll).modifyHead
        (segment ++ ·)), text.dropWhile inPath) := by
  induction text generalizing path segment with
  | nil => simp [pathState, enter, encodeAll]
  | cons c rest ih =>
    rw [pathState]
    cases hslash : isSlash c with
    | true =>
      rw [ih, takeWhile_cons_of_pos (inPath_of_isSlash hslash),
        dropWhile_cons_of_pos (inPath_of_isSlash hslash),
        splitOnP_cons_eq_if_modifyHead, if_pos hslash]
      cases hsplit : (rest.takeWhile inPath).splitOnP isSlash with
      | nil => exact absurd hsplit (splitOnP_ne_nil _ _)
      | cons first segments => simp [enter, encodeAll]
    | false =>
      rw [if_neg (by simp)]
      cases hpath : inPath c with
      | false =>
        have hend : c = '?' ∨ c = '#' := by
          simp only [inPath, Bool.and_eq_false_iff, decide_eq_false_iff_not, not_not] at hpath
          exact hpath
        rw [if_pos (by simpa using hend), takeWhile_cons_of_neg (by simp [hpath]),
          dropWhile_cons_of_neg (by simp [hpath])]
        simp [enter, encodeAll]
      | true =>
        have hend : ¬ (c = '?' ∨ c = '#') := by
          simp only [inPath, Bool.and_eq_true, decide_eq_true_eq] at hpath
          rintro (h | h)
          · exact hpath.1 h
          · exact hpath.2 h
        rw [if_neg (by simpa using hend), ih, takeWhile_cons_of_pos hpath,
          dropWhile_cons_of_pos hpath, splitOnP_cons_eq_if_modifyHead,
          if_neg (by simp [hslash])]
        cases hsplit : (rest.takeWhile inPath).splitOnP isSlash with
        | nil => exact absurd hsplit (splitOnP_ne_nil _ _)
        | cons first segments => simp [encodeAll]

theorem pathState_nil (path : List (List Char)) (text : List Char) :
    pathState path [] text =
      (enter path (((text.takeWhile inPath).splitOnP isSlash).map encodeAll),
        text.dropWhile inPath) := by
  rw [pathState_eq]
  cases ((text.takeWhile inPath).splitOnP isSlash).map encodeAll <;> rfl

/-! ## Encoded segments -/

/-- A text whose characters are those of `raw`, each as it is or percent-encoded. -/
inductive EncodedAs : List Char → List Char → Prop
  | nil : EncodedAs [] []
  | keep (c : Char) {raw text : List Char} : EncodedAs raw text → EncodedAs (c :: raw) (c :: text)
  | encode (c : Char) {raw text : List Char} :
    EncodedAs raw text → EncodedAs (c :: raw) (percentEncode c ++ text)

/-- The segments of a path are those of `raw`, apart from the encoding of their characters. -/
def SameSegments (raw pathname : List Char) : Prop :=
  List.Forall₂ EncodedAs (raw.splitOn '/') (pathname.splitOn '/')

variable {text : List Char}

variable {raw segment s before all kept : List Char} {segments : List (List Char)} {target : Target}

theorem EncodedAs.append {raw' text' : List Char} (h : EncodedAs raw text)
    (h' : EncodedAs raw' text') : EncodedAs (raw ++ raw') (text ++ text') := by
  induction h with
  | nil => exact h'
  | keep c _ ih => exact .keep c ih
  | encode c _ ih =>
    rw [append_assoc]
    exact .encode c ih

theorem encodedAs_encodeAll (s : List Char) : EncodedAs s (encodeAll s) := by
  induction s with
  | nil => exact .nil
  | cons c s ih =>
    have hcons : encodeAll (c :: s) = encode pathSet c ++ encodeAll s := rfl
    rw [hcons]
    unfold encode
    split
    · exact .encode c ih
    · exact .keep c ih

theorem encodedAs_flatten {texts : List (List Char)} (h : List.Forall₂ EncodedAs segments texts) :
    EncodedAs segments.flatten texts.flatten := by
  induction h with
  | nil => exact .nil
  | cons hfirst _ ih => exact hfirst.append ih

/-- The escapes that a character costs in a path, where a backslash would have to be encoded. -/
def cost (c : Char) : Nat := (encode (fun c ↦ pathSet c || c = '\\') c).count '%'

def costs (s : List Char) : Nat := (s.map cost).sum

theorem costs_append (s t : List Char) : costs (s ++ t) = costs s + costs t := by simp [costs]

theorem percent_mem_percentEncode (c : Char) : '%' ∈ percentEncode c := by
  apply mem_flatMap.mpr
  cases hbytes : String.utf8EncodeChar c with
  | nil => exact absurd hbytes String.utf8EncodeChar_ne_nil
  | cons byte bytes => exact ⟨byte, mem_cons_self, mem_cons_self⟩

theorem one_le_count_percentEncode (c : Char) : 1 ≤ (percentEncode c).count '%' :=
  one_le_count_iff.mpr (percent_mem_percentEncode c)

theorem cost_of_encoded (h : pathSet c ∨ c = '\\') :
    cost c = (percentEncode c).count '%' := by
  unfold cost encode
  rw [if_pos (by simpa using h)]

theorem cost_of_plain (h : isSegmentChar c) : cost c = [c].count '%' := by
  have hboth : pathSet c = false ∧ isSlash c = false := by simpa [isSegmentChar] using h
  have hslash : c ≠ '\\' := by
    intro hc
    rw [hc] at hboth
    exact absurd hboth.2 (by decide)
  unfold cost encode
  rw [if_neg (by simp [hboth.1, hslash])]

theorem cost_le (c : Char) : cost c ≤ (percentEncode c).count '%' := by
  unfold cost encode
  split
  · exact le_rfl
  · calc
      [c].count '%' ≤ [c].length := count_le_length
      _ = 1 := rfl
      _ ≤ _ := one_le_count_percentEncode c

/-- An encoded text in a path has the escapes that its characters cost. -/
theorem EncodedAs.costs_le (h : EncodedAs raw text) (htext : ∀ c ∈ text, isSegmentChar c) :
    costs raw ≤ text.count '%' := by
  induction h with
  | nil => exact le_rfl
  | @keep c raw text _ ih =>
    have hrest := ih fun d hd ↦ htext d (mem_cons_of_mem _ hd)
    have hc := cost_of_plain (htext c mem_cons_self)
    calc
      costs (c :: raw) = cost c + costs raw := by simp [costs]
      _ ≤ [c].count '%' + text.count '%' := by omega
      _ = (c :: text).count '%' := by rw [← count_append]; rfl
  | @encode c raw text _ ih =>
    have hrest := ih fun d hd ↦ htext d (mem_append_right _ hd)
    have hc := cost_le c
    calc
      costs (c :: raw) = cost c + costs raw := by simp [costs]
      _ ≤ (percentEncode c).count '%' + text.count '%' := by omega
      _ = (percentEncode c ++ text).count '%' := by rw [count_append]

/-! ## Escapes in a path -/

def isDot (segment : List Char) : Bool := isSingleDot segment || isDoubleDot segment

theorem count_endSegment_le (path : List (List Char)) (segment : List Char) (slash : Bool) :
    (endSegment path segment slash).flatten.count '%' ≤
      path.flatten.count '%' + if isDot segment then 0 else segment.count '%' := by
  have hdrop : path.dropLast.flatten.count '%' ≤ path.flatten.count '%' := by
    obtain ⟨last, hlast⟩ := dropLast_prefix path
    have hcount := congrArg (fun segments : List (List Char) ↦ segments.flatten.count '%') hlast
    simp only [flatten_append, count_append] at hcount
    omega
  unfold endSegment isDot
  cases hdouble : isDoubleDot segment <;> cases hsingle : isSingleDot segment <;>
    cases slash <;> simp <;> omega

/-- No segment brings other escapes than its own, and a dot segment none. -/
theorem count_enter_le (path segments : List (List Char)) :
    (enter path segments).flatten.count '%' ≤
      path.flatten.count '%' + (segments.filter fun s ↦ !isDot s).flatten.count '%' := by
  induction segments generalizing path with
  | nil => exact Nat.le_add_right _ _
  | cons segment segments ih =>
    have hsplit : ((segment :: segments).filter fun s ↦ !isDot s).flatten.count '%' =
        (if isDot segment then 0 else segment.count '%') +
          (segments.filter fun s ↦ !isDot s).flatten.count '%' := by
      rw [filter_cons]
      cases isDot segment <;> simp
    cases segments with
    | nil =>
      have hlast := count_endSegment_le path segment false
      simp only [enter]
      omega
    | cons next segments =>
      have hhead := count_endSegment_le path segment true
      have htail := ih (endSegment path segment true)
      rw [enter]
      omega

/-! ## Dot segments after the encoding -/

def dotTexts : List (List Char) :=
  [['.'], ['%', '2', 'e'], ['.', '.'], ['.', '%', '2', 'e'], ['%', '2', 'e', '.'],
    ['%', '2', 'e', '%', '2', 'e']]

theorem isDot_iff : isDot segment ↔ segment.map Char.toLower ∈ dotTexts := by
  have htexts : dotTexts = [".".toList, "%2e".toList, "..".toList, ".%2e".toList, "%2e.".toList,
    "%2e%2e".toList] := rfl
  rw [htexts]
  simp [isDot, isSingleDot, isDoubleDot, or_assoc]

theorem mem_of_toLower (h : c.toLower ∈ ['%', '.', '2', 'e']) : c ∈ ['%', '.', '2', 'e', 'E'] := by
  unfold Char.toLower at h
  split at h
  next hupper =>
    have hlow : 65 ≤ c.val.toNat := UInt32.le_iff_toNat_le.mp hupper.1
    have hhigh : c.val.toNat ≤ 90 := UInt32.le_iff_toNat_le.mp hupper.2
    have hadd : (c.val.toNat + 32) % 4294967296 ∈ [37, 46, 50, 101] := by
      have hmap := List.mem_map_of_mem (f := Char.toNat) h
      exact hmap
    simp only [mem_cons, not_mem_nil, or_false] at hadd
    have hchar : c = 'E' := Char.toNat_inj.mp (show c.val.toNat = 69 by omega)
    rw [hchar]
    decide
  next => exact mem_append_left ['E'] h

theorem plain_of_isDot (h : isDot segment) : ∀ c ∈ segment, pathSet c = false := by
  intro c hc
  have hlower : c.toLower ∈ segment.map Char.toLower := List.mem_map_of_mem hc
  have hall : ∀ d ∈ dotTexts.flatten, d ∈ ['%', '.', '2', 'e'] := all_iff_forall_prop.mp rfl
  have hmem := mem_of_toLower (hall _ (mem_flatten.mpr ⟨_, isDot_iff.mp h, hlower⟩))
  have hplain : ∀ d ∈ ['%', '.', '2', 'e', 'E'], pathSet d = false := all_iff_forall_prop.mp rfl
  exact hplain c hmem

theorem toNat_of_utf8 {byte : UInt8} {bytes : List UInt8}
    (h : String.utf8EncodeChar c = byte :: bytes) (hascii : byte.toNat < 128) :
    c.toNat = byte.toNat := by
  revert h
  fun_cases String.utf8EncodeChar
  case case1 v hv =>
    intro h
    obtain ⟨rfl, -⟩ := List.cons.inj h
    have hmod : v % 256 = v := by omega
    rw [UInt8.toNat_ofNat', hmod]
    rfl
  all_goals
    intro h
    obtain ⟨rfl, -⟩ := List.cons.inj h
    rw [UInt8.toNat_ofNat'] at hascii
    omega

theorem encodeAll_append (s t : List Char) : encodeAll (s ++ t) = encodeAll s ++ encodeAll t :=
  flatMap_append

theorem encodeAll_of_plain (h : ∀ c ∈ s, pathSet c = false) : encodeAll s = s := by
  induction s with
  | nil => rfl
  | cons c s ih =>
    have hcons : encodeAll (c :: s) = encode pathSet c ++ encodeAll s := rfl
    rw [hcons, ih fun d hd ↦ h d (mem_cons_of_mem _ hd)]
    simp [encode, h c mem_cons_self]

/-- An escape in a dot segment is the one of a dot. -/
theorem dot_of_isDot {after : List Char} {high low : Char}
    (h : isDot (before ++ '%' :: high :: low :: after)) :
    high.toLower = '2' ∧ low.toLower = 'e' := by
  have hall : ∀ text ∈ dotTexts, ∀ n < 6, text[n]? = some '%' →
      text[n + 1]? = some '2' ∧ text[n + 2]? = some 'e' := by decide
  have hmem := isDot_iff.mp h
  have hshort : ∀ text ∈ dotTexts, text.length ≤ 6 := by decide
  have hlength := hshort _ hmem
  simp only [length_append, length_map, length_cons] at hlength
  have hget := hall _ hmem before.length (by omega) (by simp)
  simpa [getElem?_append] using hget

/-- The encoding makes no dot segment. -/
theorem isDot_encodeAll (segment : List Char) : isDot (encodeAll segment) = isDot segment := by
  by_cases hplain : ∀ c ∈ segment, pathSet c = false
  · rw [encodeAll_of_plain hplain]
  · have hraw : isDot segment = false := by
      by_contra hdot
      exact hplain (plain_of_isDot (by simpa using hdot))
    rw [hraw]
    by_contra hdot
    simp only [not_forall] at hplain
    obtain ⟨c, hc, hset⟩ := hplain
    obtain ⟨before, after, rfl⟩ := append_of_mem hc
    have hset' : pathSet c := by simpa using hset
    have hcons : encodeAll (c :: after) = percentEncode c ++ encodeAll after := by
      have heq : encodeAll (c :: after) = encode pathSet c ++ encodeAll after := rfl
      rw [heq, encode, if_pos hset']
    rw [encodeAll_append, hcons] at hdot
    cases hbytes : String.utf8EncodeChar c with
    | nil => exact absurd hbytes String.utf8EncodeChar_ne_nil
    | cons byte bytes =>
      have hbyte : byte.toNat < 256 := UInt8.toNat_lt byte
      have hencode : percentEncode c = '%' :: hexDigit (byte.toNat / 16) ::
          hexDigit (byte.toNat % 16) :: bytes.flatMap (fun byte ↦
            ['%', hexDigit (byte.toNat / 16), hexDigit (byte.toNat % 16)]) := by
        unfold percentEncode
        rw [hbytes]
        rfl
      rw [hencode] at hdot
      obtain ⟨hhigh, hlow⟩ := dot_of_isDot (by simpa using hdot)
      have htwo : ∀ n < 16, (hexDigit n).toLower = '2' → n = 2 := by decide
      have hfourteen : ∀ n < 16, (hexDigit n).toLower = 'e' → n = 14 := by decide
      have hdiv := htwo _ (by omega) hhigh
      have hmod := hfourteen _ (by omega) hlow
      have hnat := toNat_of_utf8 hbytes (by omega)
      have hdotChar : c = '.' := Char.toNat_inj.mp (show c.toNat = 46 by omega)
      rw [hdotChar] at hset'
      exact absurd hset' (by decide)

theorem enter_eq {path : List (List Char)} (h : ∀ s ∈ segments, isDot s = false) :
    enter path segments = path ++ segments := by
  have hend {path : List (List Char)} {segment : List Char} {slash : Bool}
      (hdot : isDot segment = false) : endSegment path segment slash = path ++ [segment] := by
    have hboth : isSingleDot segment = false ∧ isDoubleDot segment = false := by
      simpa [isDot] using hdot
    simp [endSegment, hboth.1, hboth.2]
  induction segments generalizing path with
  | nil => simp [enter]
  | cons segment segments ih =>
    have hsegment := h segment mem_cons_self
    cases segments with
    | nil => rw [enter, hend hsegment]
    | cons next segments =>
      rw [enter, hend hsegment, ih fun s hs ↦ h s (mem_cons_of_mem _ hs)]
      simp

theorem not_slash_of_mem_encode {d : Char} (hc : c ≠ '/') (h : d ∈ encode pathSet c) : d ≠ '/' := by
  unfold encode at h
  split at h
  · obtain rfl | ⟨n, hn, rfl⟩ := mem_percentEncode h
    · decide
    · have hall : ∀ n < 16, hexDigit n ≠ '/' := by decide
      exact hall n hn
  · rw [mem_singleton.mp h]
    exact hc

/-- The encoding leaves the slashes of a path where they are. -/
theorem splitOn_encodeAll (path : List Char) :
    (encodeAll path).splitOn '/' = (path.splitOn '/').map encodeAll := by
  induction path with
  | nil => rfl
  | cons c path ih =>
    have hcons : encodeAll (c :: path) = encode pathSet c ++ encodeAll path := rfl
    rw [hcons, splitOn_cons_eq_if_modifyHead]
    cases hsplit : path.splitOn '/' with
    | nil => exact absurd hsplit (splitOn_ne_nil _ _)
    | cons segment segments =>
      rw [hsplit] at ih
      by_cases hc : c = '/'
      · have hencode : encode pathSet '/' = ['/'] := by decide
        rw [hc, hencode, singleton_append, splitOn_cons_eq_if_modifyHead, ih]
        rfl
      · rw [Text.splitOn_append fun d hd ↦ not_slash_of_mem_encode hc hd, ih,
          if_neg (by simpa using hc)]
        simp [encodeAll]

theorem flatMap_encodeAll (segments : List (List Char)) :
    (segments.map encodeAll).flatMap ('/' :: ·) = encodeAll (segments.flatMap ('/' :: ·)) := by
  induction segments with
  | nil => rfl
  | cons segment segments ih =>
    rw [map_cons, flatMap_cons, flatMap_cons, ih, encodeAll_append]
    rfl

theorem sameSegments_encodeAll (path : List Char) : SameSegments path (encodeAll path) := by
  unfold SameSegments
  rw [splitOn_encodeAll, forall₂_map_right_iff]
  exact forall₂_same.mpr fun s _ ↦ encodedAs_encodeAll s

/-- A dot segment has no character that is encoded, so the encoding does not matter for the dots. -/
theorem endSegment_encodeAll (path : List (List Char)) (segment : List Char) (slash : Bool) :
    endSegment (path.map encodeAll) (encodeAll segment) slash =
      (endSegment path segment slash).map encodeAll := by
  cases hdot : isDot segment with
  | true =>
    rw [encodeAll_of_plain (plain_of_isDot hdot)]
    have hempty : encodeAll [] = [] := rfl
    unfold endSegment
    cases isDoubleDot segment <;> cases isSingleDot segment <;> cases slash <;>
      simp [map_dropLast, hempty, encodeAll_of_plain (plain_of_isDot hdot)]
  | false =>
    have hencoded := isDot_encodeAll segment
    rw [hdot] at hencoded
    simp only [isDot, Bool.or_eq_false_iff] at hdot hencoded
    simp [endSegment, hdot.1, hdot.2, hencoded.1, hencoded.2]

theorem enter_encodeAll (path segments : List (List Char)) :
    enter (path.map encodeAll) (segments.map encodeAll) = (enter path segments).map encodeAll := by
  induction segments generalizing path with
  | nil => rfl
  | cons segment segments ih =>
    cases segments with
    | nil => exact endSegment_encodeAll path segment false
    | cons next segments =>
      rw [map_cons, map_cons, enter, enter, endSegment_encodeAll, ← map_cons, ih]

theorem length_enter_le (path segments : List (List Char)) :
    (enter path segments).length ≤ path.length + segments.length := by
  have hend (path : List (List Char)) (segment : List Char) (slash : Bool) :
      (endSegment path segment slash).length ≤ path.length + 1 := by
    unfold endSegment
    cases isDoubleDot segment <;> cases isSingleDot segment <;> cases slash <;> simp
    all_goals omega
  induction segments generalizing path with
  | nil => exact Nat.le_add_right _ _
  | cons segment segments ih =>
    cases segments with
    | nil => exact hend path segment false
    | cons next segments =>
      have hfirst := hend path segment true
      have hrest := ih (endSegment path segment true)
      rw [enter]
      simp only [length_cons] at hrest ⊢
      omega

/-! ## What the parser reads -/

def pathOf (text : List Char) : List Char := text.takeWhile inPath

theorem parse_eq (text : List Char) :
    parse text = match (text.rdropWhile isC0OrSpace).filter fun c ↦ !isTabOrNewline c with
      | [] => some (pathStart [])
      | c :: rest =>
        if isSlash c || c = '?' || c = '#' then some (pathStart (c :: rest)) else none := by
  unfold parse
  cases (text.rdropWhile isC0OrSpace).filter fun c ↦ !isTabOrNewline c with
  | nil => rfl
  | cons c rest => rfl

section Resolve

variable {hostOf : List Char → Option (List Char)} {other : List Char → Option Location}
  {origin text : List Char} {loc : Location}

theorem cleaned_eq (hroot : text.head? = some '/') :
    cleaned text = (text.rdropWhile isC0OrSpace).filter fun c ↦ !isTabOrNewline c := by
  cases text with
  | nil => cases hroot
  | cons c rest =>
    have hc : c = '/' := Option.some.inj hroot
    have hblank : ¬ isC0OrSpace c := by
      rw [hc]
      decide
    unfold cleaned Text.strip
    rw [dropWhile_cons_of_neg hblank]

theorem head?_cleaned (hroot : text.head? = some '/') : ∃ rest, cleaned text = '/' :: rest := by
  cases text with
  | nil => cases hroot
  | cons c rest =>
    have hc : c = '/' := Option.some.inj hroot
    subst hc
    have hstop : ∀ d, ['/'].getLast? = some d → isC0OrSpace d = false := by rintro _ ⟨⟩; rfl
    have hdrop : ('/' :: rest).rdropWhile isC0OrSpace = '/' :: rest.rdropWhile isC0OrSpace :=
      Text.rdropWhile_append_of_stop (s := rest) hstop
    rw [cleaned_eq hroot, hdrop]
    exact ⟨_, filter_cons_of_pos (by decide)⟩

theorem dropSlash_suffix (text : List Char) :
    ∃ before, text = before ++ dropSlash text ∧ ∀ c ∈ before, isSlash c := by
  cases text with
  | nil => exact ⟨[], rfl, by simp⟩
  | cons c rest =>
    cases hc : isSlash c with
    | true => exact ⟨[c], by simp [dropSlash, hc], by simp [hc]⟩
    | false => exact ⟨[], by simp [dropSlash, hc], by simp⟩

theorem pathStart_path (text : List Char) : (pathStart text).path =
    enter [] (((pathOf (dropSlash text)).splitOnP isSlash).map encodeAll) := by
  have hstate := pathState_nil [] (dropSlash text)
  exact congrArg Prod.fst hstate

/-- A path on the origin, or an authority after two slashes. -/
theorem resolve_cases (hroot : text.head? = some '/')
    (h : resolve hostOf other origin text = some loc) :
    (∃ rest, cleaned text = '/' :: rest ∧ (∀ d, rest.head? = some d → isSlash d = false) ∧
        loc = ⟨origin, pathStart ('/' :: rest)⟩) ∨
      ∃ d more, cleaned text = '/' :: d :: more ∧ isSlash d ∧
        authorityState hostOf more = some loc := by
  obtain ⟨rest, hclean⟩ := head?_cleaned hroot
  have hslash : isSlash '/' := by decide
  unfold resolve at h
  rw [hclean] at h
  dsimp only at h
  rw [if_pos hslash] at h
  cases rest with
  | nil => exact .inl ⟨[], hclean, by simp, (Option.some.inj h).symm⟩
  | cons d more =>
    dsimp only at h
    cases hd : isSlash d with
    | true =>
      rw [if_pos hd] at h
      exact .inr ⟨d, more, hclean, hd, h⟩
    | false =>
      rw [if_neg (by simp [hd])] at h
      apply Or.inl
      refine ⟨d :: more, hclean, ?_, (Option.some.inj h).symm⟩
      intro d' hd'
      rw [← Option.some.inj hd']
      exact hd

theorem authorityState_target (h : authorityState hostOf text = some loc) :
    ∃ before rest, text = before ++ rest ∧ (∀ c ∈ before, inPath c) ∧
      loc.target = pathStart rest := by
  obtain ⟨host, -, rfl⟩ := Option.map_eq_some_iff.mp h
  have hslashes := takeWhile_append_dropWhile (p := isSlash) (l := text)
  have hname := takeWhile_append_dropWhile (p := inAuthority) (l := text.dropWhile isSlash)
  refine ⟨text.takeWhile isSlash ++ (text.dropWhile isSlash).takeWhile inAuthority,
    (text.dropWhile isSlash).dropWhile inAuthority, ?_, ?_, rfl⟩
  · rw [append_assoc, hname, hslashes]
  · intro c hc
    obtain hc | hc := mem_append.mp hc
    · exact inPath_of_isSlash (mem_takeWhile_imp hc)
    · exact inPath_of_inAuthority (mem_takeWhile_imp hc)

/-- Wherever the path begins, it is the rest of the text's own path. -/
theorem resolve_target (hroot : text.head? = some '/')
    (h : resolve hostOf other origin text = some loc) :
    ∃ before rest, cleaned text = before ++ rest ∧ (∀ c ∈ before, inPath c) ∧
      loc.target = pathStart rest := by
  obtain ⟨rest, hclean, -, rfl⟩ | ⟨d, more, hclean, hd, hauthority⟩ := resolve_cases hroot h
  · exact ⟨[], '/' :: rest, hclean, by simp, rfl⟩
  · obtain ⟨before, rest, hmore, hbefore, htarget⟩ := authorityState_target hauthority
    refine ⟨'/' :: d :: before, rest, by rw [hclean, hmore]; rfl, ?_, htarget⟩
    intro c hc
    obtain rfl | hc := mem_cons.mp hc
    · decide
    obtain rfl | hc := mem_cons.mp hc
    · exact inPath_of_isSlash hd
    · exact hbefore c hc

end Resolve

/-! ## Texts whose segments the parser keeps -/

theorem pathStart_segments (text : List Char) :
    (∀ s ∈ (pathStart text).path, IsSegment s) ∧ (pathStart text).path ≠ [] :=
  pathState_segments (dropSlash text) (fun s (hs : s ∈ []) ↦ nomatch hs)
    fun d (hd : d ∈ []) ↦ nomatch hd

/-- The path of a serialized target is its pathname. -/
theorem pathOf_serialize (h : ∀ s ∈ target.path, IsSegment s) :
    pathOf target.serialize = target.pathname := by
  have hall : ∀ c ∈ target.pathname, inPath c := by
    intro c hc
    obtain ⟨segment, hsegment, hc⟩ := mem_flatMap.mp hc
    obtain rfl | hc := mem_cons.mp hc
    · decide
    · have hchar := (h segment hsegment).chars c hc
      by_contra hend
      have hend' : c = '?' ∨ c = '#' := by
        simp only [inPath, Bool.and_eq_true, decide_eq_true_eq, not_and_or, not_not] at hend
        exact hend
      obtain rfl | rfl := hend'
      · exact absurd hchar (by decide)
      · exact absurd hchar (by decide)
  have hsearch : pathOf target.search = [] := by
    unfold Target.search
    split
    · rfl
    · exact takeWhile_cons_of_neg (by decide)
  unfold Target.serialize pathOf
  unfold pathOf at hsearch
  rw [takeWhile_append_of_pos hall, hsearch, append_nil]

theorem splitOn_pathname (h : ∀ s ∈ target.path, '/' ∉ s) :
    target.pathname.splitOn '/' = [] :: target.path := by
  have hjoin : ['/'].intercalate ([] :: target.path) = target.pathname :=
    Text.intercalate_cons [] target.path
  rw [← hjoin]
  apply splitOn_intercalate
  · intro s hs
    obtain rfl | hs := mem_cons.mp hs
    · exact not_mem_nil
    · exact h s hs
  · exact cons_ne_nil _ _

theorem not_slash_of_isSegment (h : IsSegment segment) : '/' ∉ segment := by
  intro hmem
  exact absurd (h.chars '/' hmem) (by decide)

/-- A path has the escapes that the characters of its segments cost. -/
theorem costs_le_of_sameSegments (h : SameSegments raw (pathStart text).pathname) :
    costs (raw.filter fun c ↦ !(c == '/')) ≤ (pathStart text).path.flatten.count '%' := by
  have hsegments := (pathStart_segments text).1
  have hflat := encodedAs_flatten h
  rw [splitOn_pathname fun s hs ↦ not_slash_of_isSegment (hsegments s hs),
    splitOn_eq_splitOnP, Text.flatten_splitOnP, flatten_cons] at hflat
  apply hflat.costs_le
  intro c hc
  obtain ⟨segment, hsegment, hc⟩ := mem_flatten.mp hc
  exact (hsegments segment hsegment).chars c hc

theorem count_encodeAll (h : ∀ c ∈ s, isSlash c = false) : (encodeAll s).count '%' = costs s := by
  induction s with
  | nil => rfl
  | cons c s ih =>
    have hc : c ≠ '\\' := by
      intro heq
      have hslash := h c mem_cons_self
      rw [heq] at hslash
      exact absurd hslash (by decide)
    have hcost : (encode pathSet c).count '%' = cost c := by simp [cost, encode, hc]
    have hcons : encodeAll (c :: s) = encode pathSet c ++ encodeAll s := rfl
    rw [hcons, count_append, hcost, ih fun d hd ↦ h d (mem_cons_of_mem _ hd)]
    simp [costs]

theorem flatten_map_encodeAll (segments : List (List Char)) :
    (segments.map encodeAll).flatten = encodeAll segments.flatten := by
  induction segments with
  | nil => rfl
  | cons segment segments ih =>
    rw [map_cons, flatten_cons, flatten_cons, encodeAll_append, ih]

theorem flatten_filter_isDot (segments : List (List Char)) :
    (segments.flatten.count '%') = (segments.filter fun s ↦ !isDot s).flatten.count '%' +
      (segments.filter isDot).flatten.count '%' := by
  induction segments with
  | nil => rfl
  | cons segment segments ih =>
    rw [filter_cons, filter_cons]
    cases isDot segment <;> simp [ih] <;> omega

/-- The escapes of the segments are at least those of the path and of the dot segments. -/
theorem count_pathStart_le (text : List Char) :
    (pathStart text).path.flatten.count '%' +
        ((((pathOf (dropSlash text)).splitOnP isSlash).map encodeAll).filter
          isDot).flatten.count '%' ≤
      costs ((pathOf (dropSlash text)).filter fun c ↦ !isSlash c) := by
  have hle := count_enter_le [] (((pathOf (dropSlash text)).splitOnP isSlash).map encodeAll)
  have hall := flatten_filter_isDot (((pathOf (dropSlash text)).splitOnP isSlash).map encodeAll)
  have hcosts : (((pathOf (dropSlash text)).splitOnP isSlash).map encodeAll).flatten.count '%' =
      costs ((pathOf (dropSlash text)).filter fun c ↦ !isSlash c) := by
    rw [flatten_map_encodeAll, Text.flatten_splitOnP]
    apply count_encodeAll
    simp
  rw [← pathStart_path] at hle
  simp only [flatten_nil, count_nil] at hle
  omega

theorem cost_le_costs (h : c ∈ s) : cost c ≤ costs s := by
  obtain ⟨before, after, rfl⟩ := append_of_mem h
  simp [costs]
  omega

theorem costs_le_of_sublist (h : kept.Sublist all) : costs kept ≤ costs all := by
  induction h with
  | slnil => exact le_rfl
  | cons c _ ih =>
    simp only [costs, map_cons, sum_cons] at ih ⊢
    omega
  | cons_cons c _ ih =>
    simp only [costs, map_cons, sum_cons] at ih ⊢
    omega

/-- Only characters without a cost are left out at no cost. -/
theorem cost_eq_zero (hsub : kept.Sublist all) (h : costs all ≤ costs kept) (hc : c ∈ all)
    (hkept : c ∉ kept) : cost c = 0 := by
  have hsame : (kept.filter fun d ↦ decide (d ≠ c)) = kept := by
    apply filter_eq_self.mpr
    intro d hd
    have hne : d ≠ c := fun heq ↦ hkept (heq ▸ hd)
    simpa using hne
  have hle : costs kept ≤ costs (all.filter fun d ↦ decide (d ≠ c)) := by
    rw [← hsame]
    exact costs_le_of_sublist (hsub.filter _)
  obtain ⟨before, after, rfl⟩ := append_of_mem hc
  have hpart (s : List Char) : costs (s.filter fun d ↦ decide (d ≠ c)) ≤ costs s :=
    costs_le_of_sublist filter_sublist
  have hbefore := hpart before
  have hafter := hpart after
  have hcons : costs (c :: after) = cost c + costs after := by simp [costs]
  rw [costs_append] at h
  rw [filter_append, filter_cons_of_neg (by simp), costs_append] at hle
  omega

theorem one_le_cost (h : pathSet c ∨ c = '\\') : 1 ≤ cost c := by
  rw [cost_of_encoded h]
  exact one_le_count_percentEncode c

theorem pathSet_of_isC0OrSpace (h : isC0OrSpace c) : pathSet c := by
  have hle : c.toNat ≤ 0x20 := by simpa [isC0OrSpace] using h
  by_cases hspace : c = ' '
  · rw [hspace]
    decide
  · have hne : c.toNat ≠ 0x20 := fun heq ↦ hspace (Char.toNat_inj.mp heq)
    have hlt : c.toNat ≤ 0x1F := by omega
    simp [pathSet, querySet, c0ControlSet, hlt]

theorem isC0OrSpace_of_isTabOrNewline (h : isTabOrNewline c) : isC0OrSpace c := by
  simp only [isTabOrNewline, Bool.or_eq_true, decide_eq_true_eq] at h
  rcases h with (rfl | rfl) | rfl <;> decide

theorem inPath_of_isC0OrSpace (h : isC0OrSpace c) : inPath c := by
  have hne (d : Char) (hd : isC0OrSpace d = false) : c ≠ d := by
    intro heq
    rw [heq, hd] at h
    cases h
  simp [inPath, hne '?' (by decide), hne '#' (by decide)]

/-- Blanks at the end of a text belong to its path only when it is nothing but a path. -/
theorem pathOf_rdropWhile (text : List Char) :
    ∃ lost, pathOf text = pathOf (text.rdropWhile isC0OrSpace) ++ lost ∧
      (∀ c ∈ lost, isC0OrSpace c) ∧ (lost = [] ∨ pathOf text = text) ∧
      (pathOf text = text → lost = [] → text.rdropWhile isC0OrSpace = text) := by
  have hsplit := rdropWhile_append_rtakeWhile (p := isC0OrSpace) (l := text)
  have hblank : ∀ c ∈ text.rtakeWhile isC0OrSpace, isC0OrSpace c :=
    fun c hc ↦ mem_rtakeWhile_imp hc
  by_cases hall : ∀ c ∈ text.rdropWhile isC0OrSpace, inPath c
  · have hend : ∀ c ∈ text, inPath c := by
      intro c hc
      rw [← hsplit] at hc
      obtain hc | hc := mem_append.mp hc
      · exact hall c hc
      · exact inPath_of_isC0OrSpace (hblank c hc)
    refine ⟨text.rtakeWhile isC0OrSpace, ?_, hblank, .inr (takeWhile_eq_self_iff.mpr hend), ?_⟩
    · unfold pathOf
      rw [takeWhile_eq_self_iff.mpr hall, takeWhile_eq_self_iff.mpr hend, hsplit]
    · intro _ hlost
      rw [hlost, append_nil] at hsplit
      exact hsplit
  · simp only [not_forall] at hall
    obtain ⟨c, hc, hpath⟩ := hall
    have hstop : inPath c = false := by simpa using hpath
    refine ⟨[], ?_, by simp, .inl rfl, ?_⟩
    · rw [append_nil]
      nth_rewrite 1 [← hsplit]
      exact Text.takeWhile_append_of_mem hc hstop
    · intro htext _
      have hmem : c ∈ pathOf text := by
        rw [htext, ← hsplit]
        exact mem_append_left _ hc
      have hinside : inPath c := mem_takeWhile_imp hmem
      rw [hstop] at hinside
      cases hinside

theorem pathOf_filter (text : List Char) :
    pathOf (text.filter fun c ↦ !isTabOrNewline c) =
      (pathOf text).filter fun c ↦ !isTabOrNewline c := by
  unfold pathOf
  rw [takeWhile_filter]
  congr 2
  funext c
  cases hc : isTabOrNewline c with
  | true => simp [inPath_of_isC0OrSpace (isC0OrSpace_of_isTabOrNewline hc)]
  | false => simp

theorem pathOf_cleaned (hroot : text.head? = some '/') :
    pathOf (cleaned text) =
      (pathOf (text.rdropWhile isC0OrSpace)).filter fun c ↦ !isTabOrNewline c := by
  rw [cleaned_eq hroot, pathOf_filter]

/-- Cleaning a text takes nothing from a path without tabs, newlines and blanks at the end. -/
theorem pathOf_clean (hchars : ∀ c ∈ pathOf text, isTabOrNewline c = false)
    (hlast : ∀ c, text.getLast? = some c → pathOf text = text → isC0OrSpace c = false) :
    pathOf ((text.rdropWhile isC0OrSpace).filter fun c ↦ !isTabOrNewline c) = pathOf text := by
  obtain ⟨lost, hsplit, hblank, hwhole, -⟩ := pathOf_rdropWhile text
  have hlost : lost = [] := by
    obtain hlost | htext := hwhole
    · exact hlost
    · by_contra hne
      have hget : text.getLast? = some (lost.getLast hne) := by
        nth_rewrite 1 [← htext]
        rw [hsplit, getLast?_append, getLast?_eq_some_getLast hne]
        rfl
      have hspace := hblank _ (getLast_mem hne)
      rw [hlast _ hget htext] at hspace
      cases hspace
  rw [hlost, append_nil] at hsplit
  rw [pathOf_filter, ← hsplit]
  apply filter_eq_self.mpr
  intro c hc
  simp [hchars c hc]

/-- A text that the parser writes as it is, segment for segment. -/
structure Plain (text : List Char) : Prop where
  chars : ∀ c ∈ pathOf text, c ≠ '\\' ∧ isTabOrNewline c = false
  segments : ∀ s ∈ (pathOf text).splitOn '/', isDot s = false
  last : ∀ c, text.getLast? = some c → pathOf text = text → isC0OrSpace c = false

section Plain

variable {hostOf : List Char → Option (List Char)} {other : List Char → Option Location}
  {origin text : List Char} {loc : Location}

theorem pathOf_append {rest : List Char} (h : ∀ c ∈ before, inPath c) :
    pathOf (before ++ rest) = before ++ pathOf rest := takeWhile_append_of_pos h

/-- Only texts without anything to clean or to turn around keep their segments. -/
theorem clean_of_sameSegments (hroot : text.head? = some '/')
    (h : resolve hostOf other origin text = some loc)
    (hsame : SameSegments (pathOf text) loc.target.pathname) :
    (∀ c ∈ pathOf text, c ≠ '\\' ∧ isTabOrNewline c = false) ∧
      ∀ c, text.getLast? = some c → pathOf text = text → isC0OrSpace c = false := by
  obtain ⟨before, rest, hclean, hbefore, htarget⟩ := resolve_target hroot h
  obtain ⟨lost, hsplit, hblank, -, hkept⟩ := pathOf_rdropWhile text
  obtain ⟨slashes, hdrop, hslashes⟩ := dropSlash_suffix rest
  rw [htarget] at hsame
  have hcosts := (costs_le_of_sameSegments hsame).trans
    ((Nat.le_add_right _ _).trans (count_pathStart_le rest))
  have hpath : pathOf (cleaned text) = before ++ (slashes ++ pathOf (dropSlash rest)) := by
    rw [hclean, pathOf_append hbefore]
    nth_rewrite 1 [hdrop]
    rw [pathOf_append fun c hc ↦ inPath_of_isSlash (hslashes c hc)]
  rw [pathOf_cleaned hroot] at hpath
  -- The characters that reach the path state; none of them is a slash, a tab or a newline.
  have hread : (pathOf (dropSlash rest)).Sublist
      ((pathOf (text.rdropWhile isC0OrSpace)).filter fun c ↦ !isTabOrNewline c) := by
    rw [hpath]
    exact (sublist_append_right _ _).trans (sublist_append_right _ _)
  have hleft : ∀ c ∈ (pathOf (dropSlash rest)).filter fun c ↦ !isSlash c,
      isTabOrNewline c = false ∧ isSlash c = false := by
    intro c hc
    have hboth := mem_filter.mp hc
    have htab := (mem_filter.mp (hread.subset hboth.1)).2
    exact ⟨by simpa using htab, by simpa using hboth.2⟩
  have hsub : ((pathOf (dropSlash rest)).filter fun c ↦ !isSlash c).Sublist
      ((pathOf (text.rdropWhile isC0OrSpace)).filter fun c ↦ !(c == '/')) := by
    have hslash : ∀ c : Char, (!isSlash c) = true → (!(c == '/')) = true := by
      intro c hc
      by_contra heq
      have hc' : c = '/' := by simpa using heq
      rw [hc'] at hc
      exact absurd hc (by decide)
    have hkeep := monotone_filter_right (pathOf (dropSlash rest)) hslash
    exact hkeep.trans ((hread.trans filter_sublist).filter _)
  have hle := costs_le_of_sublist hsub
  rw [hsplit, filter_append, costs_append] at hcosts
  have hlost : lost = [] := by
    by_contra hne
    obtain ⟨c, hc⟩ := exists_mem_of_ne_nil lost hne
    have hc' : c ≠ '/' := by
      intro heq
      have hspace := hblank c hc
      rw [heq] at hspace
      exact absurd hspace (by decide)
    have hmem : c ∈ lost.filter fun c ↦ !(c == '/') := mem_filter.mpr ⟨hc, by simpa using hc'⟩
    have hcost := cost_le_costs hmem
    have hone := one_le_cost (.inl (pathSet_of_isC0OrSpace (hblank c hc)))
    omega
  rw [hlost, append_nil] at hsplit
  constructor
  · intro c hc
    rw [hsplit] at hc
    have hcharged (hc' : c ≠ '/') (hcost : 1 ≤ cost c)
        (hout : isTabOrNewline c = true ∨ isSlash c = true) : False := by
      have hmem : c ∈ (pathOf (text.rdropWhile isC0OrSpace)).filter fun c ↦ !(c == '/') :=
        mem_filter.mpr ⟨hc, by simpa using hc'⟩
      have hnot : c ∉ (pathOf (dropSlash rest)).filter fun c ↦ !isSlash c := by
        intro hmem
        have hboth := hleft c hmem
        obtain hout | hout := hout
        · rw [hboth.1] at hout
          cases hout
        · rw [hboth.2] at hout
          cases hout
      have hzero := cost_eq_zero hsub (by omega) hmem hnot
      omega
    constructor
    · intro heq
      exact hcharged (by rw [heq]; decide) (one_le_cost (.inr heq)) (.inr (by rw [heq]; decide))
    · by_contra htab
      have htab' : isTabOrNewline c = true := by simpa using htab
      have hspace := isC0OrSpace_of_isTabOrNewline htab'
      refine hcharged ?_ (one_le_cost (.inl (pathSet_of_isC0OrSpace hspace))) (.inl htab')
      intro heq
      rw [heq] at htab'
      exact absurd htab' (by decide)
  · intro c hlast htext
    have hself := hkept htext hlost
    rw [← hself] at hlast
    exact Text.blank_of_getLast?_rdropWhile hlast

/-- A clean text names no host: its path is resolved against the origin. -/
theorem resolve_clean (hroot : text.head? = some '/') (hdouble : ¬ ['/', '/'] <:+: pathOf text)
    (hchars : ∀ c ∈ pathOf text, c ≠ '\\' ∧ isTabOrNewline c = false)
    (hlast : ∀ c, text.getLast? = some c → pathOf text = text → isC0OrSpace c = false)
    (h : resolve hostOf other origin text = some loc) :
    ∃ rest, pathOf text = '/' :: pathOf rest ∧ loc.target = pathStart ('/' :: rest) := by
  have hpath : pathOf (cleaned text) = pathOf text := by
    rw [cleaned_eq hroot]
    exact pathOf_clean (fun c hc ↦ (hchars c hc).2) hlast
  have hslash : inPath '/' = true := by decide
  obtain ⟨rest, hclean, -, rfl⟩ | ⟨d, more, hclean, hd, -⟩ := resolve_cases hroot h
  · refine ⟨rest, ?_, rfl⟩
    rw [← hpath, hclean]
    exact takeWhile_cons_of_pos hslash
  · exfalso
    apply hdouble
    have htext : pathOf text = '/' :: d :: pathOf more := by
      rw [← hpath, hclean]
      unfold pathOf
      rw [takeWhile_cons_of_pos hslash, takeWhile_cons_of_pos (inPath_of_isSlash hd)]
    have hd' : d = '/' := by
      have hback := (hchars d (by rw [htext]; simp)).1
      simp only [isSlash, Bool.or_eq_true, decide_eq_true_eq] at hd
      exact hd.resolve_right hback
    rw [htext, hd']
    exact ⟨[], pathOf more, rfl⟩

theorem splitOn_of_clean {path : List Char} (h : ∀ c ∈ path, c ≠ '\\') :
    path.splitOnP isSlash = path.splitOn '/' := by
  apply Text.splitOnP_congr
  intro c hc
  have hback := h c hc
  simp [isSlash, hback, Bool.beq_eq_decide_eq]

/-- A text that keeps its segments names no host. -/
theorem single_of_sameSegments (hroot : text.head? = some '/')
    (h : resolve hostOf other origin text = some loc)
    (hsame : SameSegments (pathOf text) loc.target.pathname) :
    ∃ rest, cleaned text = '/' :: rest ∧ (∀ d, rest.head? = some d → isSlash d = false) ∧
      loc = ⟨origin, pathStart ('/' :: rest)⟩ := by
  obtain hrest | ⟨d, more, hclean, hd, hauthority⟩ := resolve_cases hroot h
  · exact hrest
  · obtain ⟨hchars, hlast⟩ := clean_of_sameSegments hroot h hsame
    obtain ⟨before, rest, hmore, hbefore, htarget⟩ := authorityState_target hauthority
    obtain ⟨slashes, hdrop, hslashes⟩ := dropSlash_suffix rest
    have hslash : inPath '/' = true := by decide
    have hpath : pathOf text =
        '/' :: d :: (before ++ (slashes ++ pathOf (dropSlash rest))) := by
      rw [← pathOf_clean (fun c hc ↦ (hchars c hc).2) hlast, ← cleaned_eq hroot, hclean, hmore]
      unfold pathOf
      rw [takeWhile_cons_of_pos hslash, takeWhile_cons_of_pos (inPath_of_isSlash hd),
        takeWhile_append_of_pos hbefore]
      nth_rewrite 1 [hdrop]
      rw [takeWhile_append_of_pos fun c hc ↦ inPath_of_isSlash (hslashes c hc)]
    rw [htarget] at hsame
    have hlength := hsame.length_eq
    have hsegments := (pathStart_segments rest).1
    have henter := length_enter_le [] (((pathOf (dropSlash rest)).splitOnP isSlash).map encodeAll)
    rw [← pathStart_path, length_nil, length_map, Text.length_splitOnP] at henter
    rw [splitOn_pathname fun s hs ↦ not_slash_of_isSegment (hsegments s hs), length_cons,
      ← splitOn_of_clean fun c hc ↦ (hchars c hc).1, Text.length_splitOnP, hpath] at hlength
    have hroot' : isSlash '/' = true := by decide
    simp only [countP_cons, countP_append, hd, hroot', if_true] at hlength
    omega

theorem splitOn_root (path : List Char) : ('/' :: path).splitOn '/' = [] :: path.splitOn '/' := by
  rfl

theorem eq_of_toLower {c d : Char} (hd : d ∈ ['%', '.']) (h : c.toLower = d) : c = d := by
  have hlower : c.toLower ∈ ['%', '.', '2', 'e'] := by
    rw [h]
    exact mem_append_left ['2', 'e'] hd
  have hall : ∀ c ∈ ['%', '.', '2', 'e', 'E'], ∀ d ∈ ['%', '.'], c.toLower = d → c = d := by simp
  exact hall c (mem_of_toLower hlower) d hd h

/-- A dot segment is written out, or has an escape. -/
theorem percent_of_isDot (h : isDot segment = true) (hsingle : segment ≠ ['.'])
    (hdouble : segment ≠ ['.', '.']) : '%' ∈ segment := by
  have hmem := isDot_iff.mp h
  have hpercent : '%' ∈ segment.map Char.toLower → '%' ∈ segment := by
    intro hlower
    obtain ⟨c, hc, heq⟩ := List.mem_map.mp hlower
    rwa [eq_of_toLower (by simp) heq] at hc
  simp only [dotTexts, mem_cons, not_mem_nil, or_false] at hmem
  obtain hmem | hmem | hmem | hmem | hmem | hmem := hmem
  · obtain ⟨c, rfl, hc⟩ := map_eq_singleton_iff.mp hmem
    exact absurd (congrArg (fun c ↦ [c]) (eq_of_toLower (by simp) hc)) hsingle
  · exact hpercent (by rw [hmem]; decide)
  · cases segment with
    | nil => cases hmem
    | cons c rest =>
      obtain ⟨hc, hrest⟩ := List.cons.inj hmem
      obtain ⟨d, rfl, hd⟩ := map_eq_singleton_iff.mp hrest
      exfalso
      apply hdouble
      rw [eq_of_toLower (by simp) hc, eq_of_toLower (by simp) hd]
  · exact hpercent (by rw [hmem]; decide)
  · exact hpercent (by rw [hmem]; decide)
  · exact hpercent (by rw [hmem]; decide)

/-- The parser keeps the segments of a path without written-out dot segments and empty segments
exactly when the text is plain. -/
theorem sameSegments_iff (hroot : text.head? = some '/') (hdouble : ¬ ['/', '/'] <:+: pathOf text)
    (hdots : ∀ s ∈ (pathOf text).splitOn '/', s ≠ ['.'] ∧ s ≠ ['.', '.'])
    (h : resolve hostOf other origin text = some loc) :
    SameSegments (pathOf text) loc.target.pathname ↔ Plain text := by
  constructor
  · intro hsame
    obtain ⟨hchars, hlast⟩ := clean_of_sameSegments hroot h hsame
    refine ⟨hchars, ?_, hlast⟩
    obtain ⟨rest, hpath, htarget⟩ := resolve_clean hroot hdouble hchars hlast h
    rw [htarget] at hsame
    have hdrop : dropSlash ('/' :: rest) = rest := rfl
    have hlow := costs_le_of_sameSegments hsame
    have hhigh := count_pathStart_le ('/' :: rest)
    have hback : ∀ c ∈ pathOf rest, c ≠ '\\' := fun c hc ↦ (hchars c (by simp [hpath, hc])).1
    rw [hdrop, splitOn_of_clean hback] at hhigh
    have hsub : ((pathOf rest).filter fun c ↦ !isSlash c).Sublist
        ((pathOf text).filter fun c ↦ !(c == '/')) := by
      rw [hpath]
      apply monotone_filter_right
      intro c hc
      by_contra heq
      have hc' : c = '/' := by simpa using heq
      rw [hc'] at hc
      exact absurd hc (by decide)
    have hle := costs_le_of_sublist hsub
    intro s hs
    by_contra hdot
    have hdot' : isDot s = true := by simpa using hdot
    have hpercent := percent_of_isDot hdot' (hdots s hs).1 (hdots s hs).2
    rw [hpath] at hs
    obtain rfl | hs := mem_cons.mp hs
    · cases hpercent
    · have hmem : s ∈ (((pathOf rest).splitOn '/').map encodeAll).filter isDot := by
        apply mem_filter.mpr
        refine ⟨List.mem_map.mpr ⟨s, hs, encodeAll_of_plain (plain_of_isDot hdot')⟩, hdot'⟩
      have hcount : 1 ≤ ((((pathOf rest).splitOn '/').map encodeAll).filter
          isDot).flatten.count '%' :=
        one_le_count_iff.mpr (mem_flatten.mpr ⟨s, hmem, hpercent⟩)
      omega
  · intro hplain
    obtain ⟨rest, hpath, htarget⟩ := resolve_clean hroot hdouble hplain.chars hplain.last h
    have hback : ∀ c ∈ pathOf rest, c ≠ '\\' := fun c hc ↦ (hplain.chars c (by simp [hpath, hc])).1
    have hdrop : dropSlash ('/' :: rest) = rest := rfl
    have hsegments := hplain.segments
    rw [hpath] at hsegments
    have htargetPath : loc.target.path = ((pathOf rest).splitOn '/').map encodeAll := by
      rw [htarget, pathStart_path, hdrop, splitOn_of_clean hback]
      apply enter_eq
      intro s hs
      obtain ⟨segment, hsegment, rfl⟩ := List.mem_map.mp hs
      rw [isDot_encodeAll]
      exact hsegments segment (mem_cons_of_mem _ hsegment)
    have hwritten : ∀ s ∈ loc.target.path, '/' ∉ s := by
      rw [htarget]
      exact fun s hs ↦ not_slash_of_isSegment ((pathStart_segments _).1 s hs)
    unfold SameSegments
    rw [splitOn_pathname hwritten, htargetPath, hpath]
    apply List.Forall₂.cons .nil
    rw [forall₂_map_right_iff]
    exact forall₂_same.mpr fun s _ ↦ encodedAs_encodeAll s

end Plain

end Url
