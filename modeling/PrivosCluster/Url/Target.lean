import Mathlib.Data.List.DropRight

/-!
# Request targets after the URL parser

What stands after the origin of a special URL, as the WHATWG URL parser reads it: a path of
segments and a query. The parser resolves dot segments, reads a backslash as a slash, encodes
characters and drops a fragment. The last theorem of this file says which texts it leaves alone.
-/

namespace Url

open List Option

/-! ## Characters -/

def isC0OrSpace (c : Char) : Bool := c.toNat ≤ 0x20

def isTabOrNewline (c : Char) : Bool := c = '\t' || c = '\n' || c = '\r'

def isSlash (c : Char) : Bool := c = '/' || c = '\\'

def c0ControlSet (c : Char) : Bool := c.toNat ≤ 0x1F || 0x7E < c.toNat

def querySet (c : Char) : Bool :=
  c0ControlSet c || c = ' ' || c = '"' || c = '#' || c = '<' || c = '>'

def specialQuerySet (c : Char) : Bool := querySet c || c = '\''

def pathSet (c : Char) : Bool :=
  querySet c || c = '?' || c = '^' || c = '\x60' || c = '\x7b' || c = '\x7d'

def hexDigit (n : Nat) : Char := Char.ofNat (if n < 10 then 0x30 + n else 0x41 + n - 10)

def percentEncode (c : Char) : List Char :=
  (String.utf8EncodeChar c).flatMap fun byte ↦
    ['%', hexDigit (byte.toNat / 16), hexDigit (byte.toNat % 16)]

def encode (set : Char → Bool) (c : Char) : List Char := if set c then percentEncode c else [c]

/-! ## The parser -/

def isSingleDot (segment : List Char) : Bool :=
  let lower := segment.map Char.toLower
  lower = ".".toList || lower = "%2e".toList

def isDoubleDot (segment : List Char) : Bool :=
  let lower := segment.map Char.toLower
  lower = "..".toList || lower = ".%2e".toList || lower = "%2e.".toList || lower = "%2e%2e".toList

/-- The path when a segment ends, before a slash or at the end of the path. -/
def endSegment (path : List (List Char)) (segment : List Char) (slash : Bool) :
    List (List Char) :=
  if isDoubleDot segment then if slash then path.dropLast else path.dropLast ++ [[]]
  else if isSingleDot segment then if slash then path else path ++ [[]]
  else path ++ [segment]

/-- The path state; it ends before a question mark or a number sign. -/
def pathState (path : List (List Char)) (segment : List Char) :
    List Char → List (List Char) × List Char
  | [] => (endSegment path segment false, [])
  | c :: rest =>
    if isSlash c then pathState (endSegment path segment true) [] rest
    else if c = '?' || c = '#' then (endSegment path segment false, c :: rest)
    else pathState path (segment ++ encode pathSet c) rest

structure Target where
  path : List (List Char)
  query : List Char

/-- The query up to a fragment, which is dropped. -/
def queryState : List Char → List Char
  | '?' :: rest => (rest.takeWhile (· ≠ '#')).flatMap (encode specialQuerySet)
  | _ => []

/-- Everything after the origin; text that does not end the origin is not a target. -/
def parse (text : List Char) : Option Target :=
  match (text.rdropWhile isC0OrSpace).filter fun c ↦ !isTabOrNewline c with
  | [] => some ⟨[[]], []⟩
  | c :: rest =>
    if isSlash c || c = '?' || c = '#' then
      let (path, left) := pathState [] [] (if isSlash c then rest else c :: rest)
      some ⟨path, queryState left⟩
    else none

def Target.pathname (target : Target) : List Char := target.path.flatMap ('/' :: ·)

def Target.search (target : Target) : List Char :=
  if target.query = [] then [] else '?' :: target.query

def Target.serialize (target : Target) : List Char := target.pathname ++ target.search

/-! ## Texts in serialized form -/

/-- A character that the path state copies into the segment. -/
def isSegmentChar (c : Char) : Bool := !pathSet c && !isSlash c

structure IsSegment (segment : List Char) : Prop where
  chars : ∀ c ∈ segment, isSegmentChar c = true
  single : isSingleDot segment = false
  double : isDoubleDot segment = false

structure Target.WellFormed (target : Target) : Prop where
  nonempty : target.path ≠ []
  segments : ∀ segment ∈ target.path, IsSegment segment
  query : ∀ c ∈ target.query, specialQuerySet c = false

/-- Text that is already as the parser writes it. -/
def IsSerialized (text : List Char) : Prop :=
  ∃ target : Target, target.WellFormed ∧ text = target.serialize

/-! ## What the parser writes -/

variable {c d : Char} {slash : Bool}

theorem mem_percentEncode (h : d ∈ percentEncode c) : d = '%' ∨ ∃ n < 16, d = hexDigit n := by
  obtain ⟨byte, -, hd⟩ := mem_flatMap.mp h
  have hbyte : byte.toNat < 256 := UInt8.toNat_lt byte
  simp only [mem_cons, not_mem_nil, or_false] at hd
  obtain hd | hd | hd := hd
  · exact .inl hd
  · exact .inr ⟨byte.toNat / 16, by omega, hd⟩
  · exact .inr ⟨byte.toNat % 16, by omega, hd⟩

theorem isSegmentChar_hexDigit : ∀ n < 16, isSegmentChar (hexDigit n) := by decide

theorem specialQuerySet_hexDigit : ∀ n < 16, specialQuerySet (hexDigit n) = false := by decide

theorem isSegmentChar_of_mem_encode (hslash : isSlash c = false) (h : d ∈ encode pathSet c) :
    isSegmentChar d := by
  unfold encode at h
  split at h
  · obtain hd | ⟨n, hn, hd⟩ := mem_percentEncode h
    · rw [hd]
      decide
    · rw [hd]
      exact isSegmentChar_hexDigit n hn
  next hset =>
    rw [mem_singleton.mp h]
    simp [isSegmentChar, hset, hslash]

theorem specialQuerySet_of_mem_encode (h : d ∈ encode specialQuerySet c) :
    specialQuerySet d = false := by
  unfold encode at h
  split at h
  · obtain hd | ⟨n, hn, hd⟩ := mem_percentEncode h
    · rw [hd]
      decide
    · rw [hd]
      exact specialQuerySet_hexDigit n hn
  next hset =>
    rw [mem_singleton.mp h]
    simpa using hset

theorem isSegment_nil : IsSegment [] := ⟨(nofun), by decide, by decide⟩

theorem endSegment_ne_nil (path : List (List Char)) (segment : List Char) :
    endSegment path segment false ≠ [] := by
  unfold endSegment
  split
  · simp
  · split <;> simp

variable {segment : List Char} {path : List (List Char)}

theorem endSegment_segments (hpath : ∀ s ∈ path, IsSegment s)
    (hsegment : ∀ c ∈ segment, isSegmentChar c) :
    ∀ s ∈ endSegment path segment slash, IsSegment s := by
  have hempty : ∀ s ∈ [([] : List Char)], IsSegment s := by
    intro s hs
    rw [mem_singleton.mp hs]
    exact isSegment_nil
  have hshort : ∀ s ∈ path.dropLast, IsSegment s := fun s hs ↦ hpath s (dropLast_subset _ hs)
  unfold endSegment
  split
  · split
    · exact hshort
    · exact forall_mem_append.mpr ⟨hshort, hempty⟩
  next hdouble =>
    split
    · split
      · exact hpath
      · exact forall_mem_append.mpr ⟨hpath, hempty⟩
    next hsingle =>
      exact forall_mem_append.mpr
        ⟨hpath, forall_mem_singleton.mpr ⟨hsegment, by simpa using hsingle, by simpa using hdouble⟩⟩

/-- The path state appends well-formed segments, and ends with one at least. -/
theorem pathState_segments (text : List Char) (hpath : ∀ s ∈ path, IsSegment s)
    (hsegment : ∀ c ∈ segment, isSegmentChar c) :
    (∀ s ∈ (pathState path segment text).1, IsSegment s) ∧
      (pathState path segment text).1 ≠ [] := by
  induction text generalizing path segment with
  | nil => exact ⟨endSegment_segments hpath hsegment, endSegment_ne_nil _ _⟩
  | cons c rest ih =>
    unfold pathState
    split
    · exact ih (endSegment_segments hpath hsegment) nofun
    next hslash =>
      split
      · exact ⟨endSegment_segments hpath hsegment, endSegment_ne_nil _ _⟩
      · apply ih hpath
        intro d hd
        obtain hd | hd := mem_append.mp hd
        · exact hsegment d hd
        · exact isSegmentChar_of_mem_encode (by simpa using hslash) hd

theorem queryState_chars (text : List Char) :
    ∀ c ∈ queryState text, specialQuerySet c = false := by
  intro c hc
  unfold queryState at hc
  split at hc
  · obtain ⟨d, -, hd⟩ := mem_flatMap.mp hc
    exact specialQuerySet_of_mem_encode hd
  · cases hc

variable {target : Target} {text : List Char}

theorem wellFormed_of_parse (h : parse text = some target) : target.WellFormed := by
  unfold parse at h
  split at h
  · have htarget := some.inj h
    subst htarget
    refine ⟨by simp, fun s hs ↦ ?_, nofun⟩
    rw [mem_singleton.mp hs]
    exact isSegment_nil
  next c rest _ =>
    split at h
    · have htarget := some.inj h
      subst htarget
      have hsegments := pathState_segments (if isSlash c then rest else c :: rest)
        (fun s (hs : s ∈ []) ↦ nomatch hs) fun d (hd : d ∈ []) ↦ nomatch hd
      exact ⟨hsegments.2, hsegments.1, queryState_chars _⟩
    · cases h

/-! ## What the parser leaves alone -/

theorem pathState_chars {chars : List Char} (hchars : ∀ c ∈ chars, isSegmentChar c) :
    pathState path segment (chars ++ text) = pathState path (segment ++ chars) text := by
  induction chars generalizing segment with
  | nil => simp
  | cons c chars ih =>
    have hc := hchars c mem_cons_self
    have hboth : pathSet c = false ∧ isSlash c = false := by simpa [isSegmentChar] using hc
    have hquestion : c ≠ '?' := by
      rintro rfl
      exact absurd hboth.1 (by decide)
    have hsign : c ≠ '#' := by
      rintro rfl
      exact absurd hboth.1 (by decide)
    rw [cons_append, pathState]
    rw [if_neg (by simp [hboth.2]), if_neg (by simp [hquestion, hsign])]
    rw [ih fun d hd ↦ hchars d (mem_cons_of_mem _ hd)]
    simp [encode, hboth.1]

theorem endSegment_of_isSegment (h : IsSegment segment) :
    endSegment path segment slash = path ++ [segment] := by
  simp [endSegment, h.single, h.double]

/-- Text after the path: nothing, or a query. -/
def EndsPath (text : List Char) : Prop := text = [] ∨ ∃ rest, text = '?' :: rest

theorem pathState_pathname {segments : List (List Char)} (hsegment : IsSegment segment)
    (hsegments : ∀ s ∈ segments, IsSegment s) (htext : EndsPath text) :
    pathState path segment (segments.flatMap ('/' :: ·) ++ text) =
      (path ++ segment :: segments, text) := by
  induction segments generalizing path segment with
  | nil =>
    obtain rfl | ⟨rest, rfl⟩ := htext
    · simp [pathState, endSegment_of_isSegment hsegment]
    · have hslash : isSlash '?' = false := by decide
      simp [pathState, endSegment_of_isSegment hsegment, hslash]
  | cons s segments ih =>
    have hs := hsegments s mem_cons_self
    have hslash : isSlash '/' := by decide
    rw [flatMap_cons, cons_append, cons_append, append_assoc, pathState,
      if_pos hslash, pathState_chars hs.chars, nil_append,
      ih hs fun t ht ↦ hsegments t (mem_cons_of_mem _ ht),
      endSegment_of_isSegment hsegment]
    simp

theorem queryState_search (h : ∀ c ∈ target.query, specialQuerySet c = false) :
    queryState target.search = target.query := by
  unfold Target.search
  split
  next hempty =>
    rw [hempty]
    rfl
  · have hfragment : ∀ c ∈ target.query, decide (c ≠ '#') := by
      intro c hc
      by_contra hsign
      have hc' : c = '#' := by simpa using hsign
      have hset := h c hc
      rw [hc'] at hset
      exact absurd hset (by decide)
    have hencode : ∀ c ∈ target.query, encode specialQuerySet c = [c] := by
      intro c hc
      simp [encode, h c hc]
    simp only [queryState]
    rw [takeWhile_eq_self_iff.mpr hfragment, flatMap_congr hencode]
    simp

theorem endsPath_search (target : Target) : EndsPath target.search := by
  unfold Target.search
  split
  · exact .inl rfl
  · exact .inr ⟨target.query, rfl⟩

/-- No character of serialized text is stripped or removed. -/
theorem visible_of_wellFormed (h : target.WellFormed) : ∀ c ∈ target.serialize, 0x20 < c.toNat := by
  have hquery : ∀ c : Char, querySet c = false → 0x20 < c.toNat := by
    intro c hc
    simp only [querySet, c0ControlSet, Bool.or_eq_false_iff, decide_eq_false_iff_not] at hc
    have hspace : c.toNat ≠ 0x20 := by
      intro heq
      have hc' : c = ' ' := Char.toNat_inj.mp heq
      exact hc.1.1.1.1.2 hc'
    omega
  intro c hc
  obtain hc | hc := mem_append.mp hc
  · obtain ⟨segment, hsegment, hc⟩ := mem_flatMap.mp hc
    obtain rfl | hc := mem_cons.mp hc
    · decide
    · have hchar := (h.segments segment hsegment).chars c hc
      apply hquery
      simp only [isSegmentChar, pathSet, Bool.and_eq_true, Bool.not_eq_true', Bool.or_eq_false_iff]
        at hchar
      exact hchar.1.1.1.1.1.1
  · unfold Target.search at hc
    split at hc
    · cases hc
    · obtain rfl | hc := mem_cons.mp hc
      · decide
      · have hset := h.query c hc
        simp only [specialQuerySet, Bool.or_eq_false_iff] at hset
        exact hquery c hset.1

theorem parse_serialize (h : target.WellFormed) : parse target.serialize = some target := by
  have hvisible := visible_of_wellFormed h
  have hstrip : target.serialize.rdropWhile isC0OrSpace = target.serialize := by
    apply rdropWhile_eq_self_iff.mpr
    intro hne hlast
    have hchar := hvisible _ (getLast_mem hne)
    have hle : (target.serialize.getLast hne).toNat ≤ 0x20 := by
      simpa [isC0OrSpace] using hlast
    omega
  have hfilter : (target.serialize.filter fun c ↦ !isTabOrNewline c) = target.serialize := by
    apply filter_eq_self.mpr
    intro c hc
    have hchar := hvisible c hc
    have hblank (d : Char) (hd : d.toNat ≤ 0x20) : c ≠ d := by
      rintro rfl
      omega
    simp [isTabOrNewline, hblank '\t' (by decide), hblank '\n' (by decide),
      hblank '\r' (by decide)]
  unfold parse
  rw [hstrip, hfilter]
  cases hpath : target.path with
  | nil => exact absurd hpath h.nonempty
  | cons segment segments =>
    have hsegments := h.segments
    rw [hpath] at hsegments
    have hsegment := hsegments segment mem_cons_self
    have htext : target.serialize =
        '/' :: (segment ++ (segments.flatMap ('/' :: ·) ++ target.search)) := by
      simp [Target.serialize, Target.pathname, hpath]
    have hslash : isSlash '/' := by decide
    rw [htext]
    simp only [hslash, Bool.true_or, if_true]
    rw [pathState_chars hsegment.chars, nil_append,
      pathState_pathname hsegment (fun s hs ↦ hsegments s (mem_cons_of_mem _ hs))
        (endsPath_search target), queryState_search h.query]
    simp [← hpath]

/-- The parser leaves a text as it is exactly when the text is in serialized form. -/
theorem serialize_eq_self_iff :
    (parse text).map Target.serialize = some text ↔ IsSerialized text := by
  constructor
  · intro h
    obtain ⟨target, hparse, htext⟩ := Option.map_eq_some_iff.mp h
    exact ⟨target, wellFormed_of_parse hparse, htext.symm⟩
  · rintro ⟨target, hwell, rfl⟩
    rw [parse_serialize hwell]
    rfl

end Url
