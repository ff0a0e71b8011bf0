import PrivosCluster.Routing.Listeners
import PrivosCluster.Text.Fields

/-!
# Domain attributes of cookies

The runtime listener takes the first `Domain` attribute out of a `Set-Cookie` value when it names
`privos.link` or a subdomain. A browser splits the value at its semicolons and goes by the last
`Domain` attribute that has a value; what it trims are spaces and tabs.
-/

namespace PrivosCluster.Routing

open List Option Bool

/-! ## The runtime listener -/

/-- `\s*domain\s*=\s*` at the beginning of a text: what follows it. -/
def matchDomainName (s : List Char) : Option (List Char) :=
  let name := s.dropWhile isWhiteSpace
  if (name.take 6).map Char.toLower = "domain".toList then
    match (name.drop 6).dropWhile isWhiteSpace with
    | '=' :: value => some (value.dropWhile isWhiteSpace)
    | _ => none
  else none

/-- `DOMAIN_ATTRIBUTE` at the beginning of a text: its group, and what follows the match. -/
def matchDomainAttribute : List Char → Option (List Char × List Char)
  | ';' :: rest =>
    (matchDomainName rest).map fun value ↦ (value.takeWhile (· ≠ ';'), value.dropWhile (· ≠ ';'))
  | _ => none

/-- `exec`: what stands before the first match, the group, and what follows the match. -/
def execDomainAttribute : List Char → Option (List Char × List Char × List Char)
  | [] => none
  | c :: rest =>
    match matchDomainAttribute (c :: rest) with
    | some (value, after) => some ([], value, after)
    | none => (execDomainAttribute rest).map fun found ↦ (c :: found.1, found.2)

def dropLeadingDot : List Char → List Char
  | '.' :: rest => rest
  | s => s

def isPrivosLink (domain : List Char) : Bool :=
  domain = "privos.link".toList || ".privos.link".toList.isSuffixOf domain

def targetsPrivosLink (rawValue : List Char) : Bool :=
  isPrivosLink ((dropLeadingDot (trim rawValue)).map lowerChar)

def stripPrivosLinkCookieDomain (setCookieValue : List Char) : List Char :=
  match execDomainAttribute setCookieValue with
  | none => setCookieValue
  | some (before, value, after) =>
    if targetsPrivosLink value then trim (before ++ after) else setCookieValue

/-! ## The browser -/

/-- The white space of a header field. -/
def isWsp (c : Char) : Bool := c = ' ' || c = '\t'

structure CookieAttribute where
  name : List Char
  value : Option (List Char)
deriving DecidableEq

/-- A field is split at its first equals sign, if it has one. -/
def parseAttribute (field : List Char) : CookieAttribute where
  name := Text.strip isWsp (field.takeWhile (· ≠ '='))
  value :=
    if '=' ∈ field then some (Text.strip isWsp ((field.dropWhile (· ≠ '=')).drop 1)) else none

structure Cookie where
  pair : CookieAttribute
  attributes : List CookieAttribute

def parseCookie (s : List Char) : Cookie :=
  match s.splitOn ';' with
  | [] => ⟨parseAttribute [], []⟩
  | field :: fields => ⟨parseAttribute field, fields.map parseAttribute⟩

/-- The domain that an attribute names; one without a value is ignored. -/
def CookieAttribute.domain (attr : CookieAttribute) : Option (List Char) :=
  if attr.name.map Char.toLower = "domain".toList then
    (attr.value.filter (· ≠ [])).map fun value ↦ (dropLeadingDot value).map lowerChar
  else none

/-- The last named domain. -/
def lastDomain (attributes : List CookieAttribute) : Option (List Char) :=
  (attributes.filterMap CookieAttribute.domain).getLast?

def Cookie.effectiveDomain (cookie : Cookie) : Option (List Char) := lastDomain cookie.attributes

def CookieAttribute.namesPrivosLink (attr : CookieAttribute) : Bool :=
  attr.domain.any isPrivosLink

/-- The attributes other than those that name `privos.link` or a subdomain. -/
def Cookie.others (cookie : Cookie) : List CookieAttribute :=
  cookie.attributes.filter fun attr ↦ !attr.namesPrivosLink

/-- No cookie of the stripped value reaches `privos.link`, and nothing else of it has changed. -/
structure StripsDomain (s : List Char) : Prop where
  domain : ∀ domain, (parseCookie (stripPrivosLinkCookieDomain s)).effectiveDomain = some domain →
    isPrivosLink domain = false
  pair : (parseCookie (stripPrivosLinkCookieDomain s)).pair = (parseCookie s).pair
  others : (parseCookie (stripPrivosLinkCookieDomain s)).others = (parseCookie s).others

/-! ## Fields -/

variable {c : Char}

theorem isWhiteSpace_of_isWsp (h : isWsp c) : isWhiteSpace c := by
  simp only [isWsp, or_eq_true, decide_eq_true_eq] at h
  rcases h with rfl | rfl <;> decide

theorem trim_eq_strip (s : List Char) : trim s = Text.strip isWhiteSpace s := rfl

section Match

variable {field tail value : List Char}

/-- The text after a field is empty or begins with a semicolon. -/
def FollowsField (tail : List Char) : Prop := ∀ c, tail.head? = some c → c = ';'

theorem FollowsField.stops (h : FollowsField tail) :
    ∀ c, tail.head? = some c → isWhiteSpace c = false := by
  intro c hc
  rw [h c hc]
  decide

/-- The word `domain` does not reach over the end of a field. -/
theorem length_of_domain (htail : FollowsField tail)
    (h : ((field ++ tail).take 6).map Char.toLower = "domain".toList) : 6 ≤ field.length := by
  by_contra hshort
  have hlength : ((field ++ tail).take 6).length = 6 := by
    have hmap := congrArg length h
    rwa [length_map] at hmap
  cases tail with
  | nil =>
    rw [append_nil, length_take] at hlength
    omega
  | cons c rest =>
    have hc : c = ';' := htail c rfl
    have hmem : c ∈ (field ++ c :: rest).take 6 := by
      obtain ⟨n, hn⟩ : ∃ n, 6 - field.length = n + 1 := ⟨5 - field.length, by omega⟩
      rw [take_append, hn]
      exact mem_append_right _ mem_cons_self
    have hlower := List.mem_map_of_mem (f := Char.toLower) hmem
    rw [h, hc] at hlower
    exact absurd hlower (by decide)

/-- A match of the name does not reach over the field in which it begins. -/
theorem matchDomainName_append (htail : FollowsField tail) :
    matchDomainName (field ++ tail) = (matchDomainName field).map (· ++ tail) := by
  unfold matchDomainName
  dsimp only
  rw [Text.dropWhile_append_of_stop htail.stops]
  generalize field.dropWhile isWhiteSpace = name
  have hnil : FollowsField [] := nofun
  by_cases hlength : 6 ≤ name.length
  · rw [take_append_of_le_length hlength, drop_append_of_le_length hlength,
      Text.dropWhile_append_of_stop htail.stops]
    generalize (name.drop 6).dropWhile isWhiteSpace = rest
    split
    next =>
      cases rest with
      | nil =>
        cases tail with
        | nil => rfl
        | cons c rest =>
          rw [htail c rfl]
          rfl
      | cons c value =>
        by_cases hc : c = '='
        · subst hc
          simp only [cons_append, map_some]
          rw [Text.dropWhile_append_of_stop htail.stops]
        · have hleft : ∀ rest : List Char, (match c :: rest with
              | '=' :: value => some (value.dropWhile isWhiteSpace)
              | _ => none) = none := by
            intro rest
            split
            next heq => exact absurd (List.cons.inj heq).1 hc
            next => rfl
          rw [cons_append, hleft, hleft]
          rfl
    next => rfl
  · have hshort : ¬ ((name ++ tail).take 6).map Char.toLower = "domain".toList :=
      fun h ↦ hlength (length_of_domain htail h)
    have hshort' : ¬ (name.take 6).map Char.toLower = "domain".toList := by
      intro h
      apply hlength
      apply length_of_domain hnil
      rwa [append_nil]
    rw [if_neg hshort, if_neg hshort']
    rfl

theorem mem_of_matchDomainName (h : matchDomainName field = some value) :
    ∀ c ∈ value, c ∈ field := by
  unfold matchDomainName at h
  dsimp only at h
  split at h
  · split at h
    next rest hrest =>
      have hsub : ∀ c ∈ rest, c ∈ field := by
        intro c hc
        have hmem : c ∈ (((field.dropWhile isWhiteSpace).drop 6).dropWhile isWhiteSpace) := by
          rw [hrest]
          exact mem_cons_of_mem _ hc
        exact dropWhile_subset _ (drop_subset _ _ (dropWhile_subset _ hmem))
      rw [← some.inj h]
      exact fun c hc ↦ hsub c (dropWhile_subset _ hc)
    next => cases h
  · cases h

/-- A match ends with the field in which it begins. -/
theorem matchDomainAttribute_append (hfield : ';' ∉ field) (htail : FollowsField tail) :
    matchDomainAttribute (';' :: (field ++ tail)) =
      (matchDomainName field).map fun value ↦ (value, tail) := by
  have hmatch : matchDomainAttribute (';' :: (field ++ tail)) =
      (matchDomainName (field ++ tail)).map fun value ↦
        (value.takeWhile (· ≠ ';'), value.dropWhile (· ≠ ';')) := rfl
  rw [hmatch, matchDomainName_append htail]
  cases hname : matchDomainName field with
  | none => rfl
  | some value =>
    have hvalue : ∀ c ∈ value, decide (c ≠ ';') := by
      intro c hc
      have hne : c ≠ ';' := fun heq ↦ hfield (heq ▸ mem_of_matchDomainName hname c hc)
      simp [hne]
    have htake : tail.takeWhile (· ≠ ';') = [] := by
      cases tail with
      | nil => rfl
      | cons c rest => simp [htail c rfl]
    have hdrop : tail.dropWhile (· ≠ ';') = tail := by
      cases tail with
      | nil => rfl
      | cons c rest => simp [htail c rfl]
    simp only [map_some]
    rw [takeWhile_append_of_pos hvalue, dropWhile_append_of_pos hvalue, htake, hdrop,
      append_nil]

theorem execDomainAttribute_append (hfield : ';' ∉ field) :
    execDomainAttribute (field ++ tail) =
      (execDomainAttribute tail).map fun found ↦ (field ++ found.1, found.2) := by
  induction field with
  | nil => simp
  | cons c field ih =>
    have hc : c ≠ ';' := fun heq ↦ hfield (heq ▸ mem_cons_self)
    have hrest : ';' ∉ field := fun hmem ↦ hfield (mem_cons_of_mem _ hmem)
    have hnone : matchDomainAttribute (c :: (field ++ tail)) = none := by
      unfold matchDomainAttribute
      split
      next heq => exact absurd (List.cons.inj heq).1 hc
      next => rfl
    rw [cons_append, execDomainAttribute, hnone, ih hrest]
    cases execDomainAttribute tail <;> rfl

/-- The fields with a semicolon before each. -/
def joinFields (fields : List (List Char)) : List Char := fields.flatMap (';' :: ·)

theorem followsField_joinFields (fields : List (List Char)) : FollowsField (joinFields fields) := by
  intro c hc
  cases fields with
  | nil => cases hc
  | cons field fields => exact (some.inj hc).symm

variable {earlier later fields : List (List Char)} {first : List Char}

theorem execDomainAttribute_cons_none (hfield : ';' ∉ field)
    (hname : matchDomainName field = none) :
    execDomainAttribute (joinFields (field :: fields)) =
      (execDomainAttribute (joinFields fields)).map fun found ↦
        (';' :: field ++ found.1, found.2) := by
  have hjoin : joinFields (field :: fields) = ';' :: (field ++ joinFields fields) := rfl
  rw [hjoin, execDomainAttribute,
    matchDomainAttribute_append hfield (followsField_joinFields fields), hname]
  rw [execDomainAttribute_append hfield]
  cases execDomainAttribute (joinFields fields) <;> rfl

theorem execDomainAttribute_eq_none (hfields : ∀ field ∈ fields, ';' ∉ field)
    (hnone : ∀ field ∈ fields, matchDomainName field = none) :
    execDomainAttribute (joinFields fields) = none := by
  induction fields with
  | nil => rfl
  | cons field fields ih =>
    rw [execDomainAttribute_cons_none (hfields field mem_cons_self)
      (hnone field mem_cons_self), ih (fun f hf ↦ hfields f (mem_cons_of_mem _ hf))
      fun f hf ↦ hnone f (mem_cons_of_mem _ hf)]
    rfl

/-- The match is in the first field that has one. -/
theorem execDomainAttribute_eq_some (hearlier : ∀ field ∈ earlier, ';' ∉ field)
    (hnone : ∀ field ∈ earlier, matchDomainName field = none) (hfirst : ';' ∉ first)
    (hvalue : matchDomainName first = some value) :
    execDomainAttribute (joinFields (earlier ++ first :: later)) =
      some (joinFields earlier, value, joinFields later) := by
  induction earlier with
  | nil =>
    have hjoin : joinFields (first :: later) = ';' :: (first ++ joinFields later) := rfl
    rw [nil_append, hjoin, execDomainAttribute,
      matchDomainAttribute_append hfirst (followsField_joinFields later), hvalue]
    rfl
  | cons field earlier ih =>
    rw [cons_append, execDomainAttribute_cons_none (hearlier field mem_cons_self)
      (hnone field mem_cons_self), ih (fun f hf ↦ hearlier f (mem_cons_of_mem _ hf))
      fun f hf ↦ hnone f (mem_cons_of_mem _ hf)]
    rfl

end Match

/-! ## Attributes -/

variable {field : List Char}

theorem parseAttribute_plain (h : '=' ∉ field) :
    parseAttribute field = ⟨Text.strip isWsp field, none⟩ := by
  have hall : ∀ c ∈ field, decide (c ≠ '=') := by
    intro c hc
    have hne : c ≠ '=' := fun heq ↦ h (heq ▸ hc)
    simp [hne]
  unfold parseAttribute
  rw [takeWhile_eq_self_iff.mpr hall, if_neg h]

theorem parseAttribute_pair {name value : List Char} (h : '=' ∉ name) :
    parseAttribute (name ++ '=' :: value) =
      ⟨Text.strip isWsp name, some (Text.strip isWsp value)⟩ := by
  have hall : ∀ c ∈ name, decide (c ≠ '=') := by
    intro c hc
    have hne : c ≠ '=' := fun heq ↦ h (heq ▸ hc)
    simp [hne]
  unfold parseAttribute
  rw [takeWhile_append_of_pos hall, dropWhile_append_of_pos hall]
  simp

/-- A field without an equals sign, or split at its first one. -/
theorem field_cases (field : List Char) :
    '=' ∉ field ∨ ∃ name value, field = name ++ '=' :: value ∧ '=' ∉ name := by
  by_cases h : '=' ∈ field
  · obtain ⟨name, value, hfield, hname⟩ := eq_append_cons_of_mem h
    exact .inr ⟨name, value, hfield, hname⟩
  · exact .inl h

theorem isWsp_stops {tail : List Char} :
    ∀ c, ('=' :: tail).head? = some c → isWsp c = false := by
  intro c hc
  rw [← some.inj hc]
  decide

theorem isWsp_stops_last (name : List Char) :
    ∀ c, (name ++ ['=']).getLast? = some c → isWsp c = false := by
  intro c hc
  rw [getLast?_concat] at hc
  rw [← some.inj hc]
  decide

theorem rdropWhile_pair (name value : List Char) :
    (name ++ '=' :: value).rdropWhile isWsp = name ++ '=' :: value.rdropWhile isWsp := by
  have happend := Text.rdropWhile_append_of_stop (s := value) (isWsp_stops_last name)
  simpa using happend

/-- Spaces and tabs at the beginning of a field do not matter. -/
theorem parseAttribute_dropWhile (field : List Char) :
    parseAttribute (field.dropWhile isWsp) = parseAttribute field := by
  obtain hplain | ⟨name, value, rfl, hname⟩ := field_cases field
  · rw [parseAttribute_plain hplain,
      parseAttribute_plain fun hmem ↦ hplain (dropWhile_subset _ hmem), Text.strip_dropWhile]
  · rw [Text.dropWhile_append_of_stop isWsp_stops, parseAttribute_pair hname,
      parseAttribute_pair fun hmem ↦ hname (dropWhile_subset _ hmem), Text.strip_dropWhile]

/-- Spaces and tabs at the end of a field do not matter. -/
theorem parseAttribute_rdropWhile (field : List Char) :
    parseAttribute (field.rdropWhile isWsp) = parseAttribute field := by
  obtain hplain | ⟨name, value, rfl, hname⟩ := field_cases field
  · have hsub : '=' ∉ field.rdropWhile isWsp := fun hmem ↦
      hplain (List.IsPrefix.subset ( rdropWhile_prefix isWsp field) hmem)
    rw [parseAttribute_plain hplain, parseAttribute_plain hsub, Text.strip_rdropWhile]
  · rw [rdropWhile_pair, parseAttribute_pair hname, parseAttribute_pair hname,
      Text.strip_rdropWhile]

/-- The last character of an attribute. -/
def CookieAttribute.last (attr : CookieAttribute) : Option Char :=
  (attr.value.getD attr.name).getLast?

theorem head_of_field (h : (field.dropWhile isWsp).head? = some c) (hc : c ≠ '=') :
    (parseAttribute field).name.head? = some c := by
  obtain hplain | ⟨name, value, rfl, hname⟩ := field_cases field
  · rw [parseAttribute_plain hplain, Text.head?_strip, h]
  · rw [parseAttribute_pair hname, Text.head?_strip]
    rw [Text.dropWhile_append_of_stop isWsp_stops] at h
    cases hdrop : name.dropWhile isWsp with
    | nil =>
      rw [hdrop] at h
      exact absurd (some.inj h).symm hc
    | cons d rest =>
      rw [hdrop] at h
      exact h

theorem field_of_head (h : (parseAttribute field).name.head? = some c) :
    (field.dropWhile isWsp).head? = some c := by
  obtain hplain | ⟨name, value, rfl, hname⟩ := field_cases field
  · rwa [parseAttribute_plain hplain, Text.head?_strip] at h
  · rw [parseAttribute_pair hname, Text.head?_strip] at h
    rw [Text.dropWhile_append_of_stop isWsp_stops, head?_append, h]
    rfl

theorem last_of_field (h : (field.rdropWhile isWsp).getLast? = some c) (hc : c ≠ '=') :
    (parseAttribute field).last = some c := by
  unfold CookieAttribute.last
  obtain hplain | ⟨name, value, rfl, hname⟩ := field_cases field
  · rw [parseAttribute_plain hplain, getD_none, Text.getLast?_strip, h]
  · rw [parseAttribute_pair hname, getD_some, Text.getLast?_strip]
    rw [rdropWhile_pair] at h
    cases hdrop : value.rdropWhile isWsp with
    | nil =>
      rw [hdrop, getLast?_concat] at h
      exact absurd (some.inj h).symm hc
    | cons d rest =>
      rw [hdrop, getLast?_append_of_ne_nil _ (by simp)] at h
      exact h

theorem field_of_last (h : (parseAttribute field).last = some c) :
    (field.rdropWhile isWsp).getLast? = some c := by
  unfold CookieAttribute.last at h
  obtain hplain | ⟨name, value, rfl, hname⟩ := field_cases field
  · rwa [parseAttribute_plain hplain, getD_none, Text.getLast?_strip] at h
  · rw [parseAttribute_pair hname, getD_some, Text.getLast?_strip] at h
    rw [rdropWhile_pair]
    cases hdrop : value.rdropWhile isWsp with
    | nil =>
      rw [hdrop] at h
      cases h
    | cons d rest =>
      rw [hdrop] at h
      rw [getLast?_append_of_ne_nil _ (by simp)]
      exact h

/-! ## Domains -/

theorem isWhiteSpace_of_lowerChar {d : Char} (h : lowerChar c = d) (hd : isWhiteSpace d = false) :
    isWhiteSpace c = false := by
  unfold lowerChar at h
  split at h
  next hupper =>
    simp only [isWhiteSpace, or_eq_false_iff, and_eq_false_iff, decide_eq_false_iff_not]
    omega
  next => rwa [h]

theorem eq_dot_of_lowerChar (h : lowerChar c = '.') : c = '.' := by
  unfold lowerChar at h
  split at h
  next hupper =>
    have hlower : ∀ n < 0xE0, 0x41 ≤ n → Char.ofNat (n + 32) ≠ '.' := by decide +kernel
    exact absurd h (hlower c.toNat (by omega) (by omega))
  next => exact h

variable {t word x r : List Char}

/-- The ends of a text that reads so in lower case are no white space. -/
theorem ends_of_lower (h : t.map lowerChar = word) (hword : ∀ c ∈ word, isWhiteSpace c = false) :
    (∀ c, t.head? = some c → isWhiteSpace c = false) ∧
      ∀ c, t.getLast? = some c → isWhiteSpace c = false := by
  have hall : ∀ c ∈ t, isWhiteSpace c = false := by
    intro c hc
    have hmem := List.mem_map_of_mem (f := lowerChar) hc
    rw [h] at hmem
    exact isWhiteSpace_of_lowerChar rfl (hword _ hmem)
  exact ⟨fun c hc ↦ hall c (mem_of_head? hc), fun c hc ↦ hall c (mem_of_getLast? hc)⟩

/-- White space before a domain name is all that `trim` can take away. -/
theorem trim_append {u : List Char} (h : t.map lowerChar = word) (hne : t ≠ [])
    (hword : ∀ c ∈ word, isWhiteSpace c = false) :
    trim (u ++ t) = u.dropWhile isWhiteSpace ++ t := by
  obtain ⟨hhead, hlast⟩ := ends_of_lower h hword
  rw [trim_eq_strip, Text.strip, Text.dropWhile_append_of_stop hhead]
  apply rdropWhile_eq_self_iff.mpr
  intro hnil hblank
  have hsome : (u.dropWhile isWhiteSpace ++ t).getLast? = t.getLast? :=
    getLast?_append_of_ne_nil _ hne
  rw [getLast?_eq_some_getLast hnil] at hsome
  have hnot := hlast _ hsome.symm
  rw [hblank] at hnot
  cases hnot

theorem isPrivosLink_suffix (h : ∃ u t, x = u ++ t ∧ t.map lowerChar = ".privos.link".toList) :
    isPrivosLink (x.map lowerChar) := by
  obtain ⟨u, t, rfl, ht⟩ := h
  unfold isPrivosLink
  rw [map_append, ht, or_eq_true]
  exact .inr (isSuffixOf_iff_suffix.mpr (suffix_append _ _))

/-- What names `privos.link` for a browser does so for the listener. -/
theorem isPrivosLink_trim {w : List Char}
    (h : isPrivosLink ((dropLeadingDot w).map lowerChar)) : targetsPrivosLink w := by
  have hplain : ∀ c ∈ "privos.link".toList, isWhiteSpace c = false := all_iff_forall_prop.mp rfl
  have hdotted : ∀ c ∈ ".privos.link".toList, isWhiteSpace c = false :=
    all_iff_forall_prop.mp rfl
  unfold targetsPrivosLink
  have hw : w = dropLeadingDot w ∨ w = '.' :: dropLeadingDot w := by
    unfold dropLeadingDot
    split
    · exact .inr rfl
    · exact .inl rfl
  obtain heq | hsuffix := or_eq_true_iff.mp h
  · -- The whole name: there is nothing to trim.
    have hlower := of_decide_eq_true heq
    have hne : dropLeadingDot w ≠ [] := by
      intro hnil
      rw [hnil] at hlower
      cases hlower
    have htrim : trim w = w := by
      obtain hw | hw := hw
      · have happend := trim_append (u := []) hlower hne hplain
        rw [← hw] at happend
        exact happend
      · have happend := trim_append (u := ['.']) hlower hne hplain
        rw [singleton_append, ← hw] at happend
        rw [happend]
        exact hw.symm
    rw [htrim]
    unfold isPrivosLink
    rw [heq]
    rfl
  · obtain ⟨y, hy⟩ := isSuffixOf_iff_suffix.mp hsuffix
    obtain ⟨u, t, hsplit, -, ht⟩ := map_eq_append_iff.mp hy.symm
    have hne : t ≠ [] := by
      intro hnil
      rw [hnil] at ht
      cases ht
    obtain ⟨v, hv⟩ : ∃ v, w = v ++ t := by
      obtain hw | hw := hw
      · exact ⟨u, by rw [hw, hsplit]⟩
      · exact ⟨'.' :: u, by rw [hw, hsplit]; rfl⟩
    rw [hv, trim_append ht hne hdotted]
    cases hdrop : v.dropWhile isWhiteSpace with
    | nil =>
      cases t with
      | nil => exact absurd rfl hne
      | cons c t =>
        obtain ⟨hc, hrest⟩ := List.cons.inj ht
        have hdot := eq_dot_of_lowerChar hc
        subst hdot
        have hdropped : dropLeadingDot ([] ++ '.' :: t) = t := rfl
        rw [hdropped]
        rw [hrest]
        rfl
    | cons c v =>
      apply isPrivosLink_suffix
      by_cases hc : c = '.'
      · subst hc
        exact ⟨v, t, rfl, ht⟩
      · refine ⟨c :: v, t, ?_, ht⟩
        unfold dropLeadingDot
        split
        next heq => exact absurd (List.cons.inj heq).1 hc
        next => rfl

theorem targetsPrivosLink_congr {y : List Char} (h : trim x = trim y) :
    targetsPrivosLink x = targetsPrivosLink y := by
  unfold targetsPrivosLink
  rw [h]

theorem isWhiteSpace_of_toLower {d : Char} (h : c.toLower = d) (hd : isWhiteSpace d = false) :
    isWhiteSpace c = false := by
  by_contra hblank
  have hsame : c.toLower = c := by
    have hupper : ¬ (c.val ≥ 'A'.val ∧ c.val ≤ 'Z'.val) := by
      intro hrange
      have hlow : 65 ≤ c.toNat := hrange.1
      have hhigh : c.toNat ≤ 90 := hrange.2
      simp only [isWhiteSpace, not_eq_false, or_eq_true, and_eq_true,
        decide_eq_true_eq] at hblank
      omega
    exact dif_neg hupper
  rw [hsame] at h
  rw [h, hd] at hblank
  exact hblank rfl

/-- Where a browser finds a domain the regular expression matches, and it captures the same name. -/
theorem match_of_domain {domain : List Char} (h : (parseAttribute field).domain = some domain) :
    ∃ value, matchDomainName field = some value ∧
      (isPrivosLink domain = true → targetsPrivosLink value = true) := by
  unfold CookieAttribute.domain at h
  split at h
  next hlower =>
    obtain ⟨v, hv, hdomain⟩ := map_eq_some_iff.mp h
    have hsome := (filter_eq_some_iff.mp hv).1
    obtain hplain | ⟨n, v0, rfl, hn⟩ := field_cases field
    · rw [parseAttribute_plain hplain] at hsome
      cases hsome
    · rw [parseAttribute_pair hn] at hsome hlower
      obtain ⟨w1, w2, hsplit, hw1, hw2⟩ := Text.exists_eq_strip isWsp n
      generalize Text.strip isWsp n = d at hsplit hlower
      have hlength : d.length = 6 := by
        have hmap := congrArg length hlower
        rwa [length_map] at hmap
      have hname : (n ++ '=' :: v0).dropWhile isWhiteSpace = d ++ (w2 ++ '=' :: v0) := by
        rw [hsplit, append_assoc, append_assoc,
          dropWhile_append_of_pos fun c hc ↦ isWhiteSpace_of_isWsp (hw1 c hc)]
        cases d with
        | nil => cases hlength
        | cons c d =>
          have hc : isWhiteSpace c = false :=
            isWhiteSpace_of_toLower (List.cons.inj hlower).1 (by decide)
          exact dropWhile_cons_of_neg (by simp [hc])
      have hequals : (w2 ++ '=' :: v0).dropWhile isWhiteSpace = '=' :: v0 := by
        rw [dropWhile_append_of_pos fun c hc ↦ isWhiteSpace_of_isWsp (hw2 c hc)]
        rfl
      have hmatch : matchDomainName (n ++ '=' :: v0) = some (v0.dropWhile isWhiteSpace) := by
        unfold matchDomainName
        dsimp only
        rw [hname, take_left' hlength, drop_left' hlength, if_pos hlower, hequals]
        rfl
      refine ⟨_, hmatch, ?_⟩
      intro hprivos
      rw [← hdomain] at hprivos
      have htarget := isPrivosLink_trim hprivos
      have htrim : trim (v0.dropWhile isWhiteSpace) = trim v := by
        rw [← some.inj hsome, trim_eq_strip, trim_eq_strip, Text.strip_dropWhile,
          Text.strip_strip fun c ↦ isWhiteSpace_of_isWsp]
      rw [targetsPrivosLink_congr htrim]
      exact htarget
  next => cases h

/-! ## Cookies -/

section Cookies

variable {field : List Char} {fields : List (List Char)}

theorem parseCookie_fields (h : ∀ f ∈ field :: fields, ';' ∉ f) :
    parseCookie (field ++ joinFields fields) =
      ⟨parseAttribute field, fields.map parseAttribute⟩ := by
  have hjoin : field ++ joinFields fields = [';'].intercalate (field :: fields) :=
    (Text.intercalate_cons field fields).symm
  unfold parseCookie
  rw [hjoin, splitOn_intercalate ';' h (cons_ne_nil _ _)]

theorem exists_fields (s : List Char) : ∃ field fields,
    s = field ++ joinFields fields ∧ ∀ f ∈ field :: fields, ';' ∉ f := by
  have hall : ∀ f ∈ s.splitOn ';', ';' ∉ f := fun f hf ↦ Text.not_mem_of_mem_splitOn hf
  have hjoin : [';'].intercalate (s.splitOn ';') = s := intercalate_splitOn ';'
  cases hsplit : s.splitOn ';' with
  | nil => exact absurd hsplit (splitOn_ne_nil ';' s)
  | cons field fields =>
    rw [hsplit] at hall hjoin
    refine ⟨field, fields, ?_, hall⟩
    rw [← hjoin]
    exact Text.intercalate_cons field fields

variable {blank : Char → Bool}

theorem strip_fields_concat (hblank : blank ';' = false) (last : List Char) :
    Text.strip blank (field ++ joinFields (fields ++ [last])) =
      field.dropWhile blank ++ joinFields (fields ++ [last.rdropWhile blank]) := by
  have hjoin : ∀ f fs, f ++ joinFields fs = [';'].intercalate (f :: fs) := fun f fs ↦
    (Text.intercalate_cons f fs).symm
  rw [hjoin, Text.strip, Text.dropWhile_intercalate hblank, ← cons_append,
    Text.rdropWhile_intercalate hblank, cons_append, ← hjoin]

theorem parseCookie_strip_single (blank : Char → Bool) (h : ';' ∉ field) :
    parseCookie (Text.strip blank field) = ⟨parseAttribute (Text.strip blank field), []⟩ := by
  have hfields : ∀ f ∈ [Text.strip blank field], ';' ∉ f := by
    intro f hf hmem
    rw [mem_singleton.mp hf] at hmem
    exact h (dropWhile_subset _ (List.IsPrefix.subset ( rdropWhile_prefix blank _) hmem))
  have hplain : Text.strip blank field ++ joinFields [] = Text.strip blank field :=
    append_nil _
  have hparse := parseCookie_fields hfields
  rwa [hplain] at hparse

theorem parseCookie_strip_concat {last : List Char} (hblank : blank ';' = false)
    (h : ∀ f ∈ field :: (fields ++ [last]), ';' ∉ f) :
    parseCookie (Text.strip blank (field ++ joinFields (fields ++ [last]))) =
      ⟨parseAttribute (field.dropWhile blank),
        fields.map parseAttribute ++ [parseAttribute (last.rdropWhile blank)]⟩ := by
  have hfields : ∀ f ∈ field.dropWhile blank :: (fields ++ [last.rdropWhile blank]), ';' ∉ f := by
    intro f hf hmem
    obtain rfl | hf := mem_cons.mp hf
    · exact h field mem_cons_self (dropWhile_subset _ hmem)
    · obtain hf | hf := mem_append.mp hf
      · exact h f (by simp [hf]) hmem
      · rw [mem_singleton.mp hf] at hmem
        exact h last (by simp) (List.IsPrefix.subset ( rdropWhile_prefix blank _) hmem)
  rw [strip_fields_concat hblank, parseCookie_fields hfields, map_append]
  rfl

/-- Spaces and tabs around a value do not matter. -/
theorem parseCookie_strip (s : List Char) : parseCookie (Text.strip isWsp s) = parseCookie s := by
  obtain ⟨field, fields, rfl, hfields⟩ := exists_fields s
  obtain rfl | ⟨fields, last, rfl⟩ := eq_nil_or_concat fields
  · have hplain : field ++ joinFields [] = field := append_nil field
    rw [parseCookie_fields hfields, hplain,
      parseCookie_strip_single isWsp (hfields field mem_cons_self), Text.strip,
      parseAttribute_rdropWhile, parseAttribute_dropWhile]
    rfl
  · rw [concat_eq_append] at hfields ⊢
    rw [parseCookie_strip_concat (by decide) hfields, parseCookie_fields hfields,
      parseAttribute_dropWhile, parseAttribute_rdropWhile, map_append]
    rfl

end Cookies

/-! ## What trimming changes -/

/-- A field that begins with no white space gives no attribute that does. -/
theorem head_of_trimmed (h : ∀ c, field.head? = some c → isWhiteSpace c = false) :
    ∀ c, (parseAttribute field).name.head? = some c → isWhiteSpace c = false := by
  intro c hc
  have hfield := field_of_head hc
  have hself : field.dropWhile isWsp = field := by
    cases field with
    | nil => rfl
    | cons d rest =>
      apply dropWhile_cons_of_neg
      intro hblank
      have hd := h d rfl
      rw [isWhiteSpace_of_isWsp hblank] at hd
      cases hd
  rw [hself] at hfield
  exact h c hfield

/-- A field that ends with no white space gives no attribute that does. -/
theorem last_of_trimmed (h : ∀ c, field.getLast? = some c → isWhiteSpace c = false) :
    ∀ c, (parseAttribute field).last = some c → isWhiteSpace c = false := by
  intro c hc
  have hfield := field_of_last hc
  have hself : field.rdropWhile isWsp = field := by
    apply rdropWhile_eq_self_iff.mpr
    intro hne hblank
    have hd := h _ (getLast?_eq_some_getLast hne)
    rw [isWhiteSpace_of_isWsp hblank] at hd
    cases hd
  rw [hself] at hfield
  exact h c hfield

theorem trim_eq_self {s : List Char} (hhead : ∀ c, s.head? = some c → isWhiteSpace c = false)
    (hlast : ∀ c, s.getLast? = some c → isWhiteSpace c = false) : trim s = s := by
  have hdrop : s.dropWhile isWhiteSpace = s := by
    cases s with
    | nil => rfl
    | cons c rest => exact dropWhile_cons_of_neg (by simp [hhead c rfl])
  rw [trim_eq_strip, Text.strip, hdrop]
  apply rdropWhile_eq_self_iff.mpr
  intro hne hblank
  have hd := hlast _ (getLast?_eq_some_getLast hne)
  rw [hblank] at hd
  cases hd

theorem getLast?_of_isPrivosLink {domain : List Char} (h : isPrivosLink domain = true) :
    domain.getLast? = some 'k' := by
  obtain heq | hsuffix := or_eq_true_iff.mp h
  · rw [of_decide_eq_true heq]
    rfl
  · obtain ⟨u, hu⟩ := isSuffixOf_iff_suffix.mp hsuffix
    rw [← hu, getLast?_append_of_ne_nil _ (by decide)]
    rfl

/-- An attribute that ends with white space names no part of `privos.link`. -/
theorem not_namesPrivosLink {attr : CookieAttribute} (h : attr.last = some c)
    (hc : isWhiteSpace c = true) : attr.namesPrivosLink = false := by
  by_contra hnames
  rw [not_eq_false, CookieAttribute.namesPrivosLink, Option.any_eq_true] at hnames
  obtain ⟨domain, hdomain, hprivos⟩ := hnames
  unfold CookieAttribute.domain at hdomain
  split at hdomain
  · obtain ⟨value, hvalue, rfl⟩ := map_eq_some_iff.mp hdomain
    have hsome := (filter_eq_some_iff.mp hvalue).1
    have hlast := getLast?_of_isPrivosLink hprivos
    rw [getLast?_map] at hlast
    obtain ⟨d, hd, hlower⟩ := map_eq_some_iff.mp hlast
    have hvalue_last : value.getLast? = some d := by
      unfold dropLeadingDot at hd
      split at hd
      · rw [getLast?_cons, hd]
        rfl
      · exact hd
    rw [CookieAttribute.last, hsome, getD_some, hvalue_last] at h
    have hblank := isWhiteSpace_of_lowerChar hlower (by decide)
    rw [some.inj h, hc] at hblank
    cases hblank
  · cases hdomain

section Trimmed

variable {field last : List Char} {fields : List (List Char)}

theorem head_dropWhile_fields {c : Char} (hc : isWhiteSpace c = true)
    (h : ((field ++ joinFields fields).dropWhile isWsp).head? = some c) :
    (field.dropWhile isWsp).head? = some c := by
  have hstop : ∀ d, (joinFields fields).head? = some d → isWsp d = false := by
    intro d hd
    rw [followsField_joinFields fields d hd]
    decide
  rw [Text.dropWhile_append_of_stop hstop, head?_append] at h
  cases hdrop : (field.dropWhile isWsp).head? with
  | some d =>
    rw [hdrop] at h
    exact h
  | none =>
    rw [hdrop] at h
    rw [followsField_joinFields fields c h] at hc
    exact absurd hc (by decide)

theorem getLast_rdropWhile_fields {c : Char} (hc : isWhiteSpace c = true)
    (h : ((field ++ joinFields (fields ++ [last])).rdropWhile isWsp).getLast? = some c) :
    (last.rdropWhile isWsp).getLast? = some c := by
  have hjoin : field ++ joinFields (fields ++ [last]) =
      (field ++ joinFields fields ++ [';']) ++ last := by simp [joinFields]
  have hstop : ∀ d, (field ++ joinFields fields ++ [';']).getLast? = some d → isWsp d = false := by
    intro d hd
    rw [getLast?_concat] at hd
    rw [← some.inj hd]
    decide
  rw [hjoin, Text.rdropWhile_append_of_stop hstop] at h
  cases hdrop : last.rdropWhile isWsp with
  | nil =>
    rw [hdrop, append_nil, getLast?_concat] at h
    rw [← some.inj h] at hc
    exact absurd hc (by decide)
  | cons d rest =>
    rw [hdrop, getLast?_append_of_ne_nil _ (cons_ne_nil _ _)] at h
    exact h

end Trimmed

/-- White space at the beginning that is no space or tab belongs to the name of the pair. -/
theorem pair_of_trim (h : (r.dropWhile isWsp).head? = some c) (hc : isWhiteSpace c = true) :
    (parseCookie (trim r)).pair ≠ (parseCookie r).pair := by
  obtain ⟨field, fields, rfl, hfields⟩ := exists_fields r
  have hname : (parseAttribute field).name.head? = some c := by
    apply head_of_field (head_dropWhile_fields hc h)
    rintro rfl
    exact absurd hc (by decide)
  obtain ⟨first, hpair, hfirst⟩ : ∃ first,
      (parseCookie (trim (field ++ joinFields fields))).pair = parseAttribute first ∧
        ∀ d, first.head? = some d → isWhiteSpace d = false := by
    obtain rfl | ⟨fields, last, rfl⟩ := eq_nil_or_concat fields
    · have hplain : field ++ joinFields [] = field := append_nil field
      rw [hplain, trim_eq_strip, parseCookie_strip_single isWhiteSpace (hfields field mem_cons_self)]
      refine ⟨_, rfl, ?_⟩
      intro d hd
      rw [Text.head?_strip] at hd
      exact Text.blank_of_head?_dropWhile hd
    · rw [concat_eq_append] at hfields ⊢
      rw [trim_eq_strip, parseCookie_strip_concat (by decide) hfields]
      exact ⟨_, rfl, fun d hd ↦ Text.blank_of_head?_dropWhile hd⟩
  rw [hpair, parseCookie_fields hfields]
  intro heq
  have hsame : parseAttribute first = parseAttribute field := heq
  rw [← hsame] at hname
  have hnot := head_of_trimmed hfirst c hname
  rw [hc] at hnot
  cases hnot

/-- What `trim` takes away besides spaces and tabs was part of the first or of the last field. -/
theorem changes_of_trim (h : trim r ≠ Text.strip isWsp r) :
    (parseCookie (trim r)).pair ≠ (parseCookie r).pair ∨
      ∃ rest attr attr', (parseCookie r).attributes = rest ++ [attr] ∧
        (parseCookie (trim r)).attributes = rest ++ [attr'] ∧ attr' ≠ attr ∧
        attr.namesPrivosLink = false := by
  by_cases hstart : ∃ c, (r.dropWhile isWsp).head? = some c ∧ isWhiteSpace c = true
  · obtain ⟨c, hhead, hc⟩ := hstart
    exact .inl (pair_of_trim hhead hc)
  by_cases hend : ∃ c, (r.rdropWhile isWsp).getLast? = some c ∧ isWhiteSpace c = true
  · obtain ⟨c, hlast, hc⟩ := hend
    have hequals : c ≠ '=' := by
      rintro rfl
      exact absurd hc (by decide)
    have hdiffers : ∀ {f g : List Char}, (f.rdropWhile isWsp).getLast? = some c →
        (∀ d, g.getLast? = some d → isWhiteSpace d = false) →
        parseAttribute g ≠ parseAttribute f := by
      intro f g hf hg heq
      have hnot := last_of_trimmed hg c (by rw [heq, last_of_field hf hequals])
      rw [hc] at hnot
      cases hnot
    obtain ⟨field, fields, rfl, hfields⟩ := exists_fields r
    obtain rfl | ⟨fields, last, rfl⟩ := eq_nil_or_concat fields
    · have hplain : field ++ joinFields [] = field := append_nil field
      rw [parseCookie_fields hfields, hplain, trim_eq_strip,
        parseCookie_strip_single isWhiteSpace (hfields field mem_cons_self)]
      rw [hplain] at hlast
      apply Or.inl
      apply hdiffers hlast
      intro d hd
      exact Text.blank_of_getLast?_rdropWhile hd
    · rw [concat_eq_append] at hfields hlast ⊢
      have hfield := getLast_rdropWhile_fields hc hlast
      rw [parseCookie_fields hfields, trim_eq_strip, parseCookie_strip_concat (by decide) hfields,
        map_append]
      apply Or.inr
      refine ⟨_, _, _, rfl, rfl, ?_, not_namesPrivosLink (last_of_field hfield hequals) hc⟩
      exact hdiffers hfield fun d hd ↦ Text.blank_of_getLast?_rdropWhile hd
  · -- The ends of the text without spaces and tabs are no white space.
    exfalso
    apply h
    have htrim : trim r = trim (Text.strip isWsp r) :=
      (Text.strip_strip fun c ↦ isWhiteSpace_of_isWsp).symm
    rw [htrim]
    apply trim_eq_self
    · intro c hc
      rw [Text.head?_strip] at hc
      by_contra hblank
      exact hstart ⟨c, hc, by simpa using hblank⟩
    · intro c hc
      rw [Text.getLast?_strip] at hc
      by_contra hblank
      exact hend ⟨c, hc, by simpa using hblank⟩

/-! ## When the domain is stripped -/

/-- The first field after the pair that the regular expression matches, and the fields around it. -/
structure FirstMatch (s field : List Char) (earlier : List (List Char)) (first value : List Char)
    (later : List (List Char)) : Prop where
  fields : s.splitOn ';' = field :: (earlier ++ first :: later)
  unmatched : ∀ f ∈ earlier, matchDomainName f = none
  matched : matchDomainName first = some value

/-- The last domain named after the first match is not `privos.link` or a subdomain. When the match
is taken out, a browser finds such a name in it too, and `trim` takes away spaces and tabs only. -/
def Strippable (s : List Char) : Prop :=
  ∀ field earlier first value later, FirstMatch s field earlier first value later →
    (∀ domain, lastDomain (later.map parseAttribute) = some domain → isPrivosLink domain = false) ∧
      (targetsPrivosLink value = true → (parseAttribute first).namesPrivosLink = true ∧
        trim (field ++ joinFields (earlier ++ later)) =
          Text.strip isWsp (field ++ joinFields (earlier ++ later)))

theorem lastDomain_append (attrs attrs' : List CookieAttribute) :
    lastDomain (attrs ++ attrs') = (lastDomain attrs').or (lastDomain attrs) := by
  unfold lastDomain
  rw [filterMap_append, getLast?_append]

/-- Fields without a match name no domain. -/
theorem lastDomain_unmatched {fields : List (List Char)}
    (h : ∀ f ∈ fields, matchDomainName f = none) :
    lastDomain (fields.map parseAttribute) = none := by
  have hnil : (fields.map parseAttribute).filterMap CookieAttribute.domain = [] := by
    apply filterMap_eq_nil_iff.mpr
    intro attr hattr
    obtain ⟨f, hf, rfl⟩ := List.mem_map.mp hattr
    cases hdomain : (parseAttribute f).domain with
    | none => rfl
    | some domain =>
      obtain ⟨value, hvalue, -⟩ := match_of_domain hdomain
      rw [h f hf] at hvalue
      cases hvalue
  unfold lastDomain
  rw [hnil]
  rfl

/-- The first field with a match is found in one place only. -/
theorem firstMatch_unique {first first' value value' : List Char}
    {later later' : List (List Char)} :
    ∀ {earlier earlier' : List (List Char)},
      earlier ++ first :: later = earlier' ++ first' :: later' →
      (∀ f ∈ earlier, matchDomainName f = none) → matchDomainName first = some value →
      (∀ f ∈ earlier', matchDomainName f = none) → matchDomainName first' = some value' →
      earlier = earlier' ∧ first = first' ∧ later = later'
  | [], [], h, _, _, _, _ => by
    obtain ⟨hfirst, hlater⟩ := List.cons.inj h
    exact ⟨rfl, hfirst, hlater⟩
  | [], field :: earlier', h, _, hvalue, hnone', _ => by
    obtain ⟨rfl, -⟩ := List.cons.inj h
    rw [hnone' first mem_cons_self] at hvalue
    cases hvalue
  | field :: earlier, [], h, hnone, _, _, hvalue' => by
    obtain ⟨rfl, -⟩ := List.cons.inj h
    rw [hnone field mem_cons_self] at hvalue'
    cases hvalue'
  | field :: earlier, field' :: earlier', h, hnone, hvalue, hnone', hvalue' => by
    obtain ⟨rfl, htail⟩ := List.cons.inj h
    obtain ⟨rfl, hrest⟩ := firstMatch_unique htail (fun f hf ↦ hnone f (mem_cons_of_mem _ hf))
      hvalue (fun f hf ↦ hnone' f (mem_cons_of_mem _ hf)) hvalue'
    exact ⟨rfl, hrest⟩

theorem exists_firstMatch (fields : List (List Char)) :
    (∀ f ∈ fields, matchDomainName f = none) ∨
      ∃ earlier first value later, fields = earlier ++ first :: later ∧
        (∀ f ∈ earlier, matchDomainName f = none) ∧ matchDomainName first = some value := by
  induction fields with
  | nil => exact .inl fun _ hf ↦ nomatch hf
  | cons field fields ih =>
    cases hfield : matchDomainName field with
    | some value =>
      exact .inr ⟨[], field, value, fields, rfl, (fun f hf ↦ absurd hf not_mem_nil), hfield⟩
    | none =>
      obtain hnone | ⟨earlier, first, value, later, rfl, hnone, hvalue⟩ := ih
      · apply Or.inl
        intro f hf
        obtain rfl | hf := mem_cons.mp hf
        · exact hfield
        · exact hnone f hf
      · apply Or.inr
        refine ⟨field :: earlier, first, value, later, rfl, ?_, hvalue⟩
        intro f hf
        obtain rfl | hf := mem_cons.mp hf
        · exact hfield
        · exact hnone f hf

namespace FirstMatch

variable {s field first value : List Char} {earlier later : List (List Char)}

theorem not_mem (h : FirstMatch s field earlier first value later) :
    ∀ f ∈ field :: (earlier ++ first :: later), ';' ∉ f := by
  intro f hf
  rw [← h.fields] at hf
  exact Text.not_mem_of_mem_splitOn hf

theorem text (h : FirstMatch s field earlier first value later) :
    s = field ++ joinFields (earlier ++ first :: later) := by
  have hjoin : [';'].intercalate (s.splitOn ';') = s := intercalate_splitOn ';'
  rw [h.fields] at hjoin
  rw [← hjoin]
  exact Text.intercalate_cons _ _

theorem strip (h : FirstMatch s field earlier first value later) :
    stripPrivosLinkCookieDomain s =
      if targetsPrivosLink value then trim (field ++ joinFields (earlier ++ later)) else s := by
  have hfield := h.not_mem field mem_cons_self
  have hearlier : ∀ f ∈ earlier, ';' ∉ f := fun f hf ↦ h.not_mem f (by simp [hf])
  have hjoin : field ++ joinFields earlier ++ joinFields later =
      field ++ joinFields (earlier ++ later) := by simp [joinFields]
  have hexec : execDomainAttribute s =
      some (field ++ joinFields earlier, value, joinFields later) := by
    rw [h.text, execDomainAttribute_append hfield, execDomainAttribute_eq_some hearlier h.unmatched
      (h.not_mem first (by simp)) h.matched]
    rfl
  unfold stripPrivosLinkCookieDomain
  rw [hexec]
  dsimp only
  rw [hjoin]

theorem cookie (h : FirstMatch s field earlier first value later) :
    parseCookie s = ⟨parseAttribute field, earlier.map parseAttribute ++
      parseAttribute first :: later.map parseAttribute⟩ := by
  rw [h.text, parseCookie_fields h.not_mem, map_append, map_cons]

theorem rest (h : FirstMatch s field earlier first value later) :
    parseCookie (field ++ joinFields (earlier ++ later)) =
      ⟨parseAttribute field, earlier.map parseAttribute ++ later.map parseAttribute⟩ := by
  have hfields : ∀ f ∈ field :: (earlier ++ later), ';' ∉ f := by
    intro f hf
    apply h.not_mem f
    obtain rfl | hf := mem_cons.mp hf
    · exact mem_cons_self
    · rcases mem_append.mp hf with hf | hf <;> simp [hf]
  rw [parseCookie_fields hfields, map_append]

/-- The first match is left in place: it names no part of `privos.link`. -/
theorem kept (h : FirstMatch s field earlier first value later)
    (htarget : targetsPrivosLink value = false) :
    StripsDomain s ↔ ∀ domain, lastDomain (later.map parseAttribute) = some domain →
      isPrivosLink domain = false := by
  have hsame : stripPrivosLinkCookieDomain s = s := by
    rw [h.strip, htarget]
    rfl
  have hfirst : ∀ domain, (parseAttribute first).domain = some domain →
      isPrivosLink domain = false := by
    intro domain hdomain
    obtain ⟨value', hvalue, hprivos⟩ := match_of_domain hdomain
    rw [h.matched] at hvalue
    rw [← some.inj hvalue, htarget] at hprivos
    simpa using hprivos
  have hdomain : (parseCookie s).effectiveDomain =
      (lastDomain (later.map parseAttribute)).or (parseAttribute first).domain := by
    have hcons : parseAttribute first :: later.map parseAttribute =
        [parseAttribute first] ++ later.map parseAttribute := rfl
    have hsingle : lastDomain [parseAttribute first] = (parseAttribute first).domain := by
      unfold lastDomain
      cases hd : (parseAttribute first).domain <;> simp [hd]
    rw [Cookie.effectiveDomain, h.cookie, lastDomain_append, lastDomain_unmatched h.unmatched,
      or_none, hcons, lastDomain_append, hsingle]
  constructor
  · intro hstrips domain hlast
    apply hstrips.domain domain
    rw [hsame, hdomain, hlast]
    rfl
  · intro hlater
    constructor
    · intro domain heffective
      rw [hsame, hdomain] at heffective
      obtain hlast | ⟨-, hown⟩ := or_eq_some_iff.mp heffective
      · exact hlater domain hlast
      · exact hfirst domain hown
    · rw [hsame]
    · rw [hsame]

theorem others (h : FirstMatch s field earlier first value later) :
    (parseCookie s).others = if (parseAttribute first).namesPrivosLink then
        (parseCookie (field ++ joinFields (earlier ++ later))).others
      else (earlier.map parseAttribute).filter (fun attr ↦ !attr.namesPrivosLink) ++
        parseAttribute first ::
          (later.map parseAttribute).filter fun attr ↦ !attr.namesPrivosLink := by
  unfold Cookie.others
  rw [h.cookie, h.rest]
  rw [filter_append, filter_append, filter_cons]
  cases (parseAttribute first).namesPrivosLink <;> rfl

/-- A first match that names `privos.link` for the listener only is missed among the others. -/
theorem length_others (h : FirstMatch s field earlier first value later)
    (hnames : (parseAttribute first).namesPrivosLink = false) :
    (parseCookie s).others.length =
      (parseCookie (field ++ joinFields (earlier ++ later))).others.length + 1 := by
  rw [h.others, hnames, h.rest]
  simp [Cookie.others]
  omega

/-- The first match is taken out. -/
theorem taken (h : FirstMatch s field earlier first value later)
    (htarget : targetsPrivosLink value = true) :
    StripsDomain s ↔
      (∀ domain, lastDomain (later.map parseAttribute) = some domain →
        isPrivosLink domain = false) ∧
      (parseAttribute first).namesPrivosLink = true ∧
        trim (field ++ joinFields (earlier ++ later)) =
          Text.strip isWsp (field ++ joinFields (earlier ++ later)) := by
  have hstrip : stripPrivosLinkCookieDomain s = trim (field ++ joinFields (earlier ++ later)) := by
    rw [h.strip, htarget]
    rfl
  have hpair : (parseCookie (field ++ joinFields (earlier ++ later))).pair =
      (parseCookie s).pair := by rw [h.rest, h.cookie]
  by_cases htrim : trim (field ++ joinFields (earlier ++ later)) =
      Text.strip isWsp (field ++ joinFields (earlier ++ later))
  · have hcookie : parseCookie (stripPrivosLinkCookieDomain s) =
        parseCookie (field ++ joinFields (earlier ++ later)) := by
      rw [hstrip, htrim, parseCookie_strip]
    have hdomain : (parseCookie (field ++ joinFields (earlier ++ later))).effectiveDomain =
        lastDomain (later.map parseAttribute) := by
      rw [Cookie.effectiveDomain, h.rest, lastDomain_append, lastDomain_unmatched h.unmatched,
        or_none]
    constructor
    · intro hstrips
      refine ⟨?_, ?_, htrim⟩
      · intro domain hlast
        apply hstrips.domain domain
        rw [hcookie, hdomain, hlast]
      · by_contra hnames
        have hlength := h.length_others (by simpa using hnames)
        rw [← hstrips.others, hcookie] at hlength
        omega
    · intro hcond
      constructor
      · intro domain heffective
        rw [hcookie, hdomain] at heffective
        exact hcond.1 domain heffective
      · rw [hcookie, hpair]
      · rw [hcookie, h.others, hcond.2.1]
        rfl
  · -- What `trim` takes away shows in the pair or in the last attribute.
    apply iff_of_false _ fun hcond ↦ htrim hcond.2.2
    intro hstrips
    obtain hchanged | ⟨attrs, attr, attr', hold, hnew, hne, hnames⟩ := changes_of_trim htrim
    · rw [← hstrip, hpair] at hchanged
      exact hchanged hstrips.pair
    · have hothers := hstrips.others
      rw [hstrip] at hothers
      have hrest : (parseCookie (field ++ joinFields (earlier ++ later))).others =
          attrs.filter (fun attr ↦ !attr.namesPrivosLink) ++ [attr] := by
        rw [Cookie.others, hold]
        simp [hnames]
      have htrimmed : (parseCookie (trim (field ++ joinFields (earlier ++ later)))).others =
          attrs.filter (fun attr ↦ !attr.namesPrivosLink) ++
            [attr'].filter fun attr ↦ !attr.namesPrivosLink := by
        rw [Cookie.others, hnew, filter_append]
      have hlength := congrArg length hothers
      rw [htrimmed] at hlength
      have hle : ([attr'].filter fun attr ↦ !attr.namesPrivosLink).length ≤ 1 :=
        length_filter_le _ _
      cases hfirst : (parseAttribute first).namesPrivosLink with
      | false =>
        rw [h.length_others hfirst, hrest] at hlength
        simp only [length_append, length_singleton] at hlength
        omega
      | true =>
        rw [h.others, hfirst, hrest, htrimmed] at hothers
        have hsame := append_cancel_left hothers
        have hmem : attr ∈ [attr'].filter fun attr ↦ !attr.namesPrivosLink := by
          rw [hsame]
          exact mem_cons_self
        exact hne (mem_singleton.mp (mem_filter.mp hmem).1).symm

end FirstMatch

end PrivosCluster.Routing
