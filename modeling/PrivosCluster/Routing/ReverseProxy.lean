import PrivosCluster.Routing.CanonicalPaths
import PrivosCluster.Routing.ProxyRouter

/-!
# The loopback proxy

The proxy refuses the private surfaces of an application by the path that the `URL` parser reads in
a request target. Over HTTP the target is read once more, behind the origin of the container; an
upgrade carries it as it came, and the container reads it by its slashes alone.
-/

namespace PrivosCluster.Routing.ReverseProxy

open List Bool Url Option

/-! ## The proxy -/

section Proxy

variable (hostOf : List Char → Option (List Char)) (other : List Char → Option Url.Location)

/-- An absolute target has the scheme of the placeholder; `other` reads what does not begin with a
slash otherwise. -/
def absolute (text : List Char) : Option Url.Location :=
  if (text.take 7).map Char.toLower = "http://".toList then Url.authorityState hostOf (text.drop 7)
  else other text

/-- `new URL(rawUrl || '/', 'http://privos-app.invalid')`. -/
def placeholderUrl (rawUrl : Option String) : Option Url.Location :=
  Url.resolve hostOf (absolute hostOf other) "privos-app.invalid".toList
    ((truthy rawUrl).getD "/").toList

def isPublicMcpPathBlocked (target : ResolvedTarget) (rawUrl : Option String) : Bool :=
  if !target.mcpV2 then false
  else match placeholderUrl hostOf other rawUrl with
  | none => true
  | some url => isBlockedMcpPath (String.ofList url.target.pathname)

inductive Exchange where
  | badGateway
  | notFound
  | destroyed
  /-- A request to the container, with the target that it carries. -/
  | upstream (url : String) (requestTarget : List Char)

def handleRequest (target : Option ResolvedTarget) (req : HttpRequest) : Exchange :=
  match target with
  | none => .badGateway
  | some target =>
    if isPublicMcpPathBlocked hostOf other target req.url then .notFound
    else match Url.parse (req.url.getD "/").toList with
    | none => .badGateway
    | some sent => .upstream target.url sent.serialize

def handleUpgrade (target : Option ResolvedTarget) (req : HttpRequest) : Exchange :=
  match target with
  | none => .destroyed
  | some target =>
    if isPublicMcpPathBlocked hostOf other target req.url then .destroyed
    else .upstream target.url (req.url.getD "undefined").toList

end Proxy

/-! ## The container -/

/-- The path in a request target; in an absolute one it follows the authority. -/
def targetPath (raw : List Char) : List Char :=
  if (raw.take 7).map Char.toLower = "http://".toList then
    Url.pathOf ((raw.drop 7).dropWhile fun c ↦ c ≠ '/' && Url.inPath c)
  else Url.pathOf raw

/-- A server may decode the escapes of a dot before it looks for dot segments. -/
def isParent (decodes : Bool) (segment : List Char) : Bool :=
  segment = ['.', '.'] || (decodes && Url.isDoubleDot segment)

def isCurrent (decodes : Bool) (segment : List Char) : Bool :=
  segment = ['.'] || (decodes && Url.isSingleDot segment)

def removeDots (decodes : Bool) : List (List Char) → List (List Char) → List (List Char)
  | path, [] => path
  | path, [segment] =>
    if isParent decodes segment then path.dropLast ++ [[]]
    else if isCurrent decodes segment then path ++ [[]]
    else path ++ [segment]
  | path, segment :: next :: segments =>
    if isParent decodes segment then removeDots decodes path.dropLast (next :: segments)
    else if isCurrent decodes segment then removeDots decodes path (next :: segments)
    else removeDots decodes (path ++ [segment]) (next :: segments)

def dropRoot : List Char → List Char
  | '/' :: path => path
  | path => path

/-- The path that a server reads which resolves dot segments. -/
def serverPath (decodes : Bool) (raw : List Char) : List Char :=
  (removeDots decodes [] ((dropRoot (targetPath raw)).splitOn '/')).flatMap ('/' :: ·)

/-- Whatever the proxy sends has the path that it has tested, and no blocked one. -/
structure Agrees (hostOf : List Char → Option (List Char)) (other : List Char → Option Url.Location)
    (target : ResolvedTarget) (req : HttpRequest) : Prop where
  request : ∀ url sent, handleRequest hostOf other (some target) req = .upstream url sent →
    isBlockedMcpPath (String.ofList (Url.pathOf sent)) = false ∧
      ∃ tested, placeholderUrl hostOf other req.url = some tested ∧
        Url.pathOf sent = tested.target.pathname
  upgrade : ∀ url sent, handleUpgrade hostOf other (some target) req = .upstream url sent →
    ∀ decodes, isBlockedMcpPath (String.ofList (serverPath decodes sent)) = false ∧
      ∃ tested, placeholderUrl hostOf other req.url = some tested ∧
        Url.SameSegments (serverPath decodes sent) tested.target.pathname

/-! ## Direct targets -/

/-- A path that the parser and a server read alike. -/
structure DirectPath (text : List Char) : Prop where
  chars : ∀ c ∈ Url.pathOf text, c ≠ '\\' ∧ Url.isTabOrNewline c = false
  segments : ∀ s ∈ (Url.pathOf text).splitOn '/', Url.isDot s = true → s = ['.'] ∨ s = ['.', '.']
  last : ∀ c, text.getLast? = some c → Url.pathOf text = text → Url.isC0OrSpace c = false

/-- A path after one slash, or after an authority. -/
inductive Direct (raw : List Char) : Prop
  | origin (rest : List Char) : raw = '/' :: rest →
    (∀ c, rest.head? = some c → Url.isSlash c = false) → DirectPath raw → Direct raw
  | absolute (scheme name rest : List Char) : raw = scheme ++ (name ++ rest) →
    scheme.map Char.toLower = "http://".toList → name ≠ [] →
    (∀ c ∈ name, Url.inAuthority c = true ∧ Url.isC0OrSpace c = false) →
    (∀ c, rest.head? = some c → c = '/' ∨ Url.inPath c = false) → DirectPath rest → Direct raw

/-- An origin-form path without dot segments. -/
structure Undotted (raw : List Char) : Prop where
  root : raw.head? = some '/'
  segments : ∀ s ∈ (Url.pathOf raw).splitOn '/', Url.isDot s = false

/-! ## The path of a direct target -/

variable {segment front rest scheme : List Char} {c : Char}

section Dots

variable {segments path : List (List Char)}

theorem isParent_eq (decodes : Bool)
    (h : isDot segment → segment = ['.'] ∨ segment = ['.', '.']) :
    isParent decodes segment = isDoubleDot segment := by
  cases hdot : isDot segment with
  | true =>
    obtain rfl | rfl := h hdot
    · cases decodes <;> decide
    · cases decodes <;> decide
  | false =>
    have hdouble : segment ≠ ['.', '.'] := by
      rintro rfl
      exact absurd hdot (by decide)
    simp only [isDot, or_eq_false_iff] at hdot
    simp [isParent, hdouble, hdot.2]

theorem isCurrent_eq (decodes : Bool)
    (h : isDot segment → segment = ['.'] ∨ segment = ['.', '.']) :
    isCurrent decodes segment = isSingleDot segment := by
  cases hdot : isDot segment with
  | true =>
    obtain rfl | rfl := h hdot
    · cases decodes <;> decide
    · cases decodes <;> decide
  | false =>
    have hsingle : segment ≠ ['.'] := by
      rintro rfl
      exact absurd hdot (by decide)
    simp only [isDot, or_eq_false_iff] at hdot
    simp [isCurrent, hsingle, hdot.1]

/-- A server and the parser take the same dot segments out when they are written out. -/
theorem removeDots_eq_enter (decodes : Bool)
    (h : ∀ s ∈ segments, isDot s → s = ['.'] ∨ s = ['.', '.']) :
    removeDots decodes path segments = enter path segments := by
  induction segments generalizing path with
  | nil => rfl
  | cons segment segments ih =>
    have hparent := isParent_eq decodes (h segment mem_cons_self)
    have hcurrent := isCurrent_eq decodes (h segment mem_cons_self)
    cases segments with
    | nil =>
      rw [removeDots, enter, hparent, hcurrent]
      unfold endSegment
      cases isDoubleDot segment <;> cases isSingleDot segment <;> rfl
    | cons next segments =>
      have htail : ∀ s ∈ next :: segments, isDot s → s = ['.'] ∨ s = ['.', '.'] :=
        fun s hs ↦ h s (mem_cons_of_mem _ hs)
      rw [removeDots, enter, hparent, hcurrent, ih htail, ih htail, ih htail]
      unfold endSegment
      cases isDoubleDot segment <;> cases isSingleDot segment <;> rfl

end Dots

theorem toLower_of_pathSet (h : pathSet c) : c.toLower = c := by
  unfold Char.toLower
  split
  next hupper =>
    have hlow : 65 ≤ c.toNat := UInt32.le_iff_toNat_le.mp hupper.1
    have hhigh : c.toNat ≤ 90 := UInt32.le_iff_toNat_le.mp hupper.2
    have hall : ∀ n < 26, pathSet (Char.ofNat (65 + n)) = false := by decide
    have hplain := hall (c.toNat - 65) (by omega)
    rw [Nat.add_sub_of_le hlow, Char.ofNat_toNat, h] at hplain
    cases hplain
  next => rfl

/-- The spelling of a private surface has no character that the parser encodes. -/
theorem encodeAll_surface {surface : String} (hsurface : surface ∈ mcpPaths)
    (h : ∀ c ∈ front, c.toLower ∈ surface.toList ++ ['/']) : encodeAll front = front := by
  apply encodeAll_of_plain
  intro c hc
  by_contra hset
  have hset' : pathSet c := by simpa using hset
  have hmem := h c hc
  rw [toLower_of_pathSet hset'] at hmem
  have hall : ∀ surface ∈ mcpPaths, (surface.toList ++ ['/']).all (! pathSet ·) := by
    decide +kernel
  exact hset (by simpa using all_eq_true.mp (hall surface hsurface) c hmem)

/-- A blocked path is still blocked when its characters are encoded. -/
theorem blocked_encodeAll {path : List Char} (h : isBlockedMcpPath (String.ofList path)) :
    isBlockedMcpPath (String.ofList (encodeAll path)) := by
  rw [isBlockedMcpPath_eq, List.any_eq_true] at h ⊢
  obtain ⟨surface, hsurface, hunder⟩ := h
  refine ⟨surface, hsurface, ?_⟩
  rw [String.toList_ofList] at hunder ⊢
  unfold isUnder at hunder
  rw [or_eq_true, decide_eq_true_eq, isPrefixOf_iff_prefix] at hunder
  obtain hwhole | ⟨rest, hrest⟩ := hunder
  · have hplain : encodeAll path = path := by
      apply encodeAll_surface hsurface
      intro c hc
      rw [hwhole]
      exact mem_append_left _ (List.mem_map_of_mem hc)
    rw [hplain]
    simp [isUnder, hwhole]
  · obtain ⟨front, back, rfl, hfront, hback⟩ := append_eq_map_iff.mp hrest
    have hplain : encodeAll front = front := by
      apply encodeAll_surface hsurface
      intro c hc
      rw [← hfront]
      exact List.mem_map_of_mem hc
    rw [encodeAll_append, hplain]
    unfold isUnder
    rw [map_append, hfront, or_eq_true, isPrefixOf_iff_prefix]
    exact .inr (prefix_append _ _)

theorem pathOf_dropSlash (hroot : ∀ c, rest.head? = some c → c = '/' ∨ inPath c = false) :
    pathOf (dropSlash rest) = dropRoot (pathOf rest) := by
  cases rest with
  | nil => rfl
  | cons c rest =>
    obtain rfl | hend := hroot c rfl
    · rfl
    · have hslash : isSlash c = false := by
        by_contra hslash
        rw [inPath_of_isSlash (by simpa using hslash)] at hend
        cases hend
      simp [pathOf, dropSlash, hslash, hend, dropRoot]

/-- What the parser reads of a clean path is what a server reads, encoded. -/
theorem pathname_of_direct {raw : List Char} (hdirect : DirectPath raw)
    (hpath : pathOf rest = pathOf raw)
    (hroot : ∀ c, rest.head? = some c → c = '/' ∨ inPath c = false) (decodes : Bool) :
    (pathStart rest).pathname = encodeAll ((removeDots decodes []
      ((dropRoot (pathOf raw)).splitOn '/')).flatMap ('/' :: ·)) := by
  have hdrop : ∀ c ∈ dropRoot (pathOf raw), c ∈ pathOf raw := by
    intro c hc
    unfold dropRoot at hc
    split at hc
    next path heq =>
      rw [heq]
      exact mem_cons_of_mem _ hc
    next => exact hc
  have hsegments : ∀ s ∈ (dropRoot (pathOf raw)).splitOn '/', isDot s →
      s = ['.'] ∨ s = ['.', '.'] := by
    intro s hs
    apply hdirect.segments s
    unfold dropRoot at hs
    split at hs
    next path heq =>
      rw [heq]
      exact mem_cons_of_mem _ hs
    next => exact hs
  have hback : ∀ c ∈ dropRoot (pathOf raw), c ≠ '\\' :=
    fun c hc ↦ (hdirect.chars c (hdrop c hc)).1
  have hread : (pathStart rest).path =
      (removeDots decodes [] ((dropRoot (pathOf raw)).splitOn '/')).map encodeAll := by
    rw [pathStart_path, pathOf_dropSlash hroot, hpath, splitOn_of_clean hback,
      removeDots_eq_enter decodes hsegments]
    exact enter_encodeAll [] _
  unfold Url.Target.pathname
  rw [hread, flatMap_encodeAll]

section Direct

variable {hostOf : List Char → Option (List Char)} {other : List Char → Option Url.Location}
  {origin raw : List Char} {loc : Url.Location}

theorem blank_of_scheme (h : scheme.map Char.toLower = "http://".toList) (hc : c ∈ scheme) :
    isC0OrSpace c = false := by
  by_contra hblank
  have hblank' : isC0OrSpace c := by simpa using hblank
  have hmem := List.mem_map_of_mem (f := Char.toLower) hc
  rw [toLower_of_pathSet (pathSet_of_isC0OrSpace hblank'), h] at hmem
  have hall : ∀ c ∈ "http://".toList, isC0OrSpace c = false := all_iff_forall_prop.mp rfl
  exact hblank (hall c hmem)

/-- The first letter of a scheme ends neither a path nor an authority. -/
theorem letter_of_scheme (h : (c :: scheme).map Char.toLower = "http://".toList) :
    isSlash c = false ∧ inPath c := by
  have hc : c.toLower = 'h' := (List.cons.inj h).1
  have hne (d : Char) (hd : d.toLower ≠ 'h') : c ≠ d := by
    intro heq
    rw [heq] at hc
    exact hd hc
  have hslash := hne '/' (by decide)
  have hback := hne '\\' (by decide)
  have hquestion := hne '?' (by decide)
  have hsign := hne '#' (by decide)
  simp [isSlash, inPath, hslash, hback, hquestion, hsign]

/-- An origin-form target with one slash is read alike in all three ways. -/
theorem resolve_origin (hraw : raw = '/' :: rest)
    (hsingle : ∀ c, rest.head? = some c → isSlash c = false) (hdirect : DirectPath raw)
    (h : Url.resolve hostOf other origin raw = some loc) :
    (∀ decodes, loc.target.pathname = encodeAll (serverPath decodes raw)) ∧
      ∀ sent, Url.parse raw = some sent → sent = loc.target := by
  have hroot : raw.head? = some '/' := by
    rw [hraw]
    rfl
  have hpath : pathOf (Url.cleaned raw) = pathOf raw := by
    rw [cleaned_eq hroot]
    exact pathOf_clean (fun c hc ↦ (hdirect.chars c hc).2) hdirect.last
  have htarget : loc.target = pathStart (Url.cleaned raw) := by
    obtain ⟨more, hclean, -, rfl⟩ | ⟨d, more, hclean, hd, -⟩ := resolve_cases hroot h
    · rw [hclean]
    · have hinside : inPath '/' := by decide
      rw [hclean, hraw] at hpath
      unfold pathOf at hpath
      rw [takeWhile_cons_of_pos hinside, takeWhile_cons_of_pos (inPath_of_isSlash hd)] at hpath
      have htail := (List.cons.inj hpath).2
      cases rest with
      | nil => cases htail
      | cons c rest =>
        rw [takeWhile_cons] at htail
        split at htail
        · rw [(List.cons.inj htail).1, hsingle c rfl] at hd
          cases hd
        · cases htail
  obtain ⟨more, hclean⟩ := head?_cleaned hroot
  constructor
  · have hlower : ¬ (raw.take 7).map Char.toLower = "http://".toList := by
      rw [hraw]
      intro heq
      exact absurd (List.cons.inj heq).1 (by decide)
    unfold serverPath targetPath
    rw [if_neg hlower, htarget]
    apply pathname_of_direct hdirect hpath
    intro c hc
    rw [hclean] at hc
    exact .inl (some.inj hc).symm
  · intro sent hsent
    rw [parse_eq, ← cleaned_eq hroot, hclean] at hsent
    rw [← some.inj hsent, htarget, hclean]

theorem keeps_of_visible (h : ∀ c ∈ front, isC0OrSpace c = false) :
    (front.filter fun c ↦ !isTabOrNewline c) = front := by
  apply filter_eq_self.mpr
  intro c hc
  by_contra htab
  have hblank := isC0OrSpace_of_isTabOrNewline (by simpa using htab)
  rw [h c hc] at hblank
  cases hblank

/-- Nothing at the beginning of a text is cleaned away when no character of it is a blank. -/
theorem cleaned_visible (rest : List Char) (hne : front ≠ [])
    (h : ∀ c ∈ front, isC0OrSpace c = false) :
    Url.cleaned (front ++ rest) =
        front ++ (rest.rdropWhile isC0OrSpace).filter (fun c ↦ !isTabOrNewline c) ∧
      (front ++ rest).rdropWhile isC0OrSpace = front ++ rest.rdropWhile isC0OrSpace := by
  have hdrop : (front ++ rest).rdropWhile isC0OrSpace =
      front ++ rest.rdropWhile isC0OrSpace :=
    Text.rdropWhile_append_of_stop fun c hc ↦ h c (mem_of_getLast? hc)
  cases front with
  | nil => exact absurd rfl hne
  | cons c front =>
    have hc := h c mem_cons_self
    have hstrip : Text.strip isC0OrSpace (c :: front ++ rest) =
        (c :: front ++ rest).rdropWhile isC0OrSpace := by
      unfold Text.strip
      rw [cons_append, dropWhile_cons_of_neg (by simp [hc])]
    refine ⟨?_, hdrop⟩
    unfold Url.cleaned
    rw [hstrip, hdrop, filter_append, keeps_of_visible h]

theorem head_cleaned (hrest : ∀ c, rest.head? = some c → c = '/' ∨ inPath c = false) :
    ∀ c, ((rest.rdropWhile isC0OrSpace).filter
      fun c ↦ !isTabOrNewline c).head? = some c → c = '/' ∨ inPath c = false := by
  cases rest with
  | nil => exact fun c hc ↦ by cases hc
  | cons d rest =>
    have hd : ∀ c ∈ [d], isC0OrSpace c = false := by
      intro c hc
      rw [mem_singleton.mp hc]
      by_contra hblank
      have hblank' : isC0OrSpace d := by simpa using hblank
      obtain rfl | hend := hrest d rfl
      · exact absurd hblank' (by decide)
      · rw [inPath_of_isC0OrSpace hblank'] at hend
        cases hend
    have hdrop := (cleaned_visible rest (cons_ne_nil d []) hd).2
    rw [singleton_append, singleton_append] at hdrop
    intro c hc
    rw [hdrop, ← singleton_append, filter_append, keeps_of_visible hd] at hc
    exact hrest c hc

/-- An absolute target names its host; behind an origin it is no target at all. -/
theorem resolve_absolute {name : List Char} (hraw : raw = scheme ++ (name ++ rest))
    (hscheme : scheme.map Char.toLower = "http://".toList) (hname : name ≠ [])
    (hchars : ∀ c ∈ name, inAuthority c ∧ isC0OrSpace c = false)
    (hrest : ∀ c, rest.head? = some c → c = '/' ∨ inPath c = false) (hdirect : DirectPath rest)
    (h : Url.resolve hostOf (absolute hostOf other) origin raw = some loc) :
    (∀ decodes, loc.target.pathname = encodeAll (serverPath decodes raw)) ∧
      ∀ sent, Url.parse raw = some sent → sent = loc.target := by
  have hlength : scheme.length = 7 := by
    have hmap := congrArg length hscheme
    rwa [length_map] at hmap
  have hfront : ∀ c ∈ scheme ++ name, isC0OrSpace c = false := by
    intro c hc
    obtain hc | hc := mem_append.mp hc
    · exact blank_of_scheme hscheme hc
    · exact (hchars c hc).2
  have hne : scheme ++ name ≠ [] := append_ne_nil_of_right_ne_nil _ hname
  have hclean := (cleaned_visible rest hne hfront).1
  have hdrop := (cleaned_visible rest hne hfront).2
  have hhead := head_cleaned hrest
  have hpath := pathOf_clean (fun c hc ↦ (hdirect.chars c hc).2) hdirect.last
  rw [append_assoc, ← hraw, append_assoc] at hclean
  rw [append_assoc, ← hraw, append_assoc] at hdrop
  generalize (rest.rdropWhile isC0OrSpace).filter (fun c ↦ !isTabOrNewline c) = rest'
    at hclean hhead hpath
  cases scheme with
  | nil => cases hscheme
  | cons c scheme =>
    obtain ⟨hslash, hinside⟩ := letter_of_scheme hscheme
    have htake (s : List Char) : (((c :: scheme) ++ s).take 7).map Char.toLower =
        "http://".toList := by rw [take_left' hlength, hscheme]
    have hskip (s : List Char) : ((c :: scheme) ++ s).drop 7 = s := drop_left' hlength
    have hname' : ∀ c ∈ name, inAuthority c := fun c hc ↦ (hchars c hc).1
    have htarget : loc.target = pathStart rest' := by
      unfold Url.resolve at h
      rw [hclean, cons_append] at h
      dsimp only at h
      rw [if_neg (by simp [hslash]), if_pos hinside, ← cons_append] at h
      unfold absolute at h
      rw [if_pos (htake _), hskip] at h
      cases name with
      | nil => exact absurd rfl hname
      | cons d name =>
        have hd : ¬ isSlash d := by
          have hauthority := hname' d mem_cons_self
          simp only [inAuthority, and_eq_true, not_eq_true'] at hauthority
          simp [hauthority.1]
        have hend : rest'.dropWhile inAuthority = rest' := by
          cases rest' with
          | nil => rfl
          | cons e rest' =>
            apply dropWhile_cons_of_neg
            obtain rfl | hend := hhead e rfl
            · decide
            · simp [inAuthority, hend]
        obtain ⟨host, -, rfl⟩ := Option.map_eq_some_iff.mp h
        rw [cons_append, dropWhile_cons_of_neg hd, ← cons_append,
          dropWhile_append_of_pos hname', hend]
    have hpathname : targetPath raw = pathOf rest := by
      have hpass : ∀ c ∈ name, (decide (c ≠ '/') && inPath c) := by
        intro c hc
        have hauthority := hname' c hc
        have hne : c ≠ '/' := by
          rintro rfl
          exact absurd hauthority (by decide)
        simp [hne, inPath_of_inAuthority hauthority]
      have hend : rest.dropWhile (fun c ↦ decide (c ≠ '/') && inPath c) = rest := by
        cases rest with
        | nil => rfl
        | cons e rest =>
          apply dropWhile_cons_of_neg
          obtain rfl | hend := hrest e rfl
          · decide
          · simp [hend]
      unfold targetPath
      rw [hraw, if_pos (htake _), hskip, dropWhile_append_of_pos hpass, hend]
    constructor
    · intro decodes
      unfold serverPath
      rw [htarget, hpathname]
      exact pathname_of_direct hdirect hpath hhead decodes
    · intro sent hsent
      have hfirst : (c :: scheme ++ (name ++ rest.rdropWhile isC0OrSpace)).filter
          (fun c ↦ !isTabOrNewline c) =
            c :: (scheme ++ (name ++ rest.rdropWhile isC0OrSpace)).filter
              (fun c ↦ !isTabOrNewline c) := by
        have hkeep := keeps_of_visible fun d (hd : d ∈ [c]) ↦
          hfront d (by simp [mem_singleton.mp hd])
        rw [cons_append, ← singleton_append, filter_append, hkeep]
        rfl
      have hend : c ≠ '?' ∧ c ≠ '#' := by simpa [inPath] using hinside
      rw [parse_eq, hdrop, hfirst] at hsent
      simp only [hslash, hend.1, hend.2] at hsent
      simp at hsent

theorem resolve_direct (hdirect : Direct raw)
    (h : Url.resolve hostOf (absolute hostOf other) origin raw = some loc) :
    (∀ decodes, loc.target.pathname = encodeAll (serverPath decodes raw)) ∧
      ∀ sent, Url.parse raw = some sent → sent = loc.target := by
  cases hdirect with
  | origin rest hraw hsingle hpath => exact resolve_origin hraw hsingle hpath h
  | absolute scheme name rest hraw hscheme hname hchars hrest hpath =>
    exact resolve_absolute hraw hscheme hname hchars hrest hpath h

/-- A server reads a path without dot segments as it stands. -/
theorem serverPath_undotted (hundotted : Undotted raw) (decodes : Bool) :
    serverPath decodes raw = pathOf raw := by
  cases raw with
  | nil => cases hundotted.root
  | cons c rest =>
    have hc : c = '/' := some.inj hundotted.root
    subst hc
    have hslash : inPath '/' := by decide
    have hpath : pathOf ('/' :: rest) = '/' :: pathOf rest :=
      takeWhile_cons_of_pos hslash
    have hlower : ¬ (('/' :: rest).take 7).map Char.toLower = "http://".toList := by
      intro heq
      exact absurd (List.cons.inj heq).1 (by decide)
    have hsegments := hundotted.segments
    have hplain : ∀ s ∈ (pathOf rest).splitOn '/', isDot s = false :=
      fun s hs ↦ hsegments s (mem_cons_of_mem _ hs)
    have hjoin : ['/'].intercalate (('/' :: pathOf rest).splitOn '/') =
        '/' :: pathOf rest := intercalate_splitOn '/'
    rw [splitOn_root, Text.intercalate_cons, nil_append] at hjoin
    unfold serverPath targetPath
    rw [if_neg hlower, hpath]
    have hroot : dropRoot ('/' :: pathOf rest) = pathOf rest := rfl
    rw [hroot, removeDots_eq_enter decodes, enter_eq hplain, nil_append, hjoin]
    intro s hs hdot
    rw [hplain s hs] at hdot
    cases hdot

/-- Of the targets without dot segments only the direct ones are read alike. -/
theorem direct_of_sameSegments (hundotted : Undotted raw)
    (h : Url.resolve hostOf other origin raw = some loc)
    (hsame : Url.SameSegments (pathOf raw) loc.target.pathname) : Direct raw := by
  have hroot := hundotted.root
  obtain ⟨hchars, hlast⟩ := clean_of_sameSegments hroot h hsame
  obtain ⟨more, hclean, hsingle, -⟩ := single_of_sameSegments hroot h hsame
  have hdirect : DirectPath raw := by
    refine ⟨hchars, ?_, hlast⟩
    intro s hs hdot
    rw [hundotted.segments s hs] at hdot
    cases hdot
  cases raw with
  | nil => cases hroot
  | cons c rest =>
    have hc : c = '/' := some.inj hroot
    subst hc
    apply Direct.origin rest rfl _ hdirect
    intro d hd
    have hpath := pathOf_clean (fun c hc ↦ (hchars c hc).2) hlast
    rw [← cleaned_eq hroot, hclean] at hpath
    have htail := (List.cons.inj hpath).2
    by_contra hslash'
    have hd' : inPath d := inPath_of_isSlash (by simpa using hslash')
    cases rest with
    | nil => cases hd
    | cons e rest =>
      obtain rfl := some.inj hd
      rw [takeWhile_cons_of_pos hd'] at htail
      cases more with
      | nil => cases htail
      | cons f more =>
        rw [takeWhile_cons] at htail
        split at htail
        · rw [← (List.cons.inj htail).1, hsingle f rfl] at hslash'
          exact hslash' rfl
        · cases htail

end Direct

/-! ## What is tested and what is sent -/

section Agreement

variable {hostOf : List Char → Option (List Char)} {other : List Char → Option Url.Location}
  {target : ResolvedTarget} {req : HttpRequest} {raw : String}

theorem placeholderUrl_eq (hurl : req.url = some raw) (hne : raw.toList ≠ []) :
    placeholderUrl hostOf other req.url = Url.resolve hostOf (absolute hostOf other)
      "privos-app.invalid".toList raw.toList := by
  have htext : raw ≠ "" := by
    rintro rfl
    exact hne rfl
  have htruthy : truthy (some raw) = some raw := by simp [truthy, Option.filter, htext]
  unfold placeholderUrl
  rw [hurl, htruthy]
  rfl

theorem tested_of_unblocked (hv2 : target.mcpV2)
    (h : isPublicMcpPathBlocked hostOf other target req.url = false) :
    ∃ loc, placeholderUrl hostOf other req.url = some loc ∧
      isBlockedMcpPath (String.ofList loc.target.pathname) = false := by
  unfold isPublicMcpPathBlocked at h
  rw [hv2] at h
  cases htested : placeholderUrl hostOf other req.url with
  | none =>
    rw [htested] at h
    cases h
  | some loc =>
    rw [htested] at h
    exact ⟨loc, rfl, h⟩

theorem direct_ne_nil {raw : List Char} (hdirect : Direct raw) : raw ≠ [] := by
  cases hdirect with
  | origin rest hraw hsingle hpath => simp [hraw]
  | absolute scheme name rest hraw hscheme hname hchars hrest hpath => simp [hraw, hname]

/-- Nothing is sent for a refused target. -/
theorem agrees_of_blocked (hblocked : isPublicMcpPathBlocked hostOf other target req.url) :
    Agrees hostOf other target req := by
  constructor
  · intro url sent hsent
    simp only [handleRequest, hblocked, if_true] at hsent
    cases hsent
  · intro url sent hsent
    simp only [handleUpgrade, hblocked, if_true] at hsent
    cases hsent

theorem agrees_of_direct (hv2 : target.mcpV2) (hurl : req.url = some raw)
    (hdirect : Direct raw.toList) : Agrees hostOf other target req := by
  have hplaceholder : placeholderUrl hostOf other req.url = Url.resolve hostOf
      (absolute hostOf other) "privos-app.invalid".toList raw.toList :=
    placeholderUrl_eq hurl (direct_ne_nil hdirect)
  cases hblocked : isPublicMcpPathBlocked hostOf other target req.url with
  | true => exact agrees_of_blocked hblocked
  | false =>
    obtain ⟨loc, htested, hpublic⟩ := tested_of_unblocked hv2 hblocked
    obtain ⟨hserver, hparse⟩ := resolve_direct hdirect (hplaceholder.symm.trans htested)
    constructor
    · intro url sent hsent
      unfold handleRequest at hsent
      dsimp only at hsent
      rw [hblocked, hurl, Option.getD_some] at hsent
      cases hread : Url.parse raw.toList with
      | none =>
        rw [hread] at hsent
        cases hsent
      | some parsed =>
        rw [hread] at hsent
        obtain ⟨-, rfl⟩ := Exchange.upstream.inj hsent
        have hsame := hparse parsed hread
        have hpathOf : pathOf parsed.serialize = parsed.pathname :=
          pathOf_serialize (wellFormed_of_parse hread).segments
        rw [hpathOf, hsame]
        exact ⟨hpublic, loc, htested, rfl⟩
    · intro url sent hsent decodes
      unfold handleUpgrade at hsent
      dsimp only at hsent
      rw [hblocked, hurl] at hsent
      obtain ⟨-, rfl⟩ := Exchange.upstream.inj hsent
      have hpath := hserver decodes
      refine ⟨?_, loc, htested, ?_⟩
      · by_contra hserved
        have hencoded := blocked_encodeAll (by simpa using hserved)
        rw [← hpath, hpublic] at hencoded
        cases hencoded
      · rw [hpath]
        exact sameSegments_encodeAll _

end Agreement

namespace Sample

def target : ResolvedTarget := ⟨"http://172.20.0.5:3001", "notes-b1", true⟩

def noReference (_ : List Char) : Option Url.Location := none

end Sample

end PrivosCluster.Routing.ReverseProxy
