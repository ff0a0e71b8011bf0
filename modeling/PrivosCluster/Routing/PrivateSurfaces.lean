import PrivosCluster.Routing.ForwardSignature
import PrivosCluster.Url.Escapes

/-!
# The private surfaces of a container

The runtime listener refuses the private paths of an MCP container by their text, and a container
decodes the escapes of a path before it routes it. A path that spells a private surface with an
escape passes the listener and arrives at the surface.
-/

namespace PrivosCluster.Routing

open List Option

/-- The surface itself or a path below it, in any case. -/
def isUnder (surface : String) (path : List Char) : Bool :=
  surface.toList = path.map Char.toLower ||
    (surface.toList ++ ['/']).isPrefixOf (path.map Char.toLower)

theorem isBlockedMcpPath_eq (pathname : String) :
    isBlockedMcpPath pathname = mcpPaths.any fun surface ↦ isUnder surface pathname.toList := rfl

/-- The path that a container sees which decodes the escapes. -/
def decodedPath (pathname : String) : String := String.ofList (Url.percentDecode pathname.toList)

/-- Once decoded the path leads to a private surface, and an escape stands in the spelling of the
surface or right after it. -/
def Disguised (pathname : String) : Prop :=
  ∃ surface ∈ mcpPaths, isUnder surface (Url.percentDecode pathname.toList) = true ∧
    '%' ∈ pathname.toList.take (surface.toList.length + 1)

/-! ## Surfaces -/

theorem not_mem_percent_mcpPaths : ∀ surface ∈ mcpPaths, '%' ∉ surface.toList := by decide

theorem toLower_percent : Char.toLower '%' = '%' := by decide

variable {path : List Char}

theorem mem_map_toLower (h : '%' ∈ path) : '%' ∈ path.map Char.toLower := by
  have hmem := List.mem_map_of_mem (f := Char.toLower) h
  rwa [toLower_percent] at hmem

variable {surface : String}

theorem isUnder_iff :
    isUnder surface path ↔
      (surface.toList ++ ['/']) <+: (path.map Char.toLower ++ ['/']) := by
  unfold isUnder
  rw [prefix_concat_iff, Bool.or_eq_true, decide_eq_true_eq, isPrefixOf_iff_prefix,
    append_left_inj]

/-- Whether a long path leads to a surface is decided by its first characters. -/
theorem isUnder_append_iff {first rest : List Char} (h : first.length = surface.toList.length + 1) :
    isUnder surface (first ++ rest) ↔ surface.toList ++ ['/'] = first.map Char.toLower := by
  have hlength : (surface.toList ++ ['/']).length = (first.map Char.toLower).length := by simp [h]
  rw [isUnder_iff, prefix_iff_eq_take, hlength, map_append, append_assoc,
    take_left]

theorem not_percent_of_isUnder (hsurface : surface ∈ mcpPaths) (h : isUnder surface path) :
    '%' ∉ path.take (surface.toList.length + 1) := by
  have hplain := not_mem_percent_mcpPaths surface hsurface
  have heq := prefix_iff_eq_take.mp (isUnder_iff.mp h)
  intro hmem
  have hlower := mem_map_toLower hmem
  rw [map_take] at hlower
  have hspelling : '%' ∈ surface.toList ++ ['/'] := by
    rw [heq, length_append, take_append]
    exact mem_append_left _ hlower
  simp [hplain] at hspelling

/-- No surface lies below another one. -/
theorem surface_unique {surface' : String} (h : surface ∈ mcpPaths) (h' : surface' ∈ mcpPaths)
    (hunder : isUnder surface path) (hunder' : isUnder surface' path) :
    surface = surface' := by
  have happart : ∀ s ∈ mcpPaths, ∀ s' ∈ mcpPaths,
      (s.toList ++ ['/']) <+: (s'.toList ++ ['/']) → s = s' := by decide
  rcases prefix_or_prefix_of_prefix (isUnder_iff.mp hunder) (isUnder_iff.mp hunder') with
    hprefix | hprefix
  · exact happart surface h surface' h' hprefix
  · exact (happart surface' h' surface h hprefix).symm

/-- Decoding does not matter when the surface is spelled without escapes. -/
theorem isUnder_percentDecode (h : '%' ∉ path.take (surface.toList.length + 1)) :
    isUnder surface (Url.percentDecode path) ↔ isUnder surface path := by
  have hsplit := take_append_drop (surface.toList.length + 1) path
  have hdecode := Url.percentDecode_append (path.drop (surface.toList.length + 1)) h
  rw [hsplit] at hdecode
  by_cases hshort : path.length ≤ surface.toList.length + 1
  · rw [hdecode, drop_of_length_le hshort, take_of_length_le hshort, Url.percentDecode_nil,
      append_nil]
  · have hlength : (path.take (surface.toList.length + 1)).length = surface.toList.length + 1 := by
      rw [length_take]
      omega
    rw [hdecode, isUnder_append_iff hlength]
    conv_rhs => rw [← hsplit, isUnder_append_iff hlength]

theorem disguised_iff {pathname : String} :
    Disguised pathname ↔
      isBlockedMcpPath (decodedPath pathname) ∧ isBlockedMcpPath pathname = false := by
  simp only [isBlockedMcpPath_eq, decodedPath, String.toList_ofList, List.any_eq_true,
    List.any_eq_false]
  constructor
  · rintro ⟨surface, hsurface, hdecoded, hescape⟩
    refine ⟨⟨surface, hsurface, hdecoded⟩, fun surface' hsurface' hunder ↦ ?_⟩
    have hplain := not_percent_of_isUnder hsurface' hunder
    have hdecoded' := (isUnder_percentDecode hplain).mpr hunder
    have hsame := surface_unique hsurface hsurface' hdecoded hdecoded'
    exact hplain (hsame ▸ hescape)
  · rintro ⟨⟨surface, hsurface, hdecoded⟩, hpublic⟩
    refine ⟨surface, hsurface, hdecoded, ?_⟩
    by_contra hplain
    exact hpublic surface hsurface ((isUnder_percentDecode hplain).mp hdecoded)

/-! ## Requests that reach a container -/

/-- A pathname ends before the query. -/
def Platform.Splits (platform : Platform) : Prop :=
  ∀ target parsed, platform.parseUrl target = some parsed →
    '?' ∉ parsed.pathname.toList ∧ (parsed.search = "" ∨ parsed.search.toList.head? = some '?')

/-- The container finds no private surface under the path of the request. -/
def Hidden (request : HttpRequest) : Prop :=
  isBlockedMcpPath (decodedPath (pathOnly (request.url.getD "/"))) = false

/-- The hop is authentic, its target is accepted, and its host leads to a running container. -/
def RuntimeListener.Serves (listener : RuntimeListener) (platform : Platform) (now : Time)
    (req : HttpRequest) (canonical : CanonicalPath) : Prop :=
  (∃ clientIp, (listener.authenticate platform now req).1 = .ok clientIp) ∧
    canonicalizePath platform (req.url.getD "/") = some canonical ∧
    ∃ target, listener.resolveTarget (req.host.getD "") canonical.pathname = .ok target

section Requests

variable {platform : Platform} {listener : RuntimeListener} {now : Time} {req : HttpRequest}
  {canonical : CanonicalPath}

theorem parsed_of_canonicalizePath {target : String}
    (h : canonicalizePath platform target = some canonical) :
    ∃ parsed, platform.parseUrl target = some parsed ∧ canonical.pathname = parsed.pathname ∧
      canonical.search = parsed.search := by
  unfold canonicalizePath at h
  dsimp only at h
  split at h
  · cases h
  split at h
  · cases h
  split at h
  · cases h
  cases hparsed : platform.parseUrl target with
  | none =>
    rw [hparsed] at h
    cases h
  | some parsed =>
    rw [hparsed] at h
    dsimp only at h
    split at h
    · cases h
    split at h
    · cases h
    have heq := some.inj h
    subst heq
    exact ⟨parsed, rfl, rfl, rfl⟩

theorem pathOnly_canonical (hsplits : platform.Splits) {target : String}
    (h : canonicalizePath platform target = some canonical) :
    pathOnly (canonical.pathname ++ canonical.search) = canonical.pathname := by
  obtain ⟨parsed, hparsed, hpathname, hsearch⟩ := parsed_of_canonicalizePath h
  obtain ⟨hplain, hquery⟩ := hsplits target parsed hparsed
  rw [hpathname, hsearch]
  unfold pathOnly
  have hall : ∀ c ∈ parsed.pathname.toList, decide (c ≠ '?') := by
    intro c hc
    have hne : c ≠ '?' := fun heq ↦ hplain (heq ▸ hc)
    simp [hne]
  rw [String.toList_append, takeWhile_append_of_pos hall]
  obtain hempty | hquestion := hquery
  · simp [hempty]
  · cases hchars : parsed.search.toList with
    | nil => simp
    | cons c rest =>
      rw [hchars] at hquestion
      have hc : c = '?' := some.inj hquestion
      simp [hc]

/-- What the listener hands to the container, over HTTP or as an upgrade. -/
def RuntimeListener.HandsOver (listener : RuntimeListener) (platform : Platform) (now : Time)
    (req request : HttpRequest) : Prop :=
  (∃ containerId url,
      (listener.handleRequest platform now req).1 = .forwarded containerId url request) ∨
    ∃ containerId url,
      (listener.handleUpgrade platform now req).1 = .connected containerId url request

theorem handsOver_forwarded (hserves : listener.Serves platform now req canonical)
    (hpublic : isBlockedMcpPath canonical.pathname = false) :
    ∃ request, listener.HandsOver platform now req request ∧
      request.url = some (canonical.pathname ++ canonical.search) := by
  obtain ⟨⟨clientIp, hok⟩, hpath, target, htarget⟩ := hserves
  cases hauth : listener.authenticate platform now req with
  | mk authenticated cache =>
    have hok' : authenticated = .ok clientIp := by rw [← hok, hauth]
    subst hok'
    have hreply : (listener.handleRequest platform now req).1 =
        .forwarded target.containerId (target.url ++ canonical.pathname ++ canonical.search)
          { method := some (req.method.getD "GET"),
            url := some (canonical.pathname ++ canonical.search), host := some (req.host.getD ""),
            headers := forwardedHeaders req clientIp (req.host.getD "") } := by
      unfold RuntimeListener.handleRequest
      simp only [hauth, hpath, hpublic, htarget]
      rfl
    exact ⟨_, .inl ⟨_, _, hreply⟩, rfl⟩

theorem serves_of_handsOver {request : HttpRequest}
    (h : listener.HandsOver platform now req request) :
    ∃ canonical, listener.Serves platform now req canonical ∧
      isBlockedMcpPath canonical.pathname = false ∧
        request.url = some (canonical.pathname ++ canonical.search) := by
  unfold RuntimeListener.HandsOver RuntimeListener.handleRequest RuntimeListener.handleUpgrade at h
  cases hauth : listener.authenticate platform now req with
  | mk authenticated cache =>
    cases authenticated with
    | error refusal => simp [hauth] at h
    | ok clientIp =>
      cases hpath : canonicalizePath platform (req.url.getD "/") with
      | none => simp [hauth, hpath] at h
      | some canonical =>
        cases hblocked : isBlockedMcpPath canonical.pathname with
        | true => simp [hauth, hpath, hblocked] at h
        | false =>
          cases htarget : listener.resolveTarget (req.host.getD "") canonical.pathname with
          | error e => cases e <;> simp [hauth, hpath, hblocked, htarget] at h
          | ok target =>
            refine ⟨canonical, ⟨⟨clientIp, by rw [hauth]⟩, hpath, target, htarget⟩, hblocked, ?_⟩
            simp only [hauth, hpath, hblocked, htarget] at h
            obtain ⟨_, _, hreply⟩ | ⟨_, _, hreply⟩ := h
            · simp only [Bool.false_eq_true, if_false, Reply.forwarded.injEq] at hreply
              rw [← hreply.2.2]
            · simp only [Bool.false_eq_true, if_false, UpgradeReply.connected.injEq] at hreply
              rw [← hreply.2.2]

/-- Nothing handed to a container leads it to a private surface, exactly when no path that is served
is disguised. -/
theorem hidden_iff (platform : Platform) (hsplits : platform.Splits) (listener : RuntimeListener)
    (now : Time) (req : HttpRequest) :
    (∀ request, listener.HandsOver platform now req request → Hidden request) ↔
      ∀ canonical, listener.Serves platform now req canonical → ¬ Disguised canonical.pathname := by
  have hpath (canonical : CanonicalPath) (hserves : listener.Serves platform now req canonical) :=
    pathOnly_canonical hsplits hserves.2.1
  constructor
  · intro hhidden canonical hserves hdisguised
    obtain ⟨hprivate, hpublic⟩ := disguised_iff.mp hdisguised
    obtain ⟨request, hover, hurl⟩ := handsOver_forwarded hserves hpublic
    have hrequest := hhidden request hover
    unfold Hidden at hrequest
    rw [hurl, Option.getD_some, hpath canonical hserves, hprivate] at hrequest
    cases hrequest
  · intro hplain request hover
    obtain ⟨canonical, hserves, hpublic, hurl⟩ := serves_of_handsOver hover
    unfold Hidden
    rw [hurl, Option.getD_some, hpath canonical hserves]
    by_contra hprivate
    apply hplain canonical hserves
    exact disguised_iff.mpr ⟨by simpa using hprivate, hpublic⟩

end Requests

namespace Sample

/-- The `URL` parser on targets that stay on the placeholder origin. -/
def urlPlatform : Platform :=
  { keyedPlatform with
    parseUrl := fun target ↦ (Url.parse target.toList).map fun parsed ↦
      ⟨"placeholder.invalid", String.ofList parsed.pathname, String.ofList parsed.search⟩ }

theorem urlPlatform_splits : urlPlatform.Splits := by
  intro target parsed hparsed
  obtain ⟨read, hread, heq⟩ := Option.map_eq_some_iff.mp hparsed
  subst heq
  have hwell := Url.wellFormed_of_parse hread
  simp only [String.toList_ofList]
  apply And.intro
  · intro hmem
    obtain ⟨segment, hsegment, hc⟩ := mem_flatMap.mp hmem
    obtain hslash | hc := mem_cons.mp hc
    · exact absurd hslash (by decide)
    · exact absurd ((hwell.segments segment hsegment).chars _ hc) (by decide)
  · unfold Url.Target.search
    split
    · exact .inl rfl
    · exact .inr rfl

/-- A request as the listener hands it to the container. -/
def handedOver (target : String) : HttpRequest where
  method := some "GET"
  url := some target
  host := some "notes.apps.test"
  headers := [("cf-connecting-ip", "192.0.2.1"), ("x-forwarded-for", "192.0.2.1"),
    ("x-forwarded-proto", "https"), ("x-forwarded-host", "notes.apps.test")]

end Sample

theorem hidden_notes :
    ¬ ∃ request, (Sample.servingListener .mcpV3).HandsOver Sample.urlPlatform (Sample.date : Time)
      (Sample.sentRequest "/notes?id=1") request ∧ ¬ Hidden request := by
  simp only [not_exists, not_and, Classical.not_not]
  apply (hidden_iff Sample.urlPlatform Sample.urlPlatform_splits (Sample.servingListener .mcpV3)
    (Sample.date : Time) (Sample.sentRequest "/notes?id=1")).mpr
  intro canonical hserves hdisguised
  have hpath : (canonicalizePath Sample.urlPlatform "/notes?id=1").map CanonicalPath.pathname =
      some "/notes" := by decide +kernel
  have hpathname : canonical.pathname = "/notes" := by
    have hcanonical : canonicalizePath Sample.urlPlatform "/notes?id=1" = some canonical :=
      hserves.2.1
    rw [hcanonical] at hpath
    exact Option.some.inj hpath
  have hprivate := (disguised_iff.mp hdisguised).1
  rw [hpathname] at hprivate
  exact absurd hprivate (by decide +kernel)

/-- The listener forwards `/%6Dcp`, which a container decodes to `/mcp`. -/
theorem disguised_mcp_forwarded :
    Sample.urlPlatform.Splits ∧
      (Sample.servingListener .mcpV3).HandsOver Sample.urlPlatform (Sample.date : Time)
        (Sample.sentRequest "/%6Dcp") (Sample.handedOver "/%6Dcp") ∧
      decodedPath (pathOnly ((Sample.handedOver "/%6Dcp").url.getD "/")) = "/mcp" ∧
      ¬ Hidden (Sample.handedOver "/%6Dcp") := by
  apply And.intro Sample.urlPlatform_splits
  have hreply : ((Sample.servingListener .mcpV3).handleRequest Sample.urlPlatform
      (Sample.date : Time) (Sample.sentRequest "/%6Dcp")).1 =
        .forwarded "notes-b1" "http://172.20.0.5:3001/%6Dcp" (Sample.handedOver "/%6Dcp") := by
    decide +kernel
  refine ⟨.inl ⟨_, _, hreply⟩, by decide +kernel, ?_⟩
  unfold Hidden
  decide +kernel

end PrivosCluster.Routing
