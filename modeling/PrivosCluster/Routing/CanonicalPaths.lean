import Mathlib.Data.List.Infix
import PrivosCluster.Routing.PrivateSurfaces
import PrivosCluster.Url.Reference

/-!
# Canonical paths and their segments

The runtime listener refuses a target with an escaped slash, an empty segment or a written-out dot
segment before it hands the target to the `URL` parser, which has dot segments and separators of its
own. The theorem of this file says for which targets the parser leaves the segments alone.
-/

namespace PrivosCluster.Routing

open List Url Option

def parsedUrl (loc : Url.Location) : ParsedUrl :=
  ⟨String.ofList loc.host, String.ofList loc.target.pathname, String.ofList loc.target.search⟩

/-- The platform reads a target that begins with a slash as the URL Standard has it; `hostOf` is the
standard's host parser. -/
def Platform.ReadsPaths (platform : Platform) (hostOf : List Char → Option (List Char)) : Prop :=
  ∀ target : String, target.toList.head? = some '/' →
    platform.parseUrl target =
      (Url.resolve hostOf (fun _ ↦ none) "placeholder.invalid".toList target.toList).map parsedUrl

/-- The target passes every check, before and after it is read as `loc`. -/
structure Admitted (hostOf : List Char → Option (List Char)) (target : List Char)
    (loc : Url.Location) : Prop where
  unescaped : hasInfix "%2f".toList ((Url.pathOf target).map Char.toLower) = false ∧
    hasInfix "%5c".toList ((Url.pathOf target).map Char.toLower) = false
  root : target.head? = some '/'
  single : hasInfix "//".toList (Url.pathOf target) = false
  dots : ∀ s ∈ (Url.pathOf target).splitOn '/', s ≠ ['.'] ∧ s ≠ ['.', '.']
  read : Url.resolve hostOf (fun _ ↦ none) "placeholder.invalid".toList target = some loc
  host : loc.host = "placeholder.invalid".toList
  separated : hasInfix "//".toList loc.target.pathname = false

/-- An accepted target has the segments of its raw path. -/
def KeepsSegments (platform : Platform) (target : String) : Prop :=
  ∀ canonical, canonicalizePath platform target = some canonical →
    Url.SameSegments (Url.pathOf target.toList) canonical.pathname.toList

theorem infix_of_hasInfix {pattern s : List Char} : hasInfix pattern s ↔ pattern <:+: s := by
  unfold hasInfix
  rw [List.any_eq_true]
  constructor
  · rintro ⟨t, ht, hpattern⟩
    obtain ⟨before, rfl⟩ := (mem_tails _ _).mp ht
    obtain ⟨after, rfl⟩ := isPrefixOf_iff_prefix.mp hpattern
    exact ⟨before, after, by simp⟩
  · rintro ⟨before, after, rfl⟩
    refine ⟨pattern ++ after, (mem_tails _ _).mpr ⟨before, by simp⟩, ?_⟩
    exact isPrefixOf_iff_prefix.mpr (prefix_append _ _)

theorem root_of_pathOf {target : List Char} :
    "/".toList.isPrefixOf (pathOf target) ↔ target.head? = some '/' := by
  cases target with
  | nil => decide
  | cons c rest =>
    by_cases hc : c = '/'
    · rw [hc]
      apply iff_of_true _ rfl
      rfl
    · apply iff_of_false
      · unfold pathOf
        rw [takeWhile_cons]
        split
        · intro h
          obtain ⟨after, hafter⟩ := isPrefixOf_iff_prefix.mp h
          exact hc (List.cons.inj hafter).1.symm
        · decide
      · exact fun h ↦ hc (some.inj h)

section Targets

variable {platform : Platform} {hostOf : List Char → Option (List Char)} {target : String}
  {canonical : CanonicalPath} {loc : Url.Location}

theorem pathname_root (text : List Char) :
    "/".toList.isPrefixOf (pathStart text).pathname := by
  have hne := (pathStart_segments text).2
  unfold Url.Target.pathname
  cases hpath : (pathStart text).path with
  | nil => exact absurd hpath hne
  | cons segment segments => rfl

theorem canonicalizePath_eq_some_iff (hplatform : platform.ReadsPaths hostOf) :
    canonicalizePath platform target = some canonical ↔
      ∃ loc, Admitted hostOf target.toList loc ∧
        canonical = ⟨String.ofList loc.target.pathname, String.ofList loc.target.search⟩ := by
  have hraw : (target.toList.takeWhile fun c ↦ c ≠ '?' && c ≠ '#') = pathOf target.toList := rfl
  unfold canonicalizePath
  dsimp only
  rw [hraw]
  constructor
  · intro h
    split at h
    · cases h
    next hescaped =>
    split at h
    · cases h
    next hslashes =>
    split at h
    · cases h
    next hdots =>
    simp only [Bool.or_eq_true, not_or, Bool.not_eq_true, Bool.not_eq_true'] at hescaped hslashes
    have hroot := root_of_pathOf.mp (by simpa using hslashes.1)
    rw [hplatform target hroot] at h
    cases hread : Url.resolve hostOf (fun _ ↦ none) "placeholder.invalid".toList target.toList with
    | none =>
      rw [hread] at h
      cases h
    | some loc =>
      rw [hread] at h
      simp only [Option.map_some, parsedUrl, String.toList_ofList] at h
      split at h
      · cases h
      next hhost =>
      split at h
      · cases h
      next hseparated =>
      simp only [Bool.or_eq_true, not_or, Bool.not_eq_true, Bool.not_eq_true'] at hseparated
      have heq := some.inj h
      refine ⟨loc, ⟨hescaped, hroot, hslashes.2, ?_, hread, ?_, hseparated.2⟩, heq.symm⟩
      · intro s hs
        have hkept := hdots
        simp only [List.any_eq_true, not_exists, not_and] at hkept
        have hboth := hkept s hs
        simp only [Bool.or_eq_true, decide_eq_true_eq, not_or] at hboth
        exact hboth
      · have htext := congrArg String.toList (not_not.mp hhost)
        rwa [String.toList_ofList] at htext
  · rintro ⟨loc, hadmitted, rfl⟩
    have hescaped := hadmitted.unescaped
    have hdots : ((pathOf target.toList).splitOn '/').any
        (fun segment ↦ segment = ['.'] || segment = ['.', '.']) = false := by
      rw [List.any_eq_false]
      intro s hs
      have hboth := hadmitted.dots s hs
      simp [hboth.1, hboth.2]
    obtain ⟨-, rest, -, -, htarget⟩ := resolve_target hadmitted.root hadmitted.read
    have hroot := pathname_root rest
    rw [← htarget] at hroot
    rw [hescaped.1, hescaped.2, root_of_pathOf.mpr hadmitted.root, hadmitted.single,
      if_neg (by decide), if_neg (by decide), if_neg (by simp [hdots]),
      hplatform target hadmitted.root, hadmitted.read]
    simp only [Option.map_some, parsedUrl, String.toList_ofList, hadmitted.host, hroot,
      hadmitted.separated]
    rfl

/-- Every accepted target keeps its segments exactly when it is plain. -/
theorem keepsSegments_iff (hplatform : platform.ReadsPaths hostOf) :
    KeepsSegments platform target ↔
      ∀ loc, Admitted hostOf target.toList loc → Url.Plain target.toList := by
  have hsame {loc : Url.Location} (hadmitted : Admitted hostOf target.toList loc) :
      Url.SameSegments (Url.pathOf target.toList) loc.target.pathname ↔
        Url.Plain target.toList := by
    apply Url.sameSegments_iff hadmitted.root _ hadmitted.dots hadmitted.read
    intro hinfix
    have hsingle : hasInfix "//".toList (Url.pathOf target.toList) :=
      infix_of_hasInfix.mpr hinfix
    rw [hadmitted.single] at hsingle
    cases hsingle
  constructor
  · intro hkeeps loc hadmitted
    have hkept := hkeeps _ ((canonicalizePath_eq_some_iff hplatform).mpr ⟨loc, hadmitted, rfl⟩)
    rw [String.toList_ofList] at hkept
    exact (hsame hadmitted).mp hkept
  · intro hplain canonical hcanonical
    obtain ⟨loc, hadmitted, rfl⟩ := (canonicalizePath_eq_some_iff hplatform).mp hcanonical
    rw [String.toList_ofList]
    exact (hsame hadmitted).mpr (hplain loc hadmitted)

end Targets

namespace Sample

/-- A platform with the standard's parser, on hosts that need no conversion. -/
def standardPlatform : Platform :=
  { keyedPlatform with
    parseUrl := fun target ↦ (Url.resolve some (fun _ ↦ none) "placeholder.invalid".toList
      target.toList).map parsedUrl }

end Sample

theorem keepsSegments_notes : KeepsSegments Sample.standardPlatform "/api/v1?id=1" := by
  have hplatform : Sample.standardPlatform.ReadsPaths some := fun _ _ ↦ rfl
  apply (keepsSegments_iff hplatform).mpr
  intro loc _
  constructor
  · exact all_iff_forall_prop.mp rfl
  · decide +kernel
  · intro c _ hpath
    exact absurd hpath (by decide +kernel)

/-- The parser takes `%2e%2e` for a dot segment, and the segment before it away. -/
theorem keepsSegments_dots : ¬ KeepsSegments Sample.standardPlatform "/a/%2e%2e/b" := by
  intro hkeeps
  have hpath : (canonicalizePath Sample.standardPlatform "/a/%2e%2e/b").map
      CanonicalPath.pathname = some "/b" := by decide +kernel
  obtain ⟨canonical, hcanonical, hpathname⟩ := Option.map_eq_some_iff.mp hpath
  have hlength := (hkeeps canonical hcanonical).length_eq
  rw [hpathname] at hlength
  revert hlength
  decide +kernel

end PrivosCluster.Routing
