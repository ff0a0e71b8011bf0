import PrivosCluster.Routing.Listeners
import Mathlib.Data.List.Perm.Basic

/-!
# The host router of the loopback proxy

The router splits the host of a request into one label and a configured base domain. It tries the
base domains in the order in which they are configured and decides at the first one that the host
ends in.
-/

namespace PrivosCluster.Routing

open List Option

/-- What the router reads of a container. -/
structure RoutedContainer where
  id : String
  dockerContainerId : String
  state : ContainerState
  port : Nat
  hostPort : Option Nat
  mcpV2 : Bool
deriving DecidableEq

structure ResolvedTarget where
  url : String
  containerId : String
  mcpV2 : Bool
deriving DecidableEq

structure SplitHost where
  subdomain : List Char
  domain : List Char
deriving DecidableEq

/-- Only a running container is a target: its address in the network, or its published port. -/
def targetForContainer (c : RoutedContainer) (ip : Option String) : Option String :=
  if c.state ≠ .running then none
  else match truthy ip, c.hostPort.filter (· ≠ 0) with
  | some ip, _ => some ("http://" ++ ip ++ ":" ++ toString c.port)
  | none, some hostPort => some ("http://localhost:" ++ toString hostPort)
  | none, none => none

section Split

variable (toLowerCase : List Char → List Char)

/-- The host of a request without port, white space and final dot; empty when there is none. -/
def requestHost (rawHost : Option String) : List Char :=
  match truthy rawHost with
  | none => []
  | some rawHost => dropFinalDot (toLowerCase (trim (rawHost.toList.takeWhile (· ≠ ':'))))

def normalBase (raw : String) : List Char := toLowerCase (trim raw.toList)

/-- What one base domain decides about a host, if it decides anything. -/
def decideBase (host base : List Char) : Option (Option SplitHost) :=
  if base = [] then none
  else if host = base then some none
  else if ('.' :: base).isSuffixOf host then
    let subdomain := host.take (host.length - base.length - 1)
    if subdomain = [] ∨ '.' ∈ subdomain then some none
    else some (some { subdomain, domain := base })
  else none

/-- The loop over the base domains returns at the first one that decides. -/
def splitAmong (host : List Char) : List String → Option SplitHost
  | [] => none
  | raw :: domains =>
    match decideBase host (normalBase toLowerCase raw) with
    | some decision => decision
    | none => splitAmong host domains

def splitHost (rawHost : Option String) (domains : List String) : Option SplitHost :=
  let host := requestHost toLowerCase rawHost
  if host = [] then none else splitAmong toLowerCase host domains

end Split

/-! ## Nested base domains -/

/-- The configured base domains as the router compares them. -/
def baseDomains (toLowerCase : List Char → List Char) (domains : List String) : List (List Char) :=
  (domains.map (normalBase toLowerCase)).filter (· ≠ [])

/-- The host is one label under the base domain. -/
def IsLabelUnder (host base : List Char) : Prop :=
  ∃ label, label ≠ [] ∧ '.' ∉ label ∧ host = label ++ '.' :: base

/-- The host is the base domain or ends in it. -/
def EndsIn (host base : List Char) : Prop := host = base ∨ '.' :: base <:+ host

/-- The host is no configured base domain and one label under some. -/
def IsAppHost (host : List Char) (bases : List (List Char)) : Prop :=
  host ∉ bases ∧ ∃ base ∈ bases, IsLabelUnder host base

/-- The host is one label under a configured base domain and ends in another one. -/
def IsNested (host : List Char) (bases : List (List Char)) : Prop :=
  ∃ base ∈ bases, IsLabelUnder host base ∧ ∃ other ∈ bases, EndsIn host other ∧ other ≠ base

/-- A host is one label under at most one base domain. -/
theorem IsLabelUnder.unique {host base other : List Char} (h : IsLabelUnder host base)
    (h' : IsLabelUnder host other) : other = base := by
  obtain ⟨label, -, hdot, hhost⟩ := h
  obtain ⟨label', -, hdot', hhost'⟩ := h'
  have hlabel : ∀ {l b : List Char}, '.' ∉ l →
      (l ++ '.' :: b).dropWhile (· ≠ '.') = '.' :: b := by
    intro l b hl
    rw [dropWhile_append_of_pos]
    · simp
    · intro c hc
      simp only [ne_eq, decide_not, Bool.not_eq_eq_eq_not, Bool.not_true, decide_eq_false_iff_not]
      exact fun heq ↦ hl (heq ▸ hc)
  have hsame : '.' :: other = '.' :: base := by
    rw [← hlabel hdot', ← hhost', hhost, hlabel hdot]
  exact (List.cons.inj hsame).2

/-- A host is not one label under itself. -/
theorem IsLabelUnder.ne {host base : List Char} (h : IsLabelUnder host base) : host ≠ base := by
  obtain ⟨label, -, -, rfl⟩ := h
  intro heq
  have hlength := congrArg length heq
  simp only [length_append, length_cons] at hlength
  omega

section Decide

variable {host base : List Char}

theorem decideBase_of_not_endsIn (h : ¬ EndsIn host base) : decideBase host base = none := by
  unfold decideBase
  have hsuffix : ¬ ('.' :: base).isSuffixOf host := fun hsuffix ↦
    h (.inr (isSuffixOf_iff_suffix.mp hsuffix))
  rw [if_neg fun heq ↦ h (.inl heq), if_neg hsuffix]
  exact ite_self _

/-- The part of the host before the base domain. -/
theorem take_of_suffix {label : List Char} :
    (label ++ '.' :: base).take ((label ++ '.' :: base).length - base.length - 1) = label := by
  have hlength : (label ++ '.' :: base).length - base.length - 1 = label.length := by
    simp only [length_append, length_cons]
    omega
  rw [hlength, take_left']
  rfl

theorem decideBase_of_label (hbase : base ≠ []) (h : IsLabelUnder host base) :
    ∃ split, decideBase host base = some (some split) := by
  have hne := h.ne
  obtain ⟨label, hlabel, hdot, rfl⟩ := h
  have hsuffix : ('.' :: base).isSuffixOf (label ++ '.' :: base) :=
    isSuffixOf_iff_suffix.mpr (suffix_append label ('.' :: base))
  unfold decideBase
  rw [if_neg hbase, if_neg hne, if_pos hsuffix, take_of_suffix]
  rw [if_neg (not_or_intro hlabel hdot)]
  exact ⟨_, rfl⟩

theorem decideBase_of_not_label (hbase : base ≠ []) (hends : EndsIn host base)
    (h : ¬ IsLabelUnder host base) : decideBase host base = some none := by
  unfold decideBase
  rw [if_neg hbase]
  by_cases heq : host = base
  · rw [if_pos heq]
  · obtain ⟨label, rfl⟩ := hends.resolve_left heq
    have hsuffix : ('.' :: base).isSuffixOf (label ++ '.' :: base) :=
      isSuffixOf_iff_suffix.mpr (suffix_append label ('.' :: base))
    have hdeep : label = [] ∨ '.' ∈ label := by
      by_contra hnot
      exact h ⟨label, fun hnil ↦ hnot (.inl hnil), fun hdot ↦ hnot (.inr hdot), rfl⟩
    rw [if_neg heq, if_pos hsuffix, take_of_suffix]
    rw [if_pos hdeep]

end Decide

section Order

variable {toLowerCase : List Char → List Char} {rawHost : Option String} {domains : List String}

theorem splitAmong_eq (host : List Char) : splitAmong toLowerCase host domains =
    ((baseDomains toLowerCase domains).findSome? (decideBase host)).join := by
  induction domains with
  | nil => rfl
  | cons raw domains ih =>
    have hstep : splitAmong toLowerCase host (raw :: domains) =
        ((decideBase host (normalBase toLowerCase raw)).getD
          (splitAmong toLowerCase host domains)) := by
      rw [splitAmong]
      cases decideBase host (normalBase toLowerCase raw) <;> rfl
    by_cases hempty : normalBase toLowerCase raw = []
    · have hnone : decideBase host (normalBase toLowerCase raw) = none := if_pos hempty
      have hbases : baseDomains toLowerCase (raw :: domains) = baseDomains toLowerCase domains :=
        filter_cons_of_neg (by simp [hempty])
      rw [hstep, hnone, hbases, ← ih]
      rfl
    · have hbases : baseDomains toLowerCase (raw :: domains) =
          normalBase toLowerCase raw :: baseDomains toLowerCase domains :=
        filter_cons_of_pos (by simp [hempty])
      rw [hstep, hbases, findSome?_cons]
      cases decideBase host (normalBase toLowerCase raw) with
      | none => exact ih
      | some decision => rfl

/-- The router's answer is the decision of the first base domain that decides. -/
theorem splitHost_eq : splitHost toLowerCase rawHost domains =
    ((baseDomains toLowerCase domains).findSome?
      (decideBase (requestHost toLowerCase rawHost))).join := by
  unfold splitHost
  dsimp only
  split
  next hempty =>
    have hnone : ∀ base ∈ baseDomains toLowerCase domains, decideBase [] base = none := by
      intro base hbase
      apply decideBase_of_not_endsIn
      intro hends
      have hne : base ≠ [] := by simpa using (mem_filter.mp hbase).2
      obtain heq | hsuffix := hends
      · exact hne heq.symm
      · exact absurd (suffix_nil.mp hsuffix) (cons_ne_nil _ _)
    rw [hempty, findSome?_eq_none_iff.mpr hnone]
    rfl
  next => exact splitAmong_eq _

theorem findSome?_eq_of_forall {α β : Type} {f : α → Option β} {l : List α} {x : β}
    (hsome : ∃ a ∈ l, f a ≠ none) (h : ∀ a ∈ l, ∀ y, f a = some y → y = x) :
    l.findSome? f = some x := by
  cases hfound : l.findSome? f with
  | none =>
    obtain ⟨a, ha, hne⟩ := hsome
    exact absurd (findSome?_eq_none_iff.mp hfound a ha) hne
  | some y =>
    obtain ⟨before, a, after, rfl, hy, -⟩ := findSome?_eq_some_iff.mp hfound
    rw [h a (by simp) y hy]

theorem baseDomains_perm {domains' : List String} (h : domains'.Perm domains) :
    (baseDomains toLowerCase domains').Perm (baseDomains toLowerCase domains) :=
  (h.map _).filter _

theorem ne_nil_of_mem_baseDomains {base : List Char}
    (h : base ∈ baseDomains toLowerCase domains) : base ≠ [] := by
  simpa using (mem_filter.mp h).2

/-- A host that ends in no other base domain than the one it is a label under. -/
theorem splitHost_of_label {base : List Char} {split : SplitHost}
    (hbase : base ∈ baseDomains toLowerCase domains)
    (hdecide : decideBase (requestHost toLowerCase rawHost) base = some (some split))
    (hunique : ∀ other ∈ baseDomains toLowerCase domains,
      EndsIn (requestHost toLowerCase rawHost) other → other = base) :
    splitHost toLowerCase rawHost domains = some split := by
  have hsome : decideBase (requestHost toLowerCase rawHost) base ≠ none := by
    rw [hdecide]
    exact Option.some_ne_none _
  rw [splitHost_eq, findSome?_eq_of_forall ⟨base, hbase, hsome⟩]
  · rfl
  · intro other hother decision hdecision
    by_cases hends : EndsIn (requestHost toLowerCase rawHost) other
    · rw [hunique other hother hends, hdecide] at hdecision
      exact (some.inj hdecision).symm
    · rw [decideBase_of_not_endsIn hends] at hdecision
      cases hdecision

/-- A host that is no label under any base domain. -/
theorem splitHost_of_not_label (h : ∀ base ∈ baseDomains toLowerCase domains,
      ¬ IsLabelUnder (requestHost toLowerCase rawHost) base) :
    splitHost toLowerCase rawHost domains = none := by
  rw [splitHost_eq]
  cases hfound : (baseDomains toLowerCase domains).findSome?
      (decideBase (requestHost toLowerCase rawHost)) with
  | none => rfl
  | some decision =>
    obtain ⟨before, base, after, hsplit, hdecision, -⟩ := findSome?_eq_some_iff.mp hfound
    have hbase : base ∈ baseDomains toLowerCase domains := by simp [hsplit]
    by_cases hends : EndsIn (requestHost toLowerCase rawHost) base
    · rw [decideBase_of_not_label (ne_nil_of_mem_baseDomains hbase) hends (h base hbase)] at hdecision
      rw [← some.inj hdecision]
      rfl
    · rw [decideBase_of_not_endsIn hends] at hdecision
      cases hdecision

/-- The base domain that is tried first decides when the host ends in it. -/
theorem splitHost_cons {raw : String} {decision : Option SplitHost}
    (h : decideBase (requestHost toLowerCase rawHost) (normalBase toLowerCase raw) = some decision)
    (hne : normalBase toLowerCase raw ≠ []) :
    splitHost toLowerCase rawHost (raw :: domains) = decision := by
  have hbases : baseDomains toLowerCase (raw :: domains) =
      normalBase toLowerCase raw :: baseDomains toLowerCase domains :=
    filter_cons_of_pos (by simp [hne])
  rw [splitHost_eq, hbases, findSome?_cons, h]
  rfl

end Order

/-- The host is accepted exactly when it is no base domain and one label under some, and the answer
is the same for every order of the base domains. -/
def SplitsByLabel (toLowerCase : List Char → List Char) (rawHost : Option String)
    (domains : List String) : Prop :=
  ((splitHost toLowerCase rawHost domains).isSome = true ↔
      IsAppHost (requestHost toLowerCase rawHost) (baseDomains toLowerCase domains)) ∧
    ∀ domains', domains'.Perm domains →
      splitHost toLowerCase rawHost domains' = splitHost toLowerCase rawHost domains

/-- The router splits a host as meant for every order of the base domains, unless the host is one
label under a base domain and ends in another one. -/
theorem splitsByLabel_iff (toLowerCase : List Char → List Char) (rawHost : Option String)
    (domains : List String) :
    SplitsByLabel toLowerCase rawHost domains ↔
      ¬ IsNested (requestHost toLowerCase rawHost) (baseDomains toLowerCase domains) := by
  constructor
  · intro hsplits hnested
    obtain ⟨base, hbase, hlabel, other, hother, hends, hne⟩ := hnested
    obtain ⟨hmem, hbase_ne⟩ := mem_filter.mp hbase
    obtain ⟨hmem', hother_ne⟩ := mem_filter.mp hother
    obtain ⟨raw, hraw, rfl⟩ := List.mem_map.mp hmem
    obtain ⟨raw', hraw', rfl⟩ := List.mem_map.mp hmem'
    -- With the one first the host is accepted, with the other first it is not.
    obtain ⟨split, hdecide⟩ := decideBase_of_label (ne_nil_of_mem_baseDomains hbase) hlabel
    have hdecide' := decideBase_of_not_label (ne_nil_of_mem_baseDomains hother) hends
      fun hlabel' ↦ hne (hlabel.unique hlabel')
    have hfirst := hsplits.2 _ (perm_cons_erase hraw).symm
    have hfirst' := hsplits.2 _ (perm_cons_erase hraw').symm
    rw [splitHost_cons hdecide (ne_nil_of_mem_baseDomains hbase)] at hfirst
    rw [splitHost_cons hdecide' (ne_nil_of_mem_baseDomains hother)] at hfirst'
    rw [← hfirst] at hfirst'
    cases hfirst'
  · intro hnot
    by_cases hexists : ∃ base ∈ baseDomains toLowerCase domains,
        IsLabelUnder (requestHost toLowerCase rawHost) base
    · obtain ⟨base, hbase, hlabel⟩ := hexists
      have hunique : ∀ other ∈ baseDomains toLowerCase domains,
          EndsIn (requestHost toLowerCase rawHost) other → other = base := by
        intro other hother hends
        by_contra hne
        exact hnot ⟨base, hbase, hlabel, other, hother, hends, hne⟩
      obtain ⟨split, hdecide⟩ := decideBase_of_label (ne_nil_of_mem_baseDomains hbase) hlabel
      have hsplit := splitHost_of_label hbase hdecide hunique
      constructor
      · rw [hsplit]
        apply iff_of_true rfl
        refine ⟨?_, base, hbase, hlabel⟩
        intro hself
        exact hlabel.ne (hunique _ hself (.inl rfl))
      · intro domains' hperm
        have hbases : (baseDomains toLowerCase domains').Perm (baseDomains toLowerCase domains) :=
          baseDomains_perm hperm
        rw [hsplit, splitHost_of_label (hbases.mem_iff.mpr hbase) hdecide]
        intro other hother
        exact hunique other (hbases.mem_iff.mp hother)
    · have hnone : ∀ base ∈ baseDomains toLowerCase domains,
          ¬ IsLabelUnder (requestHost toLowerCase rawHost) base :=
        fun base hbase hlabel ↦ hexists ⟨base, hbase, hlabel⟩
      rw [SplitsByLabel, splitHost_of_not_label hnone]
      constructor
      · apply iff_of_false (by simp)
        intro happ
        exact hexists happ.2
      · intro domains' hperm
        apply splitHost_of_not_label
        intro base hbase
        exact hnone base ((baseDomains_perm hperm).mem_iff.mp hbase)

namespace Sample

def nestedDomains : List String := ["example.com", "apps.example.com"]

end Sample

/-- The host is one label under the second base domain; the first one refuses it as too deep. -/
theorem splitsByLabel_nested :
    splitHost (List.map lowerChar) (some "todo.apps.example.com") Sample.nestedDomains = none ∧
      splitHost (List.map lowerChar) (some "todo.apps.example.com") Sample.nestedDomains.reverse =
        some ⟨"todo".toList, "apps.example.com".toList⟩ ∧
      ¬ SplitsByLabel (List.map lowerChar) (some "todo.apps.example.com") Sample.nestedDomains := by
  have hfirst : splitHost (List.map lowerChar) (some "todo.apps.example.com")
      Sample.nestedDomains = none := by decide +kernel
  have hsecond : splitHost (List.map lowerChar) (some "todo.apps.example.com")
      Sample.nestedDomains.reverse = some ⟨"todo".toList, "apps.example.com".toList⟩ := by
    decide +kernel
  refine ⟨hfirst, hsecond, ?_⟩
  intro hsplits
  have hsame := hsplits.2 _ (reverse_perm Sample.nestedDomains)
  cases hsame

end PrivosCluster.Routing
