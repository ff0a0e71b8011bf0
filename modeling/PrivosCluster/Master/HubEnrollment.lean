import PrivosCluster.AsyncProgram.RelyGuarantee
import PrivosCluster.Master.Calls
import PrivosCluster.Master.McpSecurity

/-!
# The first hub identity stays

The key of a workspace is decided by a guarded update: it takes effect only on a record that has no
identity yet. So every enrollment keeps the identities that are there, and one that returns has seen
its own key in the record.
-/

namespace PrivosCluster.McpSecurity

open AsyncProgram DocumentStore Option

/-- Workspaces are told apart by their id. -/
def hubWorkspaceIdentity : Identity HubWorkspace String hubWorkspaceKeys where
  id w := w.workspaceId
  key workspaceId := ⟨["workspaceId"], [workspaceId]⟩
  indexed _ := List.mem_singleton_self _

def SecurityStore.workspace (s : SecurityStore) (workspaceId : String) : Option HubWorkspace :=
  s.workspaces.lookup hubWorkspaceIdentity workspaceId

/-- A record with either half of an identity. -/
def HubWorkspace.Enrolled (w : HubWorkspace) : Prop :=
  w.mcpHubIdentityKid.isSome ∨ w.mcpHubIdentityPublicJwk.isSome

/-- The identities of all workspaces are as they were. -/
def KeepsIdentities (s s' : SecurityStore) : Prop :=
  ∀ workspaceId w, s.workspace workspaceId = some w → w.Enrolled →
    ∃ w', s'.workspace workspaceId = some w' ∧ w'.mcpHubIdentityKid = w.mcpHubIdentityKid ∧
      w'.mcpHubIdentityPublicJwk = w.mcpHubIdentityPublicJwk

theorem KeepsIdentities.refl (s : SecurityStore) : KeepsIdentities s s :=
  fun _ w hw _ ↦ ⟨w, hw, rfl, rfl⟩

variable {s' : SecurityStore} {publicJwk : Json} {w : HubWorkspace}
  {c : Collection HubWorkspace hubWorkspaceKeys} {enrolledAt : Time} {ι : Type}

theorem KeepsIdentities.trans {s s'' : SecurityStore} (h : KeepsIdentities s s')
    (h' : KeepsIdentities s' s'') : KeepsIdentities s s'' := by
  intro workspaceId w hw henrolled
  obtain ⟨w', hw', hkid, hjwk⟩ := h workspaceId w hw henrolled
  have henrolled' : w'.Enrolled := by
    unfold HubWorkspace.Enrolled
    rw [hkid, hjwk]
    exact henrolled
  obtain ⟨w'', hw'', hkid', hjwk'⟩ := h' workspaceId w' hw' henrolled'
  exact ⟨w'', hw'', hkid'.trans hkid, hjwk'.trans hjwk⟩

theorem KeepsIdentities.of_workspaces {s : SecurityStore} (h : s'.workspaces = s.workspaces) :
    KeepsIdentities s s' := by
  intro workspaceId w hw _
  refine ⟨w, ?_, rfl, rfl⟩
  rw [SecurityStore.workspace, h]
  exact hw

/-- The record carries a kid and a key with this canonical text. -/
def Carries (workspaceId kid : String) (publicJwk : Json) (s : SecurityStore) : Prop :=
  ∃ w publicJwk', s.workspace workspaceId = some w ∧ w.mcpHubIdentityKid = some kid ∧
    w.mcpHubIdentityPublicJwk = some publicJwk' ∧ canonicalJson publicJwk' = canonicalJson publicJwk

theorem Carries.kept {workspaceId kid : String} {s : SecurityStore}
    (h : Carries workspaceId kid publicJwk s) (keeps : KeepsIdentities s s') :
    Carries workspaceId kid publicJwk s' := by
  obtain ⟨w, publicJwk', hw, hkid, hjwk, hcanonical⟩ := h
  obtain ⟨w', hw', hkid', hjwk'⟩ := keeps workspaceId w hw (.inl (by simp [hkid]))
  exact ⟨w', publicJwk', hw', hkid'.trans hkid, hjwk'.trans hjwk, hcanonical⟩

/-! ## One call -/

section Calls

variable {s : SecurityStore} {workspaceId : String}

theorem workspaceId_of_isActive (h : isActiveWorkspace workspaceId w) :
    hubWorkspaceIdentity.id w = workspaceId := by
  simp only [isActiveWorkspace, Bool.and_eq_true, beq_iff_eq] at h
  exact h.1

theorem workspace_of_find? {filter : HubWorkspace → Bool}
    (hfilter : ∀ w, filter w → hubWorkspaceIdentity.id w = workspaceId)
    (h : s.workspaces.docs.find? filter = some w) : s.workspace workspaceId = some w := by
  rw [Collection.find?_docs hfilter] at h
  exact (filter_eq_some_iff.mp h).1

theorem isUnenrolled_iff : isUnenrolled workspaceId w ↔
    isActiveWorkspace workspaceId w ∧ w.mcpHubIdentityKid = none ∧
      w.mcpHubIdentityPublicJwk = none := by
  simp [isUnenrolled, and_assoc]

theorem hubWorkspaceKeys_enroll (kid : String) (publicJwk : Json) (enrolledAt : Time)
    (w : HubWorkspace) : hubWorkspaceKeys (enroll kid publicJwk enrolledAt w) = hubWorkspaceKeys w :=
  rfl

/-- The record of every workspace after the guarded update. -/
theorem workspace_enroll {kid : String} (other : String)
    (hdocs : c.docs = updateFirst (isUnenrolled workspaceId) (enroll kid publicJwk enrolledAt)
      s.workspaces.docs) :
    c.lookup hubWorkspaceIdentity other = (s.workspace other).map fun w ↦
      if isUnenrolled workspaceId w then enroll kid publicJwk enrolledAt w else w := by
  apply Collection.lookup_of_updateFirst (a := workspaceId) hdocs
  · intro w hw
    exact workspaceId_of_isActive (isUnenrolled_iff.mp hw).1
  · exact fun _ ↦ rfl

theorem keepsIdentities_enroll {kid : String}
    (hdocs : c.docs = updateFirst (isUnenrolled workspaceId) (enroll kid publicJwk enrolledAt)
      s.workspaces.docs) : KeepsIdentities s { s with workspaces := c } := by
  intro other w hw henrolled
  have hguard : isUnenrolled workspaceId w = false := by
    by_contra hguard
    obtain ⟨_, hkid, hjwk⟩ := isUnenrolled_iff.mp (by simpa using hguard)
    obtain h | h := henrolled
    · simp [hkid] at h
    · simp [hjwk] at h
  refine ⟨w, ?_, rfl, rfl⟩
  have hlookup := workspace_enroll other hdocs
  rw [hw, map_some, hguard] at hlookup
  exact hlookup

theorem carries_enroll {kid : String}
    (hdocs : c.docs = updateFirst (isUnenrolled workspaceId) (enroll kid publicJwk enrolledAt)
      s.workspaces.docs) (hfind : s.workspaces.docs.find? (isUnenrolled workspaceId) = some w) :
    Carries workspaceId kid publicJwk { s with workspaces := c } := by
  have hguard : isUnenrolled workspaceId w := List.find?_some hfind
  have hw : s.workspace workspaceId = some w :=
    workspace_of_find? (fun w hw ↦ workspaceId_of_isActive (isUnenrolled_iff.mp hw).1) hfind
  have hlookup := workspace_enroll workspaceId hdocs
  rw [hw] at hlookup
  rw [map_some, hguard] at hlookup
  exact ⟨enroll kid publicJwk enrolledAt w, publicJwk, hlookup, rfl, rfl, rfl⟩

end Calls

/-! ## Enrollments among others -/

theorem respond_workspaces (law : SecurityLaw) (op : Operation HubWorkspace) (x : SecurityChoice)
    (s : SecurityStore) : (masters law).respond (.workspaces op) x s =
      ((serveStore op x.toChoice s.workspaces).1,
        { s.settled x with workspaces := (serveStore op x.toChoice s.workspaces).2 }) := rfl

/-- Every thread keeps the identities that are there. -/
def keepers (law : SecurityLaw) :
    Contract securitySignature JsError SecurityStore SecurityChoice Unit where
  track _ _ _ := ()
  assumes _ _ _ := True
  rely _ := KeepsIdentities
  ensures _ c x s := KeepsIdentities s ((masters law).respond c x s).2
  rely_refl _ := KeepsIdentities.refl
  rely_trans _ _ _ _ := KeepsIdentities.trans

section Enrollment

variable {law : SecurityLaw} {u : Unit} {s : SecurityStore} {workspaceId : String}

theorem among_securityNow {Q : Except JsError Time → Unit → SecurityStore → Prop}
    (h : ∀ t s', KeepsIdentities s s' → Q (.ok t) () s') :
    Among (masters law) (keepers law) Q securityNow u s := by
  intro s' hrely x _ _
  have hkeeps : KeepsIdentities s' (s'.settled x) := .of_workspaces rfl
  exact ⟨hkeeps, h _ _ (hrely.trans hkeeps)⟩

theorem among_findWorkspace
    {Q : Except JsError (Option HubWorkspace) → Unit → SecurityStore → Prop}
    (hfound : ∀ w s', KeepsIdentities s s' → s'.workspace workspaceId = some w →
      Q (.ok (some w)) () s')
    (hnone : ∀ s', KeepsIdentities s s' → Q (.ok none) () s')
    (hfailed : ∀ e s', KeepsIdentities s s' → Q (.error e) () s') :
    Among (masters law) (keepers law) Q (findWorkspace (isActiveWorkspace workspaceId)) u s := by
  intro s' hrely x _ _
  have hkeeps : KeepsIdentities s' (s'.settled x) := .of_workspaces rfl
  have hlater := KeepsIdentities.trans hrely hkeeps
  have hresponse : (masters law).respond (.workspaces (.findOne (isActiveWorkspace workspaceId))) x
      s' = (if x.fault = .none then
        .ok (s'.workspaces.docs.find? (isActiveWorkspace workspaceId)) else .error x.error,
        s'.settled x) := by
    rw [respond_workspaces, serveStore_findOne]
    rfl
  constructor
  · show KeepsIdentities s' ((masters law).respond _ x s').2
    rw [hresponse]
    exact hkeeps
  · rw [hresponse]
    by_cases hfault : x.fault = .none
    · simp only [hfault, if_true]
      cases hfind : s'.workspaces.docs.find? (isActiveWorkspace workspaceId) with
      | none => exact hnone _ hlater
      | some w =>
        exact hfound w _ hlater (workspace_of_find? (fun _ ↦ workspaceId_of_isActive) hfind)
    · simp only [hfault, if_false]
      exact hfailed _ _ hlater

/-- The guarded update keeps what is there; when it matched, the record carries the new key. -/
theorem among_enroll {kid : String} {Q : Except JsError UpdateResult → Unit → SecurityStore → Prop}
    (hmatched : ∀ result s', KeepsIdentities s s' → Carries workspaceId kid publicJwk s' →
      Q (.ok result) () s') (hmissed : ∀ result s', KeepsIdentities s s' → result.matchedCount = 0 →
      Q (.ok result) () s') (hfailed : ∀ e s', KeepsIdentities s s' → Q (.error e) () s') :
    Among (masters law) (keepers law) Q
      (updateWorkspace (isUnenrolled workspaceId) (enroll kid publicJwk enrolledAt)) u s := by
  intro s' hrely x _ _
  obtain ⟨c, hdocs, hserve⟩ := serveStore_updateOne (x := x.toChoice) (c := s'.workspaces)
    fun w (_ : isUnenrolled workspaceId w) ↦
      hubWorkspaceKeys_enroll kid publicJwk enrolledAt w
  have hsettled : KeepsIdentities s' (s'.settled x) := .of_workspaces rfl
  have hwritten : KeepsIdentities s' { s'.settled x with workspaces := c } :=
    hsettled.trans (keepsIdentities_enroll hdocs)
  have hkeeps : KeepsIdentities s' ((masters law).respond (.workspaces
      (.updateOne (isUnenrolled workspaceId) (enroll kid publicJwk enrolledAt))) x s').2 := by
    rw [respond_workspaces, hserve]
    by_cases hrefused : x.fault = .refused
    · simp only [hrefused, if_true]
      exact hsettled
    · simp only [hrefused, if_false]
      exact hwritten
  have hlater := KeepsIdentities.trans hrely hkeeps
  refine ⟨hkeeps, ?_⟩
  rw [respond_workspaces, hserve] at hlater ⊢
  by_cases hfault : x.fault = .none
  · simp only [hfault, if_true] at hlater ⊢
    cases hfind : s'.workspaces.docs.find? (isUnenrolled workspaceId) with
    | none => exact hmissed _ _ hlater rfl
    | some w => exact hmatched _ _ hlater (carries_enroll (s := s'.settled x) hdocs hfind)
  · simp only [hfault, if_false] at hlater ⊢
    exact hfailed _ _ hlater

theorem among_publicInfo (platform : ArtifactPlatform)
    {Q : Except JsError (Option HubIdentity) → Unit → SecurityStore → Prop}
    (hsome : ∀ identity s', KeepsIdentities s s' →
      Carries workspaceId identity.kid identity.publicJwk s' → Q (.ok (some identity)) () s')
    (hnone : ∀ s', KeepsIdentities s s' → Q (.ok none) () s')
    (hfailed : ∀ e s', KeepsIdentities s s' → Q (.error e) () s') :
    Among (masters law) (keepers law) Q (publicInfo platform workspaceId) u s := by
  apply Among.bind (R := fun r _ t ↦ KeepsIdentities s t ∧
    ∀ w, r = .ok (some w) → t.workspace workspaceId = some w)
  · apply among_findWorkspace
    · intro w t hkeeps hw
      refine ⟨hkeeps, ?_⟩
      intro w' hr
      obtain rfl := some.inj (Except.ok.inj hr)
      exact hw
    · intro t hkeeps
      exact ⟨hkeeps, fun w hr ↦ nomatch hr⟩
    · intro e t hkeeps
      exact ⟨hkeeps, fun w hr ↦ nomatch hr⟩
  · intro found h t hfound
    obtain ⟨hkeeps, hw⟩ := hfound
    cases hidentity : found.bind HubWorkspace.identity? with
    | none => exact hnone t hkeeps
    | some identity =>
      have hcarries : Carries workspaceId identity.kid identity.publicJwk t := by
        obtain ⟨w, rfl, hw'⟩ := bind_eq_some_iff.mp hidentity
        unfold HubWorkspace.identity? at hw'
        simp only [bind_eq_bind, bind_eq_some_iff] at hw'
        obtain ⟨kid, hkid, publicJwk, hjwk, hsome⟩ := hw'
        obtain rfl := some.inj hsome
        exact ⟨w, publicJwk, hw w rfl, (filter_eq_some_iff.mp hkid).1, hjwk, rfl⟩
      apply Among.bind (R := fun _ _ t' ↦ t' = t)
      · exact Among.ofExcept rfl
      · intro thumbprint _ t' hsame
        subst hsame
        apply Among.bind (R := fun _ _ t ↦ t = t')
        · exact Among.throwIf (fun _ ↦ rfl) fun _ ↦ rfl
        · intro _ _ t hsame
          subst hsame
          exact hsome identity _ hkeeps hcarries
        · intro e _ t hsame
          subst hsame
          exact hfailed e _ hkeeps
      · intro e _ t' hsame
        subst hsame
        exact hfailed e _ hkeeps
  · intro e h t hfound
    exact hfailed e t hfound.1

theorem sameKey_iff {kid kid' : String} {publicJwk' : Json} :
    sameKey kid publicJwk kid' publicJwk' ↔
      kid' = kid ∧ canonicalJson publicJwk' = canonicalJson publicJwk := by
  simp [sameKey]

/-- The kid of an enrollment is the thumbprint of its key. -/
theorem thumbprint_of_checkEnrollment {platform : ArtifactPlatform} {clusterId kid : String}
    {input : EnrollmentInput} {nowSeconds : Int}
    (h : checkEnrollment platform clusterId input nowSeconds = .ok kid) :
    jwkThumbprint platform.toCrypto input.publicJwk = .ok kid := by
  unfold checkEnrollment at h
  cases hkid : jwkThumbprint platform.toCrypto input.publicJwk with
  | error e =>
    rw [hkid] at h
    cases h
  | ok kid' =>
    rw [hkid] at h
    simp only [bind, Except.bind] at h
    split at h
    · cases h
    · split at h
      · cases h
      · split at h
        · cases h
        · split at h
          · cases h
          · rw [Except.ok.inj h]

theorem among_enrollChecked (platform : ArtifactPlatform) (clusterId : String)
    (input : EnrollmentInput) {kid : String}
    (hthumbprint : jwkThumbprint platform.toCrypto input.publicJwk = .ok kid) :
    Among (masters law) (keepers law)
      (onExit (fun result _ t ↦ result.clusterId = clusterId ∧
        jwkThumbprint platform.toCrypto input.publicJwk = .ok result.hubKid ∧
          Carries input.workspaceId result.hubKid input.publicJwk t) fun _ _ _ ↦ True)
      (enrollChecked platform clusterId input kid) u s := by
  apply Among.bind (R := fun r _ t ↦ ∀ w, r = .ok (some w) →
    t.workspace input.workspaceId = some w)
  · apply among_findWorkspace
    · intro w t _ hw w' hr
      obtain rfl := some.inj (Except.ok.inj hr)
      exact hw
    · exact fun t _ w hr ↦ nomatch hr
    · exact fun e t _ w hr ↦ nomatch hr
  · intro existing _ t hexisting
    cases existing with
    | none => trivial
    | some w =>
      have hw := hexisting w rfl
      simp only []
      split
      · -- the record has an identity, and the same one is confirmed
        split
        next kid' publicJwk' hkid' hjwk' =>
          split
          next hsame =>
            obtain ⟨hkid'', hcanonical⟩ := sameKey_iff.mp hsame
            exact ⟨rfl, hthumbprint, w, publicJwk', hw, hkid'.trans (congrArg some hkid''),
              hjwk', hcanonical⟩
          next => trivial
        next => trivial
      · apply Among.bind (R := fun _ _ _ ↦ True) (among_securityNow fun _ _ _ ↦ trivial)
        · intro enrolledAt _ t _
          apply Among.bind (R := fun r _ t ↦ ∀ result, r = .ok result →
            result.matchedCount = 0 ∨ Carries input.workspaceId kid input.publicJwk t)
          · apply among_enroll
            · intro result t _ hcarries result' hr
              exact .inr hcarries
            · intro result t _ hmissed result' hr
              obtain rfl := Except.ok.inj hr
              exact .inl hmissed
            · exact fun e t _ result hr ↦ nomatch hr
          · intro updated _ t hupdated
            split
            next hmissed =>
              -- another enrollment came first, and its key is read back
              apply Among.bind (R := fun r _ t ↦ ∀ identity, r = .ok (some identity) →
                Carries input.workspaceId identity.kid identity.publicJwk t)
              · apply among_publicInfo
                · intro identity t _ hcarries identity' hr
                  obtain rfl := some.inj (Except.ok.inj hr)
                  exact hcarries
                · exact fun t _ identity hr ↦ nomatch hr
                · exact fun e t _ identity hr ↦ nomatch hr
              · intro raced _ t hraced
                split
                next hsame =>
                  obtain ⟨identity, rfl, hsame⟩ := Option.any_eq_true _ _ |>.mp hsame
                  obtain ⟨hkid', hcanonical⟩ := sameKey_iff.mp hsame
                  obtain ⟨w', publicJwk', hw', hkid'', hjwk'', hcanonical'⟩ :=
                    hraced identity rfl
                  exact ⟨rfl, hthumbprint, w', publicJwk', hw',
                    hkid''.trans (congrArg some hkid'), hjwk'', hcanonical'.trans hcanonical⟩
                next => trivial
              · exact fun _ _ _ _ ↦ trivial
            next hmatched =>
              obtain hzero | hcarries := hupdated updated rfl
              · omega
              · exact ⟨rfl, hthumbprint, hcarries⟩
          · exact fun _ _ _ _ ↦ trivial
        · exact fun _ _ _ _ ↦ trivial
  · exact fun _ _ _ _ ↦ trivial

/-- An enrollment that returns has seen its key in the record. -/
theorem among_enrollHubIdentity (platform : ArtifactPlatform) (clusterId : String)
    (input : EnrollmentInput) :
    Among (masters law) (keepers law)
      (onExit (fun result _ t ↦ result.clusterId = clusterId ∧
        jwkThumbprint platform.toCrypto input.publicJwk = .ok result.hubKid ∧
          Carries input.workspaceId result.hubKid input.publicJwk t) fun _ _ _ ↦ True)
      (enrollHubIdentity platform clusterId input) u s := by
  apply Among.bind (R := fun _ _ _ ↦ True) (among_securityNow fun _ _ _ ↦ trivial)
  · intro checkedAt _ t _
    apply Among.bind (R := fun r _ _ ↦
      r = checkEnrollment platform clusterId input (nowSeconds checkedAt)) (Among.ofExcept rfl)
    · intro kid _ t hkid
      exact among_enrollChecked platform clusterId input (thumbprint_of_checkEnrollment hkid.symm)
    · exact fun _ _ _ _ ↦ trivial
  · exact fun _ _ _ _ ↦ trivial

end Enrollment

/-! ## Any number of masters -/

/-- One call of `enrollHubIdentity`, as a thread. -/
def enrollment (platform : ArtifactPlatform) (clusterId : String) (input : EnrollmentInput) :
    Secured Unit := do
  let _ ← enrollHubIdentity platform clusterId input
  .pure ()

/-- The key of an enrollment is in the record. -/
def Confirmed (platform : ArtifactPlatform) (input : EnrollmentInput) (s : SecurityStore) : Prop :=
  ∃ kid, jwkThumbprint platform.toCrypto input.publicJwk = .ok kid ∧
    Carries input.workspaceId kid input.publicJwk s

theorem keepers_team [DecidableEq ι] (law : SecurityLaw) (platform : ArtifactPlatform)
    (input : ι → EnrollmentInput) (s₀ : SecurityStore) :
    Team (masters law) (fun _ ↦ keepers law)
      (fun i ↦ onExit (fun _ _ s ↦ Confirmed platform (input i) s) fun _ _ _ ↦ True)
      (fun _ s ↦ KeepsIdentities s₀ s) where
  stable i r h s s' hrely hQ := by
    cases r with
    | error e => trivial
    | ok a =>
      obtain ⟨kid, hkid, hcarries⟩ := hQ
      exact ⟨kid, hkid, hcarries.kept hrely⟩
  fits _ _ _ _ _ _ _ _ hensures _ _ := hensures
  keeps _ _ _ _ _ hkept _ _ hensures := hkept.trans hensures

theorem among_enrollment (law : SecurityLaw) (platform : ArtifactPlatform) (clusterId : String)
    (input : EnrollmentInput) (u : Unit) (s : SecurityStore) :
    Among (masters law) (keepers law)
      (onExit (fun _ _ s ↦ Confirmed platform input s) fun _ _ _ ↦ True)
      (enrollment platform clusterId input) u s := by
  apply Among.bind (among_enrollHubIdentity platform clusterId input)
  · intro result _ s' hresult
    exact ⟨result.hubKid, hresult.2⟩
  · exact fun _ _ _ _ ↦ trivial

/-- Threads that stand where their contracts allow keep the identities of the state they are in. -/
theorem keepsIdentities_of_stands [DecidableEq ι] {law : SecurityLaw} {platform : ArtifactPlatform}
    {input : ι → EnrollmentInput} {s₀ : SecurityStore}
    {pool pool' : Pool securitySignature JsError SecurityStore ι}
    {events : List (Event securitySignature SecurityChoice ι)} {notes : ι → Unit}
    (stands : pool.Stands (masters law) (fun _ ↦ keepers law)
      (fun i ↦ onExit (fun _ _ s ↦ Confirmed platform (input i) s) fun _ _ _ ↦ True)
      (fun _ s ↦ KeepsIdentities s₀ s) notes) (run : Pool.Run (masters law) pool events pool') :
    ∃ notes', pool'.Stands (masters law) (fun _ ↦ keepers law)
      (fun i ↦ onExit (fun _ _ s ↦ Confirmed platform (input i) s) fun _ _ _ ↦ True)
      (fun _ s ↦ KeepsIdentities pool.state s) notes' :=
  run.together (keepers_team law platform input pool.state) (fun _ _ _ _ _ _ _ _ ↦ trivial)
    ⟨stands.threads, .refl _⟩

/-- The workspace has this kid and this key. -/
def HasIdentity (workspaceId kid : String) (publicJwk : Json) (s : SecurityStore) : Prop :=
  ∃ w, s.workspace workspaceId = some w ∧ w.mcpHubIdentityKid = some kid ∧
    w.mcpHubIdentityPublicJwk = some publicJwk

/-- Whatever enrollments any number of masters interleave: the pair of a workspace stays once it is
set, an enrollment that has returned has its key in the record, and no enrollment with another key
returns. -/
theorem hub_identity_agrees {ι : Type} [DecidableEq ι] (law : SecurityLaw)
    (platform : ArtifactPlatform) (clusterId : ι → String) (input : ι → EnrollmentInput)
    {pool pool₁ pool₂ : Pool securitySignature JsError SecurityStore ι}
    {earlier later : List (Event securitySignature SecurityChoice ι)}
    (hthreads : ∀ i, pool.threads i = enrollment platform (clusterId i) (input i))
    (run₁ : Pool.Run (masters law) pool earlier pool₁)
    (run₂ : Pool.Run (masters law) pool₁ later pool₂) :
    (∀ workspaceId kid publicJwk, HasIdentity workspaceId kid publicJwk pool₁.state →
      HasIdentity workspaceId kid publicJwk pool₂.state) ∧
    (∀ i, pool₂.threads i = .pure () → Confirmed platform (input i) pool₂.state) ∧
    (∀ i kid publicJwk, HasIdentity (input i).workspaceId kid publicJwk pool₂.state →
      ¬ (jwkThumbprint platform.toCrypto (input i).publicJwk = .ok kid ∧
        canonicalJson publicJwk = canonicalJson (input i).publicJwk) →
      pool₂.threads i ≠ .pure ()) := by
  have hstands : pool.Stands (masters law) (fun _ ↦ keepers law)
      (fun i ↦ onExit (fun _ _ s ↦ Confirmed platform (input i) s) fun _ _ _ ↦ True)
      (fun _ s ↦ KeepsIdentities pool.state s) (fun _ ↦ ()) := by
    refine ⟨fun i ↦ ?_, .refl _⟩
    rw [hthreads i]
    exact among_enrollment law platform (clusterId i) (input i) () pool.state
  obtain ⟨notes₁, hstands₁⟩ := keepsIdentities_of_stands hstands run₁
  obtain ⟨notes₂, hstands₂⟩ := keepsIdentities_of_stands hstands₁ run₂
  have hconfirmed : ∀ i, pool₂.threads i = .pure () → Confirmed platform (input i) pool₂.state := by
    intro i hreturned
    have hthread := hstands₂.threads i
    rw [hreturned] at hthread
    exact hthread
  refine ⟨?_, hconfirmed, ?_⟩
  · intro workspaceId kid publicJwk hidentity
    obtain ⟨w, hw, hkid, hjwk⟩ := hidentity
    obtain ⟨w', hw', hkid', hjwk'⟩ := hstands₂.joint workspaceId w hw (.inl (by simp [hkid]))
    exact ⟨w', hw', hkid'.trans hkid, hjwk'.trans hjwk⟩
  · intro i kid publicJwk hidentity hother hreturned
    obtain ⟨w, hw, hkid, hjwk⟩ := hidentity
    obtain ⟨kid', hthumbprint, w', publicJwk', hw', hkid', hjwk', hcanonical⟩ :=
      hconfirmed i hreturned
    obtain rfl := Option.some.inj (hw.symm.trans hw')
    obtain rfl := Option.some.inj (hkid.symm.trans hkid')
    obtain rfl := Option.some.inj (hjwk.symm.trans hjwk')
    exact hother ⟨hthumbprint, hcanonical⟩

theorem respond_now (law : SecurityLaw) (x : SecurityChoice) (s : SecurityStore) :
    (masters law).respond .now x s = (.ok (s.settled x).clock, s.settled x) := rfl

/-! ## Playing enrollments -/

/-- What an enrollment does once it knows the time. -/
def proving (platform : ArtifactPlatform) (clusterId : String) (input : EnrollmentInput)
    (checkedAt : Time) : Secured Unit := do
  let _ ← do
    let kid ← Program.ofExcept (checkEnrollment platform clusterId input (nowSeconds checkedAt))
    enrollChecked platform clusterId input kid
  .pure ()

/-- What an enrollment does once its proof has been checked. -/
def enrolling (platform : ArtifactPlatform) (clusterId : String) (input : EnrollmentInput)
    (kid : String) : Secured Unit := do
  let _ ← enrollChecked platform clusterId input kid
  .pure ()

section

variable {platform : ArtifactPlatform} {clusterId kid : String} {input : EnrollmentInput}

theorem enrollment_eq :
    enrollment platform clusterId input = securityNow >>= proving platform clusterId input := by
  unfold enrollment enrollHubIdentity proving
  simp only [Program.bind_assoc]

theorem proving_eq {checkedAt : Time}
    (h : checkEnrollment platform clusterId input (nowSeconds checkedAt) = .ok kid) :
    proving platform clusterId input checkedAt = enrolling platform clusterId input kid := by
  unfold proving
  rw [h]
  rfl

theorem settled_default (s : SecurityStore) : s.settled {} = s := by
  simp [SecurityStore.settled, Collection.remove]

instance (c : SecurityCall) (x : SecurityChoice) (s : SecurityStore) :
    Decidable ((masters fun _ _ _ ↦ True).permits c x s) := isTrue trivial

theorem step_proving [DecidableEq ι] (threads : ι → Secured Unit) {s : SecurityStore} (i : ι)
    (hthread : threads i = enrollment platform clusterId input)
    (h : checkEnrollment platform clusterId input (nowSeconds s.clock) = .ok kid) :
    Pool.Step (masters fun _ _ _ ↦ True) ⟨threads, s⟩ ⟨i, .now, {}⟩
      ⟨Function.update threads i (enrolling platform clusterId input kid), s⟩ := by
  let before : Pool securitySignature JsError SecurityStore ι := ⟨threads, s⟩
  have hnext : before.threads i = securityNow >>= proving platform clusterId input :=
    hthread.trans enrollment_eq
  have hcall : Pool.Step (masters fun _ _ _ ↦ True) before ⟨i, .now, {}⟩ _ := .call hnext trivial
  simp only [respond_now, settled_default] at hcall
  rw [← proving_eq h]
  exact hcall

end

/-! ## An example -/

namespace Sample

open PrivosCluster.Sample

def enrollmentPayload : Json :=
  .obj
    [("aud", .str "privos-apps-master"), ("clusterId", .str "cluster-1"),
      ("deploymentId", .str "hub-1"), ("exp", .num 1700000060), ("iat", .num 1700000000),
      ("jti", .str "22222222-2222-4222-8222-222222222222"), ("kid", .str hubKid),
      ("type", .str "mcp-hub-identity-enrollment"), ("workspaceId", .str "acme")]

def enrollmentHeader : Json :=
  .obj [("alg", .str "ES256"), ("kid", .str hubKid), ("privos_protocol", .num 2),
    ("typ", .str "privos-hub-identity-enrollment+jws")]

def enrollmentHeaderPart : String :=
  "eyJhbGci" ++ (
    "OiJFUzI1NiIsImtpZCI6IjhhSTZLV0VFUmRrbHVmaS05Q1NPY0RoRkFNS2VuazdtT0NOR0gwX21rYTgiLCJwcml2" ++
    "b3NfcHJvdG9jb2wiOjIsInR5cCI6InByaXZvcy1odWItaWRlbnRpdHktZW5yb2xsbWVudCtqd3MifQ")

def enrollmentPayloadPart : String :=
  "eyJhdWQi" ++ (
    "OiJwcml2b3MtYXBwcy1tYXN0ZXIiLCJjbHVzdGVySWQiOiJjbHVzdGVyLTEiLCJkZXBsb3ltZW50SWQiOiJodWIt" ++
    "MSIsImV4cCI6MTcwMDAwMDA2MCwiaWF0IjoxNzAwMDAwMDAwLCJqdGkiOiIyMjIyMjIyMi0yMjIyLTQyMjItODIy" ++
    "Mi0yMjIyMjIyMjIyMjIiLCJraWQiOiI4YUk2S1dFRVJka2x1ZmktOUNTT2NEaEZBTUtlbms3bU9DTkdIMF9ta2E4" ++
    "IiwidHlwZSI6Im1jcC1odWItaWRlbnRpdHktZW5yb2xsbWVudCIsIndvcmtzcGFjZUlkIjoiYWNtZSJ9")

def enrollmentSignature : String :=
  "jZTQDGAZ" ++ "kJ-0NDgMlaYN58D73SGImZGF8A8g7A1Pq8bpD5thS1RYcKxfs4kdOzWnMRWMsxxY4mg__n6bm_EuTA"

/-- The enrollment as the Hub has signed it with its own key. -/
def enrollmentInput : EnrollmentInput where
  compact := enrollmentHeaderPart ++ "." ++ enrollmentPayloadPart ++ "." ++ enrollmentSignature
  publicJwk := hubJwk.toJson
  workspaceId := "acme"

def enrollmentPlatform : ArtifactPlatform :=
  { artifactPlatform with
    readPart := fun part ↦
      if part = enrollmentHeaderPart then some enrollmentHeader
      else if part = enrollmentPayloadPart then some enrollmentPayload else none
    verify := fun _ signature publicJwk ↦
      .ok (signature == enrollmentSignature && publicJwk == hubJwk) }

theorem enrollmentParts : compactParts enrollmentInput.compact =
    [enrollmentHeaderPart, enrollmentPayloadPart, enrollmentSignature] := by
  apply compactParts_join
  · apply not_mem_toList_append (not_mem_toList_ofList (by decide))
    apply not_mem_toList_append _ (not_mem_toList_ofList (by decide))
    exact not_mem_toList_ofList (by decide)
  · apply not_mem_toList_append (not_mem_toList_ofList (by decide))
    iterate 3 apply not_mem_toList_append _ (not_mem_toList_ofList (by decide))
    exact not_mem_toList_ofList (by decide)
  · apply not_mem_toList_append (not_mem_toList_ofList (by decide))
    exact not_mem_toList_ofList (by decide)

def enrollmentJws : ParsedJws where
  header := enrollmentHeader
  payload := enrollmentPayload
  signingInput := enrollmentHeaderPart ++ "." ++ enrollmentPayloadPart
  signature := enrollmentSignature

theorem parseJws_enrollment :
    parseJws enrollmentPlatform enrollmentInput.compact = .ok enrollmentJws := by
  have hne : enrollmentPayloadPart ≠ enrollmentHeaderPart := append_ne (by decide) (by decide)
  have hheader : enrollmentPlatform.readPart enrollmentHeaderPart = some enrollmentHeader := by
    simp only [enrollmentPlatform, if_true]
  have hpayload : enrollmentPlatform.readPart enrollmentPayloadPart = some enrollmentPayload := by
    simp only [enrollmentPlatform, hne, if_false, if_true]
  exact parseJws_of_parts enrollmentParts (append_ne_empty (by decide))
    (append_ne_empty (by decide)) (append_ne_empty (by decide)) hheader hpayload

theorem verifyWithJwk_enrollment :
    verifyWithJwk enrollmentPlatform enrollmentInput.compact hubJwk.toJson
      "privos-hub-identity-enrollment+jws" hubKid none = .ok enrollmentJws := by
  have hheader : headerMatches enrollmentJws.header "privos-hub-identity-enrollment+jws" hubKid
      none = true := by
    decide
  have hverify : enrollmentPlatform.verify enrollmentJws.signingInput enrollmentJws.signature
      hubJwk = .ok true := by
    simp only [enrollmentPlatform, enrollmentJws, beq_self_eq_true, Bool.and_self]
  exact verifyEs256Jws_of_parsed parseJws_enrollment rfl hheader rfl rfl rfl hverify

theorem checkEnrollment_enrollment :
    checkEnrollment enrollmentPlatform "cluster-1" enrollmentInput 1700000010 = .ok hubKid := by
  have hkid : jwkThumbprint enrollmentPlatform.toCrypto hubJwk.toJson = .ok hubKid := by
    decide
  have hpayload : hubIdentityEnrollmentPayload? enrollmentPayload =
      some ⟨1700000000, 1700000060, "cluster-1", "acme", hubKid⟩ := by
    decide
  exact checkEnrollment_eq_ok hkid verifyWithJwk_enrollment hpayload rfl rfl rfl rfl

/-- A store with one workspace, which has no hub identity yet. -/
def unenrolled : SecurityStore where
  workspaces := ⟨[{
      workspaceId := "acme"
      keyHash := "key"
      encryptedKey := "key"
      quota := ⟨1024, 1, 1⟩
      defaultAvailabilityTier := .single
      status := .active
      createdAt := 0
      updatedAt := 0 }], by decide⟩
  artifactUses := ⟨[], List.nodup_nil⟩
  inventories := ⟨[], List.nodup_nil⟩
  clock := 1700000010000

/-- Two masters receive the same enrollment. -/
def race : Pool securitySignature JsError SecurityStore Bool where
  threads _ := enrollment enrollmentPlatform "cluster-1" enrollmentInput
  state := unenrolled

/-- Both have checked its proof. -/
def checked : Pool securitySignature JsError SecurityStore Bool where
  threads _ := enrolling enrollmentPlatform "cluster-1" enrollmentInput hubKid
  state := unenrolled

theorem race_checked : ∃ events, Pool.Run (masters fun _ _ _ ↦ True) race events checked := by
  have hcheck : checkEnrollment enrollmentPlatform "cluster-1" enrollmentInput
      (nowSeconds unenrolled.clock) = .ok hubKid := by
    exact checkEnrollment_enrollment
  have hfirst := step_proving race.threads false rfl hcheck
  have hsecond := step_proving
    (Function.update race.threads false (enrolling enrollmentPlatform "cluster-1" enrollmentInput
      hubKid)) true rfl hcheck
  have hthreads : Function.update (Function.update race.threads false
      (enrolling enrollmentPlatform "cluster-1" enrollmentInput hubKid)) true
      (enrolling enrollmentPlatform "cluster-1" enrollmentInput hubKid) = checked.threads := by
    funext i
    cases i <;> rfl
  rw [hthreads] at hsecond
  exact ⟨_, .step (.step .start hfirst) hsecond⟩

/-- Both read the workspace before either writes it. -/
def raced : List (Event securitySignature SecurityChoice Bool) ×
    Pool securitySignature JsError SecurityStore Bool :=
  Pool.play (masters fun _ _ _ ↦ True) (fun _ _ ↦ {})
    [false, true, false, true, false, true, true] checked

def isReturned : Secured Unit → Bool
  | .pure _ => true
  | _ => false

theorem eq_pure_of_isReturned {p : Secured Unit} (h : isReturned p = true) : p = .pure () := by
  cases p with
  | pure _ => rfl
  | throw _ => cases h
  | call _ _ => cases h

theorem raced_returned (i : Bool) : raced.2.threads i = .pure () := by
  apply eq_pure_of_isReturned
  cases i <;> decide +kernel

end Sample

/-- Of two masters that race for one enrollment, both return, and the workspace has its key. -/
theorem hub_identity_agrees_race : (∀ i, Sample.raced.2.threads i = .pure ()) ∧
    (∀ i, Confirmed Sample.enrollmentPlatform Sample.enrollmentInput Sample.raced.2.state ∧
      Sample.raced.2.threads i ≠ .throw hubIdentityConflict) := by
  obtain ⟨earlier, hchecked⟩ := Sample.race_checked
  have hagrees := hub_identity_agrees (fun _ _ _ ↦ True) Sample.enrollmentPlatform
    (fun _ ↦ "cluster-1") (fun _ : Bool ↦ Sample.enrollmentInput) (fun _ ↦ rfl) hchecked
    (Pool.run_play (m := masters fun _ _ _ ↦ True) (fun _ _ ↦ {})
      [false, true, false, true, false, true, true] Sample.checked)
  refine ⟨Sample.raced_returned, fun i ↦ ⟨hagrees.2.1 i (Sample.raced_returned i), ?_⟩⟩
  rw [Sample.raced_returned i]
  exact fun h ↦ nomatch h

end PrivosCluster.McpSecurity
