import PrivosCluster.Master.QuotaOperations
import PrivosCluster.Master.WorkspaceCluster

/-!
# The lifecycle service and the quota

A teardown only takes charges away. A redeployment and a release change what a record is charged
without a check. A new quota is safe when it is no lower than the old one.
-/

namespace PrivosCluster

open AsyncProgram DocumentStore AppLifecycle

namespace Quota

variable {law : Law} {workspaceId appId : String} {w : World} {deps : LifecycleDeps}

/-! ## Redeployment and release -/

/-- The record an operation of the lifecycle service loads. -/
def loadable (workspaceId appId : String) (app : MasterApp) : Bool :=
  AppLifecycle.byId workspaceId appId app && app.state != .removed

theorem leaves_load :
    Leaves law w (fun app ↦ w.apps.docs.find? (loadable workspaceId appId) = some app)
      (AppLifecycle.load workspaceId appId) := by
  apply leaves_findOne.bind
  intro found hfound
  cases found with
  | none => trivial
  | some app => exact hfound.symm

/-- The resources a redeployment gives to an app. -/
def redeployedResources (input : AppLifecycle.RedeployInput) (app : MasterApp) :
    ContainerResources :=
  (input.resources.getD {}).applyTo app.resources

theorem leaves_requestReplicas {nodes : List MasterNode} {app : MasterApp}
    {command : AppReplica → AgentRequest} {owner : String} :
    Leaves law w (fun _ ↦ True) (promiseAll (app.replicas.map fun replica ↦
      requestNode (nodeOf nodes replica.nodeId) owner (command replica))) := by
  apply (meets_promiseAll (Q := fun _ ↦ True) plain _).imp fun _ _ ↦ trivial
  intro p hp
  obtain ⟨replica, -, rfl⟩ := List.mem_map.mp hp
  exact leaves_requestNode

theorem redeploy_stays {input : AppLifecycle.RedeployInput} (hw : Solvent w)
    (hfits : ∀ app, w.apps.docs.find? (loadable workspaceId appId) = some app →
      ¬ (app.kind = some .mcpV2 ∨ app.kind = some .mcpV3) →
      0 ≤ (redeployedResources input app).cpus ∧
        FitsBeside workspaceId appId (redeployedResources input app) app.replicas.length w) :
    Stays law (AppLifecycle.redeploy workspaceId appId input) w := by
  apply stays_then leaves_load hw
  intro app w₁ hfound hsame₁ hw₁
  apply stays_throwIf hw₁
  intro hkind
  apply stays_then leaves_loadNodes hw₁
  intro nodes w₂ _ hsame₂ hw₂
  apply stays_then leaves_requestReplicas hw₂
  intro responses w₃ _ hsame₃ hw₃
  apply stays_then meets_assertResponses hw₃
  intro _ w₄ _ hsame₄ hw₄
  apply stays_now hw₄
  intro w₅ hsame₅ hw₅
  have hsame := (((hsame₁.trans hsame₂).trans hsame₃).trans hsame₄).trans hsame₅
  have happ : app ∈ w₅.apps.docs := by
    rw [hsame.apps]
    exact List.mem_of_find?_eq_some hfound
  have hmatch := List.find?_some hfound
  rw [loadable, Bool.and_eq_true] at hmatch
  obtain ⟨hid, hworkspace⟩ := byId_iff.mp hmatch.1
  obtain ⟨hcpus, hfitting⟩ := hfits app hfound hkind
  apply stays_updateApp hw₅ happ
  · intro d hd
    exact (byId_iff.mp hd).1.trans hid.symm
  · apply Affordable.of_fits happ
    · rfl
    · exact hcpus
    · have hlength : (setReplicaStates "running" app.replicas).length =
          app.replicas.length := List.length_map _
      rw [hworkspace, hid]
      simp only [redeployedAs, hlength]
      exact hfitting.same hw.sized hsame
  · intro _ w₆ hw₆
    apply stays_of_leaves (P := fun _ ↦ True) _ hw₆
    exact leaves_insertReplicaEvents.seq fun _ ↦ meets_get reads

/-- The record a release claims. -/
def releasable (workspaceId appId : String) (app : MasterApp) : Bool :=
  AppLifecycle.byId workspaceId appId app && app.state == .quarantined

/-- The quotas hold, and they still hold when the record is released. -/
structure Releases (workspaceId appId : String) (w : World) : Prop where
  solvent : Solvent w
  fits : ∀ app ∈ w.apps.docs, releasable workspaceId appId app = true →
    FitsBeside workspaceId appId app.resources app.replicas.length w

theorem Releases.same {w' : World} (h : Releases workspaceId appId w) (hsame : SameRecords w w') :
    Releases workspaceId appId w' where
  solvent := h.solvent.same hsame
  fits app happ hmatch := by
    rw [hsame.apps] at happ
    exact (h.fits app happ hmatch).same h.solvent.sized hsame

theorem releasable_iff {app : MasterApp} :
    releasable workspaceId appId app ↔
      (app.appId = appId ∧ app.workspaceId = workspaceId) ∧ app.state = .quarantined := by
  rw [releasable, Bool.and_eq_true, byId_iff, beq_iff_eq]

theorem Releases.release {apps : Collection MasterApp appKeys} {time : Time}
    (h : Releases workspaceId appId w)
    (hdocs : apps.docs =
      updateFirst (releasable workspaceId appId) (AppLifecycle.releasedAs time) w.apps.docs) :
    Releases workspaceId appId { w with apps } where
  solvent := by
    apply h.solvent.update hdocs
    intro app happ hmatch
    obtain ⟨⟨hid, hworkspace⟩, -⟩ := releasable_iff.mp hmatch
    have hlength : (setReplicaStates "running" app.replicas).length =
        app.replicas.length := List.length_map _
    apply Affordable.of_fits happ
    · rfl
    · exact h.solvent.sized app happ
    · rw [hworkspace, hid]
      simp only [AppLifecycle.releasedAs, hlength]
      exact h.fits app happ hmatch
  fits app happ hmatch := by
    have hmem : app ∈ updateFirst _ _ w.apps.docs := hdocs ▸ happ
    obtain hold | ⟨app₀, -, -, rfl⟩ := mem_updateFirst hmem
    · apply fitsBeside_iff.mpr
      apply (fitsBeside_iff.mp (h.fits app hold hmatch)).update hdocs
      intro d _ hd
      exact ⟨(releasable_iff.mp hd).1.1, (releasable_iff.mp hd).1.1⟩
    · exact absurd (releasable_iff.mp hmatch).2 (by simp [AppLifecycle.releasedAs])

theorem lasting_releases : Lasting (Releases workspaceId appId) := fun _ _ ↦ Releases.same

theorem unquarantine_stays (hw : Solvent w)
    (hfits : ∀ app ∈ w.apps.docs, releasable workspaceId appId app →
      FitsBeside workspaceId appId app.resources app.replicas.length w) :
    Stays law (AppLifecycle.unquarantine deps workspaceId appId) w := by
  have hkeeps : Keeps (cluster law) (Releases workspaceId appId) (fun _ ↦ True)
      (AppLifecycle.unquarantine deps workspaceId appId) := by
    apply unquarantine_meets lasting_releases.looks
    · apply allowsUpdate_keep
      · exact fun time w apps hw hdocs ↦ Releases.release hw hdocs
      · intro w apps hw hdocs
        cases apps
        cases hdocs
        exact hw
    · exact fun _ _ _ ↦ lasting_releases.commands
  exact stays_of_keeps (fun _ h ↦ h.solvent) hkeeps ⟨hw, hfits⟩

/-! ## Teardown -/

section Teardown

/-- A write after which the record does not count. -/
theorem allows_dropping {filter : MasterApp → Bool} {update : Time → MasterApp → MasterApp}
    (hworkspace : ∀ time app, (update time app).workspaceId = app.workspaceId)
    (hresources : ∀ time app, (update time app).resources = app.resources)
    (hdropped : ∀ time app time', isInstalledForQuota (update time app) time' = false) :
    AllowsUpdate law (.keep Solvent) filter update := by
  intro time x w hw _
  have hsolvent : Solvent w := hw
  refine ⟨hsolvent.updateOne x ?_, fun _ _ ↦ trivial⟩
  intro app happ _
  have hcpus := hsolvent.sized app happ
  apply Affordable.of_le hsolvent (hworkspace time app)
  · rw [hresources]
    exact hcpus
  · rw [charge_of_not_installed (hdropped time app _)]
    exact charge_nonneg hcpus

theorem remove_keeps {workspaceRevoked : Bool} :
    Keeps (cluster law) Solvent (fun _ ↦ True)
      (AppLifecycle.remove deps workspaceId appId workspaceRevoked) := by
  apply remove_meets lasting_solvent.looks
  · intro _ app _ _
    exact ⟨lasting_solvent.commands,
      allows_dropping (fun _ _ ↦ rfl) (fun _ _ ↦ rfl) fun _ _ _ ↦ rfl⟩
  · intro _ app _ _
    exact
      { sends := lasting_solvent.commands
        removing := allows_dropping (fun _ _ ↦ rfl) (fun _ _ ↦ rfl) fun _ _ _ ↦ rfl
        removed := allows_dropping (fun _ _ ↦ rfl) (fun _ _ ↦ rfl) fun _ _ _ ↦ rfl }

end Teardown

/-! ## Workspaces -/

/-- No quota is lower in the new collection than in the old one. -/
theorem Solvent.workspaces (hw : Solvent w)
    {workspaces : Collection MasterWorkspace workspaceKeys}
    (hquotas : ∀ workspace' ∈ workspaces.docs, ∃ workspace ∈ w.workspaces.docs,
      workspace.workspaceId = workspace'.workspaceId ∧ limit workspace.quota ≤ limit workspace'.quota) :
    Solvent { w with workspaces } where
  within workspaceId := by
    apply withinQuota_iff.mpr
    intro workspace' hworkspace' hid
    obtain ⟨workspace, hstored, hsame, hlimit⟩ := hquotas workspace' hworkspace'
    exact le_trans (withinQuota_iff.mp (hw.within workspaceId) workspace hstored (hsame.trans hid))
      hlimit
  sized := hw.sized

theorem Solvent.updateWorkspace {filter : MasterWorkspace → Bool}
    {update : MasterWorkspace → MasterWorkspace} (hw : Solvent w) (x : Choice)
    (hid : ∀ workspace, (update workspace).workspaceId = workspace.workspaceId)
    (hquota : ∀ workspace ∈ w.workspaces.docs, filter workspace →
      limit workspace.quota ≤ limit (update workspace).quota) :
    Solvent (respond (.workspaces (.updateOne filter update)) x w).2 := by
  apply hw.workspaces
  intro workspace' hworkspace'
  obtain hdocs | hdocs := docs_serveStore_updateOne filter update x w.workspaces
  · rw [hdocs] at hworkspace'
    exact ⟨workspace', hworkspace', rfl, le_refl _⟩
  · rw [hdocs] at hworkspace'
    obtain hold | ⟨workspace, hstored, hmatch, rfl⟩ := mem_updateFirst hworkspace'
    · exact ⟨workspace', hold, rfl, le_refl _⟩
    · exact ⟨workspace, hstored, (hid workspace).symm, hquota workspace hstored hmatch⟩

theorem revoke_keeps :
    Keeps (cluster law) Solvent (fun _ ↦ True) (WorkspaceCluster.revoke workspaceId) := by
  apply (meets_now lasting_solvent.looks.plain).seq
  intro time
  have hmark : Allows law (.keep Solvent) (.workspaces (.updateOne
      (fun workspace ↦ workspace.workspaceId == workspaceId) fun workspace ↦
        { workspace with status := .revoked, encryptedKey := "", updatedAt := time }))
      fun _ ↦ True :=
    fun x _ hw _ ↦
      ⟨Solvent.updateWorkspace hw x (fun _ ↦ rfl) fun _ _ _ ↦ le_refl _, fun _ _ ↦ trivial⟩
  exact hmark.await.seq fun _ ↦ trivial

theorem deleteWorkspace_keeps :
    Keeps (cluster law) Solvent (fun _ ↦ True) (PortalAdmin.deleteWorkspace deps workspaceId) := by
  apply Meets.bind (lasting_solvent.looks.apps _).await
  intro apps _
  apply (Meets.forEach fun _ _ ↦ remove_keeps).seq
  exact fun _ ↦ revoke_keeps

theorem updateQuota_stays {quota : WorkspaceQuota} (hw : Solvent w)
    (hraised : ∀ workspace ∈ w.workspaces.docs, workspace.workspaceId = workspaceId →
      limit workspace.quota ≤ limit quota) :
    Stays law (WorkspaceCluster.updateQuota workspaceId quota) w := by
  apply stays_now hw
  intro w₁ hsame₁ hw₁
  have hafter : ∀ x, Solvent (respond (.workspaces (.updateOne
      (fun workspace ↦ workspace.workspaceId == workspaceId && workspace.status == .active)
      fun workspace ↦ { workspace with quota, updatedAt := w₁.clock })) x w₁).2 := by
    intro x
    apply hw₁.updateWorkspace x
    · exact fun _ ↦ rfl
    · intro workspace hstored hmatch
      rw [Bool.and_eq_true, beq_iff_eq] at hmatch
      rw [hsame₁.workspaces] at hstored
      exact hraised workspace hstored hmatch.1
  apply stays_await (.workspaces (.updateOne _ _)) hafter
  intro x result _
  apply stays_of_leaves (P := fun _ ↦ True) _ (hafter x)
  exact Meets.throwIf.imp fun _ _ ↦ trivial

end Quota

end PrivosCluster
