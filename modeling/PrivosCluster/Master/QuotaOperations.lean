import PrivosCluster.Master.QuotaConduct

/-!
# Raw and v2 apps, and the quota

A fresh deployment and a second replica are paid for by the check before them. An activation, a
redeployment and a release make no check: they stay within the quota when the app, as they leave
it, fits beside the others.
-/

namespace PrivosCluster

open AsyncProgram DocumentStore List AppLifecycle Bool DeploySchema Deployment

variable {raw : RawDeploy} {time : Time} {replicas : List AppReplica} {subdomain : String}
  {node : MasterNode} {grant : McpDeploymentGrantPayload}

namespace Quota

variable {α : Type} {law : Law} {workspaceId appId : String} {w : World} {deps : DeploymentDeps}

variable {input : DeployInput}

theorem cpus_of_parse (h : DeploySchema.parse raw = .ok input) : 0 ≤ input.resources.cpus := by
  unfold DeploySchema.parse at h
  split at h
  · cases h
  next hchecks =>
    cases h
    have hcheck : ("resources.cpus", decide (1 / 10 ≤ (fill raw).resources.cpus) &&
        decide ((fill raw).resources.cpus ≤ 16)) ∈
        checks (fill raw) := by
      simp [checks]
    have hpassed := find?_eq_none.mp hchecks _ hcheck
    simp only [not_eq_true', not_eq_false, and_eq_true, decide_eq_true_eq] at hpassed
    have hleast : (0 : Rat) ≤ 1 / 10 := by decide +kernel
    exact le_trans hleast hpassed.1

/-! ## Steps that write no record -/

theorem leaves_tolerateDuplicate {write : Async Unit} (h : Leaves law w (fun _ ↦ True) write) :
    Leaves law w (fun _ ↦ True) (tolerateDuplicate write) := by
  apply Meets.tryCatch h
  intro error
  split <;> trivial

theorem leaves_recordAppInstalledEvent {app : MasterApp} :
    Leaves law w (fun _ ↦ True) (recordAppInstalledEvent app time) :=
  leaves_tolerateDuplicate (leaves_call (c := .lifecycleEvents (.insertOne _)) trivial)

variable {owner : String}

theorem leaves_insertReplicaEvents {app : MasterApp} {type : LifecycleEventType}
    {resources : ContainerResources} {storageBytes : Option Nat} :
    Leaves law w (fun _ ↦ True) (insertReplicaEvents owner app replicas type resources
      storageBytes time) :=
  meets_insertReplicaEvents reads

theorem leaves_loadNodes {nodeIds : List String} :
    Leaves law w (fun _ ↦ True) (loadNodes nodeIds) :=
  (meets_loadNodes reads).imp fun _ _ ↦ trivial

theorem leaves_requestNode {node : Option MasterNode} {body : AgentRequest} :
    Leaves law w (fun _ ↦ True) (requestNode node owner body) := by
  cases node with
  | none => trivial
  | some node => exact leaves_call (c := .request _) trivial

variable {nodes : List MasterNode}

theorem leaves_ingressUpsert :
    Leaves law w (fun _ ↦ True) (Deployment.ingressUpsert subdomain nodes) :=
  leaves_call (c := .service (.ingressUpsert _ _)) trivial

theorem leaves_undoReplicas :
    Leaves law w (fun _ ↦ True) (undoReplicas owner nodes replicas) := by
  apply Meets.seq
  · apply (meets_promiseAll (Q := fun _ ↦ True) plain _).imp fun _ _ ↦ trivial
    intro p hp
    obtain ⟨replica, -, rfl⟩ := List.mem_map.mp hp
    exact leaves_requestNode.settle.imp fun _ _ ↦ trivial
  · exact fun _ ↦ trivial

theorem leaves_deployReplica :
    Leaves law w (fun _ ↦ True)
      (deployReplica deps owner appId subdomain input node) := by
  apply (leaves_call (c := .request _) trivial).seq
  intro response
  apply Meets.throwIf.bind
  intro _ _
  exact (meets_randomUUID plain).seq fun _ ↦ trivial

variable {hubIdentity : HubIdentity} {deploymentGrantHash : String}

theorem leaves_deployMcpReplica :
    Leaves law w (fun _ ↦ True) (deployMcpReplica deps owner appId subdomain input grant
      deploymentGrantHash hubIdentity node) := by
  apply (meets_randomUUID plain).seq
  intro replicaId
  apply (leaves_call (c := .request _) trivial).seq
  intro response
  apply Meets.throwIf.bind
  intro _ _
  apply Meets.seq (Meets.ofExcept fun _ _ ↦ trivial)
  intro identity
  apply (meets_now plain).seq
  intro time
  exact (leaves_call (c := .nodes (.updateOne _ _)) trivial).seq fun _ ↦ trivial

/-! ## Fresh deployments -/

/-- The new record of a deployment, then its events. -/
theorem stays_newRecord {app : MasterApp} {rest : Async α} {replicas : Nat} (hw : Solvent w)
    (hcpus : 0 ≤ app.resources.cpus) (hroom : Room app.workspaceId (reserve app.resources replicas) w)
    (hreplicas : app.replicas.length ≤ replicas)
    (hrest : ∀ w₁, Leaves law w₁ (fun _ ↦ True) rest) :
    Stays law (Apps.insertOne app >>= fun _ ↦ rest) w := by
  apply stays_insertOne hw hroom _ hcpus
  · exact fun w₁ hw₁ ↦ stays_of_leaves (hrest w₁) hw₁
  · exact le_trans (charge_le_size hcpus) (reserve_mono hcpus hreplicas)

theorem deployToNodes_stays (hw : Solvent w) (hcpus : 0 ≤ input.resources.cpus)
    (hroom : Room workspaceId (reserve input.resources nodes.length) w) :
    Stays law (deployToNodes deps workspaceId input nodes) w := by
  have happId : Leaves law w (fun _ ↦ True) (input.appId.elim randomUUID Program.pure) := by
    cases input.appId with
    | none => exact meets_randomUUID plain
    | some appId => trivial
  apply stays_then happId hw
  intro appId w₁ _ hsame₁ hw₁
  apply stays_then (leaves_call (c := .service (.allocateSubdomain _ _)) trivial) hw₁
  intro subdomain w₂ _ hsame₂ hw₂
  have hmade : Leaves law w₂ (fun r ↦ r.1.length ≤ nodes.length)
      (Program.collectEach (deployReplica deps workspaceId appId subdomain input) [] nodes) :=
    (Meets.collectEach_length fun _ _ ↦ leaves_deployReplica).imp fun r hr ↦ by simpa using hr
  apply stays_then hmade hw₂
  intro made w₃ hlength hsame₃ hw₃
  obtain ⟨replicas, failure⟩ := made
  have hroute : Leaves law w₃ (fun _ ↦ True)
      (failure.elim (Deployment.ingressUpsert subdomain nodes) Program.throw) := by
    cases failure with
    | none => exact leaves_ingressUpsert
    | some error => trivial
  apply stays_then hroute.settle hw₃
  intro outcome w₄ _ hsame₄ hw₄
  cases outcome with
  | error error =>
    apply stays_then leaves_undoReplicas hw₄
    exact fun _ _ _ _ hw₅ ↦ hw₅
  | ok _ =>
    apply stays_now hw₄
    intro w₅ hsame₅ hw₅
    have hsame := (((hsame₁.trans hsame₂).trans hsame₃).trans hsame₄).trans hsame₅
    apply stays_newRecord hw₅ hcpus (hroom.same hw.sized hsame) hlength
    intro w₆
    apply leaves_insertReplicaEvents.seq
    intro _
    exact leaves_recordAppInstalledEvent.seq fun _ ↦ trivial

theorem deploy_stays (hw : Solvent w) : Stays law (Deployment.deploy deps workspaceId raw) w := by
  apply stays_ofExcept hw
  intro input hinput
  apply stays_lock hw
  intro w₁ _ hw₁
  have hfind : Leaves law w₁ (fun _ ↦ True) (findDeployed workspaceId input) := by
    unfold findDeployed
    split
    · trivial
    · exact leaves_findOne.imp fun _ _ ↦ trivial
  apply stays_then hfind hw₁
  intro existing w₂ _ _ hw₂
  cases existing with
  | some existing => exact hw₂
  | none =>
    apply stays_place hw₂
    intro nodes w₃ hlength hsame₃ hroom
    exact deployToNodes_stays (hw₂.same hsame₃) (cpus_of_parse hinput) (hlength ▸ hroom)

theorem deployMcpToNodes_stays (hw : Solvent w) (hcpus : 0 ≤ input.resources.cpus)
    (hroom : Room workspaceId (reserve input.resources nodes.length) w) :
    Stays law (deployMcpToNodes deps workspaceId input grant deploymentGrantHash
      hubIdentity nodes) w := by
  have hsubdomain : Leaves law w (fun _ ↦ True) (grant.deployment.subdomain.elim
      (Deployment.allocateSubdomain input.listingId workspaceId) Program.pure) := by
    cases grant.deployment.subdomain with
    | none => exact leaves_call (c := .service (.allocateSubdomain _ _)) trivial
    | some label => trivial
  apply stays_then hsubdomain hw
  intro subdomain w₁ _ hsame₁ hw₁
  have hmade : Leaves law w₁ (fun r ↦ r.1.length ≤ nodes.length)
      (Program.collectEach (deployMcpReplica deps workspaceId grant.deployment.appId
        subdomain input grant deploymentGrantHash hubIdentity) [] nodes) :=
    (Meets.collectEach_length fun _ _ ↦ leaves_deployMcpReplica).imp fun r hr ↦ by simpa using hr
  apply stays_then hmade hw₁
  intro made w₂ hlength hsame₂ hw₂
  obtain ⟨replicas, failure⟩ := made
  cases failure with
  | some error =>
    apply stays_then leaves_undoReplicas hw₂
    exact fun _ _ _ _ hw₃ ↦ hw₃
  | none =>
    apply stays_now hw₂
    intro w₃ hsame₃ hw₃
    have hsame := (hsame₁.trans hsame₂).trans hsame₃
    apply stays_newRecord hw₃ hcpus (hroom.same hw.sized hsame) hlength
    intro w₄
    exact leaves_insertReplicaEvents.seq fun _ ↦ trivial

theorem deployMcp_stays (hw : Solvent w) :
    Stays law (Deployment.deployMcp deps workspaceId grant deploymentGrantHash hubIdentity) w := by
  apply stays_ofExcept hw
  intro input hinput
  apply stays_lock hw
  intro w₁ _ hw₁
  apply stays_then leaves_findOne hw₁
  intro existing w₂ _ _ hw₂
  cases existing with
  | some existing => exact stays_throwIf hw₂ fun _ ↦ hw₂
  | none =>
    apply stays_place hw₂
    intro nodes w₃ hlength hsame₃ hroom
    exact deployMcpToNodes_stays (hw₂.same hsame₃) (cpus_of_parse hinput) (hlength ▸ hroom)

/-! ## Activation -/

/-- The record an activation looks for. -/
def ofInstallation (workspaceId : String) (input : Deployment.McpActivation) (app : MasterApp) :
    Bool :=
  app.workspaceId == workspaceId && app.mcpInstallationId == some input.installationId &&
    app.kind == some .mcpV2

theorem activateMcp_stays {input : Deployment.McpActivation} (hw : Solvent w)
    (hfits : ∀ app, w.apps.docs.find? (ofInstallation workspaceId input) = some app →
      app.state = .quarantined →
      FitsBeside workspaceId app.appId app.resources app.replicas.length w) :
    Stays law (Deployment.activateMcp workspaceId input) w := by
  apply stays_lock hw
  intro w₁ hsame₁ hw₁
  apply stays_then leaves_findOne hw₁
  intro found w₂ hfound hsame₂ hw₂
  cases found with
  | none => exact hw₂
  | some app =>
    have hstored : app ∈ w₁.apps.docs := mem_of_find?_eq_some hfound.symm
    have hmatch : ofInstallation workspaceId input app := find?_some hfound.symm
    have hworkspace : app.workspaceId = workspaceId := by
      simp only [ofInstallation, and_eq_true, beq_iff_eq] at hmatch
      exact hmatch.1.1
    apply stays_throwIf hw₂
    intro _
    split
    · exact hw₂
    · apply stays_throwIf hw₂
      intro hstate
      apply stays_then leaves_loadNodes hw₂
      intro nodes w₃ _ hsame₃ hw₃
      apply stays_throwIf hw₃
      intro _
      apply stays_then leaves_ingressUpsert hw₃
      intro _ w₄ _ hsame₄ hw₄
      apply stays_now hw₄
      intro w₅ hsame₅ hw₅
      have hsame := (((hsame₁.trans hsame₂).trans hsame₃).trans hsame₄).trans hsame₅
      have happ : app ∈ w₅.apps.docs := by
        rw [hsame.apps, ← hsame₁.apps]
        exact hstored
      have hpaid : Affordable w₅ app (activatedAs w₅.clock app) := by
        apply Affordable.of_fits happ
        · rfl
        · exact hw₅.sized app happ
        · rw [hworkspace]
          rw [hsame₁.apps] at hfound
          exact (hfits app hfound.symm (not_not.mp hstate)).same hw.sized hsame
      apply stays_updateApp hw₅ happ _ hpaid
      · intro activated w₆ hw₆
        apply stays_then (Meets.onlyIf fun _ ↦ leaves_recordAppInstalledEvent) hw₆
        exact fun _ _ _ _ hw₇ ↦ hw₇
      · intro d hd
        rw [and_eq_true, beq_iff_eq] at hd
        exact hd.1

/-! ## The availability tier -/

theorem leaves_tierEvent {app : MasterApp} {replicaCount : Nat} :
    Leaves law w (fun _ ↦ True) (tierEvent owner app replicaCount time) :=
  (meets_randomUUID plain).seq fun _ ↦ leaves_call (c := .lifecycleEvents (.insertOne _)) trivial

theorem leaves_dropReplica {replica : AppReplica} :
    Leaves law w (fun _ ↦ True) (dropReplica owner nodes replica) := by
  unfold dropReplica
  split
  · trivial
  · exact (leaves_call (c := .request _) trivial).seq fun _ ↦ Meets.throwIf.imp fun _ _ ↦ trivial

/-- One more replica reserves as much more as the check has found room for. -/
theorem reserve_succ (resources : ContainerResources) (replicas : Nat) :
    reserve resources (replicas + 1) =
      reserve resources replicas + measure 0 (.ofReplicas resources 1) := by
  have hmemory : (resources.memoryMb : Int) * ((replicas + 1 : Nat) : Int) =
      resources.memoryMb * replicas + resources.memoryMb * ((1 : Nat) : Int) := by
    push_cast
    rw [mul_add]
  have hcpus : resources.cpus * ((replicas + 1 : Nat) : Rat) =
      resources.cpus * replicas + resources.cpus * ((1 : Nat) : Rat) := by
    push_cast
    rw [mul_add]
  exact congrArg₂ Prod.mk rfl (congrArg₂ Prod.mk hmemory hcpus)

section Tier

variable {app : MasterApp}

theorem raiseTier_stays (hw : Solvent w) (happ : app ∈ w.apps.docs)
    (hby : AppLifecycle.byId workspaceId appId app) (hstate : app.state = .running) :
    Stays law (raiseTier deps workspaceId appId app) w := by
  obtain ⟨hid, hworkspace⟩ := byId_iff.mp hby
  have hcpus := hw.sized app happ
  apply stays_throwIf hw
  intro _
  apply stays_assertMore hw
  intro w₁ hsame₁ hroom
  have hw₁ := hw.same hsame₁
  apply stays_then (meets_loadFleet plain) hw₁
  intro fleet w₂ _ hsame₂ hw₂
  apply stays_ofExcept hw₂
  intro node _
  apply stays_then (leaves_call (c := .request _) trivial) hw₂
  intro response w₃ _ hsame₃ hw₃
  apply stays_throwIf hw₃
  intro _
  apply stays_then (meets_randomUUID plain) hw₃
  intro replicaId w₄ _ hsame₄ hw₄
  apply stays_now hw₄
  intro w₅ hsame₅ hw₅
  apply stays_then leaves_ingressUpsert hw₅
  intro _ w₆ _ hsame₆ hw₆
  have hlater := (((hsame₂.trans hsame₃).trans hsame₄).trans hsame₅).trans hsame₆
  have happ₆ : app ∈ w₆.apps.docs := by
    rw [(hsame₁.trans hlater).apps]
    exact happ
  apply stays_updateApp hw₆ happ₆
  · intro d hd
    exact (byId_iff.mp hd).1.trans hid.symm
  · refine ⟨rfl, hcpus, _, hworkspace ▸ hroom.same hw₁.sized hlater, ?_⟩
    have hinstalled : isInstalledForQuota app w₆.clock := by simp [isInstalledForQuota, hstate]
    rw [charge_of_installed rfl hinstalled, size, ← reserve_succ]
    apply le_trans (b := size (raisedAs _ _ app)) (charge_le_size hcpus)
    simp [size, raisedAs]
  · intro _ w₇ hw₇
    apply stays_of_leaves (P := fun _ ↦ True) _ hw₇
    apply (meets_randomUUID plain).seq
    intro eventId
    exact (leaves_call (c := .lifecycleEvents _) trivial).seq fun _ ↦ leaves_tierEvent

theorem lowerTier_stays (hw : Solvent w) (happ : app ∈ w.apps.docs)
    (hby : AppLifecycle.byId workspaceId appId app) (hstate : app.state = .running) :
    Stays law (lowerTier workspaceId appId app) w := by
  have hcpus := hw.sized app happ
  unfold lowerTier
  cases hreplicas : app.replicas with
  | nil => exact hw
  | cons keep remove =>
    apply stays_then leaves_loadNodes hw
    intro nodes w₁ _ hsame₁ hw₁
    apply stays_then (Meets.forEach fun _ _ ↦ leaves_dropReplica) hw₁
    intro _ w₂ _ hsame₂ hw₂
    apply stays_now hw₂
    intro w₃ hsame₃ hw₃
    apply stays_then leaves_ingressUpsert hw₃
    intro _ w₄ _ hsame₄ hw₄
    have hsame := ((hsame₁.trans hsame₂).trans hsame₃).trans hsame₄
    have happ₄ : app ∈ w₄.apps.docs := by
      rw [hsame.apps]
      exact happ
    apply stays_updateApp hw₄ happ₄
    · intro d hd
      exact (byId_iff.mp hd).1.trans (byId_iff.mp hby).1.symm
    · refine Affordable.of_le hw₄ (by rfl) hcpus ?_
      have hinstalled : isInstalledForQuota app w₄.clock := by
        simp [isInstalledForQuota, hstate]
      rw [charge_of_installed rfl hinstalled]
      apply le_trans (b := size (loweredAs keep _ app)) (charge_le_size hcpus)
      apply reserve_mono hcpus
      simp [loweredAs, hreplicas]
    · intro _ w₅ hw₅
      apply stays_of_leaves (P := fun _ ↦ True) _ hw₅
      exact Meets.onlyIf fun _ ↦ leaves_insertReplicaEvents.seq fun _ ↦ leaves_tierEvent

theorem changeAvailabilityTier_stays {availabilityTier : AvailabilityTier} (hw : Solvent w) :
    Stays law (Deployment.changeAvailabilityTier deps workspaceId appId availabilityTier) w := by
  apply stays_lock hw
  intro w₁ _ hw₁
  apply stays_then leaves_findOne hw₁
  intro found w₂ hfound hsame₂ hw₂
  cases found with
  | none => exact hw₂
  | some app =>
    have happ : app ∈ w₂.apps.docs := by
      rw [hsame₂.apps]
      exact mem_of_find?_eq_some hfound.symm
    have hmatch := find?_some hfound.symm
    rw [and_eq_true] at hmatch
    apply stays_throwIf hw₂
    intro _
    split
    · exact hw₂
    · apply stays_throwIf hw₂
      intro hstate
      have hswitch : Stays law (applyTier deps workspaceId appId app availabilityTier) w₂ := by
        unfold applyTier
        split
        · exact raiseTier_stays hw₂ happ hmatch.1 (not_not.mp hstate)
        · exact lowerTier_stays hw₂ happ hmatch.1 (not_not.mp hstate)
      apply hswitch.bind
      · exact fun _ w₃ hw₃ ↦ stays_of_leaves leaves_findOne hw₃
      · exact fun _ _ hw₃ ↦ hw₃

end Tier

end Quota

end PrivosCluster
