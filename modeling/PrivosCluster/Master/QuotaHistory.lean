import PrivosCluster.Master.InventoryFreeze
import PrivosCluster.Master.QuotaProvisioning

/-!
# The quota over whole histories

A check of the quota guards fresh deployments, second replicas and resizes. A redeployment, a
release, an activation and a repeated grant make none. A history stays within all quotas when what
each of these makes of its app fits beside the other apps.
-/

namespace PrivosCluster

open AsyncProgram DocumentStore List

/-- The operations that change what a workspace has installed, and its quota. -/
inductive QuotaOperation where
  | deploy (workspaceId : String) (raw : RawDeploy)
  | deployMcp (workspaceId : String) (grant : McpDeploymentGrantPayload)
      (deploymentGrantHash : String) (hubIdentity : HubIdentity)
  | deployMcpV3 (workspaceId : String) (grant : McpDeploymentGrantPayloadV3)
      (deploymentGrantHash : String) (hubIdentity : HubIdentity)
  | activateMcp (workspaceId : String) (input : Deployment.McpActivation)
  | activateMcpV3 (workspaceId : String) (input : DeploymentV3.McpV3Activation)
  | reconfigureMcpV3 (workspaceId : String) (command : ClusterReconfigureCommandPayloadV3)
  | changeAvailabilityTier (workspaceId appId : String) (availabilityTier : AvailabilityTier)
  | redeploy (workspaceId appId : String) (input : AppLifecycle.RedeployInput)
  | remove (workspaceId appId : String) (workspaceRevoked : Bool)
  | deleteWorkspace (workspaceId : String)
  | unquarantine (workspaceId appId : String)
  | updateQuota (workspaceId : String) (quota : WorkspaceQuota)

namespace QuotaOperation

open Quota

def program (deps : DeploymentDeps) (lifecycle : LifecycleDeps) : QuotaOperation → Async Unit
  | .deploy workspaceId raw => do
    let _ ← Deployment.deploy deps workspaceId raw
  | .deployMcp workspaceId grant deploymentGrantHash hubIdentity => do
    let _ ← Deployment.deployMcp deps workspaceId grant deploymentGrantHash hubIdentity
  | .deployMcpV3 workspaceId grant deploymentGrantHash hubIdentity => do
    let _ ← DeploymentV3.deployMcpV3 deps workspaceId grant deploymentGrantHash hubIdentity
  | .activateMcp workspaceId input => do
    let _ ← Deployment.activateMcp workspaceId input
  | .activateMcpV3 workspaceId input => do
    let _ ← DeploymentV3.activateMcpV3 deps workspaceId input
  | .reconfigureMcpV3 workspaceId command => do
    let _ ← RuntimeSwap.reconfigureMcpV3 deps workspaceId command
  | .changeAvailabilityTier workspaceId appId availabilityTier => do
    let _ ← Deployment.changeAvailabilityTier deps workspaceId appId availabilityTier
  | .redeploy workspaceId appId input => do
    let _ ← AppLifecycle.redeploy workspaceId appId input
  | .remove workspaceId appId workspaceRevoked =>
    AppLifecycle.remove lifecycle workspaceId appId workspaceRevoked
  | .deleteWorkspace workspaceId => PortalAdmin.deleteWorkspace lifecycle workspaceId
  | .unquarantine workspaceId appId => AppLifecycle.unquarantine lifecycle workspaceId appId
  | .updateQuota workspaceId quota => WorkspaceCluster.updateQuota workspaceId quota

/-- The operation does not lower a quota. -/
def LowersNoQuota (w : World) : QuotaOperation → Prop
  | .updateQuota workspaceId quota => ∀ workspace ∈ w.workspaces.docs,
      workspace.workspaceId = workspaceId → limit workspace.quota ≤ limit quota
  | _ => True

/-- The share of CPUs that a command asks for is not negative, as its schema demands. -/
def InOrder : QuotaOperation → Prop
  | .reconfigureMcpV3 _ command =>
    ∀ requested, command.resources = some requested → 0 ≤ requested.cpus
  | _ => True

/-- What the operation makes of an app without a check fits beside the other apps. -/
def Fits (w : World) : QuotaOperation → Prop
  | .deployMcpV3 workspaceId grant _ _ =>
    ∀ app, w.apps.docs.find? (ofGeneration workspaceId grant) = some app →
      FitsBeside workspaceId app.appId app.resources (plannedReplicas app) w
  | .activateMcp workspaceId input =>
    ∀ app, w.apps.docs.find? (ofInstallation workspaceId input) = some app →
      app.state = .quarantined →
      FitsBeside workspaceId app.appId app.resources app.replicas.length w
  | .activateMcpV3 workspaceId input =>
    ∀ app, w.apps.docs.find? (ofRuntime workspaceId input.runtimeInstallationId) = some app →
      app.state = .quarantined →
      FitsBeside workspaceId app.appId app.resources app.replicas.length w
  | .redeploy workspaceId appId input =>
    ∀ app, w.apps.docs.find? (loadable workspaceId appId) = some app →
      ¬ (app.kind = some .mcpV2 ∨ app.kind = some .mcpV3) →
      0 ≤ (redeployedResources input app).cpus ∧
        FitsBeside workspaceId appId (redeployedResources input app) app.replicas.length w
  | .unquarantine workspaceId appId =>
    ∀ app ∈ w.apps.docs, releasable workspaceId appId app = true →
      FitsBeside workspaceId appId app.resources app.replicas.length w
  | _ => True

theorem program_stays {law : Law} {deps : DeploymentDeps} {lifecycle : LifecycleDeps} {w : World}
    {operation : QuotaOperation} (hw : Solvent w) (hquota : operation.LowersNoQuota w)
    (horder : operation.InOrder) (hfits : operation.Fits w) :
    Stays law (operation.program deps lifecycle) w := by
  have hdone {α : Type} {p : Async α} (hp : Stays law p w) :
      Stays law (p >>= fun _ ↦ Program.pure ()) w :=
    wp.bind hp (fun _ _ h ↦ h) fun _ _ h ↦ h
  cases operation with
  | deploy workspaceId raw => exact hdone (deploy_stays hw)
  | deployMcp workspaceId grant deploymentGrantHash hubIdentity => exact hdone (deployMcp_stays hw)
  | deployMcpV3 workspaceId grant deploymentGrantHash hubIdentity =>
    exact hdone (deployMcpV3_stays hw hfits)
  | activateMcp workspaceId input => exact hdone (activateMcp_stays hw hfits)
  | activateMcpV3 workspaceId input => exact hdone (activateMcpV3_stays hw hfits)
  | reconfigureMcpV3 workspaceId command => exact hdone (reconfigureMcpV3_stays hw horder)
  | changeAvailabilityTier workspaceId appId availabilityTier =>
    exact hdone (changeAvailabilityTier_stays hw)
  | redeploy workspaceId appId input => exact hdone (redeploy_stays hw hfits)
  | remove workspaceId appId workspaceRevoked =>
    exact stays_of_keeps (fun _ h ↦ h) remove_keeps hw
  | deleteWorkspace workspaceId => exact stays_of_keeps (fun _ h ↦ h) deleteWorkspace_keeps hw
  | unquarantine workspaceId appId => exact unquarantine_stays hw hfits
  | updateQuota workspaceId quota => exact updateQuota_stays hw hquota

end QuotaOperation

open Quota

/--
In every history in which no quota is lowered and what the unchecked operations make of an app
fits beside the others, every workspace is within its quota at every step.
-/
theorem quotas_hold {deps : DeploymentDeps} {lifecycle : LifecycleDeps} {w w' : World}
    {steps : List (HistoryStep QuotaOperation JsError World)}
    (history : History (cluster anyLaw) (QuotaOperation.program deps lifecycle) w steps w')
    (hstart : ∀ workspaceId, WithinQuota workspaceId w)
    (hsized : ∀ app ∈ w.apps.docs, 0 ≤ app.resources.cpus)
    (hquotas : ∀ step ∈ steps, step.operation.LowersNoQuota step.before)
    (horder : ∀ step ∈ steps, step.operation.InOrder)
    (hfits : ∀ step ∈ steps, step.operation.Fits step.before) (workspaceId : String) :
    (∀ step ∈ steps, WithinQuota workspaceId step.before ∧ WithinQuota workspaceId step.after) ∧
      WithinQuota workspaceId w' := by
  have hkeep : ∀ step : HistoryStep QuotaOperation JsError World,
      step.operation.LowersNoQuota step.before ∧ step.operation.InOrder ∧
        step.operation.Fits step.before →
      Executes (cluster anyLaw) (step.operation.program deps lifecycle) step.before step.outcome
        step.after → Solvent step.before → Solvent step.after := by
    intro step hstep execution hbefore
    obtain ⟨hquota, horder, hfits⟩ := hstep
    exact execution.invariant (QuotaOperation.program_stays hbefore hquota horder hfits) hbefore
  obtain ⟨hsteps, hend⟩ := history.invariant hkeep
    (fun step hstep ↦ ⟨hquotas step hstep, horder step hstep, hfits step hstep⟩) ⟨hstart, hsized⟩
  constructor
  · intro step hstep
    obtain ⟨hbefore, hafter⟩ := hsteps step hstep
    exact ⟨hbefore.within workspaceId, hafter.within workspaceId⟩
  · exact hend.within workspaceId

namespace Sample

instance (quota : WorkspaceQuota) (apps : Int) (used : Usage) : Decidable (Within quota apps used) :=
  decidable_of_iff (apps ≤ quota.maxApps ∧ used.memoryMb ≤ quota.maxMemoryMb ∧
    used.cpus ≤ quota.maxCpus) ⟨fun h ↦ ⟨h.1, h.2.1, h.2.2⟩, fun h ↦ ⟨h.apps, h.memoryMb, h.cpus⟩⟩

instance (workspaceId : String) (w : World) : Decidable (WithinQuota workspaceId w) :=
  inferInstanceAs (Decidable (∀ workspace ∈ w.workspaces.docs, workspace.workspaceId = workspaceId →
    Within workspace.quota _ _))

instance (workspaceId appId : String) (resources : ContainerResources) (replicaCount : Nat)
    (w : World) : Decidable (FitsBeside workspaceId appId resources replicaCount w) :=
  inferInstanceAs (Decidable (∀ workspace ∈ w.workspaces.docs, workspace.workspaceId = workspaceId →
    Within workspace.quota _ _))

/-- An app of 256 MB in a workspace that may use 4096 MB. -/
def quotaWorld : World := world (app none .running none) nodup_running

/-- A redeployment of the app with another size. -/
def resizing (memoryMb : Nat) : QuotaOperation :=
  .redeploy "acme" "notes" { resources := some { memoryMb := some memoryMb } }

def resized (memoryMb : Nat) : World :=
  ((cluster anyLaw).run (fun _ _ ↦ {}) ((resizing memoryMb).program deploymentDeps deps) quotaWorld).2

theorem resized_history (memoryMb : Nat) : ∃ outcome, History (cluster anyLaw)
    (QuotaOperation.program deploymentDeps deps) quotaWorld
    [⟨resizing memoryMb, outcome, quotaWorld, resized memoryMb⟩] (resized memoryMb) := by
  have execution := (cluster anyLaw).executes_run (fun _ _ ↦ {}) (fun _ _ ↦ trivial)
    ((resizing memoryMb).program deploymentDeps deps) quotaWorld
  exact ⟨_, .step .start execution⟩

theorem quotaWorld_sized : ∀ app ∈ quotaWorld.apps.docs, 0 ≤ app.resources.cpus := by
  decide

theorem quotaWorld_within (workspaceId : String) : WithinQuota workspaceId quotaWorld := by
  intro workspace hworkspace hid
  have hacme : workspace.workspaceId = "acme" := by
    rw [mem_singleton.mp hworkspace]
    rfl
  obtain rfl : workspaceId = "acme" := hid.symm.trans hacme
  have hwithin : WithinQuota "acme" quotaWorld := by decide +kernel
  exact hwithin workspace hworkspace hid

end Sample

/-- The app is made twice as large, which fits. -/
theorem quotas_hold_resized : WithinQuota "acme" (Sample.resized 512) := by
  obtain ⟨outcome, history⟩ := Sample.resized_history 512
  have hfits : (Sample.resizing 512).Fits Sample.quotaWorld := by
    intro app happ _
    have hstored : app ∈ Sample.quotaWorld.apps.docs := mem_of_find?_eq_some happ
    rw [mem_singleton.mp hstored]
    decide +kernel
  refine (quotas_hold history Sample.quotaWorld_within Sample.quotaWorld_sized ?_ ?_ ?_ "acme").2
  · intro step hstep
    rw [mem_singleton.mp hstep]
    trivial
  · intro step hstep
    rw [mem_singleton.mp hstep]
    trivial
  · intro step hstep
    rw [mem_singleton.mp hstep]
    exact hfits

/-- A redeployment asks nobody whether the app may grow beyond the quota. -/
theorem redeploy_exceeds_quota :
    ¬ ∀ (deps : DeploymentDeps) (lifecycle : LifecycleDeps) (w w' : World)
      (steps : List (HistoryStep QuotaOperation JsError World)),
      History (cluster anyLaw) (QuotaOperation.program deps lifecycle) w steps w' →
      (∀ workspaceId, WithinQuota workspaceId w) →
      (∀ app ∈ w.apps.docs, 0 ≤ app.resources.cpus) →
      (∀ step ∈ steps, step.operation.LowersNoQuota step.before) →
      ∀ workspaceId, WithinQuota workspaceId w' := by
  intro h
  obtain ⟨outcome, history⟩ := Sample.resized_history 8192
  have hquotas : ∀ step ∈ [(⟨Sample.resizing 8192, outcome, Sample.quotaWorld,
      Sample.resized 8192⟩ : HistoryStep QuotaOperation JsError World)],
      step.operation.LowersNoQuota step.before := by
    intro step hstep
    rw [mem_singleton.mp hstep]
    trivial
  have hwithin := h _ _ _ _ _ history Sample.quotaWorld_within Sample.quotaWorld_sized hquotas "acme"
  have hexceeded : ¬ WithinQuota "acme" (Sample.resized 8192) := by decide +kernel
  exact hexceeded hwithin

end PrivosCluster
