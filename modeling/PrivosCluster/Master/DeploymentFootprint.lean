import PrivosCluster.Master.DeploymentV3
import PrivosCluster.Master.Footprint

/-!
# Footprints of the deployment of a v3 generation

The calls a deployment and a recovery can make. Unlike the lifecycle operations they write
inventories, so only reads, services and locks count as calls that need no permission.
-/

namespace PrivosCluster

open AsyncProgram DocumentStore List AppLifecycle

/-- Plain calls are let through, and what is read of apps, nodes and inventories is known. -/
structure Looks (law : Law) (D : Discipline signature World) (K : Known)
    (KI : RuntimeResourceInventory → Prop) : Prop where
  plain : AllowsPlain law D
  app : ∀ filter, Allows law D (.apps (.findOne filter)) fun found ↦
    ∀ app, found = some app → filter app = true ∧ K.app app
  nodes : ∀ filter, Allows law D (.nodes (.find filter)) fun found ↦
    ∀ node ∈ found, filter node = true ∧ K.node node
  inventory : ∀ filter, Allows law D (.runtimeResourceInventories (.findOne filter)) fun found ↦
    ∀ inventory, found = some inventory → filter inventory = true ∧ KI inventory

variable {α : Type} {P : α → Prop} {keys : α → List IndexKey} {c : Collection α keys}
  {filter : α → Bool} {x : Choice}

/-- A read that hands out documents of the collection. -/
theorem findOne_known [DecidableEq α] (hP : ∀ d ∈ c.docs, P d) {found : Option α}
    (h : (serveStore (.findOne filter) x c).1 = .ok found) :
    ∀ d, found = some d → filter d ∧ P d := by
  rintro d rfl
  simp only [serveStore_findOne] at h
  split at h
  · injection h with h
    exact ⟨find?_some h, hP d (mem_of_find?_eq_some h)⟩
  · cases h

theorem find_known [DecidableEq α] (hP : ∀ d ∈ c.docs, P d) {found : List α}
    (h : (serveStore (.find filter) x c).1 = .ok found) : ∀ d ∈ found, filter d ∧ P d := by
  intro d hd
  simp only [serveStore_find] at h
  split at h
  · injection h with h
    rw [← h] at hd
    exact ⟨(mem_filter.mp hd).2, hP d (mem_filter.mp hd).1⟩
  · cases h

theorem Looks.of {law : Law} {D : Discipline signature World} {K : Known}
    {KI : RuntimeResourceInventory → Prop}
    (hplain : ∀ c x w, c.IsPlain → D.assumes c w → D.ensures w (respond c x w).2)
    (happs : ∀ op w, D.assumes (.apps op) w → ∀ app ∈ w.apps.docs, K.app app)
    (hnodes : ∀ op w, D.assumes (.nodes op) w → ∀ node ∈ w.nodes.docs, K.node node)
    (hinventories : ∀ op w, D.assumes (.runtimeResourceInventories op) w →
      ∀ inventory ∈ w.runtimeResourceInventories.docs, KI inventory) :
    Looks law D K KI where
  plain c hc x w hw _ := ⟨hplain c x w hc hw, fun _ _ ↦ trivial⟩
  app filter x w hw _ :=
    ⟨hplain (.apps (.findOne filter)) x w trivial hw, fun _ h ↦ findOne_known (happs _ w hw) h⟩
  nodes filter x w hw _ :=
    ⟨hplain (.nodes (.find filter)) x w trivial hw, fun _ h ↦ find_known (hnodes _ w hw) h⟩
  inventory filter x w hw _ :=
    ⟨hplain (.runtimeResourceInventories (.findOne filter)) x w trivial hw,
      fun _ h ↦ findOne_known (hinventories _ w hw) h⟩

variable {input : DeployInput} {resources : List RuntimeResourceDescriptor} {app app₀ : MasterApp}
  {node : MasterNode} {plan : ProvisioningReplicaPlan} {replica : AppReplica}

section

variable {law : Law} {D : Discipline signature World}

/-! ## Quota, placement and addresses -/

section

variable (plain : AllowsPlain law D)
include plain

variable {workspaceId : String}

theorem meets_installedApps : Obeys law D (Quota.installedApps workspaceId) := by
  refine (meets_now plain).seq fun time ↦ ?_
  have hread := meets_promiseBoth (P := fun _ ↦ True) (Q := fun _ ↦ True) plain
    (meets_plain plain (c := .workspaces (.findOne fun workspace ↦
      workspace.workspaceId == workspaceId && workspace.status == .active)) trivial)
    (meets_plain plain (c := .apps (.find fun app ↦ app.workspaceId == workspaceId &&
      Quota.installedCandidateStates.contains app.state)) trivial)
  refine hread.bind fun found _ ↦ ?_
  obtain ⟨workspace, candidates⟩ := found
  cases workspace <;> exact trivial

omit plain in
theorem meets_assertWithin {quota : WorkspaceQuota} {wanted : Quota.Usage} :
    Obeys law D (Quota.assertWithin quota wanted) :=
  Meets.throwIf.bind fun _ _ ↦ Meets.throwIf.imp fun _ _ ↦ trivial

theorem meets_assertDeployAllowed {resources : ContainerResources} {replicaCount : Nat} :
    Obeys law D (Quota.assertDeployAllowed workspaceId resources replicaCount) :=
  (meets_installedApps plain).bind fun _ _ ↦ Meets.throwIf.bind fun _ _ ↦ meets_assertWithin

theorem meets_loadFleet : Obeys law D Deployment.loadFleet :=
  (meets_promiseBoth (P := fun _ ↦ True) (Q := fun _ ↦ True) plain
    (meets_plain plain (c := .nodes (.find fun node ↦ node.status == .active)) trivial)
    (meets_plain plain (c := .apps (.find fun app ↦ app.state == .running)) trivial)).imp
    fun _ _ ↦ trivial

theorem meets_place : Obeys law D (Deployment.place workspaceId input) := by
  refine Meets.throwIf.bind fun _ _ ↦ (meets_assertDeployAllowed plain).seq fun _ ↦ ?_
  exact (meets_loadFleet plain).bind fun _ _ ↦ Meets.ofExcept fun _ _ ↦ trivial

end

/-! ## Inventories -/

namespace RuntimeInventory

def isCapturing (inventoryId : String) (inventory : RuntimeResourceInventory) : Bool :=
  inventory.inventoryId == inventoryId && inventory.state == .capturing

def capturedAs (resources : List RuntimeResourceDescriptor) (time : Time)
    (inventory : RuntimeResourceInventory) : RuntimeResourceInventory :=
  { inventory with
    expectedResources := addToSet inventory.expectedResources resources, updatedAt := time }

def finalizedAs (finalized inventory : RuntimeResourceInventory) : RuntimeResourceInventory :=
  { inventory with
    expectedResources := finalized.expectedResources
    runtimeResourceInventoryHash := finalized.runtimeResourceInventoryHash
    state := .ready
    updatedAt := finalized.updatedAt }

end RuntimeInventory

namespace DeploymentV3

open RuntimeInventory Deployment

/-- The writes of inventories that are let through. -/
structure AllowsInventories (law : Law) (D : Discipline signature World)
    (KI : RuntimeResourceInventory → Prop) (crypto : Crypto) : Prop where
  opens : ∀ inventoryId affinity createdAt capturing,
    buildCapturingRuntimeResourceInventoryV3 inventoryId affinity createdAt = .ok capturing →
    Allows law D (.runtimeResourceInventories (.insertOne capturing)) fun _ ↦ True
  captures : ∀ inventoryId resources time, Allows law D (.runtimeResourceInventories
    (.updateOne (isCapturing inventoryId) (capturedAs resources time))) fun _ ↦ True
  finalizes : ∀ inventory resources time finalized, KI inventory →
    finalizeRuntimeResourceInventoryV3 crypto inventory resources time = .ok finalized →
    Allows law D (.runtimeResourceInventories
      (.updateOne (isCapturing inventory.inventoryId) (finalizedAs finalized))) fun _ ↦ True

section

variable {K : Known} {KI : RuntimeResourceInventory → Prop} {deps : DeploymentDeps}
  {workspaceId inventoryId : String} {grant : McpDeploymentGrantPayloadV3}
  {inventory : RuntimeResourceInventory}
variable (looks : Looks law D K KI)
include looks

theorem meets_findInventory :
    Meets (cluster law) D
      (fun found ↦ ∀ inventory, found = some inventory →
        inventory.inventoryId = inventoryId ∧ KI inventory)
      (findInventory inventoryId) :=
  (looks.inventory _).await.imp fun _ h inventory hfound ↦
    ⟨by simpa using (h inventory hfound).1, (h inventory hfound).2⟩

theorem meets_loadInventory {member : String} :
    Meets (cluster law) D (fun inventory ↦ inventory.inventoryId = inventoryId ∧ KI inventory)
      (loadInventory inventoryId member) := by
  refine (meets_findInventory looks).bind fun found hfound ↦ ?_
  cases found with
  | none => exact trivial
  | some inventory => exact hfound inventory rfl

variable (writes : AllowsInventories law D KI deps.crypto)
include writes

theorem meets_openInventory : Obeys law D (openInventory workspaceId inventoryId grant) := by
  refine (meets_findInventory looks).bind fun found _ ↦ ?_
  cases found with
  | some inventory => exact trivial
  | none =>
    refine (meets_now looks.plain).seq fun createdAt ↦ ?_
    refine (Meets.ofExcept fun _ h ↦ h).bind fun capturing hcapturing ↦ ?_
    refine (writes.opens _ _ _ _ hcapturing).await.settle.bind fun inserted _ ↦ ?_
    cases inserted with
    | ok _ => exact trivial
    | error error =>
      dsimp only
      split
      · refine (meets_findInventory looks).bind fun concurrent _ ↦ ?_
        cases concurrent <;> exact trivial
      · exact trivial

theorem meets_captureResources : Obeys law D (captureResources inventoryId resources) :=
  (meets_now looks.plain).seq fun time ↦ (writes.captures _ _ time).await.bind fun _ _ ↦ trivial

theorem meets_persistFinalized (hid : inventory.inventoryId = inventoryId)
    (hinventory : KI inventory) :
    Obeys law D (persistFinalized deps.crypto inventoryId inventory resources) := by
  subst hid
  refine (Meets.ofExcept fun _ _ ↦ trivial).seq fun normalized ↦ (meets_now looks.plain).seq fun time ↦ ?_
  refine (Meets.ofExcept fun _ h ↦ h).bind fun finalized hfinalized ↦ ?_
  refine (writes.finalizes _ _ _ _ hinventory hfinalized).await.bind fun finalizedWrite _ ↦ ?_
  split
  · exact trivial
  · exact (meets_loadInventory looks).imp fun _ _ ↦ trivial

theorem meets_finishCapture : Obeys law D (finishCapture deps inventoryId app inventory) := by
  unfold finishCapture
  split
  · exact trivial
  · refine (Meets.forSome fun _ _ ↦ meets_captureResources looks writes).seq fun _ ↦ ?_
    refine (meets_loadInventory looks).bind fun captured hcaptured ↦ ?_
    exact meets_persistFinalized looks writes hcaptured.1 hcaptured.2

/-! ## Recovery -/

theorem meets_finalizeCaptured (hid : inventory.inventoryId = inventoryId)
    (hinventory : KI inventory) :
    Obeys law D (finalizeCaptured deps inventoryId app inventory) := by
  refine Meets.bind (looks.nodes _).await fun nodes _ ↦ ?_
  refine (Meets.ofExcept fun _ _ ↦ trivial).seq fun planned ↦ ?_
  exact meets_persistFinalized looks writes hid hinventory

theorem recoverMcpV3InventoryAttestation_meets {runtimeInstallationId : String} :
    Obeys law D (recoverMcpV3InventoryAttestation deps workspaceId runtimeInstallationId) := by
  refine meets_withWorkspaceLock looks.plain ?_
  refine Meets.bind (looks.app _).await fun app _ ↦ ?_
  cases app with
  | none => exact trivial
  | some app =>
    refine (meets_findInventory looks).bind fun found hfound ↦ ?_
    cases found with
    | none => exact trivial
    | some found =>
      obtain ⟨hid, hknown⟩ := hfound found rfl
      refine Meets.throwIf.bind fun _ _ ↦ Meets.bind (R := fun _ ↦ True) ?_ fun inventory _ ↦
        Meets.throwIf.bind fun _ _ ↦ trivial
      unfold recoverInventory
      split
      · exact meets_finalizeCaptured looks writes hid hknown
      · exact trivial

end

/-! ## Deployment -/

/-- The record a grant makes. -/
def IsFresh (workspaceId : String) (grant : McpDeploymentGrantPayloadV3)
    (deploymentGrantHash : String) (app : MasterApp) : Prop :=
  ∃ input sealed label uiUrl plans time,
    app = v3RecordOf workspaceId grant deploymentGrantHash input sealed label uiUrl plans time

/-- A record of the app of the grant. -/
structure RowOf (K : Known) (workspaceId : String) (grant : McpDeploymentGrantPayloadV3)
    (app : MasterApp) : Prop where
  known : K.app app
  byId : AppLifecycle.byId workspaceId grant.deployment.clusterAppId app = true

/-- A planned replica as it is recorded. -/
structure Provisions (plan : ProvisioningReplicaPlan) (replica : AppReplica) : Prop where
  replicaId : replica.replicaId = plan.replicaId
  nodeId : replica.nodeId = plan.nodeId
  containerId : replica.containerId = plan.containerId

/-- What the provisioning of the planned replicas has to be let through. -/
structure AllowsProvision (law : Law) (D : Discipline signature World) (K : Known)
    (KI : RuntimeResourceInventory → Prop) (deps : DeploymentDeps) (workspaceId : String)
    (grant : McpDeploymentGrantPayloadV3) (deploymentGrantHash : String)
    (hubIdentity : HubIdentity) : Prop where
  looks : Looks law D K KI
  inventories : AllowsInventories law D KI deps.crypto
  deploys : ∀ app plan node input subdomain environment, RowOf K workspaceId grant app →
    plan ∈ app.mcpProvisioningReplicas.getD [] → K.node node → node.nodeId = plan.nodeId →
    Allows law D (.request ⟨node.nodeId, workspaceId, .mcpV3Deploy
      (DeployInput.body input grant.deployment.clusterAppId workspaceId subdomain deps.baseDomain)
      environment
      (v3Binding grant workspaceId deploymentGrantHash hubIdentity node.nodeId plan)⟩) fun _ ↦ True
  records : ∀ app plan replica, RowOf K workspaceId grant app →
    plan ∈ app.mcpProvisioningReplicas.getD [] → Provisions plan replica →
    AllowsUpdate law D
      (fun candidate ↦ AppLifecycle.byId workspaceId grant.deployment.clusterAppId candidate &&
        !candidate.replicas.any (·.replicaId == replica.replicaId))
      (recordedAs replica)
  finalizes : ∀ app replica node hash, RowOf K workspaceId grant app → replica ∈ app.replicas →
    K.node node → node.nodeId = replica.nodeId →
    Allows law D (.request ⟨replica.nodeId, workspaceId, .mcpV3Finalize replica.containerId hash⟩)
      fun _ ↦ True
  awaits : ∀ inventoryId hash, AllowsUpdate law D
    (fun candidate ↦ AppLifecycle.byId workspaceId grant.deployment.clusterAppId candidate &&
      (candidate.state == .provisioning || candidate.state == .quarantined))
    (awaitingActivationAs inventoryId hash)

/-- What the deployment of a grant has to be let through. -/
structure Allowed (law : Law) (D : Discipline signature World) (K : Known)
    (KI : RuntimeResourceInventory → Prop) (deps : DeploymentDeps) (workspaceId : String)
    (grant : McpDeploymentGrantPayloadV3) (deploymentGrantHash : String)
    (hubIdentity : HubIdentity) : Prop
    extends AllowsProvision law D K KI deps workspaceId grant deploymentGrantHash hubIdentity where
  inserts : ∀ app, IsFresh workspaceId grant deploymentGrantHash app →
    Allows law D (.apps (.insertOne app)) fun _ ↦ K.app app
  revives : ∀ app, IsFresh workspaceId grant deploymentGrantHash app →
    Allows law D (.apps (.replaceOne
      (fun candidate ↦ candidate.appId == app.appId && candidate.state == .removed) app))
      fun result ↦ result.matchedCount = 1 → K.app app

theorem provisions_of_parse {crypto : Crypto} {body : AgentBody} {workspaceId : String}
    {deployment : DeploymentDescriptorV3} (hnode : node.nodeId = plan.nodeId)
    (h : parseMcpV3ReplicaResponse crypto body plan node workspaceId deployment = .ok replica) :
    Provisions plan replica := by
  unfold parseMcpV3ReplicaResponse at h
  simp only [bind, Except.bind] at h
  repeat' split at h
  all_goals first | cases h; exact ⟨rfl, hnode, rfl⟩ | cases h

section

variable {K : Known} {KI : RuntimeResourceInventory → Prop} {deps : DeploymentDeps}
  {workspaceId deploymentGrantHash : String} {grant : McpDeploymentGrantPayloadV3}
  {hubIdentity : HubIdentity}

section

variable (looks : Looks law D K KI)
include looks

theorem meets_findGeneration :
    Meets (cluster law) D
      (fun found ↦ ∀ app, found = some app → RowOf K workspaceId grant app)
      (findGeneration workspaceId grant) := by
  refine (looks.app _).await.imp fun found h app happ ↦ ?_
  obtain ⟨hfilter, hknown⟩ := h app happ
  simp only [Bool.and_eq_true, beq_iff_eq] at hfilter
  exact ⟨hknown, byId_iff.mpr ⟨hfilter.1.2, hfilter.1.1.1.1⟩⟩

omit looks in
theorem meets_assertMcpV3AppAffinity :
    Obeys law D (assertMcpV3AppAffinity app grant deploymentGrantHash) :=
  Meets.throwIf.imp fun _ _ ↦ trivial

/-- A record after a write is of the same app. -/
theorem meets_reload (happ : RowOf K workspaceId grant app) :
    Meets (cluster law) D (RowOf K workspaceId grant) (reload workspaceId app) := by
  obtain ⟨hid, hworkspace⟩ := byId_iff.mp happ.byId
  refine Meets.bind (looks.app _).await fun found hfound ↦ ?_
  cases found with
  | none => exact happ
  | some app' =>
    obtain ⟨hby, hknown⟩ := hfound app' rfl
    rw [hid] at hby
    exact ⟨hknown, hby⟩

theorem meets_platformEnvVarsV3 : Obeys law D (platformEnvVarsV3 deps app) := by
  refine Meets.bind (R := fun _ ↦ True) ?_ fun _ _ ↦ trivial
  unfold resolvePrimaryUrl
  split
  · exact Meets.seq (meets_plain looks.plain (c := .service (.primaryOf _ _)) trivial) fun _ ↦ trivial
  · exact trivial

theorem meets_replacementCollides {error : JsError} :
    Obeys law D (replacementCollides app error) := by
  unfold replacementCollides
  split
  · exact trivial
  · split
    · exact trivial
    · exact Meets.bind (looks.app _).await fun _ _ ↦ trivial

end

/-- The attempt works on the inventory and the nodes of the grant. -/
structure AttemptOf (K : Known) (deps : DeploymentDeps) (workspaceId : String)
    (grant : McpDeploymentGrantPayloadV3) (deploymentGrantHash : String)
    (hubIdentity : HubIdentity) (attempt : Attempt) : Prop where
  deps : attempt.deps = deps
  workspaceId : attempt.workspaceId = workspaceId
  grant : attempt.grant = grant
  deploymentGrantHash : attempt.deploymentGrantHash = deploymentGrantHash
  hubIdentity : attempt.hubIdentity = hubIdentity
  nodes : ∀ node ∈ attempt.nodes, K.node node

section

variable {attempt : Attempt}
  (h : AllowsProvision law D K KI deps workspaceId grant deploymentGrantHash hubIdentity)
  (hattempt : AttemptOf K deps workspaceId grant deploymentGrantHash hubIdentity attempt)
include h hattempt

theorem provisionReplica_meets (happ : RowOf K workspaceId grant app)
    (happ₀ : RowOf K workspaceId grant app₀) (hplan : plan ∈ app₀.mcpProvisioningReplicas.getD [])
    (hnode : K.node node) (hid : node.nodeId = plan.nodeId) :
    Meets (cluster law) D (fun r ↦ RowOf K workspaceId grant r.1)
      (provisionReplica attempt app plan node) := by
  obtain ⟨rfl, rfl, rfl, rfl, rfl, -⟩ := hattempt
  obtain ⟨happId, -⟩ := byId_iff.mp happ.byId
  refine (meets_platformEnvVarsV3 h.looks).seq fun platformEnvVars ↦ ?_
  refine (h.deploys _ _ _ _ _ _ happ₀ hplan hnode hid).trivial.seq fun response ↦ ?_
  refine Meets.throwIf.bind fun _ _ ↦ ?_
  refine (Meets.ofExcept fun _ hr ↦ hr).bind fun replica hreplica ↦ ?_
  refine (meets_captureResources h.looks h.inventories).seq fun _ ↦ ?_
  refine (meets_now h.looks.plain).seq fun time ↦ ?_
  have hwrite := h.records _ _ _ happ₀ hplan (provisions_of_parse hid hreplica) time
  rw [← happId] at hwrite
  exact Meets.seq hwrite.await fun _ ↦ (meets_reload h.looks happ).bind fun app happ ↦ happ

theorem provisionPlan_meets (happ₀ : RowOf K workspaceId grant app₀)
    {progress : MasterApp × List AgentBody} (hprogress : RowOf K workspaceId grant progress.1)
    (hplan : plan ∈ app₀.mcpProvisioningReplicas.getD []) :
    Meets (cluster law) D (fun r ↦ RowOf K workspaceId grant r.1)
      (provisionPlan attempt progress plan) := by
  unfold provisionPlan
  split
  · exact trivial
  next node hnode =>
    have hid := nodeId_of_nodeOf hnode
    have hknown := hattempt.nodes node (mem_of_find?_eq_some hnode)
    dsimp only
    split
    · exact trivial
    · split
      · exact (provisionReplica_meets h hattempt hprogress happ₀ hplan hknown hid).bind fun _ hr ↦ hr
      · refine (Meets.onlyIf fun _ ↦ ?_).seq fun _ ↦ hprogress
        exact meets_captureResources h.looks h.inventories

theorem finalizeReplica_meets {hash : String} (happ : RowOf K workspaceId grant app)
    (hreplica : replica ∈ app.replicas) :
    Obeys law D (finalizeReplica attempt hash replica) := by
  obtain ⟨rfl, rfl, rfl, rfl, rfl, hnodes⟩ := hattempt
  refine (meets_requestNode fun node hnode hid ↦ ?_).seq fun response ↦ ?_
  · exact h.finalizes _ _ _ _ happ hreplica (hnodes node hnode) hid
  · exact Meets.throwIf.imp fun _ _ ↦ trivial

theorem provision_meets (happ : RowOf K workspaceId grant app) :
    Obeys law D (provision attempt app) := by
  refine Meets.bind (R := fun r : MasterApp × List AgentBody ↦ RowOf K workspaceId grant r.1)
    (Meets.foldEach (fun progress plan hplan hprogress ↦
      provisionPlan_meets h hattempt happ hprogress hplan) happ) fun progress hprogress ↦ ?_
  obtain ⟨rfl, rfl, rfl, rfl, rfl, hnodes⟩ := hattempt
  have hattempt : AttemptOf K attempt.deps attempt.workspaceId attempt.grant
      attempt.deploymentGrantHash attempt.hubIdentity attempt := ⟨rfl, rfl, rfl, rfl, rfl, hnodes⟩
  refine (meets_reload h.looks hprogress).bind fun app happ ↦ ?_
  obtain ⟨happId, -⟩ := byId_iff.mp happ.byId
  refine (meets_finishCapture h.looks h.inventories).seq fun inventory ↦ ?_
  refine Meets.throwIf.bind fun _ _ ↦ (Meets.ofExcept fun _ _ ↦ trivial).seq fun _ ↦ ?_
  refine (Meets.ofExcept fun _ _ ↦ trivial).seq fun readyInventory ↦ ?_
  refine (Meets.forEach fun replica hreplica ↦
    finalizeReplica_meets h hattempt happ hreplica).seq fun _ ↦ ?_
  refine (meets_now h.looks.plain).seq fun time ↦ ?_
  have hwrite := h.awaits attempt.inventoryId
    (readyInventory.runtimeResourceInventoryHash.getD "") time
  rw [← happId] at hwrite
  refine Meets.seq hwrite.await fun _ ↦ (meets_reload h.looks happ).bind fun app _ ↦ ?_
  exact Meets.throwIf.bind fun _ _ ↦ trivial

end

variable (h : Allowed law D K KI deps workspaceId grant deploymentGrantHash hubIdentity)
include h

theorem meets_reviveTombstone (happ : IsFresh workspaceId grant deploymentGrantHash app) :
    Meets (cluster law) D (fun result ↦ result.matchedCount = 1 → K.app app)
      (reviveTombstone app) := by
  refine (h.revives app happ).await.settle.bind fun revived hrevived ↦ ?_
  cases revived with
  | ok result => exact hrevived result rfl
  | error error =>
    dsimp only
    split
    · exact (meets_replacementCollides h.looks).bind fun _ _ ↦ trivial
    · exact trivial

theorem meets_claimRow (happ : IsFresh workspaceId grant deploymentGrantHash app) :
    Meets (cluster law) D (RowOf K workspaceId grant)
      (claimRow workspaceId grant deploymentGrantHash app) := by
  have hrow (hknown : K.app app) : RowOf K workspaceId grant app := by
    obtain ⟨_, _, _, _, _, _, rfl⟩ := happ
    exact ⟨hknown, byId_iff.mpr ⟨rfl, rfl⟩⟩
  refine (h.inserts app happ).await.settle.bind fun inserted hinserted ↦ ?_
  cases inserted with
  | ok answer => exact hrow (hinserted answer rfl)
  | error error =>
    dsimp only
    split
    · exact trivial
    · split
      · exact trivial
      · refine (meets_reviveTombstone h happ).bind fun revived hrevived ↦ ?_
        split
        next hcount => exact hrow (hrevived hcount)
        · refine (meets_findGeneration h.looks).bind fun concurrent hconcurrent ↦ ?_
          cases concurrent with
          | none => exact trivial
          | some concurrent =>
            exact meets_assertMcpV3AppAffinity.bind fun _ _ ↦ hconcurrent concurrent rfl

theorem meets_createRow :
    Meets (cluster law) D (RowOf K workspaceId grant)
      (createRow deps workspaceId grant deploymentGrantHash input) := by
  refine (meets_place h.looks.plain).seq fun selected ↦ (meets_now h.looks.plain).seq fun time ↦ ?_
  refine Meets.bind (R := fun _ ↦ True) ?_ fun subdomain _ ↦ ?_
  · unfold chooseLabel
    split
    · exact trivial
    · split
      · exact trivial
      · exact Meets.seq (meets_plain h.looks.plain (c := .service (.allocateSubdomain _ _)) trivial)
          fun _ ↦ trivial
  · refine (Meets.mapEach (Q := fun _ ↦ True) fun node _ ↦ ?_).bind fun plans _ ↦ ?_
    · exact (meets_randomUUID h.looks.plain).seq fun _ ↦
        (meets_randomUUID h.looks.plain).seq fun _ ↦ trivial
    · exact meets_claimRow h ⟨_, _, _, _, _, _, rfl⟩

theorem meets_obtainRow :
    Meets (cluster law) D (RowOf K workspaceId grant)
      (obtainRow deps workspaceId grant deploymentGrantHash input) := by
  refine (meets_findGeneration h.looks).bind fun existing hexisting ↦ ?_
  cases existing with
  | none => exact meets_createRow h
  | some app => exact meets_assertMcpV3AppAffinity.bind fun _ _ ↦ hexisting app rfl

theorem deployMcpV3_meets :
    Obeys law D (deployMcpV3 deps workspaceId grant deploymentGrantHash hubIdentity) := by
  refine (Meets.ofExcept fun _ _ ↦ trivial).seq fun input ↦ ?_
  refine Meets.throwIf.bind fun _ _ ↦ Meets.throwIf.bind fun _ _ ↦ ?_
  refine meets_withWorkspaceLock h.looks.plain ?_
  refine (meets_obtainRow h).bind fun app happ ↦ ?_
  refine (meets_openInventory h.looks h.inventories).seq fun inventory ↦ ?_
  refine Meets.throwIf.bind fun _ _ ↦ Meets.bind (h.looks.nodes _).await fun nodes hnodes ↦ ?_
  refine Meets.throwIf.bind fun _ _ ↦ ?_
  exact provision_meets h.toAllowsProvision ⟨rfl, rfl, rfl, rfl, rfl, fun node hnode ↦ (hnodes node hnode).2⟩ happ

end

end DeploymentV3

end

end PrivosCluster
