import PrivosCluster.Master.Deployment

/-!
# The deployment service: v3 generations

The deployment of a v3 generation, which may be repeated until it has gone through, the recovery
of its inventory for a Hub that never saw it, and the activation by a signed attestation.
-/

namespace PrivosCluster

open AsyncProgram DocumentStore

structure DeploymentDescriptorV3 where
  clusterAppId : String
  listingId : String
  versionDigest : String
  image : String
  imageDigest : String
  manifestDigest : String
  resourceManifestHash : String
  port : Nat
  resources : ContainerResources
  envVars : List (String × String)
  secretEnvKeys : Option (List String)
  volumes : List Volume
  availabilityTier : AvailabilityTier
  stateless : Bool
  subdomain : Option String
  domain : Option String

structure McpDeploymentGrantPayloadV3 where
  jti : String
  clusterId : String
  workspaceId : String
  deploymentId : String
  generationId : String
  generationNumber : Nat
  runtimeInstallationId : String
  mcpAppId : String
  approvalReceiptHash : String
  approvedPermissionCeilingHash : String
  authorizationEpoch : Nat
  configEpoch : Option Nat
  hubOrigin : String
  deployment : DeploymentDescriptorV3

def DeploymentDescriptorV3.raw (deployment : DeploymentDescriptorV3) : RawDeploy where
  appId := some deployment.clusterAppId
  listingId := deployment.listingId
  versionDigest := deployment.versionDigest
  image := deployment.image
  digest := deployment.imageDigest
  tag := some "latest"
  port := some deployment.port
  memoryMb := deployment.resources.memoryMb
  cpus := deployment.resources.cpus
  tmpSizeMb := some deployment.resources.tmpSizeMb
  envVars := some deployment.envVars
  volumes := some deployment.volumes
  availabilityTier := some deployment.availabilityTier
  stateless := some deployment.stateless

namespace DeploymentV3

open Deployment RuntimeInventory

/-- The slot a live v3 app occupies: the deployment and the app. -/
def mcpActiveDeploymentKeyV3 (grant : McpDeploymentGrantPayloadV3) : String :=
  grant.deploymentId ++ ":" ++ grant.deployment.clusterAppId

/-- Older rows hold the bare deployment id. -/
def mcpActiveDeploymentKeyMatchesV3 (stored : Option String) (grant : McpDeploymentGrantPayloadV3) :
    Bool :=
  stored == some (mcpActiveDeploymentKeyV3 grant) || stored == some grant.deploymentId

def hasAppAffinity (app : MasterApp) (grant : McpDeploymentGrantPayloadV3)
    (deploymentGrantHash : String) : Bool :=
  app.appId == grant.deployment.clusterAppId &&
    mcpActiveDeploymentKeyMatchesV3 app.mcpActiveDeploymentKey grant &&
    app.mcpGenerationId == some grant.generationId &&
    app.mcpGenerationNumber == some grant.generationNumber &&
    app.mcpRuntimeInstallationId == some grant.runtimeInstallationId &&
    app.mcpDeploymentGrantJti == some grant.jti &&
    app.mcpDeploymentGrantHash == some deploymentGrantHash &&
    app.resourceManifestHash == some grant.deployment.resourceManifestHash &&
    app.manifestDigest == some grant.deployment.manifestDigest &&
    app.mcpApprovalReceiptHash == some grant.approvalReceiptHash &&
    app.mcpApprovedPermissionCeilingHash == some grant.approvedPermissionCeilingHash &&
    app.mcpAuthorizationEpoch == some grant.authorizationEpoch &&
    app.mcpRoomBindingCount == some 0

def assertMcpV3AppAffinity (app : MasterApp) (grant : McpDeploymentGrantPayloadV3)
    (deploymentGrantHash : String) : Async Unit :=
  Program.throwIf (hasAppAffinity app grant deploymentGrantHash = false)
    { message := "existing_mcp_v3_generation_binding_mismatch" }

def affinityOfGrant (grant : McpDeploymentGrantPayloadV3) (workspaceId : String) : Affinity where
  clusterId := grant.clusterId
  workspaceId := workspaceId
  deploymentId := grant.deploymentId
  generationId := grant.generationId
  generationNumber := grant.generationNumber
  runtimeInstallationId := grant.runtimeInstallationId
  clusterAppId := grant.deployment.clusterAppId
  manifestDigest := grant.deployment.manifestDigest
  resourceManifestHash := grant.deployment.resourceManifestHash

def assertMcpV3InventoryAffinity (inventory : RuntimeResourceInventory)
    (grant : McpDeploymentGrantPayloadV3) : Async Unit :=
  Program.throwIf (affinityOf inventory ≠ affinityOfGrant grant grant.workspaceId)
    { message := "runtime_resource_inventory_affinity_mismatch" }

/-! ## The environment -/

structure SealedEnv where
  envVars : List (String × String)
  secretEnvKeys : List String
  secretEnvVarsEnc : Option String

/-- The declared secret names that occur, each once and sorted. -/
def secretNames (envVars : List (String × String)) (declared : List String) : List String :=
  ((declared.filter fun key ↦ envVars.any (·.1 == key)).dedup).insertionSort
    fun l r ↦ Json.keyLe l r

/-- The open half of an environment, and its secret half under the master key. -/
def sealOperatorEnv (crypto : Crypto) (envVars : List (String × String))
    (declaredSecretKeys : List String) : SealedEnv :=
  let secretEnvKeys := secretNames envVars declaredSecretKeys
  if secretEnvKeys.isEmpty then ⟨envVars, secretEnvKeys, none⟩
  else
    { envVars := envVars.filter fun entry ↦ !secretEnvKeys.contains entry.1
      secretEnvKeys
      secretEnvVarsEnc := some
        (crypto.encrypt (envVars.filter fun entry ↦ secretEnvKeys.contains entry.1)) }

/-- `{ ...base, ...more }` -/
def spread (base more : List (String × String)) : List (String × String) :=
  more.foldl (fun entries entry ↦
    if entries.any (·.1 == entry.1) then
      entries.map fun old ↦ if old.1 = entry.1 then entry else old
    else entries ++ [entry]) base

def operatorEnvOf (crypto : Crypto) (app : MasterApp) : Except JsError (List (String × String)) :=
  match app.secretEnvVarsEnc.filter (· ≠ "") with
  | none => .ok app.envVars
  | some sealed =>
    match crypto.decrypt sealed with
    | none => .error { message := "Unsupported state or unable to authenticate data" }
    | some secret => .ok (spread app.envVars secret)

def publicUrlFor (deps : DeploymentDeps) (subdomain : Option String) : Option String :=
  (subdomain.filter (· ≠ "")).map fun label ↦ "https://" ++ label ++ "." ++ deps.baseDomain

/-- The primary host of the registry, or the legacy label. -/
def resolvePrimaryUrl (deps : DeploymentDeps) (app : MasterApp) : Async (Option String) :=
  if deps.appHosts then do
    let primary ← awaitCall (.service (.primaryOf app.workspaceId app.appId))
    .pure ((primary.map ("https://" ++ ·)) <|> publicUrlFor deps app.subdomain)
  else .pure (publicUrlFor deps app.subdomain)

def platformEnvVarsV3 (deps : DeploymentDeps) (app : MasterApp) :
    Async (List (String × String)) := do
  let primaryUrl ← resolvePrimaryUrl deps app
  let urls := match primaryUrl with
    | none => []
    | some url =>
      (if deps.emitAppPublicUrl then [("PRIVOS_APP_PUBLIC_URL", url)] else []) ++
        (if !deps.emitAppPublicUrl || deps.legacyPublicUrlAlias then [("PRIVOS_PUBLIC_URL", url)]
          else [])
  .pure (urls ++ [("PRIVOS_ACCESS_MODE", "managed-runtime")])

def resolveSecurityProfile (deps : DeploymentDeps) (listingId : String) : Option String :=
  deps.securityProfileAllowlist.lookup listingId

/-- The key is absent while the flag is off, and otherwise holds a name or an explicit null. -/
def securityProfileBody (deps : DeploymentDeps) (listingId : String) : Option (Option String) :=
  if deps.emitSecurityProfile then some (resolveSecurityProfile deps listingId) else none

def runtimeSecurityProfiles : List String := ["browser-sandbox"]

/-- The profile all agents report; absent when one does not, null when they differ. -/
def consolidateReportedSecurityProfile (bodies : List AgentBody) (expectedCount : Nat) :
    Option (Option String) :=
  if bodies.isEmpty ∨ bodies.length ≠ expectedCount then none
  else if bodies.any (·.securityProfile.isNone) then none
  else
    let normalized := bodies.map fun body ↦
      (body.securityProfile.join).filter (runtimeSecurityProfiles.contains ·)
    if normalized.all (· == normalized.head?.join) then some normalized.head?.join else some none

/-! ## The record of a generation -/

def v3RecordOf (workspaceId : String) (grant : McpDeploymentGrantPayloadV3)
    (deploymentGrantHash : String) (input : DeployInput) (sealed : SealedEnv)
    (label : Option String) (uiUrl : Option String) (plans : List ProvisioningReplicaPlan)
    (time : Time) : MasterApp where
  appId := grant.deployment.clusterAppId
  workspaceId := workspaceId
  listingId := input.listingId
  versionDigest := input.versionDigest
  image := input.image
  imageDigest := input.digest
  resources := input.resources
  port := input.port
  envVars := sealed.envVars
  secretEnvVarsEnc := sealed.secretEnvVarsEnc.filter (· ≠ "")
  volumes := input.volumes
  storageBytes := input.storageBytes
  availabilityTier := input.availabilityTier
  stateless := input.stateless
  subdomain := label
  uiUrl := uiUrl
  secretEnvKeys := some sealed.secretEnvKeys
  appliedConfigEpoch := some (grant.configEpoch.getD 1)
  appliedConfigAt := some time
  replicas := []
  state := .provisioning
  kind := some .mcpV3
  protocolVersion := some 3
  mcpDeploymentId := some grant.deploymentId
  mcpActiveDeploymentKey := some (mcpActiveDeploymentKeyV3 grant)
  mcpGenerationId := some grant.generationId
  mcpGenerationNumber := some grant.generationNumber
  mcpRuntimeInstallationId := some grant.runtimeInstallationId
  mcpDeploymentGrantJti := some grant.jti
  mcpDeploymentGrantHash := some deploymentGrantHash
  mcpAppId := some grant.mcpAppId
  manifestDigest := some grant.deployment.manifestDigest
  resourceManifestHash := some grant.deployment.resourceManifestHash
  mcpApprovalReceiptHash := some grant.approvalReceiptHash
  mcpApprovedPermissionCeilingHash := some grant.approvedPermissionCeilingHash
  mcpAuthorizationEpoch := some grant.authorizationEpoch
  mcpProvisioningNodeIds := some (plans.map (·.nodeId))
  mcpProvisioningReplicas := some plans
  mcpRoomBindingCount := some 0
  mcpAppliedRevision := some 0
  createdAt := time
  updatedAt := time

/-- The live record of a generation. -/
def findGeneration (workspaceId : String) (grant : McpDeploymentGrantPayloadV3) :
    Async (Option MasterApp) :=
  Apps.findOne fun app ↦ app.workspaceId == workspaceId && app.kind == some .mcpV3 &&
    app.mcpDeploymentId == some grant.deploymentId &&
    app.appId == grant.deployment.clusterAppId && app.state != .removed

/-- The label the Hub chose, or a random one unless default hosts are off. -/
def chooseLabel (deps : DeploymentDeps) (workspaceId : String) (input : DeployInput)
    (grant : McpDeploymentGrantPayloadV3) : Async (Option String) :=
  match grant.deployment.subdomain with
  | some subdomain => .pure (some subdomain)
  | none =>
    if deps.noDefaultHost then .pure none
    else do
      let label ← allocateSubdomain input.listingId workspaceId
      .pure (some label)

def planReplica (node : MasterNode) : Async ProvisioningReplicaPlan := do
  let replicaId ← randomUUID
  let containerId ← randomUUID
  .pure ⟨node.nodeId, replicaId, containerId⟩

def isSubdomainCollision (keyPattern : List String) : Bool :=
  keyPattern.contains "subdomain" && !keyPattern.contains "appId"

def subdomainConflict : JsError :=
  { message := "mcp_v3_deployment_subdomain_conflict",
    code := some (.text "mcp_v3_deployment_subdomain_conflict"), statusCode := some 409 }

def duplicateAppRow (grant : McpDeploymentGrantPayloadV3) : JsError :=
  { message := "duplicate_app_row", code := some (.text "duplicate_app_row"),
    correlationId := some grant.generationId }

/-- Whether a refused replacement collided on the label; an error without detail is looked into. -/
def replacementCollides (app : MasterApp) (error : JsError) : Async Bool :=
  match error.keyPattern with
  | some keyPattern => .pure (isSubdomainCollision keyPattern)
  | none =>
    match AppLifecycle.label? app with
    | none => .pure false
    | some label => do
      let other ← Apps.findOne fun candidate ↦
        candidate.subdomain == some label && candidate.appId != app.appId
      .pure other.isSome

/-- A reinstall takes over the record of the removed install with the same app id. -/
def reviveTombstone (app : MasterApp) : Async UpdateResult := do
  let revived ← (Apps.replaceOne
    (fun candidate ↦ candidate.appId == app.appId && candidate.state == .removed) app).settle
  match revived with
  | .ok result => .pure result
  | .error error =>
    if isDuplicateKey error then do
      let collides ← replacementCollides app error
      .throw (if collides then subdomainConflict else error)
    else .throw error

/-- Insert the record, or revive the tombstone in its slot, or join a concurrent install. -/
def claimRow (workspaceId : String) (grant : McpDeploymentGrantPayloadV3)
    (deploymentGrantHash : String) (app : MasterApp) : Async MasterApp := do
  let inserted ← (Apps.insertOne app).settle
  match inserted with
  | .ok _ => .pure app
  | .error error =>
    if isDuplicateKey error = false then .throw error
    else if error.keyPattern.any isSubdomainCollision then .throw subdomainConflict
    else do
      let revived ← reviveTombstone app
      if revived.matchedCount = 1 then .pure app
      else do
        let concurrent ← findGeneration workspaceId grant
        match concurrent with
        | none => .throw (duplicateAppRow grant)
        | some concurrent => do
          assertMcpV3AppAffinity concurrent grant deploymentGrantHash
          .pure concurrent

def createRow (deps : DeploymentDeps) (workspaceId : String) (grant : McpDeploymentGrantPayloadV3)
    (deploymentGrantHash : String) (input : DeployInput) : Async MasterApp := do
  let selected ← place workspaceId input
  let time ← now
  let subdomain ← chooseLabel deps workspaceId input grant
  let sealed := sealOperatorEnv deps.crypto input.envVars (grant.deployment.secretEnvKeys.getD [])
  let plans ← Program.mapEach planReplica selected
  claimRow workspaceId grant deploymentGrantHash
    (v3RecordOf workspaceId grant deploymentGrantHash input sealed (subdomain.filter (· ≠ ""))
      (publicUrlFor deps subdomain) plans time)

/-! ## The inventory of a generation -/

def inventoryIdOf (crypto : Crypto) (workspaceId deploymentId generationId
    runtimeInstallationId : String) : String :=
  "inventory-" ++ crypto.sha256Base64Url
    ("\x00".intercalate [workspaceId, deploymentId, generationId, runtimeInstallationId])

def findInventory (inventoryId : String) : Async (Option RuntimeResourceInventory) :=
  RuntimeResourceInventories.findOne fun inventory ↦ inventory.inventoryId == inventoryId

/-- An inventory that is taken to be there when its `member` is read. -/
def loadInventory (inventoryId member : String) : Async RuntimeResourceInventory := do
  let inventory ← findInventory inventoryId
  match inventory with
  | some inventory => .pure inventory
  | none => .throw { message := "Cannot read properties of null (reading '" ++ member ++ "')" }

def openInventory (workspaceId inventoryId : String) (grant : McpDeploymentGrantPayloadV3) :
    Async RuntimeResourceInventory := do
  let inventory ← findInventory inventoryId
  match inventory with
  | some inventory => .pure inventory
  | none => do
    let createdAt ← now
    let capturing ← Program.ofExcept (buildCapturingRuntimeResourceInventoryV3 inventoryId
      (affinityOfGrant grant workspaceId) createdAt)
    let inserted ← (RuntimeResourceInventories.insertOne capturing).settle
    match inserted with
    | .ok _ => .pure capturing
    | .error error =>
      if isDuplicateKey error then do
        let concurrent ← findInventory inventoryId
        match concurrent with
        | some concurrent => .pure concurrent
        | none => .throw error
      else .throw error

/-- Add resources to an inventory that is still being captured. -/
def captureResources (inventoryId : String) (resources : List RuntimeResourceDescriptor) :
    Async Unit := do
  let time ← now
  let _ ← RuntimeResourceInventories.updateOne
    (fun inventory ↦ inventory.inventoryId == inventoryId && inventory.state == .capturing)
    fun inventory ↦ { inventory with
      expectedResources := addToSet inventory.expectedResources resources, updatedAt := time }

/-- Finalize a captured inventory, unless another attempt has done so first. -/
def persistFinalized (crypto : Crypto) (inventoryId : String) (inventory : RuntimeResourceInventory)
    (resources : List RuntimeResourceDescriptor) : Async RuntimeResourceInventory := do
  let normalized ← Program.ofExcept (normalizeRuntimeResourcesV3 resources)
  let time ← now
  let finalized ← Program.ofExcept
    (finalizeRuntimeResourceInventoryV3 crypto inventory normalized time)
  let finalizedWrite ← RuntimeResourceInventories.updateOne
    (fun inventory ↦ inventory.inventoryId == inventoryId && inventory.state == .capturing)
    fun inventory ↦ { inventory with
      expectedResources := finalized.expectedResources
      runtimeResourceInventoryHash := finalized.runtimeResourceInventoryHash
      state := .ready
      updatedAt := finalized.updatedAt }
  if finalizedWrite.matchedCount = 1 then .pure finalized else loadInventory inventoryId "state"

/-- The route of an app with a label. -/
def ingressResource? (deps : DeploymentDeps) (app : MasterApp) : Option RuntimeResourceDescriptor :=
  (AppLifecycle.label? app).map fun label ↦
    let host := label ++ "." ++ deps.baseDomain
    { kind := .ingress
      resourceId := "route-" ++ deps.crypto.sha256Base64Url host
      ownershipScope := .installationGeneration
      nodeId := none
      replicaId := none
      attributes := [("host", host), ("subdomain", label)] }

/-- The inventory once the ingress route is captured and the whole is finalized. -/
def finishCapture (deps : DeploymentDeps) (inventoryId : String) (app : MasterApp)
    (inventory : RuntimeResourceInventory) : Async RuntimeResourceInventory :=
  if inventory.state ≠ .capturing then .pure inventory
  else do
    Program.forSome (ingressResource? deps app) fun resource ↦
      captureResources inventoryId [resource]
    let captured ← loadInventory inventoryId "expectedResources"
    persistFinalized deps.crypto inventoryId captured captured.expectedResources

/-! ## Provisioning the replicas -/

/-- The answer of an agent, checked against the plan of the replica. -/
def checkReplicaResponse (crypto : Crypto) (body : AgentBody) (plan : ProvisioningReplicaPlan)
    (node : MasterNode) (workspaceId : String) (deployment : DeploymentDescriptorV3) :
    Except JsError McpNodeIdentity :=
  let invalid : Except JsError McpNodeIdentity :=
    .error { message := "agent_mcp_v3_resource_response_invalid" }
  if body.id ≠ some plan.containerId ∨ body.appId ≠ some deployment.clusterAppId ∨
      body.workspaceId ≠ some workspaceId ∨ body.listingId ≠ some deployment.listingId ∨
      body.versionDigest ≠ some deployment.versionDigest ∨
      body.imageDigest ≠ some deployment.imageDigest ∨ body.replicaId ≠ some plan.replicaId ∨
      body.state ≠ some "running" ∨ (body.nodeIdentity.bind (·.nodeId)) ≠ some node.nodeId then
    invalid
  else
    match body.nodeIdentity.bind (·.kid), body.nodeIdentity.bind (·.publicJwk) with
    | some kid, some publicJwk =>
      match crypto.jwkThumbprint? publicJwk with
      | none => .error { message := "public_jwk_invalid" }
      | some thumbprint => if thumbprint = kid then .ok ⟨kid, publicJwk⟩ else invalid
    | _, _ => invalid

/-- The resource of a kind that proves a planned id on the node with the given identity. -/
def provesResource (kind : RuntimeResourceKind) (resourceId kid : String)
    (resource : RuntimeResourceDescriptor) : Bool :=
  resource.kind == kind && resource.resourceId == resourceId &&
    resource.attributes.lookup "nodeIdentityKid" == some kid

def parseMcpV3ReplicaResponse (crypto : Crypto) (body : AgentBody)
    (plan : ProvisioningReplicaPlan) (node : MasterNode) (workspaceId : String)
    (deployment : DeploymentDescriptorV3) : Except JsError AppReplica := do
  let nodeIdentity ← checkReplicaResponse crypto body plan node workspaceId deployment
  let reported ← match body.expectedResources with
    | some resources =>
      if resources.length < 2 then .error (Schema.schemaError "expectedResources")
      else resources.mapM parseDescriptor
    | none => .error (Schema.schemaError "expectedResources")
  if reported.any fun resource ↦ resource.ownershipScope != .installationGeneration ||
      resource.nodeId != some node.nodeId || resource.replicaId != some plan.replicaId then
    .error { message := "agent_mcp_v3_resource_affinity_invalid" }
  else if !reported.any (provesResource .replica plan.replicaId nodeIdentity.kid) ||
      !reported.any (provesResource .container plan.containerId nodeIdentity.kid) then
    .error { message := "agent_mcp_v3_resource_response_incomplete" }
  else do
    let resources ← normalizeRuntimeResourcesV3 reported
    .ok
      { replicaId := plan.replicaId
        nodeId := node.nodeId
        containerId := plan.containerId
        state := "running"
        mcpNodeIdentity := some nodeIdentity
        mcpV3Resources := some resources }

def v3Binding (grant : McpDeploymentGrantPayloadV3) (workspaceId deploymentGrantHash : String)
    (hubIdentity : HubIdentity) (nodeId : String) (plan : ProvisioningReplicaPlan) :
    McpV3Binding where
  clusterId := grant.clusterId
  nodeId := nodeId
  workspaceId := workspaceId
  deploymentId := grant.deploymentId
  generationId := grant.generationId
  generationNumber := grant.generationNumber
  runtimeInstallationId := grant.runtimeInstallationId
  mcpAppId := grant.mcpAppId
  replicaId := plan.replicaId
  containerId := plan.containerId
  imageDigest := grant.deployment.imageDigest
  manifestDigest := grant.deployment.manifestDigest
  approvalReceiptHash := some grant.approvalReceiptHash
  authorizationEpoch := grant.authorizationEpoch
  deploymentGrantHash := some deploymentGrantHash
  resourceManifestHash := grant.deployment.resourceManifestHash
  hub := some (grant.hubOrigin, hubIdentity)

/-- The record after a write, or the record in hand when it has vanished. -/
def reload (workspaceId : String) (app : MasterApp) : Async MasterApp := do
  let found ← Apps.findOne (AppLifecycle.byId workspaceId app.appId)
  .pure (found.getD app)

/-- What the attempts of one grant have in common. -/
structure Attempt where
  deps : DeploymentDeps
  workspaceId : String
  grant : McpDeploymentGrantPayloadV3
  deploymentGrantHash : String
  hubIdentity : HubIdentity
  input : DeployInput
  inventoryId : String
  inventory : RuntimeResourceInventory
  nodes : List MasterNode

def recordedAs (replica : AppReplica) (time : Time) (app : MasterApp) : MasterApp :=
  { app with replicas := app.replicas ++ [replica], updatedAt := time }

/-- Make the container of a planned replica, then record its resources and the replica. -/
def provisionReplica (attempt : Attempt) (app : MasterApp) (plan : ProvisioningReplicaPlan)
    (node : MasterNode) : Async (MasterApp × AgentBody) := do
  let platformEnvVars ← platformEnvVarsV3 attempt.deps app
  let response ← request node attempt.workspaceId (.mcpV3Deploy
    (attempt.input.body attempt.grant.deployment.clusterAppId attempt.workspaceId app.subdomain
      attempt.deps.baseDomain)
    ⟨platformEnvVars, app.secretEnvKeys.getD [], securityProfileBody attempt.deps app.listingId⟩
    (v3Binding attempt.grant attempt.workspaceId attempt.deploymentGrantHash attempt.hubIdentity
      node.nodeId plan))
  Program.throwIf (300 ≤ response.status)
    { message := "agent MCP v3 deploy failed: " ++ response.body.json }
  let replica ← Program.ofExcept (parseMcpV3ReplicaResponse attempt.deps.crypto response.body plan
    node attempt.workspaceId attempt.grant.deployment)
  captureResources attempt.inventoryId (replica.mcpV3Resources.getD [])
  let time ← now
  let _ ← Apps.updateOne
    (fun candidate ↦ AppLifecycle.byId attempt.workspaceId app.appId candidate &&
      !candidate.replicas.any (·.replicaId == replica.replicaId))
    (recordedAs replica time)
  let app ← reload attempt.workspaceId app
  .pure (app, response.body)

/-- One plan: a replica that is recorded with its resources is not deployed again. -/
def provisionPlan (attempt : Attempt) (progress : MasterApp × List AgentBody)
    (plan : ProvisioningReplicaPlan) : Async (MasterApp × List AgentBody) :=
  let app := progress.1
  match AppLifecycle.nodeOf attempt.nodes plan.nodeId with
  | none => .throw { message := "Cannot read properties of undefined (reading 'nodeId')" }
  | some node =>
    let replica := app.replicas.find? (·.replicaId == plan.replicaId)
    if replica.any fun replica ↦
        replica.nodeId != plan.nodeId || replica.containerId != plan.containerId then
      .throw { message := "persisted_mcp_v3_replica_plan_mismatch" }
    else
      match replica.bind (·.mcpV3Resources) with
      | none => do
        let provisioned ← provisionReplica attempt app plan node
        .pure (provisioned.1, progress.2 ++ [provisioned.2])
      | some resources => do
        Program.onlyIf (attempt.inventory.state = .capturing)
          (captureResources attempt.inventoryId resources)
        .pure progress

def finalizeReplica (attempt : Attempt) (hash : String) (replica : AppReplica) : Async Unit := do
  let response ← requestNode (AppLifecycle.nodeOf attempt.nodes replica.nodeId) attempt.workspaceId
    (.mcpV3Finalize replica.containerId hash)
  Program.throwIf (300 ≤ response.status)
    { message := "agent MCP v3 finalize failed: " ++ response.body.json }

/-- The recorded resources of the app must be the resources of the inventory. -/
def checkRecorded (deps : DeploymentDeps) (app : MasterApp) (plans : List ProvisioningReplicaPlan)
    (inventory : RuntimeResourceInventory) : Except JsError Unit := do
  let persisted ← normalizeRuntimeResourcesV3
    (app.replicas.flatMap (fun replica ↦ replica.mcpV3Resources.getD []) ++
      (ingressResource? deps app).toList)
  if app.replicas.length ≠ plans.length ∨ app.replicas.any (·.mcpV3Resources.isNone) = true ∨
      canonicalJson (descriptorsJson persisted) ≠
        canonicalJson (descriptorsJson inventory.expectedResources) then
    .error { message := "runtime_resource_inventory_replica_record_mismatch" }
  else .ok ()

structure Deployed where
  app : MasterApp
  inventory : RuntimeResourceInventory
  securityProfile : Option (Option String)

/-- The record as a deployment that went through leaves it, to await its activation. -/
def awaitingActivationAs (inventoryId hash : String) (time : Time) (app : MasterApp) : MasterApp :=
  { app with
    state := .quarantined
    runtimeResourceInventoryId := some inventoryId
    runtimeResourceInventoryHash := some hash
    updatedAt := time }

/-- Everything after the record and its inventory are there. -/
def provision (attempt : Attempt) (app : MasterApp) : Async Deployed := do
  let plans := app.mcpProvisioningReplicas.getD []
  let (app, agentResponses) ← Program.foldEach (provisionPlan attempt) (app, []) plans
  let app ← reload attempt.workspaceId app
  let inventory ← finishCapture attempt.deps attempt.inventoryId app attempt.inventory
  Program.throwIf
    (inventory.state ≠ .ready ∨ inventory.runtimeResourceInventoryHash.getD "" = "")
    { message := "runtime_resource_inventory_not_ready" }
  Program.ofExcept (checkRecorded attempt.deps app plans inventory)
  let readyInventory ← Program.ofExcept (finalizeRuntimeResourceInventoryV3 attempt.deps.crypto
    inventory inventory.expectedResources inventory.updatedAt)
  let hash := readyInventory.runtimeResourceInventoryHash.getD ""
  Program.forEach (finalizeReplica attempt hash) app.replicas
  let time ← now
  let _ ← Apps.updateOne
    (fun candidate ↦ AppLifecycle.byId attempt.workspaceId app.appId candidate &&
      (candidate.state == .provisioning || candidate.state == .quarantined))
    (awaitingActivationAs attempt.inventoryId hash time)
  let app ← reload attempt.workspaceId app
  Program.throwIf ((app.state ≠ .quarantined ∧ app.state ≠ .running) ∨
      app.runtimeResourceInventoryId ≠ some attempt.inventoryId ∨
      app.runtimeResourceInventoryHash ≠ some hash)
    { message := "mcp_v3_quarantine_persistence_failed" }
  .pure ⟨app, readyInventory, consolidateReportedSecurityProfile agentResponses plans.length⟩

/-- `/^[a-z0-9](?:[a-z0-9-]{0,61}[a-z0-9])?$/` -/
def isLabel (s : String) : Bool :=
  let lowerAlnum (c : Char) : Bool := c.isDigit || ('a' ≤ c && c ≤ 'z')
  let chars := s.toList
  1 ≤ chars.length && chars.length ≤ 63 && chars.all (fun c ↦ lowerAlnum c || c == '-') &&
    chars.head?.any lowerAlnum && chars.getLast?.any lowerAlnum

/-- The record of the grant, found or made. -/
def obtainRow (deps : DeploymentDeps) (workspaceId : String) (grant : McpDeploymentGrantPayloadV3)
    (deploymentGrantHash : String) (input : DeployInput) : Async MasterApp := do
  let existing ← findGeneration workspaceId grant
  match existing with
  | some app => do
    assertMcpV3AppAffinity app grant deploymentGrantHash
    .pure app
  | none => createRow deps workspaceId grant deploymentGrantHash input

def deployMcpV3 (deps : DeploymentDeps) (workspaceId : String) (grant : McpDeploymentGrantPayloadV3)
    (deploymentGrantHash : String) (hubIdentity : HubIdentity) : Async Deployed := do
  let input ← Program.ofExcept (DeploySchema.parse grant.deployment.raw)
  Program.throwIf (grant.deployment.domain.any (· ≠ deps.baseDomain) = true)
    { message := "mcp_v3_deployment_domain_mismatch" }
  Program.throwIf (grant.deployment.subdomain.any (fun label ↦ !isLabel label) = true)
    { message := "mcp_v3_deployment_subdomain_invalid" }
  withWorkspaceLock workspaceId do
    let app ← obtainRow deps workspaceId grant deploymentGrantHash input
    let inventoryId := inventoryIdOf deps.crypto workspaceId grant.deploymentId grant.generationId
      grant.runtimeInstallationId
    let inventory ← openInventory workspaceId inventoryId grant
    assertMcpV3InventoryAffinity inventory grant
    let plans := app.mcpProvisioningReplicas.getD []
    let nodes ← AppLifecycle.loadNodes (plans.map (·.nodeId))
    Program.throwIf (nodes.length ≠ plans.length) { message := "mcp_v3_provisioning_node_missing" }
    provision
      { deps, workspaceId, grant, deploymentGrantHash, hubIdentity, input, inventoryId, inventory,
        nodes }
      app

/-! ## Activation -/

def recordMcpV3StartedEvents (app : MasterApp) (establishedAt : Time) : Async Unit :=
  Program.forEach (fun (replica : AppReplica) ↦ tolerateDuplicate (LifecycleEvents.insertOne
    { eventId := "mcp-v3-start:" ++ replica.replicaId
      workspaceId := app.workspaceId
      appId := app.appId
      replicaId := some replica.replicaId
      type := .started
      resources := app.resources
      storageBytes := some app.storageBytes
      time := establishedAt })) app.replicas

structure McpV3Activation where
  runtimeInstallationId : String
  compact : String
  artifactHash : String

/-- The attestation that establishes the generation of the app. -/
def establishes (crypto : Crypto) (app : MasterApp) (input : McpV3Activation)
    (attestation : AttestationRecord) : Bool :=
  crypto.sha256Base64Url attestation.compact == attestation.artifactHash &&
    attestation.compact == input.compact && attestation.artifactHash == input.artifactHash &&
    some attestation.deploymentGrantJti == app.mcpDeploymentGrantJti

/-- The record as the activation of its generation leaves it. -/
def establishedAs (establishedAt : Time) (app : MasterApp) : MasterApp :=
  { app with
    state := .running
    mcpInventoryAttestationEstablishedAt := some establishedAt
    updatedAt := establishedAt }

def loadActiveNodes (nodeIds : List String) : Async (List MasterNode) :=
  Nodes.find fun node ↦ nodeIds.contains node.nodeId && node.status == .active

/-- The switch of a quarantined generation to RUNNING. -/
def establish (workspaceId : String) (app : MasterApp) : Async MasterApp := do
  Program.throwIf (app.state ≠ .quarantined) { message := "mcp_v3_app_not_quarantined" }
  let nodes ← loadActiveNodes (app.replicas.map (·.nodeId))
  Program.throwIf (nodes.length ≠ app.replicas.length) { message := "mcp_replica_node_missing" }
  Program.forSome (AppLifecycle.label? app) fun label ↦ ingressUpsert label nodes
  let establishedAt ← now
  let activated ← Apps.updateOne
    (fun candidate ↦ AppLifecycle.byId workspaceId app.appId candidate &&
      candidate.state == .quarantined)
    (establishedAs establishedAt)
  if activated.matchedCount ≠ 1 then do
    let concurrent ← Apps.findOne (AppLifecycle.byId workspaceId app.appId)
    match concurrent.filter fun app ↦
        app.state == .running && app.mcpInventoryAttestationEstablishedAt.isSome with
    | some concurrent => .pure concurrent
    | none => .throw { message := "mcp_v3_activation_conflict" }
  else do
    recordMcpV3StartedEvents app establishedAt
    recordAppInstalledEvent app establishedAt
    .pure (establishedAs establishedAt app)

def activateMcpV3 (deps : DeploymentDeps) (workspaceId : String) (input : McpV3Activation) :
    Async MasterApp :=
  withWorkspaceLock workspaceId do
    let app ← Apps.findOne fun app ↦ app.workspaceId == workspaceId && app.kind == some .mcpV3 &&
      app.mcpRuntimeInstallationId == some input.runtimeInstallationId && app.state != .removed
    match app.bind fun app ↦ (app.runtimeResourceInventoryId.filter (· ≠ "")).map (app, ·) with
    | none => .throw { message := "MCP v3 app not found", statusCode := some 404 }
    | some (app, inventoryId) => do
      let inventory ← findInventory inventoryId
      let attestation := inventory.bind (·.runtimeInventoryAttestation)
      Program.throwIf (attestation.any (establishes deps.crypto app input) = false)
        { message := "runtime_inventory_attestation_establishment_mismatch" }
      match app.mcpInventoryAttestationEstablishedAt.filter fun _ ↦ app.state == .running with
      | some establishedAt => do
        recordMcpV3StartedEvents app establishedAt
        .pure app
      | none => establish workspaceId app

/-! ## Recovery of the inventory -/

/-- The descriptors of a planned replica that no agent has reported. -/
def plannedResources (present : List (RuntimeResourceKind × String)) (nodeIdentityKid : String)
    (plan : ProvisioningReplicaPlan) : List RuntimeResourceDescriptor :=
  [(RuntimeResourceKind.replica, plan.replicaId), (RuntimeResourceKind.container, plan.containerId)]
    |>.filter (fun planned ↦ !present.contains planned)
    |>.map fun planned ↦
      { kind := planned.1
        resourceId := planned.2
        ownershipScope := .installationGeneration
        nodeId := some plan.nodeId
        replicaId := some plan.replicaId
        attributes := [("nodeIdentityKid", nodeIdentityKid)] }

def missingResources (present : List (RuntimeResourceKind × String)) (nodes : List MasterNode)
    (plan : ProvisioningReplicaPlan) : Except JsError (List RuntimeResourceDescriptor) :=
  match ((AppLifecycle.nodeOf nodes plan.nodeId).bind (·.mcpIdentityKid)).filter (· ≠ "") with
  | none => .error { message := "mcp_v3_node_identity_missing" }
  | some kid => .ok (plannedResources present kid plan)

/-- Finalize what was captured, with the planned replicas and the route that never reported. -/
def finalizeCaptured (deps : DeploymentDeps) (inventoryId : String) (app : MasterApp)
    (inventory : RuntimeResourceInventory) : Async RuntimeResourceInventory := do
  let captured := inventory.expectedResources
  let present := captured.map identity
  let plans := app.mcpProvisioningReplicas.getD []
  let nodes ← AppLifecycle.loadNodes (plans.map (·.nodeId))
  let planned ← Program.ofExcept (plans.mapM (missingResources present nodes))
  let ingress := (ingressResource? deps app).toList.filter fun resource ↦
    !present.contains (identity resource)
  persistFinalized deps.crypto inventoryId inventory (captured ++ planned.flatten ++ ingress)

def runtimeNotRegistered : JsError :=
  { message := "MCP v3 app not found", statusCode := some 404,
    code := some (.text "runtime_not_registered") }

/-- The inventory to attest: a captured one is finalized first. -/
def recoverInventory (deps : DeploymentDeps) (inventoryId : String) (app : MasterApp)
    (inventory : RuntimeResourceInventory) : Async RuntimeResourceInventory :=
  if inventory.state = .capturing then finalizeCaptured deps inventoryId app inventory
  else .pure inventory

structure Recovered where
  app : MasterApp
  inventory : RuntimeResourceInventory

def recoverMcpV3InventoryAttestation (deps : DeploymentDeps)
    (workspaceId runtimeInstallationId : String) : Async Recovered :=
  withWorkspaceLock workspaceId do
    let app ← Apps.findOne fun app ↦ app.workspaceId == workspaceId && app.kind == some .mcpV3 &&
      app.mcpRuntimeInstallationId == some runtimeInstallationId
    match app with
    | none => .throw runtimeNotRegistered
    | some app => do
      let inventoryId := app.runtimeResourceInventoryId.getD
        (inventoryIdOf deps.crypto workspaceId (app.mcpDeploymentId.getD "")
          (app.mcpGenerationId.getD "") runtimeInstallationId)
      let found ← findInventory inventoryId
      match found with
      | none => .throw { message := "runtime inventory missing", statusCode := some 404 }
      | some found => do
        Program.throwIf (found.state = .migrationReviewRequired)
          { message := "MIGRATION_REVIEW_REQUIRED",
            code := some (.text "MIGRATION_REVIEW_REQUIRED") }
        let inventory ← recoverInventory deps inventoryId app found
        Program.throwIf ((inventory.state ≠ .ready ∧ inventory.state ≠ .compacted) ∨
            inventory.runtimeResourceInventoryHash.getD "" = "")
          { message := "runtime_resource_inventory_not_ready" }
        .pure ⟨app, inventory⟩

end DeploymentV3

end PrivosCluster
