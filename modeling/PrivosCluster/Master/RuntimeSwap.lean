import PrivosCluster.Master.DeploymentV3

/-!
# The deployment service: reconfigure and upgrade

The two commands that replace the containers of a running v3 generation in place. Both go
through the replicas one at a time under the lock of the workspace, and write the record last.
-/

namespace PrivosCluster

open AsyncProgram

/-- The repository half of an image reference: `/^(.*)@sha256:[a-f0-9]{64}$/`, or all of it. -/
def imageRepositoryOf (image : String) : String :=
  let chars := image.toList
  let repository := chars.take (chars.length - 72)
  let pin := String.ofList (chars.drop (chars.length - 71))
  if 72 ≤ chars.length ∧ chars[chars.length - 72]? = some '@' ∧ Schema.isDigest pin ∧
      repository.all (fun c ↦ !(['\n', '\r', '\u2028', '\u2029'].contains c)) then
    String.ofList repository
  else image

structure ClusterReconfigureCommandPayloadV3 where
  clusterId : String
  deploymentId : String
  generationId : String
  generationNumber : Nat
  runtimeInstallationId : String
  clusterAppId : String
  mcpAppId : String
  manifestDigest : String
  resourceManifestHash : String
  runtimeResourceInventoryHash : String
  authorizationEpoch : Nat
  configEpoch : Nat
  envVars : List (String × String)
  secretKeys : List String
  resources : Option ContainerResources

structure ClusterUpgradeCommandPayloadV3 where
  clusterId : String
  deploymentId : String
  generationId : String
  generationNumber : Nat
  revision : Nat
  runtimeInstallationId : String
  clusterAppId : String
  mcpAppId : String
  targetManifestDigest : String
  targetImageDigest : String
  previousManifestDigest : String
  previousImageDigest : String
  resourceManifestHash : String
  runtimeResourceInventoryHash : String
  authorizationEpoch : Nat
  resultingAuthorizationEpoch : Nat
  upgradeEpoch : Nat

def protocolError (code : String) (detail : Option String) : JsError :=
  { message := detail.getD code, code := some (.text code) }

namespace RuntimeSwap

open Deployment DeploymentV3

/-- The record of a runtime installation. -/
def findInstallation (workspaceId runtimeInstallationId : String) : Async (Option MasterApp) :=
  Apps.findOne fun app ↦ app.workspaceId == workspaceId && app.kind == some .mcpV3 &&
    app.mcpRuntimeInstallationId == some runtimeInstallationId && app.state != .removed

/-- The active nodes of all replicas. -/
def loadReplicaNodes (app : MasterApp) : Async (List MasterNode) := do
  let nodes ← loadActiveNodes (app.replicas.map (·.nodeId))
  Program.throwIf
    (app.replicas.any (fun replica ↦ !nodes.any (·.nodeId == replica.nodeId)) = true)
    { message := "mcp_replica_node_missing" }
  .pure nodes

/-! ## Reconfigure -/

def reconfigureAffinity (app : MasterApp) (command : ClusterReconfigureCommandPayloadV3) : Bool :=
  app.appId == command.clusterAppId && app.mcpDeploymentId == some command.deploymentId &&
    app.mcpGenerationId == some command.generationId &&
    app.mcpGenerationNumber == some command.generationNumber &&
    app.mcpAppId == some command.mcpAppId && app.manifestDigest == some command.manifestDigest &&
    app.resourceManifestHash == some command.resourceManifestHash &&
    app.runtimeResourceInventoryHash == some command.runtimeResourceInventoryHash &&
    app.mcpAuthorizationEpoch == some command.authorizationEpoch

def appliedKeys (command : ClusterReconfigureCommandPayloadV3) : List String :=
  (command.envVars.map (·.1)).insertionSort fun l r ↦ Json.keyLe l r

def reconfigureBinding (workspaceId : String) (command : ClusterReconfigureCommandPayloadV3)
    (app : MasterApp) (nodeId : String) (replica : AppReplica) : McpV3Binding where
  clusterId := command.clusterId
  nodeId := nodeId
  workspaceId := workspaceId
  deploymentId := command.deploymentId
  generationId := command.generationId
  generationNumber := command.generationNumber
  runtimeInstallationId := command.runtimeInstallationId
  mcpAppId := command.mcpAppId
  replicaId := replica.replicaId
  containerId := replica.containerId
  imageDigest := app.imageDigest
  manifestDigest := command.manifestDigest
  approvalReceiptHash := app.mcpApprovalReceiptHash
  authorizationEpoch := command.authorizationEpoch
  deploymentGrantHash := app.mcpDeploymentGrantHash
  resourceManifestHash := command.resourceManifestHash

/-- What the requests of one reconfigure command have in common. -/
structure Reconfiguration where
  deps : DeploymentDeps
  workspaceId : String
  command : ClusterReconfigureCommandPayloadV3
  app : MasterApp
  nodes : List MasterNode
  secretEnvKeys : List String
  platformEnvVars : List (String × String)

def reconfigureBody (swap : Reconfiguration) (nodeId : String) (replica : AppReplica)
    (resources : ContainerResources) : ReconfigureBody where
  deploy :=
    { appId := swap.app.appId
      workspaceId := swap.workspaceId
      listingId := swap.app.listingId
      versionDigest := swap.app.versionDigest
      image := imageRepositoryOf swap.app.image
      digest := swap.app.imageDigest
      tag := some "latest"
      port := swap.app.port
      resources
      envVars := swap.command.envVars
      volumes := swap.app.volumes
      availabilityTier := some swap.app.availabilityTier
      stateless := some swap.app.stateless
      subdomain := swap.app.subdomain
      domain := swap.deps.baseDomain }
  environment :=
    ⟨swap.platformEnvVars, swap.secretEnvKeys, securityProfileBody swap.deps swap.app.listingId⟩
  configEpoch := swap.command.configEpoch
  runtimeResourceInventoryHash := swap.command.runtimeResourceInventoryHash
  mcpV3Binding := reconfigureBinding swap.workspaceId swap.command swap.app nodeId replica

def requestReconfigure (swap : Reconfiguration) (replica : AppReplica)
    (resources : ContainerResources) : Async AgentResponse :=
  requestNode (AppLifecycle.nodeOf swap.nodes replica.nodeId) swap.workspaceId
    (.mcpV3Reconfigure replica.containerId
      (reconfigureBody swap replica.nodeId replica resources))

/-- Return a resized replica to the resources it had; a failure joins the first one. -/
def rollBackResize (swap : Reconfiguration) (failed : String) (replica : AppReplica) :
    Async Unit := do
  let rollback ← (do
    let response ← requestReconfigure swap replica swap.app.resources
    Program.throwIf (300 ≤ response.status)
      { message := "rollback agent call returned " ++ toString response.status ++ ": " ++
          response.body.json }).settle
  match rollback with
  | .ok _ => .pure ()
  | .error error =>
    .throw { message := "agent MCP v3 reconfigure failed: " ++ failed ++
      "; additionally, rolling back already-resized replica " ++ replica.replicaId ++
      " to its previous resources failed: " ++ error.message }

def reconfigureReplica (swap : Reconfiguration) (done : List (AppReplica × AgentBody))
    (replica : AppReplica) : Async (List (AppReplica × AgentBody)) := do
  let response ← requestReconfigure swap replica (swap.command.resources.getD swap.app.resources)
  if 300 ≤ response.status then do
    Program.onlyIf (swap.command.resources.isSome = true)
      (Program.forEach (rollBackResize swap response.body.json) (done.map (·.1)))
    .throw { message := "agent MCP v3 reconfigure failed: " ++ response.body.json }
  else .pure (done ++ [(replica, response.body)])

/-- Every replica must fit in place: there is no migration. -/
def checkResizeRoom (app : MasterApp) (nodes : List MasterNode) (running : List MasterApp)
    (requested : ContainerResources) : Except JsError Unit :=
  let reservations := (running.filter (·.appId != app.appId)).flatMap fun candidate ↦
    Scheduler.reservationsOf candidate.storageBytes candidate
  let fits (replica : AppReplica) : Bool :=
    (AppLifecycle.nodeOf nodes replica.nodeId).any fun node ↦
      let free := Scheduler.remainingNodeCapacity node reservations
      (requested.memoryMb : Int) ≤ free.memoryMb && requested.cpus ≤ free.cpus
  match app.replicas.find? fun replica ↦ !fits replica with
  | none => .ok ()
  | some replica => .error (schedulingError "CAPACITY_UNAVAILABLE"
      ("node " ++ replica.nodeId ++ " has no room to resize replica " ++ replica.replicaId ++
        " in place"))

structure Reconfigured where
  app : MasterApp
  appliedKeys : List String
  securityProfile : Option (Option String)

/-- The answer to a repeated epoch: the environment and the resources must be the same. -/
def repeatedEpoch (deps : DeploymentDeps) (app : MasterApp)
    (command : ClusterReconfigureCommandPayloadV3) : Except JsError Reconfigured := do
  let operatorEnv ← operatorEnvOf deps.crypto app
  let sameEnv := canonicalJson (.ofRecord operatorEnv) = canonicalJson (.ofRecord command.envVars)
  let sameResources := command.resources.all fun requested ↦
    canonicalJson app.resources.json = canonicalJson requested.json
  if sameEnv ∧ sameResources = true then .ok ⟨app, appliedKeys command, none⟩
  else .error (protocolError "CONFIG_EPOCH_INVALID" (some "epoch_reused"))

/-- The quota and the room for a resize; nothing is asked without new resources. -/
def checkResize (workspaceId : String) (app : MasterApp)
    (resources : Option ContainerResources) : Async (List MasterNode) :=
  match resources with
  | none => loadReplicaNodes app
  | some requested => do
    Quota.assertResizeAllowed workspaceId app requested
    let nodes ← loadReplicaNodes app
    let running ← Apps.find fun app ↦ app.state == .running
    Program.ofExcept (checkResizeRoom app nodes running requested)
    .pure nodes

/-- The record after a configuration epoch has been applied. -/
def reconfiguredAs (command : ClusterReconfigureCommandPayloadV3) (sealed : SealedEnv)
    (appliedAt : Time) (app : MasterApp) : MasterApp :=
  { app with
    envVars := sealed.envVars
    secretEnvKeys := some sealed.secretEnvKeys
    appliedConfigEpoch := some command.configEpoch
    appliedConfigAt := some appliedAt
    updatedAt := appliedAt
    secretEnvVarsEnc := sealed.secretEnvVarsEnc.filter (· ≠ "")
    resources := command.resources.getD app.resources }

def reconfigureConflict : JsError := { message := "mcp_v3_reconfigure_persistence_conflict" }

def applyReconfigure (deps : DeploymentDeps) (workspaceId : String)
    (command : ClusterReconfigureCommandPayloadV3) (app : MasterApp) : Async Reconfigured := do
  let nodes ← checkResize workspaceId app command.resources
  let sealed := sealOperatorEnv deps.crypto command.envVars command.secretKeys
  let platformEnvVars ← platformEnvVarsV3 deps app
  let done ← Program.foldEach
    (reconfigureReplica
      { deps, workspaceId, command, app, nodes, secretEnvKeys := sealed.secretEnvKeys,
        platformEnvVars })
    [] app.replicas
  let appliedAt ← now
  let persisted ← Apps.updateOne
    (fun candidate ↦ AppLifecycle.byId workspaceId app.appId candidate &&
      candidate.appliedConfigEpoch.any (· < command.configEpoch))
    (reconfiguredAs command sealed appliedAt)
  Program.throwIf (persisted.matchedCount ≠ 1) reconfigureConflict
  let reconfigured ← Apps.findOne (AppLifecycle.byId workspaceId app.appId)
  match reconfigured.filter fun app ↦ app.appliedConfigEpoch == some command.configEpoch with
  | none => .throw reconfigureConflict
  | some reconfigured => do
    Program.forSome command.resources fun resources ↦ do
      let eventId ← randomUUID
      LifecycleEvents.insertOne
        { eventId, workspaceId, appId := app.appId, type := .resized, resources, time := appliedAt }
    .pure ⟨reconfigured, appliedKeys command,
      consolidateReportedSecurityProfile (done.map (·.2)) app.replicas.length⟩

def reconfigureMcpV3 (deps : DeploymentDeps) (workspaceId : String)
    (command : ClusterReconfigureCommandPayloadV3) : Async Reconfigured :=
  withWorkspaceLock workspaceId do
    let app ← findInstallation workspaceId command.runtimeInstallationId
    match app with
    | none => .throw (protocolError "RUNTIME_NOT_RECONFIGURABLE" (some "app_not_found"))
    | some app => do
      Program.throwIf (app.state ≠ .running)
        (protocolError "RUNTIME_NOT_RECONFIGURABLE" (some ("state_" ++ app.state.text)))
      Program.throwIf (reconfigureAffinity app command = false)
        (protocolError "GENERATION_AFFINITY_MISMATCH" none)
      Program.throwIf (command.configEpoch < app.appliedConfigEpoch.getD 1)
        (protocolError "CONFIG_EPOCH_INVALID" (some "epoch_downgrade"))
      if command.configEpoch = app.appliedConfigEpoch.getD 1 then
        Program.ofExcept (repeatedEpoch deps app command)
      else applyReconfigure deps workspaceId command app

/-! ## Upgrade -/

def upgradeAffinity (app : MasterApp) (command : ClusterUpgradeCommandPayloadV3) : Bool :=
  app.appId == command.clusterAppId && app.mcpDeploymentId == some command.deploymentId &&
    app.mcpGenerationId == some command.generationId &&
    app.mcpGenerationNumber == some command.generationNumber &&
    app.mcpAppId == some command.mcpAppId &&
    app.resourceManifestHash == some command.resourceManifestHash &&
    app.runtimeResourceInventoryHash == some command.runtimeResourceInventoryHash &&
    (app.mcpAuthorizationEpoch == some command.authorizationEpoch ||
      app.mcpAuthorizationEpoch == some command.resultingAuthorizationEpoch)

structure Upgraded where
  app : MasterApp
  swapStrategy : SwapStrategy
  securityProfile : Option (Option String)

/-- The answer to a repeated revision: exactly the swap that was applied. -/
def repeatedRevision (app : MasterApp) (command : ClusterUpgradeCommandPayloadV3) :
    Except JsError Upgraded :=
  if 0 < app.mcpAppliedRevision.getD 0 ∧ app.manifestDigest = some command.targetManifestDigest ∧
      app.imageDigest = command.targetImageDigest ∧
      app.mcpAppliedUpgradeEpoch = some command.upgradeEpoch then
    .ok ⟨app, app.mcpLastSwapStrategy.getD .stopThenCreate, none⟩
  else .error (protocolError "UPGRADE_EPOCH_INVALID" (some "epoch_reused"))

/-- What the requests of one upgrade command have in common. -/
structure Swap where
  deps : DeploymentDeps
  workspaceId : String
  command : ClusterUpgradeCommandPayloadV3
  app : MasterApp
  approvalReceiptHash : String
  deploymentGrantHash : String
  nodes : List MasterNode
  envVars : List (String × String)
  platformEnvVars : List (String × String)

def upgradeBinding (swap : Swap) (replica : AppReplica) (digest manifestDigest : String) :
    McpV3Binding where
  clusterId := swap.command.clusterId
  nodeId := replica.nodeId
  workspaceId := swap.workspaceId
  deploymentId := swap.command.deploymentId
  generationId := swap.command.generationId
  generationNumber := swap.command.generationNumber
  runtimeInstallationId := swap.command.runtimeInstallationId
  mcpAppId := swap.command.mcpAppId
  replicaId := replica.replicaId
  containerId := replica.containerId
  imageDigest := digest
  manifestDigest := manifestDigest
  approvalReceiptHash := some swap.approvalReceiptHash
  authorizationEpoch := swap.command.resultingAuthorizationEpoch
  deploymentGrantHash := some swap.deploymentGrantHash
  resourceManifestHash := swap.command.resourceManifestHash

def redeployBody (swap : Swap) (replica : AppReplica) (digest manifestDigest : String) :
    RedeployBody where
  workspaceId := swap.workspaceId
  image := imageRepositoryOf swap.app.image
  digest := digest
  versionDigest := swap.app.versionDigest
  resources := .ofResources swap.app.resources
  rolling := none
  managed := some
    { envVars := swap.envVars
      environment := ⟨swap.platformEnvVars, swap.app.secretEnvKeys.getD [],
        securityProfileBody swap.deps swap.app.listingId⟩
      runtimeResourceInventoryHash := swap.command.runtimeResourceInventoryHash
      mcpV3Binding := upgradeBinding swap replica digest manifestDigest
      mcpV3MultiReplica := 1 < swap.app.replicas.length }

def requestRedeploy (swap : Swap) (replica : AppReplica) (digest manifestDigest : String) :
    Async AgentResponse :=
  requestNode (AppLifecycle.nodeOf swap.nodes replica.nodeId) swap.workspaceId
    (.redeploy replica.containerId (redeployBody swap replica digest manifestDigest))

/-- A replica that runs the target image, as its agent answered. -/
structure Swapped where
  replica : AppReplica
  swapStrategy : SwapStrategy
  body : AgentBody

def swapStrategy? (text : Option String) : Option SwapStrategy :=
  if text = some "ROLLING" then some .rolling
  else if text = some "STOP_THEN_CREATE" then some .stopThenCreate
  else none

/-- How the forward swap ended: what was swapped, and the error with the agent's own recovery. -/
structure Forward where
  succeeded : List Swapped
  failure : Option (JsError × Option Bool)

def swapForward (swap : Swap) : List Swapped → List AppReplica → Async Forward
  | succeeded, [] => .pure ⟨succeeded, none⟩
  | succeeded, replica :: rest => do
    let outcome ← (requestRedeploy swap replica swap.command.targetImageDigest
      swap.command.targetManifestDigest).settle
    match outcome with
    | .error error => .pure ⟨succeeded, some (error, none)⟩
    | .ok response =>
      if 300 ≤ response.status then
        .pure ⟨succeeded, some
          ({ message := "agent MCP v3 upgrade failed: " ++ response.body.json },
            response.body.recovered)⟩
      else
        match swapStrategy? response.body.swapStrategy with
        | none =>
          .pure ⟨succeeded, some ({ message := "agent_mcp_v3_upgrade_response_invalid" }, none)⟩
        | some swapStrategy =>
          swapForward swap (succeeded ++ [⟨replica, swapStrategy, response.body⟩]) rest

/-- The record after a swap. -/
def upgradedAs (command : ClusterUpgradeCommandPayloadV3) (image : String)
    (swapStrategy : SwapStrategy) (appliedAt : Time) (app : MasterApp) : MasterApp :=
  { app with
    manifestDigest := some command.targetManifestDigest
    image := image
    imageDigest := command.targetImageDigest
    mcpPreviousManifestDigest := some command.previousManifestDigest
    mcpPreviousImageDigest := some command.previousImageDigest
    mcpAppliedRevision := some command.revision
    mcpAppliedUpgradeEpoch := some command.upgradeEpoch
    mcpAuthorizationEpoch := some command.resultingAuthorizationEpoch
    mcpLastSwapStrategy := some swapStrategy
    updatedAt := appliedAt
    replicas := AppLifecycle.setReplicaStates "running" app.replicas }

/-- Write the swap down; `none` when the record no longer takes it. -/
def persistUpgrade (swap : Swap) (swapStrategy : SwapStrategy) : Async (Option MasterApp) := do
  let appliedAt ← now
  let persisted ← Apps.updateOne
    (fun candidate ↦ AppLifecycle.byId swap.workspaceId swap.app.appId candidate &&
      candidate.mcpAppliedRevision.all (· < swap.command.revision))
    (upgradedAs swap.command
      (imageRepositoryOf swap.app.image ++ "@" ++ swap.command.targetImageDigest)
      swapStrategy appliedAt)
  if persisted.matchedCount ≠ 1 then .pure none
  else do
    let upgraded ← Apps.findOne (AppLifecycle.byId swap.workspaceId swap.app.appId)
    .pure (upgraded.filter fun app ↦ app.mcpAppliedRevision == some swap.command.revision)

/-- The strategy all replicas were swapped with. -/
def commonStrategy (succeeded : List Swapped) : Option SwapStrategy :=
  match succeeded with
  | [] => none
  | first :: rest =>
    if rest.all fun entry ↦ entry.swapStrategy = first.swapStrategy then some first.swapStrategy
    else none

/-- Why an upgrade is reverted. -/
structure UpgradeFailure where
  error : JsError
  persistenceFailed : Bool := false
  recovered : Option Bool := none

/-- The part of an upgrade after the forward swap. -/
def concludeSwap (swap : Swap) (forward : Forward) : Async (Except UpgradeFailure Upgraded) :=
  match forward.failure with
  | some (error, recovered) => .pure (.error { error, recovered })
  | none =>
    match commonStrategy forward.succeeded with
    | none => .pure (.error { error := { message := "mcp_v3_upgrade_swap_strategy_inconsistent" } })
    | some swapStrategy => do
      let persisted ← (persistUpgrade swap swapStrategy).settle
      match persisted with
      | .error error => .pure (.error { error })
      | .ok none => .pure (.error
          { error := { message := "mcp_v3_upgrade_persistence_conflict" }, persistenceFailed := true })
      | .ok (some upgraded) => .pure (.ok ⟨upgraded, swapStrategy,
          consolidateReportedSecurityProfile (forward.succeeded.map (·.body))
            swap.app.replicas.length⟩)

/-- Swap one replica back; the answer is whether the agent confirmed it. -/
def revertReplica (swap : Swap) (entry : Swapped) : Async Bool := do
  let outcome ← (requestRedeploy swap entry.replica swap.command.previousImageDigest
    swap.command.previousManifestDigest).settle
  match outcome with
  | .ok response => .pure (decide (response.status < 300))
  | .error _ => .pure false

/-- Every replica that went forward goes back, and the error says whether all of them did. -/
def revertSwap (swap : Swap) (succeeded : List Swapped) (failure : UpgradeFailure) :
    Async Upgraded := do
  let reverted ← Program.mapEach (revertReplica swap) succeeded
  .throw { failure.error with
    code := some (.text (if failure.persistenceFailed then "MCP_V3_UPGRADE_PERSISTENCE_FAILED"
      else "MCP_V3_UPGRADE_SWAP_FAILED"))
    rolledBack := some (reverted.all id &&
      (failure.persistenceFailed || failure.recovered == some true)) }

def performSwap (swap : Swap) : Async Upgraded := do
  let forward ← swapForward swap [] swap.app.replicas
  let conclusion ← concludeSwap swap forward
  match conclusion with
  | .ok upgraded => .pure upgraded
  | .error failure => revertSwap swap forward.succeeded failure

def applyUpgrade (deps : DeploymentDeps) (workspaceId : String)
    (command : ClusterUpgradeCommandPayloadV3) (app : MasterApp) : Async Upgraded := do
  Program.throwIf (app.manifestDigest ≠ some command.previousManifestDigest ∨
      app.imageDigest ≠ command.previousImageDigest)
    (protocolError "UPGRADE_PREVIOUS_DIGEST_MISMATCH" none)
  Program.throwIf
    (app.mcpApprovalReceiptHash.getD "" = "" ∨ app.mcpDeploymentGrantHash.getD "" = "")
    { message := "mcp_v3_upgrade_generation_record_incomplete" }
  let nodes ← loadReplicaNodes app
  let envVars ← Program.ofExcept (operatorEnvOf deps.crypto app)
  let platformEnvVars ← platformEnvVarsV3 deps app
  performSwap
    { deps, workspaceId, command, app, approvalReceiptHash := app.mcpApprovalReceiptHash.getD "",
      deploymentGrantHash := app.mcpDeploymentGrantHash.getD "", nodes, envVars, platformEnvVars }

def upgradeMcpV3 (deps : DeploymentDeps) (workspaceId : String)
    (command : ClusterUpgradeCommandPayloadV3) : Async Upgraded :=
  withWorkspaceLock workspaceId do
    let app ← findInstallation workspaceId command.runtimeInstallationId
    match app with
    | none => .throw (protocolError "RUNTIME_NOT_UPGRADABLE" (some "app_not_found"))
    | some app => do
      Program.throwIf (app.state ≠ .running)
        (protocolError "RUNTIME_NOT_UPGRADABLE" (some ("state_" ++ app.state.text)))
      Program.throwIf (upgradeAffinity app command = false)
        (protocolError "GENERATION_AFFINITY_MISMATCH" none)
      Program.throwIf (command.revision < app.mcpAppliedRevision.getD 0)
        (protocolError "UPGRADE_EPOCH_INVALID" (some "revision_downgrade"))
      if command.revision = app.mcpAppliedRevision.getD 0 then
        Program.ofExcept (repeatedRevision app command)
      else applyUpgrade deps workspaceId command app

end RuntimeSwap

end PrivosCluster
