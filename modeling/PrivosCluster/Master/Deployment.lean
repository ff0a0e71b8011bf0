import PrivosCluster.Master.AppLifecycle
import PrivosCluster.Master.Placement
import PrivosCluster.Master.RuntimeInventory

/-!
# The deployment service: raw and v2 apps

Deployment of raw apps and of v2 MCP apps, activation of a v2 installation, and the change of
the availability tier. All of it runs under the lock of the workspace.
-/

namespace PrivosCluster

open AsyncProgram

structure DeploymentDeps where
  crypto : Crypto
  baseDomain : String
  noDefaultHost : Bool
  emitAppPublicUrl : Bool
  legacyPublicUrlAlias : Bool
  /-- Runtime security profiles by listing id. -/
  securityProfileAllowlist : List (String × String)
  emitSecurityProfile : Bool
  appHosts : Bool

/-! ## Reserved environment names -/

namespace ReservedEnv

def reservedAgentBotEnvNames : List String :=
  ["PRIVOS_AGENT_BOT_CREDENTIAL", "PRIVOS_AGENT_BOT_USER_ID"]

def isAllowedReservedEnvName (name : String) : Bool := reservedAgentBotEnvNames.contains name

/-- Upper case as far as a prefix of ASCII letters can tell: two more letters map into ASCII. -/
def toUpper (c : Char) : Char :=
  if c.toNat = 0x131 then 'I' else if c.toNat = 0x17F then 'S' else c.toUpper

/-- A `PRIVOS_*` name that a caller-supplied environment may not carry. -/
def isRefusedEnvName (name : String) : Bool :=
  "PRIVOS_".toList.isPrefixOf (name.toList.map toUpper) && !isAllowedReservedEnvName name

end ReservedEnv

/-! ## The deployment request -/

structure RawDeploy where
  appId : Option String := none
  listingId : String
  versionDigest : String
  image : String
  digest : String
  tag : Option String := none
  port : Option Nat := none
  memoryMb : Nat
  cpus : Rat
  tmpSizeMb : Option Nat := none
  envVars : Option (List (String × String)) := none
  volumes : Option (List Volume) := none
  availabilityTier : Option AvailabilityTier := none
  stateless : Option Bool := none

structure DeployInput where
  appId : Option String
  listingId : String
  versionDigest : String
  image : String
  digest : String
  tag : String
  port : Nat
  resources : ContainerResources
  envVars : List (String × String)
  volumes : List Volume
  availabilityTier : AvailabilityTier
  stateless : Bool

namespace DeploySchema

open Schema

def isShortText (s : String) : Bool := 1 ≤ lengthOf s && lengthOf s ≤ 128

def isVolume (volume : Volume) : Bool :=
  volume.name == "data" && "/".toList.isPrefixOf volume.mountPath.toList &&
    volume.sizeMb.all (0 < ·)

/-- The defaults of the schema. -/
def fill (raw : RawDeploy) : DeployInput where
  appId := raw.appId
  listingId := raw.listingId
  versionDigest := raw.versionDigest
  image := raw.image
  digest := raw.digest
  tag := raw.tag.getD "latest"
  port := raw.port.getD 3001
  resources := ⟨raw.memoryMb, raw.cpus, raw.tmpSizeMb.getD 64⟩
  envVars := raw.envVars.getD []
  volumes := raw.volumes.getD []
  availabilityTier := raw.availabilityTier.getD .single
  stateless := raw.stateless.getD false

/-- Each checked path with its condition. -/
def checks (input : DeployInput) : List (String × Bool) :=
  [("appId", input.appId.all isShortText),
    ("listingId", isShortText input.listingId),
    ("versionDigest", isDigest input.versionDigest),
    ("image", 1 ≤ lengthOf input.image),
    ("digest", isDigest input.digest),
    ("port", 1 ≤ input.port && input.port ≤ 65535),
    ("resources.memoryMb", 64 ≤ input.resources.memoryMb && input.resources.memoryMb ≤ 16384),
    ("resources.cpus", 1 / 10 ≤ input.resources.cpus && input.resources.cpus ≤ 16),
    ("resources.tmpSizeMb", 16 ≤ input.resources.tmpSizeMb && input.resources.tmpSizeMb ≤ 4096),
    ("envVars", !input.envVars.any fun entry ↦ ReservedEnv.isRefusedEnvName entry.1),
    ("volumes", input.volumes.length ≤ 1 && input.volumes.all isVolume)]

def parse (raw : RawDeploy) : Except JsError DeployInput :=
  match (checks (fill raw)).find? fun check ↦ !check.2 with
  | some check => .error (schemaError check.1)
  | none => .ok (fill raw)

end DeploySchema

namespace DeployInput

def storageBytes (input : DeployInput) : Nat :=
  (input.volumes.head?.bind (·.sizeMb)).getD 0 * 1024 * 1024

def replicaCount (input : DeployInput) : Nat := if input.availabilityTier = .ha then 2 else 1

/-- `{ ...input, appId, workspaceId, subdomain, domain }` -/
def body (input : DeployInput) (appId workspaceId : String) (subdomain : Option String)
    (domain : String) : DeployBody where
  appId := appId
  workspaceId := workspaceId
  listingId := input.listingId
  versionDigest := input.versionDigest
  image := input.image
  digest := input.digest
  tag := some input.tag
  port := input.port
  resources := input.resources
  envVars := input.envVars
  volumes := input.volumes
  availabilityTier := some input.availabilityTier
  stateless := some input.stateless
  subdomain := subdomain
  domain := domain

end DeployInput

/-! ## Grants -/

structure McpDeployment where
  appId : String
  listingId : String
  versionDigest : String
  image : String
  imageDigest : String
  manifestDigest : String
  port : Nat
  resources : ContainerResources
  envVars : List (String × String)
  volumes : List Volume
  availabilityTier : AvailabilityTier
  stateless : Bool
  subdomain : Option String

structure McpDeploymentGrantPayload where
  clusterId : String
  workspaceId : String
  installationId : String
  mcpAppId : String
  receiptHash : String
  grantEpoch : Nat
  hubOrigin : String
  deployment : McpDeployment

def McpDeployment.raw (deployment : McpDeployment) : RawDeploy where
  appId := some deployment.appId
  listingId := deployment.listingId
  versionDigest := deployment.versionDigest
  image := deployment.image
  digest := deployment.imageDigest
  tag := some "latest"
  port := some deployment.port
  memoryMb := deployment.resources.memoryMb
  cpus := deployment.resources.cpus
  tmpSizeMb := some deployment.resources.tmpSizeMb
  envVars := some deployment.envVars
  volumes := some deployment.volumes
  availabilityTier := some deployment.availabilityTier
  stateless := some deployment.stateless

namespace Deployment

def statefulHa : JsError :=
  { message := "stateful apps cannot run in HA", code := some (.text "HA_REQUIRES_STATELESS_APP") }

/-- The active nodes, and the apps whose replicas hold capacity on them. -/
def loadFleet : Async (List MasterNode × List MasterApp) :=
  promiseBoth (Nodes.find fun node ↦ node.status == .active)
    (Apps.find fun app ↦ app.state == .running)

/-- The checks before a fresh deployment, and the nodes for its replicas. -/
def place (workspaceId : String) (input : DeployInput) : Async (List MasterNode) := do
  Program.throwIf (input.availabilityTier = .ha ∧ input.stateless = false) statefulHa
  Quota.assertDeployAllowed workspaceId input.resources input.replicaCount
  let (nodes, existingApps) ← loadFleet
  Program.ofExcept (Scheduler.selectNodes nodes
    (existingApps.flatMap fun app ↦ Scheduler.reservationsOf app.storageBytes app)
    input.resources input.storageBytes input.replicaCount)

def ingressUpsert (subdomain : String) (nodes : List MasterNode) : Async Unit :=
  awaitCall (.service (.ingressUpsert subdomain (nodes.map (·.nodeId))))

def allocateSubdomain (listingId workspaceId : String) : Async String :=
  awaitCall (.service (.allocateSubdomain listingId workspaceId))

/-- `Promise.allSettled` over the deletions of the containers made so far. -/
def undoReplicas (workspaceId : String) (nodes : List MasterNode) (replicas : List AppReplica) :
    Async Unit := do
  let _ ← promiseAll (replicas.map fun replica ↦
    (requestNode (AppLifecycle.nodeOf nodes replica.nodeId) workspaceId
      (.remove replica.containerId)).settle)
  .pure ()

def isDuplicateKey (error : JsError) : Bool := error.code == some (.number 11000)

/-- A write whose duplicate key error means that it was made before. -/
def tolerateDuplicate (write : Async Unit) : Async Unit :=
  Program.tryCatch write fun error ↦ if isDuplicateKey error then .pure () else .throw error

/-- Open the billable interval of an app. -/
def recordAppInstalledEvent (app : MasterApp) (time : Time) : Async Unit :=
  tolerateDuplicate (LifecycleEvents.insertOne
    { eventId := "installed:" ++ app.appId ++ ":" ++ toString time
      workspaceId := app.workspaceId
      appId := app.appId
      type := .installed
      resources := app.resources
      storageBytes := some app.storageBytes
      replicaCount := some (max app.replicas.length 1)
      time })

/-- The record of a raw or v2 app whose containers have been made. -/
def recordOf (deps : DeploymentDeps) (workspaceId appId : String) (input : DeployInput)
    (subdomain : String) (replicas : List AppReplica) (state : AppState) (time : Time) :
    MasterApp where
  appId := appId
  workspaceId := workspaceId
  listingId := input.listingId
  versionDigest := input.versionDigest
  image := input.image
  imageDigest := input.digest
  resources := input.resources
  port := input.port
  envVars := input.envVars
  volumes := input.volumes
  storageBytes := input.storageBytes
  availabilityTier := input.availabilityTier
  stateless := input.stateless
  subdomain := some subdomain
  uiUrl := some ("https://" ++ subdomain ++ "." ++ deps.baseDomain)
  replicas := replicas
  state := state
  createdAt := time
  updatedAt := time

/-! ## Raw apps -/

/-- One replica of a raw app. A member the agent leaves out of its answer is stored as empty. -/
def deployReplica (deps : DeploymentDeps) (workspaceId appId subdomain : String)
    (input : DeployInput) (node : MasterNode) : Async AppReplica := do
  let response ← request node workspaceId
    (.deploy (input.body appId workspaceId (some subdomain) deps.baseDomain))
  Program.throwIf (300 ≤ response.status)
    { message := "agent deploy failed: " ++ response.body.json }
  let replicaId ← randomUUID
  .pure { replicaId, nodeId := node.nodeId, containerId := response.body.id.getD "",
          state := response.body.state.getD "" }

def deployToNodes (deps : DeploymentDeps) (workspaceId : String) (input : DeployInput)
    (nodes : List MasterNode) : Async MasterApp := do
  let appId ← input.appId.elim randomUUID .pure
  let subdomain ← allocateSubdomain input.listingId workspaceId
  let (replicas, failure) ←
    Program.collectEach (deployReplica deps workspaceId appId subdomain input) [] nodes
  let outcome ← (failure.elim (ingressUpsert subdomain nodes) .throw).settle
  match outcome with
  | .error error => do
    undoReplicas workspaceId nodes replicas
    .throw error
  | .ok _ => do
    let time ← now
    let app := recordOf deps workspaceId appId input subdomain replicas .running time
    Apps.insertOne app
    AppLifecycle.insertReplicaEvents workspaceId app replicas .started input.resources
      (some input.storageBytes) time
    recordAppInstalledEvent app time
    .pure app

/-- The app a deployment request with an app id repeats. -/
def findDeployed (workspaceId : String) (input : DeployInput) : Async (Option MasterApp) :=
  match input.appId with
  | none => .pure none
  | some appId => Apps.findOne fun app ↦ app.workspaceId == workspaceId &&
      (app.appId == appId || app.listingId == input.listingId) && app.state != .removed

def deploy (deps : DeploymentDeps) (workspaceId : String) (raw : RawDeploy) : Async MasterApp := do
  let input ← Program.ofExcept (DeploySchema.parse raw)
  withWorkspaceLock workspaceId do
    let existing ← findDeployed workspaceId input
    match existing with
    | some existing => .pure existing
    | none => do
      let selected ← place workspaceId input
      deployToNodes deps workspaceId input selected

/-! ## MCP v2 apps -/

def mcpBinding (grant : McpDeploymentGrantPayload) (workspaceId deploymentGrantHash : String)
    (hubIdentity : HubIdentity) (nodeId replicaId : String) : McpBinding where
  clusterId := grant.clusterId
  nodeId := nodeId
  workspaceId := workspaceId
  installationId := grant.installationId
  mcpAppId := grant.mcpAppId
  replicaId := replicaId
  imageDigest := grant.deployment.imageDigest
  manifestDigest := grant.deployment.manifestDigest
  receiptHash := grant.receiptHash
  grantEpoch := grant.grantEpoch
  deploymentGrantHash := deploymentGrantHash
  hubOrigin := grant.hubOrigin
  hub := hubIdentity

/-- The identity of the node that answers, proved by the thumbprint of its key. -/
def checkNodeIdentity (crypto : Crypto) (node : MasterNode) (body : AgentBody) :
    Except JsError McpNodeIdentity :=
  let invalid : Except JsError McpNodeIdentity := .error { message := "agent_node_identity_invalid" }
  match body.nodeIdentity with
  | none => invalid
  | some identity =>
    if identity.nodeId ≠ some node.nodeId then invalid
    else
      match identity.publicJwk with
      | none => .error { message := "Cannot read properties of undefined (reading 'kty')" }
      | some publicJwk =>
        match crypto.jwkThumbprint? publicJwk with
        | none => .error { message := "public_jwk_invalid" }
        | some kid => if identity.kid = some kid then .ok ⟨kid, publicJwk⟩ else invalid

def deployMcpReplica (deps : DeploymentDeps) (workspaceId appId subdomain : String)
    (input : DeployInput) (grant : McpDeploymentGrantPayload) (deploymentGrantHash : String)
    (hubIdentity : HubIdentity) (node : MasterNode) : Async AppReplica := do
  let replicaId ← randomUUID
  let response ← request node workspaceId
    (.mcpDeploy (input.body appId workspaceId (some subdomain) deps.baseDomain)
      (mcpBinding grant workspaceId deploymentGrantHash hubIdentity node.nodeId replicaId))
  Program.throwIf (300 ≤ response.status)
    { message := "agent MCP deploy failed: " ++ response.body.json }
  let identity ← Program.ofExcept (checkNodeIdentity deps.crypto node response.body)
  let time ← now
  let _ ← Nodes.updateOne (fun candidate ↦ candidate.nodeId == node.nodeId) fun node ↦
    { node with
      mcpIdentityKid := some identity.kid
      mcpIdentityPublicJwk := some identity.publicJwk
      updatedAt := time }
  .pure { replicaId, nodeId := node.nodeId, containerId := response.body.id.getD "",
          state := response.body.state.getD "", mcpNodeIdentity := some identity }

/-- The record of a v2 app before its activation. -/
def mcpRecordOf (deps : DeploymentDeps) (workspaceId appId : String) (input : DeployInput)
    (grant : McpDeploymentGrantPayload) (subdomain : String) (replicas : List AppReplica)
    (time : Time) : MasterApp :=
  { recordOf deps workspaceId appId input subdomain replicas .quarantined time with
    kind := some .mcpV2
    mcpInstallationId := some grant.installationId
    mcpAppId := some grant.mcpAppId
    manifestDigest := some grant.deployment.manifestDigest
    receiptHash := some grant.receiptHash
    grantEpoch := some grant.grantEpoch }

def deployMcpToNodes (deps : DeploymentDeps) (workspaceId : String) (input : DeployInput)
    (grant : McpDeploymentGrantPayload) (deploymentGrantHash : String) (hubIdentity : HubIdentity)
    (nodes : List MasterNode) : Async MasterApp := do
  let appId := grant.deployment.appId
  let subdomain ← grant.deployment.subdomain.elim (allocateSubdomain input.listingId workspaceId) .pure
  let (replicas, failure) ← Program.collectEach
    (deployMcpReplica deps workspaceId appId subdomain input grant deploymentGrantHash hubIdentity)
    [] nodes
  match failure with
  | some error => do
    undoReplicas workspaceId nodes replicas
    .throw error
  | none => do
    let time ← now
    let app := mcpRecordOf deps workspaceId appId input grant subdomain replicas time
    Apps.insertOne app
    AppLifecycle.insertReplicaEvents workspaceId app replicas .started input.resources
      (some input.storageBytes) time
    .pure app

/-- The record an existing installation must agree with. -/
def matchesGrant (existing : MasterApp) (grant : McpDeploymentGrantPayload) : Bool :=
  existing.imageDigest == grant.deployment.imageDigest &&
    existing.manifestDigest == some grant.deployment.manifestDigest &&
    existing.receiptHash == some grant.receiptHash && existing.grantEpoch == some grant.grantEpoch

def deployMcp (deps : DeploymentDeps) (workspaceId : String) (grant : McpDeploymentGrantPayload)
    (deploymentGrantHash : String) (hubIdentity : HubIdentity) : Async MasterApp := do
  let input ← Program.ofExcept (DeploySchema.parse grant.deployment.raw)
  withWorkspaceLock workspaceId do
    let existing ← Apps.findOne fun app ↦ app.workspaceId == workspaceId &&
      app.mcpInstallationId == some grant.installationId && app.state != .removed
    match existing with
    | some existing => do
      Program.throwIf (matchesGrant existing grant = false)
        { message := "existing_mcp_installation_binding_mismatch" }
      .pure existing
    | none => do
      let selected ← place workspaceId input
      deployMcpToNodes deps workspaceId input grant deploymentGrantHash hubIdentity selected

structure McpActivation where
  installationId : String
  receiptHash : String
  grantEpoch : Nat

/-- The record as an activation leaves it. -/
def activatedAs (activatedAt : Time) (app : MasterApp) : MasterApp :=
  { app with state := .running, updatedAt := activatedAt }

def activateMcp (workspaceId : String) (input : McpActivation) : Async MasterApp :=
  withWorkspaceLock workspaceId do
    let app ← Apps.findOne fun app ↦ app.workspaceId == workspaceId &&
      app.mcpInstallationId == some input.installationId && app.kind == some .mcpV2
    match app with
    | none => .throw { message := "MCP app not found", statusCode := some 404 }
    | some app => do
      Program.throwIf
        (app.receiptHash ≠ some input.receiptHash ∨ app.grantEpoch ≠ some input.grantEpoch)
        { message := "mcp_activation_binding_mismatch" }
      if app.state = .running then .pure app
      else do
        Program.throwIf (app.state ≠ .quarantined) { message := "mcp_app_not_quarantined" }
        let nodes ← AppLifecycle.loadNodes (app.replicas.map (·.nodeId))
        Program.throwIf (nodes.length ≠ app.replicas.length)
          { message := "mcp_replica_node_missing" }
        ingressUpsert (app.subdomain.getD "undefined") nodes
        let activatedAt ← now
        let activated ← Apps.updateOne
          (fun candidate ↦ candidate.appId == app.appId && candidate.state == .quarantined)
          (activatedAs activatedAt)
        Program.onlyIf (activated.matchedCount = 1) (recordAppInstalledEvent app activatedAt)
        .pure (activatedAs activatedAt app)

/-! ## The availability tier -/

def tierEvent (workspaceId : String) (app : MasterApp) (replicaCount : Nat) (time : Time) :
    Async Unit := do
  let eventId ← randomUUID
  LifecycleEvents.insertOne
    { eventId, workspaceId, appId := app.appId, type := .replicasChanged, resources := app.resources,
      replicaCount := some replicaCount, time }

/-- The body of a second replica leaves the tag, the tier and the statelessness out. -/
def secondReplicaBody (deps : DeploymentDeps) (workspaceId : String) (app : MasterApp) :
    DeployBody where
  appId := app.appId
  workspaceId := workspaceId
  listingId := app.listingId
  versionDigest := app.versionDigest
  image := app.image
  digest := app.imageDigest
  tag := none
  port := app.port
  resources := app.resources
  envVars := app.envVars
  volumes := []
  availabilityTier := none
  stateless := none
  subdomain := app.subdomain
  domain := deps.baseDomain

/-- A node for the second replica, apart from the nodes that hold one. -/
def selectSecondNode (nodes : List MasterNode) (runningApps : List MasterApp) (app : MasterApp) :
    Except JsError MasterNode :=
  let occupiedNodes := app.replicas.map (·.nodeId)
  let occupiedDomains :=
    (nodes.filter fun node ↦ occupiedNodes.contains node.nodeId).map (·.failureDomain)
  let free := nodes.filter fun node ↦
    !occupiedNodes.contains node.nodeId && !occupiedDomains.contains node.failureDomain
  match Scheduler.selectNodes free (runningApps.flatMap (Scheduler.reservationsOf 0))
    app.resources 0 1 with
  | .ok (node :: _) => .ok node
  | _ => .error
      { message := "HA requires a second active app node in a distinct failure domain with capacity",
        code := some (.text "HA_CAPACITY_UNAVAILABLE") }

def raisedAs (replica : AppReplica) (time : Time) (app : MasterApp) : MasterApp :=
  { app with availabilityTier := .ha, updatedAt := time, replicas := app.replicas ++ [replica] }

def loweredAs (keep : AppReplica) (time : Time) (app : MasterApp) : MasterApp :=
  { app with availabilityTier := .single, replicas := [keep], updatedAt := time }

def raiseTier (deps : DeploymentDeps) (workspaceId appId : String) (app : MasterApp) :
    Async Unit := do
  Program.throwIf (app.stateless = false) statefulHa
  Quota.assertAdditionalReplicaAllowed workspaceId app.resources
  let (nodes, runningApps) ← loadFleet
  let node ← Program.ofExcept (selectSecondNode nodes runningApps app)
  let response ← request node workspaceId (.deploy (secondReplicaBody deps workspaceId app))
  Program.throwIf (300 ≤ response.status)
    { message := "agent deploy failed: " ++ response.body.json }
  let replicaId ← randomUUID
  let replica : AppReplica :=
    { replicaId, nodeId := node.nodeId, containerId := response.body.id.getD "",
      state := response.body.state.getD "" }
  let time ← now
  ingressUpsert (app.subdomain.getD "undefined")
    (nodes.filter (fun node ↦ (app.replicas.map (·.nodeId)).contains node.nodeId) ++ [node])
  let _ ← Apps.updateOne (AppLifecycle.byId workspaceId appId) (raisedAs replica time)
  let eventId ← randomUUID
  LifecycleEvents.insertOne
    { eventId, workspaceId, appId, replicaId := some replicaId, type := .started,
      resources := app.resources, time }
  tierEvent workspaceId app (app.replicas.length + 1) time

def dropReplica (workspaceId : String) (nodes : List MasterNode) (replica : AppReplica) :
    Async Unit :=
  match AppLifecycle.nodeOf nodes replica.nodeId with
  | none => .throw { message := "node not found: " ++ replica.nodeId }
  | some node => do
    let response ← request node workspaceId (.remove replica.containerId)
    Program.throwIf (300 ≤ response.status ∧ response.status ≠ 404)
      { message := "agent remove failed: " ++ response.body.json }

def lowerTier (workspaceId appId : String) (app : MasterApp) : Async Unit :=
  match app.replicas with
  | [] => .throw { message := "app has no replicas" }
  | keep :: remove => do
    let nodes ← AppLifecycle.loadNodes (app.replicas.map (·.nodeId))
    Program.forEach (dropReplica workspaceId nodes) remove
    let time ← now
    ingressUpsert (app.subdomain.getD "undefined") (nodes.filter (·.nodeId == keep.nodeId))
    let _ ← Apps.updateOne (AppLifecycle.byId workspaceId appId) (loweredAs keep time)
    Program.onlyIf (remove ≠ []) do
      AppLifecycle.insertReplicaEvents workspaceId app remove .removed app.resources none time
      tierEvent workspaceId app 1 time

def applyTier (deps : DeploymentDeps) (workspaceId appId : String) (app : MasterApp)
    (availabilityTier : AvailabilityTier) : Async Unit :=
  if availabilityTier = .ha then raiseTier deps workspaceId appId app
  else lowerTier workspaceId appId app

def changeAvailabilityTier (deps : DeploymentDeps) (workspaceId appId : String)
    (availabilityTier : AvailabilityTier) : Async (Option MasterApp) :=
  withWorkspaceLock workspaceId do
    let app ← Apps.findOne fun app ↦ AppLifecycle.byId workspaceId appId app && app.state != .removed
    match app with
    | none => .throw { message := "app not found", statusCode := some 404 }
    | some app => do
      Program.throwIf (app.kind = some .mcpV2 ∨ app.kind = some .mcpV3)
        { message := "MCP availability changes require a new signed deployment grant",
          code := some (.text "MCP_SIGNED_REDEPLOYMENT_REQUIRED") }
      if app.availabilityTier = availabilityTier then .pure (some app)
      else do
        Program.throwIf (app.state ≠ .running)
          { message := "app must be running before changing availability tier",
            code := some (.text "APP_NOT_RUNNING") }
        applyTier deps workspaceId appId app availabilityTier
        Apps.findOne (AppLifecycle.byId workspaceId appId)

end Deployment

end PrivosCluster
