import PrivosCluster.Master.RuntimeSwap

/-!
# The upgrade route of the Hub

The handler of an upgrade command from the moment the command is verified: it inspects the target
image, asks the deployment service to swap, and signs what came of it for the Hub.
-/

namespace PrivosCluster

open AsyncProgram RuntimeSwap

namespace Schema

/-- What `toISOString` writes is a date-time of the schema library in the years 0 to 9999. -/
def isDatetime (time : Time) : Bool := -62167219200000 ≤ time && time ≤ 253402300799999

end Schema

open Schema

/-! ## Reasons for the log and for the Hub -/

/-- `SAFE_CODE`: `/^[a-z][a-z0-9_]{1,63}$/` -/
def isSafeCode (s : String) : Bool :=
  match s.toList with
  | [] => false
  | first :: rest => first.isLower && 1 ≤ rest.length && rest.length ≤ 63 &&
      rest.all fun c ↦ c.isLower || c.isDigit || c == '_'

/-- The message in lower case, unless it is no code. -/
def clusterMcpSafeReason (toLowerCase : String → String) (error : JsError) (fallback : String) :
    String :=
  let candidate := toLowerCase error.message
  if isSafeCode candidate then candidate else fallback

/-- `errorCode.toUpperCase().replace(/[^A-Z0-9_]/g, '_')` -/
def acknowledgedCode (reason : String) : String :=
  String.ofList (reason.toUpper.toList.map fun c ↦ if isReasonChar c then c else '_')

/-! ## The artifacts -/

/-- A command as it is consumed; a UUID is its 128 bits. -/
structure ConsumedUpgradeCommand extends ClusterUpgradeCommandPayloadV3 where
  operationId : BitVec 128
  workspaceId : String

/-- `ClusterUpgradeCommandPayloadV3Schema` -/
def isUpgradeCommand (command : ConsumedUpgradeCommand) : Bool :=
  [command.clusterId, command.workspaceId, command.deploymentId, command.generationId,
    command.runtimeInstallationId, command.clusterAppId, command.mcpAppId].all isIdentifier &&
  [command.targetManifestDigest, command.targetImageDigest, command.previousManifestDigest,
    command.previousImageDigest].all isDigest &&
  [command.resourceManifestHash, command.runtimeResourceInventoryHash].all isArtifactHash &&
  [command.generationNumber, command.revision, command.authorizationEpoch,
    command.resultingAuthorizationEpoch, command.upgradeEpoch].all (0 < ·) &&
  command.resultingAuthorizationEpoch == command.authorizationEpoch + 1 &&
  command.upgradeEpoch == command.revision &&
  command.targetManifestDigest != command.previousManifestDigest &&
  command.targetImageDigest != command.previousImageDigest

inductive UpgradeState where
  | upgraded
  | rolledBack
  | failed
  | refused
deriving DecidableEq

structure UpgradeAcknowledgementInput where
  operationId : BitVec 128
  clusterId : String
  workspaceId : String
  deploymentId : String
  generationId : String
  generationNumber : Nat
  revision : Nat
  runtimeInstallationId : String
  clusterAppId : String
  runningManifestDigest : String
  runningImageDigest : String
  resourceManifestHash : String
  runtimeResourceInventoryHash : String
  upgradeEpoch : Nat
  swapStrategy : SwapStrategy
  state : UpgradeState
  upgradedAt : Option Time
  errorCode : Option String

structure ClusterUpgradeAcknowledgementPayloadV3 extends UpgradeAcknowledgementInput where
  iss : String
  jti : BitVec 128
  nonce : BitVec 192
  iat : Int
  exp : Int

/-- `ClusterUpgradeAcknowledgementPayloadV3Schema` -/
def isUpgradeAcknowledgement (payload : ClusterUpgradeAcknowledgementPayloadV3) : Bool :=
  [payload.iss, payload.clusterId, payload.workspaceId, payload.deploymentId, payload.generationId,
    payload.runtimeInstallationId, payload.clusterAppId].all isIdentifier &&
  [payload.generationNumber, payload.revision, payload.upgradeEpoch].all (0 < ·) &&
  [payload.runningManifestDigest, payload.runningImageDigest].all isDigest &&
  [payload.resourceManifestHash, payload.runtimeResourceInventoryHash].all isArtifactHash &&
  payload.upgradedAt.all isDatetime && payload.errorCode.all isSafeReasonCode &&
  (payload.upgradedAt.isSome == (payload.state == .upgraded))

structure SignedAcknowledgement where
  payload : ClusterUpgradeAcknowledgementPayloadV3
  compact : String
  artifactHash : String
  kid : String

/-! ## The services of the route -/

structure InspectRequest where
  nodeId : String
  workspaceId : String
  image : String
  digest : String

structure InspectedImage where
  imageDigest : Option String
  manifestDigest : Option String

/-- The answer to an inspection; the body is absent when it is JSON `null`. -/
structure InspectResponse where
  status : Nat
  body : Option InspectedImage

structure HubRouteDeps where
  deployment : DeploymentDeps
  clusterId : String
  /-- The signing identity of the cluster, loaded once: its key id. -/
  identity : Except JsError String
  signEs256Jws : ClusterUpgradeAcknowledgementPayloadV3 → String
  toLowerCase : String → String
  /-- What the agent does with an inspection, which changes no container. -/
  inspect : InspectRequest → Except JsError InspectResponse
  /-- The random parts of the acknowledgement a request is answered with. -/
  jti : BitVec 128
  nonce : BitVec 192

structure UpgradeReply where
  status : Nat
  error : Option String := none
  state : Option UpgradeState := none
  clusterAppId : Option String := none
  runtimeInstallationId : Option String := none
  revision : Option Nat := none
  publicUrl : Option String := none
  securityProfile : Option (Option String) := none
  acknowledgement : Option SignedAcknowledgement := none

namespace UpgradeRoute

def issuerOf (deps : HubRouteDeps) : String := "urn:privos:app-cluster:" ++ deps.clusterId

/-- The payload that is signed at a time, for five minutes. -/
def payloadOf (deps : HubRouteDeps) (input : UpgradeAcknowledgementInput) (time : Time) :
    ClusterUpgradeAcknowledgementPayloadV3 :=
  { input with
    iss := issuerOf deps
    jti := deps.jti
    nonce := deps.nonce
    iat := time / 1000
    exp := time / 1000 + 300 }

def signUpgradeAcknowledgement (deps : HubRouteDeps) (input : UpgradeAcknowledgementInput) :
    Async SignedAcknowledgement := do
  Program.throwIf (input.clusterId ≠ deps.clusterId)
    { message := "cluster_acknowledgement_affinity_mismatch" }
  let kid ← Program.ofExcept deps.identity
  let time ← now
  Program.throwIf (isUpgradeAcknowledgement (payloadOf deps input time) = false)
    { message := "invalid acknowledgement" }
  .pure
    { payload := payloadOf deps input time
      compact := deps.signEs256Jws (payloadOf deps input time)
      artifactHash :=
        deps.deployment.crypto.sha256Base64Url (deps.signEs256Jws (payloadOf deps input time))
      kid }

/-- The members that every acknowledgement of a command restates. -/
def acknowledge (command : ConsumedUpgradeCommand) (runningManifestDigest runningImageDigest : String)
    (swapStrategy : SwapStrategy) (state : UpgradeState) (upgradedAt : Option Time)
    (errorCode : Option String) : UpgradeAcknowledgementInput where
  operationId := command.operationId
  clusterId := command.clusterId
  workspaceId := command.workspaceId
  deploymentId := command.deploymentId
  generationId := command.generationId
  generationNumber := command.generationNumber
  revision := command.revision
  runtimeInstallationId := command.runtimeInstallationId
  clusterAppId := command.clusterAppId
  runningManifestDigest := runningManifestDigest
  runningImageDigest := runningImageDigest
  resourceManifestHash := command.resourceManifestHash
  runtimeResourceInventoryHash := command.runtimeResourceInventoryHash
  upgradeEpoch := command.upgradeEpoch
  swapStrategy := swapStrategy
  state := state
  upgradedAt := upgradedAt
  errorCode := errorCode

/-- Any end but UPGRADED is signed over the record as it is now, or else as it was read first. -/
def signRefusalAcknowledgement (deps : HubRouteDeps) (workspaceId runtimeInstallationId : String)
    (command : ConsumedUpgradeCommand) (app : MasterApp) (state : UpgradeState) (errorCode : String) :
    Async SignedAcknowledgement := do
  let current ← findInstallation workspaceId runtimeInstallationId
  let currentApp := current.getD app
  signUpgradeAcknowledgement deps (acknowledge command
    (currentApp.manifestDigest.getD command.previousManifestDigest) currentApp.imageDigest
    (currentApp.mcpLastSwapStrategy.getD .stopThenCreate) state none (some errorCode))

/-- The image reference without its pin: `app.image.replace(/@sha256:[a-f0-9]{64}$/, '')`. -/
def withoutPin (image : String) : String :=
  let chars := image.toList
  if 72 ≤ chars.length ∧ chars[chars.length - 72]? = some '@' ∧
      isDigest (String.ofList (chars.drop (chars.length - 71))) then
    String.ofList (chars.take (chars.length - 72))
  else image

/-- The state a failed upgrade is acknowledged with. -/
def stateOf (error : JsError) : UpgradeState :=
  if error.code = some (.text "MCP_V3_UPGRADE_SWAP_FAILED") ∨
      error.code = some (.text "MCP_V3_UPGRADE_PERSISTENCE_FAILED") then
    if error.rolledBack = some true then .rolledBack else .failed
  else .refused

def conflict (command : ConsumedUpgradeCommand) (state : UpgradeState) (error : Option String)
    (acknowledgement : SignedAcknowledgement) : UpgradeReply where
  status := 409
  error := error
  state := some state
  clusterAppId := some command.clusterAppId
  runtimeInstallationId := some command.runtimeInstallationId
  revision := some command.revision
  acknowledgement := some acknowledgement

/-- The swap itself, and the acknowledgement of its outcome. -/
def applyCommand (deps : HubRouteDeps) (workspaceId runtimeInstallationId : String)
    (command : ConsumedUpgradeCommand) (app : MasterApp) : Async UpgradeReply := do
  let applied ← (upgradeMcpV3 deps.deployment workspaceId
    command.toClusterUpgradeCommandPayloadV3).settle
  match applied with
  | .error error => do
    let acknowledgement ← signRefusalAcknowledgement deps workspaceId runtimeInstallationId command
      app (stateOf error) (acknowledgedCode (clusterMcpSafeReason deps.toLowerCase error
        "upgrade_failed"))
    .pure (conflict command (stateOf error) none acknowledgement)
  | .ok applied => do
    let acknowledgement ← signUpgradeAcknowledgement deps (acknowledge command
      (applied.app.manifestDigest.getD command.targetManifestDigest) applied.app.imageDigest
      applied.swapStrategy .upgraded (some applied.app.updatedAt) none)
    .pure
      { status := 200
        state := some .upgraded
        clusterAppId := some applied.app.appId
        runtimeInstallationId := some runtimeInstallationId
        revision := some command.revision
        publicUrl := DeploymentV3.publicUrlFor deps.deployment applied.app.subdomain
        securityProfile := applied.securityProfile
        acknowledgement := some acknowledgement }

def upgrade (deps : HubRouteDeps) (workspaceId runtimeInstallationId : String)
    (command : ConsumedUpgradeCommand) : Async UpgradeReply := do
  let app ← findInstallation workspaceId runtimeInstallationId
  match app with
  | none => .pure { status := 404, error := some "mcp_v3_runtime_not_found" }
  | some app => do
    let node ← awaitCall (.nodes (.findOne fun node ↦ node.status == .active))
    match node with
    | none => do
      let acknowledgement ← signRefusalAcknowledgement deps workspaceId runtimeInstallationId command
        app .refused "CAPACITY_UNAVAILABLE"
      .pure (conflict command .refused (some "CAPACITY_UNAVAILABLE") acknowledgement)
    | some node => do
      -- outside the `try`: a rejected inspection rejects the whole request
      let inspectedResponse ← Program.ofExcept (deps.inspect ⟨node.nodeId, workspaceId,
        withoutPin app.image, command.targetImageDigest⟩)
      if 300 ≤ inspectedResponse.status then do
        let acknowledgement ← signRefusalAcknowledgement deps workspaceId runtimeInstallationId
          command app .refused "INSPECTED_ARTIFACT_UNAVAILABLE"
        .pure
          { status := 409, error := some "inspected_artifact_unavailable",
            acknowledgement := some acknowledgement }
      else
        match inspectedResponse.body with
        | none => .throw { message := "Cannot read properties of null (reading 'imageDigest')" }
        | some inspected =>
          if inspected.imageDigest ≠ some command.targetImageDigest ∨
              inspected.manifestDigest ≠ some command.targetManifestDigest then do
            let acknowledgement ← signRefusalAcknowledgement deps workspaceId
              runtimeInstallationId command app .refused "INSPECTED_ARTIFACT_BINDING_MISMATCH"
            .pure (conflict command .refused (some "inspected_artifact_binding_mismatch")
              acknowledgement)
          else applyCommand deps workspaceId runtimeInstallationId command app

end UpgradeRoute

end PrivosCluster
