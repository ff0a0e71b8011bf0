import PrivosCluster.Agent.HostPrograms

/-!
# The broker of an agent

For every replica of an MCP app the broker listens on a socket that the app container mounts. The
binding of a finalized v3 replica is kept on disk, so that it can be restored.
-/

namespace PrivosCluster.AgentHost

open AsyncProgram Agent Routing

namespace McpBrokerManager

variable (config : HostConfig) (platform : HostPlatform)

/-- `/^[0-9a-f-]{36}$/i` -/
def isReplicaId (replicaId : String) : Bool :=
  replicaId.toList.length == 36 && replicaId.toList.all fun c ↦ Schema.isHex c || c == '-'

def assertReplicaId (replicaId : String) : Except HostError Unit :=
  if isReplicaId replicaId then .ok () else .error (jsError "replica_id_invalid")

def directory (replicaId : String) : Except HostError String := do
  assertReplicaId replicaId
  .ok (config.brokerRoot ++ "/" ++ replicaId)

/-- The folder that the container mounts. -/
def prepare (replicaId : String) : HostProgram String := do
  let directory ← Program.ofExcept (directory config replicaId)
  await (.makeDirectory replicaId)
  .pure directory

/-! ## Sockets -/

/-- A longer path would be truncated. -/
def assertSocketPath (directory : String) : Except HostError String :=
  let socketPath := directory ++ "/identity.sock"
  if 104 ≤ socketPath.utf8ByteSize then
    .error (jsError ("broker_socket_path_too_long: " ++ socketPath))
  else .ok socketPath

def listenOn (binding : ReplicaBinding) (socketPath : String) : HostProgram Unit := do
  await (.makeDirectory binding.replicaId)
  await (.removeSocket binding.replicaId)
  let (handle : Nat) ← await (.listen socketPath)
  await (.chmodSocket binding.replicaId)
  await (.setServer binding.replicaId ⟨handle, binding⟩)

/-- The server of an earlier registration is closed first. -/
def registerSocket (binding : ReplicaBinding) : HostProgram Unit := do
  await (.close binding.replicaId)
  let directory ← Program.ofExcept (directory config binding.replicaId)
  let socketPath ← Program.ofExcept (assertSocketPath directory)
  listenOn binding socketPath

/-! ## Finalized bindings -/

def definedMember (name : String) (value : Option String) : List (String × Json) :=
  value.toList.map fun value ↦ (name, .str value)

/-- The record of a binding, which does not name the container of the day. -/
def persistedRecord (binding : McpRuntimeBindingV3) (networkName : String) : Json :=
  .obj ([("protocolVersion", .num 3),
    ("clusterId", .str binding.clusterId),
    ("nodeId", .str binding.nodeId),
    ("workspaceId", .str binding.workspaceId),
    ("deploymentId", .str binding.deploymentId),
    ("generationId", .str binding.generationId),
    ("generationNumber", .num binding.generationNumber),
    ("runtimeInstallationId", .str binding.runtimeInstallationId),
    ("mcpAppId", .str binding.mcpAppId),
    ("replicaId", .str binding.replicaId),
    ("containerId", .str binding.containerId)] ++
    definedMember "imageDigest" binding.imageDigest ++
    definedMember "manifestDigest" binding.manifestDigest ++
    [("approvalReceiptHash", .str binding.approvalReceiptHash),
    ("authorizationEpoch", .num binding.authorizationEpoch),
    ("deploymentGrantHash", .str binding.deploymentGrantHash),
    ("resourceManifestHash", .str binding.resourceManifestHash)] ++
    definedMember "runtimeResourceInventoryHash" binding.runtimeResourceInventoryHash ++
    definedMember "hubOrigin" binding.hubOrigin ++
    definedMember "hubKid" binding.hubKid ++
    [("hubPublicJwk", binding.hubPublicJwk), ("networkName", .str networkName),
    ("version", .num 1)])

inductive BindingFile where
  | store
  | legacy

def BindingFile.read (replicaId : String) : BindingFile → HostProgram String
  | .store => await (.readStore replicaId)
  | .legacy => do
    let (file : LegacyFile) ← await (.readLegacy replicaId)
    .pure file.raw

def BindingFile.write (replicaId raw : String) : BindingFile → HostProgram Unit
  | .store => await (.writeStore replicaId raw)
  | .legacy => await (.writeLegacy replicaId raw)

/-- `JSON.parse` -/
def parsed (raw : String) : HostProgram Json :=
  match platform.parseJson raw with
  | some json => .pure json
  | none => .throw (jsError "Unexpected token")

/-- A file that is there already must say the same. -/
def persistTo (replicaId : String) (record : Json) (file : BindingFile) : HostProgram Unit :=
  Program.tryCatch (do
    let raw ← file.read replicaId
    let existing ← parsed platform raw
    Program.throwIf (canonicalJson existing ≠ canonicalJson record)
      (jsError "persisted_mcp_v3_broker_binding_conflict"))
  fun e ↦
    if e.code ≠ some "ENOENT" then .throw e
    else file.write replicaId (canonicalJson record ++ "\n")

/-- The store is written before the copy that an older agent would look for. -/
def persistFinalizedV3 (binding : McpRuntimeBindingV3) (networkName : String) :
    HostProgram Unit := do
  let record := persistedRecord binding networkName
  Program.ofExcept (assertReplicaId binding.replicaId)
  Program.onlyIf (config.hasStateRoot = true) (await .makeStateRoot)
  let _ ← prepare config binding.replicaId
  Program.forEach (persistTo platform binding.replicaId record)
    ((if config.hasStateRoot then [.store] else []) ++ [.legacy])

def register (binding : ReplicaBinding) : HostProgram Unit := do
  match binding with
  | .v2 _ _ _ _ => .pure ()
  | .v3 finalized _ networkName => persistFinalizedV3 config platform finalized networkName
  registerSocket config binding

/-! ## Restoring -/

structure PersistedV3 where
  persisted : Json
  raw : String
  fromLegacy : Bool

def unsafeBinding : HostError := jsError "persisted_mcp_v3_broker_binding_unsafe"

def readLegacyV3 (replicaId : String) : HostProgram PersistedV3 := do
  let (file : LegacyFile) ← (await (.readLegacy replicaId)).tryCatch fun e ↦
    .throw (if e.code = some "ELOOP" then unsafeBinding else e)
  Program.throwIf (file.safe = false) unsafeBinding
  let persisted ← parsed platform file.raw
  .pure ⟨persisted, file.raw, true⟩

def readPersistedV3Unmarked (replicaId : String) : HostProgram PersistedV3 := do
  Program.ofExcept (assertReplicaId replicaId)
  let file := if config.hasStateRoot then BindingFile.store else .legacy
  let first : HostProgram PersistedV3 := do
    let raw ← file.read replicaId
    let persisted ← parsed platform raw
    .pure ⟨persisted, raw, false⟩
  if config.hasStateRoot then
    first.tryCatch fun e ↦
      if e.code ≠ some "ENOENT" then .throw e else readLegacyV3 platform replicaId
  else first

/-- Only a binding that is nowhere counts as missing. -/
def readPersistedV3 (replicaId : String) : HostProgram PersistedV3 :=
  (readPersistedV3Unmarked config platform replicaId).tryCatch fun e ↦
    .throw (if e.code = some "ENOENT" then { e with bindingMissing := true } else e)

/-- A label that has a text. -/
def textLabel (labels : Labels) (name : String) : Option Json :=
  (truthy (labels.lookup name)).map .str

/-- A label that has a number. -/
def numberLabel (labels : Labels) (name : String) : Option Json :=
  ((labels.lookup name).bind platform.toNumber).map .num

/-- What the persisted record must say, as far as the labels tell it. -/
def expectedPersistedAffinity (labels : Labels) (networkName : String) :
    List (String × Option Json) :=
  let text := textLabel labels
  let number := numberLabel platform labels
  [("version", some (.num 1)),
    ("protocolVersion", some (.num 3)),
    ("clusterId", text "privos.mcp.cluster"),
    ("nodeId", text "privos.mcp.node"),
    ("workspaceId", text "privos.mcp.workspace"),
    ("deploymentId", text "privos.mcp.deployment"),
    ("generationId", text "privos.mcp.generation"),
    ("generationNumber", number "privos.mcp.generation-number"),
    ("runtimeInstallationId", text "privos.mcp.runtime-installation"),
    ("mcpAppId", text "privos.mcp.app"),
    ("replicaId", text "privos.mcp.replica"),
    ("containerId", text "privos.id"),
    ("imageDigest", text "privos.mcp.image.digest"),
    ("manifestDigest", text "privos.mcp.manifest.digest"),
    ("approvalReceiptHash", text "privos.mcp.approval-receipt"),
    ("authorizationEpoch", number "privos.mcp.authorization-epoch"),
    ("deploymentGrantHash", text "privos.mcp.deployment-grant-hash"),
    ("resourceManifestHash", text "privos.mcp.resource-manifest-hash"),
    ("hubOrigin", text "privos.mcp.hub-origin"),
    ("hubKid", text "privos.mcp.hub-kid"),
    ("networkName", some (.str networkName))]

/-- The member of a value, if the value is an object. -/
def memberOf (name : String) : Json → Option Json
  | .obj members => members.lookup name
  | _ => none

/-- The hash of the inventory in a record that agrees with the labels. -/
def persistedHash? (labels : Labels) (networkName : String) (persisted : Json) :
    Option String :=
  if (expectedPersistedAffinity platform labels networkName).all fun expected ↦
      expected.2.isSome && memberOf expected.1 persisted == expected.2 then
    ((memberOf "runtimeResourceInventoryHash" persisted).bind Schema.text?).filter
      Schema.isArtifactHash
  else none

/-- The binding that the labels of a v3 container spell out. -/
def bindingOfLabels (labels : Labels) (hubPublicJwk : Json) (hash : Option String) :
    McpRuntimeBindingV3 :=
  let text := fun name ↦ (labels.lookup name).getD ""
  let number := fun name ↦ ((labels.lookup name).bind platform.toNumber).getD 0
  { clusterId := text "privos.mcp.cluster"
    nodeId := text "privos.mcp.node"
    workspaceId := text "privos.mcp.workspace"
    deploymentId := text "privos.mcp.deployment"
    generationId := text "privos.mcp.generation"
    generationNumber := number "privos.mcp.generation-number"
    runtimeInstallationId := text "privos.mcp.runtime-installation"
    mcpAppId := text "privos.mcp.app"
    replicaId := text "privos.mcp.replica"
    containerId := text "privos.id"
    imageDigest := labels.lookup "privos.mcp.image.digest"
    manifestDigest := labels.lookup "privos.mcp.manifest.digest"
    approvalReceiptHash := text "privos.mcp.approval-receipt"
    authorizationEpoch := number "privos.mcp.authorization-epoch"
    deploymentGrantHash := text "privos.mcp.deployment-grant-hash"
    resourceManifestHash := text "privos.mcp.resource-manifest-hash"
    runtimeResourceInventoryHash := hash
    hubOrigin := labels.lookup "privos.mcp.hub-origin"
    hubKid := labels.lookup "privos.mcp.hub-kid"
    hubPublicJwk := hubPublicJwk }

def invalidBinding : HostError := jsError "persisted_mcp_v3_broker_binding_invalid"

def ofOption {α : Type} (value : Option α) (e : HostError) : Except HostError α :=
  value.elim (.error e) .ok

def restoreFinalizedV3 (labels : Labels) (dockerContainerId : String) : HostProgram Unit := do
  let replicaId ← Program.ofExcept
    (ofOption (truthy (labels.lookup "privos.mcp.replica")) invalidBinding)
  let found ← readPersistedV3 config platform replicaId
  let networkName ← Program.ofExcept (appNetworkName config (labels.lookup "privos.mcp.workspace"))
  let hash ← Program.ofExcept
    (ofOption (persistedHash? platform labels networkName found.persisted) invalidBinding)
  let hubPublicJwk ← Program.ofExcept
    (ofOption (platform.parseJson ((labels.lookup "privos.mcp.hub-jwk").getD "")) invalidBinding)
  Program.onlyIf (found.fromLegacy = true) (do
    await .makeStateRoot
    await (.writeStore replicaId found.raw))
  register config platform
    (.v3 (bindingOfLabels platform labels hubPublicJwk (some hash)) dockerContainerId networkName)

/-- A binding that was never finalized is registered for provisioning. -/
def restoreOrRegisterProvisioningV3 (binding : McpRuntimeBindingV3)
    (dockerContainerId networkName : String) (labels : Labels) : HostProgram Unit :=
  (restoreFinalizedV3 config platform labels dockerContainerId).tryCatch fun e ↦
    if e.bindingMissing = false then .throw e
    else registerSocket config
      (.v3 { binding with runtimeResourceInventoryHash := none } dockerContainerId networkName)

/-! ## Ending a registration -/

def cleanup (replicaId : String) : HostProgram Unit := do
  await (.close replicaId)
  Program.ofExcept (assertReplicaId replicaId)
  await (.removeDirectory replicaId)
  Program.onlyIf (config.hasStateRoot = true) (await (.removeStore replicaId))

end McpBrokerManager

end PrivosCluster.AgentHost
