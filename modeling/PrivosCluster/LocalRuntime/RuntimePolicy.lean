import PrivosCluster.LocalRuntime.AbiSchema

/-!
# The policy of a runtime container

From a request, the staged artifact and the activation, if there is one, follows what the container
of a runtime must be: its image, its labels, its network and its one mount. A container of that name
is only ever used after it was compared with the policy.
-/

namespace PrivosCluster.LocalRuntime

def DRIVER_ABI : String := "privos-local-runtime-driver-v1"

def SUPERVISOR : String := "DOCKER_UNLESS_STOPPED"

def LABEL_PREFIX : String := "privos.local-runtime"

def BROKER_MOUNT_TARGET : String := "/run/privos"

def FALLBACK_USER : String := "65532:65532"

/-- The configuration; `clusterId` is the one persisted at pairing, or the fallback before it. -/
structure RuntimeServiceConfig where
  privateNetwork : String
  pidsLimit : Nat
  clusterId : String
  nodeId : String
  hubOrigin : String
  brokerRoot : String

/-- `path.join(config.brokerRoot, replicaId)`, mounted at the fixed target. -/
structure BrokerMount where
  source : String
  target : String
deriving DecidableEq

def brokerMountFor (config : RuntimeServiceConfig) (replicaId : String) : BrokerMount where
  source := config.brokerRoot ++ "/" ++ replicaId
  target := BROKER_MOUNT_TARGET

/-! ## The identity broker -/

structure LocalRuntimeBrokerBinding extends Agent.McpRuntimeBindingV3 where
  dockerContainerId : String
  networkName : String

def buildLocalRuntimeBinding (config : RuntimeServiceConfig) (request : Json)
    (artifactDigest runtimeId replicaId dockerContainerId : String) (activation : Option Json) :
    LocalRuntimeBrokerBinding :=
  let authorization := field request "runtime_authorization"
  { clusterId := config.clusterId
    nodeId := config.nodeId
    workspaceId := textField request "workspace_id"
    deploymentId := textField request "deployment_id"
    generationId := textField request "generation_id"
    generationNumber := numberOf (field request "generation_number")
    runtimeInstallationId := textField request "installation_id"
    mcpAppId := textField authorization "mcp_app_id"
    replicaId
    containerId := runtimeId
    dockerContainerId
    imageDigest := some artifactDigest
    manifestDigest := some (textField authorization "manifest_digest")
    approvalReceiptHash := match activation with
      | some activation => textField activation "runtime_approval_receipt_hash"
      | none => textField request "permission_contract_hash"
    authorizationEpoch := match activation with
      | some activation => numberOf (field activation "runtime_authorization_epoch")
      | none => 0
    deploymentGrantHash := textField request "descriptor_artifact_hash"
    resourceManifestHash := textField request "resource_manifest_hash"
    runtimeResourceInventoryHash :=
      activation.map fun activation ↦ textField activation "runtime_resource_inventory_hash"
    hubOrigin := some config.hubOrigin
    hubKid := some (textField authorization "hub_kid")
    hubPublicJwk := field authorization "hub_public_jwk"
    networkName := config.privateNetwork }

section

variable (platform : DriverPlatform)

def LOCAL_RUNTIME_BROKER_LABELS (binding : LocalRuntimeBrokerBinding) : Agent.Labels :=
  [("privos.workspace", binding.workspaceId), ("privos.id", binding.containerId)] ++
  Agent.buildMcpRuntimeResourceLabelsV3 platform.toAgentPlatform binding.toMcpRuntimeBindingV3
    "CONTAINER" binding.containerId

def dispatchTrustEnv (request : Json) (activation : Option Json) : List String :=
  let authorization := field request "runtime_authorization"
  let activated := match activation with
    | some activation =>
      [("runtimeResourceInventoryHash", field activation "runtime_resource_inventory_hash"),
        ("runtimeApprovalReceiptHash", field activation "runtime_approval_receipt_hash"),
        ("runtimeAuthorizationEpoch", field activation "runtime_authorization_epoch")]
    | none => []
  let trust := Json.obj
    [("hubKid", field authorization "hub_kid"),
      ("hubPublicJwk", field authorization "hub_public_jwk"),
      ("affinity", .obj ([("workspaceId", field request "workspace_id"),
        ("deploymentId", field request "deployment_id"),
        ("mcpAppId", field authorization "mcp_app_id"),
        ("executionMode", .str "SELF_HOSTED_LOCAL"),
        ("generationId", field request "generation_id"),
        ("generationNumber", field request "generation_number"),
        ("runtimeInstallationId", field request "installation_id"),
        ("manifestDigest", field authorization "manifest_digest"),
        ("resourceManifestHash", field request "resource_manifest_hash")] ++ activated))]
  ["PRIVOS_RUNTIME_SECURITY_MODE=runtime-v3",
    "PRIVOS_RUNTIME_DISPATCH_TRUST_V3=" ++ sortedText platform trust,
    "PRIVOS_RUNTIME_ALLOW_UNSIGNED_PREACTIVATION_READINESS=" ++
      if activation.isSome then "false" else "true"]

/-! ## The container -/

/-- The parts of a create request that depend on the policy; the rest is fixed. -/
structure CreateSpec where
  name : String
  image : String
  user : String
  env : List String
  labels : Agent.Labels
  port : Rat
  memoryBytes : Rat
  nanoCpus : Int
  cpuShares : Int
  networkMode : String
  pidsLimit : Nat
  tmpSizeMb : Rat
  mount : BrokerMount

structure ContainerPolicy where
  runtimeId : String
  endpoint : String
  affinityHash : String
  containerSpecHash : String
  createSpec : CreateSpec
  labels : Agent.Labels
  brokerMount : BrokerMount

/-- `runtimeId.slice('local-runtime-'.length)` -/
def endpointFor (runtimeId : String) : String :=
  "http://" ++ String.ofList (runtimeId.toList.drop 14) ++ ".app-cluster.internal"

def policyIdentity (config : RuntimeServiceConfig) (request : Json) (artifact : StagedArtifactRecord)
    (runtimeId : String) (activation : Option Json) (brokerMountTarget : String) : Json :=
  let spec := field request "runtime_spec"
  let activated := match activation with
    | some activation =>
      [("activation_request_hash", Json.str (canonicalHash platform activation)),
        ("runtime_resource_inventory_hash", field activation "runtime_resource_inventory_hash"),
        ("runtime_approval_receipt_hash", field activation "runtime_approval_receipt_hash"),
        ("runtime_authorization_epoch", field activation "runtime_authorization_epoch")]
    | none => []
  .obj ([("schema_version", .num 1), ("driver_abi", .str DRIVER_ABI),
    ("runtime_id", .str runtimeId),
    ("generation_affinity_hash", .str (canonicalHash platform (affinityFromRequest request))),
    ("runtime_authorization_hash",
      .str (canonicalHash platform (field request "runtime_authorization"))),
    ("artifact_digest", .str artifact.digest),
    ("image_manifest_digest", .str artifact.manifestDigest),
    ("image_config_digest", .str artifact.configDigest),
    ("port", field spec "port"), ("resources", field spec "resources"),
    ("pids_limit", .num config.pidsLimit),
    ("authorization_phase", .str (if activation.isSome then "ACTIVE" else "PREACTIVATION")),
    ("networks", .obj [("runtime",
      .obj [("name", .str config.privateNetwork), ("internal", .bool false)])]),
    ("broker_mount_target", .str brokerMountTarget),
    ("broker_mount_readonly", .bool true)] ++ activated)

/-- The user of the image, unless there is none or it is root. -/
def containerUser (artifact : StagedArtifactRecord) : String :=
  let declared := platform.trim (artifact.imageUser.getD "")
  let user := String.ofList (declared.toList.takeWhile (· ≠ ':'))
  if declared = "" ∨ user = "" ∨ user = "root" ∨ user = "0" then FALLBACK_USER else declared

/-- `Math.round` -/
def round (n : Rat) : Int := (n + 1 / 2).floor

def policyLabels (policy : String × String × String) (request : Json)
    (artifact : StagedArtifactRecord) (activation : Option Json)
    (binding : LocalRuntimeBrokerBinding) : Agent.Labels :=
  let (runtimeId, affinityHash, containerSpecHash) := policy
  LOCAL_RUNTIME_BROKER_LABELS platform binding ++
  [(LABEL_PREFIX ++ ".managed-by", DRIVER_ABI), (LABEL_PREFIX ++ ".id", runtimeId),
    (LABEL_PREFIX ++ ".artifact-digest", artifact.digest),
    (LABEL_PREFIX ++ ".image-config-digest", artifact.configDigest),
    (LABEL_PREFIX ++ ".generation-affinity-hash", affinityHash),
    (LABEL_PREFIX ++ ".container-spec-hash", containerSpecHash),
    (LABEL_PREFIX ++ ".installation-id", textField request "installation_id"),
    (LABEL_PREFIX ++ ".generation-id", textField request "generation_id"),
    (LABEL_PREFIX ++ ".authorization-phase",
      if activation.isSome then "ACTIVE" else "PREACTIVATION")]

def buildPolicy (config : RuntimeServiceConfig) (request : Json) (artifact : StagedArtifactRecord)
    (activation : Option Json) (brokerMount : BrokerMount) (binding : LocalRuntimeBrokerBinding) :
    ContainerPolicy :=
  let runtimeId := computeRuntimeId platform request
  let affinityHash := canonicalHash platform (affinityFromRequest request)
  let identity :=
    policyIdentity platform config request artifact runtimeId activation brokerMount.target
  let containerSpecHash := canonicalHash platform identity
  let resources := field (field request "runtime_spec") "resources"
  let cpus := numberOf (field resources "cpus")
  let labels :=
    policyLabels platform (runtimeId, affinityHash, containerSpecHash) request artifact activation
      binding
  { runtimeId
    endpoint := endpointFor runtimeId
    affinityHash
    containerSpecHash
    createSpec :=
      { name := runtimeId
        image := artifact.imageRef
        user := containerUser platform artifact
        env := dispatchTrustEnv platform request activation
        labels
        port := numberOf (field (field request "runtime_spec") "port")
        memoryBytes := numberOf (field resources "memory_mb") * 1024 * 1024
        nanoCpus := round (cpus * 1000000000)
        cpuShares := round (1024 * cpus)
        networkMode := config.privateNetwork
        pidsLimit := config.pidsLimit
        tmpSizeMb := numberOf (field resources "tmp_size_mb")
        mount := brokerMount }
    labels
    brokerMount }

end

/-- A mount that Docker reports. -/
structure MountPoint where
  source : String
  destination : String
  rw : Bool
deriving DecidableEq

/-- What Docker says of a container. -/
structure ContainerInspect where
  id : String
  image : String
  configImage : String
  labels : Agent.Labels
  running : Bool
  networkMode : String
  readonlyRootfs : Bool
  portBindings : Nat
  binds : Nat
  mounts : List MountPoint
  address : Option String

def affinityConflict (message : String) : ServiceError := .driver (.affinityConflict message)

def runtimeUnavailable (message : String) : ServiceError := .driver (.runtimeUnavailable message)

def assertContainerMatchesPolicy (container : ContainerInspect) (policy : ContainerPolicy)
    (artifact : StagedArtifactRecord) : Except ServiceError Unit := do
  let verifiedImages := [artifact.configDigest, artifact.manifestDigest]
  throwWhen (container.image ∉ verifiedImages ∨ container.configImage ∉ verifiedImages)
    (affinityConflict "The deterministic container has a substituted OCI image reference.")
  throwWhen (∃ label ∈ policy.labels, container.labels.lookup label.1 ≠ some label.2)
    (affinityConflict "The deterministic container affinity labels have drifted.")
  throwWhen (container.networkMode ≠ policy.createSpec.networkMode)
    (affinityConflict "The local runtime is attached outside its private network.")
  throwWhen (container.readonlyRootfs = false)
    (affinityConflict "The local runtime lost its read-only root policy.")
  throwWhen (0 < container.portBindings)
    (affinityConflict "The local runtime cannot publish a host port.")
  throwWhen (0 < container.binds)
    (affinityConflict
      "The local runtime cannot mount host or managed storage via legacy binds.")
  throwWhen (container.mounts ≠ [⟨policy.brokerMount.source, policy.brokerMount.target, false⟩])
    (affinityConflict ("The local runtime must mount exactly the broker identity socket " ++
      "directory, read-only."))

def isPolicyMatch (container : ContainerInspect) (policy : ContainerPolicy)
    (artifact : StagedArtifactRecord) : Bool :=
  match assertContainerMatchesPolicy container policy artifact with
  | .ok _ => true
  | .error _ => false

end PrivosCluster.LocalRuntime
