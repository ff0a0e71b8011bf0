import PrivosCluster.Agent.BrokerManager

/-!
# The lifecycle of an app at its agent

An app is deployed, reconfigured, redeployed beside its old container, and deleted. What a container
was created with is read back from its labels.
-/

namespace PrivosCluster.AgentHost

open AsyncProgram Agent Routing DockerStateMapper

/-! ## What a container shows of itself -/

namespace DockerState.Found

variable (platform : AgentPlatform) (found : Found)

def dockerId : String := found.container.dockerContainerId

def labels : Labels := found.record.labels

def label (name : String) : Option String := labelOrNull found.labels name

def facts : DockerFacts where
  labels := found.labels
  dockerContainerId := found.dockerId
  imageRef := found.record.image
  state := found.container.state
  createdFallbackMs := found.record.created * 1000
  mounts := found.record.mounts

/-- `imageRef.split(':')[1]` -/
def imageTag : Option String :=
  ((found.record.image.toList.splitOn ':')[1]?).map String.ofList

def image : String := (found.label "privos.image").getD (imageName found.record.image)

def tag : String := (found.label "privos.tag").getD ((truthy found.imageTag).getD "latest")

def port : Int := (parseInt ((found.labels.lookup "privos.port").getD "0")).getD 0

def resources : Resources :=
  let parsed := parseResources platform (found.labels.lookup "privos.resources")
  ⟨parsed.memoryMb, parsed.cpus, parsed.tmpSizeMb⟩

/-- Any JSON may be the value of a variable. -/
def envVars : List (String × Json) :=
  match parsedLabel platform (found.labels.lookup "privos.env") with
  | some (.obj members) => members
  | some (.arr items) => items.zipIdx.map fun item ↦ (toString item.2, item.1)
  | _ => []

def createdAt : Int := DockerStateMapper.createdAt platform found.facts

def securityProfile : Option String :=
  (found.labels.lookup "privos.securityProfile").filter (· = "browser-sandbox")

end DockerState.Found

/-! ## Requests -/

structure PartialResources where
  memoryMb : Option Rat
  cpus : Option Rat
  tmpSizeMb : Option Rat

/-- `{ ...resources, ...changes }` -/
def changedBy (resources : Resources) (changes : Option PartialResources) : Resources where
  memoryMb := (changes.bind (·.memoryMb)).getD resources.memoryMb
  cpus := (changes.bind (·.cpus)).getD resources.cpus
  tmpSizeMb := (changes.bind (·.tmpSizeMb)).getD resources.tmpSizeMb

/-- What the requests for a new container and for a new environment share. -/
structure AppRequest where
  workspaceId : Option String
  listingId : Option String
  versionDigest : Option String
  image : String
  tag : Option String
  digest : Option String
  port : Option Int
  resources : Option PartialResources
  envVars : Option Env
  platformEnvVars : Option Env
  secretEnvKeys : Option (List String)
  appId : Option String
  subdomain : Option String
  domain : Option String
  /-- Absent keeps the profile, and an explicit `null` removes it. -/
  securityProfile : Option (Option String)

structure DeployRequest extends AppRequest where
  volumes : List Volume
  mcpBinding : Option McpRuntimeBinding
  mcpV3Binding : Option McpRuntimeBindingV3

structure ReconfigureRequest extends AppRequest where
  mcpV3Binding : McpUpgradeBinding
  runtimeResourceInventoryHash : String

structure RedeployRequest where
  versionDigest : Option String
  image : Option String
  tag : Option String
  digest : Option String
  resources : Option PartialResources
  /-- Absent keeps the host, and an explicit `null` gives it up. -/
  subdomain : Option (Option String)
  domain : Option (Option String)
  mcpV3Binding : Option McpUpgradeBinding
  securityProfile : Option (Option String)

def AppRequest.env (req : AppRequest) : List (String × Json) :=
  (req.envVars.map Env.entries).getD [] |>.map fun entry ↦ (entry.1, .str entry.2)

def AppRequest.tagOrLatest (req : AppRequest) : String := req.tag.getD "latest"

/-- The replica whose broker the deployment sets up. -/
def DeployRequest.replicaId (req : DeployRequest) : Option String :=
  req.mcpBinding.map (·.replicaId) <|> req.mcpV3Binding.map (·.replicaId)

namespace LifecycleService

/-! ## Names -/

/-- Runs of dashes become one dash. -/
def squeeze : List Char → List Char
  | [] => []
  | c :: rest =>
    let squeezed := squeeze rest
    if c = '-' ∧ squeezed.head? = some '-' then squeezed else c :: squeezed

def containerNameBase (appId subdomain : Option String) (image : String) : String :=
  let trimmed := fun text : Option String ↦
    truthy (text.map fun text ↦ String.ofList (trim text.toList))
  match trimmed appId <|> trimmed subdomain with
  | some base => base
  | none =>
    let segment := ((image.toList.splitOn '/').filter (· ≠ [])).getLast?.getD "app".toList
    let name := segment.takeWhile (· ≠ ':')
    String.ofList (if name = [] then segment else name)

/-- A name of at most thirty characters, and six of a fresh UUID. -/
def buildContainerName (appId subdomain : Option String) (image uuid : String) : String :=
  let isPlain := fun c : Char ↦ ('a' ≤ c && c ≤ 'z') || c.isDigit
  let base := (toLowerCase (containerNameBase appId subdomain image)).toList
  let dashed := squeeze (base.map fun c ↦ if isPlain c then c else '-')
  let inner := (if dashed.head? = some '-' then dashed.tail else dashed)
  let safe := (if inner.getLast? = some '-' then inner.dropLast else inner).take 30
  String.ofList (if safe = [] then "app".toList else safe) ++ "-" ++
    String.ofList ((uuid.toList.filter (· ≠ '-')).take 6)

/-- `id.slice(0, 12)` -/
def shortId (id : String) : String := String.ofList (id.toList.take 12)

/-! ## Checks -/

section Checks

variable (config : HostConfig) (platform : HostPlatform)

def isReverseProxyEnabled : Bool :=
  (config.proxiesNatively || config.proxiesByCaddy) && !config.domains.isEmpty

def resolveDomain (requested : Option String) : Option String :=
  match truthy requested with
  | none => config.domains.head?
  | some requested =>
    config.domains.find? (· = String.ofList (trim requested.toList))

def baseDomain (requested : Option String) : Option String :=
  if isReverseProxyEnabled config then resolveDomain config requested else none

def assertRegistryAllowed (image : String) : Except HostError Unit :=
  let first := ((image.toList.splitOn '/').head?).getD []
  let host := toLowerCase
    (if first.contains '.' || first.contains ':' then String.ofList first else "docker.io")
  if config.imageRegistryAllowlist = [] ∨ host ∈ config.imageRegistryAllowlist then .ok ()
  else .error { message := "Registry is not allowed: " ++ host, statusCode := some 403 }

def getContainerOr404 (containerId : String) (workspaceId : Option String) :
    HostProgram DockerState.Found := do
  match ← DockerState.getById config containerId workspaceId with
  | some found => .pure found
  | none => .throw { message := "Container not found: " ++ containerId, statusCode := some 404 }

def getExistingMounts (dockerId : String) : HostProgram (List VolumeMount) := do
  let info ← await (.inspect dockerId)
  .pure (info.mounts.filterMap fun mount ↦ (truthy mount.name).bind fun name ↦
    if mount.type = some "volume" then some ⟨name, mount.destination.getD ""⟩ else none)

/-- A host is taken if another container has it. -/
def assertHostAvailable (subdomain domain ignoreContainerId : Option String) :
    HostProgram Unit :=
  Program.forSome (truthy subdomain) fun subdomain ↦ do
    let existing ← DockerState.findByHost subdomain domain
    Program.forSome existing fun existing ↦
      Program.throwIf (ignoreContainerId ≠ some existing.container.id)
        { message := "Host \"" ++ (truthy domain).elim subdomain (subdomain ++ "." ++ ·) ++
            "\" is already in use by container " ++ existing.container.id,
          statusCode := some 409 }

/-- What a container has already is not asked for again. -/
def additional (requested existing : Resources) : Resources :=
  ⟨max 0 (requested.memoryMb - existing.memoryMb), max 0 (requested.cpus - existing.cpus),
    requested.tmpSizeMb⟩

def requestedResources (resources : Resources) (ignoreContainerId workspaceId : Option String) :
    HostProgram Resources :=
  match truthy ignoreContainerId with
  | none => .pure resources
  | some ignoreContainerId => do
    let existing ← DockerState.getById config ignoreContainerId workspaceId
    .pure (existing.elim resources fun existing ↦
      additional resources (existing.resources platform.toAgentPlatform))

def shortage (req : Resources) (reason : ShortResource) (available : Rat) : HostError :=
  let field := match reason with
    | .memory => ("memory", req.memoryMb)
    | .cpu => ("cpu", req.cpus)
  { message := "Not enough " ++ field.1 ++ " available (requested " ++
      platform.numberText field.2 ++ ", available " ++ platform.numberText available ++ ")",
    statusCode := some 409 }

def assertResourceBudget (resources : Resources)
    (ignoreContainerId workspaceId : Option String) : HostProgram Unit := do
  let req ← requestedResources config platform resources ignoreContainerId workspaceId
  let (short : Option (ShortResource × Rat)) ← await (.checkResources req.memoryMb req.cpus)
  Program.forSome short fun short ↦ .throw (shortage platform req short.1 short.2)

/-- A value applies, an explicit `null` removes, and an absent key keeps the current profile. -/
def resolveRequestedSecurityProfile (requested : Option (Option String))
    (current : Option String) : Option String :=
  requested.getD current

/-- Labels that the container must have been created with. -/
def haveLabels (expected : List (String × Option String)) (labels : Labels) : Bool :=
  expected.all fun label ↦ labels.lookup label.1 == label.2

end Checks

/-! ## Deployment -/

section Deployment

variable (config : HostConfig) (platform : HostPlatform) (req : DeployRequest)

/-- The labels of the container that an earlier attempt with the same binding made. -/
def expectedDeployLabels (binding : McpRuntimeBindingV3) : List (String × Option String) :=
  [("privos.id", binding.containerId),
    ("privos.app-id", req.appId.getD ""),
    ("privos.workspace", binding.workspaceId),
    ("privos.image.digest", binding.imageDigest),
    ("privos.mcp.schema", "3"),
    ("privos.mcp.cluster", binding.clusterId),
    ("privos.mcp.node", binding.nodeId),
    ("privos.mcp.workspace", binding.workspaceId),
    ("privos.mcp.deployment", binding.deploymentId),
    ("privos.mcp.generation", binding.generationId),
    ("privos.mcp.generation-number", platform.numberText binding.generationNumber),
    ("privos.mcp.runtime-installation", binding.runtimeInstallationId),
    ("privos.mcp.app", binding.mcpAppId),
    ("privos.mcp.replica", binding.replicaId),
    ("privos.mcp.resource.kind", "CONTAINER"),
    ("privos.mcp.resource.id", binding.containerId),
    ("privos.mcp.image.digest", binding.imageDigest),
    ("privos.mcp.manifest.digest", binding.manifestDigest),
    ("privos.mcp.approval-receipt", binding.approvalReceiptHash),
    ("privos.mcp.authorization-epoch", platform.numberText binding.authorizationEpoch),
    ("privos.mcp.deployment-grant-hash", binding.deploymentGrantHash),
    ("privos.mcp.resource-manifest-hash", binding.resourceManifestHash),
    ("privos.mcp.hub-origin", binding.hubOrigin),
    ("privos.mcp.hub-kid", binding.hubKid),
    ("privos.mcp.hub-jwk", canonicalJson binding.hubPublicJwk)]

/-- A container that was stopped meanwhile is started again. -/
def resumed (id : String) (existing : DockerState.Found) : HostProgram DockerState.Found :=
  if existing.container.state ≠ .running then do
    ContainerManager.startContainer existing.dockerId
    match ← DockerState.getById config id req.workspaceId with
    | some resumed => .pure resumed
    | none => .throw (jsError "mcp_v3_container_resume_failed")
  else .pure existing

/-- The container of an earlier attempt is taken over. -/
def resume (binding : McpRuntimeBindingV3) (existing : DockerState.Found) :
    HostProgram DockerState.Found := do
  let info ← await (.inspect existing.dockerId)
  Program.throwIf (haveLabels (expectedDeployLabels platform req binding) info.labels = false)
    (jsError "existing_mcp_v3_container_binding_mismatch")
  let networkName ← Program.ofExcept (appNetworkName config req.workspaceId)
  McpBrokerManager.restoreOrRegisterProvisioningV3 config platform binding existing.dockerId
    networkName info.labels
  resumed config req binding.containerId existing

/-- All volumes of a workspace app have one name. -/
def dockerVolumeName (clusterId : String) (volume : Volume) : String :=
  match truthy req.workspaceId with
  | some workspaceId => "privos-ws-" ++ workspaceId ++ "-app-" ++ clusterId ++ "-data"
  | none => "mcp-vol-" ++ shortId clusterId ++ "-" ++ volume.name

def ensureDeployVolume (clusterId : String) (volume : Volume) : HostProgram VolumeMount := do
  let name := dockerVolumeName req clusterId volume
  ContainerManager.ensureVolume name volume.sizeMb
    [("privos.workspace", req.workspaceId.getD ""), ("privos.app-id", clusterId)]
  .pure ⟨name, volume.mountPath⟩

/-- Volumes that were there before are removed as well. -/
def rollBack (dockerId : Option String) (createdDockerVolumes : List String) (e : HostError) :
    HostProgram DockerState.Found := do
  Program.forSome dockerId fun dockerId ↦ do
    let _ ← (ContainerManager.stopContainer dockerId).settle
    let _ ← (ContainerManager.removeContainer dockerId true).settle
    .pure ()
  Program.forEach (fun name ↦ do
    let _ ← (ContainerManager.removeVolume name).settle
    .pure ()) createdDockerVolumes
  Program.forSome req.replicaId fun replicaId ↦ do
    let _ ← (McpBrokerManager.cleanup config replicaId).settle
    .pure ()
  .throw e

/-- A new v3 replica gets its socket early, and its inventory later. -/
def registerBroker (clusterId dockerId : String) : HostProgram Unit :=
  match req.mcpBinding, req.mcpV3Binding with
  | some binding, _ => do
    let networkName ← Program.ofExcept (appNetworkName config req.workspaceId)
    McpBrokerManager.register config platform (.v2 binding clusterId dockerId networkName)
  | none, some binding => do
    Program.throwIf (binding.runtimeResourceInventoryHash.isSome = true)
      (jsError "premature_runtime_inventory_claim")
    let networkName ← Program.ofExcept (appNetworkName config req.workspaceId)
    McpBrokerManager.registerSocket config (.v3 binding dockerId networkName)
  | none, none => .pure ()

/-- An app that does not become healthy in time is deployed all the same. -/
def startAndReadBack (id dockerId : String) (port : Int) (missing : HostError) :
    HostProgram DockerState.Found := do
  ContainerManager.startContainer dockerId
  let internalUrl ← getInternalUrl dockerId port
  let _ ← await (.waitForHealthy internalUrl)
  match ← DockerState.getById config id req.workspaceId with
  | some found => .pure found
  | none => .throw missing

def finishDeploy (clusterId dockerId : String) (port : Int) : HostProgram DockerState.Found := do
  registerBroker config platform req clusterId dockerId
  startAndReadBack config req clusterId dockerId port
    (jsError ("Deployed container " ++ clusterId ++ " not found immediately after creation"))

def deployConfig (clusterId uuid : String) (baseDomain brokerMount : Option String)
    (mounts : List VolumeMount) (createdAt : Int) : CreateContainerConfig where
  id := clusterId
  appId := req.appId.getD (shortId clusterId)
  containerName := buildContainerName req.appId req.subdomain req.image uuid
  image := req.image
  tag := req.tagOrLatest
  digest := req.digest
  workspaceId := req.workspaceId
  listingId := req.listingId
  versionDigest := req.versionDigest
  port := req.port.getD 3001
  resources := changedBy config.defaultResources req.resources
  envVars := req.env
  platformEnvVars := req.platformEnvVars
  secretEnvKeys := req.secretEnvKeys
  mounts := mounts
  subdomain := req.subdomain
  baseDomain := baseDomain
  createdAt := some createdAt
  mcpBinding := req.mcpBinding
  mcpV3Binding := req.mcpV3Binding
  brokerMount := brokerMount
  securityProfile := req.securityProfile.getD none

def createDeployed (clusterId : String) (baseDomain brokerMount : Option String)
    (mounts : List VolumeMount) : HostProgram String := do
  let (uuid : String) ← await .randomUUID
  let (createdAt : Time) ← await .now
  ContainerManager.createAppContainer config platform.toAgentPlatform
    (deployConfig config req clusterId uuid baseDomain brokerMount mounts createdAt)

/-- From the first volume on, a failure is rolled back. -/
def install (clusterId : String) (baseDomain brokerMount : Option String) :
    HostProgram DockerState.Found := do
  let (mounts, failure) ← Program.collectEach (ensureDeployVolume req clusterId) [] req.volumes
  let volumes := mounts.map (·.dockerVolumeName)
  match failure with
  | some e => rollBack config req none volumes e
  | none =>
    let created ← (createDeployed config platform req clusterId baseDomain brokerMount mounts).settle
    match created with
    | .ok dockerId =>
      (finishDeploy config platform req clusterId dockerId (req.port.getD 3001)).tryCatch
        (rollBack config req (some dockerId) volumes)
    | .error e => rollBack config req none volumes e

def prepareBroker : HostProgram (Option String) :=
  match req.replicaId with
  | none => .pure none
  | some replicaId => do
    let source ← McpBrokerManager.prepare config replicaId
    .pure (some source)

def installNew (clusterId : String) : HostProgram DockerState.Found := do
  let baseDomain := baseDomain config req.domain
  assertHostAvailable req.subdomain baseDomain none
  assertResourceBudget config platform (changedBy config.defaultResources req.resources) none none
  Program.ofExcept (assertRegistryAllowed config req.image)
  ContainerManager.pullImage req.image req.tagOrLatest req.digest
  let brokerMount ← prepareBroker config req
  install config platform req clusterId baseDomain brokerMount

/-- The id of a v3 container comes with its binding. -/
def deployManagedApp : HostProgram DockerState.Found := do
  NetworkManager.ensureNetwork config req.workspaceId
  match req.mcpV3Binding with
  | none => do
    let (clusterId : String) ← await .randomUUID
    installNew config platform req clusterId
  | some binding => do
    match ← DockerState.getById config binding.containerId req.workspaceId with
    | some existing => resume config platform req binding existing
    | none => installNew config platform req binding.containerId

end Deployment

/-! ## Reconfiguration -/

section Reconfiguration

variable (config : HostConfig) (platform : HostPlatform) (req : ReconfigureRequest)

def expectedReconfigureLabels : List (String × Option String) :=
  let binding := req.mcpV3Binding
  [("privos.id", binding.containerId),
    ("privos.workspace", binding.workspaceId),
    ("privos.image.digest", binding.imageDigest),
    ("privos.mcp.schema", "3"),
    ("privos.mcp.cluster", binding.clusterId),
    ("privos.mcp.node", binding.nodeId),
    ("privos.mcp.deployment", binding.deploymentId),
    ("privos.mcp.generation", binding.generationId),
    ("privos.mcp.generation-number", platform.numberText binding.generationNumber),
    ("privos.mcp.runtime-installation", binding.runtimeInstallationId),
    ("privos.mcp.app", binding.mcpAppId),
    ("privos.mcp.replica", binding.replicaId),
    ("privos.mcp.manifest.digest", binding.manifestDigest),
    ("privos.mcp.resource-manifest-hash", binding.resourceManifestHash),
    ("privos.mcp.approval-receipt", binding.approvalReceiptHash),
    ("privos.mcp.authorization-epoch", platform.numberText binding.authorizationEpoch),
    ("privos.mcp.deployment-grant-hash", binding.deploymentGrantHash)]

def reconfigureMismatch : HostError := jsError "mcp_v3_reconfigure_binding_mismatch"

/-- The binding of the request with the identity of the Hub in the labels. -/
def reconfiguredBinding (labels : Labels) : Except HostError McpRuntimeBindingV3 :=
  if haveLabels (expectedReconfigureLabels platform req) labels then
    match platform.parseJson ((labels.lookup "privos.mcp.hub-jwk").getD "") with
    | some hubPublicJwk => .ok { req.mcpV3Binding with
        hubOrigin := labels.lookup "privos.mcp.hub-origin"
        hubKid := labels.lookup "privos.mcp.hub-kid"
        hubPublicJwk := hubPublicJwk }
    | none => .error reconfigureMismatch
  else .error reconfigureMismatch

def reconfigureConfig (existing : DockerState.Found) (binding : McpRuntimeBindingV3) (uuid : String)
    (mounts : List VolumeMount) (brokerMount : String) : CreateContainerConfig where
  id := binding.containerId
  appId := req.appId.getD (shortId binding.containerId)
  containerName := buildContainerName req.appId
    (req.subdomain <|> existing.label "privos.subdomain") req.image uuid
  image := req.image
  tag := req.tagOrLatest
  digest := req.digest
  workspaceId := req.workspaceId
  listingId := req.listingId
  versionDigest := req.versionDigest
  port := req.port.getD existing.port
  resources := changedBy config.defaultResources req.resources
  envVars := req.env
  platformEnvVars := req.platformEnvVars
  secretEnvKeys := req.secretEnvKeys
  mounts := mounts
  subdomain := req.subdomain <|> existing.label "privos.subdomain"
  baseDomain := baseDomain config (req.domain <|> existing.label "privos.domain")
  createdAt := none
  mcpV3Binding := some binding
  brokerMount := some brokerMount
  securityProfile :=
    resolveRequestedSecurityProfile req.securityProfile existing.securityProfile

/-- The old container goes before the new one comes. -/
def replaceContainer (existing : DockerState.Found) (binding : McpRuntimeBindingV3)
    (mounts : List VolumeMount) : HostProgram String := do
  ContainerManager.stopContainer existing.dockerId
  ContainerManager.removeContainer existing.dockerId true
  let brokerMount ← McpBrokerManager.prepare config binding.replicaId
  let (uuid : String) ← await .randomUUID
  ContainerManager.createAppContainer config platform.toAgentPlatform
    (reconfigureConfig config req existing binding uuid mounts brokerMount)

def reRegister (binding : McpRuntimeBindingV3) (dockerId : String) : HostProgram Unit := do
  let networkName ← Program.ofExcept (appNetworkName config req.workspaceId)
  McpBrokerManager.register config platform
    (.v3 { binding with runtimeResourceInventoryHash := some req.runtimeResourceInventoryHash }
      dockerId networkName)

def startReconfigured (id dockerId : String) (port : Int) : HostProgram DockerState.Found := do
  ContainerManager.startContainer dockerId
  let internalUrl ← getInternalUrl dockerId port
  let _ ← await (.waitForHealthy internalUrl)
  match ← DockerState.getById config id req.workspaceId with
  | some found => .pure found
  | none => .throw (jsError ("Container not found after reconfigure: " ++ id))

/-- What comes after the checks. -/
def rebuild (existing : DockerState.Found) (binding : McpRuntimeBindingV3) :
    HostProgram DockerState.Found := do
  let mounts ← getExistingMounts existing.dockerId
  ContainerManager.pullImage req.image req.tagOrLatest req.digest
  McpBrokerManager.cleanup config binding.replicaId
  let dockerId ← replaceContainer config platform req existing binding mounts
  reRegister config platform req binding dockerId
  startReconfigured config req binding.containerId dockerId (req.port.getD existing.port)

def reconfigureManagedAppV3 : HostProgram DockerState.Found := do
  let existing ← getContainerOr404 config req.mcpV3Binding.containerId req.workspaceId
  let inspect ← await (.inspect existing.dockerId)
  let binding ← Program.ofExcept (reconfiguredBinding platform req inspect.labels)
  rebuild config platform req existing binding

end Reconfiguration

/-! ## Rolling redeployment -/

section Redeployment

variable (config : HostConfig) (platform : HostPlatform) (containerId : String)
  (req : RedeployRequest) (workspaceId : Option String)

def assertRawRedeployAllowed (dockerId : String) (upgrade : Option UpgradeEnvironment) :
    HostProgram Unit := do
  let info ← await (.inspect dockerId)
  Program.ofExcept ((assertRawRedeployAllowedForLabels platform.toAgentPlatform info.labels
    upgrade).mapError ofAgentError)

/-- Whoever names a new digest leaves the one that the image is pinned to. -/
def redeployImage (old : DockerState.Found) : String :=
  req.image.getD (if (truthy req.digest).isSome then imageRepositoryOf old.image else old.image)

def redeployConfig (old : DockerState.Found) (uuid : String) : CreateContainerConfig where
  id := containerId
  appId := (old.label "privos.app-id").getD (shortId containerId)
  containerName := buildContainerName (old.label "privos.app-id")
    (req.subdomain.getD (old.label "privos.subdomain")) (redeployImage req old) uuid
  image := redeployImage req old
  tag := req.tag.getD old.tag
  digest := req.digest
  workspaceId := old.label "privos.workspace"
  listingId := old.label "privos.listing"
  versionDigest := req.versionDigest <|> old.label "privos.version.digest"
  port := old.port
  resources := changedBy (old.resources platform.toAgentPlatform) req.resources
  envVars := old.envVars platform.toAgentPlatform
  platformEnvVars := none
  secretEnvKeys := none
  mounts := []
  subdomain := req.subdomain.getD (old.label "privos.subdomain")
  baseDomain := baseDomain config (req.domain.getD (old.label "privos.domain"))
  createdAt := some (old.createdAt platform.toAgentPlatform)
  mcpV3Binding := none
  brokerMount := none
  securityProfile := resolveRequestedSecurityProfile req.securityProfile old.securityProfile

def createBeside (old : DockerState.Found) : HostProgram String := do
  let (uuid : String) ← await .randomUUID
  ContainerManager.createAppContainer config platform.toAgentPlatform
    (redeployConfig config platform containerId req old uuid)

/-- The new container serves before the old one goes; that the old one stays does not matter. -/
def takeOver (old : DockerState.Found) (newDockerId : String) : HostProgram DockerState.Found := do
  ContainerManager.startContainer newDockerId
  let internalUrl ← getInternalUrl newDockerId old.port
  let (healthy : Bool) ← await (.waitForHealthy internalUrl)
  Program.throwIf (healthy = false) (jsError
    "New container did not become healthy within 30s — aborting rolling redeploy")
  Program.tryCatch (do
      ContainerManager.stopContainer old.dockerId
      ContainerManager.removeContainer old.dockerId true)
    fun _ ↦ .pure ()
  match ← DockerState.getById config containerId workspaceId with
  | some updated => .pure updated
  | none => .throw (jsError ("Container not found after rolling redeploy: " ++ containerId))

def removeNew (newDockerId : String) (e : HostError) : HostProgram DockerState.Found := do
  let _ ← (ContainerManager.stopContainer newDockerId).settle
  let _ ← (ContainerManager.removeContainer newDockerId true).settle
  .throw e

def checkRolling (old : DockerState.Found) : HostProgram Unit := do
  assertRawRedeployAllowed platform old.dockerId none
  Program.throwIf (old.container.state ≠ .running)
    (jsError ("Cannot rolling-redeploy a non-running container (state=" ++
      old.container.state.text ++ ") — start it first"))
  assertHostAvailable (req.subdomain.getD (old.label "privos.subdomain"))
    (baseDomain config (req.domain.getD (old.label "privos.domain"))) (some containerId)
  assertResourceBudget config platform
    (changedBy (old.resources platform.toAgentPlatform) req.resources) (some containerId) workspaceId
  Program.ofExcept (assertRegistryAllowed config (redeployImage req old))
  ContainerManager.pullImage (redeployImage req old) (req.tag.getD old.tag) req.digest

/-- A failure to create leaves nothing to clean up that the caller knows of. -/
def swapRolling (old : DockerState.Found) : HostProgram DockerState.Found := do
  let newDockerId ← createBeside config platform containerId req old
  (takeOver config containerId workspaceId old newDockerId).tryCatch (removeNew newDockerId)

def rollingRedeployContainer : HostProgram DockerState.Found := do
  Program.throwIf (req.mcpV3Binding.isSome = true) (jsError "mcp_v3_rolling_redeploy_unsupported")
  let old ← getContainerOr404 config containerId workspaceId
  checkRolling config platform containerId req workspaceId old
  swapRolling config platform containerId req workspaceId old

end Redeployment

/-! ## Deletion -/

section Deletion

variable (config : HostConfig) (containerId : String) (workspaceId : Option String)

/-- What is known of a container that is to be deleted: its replica, and its volumes. -/
structure Remains where
  mcpReplicaId : Option String
  volumeNames : List String

/-- A container that cannot be inspected is taken to have nothing. -/
def remainsOf (dockerId : String) : HostProgram Remains := do
  let info ← (await (.inspect dockerId)).settle
  match info with
  | .error _ => .pure ⟨none, []⟩
  | .ok (info : HostContainer) =>
    let mounts ← (getExistingMounts dockerId).settle
    .pure ⟨info.labels.lookup "privos.mcp.replica",
      (mounts.toOption.getD []).map (·.dockerVolumeName)⟩

/-- The errors of the volumes that could not be removed. -/
def removeVolumes (volumeNames : List String) : HostProgram (List HostError) :=
  Program.foldEach (fun errors name ↦ do
    let removed ← (ContainerManager.removeVolume name).settle
    match removed with
    | .ok _ => .pure errors
    | .error e => .pure (errors ++ [e])) [] volumeNames

/-- Of all failures only those of volumes are told. -/
def deleteContainer : HostProgram Unit := do
  let c ← getContainerOr404 config containerId workspaceId
  let remains ← remainsOf c.dockerId
  let _ ← (ContainerManager.stopContainer c.dockerId).settle
  let _ ← (ContainerManager.removeContainer c.dockerId true).settle
  let volumeErrors ← removeVolumes remains.volumeNames
  Program.forSome (truthy remains.mcpReplicaId) fun replicaId ↦ do
    let _ ← (McpBrokerManager.cleanup config replicaId).settle
    .pure ()
  Program.throwIf (volumeErrors ≠ [])
    { message := "Container removed but " ++ toString volumeErrors.length ++
        " volume(s) require reconciliation", statusCode := some 500 }

end Deletion

end LifecycleService

end PrivosCluster.AgentHost
