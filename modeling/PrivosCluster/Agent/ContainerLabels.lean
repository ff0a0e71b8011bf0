import PrivosCluster.Security.JsonText
import PrivosCluster.Security.SignedArtifacts
import PrivosCluster.Agent.DockerState

/-!
# The labels of a container

Docker labels are all that the agent keeps of a container, and anybody who may inspect a container
reads them. Of an operator secret they carry the name. The guard decides from the labels of a
container whether it may be built anew.
-/

namespace PrivosCluster.Agent

open Routing

/-- Docker labels, one value for each name. -/
abbrev Labels := List (String × String)

/-- What labels use of the platform. -/
structure AgentPlatform where
  /-- `Number(text)` of a JSON number -/
  number : String → Option Rat
  numberText : Rat → String
  sha256Hex : String → String
  /-- `new Date(ms).toISOString()`, unless the time is out of range -/
  toISOString : Int → Option String
  /-- `Date.parse`, unless it is `NaN` -/
  parseDate : String → Option Int
  now : Int

namespace AgentPlatform

variable (platform : AgentPlatform)

def parseJson (text : String) : Option Json := Json.parse platform.number text

def stringify (value : Json) : String := Json.stringify platform.numberText value

end AgentPlatform

/-! ## Environments -/

/-- An environment as a request carries it, in property order. -/
structure Env where
  entries : List (String × String)
  nodup : (entries.map Prod.fst).Nodup

def Env.empty : Env := ⟨[], List.nodup_nil⟩

/-- The properties that every object inherits. -/
def objectPrototypeNames : List String :=
  ["constructor", "__defineGetter__", "__defineSetter__", "hasOwnProperty", "__lookupGetter__",
    "__lookupSetter__", "isPrototypeOf", "propertyIsEnumerable", "toString", "valueOf",
    "__proto__", "toLocaleString"]

/-- `key in object` -/
def hasKey {α : Type} (entries : List (String × α)) (key : String) : Bool :=
  entries.any (fun entry ↦ entry.1 = key) || objectPrototypeNames.contains key

/-! ## The redeploy guard -/

/-- The names in `privos.env.secret-keys`; absent when the label is malformed. -/
def parseSecretKeyNames (platform : AgentPlatform) (raw : Option String) : Option (List String) :=
  match raw with
  | none => some []
  | some raw =>
    match platform.parseJson raw with
    | some (.arr items) => items.mapM Schema.text?
    | _ => none

/-- The keys in `privos.env`; absent when the label is malformed. -/
def parseNonSecretEnvKeys (platform : AgentPlatform) (raw : Option String) :
    Option (List String) :=
  match raw with
  | none => some []
  | some raw =>
    match platform.parseJson raw with
    | some (.obj members) => some (members.map Prod.fst)
    | _ => none

/-- The environment that an upgrade states in full. -/
structure UpgradeEnvironment where
  envVars : Env
  secretEnvKeys : List String
  platformEnvVars : Env

def refusal (message : String) : AgentError := ⟨message, some 409⟩

def assertRawRedeployAllowedForLabels (platform : AgentPlatform) (labels : Labels)
    (upgrade : Option UpgradeEnvironment) : Except AgentError Unit :=
  match parseSecretKeyNames platform (labels.lookup "privos.env.secret-keys"),
    parseNonSecretEnvKeys platform (labels.lookup "privos.env") with
  | some existingSecretKeys, some existingNonSecretEnvKeys =>
    let managed := labels.lookup "privos.mcp.schema" = some "3"
    match upgrade.filter fun _ ↦ managed with
    | some upgrade =>
      let restatesEveryExistingKey := (existingSecretKeys ++ existingNonSecretEnvKeys).all
        (hasKey upgrade.envVars.entries)
      let declaresEveryExistingSecret := existingSecretKeys.all upgrade.secretEnvKeys.contains
      let hasPlatformEnv := !upgrade.platformEnvVars.entries.isEmpty
      if restatesEveryExistingKey && declaresEveryExistingSecret && hasPlatformEnv then .ok ()
      else .error (refusal ("MCP v3 upgrade-aware redeploy must restate every existing " ++
        "environment key, declare every existing secret key, and carry a non-empty platform " ++
        "environment"))
    | none =>
      if ¬ managed ∧ existingSecretKeys = [] then .ok ()
      else .error (refusal ("This container holds operator secrets; redeploy it through its own " ++
        "lifecycle instead"))
  | _, _ => .error (refusal ("This container's environment labels could not be read; redeploy " ++
    "it through its own lifecycle instead"))

/-! ## Writing labels -/

structure Resources where
  memoryMb : Rat
  cpus : Rat
  tmpSizeMb : Rat

def Resources.json (resources : Resources) : Json :=
  .obj [("memoryMb", .num resources.memoryMb), ("cpus", .num resources.cpus),
    ("tmpSizeMb", .num resources.tmpSizeMb)]

structure McpRuntimeBinding where
  clusterId : String
  nodeId : String
  workspaceId : String
  installationId : String
  mcpAppId : String
  replicaId : String
  imageDigest : String
  manifestDigest : String
  receiptHash : String
  grantEpoch : Rat
  deploymentGrantHash : String
  hubOrigin : String
  hubKid : String
  hubPublicJwk : Json

/-- The binding of a v3 container as an upgrade states it. -/
structure McpUpgradeBinding where
  clusterId : String
  nodeId : String
  workspaceId : String
  deploymentId : String
  generationId : String
  generationNumber : Rat
  runtimeInstallationId : String
  mcpAppId : String
  replicaId : String
  containerId : String
  imageDigest : Option String
  manifestDigest : Option String
  approvalReceiptHash : String
  authorizationEpoch : Rat
  deploymentGrantHash : String
  resourceManifestHash : String
  runtimeResourceInventoryHash : Option String := none

/-- The identity of the Hub may come from labels, which may lack it. -/
structure McpRuntimeBindingV3 extends McpUpgradeBinding where
  hubOrigin : Option String
  hubKid : Option String
  hubPublicJwk : Json

structure VolumeMount where
  dockerVolumeName : String
  mountPath : String

structure CreateContainerConfig where
  id : String
  appId : String
  containerName : String
  image : String
  tag : String
  digest : Option String
  workspaceId : Option String
  listingId : Option String
  versionDigest : Option String
  port : Int
  resources : Resources
  /-- The values of an environment that was read from a label may be any JSON. -/
  envVars : List (String × Json)
  platformEnvVars : Option Env
  secretEnvKeys : Option (List String)
  mounts : List VolumeMount
  subdomain : Option String
  baseDomain : Option String
  createdBy : Option String := none
  createdAt : Option Int
  mcpBinding : Option McpRuntimeBinding := none
  mcpV3Binding : Option McpRuntimeBindingV3
  brokerMount : Option String
  securityProfile : Option String

section Labels

variable (platform : AgentPlatform)

/-- An absent or empty value is an empty label. -/
def labelText (value : Option String) : String := value.getD ""

/-- A label without a value is not written. -/
def definedLabel (name : String) (value : Option String) : Labels :=
  value.toList.map fun value ↦ (name, value)

def canonicalEnvJson (env : List (String × Json)) : String :=
  let entries := env.insertionSort fun a b ↦ Json.keyLe a.1 b.1
  platform.stringify (.arr (entries.map fun entry ↦ .arr [.str entry.1, entry.2]))

def buildMcpRuntimeResourceLabelsV3 (binding : McpRuntimeBindingV3) (kind resourceId : String) :
    Labels :=
  [("privos.mcp.schema", "3"),
    ("privos.mcp.cluster", binding.clusterId),
    ("privos.mcp.node", binding.nodeId),
    ("privos.mcp.workspace", binding.workspaceId),
    ("privos.mcp.deployment", binding.deploymentId),
    ("privos.mcp.generation", binding.generationId),
    ("privos.mcp.generation-number", platform.numberText binding.generationNumber),
    ("privos.mcp.runtime-installation", binding.runtimeInstallationId),
    ("privos.mcp.app", binding.mcpAppId),
    ("privos.mcp.replica", binding.replicaId),
    ("privos.mcp.resource.kind", kind),
    ("privos.mcp.resource.id", resourceId)] ++
  definedLabel "privos.mcp.image.digest" binding.imageDigest ++
  definedLabel "privos.mcp.manifest.digest" binding.manifestDigest ++
  [("privos.mcp.approval-receipt", binding.approvalReceiptHash),
    ("privos.mcp.authorization-epoch", platform.numberText binding.authorizationEpoch),
    ("privos.mcp.deployment-grant-hash", binding.deploymentGrantHash),
    ("privos.mcp.resource-manifest-hash", binding.resourceManifestHash)] ++
  definedLabel "privos.mcp.runtime-resource-inventory-hash"
    (truthy binding.runtimeResourceInventoryHash) ++
  definedLabel "privos.mcp.hub-origin" binding.hubOrigin ++
  definedLabel "privos.mcp.hub-kid" binding.hubKid ++
  [("privos.mcp.hub-jwk", canonicalJson binding.hubPublicJwk)]

def mcpLabelsV2 (binding : McpRuntimeBinding) : Labels :=
  [("privos.mcp.schema", "2"),
    ("privos.mcp.cluster", binding.clusterId),
    ("privos.mcp.node", binding.nodeId),
    ("privos.mcp.installation", binding.installationId),
    ("privos.mcp.app", binding.mcpAppId),
    ("privos.mcp.replica", binding.replicaId),
    ("privos.mcp.image.digest", binding.imageDigest),
    ("privos.mcp.manifest.digest", binding.manifestDigest),
    ("privos.mcp.receipt", binding.receiptHash),
    ("privos.mcp.grant-epoch", platform.numberText binding.grantEpoch),
    ("privos.mcp.deployment-grant-hash", binding.deploymentGrantHash),
    ("privos.mcp.hub-origin", binding.hubOrigin),
    ("privos.mcp.hub-kid", binding.hubKid),
    ("privos.mcp.hub-jwk", platform.stringify binding.hubPublicJwk)]

/-- The declared secrets that the environment has, sorted. -/
def secretKeys (cfg : CreateContainerConfig) : List String :=
  ((cfg.secretEnvKeys.getD []).filter (hasKey cfg.envVars)).insertionSort fun a b ↦ Json.keyLe a b

/-- The environment without its secrets. -/
def labelledEnv (cfg : CreateContainerConfig) : List (String × Json) :=
  cfg.envVars.filter fun entry ↦ !(secretKeys cfg).contains entry.1

/-- The host labels of the legacy proxy, for an app that is not an MCP one. -/
def caddyLabels (cfg : CreateContainerConfig) : Labels :=
  match truthy cfg.subdomain, truthy cfg.baseDomain, cfg.mcpBinding, cfg.mcpV3Binding with
  | some subdomain, some baseDomain, none, none =>
    let host := subdomain ++ "." ++ baseDomain
    [("caddy", host),
      ("caddy.reverse_proxy", "\x7b\x7bupstreams " ++ toString cfg.port ++ "\x7d\x7d"),
      ("privos.public-host", host)]
  | _, _, _, _ => []

/-- The labels that every managed container has. -/
def managedLabels (cfg : CreateContainerConfig) (createdAt : String) : Labels :=
  [("mcp-app", "true"),
    ("mcp-app-id", cfg.appId),
    ("cluster-managed", "true"),
    ("privos.managed", "true"),
    ("privos.id", cfg.id),
    ("privos.app-id", cfg.appId),
    ("privos.image", cfg.image),
    ("privos.tag", cfg.tag),
    ("privos.image.digest", labelText cfg.digest),
    ("privos.workspace", labelText cfg.workspaceId),
    ("privos.listing", labelText cfg.listingId),
    ("privos.version.digest", labelText cfg.versionDigest),
    ("privos.port", toString cfg.port),
    ("privos.resources", platform.stringify cfg.resources.json),
    ("privos.env", platform.stringify (.obj (labelledEnv cfg))),
    ("privos.env.secret-keys", platform.stringify (.arr ((secretKeys cfg).map .str))),
    ("privos.env.digest", platform.sha256Hex (canonicalEnvJson platform cfg.envVars)),
    ("privos.subdomain", labelText cfg.subdomain),
    ("privos.domain", labelText cfg.baseDomain),
    ("privos.created-by", labelText cfg.createdBy),
    ("privos.created-at", createdAt),
    ("privos.health.path", healthDefaults.path),
    ("privos.health.max-fails", toString healthDefaults.maxFails),
    ("privos.health.restart", if healthDefaults.restart then "true" else "false")]

def buildContainerLabels (cfg : CreateContainerConfig) : Except AgentError Labels :=
  if cfg.mcpBinding.isSome ∧ cfg.mcpV3Binding.isSome then
    .error { message := "mcp_protocol_binding_conflict" }
  else
    match platform.toISOString (cfg.createdAt.getD platform.now) with
    | none => .error { message := "Invalid time value" }
    | some createdAt => .ok (
      managedLabels platform cfg createdAt ++
      definedLabel "privos.securityProfile" (truthy cfg.securityProfile) ++
      cfg.mcpBinding.toList.flatMap (mcpLabelsV2 platform) ++
      cfg.mcpV3Binding.toList.flatMap
        (fun binding ↦ buildMcpRuntimeResourceLabelsV3 platform binding "CONTAINER" cfg.id) ++
      caddyLabels cfg)

end Labels

end PrivosCluster.Agent
