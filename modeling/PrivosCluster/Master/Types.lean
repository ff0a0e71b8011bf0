import PrivosCluster.DocumentStore.Collection
import PrivosCluster.Security.Artifacts

/-!
# Records of the apps master

The documents the master stores, with the unique indexes of their collections. Times are
milliseconds. A field that the source marks as optional is an `Option` that defaults to absent.
-/

namespace PrivosCluster

open DocumentStore

abbrev Time := Int

inductive AvailabilityTier where
  | single
  | ha
deriving DecidableEq

inductive NodeStatus where
  | active
  | draining
  | retired
deriving DecidableEq

inductive WorkspaceStatus where
  | active
  | revoked
deriving DecidableEq

inductive ContainerState where
  | created
  | running
  | stopped
  | error
deriving DecidableEq

/-- The values the `state` field of an app record takes. -/
inductive AppState where
  | provisioning
  | running
  | stopped
  | quarantined
  | removing
  | removed
  | revoking
  | created
  | error
deriving DecidableEq

inductive AppKind where
  | raw
  | mcpV2
  | mcpV3
deriving DecidableEq

namespace ContainerState

def text : ContainerState → String
  | .created => "created"
  | .running => "running"
  | .stopped => "stopped"
  | .error => "error"

def toUpperCase : ContainerState → AppState
  | .created => .created
  | .running => .running
  | .stopped => .stopped
  | .error => .error

end ContainerState

namespace AppState

def text : AppState → String
  | .provisioning => "PROVISIONING"
  | .running => "RUNNING"
  | .stopped => "STOPPED"
  | .quarantined => "QUARANTINED"
  | .removing => "REMOVING"
  | .removed => "REMOVED"
  | .revoking => "REVOKING"
  | .created => "CREATED"
  | .error => "ERROR"

def toLowerCase : AppState → String
  | .provisioning => "provisioning"
  | .running => "running"
  | .stopped => "stopped"
  | .quarantined => "quarantined"
  | .removing => "removing"
  | .removed => "removed"
  | .revoking => "revoking"
  | .created => "created"
  | .error => "error"

end AppState

structure ContainerResources where
  memoryMb : Nat
  cpus : Rat
  tmpSizeMb : Nat
deriving DecidableEq

def ContainerResources.json (r : ContainerResources) : Json :=
  .obj [("memoryMb", .num r.memoryMb), ("cpus", .num r.cpus), ("tmpSizeMb", .num r.tmpSizeMb)]

structure Volume where
  name : String
  mountPath : String
  sizeMb : Option Nat := none
deriving DecidableEq

structure WorkspaceQuota where
  maxMemoryMb : Int
  maxCpus : Rat
  maxApps : Int
deriving DecidableEq

structure MasterWorkspace where
  workspaceId : String
  slug : Option String := none
  keyHash : String
  encryptedKey : String
  quota : WorkspaceQuota
  defaultAvailabilityTier : AvailabilityTier
  status : WorkspaceStatus
  createdAt : Time
  updatedAt : Time
deriving DecidableEq

structure NodeCapacity where
  memoryMb : Int
  cpus : Rat
  diskBytes : Int
deriving DecidableEq

structure MasterNode where
  nodeId : String
  failureDomain : String
  capacity : NodeCapacity
  status : NodeStatus
  mcpIdentityKid : Option String := none
  mcpIdentityPublicJwk : Option JsonWebKey := none
  updatedAt : Time
deriving DecidableEq

/-! ## Runtime resources -/

inductive RuntimeResourceKind where
  | replica
  | container
  | ingress
  | brokerBinding
  | brokerSocket
  | serviceDiscovery
  | volume
deriving DecidableEq

def RuntimeResourceKind.text : RuntimeResourceKind → String
  | .replica => "REPLICA"
  | .container => "CONTAINER"
  | .ingress => "INGRESS"
  | .brokerBinding => "BROKER_BINDING"
  | .brokerSocket => "BROKER_SOCKET"
  | .serviceDiscovery => "SERVICE_DISCOVERY"
  | .volume => "VOLUME"

inductive OwnershipScope where
  | roomBinding
  | installationGeneration
  | deploymentShared
  | platformShared
deriving DecidableEq

def OwnershipScope.text : OwnershipScope → String
  | .roomBinding => "ROOM_BINDING"
  | .installationGeneration => "INSTALLATION_GENERATION"
  | .deploymentShared => "DEPLOYMENT_SHARED"
  | .platformShared => "PLATFORM_SHARED"

structure RuntimeResourceDescriptor where
  kind : RuntimeResourceKind
  resourceId : String
  ownershipScope : OwnershipScope
  nodeId : Option String
  replicaId : Option String
  attributes : List (String × String)
deriving DecidableEq

structure AttestationRecord where
  deploymentGrantJti : String
  compact : String
  artifactHash : String
deriving DecidableEq

inductive InventoryState where
  | capturing
  | ready
  | migrationReviewRequired
  | compacted
deriving DecidableEq

structure RuntimeResourceInventory where
  inventoryId : String
  clusterId : String
  workspaceId : String
  deploymentId : String
  generationId : String
  generationNumber : Nat
  runtimeInstallationId : String
  clusterAppId : String
  manifestDigest : String
  resourceManifestHash : String
  runtimeResourceInventoryHash : Option String := none
  expectedResources : List RuntimeResourceDescriptor
  state : InventoryState
  runtimeInventoryAttestation : Option AttestationRecord := none
  createdAt : Time
  updatedAt : Time
deriving DecidableEq

/-! ## Apps -/

structure McpNodeIdentity where
  kid : String
  publicJwk : JsonWebKey
deriving DecidableEq

structure AppReplica where
  replicaId : String
  nodeId : String
  containerId : String
  state : String
  mcpNodeIdentity : Option McpNodeIdentity := none
  mcpV3Resources : Option (List RuntimeResourceDescriptor) := none
deriving DecidableEq

structure ProvisioningReplicaPlan where
  nodeId : String
  replicaId : String
  containerId : String
deriving DecidableEq

inductive SwapStrategy where
  | rolling
  | stopThenCreate
deriving DecidableEq

structure MasterApp where
  appId : String
  workspaceId : String
  listingId : String
  versionDigest : String
  image : String
  imageDigest : String
  resources : ContainerResources
  port : Nat
  envVars : List (String × String)
  secretEnvVarsEnc : Option String := none
  secretEnvKeys : Option (List String) := none
  appliedConfigEpoch : Option Nat := none
  appliedConfigAt : Option Time := none
  volumes : List Volume
  storageBytes : Nat
  availabilityTier : AvailabilityTier
  stateless : Bool
  subdomain : Option String := none
  uiUrl : Option String := none
  replicas : List AppReplica
  state : AppState
  quarantinedAt : Option Time := none
  createdAt : Time
  updatedAt : Time
  kind : Option AppKind := none
  protocolVersion : Option Nat := none
  mcpDeploymentId : Option String := none
  mcpActiveDeploymentKey : Option String := none
  mcpGenerationId : Option String := none
  mcpGenerationNumber : Option Nat := none
  mcpRuntimeInstallationId : Option String := none
  mcpDeploymentGrantJti : Option String := none
  mcpDeploymentGrantHash : Option String := none
  mcpApprovalReceiptHash : Option String := none
  mcpApprovedPermissionCeilingHash : Option String := none
  mcpAuthorizationEpoch : Option Nat := none
  mcpProvisioningNodeIds : Option (List String) := none
  mcpProvisioningReplicas : Option (List ProvisioningReplicaPlan) := none
  mcpRoomBindingCount : Option Nat := none
  suspendedWithWorkspace : Option Bool := none
  mcpInventoryAttestationEstablishedAt : Option Time := none
  resourceManifestHash : Option String := none
  runtimeResourceInventoryHash : Option String := none
  runtimeResourceInventoryId : Option String := none
  mcpInstallationId : Option String := none
  mcpAppId : Option String := none
  manifestDigest : Option String := none
  receiptHash : Option String := none
  grantEpoch : Option Nat := none
  mcpAppliedRevision : Option Nat := none
  mcpAppliedUpgradeEpoch : Option Nat := none
  mcpPreviousManifestDigest : Option String := none
  mcpPreviousImageDigest : Option String := none
  mcpLastSwapStrategy : Option SwapStrategy := none
  lastOomAt : Option Time := none
deriving DecidableEq

inductive LifecycleEventType where
  | started
  | stopped
  | redeployed
  | removed
  | quarantined
  | installed
  | uninstalled
  | replicasChanged
  | resized
deriving DecidableEq

structure AppLifecycleEvent where
  eventId : String
  workspaceId : String
  appId : String
  replicaId : Option String := none
  type : LifecycleEventType
  resources : ContainerResources
  storageBytes : Option Nat := none
  replicaCount : Option Nat := none
  time : Time
deriving DecidableEq

/-! ## Unique indexes -/

def workspaceKeys (workspace : MasterWorkspace) : List IndexKey :=
  [⟨["workspaceId"], [workspace.workspaceId]⟩]

def nodeKeys (node : MasterNode) : List IndexKey := [⟨["nodeId"], [node.nodeId]⟩]

def eventKeys (event : AppLifecycleEvent) : List IndexKey := [⟨["eventId"], [event.eventId]⟩]

def inventoryKeys (inventory : RuntimeResourceInventory) : List IndexKey :=
  [⟨["inventoryId"], [inventory.inventoryId]⟩,
    ⟨["clusterId", "workspaceId", "deploymentId", "generationId"],
      [inventory.clusterId, inventory.workspaceId, inventory.deploymentId, inventory.generationId]⟩,
    ⟨["runtimeInstallationId"], [inventory.runtimeInstallationId]⟩] ++
  (inventory.runtimeResourceInventoryHash.map fun hash ↦
    ⟨["runtimeResourceInventoryHash"], [hash]⟩).toList

/-- The app id, and the partial indexes on the label, the v3 generation and the live v3 slot. -/
def appKeys (app : MasterApp) : List IndexKey :=
  ⟨["appId"], [app.appId]⟩ ::
    ((app.subdomain.map fun label ↦ ⟨["subdomain"], [label]⟩).toList ++
      (if app.kind = some .mcpV3 then
        [⟨["workspaceId", "mcpDeploymentId", "mcpGenerationId", "kind"],
          [app.workspaceId, app.mcpDeploymentId.getD "", app.mcpGenerationId.getD "", "mcp-v3"]⟩]
      else []) ++
      (app.mcpActiveDeploymentKey.map fun slot ↦
        ⟨["workspaceId", "mcpActiveDeploymentKey"], [app.workspaceId, slot]⟩).toList)

/-- App records are told apart by their app id, over all workspaces. -/
def appIdentity : Identity MasterApp String appKeys where
  id := MasterApp.appId
  key appId := ⟨["appId"], [appId]⟩
  indexed _ := List.mem_cons_self

end PrivosCluster
