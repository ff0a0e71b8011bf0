import PrivosCluster.Master.Types

/-!
# The agents of the app nodes

The requests the master sends to an agent, the answers it reads, and what a request does to
the containers of the node when the agent performs it.
-/

namespace PrivosCluster

inductive ErrorCode where
  | text (code : String)
  | number (code : Nat)
deriving DecidableEq

/-- A thrown error, with the properties that some caller reads. -/
structure JsError where
  message : String
  code : Option ErrorCode := none
  keyPattern : Option (List String) := none
  statusCode : Option Nat := none
  correlationId : Option String := none
  rolledBack : Option Bool := none
deriving DecidableEq

/-- A container as the agent lists it. -/
structure Container where
  id : String
  appId : Option String
  listingId : Option String
  versionDigest : Option String
  image : String
  imageDigest : Option String
  state : ContainerState
  port : Nat
  resources : ContainerResources
  envVars : List (String × String)
  createdAt : Time
  volumes : List Volume
  subdomain : Option String := none
  /-- A private MCP workload of either protocol. -/
  mcpV2 : Bool := false
  mcpV3 : Bool := false
  oomKilledAt : Option Time := none

structure NodeIdentityBody where
  nodeId : Option String
  kid : Option String
  publicJwk : Option JsonWebKey

/-- The members of a response body that the master reads, and the body as JSON text. -/
structure AgentBody where
  json : String := "null"
  id : Option String := none
  appId : Option String := none
  workspaceId : Option String := none
  listingId : Option String := none
  versionDigest : Option String := none
  imageDigest : Option String := none
  state : Option String := none
  replicaId : Option String := none
  nodeIdentity : Option NodeIdentityBody := none
  expectedResources : Option (List RuntimeResourceDescriptor) := none
  /-- The member is absent, or is there with a string or with something else. -/
  securityProfile : Option (Option String) := none
  swapStrategy : Option String := none
  recovered : Option Bool := none
  containers : List Container := []

structure AgentResponse where
  status : Nat
  body : AgentBody

structure HubIdentity where
  kid : String
  publicJwk : JsonWebKey

structure McpBinding where
  clusterId : String
  nodeId : String
  workspaceId : String
  installationId : String
  mcpAppId : String
  replicaId : String
  imageDigest : String
  manifestDigest : String
  receiptHash : String
  grantEpoch : Nat
  deploymentGrantHash : String
  hubOrigin : String
  hub : HubIdentity

structure McpV3Binding where
  clusterId : String
  nodeId : String
  workspaceId : String
  deploymentId : String
  generationId : String
  generationNumber : Nat
  runtimeInstallationId : String
  mcpAppId : String
  replicaId : String
  containerId : String
  imageDigest : String
  manifestDigest : String
  approvalReceiptHash : Option String
  authorizationEpoch : Nat
  deploymentGrantHash : Option String
  resourceManifestHash : String
  /-- Sent on deploy only; later requests read it back from the container's labels. -/
  hub : Option (String × HubIdentity) := none

structure DeployBody where
  appId : String
  workspaceId : String
  listingId : String
  versionDigest : String
  image : String
  digest : String
  tag : Option String
  port : Nat
  resources : ContainerResources
  envVars : List (String × String)
  volumes : List Volume
  availabilityTier : Option AvailabilityTier
  stateless : Option Bool
  subdomain : Option String
  domain : String

/-- The members an agent request carries for a managed v3 runtime, besides the binding. -/
structure ManagedEnvironment where
  platformEnvVars : List (String × String)
  secretEnvKeys : List String
  securityProfile : Option (Option String)

structure ReconfigureBody where
  deploy : DeployBody
  environment : ManagedEnvironment
  configEpoch : Nat
  runtimeResourceInventoryHash : String
  mcpV3Binding : McpV3Binding

structure ManagedRedeploy where
  envVars : List (String × String)
  environment : ManagedEnvironment
  runtimeResourceInventoryHash : String
  mcpV3Binding : McpV3Binding
  mcpV3MultiReplica : Bool

/-- A partial `resources` member; members left out keep their value. -/
structure ResourcesPatch where
  memoryMb : Option Nat := none
  cpus : Option Rat := none
  tmpSizeMb : Option Nat := none

def ResourcesPatch.ofResources (r : ContainerResources) : ResourcesPatch :=
  ⟨some r.memoryMb, some r.cpus, some r.tmpSizeMb⟩

/-- `{ ...resources, ...patch }` -/
def ResourcesPatch.applyTo (patch : ResourcesPatch) (r : ContainerResources) : ContainerResources :=
  ⟨patch.memoryMb.getD r.memoryMb, patch.cpus.getD r.cpus, patch.tmpSizeMb.getD r.tmpSizeMb⟩

structure RedeployBody where
  workspaceId : String
  image : String
  digest : String
  versionDigest : String
  resources : ResourcesPatch
  rolling : Option Bool
  managed : Option ManagedRedeploy

inductive PowerAction where
  | start
  | stop
  | restart
deriving DecidableEq

inductive AgentRequest where
  | listApps
  | power (containerId : String) (action : PowerAction)
  | remove (containerId : String)
  | deploy (body : DeployBody)
  | mcpDeploy (body : DeployBody) (mcpBinding : McpBinding)
  | mcpV3Deploy (body : DeployBody) (environment : ManagedEnvironment) (mcpV3Binding : McpV3Binding)
  | mcpV3Finalize (containerId : String) (runtimeResourceInventoryHash : String)
  | mcpV3Reconfigure (containerId : String) (body : ReconfigureBody)
  | redeploy (containerId : String) (body : RedeployBody)

/-- A request as it left the master. -/
structure SentRequest where
  nodeId : String
  workspaceId : String
  request : AgentRequest

/-! ## What performing a request does -/

/-- A container of an app, with the labels that tie it to the app. -/
structure AppContainer where
  workspaceId : String
  appId : String
  imageDigest : String
  running : Bool

/-- The containers of the fleet, by node and container id. -/
abbrev Containers := String → String → Option AppContainer

namespace Containers

def set (cs : Containers) (nodeId containerId : String) (c : Option AppContainer) : Containers :=
  fun n i ↦ if n = nodeId ∧ i = containerId then c else cs n i

/-- An agent finds a container only under its own workspace. -/
def modify (cs : Containers) (nodeId workspaceId containerId : String)
    (f : AppContainer → Option AppContainer) : Containers :=
  match cs nodeId containerId with
  | none => cs
  | some c => if c.workspaceId = workspaceId then cs.set nodeId containerId (f c) else cs

theorem set_apply (cs : Containers) (nodeId containerId n i : String) (c : Option AppContainer) :
    cs.set nodeId containerId c n i = if n = nodeId ∧ i = containerId then c else cs n i := rfl

theorem modify_apply (cs : Containers) (nodeId workspaceId containerId n i : String)
    (f : AppContainer → Option AppContainer) :
    cs.modify nodeId workspaceId containerId f n i =
      if n = nodeId ∧ i = containerId then
        (cs n i).bind fun c ↦ if c.workspaceId = workspaceId then f c else some c
      else cs n i := by
  unfold modify
  by_cases h : n = nodeId ∧ i = containerId
  · obtain ⟨rfl, rfl⟩ := h
    cases hc : cs n i with
    | none => simp [hc]
    | some c => by_cases hw : c.workspaceId = workspaceId <;> simp [set, hc, hw]
  · cases hc : cs nodeId containerId with
    | none => simp [h]
    | some c => by_cases hw : c.workspaceId = workspaceId <;> simp [set, h, hw]

end Containers

/--
The effect of a performed request. `created` is the id an agent gives to the container of a
raw or v2 app; a v3 container has the planned id. Reconfigure and redeploy replace a container.
-/
def SentRequest.perform (sent : SentRequest) (created : String) (cs : Containers) : Containers :=
  match sent.request with
  | .listApps => cs
  | .power containerId action => cs.modify sent.nodeId sent.workspaceId containerId fun c ↦
      some { c with running := action != .stop }
  | .remove containerId => cs.modify sent.nodeId sent.workspaceId containerId fun _ ↦ none
  | .deploy body => cs.set sent.nodeId created
      (some ⟨sent.workspaceId, body.appId, body.digest, true⟩)
  | .mcpDeploy body _ => cs.set sent.nodeId created
      (some ⟨sent.workspaceId, body.appId, body.digest, true⟩)
  | .mcpV3Deploy body _ binding => cs.set sent.nodeId binding.containerId
      (some ⟨sent.workspaceId, body.appId, body.digest, true⟩)
  | .mcpV3Finalize _ _ => cs
  | .mcpV3Reconfigure containerId body => cs.modify sent.nodeId sent.workspaceId containerId
      fun c ↦ some { c with running := true, imageDigest := body.deploy.digest }
  | .redeploy containerId body => cs.modify sent.nodeId sent.workspaceId containerId
      fun c ↦ some { c with running := true, imageDigest := body.digest }

end PrivosCluster
