import Mathlib.Data.List.Infix
import PrivosCluster.Agent.DesiredStateRecovery
import PrivosCluster.Agent.Host
import PrivosCluster.Master.RuntimeSwap

/-!
# What an agent asks of its host

The managers of containers, volumes and networks, the view of the containers by their labels, and
the broker. The record of the desired state, which never fails a caller, and the counters of the
health monitor are left out.
-/

namespace PrivosCluster.AgentHost

open AsyncProgram Agent Routing

structure HostConfig extends AgentConfig where
  fleetAgentContainer : String
  /-- The app domains of `PRIVOS_DOMAINS`. -/
  domains : List String
  /-- The native mode, or the mode of Caddy with its own switch. -/
  proxiesNatively : Bool
  proxiesByCaddy : Bool
  /-- The hosts of `IMAGE_REGISTRY_ALLOWLIST` in lower case. -/
  imageRegistryAllowlist : List String
  defaultResources : Resources
  brokerRoot : String
  /-- The broker keeps finalized bindings in a directory of its own. -/
  hasStateRoot : Bool

structure HostPlatform extends AgentPlatform where
  /-- `Number(text)`, unless it is `NaN` -/
  toNumber : String → Option Rat

def ofAgentError (e : AgentError) : HostError := { toAgentError := e }

/-- `text.includes(part)` -/
def includes (text part : String) : Bool := decide (part.toList <:+: text.toList)

/-- `Failed to …: message` -/
def failedTo (what : String) (e : HostError) : HostError :=
  jsError ("Failed to " ++ what ++ ": " ++ e.message)

def appNetworkName (config : HostConfig) (workspaceId : Option String) :
    Except HostError String :=
  match getAppNetworkName config.toAgentConfig workspaceId with
  | some name => .ok name
  | none => .error (jsError "workspaceId is required for a fleet app network")

/-! ## Image references -/

/-- The digest at the end of a pinned reference. -/
def pinOf (image : String) : Option String :=
  let chars := image.toList
  let pin := String.ofList (chars.drop (chars.length - 71))
  if 72 ≤ chars.length ∧ chars[chars.length - 72]? = some '@' ∧ Schema.isDigest pin then some pin
  else none

def resolveImmutableImageReference (image tag : String) (digest : Option String) :
    Except HostError String :=
  if Schema.isDigest image then .ok image
  else
    match truthy digest with
    | none => .ok (if (pinOf image).isSome then image else image ++ ":" ++ tag)
    | some digest =>
      let repository := imageRepositoryOf image
      if ¬ Schema.isDigest digest then .error (jsError "Invalid image digest")
      else if repository ≠ image ∧ pinOf image ≠ some digest then
        .error (jsError "Image digest does not match the repository pin")
      else if repository = "" ∨ '@' ∈ repository.toList then
        .error (jsError "Invalid image repository")
      else .ok (repository ++ "@" ++ digest)

/-! ## The container manager -/

namespace ContainerManager

/-- A pull by digest always asks the registry. -/
def isCached (repoTag : String) (digest : Option String) : HostProgram Bool :=
  if truthy digest = none then do
    let found ← (await (.inspectImage repoTag)).settle
    .pure found.toOption.isSome
  else .pure false

def pullUncached (repoTag : String) : HostProgram Unit :=
  Program.tryCatch (do
      await (.pull repoTag)
      (await (.followPull repoTag)).tryCatch fun e ↦ .throw (failedTo ("pull " ++ repoTag) e))
    fun e ↦
      if e.statusCode = some 404 ∨ includes e.message "not found" then
        .throw (jsError ("Image not found: " ++ repoTag))
      else .throw (failedTo ("pull " ++ repoTag) e)

def pullImage (image tag : String) (digest : Option String) : HostProgram Unit := do
  let repoTag ← Program.ofExcept (resolveImmutableImageReference image tag digest)
  let cached ← isCached repoTag digest
  Program.onlyIf (cached = false) (pullUncached repoTag)

/-- `profileHostConfig`, as far as it refuses -/
def assertKnownProfile (profile : Option String) : Except HostError Unit :=
  match profile with
  | none => .ok ()
  | some profile =>
    if profile = "browser-sandbox" then .ok ()
    else .error (jsError ("unknown_security_profile:" ++ profile))

def dockerMounts (cfg : CreateContainerConfig) : List DockerStateMapper.DockerMount :=
  cfg.mounts.map (fun mount ↦ ⟨some "volume", some mount.dockerVolumeName, some mount.mountPath⟩) ++
    cfg.brokerMount.toList.map fun _ ↦ ⟨some "bind", none, some "/run/privos"⟩

/-- What Docker is asked for, if the configuration can be carried out. -/
def containerRequest (config : HostConfig) (platform : AgentPlatform)
    (cfg : CreateContainerConfig) : Except HostError ContainerRequest := do
  assertKnownProfile cfg.securityProfile
  let image ← resolveImmutableImageReference cfg.image cfg.tag cfg.digest
  let labels ← (buildContainerLabels platform cfg).mapError ofAgentError
  let networkMode ← appNetworkName config cfg.workspaceId
  .ok { name := cfg.containerName, image, labels, networkMode, mounts := dockerMounts cfg }

/-- The container is inspected before its id is handed to the caller. -/
def createAppContainer (config : HostConfig) (platform : AgentPlatform)
    (cfg : CreateContainerConfig) : HostProgram String := do
  let request ← Program.ofExcept (containerRequest config platform cfg)
  let dockerId ← await (.createContainer request)
  let _ ← await (.inspect dockerId)
  .pure dockerId

def startContainer (dockerId : String) : HostProgram Unit :=
  (await (.start dockerId)).tryCatch fun e ↦
    if e.statusCode ≠ some 304 then .throw (failedTo ("start container " ++ dockerId) e)
    else .pure ()

def stopContainer (dockerId : String) : HostProgram Unit :=
  (await (.stop dockerId)).tryCatch fun e ↦
    if e.statusCode = some 304 then .pure ()
    else if e.statusCode = some 404 then .pure ()
    else .throw (failedTo ("stop container " ++ dockerId) e)

def removeContainer (dockerId : String) (force : Bool) : HostProgram Unit :=
  (await (.remove dockerId force)).tryCatch fun e ↦
    if e.statusCode ≠ some 404 then .throw (failedTo ("remove container " ++ dockerId) e)
    else .pure ()

/-- The declared size is the quota of the volume. -/
def ensureVolume (name : String) (sizeMb : Option Nat) (labels : Labels) : HostProgram Unit :=
  let size := (sizeMb.filter (· ≠ 0)).toList.map fun size ↦ ("privos.size-mb", toString size)
  (await (.createVolume name ([("mcp-app", "true")] ++ labels ++ size))).tryCatch fun e ↦
    if e.statusCode = some 409 then .pure () else .throw (failedTo ("create volume " ++ name) e)

/-- The labels of a volume, if it exists. -/
def inspectVolume (name : String) : HostProgram (Option Labels) := do
  match ← (await (.inspectVolume name)).settle with
  | .ok labels => .pure (some labels)
  | .error e =>
    if e.statusCode = some 404 then .pure none
    else .throw (failedTo ("inspect volume " ++ name) e)

def removeVolume (name : String) : HostProgram Unit :=
  (await (.removeVolume name)).tryCatch fun e ↦
    if e.statusCode = some 404 then .pure ()
    else .throw (failedTo ("remove volume " ++ name) e)

end ContainerManager

/-- The address is asked for up to three times. -/
def getInternalUrl (dockerId : String) (port : Int) : HostProgram String :=
  attempt.tryCatch fun _ ↦ attempt.tryCatch fun _ ↦ attempt
where
  attempt : HostProgram String := do
    let info ← await (.inspect dockerId)
    match networkIpFor info.toDockerContainer with
    | some ip => .pure ("http://" ++ ip ++ ":" ++ toString port)
    | none => .throw (jsError "container has no app-network address")

/-! ## The view by labels -/

namespace DockerState

/-- A container of the view, with what Docker lists of it. -/
structure Found where
  container : Agent.Container
  record : HostContainer

def listed (entry : String × HostContainer) : ListedContainer where
  container := mapListEntryToContainer entry.1 entry.2.toDockerContainer
  dockerCreatedMs := entry.2.created * 1000

/-- One container for each id. -/
def activeOf (list : List (String × HostContainer)) : List Found :=
  (pickActivePerId (list.map listed)).filterMap fun container ↦
    (list.lookup container.dockerContainerId).map fun record ↦ ⟨container, record⟩

/-- The labels that a lookup by id filters with. -/
def scopeLabels (id : String) (workspaceId : Option String) : Labels :=
  [managedLabel, ("privos.id", id)] ++
    (truthy workspaceId).toList.map fun workspaceId ↦ ("privos.workspace", workspaceId)

def getById (config : HostConfig) (id : String) (workspaceId : Option String) :
    HostProgram (Option Found) := do
  Program.throwIf (config.fleetMode = true ∧ truthy workspaceId = none)
    (jsError "workspace scope required")
  let list ← await (.listContainers (scopeLabels id workspaceId))
  .pure (activeOf list).head?

/-- A v3 container is not served under a host of the legacy proxy. -/
def findByHost (subdomain : String) (domain : Option String) : HostProgram (Option Found) := do
  let list ← await (.listContainers ([managedLabel, ("privos.subdomain", subdomain)] ++
    (truthy domain).toList.map fun domain ↦ ("privos.domain", domain)))
  .pure ((activeOf list).find? fun found ↦
    DockerStateMapper.labelOrNull found.record.labels "privos.domain" = domain ∧
      DockerStateMapper.schemaOf found.record.labels ≠ some "3")

end DockerState

/-! ## The network manager -/

namespace NetworkManager

def canAttachAgentToWorkspaceNetwork (networkMode : Option String) : Bool :=
  networkMode ≠ some "host" &&
    !networkMode.any fun mode ↦ "container:".toList.isPrefixOf mode.toList

variable (config : HostConfig)

def attachAgent (networkName : String) : HostProgram Unit := do
  let networkMode ← await (.inspectAgent config.fleetAgentContainer)
  Program.onlyIf (canAttachAgentToWorkspaceNetwork networkMode = true) (do
    let (info : NetworkInfo) ← await (.inspectNetwork networkName)
    Program.onlyIf (config.fleetAgentContainer ∉ info)
      ((await (.connectNetwork networkName config.fleetAgentContainer)).tryCatch fun e ↦
        if e.statusCode ≠ some 403 ∧ includes e.message "already exists" = false then
          .throw (failedTo ("attach " ++ config.fleetAgentContainer ++ " to " ++ networkName) e)
        else .pure ()))

/-- A network that exists is as good as a new one. -/
def ensureNetwork (workspaceId : Option String) : HostProgram Unit :=
  if config.fleetMode = true ∧ truthy workspaceId = none then .pure ()
  else do
    let networkName ← Program.ofExcept (appNetworkName config workspaceId)
    (await (.createNetwork networkName)).tryCatch fun e ↦
      if e.statusCode ≠ some 409 then .throw (failedTo ("create network " ++ networkName) e)
      else .pure ()
    Program.onlyIf (config.fleetMode = true) (attachAgent config networkName)

/-- The network is removed once nothing is attached to it but the agent. -/
def removeUnattached (networkName : String) (info : NetworkInfo) : HostProgram Bool := do
  let nonAgent := info.filter (· ≠ config.fleetAgentContainer)
  if nonAgent ≠ [] then .pure false
  else do
    Program.onlyIf (nonAgent.length < info.length) (do
      let _ ← (await (.disconnectNetwork networkName config.fleetAgentContainer)).settle
      .pure ())
    let removed ← (await (.removeNetwork networkName)).settle
    .pure removed.toOption.isSome

/-- A stopped container keeps its network. -/
def removeUnreferenced (networkName : String) (info : NetworkInfo) : HostProgram Bool := do
  let (referencing : List (String × HostContainer)) ← await (.listContainers [managedLabel])
  if referencing.any fun entry ↦ entry.2.networkMode = some networkName then .pure false
  else removeUnattached config networkName info

def removeWorkspaceNetworkIfUnused (workspaceId : String) : HostProgram Bool :=
  if config.fleetMode = false then .pure false
  else do
    let networkName ← Program.ofExcept (appNetworkName config (some workspaceId))
    if ¬ isWorkspaceAppNetwork networkName then .pure false
    else do
      let info ← (await (.inspectNetwork networkName)).settle
      match info with
      | .ok (info : NetworkInfo) => removeUnreferenced config networkName info
      | .error e => if e.statusCode = some 404 then .pure false else .throw e

/-- `name.slice('privos-ws-'.length, -'-apps'.length)` -/
def workspaceOf (name : String) : String :=
  String.ofList ((name.toList.drop 10).take (name.toList.length - 15))

def sweepOne (cutoff : Time) (removed : List String) (summary : String × Option Time) :
    HostProgram (List String) := do
  if ¬ isWorkspaceAppNetwork summary.1 then .pure removed
  else if summary.2.any (cutoff < ·) then .pure removed
  else do
    let gone ← removeWorkspaceNetworkIfUnused config (workspaceOf summary.1)
    .pure (if gone then removed ++ [summary.1] else removed)

def sweepUnusedWorkspaceNetworks (minAgeMs : Nat) : HostProgram (List String) :=
  if config.fleetMode = false then .pure []
  else do
    let networks ← await .listNetworks
    let (time : Time) ← await .now
    Program.foldEach (sweepOne config (time - (minAgeMs : Int))) [] networks

end NetworkManager

end PrivosCluster.AgentHost
