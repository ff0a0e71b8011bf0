import PrivosCluster.Agent.ContainerView

/-!
# The host of an agent

The containers, volumes and networks of the Docker daemon, and the broker that hands the app
containers their attestations. A call may fail before it has taken effect, or afterwards: then the
answer alone is lost.
-/

namespace PrivosCluster.AgentHost

open AsyncProgram Agent

/-- An error of Docker or of the file system. -/
structure CallError extends AgentError where
  code : Option String := none
deriving DecidableEq

structure HostError extends CallError where
  bindingMissing : Bool := false
deriving DecidableEq

/-- `new Error(message)` -/
def jsError (message : String) : HostError := { message }

/-! ## Docker -/

structure HostContainer extends DockerContainer where
  name : String := ""
  image : String := ""
  mounts : List DockerStateMapper.DockerMount := []

/-- The named volumes among mounts. -/
def volumesOf (mounts : List DockerStateMapper.DockerMount) : List String :=
  mounts.filterMap fun mount ↦
    if mount.type = some "volume" then Routing.truthy mount.name else none

structure Network where
  /-- `Date.parse` of the time of creation, if Docker tells it. -/
  created : Option Time
  /-- The names of what is attached, apart from the containers that run in the network. -/
  attached : List String

/-- What Docker is asked to create, apart from limits and environment. -/
structure ContainerRequest where
  name : String
  image : String
  labels : Labels
  networkMode : String
  mounts : List DockerStateMapper.DockerMount

/-! ## The broker -/

/-- What the broker attests for a replica. -/
inductive ReplicaBinding where
  | v2 (binding : McpRuntimeBinding) (containerId dockerContainerId networkName : String)
  /-- Without the hash of an inventory the generation is still being provisioned. -/
  | v3 (binding : McpRuntimeBindingV3) (dockerContainerId networkName : String)

def ReplicaBinding.replicaId : ReplicaBinding → String
  | v2 binding _ _ _ => binding.replicaId
  | v3 binding _ _ => binding.replicaId

/-- A server that listens on the socket of a replica. -/
structure Server where
  handle : Nat
  binding : ReplicaBinding

/-- The copy of a binding in the folder that the app container mounts. -/
structure LegacyFile where
  /-- A regular file of the agent's own that nobody else can open. -/
  safe : Bool
  raw : String

structure Host where
  containers : AList fun _ : String ↦ HostContainer
  /-- The labels of the volumes. -/
  volumes : AList fun _ : String ↦ Labels
  networks : AList fun _ : String ↦ Network
  /-- The servers of the broker, by replica. -/
  servers : AList fun _ : String ↦ Server
  /-- The handles of the servers that were ever made are below this one. -/
  handles : Nat
  stored : AList fun _ : String ↦ String
  legacy : AList fun _ : String ↦ LegacyFile
  clock : Time

namespace Host

variable (host : Host)

def put (dockerId : String) (container : HostContainer) : Host :=
  { host with containers := host.containers.insert dockerId container }

def putNetwork (name : String) (network : Network) : Host :=
  { host with networks := host.networks.insert name network }

def isUp (dockerId : String) : Bool := (host.containers.lookup dockerId).any (·.status.isUp)

/-- The containers that a listing with label filters shows. -/
def matching (labels : Labels) : List (String × HostContainer) :=
  (host.containers.entries.map fun entry ↦ (entry.1, entry.2)).filter fun entry ↦
    labels.all fun label ↦ entry.2.labels.lookup label.1 == some label.2

def mounted (volume : String) : Bool :=
  host.containers.entries.any fun entry ↦ (volumesOf entry.2.mounts).contains volume

/-- The names of the containers that run in a network. -/
def runningIn (network : String) : List String :=
  (host.containers.entries.filter fun entry ↦
    entry.2.status.isUp && entry.2.networkMode == some network).map fun entry ↦ entry.2.name

end Host

/-! ## Calls -/

inductive HostCall where
  /-- `containers/json` with label filters, stopped containers included. -/
  | listContainers (labels : Labels)
  | inspect (dockerId : String)
  | createContainer (request : ContainerRequest)
  | start (dockerId : String)
  | stop (dockerId : String)
  | remove (dockerId : String) (force : Bool)
  | createVolume (name : String) (labels : Labels)
  | inspectVolume (name : String)
  | removeVolume (name : String)
  /-- The volumes with the label of an app. -/
  | listVolumes
  | createNetwork (name : String)
  | inspectNetwork (name : String)
  | connectNetwork (name container : String)
  | disconnectNetwork (name container : String)
  | removeNetwork (name : String)
  | listNetworks
  /-- The network mode of the container that the agent itself runs in. -/
  | inspectAgent (container : String)
  | inspectImage (reference : String)
  | pull (reference : String)
  | followPull (reference : String)
  /-- What is short, and how much of it is there, if the budget of the host leaves no room. -/
  | checkResources (memoryMb cpus : Rat)
  /-- Probes of the app until it answers, or for as long as a start may take. -/
  | waitForHealthy (internalUrl : String)
  | now
  | randomUUID
  | makeDirectory (replicaId : String)
  | makeStateRoot
  | readStore (replicaId : String)
  | readLegacy (replicaId : String)
  | writeStore (replicaId raw : String)
  | writeLegacy (replicaId raw : String)
  | removeStore (replicaId : String)
  | removeDirectory (replicaId : String)
  | removeSocket (replicaId : String)
  | listen (socketPath : String)
  | chmodSocket (replicaId : String)
  | setServer (replicaId : String) (server : Server)
  | close (replicaId : String)
  | isBound (replicaId : String)

/-- An inspected network: the names of what is attached to it. -/
abbrev NetworkInfo := List String

inductive ShortResource where
  | memory
  | cpu
deriving DecidableEq

def HostCall.Answer : HostCall → Type
  | .listContainers _ => List (String × HostContainer)
  | .inspect _ => HostContainer
  | .createContainer _ => String
  | .inspectVolume _ => Labels
  | .listVolumes => List String
  | .inspectNetwork _ => NetworkInfo
  | .listNetworks => List (String × Option Time)
  | .inspectAgent _ => Option String
  | .checkResources _ _ => Option (ShortResource × Rat)
  | .waitForHealthy _ => Bool
  | .now => Time
  | .randomUUID => String
  | .readStore _ => String
  | .readLegacy _ => LegacyFile
  | .listen _ => Nat
  | .isBound _ => Bool
  | _ => Unit

abbrev hostSignature : Signature := ⟨HostCall, HostCall.Answer⟩

/-- What happens at a call apart from what the call asks for. -/
structure HostChoice where
  failure : Option CallError := none
  /-- The call fails, but it has taken effect. -/
  effective : Bool := false
  /-- The Docker id of a container that is created, and when. -/
  dockerId : String := ""
  created : Nat := 0
  /-- The endpoints of a container that is started. -/
  endpoints : List NetworkEndpoint := []
  /-- Docker says of a volume that exists that it does. -/
  conflict : Bool := false
  agentMode : Option String := none
  short : Option (ShortResource × Rat) := none
  healthy : Bool := true
  uuid : String := ""
  elapsed : Nat := 0

/-- The call has taken effect. -/
def HostChoice.done (x : HostChoice) : Bool := x.failure.isNone || x.effective

def noSuch (what : String) : HostError := { message := "no such " ++ what, statusCode := some 404 }

def notModified : HostError := { message := "not modified", statusCode := some 304 }

def conflict (message : String) : HostError := { message, statusCode := some 409 }

def enoent : HostError := { message := "no such file or directory", code := some "ENOENT" }

def created (request : ContainerRequest) (x : HostChoice) : HostContainer where
  status := .created
  name := request.name
  image := request.image
  labels := request.labels
  networkMode := some request.networkMode
  mounts := request.mounts
  created := x.created

/-- How the host carries out a call. -/
def serve (x : HostChoice) : (c : HostCall) → Host → Except HostError c.Answer × Host
  | .listContainers labels, host => (.ok (host.matching labels), host)
  | .inspect dockerId, host =>
    (match host.containers.lookup dockerId with
      | some container => .ok container
      | none => .error (noSuch "container"), host)
  | .createContainer request, host =>
    (.ok x.dockerId, host.put x.dockerId (created request x))
  | .start dockerId, host =>
    match host.containers.lookup dockerId with
    | none => (.error (noSuch "container"), host)
    | some container =>
      if container.status.isUp then (.error notModified, host)
      else if ¬ container.networkMode.all (· ∈ host.networks) then
        (.error (noSuch "network"), host)
      else
        (.ok (), host.put dockerId { container with status := .running, networks := x.endpoints })
  | .stop dockerId, host =>
    match host.containers.lookup dockerId with
    | none => (.error (noSuch "container"), host)
    | some container =>
      if container.status.isUp then
        (.ok (), host.put dockerId { container with status := .exited })
      else (.error notModified, host)
  | .remove dockerId force, host =>
    if host.isUp dockerId && !force then (.error (conflict "container is running"), host)
    else if dockerId ∈ host.containers then
      (.ok (), { host with containers := host.containers.erase dockerId })
    else (.error (noSuch "container"), host)
  | .createVolume name labels, host =>
    if name ∈ host.volumes then
      (if x.conflict then .error (conflict "volume exists") else .ok (), host)
    else (.ok (), { host with volumes := host.volumes.insert name labels })
  | .inspectVolume name, host =>
    (match host.volumes.lookup name with
      | some labels => .ok labels
      | none => .error (noSuch "volume"), host)
  | .removeVolume name, host =>
    if host.mounted name then (.error (conflict "volume is in use"), host)
    else if name ∈ host.volumes then (.ok (), { host with volumes := host.volumes.erase name })
    else (.error (noSuch "volume"), host)
  | .listVolumes, host =>
    (.ok ((host.volumes.entries.filter fun entry ↦
      entry.2.lookup "mcp-app" == some "true").map (·.1)), host)
  | .createNetwork name, host =>
    if name ∈ host.networks then (.error (conflict "network exists"), host)
    else (.ok (), host.putNetwork name ⟨some host.clock, []⟩)
  | .inspectNetwork name, host =>
    (match host.networks.lookup name with
      | some network => .ok (network.attached ++ host.runningIn name)
      | none => .error (noSuch "network"), host)
  | .connectNetwork name container, host =>
    match host.networks.lookup name with
    | some network =>
      (.ok (), host.putNetwork name { network with attached := network.attached ++ [container] })
    | none => (.error (noSuch "network"), host)
  | .disconnectNetwork name container, host =>
    match host.networks.lookup name with
    | some network =>
      (.ok (), host.putNetwork name
        { network with attached := network.attached.filter (· ≠ container) })
    | none => (.error (noSuch "network"), host)
  | .removeNetwork name, host =>
    match host.networks.lookup name with
    | some network =>
      if network.attached ++ host.runningIn name = [] then
        (.ok (), { host with networks := host.networks.erase name })
      else (.error { message := "network has active endpoints", statusCode := some 403 }, host)
    | none => (.error (noSuch "network"), host)
  | .listNetworks, host =>
    (.ok (host.networks.entries.map fun entry ↦ (entry.1, entry.2.created)), host)
  | .inspectAgent _, host => (.ok x.agentMode, host)
  | .inspectImage _, host => (.ok (), host)
  | .pull _, host => (.ok (), host)
  | .followPull _, host => (.ok (), host)
  | .checkResources _ _, host => (.ok x.short, host)
  | .waitForHealthy _, host => (.ok x.healthy, host)
  | .now, host =>
    let time : Time := host.clock + (x.elapsed : Int)
    (.ok time, { host with clock := time })
  | .randomUUID, host => (.ok x.uuid, host)
  | .makeDirectory _, host => (.ok (), host)
  | .makeStateRoot, host => (.ok (), host)
  | .readStore replicaId, host =>
    (match host.stored.lookup replicaId with
      | some raw => .ok raw
      | none => .error enoent, host)
  | .readLegacy replicaId, host =>
    (match host.legacy.lookup replicaId with
      | some file => .ok file
      | none => .error enoent, host)
  | .writeStore replicaId raw, host =>
    (.ok (), { host with stored := host.stored.insert replicaId raw })
  | .writeLegacy replicaId raw, host =>
    (.ok (), { host with legacy := host.legacy.insert replicaId ⟨true, raw⟩ })
  | .removeStore replicaId, host => (.ok (), { host with stored := host.stored.erase replicaId })
  | .removeDirectory replicaId, host =>
    (.ok (), { host with legacy := host.legacy.erase replicaId })
  | .removeSocket _, host => (.ok (), host)
  | .listen _, host => (.ok host.handles, { host with handles := host.handles + 1 })
  | .chmodSocket _, host => (.ok (), host)
  | .setServer replicaId server, host =>
    (.ok (), { host with servers := host.servers.insert replicaId server })
  | .close replicaId, host => (.ok (), { host with servers := host.servers.erase replicaId })
  | .isBound replicaId, host => (.ok (decide (replicaId ∈ host.servers)), host)

/-- Memory, the clock and the probes of an app do not fail. -/
def HostCall.fallible : HostCall → Bool
  | .waitForHealthy _ => false
  | .now => false
  | .randomUUID => false
  | .setServer _ _ => false
  | .close _ => false
  | .isBound _ => false
  | _ => true

/-- The statuses by which Docker says that there is nothing left to do. -/
def HostCall.settledBy : HostCall → List Nat
  | .start _ => [304]
  | .stop _ => [304, 404]
  | .remove _ _ => [404]
  | .createVolume _ _ => [409]
  | .inspectVolume _ => [404]
  | .removeVolume _ => [404]
  | .createNetwork _ => [409]
  | .inspectNetwork _ => [404]
  | .removeNetwork _ => [404]
  | _ => []

/-- The calls whose `ENOENT` says that a file is missing. -/
def HostCall.reads : HostCall → Bool
  | .readStore _ => true
  | .readLegacy _ => true
  | _ => false

/-- A failure does not say that there is nothing to do, or no file, where there is. -/
def HostCall.honest (c : HostCall) (e : CallError) : Bool :=
  !e.statusCode.any (c.settledBy.contains ·) && !(c.reads && e.code = some "ENOENT")

/-- Calls that take no effect when they fail are what the law leaves to the environment. -/
def permitsHost (c : HostCall) (x : HostChoice) (host : Host) : Prop :=
  (x.failure.all c.honest = true) ∧ (c.fallible = false → x.failure = none) ∧
    (match c with
      | .createContainer _ => x.dockerId ∉ host.containers
      | _ => True)

instance (c : HostCall) (x : HostChoice) (host : Host) : Decidable (permitsHost c x host) := by
  unfold permitsHost
  cases c <;> infer_instance

def respondHost (c : HostCall) (x : HostChoice) (host : Host) :
    Except HostError c.Answer × Host :=
  match x.failure with
  | some e => (.error { toCallError := e }, if x.effective then (serve x c host).2 else host)
  | none => serve x c host

/-- A law may bound the environment further. -/
def hostMachine (law : HostCall → HostChoice → Prop) :
    Machine hostSignature HostError Host HostChoice where
  permits c x host := permitsHost c x host ∧ law c x
  respond := respondHost

abbrev HostProgram := Program hostSignature HostError

abbrev await (c : HostCall) : HostProgram c.Answer := @Program.ask hostSignature HostError c

end PrivosCluster.AgentHost
