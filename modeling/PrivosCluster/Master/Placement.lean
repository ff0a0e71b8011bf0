import PrivosCluster.Master.Repositories

/-!
# Quota and scheduling

What a workspace may still install, and which nodes have room for the replicas of an app.
-/

namespace PrivosCluster

open AsyncProgram

def quotaError (code message : String) : JsError := { message, code := some (.text code) }

def schedulingError (code message : String) : JsError := { message, code := some (.text code) }

namespace Quota

def stalledProvisioningTimeoutMs : Int := 30 * 60 * 1000

/-- A quarantined app counts as long as it awaits its activation. -/
def isInstalledForQuota (app : MasterApp) (time : Time) : Bool :=
  match app.state with
  | .running => true
  | .stopped => true
  | .quarantined => app.quarantinedAt.isNone
  | .provisioning => time - app.createdAt < stalledProvisioningTimeoutMs
  | _ => false

def installedCandidateStates : List AppState := [.running, .stopped, .quarantined, .provisioning]

structure Usage where
  memoryMb : Int
  cpus : Rat

/-- What a number of replicas of one size reserve. -/
def Usage.ofReplicas (resources : ContainerResources) (replicaCount : Nat) : Usage :=
  ⟨resources.memoryMb * replicaCount, resources.cpus * replicaCount⟩

def Usage.add (used more : Usage) : Usage := ⟨used.memoryMb + more.memoryMb, used.cpus + more.cpus⟩

def used (installed : List MasterApp) : Usage :=
  installed.foldl (fun total app ↦ total.add (.ofReplicas app.resources app.replicas.length)) ⟨0, 0⟩

/-- The active workspace and the apps installed in it. -/
def installedApps (workspaceId : String) : Async (MasterWorkspace × List MasterApp) := do
  let time ← now
  let (workspace, candidates) ← promiseBoth
    (Workspaces.findOne fun workspace ↦
      workspace.workspaceId == workspaceId && workspace.status == .active)
    (Apps.find fun app ↦
      app.workspaceId == workspaceId && installedCandidateStates.contains app.state)
  match workspace with
  | none => .throw (quotaError "WORKSPACE_NOT_FOUND" "workspace not found")
  | some workspace => .pure (workspace, candidates.filter (isInstalledForQuota · time))

/-- The checks on memory and CPU, for what is wanted on top of what is used. -/
def assertWithin (quota : WorkspaceQuota) (wanted : Usage) : Async Unit := do
  Program.throwIf (wanted.memoryMb > quota.maxMemoryMb)
    (quotaError "MEMORY_QUOTA_EXCEEDED" "workspace reserved memory quota exceeded")
  Program.throwIf (wanted.cpus > quota.maxCpus)
    (quotaError "CPU_QUOTA_EXCEEDED" "workspace reserved CPU quota exceeded")

def assertDeployAllowed (workspaceId : String) (resources : ContainerResources)
    (replicaCount : Nat) : Async Unit := do
  let (workspace, installed) ← installedApps workspaceId
  Program.throwIf ((installed.length : Int) ≥ workspace.quota.maxApps)
    (quotaError "APP_QUOTA_EXCEEDED" "workspace app count quota exceeded")
  assertWithin workspace.quota ((used installed).add (.ofReplicas resources replicaCount))

/-- A resize is charged the difference between the new and the present resources. -/
def assertResizeAllowed (workspaceId : String) (app : MasterApp)
    (newResources : ContainerResources) : Async Unit := do
  let (workspace, installed) ← installedApps workspaceId
  assertWithin workspace.quota ((used installed).add
    ⟨((newResources.memoryMb : Int) - app.resources.memoryMb) * app.replicas.length,
      (newResources.cpus - app.resources.cpus) * app.replicas.length⟩)

def assertAdditionalReplicaAllowed (workspaceId : String) (resources : ContainerResources) :
    Async Unit := do
  let (workspace, installed) ← installedApps workspaceId
  assertWithin workspace.quota ((used installed).add (.ofReplicas resources 1))

end Quota

namespace Scheduler

structure NodeReservation where
  nodeId : String
  memoryMb : Nat
  cpus : Rat
  diskBytes : Nat
deriving DecidableEq

/-- What the replicas of an app reserve on their nodes. -/
def reservationsOf (diskBytes : Nat) (app : MasterApp) : List NodeReservation :=
  app.replicas.map fun replica ↦
    ⟨replica.nodeId, app.resources.memoryMb, app.resources.cpus, diskBytes⟩

def remainingNodeCapacity (node : MasterNode) (reservations : List NodeReservation) :
    NodeCapacity :=
  let onNode := reservations.filter fun reservation ↦ reservation.nodeId == node.nodeId
  { memoryMb := node.capacity.memoryMb - (onNode.map fun r ↦ (r.memoryMb : Int)).sum
    cpus := node.capacity.cpus - (onNode.map (·.cpus)).sum
    diskBytes := node.capacity.diskBytes - (onNode.map fun r ↦ (r.diskBytes : Int)).sum }

/-- Whether the sort may leave `a` before `b`: more free memory first, then more free disk. -/
def freer (a b : MasterNode × NodeCapacity) : Bool :=
  b.2.memoryMb < a.2.memoryMb ||
    (b.2.memoryMb == a.2.memoryMb && b.2.diskBytes ≤ a.2.diskBytes)

/-- The node of the next replica: with room, and apart from the nodes chosen before. -/
def chooseNode (active : List MasterNode) (reservations : List NodeReservation)
    (resources : ContainerResources) (storageBytes : Nat) (selected : List MasterNode) :
    Option MasterNode :=
  let apart := active.filter fun node ↦ !selected.any fun item ↦
    item.nodeId == node.nodeId || item.failureDomain == node.failureDomain
  let candidates := (apart.map fun node ↦ (node, remainingNodeCapacity node reservations)).filter
    fun candidate ↦ (resources.memoryMb : Int) ≤ candidate.2.memoryMb &&
      resources.cpus ≤ candidate.2.cpus && (storageBytes : Int) ≤ candidate.2.diskBytes
  (candidates.insertionSort fun a b ↦ freer a b).head?.map (·.1)

def selectFrom (active : List MasterNode) (resources : ContainerResources) (storageBytes : Nat)
    (error : JsError) : Nat → List NodeReservation → List MasterNode → Except JsError (List MasterNode)
  | 0, _, selected => .ok selected
  | replicas + 1, reservations, selected =>
    match chooseNode active reservations resources storageBytes selected with
    | none => .error error
    | some chosen =>
      selectFrom active resources storageBytes error replicas
        (reservations ++ [⟨chosen.nodeId, resources.memoryMb, resources.cpus, storageBytes⟩])
        (selected ++ [chosen])

def selectNodes (nodes : List MasterNode) (reservations : List NodeReservation)
    (resources : ContainerResources) (storageBytes replicas : Nat) :
    Except JsError (List MasterNode) :=
  let error :=
    if 1 < replicas then
      schedulingError "HA_CAPACITY_UNAVAILABLE"
        "HA requires at least two active app nodes in distinct failure domains with capacity"
    else schedulingError "CAPACITY_UNAVAILABLE" "No active app node has enough reserved capacity"
  selectFrom (nodes.filter (·.status == .active)) resources storageBytes error replicas
    reservations []

end Scheduler

end PrivosCluster
