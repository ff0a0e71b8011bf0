import Mathlib.Data.List.AList
import PrivosCluster.AsyncProgram.Parallel
import PrivosCluster.Master.Types

/-!
# The node of a fleet agent

The Docker daemon, the file with the desired state of the containers, and what the agent keeps in
memory. Each call is one step of the node; between two calls of one task, others make theirs.
-/

namespace PrivosCluster.Agent

open AsyncProgram

/-- An error with the status that some caller reads. -/
structure AgentError where
  message : String
  statusCode : Option Nat := none
deriving DecidableEq

/-! ## Docker -/

/-- Docker's word for the state of a container. -/
inductive DockerStatus where
  | created
  | running
  | restarting
  | paused
  | removing
  | exited
  | dead
deriving DecidableEq

/-- The processes of the container are there. -/
def DockerStatus.isUp : DockerStatus → Bool
  | running => true
  | restarting => true
  | paused => true
  | _ => false

@[simp] theorem DockerStatus.isUp_running : running.isUp := rfl

@[simp] theorem DockerStatus.isUp_exited : exited.isUp = false := rfl

structure NetworkEndpoint where
  name : String
  networkId : Option String
  ipAddress : Option String

structure PublishedPort where
  privatePort : Nat
  type : String
  publicPort : Option Nat

structure DockerContainer where
  status : DockerStatus
  oomKilled : Bool := false
  /-- `State.FinishedAt` as `Date.parse` reads it. -/
  finishedAt : Option Time := none
  labels : List (String × String) := []
  networkMode : Option String := none
  networks : List NetworkEndpoint := []
  ports : List PublishedPort := []
  /-- The time of creation in seconds. -/
  created : Nat := 0

abbrev Containers := AList fun _ : String ↦ DockerContainer

namespace Containers

def isUp (containers : Containers) (dockerId : String) : Bool :=
  (containers.lookup dockerId).any (·.status.isUp)

/-- The container ends, on its own or because it is told to. -/
def exit (containers : Containers) (dockerId : String) (oomKilled : Bool) (time : Time) :
    Containers :=
  match containers.lookup dockerId with
  | some container =>
    if container.status.isUp then
      containers.insert dockerId { container with
        status := .exited, oomKilled := oomKilled, finishedAt := some time }
    else containers
  | none => containers

def run (containers : Containers) (dockerId : String) : Containers :=
  match containers.lookup dockerId with
  | some container =>
    containers.insert dockerId { container with status := .running, oomKilled := false }
  | none => containers

end Containers

def noSuchContainer : AgentError := ⟨"no such container", some 404⟩

instance : Nonempty AgentError := ⟨noSuchContainer⟩

def notModified : AgentError := ⟨"not modified", some 304⟩

def containerIsRunning : AgentError := ⟨"container is running", some 409⟩

/-! ## The desired state -/

inductive DesiredContainerState where
  | running
  | stopped
deriving DecidableEq

structure DesiredStateFile where
  bootId : String
  containers : AList fun _ : String ↦ DesiredContainerState

namespace DesiredStateFile

def empty : DesiredStateFile := ⟨"", ∅⟩

/-- What each operation makes of the file, and whether it has to be saved. -/
def mark (dockerId : String) (desired : DesiredContainerState) (state : DesiredStateFile) :
    DesiredStateFile × Bool :=
  if state.containers.lookup dockerId = some desired then (state, false)
  else ({ state with containers := state.containers.insert dockerId desired }, true)

def remove (dockerId : String) (state : DesiredStateFile) : DesiredStateFile × Bool :=
  if dockerId ∈ state.containers then
    ({ state with containers := state.containers.erase dockerId }, true)
  else (state, false)

def seedOne (state : DesiredStateFile × Bool) (dockerId : String) : DesiredStateFile × Bool :=
  if dockerId ∈ state.1.containers then state
  else ({ state.1 with containers := state.1.containers.insert dockerId .running }, true)

def seedAndStamp (runningIds : List String) (bootId : String) (state : DesiredStateFile) :
    DesiredStateFile × Bool :=
  runningIds.foldl seedOne ({ state with bootId := bootId }, state.bootId ≠ bootId)

end DesiredStateFile

/-- The file on disk. -/
inductive DesiredStorage where
  | missing
  | corrupt
  | stored (state : DesiredStateFile)

namespace DesiredStorage

/-- A file that does not parse is moved aside and treated as absent. -/
def load : DesiredStorage → Option DesiredStateFile × DesiredStorage
  | missing => (none, missing)
  | corrupt => (none, missing)
  | stored state => (some state, stored state)

def change (mutate : DesiredStateFile → DesiredStateFile × Bool) (storage : DesiredStorage) :
    DesiredStorage :=
  let (state, storage) := storage.load
  let (next, changed) := mutate (state.getD .empty)
  if changed then .stored next else storage

/-- The recorded state of a container. -/
def record (storage : DesiredStorage) (dockerId : String) : Option DesiredContainerState :=
  storage.load.1.bind (·.containers.lookup dockerId)

end DesiredStorage

/-! ## The node -/

inductive HealthStatus where
  | unknown
  | healthy
  | unhealthy
deriving DecidableEq

structure HealthCheck where
  status : HealthStatus
  failCount : Nat
  restartCount : Nat
  lastCheck : Option Time
deriving DecidableEq

structure Node where
  containers : Containers
  desired : DesiredStorage
  /-- The boot id of the host. -/
  bootId : String
  /-- The items that the workers of a pool have not taken yet. -/
  queue : List String
  healthState : AList fun _ : String ↦ HealthCheck
  oomState : AList fun _ : String ↦ Time
  /-- A tick of the health monitor is under way. -/
  busy : Bool
  clock : Time

/-- The calls of the agent's tasks. -/
inductive NodeCall where
  /-- `containers/json` with label filters, stopped containers included. -/
  | listContainers (labels : List (String × String))
  | inspect (dockerId : String)
  | start (dockerId : String)
  | stop (dockerId : String)
  | restart (dockerId : String)
  | remove (dockerId : String) (force : Bool)
  | markDesired (dockerId : String) (desired : DesiredContainerState)
  | removeDesired (dockerId : String)
  | seedAndStamp (runningIds : List String) (bootId : String)
  | readDesired
  | readBootId
  | repairNetwork (dockerId networkName workspaceId : String) (endpointNetworkId : Option String)
  | isBound (replicaId : String)
  /-- Whose turn it is among two tasks. -/
  | turn
  | fillQueue (items : List String)
  | shiftQueue
  /-- An HTTP request; the answer is its status. -/
  | fetch (url : String)
  | now
  /-- `if (busy) return; busy = true` -/
  | enterTick
  | leaveTick
  | getHealth (id : String)
  | setHealth (id : String) (check : HealthCheck)
  | getOom (id : String)
  | setOom (id : String) (time : Time)
  /-- Forget the health and the OOM signal of all other ids. -/
  | prune (liveIds : List String)

def NodeCall.Answer : NodeCall → Type
  | .listContainers _ => List (String × DockerContainer)
  | .inspect _ => DockerContainer
  | .readDesired => Option DesiredStateFile
  | .readBootId => String
  | .repairNetwork _ _ _ _ => Bool
  | .isBound _ => Bool
  | .turn => Bool
  | .shiftQueue => Option String
  | .fetch _ => Nat
  | .now => Time
  | .enterTick => Bool
  | .getHealth _ => Option HealthCheck
  | .getOom _ => Option Time
  | _ => Unit

def nodeSignature : Signature := ⟨NodeCall, NodeCall.Answer⟩

/-- What happens at a call apart from what the call asks for. -/
structure NodeChoice where
  /-- The call fails, and nothing has been done. -/
  failure : Option AgentError := none
  /-- Containers that end on their own just before the call, each by the OOM killer or not. -/
  exits : List (String × Bool) := []
  left : Bool := true
  bound : Bool := true
  repaired : Bool := false
  status : Nat := 200
  elapsed : Nat := 0

theorem mem_pairs_iff {β : Type} {map : AList fun _ : String ↦ β} {entry : String × β} :
    entry ∈ map.entries.map (fun entry ↦ (entry.1, entry.2)) ↔
      map.lookup entry.1 = some entry.2 := by
  rw [List.mem_map]
  constructor
  · rintro ⟨found, hfound, rfl⟩
    exact AList.mem_lookup_iff.mpr hfound
  · intro hfound
    exact ⟨⟨entry.1, entry.2⟩, AList.mem_lookup_iff.mp hfound, rfl⟩

/-- The containers a listing shows. -/
def Containers.matching (containers : Containers) (labels : List (String × String)) :
    List (String × DockerContainer) :=
  (containers.entries.map fun entry ↦ (entry.1, entry.2)).filter fun entry ↦
    labels.all fun label ↦ entry.2.labels.lookup label.1 == some label.2

def Node.afterExits (exits : List (String × Bool)) (node : Node) : Node :=
  { node with containers :=
      exits.foldl (fun containers e ↦ containers.exit e.1 e.2 node.clock) node.containers }

def keepIds {β : String → Type} (ids : List String) (entries : AList β) : AList β :=
  (entries.keys.filter (· ∉ ids)).foldl (fun entries id ↦ entries.erase id) entries

/-- How the node carries out a call that does not fail. -/
def serve (x : NodeChoice) : (c : NodeCall) → Node → Except AgentError c.Answer × Node
  | .listContainers labels, node => (.ok (node.containers.matching labels), node)
  | .inspect dockerId, node =>
    (match node.containers.lookup dockerId with
      | some container => .ok container
      | none => .error noSuchContainer, node)
  | .start dockerId, node =>
    if node.containers.isUp dockerId then (.error notModified, node)
    else if dockerId ∈ node.containers then
      (.ok (), { node with containers := node.containers.run dockerId })
    else (.error noSuchContainer, node)
  | .stop dockerId, node =>
    if node.containers.isUp dockerId then
      (.ok (), { node with containers := node.containers.exit dockerId false node.clock })
    else if dockerId ∈ node.containers then (.error notModified, node)
    else (.error noSuchContainer, node)
  | .restart dockerId, node =>
    if dockerId ∈ node.containers then
      (.ok (), { node with containers := node.containers.run dockerId })
    else (.error noSuchContainer, node)
  | .remove dockerId force, node =>
    if node.containers.isUp dockerId && !force then (.error containerIsRunning, node)
    else if dockerId ∈ node.containers then
      (.ok (), { node with containers := node.containers.erase dockerId })
    else (.error noSuchContainer, node)
  | .markDesired dockerId desired, node =>
    (.ok (), { node with desired := node.desired.change (DesiredStateFile.mark dockerId desired) })
  | .removeDesired dockerId, node =>
    (.ok (), { node with desired := node.desired.change (DesiredStateFile.remove dockerId) })
  | .seedAndStamp runningIds bootId, node =>
    (.ok (), { node with
      desired := node.desired.change (DesiredStateFile.seedAndStamp runningIds bootId) })
  | .readDesired, node => (.ok node.desired.load.1, { node with desired := node.desired.load.2 })
  | .readBootId, node => (.ok node.bootId, node)
  | .repairNetwork _ _ _ _, node => (.ok x.repaired, node)
  | .isBound _, node => (.ok x.bound, node)
  | .turn, node => (.ok x.left, node)
  | .fillQueue items, node => (.ok (), { node with queue := items })
  | .shiftQueue, node => (.ok node.queue.head?, { node with queue := node.queue.tail })
  | .fetch _, node => (.ok x.status, node)
  | .now, node =>
    let time : Time := node.clock + (x.elapsed : Int)
    (.ok time, { node with clock := time })
  | .enterTick, node => (.ok (!node.busy), { node with busy := true })
  | .leaveTick, node => (.ok (), { node with busy := false })
  | .getHealth id, node => (.ok (node.healthState.lookup id), node)
  | .setHealth id check, node =>
    (.ok (), { node with healthState := node.healthState.insert id check })
  | .getOom id, node => (.ok (node.oomState.lookup id), node)
  | .setOom id time, node => (.ok (), { node with oomState := node.oomState.insert id time })
  | .prune liveIds, node =>
    (.ok (), { node with
      healthState := keepIds liveIds node.healthState
      oomState := keepIds liveIds node.oomState })

/-- How a failure shows: operations on the desired state log it, and memory does not fail. -/
def failed (x : NodeChoice) (e : AgentError) (c : NodeCall) (node : Node) :
    Except AgentError c.Answer × Node :=
  match c with
  | .markDesired _ _ => (.ok (), node)
  | .removeDesired _ => (.ok (), node)
  | .seedAndStamp _ _ => (.ok (), node)
  | .readDesired => (.ok none, node)
  | .listContainers _ => (.error e, node)
  | .inspect _ => (.error e, node)
  | .start _ => (.error e, node)
  | .stop _ => (.error e, node)
  | .restart _ => (.error e, node)
  | .remove _ _ => (.error e, node)
  | .readBootId => (.error e, node)
  | .repairNetwork _ _ _ _ => (.error e, node)
  | .fetch _ => (.error e, node)
  | c => serve x c node

def respondNode (c : NodeCall) (x : NodeChoice) (node : Node) :
    Except AgentError c.Answer × Node :=
  match x.failure with
  | some e => failed x e c (node.afterExits x.exits)
  | none => serve x c (node.afterExits x.exits)

abbrev NodeLaw := NodeCall → NodeChoice → Node → Prop

def nodeMachine (law : NodeLaw) : Machine nodeSignature AgentError Node NodeChoice where
  permits := law
  respond := respondNode

abbrev NodeProgram := Program nodeSignature AgentError

abbrev await (c : NodeCall) : NodeProgram c.Answer := @Program.ask nodeSignature AgentError c

/-- Whose turn it is; the first task goes on if the question itself fails. -/
def turns : Scheduler nodeSignature AgentError where
  turn := NodeCall.turn
  isLeft answer :=
    match answer with
    | .ok (left : Bool) => left
    | .error _ => true

/-! ## The container manager -/

structure AgentConfig where
  fleetMode : Bool
  /-- `APP_NETWORK_NAME`, unless it is blank. -/
  appNetworkName : Option String
  dockerNetwork : String

/-- Outside fleet mode the store does nothing. -/
structure DesiredStateStore where
  enabled : Bool

namespace DesiredStateStore

variable (store : DesiredStateStore)

def mark (dockerId : String) (desired : DesiredContainerState) : NodeProgram Unit :=
  Program.onlyIf (store.enabled = true) (await (.markDesired dockerId desired))

def remove (dockerId : String) : NodeProgram Unit :=
  Program.onlyIf (store.enabled = true) (await (.removeDesired dockerId))

def seedAndStamp (runningIds : List String) (bootId : String) : NodeProgram Unit :=
  Program.onlyIf (store.enabled = true) (await (.seedAndStamp runningIds bootId))

def read : NodeProgram (Option DesiredStateFile) :=
  if store.enabled then await .readDesired else .pure none

def get (dockerId : String) : NodeProgram (Option DesiredContainerState) := do
  let state ← store.read
  .pure (state.bind (·.containers.lookup dockerId))

end DesiredStateStore

namespace ContainerManager

/-- Docker start only; a container that runs already is fine. -/
def startContainerWithoutRecord (dockerId : String) : NodeProgram Unit :=
  (await (.start dockerId)).tryCatch fun e ↦
    if e.statusCode ≠ some 304 then
      .throw { message := "Failed to start container " ++ dockerId ++ ": " ++ e.message }
    else .pure ()

def startContainer (store : DesiredStateStore) (dockerId : String) : NodeProgram Unit := do
  startContainerWithoutRecord dockerId
  store.mark dockerId .running

/-- Docker stop only; a container that is stopped or gone is fine. -/
def stopContainerWithoutRecord (dockerId : String) : NodeProgram Unit :=
  (await (.stop dockerId)).tryCatch fun e ↦
    if e.statusCode = some 304 then .pure ()
    else if e.statusCode = some 404 then .pure ()
    else .throw { message := "Failed to stop container " ++ dockerId ++ ": " ++ e.message }

/-- The stop is recorded before Docker is asked. -/
def stopContainer (store : DesiredStateStore) (dockerId : String) : NodeProgram Unit := do
  store.mark dockerId .stopped
  stopContainerWithoutRecord dockerId

def restartContainer (dockerId : String) : NodeProgram Unit := await (.restart dockerId)

def removeContainer (store : DesiredStateStore) (dockerId : String) (force : Bool) :
    NodeProgram Unit := do
  (await (.remove dockerId force)).tryCatch fun e ↦
    if e.statusCode ≠ some 404 then
      .throw { message := "Failed to remove container " ++ dockerId ++ ": " ++ e.message }
    else .pure ()
  store.remove dockerId

end ContainerManager

end PrivosCluster.Agent
