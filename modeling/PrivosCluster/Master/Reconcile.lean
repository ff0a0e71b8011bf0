import PrivosCluster.Master.AppLifecycle

/-!
# The reconcile service

One pass asks every node for the containers of every active workspace, adopts what the records
do not know, and stops what should have stayed stopped. A failure ends the work on one listing
and the pass goes on with the next.
-/

namespace PrivosCluster

open AsyncProgram

namespace Reconcile

structure Counts where
  discovered : Nat
  repaired : Nat
  failed : Nat

/-- A field that is there and not empty. -/
def present (field : Option String) : Bool := field.any (· ≠ "")

def appIdOf (container : Container) : String := container.appId.getD container.id

/-- The filter of the workspaces a pass enumerates. -/
def enumeratedWorkspace (workspace : MasterWorkspace) : Bool := workspace.status == .active

/-- The filter of the nodes a pass enumerates. -/
def enumeratedNode (node : MasterNode) : Bool := node.status != .retired

/-- A failure to stop is logged and otherwise ignored. -/
def stopQuarantined (workspaceId : String) (node : MasterNode) (containerId : String) :
    Async Unit := do
  let _ ← (request node workspaceId (.power containerId .stop)).settle
  .pure ()

def seedLifecycle (workspaceId appId nodeId : String) (container : Container) : Async Unit :=
  Program.onlyIf (container.state = .running) do
    let eventId := "reconcile:" ++ nodeId ++ ":" ++ container.id ++ ":" ++ toString container.createdAt
    let _ ← LifecycleEvents.upsertOne (fun event ↦ event.eventId == eventId)
      { eventId, workspaceId, appId, replicaId := some container.id, type := .started,
        resources := container.resources, time := container.createdAt }

/-- The record a container's labels describe. -/
def reconstruct (baseDomain workspaceId nodeId replicaId : String) (container : Container)
    (time : Time) : MasterApp where
  appId := appIdOf container
  workspaceId := workspaceId
  listingId := container.listingId.getD ""
  versionDigest := container.versionDigest.getD ""
  image := container.image
  imageDigest := container.imageDigest.getD ""
  resources := container.resources
  port := container.port
  envVars := container.envVars
  volumes := container.volumes.map fun volume ↦ { volume with name := "data" }
  storageBytes := (container.volumes.map fun volume ↦ volume.sizeMb.getD 0 * 1024 * 1024).sum
  availabilityTier := .single
  stateless := container.volumes.isEmpty
  subdomain := some (container.subdomain.getD "")
  uiUrl := some ("https://" ++ container.subdomain.getD "" ++ "." ++ baseDomain)
  replicas := [{ replicaId, nodeId, containerId := container.id, state := container.state.text }]
  state := container.state.toUpperCase
  createdAt := container.createdAt
  updatedAt := time

/-- The fields a container needs for its record to be reconstructed. -/
def reconstructible (container : Container) : Bool :=
  present container.listingId && present container.versionDigest &&
    present container.imageDigest && present container.subdomain

def oomKilledAs (killedAt : Time) (app : MasterApp) : MasterApp :=
  { app with lastOomAt := some killedAt }

/-- Carry the out-of-memory signal over; nothing else of a v3 record is touched. -/
def recordOom (workspaceId : String) (app : Option MasterApp) (container : Container) :
    Async Unit :=
  match app, container.oomKilledAt with
  | some app, some killedAt =>
    Program.onlyIf (killedAt ≠ 0 ∧ app.lastOomAt ≠ some killedAt) do
      let _ ← Apps.updateOne (AppLifecycle.byId workspaceId (appIdOf container))
        (oomKilledAs killedAt)
  | _, _ => .pure ()

/-- A container that no replica of its record names becomes one, and its state the app's. -/
def adoptedAs (nodeId replicaId : String) (container : Container) (time : Time) (app : MasterApp) :
    MasterApp :=
  { app with
    replicas := app.replicas ++
      [{ replicaId, nodeId, containerId := container.id, state := container.state.text }]
    state := container.state.toUpperCase
    updatedAt := time }

def adopt (workspaceId nodeId : String) (container : Container) : Async Unit := do
  let replicaId ← randomUUID
  let time ← now
  let _ ← Apps.updateOne (AppLifecycle.byId workspaceId (appIdOf container))
    (adoptedAs nodeId replicaId container time)
  seedLifecycle workspaceId (appIdOf container) nodeId container

def insertReconstructed (baseDomain workspaceId nodeId : String) (container : Container) :
    Async Unit := do
  let time ← now
  let replicaId ← randomUUID
  let _ ← Apps.upsertOne (AppLifecycle.byId workspaceId (appIdOf container)) id
    (reconstruct baseDomain workspaceId nodeId replicaId container time)
  seedLifecycle workspaceId (appIdOf container) nodeId container

/-- One reported container; the answer is the number of repairs. -/
def reconcileContainer (baseDomain workspaceId : String) (node : MasterNode)
    (container : Container) : Async Nat := do
  let app ← Apps.findOne (AppLifecycle.byId workspaceId (appIdOf container))
  if app.any (·.state == .quarantined) then
    Program.onlyIf (container.state = .running) (stopQuarantined workspaceId node container.id)
    .pure 0
  else if container.mcpV3 ∨ app.any (·.kind == some .mcpV3) then
    recordOom workspaceId app container
    .pure 0
  else
    match app with
    | some app =>
      if app.replicas.any (·.containerId == container.id) then .pure 0
      else
        adopt workspaceId node.nodeId container
        .pure 1
    | none =>
      if !reconstructible container then .pure 0
      else
        insertReconstructed baseDomain workspaceId node.nodeId container
        .pure 1

def reconcileListing (baseDomain workspaceId : String) (node : MasterNode) :
    Counts → List Container → Async Counts
  | counts, [] => .pure counts
  | counts, container :: rest => do
    let outcome ← (reconcileContainer baseDomain workspaceId node container).settle
    match outcome with
    | .ok repaired =>
      reconcileListing baseDomain workspaceId node
        ⟨counts.discovered + 1, counts.repaired + repaired, counts.failed⟩ rest
    | .error _ => .pure ⟨counts.discovered + 1, counts.repaired, counts.failed + 1⟩

def reconcileNode (baseDomain workspaceId : String) (counts : Counts) (node : MasterNode) :
    Async Counts := do
  match ← (request node workspaceId .listApps).settle with
  | .error _ => .pure { counts with failed := counts.failed + 1 }
  | .ok response =>
    if 300 ≤ response.status then .pure { counts with failed := counts.failed + 1 }
    else reconcileListing baseDomain workspaceId node counts response.body.containers

def run (baseDomain : String) : Async Counts := do
  let (workspaces, nodes) ← promiseBoth (Workspaces.find enumeratedWorkspace)
    (Nodes.find enumeratedNode)
  Program.foldEach
    (fun counts (workspace : MasterWorkspace) ↦
      Program.foldEach (reconcileNode baseDomain workspace.workspaceId) counts nodes)
    ⟨0, 0, 0⟩ workspaces

end Reconcile

end PrivosCluster
