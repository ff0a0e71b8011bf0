import PrivosCluster.Master.Repositories

/-!
# The app lifecycle service

Power, redeploy, removal and quarantine of one app, and the power of a workspace. None of these
operations takes the workspace lock: each reads the record, talks to the agents and writes.
-/

namespace PrivosCluster

open AsyncProgram

/-- The optional collaborators of the service: the host registry and the host table publisher. -/
structure LifecycleDeps where
  appHosts : Bool
  hostTablePublisher : Bool

namespace AppLifecycle

/-- The filter `{ appId, workspaceId }`. -/
def byId (workspaceId appId : String) (app : MasterApp) : Bool :=
  app.appId == appId && app.workspaceId == workspaceId

/-- An empty string counts as no label, as a condition on it does in the source. -/
def label? (app : MasterApp) : Option String := app.subdomain.filter (· ≠ "")

/-- `'replicas.$[].state': state` -/
def setReplicaStates (state : String) (replicas : List AppReplica) : List AppReplica :=
  replicas.map fun replica ↦ { replica with state := state }

/-! ### The record as each operation leaves it -/

/-- A power command sets the state of the app and of its replicas. -/
def poweredAs (state : AppState) (time : Time) (app : MasterApp) : MasterApp :=
  { app with
    state := state
    updatedAt := time
    replicas := setReplicaStates state.toLowerCase app.replicas }

/-- Workspace power also marks what it stopped, and unmarks what it starts again. -/
def workspacePoweredAs (suspended : Bool) (time : Time) (app : MasterApp) : MasterApp :=
  { poweredAs (if suspended then .stopped else .running) time app with
    suspendedWithWorkspace := if suspended then some true else none }

def redeployedAs (image digest versionDigest : String) (resources : ContainerResources)
    (time : Time) (app : MasterApp) : MasterApp :=
  { app with
    image := image
    imageDigest := digest
    versionDigest := versionDigest
    resources := resources
    state := .running
    updatedAt := time
    replicas := setReplicaStates "running" app.replicas }

/-- Quarantine by a revocation, with its grace clock. -/
def quarantinedAs (time : Time) (app : MasterApp) : MasterApp :=
  { app with
    state := .quarantined
    quarantinedAt := some time
    updatedAt := time
    replicas := setReplicaStates "stopped" app.replicas
    suspendedWithWorkspace := none }

def removingAs (time : Time) (app : MasterApp) : MasterApp :=
  { app with state := .removing, updatedAt := time }

def removedAs (time : Time) (app : MasterApp) : MasterApp :=
  { app with state := .removed, updatedAt := time }

def releasedAs (time : Time) (app : MasterApp) : MasterApp :=
  { app with
    state := .running
    updatedAt := time
    replicas := setReplicaStates "running" app.replicas
    quarantinedAt := none }

def nodeOf (nodes : List MasterNode) (nodeId : String) : Option MasterNode :=
  nodes.find? fun node ↦ node.nodeId == nodeId

def load (workspaceId appId : String) : Async MasterApp := do
  match ← Apps.findOne fun app ↦ byId workspaceId appId app && app.state != .removed with
  | some app => .pure app
  | none => .throw { message := "app not found", statusCode := some 404 }

def loadNodes (nodeIds : List String) : Async (List MasterNode) :=
  Nodes.find fun node ↦ nodeIds.contains node.nodeId

def failedResponse (tolerateNotFound : Bool) (response : AgentResponse) : Bool :=
  300 ≤ response.status && !(tolerateNotFound && response.status == 404)

def assertResponses (responses : List AgentResponse) (tolerateNotFound : Bool) : Async Unit :=
  match responses.find? (failedResponse tolerateNotFound) with
  | some failed => .throw { message := "agent operation failed: " ++ failed.body.json }
  | none => .pure ()

/-- The record as the HTTP answer shows it. -/
structure View where
  appId : String
  listingId : String
  versionDigest : String
  state : String
  resources : ContainerResources
  /-- Label, base domain and URL, only when the app has a default host. -/
  host : Option (String × String × String)
  availabilityTier : AvailabilityTier
  /-- A v3 app shows only how many replicas it has. -/
  replicas : Nat ⊕ List AppReplica
  createdAt : Time
  lastOomAt : Option Time

/-- The host name of a URL without its first label. -/
def domainOfUrl (url : String) : String :=
  let host := ((url.splitOn "://").getD 1 "").takeWhile fun c ↦ c ≠ '/' && c ≠ ':'
  ".".intercalate ((host.toString.splitOn ".").drop 1)

def view (app : MasterApp) : View where
  appId := app.appId
  listingId := app.listingId
  versionDigest := app.versionDigest
  state := app.state.toLowerCase
  resources := app.resources
  host := match label? app, app.uiUrl.filter (· ≠ "") with
    | some subdomain, some uiUrl => some (subdomain, domainOfUrl uiUrl, uiUrl)
    | _, _ => none
  availabilityTier := app.availabilityTier
  replicas := if app.kind = some .mcpV3 then .inl app.replicas.length else .inr app.replicas
  createdAt := app.createdAt
  lastOomAt := app.lastOomAt

def get (workspaceId appId : String) : Async View := do
  let app ← load workspaceId appId
  .pure (view app)

/-- One event for each replica of the app. -/
def insertReplicaEvents (workspaceId : String) (app : MasterApp) (replicas : List AppReplica)
    (type : LifecycleEventType) (resources : ContainerResources) (storageBytes : Option Nat)
    (time : Time) : Async Unit := do
  let events ← Program.mapEach (fun (replica : AppReplica) ↦ do
    let eventId ← randomUUID
    .pure
      { eventId, workspaceId, appId := app.appId, replicaId := some replica.replicaId, type,
        resources, storageBytes, time }) replicas
  LifecycleEvents.insertMany events

def publish (deps : LifecycleDeps) : Async Unit :=
  Program.onlyIf (deps.hostTablePublisher = true) markDirty

def invoke (deps : LifecycleDeps) (workspaceId appId : String) (action : PowerAction) :
    Async View := do
  let app ← load workspaceId appId
  Program.throwIf (app.kind = some .mcpV3)
    { message := "MCP v3 lifecycle requires a signed Hub command",
      code := some (.text "MCP_SIGNED_LIFECYCLE_REQUIRED"), statusCode := some 409 }
  let nodes ← loadNodes (app.replicas.map (·.nodeId))
  let responses ← promiseAll (app.replicas.map fun replica ↦
    requestNode (nodeOf nodes replica.nodeId) workspaceId (.power replica.containerId action))
  assertResponses responses false
  let state : AppState := if action = .stop then .stopped else .running
  let time ← now
  let _ ← Apps.updateOne (byId workspaceId appId) (poweredAs state time)
  Program.onlyIf (action ≠ .restart)
    (insertReplicaEvents workspaceId app app.replicas (if action = .stop then .stopped else .started)
      app.resources none time)
  publish deps
  get workspaceId appId

inductive WorkspacePower where
  | suspend
  | resume
deriving DecidableEq

/-- Suspending takes what is running; resuming takes back only what the suspension stopped. -/
def powerSelector (workspaceId : String) (action : WorkspacePower) (app : MasterApp) : Bool :=
  match action with
  | .suspend => app.workspaceId == workspaceId && app.state == .running
  | .resume => app.workspaceId == workspaceId && app.state != .removed &&
      app.suspendedWithWorkspace == some true

def setAppPower (workspaceId : String) (action : WorkspacePower) (nodes : List MasterNode)
    (time : Time) (app : MasterApp) : Async Unit := do
  let responses ← promiseAll (app.replicas.filterMap fun replica ↦
    (nodeOf nodes replica.nodeId).map fun node ↦ request node workspaceId
      (.power replica.containerId (if action = .suspend then .stop else .start)))
  assertResponses responses false
  let _ ← Apps.updateOne (byId workspaceId app.appId) (workspacePoweredAs (action = .suspend) time)
  insertReplicaEvents workspaceId app app.replicas
    (if action = .suspend then .stopped else .started) app.resources none time

/-- The number of hosts of the workspace that were suspended or resumed. -/
def switchHosts (deps : LifecycleDeps) (workspaceId : String) (suspended : Bool) : Async Nat :=
  if deps.appHosts then awaitCall (.service (.setWorkspaceHostsSuspended workspaceId suspended))
  else .pure 0

/-- The number of affected apps. -/
def setWorkspacePower (deps : LifecycleDeps) (workspaceId : String) (action : WorkspacePower) :
    Async Nat := do
  let apps ← Apps.find (powerSelector workspaceId action)
  let affectedHosts ← switchHosts deps workspaceId (action = .suspend)
  if apps.isEmpty then
    Program.onlyIf (0 < affectedHosts) (publish deps)
    .pure 0
  else
    let nodes ← loadNodes (apps.flatMap fun app ↦ app.replicas.map (·.nodeId))
    let time ← now
    Program.forEach (setAppPower workspaceId action nodes time) apps
    publish deps
    .pure apps.length

structure RedeployInput where
  image : Option String := none
  digest : Option String := none
  versionDigest : Option String := none
  resources : Option ResourcesPatch := none

def redeploy (workspaceId appId : String) (input : RedeployInput) : Async View := do
  let app ← load workspaceId appId
  Program.throwIf (app.kind = some .mcpV2 ∨ app.kind = some .mcpV3)
    { message := "MCP redeployments require a new signed deployment grant",
      code := some (.text "MCP_SIGNED_REDEPLOYMENT_REQUIRED"), statusCode := some 409 }
  let nodes ← loadNodes (app.replicas.map (·.nodeId))
  let body : RedeployBody :=
    { workspaceId
      image := input.image.getD app.image
      digest := input.digest.getD app.imageDigest
      versionDigest := input.versionDigest.getD app.versionDigest
      resources := input.resources.getD (.ofResources app.resources)
      rolling := some app.stateless
      managed := none }
  let responses ← promiseAll (app.replicas.map fun replica ↦
    requestNode (nodeOf nodes replica.nodeId) workspaceId (.redeploy replica.containerId body))
  assertResponses responses false
  let time ← now
  let resources := (input.resources.getD {}).applyTo app.resources
  let _ ← Apps.updateOne (byId workspaceId appId)
    (redeployedAs body.image body.digest body.versionDigest resources time)
  insertReplicaEvents workspaceId app app.replicas .redeployed resources none time
  get workspaceId appId

/-- Phase 1 of a revoked teardown: stop every replica, best effort, and start the grace clock. -/
def quarantine (deps : LifecycleDeps) (workspaceId appId : String) (app : MasterApp) :
    Async Unit :=
  if app.state = .quarantined then .pure ()
  else do
    let nodes ← loadNodes (app.replicas.map (·.nodeId))
    let _ ← promiseAll (app.replicas.filterMap fun replica ↦
      (nodeOf nodes replica.nodeId).map fun node ↦
        (request node workspaceId (.power replica.containerId .stop)).settle)
    let time ← now
    let _ ← Apps.updateOne (byId workspaceId appId) (quarantinedAs time)
    insertReplicaEvents workspaceId app app.replicas .quarantined app.resources none time
    publish deps

/-- The first replica whose node is gone, at which a strict teardown throws. -/
def lostReplica? (nodes : List MasterNode) (replicas : List AppReplica) (tolerant : Bool) :
    Option AppReplica :=
  if tolerant then none else replicas.find? fun replica ↦ (nodeOf nodes replica.nodeId).isNone

def deleteReplicas (workspaceId : String) (nodes : List MasterNode) (replicas : List AppReplica) :
    Async (List AgentResponse) :=
  promiseAll (replicas.filterMap fun replica ↦ (nodeOf nodes replica.nodeId).map fun node ↦
    request node workspaceId (.remove replica.containerId))

/--
The deletions of a teardown. When a strict one throws, the requests for the replicas before the
lost one are already on their way.
-/
def removeContainers (workspaceId : String) (nodes : List MasterNode) (replicas : List AppReplica)
    (tolerant : Bool) : Async (List AgentResponse) :=
  match lostReplica? nodes replicas tolerant with
  | none => deleteReplicas workspaceId nodes replicas
  | some lost => do
    let _ ← (deleteReplicas workspaceId nodes
      (replicas.takeWhile fun replica ↦ (nodeOf nodes replica.nodeId).isSome)).settle
    .throw { message := "node " ++ lost.nodeId ++ " not found for app removal",
             statusCode := some 500 }

/-- Destroy an app for real: containers, ingress, hosts, record. -/
def destroy (deps : LifecycleDeps) (workspaceId appId : String) (app : MasterApp)
    (tolerant : Bool) : Async Unit := do
  let startedAt ← now
  let _ ← Apps.updateOne (byId workspaceId appId) (removingAs startedAt)
  let nodes ← loadNodes (app.replicas.map (·.nodeId))
  let responses ← removeContainers workspaceId nodes app.replicas tolerant
  assertResponses responses tolerant
  Program.forSome (label? app) fun subdomain ↦ awaitCall (.service (.ingressRemove subdomain))
  Program.onlyIf (deps.appHosts = true)
    (awaitCall (.service (.removeAllAppHosts appId app.mcpGenerationId)))
  let time ← now
  let _ ← Apps.updateOne (byId workspaceId appId) (removedAs time)
  publish deps
  insertReplicaEvents workspaceId app app.replicas .removed app.resources none time
  let eventId ← randomUUID
  LifecycleEvents.insertOne
    { eventId, workspaceId, appId, type := .uninstalled, resources := app.resources, time }

def remove (deps : LifecycleDeps) (workspaceId appId : String) (workspaceRevoked : Bool) :
    Async Unit := do
  let app ← load workspaceId appId
  Program.throwIf (app.kind = some .mcpV3 ∧ workspaceRevoked = false)
    { message := "MCP v3 removal requires a signed Hub lifecycle command",
      code := some (.text "MCP_SIGNED_LIFECYCLE_REQUIRED"), statusCode := some 409 }
  if workspaceRevoked then quarantine deps workspaceId appId app
  else destroy deps workspaceId appId app false

/-- Reaper phase 2. Only the caller that moves the record out of QUARANTINED destroys. -/
def reapQuarantined (deps : LifecycleDeps) (workspaceId appId : String) : Async Unit := do
  let time ← now
  let claimed ← Apps.updateOne (fun app ↦ byId workspaceId appId app && app.state == .quarantined)
    (removingAs time)
  if claimed.modifiedCount ≠ 1 then .pure ()
  else
    match ← Apps.findOne (byId workspaceId appId) with
    | none => .pure ()
    | some app => destroy deps workspaceId appId app true

/-- The workspace came back: claim the record for RUNNING, then restart every replica. -/
def unquarantine (deps : LifecycleDeps) (workspaceId appId : String) : Async Unit := do
  let time ← now
  let claimed ← Apps.updateOne (fun app ↦ byId workspaceId appId app && app.state == .quarantined)
    (releasedAs time)
  if claimed.modifiedCount ≠ 1 then .pure ()
  else
    match ← Apps.findOne (byId workspaceId appId) with
    | none => .pure ()
    | some app => do
      let nodes ← loadNodes (app.replicas.map (·.nodeId))
      let responses ← promiseAll (app.replicas.filterMap fun replica ↦
        (nodeOf nodes replica.nodeId).map fun node ↦
          request node workspaceId (.power replica.containerId .start))
      assertResponses responses false
      let startedAt ← now
      insertReplicaEvents workspaceId app app.replicas .started app.resources none startedAt
      let eventId ← randomUUID
      LifecycleEvents.insertOne
        { eventId, workspaceId, appId, type := .installed, resources := app.resources,
          storageBytes := some app.storageBytes, replicaCount := some (max app.replicas.length 1),
          time := startedAt }
      publish deps

end AppLifecycle

/-! ## The quarantine reaper -/

namespace QuarantineReaper

def defaultGraceMs : Int := 7 * 24 * 60 * 60 * 1000

/-- The grace window of the environment: `raw` is absent when the variable is not a finite number. -/
def resolveQuarantineGraceMs (raw : Option Int) : Int :=
  match raw with
  | some raw => if 0 < raw then raw else defaultGraceMs
  | none => defaultGraceMs

/-- The selection `{ state: 'QUARANTINED', quarantinedAt: { $lte: cutoff } }`. -/
def expired (cutoff : Time) (app : MasterApp) : Bool :=
  app.state == .quarantined && app.quarantinedAt.any (· ≤ cutoff)

structure Result where
  scanned : Nat
  reaped : Nat
  failed : Nat

def reapOne (deps : LifecycleDeps) (result : Result) (app : MasterApp) : Async Result :=
  Program.tryCatch
    (do
      AppLifecycle.reapQuarantined deps app.workspaceId app.appId
      .pure { result with reaped := result.reaped + 1 })
    fun _ ↦ .pure { result with failed := result.failed + 1 }

/-- The time of a pass is read from the clock unless it is given. -/
def reapExpiredQuarantines (deps : LifecycleDeps) (graceMs : Int) (given : Option Time) :
    Async Result := do
  let time ← given.elim now .pure
  let expired ← Apps.find (expired (time - graceMs))
  Program.foldEach (reapOne deps) ⟨expired.length, 0, 0⟩ expired

end QuarantineReaper

end PrivosCluster
