import PrivosCluster.AsyncProgram.Delegation
import PrivosCluster.DocumentStore.Bulk
import PrivosCluster.Master.RuntimeSwap
import PrivosCluster.Routing.HostTables

/-!
# Public hostnames: the label namespace and the registry

Every label below the base domain is one document of `host_labels`, and every registered hostname
one of `app_hosts`. The services of the master ask the registry for some of their work; here these
requests are carried out on the two collections, so that all operations act on one system.
-/

namespace PrivosCluster.Routing

open AsyncProgram DocumentStore

inductive HostLabelState where
  | held
  | reclaimed
deriving DecidableEq

/-- A document of `host_labels`; its `_id` is the label. A released label has no owner. -/
structure HostLabelRecord where
  label : String
  state : HostLabelState
  workspaceId : Option String
  listingId : Option String
  createdAt : Time
  updatedAt : Time
deriving DecidableEq

def hostLabelKeys (held : HostLabelRecord) : List IndexKey := [⟨["_id"], [held.label]⟩]

/-- The index on `cfHostnameId` covers only rows that have one. -/
def appHostKeys (row : AppHostRecord) : List IndexKey :=
  ⟨["_id"], [row.hostname]⟩ ::
    (row.cfHostnameId.map fun cfHostnameId ↦ IndexKey.mk ["cfHostnameId"] [cfHostnameId]).toList

def hostLabelIdentity : Identity HostLabelRecord String hostLabelKeys where
  id := HostLabelRecord.label
  key label := ⟨["_id"], [label]⟩
  indexed _ := List.mem_cons_self

def appHostIdentity : Identity AppHostRecord String appHostKeys where
  id := AppHostRecord.hostname
  key hostname := ⟨["_id"], [hostname]⟩
  indexed _ := List.mem_cons_self

/-- The world of the master with the two collections of public names. -/
structure System where
  world : World
  appHosts : Collection AppHostRecord appHostKeys
  hostLabels : Collection HostLabelRecord hostLabelKeys

/-- No document, no container and no public name. -/
def System.initial : System := ⟨.initial, ⟨[], List.nodup_nil⟩, ⟨[], List.nodup_nil⟩⟩

inductive SystemCall where
  | master (c : Call)
  | appHosts (op : BulkOperation AppHostRecord)
  | hostLabels (op : Operation HostLabelRecord)
  /-- `crypto.randomBytes(3)`. -/
  | randomBytes
  /-- Wake the worker for custom hostnames. -/
  | notify

@[reducible] def SystemCall.Answer : SystemCall → Type
  | .master c => c.Answer
  | .appHosts op => op.Answer
  | .hostLabels op => op.Answer
  | .randomBytes => BitVec 24
  | .notify => Unit

@[reducible] def systemSignature : Signature := ⟨SystemCall, SystemCall.Answer⟩

def serveBulk {α : Type} [DecidableEq α] {keys : α → List IndexKey} (op : BulkOperation α)
    (x : Choice) (c : Collection α keys) : Except JsError op.Answer × Collection α keys :=
  match x.fault with
  | .refused => (.error x.error, c)
  | .lost => (.error x.error, (c.applyBulk x.pick op).2)
  | .none => ((c.applyBulk x.pick op).1.mapError writeError, (c.applyBulk x.pick op).2)

def System.respond : (c : SystemCall) → Choice → System → Except JsError c.Answer × System
  | .master c, x, s =>
    ((PrivosCluster.respond c x s.world).1, { s with world := (PrivosCluster.respond c x s.world).2 })
  | .appHosts op, x, s =>
    ((serveBulk op x s.appHosts).1, { s with appHosts := (serveBulk op x s.appHosts).2 })
  | .hostLabels op, x, s =>
    ((serveStore op x s.hostLabels).1, { s with hostLabels := (serveStore op x s.hostLabels).2 })
  | .randomBytes, x, s => (.ok (BitVec.ofNat 24 x.count), s)
  | .notify, _, s => (.ok (), s)

/-- What the environment is allowed to do at a call of the system. -/
abbrev SystemLaw := SystemCall → Choice → System → Prop

def system (law : SystemLaw) : Machine systemSignature JsError System Choice where
  permits := law
  respond := System.respond

abbrev Action := Program systemSignature JsError

abbrev await (c : SystemCall) : Action c.Answer := @Program.ask systemSignature JsError c

def systemNow : Action Time := await (.master (.service .now))

/-- `WorkspaceLock.run` around an action on the registry. -/
def locked {α : Type} (workspaceId : String) (action : Action α) : Action α := do
  await (.master (.acquire workspaceId))
  action.finallyDo (await (.master (.release workspaceId)))

namespace AppHosts

def findOne (filter : AppHostRecord → Bool) : Action (Option AppHostRecord) :=
  await (.appHosts (.one (.findOne filter)))

def find (filter : AppHostRecord → Bool) : Action (List AppHostRecord) :=
  await (.appHosts (.one (.find filter)))

def insertOne (row : AppHostRecord) : Action Unit := await (.appHosts (.one (.insertOne row)))

def updateOne (filter : AppHostRecord → Bool) (update : AppHostRecord → AppHostRecord) :
    Action UpdateResult :=
  await (.appHosts (.one (.updateOne filter update)))

def updateMany (filter : AppHostRecord → Bool) (update : AppHostRecord → AppHostRecord) :
    Action UpdateResult :=
  await (.appHosts (.updateMany filter update))

def deleteMany (filter : AppHostRecord → Bool) : Action Nat :=
  await (.appHosts (.deleteMany filter))

end AppHosts

/-! ## The label namespace -/

structure LabelOwner where
  workspaceId : String
  listingId : String

namespace LabelNamespace

def findLabel (label : String) : Action (Option HostLabelRecord) :=
  await (.hostLabels (.findOne fun held ↦ held.label == label))

/-- The label has never been claimed. -/
def isAvailable (label : String) : Action Bool := do
  let existing ← findLabel label
  .pure existing.isNone

/-- A label the workspace itself holds is available to it. -/
def isAvailableFor (label workspaceId : String) : Action Bool := do
  let existing ← findLabel label
  .pure (existing.all fun held ↦ held.state == .held && held.workspaceId == some workspaceId)

def alreadyClaimed : Option ErrorCode := some (.text "LABEL_ALREADY_CLAIMED")

/-- Claim a label; the unique `_id` decides between two callers. -/
def hold (label : String) (owner : LabelOwner) : Action Unit := do
  let time ← systemNow
  let inserted ← (await (.hostLabels (.insertOne
    { label
      state := .held
      workspaceId := some owner.workspaceId
      listingId := some owner.listingId
      createdAt := time
      updatedAt := time }))).settle
  match inserted with
  | .ok _ => .pure ()
  | .error error =>
    .throw (if Deployment.isDuplicateKey error then
      { message := "label_already_claimed: " ++ label, code := alreadyClaimed }
    else error)

def releasedAs (time : Time) (held : HostLabelRecord) : HostLabelRecord :=
  { held with state := .reclaimed, updatedAt := time, workspaceId := none, listingId := none }

/-- The label stays claimed, by the platform. -/
def release (label : String) : Action Unit := do
  let time ← systemNow
  let _ ← await (.hostLabels (.updateOne (fun held ↦ held.label == label) (releasedAs time)))
  .pure ()

def reassignedAs (owner : LabelOwner) (time : Time) (held : HostLabelRecord) : HostLabelRecord :=
  { held with
    state := .held
    workspaceId := some owner.workspaceId
    listingId := some owner.listingId
    updatedAt := time }

/-- Hand a released label to a new owner. -/
def reassign (label : String) (owner : LabelOwner) : Action Unit := do
  let time ← systemNow
  let result ← await (.hostLabels (.updateOne
    (fun held ↦ held.label == label && held.state == .reclaimed) (reassignedAs owner time)))
  Program.throwIf (result.matchedCount ≠ 1)
    { message := "label_not_reclaimed: " ++ label, code := some (.text "LABEL_NOT_RECLAIMED") }

/-- Draw labels until one can be claimed. No generator looks at the number of the attempt. -/
def allocate (next : Action String) (owner : LabelOwner) : Nat → Action String
  | 0 => .throw { message := "unable to allocate unique label" }
  | attempts + 1 => do
    let label ← next
    let held ← (hold label owner).settle
    match held with
    | .ok _ => .pure label
    | .error error =>
      if error.code = alreadyClaimed then allocate next owner attempts else .throw error

end LabelNamespace

/-! ## The allocator of random labels -/

structure RegistryDeps where
  /-- `String.prototype.toLowerCase`. -/
  toLowerCase : String → String
  publisher : Bool
  cfWorker : Bool

namespace SubdomainRegistry

/-- `[a-z0-9-]` -/
def isSlugChar (c : Char) : Bool := c.isDigit || ('a' ≤ c && c ≤ 'z') || c == '-'

/-- Runs of other characters and of dashes become one dash. -/
def dashed (cs : List Char) : List Char :=
  cs.foldr (fun c rest ↦
    let c := if isSlugChar c then c else '-'
    if c = '-' ∧ rest.head? = some '-' then rest else c :: rest) []

/-- A dash at either end goes. -/
def trimmed (cs : List Char) : List Char :=
  let cs := if cs.head? = some '-' then cs.tail else cs
  if cs.getLast? = some '-' then cs.dropLast else cs

def slug (toLowerCase : String → String) (value : String) : List Char :=
  let cs := (trimmed (dashed (toLowerCase value).toList)).take 48
  if cs.isEmpty then "app".toList else cs

/-- `toString('hex')` of three bytes. -/
def hex (bytes : BitVec 24) : List Char :=
  (List.range 6).map fun i ↦ Nat.digitChar (bytes.toNat / 16 ^ (5 - i) % 16)

def randomLabel (toLowerCase : String → String) (listingId : String) : Action String := do
  let bytes ← await .randomBytes
  .pure (String.ofList (slug toLowerCase listingId ++ '-' :: hex bytes))

def allocate (deps : RegistryDeps) (listingId workspaceId : String) : Action String :=
  LabelNamespace.allocate (randomLabel deps.toLowerCase listingId) ⟨workspaceId, listingId⟩ 10

end SubdomainRegistry

/-! ## The registry of hostnames -/

/-- The state a desired host is to have. -/
inductive DesiredState where
  | active
  | suspended
deriving DecidableEq

def DesiredState.hostState : DesiredState → AppHostState
  | .active => .active
  | .suspended => .suspended

structure DesiredAppHost where
  hostname : String
  kind : AppHostKind
  primary : Bool
  state : DesiredState
deriving DecidableEq

/-- `hostname.split('.')[0]` -/
def firstLabel (hostname : String) : String :=
  String.ofList (hostname.toList.takeWhile (· ≠ '.'))

/-- A custom hostname lives on a domain of its operator and owns no label. -/
def namespaceLabelOf (hostname : String) (kind : AppHostKind) : Option String :=
  if kind = .custom then none else some (firstLabel hostname)

namespace AppHostRegistry

structure ReserveInput where
  workspaceId : String
  appId : String
  listingId : String
  hostname : String
  kind : AppHostKind

def hostAlreadyReserved (hostname : String) : JsError :=
  { message := "host_already_reserved: " ++ hostname,
    code := some (.text "HOST_ALREADY_RESERVED"), statusCode := some 409 }

def labelAlreadyClaimed (label : String) : JsError :=
  { message := "label_already_claimed: " ++ label, code := LabelNamespace.alreadyClaimed,
    statusCode := some 409 }

def hostConflict (hostname : String) : JsError :=
  { message := "host_conflict: " ++ hostname, code := some (.text "HOST_CONFLICT"),
    statusCode := some 409 }

/--
Hold a label. A label the workspace holds already is no conflict: an earlier call may have held it
and lost its row.
-/
def claimLabel (label : String) (owner : LabelOwner) (conflict : JsError) : Action Unit := do
  let held ← (LabelNamespace.hold label owner).settle
  match held with
  | .ok _ => .pure ()
  | .error error =>
    if error.code ≠ LabelNamespace.alreadyClaimed then .throw error
    else do
      let ownedByCaller ← LabelNamespace.isAvailableFor label owner.workspaceId
      Program.throwIf (ownedByCaller = false) conflict

/-- An empty label is not claimed. -/
def claimLabelOf (hostname : String) (kind : AppHostKind) (owner : LabelOwner)
    (conflict : String → JsError) : Action Unit :=
  Program.forSome (truthy (namespaceLabelOf hostname kind)) fun label ↦
    claimLabel label owner (conflict label)

/-- Two workspaces may race for one hostname; the unique `_id` decides. -/
def insertRow (row : AppHostRecord) : Action Unit := do
  let inserted ← (AppHosts.insertOne row).settle
  match inserted with
  | .ok _ => .pure ()
  | .error error =>
    .throw (if Deployment.isDuplicateKey error then hostConflict row.hostname else error)

def reserve (input : ReserveInput) : Action AppHostRecord :=
  locked input.workspaceId do
    let existing ← AppHosts.findOne fun row ↦ row.hostname == input.hostname
    match existing with
    | some existing =>
      if existing.workspaceId = input.workspaceId ∧ existing.appId = input.appId then .pure existing
      else .throw (hostAlreadyReserved input.hostname)
    | none => do
      claimLabelOf input.hostname input.kind ⟨input.workspaceId, input.listingId⟩ labelAlreadyClaimed
      let time ← systemNow
      let row : AppHostRecord :=
        { hostname := input.hostname
          workspaceId := input.workspaceId
          appId := input.appId
          listingId := input.listingId
          kind := input.kind
          primary := false
          state := .pending
          createdAt := time
          updatedAt := time }
      insertRow row
      .pure row

def retiredAs (time : Time) (row : AppHostRecord) : AppHostRecord :=
  { row with state := .deleting, updatedAt := time }

/-- Rows without a custom hostname at Cloudflare are deleted, the others marked for the worker. -/
def retire (filter : AppHostRecord → Bool) (time : Time) : Action Nat := do
  let deleted ← AppHosts.deleteMany fun row ↦ filter row && row.cfHostnameId.isNone
  let marked ← AppHosts.updateMany (fun row ↦ filter row && row.state != .deleting) (retiredAs time)
  .pure (deleted + marked.modifiedCount)

structure SetDesiredHostsInput where
  workspaceId : String
  appId : String
  listingId : String
  generationId : Option String := none
  hosts : List DesiredAppHost

def desiredAs (input : SetDesiredHostsInput) (host : DesiredAppHost) (time : Time)
    (row : AppHostRecord) : AppHostRecord :=
  { row with
    primary := host.primary
    state := host.state.hostState
    generationId := input.generationId
    updatedAt := time }

def desiredRow (input : SetDesiredHostsInput) (host : DesiredAppHost) (time : Time) :
    AppHostRecord where
  hostname := host.hostname
  workspaceId := input.workspaceId
  appId := input.appId
  listingId := input.listingId
  generationId := input.generationId
  kind := host.kind
  primary := host.primary
  state := .pending
  createdAt := time
  updatedAt := time

/-- One desired host: a row the app has is updated, another one is inserted. -/
def writeHost (input : SetDesiredHostsInput) (current : List AppHostRecord) (time : Time)
    (host : DesiredAppHost) : Action AppHostRecord :=
  match current.find? (·.hostname == host.hostname) with
  | some existing => do
    let _ ← AppHosts.updateOne (fun row ↦ row.hostname == host.hostname)
      (desiredAs input host time)
    .pure (desiredAs input host time existing)
  | none => do
    claimLabelOf host.hostname host.kind ⟨input.workspaceId, input.listingId⟩
      fun _ ↦ hostConflict host.hostname
    let row := desiredRow input host time
    insertRow row
    .pure row

def multiplePrimaryHosts : JsError :=
  { message := "multiple_primary_hosts", code := some (.text "MULTIPLE_PRIMARY_HOSTS"),
    statusCode := some 400 }

/-- The publisher and the worker are told of a change. -/
def announce (deps : RegistryDeps) (cfWorker : Bool) : Action Unit := do
  Program.onlyIf (deps.publisher = true) (await (.master (.service .markDirty)))
  Program.onlyIf (deps.cfWorker = true ∧ cfWorker = true) (await .notify)

/-- The rows of an app after a request for its full set of hosts, under the lock. -/
def replaceHosts (input : SetDesiredHostsInput) : Action (List AppHostRecord) := do
  let _ ← AppHosts.deleteMany fun row ↦ row.workspaceId == input.workspaceId &&
    row.appId == input.appId && row.state == .deleting && row.cfHostnameId.isNone
  let current ← AppHosts.find fun row ↦ row.workspaceId == input.workspaceId &&
    row.appId == input.appId && row.state != .deleting
  let time ← systemNow
  let written ← Program.mapEach (writeHost input current time) input.hosts
  let removed := current.filter fun row ↦ !(input.hosts.map (·.hostname)).contains row.hostname
  Program.onlyIf (removed ≠ []) do
    let _ ← retire (fun row ↦ (removed.map (·.hostname)).contains row.hostname) time
    .pure ()
  .pure (written ++ removed.map (retiredAs time))

def setDesiredHosts (deps : RegistryDeps) (input : SetDesiredHostsInput) :
    Action (List AppHostRecord) := do
  Program.throwIf (1 < (input.hosts.filter (·.primary)).length) multiplePrimaryHosts
  let rows ← locked input.workspaceId (replaceHosts input)
  announce deps true
  .pure rows

def get (workspaceId appId : String) : Action (List AppHostRecord) :=
  AppHosts.find fun row ↦ row.workspaceId == workspaceId && row.appId == appId

/-- The primary host of an app, if it has one in use. -/
def primaryOf (workspaceId appId : String) : Action (Option AppHostRecord) :=
  AppHosts.findOne fun row ↦ row.workspaceId == workspaceId && row.appId == appId && row.primary &&
    (row.state == .pending || row.state == .active || row.state == .suspended)

/-- `generationId ? { appId, generationId } : { appId }`: no workspace is named. -/
def ofApp (appId : String) (generationId : Option String) (row : AppHostRecord) : Bool :=
  row.appId == appId && (truthy generationId).all fun generationId ↦
    row.generationId == some generationId

def removeAllAppHosts (deps : RegistryDeps) (appId : String) (generationId : Option String) :
    Action Nat := do
  let time ← systemNow
  let retired ← retire (ofApp appId generationId) time
  Program.onlyIf (0 < retired) (announce deps true)
  .pure retired

def suspendedAs (origin : AppHostState) (time : Time) (row : AppHostRecord) : AppHostRecord :=
  { row with
    state := .wsSuspended
    preSuspendState := some origin
    wsSuspendedAt := some time
    updatedAt := time }

def resumedAs (state : AppHostState) (time : Time) (row : AppHostRecord) : AppHostRecord :=
  { row with state := state, updatedAt := time, wsSuspendedAt := none, preSuspendState := none }

/-- The states a workspace suspension takes a host from, and a resumption back to. -/
def suspensibleStates : List AppHostState := [.pending, .active, .suspended]

def isSuspendedOf (workspaceId : String) (origin : Option AppHostState) (row : AppHostRecord) : Bool :=
  row.workspaceId == workspaceId && (row.state == .wsSuspended || row.state == .cfReleased) &&
    row.preSuspendState == origin

/-- One sweep for each state of origin; a row that remembers none becomes ACTIVE again. -/
def sweepHosts (workspaceId : String) (suspended : Bool) (time : Time) : Action Nat :=
  if suspended then
    Program.foldEach (fun modified (origin : AppHostState) ↦ do
      let result ← AppHosts.updateMany
        (fun row ↦ row.workspaceId == workspaceId && row.state == origin) (suspendedAs origin time)
      .pure (modified + result.modifiedCount)) 0 suspensibleStates
  else do
    let modified ← Program.foldEach (fun modified (state : AppHostState) ↦ do
      let result ← AppHosts.updateMany (isSuspendedOf workspaceId (some state)) (resumedAs state time)
      .pure (modified + result.modifiedCount)) 0 suspensibleStates
    let fallback ← AppHosts.updateMany (isSuspendedOf workspaceId none) fun row ↦
      { row with state := .active, updatedAt := time, wsSuspendedAt := none }
    .pure (modified + fallback.modifiedCount)

def setWorkspaceHostsSuspended (deps : RegistryDeps) (workspaceId : String) (suspended : Bool) :
    Action Nat := do
  let time ← systemNow
  let modified ← sweepHosts workspaceId suspended time
  Program.onlyIf (0 < modified) (announce deps (!suspended))
  .pure modified

end AppHostRegistry

/-! ## The services of the master on one system -/

/-- What the services ask of the registry is carried out by it; all else goes to the master. -/
def serveSystem (deps : RegistryDeps) : (c : Call) → Action c.Answer
  | .service (.allocateSubdomain listingId workspaceId) =>
    SubdomainRegistry.allocate deps listingId workspaceId
  | .service (.setWorkspaceHostsSuspended workspaceId suspended) =>
    AppHostRegistry.setWorkspaceHostsSuspended deps workspaceId suspended
  | .service (.removeAllAppHosts appId generationId) => do
    let _ ← AppHostRegistry.removeAllAppHosts deps appId generationId
    .pure ()
  | .service (.primaryOf workspaceId appId) => do
    let primary ← AppHostRegistry.primaryOf workspaceId appId
    .pure (primary.map (·.hostname))
  | c => await (.master c)

/-- An operation of the master, with the registry at work. -/
def onSystem {α : Type} (deps : RegistryDeps) (operation : Async α) : Action α :=
  operation.delegate (τ := systemSignature) (serveSystem deps)

structure SystemDeps where
  deployment : DeploymentDeps
  lifecycle : LifecycleDeps
  registry : RegistryDeps

/-- What is done for one workspace: all writing operations of the services and of the registry. -/
inductive SystemOperation where
  | deploy (raw : RawDeploy)
  | deployMcp (grant : McpDeploymentGrantPayload) (deploymentGrantHash : String)
      (hubIdentity : HubIdentity)
  | deployMcpV3 (grant : McpDeploymentGrantPayloadV3) (deploymentGrantHash : String)
      (hubIdentity : HubIdentity)
  | activateMcp (input : Deployment.McpActivation)
  | activateMcpV3 (input : DeploymentV3.McpV3Activation)
  | recoverMcpV3InventoryAttestation (runtimeInstallationId : String)
  | reconfigureMcpV3 (command : ClusterReconfigureCommandPayloadV3)
  | upgradeMcpV3 (command : ClusterUpgradeCommandPayloadV3)
  | changeAvailabilityTier (appId : String) (availabilityTier : AvailabilityTier)
  | invoke (appId : String) (action : PowerAction)
  | setWorkspacePower (action : AppLifecycle.WorkspacePower)
  | redeploy (appId : String) (input : AppLifecycle.RedeployInput)
  | remove (appId : String) (workspaceRevoked : Bool)
  | reapQuarantined (appId : String)
  | unquarantine (appId : String)
  | reserve (appId listingId hostname : String) (kind : AppHostKind)
  | setDesiredHosts (appId listingId : String) (generationId : Option String)
      (hosts : List DesiredAppHost)
  | removeAllAppHosts (appId : String) (generationId : Option String)
  | setWorkspaceHostsSuspended (suspended : Bool)
  | releaseLabel (label : String)
  | reassignLabel (label listingId : String)

namespace SystemOperation

def program (deps : SystemDeps) (workspaceId : String) : SystemOperation → Action Unit
  | .deploy raw => do
    let _ ← onSystem deps.registry (Deployment.deploy deps.deployment workspaceId raw)
  | .deployMcp grant deploymentGrantHash hubIdentity => do
    let _ ← onSystem deps.registry
      (Deployment.deployMcp deps.deployment workspaceId grant deploymentGrantHash hubIdentity)
  | .deployMcpV3 grant deploymentGrantHash hubIdentity => do
    let _ ← onSystem deps.registry
      (DeploymentV3.deployMcpV3 deps.deployment workspaceId grant deploymentGrantHash hubIdentity)
  | .activateMcp input => do
    let _ ← onSystem deps.registry (Deployment.activateMcp workspaceId input)
  | .activateMcpV3 input => do
    let _ ← onSystem deps.registry (DeploymentV3.activateMcpV3 deps.deployment workspaceId input)
  | .recoverMcpV3InventoryAttestation runtimeInstallationId => do
    let _ ← onSystem deps.registry
      (DeploymentV3.recoverMcpV3InventoryAttestation deps.deployment workspaceId
        runtimeInstallationId)
  | .reconfigureMcpV3 command => do
    let _ ← onSystem deps.registry (RuntimeSwap.reconfigureMcpV3 deps.deployment workspaceId command)
  | .upgradeMcpV3 command => do
    let _ ← onSystem deps.registry (RuntimeSwap.upgradeMcpV3 deps.deployment workspaceId command)
  | .changeAvailabilityTier appId availabilityTier => do
    let _ ← onSystem deps.registry
      (Deployment.changeAvailabilityTier deps.deployment workspaceId appId availabilityTier)
  | .invoke appId action => do
    let _ ← onSystem deps.registry (AppLifecycle.invoke deps.lifecycle workspaceId appId action)
  | .setWorkspacePower action => do
    let _ ← onSystem deps.registry
      (AppLifecycle.setWorkspacePower deps.lifecycle workspaceId action)
  | .redeploy appId input => do
    let _ ← onSystem deps.registry (AppLifecycle.redeploy workspaceId appId input)
  | .remove appId workspaceRevoked => do
    let _ ← onSystem deps.registry
      (AppLifecycle.remove deps.lifecycle workspaceId appId workspaceRevoked)
  | .reapQuarantined appId => do
    let _ ← onSystem deps.registry (AppLifecycle.reapQuarantined deps.lifecycle workspaceId appId)
  | .unquarantine appId => do
    let _ ← onSystem deps.registry (AppLifecycle.unquarantine deps.lifecycle workspaceId appId)
  | .reserve appId listingId hostname kind => do
    let _ ← AppHostRegistry.reserve { workspaceId, appId, listingId, hostname, kind }
  | .setDesiredHosts appId listingId generationId hosts => do
    let _ ← AppHostRegistry.setDesiredHosts deps.registry
      { workspaceId, appId, listingId, generationId, hosts }
  | .removeAllAppHosts appId generationId => do
    let _ ← AppHostRegistry.removeAllAppHosts deps.registry appId generationId
  | .setWorkspaceHostsSuspended suspended => do
    let _ ← AppHostRegistry.setWorkspaceHostsSuspended deps.registry workspaceId suspended
  | .releaseLabel label => LabelNamespace.release label
  | .reassignLabel label listingId => LabelNamespace.reassign label ⟨workspaceId, listingId⟩

end SystemOperation

end PrivosCluster.Routing
