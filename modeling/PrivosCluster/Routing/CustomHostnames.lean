import PrivosCluster.Routing.HostRegistry

/-!
# Custom hostnames at Cloudflare

A hostname on the domain of an operator needs a custom hostname at Cloudflare. A worker creates and
deletes these outside the lock of the workspace: each of its steps is a remote call that is followed
by a write to the row. Here the registry and the worker act on the rows and the custom hostnames
together.
-/

namespace PrivosCluster.Routing

open AsyncProgram DocumentStore

/-- A custom hostname, with the tag of the registry in its metadata. -/
structure CfCustomHostname where
  id : String
  hostname : String
  registryTag : Option String
deriving DecidableEq

inductive CloudflareRequest where
  | list (hostname : String)
  | create (hostname registryTag : String)
  | delete (id : String)
deriving DecidableEq

/-- The result that the caller reads. -/
@[reducible] def CloudflareRequest.Result : CloudflareRequest → Type
  | .list _ => List CfCustomHostname
  | .create _ _ => CfCustomHostname
  | .delete _ => Unit

structure CloudflareEnvelope (R : Type) where
  success : Bool
  result : R
  errors : Option (List String) := none

/-- A response; a body that is not JSON has no envelope. -/
structure CloudflareResponse (R : Type) where
  status : Nat
  envelope : Option (CloudflareEnvelope R)

/-- The rows of the registry, and the custom hostnames of the zone. -/
structure Edge where
  system : System
  customHostnames : List CfCustomHostname
  /-- Every custom hostname that was ever created. -/
  issued : List CfCustomHostname

inductive EdgeCall where
  | system (c : SystemCall)
  | cloudflare (request : CloudflareRequest)
  | sleep (ms : Nat)

@[reducible] def EdgeCall.Answer : EdgeCall → Type
  | .system c => c.Answer
  | .cloudflare request => CloudflareResponse request.Result
  | .sleep _ => Unit

@[reducible] def edgeSignature : Signature := ⟨EdgeCall, EdgeCall.Answer⟩

structure CloudflareChoice where
  /-- Cloudflare carries the request out, whatever it answers. -/
  performed : Bool := true
  /-- The response arrives. -/
  answered : Bool := true
  error : JsError := ⟨"fetch failed", none, none, none, none, none⟩
  status : Nat := 200
  readable : Bool := true
  success : Bool := true
  errors : Option (List String) := none
  /-- The id of a new custom hostname. -/
  newId : String := ""
  /-- What a list shows, when that is not what there is. -/
  listed : Option (List CfCustomHostname) := none

structure EdgeChoice where
  system : Choice := {}
  cloudflare : CloudflareChoice := {}

def CloudflareRequest.result (x : CloudflareChoice) (customHostnames : List CfCustomHostname) :
    (request : CloudflareRequest) → request.Result
  | .list hostname => x.listed.getD (customHostnames.filter (·.hostname == hostname))
  | .create hostname registryTag => ⟨x.newId, hostname, some registryTag⟩
  | .delete _ => ()

def CloudflareRequest.perform (x : CloudflareChoice) (s : Edge) : CloudflareRequest → Edge
  | .list _ => s
  | .create hostname registryTag =>
    { s with
      customHostnames := s.customHostnames ++ [⟨x.newId, hostname, some registryTag⟩]
      issued := ⟨x.newId, hostname, some registryTag⟩ :: s.issued }
  | .delete id => { s with customHostnames := s.customHostnames.filter (·.id != id) }

def CloudflareRequest.response (x : CloudflareChoice) (customHostnames : List CfCustomHostname)
    (request : CloudflareRequest) : CloudflareResponse request.Result where
  status := x.status
  envelope := if x.readable then
      some { success := x.success, result := request.result x customHostnames, errors := x.errors }
    else none

def Edge.respond : (c : EdgeCall) → EdgeChoice → Edge → Except JsError c.Answer × Edge
  | .system c, x, s =>
    ((System.respond c x.system s.system).1,
      { s with system := (System.respond c x.system s.system).2 })
  | .cloudflare request, x, s =>
    (if x.cloudflare.answered then .ok (request.response x.cloudflare s.customHostnames)
      else .error x.cloudflare.error,
      if x.cloudflare.performed then request.perform x.cloudflare s else s)
  | .sleep _, _, s => (.ok (), s)

/-- What the environment is allowed to do at a call. -/
abbrev EdgeLaw := EdgeCall → EdgeChoice → Edge → Prop

def edge (law : EdgeLaw) : Machine edgeSignature JsError Edge EdgeChoice where
  permits := law
  respond := Edge.respond

abbrev EdgeAction := Program edgeSignature JsError

abbrev awaitEdge (c : EdgeCall) : EdgeAction c.Answer := @Program.ask edgeSignature JsError c

/-- An action on the system alone. -/
def onEdge {α : Type} (action : Action α) : EdgeAction α :=
  action.delegate (τ := edgeSignature) fun c ↦ awaitEdge (.system c)

structure CfWorkerDeps where
  enabled : Bool
  zoneId : Option String
  apiToken : Option String

def CfWorkerDeps.configured (deps : CfWorkerDeps) : Bool :=
  deps.enabled && (truthy deps.zoneId).isSome && (truthy deps.apiToken).isSome

namespace CfCustomHostnameWorker

def cloudflareReturned (status : Nat) : JsError :=
  { message := "Cloudflare API returned " ++ toString status }

def cloudflareFailed (errors : Option (List String)) : JsError :=
  { message := (truthy (errors.map (String.intercalate "; "))).getD "Cloudflare API failed" }

def unreadable : JsError := { message := "Unexpected end of JSON input" }

/-- The result of a response that is neither refused for now nor a failure of the server. -/
def resultOf {R : Type} (response : CloudflareResponse R) : Except JsError R :=
  match response.envelope with
  | none => .error unreadable
  | some envelope =>
    if (200 ≤ response.status ∧ response.status < 300) ∧ envelope.success = true then
      .ok envelope.result
    else .error (cloudflareFailed envelope.errors)

/-- `500 * 2 ** attempt`, with this many attempts left after it. -/
def backoff (left : Nat) : Nat := 500 * 2 ^ (4 - left)

/-- Attempts until one succeeds or none is left; the last error is thrown. -/
def attempts (request : CloudflareRequest) : JsError → Nat → EdgeAction request.Result
  | lastError, 0 => .throw lastError
  | _, left + 1 => do
    let fetched ← (awaitEdge (.cloudflare request)).settle
    match fetched with
    | .ok response =>
      if response.status = 429 ∨ 500 ≤ response.status then do
        awaitEdge (.sleep (backoff left))
        attempts request (cloudflareReturned response.status) left
      else
        match resultOf response with
        | .ok result => .pure result
        | .error error => do
          Program.onlyIf (left ≠ 0) (awaitEdge (.sleep (backoff left)))
          attempts request error left
    | .error error => do
      Program.onlyIf (left ≠ 0) (awaitEdge (.sleep (backoff left)))
      attempts request error left

def api (request : CloudflareRequest) : EdgeAction request.Result :=
  attempts request { message := "Cloudflare API failed after retries" } 5

def findExisting (hostname : String) : EdgeAction (Option CfCustomHostname) := do
  let results ← api (.list hostname)
  .pure results.head?

/-- A custom host in service that has no custom hostname yet. -/
def isToCreate (row : AppHostRecord) : Bool :=
  row.kind == .custom && AppHostRegistry.suspensibleStates.contains row.state &&
    row.cfHostnameId.isNone

/-- A custom host taken out of service that still has its custom hostname. -/
def isToDelete (row : AppHostRecord) : Bool :=
  row.kind == .custom && row.state == .deleting && row.cfHostnameId.isSome

def isOf (host : AppHostRecord) (row : AppHostRecord) : Bool := row.hostname == host.hostname

/-- The row of a host that is in service now; its state is the one the worker has read. -/
def recordedAs (host : AppHostRecord) (id : String) (time : Time) (row : AppHostRecord) :
    AppHostRecord :=
  { row with
    cfHostnameId := some id
    state := if host.state = .pending then .active else host.state
    updatedAt := time }

def failedAs (time : Time) (row : AppHostRecord) : AppHostRecord :=
  { row with state := .failed, updatedAt := time }

/-- The text of the error goes to a field that nobody reads. -/
def notedAs (time : Time) (row : AppHostRecord) : AppHostRecord := { row with updatedAt := time }

def write (filter : AppHostRecord → Bool) (update : Time → AppHostRecord → AppHostRecord) :
    EdgeAction Unit := onEdge do
  let time ← systemNow
  let _ ← AppHosts.updateOne filter (update time)
  .pure ()

/--
A custom hostname with our tag was created by a pass whose write got lost, and is adopted. One
without it belongs to somebody else.
-/
def register (host : AppHostRecord) : EdgeAction Bool := do
  let existing ← findExisting host.hostname
  match existing with
  | some existing =>
    if existing.registryTag = some host.hostname then do
      write (isOf host) (recordedAs host existing.id)
      .pure true
    else do
      write (isOf host) failedAs
      .pure false
  | none => do
    let created ← api (.create host.hostname host.hostname)
    write (isOf host) (recordedAs host created.id)
    .pure true

def create (host : AppHostRecord) : EdgeAction Bool :=
  (register host).tryCatch fun _ ↦ do
    write (isOf host) notedAs
    .pure false

/-- The custom hostname of a row, when it has one, is deleted at Cloudflare. -/
def deleteRemote (host : AppHostRecord) : EdgeAction Unit :=
  Program.forSome (truthy host.cfHostnameId) fun id ↦ do
    let _ ← api (.delete id)
    .pure ()

/-- The hostname is unique, so at most one row is deleted. -/
def deleteRow (host : AppHostRecord) : EdgeAction Unit := onEdge do
  let _ ← AppHosts.deleteMany fun row ↦ isOf host row && row.state == .deleting
  .pure ()

def delete (host : AppHostRecord) : EdgeAction Bool :=
  Program.tryCatch (do
    deleteRemote host
    deleteRow host
    .pure true) fun _ ↦ do
      write (isOf host) notedAs
      .pure false

/-- One pass over the rows as they were found at its beginning. -/
def pass : EdgeAction (Nat × Nat) := do
  let toCreate ← onEdge (AppHosts.find isToCreate)
  let toDelete ← onEdge (AppHosts.find isToDelete)
  let created ← Program.mapEach create toCreate
  let deleted ← Program.mapEach delete toDelete
  .pure (created.count true, deleted.count true)

def runOnce (deps : CfWorkerDeps) : EdgeAction (Nat × Nat) :=
  if deps.configured then pass else .pure (0, 0)

/-- A suspended custom host whose suspension is older than the cutoff. -/
def isPastRetention (cutoff : Time) (row : AppHostRecord) : Bool :=
  row.state == .wsSuspended && row.kind == .custom && row.cfHostnameId.isSome &&
    row.wsSuspendedAt.any (· ≤ cutoff)

def releasedAs (time : Time) (row : AppHostRecord) : AppHostRecord :=
  { row with state := .cfReleased, updatedAt := time, cfHostnameId := none }

def release (host : AppHostRecord) : EdgeAction Bool :=
  Program.tryCatch (do
    deleteRemote host
    write (fun row ↦ isOf host row && row.state == .wsSuspended) releasedAs
    .pure true) fun _ ↦ do
      write (isOf host) notedAs
      .pure false

def releaseSuspended (retentionDays : Int) : EdgeAction Nat := do
  let now ← onEdge systemNow
  let candidates ← onEdge (AppHosts.find (isPastRetention (now - retentionDays * 86400000)))
  let released ← Program.mapEach release candidates
  .pure (released.count true)

def releaseSuspendedCfHostnames (deps : CfWorkerDeps) (retentionDays : Int) : EdgeAction Nat :=
  if deps.configured then releaseSuspended retentionDays else .pure 0

end CfCustomHostnameWorker

/-- What writes the rows of `app_hosts`: the requests to the registry, and the passes of the worker. -/
inductive RegistryOperation where
  | reserve (input : AppHostRegistry.ReserveInput)
  | setDesiredHosts (input : AppHostRegistry.SetDesiredHostsInput)
  | removeAllAppHosts (appId : String) (generationId : Option String)
  | setWorkspaceHostsSuspended (workspaceId : String) (suspended : Bool)
  | runOnce
  | releaseSuspendedCfHostnames (retentionDays : Int)

structure EdgeDeps where
  registry : RegistryDeps
  worker : CfWorkerDeps

namespace RegistryOperation

def program (deps : EdgeDeps) : RegistryOperation → EdgeAction Unit
  | .reserve input => do
    let _ ← onEdge (AppHostRegistry.reserve input)
  | .setDesiredHosts input => do
    let _ ← onEdge (AppHostRegistry.setDesiredHosts deps.registry input)
  | .removeAllAppHosts appId generationId => do
    let _ ← onEdge (AppHostRegistry.removeAllAppHosts deps.registry appId generationId)
  | .setWorkspaceHostsSuspended workspaceId suspended => do
    let _ ← onEdge
      (AppHostRegistry.setWorkspaceHostsSuspended deps.registry workspaceId suspended)
  | .runOnce => do
    let _ ← CfCustomHostnameWorker.runOnce deps.worker
  | .releaseSuspendedCfHostnames retentionDays => do
    let _ ← CfCustomHostnameWorker.releaseSuspendedCfHostnames deps.worker retentionDays

/-- Any number of operations at the same time. -/
def pool {ι : Type} (deps : EdgeDeps) (tasks : ι → RegistryOperation) (s : Edge) :
    Pool edgeSignature JsError Edge ι :=
  ⟨fun i ↦ (tasks i).program deps, s⟩

end RegistryOperation

end PrivosCluster.Routing
