import PrivosCluster.LocalRuntime.LedgerInvariants
import PrivosCluster.LocalRuntime.RuntimePolicy

/-!
# The runtime service

A request is served under the lock of its runtime. The ledger is claimed before anything is built,
so that a request that was interrupted finds what it has done; READY and ACTIVE documents are stored
and replayed word for word. What Docker and the broker answer is up to the environment.
-/

namespace PrivosCluster.LocalRuntime

open AsyncProgram

/-! ## Calls -/

@[reducible] def LedgerCall.Result : LedgerCall → Type
  | .deleteByRuntimeId _ => Bool
  | _ => RuntimeRecord

/-- A call with its answer. -/
def LedgerCall.perform (platform : LedgerPlatform) : (call : LedgerCall) → LedgerM call.Result
  | .claim input => LocalRuntime.claim platform input
  | .recordContainer runtimeId requestHash containerId now =>
    LocalRuntime.recordContainer platform runtimeId requestHash containerId now
  | .markReady runtimeId requestHash readyResponseJson driverEvidenceJson now =>
    LocalRuntime.markReady platform runtimeId requestHash readyResponseJson driverEvidenceJson now
  | .claimActivation input => LocalRuntime.claimActivation platform input
  | .recordBrokerRegistered runtimeId now =>
    LocalRuntime.recordBrokerRegistered platform runtimeId now
  | .recordActiveContainerReady runtimeId activationRequestHash now =>
    LocalRuntime.recordActiveContainerReady platform runtimeId activationRequestHash now
  | .markActive input => LocalRuntime.markActive platform input
  | .deleteByRuntimeId runtimeId => LocalRuntime.deleteByRuntimeId platform runtimeId

def listRecords (platform : LedgerPlatform) : LedgerM (List RuntimeRecord) := do
  let state ← readLedger platform
  pure (state.byRuntimeId.entries.map fun e ↦ e.2)

inductive ServiceCall where
  | lock (runtimeId : String)
  | unlock (runtimeId : String)
  | getByRuntimeId (runtimeId : String)
  | listRecords
  | ledger (call : LedgerCall)
  | store (call : StoreCall)
  | ensureNetwork
  | inspectContainer (name : String)
  | createContainer (spec : CreateSpec)
  | startContainer (id : String)
  | stopContainer (id : String)
  | removeContainer (id : String)
  | waitReady (address : String) (port : Rat)
  | prepareBroker (replicaId : String)
  | registerProvisioning (binding : LocalRuntimeBrokerBinding)
  | registerBroker (binding : LocalRuntimeBrokerBinding)
  | cleanupBroker (replicaId : String)
  | clock

@[reducible] def ServiceCall.Answer : ServiceCall → Type
  | .lock _ => Unit
  | .unlock _ => Unit
  | .getByRuntimeId _ => Option RuntimeRecord
  | .listRecords => List RuntimeRecord
  | .ledger call => call.Result
  | .store call => call.Answer
  | .ensureNetwork => Unit
  | .inspectContainer _ => Option ContainerInspect
  | .createContainer _ => Unit
  | .startContainer _ => Unit
  | .stopContainer _ => Unit
  | .removeContainer _ => Unit
  | .waitReady _ _ => Unit
  | .prepareBroker _ => Unit
  | .registerProvisioning _ => Unit
  | .registerBroker _ => Unit
  | .cleanupBroker _ => Unit
  | .clock => Int

@[reducible] def serviceSignature : Signature := ⟨ServiceCall, ServiceCall.Answer⟩

abbrev Served := Program serviceSignature ServiceError

abbrev awaitService (c : ServiceCall) : Served c.Answer :=
  @Program.ask serviceSignature ServiceError c

def awaitLedger (call : LedgerCall) : Served call.Result := awaitService (.ledger call)

/-- A call of Docker whose error is reported as unavailability. -/
def awaitDocker (c : ServiceCall) (failure : String) : Served c.Answer :=
  (awaitService c).tryCatch fun err ↦ .throw (runtimeUnavailable (failure ++ ": " ++ err.message))

def withRuntimeLock {α : Type} (runtimeId : String) (p : Served α) : Served α := do
  awaitService (.lock runtimeId)
  p.finallyDo (awaitService (.unlock runtimeId))

def serviceNow : Served Int := do
  let now ← awaitService .clock
  Program.throwIf (now / 1000 ≤ 0) (runtimeUnavailable "the driver clock is invalid")
  .pure (now / 1000)

/-! ## Containers -/

def inspectByName (name : String) : Served (Option ContainerInspect) :=
  awaitDocker (.inspectContainer name) "docker container inspection failed"

/-- Stops a container, unless it is not running, and removes it. -/
def stopAndRemove (container : ContainerInspect) : Served Unit := do
  Program.onlyIf (container.running = true)
    (awaitDocker (.stopContainer container.id) "failed to stop the local runtime container")
  awaitDocker (.removeContainer container.id) "failed to remove the local runtime container"

def removeContainerVerified (name : String) (policy : ContainerPolicy)
    (artifact : StagedArtifactRecord) : Served Unit := do
  let container ← inspectByName name
  Program.forSome container fun container ↦ do
    Program.ofExcept (assertContainerMatchesPolicy container policy artifact)
    stopAndRemove container
    let left ← inspectByName name
    Program.throwIf (left.isSome = true)
      (runtimeUnavailable "Docker did not remove the exact preactivation container.")

/-- The container of that name, or the error thrown when there is none. -/
def requireContainer (name message : String) : Served ContainerInspect := do
  match ← inspectByName name with
  | some container => .pure container
  | none => .throw (runtimeUnavailable message)

def findOrCreateContainer (policy : ContainerPolicy) : Served ContainerInspect := do
  match ← inspectByName policy.runtimeId with
  | some container => .pure container
  | none =>
    awaitService (.createContainer policy.createSpec)
    requireContainer policy.runtimeId "Docker did not persist the deterministic container."

/-- The binding is registered before the container starts, and again when it is running. -/
def registerAndStart (policy : ContainerPolicy) (container : ContainerInspect)
    (registerBroker : String → Served Unit) : Served ContainerInspect := do
  registerBroker container.id
  if container.running = true then .pure container
  else
    awaitDocker (.startContainer container.id) "failed to start the local runtime container"
    requireContainer policy.runtimeId "the local runtime container disappeared after start"

def reconcileContainer (policy : ContainerPolicy) (artifact : StagedArtifactRecord)
    (registerBroker : String → Served Unit) : Served String := do
  awaitService .ensureNetwork
  let container ← findOrCreateContainer policy
  Program.ofExcept (assertContainerMatchesPolicy container policy artifact)
  let container ← registerAndStart policy container registerBroker
  match container.address.filter (· ≠ "") with
  | none => .throw (runtimeUnavailable "the local runtime has no private container address")
  | some address =>
    awaitService (.waitReady address policy.createSpec.port)
    .pure container.id

/-! ## Removing what was built -/

/-- The broker directories go before the record, which a repeated removal still finds. -/
def teardownRecorded (record : RuntimeRecord) : Served Unit := do
  let container ← inspectByName record.runtimeId
  Program.forSome container stopAndRemove
  awaitService (.cleanupBroker record.replicaId)
  Program.forSome (record.activeReplicaId.filter (· ≠ "")) fun replicaId ↦
    awaitService (.cleanupBroker replicaId)
  let _ ← awaitLedger (.deleteByRuntimeId record.runtimeId)
  .pure ()

/-- The store erases the artifact by calls of its own. -/
def eraseArtifact (digest : String) : Served ArtifactAbsent :=
  (LocalRuntime.remove digest).delegate fun c ↦ awaitService (.store c)

/-- A runtime on the artifact that never activated is torn down under its lock. -/
def eraseRuntime (digest : String) (record : RuntimeRecord) : Served Unit :=
  Program.onlyIf (record.artifactDigest = digest ∧ record.activationRequestHash = none)
    (withRuntimeLock record.runtimeId do
      let current ← awaitService (.getByRuntimeId record.runtimeId)
      Program.forSome current fun current ↦
        Program.onlyIf (current.activationRequestHash = none) (teardownRecorded current))

def removeArtifact (digest : String) : Served ArtifactAbsent := do
  let records ← awaitService .listRecords
  Program.forEach (eraseRuntime digest) records
  eraseArtifact digest

/-! ## READY and ACTIVE -/

section

variable (platform : DriverPlatform) (config : RuntimeServiceConfig)

def resolveStagedArtifact (digest : String) : Served StagedArtifactRecord := do
  match ← awaitService (.store (.resolve digest)) with
  | some staged => .pure staged
  | none => .throw (.driver .artifactNotStaged)

def artifactDigestOf (request : Json) : String := textField (field request "artifact") "digest"

/-- A candidate that never activated gives way to a changed request. -/
def replaceCandidate (requestHash : String) (prior : Option RuntimeRecord) : Served Unit :=
  Program.forSome prior fun prior ↦
    Program.onlyIf ((prior.state = .claimed ∨ prior.state = .ready) ∧
      prior.requestHash ≠ requestHash) (teardownRecorded prior)

def claimInput (request : Json) (artifact : StagedArtifactRecord) (now : Int) : ClaimInput :=
  let runtimeId := computeRuntimeId platform request
  { generationId := textField request "generation_id"
    installationId := textField request "installation_id"
    generationNumber := (numberOf (field request "generation_number")).num
    requestHash := canonicalHash platform request
    requestJson := sortedText platform request
    runtimeId
    artifactDigest := artifact.digest
    imageManifestDigest := artifact.manifestDigest
    imageConfigDigest := artifact.configDigest
    containerSpecHash := canonicalHash platform
      (policyIdentity platform config request artifact runtimeId none BROKER_MOUNT_TARGET)
    now }

/-- A document with the hash of its canonical form as one more member. -/
def sealed (members : List (String × Json)) (hashName : String) : Json :=
  .obj (members ++ [(hashName, .str (canonicalHash platform (.obj members)))])

def affinityMembers (request : Json) : List (String × Json) :=
  AFFINITY_FIELDS.map fun name ↦ (name, field request name)

def readyMembers (request : Json) (artifact : StagedArtifactRecord) (policy : ContainerPolicy)
    (readyAt : Int) : List (String × Json) :=
  [("protocol_version", .num 3), ("state", .str "READY"), ("runtime_id", .str policy.runtimeId)] ++
  affinityMembers request ++
  [("artifact_digest", .str artifact.digest), ("endpoint", .str policy.endpoint),
    ("supervisor", .str SUPERVISOR), ("ready_at", .num readyAt)]

def supervisorEvidence (artifact : StagedArtifactRecord) (policy : ContainerPolicy)
    (activation : List (String × Json)) : Json :=
  .obj ([("driver_abi", .str DRIVER_ABI), ("container_name", .str policy.runtimeId),
    ("container_spec_hash", .str policy.containerSpecHash),
    ("generation_affinity_hash", .str policy.affinityHash)] ++ activation ++
    [("image_manifest_digest", .str artifact.manifestDigest),
    ("image_config_digest", .str artifact.configDigest), ("network", .str config.privateNetwork),
    ("restart_policy", .str "unless-stopped")])

def preactivationBinding (request : Json) (artifact : StagedArtifactRecord)
    (runtimeId replicaId : String) : LocalRuntimeBrokerBinding :=
  buildLocalRuntimeBinding config request artifact.digest runtimeId replicaId "" none

def preactivationPolicy (request : Json) (artifact : StagedArtifactRecord)
    (runtimeId replicaId : String) : ContainerPolicy :=
  buildPolicy platform config request artifact none (brokerMountFor config replicaId)
    (preactivationBinding config request artifact runtimeId replicaId)

/-- Builds the container of a claimed record and stores its READY document. -/
def buildReady (request : Json) (artifact : StagedArtifactRecord) (record : RuntimeRecord) :
    Served Json := do
  let runtimeId := computeRuntimeId platform request
  let requestHash := canonicalHash platform request
  awaitService (.prepareBroker record.replicaId)
  let binding := preactivationBinding config request artifact runtimeId record.replicaId
  let policy := preactivationPolicy platform config request artifact runtimeId record.replicaId
  let containerId ← reconcileContainer policy artifact fun dockerContainerId ↦ do
    awaitService (.registerProvisioning { binding with dockerContainerId })
    let now ← serviceNow
    let _ ← awaitLedger (.recordBrokerRegistered runtimeId now)
    .pure ()
  let now ← serviceNow
  let _ ← awaitLedger (.recordContainer runtimeId requestHash containerId now)
  let readyAt ← serviceNow
  let ready := readyMembers request artifact policy readyAt
  let evidence := Json.obj [("schema_version", .num 1), ("ready", .obj ready),
    ("supervisor_evidence", supervisorEvidence config artifact policy [])]
  let marked ← awaitLedger (.markReady runtimeId requestHash
    (sortedText platform (sealed platform ready "driver_evidence_hash"))
    (sortedText platform evidence) readyAt)
  let document ← Program.ofExcept (parseDocument platform (marked.readyResponseJson.getD ""))
  Program.ofExcept (validateReady platform document)

/-- The caller holds the lock of the runtime. -/
def ensureReadyLocked (request : Json) : Served Json := do
  let artifact ← resolveStagedArtifact (artifactDigestOf request)
  let prior ← awaitService (.getByRuntimeId (computeRuntimeId platform request))
  replaceCandidate (canonicalHash platform request) prior
  let now ← serviceNow
  let record ← awaitLedger (.claim (claimInput platform config request artifact now))
  match record.readyResponseJson.filter (· ≠ "") with
  | some text =>
    let document ← Program.ofExcept (parseDocument platform text)
    Program.ofExcept (validateReady platform document)
  | none => buildReady platform config request artifact record

def ensureReady (rawRequest : Json) : Served Json := do
  let request ← Program.ofExcept (validateEnsureReady platform rawRequest)
  withRuntimeLock (computeRuntimeId platform request) (ensureReadyLocked platform config request)

/-- The request that a record was claimed for. -/
def persistedRequest (record : RuntimeRecord) : Except ServiceError Json := do
  let document ← parseDocument platform record.requestJson
  validateEnsureReady platform document

def requireRecord (runtimeId : String) : Served RuntimeRecord := do
  match ← awaitService (.getByRuntimeId runtimeId) with
  | some record => .pure record
  | none => .throw (.driver .runtimeNotFound)

def status (runtimeId : String) : Served Json := do
  Program.throwIf (isRuntimeId runtimeId = false) (.driver .runtimeNotFound)
  withRuntimeLock runtimeId do
    let record ← requireRecord runtimeId
    let request ← Program.ofExcept (persistedRequest platform record)
    ensureReadyLocked platform config request

def assertActivationAffinity (activation request : Json) (policy : ContainerPolicy)
    (artifact : StagedArtifactRecord) : Except ServiceError Unit :=
  throwWhen
    (field activation "ensure_ready_request_hash" ≠ .str (canonicalHash platform request) ∨
      field activation "runtime_id" ≠ .str policy.runtimeId ∨
      field activation "artifact_digest" ≠ .str artifact.digest ∨
      ∃ name ∈ AFFINITY_FIELDS, platform.stringify (field activation name) ≠
        platform.stringify (field request name))
    (affinityConflict "The activation has different immutable runtime affinity.")

def activationInput (request activation : Json) (artifact : StagedArtifactRecord) (now : Int) :
    ActivationInput :=
  let runtimeId := textField activation "runtime_id"
  { runtimeId
    requestHash := canonicalHash platform request
    activationRequestHash := canonicalHash platform activation
    activationRequestJson := sortedText platform activation
    activeContainerSpecHash := canonicalHash platform
      (policyIdentity platform config request artifact runtimeId (some activation)
        BROKER_MOUNT_TARGET)
    now }

def activeBinding (request activation : Json) (artifact : StagedArtifactRecord)
    (replicaId : String) : LocalRuntimeBrokerBinding :=
  buildLocalRuntimeBinding config request artifact.digest (textField activation "runtime_id")
    replicaId "" (some activation)

def activePolicy (request activation : Json) (artifact : StagedArtifactRecord)
    (replicaId : String) : ContainerPolicy :=
  buildPolicy platform config request artifact (some activation) (brokerMountFor config replicaId)
    (activeBinding config request activation artifact replicaId)

/-- The members of an activation that its ACTIVE document repeats. -/
def activationMembers : Json → List (String × Json)
  | .obj members => members.filter fun m ↦ m.1 ≠ "protocol_version" ∧ m.1 ≠ "operation"
  | _ => []

def activeMembers (activation : Json) (activatedAt : Option Int) : List (String × Json) :=
  [("protocol_version", .num 3), ("state", .str "ACTIVE")] ++ activationMembers activation ++
  [("unsigned_readiness_disabled", .bool true),
    ("activated_at", activatedAt.elim .null fun time ↦ .num time)]

/-- Swaps the container, unless that has been done, and stores the ACTIVE document. -/
def buildActive (request activation : Json) (artifact : StagedArtifactRecord)
    (record claimed : RuntimeRecord) : Served Json := do
  let runtimeId := textField activation "runtime_id"
  let activeReplicaId := claimed.activeReplicaId.getD ""
  awaitService (.prepareBroker activeReplicaId)
  let binding := activeBinding config request activation artifact activeReplicaId
  let policy := activePolicy platform config request activation artifact activeReplicaId
  let preactivation :=
    preactivationPolicy platform config request artifact runtimeId record.replicaId
  let current ← inspectByName policy.runtimeId
  Program.onlyIf ((current.any fun container ↦ isPolicyMatch container policy artifact) = false) do
    removeContainerVerified preactivation.runtimeId preactivation artifact
    awaitService (.cleanupBroker record.replicaId)
  let containerId ← reconcileContainer policy artifact fun dockerContainerId ↦ do
    awaitService (.registerBroker { binding with dockerContainerId })
    let now ← serviceNow
    let _ ← awaitLedger (.recordBrokerRegistered runtimeId now)
    .pure ()
  let now ← serviceNow
  let _ ← awaitLedger (.recordContainer runtimeId (canonicalHash platform request) containerId now)
  let activationHash := canonicalHash platform activation
  let activeReadyAt ← serviceNow
  let readyRecord ← awaitLedger (.recordActiveContainerReady runtimeId activationHash activeReadyAt)
  let active := activeMembers activation readyRecord.activeContainerReadyAt
  let evidence := Json.obj [("schema_version", .num 1), ("active", .obj active),
    ("supervisor_evidence", supervisorEvidence config artifact policy
      [("activation_request_hash", .str activationHash)])]
  let now ← serviceNow
  let marked ← awaitLedger (.markActive
    { runtimeId
      activationRequestHash := activationHash
      activeResponseJson := sortedText platform (sealed platform active "activation_evidence_hash")
      activationEvidenceJson := sortedText platform evidence
      now })
  let document ← Program.ofExcept (parseDocument platform (marked.activeResponseJson.getD ""))
  Program.ofExcept (validateActive platform document)

def activateLocked (activation : Json) : Served Json := do
  let runtimeId := textField activation "runtime_id"
  let record ← requireRecord runtimeId
  let request ← Program.ofExcept (persistedRequest platform record)
  let artifact ← resolveStagedArtifact (artifactDigestOf request)
  let policy := preactivationPolicy platform config request artifact runtimeId record.replicaId
  Program.ofExcept (assertActivationAffinity platform activation request policy artifact)
  let _ ← ensureReadyLocked platform config request
  let now ← serviceNow
  let claimed ←
    awaitLedger (.claimActivation (activationInput platform config request activation artifact now))
  match (claimed.activeResponseJson.filter (· ≠ "")).filter fun _ ↦ claimed.state = .active with
  | some text =>
    let document ← Program.ofExcept (parseDocument platform text)
    Program.ofExcept (validateActive platform document)
  | none => buildActive platform config request activation artifact record claimed

def activate (rawRequest : Json) : Served Json := do
  let activation ← Program.ofExcept (validateActivate platform rawRequest)
  withRuntimeLock (textField activation "runtime_id") (activateLocked platform config activation)

/-! ## Removal of a runtime -/

def removalConflict : ServiceError :=
  affinityConflict "The REMOVE request does not match the persisted runtime."

/-- Whether a removal names the artifact and the affinity that the runtime was claimed with. -/
def assertRemovalAffinity (request : Json) (record : RuntimeRecord) : Except ServiceError Unit := do
  throwWhen (field request "artifact_digest" ≠ .str record.artifactDigest) removalConflict
  let persisted ← persistedRequest platform record
  throwWhen (platform.stringify (affinityFromRequest persisted) ≠
    platform.stringify (affinityFromRequest request)) removalConflict

def removeRuntimeLocked (request : Json) : Served Json := do
  let runtimeId := textField request "runtime_id"
  let record ← awaitService (.getByRuntimeId runtimeId)
  Program.forSome record fun record ↦ do
    Program.ofExcept (assertRemovalAffinity platform request record)
    teardownRecorded record
  let container ← inspectByName runtimeId
  Program.throwIf (container.isSome = true)
    (runtimeUnavailable "Docker did not remove the exact supervised container.")
  let left ← awaitService (.getByRuntimeId runtimeId)
  Program.throwIf (left.isSome = true)
    (runtimeUnavailable "the runtime record survived removal")
  let checkedAt ← serviceNow
  let absent := [("protocol_version", .num 3), ("state", .str "ABSENT")] ++
    affinityMembers request ++ [("runtime_id", .str runtimeId),
      ("artifact_digest", field request "artifact_digest"), ("checked_at", .num checkedAt)]
  Program.ofExcept (validateAbsent platform (sealed platform absent "removal_evidence_hash"))

def removeRuntime (rawRequest : Json) : Served Json := do
  let request ← Program.ofExcept (validateRemove platform rawRequest)
  withRuntimeLock (textField request "runtime_id") (removeRuntimeLocked platform request)

end

end PrivosCluster.LocalRuntime
