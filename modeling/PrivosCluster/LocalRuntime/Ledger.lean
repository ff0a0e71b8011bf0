import Mathlib.Data.List.AList
import PrivosCluster.Master.Types

/-!
# The ledger of local runtimes

One file with a record for each runtime, and for each generation the runtime that stands for it.
A call reads the file, checks the record and writes the file back whole; it mutates only what it
has read, so that a call that throws before its write leaves the file as it was.
-/

namespace PrivosCluster.LocalRuntime

/-- The stable driver errors; `syntaxError` is what `JSON.parse` throws. -/
inductive DriverError where
  | contractError (message : String)
  | affinityConflict (message : String)
  | runtimeUnavailable (message : String)
  | runtimeNotFound
  | artifactNotStaged
  | syntaxError
deriving DecidableEq

def generationConflict : DriverError :=
  .affinityConflict "The generation is already claimed with different affinity."

inductive RuntimeState where
  | claimed
  | ready
  | activating
  | active
deriving DecidableEq

namespace RuntimeState

def rank : RuntimeState → Nat
  | claimed => 0
  | ready => 1
  | activating => 2
  | active => 3

instance : LE RuntimeState := ⟨fun a b ↦ a.rank ≤ b.rank⟩

theorem le_iff (a b : RuntimeState) : a ≤ b ↔ a.rank ≤ b.rank := Iff.rfl

instance (a b : RuntimeState) : Decidable (a ≤ b) := inferInstanceAs (Decidable (a.rank ≤ b.rank))

end RuntimeState

/-- A record; the empty `replicaId` is that of a record written before the field existed. -/
structure RuntimeRecord where
  generationId : String
  installationId : String
  generationNumber : Int
  requestHash : String
  requestJson : String
  runtimeId : String
  artifactDigest : String
  imageManifestDigest : String
  imageConfigDigest : String
  containerSpecHash : String
  containerId : Option String
  state : RuntimeState
  readyResponseJson : Option String
  driverEvidenceJson : Option String
  activationRequestHash : Option String
  activationRequestJson : Option String
  activeContainerSpecHash : Option String
  activationClaimedAt : Option Int
  activeContainerReadyAt : Option Int
  activeResponseJson : Option String
  activationEvidenceJson : Option String
  createdAt : Int
  updatedAt : Int
  replicaId : String
  activeReplicaId : Option String
  brokerRegisteredAt : Option Int
deriving DecidableEq

structure LedgerFile where
  byRuntimeId : AList fun _ : String ↦ RuntimeRecord
  generationToRuntimeId : AList fun _ : String ↦ String

def emptyLedger : LedgerFile := ⟨∅, ∅⟩

namespace LedgerFile

def record (state : LedgerFile) (runtimeId : String) : Option RuntimeRecord :=
  state.byRuntimeId.lookup runtimeId

def slot (state : LedgerFile) (generationId : String) : Option String :=
  state.generationToRuntimeId.lookup generationId

/-- `state.byRuntimeId[runtimeId] = record` -/
def put (state : LedgerFile) (runtimeId : String) (record : RuntimeRecord) : LedgerFile :=
  { state with byRuntimeId := state.byRuntimeId.insert runtimeId record }

/-- `state.generationToRuntimeId[generationId] = runtimeId` -/
def pointTo (state : LedgerFile) (generationId runtimeId : String) : LedgerFile :=
  { state with generationToRuntimeId := state.generationToRuntimeId.insert generationId runtimeId }

def dropRecord (state : LedgerFile) (runtimeId : String) : LedgerFile :=
  { state with byRuntimeId := state.byRuntimeId.erase runtimeId }

def dropSlot (state : LedgerFile) (generationId : String) : LedgerFile :=
  { state with generationToRuntimeId := state.generationToRuntimeId.erase generationId }

section

variable (state : LedgerFile) (runtimeId other generationId : String) (r : RuntimeRecord)

@[simp] theorem record_put : (state.put runtimeId r).record other =
    if other = runtimeId then some r else state.record other := by
  unfold record put
  split
  next h => rw [h, AList.lookup_insert]
  next h => exact AList.lookup_insert_ne h

@[simp] theorem slot_put : (state.put runtimeId r).slot generationId = state.slot generationId :=
  rfl

@[simp] theorem record_pointTo :
    (state.pointTo generationId runtimeId).record other = state.record other := rfl

@[simp] theorem slot_pointTo : (state.pointTo generationId runtimeId).slot other =
    if other = generationId then some runtimeId else state.slot other := by
  unfold slot pointTo
  split
  next h => rw [h, AList.lookup_insert]
  next h => exact AList.lookup_insert_ne h

@[simp] theorem record_dropRecord : (state.dropRecord runtimeId).record other =
    if other = runtimeId then none else state.record other := by
  unfold record dropRecord
  split
  next h => rw [h, AList.lookup_erase]
  next h => exact AList.lookup_erase_ne h

@[simp] theorem slot_dropRecord :
    (state.dropRecord runtimeId).slot generationId = state.slot generationId := rfl

@[simp] theorem record_dropSlot :
    (state.dropSlot generationId).record other = state.record other := rfl

@[simp] theorem slot_dropSlot : (state.dropSlot generationId).slot other =
    if other = generationId then none else state.slot other := by
  unfold slot dropSlot
  split
  next h => rw [h, AList.lookup_erase]
  next h => exact AList.lookup_erase_ne h

@[simp] theorem record_emptyLedger : emptyLedger.record runtimeId = none := rfl

@[simp] theorem slot_emptyLedger : emptyLedger.slot generationId = none := rfl

end

/-! ## Replica ids of old records -/

def backfilled (fresh : String → String) (runtimeId : String) (record : RuntimeRecord) :
    RuntimeRecord :=
  if record.replicaId = "" then { record with replicaId := fresh runtimeId } else record

/-- The records with a replica id each; `fresh` mints them. -/
def backfillReplicaIds (state : LedgerFile) (fresh : String → String) : LedgerFile :=
  { state with
    byRuntimeId := ⟨state.byRuntimeId.entries.map fun e ↦ ⟨e.1, backfilled fresh e.1 e.2⟩, by
      have h := state.byRuntimeId.nodupKeys
      unfold List.NodupKeys List.keys at *
      simpa [List.map_map, Function.comp_def] using h⟩ }

/-- Whether the backfill changes the file. -/
def dirty (state : LedgerFile) : Bool :=
  state.byRuntimeId.entries.any fun e ↦ e.2.replicaId == ""

end LedgerFile

/-! ## The file -/

/-- The file on disk: missing, not a ledger, or a ledger. -/
inductive LedgerStorage where
  | missing
  | corrupt
  | stored (ledger : LedgerFile)

/-- A call on the file; what it has written stays when it throws. -/
abbrev LedgerM := ExceptT DriverError (StateM LedgerStorage)

/-- What the calls use of the platform: `JSON.parse` and, for one call, the ids it mints. -/
structure LedgerPlatform where
  parses : String → Bool
  randomUUID : String → String
  nonempty : ∀ runtimeId, randomUUID runtimeId ≠ ""

variable (platform : LedgerPlatform)

def writeAtomic (ledger : LedgerFile) : LedgerM Unit := set (LedgerStorage.stored ledger)

def throwUnless (condition : Bool) (error : DriverError) : LedgerM Unit :=
  if condition then pure () else throw error

def readLedger : LedgerM LedgerFile := do
  match ← get with
  | .missing => pure emptyLedger
  | .corrupt => throw (.runtimeUnavailable "The local runtime ledger is unavailable.")
  | .stored ledger =>
    if ledger.dirty then
      writeAtomic (ledger.backfillReplicaIds platform.randomUUID)
      pure (ledger.backfillReplicaIds platform.randomUUID)
    else pure ledger

/-- The constructor of `RuntimeLedger`. -/
def openLedger : LedgerStorage → LedgerStorage
  | .missing => .stored emptyLedger
  | storage => storage

/-- `JSON.parse` of a text whose value is not used. -/
def assertParses (text : String) : LedgerM Unit :=
  throwUnless (platform.parses text) .syntaxError

/-- The record of a runtime, or the error thrown when it is missing or refused. -/
def recordWhere (state : LedgerFile) (runtimeId : String) (accepts : RuntimeRecord → Bool)
    (error : DriverError) : LedgerM RuntimeRecord :=
  match state.record runtimeId with
  | some record => if accepts record then pure record else throw error
  | none => throw error

/-! ## Reading -/

def LedgerFile.get (state : LedgerFile) (generationId : String) : Option RuntimeRecord :=
  match state.slot generationId with
  | some runtimeId => if runtimeId = "" then none else state.record runtimeId
  | none => none

def RuntimeLedger.get (generationId : String) : LedgerM (Option RuntimeRecord) := do
  let state ← readLedger platform
  pure (state.get generationId)

def getByRuntimeId (runtimeId : String) : LedgerM (Option RuntimeRecord) := do
  let state ← readLedger platform
  pure (state.record runtimeId)

/-! ## Claims -/

structure ClaimInput where
  generationId : String
  installationId : String
  generationNumber : Int
  requestHash : String
  requestJson : String
  runtimeId : String
  artifactDigest : String
  imageManifestDigest : String
  imageConfigDigest : String
  containerSpecHash : String
  now : Int

def ClaimInput.agrees (input : ClaimInput) (existing : RuntimeRecord) : Bool :=
  existing.requestHash == input.requestHash && existing.requestJson == input.requestJson &&
  existing.artifactDigest == input.artifactDigest &&
  existing.imageManifestDigest == input.imageManifestDigest &&
  existing.imageConfigDigest == input.imageConfigDigest &&
  existing.containerSpecHash == input.containerSpecHash

def ClaimInput.record (input : ClaimInput) (replicaId : String) : RuntimeRecord where
  generationId := input.generationId
  installationId := input.installationId
  generationNumber := input.generationNumber
  requestHash := input.requestHash
  requestJson := input.requestJson
  runtimeId := input.runtimeId
  artifactDigest := input.artifactDigest
  imageManifestDigest := input.imageManifestDigest
  imageConfigDigest := input.imageConfigDigest
  containerSpecHash := input.containerSpecHash
  containerId := none
  state := .claimed
  readyResponseJson := none
  driverEvidenceJson := none
  activationRequestHash := none
  activationRequestJson := none
  activeContainerSpecHash := none
  activationClaimedAt := none
  activeContainerReadyAt := none
  activeResponseJson := none
  activationEvidenceJson := none
  createdAt := input.now
  updatedAt := input.now
  replicaId := replicaId
  activeReplicaId := none
  brokerRegisteredAt := none

@[simp] theorem ClaimInput.generationId_record (input : ClaimInput) (replicaId : String) :
    (input.record replicaId).generationId = input.generationId := rfl

/-- The generation points to its first runtime until another one becomes ACTIVE; an empty id
counts as none. -/
def LedgerFile.claimSlot (state : LedgerFile) (generationId runtimeId : String) : LedgerFile :=
  if (state.slot generationId).getD "" = "" then state.pointTo generationId runtimeId else state

def claim (input : ClaimInput) : LedgerM RuntimeRecord := do
  let state ← readLedger platform
  match state.record input.runtimeId with
  | some existing =>
    throwUnless (input.agrees existing) generationConflict
    pure existing
  | none =>
    let record := input.record (platform.randomUUID input.runtimeId)
    writeAtomic ((state.put input.runtimeId record).claimSlot input.generationId input.runtimeId)
    pure record

def recordContainer (runtimeId requestHash containerId : String) (now : Int) :
    LedgerM RuntimeRecord := do
  let state ← readLedger platform
  let record ← recordWhere state runtimeId (·.requestHash == requestHash) generationConflict
  let record := { record with containerId := some containerId, updatedAt := now }
  writeAtomic (state.put runtimeId record)
  pure record

def markReady (runtimeId requestHash readyResponseJson driverEvidenceJson : String) (now : Int) :
    LedgerM RuntimeRecord := do
  assertParses platform readyResponseJson
  assertParses platform driverEvidenceJson
  let state ← readLedger platform
  let record ← recordWhere state runtimeId (·.requestHash == requestHash) generationConflict
  if record.state ≠ .claimed then
    throwUnless (record.readyResponseJson == some readyResponseJson &&
        record.driverEvidenceJson == some driverEvidenceJson)
      (.affinityConflict "Persisted READY evidence does not match this reconciliation.")
    pure record
  else
    throwUnless record.containerId.isSome
      (.runtimeUnavailable "No supervised container identity was persisted.")
    let record := { record with
      state := .ready
      readyResponseJson := some readyResponseJson
      driverEvidenceJson := some driverEvidenceJson
      updatedAt := now }
    writeAtomic (state.put runtimeId record)
    pure record

/-! ## Activation -/

structure ActivationInput where
  runtimeId : String
  requestHash : String
  activationRequestHash : String
  activationRequestJson : String
  activeContainerSpecHash : String
  now : Int

def ActivationInput.agrees (input : ActivationInput) (record : RuntimeRecord) : Bool :=
  record.activationRequestHash == some input.activationRequestHash &&
  record.activationRequestJson == some input.activationRequestJson &&
  record.activeContainerSpecHash == some input.activeContainerSpecHash &&
  record.activationClaimedAt.any (0 < ·)

def readyNotDurable : DriverError :=
  .runtimeUnavailable "READY evidence must be durable before activation."

def claimActivation (input : ActivationInput) : LedgerM RuntimeRecord := do
  assertParses platform input.activationRequestJson
  let state ← readLedger platform
  let record ← recordWhere state input.runtimeId (·.requestHash == input.requestHash)
    (.affinityConflict "The activation does not match the claimed runtime.")
  match record.state with
  | .claimed => throw readyNotDurable
  | .ready =>
    throwUnless record.readyResponseJson.isSome readyNotDurable
    let record := { record with
      state := .activating
      activationRequestHash := some input.activationRequestHash
      activationRequestJson := some input.activationRequestJson
      activeContainerSpecHash := some input.activeContainerSpecHash
      activationClaimedAt := some input.now
      activeReplicaId := some (platform.randomUUID input.runtimeId)
      updatedAt := input.now }
    writeAtomic (state.put input.runtimeId record)
    pure record
  | .activating | .active =>
    throwUnless (input.agrees record)
      (.affinityConflict "The runtime was activated with different authorization affinity.")
    pure record

def recordBrokerRegistered (runtimeId : String) (now : Int) : LedgerM RuntimeRecord := do
  let state ← readLedger platform
  let record ← recordWhere state runtimeId (fun _ ↦ true)
    (.runtimeUnavailable "no local runtime record to record broker registration against")
  let record := { record with brokerRegisteredAt := some now, updatedAt := now }
  writeAtomic (state.put runtimeId record)
  pure record

def intends (activationRequestHash : String) (record : RuntimeRecord) : Bool :=
  record.activationRequestHash == some activationRequestHash &&
  (record.state == .activating || record.state == .active) &&
  record.containerId.isSome && record.activeContainerSpecHash.isSome

def recordActiveContainerReady (runtimeId activationRequestHash : String) (now : Int) :
    LedgerM RuntimeRecord := do
  let state ← readLedger platform
  let record ← recordWhere state runtimeId (intends activationRequestHash)
    (.affinityConflict "The signed-only readiness does not match the activation intent.")
  if record.activeContainerReadyAt.isNone then
    let record := { record with activeContainerReadyAt := some now, updatedAt := now }
    writeAtomic (state.put runtimeId record)
    pure record
  else pure record

structure ActiveInput where
  runtimeId : String
  activationRequestHash : String
  activeResponseJson : String
  activationEvidenceJson : String
  now : Int

def ActiveInput.agrees (input : ActiveInput) (record : RuntimeRecord) : Bool :=
  record.activeContainerReadyAt.any (0 < ·) &&
  record.activeResponseJson == some input.activeResponseJson &&
  record.activationEvidenceJson == some input.activationEvidenceJson

def RuntimeRecord.supervised (record : RuntimeRecord) : Bool :=
  record.state == .activating && record.containerId.isSome &&
  record.activeContainerSpecHash.isSome && record.activationClaimedAt.isSome &&
  record.activeContainerReadyAt.isSome

def markActive (input : ActiveInput) : LedgerM RuntimeRecord := do
  assertParses platform input.activeResponseJson
  assertParses platform input.activationEvidenceJson
  let state ← readLedger platform
  let record ← recordWhere state input.runtimeId
    (·.activationRequestHash == some input.activationRequestHash)
    (.affinityConflict "The ACTIVE evidence does not match the activation intent.")
  if record.state = .active then
    throwUnless (input.agrees record)
      (.affinityConflict "Persisted ACTIVE evidence does not match this reconciliation.")
    pure record
  else
    throwUnless record.supervised
      (.runtimeUnavailable "No signed-only supervised container identity was persisted.")
    let record := { record with
      state := .active
      activeResponseJson := some input.activeResponseJson
      activationEvidenceJson := some input.activationEvidenceJson
      updatedAt := input.now }
    writeAtomic ((state.put input.runtimeId record).pointTo record.generationId record.runtimeId)
    pure record

/-! ## Removal -/

/-- A generation loses its slot with the runtime that the slot names. -/
def LedgerFile.freeSlot (state : LedgerFile) (generationId runtimeId : String) : LedgerFile :=
  if state.slot generationId = some runtimeId then state.dropSlot generationId else state

def deleteByRuntimeId (runtimeId : String) : LedgerM Bool := do
  let state ← readLedger platform
  match state.record runtimeId with
  | none => pure false
  | some record =>
    writeAtomic ((state.dropRecord runtimeId).freeSlot record.generationId runtimeId)
    pure true

end PrivosCluster.LocalRuntime
