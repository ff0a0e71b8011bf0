import PrivosCluster.AsyncProgram.History
import PrivosCluster.LocalRuntime.Ledger
import PrivosCluster.LocalRuntime.OciArchive

/-!
# Staged artifacts

An archive is verified, its image is loaded into Docker unless it is there, and a record of it goes
into an index under the digest of the archive. Docker is content addressed: what it shows under a
reference is always the same image, as long as it shows one.
-/

namespace PrivosCluster.LocalRuntime

open AsyncProgram

/-- What Docker says of an image. -/
structure ImageInspect where
  id : String
  descriptor : Option Descriptor := none
deriving DecidableEq

structure StagedArtifactRecord where
  digest : String
  sizeBytes : Nat
  manifestDigest : String
  manifestSizeBytes : Nat
  configDigest : String
  imageRef : String
  imageUser : Option String
  stagedAt : Int
deriving DecidableEq

def DriverError.message : DriverError → String
  | contractError message => message
  | affinityConflict message => message
  | runtimeUnavailable message => message
  | runtimeNotFound => "No claimed runtime exists for this generation."
  | artifactNotStaged => "The referenced artifact digest was never staged."
  | syntaxError => "Unexpected token in JSON"

/-- What the local runtime throws: the driver errors, or an error of the platform. -/
inductive ServiceError where
  | driver (error : DriverError)
  | artifactError (message : String)
  | artifactStagingRefused (message : String)
  | typeError
  | error (message : String)
deriving DecidableEq

def ServiceError.message : ServiceError → String
  | driver e => e.message
  | artifactError message => message
  | artifactStagingRefused message => message
  | typeError => "Cannot read properties of null"
  | error message => message

def ArchiveError.toServiceError : ArchiveError → ServiceError
  | artifactError message => .artifactError message
  | typeError => .typeError

/-! ## The index -/

structure StagedArtifactIndex where
  byDigest : AList fun _ : String ↦ StagedArtifactRecord

def emptyIndex : StagedArtifactIndex := ⟨∅⟩

namespace StagedArtifactIndex

def record (index : StagedArtifactIndex) (digest : String) : Option StagedArtifactRecord :=
  index.byDigest.lookup digest

/-- `index.byDigest[digest] = record` -/
def put (index : StagedArtifactIndex) (digest : String) (record : StagedArtifactRecord) :
    StagedArtifactIndex :=
  ⟨index.byDigest.insert digest record⟩

/-- `delete index.byDigest[digest]` -/
def drop (index : StagedArtifactIndex) (digest : String) : StagedArtifactIndex :=
  ⟨index.byDigest.erase digest⟩

section

variable (index : StagedArtifactIndex) (digest other : String) (r : StagedArtifactRecord)

@[simp] theorem record_put :
    (index.put digest r).record other = if other = digest then some r else index.record other := by
  unfold record put
  split
  next h => rw [h, AList.lookup_insert]
  next h => exact AList.lookup_insert_ne h

@[simp] theorem record_drop :
    (index.drop digest).record other = if other = digest then none else index.record other := by
  unfold record drop
  split
  next h => rw [h, AList.lookup_erase]
  next h => exact AList.lookup_erase_ne h

@[simp] theorem record_emptyIndex : emptyIndex.record digest = none := rfl

end

end StagedArtifactIndex

/-- The index file, unless it is missing or corrupt. -/
abbrev IndexFile := Option StagedArtifactIndex

/-- A file that cannot be read counts as empty. -/
def readIndex (readable : Bool) (file : IndexFile) : StagedArtifactIndex :=
  if readable then file.getD emptyIndex else emptyIndex

def resolve (readable : Bool) (file : IndexFile) (digest : String) : Option StagedArtifactRecord :=
  (readIndex readable file).record digest

/-! ## Calls -/

/-- What is awaited, or done on the index between two awaits. -/
inductive StoreCall where
  | statfs
  | readArchive (path : String)
  | resolve (digest : String)
  | recordStaged (record : StagedArtifactRecord)
  | recordRemoved (digest : String)
  | inspectImage (reference : String)
  | loadArchive (path : String) (verified : VerifiedOciArchive)
  | removeImage (reference : String)
  | clock

@[reducible] def StoreCall.Answer : StoreCall → Type
  | .statfs => Nat
  | .readArchive _ => List UInt8
  | .resolve _ => Option StagedArtifactRecord
  | .recordStaged _ => Unit
  | .recordRemoved _ => Unit
  | .inspectImage _ => Option ImageInspect
  | .loadArchive _ _ => Unit
  | .removeImage _ => Unit
  | .clock => Int

@[reducible] def storeSignature : Signature := ⟨StoreCall, StoreCall.Answer⟩

/-- The index file and the references under which Docker shows an image. -/
structure StoreState where
  file : IndexFile := none
  shown : List String := []

/-- What the environment does at a call. Images may come in before any call; a removal may take an
image away or leave it, whether it fails or not. -/
structure StoreChoice where
  failure : Option ServiceError := none
  readable : Bool := true
  readableAgain : Bool := true
  removes : Bool := true
  gained : List String := []
  freeBytes : Nat := 0
  archive : List UInt8 := []
  time : Int := 1

def StoreChoice.answer {α : Type} (x : StoreChoice) (a : α) : Except ServiceError α :=
  x.failure.elim (.ok a) .error

def StoreState.settled (s : StoreState) (x : StoreChoice) : StoreState :=
  { s with shown := s.shown ++ x.gained }

section

variable (inspection : String → ImageInspect)

def StoreState.inspect (s : StoreState) (reference : String) : Option ImageInspect :=
  if reference ∈ s.shown then some (inspection reference) else none

/-- An image goes with all references to it. -/
def StoreState.without (s : StoreState) (reference : String) : StoreState :=
  { s with shown := s.shown.filter fun other ↦ (inspection other).id ≠ (inspection reference).id }

def StoreState.recordRemoved (x : StoreChoice) (digest : String) (s : StoreState) :
    Except ServiceError Unit × StoreState :=
  match x.failure with
  | some e => (.error e, s)
  | none =>
    let file := some ((readIndex x.readable s.file).drop digest)
    if (resolve x.readableAgain file digest).isSome then
      (.error (.artifactError "the staged-artifact record survived removal"), { s with file })
    else (.ok (), { s with file })

def StoreState.serve : (c : StoreCall) → StoreChoice → StoreState →
    Except ServiceError c.Answer × StoreState
  | .statfs, x, s => (x.answer x.freeBytes, s)
  | .readArchive _, x, s => (x.answer x.archive, s)
  | .resolve digest, x, s => (.ok (LocalRuntime.resolve x.readable s.file digest), s)
  | .recordStaged record, x, s =>
    match x.failure with
    | some e => (.error e, s)
    | none =>
      (.ok (), { s with file := some ((readIndex x.readable s.file).put record.digest record) })
  | .recordRemoved digest, x, s => s.recordRemoved x digest
  | .inspectImage reference, x, s => (x.answer (s.inspect inspection reference), s)
  | .loadArchive _ _, x, s => (x.answer (), s)
  | .removeImage reference, x, s =>
    (x.answer (), if x.removes ∧ reference ∈ s.shown then s.without inspection reference else s)
  | .clock, x, s => (.ok x.time, s)

end

/-- What the environment is allowed to do at a call. -/
abbrev StoreLaw := StoreCall → StoreChoice → StoreState → Prop

def dockerHost (inspection : String → ImageInspect) (law : StoreLaw) :
    Machine storeSignature ServiceError StoreState StoreChoice where
  permits := law
  respond c x s := StoreState.serve inspection c x (s.settled x)

abbrev Stored := Program storeSignature ServiceError

abbrev awaitStore (c : StoreCall) : Stored c.Answer := @Program.ask storeSignature ServiceError c

/-! ## Staging and removing -/

structure StoreConfig where
  maxArtifactBytes : Nat := 250000000
  freeSpaceMultiplier : Nat := 3

def storeNow : Stored Int := do
  let now ← awaitStore .clock
  Program.throwIf (¬ 0 < now) (.artifactError "the driver clock is invalid")
  .pure now

def assertFreeSpace (config : StoreConfig) (sizeBytes : Nat) : Stored Unit := do
  let needed := sizeBytes * config.freeSpaceMultiplier
  let freeBytes ← (awaitStore .statfs).tryCatch fun err ↦
    .throw (.artifactStagingRefused ("unable to determine free disk space: " ++ err.message))
  Program.throwIf (freeBytes < needed)
    (.artifactStagingRefused ("insufficient free space to stage a " ++ toString sizeBytes ++
      "-byte artifact: need >= " ++ toString needed ++ " bytes (" ++
      toString config.freeSpaceMultiplier ++ "x), have " ++ toString freeBytes))

def isConfigImage (verified : VerifiedOciArchive) (image : Option ImageInspect) : Bool :=
  image.any fun image ↦ image.id = verified.configDigest

def manifestDescriptor (verified : VerifiedOciArchive) : Descriptor :=
  ⟨OCI_MANIFEST_MEDIA_TYPE, verified.manifestDigest, verified.manifestSizeBytes⟩

def proveContentAddress (verified : VerifiedOciArchive) : Stored String := do
  let graphdriver ← awaitStore (.inspectImage verified.configDigest)
  if isConfigImage verified graphdriver then .pure verified.configDigest
  else
    let containerd ← awaitStore (.inspectImage verified.manifestDigest)
    if containerd.bind (·.descriptor) = some (manifestDescriptor verified) then
      .pure verified.manifestDigest
    else
      .throw (.artifactError "Docker did not expose the exact verified OCI image identity after load")

def loadAndProveContentAddress (path : String) (verified : VerifiedOciArchive) : Stored String := do
  let already ← awaitStore (.inspectImage verified.configDigest)
  if isConfigImage verified already then .pure verified.configDigest
  else
    awaitStore (.loadArchive path verified)
    proveContentAddress verified

structure StageInput where
  path : String
  sha256 : String
  sizeBytes : Nat

def stagedRecord (verified : VerifiedOciArchive) (imageRef : String) (stagedAt : Int) :
    StagedArtifactRecord where
  digest := verified.artifactDigest
  sizeBytes := verified.sizeBytes
  manifestDigest := verified.manifestDigest
  manifestSizeBytes := verified.manifestSizeBytes
  configDigest := verified.configDigest
  imageRef := imageRef
  imageUser := verified.imageUser
  stagedAt := stagedAt

def stage (platform : ArchivePlatform) (config : StoreConfig) (input : StageInput) :
    Stored StagedArtifactRecord := do
  Program.throwIf (config.maxArtifactBytes < input.sizeBytes)
    (.artifactStagingRefused ("artifact size " ++ toString input.sizeBytes ++ " exceeds the " ++
      toString config.maxArtifactBytes ++ "-byte ceiling"))
  assertFreeSpace config input.sizeBytes
  let bytes ← awaitStore (.readArchive input.path)
  let verified ← Program.ofExcept ((verifyOciArchive platform bytes input.sha256 input.sizeBytes
    config.maxArtifactBytes).mapError ArchiveError.toServiceError)
  match ← awaitStore (.resolve verified.artifactDigest) with
  | some existing => .pure existing
  | none =>
    let imageRef ← loadAndProveContentAddress input.path verified
    let stagedAt ← storeNow
    awaitStore (.recordStaged (stagedRecord verified imageRef stagedAt))
    .pure (stagedRecord verified imageRef stagedAt)

/-- The answer of a removal; the artifact is absent. -/
structure ArtifactAbsent where
  digest : String
  removed : Bool
  checkedAt : Int
deriving DecidableEq

def remove (digest : String) : Stored ArtifactAbsent := do
  match ← awaitStore (.resolve digest) with
  | none =>
    let checkedAt ← storeNow
    .pure { digest, removed := false, checkedAt }
  | some record =>
    awaitStore (.removeImage record.imageRef)
    let image ← awaitStore (.inspectImage record.imageRef)
    Program.throwIf (image.isSome = true)
      (.artifactError "Docker still exposes the staged image after removal")
    awaitStore (.recordRemoved digest)
    let checkedAt ← storeNow
    .pure { digest, removed := true, checkedAt }

inductive StoreOperation where
  | stage (input : StageInput)
  | remove (digest : String)

def StoreOperation.program (platform : ArchivePlatform) (config : StoreConfig) :
    StoreOperation → Stored Unit
  | stage input => do
    let _ ← LocalRuntime.stage platform config input
    .pure ()
  | remove digest => do
    let _ ← LocalRuntime.remove digest
    .pure ()

end PrivosCluster.LocalRuntime
