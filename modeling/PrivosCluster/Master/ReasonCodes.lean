import PrivosCluster.Master.UpgradeRouteSpec

/-!
# Codes that can be signed

A refusal is told to the Hub in a signed artifact, whose schema takes codes of one pattern only. What
was thrown, or what Docker calls its error, is brought into that pattern first: in lower case with a
rule for the length, in upper case with a replacement for other characters, and stripped and cut.
-/

namespace PrivosCluster

open Schema Option

variable {fallback code : String}

namespace ReasonCodes

/-! ## What was thrown in a route of the master -/

/-- A value, as far as `typeof value === 'string'` tells. -/
inductive Value where
  | text (s : String)
  | other

/-- Anything can be thrown; an `Error` carries any value as its message. -/
inductive Thrown where
  | error (message : Value)
  | value (value : Value)

def Value.candidate (toLowerCase : String → String) : Value → String
  | .text s => toLowerCase s
  | .other => ""

def safeCode (toLowerCase : String → String) (value : Value) (fallback : String) : String :=
  if isSafeCode (value.candidate toLowerCase) then value.candidate toLowerCase else fallback

def safeReason (toLowerCase : String → String) (thrown : Thrown) (fallback : String) : String :=
  match thrown with
  | .error message => safeCode toLowerCase message fallback
  | .value value => safeCode toLowerCase value fallback

/-- The code of a refused reconfiguration. -/
def reconfigureErrorCode (toLowerCase : String → String) (thrown : Thrown) : String :=
  acknowledgedCode (safeReason toLowerCase thrown "RECONFIGURE_FAILED")

/-- The code of a refused upgrade. -/
def upgradeErrorCode (toLowerCase : String → String) (thrown : Thrown) : String :=
  acknowledgedCode (safeReason toLowerCase thrown "upgrade_failed")

/-! ## What Docker calls an error -/

/-- `/[^A-Z0-9_]/g` matches code units, so a character may be replaced by two. -/
def replaced (c : Char) : List Char :=
  if isReasonChar c then [c] else if c.val < 0x10000 then ['_'] else ['_', '_']

/-- `value.toUpperCase().replace(/[^A-Z0-9_]/g, '_').replace(/^[^A-Z]+/, '').slice(0, 96)` -/
def normalised (toUpperCase : String → String) (value : String) : String :=
  String.ofList ((((toUpperCase value).toList.flatMap replaced).dropWhile (!·.isUpper)).take 96)

/-- `safeReasonCode` of the node -/
def safeReasonCode (toUpperCase : String → String) (value fallback : String) : String :=
  let code := normalised toUpperCase value
  if isSafeReasonCode code then code else fallback

/-- `safeReasonCode` of the master, for the outcome that a node reports -/
def safeOutcomeCode (toUpperCase : String → String) (value : Option String) : Option String :=
  (value.filter (· ≠ "")).map fun value ↦ safeReasonCode toUpperCase value "NODE_REASON_UNPRINTABLE"

/-- The code that an agent gives to a failed removal, and to a failed look whether it is gone. -/
def cleanupCode (toUpperCase : String → String) (code : Option String) : String :=
  safeReasonCode toUpperCase (code.getD "") "NODE_CLEANUP_FAILED"

def absenceCode (toUpperCase : String → String) (code : Option String) : String :=
  safeReasonCode toUpperCase (code.getD "") "NODE_ABSENCE_CHECK_FAILED"

/-! ## The artifacts that carry a code -/

/-- `/^[A-Z][A-Z0-9_]{0,63}$/`, and no name of the platform's own. -/
def isEnvName (name : String) : Bool :=
  match name.toList with
  | [] => false
  | first :: rest => first.isUpper && rest.length ≤ 63 && rest.all isReasonChar &&
      (!"PRIVOS_".toList.isPrefixOf name.toList || ReservedEnv.isAllowedReservedEnvName name)

inductive ReconfigureState where
  | applied
  | failed
deriving DecidableEq

structure ClusterReconfigureAcknowledgementPayloadV3 where
  iss : String
  jti : BitVec 128
  nonce : BitVec 192
  iat : Int
  exp : Int
  operationId : BitVec 128
  clusterId : String
  workspaceId : String
  deploymentId : String
  generationId : String
  generationNumber : Nat
  runtimeInstallationId : String
  clusterAppId : String
  manifestDigest : String
  resourceManifestHash : String
  runtimeResourceInventoryHash : String
  configEpoch : Nat
  state : ReconfigureState
  appliedKeys : List String
  appliedAt : Option Time
  errorCode : Option String

/-- `ClusterReconfigureAcknowledgementPayloadV3Schema` -/
def isReconfigureAcknowledgement (payload : ClusterReconfigureAcknowledgementPayloadV3) : Bool :=
  [payload.iss, payload.clusterId, payload.workspaceId, payload.deploymentId, payload.generationId,
    payload.runtimeInstallationId, payload.clusterAppId].all isIdentifier &&
  [payload.generationNumber, payload.configEpoch].all (0 < ·) &&
  isDigest payload.manifestDigest &&
  [payload.resourceManifestHash, payload.runtimeResourceInventoryHash].all isArtifactHash &&
  payload.appliedKeys.all isEnvName && payload.appliedKeys.length ≤ 32 &&
  payload.appliedAt.all isDatetime && payload.errorCode.all isSafeReasonCode &&
  (payload.state != .applied || payload.appliedAt.isSome) &&
  decide (payload.appliedKeys.Pairwise fun a b ↦ Json.keyLe a b = true)

inductive CleanupStatus where
  | absent
  | removed
  | failed
  | unknown
deriving DecidableEq

structure ResourceCleanupResultV3 where
  kind : RuntimeResourceKind
  resourceId : String
  status : CleanupStatus
  reasonCode : Option String
  verifiedAt : Option Time

/-- `ResourceCleanupResultV3Schema` -/
def isCleanupResult (result : ResourceCleanupResultV3) : Bool :=
  isIdentifier result.resourceId && result.reasonCode.all isSafeReasonCode &&
    result.verifiedAt.all isDatetime

/-! ## What the normalisations make -/

section Codes

variable {toLowerCase toUpperCase : String → String}

theorem safeCode_cases (value : Value) (fallback : String) :
    isSafeCode (safeCode toLowerCase value fallback) ∨
      safeCode toLowerCase value fallback = fallback := by
  unfold safeCode
  split
  next hsafe => exact .inl hsafe
  · exact .inr rfl

theorem safeReason_cases (thrown : Thrown) (fallback : String) :
    isSafeCode (safeReason toLowerCase thrown fallback) ∨
      safeReason toLowerCase thrown fallback = fallback := by
  cases thrown with
  | error message => exact safeCode_cases message fallback
  | value value => exact safeCode_cases value fallback

/-- A route's code can be signed when its fallback can be. -/
theorem isSafeReasonCode_acknowledged {thrown : Thrown}
    (h : isSafeReasonCode (acknowledgedCode fallback)) :
    isSafeReasonCode (acknowledgedCode (safeReason toLowerCase thrown fallback)) := by
  obtain hsafe | hfallback := @safeReason_cases toLowerCase thrown fallback
  · exact UpgradeRoute.isSafeReasonCode_acknowledgedCode hsafe
  · rw [hfallback]
    exact h

theorem reconfigureErrorCode_safe (thrown : Thrown) :
    isSafeReasonCode (reconfigureErrorCode toLowerCase thrown) :=
  isSafeReasonCode_acknowledged (by decide +kernel)

theorem upgradeErrorCode_safe (thrown : Thrown) :
    isSafeReasonCode (upgradeErrorCode toLowerCase thrown) :=
  isSafeReasonCode_acknowledged (by decide +kernel)

theorem safeReasonCode_safe {value : String} (h : isSafeReasonCode fallback) :
    isSafeReasonCode (safeReasonCode toUpperCase value fallback) := by
  unfold safeReasonCode
  dsimp only
  split
  next hsafe => exact hsafe
  · exact h

theorem cleanupCode_safe (code : Option String) :
    isSafeReasonCode (cleanupCode toUpperCase code) :=
  safeReasonCode_safe (by decide)

theorem absenceCode_safe (code : Option String) :
    isSafeReasonCode (absenceCode toUpperCase code) :=
  safeReasonCode_safe (by decide)

theorem safeOutcomeCode_safe (value : Option String) :
    (safeOutcomeCode toUpperCase value).all isSafeReasonCode := by
  have hunprintable : isSafeReasonCode "NODE_REASON_UNPRINTABLE" := by decide
  unfold safeOutcomeCode
  cases value.filter (· ≠ "") with
  | none => rfl
  | some value =>
    rw [map_some, all_some]
    exact safeReasonCode_safe hunprintable

end Codes

/-- The schema of a reconfiguration takes such a code wherever it takes none. -/
theorem isReconfigureAcknowledgement_code (payload : ClusterReconfigureAcknowledgementPayloadV3)
    (h : isSafeReasonCode code) :
    isReconfigureAcknowledgement { payload with errorCode := some code } =
      isReconfigureAcknowledgement { payload with errorCode := none } := by
  simp only [isReconfigureAcknowledgement, all_some, all_none, h]

theorem isUpgradeAcknowledgement_code (payload : ClusterUpgradeAcknowledgementPayloadV3)
    (h : isSafeReasonCode code) :
    isUpgradeAcknowledgement { payload with errorCode := some code } =
      isUpgradeAcknowledgement { payload with errorCode := none } := by
  simp only [isUpgradeAcknowledgement, all_some, all_none, h]

theorem isCleanupResult_code (result : ResourceCleanupResultV3) {code : Option String}
    (h : code.all isSafeReasonCode) :
    isCleanupResult { result with reasonCode := code } =
      isCleanupResult { result with reasonCode := none } := by
  simp only [isCleanupResult, all_none, h]

/--
Whatever is thrown in a route and whatever Docker calls an error, the code that is derived from it
has the pattern of the acknowledgements, and a schema that takes an artifact without a code takes it
with this one.
-/
theorem codes_signable (toLowerCase toUpperCase : String → String) :
    (∀ thrown, isSafeReasonCode (reconfigureErrorCode toLowerCase thrown) = true ∧
      ∀ payload : ClusterReconfigureAcknowledgementPayloadV3, isReconfigureAcknowledgement
          { payload with errorCode := some (reconfigureErrorCode toLowerCase thrown) } =
        isReconfigureAcknowledgement { payload with errorCode := none }) ∧
    (∀ thrown, isSafeReasonCode (upgradeErrorCode toLowerCase thrown) = true ∧
      ∀ payload : ClusterUpgradeAcknowledgementPayloadV3, isUpgradeAcknowledgement
          { payload with errorCode := some (upgradeErrorCode toLowerCase thrown) } =
        isUpgradeAcknowledgement { payload with errorCode := none }) ∧
    (∀ code, isSafeReasonCode (cleanupCode toUpperCase code) = true ∧
      isSafeReasonCode (absenceCode toUpperCase code) = true) ∧
    ∀ reported, (safeOutcomeCode toUpperCase reported).all isSafeReasonCode = true ∧
      ∀ result : ResourceCleanupResultV3, isCleanupResult
          { result with reasonCode := safeOutcomeCode toUpperCase reported } =
        isCleanupResult { result with reasonCode := none } := by
  refine ⟨fun thrown ↦ ?_, fun thrown ↦ ?_, fun code ↦ ?_, fun reported ↦ ?_⟩
  · have hsafe := @reconfigureErrorCode_safe toLowerCase thrown
    exact ⟨hsafe, fun payload ↦ isReconfigureAcknowledgement_code payload hsafe⟩
  · have hsafe := @upgradeErrorCode_safe toLowerCase thrown
    exact ⟨hsafe, fun payload ↦ isUpgradeAcknowledgement_code payload hsafe⟩
  · exact ⟨cleanupCode_safe code, absenceCode_safe code⟩
  · have hsafe := @safeOutcomeCode_safe toUpperCase reported
    exact ⟨hsafe, fun result ↦ isCleanupResult_code result hsafe⟩

end ReasonCodes

end PrivosCluster
