import PrivosCluster.Agent.ContainerLabels
import PrivosCluster.LocalRuntime.ArtifactStore

/-!
# Requests and evidence of the driver

The documents of the driver are JSON values. The schema validator answers for their structure; what
it cannot express is checked here. Hashes are taken over canonical texts, so that they do not depend
on the order of members.
-/

namespace PrivosCluster.LocalRuntime

/-- What the driver uses of the platform, besides Docker and the file system. -/
structure DriverPlatform extends Agent.AgentPlatform where
  sha256Base64Url : String → String
  /-- The errors that the schema validator finds. -/
  schemaErrors : Json → Option String
  /-- `crypto.createPublicKey` of a key in JWK form does not throw. -/
  isPublicKey : Json → Bool
  trim : String → String

/-! ## JSON values -/

/-- A property of a value whose structure was checked. -/
def field (value : Json) (name : String) : Json := (value.member? name).getD .null

def textOf (value : Json) : String := (Schema.text? value).getD ""

def numberOf : Json → Rat
  | .num n => n
  | _ => 0

def textField (value : Json) (name : String) : String := textOf (field value name)

mutual

/-- The value with the members of all objects sorted. -/
def sortedCanonical : Json → Json
  | .null => .null
  | .bool b => .bool b
  | .num n => .num n
  | .str s => .str s
  | .arr items => .arr (sortedItems items)
  | .obj members => .obj ((sortedMembers members).insertionSort fun l r ↦ Json.memberLe l.1 r.1)

def sortedItems : List Json → List Json
  | [] => []
  | item :: items => sortedCanonical item :: sortedItems items

def sortedMembers : List (String × Json) → List (String × Json)
  | [] => []
  | m :: members => sortedMember m :: sortedMembers members

def sortedMember : String × Json → String × Json
  | (key, value) => (key, sortedCanonical value)

end

def AFFINITY_FIELDS : List String :=
  ["installation_id", "workspace_id", "deployment_id", "listing_id", "version_id",
    "generation_id", "generation_number", "descriptor_artifact_hash", "resource_manifest_hash",
    "permission_contract_hash", "runtime_authorization"]

def affinityFromRequest (request : Json) : Json :=
  .obj (AFFINITY_FIELDS.map fun name ↦ (name, field request name))

/-! ## Validation -/

/-- `if (condition) throw error` -/
def throwWhen (condition : Prop) [Decidable condition] (error : ServiceError) :
    Except ServiceError Unit :=
  if condition then .error error else .ok ()

def contractError (message : String) : ServiceError := .driver (.contractError message)

/-- The six bits of a base64url character. -/
def base64Value (c : Char) : Nat :=
  if c.isUpper then c.toNat - 65
  else if c.isLower then c.toNat - 71
  else if c.isDigit then c.toNat + 4
  else if c = '-' then 62
  else 63

/-- A coordinate of 32 bytes is written in 43 characters, of which the last has two spare bits. -/
def assertCanonicalBase64Url32 (value : Json) : Except ServiceError Unit := do
  let text := textOf value
  throwWhen (Schema.isArtifactHash text = false)
    (contractError "invalid P-256 coordinate encoding")
  throwWhen ((text.toList.getLast?.map base64Value).getD 0 % 4 ≠ 0)
    (contractError "non-canonical P-256 coordinate encoding")

section

variable (platform : DriverPlatform)

def canonicalHash (value : Json) : String := platform.sha256Base64Url (canonicalJson value)

/-- `JSON.stringify(sortedCanonical(value))` -/
def sortedText (value : Json) : String := platform.stringify (sortedCanonical value)

def assertStructure (value : Json) : Except ServiceError Unit :=
  match platform.schemaErrors value with
  | none => .ok ()
  | some detail =>
    .error (contractError ("local runtime ABI payload failed schema validation: " ++ detail))

def jwkThumbprint (jwk : Json) : Except ServiceError String :=
  if Json.isText "EC" (jwk.member? "kty") && Json.isText "P-256" (jwk.member? "crv") &&
      (jwk.member? "x").any Json.truthy && (jwk.member? "y").any Json.truthy &&
      !(jwk.member? "d").any Json.truthy then
    .ok (canonicalHash platform (.obj [("crv", .str "P-256"), ("kty", .str "EC"),
      ("x", field jwk "x"), ("y", field jwk "y")]))
  else .error (.error "public_jwk_invalid")

def assertRuntimeAuthorization (authorization : Json) : Except ServiceError Unit := do
  let jwk := field authorization "hub_public_jwk"
  assertCanonicalBase64Url32 (field jwk "x")
  assertCanonicalBase64Url32 (field jwk "y")
  throwWhen (platform.isPublicKey jwk = false)
    (contractError "hub_public_jwk is not a point on the P-256 curve")
  let expectedKid ← jwkThumbprint platform jwk
  throwWhen (field authorization "hub_kid" ≠ .str expectedKid)
    (contractError "hub_kid does not match hub_public_jwk")

def withoutMember (value : Json) (name : String) : Json :=
  match value with
  | .obj members => .obj (members.filter fun m ↦ m.1 ≠ name)
  | value => value

def assertEvidenceHash (value : Json) (name : String) : Except ServiceError Unit :=
  throwWhen (field value name ≠ .str (canonicalHash platform (withoutMember value name)))
    (contractError (name ++ " does not match the canonical hash of its evidence document"))

/-- A document with a certain operation or state. -/
def validateTagged (tag expected : String) (value : Json) : Except ServiceError Unit := do
  assertStructure platform value
  throwWhen (field value tag ≠ .str expected) (contractError (tag ++ " must be " ++ expected))
  assertRuntimeAuthorization platform (field value "runtime_authorization")

/-- A document whose evidence hash covers the rest of it. -/
def validateEvidence (expected hashName : String) (value : Json) : Except ServiceError Json := do
  validateTagged platform "state" expected value
  assertEvidenceHash platform value hashName
  .ok value

def validateEnsureReady (value : Json) : Except ServiceError Json := do
  validateTagged platform "operation" "ENSURE_READY" value
  .ok value

def validateActivate (value : Json) : Except ServiceError Json := do
  validateTagged platform "operation" "ACTIVATE" value
  .ok value

def validateRemove (value : Json) : Except ServiceError Json := do
  validateTagged platform "operation" "REMOVE" value
  .ok value

def validateReady : Json → Except ServiceError Json :=
  validateEvidence platform "READY" "driver_evidence_hash"

def validateActive : Json → Except ServiceError Json :=
  validateEvidence platform "ACTIVE" "activation_evidence_hash"

def validateAbsent : Json → Except ServiceError Json :=
  validateEvidence platform "ABSENT" "removal_evidence_hash"

/-- `JSON.parse` -/
def parseDocument (text : String) : Except ServiceError Json :=
  match platform.parseJson text with
  | some value => .ok value
  | none => .error (.driver .syntaxError)

/-! ## Runtime ids -/

def computeRuntimeId (request : Json) : String :=
  let digest := platform.sha256Hex (sortedText platform (affinityFromRequest request))
  "local-runtime-" ++ String.ofList (digest.toList.take 32)

end

/-- `/^local-runtime-[0-9a-f]{32}$/` -/
def isRuntimeId (text : String) : Bool :=
  let chars := text.toList
  chars.take 14 == "local-runtime-".toList && (chars.drop 14).length == 32 &&
    (chars.drop 14).all Schema.isLowerHex

end PrivosCluster.LocalRuntime
