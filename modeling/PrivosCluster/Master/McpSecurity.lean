import PrivosCluster.DocumentStore.Bulk
import PrivosCluster.Master.Repositories
import PrivosCluster.Protocol.ProtocolV3

/-!
# The security verifier of the masters

Any number of masters check signed artifacts against one database: the hub identities of the
workspaces, the use records of artifacts and the inventories. The database may forget a use record
at any time once it has expired.
-/

namespace PrivosCluster.McpSecurity

open AsyncProgram DocumentStore

/-! ## The database -/

/-- A workspace with the identity of its hub, once one is enrolled. -/
structure HubWorkspace extends MasterWorkspace where
  mcpHubIdentityKid : Option String := none
  mcpHubIdentityPublicJwk : Option Json := none
  mcpHubIdentityEnrolledAt : Option Time := none
deriving DecidableEq

inductive ArtifactUseKind where
  | deploymentGrant
  | dispatchAssertion
  | lifecycleCommand
deriving DecidableEq

def ArtifactUseKind.text : ArtifactUseKind → String
  | deploymentGrant => "deployment-grant"
  | dispatchAssertion => "dispatch-assertion"
  | lifecycleCommand => "lifecycle-command"

/-- A use record, which expires. -/
structure ArtifactUse where
  _id : String
  kind : ArtifactUseKind
  jti : String
  nonce : String
  clusterId : String
  workspaceId : String
  deploymentId : String
  generationId : String
  generationNumber : Nat
  runtimeInstallationId : String
  operationId : Option String := none
  resourceManifestHash : String
  runtimeResourceInventoryHash : Option String := none
  issuer : String
  canonicalPayloadHash : String
  compactArtifactHash : String
  expiresAt : Time
  createdAt : Time
deriving DecidableEq

def hubWorkspaceKeys (workspace : HubWorkspace) : List IndexKey :=
  workspaceKeys workspace.toMasterWorkspace

/-- The ids, the nonces of a kind and, for grants, the generations are unique. -/
def artifactUseKeys (use : ArtifactUse) : List IndexKey :=
  [⟨["_id"], [use._id]⟩, ⟨["jti"], [use.jti]⟩, ⟨["kind", "nonce"], [use.kind.text, use.nonce]⟩] ++
  if use.kind = .deploymentGrant then
    [⟨["kind", "clusterId", "workspaceId", "deploymentId", "generationId"],
      [use.kind.text, use.clusterId, use.workspaceId, use.deploymentId, use.generationId]⟩]
  else []

structure SecurityStore where
  workspaces : Collection HubWorkspace hubWorkspaceKeys
  artifactUses : Collection ArtifactUse artifactUseKeys
  inventories : Collection RuntimeResourceInventory inventoryKeys
  clock : Time

inductive SecurityCall where
  | workspaces (op : Operation HubWorkspace)
  | artifactUses (op : Operation ArtifactUse)
  | inventories (op : Operation RuntimeResourceInventory)
  | now

@[reducible] def SecurityCall.Answer : SecurityCall → Type
  | .workspaces op => op.Answer
  | .artifactUses op => op.Answer
  | .inventories op => op.Answer
  | .now => Time

@[reducible] def securitySignature : Signature := ⟨SecurityCall, SecurityCall.Answer⟩

/-- What the environment does at a call: also, which use records the database forgets before it. -/
structure SecurityChoice extends Choice where
  forgets : ArtifactUse → Bool := fun _ ↦ false

/-- The database before a call: time has passed, and expired records may be gone. -/
def SecurityStore.settled (s : SecurityStore) (x : SecurityChoice) : SecurityStore :=
  { s with
    clock := s.clock + x.elapsed
    artifactUses := s.artifactUses.remove fun use ↦
      x.forgets use && decide (use.expiresAt ≤ s.clock + x.elapsed) }

def SecurityStore.serve : (c : SecurityCall) → Choice → SecurityStore →
    Except JsError c.Answer × SecurityStore
  | .workspaces op, x, s =>
    ((serveStore op x s.workspaces).1, { s with workspaces := (serveStore op x s.workspaces).2 })
  | .artifactUses op, x, s =>
    ((serveStore op x s.artifactUses).1,
      { s with artifactUses := (serveStore op x s.artifactUses).2 })
  | .inventories op, x, s =>
    ((serveStore op x s.inventories).1,
      { s with inventories := (serveStore op x s.inventories).2 })
  | .now, _, s => (.ok s.clock, s)

/-- What the environment is allowed to do at a call. -/
abbrev SecurityLaw := SecurityCall → SecurityChoice → SecurityStore → Prop

def masters (law : SecurityLaw) : Machine securitySignature JsError SecurityStore SecurityChoice where
  permits := law
  respond c x s := SecurityStore.serve c x.toChoice (s.settled x)

abbrev Secured := Program securitySignature JsError

abbrev awaitSecurity (c : SecurityCall) : Secured c.Answer :=
  @Program.ask securitySignature JsError c

def securityNow : Secured Time := awaitSecurity .now

def findWorkspace (filter : HubWorkspace → Bool) : Secured (Option HubWorkspace) :=
  awaitSecurity (.workspaces (.findOne filter))

def updateWorkspace (filter : HubWorkspace → Bool) (update : HubWorkspace → HubWorkspace) :
    Secured UpdateResult :=
  awaitSecurity (.workspaces (.updateOne filter update))

/-! ## Hub identities -/

structure HubIdentity where
  kid : String
  publicJwk : Json

/-- `jwkThumbprint` of a value that is not known to be a key. -/
def jwkThumbprint (crypto : Crypto) (jwk : Json) : Except JsError String :=
  if Json.isText "EC" (jwk.member? "kty") && Json.isText "P-256" (jwk.member? "crv") &&
      (jwk.member? "x").any Json.truthy && (jwk.member? "y").any Json.truthy &&
      !(jwk.member? "d").any Json.truthy then
    .ok (crypto.sha256Base64Url (canonicalJson (.obj
      [("crv", .str "P-256"), ("kty", .str "EC"), ("x", (jwk.member? "x").getD .null),
        ("y", (jwk.member? "y").getD .null)])))
  else .error (artifactError "public_jwk_invalid")

/-- `verifyEs256Jws` with a value that is not known to be a key; without string coordinates
`createPublicKey` throws. -/
def verifyWithJwk (platform : ArtifactPlatform) (compact : String) (jwk : Json) (typ kid : String)
    (protocolVersion : Option Rat) : Except JsError ParsedJws :=
  match JsonWebKey.ofJson? jwk with
  | some key => verifyEs256Jws platform compact key typ kid protocolVersion
  | none => .error (artifactError "artifact_signature_invalid")

variable (platform : ArtifactPlatform)

def isActiveWorkspace (workspaceId : String) (workspace : HubWorkspace) : Bool :=
  workspace.workspaceId == workspaceId && workspace.status == .active

/-- The identity that a workspace record carries; an empty kid counts as none. -/
def HubWorkspace.identity? (workspace : HubWorkspace) : Option HubIdentity := do
  let kid ← workspace.mcpHubIdentityKid.filter (· ≠ "")
  let publicJwk ← workspace.mcpHubIdentityPublicJwk
  some ⟨kid, publicJwk⟩

def publicInfo (workspaceId : String) : Secured (Option HubIdentity) := do
  let workspace ← findWorkspace (isActiveWorkspace workspaceId)
  match workspace.bind HubWorkspace.identity? with
  | none => .pure none
  | some identity =>
    let thumbprint ← Program.ofExcept (jwkThumbprint platform.toCrypto identity.publicJwk)
    Program.throwIf (thumbprint ≠ identity.kid) (artifactError "hub_identity_record_invalid")
    .pure (some identity)

structure HubIdentityEnrollmentPayload where
  iat : Int
  exp : Int
  clusterId : String
  workspaceId : String
  kid : String
deriving DecidableEq

open Schema in
/-- `HubIdentityEnrollmentPayloadSchema` -/
def hubIdentityEnrollmentPayload? (json : Json) : Option HubIdentityEnrollmentPayload := do
  let members ← strictObject? ["type", "aud", "jti", "iat", "exp", "clusterId", "workspaceId",
    "deploymentId", "kid"] json
  let _ ← required members "type" (literal? "mcp-hub-identity-enrollment")
  let _ ← required members "aud" (literal? "privos-apps-master")
  let _ ← required members "jti" uuid?
  let iat ← required members "iat" int?
  let exp ← required members "exp" int?
  let clusterId ← required members "clusterId" nonempty?
  let workspaceId ← required members "workspaceId" nonempty?
  let _ ← required members "deploymentId" nonempty?
  let kid ← required members "kid" fun kid ↦
    (text? kid).filter fun s ↦ decide (20 ≤ (Json.utf16Units s).length)
  some ⟨iat, exp, clusterId, workspaceId, kid⟩

structure EnrollmentInput where
  compact : String
  publicJwk : Json
  workspaceId : String

/-- The proof of an enrollment, which has to be signed with the enrolled key itself. The text of a
schema error is not modelled. -/
def checkEnrollment (clusterId : String) (input : EnrollmentInput) (nowSeconds : Int) :
    Except JsError String := do
  let kid ← jwkThumbprint platform.toCrypto input.publicJwk
  let parsed ← verifyWithJwk platform input.compact input.publicJwk
    "privos-hub-identity-enrollment+jws" kid none
  match hubIdentityEnrollmentPayload? parsed.payload with
  | none => .error (artifactError "hub_identity_enrollment_invalid")
  | some payload =>
    assertArtifactTime payload.iat payload.exp 120 nowSeconds
    if payload.clusterId ≠ clusterId ∨ payload.workspaceId ≠ input.workspaceId ∨
        payload.kid ≠ kid then
      .error (artifactError "hub_identity_enrollment_binding_mismatch")
    else .ok kid

variable {platform} in
theorem checkEnrollment_eq_ok {clusterId kid : String} {input : EnrollmentInput}
    {nowSeconds : Int} {parsed : ParsedJws} {payload : HubIdentityEnrollmentPayload}
    (hkid : jwkThumbprint platform.toCrypto input.publicJwk = .ok kid)
    (hverify : verifyWithJwk platform input.compact input.publicJwk
      "privos-hub-identity-enrollment+jws" kid none = .ok parsed)
    (hpayload : hubIdentityEnrollmentPayload? parsed.payload = some payload)
    (htime : assertArtifactTime payload.iat payload.exp 120 nowSeconds = .ok ())
    (hcluster : payload.clusterId = clusterId) (hworkspace : payload.workspaceId = input.workspaceId)
    (hpayloadKid : payload.kid = kid) :
    checkEnrollment platform clusterId input nowSeconds = .ok kid := by
  unfold checkEnrollment
  rw [hkid]
  simp only [bind, Except.bind, hverify, hpayload, htime, hcluster, hworkspace, hpayloadKid,
    ne_eq, not_true_eq_false, or_self, if_false]

structure EnrolledIdentity where
  clusterId : String
  hubKid : String

/-- The record or identity carries this key: the same kid and the same canonical key. -/
def sameKey (kid : String) (publicJwk : Json) (kid' : String) (publicJwk' : Json) : Bool :=
  kid' == kid && canonicalJson publicJwk' == canonicalJson publicJwk

def isUnenrolled (workspaceId : String) (workspace : HubWorkspace) : Bool :=
  isActiveWorkspace workspaceId workspace && workspace.mcpHubIdentityKid.isNone &&
    workspace.mcpHubIdentityPublicJwk.isNone

def enroll (kid : String) (publicJwk : Json) (enrolledAt : Time) (workspace : HubWorkspace) :
    HubWorkspace :=
  { workspace with
    mcpHubIdentityKid := some kid
    mcpHubIdentityPublicJwk := some publicJwk
    mcpHubIdentityEnrolledAt := some enrolledAt
    updatedAt := enrolledAt }

def hubIdentityConflict : JsError := artifactError "hub_identity_conflict"

/-- What `enrollHubIdentity` does once the proof has been checked. -/
def enrollChecked (clusterId : String) (input : EnrollmentInput) (kid : String) :
    Secured EnrolledIdentity := do
  let existing ← findWorkspace (isActiveWorkspace input.workspaceId)
  match existing with
  | none => .throw (artifactError "hub_workspace_not_active")
  | some existing =>
    if (existing.mcpHubIdentityKid.getD "") ≠ "" ∨ existing.mcpHubIdentityPublicJwk.isSome then
      match existing.mcpHubIdentityKid, existing.mcpHubIdentityPublicJwk with
      | some kid', some publicJwk' =>
        if sameKey kid input.publicJwk kid' publicJwk' then .pure ⟨clusterId, kid⟩
        else .throw hubIdentityConflict
      | _, _ => .throw hubIdentityConflict
    else
      let enrolledAt ← securityNow
      let updated ← updateWorkspace (isUnenrolled input.workspaceId)
        (enroll kid input.publicJwk enrolledAt)
      if updated.matchedCount ≠ 1 then
        let raced ← publicInfo platform input.workspaceId
        if raced.any (fun raced ↦ sameKey kid input.publicJwk raced.kid raced.publicJwk) then
          .pure ⟨clusterId, kid⟩
        else .throw hubIdentityConflict
      else .pure ⟨clusterId, kid⟩

def enrollHubIdentity (clusterId : String) (input : EnrollmentInput) :
    Secured EnrolledIdentity := do
  let checkedAt ← securityNow
  let kid ← Program.ofExcept (checkEnrollment platform clusterId input (nowSeconds checkedAt))
  enrollChecked platform clusterId input kid

end PrivosCluster.McpSecurity
