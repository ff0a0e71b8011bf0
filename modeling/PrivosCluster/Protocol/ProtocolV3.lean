import PrivosCluster.Security.SignedArtifacts

/-!
# Protocol-v3 artifacts

The payloads of dispatch assertions and lifecycle commands, and how an artifact is verified: its
header, its signature, its schema, its time, and that it names the generation that is expected.
-/

namespace PrivosCluster

open Schema

/-- A `McpProtocolV3Error`. -/
def protocolV3Error (code : String) : JsError := { message := code, code := some (.text code) }

/-! ## Payloads -/

def isNonceChar (c : Char) : Bool := c.isAlphanum || c == '_' || c == '-'

/-- `/^[A-Za-z0-9_-]{16,128}$/` -/
def isNonce (s : String) : Bool :=
  16 ≤ s.toList.length && s.toList.length ≤ 128 && s.toList.all isNonceChar

def nonce? (json : Json) : Option String := (text? json).filter isNonce

/-- `TimedArtifactShape` -/
structure TimedArtifact where
  iss : String
  jti : String
  nonce : String
  iat : Int
  exp : Int

def timedArtifactKeys : List String := ["protocolVersion", "iss", "jti", "nonce", "iat", "exp"]

def timedArtifact? (members : List (String × Json)) : Option TimedArtifact := do
  if !Json.isNumber 3 (members.lookup "protocolVersion") then none
  let iss ← required members "iss" identifier?
  let jti ← required members "jti" uuid?
  let nonce ← required members "nonce" nonce?
  let iat ← required members "iat" int?
  let exp ← required members "exp" int?
  some ⟨iss, jti, nonce, iat, exp⟩

/-- The generation that a payload names. -/
structure GenerationClaims where
  clusterId : String
  workspaceId : String
  deploymentId : String
  generationId : String
  generationNumber : Nat
  runtimeInstallationId : String
  resourceManifestHash : String

def generationKeys : List String :=
  ["clusterId", "workspaceId", "deploymentId", "generationId", "generationNumber",
    "runtimeInstallationId"]

def generationClaims? (members : List (String × Json)) (resourceManifestHash : String) :
    Option GenerationClaims := do
  let clusterId ← required members "clusterId" identifier?
  let workspaceId ← required members "workspaceId" identifier?
  let deploymentId ← required members "deploymentId" identifier?
  let generationId ← required members "generationId" identifier?
  let generationNumber ← required members "generationNumber" positive?
  let runtimeInstallationId ← required members "runtimeInstallationId" identifier?
  some ⟨clusterId, workspaceId, deploymentId, generationId, generationNumber,
    runtimeInstallationId, resourceManifestHash⟩

/-- The binding of a room, in the room context. -/
structure RoomBinding where
  roomId : String
  authorizationBindingId : String
  bindingReceiptHash : String
  bindingEpoch : Nat

structure McpDispatchAssertionPayloadV3 extends TimedArtifact, GenerationClaims where
  mcpAppId : String
  clusterAppId : String
  bodyDigest : String
  manifestDigest : String
  runtimeResourceInventoryHash : String
  runtimeApprovalReceiptHash : String
  runtimeGrantEpoch : Nat
  /-- The room context, or none in the workspace context. -/
  room : Option RoomBinding
  /-- The whole payload, in which no key is added or dropped. -/
  json : Json

/-- `DispatchActor` -/
def dispatchActor? (json : Json) : Option Unit := do
  let members ← strictObject? ["subject", "username", "roomId", "callerApp", "crossRoom"] json
  let _ ← required members "subject" nonempty?
  let _ ← optional members "username" text?
  let _ ← optional members "roomId" text?
  let _ ← optional members "callerApp" nonempty?
  let _ ← optional members "crossRoom" fun crossRoom ↦
    match crossRoom with
    | .bool true => some ()
    | _ => none
  some ()

def dispatchCommonKeys : List String :=
  timedArtifactKeys ++ generationKeys ++
    ["actor", "type", "aud", "mcpAppId", "clusterAppId", "htm", "htu", "bodyDigest",
      "manifestDigest", "resourceManifestHash", "runtimeResourceInventoryHash",
      "runtimeApprovalReceiptHash", "runtimeGrantEpoch", "authorizationContext"]

def roomKeys : List String :=
  ["roomId", "authorizationBindingId", "bindingReceiptHash", "bindingEpoch"]

/-- `DispatchCommonShape` -/
def dispatchCommon? (members : List (String × Json)) (room : Option RoomBinding) (json : Json) :
    Option McpDispatchAssertionPayloadV3 := do
  let timed ← timedArtifact? members
  let _ ← optional members "actor" dispatchActor?
  let _ ← required members "type" (literal? "hub-dispatch-assertion")
  let _ ← required members "aud" (literal? "privos-mcp-app")
  let resourceManifestHash ← required members "resourceManifestHash" artifactHash?
  let generation ← generationClaims? members resourceManifestHash
  let mcpAppId ← required members "mcpAppId" identifier?
  let clusterAppId ← required members "clusterAppId" identifier?
  let _ ← required members "htm" (literal? "POST")
  let _ ← required members "htu" (literal? "/mcp")
  let bodyDigest ← required members "bodyDigest" artifactHash?
  let manifestDigest ← required members "manifestDigest" digest?
  let runtimeResourceInventoryHash ← required members "runtimeResourceInventoryHash" artifactHash?
  let runtimeApprovalReceiptHash ← required members "runtimeApprovalReceiptHash" artifactHash?
  let runtimeGrantEpoch ← required members "runtimeGrantEpoch" positive?
  some
    { timed, generation with
      mcpAppId, clusterAppId, bodyDigest, manifestDigest, runtimeResourceInventoryHash,
      runtimeApprovalReceiptHash, runtimeGrantEpoch, room, json }

def roomBinding? (members : List (String × Json)) : Option RoomBinding := do
  let roomId ← required members "roomId" identifier?
  let authorizationBindingId ← required members "authorizationBindingId" identifier?
  let bindingReceiptHash ← required members "bindingReceiptHash" artifactHash?
  let bindingEpoch ← required members "bindingEpoch" positive?
  some ⟨roomId, authorizationBindingId, bindingReceiptHash, bindingEpoch⟩

/-- `McpDispatchAssertionPayloadV3Schema` -/
def mcpDispatchAssertionPayloadV3? (json : Json) : Option McpDispatchAssertionPayloadV3 :=
  if Json.isText "workspace" (json.member? "authorizationContext") then do
    let members ← strictObject? dispatchCommonKeys json
    dispatchCommon? members none json
  else if Json.isText "room" (json.member? "authorizationContext") then do
    let members ← strictObject? (dispatchCommonKeys ++ roomKeys) json
    let room ← roomBinding? members
    dispatchCommon? members (some room) json
  else none

/-- A room assertion without its binding is told apart from one that is otherwise malformed. -/
def parseDispatchAssertionPayloadV3 (json : Json) : Except JsError McpDispatchAssertionPayloadV3 :=
  if Json.isText "room" (json.member? "authorizationContext") &&
      roomKeys.any fun key ↦ !(json.member? key).any Json.truthy then
    .error (protocolV3Error "ROOM_BINDING_REQUIRED")
  else
    match mcpDispatchAssertionPayloadV3? json with
    | some payload => .ok payload
    | none => .error (protocolV3Error "PROTOCOL_ENVELOPE_INVALID")

structure ClusterLifecycleCommandPayloadV3 extends TimedArtifact, GenerationClaims where
  operationId : String
  clusterAppId : String
  manifestDigest : String
  runtimeResourceInventoryHash : String
  reasonCode : String
  expectedResourceCount : Nat
  json : Json

/-- `ClusterLifecycleCommandPayloadV3Schema` -/
def clusterLifecycleCommandPayloadV3? (json : Json) : Option ClusterLifecycleCommandPayloadV3 := do
  let members ← strictObject? (timedArtifactKeys ++ generationKeys ++
    ["type", "aud", "action", "operationId", "clusterAppId", "manifestDigest",
      "resourceManifestHash", "runtimeResourceInventoryHash", "reasonCode",
      "expectedResourceCount"]) json
  let timed ← timedArtifact? members
  let _ ← required members "type" (literal? "cluster-lifecycle-command")
  let _ ← required members "aud" (literal? "privos-apps-master")
  let _ ← required members "action" (literal? "UNINSTALL_RUNTIME")
  let resourceManifestHash ← required members "resourceManifestHash" artifactHash?
  let generation ← generationClaims? members resourceManifestHash
  let operationId ← required members "operationId" uuid?
  let clusterAppId ← required members "clusterAppId" identifier?
  let manifestDigest ← required members "manifestDigest" digest?
  let runtimeResourceInventoryHash ← required members "runtimeResourceInventoryHash" artifactHash?
  let reasonCode ← required members "reasonCode" fun code ↦ (text? code).filter isSafeReasonCode
  let expectedResourceCount ← required members "expectedResourceCount" positive?
  some
    { timed, generation with
      operationId, clusterAppId, manifestDigest, runtimeResourceInventoryHash, reasonCode,
      expectedResourceCount, json }

/-! ## Signature, schema and time -/

def headerMembers : List String := ["alg", "kid", "privos_protocol", "typ"]

/-- The header has exactly the four members of a version-3 header. -/
def hasHeaderMembers : Json → Bool
  | .obj members => members.length == 4 && headerMembers.all (members.map (·.1)).contains
  | _ => false

section

variable (platform : ArtifactPlatform) {α : Type}

/-- What one kind of artifact is: its type, its schema and how long it may live. -/
structure ArtifactKind (α : Type) where
  typ : String
  schema : Json → Option α
  timed : α → TimedArtifact
  maximumLifetimeSeconds : Int

def verifySignedV3 (artifact : ArtifactKind α) (compact : String) (publicJwk : JsonWebKey)
    (kid : String) (now : Time) : Except JsError α :=
  match parseJws platform compact with
  | .error _ => .error (protocolV3Error "ARTIFACT_SIGNATURE_INVALID")
  | .ok unverified =>
    if unverified.header.isNull then .error (protocolV3Error "ARTIFACT_SIGNATURE_INVALID")
    else if !Json.isNumber 3 (unverified.header.member? "privos_protocol") then
      .error (protocolV3Error "PROTOCOL_VERSION_UNSUPPORTED")
    else if !hasHeaderMembers unverified.header then
      .error (protocolV3Error "PROTOCOL_ENVELOPE_INVALID")
    else
      match verifyEs256Jws platform compact publicJwk artifact.typ kid (some 3) with
      | .error _ => .error (protocolV3Error "ARTIFACT_SIGNATURE_INVALID")
      | .ok parsed =>
        match artifact.schema parsed.payload with
        | none => .error (protocolV3Error "PROTOCOL_ENVELOPE_INVALID")
        | some payload =>
          match assertArtifactTime (artifact.timed payload).iat (artifact.timed payload).exp
              artifact.maximumLifetimeSeconds (nowSeconds now) with
          | .error _ => .error (protocolV3Error "ARTIFACT_TIME_INVALID")
          | .ok () => .ok payload

end

section

variable {platform : ArtifactPlatform} {α : Type}

/-- What verifies is parsed, signed and good in time. -/
theorem verifySignedV3_eq_ok {artifact : ArtifactKind α} {compact kid : String}
    {publicJwk : JsonWebKey} {now : Time} {payload : α} :
    verifySignedV3 platform artifact compact publicJwk kid now = .ok payload ↔
      ∃ parsed, verifyEs256Jws platform compact publicJwk artifact.typ kid (some 3) = .ok parsed ∧
        hasHeaderMembers parsed.header ∧ artifact.schema parsed.payload = some payload ∧
        assertArtifactTime (artifact.timed payload).iat (artifact.timed payload).exp
          artifact.maximumLifetimeSeconds (nowSeconds now) = .ok () := by
  constructor
  · intro h
    unfold verifySignedV3 at h
    split at h
    · cases h
    next unverified hunverified =>
      split at h
      · cases h
      · split at h
        · cases h
        · split at h
          · cases h
          next hmembers =>
            split at h
            · cases h
            next parsed hverified =>
              have hparsed := (parsed_of_verifyEs256Jws hverified).1
              obtain rfl := Except.ok.inj (hunverified.symm.trans hparsed)
              split at h
              · cases h
              next payload' hschema =>
                split at h
                · cases h
                next htime =>
                  obtain rfl := Except.ok.inj h
                  exact ⟨unverified, hverified, by simpa using hmembers, hschema, htime⟩
  · rintro ⟨parsed, hverified, hmembers, hschema, htime⟩
    obtain ⟨hparsed, hnull, hheader⟩ := parsed_of_verifyEs256Jws hverified
    have hversion : Json.isNumber 3 (parsed.header.member? "privos_protocol") := by
      simp only [headerMatches, Bool.and_eq_true] at hheader
      exact hheader.2
    unfold verifySignedV3
    simp only [hparsed, hnull, hversion, hmembers, hverified, hschema, htime, Bool.not_true,
      Bool.false_eq_true, if_false]

end

/-! ## Affinity -/

/-- The generation that is expected. A text may be `undefined` and a number not-a-number, which no
payload matches. -/
structure ProvisioningAffinityV3 where
  clusterId : Option String
  workspaceId : Option String
  deploymentId : Option String
  generationId : Option String
  generationNumber : Option Rat
  runtimeInstallationId : Option String
  resourceManifestHash : Option String
  issuer : String

structure GenerationAffinityV3 extends ProvisioningAffinityV3 where
  runtimeResourceInventoryHash : Option String

/-- `!==` between a member of a payload and what is expected of it. -/
def isText (value : String) (expected : Option String) : Bool := expected == some value

def isNumber (value : Nat) (expected : Option Rat) : Bool := expected == some (value : Rat)

def assertProvisioningAffinityV3 (claims : GenerationClaims) (iss : String)
    (expected : ProvisioningAffinityV3) : Except JsError Unit :=
  if !(isText claims.clusterId expected.clusterId && isText claims.workspaceId expected.workspaceId &&
      isText claims.deploymentId expected.deploymentId &&
      isText claims.generationId expected.generationId &&
      isNumber claims.generationNumber expected.generationNumber &&
      isText claims.runtimeInstallationId expected.runtimeInstallationId &&
      iss == expected.issuer) then .error (protocolV3Error "GENERATION_AFFINITY_MISMATCH")
  else if !isText claims.resourceManifestHash expected.resourceManifestHash then
    .error (protocolV3Error "RESOURCE_MANIFEST_HASH_MISMATCH")
  else .ok ()

def assertGenerationAffinityV3 (claims : GenerationClaims) (iss runtimeResourceInventoryHash : String)
    (expected : GenerationAffinityV3) : Except JsError Unit := do
  assertProvisioningAffinityV3 claims iss expected.toProvisioningAffinityV3
  if !isText runtimeResourceInventoryHash expected.runtimeResourceInventoryHash then
    .error (protocolV3Error "RUNTIME_RESOURCE_INVENTORY_HASH_MISMATCH")
  else .ok ()

/-- What is expected of the binding of a room. -/
structure RoomAffinity where
  roomId : String
  authorizationBindingId : Option String
  bindingReceiptHash : String
  bindingEpoch : Nat

structure DispatchAffinityV3 extends GenerationAffinityV3 where
  manifestDigest : Option String
  runtimeApprovalReceiptHash : Option String
  runtimeGrantEpoch : Option Rat
  /-- The room context, or none for the workspace context. -/
  room : Option RoomAffinity
  bodyDigest : String

def assertRoomAffinity (payload : Option RoomBinding) (expected : RoomAffinity) :
    Except JsError Unit :=
  if expected.roomId = "" ∨ expected.authorizationBindingId.getD "" = "" ∨
      expected.bindingReceiptHash = "" then .error (protocolV3Error "ROOM_BINDING_REQUIRED")
  else
    match payload with
    | none => .error (protocolV3Error "ROOM_BINDING_MISMATCH")
    | some binding =>
      if binding.roomId == expected.roomId &&
          isText binding.authorizationBindingId expected.authorizationBindingId &&
          binding.bindingReceiptHash == expected.bindingReceiptHash &&
          binding.bindingEpoch == expected.bindingEpoch then .ok ()
      else .error (protocolV3Error "ROOM_BINDING_MISMATCH")

def assertDispatchAffinityV3 (payload : McpDispatchAssertionPayloadV3)
    (expected : DispatchAffinityV3) : Except JsError Unit := do
  assertGenerationAffinityV3 payload.toGenerationClaims payload.iss
    payload.runtimeResourceInventoryHash expected.toGenerationAffinityV3
  if !(isText payload.manifestDigest expected.manifestDigest &&
      isText payload.runtimeApprovalReceiptHash expected.runtimeApprovalReceiptHash &&
      isNumber payload.runtimeGrantEpoch expected.runtimeGrantEpoch &&
      payload.room.isSome == expected.room.isSome &&
      payload.bodyDigest == expected.bodyDigest) then
    .error (protocolV3Error "GENERATION_AFFINITY_MISMATCH")
  else
    match expected.room with
    | none => .ok ()
    | some room => assertRoomAffinity payload.room room

/-! ## The artifacts -/

def dispatchAssertionV3 : ArtifactKind McpDispatchAssertionPayloadV3 where
  typ := "privos-hub-dispatch+jws"
  schema := mcpDispatchAssertionPayloadV3?
  timed payload := payload.toTimedArtifact
  maximumLifetimeSeconds := 30

def lifecycleCommandV3 : ArtifactKind ClusterLifecycleCommandPayloadV3 where
  typ := "privos-cluster-lifecycle-command+jws"
  schema := clusterLifecycleCommandPayloadV3?
  timed payload := payload.toTimedArtifact
  maximumLifetimeSeconds := 300

section

variable (platform : ArtifactPlatform) (compact : String) (publicJwk : JsonWebKey) (kid : String)
  (now : Time)

def verifyDispatchAssertionV3 (expected : DispatchAffinityV3) :
    Except JsError McpDispatchAssertionPayloadV3 := do
  let payload ← verifySignedV3 platform dispatchAssertionV3 compact publicJwk kid now
  assertDispatchAffinityV3 payload expected
  .ok payload

def verifyLifecycleCommandV3 (expected : GenerationAffinityV3) :
    Except JsError ClusterLifecycleCommandPayloadV3 := do
  let payload ← verifySignedV3 platform lifecycleCommandV3 compact publicJwk kid now
  assertGenerationAffinityV3 payload.toGenerationClaims payload.iss
    payload.runtimeResourceInventoryHash expected
  .ok payload

end

theorem verifyDispatchAssertionV3_eq_ok {platform : ArtifactPlatform} {compact kid : String}
    {publicJwk : JsonWebKey} {now : Time} {expected : DispatchAffinityV3}
    {payload : McpDispatchAssertionPayloadV3} :
    verifyDispatchAssertionV3 platform compact publicJwk kid now expected = .ok payload ↔
      verifySignedV3 platform dispatchAssertionV3 compact publicJwk kid now = .ok payload ∧
        assertDispatchAffinityV3 payload expected = .ok () := by
  unfold verifyDispatchAssertionV3
  cases hsigned : verifySignedV3 platform dispatchAssertionV3 compact publicJwk kid now with
  | error e =>
    constructor
    · exact fun h ↦ nomatch h
    · exact fun h ↦ nomatch h.1
  | ok payload' =>
    cases haffinity : assertDispatchAffinityV3 payload' expected with
    | error e =>
      constructor
      · intro h
        simp only [bind, Except.bind, haffinity] at h
        cases h
      · rintro ⟨h, haffinity'⟩
        obtain rfl := Except.ok.inj h
        rw [haffinity] at haffinity'
        cases haffinity'
    | ok =>
      constructor
      · intro h
        simp only [bind, Except.bind, haffinity] at h
        obtain rfl := Except.ok.inj h
        exact ⟨rfl, haffinity⟩
      · rintro ⟨h, -⟩
        simp only [bind, Except.bind, haffinity]
        exact h

/-! ## A signed assertion -/

variable {text text' rest : String}

namespace Sample

def hubJwk : JsonWebKey where
  kty := "EC"
  crv := "P-256"
  x := "803gDHfY4o7liibqIZNu8E1V_Lv0y7TT0H18N9TtoMQ"
  y := "9CsfzMS-lJc_MSJ2eX3rk8RLYQukRYLE8V0J4H0oj9s"

def hubKid : String := "8aI6KWEERdklufi-9CSOcDhFAMKenk7mOCNGH0_mka8"

def header (typ : String) : Json :=
  .obj [("alg", .str "ES256"), ("kid", .str hubKid), ("privos_protocol", .num 3), ("typ", .str typ)]

def rpc : Json := .obj [("method", .str "tools/list")]

def bodyDigest : String := "9lTV7g1JvyD1NVNhUBTIkgNi0UVBVON3ql5ZiysOBWE"

def filled (c : Char) (n : Nat) : String := String.ofList (List.replicate n c)

/-- A dispatch in the workspace context, good from 1700000000 to 1700000030. -/
def dispatchPayload : Json :=
  .obj
    [("protocolVersion", .num 3), ("iss", .str "urn:privos:hub:hub-1"),
      ("jti", .str "11111111-1111-4111-8111-111111111111"), ("nonce", .str "nonce-0000000001"),
      ("iat", .num 1700000000), ("exp", .num 1700000030), ("type", .str "hub-dispatch-assertion"),
      ("aud", .str "privos-mcp-app"), ("clusterId", .str "cluster-1"), ("workspaceId", .str "acme"),
      ("deploymentId", .str "hub-1"), ("generationId", .str "generation-1"),
      ("generationNumber", .num 1), ("runtimeInstallationId", .str "runtime-1"),
      ("mcpAppId", .str "mcp-notes"), ("clusterAppId", .str "notes"), ("htm", .str "POST"),
      ("htu", .str "/mcp"), ("bodyDigest", .str bodyDigest),
      ("manifestDigest", .str ("sha256:" ++ filled 'b' 64)),
      ("resourceManifestHash", .str (filled 'm' 43)),
      ("runtimeResourceInventoryHash", .str (filled 'i' 43)),
      ("runtimeApprovalReceiptHash", .str (filled 'r' 43)), ("runtimeGrantEpoch", .num 1),
      ("authorizationContext", .str "workspace")]

def dispatchHeaderPart : String :=
  "eyJhbGci" ++ (
    "OiJFUzI1NiIsImtpZCI6IjhhSTZLV0VFUmRrbHVmaS05Q1NPY0RoRkFNS2VuazdtT0NOR0gwX21rYTgiLCJwcml2" ++
    "b3NfcHJvdG9jb2wiOjMsInR5cCI6InByaXZvcy1odWItZGlzcGF0Y2grandzIn0")

def dispatchPayloadPart : String :=
  "eyJhdWQi" ++ (
    "OiJwcml2b3MtbWNwLWFwcCIsImF1dGhvcml6YXRpb25Db250ZXh0Ijoid29ya3NwYWNlIiwiYm9keURpZ2VzdCI6" ++
    "IjlsVFY3ZzFKdnlEMU5WTmhVQlRJa2dOaTBVVkJWT04zcWw1Wml5c09CV0UiLCJjbHVzdGVyQXBwSWQiOiJub3Rl" ++
    "cyIsImNsdXN0ZXJJZCI6ImNsdXN0ZXItMSIsImRlcGxveW1lbnRJZCI6Imh1Yi0xIiwiZXhwIjoxNzAwMDAwMDMw" ++
    "LCJnZW5lcmF0aW9uSWQiOiJnZW5lcmF0aW9uLTEiLCJnZW5lcmF0aW9uTnVtYmVyIjoxLCJodG0iOiJQT1NUIiwi" ++
    "aHR1IjoiL21jcCIsImlhdCI6MTcwMDAwMDAwMCwiaXNzIjoidXJuOnByaXZvczpodWI6aHViLTEiLCJqdGkiOiIx" ++
    "MTExMTExMS0xMTExLTQxMTEtODExMS0xMTExMTExMTExMTEiLCJtYW5pZmVzdERpZ2VzdCI6InNoYTI1NjpiYmJi" ++
    "YmJiYmJiYmJiYmJiYmJiYmJiYmJiYmJiYmJiYmJiYmJiYmJiYmJiYmJiYmJiYmJiYmJiYmJiYmJiYmJiIiwibWNw" ++
    "QXBwSWQiOiJtY3Atbm90ZXMiLCJub25jZSI6Im5vbmNlLTAwMDAwMDAwMDEiLCJwcm90b2NvbFZlcnNpb24iOjMs" ++
    "InJlc291cmNlTWFuaWZlc3RIYXNoIjoibW1tbW1tbW1tbW1tbW1tbW1tbW1tbW1tbW1tbW1tbW1tbW1tbW1tbW1t" ++
    "bSIsInJ1bnRpbWVBcHByb3ZhbFJlY2VpcHRIYXNoIjoicnJycnJycnJycnJycnJycnJycnJycnJycnJycnJycnJy" ++
    "cnJycnJycnJyciIsInJ1bnRpbWVHcmFudEVwb2NoIjoxLCJydW50aW1lSW5zdGFsbGF0aW9uSWQiOiJydW50aW1l" ++
    "LTEiLCJydW50aW1lUmVzb3VyY2VJbnZlbnRvcnlIYXNoIjoiaWlpaWlpaWlpaWlpaWlpaWlpaWlpaWlpaWlpaWlp" ++
    "aWlpaWlpaWlpaWlpaSIsInR5cGUiOiJodWItZGlzcGF0Y2gtYXNzZXJ0aW9uIiwid29ya3NwYWNlSWQiOiJhY21l" ++
    "In0")

def dispatchSignature : String :=
  "aYRP5wde" ++ "nqe2pnb6hfg27uZKMF270jcpVFKD8J2rAOxVPWUAHIYL_j5jWApmlvE0xC0MPHHXCd5jX18cXCgrzg"

/-- The assertion as the Hub has signed it over the canonical text of its payload. -/
def dispatchCompact : String :=
  dispatchHeaderPart ++ "." ++ dispatchPayloadPart ++ "." ++ dispatchSignature

def artifactPlatform : ArtifactPlatform where
  sha256Base64Url text :=
    if text = canonicalJson rpc then bodyDigest
    else if text = canonicalJson hubJwk.toJson then hubKid else ""
  encrypt _ := ""
  decrypt _ := none
  parseJson text := if text = canonicalJson hubJwk.toJson then some hubJwk.toJson else none
  readPart part :=
    if part = dispatchHeaderPart then some (header "privos-hub-dispatch+jws")
    else if part = dispatchPayloadPart then some dispatchPayload else none
  number text := if text = "1" then some 1 else none
  numberText n := if n = 1 then "1" else ""
  sha256 _ := ""
  verify _ signature publicJwk := .ok (signature == dispatchSignature && publicJwk == hubJwk)

theorem not_mem_toList_ofList {chars : List Char} {c : Char} (h : chars.all (· != c)) :
    c ∉ (String.ofList chars).toList := by
  rw [String.toList_ofList]
  intro hmem
  have hne := List.all_eq_true.mp h c hmem
  simp at hne

theorem not_mem_toList_append {c : Char} (h : c ∉ text.toList) (h' : c ∉ text'.toList) :
    c ∉ (text ++ text').toList := by
  rw [String.toList_append, List.mem_append]
  exact fun hmem ↦ hmem.elim h h'

theorem append_ne {rest' : String} (hlength : text.toList.length = text'.toList.length)
    (h : text ≠ text') : text ++ rest ≠ text' ++ rest' := by
  intro heq
  have hchars := congrArg String.toList heq
  rw [String.toList_append, String.toList_append] at hchars
  exact h (String.toList_inj.mp (List.append_inj hchars hlength).1)

theorem dotFree_header : '.' ∉ dispatchHeaderPart.toList := by
  apply not_mem_toList_append (not_mem_toList_ofList (by decide))
  iterate 1 apply not_mem_toList_append _ (not_mem_toList_ofList (by decide))
  exact not_mem_toList_ofList (by decide)

theorem dotFree_payload : '.' ∉ dispatchPayloadPart.toList := by
  apply not_mem_toList_append (not_mem_toList_ofList (by decide))
  iterate 13 apply not_mem_toList_append _ (not_mem_toList_ofList (by decide))
  exact not_mem_toList_ofList (by decide)

theorem dispatchParts :
    compactParts dispatchCompact = [dispatchHeaderPart, dispatchPayloadPart, dispatchSignature] := by
  have hsignature : '.' ∉ dispatchSignature.toList :=
    not_mem_toList_append (not_mem_toList_ofList (by decide))
      (not_mem_toList_ofList (by decide))
  exact compactParts_join dotFree_header dotFree_payload hsignature

theorem dispatchPayloadPart_ne : dispatchPayloadPart ≠ dispatchHeaderPart :=
  append_ne (by decide) (by decide)

theorem readPart_dispatchPayload :
    artifactPlatform.readPart dispatchPayloadPart = some dispatchPayload := by
  simp only [artifactPlatform, dispatchPayloadPart_ne, if_true, if_false]

theorem append_ne_empty (h : text ≠ "") : text ++ rest ≠ "" := by
  intro heq
  have hchars := congrArg String.toList heq
  rw [String.toList_append, String.toList_empty, List.append_eq_nil_iff] at hchars
  exact h (String.toList_inj.mp hchars.1)

def dispatchJws : ParsedJws where
  header := header "privos-hub-dispatch+jws"
  payload := dispatchPayload
  signingInput := dispatchHeaderPart ++ "." ++ dispatchPayloadPart
  signature := dispatchSignature

theorem parseJws_dispatch : parseJws artifactPlatform dispatchCompact = .ok dispatchJws := by
  have hheader : dispatchHeaderPart ≠ "" := append_ne_empty (by decide)
  have hpayload : dispatchPayloadPart ≠ "" := append_ne_empty (by decide)
  have hsignature : dispatchSignature ≠ "" := append_ne_empty (by decide)
  have hread : artifactPlatform.readPart dispatchHeaderPart =
      some (header "privos-hub-dispatch+jws") := by simp only [artifactPlatform, if_true]
  exact parseJws_of_parts dispatchParts hheader hpayload hsignature hread
    readPart_dispatchPayload

theorem verifyEs256Jws_dispatch :
    verifyEs256Jws artifactPlatform dispatchCompact hubJwk "privos-hub-dispatch+jws" hubKid (some 3) =
      .ok dispatchJws := by
  have hheader : headerMatches dispatchJws.header "privos-hub-dispatch+jws" hubKid (some 3) := by
    decide
  have hverify : artifactPlatform.verify dispatchJws.signingInput dispatchJws.signature hubJwk =
      .ok true := by simp [artifactPlatform, dispatchJws]
  exact verifyEs256Jws_of_parsed parseJws_dispatch rfl hheader rfl rfl rfl hverify

def dispatchAssertion : McpDispatchAssertionPayloadV3 where
  iss := "urn:privos:hub:hub-1"
  jti := "11111111-1111-4111-8111-111111111111"
  nonce := "nonce-0000000001"
  iat := 1700000000
  exp := 1700000030
  clusterId := "cluster-1"
  workspaceId := "acme"
  deploymentId := "hub-1"
  generationId := "generation-1"
  generationNumber := 1
  runtimeInstallationId := "runtime-1"
  resourceManifestHash := filled 'm' 43
  mcpAppId := "mcp-notes"
  clusterAppId := "notes"
  bodyDigest := bodyDigest
  manifestDigest := "sha256:" ++ filled 'b' 64
  runtimeResourceInventoryHash := filled 'i' 43
  runtimeApprovalReceiptHash := filled 'r' 43
  runtimeGrantEpoch := 1
  room := none
  json := dispatchPayload

theorem dispatchPayload_parses :
    mcpDispatchAssertionPayloadV3? dispatchPayload = some dispatchAssertion := by rfl

/-- The assertion is good from half a minute before its time to half a minute after it. -/
theorem verifySignedV3_dispatch {now : Time} (hearly : 1699999970 ≤ nowSeconds now)
    (hlate : nowSeconds now ≤ 1700000060) :
    verifySignedV3 artifactPlatform dispatchAssertionV3 dispatchCompact hubJwk hubKid now =
      .ok dispatchAssertion := by
  have hmembers : hasHeaderMembers dispatchJws.header := by decide
  have htime : assertArtifactTime 1700000000 1700000030 30 (nowSeconds now) = .ok () := by
    unfold assertArtifactTime
    rw [if_neg (by omega)]
  exact verifySignedV3_eq_ok.mpr
    ⟨dispatchJws, verifyEs256Jws_dispatch, hmembers, dispatchPayload_parses, htime⟩

end Sample

end PrivosCluster
