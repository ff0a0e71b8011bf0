import Mathlib.Tactic.Linarith
import PrivosCluster.Admission.SingleUse
import PrivosCluster.Protocol.ProtocolV3

/-!
# Dispatch assertions at an agent

The agent verifies an assertion against the labels of the container and remembers its identifier
until it expires. Assertions of both versions share one memory. An identifier is forgotten when the
assertion expires, but the assertion is good for half a minute more.
-/

namespace PrivosCluster

open Schema List SingleUse Option

/-- The labels of a container. -/
abbrev Labels := List (String × String)

/-- What the master says of the context in which an app is called. -/
inductive AuthorizationContext where
  | workspace
  | room (authorizationBindingId : String)

structure DispatchAuthorization where
  context : AuthorizationContext
  runtimeInstallationId : String

namespace DispatchAuthorization

def isRoom (authorization : DispatchAuthorization) : Bool :=
  match authorization.context with
  | .workspace => false
  | .room _ => true

def authorizationBindingId (authorization : DispatchAuthorization) : Option String :=
  match authorization.context with
  | .workspace => none
  | .room authorizationBindingId => some authorizationBindingId

end DispatchAuthorization

structure AgentAuthorization extends DispatchAuthorization where
  runtimeResourceInventoryHash : String

/-! ## Payloads of version 2 -/

structure DispatchAssertionPayload where
  jti : String
  iat : Int
  exp : Int
  workspaceId : String
  installationId : String
  mcpAppId : String
  clusterAppId : String
  replicaId : String
  bodyDigest : String
  receiptHash : String
  grantEpoch : Nat

/-- `Payload` -/
def dispatchAssertionPayload? (json : Json) : Option DispatchAssertionPayload := do
  let members ← strictObject?
    ["type", "aud", "jti", "iat", "exp", "workspaceId", "installationId", "mcpAppId",
      "clusterAppId", "replicaId", "htm", "htu", "bodyDigest", "receiptHash", "grantEpoch"] json
  let _ ← required members "type" (literal? "hub-dispatch-assertion")
  let _ ← required members "aud" (literal? "privos-mcp-app")
  let jti ← required members "jti" uuid?
  let iat ← required members "iat" int?
  let exp ← required members "exp" int?
  let workspaceId ← required members "workspaceId" text?
  let installationId ← required members "installationId" text?
  let mcpAppId ← required members "mcpAppId" text?
  let clusterAppId ← required members "clusterAppId" uuid?
  let replicaId ← required members "replicaId" uuid?
  let _ ← required members "htm" (literal? "POST")
  let _ ← required members "htu" (literal? "/mcp")
  let bodyDigest ← required members "bodyDigest" digest?
  let receiptHash ← required members "receiptHash" digest?
  let grantEpoch ← required members "grantEpoch" positive?
  some
    { jti, iat, exp, workspaceId, installationId, mcpAppId, clusterAppId, replicaId, bodyDigest,
      receiptHash, grantEpoch }

variable {compact : String} {now : Time} {payload : McpDispatchAssertionPayloadV3}
  {delivery : Delivery} {exp : Int} {deliveries : List Delivery}

namespace McpDispatch

/-! ## Verification -/

section

variable (platform : ArtifactPlatform)

/-- The key of the Hub in the labels, which must have the thumbprint that they name. -/
def hubKey (labels : Labels) : Except JsError HubIdentity :=
  let text := (labels.lookup "privos.mcp.hub-jwk").getD ""
  match platform.parseJson (if text = "" then "null" else text) with
  | none => .error (artifactError "Unexpected token")
  | some json =>
    let kid := (labels.lookup "privos.mcp.hub-kid").getD ""
    if kid = "" then .error (artifactError "dispatch_hub_identity_invalid")
    else
      match JsonWebKey.ofJson? json with
      | none => .error (artifactError "public_jwk_invalid")
      | some publicJwk =>
        match platform.jwkThumbprint? publicJwk with
        | none => .error (artifactError "public_jwk_invalid")
        | some thumbprint =>
          if thumbprint ≠ kid then .error (artifactError "dispatch_hub_identity_invalid")
          else .ok ⟨kid, publicJwk⟩

/-- The assertion names the app, the replica and the grant of the labels, and the body. -/
def isBound (labels : Labels) (rpc : Json) (payload : DispatchAssertionPayload) : Bool :=
  isText payload.workspaceId (labels.lookup "privos.workspace") &&
    isText payload.installationId (labels.lookup "privos.mcp.installation") &&
    isText payload.mcpAppId (labels.lookup "privos.mcp.app") &&
    isText payload.clusterAppId (labels.lookup "privos.app-id") &&
    isText payload.replicaId (labels.lookup "privos.mcp.replica") &&
    isText payload.receiptHash (labels.lookup "privos.mcp.receipt") &&
    isNumber payload.grantEpoch ((labels.lookup "privos.mcp.grant-epoch").bind platform.number) &&
    payload.bodyDigest == platform.sha256 (canonicalJson rpc)

/-- All that is asked of an assertion of version 2 but that it is new. -/
def checked (compact : String) (rpc : Json) (labels : Labels) (now : Time) :
    Except JsError DispatchAssertionPayload := do
  let hub ← hubKey platform labels
  let parsed ← verifyEs256Jws platform compact hub.publicJwk "privos-hub-dispatch+jws" hub.kid none
  match dispatchAssertionPayload? parsed.payload with
  | none => .error (schemaError "payload")
  | some payload => do
    assertArtifactTime payload.iat payload.exp 30 (nowSeconds now)
    if !isBound platform labels rpc payload then
      .error (artifactError "dispatch_assertion_binding_mismatch")
    else .ok payload

/-- What an assertion must name, by the labels. -/
def affinityOf (labels : Labels) (rpc : Json) (authorization : AgentAuthorization)
    (unverified : McpDispatchAssertionPayloadV3) : DispatchAffinityV3 where
  clusterId := labels.lookup "privos.mcp.cluster"
  workspaceId := labels.lookup "privos.mcp.workspace"
  deploymentId := labels.lookup "privos.mcp.deployment"
  generationId := labels.lookup "privos.mcp.generation"
  generationNumber := (labels.lookup "privos.mcp.generation-number").bind platform.number
  runtimeInstallationId := labels.lookup "privos.mcp.runtime-installation"
  resourceManifestHash := labels.lookup "privos.mcp.resource-manifest-hash"
  runtimeResourceInventoryHash := some authorization.runtimeResourceInventoryHash
  issuer := "urn:privos:hub:" ++ (labels.lookup "privos.mcp.deployment").getD "undefined"
  manifestDigest := labels.lookup "privos.mcp.manifest.digest"
  runtimeApprovalReceiptHash := labels.lookup "privos.mcp.approval-receipt"
  runtimeGrantEpoch := (labels.lookup "privos.mcp.authorization-epoch").bind platform.number
  bodyDigest := platform.sha256Base64Url (canonicalJson rpc)
  room := unverified.room.map fun room ↦
    ⟨room.roomId, authorization.authorizationBindingId, room.bindingReceiptHash, room.bindingEpoch⟩

/-- The payload before its signature is verified: `compact.split('.')[1] ?? ''`. -/
def unverifiedPayload (compact : String) : Except JsError McpDispatchAssertionPayloadV3 :=
  match platform.readPart ((compactParts compact)[1]?.getD "") with
  | none => .error (artifactError "Unexpected token")
  | some json => parseDispatchAssertionPayloadV3 json

variable {platform} in
theorem unverifiedPayload_of_parts {header payload signature : String} {json : Json}
    (hparts : compactParts compact = [header, payload, signature])
    (hread : platform.readPart payload = some json) :
    unverifiedPayload platform compact = parseDispatchAssertionPayloadV3 json := by
  have hpart : (compactParts compact)[1]?.getD "" = payload := by rw [hparts]; rfl
  unfold unverifiedPayload
  rw [hpart, hread]

/-- The caller and the assertion name the app of the labels. -/
def namesApp (labels : Labels) (authorization : AgentAuthorization)
    (unverified : McpDispatchAssertionPayloadV3) : Bool :=
  isText authorization.runtimeInstallationId (labels.lookup "privos.mcp.runtime-installation") &&
    isText unverified.mcpAppId (labels.lookup "privos.mcp.app") &&
    isText unverified.clusterAppId (labels.lookup "privos.app-id")

/-- All that is asked of an assertion of version 3 but that it is new. -/
def checkedV3 (compact : String) (rpc : Json) (labels : Labels) (authorization : AgentAuthorization)
    (now : Time) : Except JsError McpDispatchAssertionPayloadV3 := do
  let hub ← hubKey platform labels
  let unverified ← unverifiedPayload platform compact
  if !namesApp labels authorization unverified then
    .error (artifactError "dispatch_assertion_binding_mismatch")
  else if authorization.isRoom && unverified.room.isNone then
    .error (artifactError "ROOM_BINDING_REQUIRED")
  else
    let payload ← verifyDispatchAssertionV3 platform compact hub.publicJwk hub.kid now
      (affinityOf platform labels rpc authorization unverified)
    if payload.room.isSome != authorization.isRoom then
      .error (artifactError (if authorization.isRoom then "ROOM_BINDING_REQUIRED"
        else "dispatch_assertion_binding_mismatch"))
    else .ok payload

variable {platform} in
theorem checkedV3_eq_ok {rpc : Json} {labels : Labels} {authorization : AgentAuthorization} :
    checkedV3 platform compact rpc labels authorization now = .ok payload ↔
      ∃ hub unverified, hubKey platform labels = .ok hub ∧
        unverifiedPayload platform compact = .ok unverified ∧
        namesApp labels authorization unverified = true ∧
        (authorization.isRoom = true → unverified.room.isSome = true) ∧
        verifyDispatchAssertionV3 platform compact hub.publicJwk hub.kid now
          (affinityOf platform labels rpc authorization unverified) = .ok payload ∧
        payload.room.isSome = authorization.isRoom := by
  constructor
  · intro h
    unfold checkedV3 at h
    cases hhub : hubKey platform labels with
    | error e =>
      rw [hhub] at h
      cases h
    | ok hub =>
      cases hunverified : unverifiedPayload platform compact with
      | error e =>
        rw [hhub, hunverified] at h
        cases h
      | ok unverified =>
        rw [hhub, hunverified] at h
        simp only [bind, Except.bind] at h
        split at h
        · cases h
        next hnames =>
          split at h
          · cases h
          next hroom =>
            split at h
            · cases h
            next payload' hverified =>
              split at h
              · cases h
              next hcontext =>
                obtain rfl := Except.ok.inj h
                have hsome : authorization.isRoom = true → unverified.room.isSome = true := by
                  intro hisRoom
                  simpa [hisRoom, Option.isSome_iff_ne_none] using hroom
                exact ⟨hub, unverified, rfl, rfl, by simpa using hnames, hsome, hverified,
                  by simpa using hcontext⟩
  · rintro ⟨hub, unverified, hhub, hunverified, hnames, hroom, hverified, hcontext⟩
    have hbound : (authorization.isRoom && unverified.room.isNone) = false := by
      cases hisRoom : authorization.isRoom with
      | false => rfl
      | true =>
        have hsome := hroom hisRoom
        cases hbinding : unverified.room with
        | none =>
          rw [hbinding] at hsome
          cases hsome
        | some room => rfl
    unfold checkedV3
    rw [hhub, hunverified]
    simp only [bind, Except.bind, hnames, hbound, hverified, hcontext, Bool.not_true,
      Bool.false_eq_true, if_false, bne_self_eq_false]

end

/-! ## The memory of the agent -/

/-- The identifiers that were accepted, with their expiry in seconds. -/
abbrev Replay := List (String × Int)

def isAlive (now : Time) (expiresAt : Int) : Bool := !(expiresAt < nowSeconds now)

def consume (replay : Replay) (jti : String) (exp : Int) (now : Time) : Except JsError Unit × Replay :=
  let left := replay.filter fun seen ↦ isAlive now seen.2
  if left.any fun seen ↦ seen.1 = jti then
    (.error (artifactError "dispatch_assertion_replayed"), left)
  else (.ok (), left ++ [(jti, exp)])

/-- The clock is read when the times of the assertion are checked, and when its identifier is. -/
structure Readings where
  checkedAt : Time
  consumedAt : Time

def verifyAgentDispatchAssertion (platform : ArtifactPlatform) (compact : String) (rpc : Json)
    (labels : Labels) (readings : Readings) (replay : Replay) : Except JsError Unit × Replay :=
  match checked platform compact rpc labels readings.checkedAt with
  | .error e => (.error e, replay)
  | .ok payload => consume replay payload.jti payload.exp readings.consumedAt

def verifyAgentDispatchAssertionV3 (platform : ArtifactPlatform) (compact : String) (rpc : Json)
    (labels : Labels) (authorization : AgentAuthorization) (readings : Readings) (replay : Replay) :
    Except JsError Unit × Replay :=
  match checkedV3 platform compact rpc labels authorization readings.checkedAt with
  | .error e => (.error e, replay)
  | .ok payload => consume replay payload.jti payload.exp readings.consumedAt

/-! ## Runs -/

inductive DispatchRequest where
  | v2 (compact : String) (rpc : Json) (labels : Labels)
  | v3 (compact : String) (rpc : Json) (labels : Labels) (authorization : AgentAuthorization)

/-- The identifier and the expiry of an assertion that passes every check but that of the memory. -/
def DispatchRequest.checked (platform : ArtifactPlatform) (now : Time) :
    DispatchRequest → Except JsError (String × Int)
  | .v2 compact rpc labels => do
    let payload ← McpDispatch.checked platform compact rpc labels now
    .ok (payload.jti, payload.exp)
  | .v3 compact rpc labels authorization => do
    let payload ← checkedV3 platform compact rpc labels authorization now
    .ok (payload.jti, payload.exp)

theorem checked_of_checkedV3 {platform : ArtifactPlatform} {rpc : Json} {labels : Labels}
    {authorization : AgentAuthorization}
    (h : checkedV3 platform compact rpc labels authorization now = .ok payload) :
    (DispatchRequest.v3 compact rpc labels authorization).checked platform now =
      .ok (payload.jti, payload.exp) := by
  simp only [DispatchRequest.checked, h, bind, Except.bind]

structure Delivery extends Readings where
  request : DispatchRequest

def Delivery.serve (platform : ArtifactPlatform) (replay : Replay) (delivery : Delivery) :
    Except JsError Unit × Replay :=
  match delivery.request with
  | .v2 compact rpc labels =>
    verifyAgentDispatchAssertion platform compact rpc labels delivery.toReadings replay
  | .v3 compact rpc labels authorization =>
    verifyAgentDispatchAssertionV3 platform compact rpc labels authorization delivery.toReadings
      replay

/-- The deliveries in order over one memory, each with whether it was accepted. -/
def serveEach (platform : ArtifactPlatform) : Replay → List Delivery → List (Delivery × Bool)
  | _, [] => []
  | replay, delivery :: rest =>
    let (accepted, replay) := delivery.serve platform replay
    (delivery, accepted.isOk) :: serveEach platform replay rest

/-- The clock does not go back. -/
def InOrder (deliveries : List Delivery) : Prop :=
  (∀ delivery ∈ deliveries, delivery.checkedAt ≤ delivery.consumedAt) ∧
    deliveries.Pairwise fun first second ↦ first.consumedAt ≤ second.checkedAt

section Replay

variable (platform : ArtifactPlatform)

/-- The identifier of an assertion that passes every other check. -/
def Delivery.jti (delivery : Delivery) : Option String :=
  (delivery.request.checked platform delivery.checkedAt).toOption.map Prod.fst

/-- The assertion passes every other check. -/
def Delivery.IsGood (delivery : Delivery) : Prop := ∃ jti, delivery.jti platform = some jti

/-- No two assertions with one identifier are accepted. -/
def AcceptedOnce (deliveries : List Delivery) : Prop :=
  (serveEach platform [] deliveries).Pairwise fun a b ↦
    a.2 = true → b.2 = true → a.1.jti platform ≠ b.1.jti platform

/--
Of the assertions with one identifier that pass every other check, the later ones come no later
than in the second in which the first expires.
-/
def BeforeExpiry (deliveries : List Delivery) : Prop :=
  ∀ before a between b after, deliveries = before ++ a :: (between ++ b :: after) →
    ∀ jti exp exp', a.request.checked platform a.checkedAt = .ok (jti, exp) →
      b.request.checked platform b.checkedAt = .ok (jti, exp') →
        (∀ c ∈ before, c.jti platform ≠ some jti) → nowSeconds b.consumedAt ≤ exp

/-! ## The memory as a guard -/

def replayGuard : SingleUse.Guard Replay Delivery (Option String) (Option Int) Time where
  step replay delivery accepted replay' :=
    (delivery.serve platform replay).1.isOk = accepted ∧ (delivery.serve platform replay).2 = replay'
  time delivery := delivery.consumedAt
  key := Delivery.jti platform
  deadline delivery := (delivery.request.checked platform delivery.checkedAt).toOption.map Prod.snd
  held replay jti exp := ∃ seen ∈ replay, jti = some seen.1 ∧ exp = some seen.2
  due now exp := ∀ expiresAt, exp = some expiresAt → isAlive now expiresAt = false

variable {platform}

theorem serve_eq (replay : Replay) (delivery : Delivery) :
    delivery.serve platform replay =
      match delivery.request.checked platform delivery.checkedAt with
      | .error e => (.error e, replay)
      | .ok (jti, exp) => consume replay jti exp delivery.consumedAt := by
  obtain ⟨readings, request⟩ := delivery
  cases request with
  | v2 compact rpc labels =>
    simp only [Delivery.serve, verifyAgentDispatchAssertion, DispatchRequest.checked]
    cases checked platform compact rpc labels readings.checkedAt <;> rfl
  | v3 compact rpc labels authorization =>
    simp only [Delivery.serve, verifyAgentDispatchAssertionV3, DispatchRequest.checked]
    cases checkedV3 platform compact rpc labels authorization readings.checkedAt <;> rfl

/-- The memory is the one of the library, with `isAlive` for what is kept. -/
theorem consume_eq (replay : Replay) (jti : String) (exp : Int) (now : Time) :
    (consume replay jti exp now).1.isOk = (SingleUse.check isAlive replay jti now exp).1 ∧
      (consume replay jti exp now).2 = (SingleUse.check isAlive replay jti now exp).2 := by
  simp only [consume, SingleUse.check]
  split
  · exact ⟨rfl, rfl⟩
  · exact ⟨rfl, rfl⟩

variable (platform) in
theorem serve_cases (replay : Replay) (delivery : Delivery) :
    (∃ e, delivery.request.checked platform delivery.checkedAt = .error e ∧
        delivery.serve platform replay = (.error e, replay)) ∨
      ∃ jti exp, delivery.request.checked platform delivery.checkedAt = .ok (jti, exp) ∧
        (delivery.serve platform replay).1.isOk =
          (SingleUse.check isAlive replay jti delivery.consumedAt exp).1 ∧
        (delivery.serve platform replay).2 =
          (SingleUse.check isAlive replay jti delivery.consumedAt exp).2 := by
  rw [serve_eq]
  cases hchecked : delivery.request.checked platform delivery.checkedAt with
  | error e => exact .inl ⟨e, rfl, rfl⟩
  | ok verified => exact .inr ⟨verified.1, verified.2, rfl, consume_eq _ _ _ _⟩

theorem isAlive_mono {now' : Time} {expiresAt : Int} (h : now ≤ now')
    (hdead : isAlive now expiresAt = false) : isAlive now' expiresAt = false := by
  have hseconds : nowSeconds now ≤ nowSeconds now' := Int.ediv_le_ediv (by decide) h
  have hdead' : expiresAt < nowSeconds now := by simpa [isAlive] using hdead
  have hdead'' : expiresAt < nowSeconds now' := lt_of_lt_of_le hdead' hseconds
  simpa [isAlive] using hdead''

theorem jti_of_checked {jti : String}
    (h : delivery.request.checked platform delivery.checkedAt = .ok (jti, exp)) :
    delivery.jti platform = some jti := by
  rw [Delivery.jti, h]
  rfl

theorem deadline_of_checked {jti : String}
    (h : delivery.request.checked platform delivery.checkedAt = .ok (jti, exp)) :
    (replayGuard platform).deadline delivery = some exp := by
  simp only [replayGuard, h]
  rfl

theorem checked_of_jti {jti : String} (h : delivery.jti platform = some jti) :
    ∃ exp, delivery.request.checked platform delivery.checkedAt = .ok (jti, exp) := by
  unfold Delivery.jti at h
  cases hchecked : delivery.request.checked platform delivery.checkedAt with
  | error e =>
    rw [hchecked] at h
    cases h
  | ok verified =>
    rw [hchecked] at h
    obtain rfl := some.inj h
    exact ⟨verified.2, rfl⟩

theorem replayGuard_exact :
    (replayGuard platform).Exact fun delivery ↦ delivery.IsGood platform where
  due_mono := fun hle hdue expiresAt hexp ↦ isAlive_mono hle (hdue expiresAt hexp)
  keeps := by
    rintro replay replay' delivery accepted jti exp ⟨-, rfl⟩ ⟨seen, hmem, rfl, rfl⟩ hdue
    rcases serve_cases platform replay delivery with
      ⟨e, -, hserve⟩ | ⟨jti, exp, -, -, hleft⟩
    · rw [hserve]
      exact ⟨seen, hmem, rfl, rfl⟩
    · rw [hleft]
      refine ⟨seen, mem_check hmem ?_, rfl, rfl⟩
      by_contra hdead
      rw [Bool.not_eq_true] at hdead
      apply hdue
      intro expiresAt hexp
      rw [← some.inj hexp]
      exact hdead
  holds := by
    rintro replay replay' delivery ⟨hok, rfl⟩
    rcases serve_cases platform replay delivery with
      ⟨e, -, hserve⟩ | ⟨jti, exp, hchecked, hadmitted, hleft⟩
    · rw [hserve] at hok
      cases hok
    · rw [hleft]
      refine ⟨(jti, exp), mem_check_of_admitted (hadmitted.symm.trans hok), ?_, ?_⟩
      · exact jti_of_checked hchecked
      · exact deadline_of_checked hchecked
  refuses := by
    rintro replay replay' delivery exp ⟨hok, rfl⟩ ⟨seen, hmem, hjti, rfl⟩
    rcases serve_cases platform replay delivery with
      ⟨e, -, hserve⟩ | ⟨jti, exp, hchecked, hadmitted, -⟩
    · rw [hserve] at hok
      cases hok
    · have hkey : jti = seen.1 := some.inj ((jti_of_checked hchecked).symm.trans hjti)
      rw [hkey] at hadmitted
      intro expiresAt hexp
      rw [← some.inj hexp]
      exact not_alive_of_admitted (hadmitted.symm.trans hok) hmem
  good_of_admitted := by
    rintro replay replay' delivery ⟨hok, -⟩
    rcases serve_cases platform replay delivery with
      ⟨e, -, hserve⟩ | ⟨jti, exp, hchecked, -, -⟩
    · rw [hserve] at hok
      cases hok
    · exact ⟨jti, jti_of_checked hchecked⟩
  admitted_of_held := by
    rintro replay replay' delivery accepted jti exp ⟨hok, rfl⟩ ⟨seen, hmem, rfl, rfl⟩
    rcases serve_cases platform replay delivery with
      ⟨e, -, hserve⟩ | ⟨jti, exp, hchecked, hadmitted, hleft⟩
    · rw [hserve] at hmem
      exact .inl ⟨seen, hmem, rfl, rfl⟩
    · rw [hleft] at hmem
      obtain hmem | ⟨hnew, rfl⟩ := mem_of_check hmem
      · exact .inl ⟨seen, hmem, rfl, rfl⟩
      · refine .inr ⟨hok.symm.trans (hadmitted.trans hnew), ?_, ?_⟩
        · exact jti_of_checked hchecked
        · exact deadline_of_checked hchecked
  held_of_refused := by
    rintro replay replay' delivery ⟨hrefused, -⟩ hgood
    rcases serve_cases platform replay delivery with
      ⟨e, hchecked, -⟩ | ⟨jti, exp, hchecked, hadmitted, -⟩
    · obtain ⟨jti, hjti⟩ := hgood
      obtain ⟨exp, hchecked'⟩ := checked_of_jti hjti
      rw [hchecked] at hchecked'
      cases hchecked'
    · obtain ⟨d, hmem, halive⟩ := mem_of_refused (hadmitted.symm.trans hrefused)
      refine ⟨some d, ⟨(jti, d), hmem, ?_, rfl⟩, ?_⟩
      · exact jti_of_checked hchecked
      · intro hdue
        have hdead : isAlive delivery.consumedAt d = false := hdue d rfl
        rw [halive] at hdead
        cases hdead

variable (platform) in
theorem run_serveEach (replay : Replay) (deliveries : List Delivery) :
    ∃ replay', (replayGuard platform).Run replay (serveEach platform replay deliveries) replay' := by
  induction deliveries generalizing replay with
  | nil => exact ⟨replay, .start⟩
  | cons delivery rest ih =>
    obtain ⟨replay', hrest⟩ := ih (delivery.serve platform replay).2
    exact ⟨replay', .head ⟨rfl, rfl⟩ hrest⟩

theorem serveEach_pair {replay replay' : Replay} {a b : Delivery} {r : Except JsError Unit}
    (h : a.serve platform replay = (r, replay')) :
    serveEach platform replay [a, b] =
      [(a, r.isOk), (b, (b.serve platform replay').1.isOk)] := by
  simp only [serveEach, h]

variable (platform) in
theorem map_fst_serveEach (replay : Replay) (deliveries : List Delivery) :
    (serveEach platform replay deliveries).map Prod.fst = deliveries := by
  induction deliveries generalizing replay with
  | nil => rfl
  | cons delivery rest ih =>
    simp only [serveEach, map_cons]
    rw [ih]

theorem InOrder.ordered (h : InOrder deliveries) (replay : Replay) :
    (replayGuard platform).Ordered (serveEach platform replay deliveries) := by
  have hpairs : deliveries.Pairwise fun first second ↦ first.consumedAt ≤ second.consumedAt := by
    apply h.2.imp_of_mem
    intro first second _ hsecond hle
    exact Int.le_trans hle (h.1 second hsecond)
  have hmap := map_fst_serveEach platform replay deliveries
  rw [← hmap, pairwise_map] at hpairs
  exact hpairs

theorem inTime_iff :
    (replayGuard platform).InTime (fun delivery ↦ delivery.IsGood platform) deliveries ↔
      BeforeExpiry platform deliveries := by
  constructor
  · intro hintime before a between b after hsplit jti exp exp' ha hb hfirst
    have hkey : (replayGuard platform).key a = (replayGuard platform).key b :=
      (jti_of_checked ha).trans (jti_of_checked hb).symm
    have hnot := hintime before a between b after hsplit ⟨jti, jti_of_checked ha⟩
      ⟨jti, jti_of_checked hb⟩ hkey ?_
    · by_contra hlate
      apply hnot
      intro expiresAt hexp
      rw [deadline_of_checked ha] at hexp
      rw [← some.inj hexp]
      have hdead : exp < nowSeconds b.consumedAt := not_le.mp hlate
      have halive : isAlive b.consumedAt exp = false := by simpa [isAlive] using hdead
      exact halive
    · intro c hc _ hsame
      exact hfirst c hc (hsame.trans (jti_of_checked ha))
  · intro hexpiry before a between b after hsplit ha hb hkey hfirst hdue
    obtain ⟨jti, hjti⟩ := ha
    obtain ⟨exp, hchecked⟩ := checked_of_jti hjti
    obtain ⟨exp', hchecked'⟩ := checked_of_jti (hkey.symm.trans hjti)
    have hle := hexpiry before a between b after hsplit jti exp exp' hchecked hchecked' ?_
    · have hdead : isAlive b.consumedAt exp = false := hdue exp (deadline_of_checked hchecked)
      have hlt : exp < nowSeconds b.consumedAt := by simpa [isAlive] using hdead
      exact absurd hle (not_le.mpr hlt)
    · intro c hc hsame
      exact hfirst c hc ⟨jti, hsame⟩ (hsame.trans hjti.symm)

end Replay

/-- The agent accepts no two assertions with one identifier exactly when those that follow the first
come no later than in the second in which it expires. -/
theorem accepted_once_iff (platform : ArtifactPlatform) (deliveries : List Delivery)
    (hclock : InOrder deliveries) :
    AcceptedOnce platform deliveries ↔ BeforeExpiry platform deliveries := by
  obtain ⟨replay, hrun⟩ := run_serveEach platform [] deliveries
  have hempty : ∀ jti exp, ¬ (replayGuard platform).held [] jti exp := by
    rintro jti exp ⟨seen, hseen, -⟩
    cases hseen
  have hiff := hrun.once_iff replayGuard_exact hempty (hclock.ordered [])
  rw [map_fst_serveEach, inTime_iff] at hiff
  exact hiff

namespace Sample

open PrivosCluster.Sample

def labels : Labels :=
  [("privos.app-id", "notes"), ("privos.workspace", "acme"), ("privos.mcp.schema", "3"),
    ("privos.mcp.cluster", "cluster-1"), ("privos.mcp.workspace", "acme"),
    ("privos.mcp.deployment", "hub-1"), ("privos.mcp.generation", "generation-1"),
    ("privos.mcp.generation-number", "1"), ("privos.mcp.runtime-installation", "runtime-1"),
    ("privos.mcp.app", "mcp-notes"), ("privos.mcp.manifest.digest", "sha256:" ++ filled 'b' 64),
    ("privos.mcp.approval-receipt", filled 'r' 43), ("privos.mcp.authorization-epoch", "1"),
    ("privos.mcp.resource-manifest-hash", filled 'm' 43), ("privos.mcp.hub-kid", hubKid),
    ("privos.mcp.hub-jwk", canonicalJson hubJwk.toJson)]

def authorization : AgentAuthorization where
  context := .workspace
  runtimeInstallationId := "runtime-1"
  runtimeResourceInventoryHash := filled 'i' 43

def request : DispatchRequest := .v3 dispatchCompact rpc labels authorization

/-- The assertion is delivered in this second. -/
def deliveredAt (second : Int) : Delivery := ⟨⟨1000 * second, 1000 * second⟩, request⟩

theorem hubKey_labels : hubKey artifactPlatform labels = .ok ⟨hubKid, hubJwk⟩ := by rfl

theorem unverifiedPayload_dispatch :
    unverifiedPayload artifactPlatform dispatchCompact = .ok dispatchAssertion := by
  have hroom : Json.isText "room" (dispatchPayload.member? "authorizationContext") = false := by
    decide +kernel
  rw [unverifiedPayload_of_parts dispatchParts readPart_dispatchPayload]
  simp only [parseDispatchAssertionPayloadV3, hroom, Bool.false_and, Bool.false_eq_true, if_false,
    dispatchPayload_parses]

theorem affinity_dispatch :
    assertDispatchAffinityV3 dispatchAssertion
      (affinityOf artifactPlatform labels rpc authorization dispatchAssertion) = .ok () := by rfl

variable {second : Int}

theorem checked_request (hearly : 1699999970 ≤ second) (hlate : second ≤ 1700000060) :
    request.checked artifactPlatform (1000 * second) =
      .ok ("11111111-1111-4111-8111-111111111111", 1700000030) := by
  have hnow : nowSeconds (1000 * second) = second := by
    unfold nowSeconds
    omega
  have hsigned : verifySignedV3 artifactPlatform dispatchAssertionV3 dispatchCompact hubJwk hubKid
      (1000 * second) = .ok dispatchAssertion :=
    verifySignedV3_dispatch (by omega) (by omega)
  have hverified : verifyDispatchAssertionV3 artifactPlatform dispatchCompact hubJwk hubKid
      (1000 * second) (affinityOf artifactPlatform labels rpc authorization dispatchAssertion) =
        .ok dispatchAssertion := by
    exact verifyDispatchAssertionV3_eq_ok.mpr ⟨hsigned, affinity_dispatch⟩
  have hchecked : checkedV3 artifactPlatform dispatchCompact rpc labels authorization
      (1000 * second) = .ok dispatchAssertion :=
    checkedV3_eq_ok.mpr ⟨⟨hubKid, hubJwk⟩, dispatchAssertion, hubKey_labels,
      unverifiedPayload_dispatch, by decide +kernel, by decide, hverified, by decide⟩
  exact checked_of_checkedV3 hchecked

theorem serve_deliveredAt (hearly : 1699999970 ≤ second) (hlate : second ≤ 1700000060)
    (replay : Replay) :
    (deliveredAt second).serve artifactPlatform replay =
      consume replay "11111111-1111-4111-8111-111111111111" 1700000030 (1000 * second) := by
  have hchecked : (deliveredAt second).request.checked artifactPlatform
      (deliveredAt second).checkedAt = _ := checked_request hearly hlate
  rw [serve_eq, hchecked]
  rfl

theorem jti_deliveredAt (hearly : 1699999970 ≤ second) (hlate : second ≤ 1700000060) :
    (deliveredAt second).jti artifactPlatform = some "11111111-1111-4111-8111-111111111111" :=
  jti_of_checked (checked_request hearly hlate)

/-- The memory after the first delivery. -/
def remembered : Replay := [("11111111-1111-4111-8111-111111111111", 1700000030)]

theorem expires_deliveredAt {jti : String} (hearly : 1699999970 ≤ second)
    (hlate : second ≤ 1700000060)
    (h : (deliveredAt second).request.checked artifactPlatform (deliveredAt second).checkedAt =
      .ok (jti, exp)) : exp = 1700000030 := by
  have hchecked := checked_request hearly hlate
  have hpair := Except.ok.inj (h.symm.trans hchecked)
  exact (Prod.mk.inj hpair).2

theorem inOrder_deliveredAt {first : Int} (h : first ≤ second) :
    InOrder [deliveredAt first, deliveredAt second] := by
  constructor
  · intro delivery hdelivery
    obtain rfl | rfl := mem_pair.mp hdelivery
    · exact Int.le_refl _
    · exact Int.le_refl _
  · apply pairwise_pair.mpr
    have hle : 1000 * first ≤ 1000 * second := by omega
    exact hle

end Sample

/-- A second delivery in the second in which the assertion expires is refused. -/
theorem accepted_once_until_expiry :
    AcceptedOnce Sample.artifactPlatform
      [Sample.deliveredAt 1700000010, Sample.deliveredAt 1700000030] := by
  apply (accepted_once_iff _ _ (Sample.inOrder_deliveredAt (by decide))).mpr
  intro before a between b after hsplit jti exp exp' ha _ _
  have hmema : a ∈ [Sample.deliveredAt 1700000010, Sample.deliveredAt 1700000030] := by
    rw [hsplit]
    simp
  have hmemb : b ∈ [Sample.deliveredAt 1700000010, Sample.deliveredAt 1700000030] := by
    rw [hsplit]
    simp
  have hexp : exp = 1700000030 := by
    rcases mem_pair.mp hmema with rfl | rfl
    · exact (Sample.expires_deliveredAt (by decide) (by decide) ha)
    · exact (Sample.expires_deliveredAt (by decide) (by decide) ha)
  have hnow : nowSeconds b.consumedAt ≤ 1700000030 := by
    rcases mem_pair.mp hmemb with rfl | rfl
    · decide
    · decide
  rw [hexp]
  exact hnow

/-- Ten seconds past its expiry the assertion is still good, and is accepted again. -/
theorem accepted_twice_past_expiry :
    InOrder [Sample.deliveredAt 1700000010, Sample.deliveredAt 1700000040] ∧
      ¬ AcceptedOnce Sample.artifactPlatform
        [Sample.deliveredAt 1700000010, Sample.deliveredAt 1700000040] := by
  refine ⟨Sample.inOrder_deliveredAt (by decide), ?_⟩
  intro honce
  have hfirst : (Sample.deliveredAt 1700000010).serve Sample.artifactPlatform [] =
      (.ok (), Sample.remembered) := Sample.serve_deliveredAt (by decide) (by decide) []
  have hsecond : ((Sample.deliveredAt 1700000040).serve Sample.artifactPlatform
      Sample.remembered).1 = .ok () := by
    rw [Sample.serve_deliveredAt (by decide) (by decide)]
    rfl
  have haccepted := serveEach_pair hfirst (b := Sample.deliveredAt 1700000040)
  rw [hsecond] at haccepted
  rw [AcceptedOnce, haccepted] at honce
  have hne := pairwise_pair.mp honce rfl rfl
  exact hne ((Sample.jti_deliveredAt (by decide) (by decide)).trans
    (Sample.jti_deliveredAt (by decide) (by decide)).symm)

end McpDispatch

end PrivosCluster
