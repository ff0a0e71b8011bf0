import PrivosCluster.Routing.HopReplay
import PrivosCluster.Url.Target

/-!
# Signed requests on the wire

The ingress listener signs the request target as it received it. The HTTP client that sends the
request parses it as part of a URL and sends what the URL serializes to, and the runtime listener
verifies the signature over what it receives.
-/

namespace PrivosCluster.Routing

open List

/-- The path and the query that the HTTP client sends for a target. -/
def wireTarget (target : String) : Option String :=
  (Url.parse target.toList).map fun parsed ↦ String.ofList parsed.serialize

/-- What arrives of a request, with everything but the target as it was handed to the client. -/
def onWire (request : HttpRequest) : Option HttpRequest :=
  (wireTarget (request.url.getD "/")).map fun target ↦ { request with url := some target }

variable {target name : String} {others : List (String × String)}

theorem wireTarget_eq_self_iff :
    wireTarget target = some target ↔ Url.IsSerialized target.toList := by
  rw [← Url.serialize_eq_self_iff]
  unfold wireTarget
  cases Url.parse target.toList with
  | none => simp
  | some parsed =>
    simp only [Option.map_some, Option.some.injEq]
    constructor
    · intro h
      rw [← h, String.toList_ofList]
    · intro h
      rw [h, String.ofList_toList]

/-! ## What the ingress listener sends -/

/-- In answering the request the listener may send it to this address, as this attempt. -/
structure IngressListener.Sends (listener : IngressListener) (req : HttpRequest) (attempt : Nat)
    (meshIp clientIp : String) : Prop where
  notOwnPath : pathOnly (req.url.getD "/") ∉ ["/_privos/ingress-id", "/healthz"]
  rule : ∃ rule, listener.findRule req.host = some rule ∧ rule.suspended = false ∧
    (pickNodeOrder rule listener.selfMeshIp)[attempt]? = some meshIp
  clientIp : clientIpFrom req = some clientIp

/-! ## The signature at the target node -/

/-- The signed texts of two targets differ when the targets do. -/
theorem canonicalSigningString_target {platform : Platform} {fields : SignedRequestFields}
    (h : canonicalSigningString platform { fields with requestTarget := target } =
      canonicalSigningString platform fields) : target = fields.requestTarget := by
  have hrest := String.append_left_inj _ |>.mp (String.append_left_inj _ |>.mp h)
  exact String.append_right_inj _ |>.mp hrest

theorem lookup_append_of_forall_ne {headers : List (String × String)}
    (h : ∀ header ∈ headers, header.1 ≠ name) :
    (headers ++ others).lookup name = others.lookup name := by
  induction headers with
  | nil => rfl
  | cons header headers ih =>
    have hne : (name == header.1) = false :=
      beq_eq_false_iff_ne.mpr (h header mem_cons_self).symm
    rw [cons_append, List.lookup_cons, hne]
    exact ih fun other hother ↦ h other (mem_cons_of_mem _ hother)

theorem lookup_passedHeaders {hopByHop : List String} {req : HttpRequest}
    (hname : name ∈ edgeSignatureHeaders) :
    (passedHeaders hopByHop req ++ others).lookup name = others.lookup name := by
  apply lookup_append_of_forall_ne
  intro header hheader heq
  have hpassed := (mem_filter.mp hheader).2
  simp only [Bool.and_eq_true, Bool.not_eq_true', contains_eq_mem, decide_eq_false_iff_not]
    at hpassed
  exact hpassed.2 (heq ▸ hname)

/-- What Ed25519 and the number texts do for a signer and a time. -/
structure Platform.Signs (platform : Platform) (identity : SigningIdentity)
    (publicJwk : JsonWebKey) (ts : Time) : Prop where
  number : platform.number (platform.numberText ts) = some (ts : Rat)
  numberText : platform.numberText ts ≠ ""
  sign : ∀ text, identity.sign text ≠ ""
  verify : ∀ text signed jwk,
    platform.verify text (identity.sign signed) jwk = true ↔ jwk = publicJwk ∧ text = signed

/-- The attempt reaches its node in time, under a nonce that the node does not remember. -/
structure Arrives (identity : SigningIdentity) (runtime : RuntimeListener) (now : Time)
    (meshIp nonce : String) (ts : Time) : Prop where
  node : runtime.selfMeshIp = meshIp
  meshIp_ne : meshIp ≠ ""
  kid_ne : identity.kid ≠ ""
  nonce_ne : nonce ≠ ""
  skew : |(now : Rat) - ts| ≤ signatureTsSkewMs
  fresh : (runtime.replayCache.checkAndRemember nonce now).1 = true

/-- The node's table has the public key of the ingress node. -/
def KnowsIngress (runtime : RuntimeListener) (kid : String) (publicJwk : JsonWebKey) : Prop :=
  ∃ key, runtime.tables.findSigningKey kid = some key ∧ key.publicJwk = publicJwk

section Hop

variable {platform : Platform} {ingress : IngressListener} {runtime : RuntimeListener} {now : Time}
  {req received : HttpRequest} {attempt : Nat} {meshIp clientIp nonce : String} {ts : Time}
  {publicJwk : JsonWebKey}

theorem truthy_some {text : String} (h : text ≠ "") : truthy (some text) = some text := by
  simp [truthy, Option.filter, h]

theorem clientIp_ne (h : clientIpFrom req = some clientIp) : clientIp ≠ "" := by
  exact by simpa using (Option.filter_eq_some_iff.mp h).2

/-- The signature headers arrive as they were set. -/
theorem readSignatureHeaders_received (text : String) (received : HttpRequest)
    (hsigns : platform.Signs ingress.signingIdentity publicJwk ts)
    (harrives : Arrives ingress.signingIdentity runtime now meshIp nonce ts)
    (hclient : clientIp ≠ "")
    (hheaders : received.headers = passedHeaders ("host" :: ingressHopByHop) req ++
      [("x-privos-target-node", meshIp), ("x-privos-nonce", nonce),
        ("x-privos-ts", platform.numberText ts), ("x-privos-kid", ingress.signingIdentity.kid),
        ("x-privos-client-ip", clientIp), ("x-privos-sig", ingress.signingIdentity.sign text)]) :
    readSignatureHeaders platform received =
      some ⟨meshIp, nonce, ts, ingress.signingIdentity.kid, clientIp,
        ingress.signingIdentity.sign text⟩ := by
  have hheader (name : String) (hname : name ∈ edgeSignatureHeaders) :
      received.header name = List.lookup name
        [("x-privos-target-node", meshIp), ("x-privos-nonce", nonce),
          ("x-privos-ts", platform.numberText ts), ("x-privos-kid", ingress.signingIdentity.kid),
          ("x-privos-client-ip", clientIp), ("x-privos-sig", ingress.signingIdentity.sign text)] := by
    unfold HttpRequest.header
    rw [hheaders, lookup_passedHeaders hname]
  unfold readSignatureHeaders
  rw [hheader "x-privos-target-node" (by decide), hheader "x-privos-nonce" (by decide),
    hheader "x-privos-ts" (by decide), hheader "x-privos-kid" (by decide),
    hheader "x-privos-client-ip" (by decide), hheader "x-privos-sig" (by decide)]
  simp [lookup_cons, truthy_some harrives.meshIp_ne, truthy_some harrives.nonce_ne,
    truthy_some harrives.kid_ne, truthy_some hclient, truthy_some hsigns.numberText,
    truthy_some (hsigns.sign text), hsigns.number]

end Hop

namespace Sample

/-- Signatures count under the one key only. -/
def keyedPlatform : Platform :=
  { datedPlatform with
    verify := fun text signature key ↦ key = jwk && signature = jwk.x ++ ":" ++ text }

def publicRequest (target : String) : HttpRequest :=
  { method := some "GET", url := some target, host := some "notes.apps.test",
    headers := [("cf-connecting-ip", "192.0.2.1")] }

def sentRequest (target : String) : HttpRequest :=
  forwardedRequest (ingressListener sharedNode) keyedPlatform (publicRequest target) "192.0.2.1"
    ("nonce", (date : Time)) "10.88.0.3"

theorem sends (target : String) (h : pathOnly target ∉ ["/_privos/ingress-id", "/healthz"]) :
    (ingressListener sharedNode).Sends (publicRequest target) 0 "10.88.0.3" "192.0.2.1" where
  notOwnPath := h
  rule := by
    have hhost : (publicRequest target).host = some "notes.apps.test" := rfl
    rw [hhost]
    exact ⟨⟨"notes.apps.test", "notes", "acme", ["10.88.0.3"], false⟩, by decide⟩
  clientIp := by
    have hheader : (publicRequest target).header "cf-connecting-ip" = some "192.0.2.1" := rfl
    unfold clientIpFrom
    rw [hheader]
    decide

theorem signs : keyedPlatform.Signs (ingressListener sharedNode).signingIdentity jwk (date : Time) where
  number := by decide
  numberText := by decide
  sign text h := by
    have hlist := congrArg String.toList h
    simp [ingressListener, jwk] at hlist
  verify text signed key := by
    have hsign : (ingressListener sharedNode).signingIdentity.sign signed = jwk.x ++ ":" ++ signed :=
      rfl
    simp only [keyedPlatform, hsign, Bool.and_eq_true, decide_eq_true_eq]
    rw [String.append_right_inj, eq_comm (a := signed)]

theorem arrives : Arrives (ingressListener sharedNode).signingIdentity (servingListener .mcpV3)
    (date : Time) "10.88.0.3" "nonce" (date : Time) where
  node := rfl
  meshIp_ne := by decide
  kid_ne := by decide
  nonce_ne := by decide
  skew := by
    decide +kernel
  fresh := by decide

end Sample

end PrivosCluster.Routing
