import PrivosCluster.Routing.HostTables

/-!
# The ingress and the runtime listener

An ingress node looks a public host up in its rules, signs the request and forwards it over the
mesh. A runtime node verifies the signature, looks the host up in its own table and hands the
request to the container that the labels name. Header names are in lower case and header values
are Latin-1 texts.
-/

namespace PrivosCluster.Routing

/-! ## Texts -/

/-- The white space that `trim` strips. -/
def isWhiteSpace (c : Char) : Bool :=
  (9 ≤ c.toNat && c.toNat ≤ 13) || c.toNat = 0x20 || c.toNat = 0xA0 || c.toNat = 0x1680 ||
    (0x2000 ≤ c.toNat && c.toNat ≤ 0x200A) || c.toNat = 0x2028 || c.toNat = 0x2029 ||
    c.toNat = 0x202F || c.toNat = 0x205F || c.toNat = 0x3000 || c.toNat = 0xFEFF

def trim (s : List Char) : List Char :=
  ((s.dropWhile isWhiteSpace).reverse.dropWhile isWhiteSpace).reverse

/-- `toLowerCase` on a Latin-1 character. -/
def lowerChar (c : Char) : Char :=
  if 0x41 ≤ c.toNat ∧ c.toNat ≤ 0x5A ∨ 0xC0 ≤ c.toNat ∧ c.toNat ≤ 0xDE ∧ c.toNat ≠ 0xD7 then
    Char.ofNat (c.toNat + 32)
  else c

def toLowerCase (s : String) : String := String.ofList (s.toList.map lowerChar)

/-- `replace(/\.$/, '')`. -/
def dropFinalDot (s : List Char) : List Char := if s.getLast? = some '.' then s.dropLast else s

def hostOnly (rawHost : Option String) : String :=
  String.ofList (dropFinalDot
    ((trim ((rawHost.getD "").toList.takeWhile (· ≠ ':'))).map lowerChar))

/-! ## Requests -/

/-- A request as a listener receives it; `headers` are those other than `host`. -/
structure HttpRequest where
  method : Option String := none
  url : Option String := none
  host : Option String := none
  headers : List (String × String) := []
deriving DecidableEq

def HttpRequest.header (req : HttpRequest) (name : String) : Option String := req.headers.lookup name

structure UpstreamResponse where
  status : Nat
  headers : List (String × String) := []
deriving DecidableEq

structure SignedRequestFields where
  /-- The mesh address of the runtime node that the request is signed for. -/
  targetNodeId : String
  nonce : String
  ts : Rat
  method : String
  host : String
  requestTarget : String
  clientIp : String

structure ParsedUrl where
  host : String
  pathname : String
  search : String

/-- What the listeners use of the platform: number texts, the `URL` parser on a placeholder origin,
and Ed25519 verification under a public key. -/
structure Platform where
  number : String → Option Rat
  numberText : Rat → String
  parseUrl : String → Option ParsedUrl
  verify : String → String → JsonWebKey → Bool

def canonicalSigningString (platform : Platform) (fields : SignedRequestFields) : String :=
  "\n".intercalate [fields.targetNodeId, fields.nonce, platform.numberText fields.ts,
    fields.method.toUpper, fields.host, fields.requestTarget, fields.clientIp]

def verifyRequest (platform : Platform) (fields : SignedRequestFields) (signature : String)
    (publicJwk : JsonWebKey) : Bool :=
  platform.verify (canonicalSigningString platform fields) signature publicJwk

def edgeSignatureHeaders : List String :=
  ["x-privos-target-node", "x-privos-nonce", "x-privos-ts", "x-privos-kid", "x-privos-client-ip",
    "x-privos-sig"]

/-- The headers that a hop passes on: none that belongs to the hop, and no forwarding or edge
signature header of the sender. -/
def passedHeaders (hopByHop : List String) (req : HttpRequest) : List (String × String) :=
  req.headers.filter fun header ↦
    !hopByHop.contains header.1 && !("x-forwarded-".toList.isPrefixOf header.1.toList) &&
      !edgeSignatureHeaders.contains header.1

/-! ## The ingress listener -/

structure SigningIdentity where
  kid : String
  sign : String → String

structure IngressListener where
  nodeId : String
  selfMeshIp : Option String
  signingIdentity : SigningIdentity
  tables : HostTables

inductive Reply where
  | plain (status : Nat) (body : String)
  | json (status : Nat) (error : String)
  /-- The reply marked with `x-privos-error`, on which an ingress node tries another replica. -/
  | unknownHost
  | relayed (response : UpstreamResponse)
  | forwarded (containerId : String) (url : String) (request : HttpRequest)
deriving DecidableEq

def ingressHopByHop : List String :=
  ["connection", "keep-alive", "proxy-authenticate", "proxy-authorization", "te", "trailer",
    "transfer-encoding", "upgrade"]

/-- `CF-Connecting-IP` only. -/
def clientIpFrom (req : HttpRequest) : Option String :=
  truthy ((req.header "cf-connecting-ip").map fun value ↦ String.ofList (trim value.toList))

/-- This node's own address comes first when it is one of the rule's. -/
def pickNodeOrder (rule : IngressRule) (selfMeshIp : Option String) : List String :=
  match truthy selfMeshIp with
  | none => rule.nodes
  | some self => rule.nodes.filter (· = self) ++ rule.nodes.filter (· ≠ self)

/-- A nonce and a time for each attempt. -/
abbrev Stamps := Nat → String × Rat

def signedRequest (listener : IngressListener) (platform : Platform) (req : HttpRequest)
    (meshIp host clientIp : String) (stamp : String × Rat) : HttpRequest :=
  let fields : SignedRequestFields :=
    { targetNodeId := meshIp, nonce := stamp.1, ts := stamp.2, method := req.method.getD "GET",
      host, requestTarget := req.url.getD "/", clientIp }
  { method := some (req.method.getD "GET"),
    url := some (req.url.getD "/"),
    host := some host,
    headers := passedHeaders ("host" :: ingressHopByHop) req ++
      [("x-privos-target-node", meshIp), ("x-privos-nonce", stamp.1),
        ("x-privos-ts", platform.numberText stamp.2), ("x-privos-kid", listener.signingIdentity.kid),
        ("x-privos-client-ip", clientIp),
        ("x-privos-sig",
          listener.signingIdentity.sign (canonicalSigningString platform fields))] }

/-- The request that the listener sends to a replica: the `Host` header goes on as it came. -/
def forwardedRequest (listener : IngressListener) (platform : Platform) (req : HttpRequest)
    (clientIp : String) (stamp : String × Rat) (meshIp : String) : HttpRequest :=
  signedRequest listener platform req meshIp (req.host.getD (hostOnly req.host)) clientIp stamp

def isUnknownHost (response : UpstreamResponse) : Bool :=
  response.status = 404 && response.headers.lookup "x-privos-error" = some "unknown-host"

/-- The attempts in order. A streamed body is sent once, so a request with a body has one attempt. -/
def attemptEach (send : String → HttpRequest → Option UpstreamResponse)
    (forward : Nat → String → HttpRequest) (hasBody : Bool) : List String → Nat → Reply → Reply
  | [], _, lastError => lastError
  | meshIp :: rest, attempt, _ =>
    match send meshIp (forward attempt meshIp) with
    | some response =>
      if isUnknownHost response then
        if hasBody then .plain 404 "404 Not Found"
        else attemptEach send forward hasBody rest (attempt + 1) (.plain 404 "404 Not Found")
      else .relayed { response with
        headers := response.headers.filter fun header ↦ !ingressHopByHop.contains header.1 }
    | none =>
      if hasBody then .plain 502 "502 Bad Gateway"
      else attemptEach send forward hasBody rest (attempt + 1) (.plain 502 "502 Bad Gateway")

/-- The rule the listener finds for a `Host` header. -/
def IngressListener.findRule (listener : IngressListener) (rawHost : Option String) :
    Option IngressRule :=
  if hostOnly rawHost = "" then none else listener.tables.findIngressRuleByHost (hostOnly rawHost)

def pathOnly (url : String) : String := String.ofList (url.toList.takeWhile (· ≠ '?'))

def IngressListener.handleRequest (listener : IngressListener) (platform : Platform)
    (send : String → HttpRequest → Option UpstreamResponse) (stamps : Stamps) (stale : Bool)
    (req : HttpRequest) : Reply :=
  let url := req.url.getD "/"
  if pathOnly url = "/_privos/ingress-id" then .plain 200 listener.nodeId
  else if pathOnly url = "/healthz" then
    if stale then .plain 503 "503 stale" else .plain 200 "ok"
  else match listener.findRule req.host with
  | none => .plain 404 "404 Not Found"
  | some rule =>
    if rule.suspended then .plain 503 "503 Service Unavailable — workspace suspended"
    else match clientIpFrom req with
    | none => .plain 400 "400 Bad Request"
    | some clientIp =>
      let method := req.method.getD "GET"
      attemptEach send
        (fun attempt ↦ forwardedRequest listener platform req clientIp (stamps attempt))
        (method ≠ "GET" && method ≠ "HEAD") (pickNodeOrder rule listener.selfMeshIp) 0
        (.plain 502 "502 Bad Gateway")

/-! ## The containers of a runtime node -/

/-- An entry of `docker ps`, its networks with their addresses. -/
structure DockerContainer where
  dockerId : String
  labels : List (String × String)
  status : String
  created : Int
  networks : List (String × String)

def mapState (status : String) : ContainerState :=
  if status = "running" ∨ status = "restarting" then .running
  else if status = "created" then .created
  else if status = "exited" ∨ status = "dead" ∨ status = "removing" ∨ status = "paused" then .stopped
  else .error

def DockerContainer.label (entry : DockerContainer) (name : String) : Option String :=
  entry.labels.lookup name

def DockerContainer.state (entry : DockerContainer) : ContainerState := mapState entry.status

/-- The id of the API view: the label, or else the id that Docker gave. -/
def DockerContainer.id (entry : DockerContainer) : String :=
  (truthy (entry.label "privos.id")).getD entry.dockerId

/-- `parseInt` of the port label, or 0. -/
def DockerContainer.port (entry : DockerContainer) : Nat :=
  (((entry.label "privos.port").getD "0").toList.takeWhile Char.isDigit).foldl
    (fun n c ↦ 10 * n + (c.toNat - '0'.toNat)) 0

def isMoreActive (a b : DockerContainer) : Bool :=
  if decide (a.state = .running) ≠ decide (b.state = .running) then a.state = .running
  else b.created < a.created

/-- One step of the `Map` that keeps the best entry of every id, in the order of first insertion. -/
def keepActive (best : List DockerContainer) (entry : DockerContainer) : List DockerContainer :=
  if best.any fun other ↦ other.id = entry.id then
    best.map fun other ↦
      if other.id = entry.id ∧ isMoreActive entry other then entry else other
  else best ++ [entry]

def pickActivePerId (entries : List DockerContainer) : List DockerContainer :=
  entries.foldl keepActive []

/-- The label filter of `findByAppId`. -/
def hasAppLabels (appId workspaceId : String) (entry : DockerContainer) : Bool :=
  entry.label "privos.managed" = some "true" && entry.label "privos.app-id" = some appId &&
    entry.label "privos.workspace" = some workspaceId &&
    entry.label "privos.mcp.schema" = some "3"

def findByAppId (entries : List DockerContainer) (appId workspaceId : String) :
    Option DockerContainer :=
  (pickActivePerId (entries.filter (hasAppLabels appId workspaceId))).head?

/-- The address on the workspace's own network, or else on the first network. -/
def getContainerIp (entry : DockerContainer) : Option String :=
  match (entry.networks.find? fun network ↦ "privos-ws-".toList.isPrefixOf network.1.toList).bind
      fun network ↦ truthy (some network.2) with
  | some ip => some ip
  | none => entry.networks.head?.bind fun network ↦ truthy (some network.2)

/-- The labels a deploy gives to the container of a replica, as far as the listeners read them. -/
def deployedLabels (app : MasterApp) (replica : AppReplica) : List (String × String) :=
  [("privos.managed", "true"), ("privos.id", replica.containerId), ("privos.app-id", app.appId),
    ("privos.workspace", app.workspaceId), ("privos.port", toString app.port)] ++
  match app.kind with
  | some .mcpV2 => [("privos.mcp.schema", "2")]
  | some .mcpV3 => [("privos.mcp.schema", "3")]
  | _ => []

/-! ## Paths -/

structure CanonicalPath where
  pathname : String
  search : String

def hasInfix (pattern s : List Char) : Bool := s.tails.any pattern.isPrefixOf

def canonicalizePath (platform : Platform) (rawTarget : String) : Option CanonicalPath :=
  let rawPath := rawTarget.toList.takeWhile fun c ↦ c ≠ '?' && c ≠ '#'
  let lower := rawPath.map Char.toLower
  if hasInfix "%2f".toList lower || hasInfix "%5c".toList lower then none
  else if !("/".toList.isPrefixOf rawPath) || hasInfix "//".toList rawPath then none
  else if (rawPath.splitOn '/').any fun segment ↦ segment = ['.'] || segment = ['.', '.'] then none
  else match platform.parseUrl rawTarget with
  | none => none
  | some url =>
    if url.host ≠ "placeholder.invalid" then none
    else if !("/".toList.isPrefixOf url.pathname.toList) || hasInfix "//".toList url.pathname.toList
      then none
    else some { pathname := url.pathname, search := url.search }

def prefixMatches (start pathname : List Char) : Bool :=
  start = ['/'] || start = pathname ||
    (if start.getLast? = some '/' then start else start ++ ['/']).isPrefixOf pathname

/-- The matching route with the longest prefix; of two equally long ones the first. -/
def matchLongestPrefix {α : Type} (pathname : String) (routes : List (String × α)) : Option α :=
  ((routes.filter fun route ↦ prefixMatches route.1.toList pathname.toList).foldl
    (fun best route ↦ match best with
      | none => some route
      | some current => if current.1.length < route.1.length then some route else some current)
    none).map Prod.snd

def mcpPaths : List String :=
  ["/mcp", "/bootstrap", "/identity", "/.well-known/privos/bootstrap",
    "/.well-known/privos/identity", "/api/v1/mcp-workload"]

/-- `BLOCKED_MCP_PATH`: one of these paths, as a whole or followed by a slash, in any case. -/
def isBlockedMcpPath (pathname : String) : Bool :=
  let lower := pathname.toList.map Char.toLower
  mcpPaths.any fun path ↦ path.toList = lower || (path.toList ++ ['/']).isPrefixOf lower

/-! ## The runtime listener -/

/-- The nonces seen and when they expire. -/
abbrev ReplayCache := List (String × Int)

def ReplayCache.ttlMs : Int := 60000

def ReplayCache.checkAndRemember (cache : ReplayCache) (nonce : String) (now : Time) :
    Bool × ReplayCache :=
  let live := cache.filter fun seen ↦ now < seen.2
  if live.any fun seen ↦ seen.1 = nonce then (false, live)
  else (true, live ++ [(nonce, now + ReplayCache.ttlMs)])

structure RuntimeListener where
  selfMeshIp : String
  tables : HostTables
  containers : List DockerContainer
  replayCache : ReplayCache

structure ParsedSignatureHeaders where
  targetNodeId : String
  nonce : String
  ts : Rat
  kid : String
  clientIp : String
  signature : String

def readSignatureHeaders (platform : Platform) (req : HttpRequest) :
    Option ParsedSignatureHeaders := do
  let targetNodeId ← truthy (req.header "x-privos-target-node")
  let nonce ← truthy (req.header "x-privos-nonce")
  let tsRaw ← truthy (req.header "x-privos-ts")
  let kid ← truthy (req.header "x-privos-kid")
  let clientIp ← truthy (req.header "x-privos-client-ip")
  let signature ← truthy (req.header "x-privos-sig")
  let ts ← platform.number tsRaw
  return { targetNodeId, nonce, ts, kid, clientIp, signature }

def signatureTsSkewMs : Rat := 30000

def ParsedSignatureHeaders.fields (parsed : ParsedSignatureHeaders) (req : HttpRequest) :
    SignedRequestFields where
  targetNodeId := parsed.targetNodeId
  nonce := parsed.nonce
  ts := parsed.ts
  method := req.method.getD "GET"
  host := req.host.getD ""
  requestTarget := req.url.getD "/"
  clientIp := parsed.clientIp

/-- The client address, or the status and the code of the refusal; the nonce is remembered last. -/
def RuntimeListener.authenticate (listener : RuntimeListener) (platform : Platform) (now : Time)
    (req : HttpRequest) : Except (Nat × String) String × ReplayCache :=
  match readSignatureHeaders platform req with
  | none => (.error (401, "signature_missing"), listener.replayCache)
  | some parsed =>
    if parsed.targetNodeId ≠ listener.selfMeshIp then
      (.error (403, "wrong_target_node"), listener.replayCache)
    else if signatureTsSkewMs < |(now : Rat) - parsed.ts| then
      (.error (403, "signature_stale"), listener.replayCache)
    else match listener.tables.findSigningKey parsed.kid with
    | none => (.error (401, "signing_key_unknown"), listener.replayCache)
    | some key =>
      if verifyRequest platform (parsed.fields req) parsed.signature key.publicJwk then
        let (fresh, cache) := listener.replayCache.checkAndRemember parsed.nonce now
        if fresh then (.ok parsed.clientIp, cache)
        else (.error (401, "signature_replayed"), cache)
      else (.error (401, "signature_invalid"), listener.replayCache)

inductive ResolveError where
  | unknownHost
  | noRoute
  | upstreamUnavailable
deriving DecidableEq

structure Target where
  url : String
  containerId : String

def RuntimeListener.resolveTarget (listener : RuntimeListener) (host pathname : String) :
    Except ResolveError Target :=
  match listener.tables.findRuntimeAppByHost host with
  | none => .error .unknownHost
  | some app =>
    if (matchLongestPrefix pathname [("/", ())]).isNone then .error .noRoute
    else match findByAppId listener.containers app.appId app.workspaceId with
    | none => .error .upstreamUnavailable
    | some entry =>
      if entry.state ≠ .running then .error .upstreamUnavailable
      else match getContainerIp entry with
      | none => .error .upstreamUnavailable
      | some ip => .ok ⟨"http://" ++ ip ++ ":" ++ toString entry.port, entry.id⟩

def runtimeHopByHop : List String := "host" :: ingressHopByHop

def forwardedHeaders (req : HttpRequest) (clientIp host : String) : List (String × String) :=
  passedHeaders runtimeHopByHop req ++
    [("x-forwarded-for", clientIp), ("x-forwarded-proto", "https"), ("x-forwarded-host", host)]

def RuntimeListener.handleRequest (listener : RuntimeListener) (platform : Platform) (now : Time)
    (req : HttpRequest) : Reply × ReplayCache :=
  let (authenticated, cache) := listener.authenticate platform now req
  match authenticated with
  | .error refusal => (.json refusal.1 refusal.2, cache)
  | .ok clientIp =>
    match canonicalizePath platform (req.url.getD "/") with
    | none => (.plain 400 "400 Bad Request", cache)
    | some canonical =>
      if isBlockedMcpPath canonical.pathname then (.plain 404 "404 Not Found", cache)
      else
        let host := req.host.getD ""
        match listener.resolveTarget host canonical.pathname with
        | .error .unknownHost => (.unknownHost, cache)
        | .error .noRoute => (.plain 404 "404 Not Found", cache)
        | .error .upstreamUnavailable => (.plain 502 "502 Bad Gateway", cache)
        | .ok target =>
          (.forwarded target.containerId (target.url ++ canonical.pathname ++ canonical.search)
            { method := some (req.method.getD "GET"), url := some (canonical.pathname ++ canonical.search),
              host := some host, headers := forwardedHeaders req clientIp host }, cache)

/-! ## Upgrades -/

/-- `connection` and `upgrade` go on to the container, or the handshake could not complete. -/
def upgradeHopByHop : List String :=
  ["keep-alive", "proxy-authenticate", "proxy-authorization", "te", "trailer", "transfer-encoding",
    "host"]

inductive UpgradeReply where
  | rejected (status : Nat) (reason : String)
  /-- The request written to the socket of the container, with which the sockets are joined. -/
  | connected (containerId : String) (url : String) (request : HttpRequest)
deriving DecidableEq

def RuntimeListener.handleUpgrade (listener : RuntimeListener) (platform : Platform) (now : Time)
    (req : HttpRequest) : UpgradeReply × ReplayCache :=
  let (authenticated, cache) := listener.authenticate platform now req
  match authenticated with
  | .error refusal => (.rejected refusal.1 "Forbidden", cache)
  | .ok clientIp =>
    match canonicalizePath platform (req.url.getD "/") with
    | none => (.rejected 400 "Bad Request", cache)
    | some canonical =>
      if isBlockedMcpPath canonical.pathname then (.rejected 404 "Not Found", cache)
      else
        let host := req.host.getD ""
        match listener.resolveTarget host canonical.pathname with
        | .error .upstreamUnavailable => (.rejected 502 "Not Found", cache)
        | .error _ => (.rejected 404 "Not Found", cache)
        | .ok target =>
          (.connected target.containerId target.url
            { method := req.method, url := some (canonical.pathname ++ canonical.search),
              host := some host,
              headers := passedHeaders upgradeHopByHop req ++
                [("x-forwarded-for", clientIp), ("x-forwarded-proto", "https"),
                  ("x-forwarded-host", host)] }, cache)

end PrivosCluster.Routing
