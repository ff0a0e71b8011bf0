import PrivosCluster.Master.RuntimeInventory
import PrivosCluster.Tunnel.Frames

/-!
# The tunnel client

One object outlives all connections to the Hub. What happens to it is the opening and closing of
connections, the messages that arrive, and the end of what a message has begun: a request that is
injected, a forward, a file that is put into the artifact store.
-/

namespace PrivosCluster.Tunnel

open Option

/-! ## What the client holds -/

/-- The files of the state directory. -/
structure StateFiles where
  credential : Option String := none
  clusterId : Option String := none
  pairToken : Option String := none

structure TunnelClientOptions where
  clusterId : String
  version : String
  stateDir : String
  operatorRoutes : Bool
  artifactStaging : Bool
  concurrencyLimit : Nat
  platform : Platform

/-- A stream of chunks; the rolling hash is that of the bytes written so far. -/
structure StageSession where
  tempPath : String
  written : List UInt8

structure StagedArtifact where
  path : String
  sha256 : String
  sizeBytes : Nat

structure TunnelClient where
  /-- `this.socket`, by the number of its connection. -/
  socket : Option Nat := none
  stopped : Bool := false
  inFlight : Nat := 0
  pendingChunk : Option ReqChunkFrame := none
  stageSessions : String → Option StageSession := fun _ ↦ none
  pendingStageReplies : String → Option String := fun _ ↦ none

/-! ## What surrounds it -/

inductive ReadyState where
  | connecting
  | open
  | closing
deriving DecidableEq

/-- A message: the connection it arrived on, and how many had arrived on it before. -/
structure Arrival where
  connection : Nat
  number : Nat
deriving DecidableEq

/-- What a message has begun and is not finished. -/
inductive Work where
  | inject (frame : ReqFrame)
  | forward (frame : ForwardFrame)
  | store (id : String) (announced : Option String) (artifact : StagedArtifact)

structure TunnelState where
  client : TunnelClient := {}
  /-- The connection that has not closed yet. -/
  connection : Option (Nat × ReadyState) := none
  connections : Nat := 0
  arrived : Nat := 0
  work : List (Arrival × Work) := []
  files : StateFiles := {}

/-- A message of a socket. -/
inductive Data where
  | buffer (bytes : List UInt8)
  | string (text : String)

structure Injected where
  statusCode : Nat
  body : String

structure ForwardResponse where
  status : Nat
  headers : Option Headers := none
  body : Option Json := none
  raw : Option Bool := none
  rawBody : Option String := none
  error : Option ErrorBody := none

structure InjectOptions where
  method : String
  url : String
  headers : Option Headers
  payload : Option Json

inductive Event where
  | connect
  /-- The socket opens; so far this identity of the node has been loaded. -/
  | opened (nodeIdentity : Option NodeIdentitySummary)
  /-- A message arrives; `disk` tells whether writing to the disk succeeds. -/
  | message (data : Data) (isBinary disk : Bool)
  | closed (code : Nat)
  | injected (arrival : Arrival) (result : Except Unit Injected)
  | forwarded (arrival : Arrival) (result : Except Unit ForwardResponse)
  | stored (arrival : Arrival) (result : Except String Unit)
  /-- A pair token is dropped into the state directory. -/
  | tokenWritten (token : String)
  | stop

/-- What the client does. -/
inductive Output where
  /-- A frame is sent; a reply tells what it answers. -/
  | send (connection : Nat) (frame : Frame) (inReplyTo : Option Arrival)
  | inject (arrival : Arrival) (options : InjectOptions)
  | forward (arrival : Arrival) (frame : ForwardFrame)
  | store (arrival : Arrival) (artifact : StagedArtifact)
  | close (connection code : Nat)

/-! ## Small parts -/

/-- A text without the white space at its ends, unless it is empty. -/
def trimmed (platform : Platform) (text : Option String) : Option String :=
  (text.map platform.trim).filter (· ≠ "")

def resolveClusterId (options : TunnelClientOptions) (files : StateFiles) : String :=
  (trimmed options.platform files.clusterId).getD options.clusterId

/-- A dead credential is deleted, unless a pair token can still be redeemed. -/
def handleRepairRequiredClose (platform : Platform) (files : StateFiles) (code : Nat) : StateFiles :=
  if (trimmed platform files.pairToken).isSome then files
  else if code = 4401 ∨ code = 4403 then { files with credential := none }
  else files

def Data.text (platform : Platform) : Data → String
  | .buffer bytes => (String.fromUTF8? ⟨bytes.toArray⟩).getD (platform.replaceInvalid bytes)
  | .string text => text

def Data.payload : Data → List UInt8
  | .buffer bytes => bytes
  | .string text => text.toUTF8.toList

/-- `/^\/api\/v1\/v3\/local-artifacts\/(sha256:[0-9a-f]{64})$/` on the path before its query. -/
def stageControlDigest (platform : Platform) (frame : ReqFrame) : Option String :=
  if frame.raw = some true ∨ platform.toUpperCase frame.method ≠ "PUT" then none
  else
    let path := frame.path.toList.takeWhile (· ≠ '?')
    let base := "/api/v1/v3/local-artifacts/".toList
    let digest := String.ofList (path.drop base.length)
    if path.take base.length = base ∧ Schema.isDigest digest then some digest else none

def stageTempPath (options : TunnelClientOptions) (id : String) : String :=
  options.stateDir ++ "/staging/" ++ options.platform.sha256Hex id.toUTF8.toList ++ ".part"

def injectOptions (platform : Platform) (frame : ReqFrame) : InjectOptions where
  method := platform.toUpperCase frame.method
  url := frame.path ++ (frame.query.map fun query ↦ "?" ++ platform.searchParams query).getD ""
  headers := frame.headers
  payload := if frame.raw = some true then frame.rawBody.map .str else frame.body

/-! ## The replies -/

def tooManyRequests (id : String) : ResFrame where
  id := id
  status := 429
  error := some ⟨"too_many_requests", "tunnel concurrency limit exceeded"⟩

def internalError (id : String) : ResFrame where
  id := id
  status := 500
  body := some (.obj [("error", .str "internal_error")])

/-- The reply to a request; a body that is no JSON goes raw. -/
def reqReply (platform : Platform) (frame : ReqFrame) : Except Unit Injected → ResFrame
  | .error _ => internalError frame.id
  | .ok injected =>
    let res : ResFrame := { id := frame.id, status := injected.statusCode }
    if injected.body = "" then res
    else if frame.raw = some true then { res with raw := some true, rawBody := some injected.body }
    else
      match Json.parse platform.number injected.body with
      | some body => { res with body := some body }
      | none => { res with raw := some true, rawBody := some injected.body }

def forwardReply (frame : ForwardFrame) : Except Unit ForwardResponse → ResFrame
  | .error _ => internalError frame.id
  | .ok result =>
    let res : ResFrame :=
      { id := frame.id, status := result.status, headers := result.headers, error := result.error }
    if result.raw = some true then { res with raw := some true, rawBody := result.rawBody }
    else { res with body := result.body }

def stageReply (id : String) (artifact : StagedArtifact) :
    Except String Unit → ResFrame
  | .ok _ =>
    { id := id, status := 200, body := some (.obj [("digest", .str artifact.sha256),
        ("size_bytes", .num artifact.sizeBytes)]) }
  | .error message =>
    { id := id, status := 409, body := some (.obj [("error", .obj
        [("code", .str "ARTIFACT_STAGE_FAILED"), ("message", .str message)])]) }

/-! ## What the client does -/

section

variable (options : TunnelClientOptions)

/-- The current socket, when it is open. -/
def TunnelState.openSocket (s : TunnelState) : Option Nat :=
  s.client.socket.filter fun socket ↦ s.connection = some (socket, .open)

/-- A frame goes out on the current socket when that is open, and when the frame is not too long. -/
def sendFrame (s : TunnelState) (frame : Frame) (inReplyTo : Option Arrival) : List Output :=
  match s.openSocket with
  | some socket =>
    match encodeFrame options.platform frame with
    | some _ => [.send socket frame inReplyTo]
    | none => []
  | none => []

/-- `this.socket?.close(code)`, which does nothing to a socket that is being closed. -/
def closeSocket (s : TunnelState) (code : Nat) : TunnelState × List Output :=
  match s.client.socket with
  | some socket =>
    if s.connection = some (socket, .closing) then (s, [])
    else ({ s with connection := some (socket, .closing) }, [.close socket code])
  | none => (s, [])

def begin (s : TunnelState) (arrival : Arrival) (work : Work) : TunnelState :=
  { s with work := s.work ++ [(arrival, work)] }

def handleReq (s : TunnelState) (arrival : Arrival) (frame : ReqFrame) :
    TunnelState × List Output :=
  match stageControlDigest options.platform frame with
  | some digest =>
    ({ s with client := { s.client with
        pendingStageReplies :=
          Function.update s.client.pendingStageReplies frame.id (some digest) } }, [])
  | none =>
    if options.concurrencyLimit ≤ s.client.inFlight then
      (s, sendFrame options s (.res (tooManyRequests frame.id)) (some arrival))
    else
      (begin { s with client := { s.client with inFlight := s.client.inFlight + 1 } } arrival
          (.inject frame),
        [.inject arrival (injectOptions options.platform frame)])

/-- The first part of `finalizeStage`, up to the call of the artifact store. -/
def finalizeStage (s : TunnelState) (arrival : Arrival) (id : String) (artifact : StagedArtifact) :
    TunnelState × List Output :=
  let announced := s.client.pendingStageReplies id
  let s := { s with client := { s.client with
    pendingStageReplies := Function.update s.client.pendingStageReplies id none } }
  match announced with
  | some digest =>
    if digest = artifact.sha256 then
      (begin s arrival (.store id announced artifact), [.store arrival artifact])
    else
      (s, sendFrame options s (.res (stageReply id artifact (.error ("streamed bytes hash to " ++
        artifact.sha256 ++ ", not the announced " ++ digest)))) (some arrival))
  | none => (begin s arrival (.store id announced artifact), [.store arrival artifact])

def setSession (s : TunnelState) (id : String) (session : Option StageSession) : TunnelState :=
  { s with client := { s.client with
    stageSessions := Function.update s.client.stageSessions id session } }

/-- The payload of a chunk is written, unless it breaks a cap or the disk fails. -/
def finishChunk (s : TunnelState) (arrival : Arrival) (control : ReqChunkFrame)
    (payload : List UInt8) (disk : Bool) : TunnelState × List Output :=
  let session := (s.client.stageSessions control.id).getD
    ⟨stageTempPath options control.id, []⟩
  let written := session.written ++ payload
  if (payload.length : Rat) ≠ control.byteLength ∨ MAX_CHUNK_BYTES < payload.length ∨
      MAX_STAGED_ARTIFACT_BYTES < written.length ∨ disk = false then
    closeSocket (setSession s control.id none) 4413
  else if control.last then
    finalizeStage options (setSession s control.id none) arrival control.id
      { path := session.tempPath
        sha256 := "sha256:" ++ options.platform.sha256Hex written
        sizeBytes := written.length }
  else (setSession s control.id (some { session with written }), [])

def handlePaired (s : TunnelState) (frame : PairedFrame) : TunnelState :=
  { s with files := ⟨some frame.credential, some frame.clusterId, none⟩ }

/-- A text frame, after the question whether it is the payload of a chunk. -/
def handleFrame (s : TunnelState) (arrival : Arrival) : Option Frame → TunnelState × List Output
  | none => closeSocket s 4400
  | some (.paired frame) => (handlePaired s frame, [])
  | some (.ping time) => (s, sendFrame options s (.pong time) none)
  | some (.req frame) => handleReq options s arrival frame
  | some (.reqChunk frame) => ({ s with client := { s.client with pendingChunk := some frame } }, [])
  | some (.forward frame) => (begin s arrival (.forward frame), [.forward arrival frame])
  | some (.hello _) | some (.res _) | some (.pong _) => (s, [])

def handleMessage (s : TunnelState) (arrival : Arrival) (data : Data) (isBinary disk : Bool) :
    TunnelState × List Output :=
  match s.client.pendingChunk with
  | some control =>
    finishChunk options { s with client := { s.client with pendingChunk := none } } arrival control
      data.payload disk
  | none =>
    if isBinary then (s, [])
    else handleFrame options s arrival (decodeFrame options.platform (data.text options.platform))

/-- `cleanupAllStageSessions` -/
def cleanupAllStageSessions (client : TunnelClient) : TunnelClient :=
  { client with stageSessions := fun _ ↦ none, pendingStageReplies := fun _ ↦ none }

def helloFrame (s : TunnelState) (nodeIdentity : Option NodeIdentitySummary) : Frame :=
  .hello
    { version := options.version
      clusterId := resolveClusterId options s.files
      operatorRoutes := options.operatorRoutes
      artifactStaging := options.artifactStaging
      nodeIdentity }

/-- The work that a message has begun. -/
def TunnelState.workOf (s : TunnelState) (arrival : Arrival) : Option Work := s.work.lookup arrival

/-- The work is done. -/
def TunnelState.finish (s : TunnelState) (arrival : Arrival) : TunnelState :=
  { s with work := s.work.filter (·.1 ≠ arrival) }

/-- What can happen, and what the client does then. -/
def step (s : TunnelState) : Event → Option (TunnelState × List Output)
  | .connect =>
    if s.connection.isNone ∧ s.client.stopped = false then
      some ({ s with
        client := { s.client with socket := some s.connections }
        connection := some (s.connections, .connecting)
        connections := s.connections + 1
        arrived := 0 }, [])
    else none
  | .opened nodeIdentity =>
    match s.connection with
    | some (connection, .connecting) =>
      let s := { s with connection := some (connection, .open) }
      some (s, sendFrame options s (helloFrame options s nodeIdentity) none)
    | _ => none
  | .message data isBinary disk =>
    match s.connection with
    | some (_, .connecting) | none => none
    | some (connection, _) =>
      some (handleMessage options { s with arrived := s.arrived + 1 } ⟨connection, s.arrived⟩ data
        isBinary disk)
  | .closed code =>
    match s.connection with
    | none => none
    | some _ =>
      some ({ s with
        client := { cleanupAllStageSessions s.client with socket := none }
        connection := none
        files := handleRepairRequiredClose options.platform s.files code }, [])
  | .injected arrival result =>
    match s.workOf arrival with
    | some (.inject frame) =>
      let reply := .res (reqReply options.platform frame result)
      some ({ s.finish arrival with
          client := { s.client with inFlight := s.client.inFlight - 1 } },
        sendFrame options s reply (some arrival))
    | _ => none
  | .forwarded arrival result =>
    match s.workOf arrival with
    | some (.forward frame) =>
      some (s.finish arrival, sendFrame options s (.res (forwardReply frame result)) (some arrival))
    | _ => none
  | .stored arrival result =>
    match s.workOf arrival with
    | some (.store id announced artifact) =>
      some (s.finish arrival,
        if announced.isSome then
          sendFrame options s (.res (stageReply id artifact result)) (some arrival)
        else [])
    | _ => none
  | .tokenWritten token => some ({ s with files := { s.files with pairToken := some token } }, [])
  | .stop =>
    if s.client.stopped then some (s, [])
    else
      let closed := closeSocket s 1000
      some ({ closed.1 with
        client := { cleanupAllStageSessions s.client with stopped := true, socket := none } },
        closed.2)

end

/-- The steps, each with the condition under which it happens. -/
inductive Transition (options : TunnelClientOptions) (s : TunnelState) :
    Event → TunnelState → List Output → Prop
  | connect (idle : s.connection = none) (running : s.client.stopped = false) :
    Transition options s .connect
      { s with
        client := { s.client with socket := some s.connections }
        connection := some (s.connections, .connecting)
        connections := s.connections + 1
        arrived := 0 } []
  | opened {n : Nat} (nodeIdentity : Option NodeIdentitySummary)
      (connecting : s.connection = some (n, .connecting)) :
    Transition options s (.opened nodeIdentity) { s with connection := some (n, .open) }
      (sendFrame options { s with connection := some (n, .open) }
        (helloFrame options { s with connection := some (n, .open) } nodeIdentity) none)
  | message {n : Nat} {state : ReadyState} (data : Data) (isBinary disk : Bool)
      (connected : s.connection = some (n, state)) (ready : state ≠ .connecting) :
    Transition options s (.message data isBinary disk)
      (handleMessage options { s with arrived := s.arrived + 1 } ⟨n, s.arrived⟩ data isBinary disk).1
      (handleMessage options { s with arrived := s.arrived + 1 } ⟨n, s.arrived⟩ data isBinary disk).2
  | closed {n : Nat} {state : ReadyState} (code : Nat)
      (connected : s.connection = some (n, state)) :
    Transition options s (.closed code)
      { s with
        client := { cleanupAllStageSessions s.client with socket := none }
        connection := none
        files := handleRepairRequiredClose options.platform s.files code } []
  | injected {arrival : Arrival} {frame : ReqFrame} (result : Except Unit Injected)
      (work : s.workOf arrival = some (.inject frame)) :
    Transition options s (.injected arrival result)
      { s.finish arrival with client := { s.client with inFlight := s.client.inFlight - 1 } }
      (sendFrame options s (.res (reqReply options.platform frame result)) (some arrival))
  | forwarded {arrival : Arrival} {frame : ForwardFrame} (result : Except Unit ForwardResponse)
      (work : s.workOf arrival = some (.forward frame)) :
    Transition options s (.forwarded arrival result) (s.finish arrival)
      (sendFrame options s (.res (forwardReply frame result)) (some arrival))
  | stored {arrival : Arrival} {id : String} {announced : Option String}
      {artifact : StagedArtifact} (result : Except String Unit)
      (work : s.workOf arrival = some (.store id announced artifact)) :
    Transition options s (.stored arrival result) (s.finish arrival)
      (if announced.isSome then
        sendFrame options s (.res (stageReply id artifact result)) (some arrival)
      else [])
  | tokenWritten (token : String) :
    Transition options s (.tokenWritten token)
      { s with files := { s.files with pairToken := some token } } []
  | stopped (again : s.client.stopped = true) : Transition options s .stop s []
  | stop (running : s.client.stopped = false) :
    Transition options s .stop
      { (closeSocket s 1000).1 with
        client := { cleanupAllStageSessions s.client with stopped := true, socket := none } }
      (closeSocket s 1000).2

theorem transition {options : TunnelClientOptions} {s s' : TunnelState} {event : Event}
    {outputs : List Output} (h : step options s event = some (s', outputs)) :
    Transition options s event s' outputs := by
  cases event with
  | connect =>
    simp only [step, Option.ite_none_right_eq_some, Option.some.injEq, Prod.mk.injEq,
      Option.isNone_iff_eq_none] at h
    obtain ⟨⟨hidle, hrunning⟩, rfl, rfl⟩ := h
    exact .connect hidle hrunning
  | opened nodeIdentity =>
    simp only [step] at h
    split at h
    next n hconnecting =>
      obtain ⟨rfl, rfl⟩ := Prod.mk.inj (some.inj h)
      exact .opened nodeIdentity hconnecting
    · cases h
  | message data isBinary disk =>
    simp only [step] at h
    split at h
    · cases h
    · cases h
    next n state hready hconnected =>
      obtain ⟨rfl, rfl⟩ := Prod.mk.inj (some.inj h)
      exact .message data isBinary disk hconnected hready
  | closed code =>
    simp only [step] at h
    split at h
    · cases h
    next connection hconnected =>
      obtain ⟨rfl, rfl⟩ := Prod.mk.inj (some.inj h)
      exact .closed code hconnected
  | injected arrival result =>
    simp only [step] at h
    split at h
    next frame hwork =>
      obtain ⟨rfl, rfl⟩ := Prod.mk.inj (some.inj h)
      exact .injected result hwork
    · cases h
  | forwarded arrival result =>
    simp only [step] at h
    split at h
    next frame hwork =>
      obtain ⟨rfl, rfl⟩ := Prod.mk.inj (some.inj h)
      exact .forwarded result hwork
    · cases h
  | stored arrival result =>
    simp only [step] at h
    split at h
    next id announced artifact hwork =>
      obtain ⟨rfl, rfl⟩ := Prod.mk.inj (some.inj h)
      exact .stored result hwork
    · cases h
  | tokenWritten token =>
    obtain ⟨rfl, rfl⟩ := Prod.mk.inj (some.inj h)
    exact .tokenWritten token
  | stop =>
    simp only [step] at h
    split at h
    next hagain =>
      obtain ⟨rfl, rfl⟩ := Prod.mk.inj (some.inj h)
      exact .stopped hagain
    next hrunning =>
      obtain ⟨rfl, rfl⟩ := Prod.mk.inj (some.inj h)
      exact .stop (Bool.eq_false_of_not_eq_true hrunning)

/-- A run of the client: every event with what the client did. -/
inductive Run (options : TunnelClientOptions) (s : TunnelState) :
    List (Event × List Output) → TunnelState → Prop where
  | start : Run options s [] s
  | step {steps : List (Event × List Output)} {s' s'' : TunnelState} {event : Event}
      {outputs : List Output} (earlier : Run options s steps s')
      (happens : step options s' event = some (s'', outputs)) :
      Run options s (steps ++ [(event, outputs)]) s''

end PrivosCluster.Tunnel
