import PrivosCluster.Security.JsonText

/-!
# The frames of the tunnel

A frame is one JSON text of at most a million bytes. What the schema of a frame does not accept,
and what is too long, is no frame; a frame that would be too long is not written.
-/

namespace PrivosCluster.Tunnel

open List

/-- What the language makes of numbers, texts and bytes. -/
structure Platform where
  number : String → Option Rat
  numberText : Rat → String
  toUpperCase : String → String
  trim : String → String
  /-- `Buffer.toString` of bytes that are not UTF-8. -/
  replaceInvalid : List UInt8 → String
  /-- The hexadecimal SHA-256 of some bytes. -/
  sha256Hex : List UInt8 → String
  /-- `URLSearchParams.toString` -/
  searchParams : List (String × String) → String

abbrev Headers := List (String × String)

structure NodeIdentitySummary where
  nodeId : String
  kid : String
  x : String
  y : String
deriving DecidableEq

structure HelloFrame where
  version : String
  clusterId : String
  operatorRoutes : Bool
  artifactStaging : Bool
  nodeIdentity : Option NodeIdentitySummary

structure ReqFrame where
  id : String
  method : String
  path : String
  query : Option Headers
  headers : Option Headers
  body : Option Json
  raw : Option Bool
  rawBody : Option String
  timeoutMs : Rat

structure ReqChunkFrame where
  id : String
  seq : Rat
  byteLength : Rat
  sha256 : Option String
  last : Bool

structure ErrorBody where
  code : String
  message : String
deriving DecidableEq

structure ResFrame where
  id : String
  status : Rat
  headers : Option Headers := none
  body : Option Json := none
  raw : Option Bool := none
  rawBody : Option String := none
  error : Option ErrorBody := none

structure ForwardFrame where
  id : String
  runtimeId : String
  path : String
  headers : Option Headers
  body : Option Json
  timeoutMs : Rat

structure PairedFrame where
  clusterId : String
  credential : String

inductive Frame where
  | hello (frame : HelloFrame)
  | req (frame : ReqFrame)
  | reqChunk (frame : ReqChunkFrame)
  | res (frame : ResFrame)
  | forward (frame : ForwardFrame)
  | ping (time : Rat)
  | pong (time : Rat)
  | paired (frame : PairedFrame)

def MAX_JSON_FRAME_BYTES : Nat := 1000000

def MAX_CHUNK_BYTES : Nat := 1024 * 1024

def MAX_STAGED_ARTIFACT_BYTES : Nat := 250000000

/-! ## Writing -/

/-- A member that is there only when it has a value. -/
def member (key : String) : Option Json → List (String × Json)
  | none => []
  | some value => [(key, value)]

def headersJson (headers : Headers) : Json := .obj (headers.map fun h ↦ (h.1, .str h.2))

def NodeIdentitySummary.json (identity : NodeIdentitySummary) : Json :=
  .obj [("nodeId", .str identity.nodeId), ("kid", .str identity.kid),
    ("publicJwk", .obj [("kty", .str "EC"), ("crv", .str "P-256"), ("x", .str identity.x),
      ("y", .str identity.y)])]

def Frame.json : Frame → Json
  | .hello frame => .obj ([("t", .str "hello"), ("version", .str frame.version),
      ("clusterId", .str frame.clusterId),
      ("clusterCapabilities", .obj [("operatorRoutes", .bool frame.operatorRoutes),
        ("artifactStaging", .bool frame.artifactStaging)])] ++
      member "nodeIdentity" (frame.nodeIdentity.map (·.json)))
  | .req frame => .obj ([("t", .str "req"), ("id", .str frame.id), ("method", .str frame.method),
      ("path", .str frame.path)] ++ member "query" (frame.query.map headersJson) ++
      member "headers" (frame.headers.map headersJson) ++ member "body" frame.body ++
      member "raw" (frame.raw.map .bool) ++ member "rawBody" (frame.rawBody.map .str) ++
      [("timeoutMs", .num frame.timeoutMs)])
  | .reqChunk frame => .obj ([("t", .str "req-chunk"), ("id", .str frame.id), ("seq", .num frame.seq),
      ("byteLength", .num frame.byteLength)] ++ member "sha256" (frame.sha256.map .str) ++
      [("last", .bool frame.last)])
  | .res frame => .obj ([("t", .str "res"), ("id", .str frame.id), ("status", .num frame.status)] ++
      member "headers" (frame.headers.map headersJson) ++ member "body" frame.body ++
      member "raw" (frame.raw.map .bool) ++ member "rawBody" (frame.rawBody.map .str) ++
      member "error" (frame.error.map fun error ↦
        .obj [("code", .str error.code), ("message", .str error.message)]))
  | .forward frame => .obj ([("t", .str "forward"), ("id", .str frame.id),
      ("runtimeId", .str frame.runtimeId), ("path", .str frame.path)] ++
      member "headers" (frame.headers.map headersJson) ++ member "body" frame.body ++
      [("timeoutMs", .num frame.timeoutMs)])
  | .ping time => .obj [("t", .str "ping"), ("at", .num time)]
  | .pong time => .obj [("t", .str "pong"), ("at", .num time)]
  | .paired frame => .obj [("t", .str "paired"), ("clusterId", .str frame.clusterId),
      ("credential", .str frame.credential)]

/-- The text of a frame, unless it is too long. -/
def encodeFrame (platform : Platform) (frame : Frame) : Option String :=
  let json := Json.stringify platform.numberText frame.json
  if MAX_JSON_FRAME_BYTES < json.utf8ByteSize then none else some json

theorem length_le_utf8ByteSize (text : List Char) : text.length ≤ (String.ofList text).utf8ByteSize := by
  induction text with
  | nil => exact Nat.zero_le _
  | cons c text ih =>
    have hc : 0 < c.utf8Size := c.utf8Size_pos
    rw [← singleton_append, String.ofList_append, String.utf8ByteSize_append,
      ← String.singleton_eq_ofList, String.utf8ByteSize_singleton, length_append,
      length_singleton]
    omega

/-- A member makes its object at least as long as itself. -/
theorem length_le_memberChars {numberText : Rat → String} {key : String} {value : Json}
    {members : List (String × Json)} (h : (key, value) ∈ members) :
    (Json.textChars numberText value).length ≤ (Json.memberChars numberText members).length := by
  induction members with
  | nil => cases h
  | cons first members ih =>
    obtain heq | hmem := mem_cons.mp h
    · obtain ⟨rfl, rfl⟩ := Prod.mk.inj heq
      cases members <;> simp [Json.memberChars] <;> omega
    · have hle := ih hmem
      cases members with
      | nil => cases hmem
      | cons second members =>
        simp only [Json.memberChars, length_append, length_cons]
        omega

/-- A reply whose raw body is longer than a frame is not written. -/
theorem encodeFrame_eq_none {platform : Platform} {frame : ResFrame} {body : String}
    (hbody : frame.rawBody = some body) (hlong : MAX_JSON_FRAME_BYTES < body.toList.length) :
    encodeFrame platform (.res frame) = none := by
  apply if_pos
  have hmember : ("rawBody", Json.str body) ∈ [("t", Json.str "res"), ("id", .str frame.id),
      ("status", .num frame.status)] ++ member "headers" (frame.headers.map headersJson) ++
      member "body" frame.body ++ member "raw" (frame.raw.map .bool) ++
      member "rawBody" (frame.rawBody.map .str) ++ member "error" (frame.error.map fun error ↦
        .obj [("code", .str error.code), ("message", .str error.message)]) := by
    simp [hbody, member]
  have hquote := Json.length_le_escaped body.toList
  calc MAX_JSON_FRAME_BYTES
    _ < body.toList.length := hlong
    _ ≤ (Json.textChars platform.numberText (.str body)).length := by
      simp only [Json.textChars, Json.quoteChars, length_append, length_cons]
      omega
    _ ≤ (Json.memberChars platform.numberText _).length := length_le_memberChars hmember
    _ ≤ (Json.textChars platform.numberText (Frame.json (.res frame))).length := by
      simp only [Frame.json, Json.textChars, length_append, length_cons]
      omega
    _ ≤ _ := length_le_utf8ByteSize _

/-! ## Reading -/

def string? : Json → Option String
  | .str s => some s
  | _ => none

def number? : Json → Option Rat
  | .num n => some n
  | _ => none

def boolean? : Json → Option Bool
  | .bool b => some b
  | _ => none

/-- `z.record` leaves out `__proto__`. -/
def record? : Json → Option Headers
  | .obj members =>
    (members.mapM fun m ↦ (string? m.2).map fun s ↦ (m.1, s)).map
      (·.filter fun h ↦ h.1 ≠ "__proto__")
  | _ => none

def members? : Json → Option (List (String × Json))
  | .obj members => some members
  | _ => none

def literal? (text : String) (value : Json) : Option Unit :=
  match value with
  | .str s => if s = text then some () else none
  | _ => none

section

variable {α : Type} (check : Json → Option α) (members : List (String × Json)) (key : String)

def required : Option α := (members.lookup key).bind check

/-- `.optional()`: a missing member is accepted. -/
def optional : Option (Option α) :=
  match members.lookup key with
  | none => some none
  | some value => (check value).map some

end

def nodeIdentity? (value : Json) : Option NodeIdentitySummary := do
  let members ← members? value
  let jwk ← required members? members "publicJwk"
  let _ ← required (literal? "EC") jwk "kty"
  let _ ← required (literal? "P-256") jwk "crv"
  some
    { nodeId := ← required string? members "nodeId"
      kid := ← required string? members "kid"
      x := ← required string? jwk "x"
      y := ← required string? jwk "y" }

def errorBody? (value : Json) : Option ErrorBody := do
  let members ← members? value
  some ⟨← required string? members "code", ← required string? members "message"⟩

/-- `FrameSchema`: the member `t` selects the schema. -/
def frameOf (members : List (String × Json)) : Option Frame := do
  let text (key : String) : Option String := required string? members key
  match ← text "t" with
  | "hello" =>
    let capabilities ← required members? members "clusterCapabilities"
    some (.hello
      { version := ← text "version"
        clusterId := ← text "clusterId"
        operatorRoutes := ← required boolean? capabilities "operatorRoutes"
        artifactStaging := ← required boolean? capabilities "artifactStaging"
        nodeIdentity := ← optional nodeIdentity? members "nodeIdentity" })
  | "req" =>
    some (.req
      { id := ← text "id"
        method := ← text "method"
        path := ← text "path"
        query := ← optional record? members "query"
        headers := ← optional record? members "headers"
        body := members.lookup "body"
        raw := ← optional boolean? members "raw"
        rawBody := ← optional string? members "rawBody"
        timeoutMs := ← required number? members "timeoutMs" })
  | "req-chunk" =>
    some (.reqChunk
      { id := ← text "id"
        seq := ← required number? members "seq"
        byteLength := ← required number? members "byteLength"
        sha256 := ← optional string? members "sha256"
        last := ← required boolean? members "last" })
  | "res" =>
    some (.res
      { id := ← text "id"
        status := ← required number? members "status"
        headers := ← optional record? members "headers"
        body := members.lookup "body"
        raw := ← optional boolean? members "raw"
        rawBody := ← optional string? members "rawBody"
        error := ← optional errorBody? members "error" })
  | "forward" =>
    some (.forward
      { id := ← text "id"
        runtimeId := ← text "runtimeId"
        path := ← text "path"
        headers := ← optional record? members "headers"
        body := members.lookup "body"
        timeoutMs := ← required number? members "timeoutMs" })
  | "ping" => some (.ping (← required number? members "at"))
  | "pong" => some (.pong (← required number? members "at"))
  | "paired" =>
    some (.paired { clusterId := ← text "clusterId", credential := ← text "credential" })
  | _ => none

/-- A frame, or nothing where `FrameDecodeError` is thrown. -/
def decodeFrame (platform : Platform) (text : String) : Option Frame :=
  if MAX_JSON_FRAME_BYTES < text.utf8ByteSize then none
  else (Json.parse platform.number text).bind fun parsed ↦ (members? parsed).bind frameOf

end PrivosCluster.Tunnel
