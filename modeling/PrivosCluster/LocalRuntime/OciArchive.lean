import Mathlib.Data.List.DropRight
import PrivosCluster.Master.RuntimeInventory
import PrivosCluster.Security.JsonText

/-!
# OCI image archives

An archive is a plain tar file. Its members are catalogued from their headers, its metadata is read
from the members, and every blob is compared with the descriptor that names it. The file is taken as
its bytes.
-/

namespace PrivosCluster.LocalRuntime

/-- What the verifier uses of the platform. -/
structure ArchivePlatform where
  /-- The hexadecimal SHA-256 of some bytes. -/
  sha256 : List UInt8 → String
  /-- `Buffer.toString` in UTF-8. -/
  text : List UInt8 → String
  number : String → Option Rat
  numberText : Rat → String
  trim : String → String

inductive ArchiveError where
  | artifactError (message : String)
  | typeError
deriving DecidableEq

structure TarMember where
  name : String
  size : Nat
  isFile : Bool
  isDir : Bool
  dataOffset : Nat
deriving DecidableEq

structure Descriptor where
  mediaType : String
  digest : String
  size : Nat
deriving DecidableEq

structure VerifiedOciArchive where
  artifactDigest : String
  sizeBytes : Nat
  manifestDigest : String
  manifestSizeBytes : Nat
  configDigest : String
  layerDigests : List String
  archiveDataEnd : Nat
  imageUser : Option String
deriving DecidableEq

def BLOCK : Nat := 512

def MAX_METADATA_BYTES : Nat := 4 * 1024 * 1024

def MAX_ARCHIVE_MEMBERS : Nat := 10000

def MAX_LAYER_DESCRIPTORS : Nat := 128

def MAX_SAFE_INTEGER : Nat := 2 ^ 53 - 1

def OCI_LAYOUT_MEDIA_TYPE : String := "application/vnd.oci.image.index.v1+json"

def OCI_MANIFEST_MEDIA_TYPE : String := "application/vnd.oci.image.manifest.v1+json"

def OCI_CONFIG_MEDIA_TYPE : String := "application/vnd.oci.image.config.v1+json"

def OCI_DESCRIPTOR_KEYS : List String :=
  ["mediaType", "digest", "size", "platform", "annotations", "urls", "data", "artifactType"]

def OCI_LAYER_MEDIA_TYPES : List String :=
  ["application/vnd.oci.image.layer.v1.tar",
    "application/vnd.oci.image.layer.nondistributable.v1.tar",
    "application/vnd.oci.image.layer.v1.tar+gzip",
    "application/vnd.oci.image.layer.nondistributable.v1.tar+gzip"]

/-- `if (condition) throw new ArtifactError(message)` -/
def refuse (condition : Prop) [Decidable condition] (message : String) : Except ArchiveError Unit :=
  if condition then .error (.artifactError message) else .ok ()

/-- The bytes from `start` up to `stop`, as far as there are any. -/
def subarray (bytes : List UInt8) (start stop : Nat) : List UInt8 :=
  (bytes.drop start).take (stop - start)

/-! ## Header fields -/

/-- `toString('ascii')` drops the highest bit. -/
def ascii (bytes : List UInt8) : List Char := bytes.map fun b ↦ Char.ofNat (b.toNat % 128)

/-- `replace(/\0.*$/, '')`, where the dot is no line terminator. -/
def cutAtNul : List Char → List Char
  | [] => []
  | c :: rest =>
    if c = Char.ofNat 0 ∧ rest.all (fun d ↦ d ≠ '\n' ∧ d ≠ '\r') then []
    else c :: cutAtNul rest

/-- The white space among the characters of one byte without its highest bit. -/
def isBlank (c : Char) : Bool := c = ' ' || (9 ≤ c.toNat && c.toNat ≤ 13)

def parseOctalField (buf : List UInt8) : Except ArchiveError Nat :=
  let first := (buf.headD 0).toNat
  if 128 ≤ first then
    let value := buf.tail.foldl (fun value b ↦ value * 256 + b.toNat) (first % 128)
    if MAX_SAFE_INTEGER < value then .error (.artifactError "oversized tar header field")
    else .ok value
  else
    let str := ((cutAtNul (ascii buf)).dropWhile isBlank).rdropWhile isBlank
    if str.all fun c ↦ '0' ≤ c ∧ c ≤ '7' then
      .ok (str.foldl (fun value c ↦ value * 8 + (c.toNat - '0'.toNat)) 0)
    else .error (.artifactError "invalid tar header field")

section

variable (platform : ArchivePlatform)

/-- The text before the first zero byte. -/
def fieldString (buf : List UInt8) : String := platform.text (buf.takeWhile (· ≠ 0))

def headerMagic (header : List UInt8) : List Char := ascii (subarray header 257 263)

def headerTypeflag (header : List UInt8) : Char := Char.ofNat (header.getD 156 0).toNat

/-- The name that a header gives its member. -/
def headerName (header : List UInt8) : String :=
  let parent := fieldString platform (subarray header 345 500)
  let rawName := fieldString platform (subarray header 0 100)
  if parent = "" then rawName else parent ++ "/" ++ rawName

def headerSize (header : List UInt8) : Except ArchiveError Nat :=
  parseOctalField (subarray header 124 136)

/-! ## Members -/

def hasDotDot : List Char → Bool
  | '.' :: '.' :: _ => true
  | _ :: rest => hasDotDot rest
  | [] => false

/-- `name.replace(/\/+$/, '') || name` -/
def memberName (name : String) : String :=
  let short := String.ofList (name.toList.rdropWhile (· = '/'))
  if short = "" then name else short

/-- The member of one header; its data begins at `dataOffset`. -/
def tarMember (maxBytes count : Nat) (header : List UInt8) (dataOffset : Nat) :
    Except ArchiveError TarMember := do
  refuse ((headerMagic header).take 5 ≠ "ustar".toList) "unsupported tar format (not USTAR)"
  let typeflag := headerTypeflag header
  refuse (typeflag ∈ ['x', 'g', 'L', 'K'])
    "PAX/GNU long-name tar extensions are not supported for OCI archives"
  let name := headerName platform header
  let size ← headerSize header
  refuse (name = "" ∨ Char.ofNat 0 ∈ name.toList ∨ name.toList.head? = some '/' ∨
    hasDotDot name.toList ∨ 1024 < (Json.utf16Units name).length)
    "invalid tar member name or size"
  refuse (MAX_ARCHIVE_MEMBERS ≤ count) "tar archive has too many members"
  let isDir := typeflag = '5' ∨ name.toList.getLast? = some '/'
  let isFile := typeflag = '0' ∨ typeflag = Char.ofNat 0
  refuse (¬ isDir ∧ ¬ isFile) "OCI archive members must be plain files or directories"
  refuse (isFile ∧ maxBytes < size) "tar member exceeds the artifact size ceiling"
  .ok { name := memberName name, size, isFile, isDir, dataOffset }

/-- Where the header after a member is. -/
def nextOffset (dataOffset size : Nat) : Nat := dataOffset + (size + BLOCK - 1) / BLOCK * BLOCK

/-- The members from one header on, and where the end marker is. -/
def catalogFrom (bytes : List UInt8) (maxBytes : Nat) :
    (fuel : Nat) → (offset count : Nat) → Except ArchiveError (List TarMember × Nat)
  | 0, _, _ => .error (.artifactError "tar archive is missing its end-of-archive marker")
  | fuel + 1, offset, count =>
    if bytes.length ≤ offset then
      .error (.artifactError "tar archive is missing its end-of-archive marker")
    else
      let header := subarray bytes offset (offset + BLOCK)
      if header.length ≠ BLOCK then .error (.artifactError "truncated tar header block")
      else if header.all (· = 0) then .ok ([], offset)
      else do
        let member ← tarMember platform maxBytes count header (offset + BLOCK)
        let (members, dataEnd) ←
          catalogFrom bytes maxBytes fuel (nextOffset (offset + BLOCK) member.size) (count + 1)
        .ok (member :: members, dataEnd)

/-- Every header is at least one byte after the one before it. -/
def catalogTarMembers (bytes : List UInt8) (maxBytes : Nat) :
    Except ArchiveError (List TarMember × Nat) :=
  catalogFrom platform bytes maxBytes (bytes.length + 1) 0 0

/-! ## Metadata and blobs -/

def memberBytes (bytes : List UInt8) (member : TarMember) : List UInt8 :=
  subarray bytes member.dataOffset (member.dataOffset + member.size)

def readMemberBytes (bytes : List UInt8) (member : TarMember) (limit : Nat) :
    Except ArchiveError (List UInt8) := do
  refuse (limit < member.size) "metadata member exceeds the safety limit"
  refuse ((memberBytes bytes member).length ≠ member.size) "truncated tar member data"
  .ok (memberBytes bytes member)

def sha256Digest (bytes : List UInt8) : String := "sha256:" ++ platform.sha256 bytes

def verifyMemberDigest (bytes : List UInt8) (member : TarMember) (descriptor : Descriptor) :
    Except ArchiveError Unit := do
  refuse (member.size ≠ descriptor.size) "blob size does not match its OCI descriptor"
  refuse (sha256Digest platform (memberBytes bytes member) ≠ descriptor.digest)
    "blob digest does not match its OCI descriptor"

def blobMemberName (digest : String) : String :=
  "blobs/sha256/" ++ String.ofList (digest.toList.drop 7)

def parseStrictJson (buf : List UInt8) : Except ArchiveError Json :=
  match Json.parse platform.number (platform.text buf) with
  | some value => .ok value
  | none => .error (.artifactError "malformed JSON metadata in OCI archive")

/-- A natural number written as a JSON number. -/
def natural? : Json → Option Nat
  | .num n => if n.den = 1 ∧ 0 ≤ n then some n.num.toNat else none
  | _ => none

def assertDescriptor (value : Json) (allowedMediaTypes : List String) :
    Except ArchiveError Descriptor :=
  match value with
  | .obj record => do
    refuse (∃ m ∈ record, m.1 ∉ OCI_DESCRIPTOR_KEYS) "invalid OCI descriptor"
    match record.lookup "mediaType" with
    | some (.str mediaType) =>
      refuse (mediaType ∉ allowedMediaTypes) "invalid OCI descriptor media type"
      match record.lookup "digest" with
      | some (.str digest) =>
        refuse (Schema.isDigest digest = false) "invalid OCI descriptor digest"
        match (record.lookup "size").bind natural? with
        | some size => .ok { mediaType, digest, size }
        | none => .error (.artifactError "invalid OCI descriptor size")
      | _ => .error (.artifactError "invalid OCI descriptor digest")
    | _ => .error (.artifactError "invalid OCI descriptor media type")
  | .arr [] => .error (.artifactError "invalid OCI descriptor media type")
  | _ => .error (.artifactError "invalid OCI descriptor")

/-! ## The archive -/

/-- A member that is there only as the given number. -/
def isNumber (n : Rat) : Option Json → Bool
  | some (.num m) => m = n
  | _ => false

/-- A member that may be missing, and is this text otherwise. -/
def isMediaType (mediaType : String) : Option Json → Bool
  | none => true
  | some (.str text) => text = mediaType
  | _ => false

def fileMember (members : List TarMember) (name : String) : Option TarMember :=
  (members.find? (·.name = name)).filter (·.isFile)

def requireFile (members : List TarMember) (name message : String) :
    Except ArchiveError TarMember :=
  match fileMember members name with
  | some member => .ok member
  | none => .error (.artifactError message)

/-- The only manifest of `index.json`. -/
def indexManifest (index : Json) : Except ArchiveError Json :=
  match index with
  | .obj record => do
    refuse ((record.lookup "schemaVersion").isNone ∨ (record.lookup "manifests").isNone ∨
      ∃ m ∈ record, m.1 ∉ ["schemaVersion", "mediaType", "manifests"]) "invalid index.json shape"
    match isNumber 2 (record.lookup "schemaVersion"), record.lookup "manifests" with
    | true, some (.arr [manifest]) =>
      refuse (isMediaType OCI_LAYOUT_MEDIA_TYPE (record.lookup "mediaType") = false)
        "invalid index.json mediaType"
      .ok manifest
    | _, _ => .error (.artifactError "invalid index.json manifests list")
  | _ => .error (.artifactError "invalid index.json shape")

/-- The config and the layers of a manifest. -/
def manifestParts (manifest : Json) : Except ArchiveError (Json × List Json) :=
  match manifest with
  | .obj record => do
    refuse ((record.lookup "schemaVersion").isNone ∨ (record.lookup "layers").isNone ∨
      ∃ m ∈ record, m.1 ∉ ["schemaVersion", "mediaType", "config", "layers"])
      "invalid OCI manifest shape"
    match record.lookup "config" with
    | none => .error (.artifactError "invalid OCI manifest shape")
    | some config =>
      refuse (isNumber 2 (record.lookup "schemaVersion") = false ∨
        isMediaType OCI_MANIFEST_MEDIA_TYPE (record.lookup "mediaType") = false)
        "invalid OCI manifest mediaType/schemaVersion"
      match record.lookup "layers" with
      | some (.arr layers) =>
        refuse (MAX_LAYER_DESCRIPTORS < layers.length) "invalid OCI manifest layers list"
        .ok (config, layers)
      | _ => .error (.artifactError "invalid OCI manifest layers list")
  | .null => .error .typeError
  | _ => .error (.artifactError "invalid OCI manifest shape")

/-- `imageConfig?.config?.User`, when it is a text that is not blank. -/
def declaredUser (imageConfig : Json) : Option String :=
  match imageConfig with
  | .obj record =>
    match record.lookup "config" with
    | some (.obj config) =>
      match config.lookup "User" with
      | some (.str user) => if platform.trim user = "" then none else some (platform.trim user)
      | _ => none
    | _ => none
  | _ => none

def assertLayers : List Json → Except ArchiveError (List Descriptor)
  | [] => .ok []
  | layer :: layers => do
    let descriptor ← assertDescriptor layer OCI_LAYER_MEDIA_TYPES
    let descriptors ← assertLayers layers
    .ok (descriptor :: descriptors)

/-- A blob that is named by a descriptor and has its content. -/
def verifyBlob (bytes : List UInt8) (members : List TarMember) (descriptor : Descriptor)
    (missing : String) : Except ArchiveError TarMember := do
  let member ← requireFile members (blobMemberName descriptor.digest) missing
  verifyMemberDigest platform bytes member descriptor
  .ok member

def verifyLayers (bytes : List UInt8) (members : List TarMember) :
    List Descriptor → Except ArchiveError Unit
  | [] => .ok ()
  | layer :: layers => do
    let _ ← verifyBlob platform bytes members layer "manifest references a missing layer blob"
    verifyLayers bytes members layers

def expectedFiles (manifest config : Descriptor) (layers : List Descriptor) : List String :=
  ["oci-layout", "index.json", blobMemberName manifest.digest, blobMemberName config.digest] ++
    layers.map fun layer ↦ blobMemberName layer.digest

def actualFiles (members : List TarMember) : List String :=
  (members.filter (·.isFile)).map (·.name)

def layoutJson : Json := .obj [("imageLayoutVersion", .str "1.0.0")]

def isObject : Json → Bool
  | .obj _ => true
  | .arr _ => true
  | _ => false

def verifyOciArchive (bytes : List UInt8) (expectedDigest : String)
    (expectedSizeBytes maxArtifactBytes : Nat) : Except ArchiveError VerifiedOciArchive := do
  refuse (bytes.length ≠ expectedSizeBytes ∨ maxArtifactBytes < bytes.length)
    "staged artifact size does not match the declared size"
  refuse (sha256Digest platform bytes ≠ expectedDigest)
    "staged artifact digest does not match the declared digest"
  let (members, dataEnd) ← catalogTarMembers platform bytes maxArtifactBytes
  refuse (¬ (members.map (·.name)).Nodup) "duplicate tar member name"
  let missing := "OCI archive is missing oci-layout or index.json"
  let layoutMember ← requireFile members "oci-layout" missing
  let indexMember ← requireFile members "index.json" missing
  let layout ← parseStrictJson platform (← readMemberBytes bytes layoutMember MAX_METADATA_BYTES)
  refuse (isObject layout = false ∨ Json.stringify platform.numberText layout ≠
    Json.stringify platform.numberText layoutJson) "invalid oci-layout contents"
  let index ← parseStrictJson platform (← readMemberBytes bytes indexMember MAX_METADATA_BYTES)
  let manifestValue ← indexManifest index
  let manifestDescriptor ← assertDescriptor manifestValue [OCI_MANIFEST_MEDIA_TYPE]
  let manifestMember ← verifyBlob platform bytes members manifestDescriptor
    "index.json references a missing manifest blob"
  let manifest ←
    parseStrictJson platform (← readMemberBytes bytes manifestMember MAX_METADATA_BYTES)
  let (configValue, layerValues) ← manifestParts manifest
  let configDescriptor ← assertDescriptor configValue [OCI_CONFIG_MEDIA_TYPE]
  let layerDescriptors ← assertLayers layerValues
  refuse (¬ (layerDescriptors.map (·.digest)).Nodup) "duplicate layer digest in OCI manifest"
  let configMember ← verifyBlob platform bytes members configDescriptor
    "manifest references a missing config blob"
  let imageConfig ←
    parseStrictJson platform (← readMemberBytes bytes configMember MAX_METADATA_BYTES)
  verifyLayers platform bytes members layerDescriptors
  let expected := expectedFiles manifestDescriptor configDescriptor layerDescriptors
  let actual := actualFiles members
  refuse (actual.dedup.length ≠ expected.dedup.length ∨ ∃ f ∈ expected, f ∉ actual)
    "OCI archive contains unexpected files"
  .ok
    { artifactDigest := expectedDigest
      sizeBytes := bytes.length
      manifestDigest := manifestDescriptor.digest
      manifestSizeBytes := manifestDescriptor.size
      configDigest := configDescriptor.digest
      layerDigests := layerDescriptors.map (·.digest)
      archiveDataEnd := dataEnd
      imageUser := declaredUser platform imageConfig }

end

end PrivosCluster.LocalRuntime
