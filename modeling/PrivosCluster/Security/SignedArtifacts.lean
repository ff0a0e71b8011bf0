import PrivosCluster.Master.RuntimeInventory

/-!
# Signed artifacts

A compact artifact is a header, a payload and an ES256 signature over both. Decoding, JSON texts,
number texts and signatures are those of the platform.
-/

namespace PrivosCluster

open List

namespace Json

def truthy : Json → Bool
  | .null => false
  | .bool b => b
  | .num n => n != 0
  | .str s => s != ""
  | .arr _ | .obj _ => true

/-- A property of a value; an absent property is `undefined`. -/
def member? (key : String) : Json → Option Json
  | .obj members => members.lookup key
  | _ => none

def isNull : Json → Bool
  | .null => true
  | _ => false

def isText (text : String) : Option Json → Bool
  | some (.str s) => s == text
  | _ => false

def isNumber (value : Rat) : Option Json → Bool
  | some (.num n) => n == value
  | _ => false

/-! ### Equality -/

mutual

def beq : Json → Json → Bool
  | .null => fun b ↦ match b with
    | .null => true
    | _ => false
  | .bool a => fun b ↦ match b with
    | .bool b => a == b
    | _ => false
  | .num a => fun b ↦ match b with
    | .num b => a == b
    | _ => false
  | .str a => fun b ↦ match b with
    | .str b => a == b
    | _ => false
  | .arr as => fun b ↦ match b with
    | .arr bs => beqItems as bs
    | _ => false
  | .obj as => fun b ↦ match b with
    | .obj bs => beqMembers as bs
    | _ => false

def beqItems : List Json → List Json → Bool
  | [] => List.isEmpty
  | a :: as => fun bs ↦ match bs with
    | [] => false
    | b :: bs => beq a b && beqItems as bs

def beqMembers : List (String × Json) → List (String × Json) → Bool
  | [] => List.isEmpty
  | a :: as => fun bs ↦ match bs with
    | [] => false
    | b :: bs => beqMember a b && beqMembers as bs

def beqMember : String × Json → String × Json → Bool
  | (key, a) => fun b ↦ key == b.1 && beq a b.2

end

mutual

theorem beq_iff : ∀ a b : Json, a.beq b = true ↔ a = b
  | .null, b => by cases b <;> simp [beq]
  | .bool _, b => by cases b <;> simp [beq]
  | .num _, b => by cases b <;> simp [beq]
  | .str _, b => by cases b <;> simp [beq]
  | .arr as, b => by cases b <;> simp [beq, beqItems_iff as]
  | .obj as, b => by cases b <;> simp [beq, beqMembers_iff as]

theorem beqItems_iff : ∀ as bs : List Json, beqItems as bs = true ↔ as = bs
  | [], bs => by cases bs <;> simp [beqItems]
  | a :: as, bs => by cases bs <;> simp [beqItems, beq_iff a, beqItems_iff as]

theorem beqMembers_iff : ∀ as bs : List (String × Json), beqMembers as bs = true ↔ as = bs
  | [], bs => by cases bs <;> simp [beqMembers]
  | a :: as, bs => by cases bs <;> simp [beqMembers, beqMember_iff a, beqMembers_iff as]

theorem beqMember_iff : ∀ a b : String × Json, beqMember a b = true ↔ a = b
  | (_, a), b => by simp [beqMember, beq_iff a, Prod.ext_iff]

end

instance : DecidableEq Json := fun a b ↦ decidable_of_iff (a.beq b = true) (beq_iff a b)

end Json

/-! ## Schemas -/

namespace Schema

def text? : Json → Option String
  | .str s => some s
  | _ => none

/-- `z.number().int()` -/
def int? : Json → Option Int
  | .num n => if n.den = 1 then some n.num else none
  | _ => none

/-- `z.number().int().positive()` -/
def positive? (json : Json) : Option Nat :=
  ((int? json).filter (0 < ·)).map Int.toNat

def nonempty? (json : Json) : Option String := (text? json).filter (· != "")

def identifier? (json : Json) : Option String := (text? json).filter isIdentifier

def digest? (json : Json) : Option String := (text? json).filter isDigest

def artifactHash? (json : Json) : Option String := (text? json).filter isArtifactHash

def uuid? (json : Json) : Option String := (text? json).filter isUuid

def literal? (value : String) (json : Json) : Option Unit :=
  if Json.isText value (some json) then some () else none

/-- The members of an object without other keys than these. -/
def strictObject? (keys : List String) : Json → Option (List (String × Json))
  | .obj members => if members.all fun m ↦ keys.contains m.1 then some members else none
  | _ => none

section

variable {α : Type} (members : List (String × Json)) (key : String) (read : Json → Option α)

def required : Option α := (members.lookup key).bind read

def optional : Option (Option α) :=
  match members.lookup key with
  | none => some none
  | some json => (read json).map some

end

end Schema

/-! ## The platform -/

/-- What the verification of artifacts uses of the platform. -/
structure ArtifactPlatform extends Crypto where
  /-- `JSON.parse`, which may throw -/
  parseJson : String → Option Json
  /-- `JSON.parse(Buffer.from(part, 'base64url').toString('utf8'))`, which may throw -/
  readPart : String → Option Json
  /-- `Number(text)`, or `none` for not-a-number -/
  number : String → Option Rat
  /-- `String(n)` -/
  numberText : Rat → String
  /-- SHA-256 in hexadecimal with its prefix -/
  sha256 : String → String
  /-- ES256 for a signed text, a signature and a public key that may be refused -/
  verify : String → String → JsonWebKey → Except JsError Bool

def artifactError (message : String) : JsError := { message := message }

def nowSeconds (now : Time) : Int := now / 1000

/-- A value as a public key, where `jwkThumbprint` does not throw because of its type. -/
def JsonWebKey.ofJson? (json : Json) : Option JsonWebKey := do
  let kty ← (json.member? "kty").bind Schema.text?
  let crv ← (json.member? "crv").bind Schema.text?
  let x ← (json.member? "x").bind Schema.text?
  let y ← (json.member? "y").bind Schema.text?
  if (json.member? "d").any Json.truthy then none else some ⟨kty, crv, x, y, none⟩

def JsonWebKey.toJson (jwk : JsonWebKey) : Json :=
  .ofRecord ([("kty", jwk.kty), ("crv", jwk.crv), ("x", jwk.x), ("y", jwk.y)] ++
    jwk.d.toList.map fun d ↦ ("d", d))

/-! ## Compact artifacts -/

structure ParsedJws where
  header : Json
  payload : Json
  signingInput : String
  signature : String

/-- `compact.split('.')` -/
def compactParts (compact : String) : List String :=
  (compact.toList.splitOn '.').map String.ofList

variable {header payload signature compact : String} {parsed : ParsedJws}
  {protocolVersion : Option Rat} {publicJwk : JsonWebKey}

/-- Three parts without dots are read back from their compact form. -/
theorem compactParts_join (hheader : '.' ∉ header.toList) (hpayload : '.' ∉ payload.toList)
    (hsignature : '.' ∉ signature.toList) :
    compactParts (header ++ "." ++ payload ++ "." ++ signature) = [header, payload, signature] := by
  have hchars : (header ++ "." ++ payload ++ "." ++ signature).toList =
      header.toList ++ '.' :: (payload.toList ++ '.' :: signature.toList) := by
    simp [String.toList_append]
  rw [compactParts, hchars, splitOn_append_cons_self, splitOn_append_cons_self,
    splitOn_eq_singleton hheader, splitOn_eq_singleton hpayload,
    splitOn_eq_singleton hsignature]
  simp

section

variable (platform : ArtifactPlatform)

def parseJws (compact : String) : Except JsError ParsedJws :=
  match compactParts compact with
  | [header, payload, signature] =>
    if header = "" ∨ payload = "" ∨ signature = "" then .error (artifactError "artifact_signature_invalid")
    else
      match platform.readPart header, platform.readPart payload with
      | some h, some p => .ok ⟨h, p, header ++ "." ++ payload, signature⟩
      | _, _ => .error (artifactError "artifact_signature_invalid")
  | _ => .error (artifactError "artifact_signature_invalid")

variable {platform} in
theorem parseJws_of_parts {h p : Json}
    (hparts : compactParts compact = [header, payload, signature]) (hheader : header ≠ "")
    (hpayload : payload ≠ "") (hsignature : signature ≠ "") (hh : platform.readPart header = some h)
    (hp : platform.readPart payload = some p) :
    parseJws platform compact = .ok ⟨h, p, header ++ "." ++ payload, signature⟩ := by
  unfold parseJws
  rw [hparts]
  simp only [hheader, hpayload, hsignature, or_self, if_false, hh, hp]

/-- The header names the algorithm, the type and the key, and the version where one is asked for. -/
def headerMatches (header : Json) (typ kid : String) (protocolVersion : Option Rat) : Bool :=
  Json.isText "ES256" (header.member? "alg") && Json.isText typ (header.member? "typ") &&
    (kid == "" || Json.isText kid (header.member? "kid")) &&
    protocolVersion.all fun version ↦ Json.isNumber version (header.member? "privos_protocol")

def verifyEs256Jws (compact : String) (publicJwk : JsonWebKey) (typ kid : String)
    (protocolVersion : Option Rat) : Except JsError ParsedJws := do
  let parsed ← parseJws platform compact
  if parsed.header.isNull then .error (artifactError "Cannot read properties of null (reading 'alg')")
  else if !headerMatches parsed.header typ kid protocolVersion || publicJwk.kty != "EC" ||
      publicJwk.crv != "P-256" || (publicJwk.d.getD "") != "" then
    .error (artifactError "artifact_signature_invalid")
  else
    let verified ← platform.verify parsed.signingInput parsed.signature publicJwk
    if verified then .ok parsed else .error (artifactError "artifact_signature_invalid")

variable {platform} in
theorem parsed_of_verifyEs256Jws {typ kid : String}
    (h : verifyEs256Jws platform compact publicJwk typ kid protocolVersion = .ok parsed) :
    parseJws platform compact = .ok parsed ∧ parsed.header.isNull = false ∧
      headerMatches parsed.header typ kid protocolVersion = true := by
  unfold verifyEs256Jws at h
  cases hparsed : parseJws platform compact with
  | error e =>
    rw [hparsed] at h
    cases h
  | ok parsed' =>
    rw [hparsed] at h
    simp only [bind, Except.bind] at h
    split at h
    · cases h
    next hnull =>
      split at h
      · cases h
      next hkey =>
        split at h
        · cases h
        · split at h
          · obtain rfl := Except.ok.inj h
            have hheader : headerMatches parsed'.header typ kid protocolVersion = true := by
              by_contra hnot
              exact hkey (by simp [hnot])
            exact ⟨rfl, by simpa using hnull, hheader⟩
          · cases h

variable {platform} in
theorem verifyEs256Jws_of_parsed {typ kid : String}
    (hparsed : parseJws platform compact = .ok parsed) (hnull : parsed.header.isNull = false)
    (hheader : headerMatches parsed.header typ kid protocolVersion = true)
    (hkty : publicJwk.kty = "EC") (hcrv : publicJwk.crv = "P-256") (hd : publicJwk.d = none)
    (hverify : platform.verify parsed.signingInput parsed.signature publicJwk = .ok true) :
    verifyEs256Jws platform compact publicJwk typ kid protocolVersion = .ok parsed := by
  have hkey : (!headerMatches parsed.header typ kid protocolVersion || publicJwk.kty != "EC" ||
      publicJwk.crv != "P-256" || (publicJwk.d.getD "") != "") = false := by
    simp [hheader, hkty, hcrv, hd]
  unfold verifyEs256Jws
  rw [hparsed]
  simp only [bind, Except.bind, hnull, hkey, hverify, Bool.false_eq_true, if_false, if_true]

end

/-- The times of an artifact, which its schema has read as integers. -/
def assertArtifactTime (iat exp maximumLifetimeSeconds nowSeconds : Int) : Except JsError Unit :=
  if iat > nowSeconds + 30 ∨ exp < nowSeconds - 30 ∨ exp ≤ iat ∨ exp - iat > maximumLifetimeSeconds then
    .error (artifactError "artifact_time_invalid")
  else .ok ()

end PrivosCluster
