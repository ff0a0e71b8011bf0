import Mathlib.Data.Bool.AllAny
import Mathlib.Data.List.Sort
import Mathlib.Algebra.Order.Ring.Rat

/-!
# Canonical JSON and artifact hashes

Canonical JSON sorts the members of every object by UTF-16 code units and writes the value as
`JSON.stringify` does, which puts array-index keys first. Hashing and encryption are parameters.
-/

namespace PrivosCluster

inductive Json where
  | null
  | bool (value : Bool)
  | num (value : Rat)
  | str (value : String)
  | arr (items : List Json)
  | obj (members : List (String × Json))

namespace Json

def utf16Units (s : String) : List Nat :=
  s.toList.flatMap fun c ↦
    if c.toNat < 0x10000 then [c.toNat]
    else [0xD800 + (c.toNat - 0x10000) / 0x400, 0xDC00 + (c.toNat - 0x10000) % 0x400]

/-- The order of `left < right` on strings. -/
def unitsLe : List Nat → List Nat → Bool
  | [], _ => true
  | _ :: _, [] => false
  | a :: as, b :: bs => a < b || (a == b && unitsLe as bs)

def keyLe (left right : String) : Bool := unitsLe (utf16Units left) (utf16Units right)

/-- The value of a key that is an array index, which property order puts before all other keys. -/
def arrayIndex? (key : String) : Option Nat :=
  match key.toList with
  | [] => none
  | ['0'] => some 0
  | '0' :: _ => none
  | digits =>
    if digits.all Char.isDigit then
      let value := digits.foldl (fun n c ↦ 10 * n + (c.toNat - '0'.toNat)) 0
      if value < 2 ^ 32 - 1 then some value else none
    else none

/-- Own property order of the object built from the sorted entries. -/
def memberLe (left right : String) : Bool :=
  match arrayIndex? left, arrayIndex? right with
  | some i, some j => i ≤ j
  | some _, none => true
  | none, some _ => false
  | none, none => keyLe left right

def hexDigit (n : Nat) : Char := (Nat.toDigits 16 n).headD '0'

def escapeChar (c : Char) : List Char :=
  match c with
  | '"' => ['\\', '"']
  | '\\' => ['\\', '\\']
  | '\n' => ['\\', 'n']
  | '\r' => ['\\', 'r']
  | '\t' => ['\\', 't']
  | c =>
    if c.toNat = 8 then ['\\', 'b']
    else if c.toNat = 12 then ['\\', 'f']
    else if c.toNat < 32 then
      ['\\', 'u', '0', '0', hexDigit (c.toNat / 16), hexDigit (c.toNat % 16)]
    else [c]

def quote (s : String) : String :=
  String.ofList ('"' :: s.toList.flatMap escapeChar ++ ['"'])

/-- A number; a fraction is written as such, since these texts are only hashed and compared. -/
def numberText (n : Rat) : String :=
  if n.den = 1 then toString n.num else toString n.num ++ "/" ++ toString n.den

end Json

mutual

def canonicalJson : Json → String
  | .null => "null"
  | .bool b => if b then "true" else "false"
  | .num n => Json.numberText n
  | .str s => Json.quote s
  | .arr items => "[" ++ ",".intercalate (canonicalItems items) ++ "]"
  | .obj members =>
    let texts := (canonicalMembers members).insertionSort fun l r ↦ Json.memberLe l.1 r.1
    "\x7b" ++ ",".intercalate (texts.map fun m ↦ Json.quote m.1 ++ ":" ++ m.2) ++ "\x7d"

def canonicalItems : List Json → List String
  | [] => []
  | j :: js => canonicalJson j :: canonicalItems js

def canonicalMembers : List (String × Json) → List (String × String)
  | [] => []
  | m :: ms => canonicalMember m :: canonicalMembers ms

def canonicalMember : String × Json → String × String
  | (key, value) => (key, canonicalJson value)

end

/-- A public EC key in JWK form; `d` is the private part a public key must not carry. -/
structure JsonWebKey where
  kty : String
  crv : String
  x : String
  y : String
  d : Option String := none
deriving DecidableEq

/-- The hash function and the cipher of the master key. -/
structure Crypto where
  sha256Base64Url : String → String
  encrypt : List (String × String) → String
  decrypt : String → Option (List (String × String))

def Crypto.jwkThumbprint? (crypto : Crypto) (jwk : JsonWebKey) : Option String :=
  if jwk.kty ≠ "EC" ∨ jwk.crv ≠ "P-256" ∨ jwk.x = "" ∨ jwk.y = "" ∨ (jwk.d.getD "") ≠ "" then none
  else some (crypto.sha256Base64Url (canonicalJson (.obj
    [("crv", .str jwk.crv), ("kty", .str jwk.kty), ("x", .str jwk.x), ("y", .str jwk.y)])))

/-- A string record as JSON. -/
def Json.ofRecord (entries : List (String × String)) : Json :=
  .obj (entries.map fun e ↦ (e.1, .str e.2))

end PrivosCluster
