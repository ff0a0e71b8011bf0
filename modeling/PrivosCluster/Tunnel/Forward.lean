import Mathlib.Algebra.GroupWithZero.Nat
import PrivosCluster.Tunnel.Replies

/-!
# Forwarded replies

A request that is forwarded to a local runtime is answered in one frame. The cap on the body is on
its bytes as received, while the frame holds it quoted, or printed again from the parsed value.
-/

namespace PrivosCluster.Tunnel

def FORWARD_BODY_MAX_BYTES : Nat := MAX_JSON_FRAME_BYTES - 16 * 1024

/-- What the transport throws. -/
inductive ForwardError where
  | responseTooLarge
  | failed (message : String)

/-- The transport reads a body up to the cap. -/
def defaultTransport (status : Nat) (bodyText : String) : Except ForwardError (Nat × String) :=
  if FORWARD_BODY_MAX_BYTES < bodyText.utf8ByteSize then .error .responseTooLarge
  else .ok (status, bodyText)

def forwardError (status : Nat) (code message : String) : ForwardResponse where
  status := status
  error := some ⟨code, message⟩

/-- The result for a response: no body, a parsed one, or a raw one. -/
def forwardAnswer (platform : Platform) (status : Nat) (bodyText : String) : ForwardResponse :=
  if bodyText = "" then { status := status }
  else
    match Json.parse platform.number bodyText with
    | some body => { status := status, body := some body }
    | none => { status := status, raw := some true, rawBody := some bodyText }

/-- `dispatchForward`, told whether a container carries the runtime's label and what it answers. -/
def dispatchForward (platform : Platform) (frame : ForwardFrame) (running : Bool)
    (answer : Except ForwardError (Nat × String)) : ForwardResponse :=
  if frame.path.toList.head? ≠ some '/' then
    forwardError 400 "bad_request" "forward path must be absolute"
  else if frame.body.any fun body ↦
      FORWARD_BODY_MAX_BYTES < (Json.stringify platform.numberText body).utf8ByteSize then
    forwardError 413 "payload_too_large" "forward request body exceeds the size cap"
  else if !running then
    forwardError 404 "not_found" "no running local runtime carries this runtimeId"
  else
    match answer with
    | .ok (status, bodyText) => forwardAnswer platform status bodyText
    | .error .responseTooLarge =>
      forwardError 502 "response_too_large" "forward response exceeds the size cap"
    | .error (.failed message) => forwardError 502 "forward_failed" message

/-! ## The bytes of a reply -/

def utf8Bytes (text : List Char) : Nat := (text.map Char.utf8Size).sum

@[simp] theorem utf8Bytes_cons (c : Char) (text : List Char) :
    utf8Bytes (c :: text) = c.utf8Size + utf8Bytes text := by
  simp [utf8Bytes]

@[simp] theorem utf8Bytes_append (text text' : List Char) :
    utf8Bytes (text ++ text') = utf8Bytes text + utf8Bytes text' := by
  simp [utf8Bytes]

theorem utf8ByteSize_ofList (text : List Char) :
    (String.ofList text).utf8ByteSize = utf8Bytes text := by
  induction text with
  | nil => rfl
  | cons c text ih =>
    rw [← List.singleton_append, String.ofList_append, String.utf8ByteSize_append, ih,
      ← String.singleton_eq_ofList, String.utf8ByteSize_singleton]
    simp

/-- The bytes of a text between quotes, each character escaped where it has to be. -/
def quotedBytes (text : String) : Nat :=
  (text.toList.map fun c ↦ utf8Bytes (Json.escapeChar c)).sum + 2

/-- The bytes of a value that is printed. -/
def printedBytes (platform : Platform) (value : Json) : Nat :=
  (Json.stringify platform.numberText value).utf8ByteSize

/-- The bytes of the members that hold the body. -/
def bodyBytes (platform : Platform) (bodyText : String) : Nat :=
  if bodyText = "" then 0
  else
    match Json.parse platform.number bodyText with
    | some body => printedBytes platform body + 8
    | none => quotedBytes bodyText + 22

/-- The bytes of the reply with the given response. -/
def replyBytes (platform : Platform) (id : String) (status : Nat) (bodyText : String) : Nat :=
  quotedBytes id + (platform.numberText status).utf8ByteSize + bodyBytes platform bodyText + 27

section

variable {platform : Platform}

theorem utf8Bytes_quoteChars (text : String) :
    utf8Bytes (Json.quoteChars text) = quotedBytes text := by
  have hquote : '"'.utf8Size = 1 := by decide
  simp only [Json.quoteChars, List.cons_append, utf8Bytes_cons, utf8Bytes_append, hquote,
    quotedBytes]
  induction text.toList with
  | nil => rfl
  | cons c text ih =>
    simp only [List.flatMap_cons, utf8Bytes_append, List.map_cons, List.sum_cons] at ih ⊢
    omega

theorem utf8Bytes_textChars (value : Json) :
    utf8Bytes (Json.textChars platform.numberText value) = printedBytes platform value := by
  rw [printedBytes, Json.stringify, utf8ByteSize_ofList]

@[simp] theorem printedBytes_str (text : String) :
    printedBytes platform (.str text) = quotedBytes text := by
  rw [← utf8Bytes_textChars, Json.textChars, utf8Bytes_quoteChars]

@[simp] theorem printedBytes_num (n : Rat) :
    printedBytes platform (.num n) = (platform.numberText n).utf8ByteSize := by
  rw [printedBytes, Json.stringify, Json.textChars, String.ofList_toList]

/-- Every member costs a colon, and a comma or the closing brace. -/
theorem printedBytes_obj (m : String × Json) (members : List (String × Json)) :
    printedBytes platform (.obj (m :: members)) = ((m :: members).map fun m ↦
      quotedBytes m.1 + printedBytes platform m.2 + 2).sum + 1 := by
  have hbraces : '\x7b'.utf8Size = 1 ∧ '\x7d'.utf8Size = 1 := by decide
  have hmarks : ':'.utf8Size = 1 ∧ ','.utf8Size = 1 := by decide
  have hmembers : utf8Bytes (Json.memberChars platform.numberText (m :: members)) + 1 =
      ((m :: members).map fun m ↦ quotedBytes m.1 + printedBytes platform m.2 + 2).sum := by
    induction members generalizing m with
    | nil =>
      simp [Json.memberChars, utf8Bytes_quoteChars, utf8Bytes_textChars, hmarks]
      omega
    | cons next members ih =>
      rw [List.map_cons, List.sum_cons, ← ih]
      simp [Json.memberChars, utf8Bytes_quoteChars, utf8Bytes_textChars, hmarks]
      omega
  rw [← hmembers, ← utf8Bytes_textChars]
  simp [Json.textChars, hbraces, utf8Bytes]
  omega

/-- A reply with a response is written unless it has more bytes than a frame may have. -/
theorem encodeFrame_forwardAnswer (frame : ForwardFrame) (status : Nat) (bodyText : String) :
    (encodeFrame platform (.res (forwardReply frame
        (.ok (forwardAnswer platform status bodyText))))).isSome = true ↔
      replyBytes platform frame.id status bodyText ≤ MAX_JSON_FRAME_BYTES := by
  have hsize : (Json.stringify platform.numberText (Frame.json (.res (forwardReply frame
      (.ok (forwardAnswer platform status bodyText)))))).utf8ByteSize =
        replyBytes platform frame.id status bodyText := by
    change printedBytes platform _ = _
    have hkeys : quotedBytes "t" = 3 ∧ quotedBytes "res" = 5 ∧ quotedBytes "id" = 4 ∧
        quotedBytes "status" = 8 ∧ quotedBytes "body" = 6 ∧ quotedBytes "raw" = 5 ∧
        quotedBytes "rawBody" = 9 := by decide
    have htrue : printedBytes platform (.bool true) = 4 := rfl
    unfold replyBytes bodyBytes forwardAnswer
    split
    · simp [forwardReply, Frame.json, Tunnel.member, printedBytes_obj, hkeys]
      omega
    · cases Json.parse platform.number bodyText with
      | some body =>
        simp [forwardReply, Frame.json, Tunnel.member, printedBytes_obj, hkeys]
        omega
      | none =>
        simp [forwardReply, Frame.json, Tunnel.member, printedBytes_obj, hkeys, htrue]
        omega
  unfold encodeFrame
  dsimp only
  rw [hsize]
  split
  next hlong => simpa using hlong
  next hshort => simpa using hshort

end

/-- The request goes on to a container. -/
structure Forwardable (platform : Platform) (frame : ForwardFrame) : Prop where
  path : frame.path.toList.head? = some '/'
  body : ∀ body ∈ frame.body, printedBytes platform body ≤ FORWARD_BODY_MAX_BYTES

theorem dispatchForward_answer {platform : Platform} {frame : ForwardFrame} {status : Nat}
    {bodyText : String} (hframe : Forwardable platform frame)
    (hcap : bodyText.utf8ByteSize ≤ FORWARD_BODY_MAX_BYTES) :
    dispatchForward platform frame true (defaultTransport status bodyText) =
      forwardAnswer platform status bodyText := by
  have hpath : ¬ frame.path.toList.head? ≠ some '/' := not_not.mpr hframe.path
  have hbody : ¬ (frame.body.any fun body ↦ FORWARD_BODY_MAX_BYTES <
      (Json.stringify platform.numberText body).utf8ByteSize) = true := by
    intro h
    obtain ⟨body, hmem, hlong⟩ := (Option.any_eq_true _ _).mp h
    exact absurd (of_decide_eq_true hlong) (hframe.body body hmem).not_gt
  unfold dispatchForward defaultTransport
  rw [if_neg hpath, if_neg hbody, if_neg hcap.not_gt]
  rfl

namespace Sample

def forwarded : ForwardFrame where
  id := "a"
  runtimeId := "00"
  path := "/mcp"
  headers := none
  body := none
  timeoutMs := 0

theorem forwarded_forwardable : Forwardable platform forwarded := ⟨by decide, nofun⟩

def quotes (n : Nat) : String := String.ofList (List.replicate n '"')

theorem parse_quotes (n : Nat) : Json.parse platform.number (quotes (n + 3)) = none := by
  have hread : Json.readValue platform.number (n + 3 + 1) (List.replicate (n + 3) '"') =
      some (.str (String.ofList []), '"' :: List.replicate n '"') := rfl
  rw [Json.parse, quotes, String.toList_ofList, String.length_ofList, List.length_replicate, hread]
  rfl

theorem quotes_size (n : Nat) :
    (quotes n).utf8ByteSize = n ∧ quotedBytes (quotes n) = 2 * n + 2 := by
  have hquote : '"'.utf8Size = 1 ∧ ((Json.escapeChar '"').map Char.utf8Size).sum = 2 := by decide
  simp [quotes, quotedBytes, utf8ByteSize_ofList, utf8Bytes, hquote, Nat.mul_comm]

end Sample

theorem quotes_undelivered {n : Nat} (hlong : 499997 ≤ n) (hcap : n + 3 ≤ FORWARD_BODY_MAX_BYTES) :
    encodeFrame Sample.platform (.res (forwardReply Sample.forwarded (.ok (dispatchForward
      Sample.platform Sample.forwarded true (defaultTransport 200 (Sample.quotes (n + 3))))))) =
        none := by
  obtain ⟨hbytes, hquoted⟩ := Sample.quotes_size (n + 3)
  have hne : Sample.quotes (n + 3) ≠ "" := by
    intro h
    rw [h] at hbytes
    exact absurd hbytes (by simp)
  rw [dispatchForward_answer Sample.forwarded_forwardable (hbytes.trans_le hcap),
    ← Option.not_isSome_iff_eq_none, encodeFrame_forwardAnswer, replyBytes, bodyBytes, if_neg hne,
    Sample.parse_quotes]
  dsimp only
  rw [hquoted]
  unfold MAX_JSON_FRAME_BYTES
  omega

end PrivosCluster.Tunnel
