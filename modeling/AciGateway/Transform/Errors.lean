import AciGateway.Lib.JsonVisit
import AciGateway.Lib.Text
import AciGateway.Sse.Tail
import Mathlib

/-! In-band errors: which an upstream may state in its own words, and what the others become. -/
namespace AciGateway.Transform

open Json Sse

/-! Texts that name a host. -/

def hostTlds : List String :=
  ["com", "net", "org", "io", "ai", "cn", "eu", "uk", "de", "fr", "jp", "gg", "xyz", "local",
    "internal"]

def isAsciiAlphanumeric (c : Char) : Bool := c.isAlphanum

def toAsciiLowercase (s : List Char) : List Char := s.map Char.toLower

/-- The text is a number below 256. -/
def isOctet (part : List Char) : Bool := (U64.parse (String.ofList part)).any (· < 256)

def isHostnameLike (word : List Char) : Bool :=
  let parts := word.splitOn '.'
  if parts.length < 2 || parts.any (·.isEmpty) then false
  else if parts.length = 4 && parts.all isOctet then true
  else
    hostTlds.contains (String.ofList (toAsciiLowercase (parts.getLastD []))) &&
      parts.dropLast.all (·.all fun c => isAsciiAlphanumeric c || c == '-')

def isPunctuation (c : Char) : Bool := c == '.' || c == '-' || c == '_'

def trimPunctuation (word : List Char) : List Char :=
  ((word.dropWhile isPunctuation).reverse.dropWhile isPunctuation).reverse

def looksIdentifying (message : String) : Bool :=
  Text.contains message "://" ||
    (message.toList.splitOnP fun c => !(isAsciiAlphanumeric c || isPunctuation c)).any
      fun word => isHostnameLike (trimPunctuation word)

def scrubIdentifyingMarkers (raw : String) : Option String :=
  let message := Text.trim raw
  if message = "" || looksIdentifying message then none else some message

def clientSafeErrorText (message : String) : String :=
  (scrubIdentifyingMarkers message).getD "the provider returned an error"

/-! Statuses. -/

def mapUpstreamStatus : Nat → Nat
  | 400 => 400
  | 404 => 404
  | 413 => 413
  | 422 => 422
  | 429 => 429
  | 503 => 503
  | 504 => 504
  | _ => 502

def isActionableClientError (status : Nat) : Bool :=
  400 ≤ status && status < 500 && !(401 ≤ status && status ≤ 403 || status = 429)

/-! The account of the gateway. -/

def quotaExhaustedKinds : List String :=
  ["insufficient_quota", "credit_balance_exhausted", "billing_error", "billing_not_active"]

def quotaExhaustedProse : List String :=
  ["credit balance is too low", "exceeded your current quota", "no credits remaining"]

def textMember (key : String) (object : Members) : Option String :=
  (object.lookup key).bind Value.asStr?

def declaredKindIsQuotaExhausted (error : Members) : Bool :=
  ["code", "type"].any fun key => (textMember key error).any (quotaExhaustedKinds.contains ·)

def isQuotaExhaustedError (error : Members) : Bool :=
  declaredKindIsQuotaExhausted error ||
    (textMember "message" error).any fun message =>
      quotaExhaustedProse.any fun marker =>
        Text.contains (String.ofList (toAsciiLowercase message.toList)) marker

/-! Kinds. -/

def relayableErrorKinds : List String :=
  ["invalid_request_error", "not_found_error", "model_not_found", "invalid_value", "invalid_type",
    "unsupported_value", "unsupported_parameter", "missing_required_parameter",
    "unknown_parameter", "context_length_exceeded", "string_above_max_length",
    "request_too_large", "invalid_prompt", "content_filter", "content_policy_violation",
    "invalid_image", "invalid_image_format", "invalid_image_url", "invalid_base64_image",
    "invalid_image_mode", "image_parse_error", "image_too_large", "image_too_small",
    "image_file_too_large", "image_file_not_found", "image_content_policy_violation",
    "empty_image_file", "unsupported_image_media_type", "failed_to_download_image",
    "overloaded_error", "vector_store_timeout"]

def numericStatus (kind : Value) : Option Nat :=
  ((asU64? kind).map Fin.val).filter (· < 2 ^ 16)

def isRelayableKind : Option Value → Bool
  | none | some .null => true
  | some (.str kind) => relayableErrorKinds.contains kind
  | some (.num n) => (numericStatus (.num n)).any isActionableClientError
  | _ => false

def effectiveErrorKind (object : Members) : Option Value :=
  ((object.lookup "code").filter (!isNull ·)).or (object.lookup "type")

def isRelayableError (error : Members) : Bool :=
  !isQuotaExhaustedError error && isRelayableKind (effectiveErrorKind error)

def kindHttpStatus : Option Value → Nat
  | some (.num n) => (numericStatus (.num n)).getD 400
  | some (.str kind) =>
    if kind = "not_found_error" ∨ kind = "model_not_found" then 404
    else if kind = "request_too_large" then 413
    else if kind = "overloaded_error" then 503
    else if kind = "vector_store_timeout" then 504
    else 400
  | _ => 400

def suppressedErrorStatus : Option Value → Nat
  | some (.str kind) =>
    if kind = "rate_limit_error" ∨ kind = "rate_limit_exceeded" then 429
    else if kind = "timeout_error" then 504
    else 502
  | some (.num n) => mapUpstreamStatus ((numericStatus (.num n)).getD 502)
  | _ => 502

def suppressedStatus (kind errorTypeSlot : Option Value) : Nat :=
  if suppressedErrorStatus kind = 502 then
    match errorTypeSlot.filter (!isNull ·) with
    | some slot => if isRelayableKind (some slot) then kindHttpStatus (some slot) else 502
    | none => 502
  else suppressedErrorStatus kind

def suppressedStatusFor (object : Members) (typeSlot : Option Value) : Nat :=
  if isQuotaExhaustedError object then mapUpstreamStatus 402
  else suppressedStatus (effectiveErrorKind object) typeSlot

def clientErrorMessage (message : Option Value) : String :=
  ((message.bind Value.asStr?).map clientSafeErrorText).getD (upstreamMessage 502)

def clientErrorParam (param : Option Value) : Option String :=
  (param.bind Value.asStr?).filter (!looksIdentifying ·)

def chatErrorType : Option Value → String
  | some (.str kind) =>
    if "_error".toList.isSuffixOf kind.toList then kind else errorType .openai 400
  | some (.num n) => errorType .openai ((numericStatus (.num n)).getD 502)
  | _ => errorType .openai 502

def responsesErrorCodes : List String :=
  ["invalid_prompt", "vector_store_timeout", "invalid_image", "invalid_image_format",
    "invalid_base64_image", "invalid_image_url", "invalid_image_mode", "image_parse_error",
    "image_too_large", "image_too_small", "image_file_too_large", "image_file_not_found",
    "image_content_policy_violation", "empty_image_file", "unsupported_image_media_type",
    "failed_to_download_image"]

def responsesErrorCode (kind : Option Value) : Option String :=
  (kind.bind Value.asStr?).filter (responsesErrorCodes.contains ·)

def anthropicErrorTypes : List String :=
  ["invalid_request_error", "not_found_error", "request_too_large", "overloaded_error"]

def messagesErrorType (kind : Option Value) : String :=
  match kind.filter (!isNull ·) with
  | none => errorType .anthropic 502
  | some (.str kind) =>
    if anthropicErrorTypes.contains kind then kind
    else errorType .anthropic (kindHttpStatus (some (.str kind)))
  | some kind => errorType .anthropic (kindHttpStatus (some kind))

/-! Rebuilding an error. -/

def statusValue (status : Nat) : Value := .num (.posInt (Fin.ofNat (2 ^ 64) status))

/-- The `error` member on the chat and completions surfaces. -/
def sanitizeError : Value → Value
  | .null => .null
  | .str text =>
    match chatGatewayError 502 with
    | .obj generic => .obj (setMember "message" (.str (clientSafeErrorText text)) generic)
    | other => other
  | .obj object =>
    if isRelayableError object then
      let kind := effectiveErrorKind object
      .obj [("message", .str (clientSafeErrorText ((textMember "message" object).getD ""))),
        ("type", .str (match textMember "type" object with
          | some k => if relayableErrorKinds.contains k then k else chatErrorType kind
          | none => chatErrorType kind)),
        ("param", optStr (clientErrorParam (object.lookup "param"))),
        ("code", match kind.filter (!isNull ·) with
          | some kind => statusValue (kindHttpStatus (some kind))
          | none => .null)]
    else chatGatewayError (suppressedStatusFor object (object.lookup "type"))
  | _ => chatGatewayError 502

/-- The `error` member of a response object. -/
def sanitizeResponsesErrorField (error : Value) : Value :=
  let shape (code message : String) : Value := .obj [("code", .str code), ("message", .str message)]
  match error with
  | .null => .null
  | .str text => shape (responsesGatewayCode 502) (clientSafeErrorText text)
  | .obj object =>
    let kind := effectiveErrorKind object
    if !isQuotaExhaustedError object && isRelayableKind kind then
      shape ((responsesErrorCode kind).getD (responsesGatewayCode (kindHttpStatus kind)))
        (clientErrorMessage (object.lookup "message"))
    else
      let status := suppressedStatusFor object (object.lookup "type")
      shape (responsesGatewayCode status) (upstreamMessage status)
  | _ => shape (responsesGatewayCode 502) (upstreamMessage 502)

/-- The error event of the Responses surface, from either shape an upstream gives it. -/
def sanitizeResponsesErrorEvent (object : Members) : Value :=
  let nested := object.lookup "error"
  let field (key : String) := (nested.bind (·.get? key)).or (object.lookup key)
  let nestedType := nested.bind (·.get? "type")
  let kind := ((field "code").filter (!isNull ·)).or nestedType
  let sequenceNumber := (object.lookup "sequence_number").bind asU64?
  let carrier := match nested with
    | some (.obj error) => error
    | _ => object
  let quotaExhausted := isQuotaExhaustedError carrier
  if !quotaExhausted && isRelayableKind kind then
    let code := (responsesErrorCode kind).or
      (kind.map fun _ => responsesGatewayCode (kindHttpStatus kind))
    responsesErrorEvent code (clientErrorMessage (field "message")) (clientErrorParam (field "param"))
      sequenceNumber
  else
    let status := if quotaExhausted then mapUpstreamStatus 402 else suppressedStatus kind nestedType
    responsesErrorEvent (some (responsesGatewayCode status)) (upstreamMessage status) none
      sequenceNumber

/-- The error event of the Messages surface. -/
def sanitizeMessagesErrorEvent (object : Members) (requestId : Option String) : Value :=
  match object.lookup "error" with
  | some (.obj error) =>
    if isRelayableError error then
      envelope .anthropic (messagesErrorType (effectiveErrorKind error))
        (clientErrorMessage (error.lookup "message")) requestId
    else
      let status := suppressedStatusFor error (error.lookup "type")
      envelope .anthropic (errorType .anthropic status) (upstreamMessage status) requestId
  | _ => envelope .anthropic (errorType .anthropic 502) (upstreamMessage 502) requestId

end AciGateway.Transform
