import AciGateway.Lib.Binary64
import AciGateway.Lib.Text
import AciGateway.Sse.Framing

/-! Token usage in the shapes of the chat, Messages and Responses surfaces. -/
namespace AciGateway.Transform

open Json Sse Binary64

/-- A token count, integer or float. -/
def tokenValue (value : Value) (key : String) : Option Int :=
  (value.get? key).bind fun field => (asI64? field).or ((asF64? field).map toI64)

def i64Field (value : Value) (key : String) : Int := (tokenValue value key).getD 0

/-- A cache counter: a numeric text counts, and what is unreadable or negative is absent. -/
def cacheCounter (value : Option Value) : Option Int :=
  let number := value.bind fun
    | .str text => parse (Text.trim text)
    | other => asF64? other
  (number.filter (0 ≤ ·)).map toI64

/-- Tokens read from and written to the cache, each under either of its names. -/
def chatCacheTokens (usage : Value) : Option Int × Option Int :=
  let detail (key : String) := (usage.get? "prompt_tokens_details").bind (·.get? key)
  ((cacheCounter (usage.get? "cache_read_input_tokens")).or (cacheCounter (detail "cached_tokens")),
    (cacheCounter (usage.get? "cache_creation_input_tokens")).or
      (cacheCounter (detail "cache_write_tokens")))

def anthropicUsage (promptTokens completionTokens : Int) (cacheRead cacheCreation : Option Int) :
    Value :=
  let cached := wrap (cacheRead.getD 0 + cacheCreation.getD 0)
  .obj ([("input_tokens", ofI64 (max (wrap (promptTokens - cached)) 0)),
      ("output_tokens", ofI64 completionTokens)] ++
    (cacheRead.map fun n => ("cache_read_input_tokens", ofI64 n)).toList ++
    (cacheCreation.map fun n => ("cache_creation_input_tokens", ofI64 n)).toList)

/-- Anthropic usage for a chat usage object. -/
def messagesUsage (usage : Option Value) : Value :=
  let usage := usage.getD .null
  let cache := chatCacheTokens usage
  anthropicUsage (i64Field usage "prompt_tokens") (i64Field usage "completion_tokens") cache.1 cache.2

/-- Responses usage for a chat usage object. -/
def responsesUsage (usage : Option Value) : Value :=
  let usage := usage.getD .null
  let input := i64Field usage "prompt_tokens"
  let output := i64Field usage "completion_tokens"
  let cached := (chatCacheTokens usage).1.getD 0
  let reasoning := ((usage.get? "completion_tokens_details").map
    fun details => i64Field details "reasoning_tokens").getD 0
  let total :=
    if i64Field usage "total_tokens" = 0 then wrap (input + output)
    else i64Field usage "total_tokens"
  .obj [("input_tokens", ofI64 input),
    ("input_tokens_details", .obj [("cached_tokens", ofI64 cached)]),
    ("output_tokens", ofI64 output),
    ("output_tokens_details", .obj [("reasoning_tokens", ofI64 reasoning)]),
    ("total_tokens", ofI64 total)]

/-- The legacy name of the reasoning count is also given under its canonical one. -/
def normalizeReasoningUsageValue : Value → Value
  | .obj usage =>
    match (usage.lookup "reasoning_tokens").filter (!isNull ·) with
    | none => .obj usage
    | some reasoningTokens =>
      match usage.lookup "completion_tokens_details" with
      | none | some .null =>
        .obj (setMember "completion_tokens_details"
          (.obj [("reasoning_tokens", reasoningTokens)]) usage)
      | some (.obj details) =>
        if (details.lookup "reasoning_tokens").all isNull then
          .obj (setMember "completion_tokens_details"
            (.obj (setMember "reasoning_tokens" reasoningTokens details)) usage)
        else .obj usage
      | some _ => .obj usage
  | v => v

end AciGateway.Transform
