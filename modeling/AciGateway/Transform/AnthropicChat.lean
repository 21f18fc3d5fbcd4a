import AciGateway.Transform.ChatStream

/-! Anthropic messages on the chat surface, whole and streamed. A client that puts the streamed
chunks together has what the whole message would have given it. -/
namespace AciGateway.Transform

open Octets Json Sse Usage Binary64
open String (join join_cons)
open List (foldl_cons foldl_nil foldl_append map_cons filter_cons_of_pos not_mem_nil)

/-! What both conversions share. -/

def transformFinishReason (stopReason : Option String) (strict : Bool) : String :=
  match stopReason with
  | none => "stop"
  | some reason =>
    if !strict then reason
    else
      match reason with
      | "stop_sequence" | "end_turn" | "pause_turn" => "stop"
      | "tool_use" => "tool_calls"
      | "max_tokens" => "length"
      | _ => "stop"

def orNull (v : Option Value) : Value := v.getD .null

/-- The cache counters are echoed as they came, unless both are zero. -/
def echoCache (source : Value) (usage : Members) : Members :=
  if i64Field source "cache_creation_input_tokens" ≠ 0 ∨
      i64Field source "cache_read_input_tokens" ≠ 0 then
    ["cache_read_input_tokens", "cache_creation_input_tokens"].foldl
      (fun usage key => ((source.get? key).map fun v => setMember key v usage).getD usage) usage
  else usage

def promptTokens (source : Value) : Int :=
  wrap (i64Field source "input_tokens" + i64Field source "cache_creation_input_tokens" +
    i64Field source "cache_read_input_tokens")

/-! The whole message. -/

def chatToolCall (item : Value) : Value :=
  .obj [("id", orNull (item.get? "id")), ("type", .str "function"),
    ("function", .obj [("name", orNull (item.get? "name")),
      ("arguments", .str (jsonStr (orNull (item.get? "input"))))])]

def chatUsage (source : Value) : Value :=
  .obj (echoCache source
    [("prompt_tokens", ofI64 (promptTokens source)),
      ("completion_tokens", ofI64 (i64Field source "output_tokens")),
      ("total_tokens", ofI64 (wrap (i64Field source "input_tokens" +
        i64Field source "output_tokens" + i64Field source "cache_creation_input_tokens" +
        i64Field source "cache_read_input_tokens")))])

def anthropicChatToOpenai (now : U64) (strict : Bool) (response : Value) : Value :=
  let items := ((response.get? "content").bind asArr?).getD []
  let content := String.join (items.filterMap fun item =>
    if eventType item = some "text" then (item.get? "text").bind Value.asStr? else none)
  let toolCalls := (items.filter fun item => eventType item = some "tool_use").map chatToolCall
  let blocks := items.filter fun item => eventType item ≠ some "tool_use"
  let message : Members := [("role", .str "assistant"), ("content", .str content)] ++
    (if toolCalls = [] then [] else [("tool_calls", .arr toolCalls)]) ++
    (if strict then [] else [("content_blocks", .arr blocks)])
  .obj [("id", orNull (response.get? "id")), ("object", .str "chat.completion"),
    ("created", .num (.posInt now)), ("model", orNull (response.get? "model")),
    ("provider", .str "anthropic"),
    ("choices", .arr [.obj [("message", .obj message), ("index", .num (.posInt 0)),
      ("logprobs", .null), ("finish_reason", .str (transformFinishReason
        ((response.get? "stop_reason").bind Value.asStr?) strict))]]),
    ("usage", chatUsage (orNull (response.get? "usage")))]

/-! The stream. -/

/-- One event of the chat surface. -/
inductive ChatEvent where
  | data (body : Value)
  | done

def ChatEvent.text : ChatEvent → String
  | .data body => "data: " ++ jsonStr body ++ "\n\n"
  | .done => "data: [DONE]\n\n"

/-- What a stream of Anthropic events leaves behind for the next event. -/
structure AnthropicState where
  toolIndex : Option Int := none
  usage : Option Value := none
  model : Option String := none

/-- An index of zero counts as none. -/
def nextToolIndex : Option Int → Int
  | some n => if n ≠ 0 then n + 1 else 0
  | none => 0

section

variable (now : U64) (fallbackId : String)

/-- A chunk of one choice, after its identity. -/
def chatChunkBody (model : String) (choice : Members) (more : Members) : Value :=
  .obj ([("id", .str fallbackId), ("object", .str "chat.completion.chunk"),
    ("created", .num (.posInt now)), ("model", .str model), ("provider", .str "anthropic"),
    ("choices", .arr [.obj choice])] ++ more)

def errorChunk (error : Value) : Value :=
  .obj [("id", .str fallbackId), ("object", .str "chat.completion.chunk"),
    ("created", .num (.posInt now)), ("model", .str ""), ("error", error),
    ("choices", .arr [.obj [("finish_reason", .null), ("delta", .obj [("content", .str "")])]])]

/-- The members of an open choice. -/
def openChoice (delta : Members) : Members :=
  [("delta", .obj delta), ("index", .num (.posInt 0)), ("logprobs", .null),
    ("finish_reason", .null)]

/-- An event of a type, by one of its members. -/
def memberOf (type key : String) (parsed : Value) : Option Value :=
  if eventType parsed = some type then parsed.get? key else none

def messageUsage (parsed : Value) : Option Value :=
  (memberOf "message_start" "message" parsed).bind (·.get? "usage")

def startedState (parsed usage : Value) (state : AnthropicState) : AnthropicState :=
  { state with
    model := some ((((parsed.get? "message").bind (·.get? "model")).bind Value.asStr?).getD "")
    usage := some (.obj (echoCache usage [("prompt_tokens", ofI64 (promptTokens usage))])) }

def streamedUsage (state : AnthropicState) (usage : Value) : Value :=
  let output := i64Field usage "output_tokens"
  let prompt := (state.usage.map fun usage => i64Field usage "prompt_tokens").getD 0
  let known := (state.usage.bind asObj?).getD []
  .obj (setMember "total_tokens" (ofI64 (wrap (prompt + output)))
    (known.foldl (fun usage member => setMember member.1 member.2 usage)
      [("completion_tokens", ofI64 output)]))

def isToolBlockStart (parsed : Value) : Bool :=
  (memberOf "content_block_start" "content_block" parsed).any (eventType · = some "tool_use")

def partialJson (parsed : Value) : Option Value :=
  ((parsed.get? "delta").bind (·.get? "partial_json")).filter (!isNull ·)

def ofIndex (index : Option Int) : Value := orNull (index.map ofI64)

/-- The calls in an event: one that starts, or a piece of one. -/
def toolCallsOf (parsed : Value) (state : AnthropicState) : List Value :=
  if isToolBlockStart parsed then
    let block := orNull (parsed.get? "content_block")
    [.obj [("index", ofIndex state.toolIndex), ("id", orNull (block.get? "id")),
      ("type", .str "function"),
      ("function", .obj [("name", orNull (block.get? "name")), ("arguments", .str "")])]]
  else if eventType parsed = some "content_block_delta" then
    (partialJson parsed).toList.map fun piece =>
      .obj [("index", ofIndex state.toolIndex), ("function", .obj [("arguments", piece)])]
  else []

def anthropicChatChunk (strict : Bool) (parsed : Value) (state : AnthropicState) :
    AnthropicState × List ChatEvent :=
  let model := state.model.getD ""
  match memberOf "error" "error" parsed, messageUsage parsed, memberOf "message_delta" "usage" parsed with
  | some error, _, _ => (state, [.data (errorChunk now fallbackId error), .done])
  | _, some usage, _ =>
    let state := startedState parsed usage state
    (state, [.data (chatChunkBody now fallbackId (state.model.getD "")
      (openChoice [("content", .str "")]) [])])
  | _, _, some usage =>
    let stopReason := ((parsed.get? "delta").bind (·.get? "stop_reason")).bind Value.asStr?
    (state, [.data (chatChunkBody now fallbackId model
      [("index", .num (.posInt 0)), ("delta", .obj []),
        ("finish_reason", .str (transformFinishReason stopReason strict))]
      [("usage", streamedUsage state usage)])])
  | none, none, none =>
    let state :=
      if isToolBlockStart parsed then
        { state with toolIndex := some (nextToolIndex state.toolIndex) }
      else state
    let calls := toolCallsOf parsed state
    let delta : Members :=
      (((parsed.get? "delta").bind (·.get? "text")).map fun text => ("content", text)).toList ++
        (if calls = [] then [] else [("tool_calls", .arr calls)])
    (state, [.data (chatChunkBody now fallbackId model (openChoice delta) [])])

/-- One event; a payload that is not JSON is refused. -/
def anthropicChatStream (decode : Bytes → Option Value) (strict : Bool) (event : ParsedEvent)
    (state : AnthropicState) : Option (AnthropicState × List ChatEvent) :=
  if event.name = some "ping" ∨ event.name = some "content_block_stop" then some (state, [])
  else if event.name = some "message_stop" then some (state, [.done])
  else if event.payload = "" then some (state, [])
  else (decode (utf8 event.payload)).map fun parsed =>
    anthropicChatChunk now fallbackId strict parsed state

/-- What is written for the rest of a stream, and whether all of it was accepted. -/
def anthropicChatRun (decode : Bytes → Option Value) (strict : Bool) :
    AnthropicState → List ParsedEvent → List ChatEvent × Bool
  | _, [] => ([], true)
  | state, event :: events =>
    match anthropicChatStream now fallbackId decode strict event state with
    | none => ([], false)
    | some (state, out) =>
      let rest := anthropicChatRun decode strict state events
      (out ++ rest.1, rest.2)

end

/-! The client. -/

/-- A tool call, each of its texts the pieces that came for it. -/
structure ClientCall where
  id : String := ""
  name : String := ""
  arguments : String := ""
  deriving DecidableEq

/-- What a client of the chat surface has put together. -/
structure Assembled where
  content : String := ""
  calls : List (Option U64 × ClientCall) := []
  finishReason : Option String := none
  usage : Option Value := none

def textAt (key : String) (v : Option Value) : String :=
  ((v.bind (·.get? key)).bind Value.asStr?).getD ""

def ClientCall.add (call : ClientCall) (delta : Value) : ClientCall :=
  let function := delta.get? "function"
  { id := call.id ++ textAt "id" (some delta)
    name := call.name ++ textAt "name" function
    arguments := call.arguments ++ textAt "arguments" function }

/-- A piece goes to the call of its index. -/
def mergeCall (calls : List (Option U64 × ClientCall)) (delta : Value) :
    List (Option U64 × ClientCall) :=
  let index := (delta.get? "index").bind asU64?
  match calls with
  | [] => [(index, ClientCall.add {} delta)]
  | (known, call) :: calls =>
    if known = index then (known, call.add delta) :: calls
    else (known, call) :: mergeCall calls delta

def firstChoice (body : Value) : Option Value :=
  ((body.get? "choices").bind asArr?).bind List.head?

def Assembled.takeChunk (a : Assembled) (body : Value) : Assembled :=
  let choice := firstChoice body
  let delta := choice.bind (·.get? "delta")
  { content := a.content ++ textAt "content" delta
    calls := (((delta.bind (·.get? "tool_calls")).bind asArr?).getD []).foldl mergeCall a.calls
    finishReason := ((choice.bind (·.get? "finish_reason")).bind Value.asStr?).or a.finishReason
    usage := ((body.get? "usage").filter (!isNull ·)).or a.usage }

def Assembled.take (a : Assembled) : ChatEvent → Assembled
  | .data body => a.takeChunk body
  | .done => a

/-- A message as its reader has it. -/
structure Answer where
  content : String
  calls : List ClientCall
  finishReason : Option String
  usage : Option Value

def Assembled.answer (a : Assembled) : Answer :=
  ⟨a.content, a.calls.map Prod.snd, a.finishReason, a.usage⟩

/-- The message in a whole answer. -/
def readAnswer (body : Value) : Answer :=
  let choice := firstChoice body
  let message := choice.bind (·.get? "message")
  { content := textAt "content" message
    calls := (((message.bind (·.get? "tool_calls")).bind asArr?).getD []).map (ClientCall.add {})
    finishReason := (choice.bind (·.get? "finish_reason")).bind Value.asStr?
    usage := (body.get? "usage").filter (!isNull ·) }

/-! A standard stream of a message. -/

inductive ContentBlock where
  | text (text : String)
  | toolUse (id name : String) (input : Value)

namespace ContentBlock

def isToolUse : ContentBlock → Bool
  | text _ => false
  | toolUse _ _ _ => true

def said : ContentBlock → String
  | text said => said
  | toolUse _ _ _ => ""

/-- The call of a block, its input in the compact text. -/
def call? : ContentBlock → Option ClientCall
  | text _ => none
  | toolUse id name input => some ⟨id, name, jsonStr input⟩

end ContentBlock

def stringAt (key : String) (v : Value) : Option String := (v.get? key).bind Value.asStr?

def readItem (item : Value) : Option ContentBlock :=
  if eventType item = some "text" then (stringAt "text" item).map .text
  else if eventType item = some "tool_use" then
    (stringAt "id" item).bind fun id => (stringAt "name" item).bind fun name =>
      (item.get? "input").map (.toolUse id name)
  else none

/-- The event is the start of a block of the type, and no delta. -/
structure StartsBlock (type : String) (block v : Value) : Prop where
  starts : memberOf "content_block_start" "content_block" v = some block
  typed : eventType block = some type
  plain : v.get? "delta" = none

/-- The event is a delta with a piece of text under one key, and nothing under another. -/
structure DeltaOf (key other piece : String) (v : Value) : Prop where
  typed : eventType v = some "content_block_delta"
  piece : (v.get? "delta").bind (·.get? key) = some (.str piece)
  only : (v.get? "delta").bind (·.get? other) = none

/-- The events that deliver a block: its start, its text or its input in pieces, its stop. -/
inductive DeliversBlock (decode : Bytes → Option Value) : ContentBlock → List Value → Prop
  | text {start block stop : Value} {pieces : List String} {deltas : List Value}
      (hstart : StartsBlock "text" block start)
      (hdeltas : List.Forall₂ (DeltaOf "text" "partial_json") pieces deltas)
      (hstop : eventType stop = some "content_block_stop") :
      DeliversBlock decode (.text (String.join pieces)) (start :: deltas ++ [stop])
  | toolUse {start block stop input : Value} {id name : String} {pieces : List String}
      {deltas : List Value} (hstart : StartsBlock "tool_use" block start)
      (hid : stringAt "id" block = some id) (hname : stringAt "name" block = some name)
      (hdeltas : List.Forall₂ (DeltaOf "partial_json" "text") pieces deltas)
      (hinput : decode (utf8 (String.join pieces)) = some input)
      (hstop : eventType stop = some "content_block_stop") :
      DeliversBlock decode (.toolUse id name input) (start :: deltas ++ [stop])

/-- The event has the data, and its type for a name. -/
structure Carries (decode : Bytes → Option Value) (event : ParsedEvent) (v : Value) : Prop where
  name : event.name = eventType v
  payload : event.payload ≠ ""
  decoded : decode (utf8 event.payload) = some v

def inputCounters : List String :=
  ["input_tokens", "cache_creation_input_tokens", "cache_read_input_tokens"]

/-- A message and a stream that delivers it. The counters of the input come at the start, that of
the output with the reason of the stop; pings may stand anywhere. -/
structure DeliveredMessage (decode : Bytes → Option Value) where
  response : Value
  events : List ParsedEvent
  items : List Value
  blocks : List ContentBlock
  usage : Value
  start : Value
  startUsage : Value
  sent : List (List Value)
  delta : Value
  deltaUsage : Value
  stop : Value
  content : response.get? "content" = some (.arr items)
  read : List.Forall₂ (fun item block => readItem item = some block) items blocks
  counted : response.get? "usage" = some usage
  starts : messageUsage start = some startUsage
  input : ∀ key ∈ inputCounters, startUsage.get? key = usage.get? key
  delivered : List.Forall₂ (DeliversBlock decode) blocks sent
  ends : memberOf "message_delta" "usage" delta = some deltaUsage
  output : deltaUsage.get? "output_tokens" = usage.get? "output_tokens"
  reason : (delta.get? "delta").bind (·.get? "stop_reason") = response.get? "stop_reason"
  stops : eventType stop = some "message_stop"
  carried : List.Forall₂ (Carries decode) (events.filter fun event => event.name ≠ some "ping")
    (start :: sent.flatten ++ [delta, stop])

/-- The same call, its input as a JSON text on one side and compact on the other. -/
def SameCall (decode : Bytes → Option Value) (streamed whole : ClientCall) : Prop :=
  streamed.id = whole.id ∧ streamed.name = whole.name ∧
    ∃ input, decode (utf8 streamed.arguments) = some input ∧ whole.arguments = jsonStr input

/-- The same message, its usage up to the order of members. -/
structure SameAnswer (decode : Bytes → Option Value) (streamed whole : Answer) : Prop where
  content : streamed.content = whole.content
  calls : List.Forall₂ (SameCall decode) streamed.calls whole.calls
  finishReason : streamed.finishReason = whole.finishReason
  usage : ∃ u w, streamed.usage = some u ∧ whole.usage = some w ∧ ∀ key, u.get? key = w.get? key

/-! What a client has after each event. -/

section

variable (now : U64) (fallbackId : String) (strict : Bool)

/-- The transform and the client after the data of one event. -/
def clientStep (s : AnthropicState × Assembled) (v : Value) : AnthropicState × Assembled :=
  if eventType v = some "content_block_stop" ∨ eventType v = some "message_stop" then s
  else
    let out := anthropicChatChunk now fallbackId strict v s.1
    (out.1, out.2.foldl Assembled.take s.2)

variable {now fallbackId strict} {decode : Bytes → Option Value} {state : AnthropicState}
  {a : Assembled} {v u : Value} {type key : String}

theorem memberOf_eq_some :
    memberOf type key v = some u ↔ eventType v = some type ∧ v.get? key = some u := by
  simp [memberOf]

theorem memberOf_of_ne (h : eventType v ≠ some type) : memberOf type key v = none := if_neg h

open Assembled

variable (now fallbackId strict) in
/-- The client of a stream that carries these values. -/
theorem run_of_carried {events : List ParsedEvent} {values : List Value}
    (h : List.Forall₂ (Carries decode) (events.filter fun event => event.name ≠ some "ping") values)
    (state : AnthropicState) (a : Assembled) :
    (anthropicChatRun now fallbackId decode strict state events).2 = true ∧
      (anthropicChatRun now fallbackId decode strict state events).1.foldl take a =
        (values.foldl (clientStep now fallbackId strict) (state, a)).2 := by
  induction events generalizing state a values with
  | nil =>
    cases h
    exact ⟨rfl, rfl⟩
  | cons event events ih =>
    by_cases hping : event.name = some "ping"
    · rw [List.filter_cons_of_neg (by simp [hping])] at h
      have hstep : anthropicChatStream now fallbackId decode strict event state = some (state, []) :=
        if_pos (.inl hping)
      simpa [anthropicChatRun, hstep] using ih h state a
    · rw [filter_cons_of_pos (by simp [hping])] at h
      obtain ⟨v, values, hcarries, hrest, rfl⟩ := List.forall₂_cons_left_iff.mp h
      obtain ⟨state', out, hstep, hclient⟩ : ∃ state' out,
          anthropicChatStream now fallbackId decode strict event state = some (state', out) ∧
            clientStep now fallbackId strict (state, a) v = (state', out.foldl take a) := by
        rw [anthropicChatStream, clientStep, if_neg hcarries.payload, hcarries.decoded,
          ← hcarries.name]
        by_cases hblock : event.name = some "content_block_stop"
        · exact ⟨state, [], if_pos (.inr hblock), if_pos (.inl hblock)⟩
        · rw [if_neg (by simp [hping, hblock])]
          by_cases hstop : event.name = some "message_stop"
          · exact ⟨state, [.done], if_pos hstop, if_pos (.inr hstop)⟩
          · rw [if_neg hstop, if_neg (by simp [hblock, hstop])]
            exact ⟨_, _, rfl, rfl⟩
      obtain ⟨hall, hfold⟩ := ih hrest state' (out.foldl take a)
      rw [anthropicChatRun, hstep, foldl_cons, hclient]
      refine ⟨hall, ?_⟩
      rw [← hfold, foldl_append]

theorem clientStep_eq (hblock : eventType v ≠ some "content_block_stop")
    (hstop : eventType v ≠ some "message_stop") :
    clientStep now fallbackId strict (state, a) v =
      ((anthropicChatChunk now fallbackId strict v state).1,
        (anthropicChatChunk now fallbackId strict v state).2.foldl take a) :=
  if_neg (by simp [hblock, hstop])

theorem clientStep_stop (h : eventType v = some "content_block_stop") (s : AnthropicState × Assembled) :
    clientStep now fallbackId strict s v = s := if_pos (.inl h)

theorem takeChunk_open (a : Assembled) (model : String) (delta : Members) :
    a.takeChunk (chatChunkBody now fallbackId model (openChoice delta) []) =
      { a with
        content := a.content ++ textAt "content" (some (.obj delta))
        calls := (((delta.lookup "tool_calls").bind asArr?).getD []).foldl mergeCall a.calls } := by
  simp [takeChunk, firstChoice, chatChunkBody, openChoice, asArr?, Value.get?, Value.asStr?,
    List.lookup]

theorem clientStep_start (h : messageUsage v = some u) :
    clientStep now fallbackId strict (state, a) v = (startedState v u state, a) := by
  have htype : eventType v = some "message_start" := by
    by_contra hne
    simp [messageUsage, memberOf_of_ne hne] at h
  rw [clientStep_eq (by simp [htype]) (by simp [htype]), anthropicChatChunk,
    memberOf_of_ne (by simp [htype]), h]
  simp [take, takeChunk_open, textAt, Value.get?, Value.asStr?, List.lookup]

/-- An event that neither starts nor ends the message, nor fails it. -/
theorem clientStep_inner (htype : eventType v = some "content_block_start" ∨
      eventType v = some "content_block_delta") :
    clientStep now fallbackId strict (state, a) v =
      let state :=
        if isToolBlockStart v then { state with toolIndex := some (nextToolIndex state.toolIndex) }
        else state
      (state, { a with
        content := a.content ++ textAt "text" (v.get? "delta")
        calls := (toolCallsOf v state).foldl mergeCall a.calls }) := by
  have hne : eventType v ≠ some "content_block_stop" ∧ eventType v ≠ some "message_stop" ∧
      eventType v ≠ some "error" ∧ eventType v ≠ some "message_start" ∧
      eventType v ≠ some "message_delta" := by
    rcases htype with h | h <;> simp [h]
  rw [clientStep_eq hne.1 hne.2.1, anthropicChatChunk, messageUsage, memberOf_of_ne hne.2.2.1,
    memberOf_of_ne hne.2.2.2.1, memberOf_of_ne hne.2.2.2.2]
  simp only [Option.bind_none, foldl_cons, foldl_nil, take, takeChunk_open]
  generalize (if isToolBlockStart v then
    { state with toolIndex := some (nextToolIndex state.toolIndex) } else state) = state'
  unfold textAt
  generalize (v.get? "delta").bind (·.get? "text") = text
  cases text <;> by_cases hcalls : toolCallsOf v state' = [] <;>
    simp [hcalls, Value.get?, List.lookup, asArr?]

/-! Whole blocks. -/

theorem textAt_of_eq {o : Option Value} {piece : String}
    (h : o.bind (·.get? key) = some (.str piece)) : textAt key o = piece := by
  simp [textAt, h, Value.asStr?]

theorem textAt_of_none {o : Option Value} (h : o.bind (·.get? key) = none) : textAt key o = "" := by
  simp [textAt, h]

theorem isToolBlockStart_delta (h : eventType v = some "content_block_delta") :
    isToolBlockStart v = false := by
  rw [isToolBlockStart, memberOf_of_ne (by simp [h])]
  rfl

theorem client_textDeltas {pieces : List String} {deltas : List Value}
    (h : List.Forall₂ (DeltaOf "text" "partial_json") pieces deltas) :
    deltas.foldl (clientStep now fallbackId strict) (state, a) =
      (state, { a with content := a.content ++ join pieces }) := by
  induction h generalizing a with
  | nil => simp [join]
  | @cons piece v pieces deltas hv _ ih =>
    have hcalls : toolCallsOf v state = [] := by
      simp [toolCallsOf, isToolBlockStart_delta hv.typed, partialJson, hv.only]
    rw [foldl_cons, clientStep_inner (.inr hv.typed), isToolBlockStart_delta hv.typed]
    simp only [Bool.false_eq_true, if_false, hcalls, foldl_nil, textAt_of_eq hv.piece]
    rw [ih]
    simp [join_cons, String.append_assoc]

theorem client_textBlock {text : String} {sent : List Value}
    (h : DeliversBlock decode (.text text) sent) :
    sent.foldl (clientStep now fallbackId strict) (state, a) =
      (state, { a with content := a.content ++ text }) := by
  cases h with
  | @text start block stop pieces deltas hstart hdeltas hstop =>
    have htype := (memberOf_eq_some.mp hstart.starts).1
    have htool : isToolBlockStart start = false := by
      simp [isToolBlockStart, hstart.starts, hstart.typed]
    have hcalls : toolCallsOf start state = [] := by
      simp [toolCallsOf, htool, htype]
    rw [List.cons_append, foldl_cons, foldl_append, clientStep_inner (.inl htype), htool]
    simp only [Bool.false_eq_true, if_false, hcalls, foldl_nil]
    rw [textAt_of_none (by simp [hstart.plain]), client_textDeltas hdeltas]
    simp [clientStep_stop hstop]

theorem asU64?_ofIndex_zero : asU64? (ofIndex (some 0)) = some 0 := by decide

theorem mergeCall_piece (call : ClientCall) (piece : String) :
    mergeCall [(some 0, call)]
      (.obj [("index", ofIndex (some 0)), ("function", .obj [("arguments", .str piece)])]) =
      [(some 0, { call with arguments := call.arguments ++ piece })] := by
  simp [mergeCall, ClientCall.add, textAt, Value.get?, List.lookup, Value.asStr?,
    asU64?_ofIndex_zero]

theorem mergeCall_start {block : Value} {id name : String} (hid : stringAt "id" block = some id)
    (hname : stringAt "name" block = some name) :
    mergeCall [] (.obj [("index", ofIndex (some 0)), ("id", orNull (block.get? "id")),
      ("type", .str "function"),
      ("function", .obj [("name", orNull (block.get? "name")), ("arguments", .str "")])]) =
      [(some 0, ⟨id, name, ""⟩)] := by
  obtain ⟨vid, hvid, hid⟩ := Option.bind_eq_some_iff.mp hid
  obtain ⟨vname, hvname, hname⟩ := Option.bind_eq_some_iff.mp hname
  rw [hvid, hvname]
  cases vid <;> cases hid
  cases vname <;> cases hname
  simp [mergeCall, ClientCall.add, textAt, orNull, Value.get?, List.lookup, asU64?_ofIndex_zero,
    Value.asStr?]

theorem client_inputDeltas {pieces : List String} {deltas : List Value}
    (h : List.Forall₂ (DeltaOf "partial_json" "text") pieces deltas) {call : ClientCall}
    (hindex : state.toolIndex = some 0) (hcalls : a.calls = [(some 0, call)]) :
    deltas.foldl (clientStep now fallbackId strict) (state, a) =
      (state, { a with calls :=
        [(some 0, { call with arguments := call.arguments ++ join pieces })] }) := by
  induction h generalizing a call with
  | nil => simp [join, ← hcalls]
  | @cons piece v pieces deltas hv _ ih =>
    have hof : toolCallsOf v state =
        [.obj [("index", ofIndex (some 0)), ("function", .obj [("arguments", .str piece)])]] := by
      simp [toolCallsOf, isToolBlockStart_delta hv.typed, partialJson, hv.piece, hv.typed, isNull,
        hindex]
    rw [foldl_cons, clientStep_inner (.inr hv.typed), isToolBlockStart_delta hv.typed]
    simp only [Bool.false_eq_true, if_false, hof, foldl_cons, foldl_nil, hcalls,
      mergeCall_piece, textAt_of_none hv.only, String.append_empty]
    rw [ih rfl]
    simp [join_cons, String.append_assoc]

/-- The first call is put together under the index zero. -/
theorem client_toolBlock {id name : String} {input : Value} {sent : List Value}
    (h : DeliversBlock decode (.toolUse id name input) sent)
    (hindex : state.toolIndex.getD 0 = 0) (hcalls : a.calls = []) :
    ∃ arguments, decode (utf8 arguments) = some input ∧
      sent.foldl (clientStep now fallbackId strict) (state, a) =
        ({ state with toolIndex := some 0 }, { a with calls := [(some 0, ⟨id, name, arguments⟩)] }) := by
  cases h with
  | @toolUse start block stop _ _ _ pieces deltas hstart hid hname hdeltas hinput hstop =>
    obtain ⟨htype, hblock⟩ := memberOf_eq_some.mp hstart.starts
    have htool : isToolBlockStart start = true := by
      simp [isToolBlockStart, hstart.starts, hstart.typed]
    have hnext : nextToolIndex state.toolIndex = 0 := by
      cases hstate : state.toolIndex with
      | none => rfl
      | some n =>
        rw [hstate] at hindex
        exact if_neg (by simpa using hindex)
    have hstate : toolCallsOf start { state with toolIndex := some 0 } =
        [.obj [("index", ofIndex (some 0)), ("id", orNull (block.get? "id")),
          ("type", .str "function"),
          ("function", .obj [("name", orNull (block.get? "name")), ("arguments", .str "")])]] := by
      simp [toolCallsOf, htool, hblock, orNull]
    refine ⟨join pieces, hinput, ?_⟩
    rw [List.cons_append, foldl_cons, foldl_append, clientStep_inner (.inl htype), htool]
    simp only [if_true, hnext, hstate, foldl_cons, foldl_nil, hcalls, mergeCall_start hid hname]
    rw [textAt_of_none (by simp [hstart.plain]), client_inputDeltas hdeltas rfl rfl,
      clientStep_stop hstop]
    simp

variable {blocks : List ContentBlock}

open ContentBlock

variable (now fallbackId strict state a) in
/-- Blocks with at most one call among them, counting the one the client has. -/
theorem client_blocks {sent : List (List Value)}
    (h : List.Forall₂ (DeliversBlock decode) blocks sent) (hindex : state.toolIndex.getD 0 = 0)
    (hone : a.calls.length + (blocks.filter isToolUse).length ≤ 1) :
    ∃ index called, sent.flatten.foldl (clientStep now fallbackId strict) (state, a) =
      ({ state with toolIndex := index },
        { a with
          content := a.content ++ join (blocks.map said)
          calls := a.calls ++ called }) ∧
      List.Forall₂ (SameCall decode) (called.map Prod.snd) (blocks.filterMap call?) := by
  induction h generalizing state a with
  | nil => exact ⟨state.toolIndex, [], by simp [join], .nil⟩
  | @cons block vs blocks sent hblock _ ih =>
    rw [List.flatten_cons, foldl_append]
    cases block with
    | text text =>
      rw [client_textBlock hblock]
      obtain ⟨index, called, hfold, hcalled⟩ := ih state { a with content := a.content ++ text }
        hindex (by simpa [isToolUse] using hone)
      refine ⟨index, called, ?_, hcalled⟩
      rw [hfold]
      simp [said, join_cons, String.append_assoc]
    | toolUse id name input =>
      have hcalls : a.calls = [] ∧ (blocks.filter isToolUse) = [] := by
        rw [filter_cons_of_pos rfl, List.length_cons] at hone
        exact ⟨List.eq_nil_of_length_eq_zero (by omega), List.eq_nil_of_length_eq_zero (by omega)⟩
      obtain ⟨arguments, hdecode, hfirst⟩ := client_toolBlock hblock hindex hcalls.1
      rw [hfirst]
      obtain ⟨index, called, hfold, hcalled⟩ :=
        ih { state with toolIndex := some 0 } { a with calls := [(some 0, ⟨id, name, arguments⟩)] }
          rfl (by simp [hcalls.2])
      refine ⟨index, (some 0, ⟨id, name, arguments⟩) :: called, ?_, ?_⟩
      · rw [hfold]
        simp [said, join_cons, hcalls.1]
      · exact .cons ⟨rfl, rfl, input, hdecode, rfl⟩ hcalled

theorem clientStep_delta (h : memberOf "message_delta" "usage" v = some u) :
    clientStep now fallbackId strict (state, a) v =
      (state, { a with
        finishReason := some (transformFinishReason
          (((v.get? "delta").bind (·.get? "stop_reason")).bind Value.asStr?) strict)
        usage := some (streamedUsage state u) }) := by
  have htype := (memberOf_eq_some.mp h).1
  have hstart : eventType v ≠ some "message_start" := by simp [htype]
  rw [clientStep_eq (by simp [htype]) (by simp [htype]), anthropicChatChunk, messageUsage,
    memberOf_of_ne (by simp [htype]), memberOf_of_ne hstart, h]
  simp [take, takeChunk, firstChoice, chatChunkBody, textAt, asArr?, Value.get?,
    Value.asStr?, List.lookup, streamedUsage, isNull]

/-! The usage. -/

theorem i64Field_congr {u w : Value} (h : u.get? key = w.get? key) :
    i64Field u key = i64Field w key := by
  simp only [i64Field, tokenValue, h]

theorem wrap_range (z : Int) : i64Min ≤ wrap z ∧ wrap z ≤ i64Max := by
  have hle := Int.le_bmod (x := z) (m := 2 ^ 64) (by decide)
  have hlt := Int.bmod_lt (x := z) (m := 2 ^ 64) (by decide)
  unfold wrap i64Min i64Max
  omega

theorem asI64?_ofI64 {z : Int} (h : i64Min ≤ z ∧ z ≤ i64Max) : asI64? (ofI64 z) = some z := by
  unfold i64Min i64Max at h
  unfold ofI64
  split
  · next hz =>
    have hlt : z.toNat < 2 ^ 64 := by omega
    have hle : (z.toNat : Int) ≤ i64Max := by
      unfold i64Max
      omega
    simp only [asI64?, Fin.ofNat, Nat.mod_eq_of_lt hlt, if_pos hle]
    simp [hz]
  · have hlt : (-z - 1).toNat < 2 ^ 63 := by omega
    simp only [asI64?, Fin.ofNat, Nat.mod_eq_of_lt hlt]
    congr 1
    omega

theorem wrap_add_wrap (x y : Int) : wrap (wrap x + y) = wrap (x + y) := by
  exact Int.bmod_add_bmod

theorem echoCache_congr {u w : Value} (h : ∀ key ∈ inputCounters, u.get? key = w.get? key) :
    echoCache u = echoCache w := by
  funext usage
  have hcreation := h "cache_creation_input_tokens" (by decide)
  have hread := h "cache_read_input_tokens" (by decide)
  simp only [echoCache, i64Field_congr hcreation, i64Field_congr hread, foldl_cons,
    foldl_nil, hcreation, hread]

theorem promptTokens_congr {u w : Value} (h : ∀ key ∈ inputCounters, u.get? key = w.get? key) :
    promptTokens u = promptTokens w := by
  simp only [promptTokens, i64Field_congr (h "input_tokens" (by decide)),
    i64Field_congr (h "cache_creation_input_tokens" (by decide)),
    i64Field_congr (h "cache_read_input_tokens" (by decide))]

/-- Each counter is echoed or not, whatever it is added to. -/
theorem echoCache_eq (source : Value) : ∃ read creation : Option Value, ∀ usage : Members,
    echoCache source usage =
      (creation.toList.foldl (fun usage v => setMember "cache_creation_input_tokens" v usage)
        (read.toList.foldl (fun usage v => setMember "cache_read_input_tokens" v usage) usage)) := by
  by_cases h : i64Field source "cache_creation_input_tokens" ≠ 0 ∨
      i64Field source "cache_read_input_tokens" ≠ 0
  · refine ⟨source.get? "cache_read_input_tokens", source.get? "cache_creation_input_tokens", ?_⟩
    intro usage
    rw [echoCache, if_pos h, foldl_cons, foldl_cons, foldl_nil]
    cases source.get? "cache_read_input_tokens" <;>
      cases source.get? "cache_creation_input_tokens" <;> rfl
  · exact ⟨none, none, fun usage => if_neg h⟩

theorem i64Field_echoCache_prompt (source : Value) {z : Int} (h : i64Min ≤ z ∧ z ≤ i64Max) :
    i64Field (.obj (echoCache source [("prompt_tokens", ofI64 z)])) "prompt_tokens" = z := by
  obtain ⟨read, creation, hecho⟩ := echoCache_eq source
  have hlookup : (echoCache source [("prompt_tokens", ofI64 z)]).lookup "prompt_tokens" =
      some (ofI64 z) := by
    rw [hecho]
    cases read <;> cases creation <;> rfl
  simp [i64Field, tokenValue, Value.get?, hlookup, asI64?_ofI64 h]

/-- The streamed usage has the members of the whole one. -/
theorem get?_streamedUsage {start delta usage : Value} (parsed : Value)
    (hinput : ∀ key ∈ inputCounters, start.get? key = usage.get? key)
    (houtput : delta.get? "output_tokens" = usage.get? "output_tokens") (state : AnthropicState)
    (key : String) :
    (streamedUsage (startedState parsed start state) delta).get? key =
      (chatUsage usage).get? key := by
  have htotal : wrap (promptTokens usage + i64Field usage "output_tokens") =
      wrap (i64Field usage "input_tokens" + i64Field usage "output_tokens" +
        i64Field usage "cache_creation_input_tokens" +
        i64Field usage "cache_read_input_tokens") := by
    rw [promptTokens, wrap_add_wrap]
    exact congrArg wrap (by ring)
  simp only [streamedUsage, startedState, Option.map_some, Option.getD_some, Option.bind_some, asObj?,
    chatUsage, echoCache_congr hinput, promptTokens_congr hinput, i64Field_congr houtput, ← htotal]
  rw [i64Field_echoCache_prompt usage (z := promptTokens usage) (wrap_range _)]
  obtain ⟨read, creation, hecho⟩ := echoCache_eq usage
  rw [hecho, hecho]
  by_cases hkey : key ∈ ["total_tokens", "completion_tokens", "prompt_tokens",
    "cache_read_input_tokens", "cache_creation_input_tokens"]
  · simp only [List.mem_cons, not_mem_nil, or_false] at hkey
    rcases hkey with rfl | rfl | rfl | rfl | rfl <;> cases read <;> cases creation <;> rfl
  · simp only [List.mem_cons, not_mem_nil, or_false, not_or] at hkey
    obtain ⟨htotal, hcompletion, hprompt, hread, hcreation⟩ := hkey
    cases read <;> cases creation <;>
      simp [Value.get?, lookup_cons_eq, htotal, hcompletion, hprompt, hread, hcreation, setMember]

/-! The whole message. -/

theorem readItem_cases {item : Value} {block : ContentBlock} (h : readItem item = some block) :
    (∃ text, block = .text text ∧ eventType item = some "text" ∧ stringAt "text" item = some text) ∨
    ∃ id name input, block = .toolUse id name input ∧ eventType item = some "tool_use" ∧
      stringAt "id" item = some id ∧ stringAt "name" item = some name ∧
      item.get? "input" = some input := by
  unfold readItem at h
  split at h
  · next htype =>
    obtain ⟨text, htext, rfl⟩ := Option.map_eq_some_iff.mp h
    exact .inl ⟨text, rfl, htype, htext⟩
  · split at h
    · next htype =>
      obtain ⟨id, hid, h⟩ := Option.bind_eq_some_iff.mp h
      obtain ⟨name, hname, h⟩ := Option.bind_eq_some_iff.mp h
      obtain ⟨input, hinput, rfl⟩ := Option.map_eq_some_iff.mp h
      exact .inr ⟨id, name, input, rfl, htype, hid, hname, hinput⟩
    · cases h

theorem add_chatToolCall {item input : Value} {id name : String} (hid : stringAt "id" item = some id)
    (hname : stringAt "name" item = some name) (hinput : item.get? "input" = some input) :
    ClientCall.add {} (chatToolCall item) = ⟨id, name, jsonStr input⟩ := by
  obtain ⟨vid, hvid, hid⟩ := Option.bind_eq_some_iff.mp hid
  obtain ⟨vname, hvname, hname⟩ := Option.bind_eq_some_iff.mp hname
  rw [chatToolCall, hvid, hvname, hinput]
  cases vid <;> cases hid
  cases vname <;> cases hname
  simp [ClientCall.add, textAt, orNull, Value.get?, List.lookup, Value.asStr?]

variable {items : List Value}

theorem items_said (h : List.Forall₂ (fun item block => readItem item = some block) items blocks) :
    join (items.filterMap fun item =>
      if eventType item = some "text" then stringAt "text" item else none) =
      join (blocks.map said) := by
  induction h with
  | nil => rfl
  | cons hblock _ ih =>
    rcases readItem_cases hblock with ⟨text, rfl, htype, htext⟩ | ⟨_, _, _, rfl, htype, _⟩
    · rw [List.filterMap_cons_some (by rw [if_pos htype, htext]), map_cons, join_cons,
        join_cons, ih, said]
    · rw [List.filterMap_cons_none (by simp [htype]), map_cons, join_cons, ih,
        said, String.empty_append]

theorem items_calls (h : List.Forall₂ (fun item block => readItem item = some block) items blocks) :
    ((items.filter fun item => eventType item = some "tool_use").map chatToolCall).map
      (ClientCall.add {}) = blocks.filterMap call? := by
  induction h with
  | nil => rfl
  | cons hblock _ ih =>
    rcases readItem_cases hblock with
      ⟨text, rfl, htype, _⟩ | ⟨id, name, input, rfl, htype, hid, hname, hinput⟩
    · rw [List.filter_cons_of_neg (by simp [htype]), ih]
      rfl
    · rw [filter_cons_of_pos (by simp [htype]), map_cons, map_cons,
        add_chatToolCall hid hname hinput, ih]
      rfl

theorem readAnswer_anthropicChatToOpenai {response usage : Value}
    (hcontent : response.get? "content" = some (.arr items))
    (hread : List.Forall₂ (fun item block => readItem item = some block) items blocks)
    (hcounted : response.get? "usage" = some usage) :
    readAnswer (anthropicChatToOpenai now strict response) =
      { content := join (blocks.map said)
        calls := blocks.filterMap call?
        finishReason := some (transformFinishReason
          ((response.get? "stop_reason").bind Value.asStr?) strict)
        usage := some (chatUsage usage) } := by
  rw [← items_said hread, ← items_calls hread, anthropicChatToOpenai, hcontent, hcounted]
  simp only [Option.bind_some, asArr?, Option.getD_some, orNull, stringAt]
  obtain ⟨calls, hof⟩ : ∃ calls, (items.filter fun item => eventType item = some "tool_use").map
    chatToolCall = calls := ⟨_, rfl⟩
  simp only [hof]
  by_cases hcalls : calls = [] <;> cases strict <;>
    simp [readAnswer, firstChoice, textAt, asArr?, Value.get?, List.lookup, Value.asStr?, hcalls,
      chatUsage, isNull]

end

/-- A stream that delivers a message with at most one call gives a client that message. -/
theorem streamed_eq_whole {decode : Bytes → Option Value} (message : DeliveredMessage decode)
    (now : U64) (fallbackId : String) (strict : Bool)
    (hone : (message.blocks.filter ContentBlock.isToolUse).length ≤ 1) :
    let run := anthropicChatRun now fallbackId decode strict {} message.events
    run.2 = true ∧ SameAnswer decode (run.1.foldl Assembled.take {}).answer
      (readAnswer (anthropicChatToOpenai now strict message.response)) := by
  intro run
  obtain ⟨hall, hfold⟩ :=
    run_of_carried now fallbackId strict message.carried {} {}
  refine ⟨hall, ?_⟩
  obtain ⟨index, called, hblocks, hcalled⟩ :=
    client_blocks now fallbackId strict (startedState message.start message.startUsage {}) {}
      message.delivered rfl (by simpa using hone)
  have hanswer : (run.1.foldl Assembled.take {}).answer =
      { content := String.join (message.blocks.map ContentBlock.said)
        calls := called.map Prod.snd
        finishReason := some (transformFinishReason
          ((message.response.get? "stop_reason").bind Value.asStr?) strict)
        usage := some (streamedUsage (startedState message.start message.startUsage
          { toolIndex := index }) message.deltaUsage) } := by
    rw [hfold, List.cons_append, List.foldl_cons, clientStep_start message.starts,
      List.foldl_append, hblocks, List.foldl_cons, clientStep_delta message.ends, message.reason, List.foldl_cons, List.foldl_nil,
      clientStep, if_pos (.inr message.stops)]
    simp [Assembled.answer, startedState]
  rw [hanswer, readAnswer_anthropicChatToOpenai message.content message.read message.counted]
  exact ⟨rfl, hcalled, rfl, _, _, rfl, rfl,
    get?_streamedUsage message.start message.input message.output _⟩

/-! A message that only calls tools. -/

theorem trim_jsonStr_obj (object : Members) :
    Text.trim (jsonStr (.obj object)) = jsonStr (.obj object) := by
  obtain ⟨inner, hinner⟩ := exists_print_obj object
  refine Text.trim_of_ends (a := '\x7b') (b := '\x7d') ?_ ?_ (by decide) (by decide)
  · exact EventStream.head?_of_utf8 (by decide) (by rw [utf8_jsonStr, hinner]; rfl)
  · exact EventStream.getLast?_of_utf8 (by decide) (by rw [utf8_jsonStr, hinner, List.getLast?_cons]; simp)

/-- The event with the data, named by its type. -/
def framedData (v : Value) : ParsedEvent := ⟨eventType v, some (jsonStr v)⟩

/-- An object that is read back from its text, and no ping. -/
structure Plain (v : Value) : Prop where
  object : ∃ object, v = .obj object
  depth : depth v ≤ recursionLimit
  integral : integral v
  uniqueKeys : uniqueKeys v
  type : eventType v ≠ some "ping"

theorem carries_framedData {v : Value} (h : Plain v) :
    Carries (fromSlice fun _ => none) (framedData v) v := by
  obtain ⟨object, rfl⟩ := h.object
  have hpayload : (framedData (.obj object)).payload = jsonStr (.obj object) :=
    trim_jsonStr_obj object
  refine ⟨rfl, ?_, ?_⟩
  · rw [hpayload]
    exact fun hempty => (isLine_jsonStr _).1 (by rw [hempty]; rfl)
  · rw [hpayload, utf8_jsonStr]
    exact fromSlice_print _ h.depth h.integral h.uniqueKeys

theorem carried_framedData {values : List Value} (h : ∀ v ∈ values, Plain v) :
    List.Forall₂ (Carries (fromSlice fun _ => none))
      ((values.map framedData).filter fun event => event.name ≠ some "ping") values := by
  induction values with
  | nil => exact .nil
  | cons v values ih =>
    rw [List.forall_mem_cons] at h
    have hkept : (framedData v).name ≠ some "ping" := h.1.type
    rw [map_cons, filter_cons_of_pos (by simp [hkept])]
    exact .cons (carries_framedData h.1) (ih h.2)

def typed (type : String) (more : Members) : Value := .obj (("type", .str type) :: more)

def callItem (id : String) : Value :=
  typed "tool_use" [("id", .str id), ("name", .str "f"), ("input", .arr [])]

def callEvents (id : String) : List Value :=
  [typed "content_block_start" [("content_block", callItem id)],
    typed "content_block_delta" [("delta", .obj [("partial_json", .str "[]")])],
    typed "content_block_stop" []]

def callUsage : Value := .obj [("input_tokens", .num (.posInt 3)), ("output_tokens", .num (.posInt 5))]

def callStart : Value := typed "message_start" [("message", .obj [("usage", callUsage)])]

def callDelta : Value :=
  typed "message_delta" [("delta", .obj [("stop_reason", .str "tool_use")]), ("usage", callUsage)]

theorem plain_typed {type : String} {more : Members} (htype : type ≠ "ping")
    (hdepth : depth (typed type more) ≤ recursionLimit) (hintegral : integral (typed type more))
    (hunique : uniqueKeys (typed type more)) : Plain (typed type more) :=
  ⟨⟨_, rfl⟩, hdepth, hintegral, hunique, by simpa [typed, eventType, Value.get?, Value.asStr?] using htype⟩

theorem plain_callEvents (id : String) : ∀ v ∈ callEvents id, Plain v := by
  simp only [callEvents, List.forall_mem_cons, not_mem_nil, false_imp_iff, implies_true, and_true]
  exact ⟨plain_typed (by decide) (Nat.le_of_ble_eq_true rfl) rfl rfl,
    plain_typed (by decide) (Nat.le_of_ble_eq_true rfl) rfl rfl,
    plain_typed (by decide) (Nat.le_of_ble_eq_true rfl) rfl rfl⟩

/-- A message of one call for each id. -/
def callMessage (ids : List String) : DeliveredMessage (fromSlice fun _ => none) where
  response := .obj [("content", .arr (ids.map callItem)), ("stop_reason", .str "tool_use"),
    ("usage", callUsage)]
  events := (callStart :: (ids.map callEvents).flatten ++
    [callDelta, typed "message_stop" []]).map framedData
  items := ids.map callItem
  blocks := ids.map fun id => .toolUse id "f" (.arr [])
  usage := callUsage
  start := callStart
  startUsage := callUsage
  sent := ids.map callEvents
  delta := callDelta
  deltaUsage := callUsage
  stop := typed "message_stop" []
  content := rfl
  read := by
    induction ids with
    | nil => exact .nil
    | cons id ids ih => exact .cons rfl ih
  counted := rfl
  starts := rfl
  input _ _ := rfl
  delivered := by
    induction ids with
    | nil => exact .nil
    | cons id ids ih =>
      refine .cons (@DeliversBlock.toolUse _ _ (callItem id) _ _ _ _ ["[]"] _ ⟨rfl, rfl, rfl⟩ rfl rfl
        (.cons ⟨rfl, rfl, rfl⟩ .nil) ?_ rfl) ih
      exact fromSlice_print (v := .arr []) _ (by decide) rfl rfl
  ends := rfl
  output := rfl
  reason := rfl
  stops := rfl
  carried := by
    refine carried_framedData ?_
    intro v hv
    simp only [List.mem_append, List.mem_cons, List.mem_flatten, List.mem_map, List.not_mem_nil,
      or_false] at hv
    rcases hv with (rfl | ⟨_, ⟨id, _, rfl⟩, hv⟩) | rfl | rfl
    · exact plain_typed (by decide) (Nat.le_of_ble_eq_true rfl) rfl rfl
    · exact plain_callEvents id v hv
    · exact plain_typed (by decide) (Nat.le_of_ble_eq_true rfl) rfl rfl
    · exact plain_typed (by decide) (Nat.le_of_ble_eq_true rfl) rfl rfl

theorem streamed_eq_whole_call :
    ((callMessage ["a"]).blocks.filter ContentBlock.isToolUse).length ≤ 1 ∧
      let run := anthropicChatRun 0 "id" (fromSlice fun _ => none) true {} (callMessage ["a"]).events
      run.2 = true ∧ SameAnswer (fromSlice fun _ => none) (run.1.foldl Assembled.take {}).answer
        (readAnswer (anthropicChatToOpenai 0 true (callMessage ["a"]).response)) :=
  ⟨by decide, streamed_eq_whole (callMessage ["a"]) 0 "id" true (by decide)⟩

/-- Two calls come under one index, and a client merges them. -/
theorem streamed_calls_merged :
    let run := anthropicChatRun 0 "id" (fromSlice fun _ => none) true {} (callMessage ["a", "b"]).events
    (run.1.foldl Assembled.take {}).answer.calls = [⟨"ab", "ff", "[][]"⟩] ∧
      (readAnswer (anthropicChatToOpenai 0 true (callMessage ["a", "b"]).response)).calls =
        [⟨"a", "f", "[]"⟩, ⟨"b", "f", "[]"⟩] := by
  obtain ⟨-, hfold⟩ := run_of_carried 0 "id" true
    (callMessage ["a", "b"]).carried {} {}
  dsimp only
  rw [hfold]
  exact ⟨rfl, rfl⟩

end AciGateway.Transform
