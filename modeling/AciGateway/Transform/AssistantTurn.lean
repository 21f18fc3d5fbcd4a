import AciGateway.Transform.AnthropicChat
import AciGateway.Transform.Messages

/-! A chat answer on the Messages surface, and the assistant turn that a client sends it back as. -/
namespace AciGateway.Transform

open Octets Json Sse Usage List

/-! The answer as a message. -/

/-- A call without a name cannot be run, and one without an id is given one. -/
def namedCall (responseId : String) (entry : Value × Nat) : Option ChatToolCall :=
  let field (key : String) := textAt key (entry.1.get? "function")
  let name := Text.trim (field "name")
  let id := textAt "id" (some entry.1)
  if name = "" then none
  else some ⟨if Text.trim id = "" then synthesizedCallId responseId entry.2 else id, name,
    field "arguments"⟩

def chatToolCalls (calls : List Value) (responseId : String) : List ChatToolCall :=
  calls.zipIdx.filterMap (namedCall responseId)

def toolUseBlock (call : ChatToolCall) (input : Value) : Value :=
  .obj [("type", .str "tool_use"), ("id", .str call.id), ("name", .str call.name), ("input", input)]

/-- A call as a block: malformed arguments become an empty input, and a call that was cut off is
dropped. -/
def callBlock (decode : Bytes → Option Value) (truncated : Bool) (call : ChatToolCall) :
    Option Value :=
  match functionCallArguments decode call.arguments with
  | none => if truncated then none else some (toolUseBlock call (.obj []))
  | some input => some (toolUseBlock call ((decode (utf8 input)).getD (.obj [])))

def openaiToAnthropicMessages (decode : Bytes → Option Value) (millis : Nat) (response : Value) :
    Except String Value :=
  let choice := firstChoice response
  if (response.get? "error").any (!isNull ·) then .error "chat response reports an error"
  else
    match (choice.bind (·.get? "message")).filter fun message => (asObj? message).isSome with
    | none => .error "chat response requires a message"
    | some message =>
      let finish := ChatFinish.parse ((choice.bind (·.get? "finish_reason")).bind Value.asStr?)
      let id := (((response.get? "id").bind Value.asStr?).filter (· ≠ "")).getD
        ("msg_" ++ toString millis)
      let texts := ["content", "refusal"].filterMap fun key =>
        let text := chatText (message.get? key)
        if text = "" then none else some (textBlock text)
      let toolCalls := ((message.get? "tool_calls").bind asArr?).getD []
      let calls := chatToolCalls toolCalls id
      if calls = [] ∧ toolCalls ≠ [] ∧ finish.truncated = false then
        .error "chat response has tool calls, none of them with a name"
      else
        let uses := calls.filterMap (callBlock decode finish.truncated)
        let content := ((reasoningText message).map thinkingBlock).toList ++ texts ++ uses
        .ok (.obj [("id", .str id), ("type", .str "message"), ("role", .str "assistant"),
          ("content", .arr (if content = [] then [textBlock ""] else content)),
          ("model", orNull (response.get? "model")),
          ("stop_reason", .str (finish.stopReason (uses ≠ []))), ("stop_sequence", .null),
          ("usage", messagesUsage (response.get? "usage"))])

/-! The message as a turn. -/

def blockType (block : Value) : Except String String :=
  (eventType block).elim (.error "content block requires a type") .ok

def blockText (block : Value) : Except String String :=
  ((block.get? "text").bind Value.asStr?).elim (.error "text block requires text") .ok

def requiredString (object : Value) (key itemType : String) : Except String String :=
  (((object.get? key).bind Value.asStr?).filter (· ≠ "")).elim
    (.error (itemType ++ " requires a non-empty " ++ key)) .ok

/-- Texts that are not empty, as paragraphs. -/
def joinText (texts : List String) : String := "\n\n".intercalate (texts.filter (· ≠ ""))

structure TurnParts where
  texts : List String := []
  reasoning : List String := []
  toolCalls : List Value := []

def assistantBlock (parts : TurnParts) (block : Value) : Except String TurnParts := do
  match ← blockType block with
  | "text" => return { parts with texts := parts.texts ++ [← blockText block] }
  | "thinking" =>
    return { parts with reasoning := parts.reasoning ++ [textAt "thinking" (some block)] }
  | "tool_use" =>
    match (block.get? "input").filter fun input => (asObj? input).isSome with
    | none => .error "tool_use input must be a JSON object"
    | some input =>
      let id ← requiredString block "id" "tool_use block"
      let name ← requiredString block "name" "tool_use block"
      let call : Value := .obj [("id", .str id), ("type", .str "function"),
        ("function", .obj [("name", .str name), ("arguments", .str (jsonStr input))])]
      return { parts with toolCalls := parts.toolCalls ++ [call] }
  | _ => return parts

def assistantTurn (blocks : List Value) : Except String Value := do
  let parts ← blocks.foldlM assistantBlock {}
  let reasoning := joinText parts.reasoning
  return .obj ([("role", .str "assistant"), ("content", .str (joinText parts.texts))] ++
    (if parts.toolCalls = [] then [] else [("tool_calls", .arr parts.toolCalls)]) ++
    if reasoning = "" then [] else [("reasoning_content", .str reasoning)])

/-- A message that carries nothing is left out. -/
def pushMessage (messages : List Value) (message : Value) : List Value :=
  let empty := match message.get? "content" with
    | some (.str text) => text = ""
    | some (.arr parts) => parts = []
    | _ => true
  if !empty || (message.get? "tool_calls").isSome || (message.get? "reasoning_content").isSome then
    messages ++ [message]
  else messages

/-! Sending the message back. -/

def messageCalls (message : Value) : List Value := ((message.get? "tool_calls").bind asArr?).getD []

/-- A call that a client can run and name again: its arguments are an object. -/
structure Replayable (decode : Bytes → Option Value) (call : Value) : Prop where
  id : Text.trim (textAt "id" (some call)) ≠ ""
  name : textAt "name" (call.get? "function") ≠ ""
  trimmed : Text.trim (textAt "name" (call.get? "function")) = textAt "name" (call.get? "function")
  arguments : ∃ input, decode (utf8 (textAt "arguments" (call.get? "function"))) = some (.obj input)

def readCall (call : Value) : ChatToolCall :=
  let function := call.get? "function"
  ⟨textAt "id" (some call), textAt "name" function, textAt "arguments" function⟩

variable {decode : Bytes → Option Value} {calls : List Value} {reasoning : Option String}
  (text : String)

theorem chatToolCalls_eq (h : ∀ call ∈ calls, Replayable decode call) (responseId : String) :
    chatToolCalls calls responseId = calls.map readCall := by
  have hone : ∀ entry ∈ calls.zipIdx, namedCall responseId entry = some (readCall entry.1) := by
    intro entry hentry
    have hcall := h entry.1 (fst_mem_of_mem_zipIdx hentry)
    simp only [namedCall, hcall.trimmed, hcall.name, if_false, hcall.id, readCall]
  rw [chatToolCalls, filterMap_congr hone, filterMap_eq_map',
    ← Function.comp_def readCall, ← map_map, zipIdx_map_fst]

/-- The input that the arguments of a call are read as. -/
def callInput (decode : Bytes → Option Value) (call : Value) : Value :=
  (decode (utf8 (readCall call).arguments)).getD (.obj [])

theorem callBlock_eq (hblank : ∀ s, Text.trim s = "" → decode (utf8 s) = none) {call : Value}
    (h : Replayable decode call) (truncated : Bool) :
    callBlock decode truncated (readCall call) =
      some (toolUseBlock (readCall call) (callInput decode call)) := by
  obtain ⟨input, hinput⟩ := h.arguments
  have hargs : functionCallArguments decode (readCall call).arguments =
      some (readCall call).arguments := by
    have hne : Text.trim (readCall call).arguments ≠ "" := by
      intro htrim
      have hnone := hblank _ htrim
      rw [readCall, hinput] at hnone
      cases hnone
    rw [functionCallArguments, if_neg hne]
    simp [readCall, hinput, asObj?]
  rw [callBlock, hargs]
  rfl

/-- The call as the turn states it. -/
def replayedCall (call : ChatToolCall) (input : Value) : Value :=
  .obj [("id", .str call.id), ("type", .str "function"),
    ("function", .obj [("name", .str call.name), ("arguments", .str (jsonStr input))])]

def replayedCalls (decode : Bytes → Option Value) (calls : List Value) : List Value :=
  calls.map fun call => replayedCall (readCall call) (callInput decode call)

theorem assistantBlock_toolUse {call : ChatToolCall} (hid : call.id ≠ "") (hname : call.name ≠ "")
    (input : Members) (parts : TurnParts) :
    assistantBlock parts (toolUseBlock call (.obj input)) =
      .ok { parts with toolCalls := parts.toolCalls ++ [replayedCall call (.obj input)] } := by
  have hrequired : ∀ key value, value ≠ "" →
      (toolUseBlock call (.obj input)).get? key = some (.str value) →
      requiredString (toolUseBlock call (.obj input)) key "tool_use block" = .ok value := by
    intro key value hne hget
    simp [requiredString, hget, Value.asStr?, Option.filter_some, hne]
  change (do
    let id ← requiredString (toolUseBlock call (.obj input)) "id" "tool_use block"
    let name ← requiredString (toolUseBlock call (.obj input)) "name" "tool_use block"
    let called := replayedCall ⟨id, name, ""⟩ (.obj input)
    return { parts with toolCalls := parts.toolCalls ++ [called] }) = _
  rw [hrequired "id" _ hid rfl, hrequired "name" _ hname rfl]
  rfl

theorem foldlM_toolUse (h : ∀ call ∈ calls, Replayable decode call) (parts : TurnParts) :
    (calls.map fun call => toolUseBlock (readCall call) (callInput decode call)).foldlM
        assistantBlock parts =
      .ok { parts with toolCalls := parts.toolCalls ++ replayedCalls decode calls } := by
  induction calls generalizing parts with
  | nil => simp [replayedCalls]
  | cons call calls ih =>
    rw [forall_mem_cons] at h
    obtain ⟨input, hinput⟩ := h.1.arguments
    have hobject : callInput decode call = .obj input := by
      rw [callInput, readCall, hinput]
      rfl
    have hid : (readCall call).id ≠ "" := fun he => h.1.id (congrArg Text.trim he)
    rw [map_cons, foldlM_cons, hobject, assistantBlock_toolUse hid h.1.name, ← hobject]
    exact (ih h.2 _).trans (by simp [replayedCalls])

theorem joinText_toList (text : Option String) (h : ∀ t ∈ text, t ≠ "") :
    joinText text.toList = text.getD "" := by
  cases text with
  | none => rfl
  | some t =>
    rw [joinText, Option.toList_some, filter_cons_of_pos (by simpa using h t rfl)]
    rfl

theorem reasoningText_ne {message : Value} {t : String} (h : reasoningText message = some t) :
    t ≠ "" := by
  simpa using (Option.filter_eq_some_iff.mp h).2

/-- The turn of a converted message. -/
def replayedTurn (text : String) (calls : List Value) (reasoning : Option String) : Value :=
  .obj ([("role", .str "assistant"), ("content", .str text)] ++
    (if calls = [] then [] else [("tool_calls", .arr calls)]) ++
    (reasoning.map fun t => ("reasoning_content", Value.str t)).toList)

theorem messageCalls_replayedTurn (calls : List Value) (reasoning : Option String) :
    messageCalls (replayedTurn text calls reasoning) = calls := by
  by_cases hcalls : calls = []
  · subst hcalls
    cases reasoning <;> rfl
  · rw [replayedTurn, if_neg hcalls]
    rfl

theorem reasoningText_replayedTurn (calls : List Value) (h : ∀ t ∈ reasoning, t ≠ "") :
    reasoningText (replayedTurn text calls reasoning) = reasoning := by
  have hnone : reasoningText (replayedTurn text calls none) = none := by
    by_cases hcalls : calls = []
    · rw [replayedTurn, if_pos hcalls]
      rfl
    · rw [replayedTurn, if_neg hcalls]
      rfl
  cases reasoning with
  | none => exact hnone
  | some t =>
    have hfilter : (some t).filter (· ≠ "") = some t := by
      simpa [Option.filter_some] using h t rfl
    by_cases hcalls : calls = []
    · rw [replayedTurn, if_pos hcalls]
      exact hfilter
    · rw [replayedTurn, if_neg hcalls]
      exact hfilter

/-- A turn is left out only when it says, thinks and calls nothing. -/
theorem pushMessage_replayedTurn {text : String} {calls : List Value}
    (h : text ≠ "" ∨ reasoning.isSome ∨ calls ≠ []) (messages : List Value) :
    pushMessage messages (replayedTurn text calls reasoning) =
      messages ++ [replayedTurn text calls reasoning] := by
  refine if_pos ?_
  rw [replayedTurn]
  by_cases hcalls : calls = [] <;> cases reasoning <;> simp_all [Value.get?, lookup]

theorem assistantTurn_blocks {text : Option String} (hreasoning : ∀ t ∈ reasoning, t ≠ "")
    (htext : ∀ t ∈ text, t ≠ "") (h : ∀ call ∈ calls, Replayable decode call) :
    let content := (reasoning.map thinkingBlock).toList ++ (text.map textBlock).toList ++
      calls.map fun call => toolUseBlock (readCall call) (callInput decode call)
    assistantTurn (if content = [] then [textBlock ""] else content) =
      .ok (replayedTurn (text.getD "") (replayedCalls decode calls) reasoning) := by
  intro content
  have hparts : content.foldlM assistantBlock {} =
      .ok ⟨text.toList, reasoning.toList, replayedCalls decode calls⟩ := by
    have huses := foldlM_toolUse h ⟨text.toList, reasoning.toList, []⟩
    rw [foldlM_append, foldlM_append]
    cases reasoning <;> cases text <;> exact huses
  have hfold : (if content = [] then [textBlock ""] else content).foldlM assistantBlock {} =
      .ok ⟨if content = [] then [""] else text.toList, reasoning.toList,
        replayedCalls decode calls⟩ := by
    split
    · next hempty =>
      simp only [content, append_eq_nil_iff, Option.toList_eq_nil_iff, Option.map_eq_none_iff,
        map_eq_nil_iff] at hempty
      rw [hempty.1.1, hempty.2]
      rfl
    · exact hparts
  have hsaid : joinText (if content = [] then [""] else text.toList) = text.getD "" := by
    split
    · next hempty =>
      simp only [content, append_eq_nil_iff, Option.toList_eq_nil_iff, Option.map_eq_none_iff]
        at hempty
      rw [hempty.1.2]
      rfl
    · exact joinText_toList text htext
  rw [assistantTurn, hfold]
  change Except.ok _ = Except.ok _
  rw [hsaid, joinText_toList reasoning hreasoning]
  cases reasoning with
  | none => simp [replayedTurn]
  | some t => simp [replayedTurn, hreasoning t rfl]

theorem uses_eq (hblank : ∀ s, Text.trim s = "" → decode (utf8 s) = none)
    (h : ∀ call ∈ calls, Replayable decode call) (truncated : Bool) :
    (calls.map readCall).filterMap (callBlock decode truncated) =
      calls.map fun call => toolUseBlock (readCall call) (callInput decode call) := by
  rw [filterMap_map, ← filterMap_eq_map]
  exact filterMap_congr fun call hcall => callBlock_eq hblank (h call hcall) truncated

theorem sameCall_replayed {call : Value} (h : Replayable decode call) :
    SameCall decode (ClientCall.add {} call)
      (ClientCall.add {} (replayedCall (readCall call) (callInput decode call))) := by
  obtain ⟨input, hinput⟩ := h.arguments
  have hobject : callInput decode call = .obj input := by
    rw [callInput, readCall, hinput]
    rfl
  refine ⟨?_, ?_, .obj input, ?_, ?_⟩
  · rfl
  · rfl
  · simpa only [ClientCall.add, String.empty_append] using hinput
  · rw [hobject]
    rfl

/-- A message that a client sends back says, thinks and calls what the answer did. -/
theorem replayed_turn_same (hblank : ∀ s, Text.trim s = "" → decode (utf8 s) = none) (millis : Nat)
    {response message converted : Value} {text : String}
    (hmessage : (firstChoice response).bind (·.get? "message") = some message)
    (htext : message.get? "content" = some (.str text))
    (hrefusal : chatText (message.get? "refusal") = "")
    (hcalls : ∀ call ∈ messageCalls message, Replayable decode call)
    (h : openaiToAnthropicMessages decode millis response = .ok converted) :
    ∃ blocks turn, converted.get? "content" = some (.arr blocks) ∧ assistantTurn blocks = .ok turn ∧
      (text ≠ "" ∨ (reasoningText message).isSome ∨ messageCalls message ≠ [] →
        ∀ messages, pushMessage messages turn = messages ++ [turn]) ∧
      turn.get? "content" = some (.str text) ∧ reasoningText turn = reasoningText message ∧
      List.Forall₂ (SameCall decode) ((messageCalls message).map (ClientCall.add {}))
        ((messageCalls turn).map (ClientCall.add {})) := by
  have hsaid : ∀ t ∈ (if text = "" then none else some text), t ≠ "" := by
    split <;> simp_all
  have hreasoning : ∀ t ∈ reasoningText message, t ≠ "" := fun t ht => reasoningText_ne ht
  have hturn := assistantTurn_blocks hreasoning hsaid hcalls
  have htexts : (["content", "refusal"].filterMap fun key =>
      if chatText (message.get? key) = "" then none
      else some (textBlock (chatText (message.get? key)))) =
      ((if text = "" then none else some text).map textBlock).toList := by
    have hcontent : chatText (message.get? "content") = text := congrArg chatText htext
    by_cases hempty : text = "" <;> simp [hrefusal, hcontent, hempty]
  unfold openaiToAnthropicMessages at h
  dsimp only at h
  split at h
  · cases h
  split at h
  · cases h
  next found hfound =>
  obtain rfl : message = found := by
    have hsome := (Option.filter_eq_some_iff.mp hfound).1
    exact Option.some.inj (hmessage.symm.trans hsome)
  split at h
  · cases h
  rw [← messageCalls, chatToolCalls_eq hcalls, uses_eq hblank hcalls, htexts] at h
  obtain rfl := Except.ok.inj h
  have hgetD : (if text = "" then none else some text).getD "" = text := by
    split <;> simp_all
  rw [hgetD] at hturn
  refine ⟨_, _, rfl, hturn, ?_, rfl, reasoningText_replayedTurn _ _ hreasoning, ?_⟩
  · intro hcarries
    refine pushMessage_replayedTurn ?_
    simpa [replayedCalls] using hcarries
  · rw [messageCalls_replayedTurn, replayedCalls, forall₂_map_left_iff,
      forall₂_map_right_iff, forall₂_map_right_iff, forall₂_same]
    exact fun call hcall => sameCall_replayed (hcalls call hcall)

/-- A reader that knows one text, the empty object. -/
def readsEmpty (bytes : Bytes) : Option Value :=
  if bytes = utf8 "\x7b\x7d" then some (.obj []) else none

/-- A message that greets and makes one call. -/
def callingMessage (id : String) : Value :=
  .obj [("content", .str "hi"), ("tool_calls", .arr [.obj [("id", .str id),
    ("function", .obj [("name", .str "f"), ("arguments", .str "\x7b\x7d")])]])]

def callingAnswer (id : String) : Value :=
  .obj [("id", .str "r"), ("choices", .arr [.obj [("finish_reason", .str "tool_calls"),
    ("message", callingMessage id)]])]

theorem replayed_turn_same_greeting : ∃ converted blocks turn,
    openaiToAnthropicMessages readsEmpty 0 (callingAnswer "a") = .ok converted ∧
      converted.get? "content" = some (.arr blocks) ∧ assistantTurn blocks = .ok turn ∧
      turn.get? "content" = some (.str "hi") := by
  have hblank : ∀ s, Text.trim s = "" → readsEmpty (utf8 s) = none := by
    intro s hs
    refine if_neg fun heq => ?_
    rw [utf8_inj.mp heq] at hs
    exact absurd hs (by decide)
  have hmessage : (firstChoice (callingAnswer "a")).bind (·.get? "message") =
      some (callingMessage "a") := rfl
  have hcalls : ∀ call ∈ messageCalls (callingMessage "a"), Replayable readsEmpty call := by
    intro call hcall
    rw [mem_singleton.mp hcall]
    exact ⟨by decide, by decide, by decide, [], if_pos rfl⟩
  obtain ⟨blocks, turn, hblocks, hturn, -, hcontent, -⟩ :=
    replayed_turn_same hblank 0 hmessage rfl rfl hcalls rfl
  exact ⟨_, blocks, turn, rfl, hblocks, hturn, hcontent⟩

/-- An id of white space only is no id, and the call is given another. -/
theorem blank_id_replaced : ∃ converted blocks turn,
    openaiToAnthropicMessages readsEmpty 0 (callingAnswer " ") = .ok converted ∧
      converted.get? "content" = some (.arr blocks) ∧ assistantTurn blocks = .ok turn ∧
      (messageCalls turn).map (ClientCall.add {}) = [⟨"call_r_0", "f", "\x7b\x7d"⟩] :=
  ⟨_, _, _, rfl, rfl, rfl, rfl⟩

end AciGateway.Transform
