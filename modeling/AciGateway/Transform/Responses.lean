import AciGateway.Transform.Identity
import AciGateway.Transform.Messages

/-! The events of the Responses surface for a chat stream, and their grammar. -/
namespace AciGateway.Transform

open Octets Json Sse List
open Option (bind_some map_some)

/-! Items. -/

structure NamespacedTool where
  namespace_ : String
  name : String

/-- How the tools of the request were declared to the upstream. -/
structure ResponsesToolMap where
  custom : List String
  namespaces : List (String × NamespacedTool)
  toolSearch : Bool

namespace ResponsesToolMap

def isCustom (m : ResponsesToolMap) (name : String) : Bool := m.custom.contains name

def toolNamespace (m : ResponsesToolMap) (name : String) : Option NamespacedTool :=
  m.namespaces.lookup name

def isToolSearch (m : ResponsesToolMap) (name : String) : Bool :=
  m.toolSearch && name = "tool_search"

end ResponsesToolMap

def itemId (kind responseId : String) (outputIndex : Nat) : String :=
  kind ++ "_" ++ responseId ++ "_" ++ toString outputIndex

def reasoningItem (id text status : String) : Value :=
  .obj [("id", .str id), ("type", .str "reasoning"), ("summary", .arr []),
    ("content", .arr [.obj [("type", .str "reasoning_text"), ("text", .str text)]]),
    ("status", .str status)]

def messageItem (id : String) (content : List Value) (status : String) : Value :=
  .obj [("id", .str id), ("type", .str "message"), ("role", .str "assistant"),
    ("status", .str status), ("content", .arr content)]

def outputTextPart (text : String) (annotations : List Value) : Value :=
  .obj [("type", .str "output_text"), ("text", .str text), ("annotations", .arr annotations)]

def refusalPart (refusal : String) : Value :=
  .obj [("type", .str "refusal"), ("refusal", .str refusal)]

/-- The kind of item a call to a tool becomes. -/
inductive CallKind where
  | toolSearch
  | custom
  | function
  deriving DecidableEq

def ResponsesToolMap.callKind (m : ResponsesToolMap) (name : String) : CallKind :=
  if m.isToolSearch name then .toolSearch else if m.isCustom name then .custom else .function

section

variable (decode : Bytes → Option Value)

def responsesCallItem (m : ResponsesToolMap) (callId name value status : String) : Value :=
  let named (kind mark key : String) : Value :=
    .obj ([("id", .str (mark ++ "_" ++ callId)), ("type", .str kind), ("call_id", .str callId),
        ("name", .str ((m.toolNamespace name).elim name (·.name))), (key, .str value),
        ("status", .str status)] ++
      ((m.toolNamespace name).map fun tool => ("namespace", Value.str tool.namespace_)).toList)
  match m.callKind name with
  | .toolSearch =>
    .obj [("id", .str ("tsc_" ++ callId)), ("type", .str "tool_search_call"),
      ("call_id", .str callId), ("status", .str status), ("execution", .str "client"),
      ("arguments", .obj (((decode (utf8 value)).bind asObj?).getD []))]
  | .custom => named "custom_tool_call" "ctc" "input"
  | .function => named "function_call" "fc" "arguments"

def customToolInput (arguments : String) : Option String :=
  (((decode (utf8 arguments)).bind asObj?).bind (·.lookup "input")).bind Value.asStr?

/-- What the client runs for a call; nothing for one that was cut off. -/
def responsesCallValue (m : ResponsesToolMap) (name arguments : String) (truncated : Bool) :
    Option String :=
  (if m.isCustom name then customToolInput decode arguments
    else functionCallArguments decode arguments).or
    (if truncated then none else some arguments)

end

/-! The response object. -/

structure ResponsesHead where
  id : String
  createdAt : U64
  model : Value
  status : String
  incompleteDetails : Value
  error : Value

def responsesObject (echo : Value) (head : ResponsesHead) (output : List Value)
    (usage : Option Value) : Value :=
  .obj ([("id", .str head.id), ("object", .str "response"),
      ("created_at", .num (.posInt head.createdAt)), ("model", head.model),
      ("status", .str head.status), ("incomplete_details", head.incompleteDetails),
      ("error", head.error), ("output", .arr output), ("usage", usage.getD .null)].foldl
    (fun object member => setMember member.1 member.2 object) ((asObj? echo).getD []))

def unusableToolCallsError : Value :=
  .obj [("code", .str "server_error"),
    ("message", .str "The upstream provider returned tool calls without a name")]

def malformedResponseError : Value :=
  .obj [("code", .str "server_error"),
    ("message", .str "The upstream provider returned a malformed response")]

/-! The writer. -/

structure ActiveItem where
  outputIndex : Nat
  id : String

structure ResponsesEvents (decode : Bytes → Option Value) where
  echo : Value
  identity : ResponseIdentity
  tools : ResponsesToolMap
  /-- The clock. -/
  nowSecs : U64
  upstreamUsage : Option Value := none
  sequence : Nat := 0
  model : Value := .null
  createdAt : U64 := 0
  output : List Value := []
  /-- The item being streamed. -/
  active : Option ActiveItem := none
  /-- The open text's citations. -/
  annotations : List Value := []

namespace ResponsesEvents

variable {decode : Bytes → Option Value}

def emit (kind : String) (body : Members) (e : ResponsesEvents decode) :
    ResponsesEvents decode × List SseEvent :=
  ({ e with sequence := e.sequence + 1 },
    [⟨kind, .obj (setMember "sequence_number" (usizeValue e.sequence)
      (setMember "type" (.str kind) body))⟩])

def response (e : ResponsesEvents decode) (status : String) (incompleteDetails error : Value)
    (usage : Option Value) : Value :=
  responsesObject e.echo
    ⟨e.identity.requestId, e.createdAt, e.model, status, incompleteDetails, error⟩ e.output usage

/-- An item's content starts empty. -/
def emptied : Value → Value
  | .obj item => if containsKey "content" item then .obj (setMember "content" (.arr []) item) else .obj item
  | item => item

def addItem (item : Value) (e : ResponsesEvents decode) : ResponsesEvents decode × List SseEvent :=
  let item := emptied item
  let outputIndex := e.output.length
  emit "response.output_item.added" [("output_index", usizeValue outputIndex), ("item", item)]
    { e with
      active := some ⟨outputIndex, ((item.get? "id").bind Value.asStr?).getD ""⟩
      output := e.output ++ [item] }

/-- Without an open item, or without its place in the output, the writer panics. -/
def doneItem (item : Value) (e : ResponsesEvents decode) : Written (ResponsesEvents decode) :=
  e.active.bind fun active =>
    if active.outputIndex < e.output.length then
      some (emit "response.output_item.done"
        [("output_index", usizeValue active.outputIndex), ("item", item)]
        { e with active := none, output := e.output.set active.outputIndex item })
    else none

def textItem (e : ResponsesEvents decode) (kind : TextKind) (outputIndex : Nat) (part : Value)
    (status : String) : Value :=
  match kind with
  | .reasoning =>
    reasoningItem (itemId "rs" e.identity.requestId outputIndex)
      (((part.get? "text").bind Value.asStr?).getD "") status
  | .text | .refusal => messageItem (itemId "msg" e.identity.requestId outputIndex) [part] status

def textPart (e : ResponsesEvents decode) (kind : TextKind) (text : String) : Value :=
  match kind with
  | .reasoning => .obj [("type", .str "reasoning_text"), ("text", .str text)]
  | .text => outputTextPart text e.annotations
  | .refusal => refusalPart text

def stem : TextKind → String
  | .reasoning => "reasoning_text"
  | .text => "output_text"
  | .refusal => "refusal"

def textEvent (kind : TextKind) (suffix : String) : String :=
  "response." ++ stem kind ++ "." ++ suffix

/-- The members that say where a text stands. -/
def place (active : ActiveItem) : Members :=
  [("item_id", .str active.id), ("output_index", usizeValue active.outputIndex),
    ("content_index", usizeValue 0)]

def logprobs : TextKind → Members
  | .text => [("logprobs", .arr [])]
  | .reasoning | .refusal => []

def start (chunk : Value) (e : ResponsesEvents decode) : Written (ResponsesEvents decode) :=
  let e := { e with
    model := (chunk.get? "model").getD .null
    createdAt := ((chunk.get? "created").bind asU64?).getD e.nowSecs }
  let opening (kind : String) (e : ResponsesEvents decode) : Written (ResponsesEvents decode) :=
    some (e.emit kind [("response", e.response "in_progress" .null .null none)])
  Written.andThen (opening "response.created" e) (opening "response.in_progress")

def openText (kind : TextKind) (e : ResponsesEvents decode) : Written (ResponsesEvents decode) :=
  let e := { e with annotations := [] }
  let item := e.textItem kind e.output.length (e.textPart kind "") "in_progress"
  Written.andThen (some (e.addItem item)) fun e =>
    e.active.map fun active =>
      e.emit "response.content_part.added" (place active ++ [("part", e.textPart kind "")])

def textDelta (kind : TextKind) (delta : String) (e : ResponsesEvents decode) :
    Written (ResponsesEvents decode) :=
  e.active.map fun active =>
    e.emit (textEvent kind "delta") (place active ++ [("delta", .str delta)] ++ logprobs kind)

def annotation (value : Value) (e : ResponsesEvents decode) : Written (ResponsesEvents decode) :=
  e.active.map fun active =>
    let out := e.emit "response.output_text.annotation.added" (place active ++
      [("annotation_index", usizeValue e.annotations.length), ("annotation", value)])
    ({ out.1 with annotations := e.annotations ++ [value] }, out.2)

def textKey : TextKind → String
  | .refusal => "refusal"
  | .reasoning | .text => "text"

def closeText (kind : TextKind) (text : String) (finished : Bool) (e : ResponsesEvents decode) :
    Written (ResponsesEvents decode) :=
  e.active.bind fun active =>
    Written.andThen
      (Written.andThen
        (some (e.emit (textEvent kind "done")
          (place active ++ [(textKey kind, .str text)] ++ logprobs kind)))
        fun e => some (e.emit "response.content_part.done"
          (place active ++ [("part", e.textPart kind text)])))
      fun e => e.doneItem (e.textItem kind active.outputIndex (e.textPart kind text)
        (if finished then "completed" else "incomplete"))

/-- The input of a call in one delta and its done event. -/
def callInput (stem key : String) (active : ActiveItem) (value : String) (more : Members)
    (e : ResponsesEvents decode) : Written (ResponsesEvents decode) :=
  let ids : Members :=
    [("item_id", .str active.id), ("output_index", usizeValue active.outputIndex)]
  Written.andThen
    (if value = "" then some (e, [])
      else some (e.emit ("response." ++ stem ++ ".delta") (ids ++ [("delta", .str value)])))
    fun e => some (e.emit ("response." ++ stem ++ ".done") (ids ++ [(key, .str value)] ++ more))

/-- A call reaches the client complete; one that was cut off is reported so. -/
def toolCall (call : ChatToolCall) (truncated : Bool) (e : ResponsesEvents decode) :
    Written (ResponsesEvents decode) :=
  let item := responsesCallItem decode e.tools call.id call.name
  Written.andThen (some (e.addItem (item "" "in_progress"))) fun e =>
    match responsesCallValue decode e.tools call.name call.arguments truncated with
    | none => e.doneItem (item "" "incomplete")
    | some value =>
      e.active.bind fun active =>
        match e.tools.callKind call.name with
        | .toolSearch => e.doneItem (item value "completed")
        | .custom =>
          Written.andThen (e.callInput "custom_tool_call_input" "input" active value [])
            (doneItem (item value "completed"))
        | .function =>
          Written.andThen (e.callInput "function_call_arguments" "arguments" active value
              [("name", ((item value "completed").get? "name").getD .null)])
            (doneItem (item value "completed"))

def finish (outcome : Outcome) (usage : Option Value) (e : ResponsesEvents decode) :
    Written (ResponsesEvents decode) :=
  let close (event status : String) (incompleteDetails error : Value) :=
    some (e.emit event
      [("response", e.response status incompleteDetails error (some (responsesUsage usage)))])
  match outcome with
  | .finished finish _ =>
    let (status, details) := finish.responsesStatus
    close (if status = "incomplete" then "response.incomplete" else "response.completed") status
      details .null
  | .failed (.upstream error) => close "response.failed" "failed" .null error
  | .failed .empty => close "response.failed" "failed" .null malformedResponseError
  | .failed .unusableToolCalls => close "response.failed" "failed" .null unusableToolCallsError

instance : ChatEvents (ResponsesEvents decode) where
  start e chunk _ := e.start chunk
  usage e usage := { e with upstreamUsage := some usage }
  openText e kind := e.openText kind
  textDelta e kind delta := e.textDelta kind delta
  annotation e value := e.annotation value
  closeText e kind text finished := e.closeText kind text finished
  toolCall e call truncated := (e.toolCall call truncated).map (·, true)
  finish e outcome usage := e.finish outcome usage

end ResponsesEvents

/-! The grammar. -/

variable (n : Nat)

namespace Responses

/-- What a client sees of an event. -/
inductive Frame where
  | lifecycle
  | added (index : U64) (item : Value)
  | part (index : U64)
  | delta (index : U64) (text : String)
  | annotation (index : U64)
  | textDone (index : U64) (text : String)
  | partDone (index : U64) (text : String)
  | done (index : U64) (item : Value)
  | terminal (output : List Value)

def readIndex (data : Value) : Option U64 := (data.get? "output_index").bind asU64?

def readText (key : String) (data : Value) : Option String := (data.get? key).bind Value.asStr?

/-- The text of a part, under either of its names. -/
def partText (part : Value) : Option String := (readText "text" part).or (readText "refusal" part)

/-- An event as a client reads it: its name says its type again. -/
def readFrame (e : SseEvent) : Option Frame :=
  let withIndex {α : Type} (read : Option α) (f : U64 → α → Frame) : Option Frame :=
    (readIndex e.data).bind fun index => read.map (f index)
  let textDone (key : String) := withIndex (readText key e.data) .textDone
  let delta := withIndex (readText "delta" e.data) .delta
  if eventType e.data ≠ some e.name then none
  else
    match e.name with
    | "response.created" => some .lifecycle
    | "response.in_progress" => some .lifecycle
    | "response.output_item.added" => withIndex (e.data.get? "item") .added
    | "response.content_part.added" => (readIndex e.data).map .part
    | "response.reasoning_text.delta" => delta
    | "response.output_text.delta" => delta
    | "response.refusal.delta" => delta
    | "response.function_call_arguments.delta" => delta
    | "response.custom_tool_call_input.delta" => delta
    | "response.output_text.annotation.added" => (readIndex e.data).map Frame.annotation
    | "response.reasoning_text.done" => textDone "text"
    | "response.output_text.done" => textDone "text"
    | "response.refusal.done" => textDone "refusal"
    | "response.function_call_arguments.done" => textDone "arguments"
    | "response.custom_tool_call_input.done" => textDone "input"
    | "response.content_part.done" =>
      withIndex ((e.data.get? "part").bind partText) .partDone
    | "response.output_item.done" => withIndex (e.data.get? "item") .done
    | "response.completed" => terminal e.data
    | "response.incomplete" => terminal e.data
    | "response.failed" => terminal e.data
    | _ => none
where
  terminal (data : Value) : Option Frame :=
    (((data.get? "response").bind (·.get? "output")).bind asArr?).map .terminal

/-- What comes between an item's beginning and its end. -/
inductive Inner where
  /-- A text in deltas, with citations among them. -/
  | text (pieces : List (Option String))
  /-- The input of a call, where it has events of its own. -/
  | call (input : Option String)

structure Span where
  added : Value
  inner : Inner
  done : Value

def pieceFrame (n : Nat) : Option String → Frame
  | some delta => .delta (wire n) delta
  | none => Frame.annotation (wire n)

/-- The text that pieces make. -/
def pieced (pieces : List (Option String)) : String := String.join (pieces.filterMap id)

def Inner.frames (n : Nat) : Inner → List Frame
  | .text pieces =>
    .part (wire n) :: pieces.map (pieceFrame n) ++
      [.textDone (wire n) (pieced pieces), .partDone (wire n) (pieced pieces)]
  | .call none => []
  | .call (some input) =>
    (if input = "" then [] else [.delta (wire n) input]) ++ [.textDone (wire n) input]

def Span.frames (n : Nat) (span : Span) : List Frame :=
  .added (wire n) span.added :: span.inner.frames n ++ [.done (wire n) span.done]

/-- Items one after the other, numbered from `n`. -/
def spansFrom : Nat → List Span → List Frame
  | _, [] => []
  | n, span :: spans => span.frames n ++ spansFrom (n + 1) spans

/-- A whole response: its items, and the final object that lists them as they were done. -/
def Sentence (frames : List Frame) : Prop :=
  ∃ spans : List Span,
    frames = .lifecycle :: .lifecycle :: spansFrom 0 spans ++ [.terminal (spans.map (·.done))]

theorem spansFrom_append (as bs : List Span) :
    spansFrom n (as ++ bs) = spansFrom n as ++ spansFrom (n + as.length) bs := by
  induction as generalizing n with
  | nil => rfl
  | cons a as ih => simp [spansFrom, ih, Nat.add_assoc, Nat.add_comm 1]

end Responses

namespace ResponsesEvents

open Responses

variable {decode : Bytes → Option Value} {e : ResponsesEvents decode} {out : List SseEvent}
  {frames : List Responses.Frame}

/-! What each step keeps. -/

/-- What was written reads as the frames, and is numbered from zero. -/
structure Shows (e : ResponsesEvents decode) (out : List SseEvent) (frames : List Responses.Frame) : Prop where
  read : out.map Responses.readFrame = frames.map some
  numbered : out.map (fun event => sequenceNumber event.data) =
    (List.range out.length).map fun n => some (wire n)
  next : e.sequence = out.length

theorem shows_emit (kind : String) (body : Members) (frame : Responses.Frame)
    (h : Shows e out frames)
    (hread : Responses.readFrame ⟨kind, .obj (setMember "sequence_number" (usizeValue e.sequence)
      (setMember "type" (.str kind) body))⟩ = some frame) :
    Shows (e.emit kind body).1 (out ++ (e.emit kind body).2) (frames ++ [frame]) := by
  have hnumber : sequenceNumber (.obj (setMember "sequence_number" (usizeValue e.sequence)
      (setMember "type" (.str kind) body))) = some (wire e.sequence) := by
    rw [sequenceNumber, Value.get?, lookup_setMember, if_pos rfl]
    rfl
  refine ⟨?_, ?_, ?_⟩
  · rw [map_append, h.read, emit, map_singleton, hread, map_append]
    rfl
  · rw [map_append, h.numbered, emit, map_singleton, hnumber, length_append,
      length_singleton, range_succ, map_append, h.next]
    rfl
  · simp [emit, h.next]

theorem shows_congr {e' : ResponsesEvents decode} (h : Shows e out frames)
    (hsequence : e'.sequence = e.sequence) : Shows e' out frames :=
  ⟨h.read, h.numbered, hsequence.trans h.next⟩

/-- The response has these items, and none is open. -/
structure Between (e : ResponsesEvents decode) (out : List SseEvent) (spans : List Span) : Prop where
  written : Shows e out (.lifecycle :: .lifecycle :: spansFrom 0 spans)
  output : e.output = spans.map (·.done)
  active : e.active = none

/-- After these items one is open, with some events since its beginning. -/
structure InItem (e : ResponsesEvents decode) (out : List SseEvent) (spans : List Span)
    (item : Value) (inner : List Responses.Frame) : Prop where
  written : Shows e out (.lifecycle :: .lifecycle :: spansFrom 0 spans ++
    .added (wire spans.length) item :: inner)
  output : e.output = spans.map (·.done) ++ [item]
  active : ∃ id, e.active = some ⟨spans.length, id⟩

variable {spans : List Span} {item : Value} {inner : List Responses.Frame}

theorem inItem_addItem (item : Value) (h : Between e out spans) :
    InItem (e.addItem item).1 (out ++ (e.addItem item).2) spans (emptied item) [] := by
  have hlength : e.output.length = spans.length := by simp [h.output]
  refine ⟨shows_emit _ _ _ (shows_congr h.written rfl) ?_, ?_, ?_⟩
  · rw [← hlength]
    rfl
  · change e.output ++ [emptied item] = _
    rw [h.output]
  · exact ⟨_, congrArg (fun n => some (ActiveItem.mk n _)) hlength⟩

theorem inItem_emit (kind : String) (body : Members) (frame : Responses.Frame)
    (h : InItem e out spans item inner)
    (hread : Responses.readFrame ⟨kind, .obj (setMember "sequence_number" (usizeValue e.sequence)
      (setMember "type" (.str kind) body))⟩ = some frame) :
    InItem (e.emit kind body).1 (out ++ (e.emit kind body).2) spans item (inner ++ [frame]) := by
  refine ⟨?_, h.output, h.active⟩
  have hwritten := shows_emit _ _ _ h.written hread
  rwa [append_assoc, cons_append] at hwritten

theorem between_doneItem (final : Value) {between : Inner}
    (h : InItem e out spans item (between.frames spans.length)) :
    ∃ e' evs, e.doneItem final = some (e', evs) ∧
      Between e' (out ++ evs) (spans ++ [⟨item, between, final⟩]) := by
  obtain ⟨id, hactive⟩ := h.active
  have hlt : spans.length < e.output.length := by simp [h.output]
  have hdone : e.doneItem final = some (emit "response.output_item.done"
      [("output_index", usizeValue spans.length), ("item", final)]
      { e with active := none, output := e.output.set spans.length final }) := by
    simp only [doneItem, hactive, bind_some, hlt, if_true]
  refine ⟨_, _, hdone, ?_, ?_, rfl⟩
  · have hwritten := shows_emit "response.output_item.done"
      [("output_index", usizeValue spans.length), ("item", final)] (.done (wire spans.length) final)
      (e := { e with active := none, output := e.output.set spans.length final })
      (shows_congr h.written rfl) rfl
    have hframes : .lifecycle :: .lifecycle :: spansFrom 0 (spans ++ [⟨item, between, final⟩]) =
        .lifecycle :: .lifecycle :: spansFrom 0 spans ++
          .added (wire spans.length) item :: between.frames spans.length ++
            [.done (wire spans.length) final] := by
      rw [spansFrom_append]
      simp [spansFrom, Span.frames]
    rw [hframes]
    exact hwritten
  · simp [h.output]

/-- What the writer has written, as a client reads it, in each phase. -/
def Spells (phase : Phase) (_ : Told) (e : ResponsesEvents decode) (out : List SseEvent) : Prop :=
  match phase with
  | .idle => Shows e out [] ∧ e.output = [] ∧ e.active = none
  | .between => ∃ spans, Between e out spans
  | .inText _ text => ∃ spans item pieces, pieced pieces = text ∧
      InItem e out spans item (.part (wire spans.length) :: pieces.map (pieceFrame spans.length))
  | .ended => ∃ frames, Shows e out frames ∧ Responses.Sentence frames

variable {told : Told} {kind : TextKind} {text : String}

theorem spells_start (chunk : Value) (h : Spells .idle told e out) :
    ∃ e' evs, e.start chunk = some (e', evs) ∧ Spells .between told e' (out ++ evs) := by
  obtain ⟨hshows, houtput, hactive⟩ := h
  refine ⟨_, _, rfl, [], ?_, houtput, hactive⟩
  rw [← append_assoc]
  change Shows _ _ (([] ++ [.lifecycle]) ++ [.lifecycle])
  exact shows_emit _ _ _ (shows_emit _ _ _ (shows_congr hshows rfl) rfl) rfl

theorem spells_openText (kind : TextKind) (h : Spells .between told e out) :
    ∃ e' evs, e.openText kind = some (e', evs) ∧ Spells (.inText kind "") told e' (out ++ evs) := by
  obtain ⟨spans, hbetween⟩ := h
  have hclear : Between { e with annotations := [] } out spans :=
    ⟨shows_congr hbetween.written rfl, hbetween.output, hbetween.active⟩
  unfold openText
  dsimp only
  generalize ({ e with annotations := [] } : ResponsesEvents decode) = e₀ at hclear ⊢
  have hitem := inItem_addItem (e₀.textItem kind e.output.length (e₀.textPart kind "")
    "in_progress") hclear
  generalize e₀.addItem _ = added at hitem ⊢
  obtain ⟨id, hactive⟩ := hitem.active
  have hopened := inItem_emit "response.content_part.added"
    (place ⟨spans.length, id⟩ ++ [("part", added.1.textPart kind "")]) (.part (wire spans.length))
    hitem rfl
  generalize hemit : added.1.emit "response.content_part.added"
    (place ⟨spans.length, id⟩ ++ [("part", added.1.textPart kind "")]) = opened at hopened
  rw [append_assoc] at hopened
  refine ⟨opened.1, added.2 ++ opened.2, ?_, spans, _, [], rfl, hopened⟩
  simp only [Written.andThen, bind_some, hactive, map_some, hemit]

theorem readFrame_textDelta (kind : TextKind) (active : ActiveItem) (delta : String) :
    Responses.readFrame ⟨textEvent kind "delta", .obj (setMember "sequence_number" (usizeValue n)
      (setMember "type" (.str (textEvent kind "delta"))
        (place active ++ [("delta", .str delta)] ++ logprobs kind)))⟩ =
      some (.delta (wire active.outputIndex) delta) := by
  cases kind <;> rfl

theorem spells_textDelta {delta : String} (h : Spells (.inText kind text) told e out) :
    ∃ e' evs, e.textDelta kind delta = some (e', evs) ∧
      Spells (.inText kind (text ++ delta)) { told with said := told.said ++ [(kind, delta)] } e'
        (out ++ evs) := by
  obtain ⟨spans, item, pieces, htext, hitem⟩ := h
  obtain ⟨id, hactive⟩ := hitem.active
  have hdelta := inItem_emit _ _ _ hitem (readFrame_textDelta e.sequence kind ⟨spans.length, id⟩ delta)
  generalize hemit : e.emit (textEvent kind "delta") _ = after at hdelta
  refine ⟨after.1, after.2, by simp only [textDelta, hactive, map_some, hemit], spans, item,
    pieces ++ [some delta], ?_, ?_⟩
  · simp [pieced, String.join_append, ← htext]
  · rw [map_append]
    exact hdelta

theorem spells_annotation (value : Value) (h : Spells (.inText .text text) told e out) :
    ∃ e' evs, e.annotation value = some (e', evs) ∧
      Spells (.inText .text text) told e' (out ++ evs) := by
  obtain ⟨spans, item, pieces, htext, hitem⟩ := h
  obtain ⟨id, hactive⟩ := hitem.active
  have hnoted := inItem_emit "response.output_text.annotation.added"
    (place ⟨spans.length, id⟩ ++
      [("annotation_index", usizeValue e.annotations.length), ("annotation", value)])
    ( Responses.Frame.annotation (wire spans.length)) hitem rfl
  generalize hemit : e.emit "response.output_text.annotation.added" _ = after at hnoted
  refine ⟨{ after.1 with annotations := e.annotations ++ [value] }, after.2,
    by simp only [ annotation, hactive, map_some, hemit], spans, item, pieces ++ [none],
    ?_, ?_⟩
  · simpa [pieced] using htext
  · rw [map_append]
    exact ⟨shows_congr hnoted.written rfl, hnoted.output, hnoted.active⟩

theorem readFrame_textDone (kind : TextKind) (active : ActiveItem) (text : String) :
    Responses.readFrame ⟨textEvent kind "done", .obj (setMember "sequence_number" (usizeValue n)
      (setMember "type" (.str (textEvent kind "done"))
        (place active ++ [(textKey kind, .str text)] ++ logprobs kind)))⟩ =
      some (.textDone (wire active.outputIndex) text) := by
  cases kind <;> rfl

theorem readFrame_partDone (e : ResponsesEvents decode) (kind : TextKind)
    (active : ActiveItem) (text : String) :
    Responses.readFrame ⟨"response.content_part.done",
      .obj (setMember "sequence_number" (usizeValue n)
        (setMember "type" (.str "response.content_part.done")
          (place active ++ [("part", e.textPart kind text)])))⟩ =
      some (.partDone (wire active.outputIndex) text) := by
  cases kind <;> rfl

theorem spells_closeText (finished : Bool) (h : Spells (.inText kind text) told e out) :
    ∃ e' evs, e.closeText kind text finished = some (e', evs) ∧
      Spells .between told e' (out ++ evs) := by
  obtain ⟨spans, item, pieces, htext, hitem⟩ := h
  obtain ⟨id, hactive⟩ := hitem.active
  have htold := inItem_emit _ _ _ hitem (readFrame_textDone e.sequence kind ⟨spans.length, id⟩ text)
  unfold closeText
  simp only [hactive, bind_some, Written.andThen]
  generalize e.emit (textEvent kind "done") _ = told₁ at htold ⊢
  have hparted := inItem_emit _ _ _ htold
    (readFrame_partDone told₁.1.sequence told₁.1 kind ⟨spans.length, id⟩ text)
  simp only [map_some, bind_some]
  generalize told₁.1.emit "response.content_part.done" _ = told₂ at hparted ⊢
  have hinner : (.part (wire spans.length) :: pieces.map (pieceFrame spans.length)) ++
      [.textDone (wire spans.length) text] ++ [.partDone (wire spans.length) text] =
      (Inner.text pieces).frames spans.length := by
    simp [Inner.frames, htext]
  rw [hinner] at hparted
  obtain ⟨e', evs, hdone, hbetween⟩ := between_doneItem (told₂.1.textItem kind spans.length
    (told₂.1.textPart kind text) (if finished then "completed" else "incomplete")) hparted
  rw [append_assoc, append_assoc, ← append_assoc told₁.2] at hbetween
  exact ⟨e', told₁.2 ++ told₂.2 ++ evs, by rw [hdone]; rfl, _, hbetween⟩


/-- The input of a call is one delta, unless it is empty, and its done event. -/
theorem inItem_callInput (stem key value id : String) (more : Members)
    (hdelta : ∀ n, Responses.readFrame ⟨"response." ++ stem ++ ".delta",
      .obj (setMember "sequence_number" (usizeValue n)
        (setMember "type" (.str ("response." ++ stem ++ ".delta"))
          ([("item_id", .str id), ("output_index", usizeValue spans.length)] ++
            [("delta", .str value)])))⟩ = some (.delta (wire spans.length) value))
    (hdone : ∀ n, Responses.readFrame ⟨"response." ++ stem ++ ".done",
      .obj (setMember "sequence_number" (usizeValue n)
        (setMember "type" (.str ("response." ++ stem ++ ".done"))
          ([("item_id", .str id), ("output_index", usizeValue spans.length)] ++
            [(key, .str value)] ++ more)))⟩ = some (.textDone (wire spans.length) value))
    (h : InItem e out spans item []) :
    ∃ e' evs, e.callInput stem key ⟨spans.length, id⟩ value more = some (e', evs) ∧
      InItem e' (out ++ evs) spans item ((Inner.call (some value)).frames spans.length) := by
  unfold callInput
  by_cases hvalue : value = ""
  · have hafter := inItem_emit _ _ _ h (hdone e.sequence)
    generalize hemit : e.emit ("response." ++ stem ++ ".done") _ = after at hafter
    refine ⟨after.1, after.2, ?_, ?_⟩
    · simp only [Written.andThen, hvalue, if_true, bind_some, map_some, nil_append] at hemit ⊢
      rw [hemit]
    · simpa [Inner.frames, hvalue] using hafter
  · have hfirst := inItem_emit _ _ _ h (hdelta e.sequence)
    generalize hemit : e.emit ("response." ++ stem ++ ".delta") _ = first at hfirst
    have hafter := inItem_emit _ _ _ hfirst (hdone first.1.sequence)
    generalize hemit' : first.1.emit ("response." ++ stem ++ ".done") _ = after at hafter
    refine ⟨after.1, first.2 ++ after.2, ?_, ?_⟩
    · simp only [Written.andThen, hvalue, if_false, bind_some, map_some, hemit, hemit']
    · simpa [Inner.frames, hvalue] using hafter

theorem spells_toolCall (call : ChatToolCall) (truncated : Bool) (h : Spells .between told e out) :
    ∃ e' evs, e.toolCall call truncated = some (e', evs) ∧
      Spells .between { told with calls := told.calls ++ [(call, truncated)] } e' (out ++ evs) := by
  obtain ⟨spans, hbetween⟩ := h
  unfold toolCall
  dsimp only
  generalize responsesCallItem decode e.tools call.id call.name = build
  have hitem := inItem_addItem (build "" "in_progress") hbetween
  generalize e.addItem (build "" "in_progress") = added at hitem ⊢
  obtain ⟨id, hactive⟩ := hitem.active
  -- Whatever the call becomes, its item is done after what came of its input.
  have hclose : ∀ {e₁ : ResponsesEvents decode} {evs₁} {inner : Inner} (final : Value),
      InItem e₁ (out ++ added.2 ++ evs₁) spans (emptied (build "" "in_progress"))
        (inner.frames spans.length) →
      ∃ e' evs, e₁.doneItem final = some (e', evs) ∧
        Spells .between { told with calls := told.calls ++ [(call, truncated)] } e'
          (out ++ (added.2 ++ (evs₁ ++ evs))) := by
    intro e₁ evs₁ inner final hinner
    obtain ⟨e', evs, hdone, hbetween'⟩ := between_doneItem final hinner
    rw [append_assoc, append_assoc] at hbetween'
    exact ⟨e', evs, hdone, _, hbetween'⟩
  have hbare : InItem added.1 (out ++ added.2 ++ []) spans (emptied (build "" "in_progress"))
      ((Inner.call none).frames spans.length) := by
    rw [append_nil]
    exact hitem
  simp only [Written.andThen, bind_some]
  cases responsesCallValue decode added.1.tools call.name call.arguments truncated with
  | none =>
    obtain ⟨e', evs, hdone, hspells⟩ := hclose (build "" "incomplete") hbare
    exact ⟨e', added.2 ++ evs, by simp only [hdone, map_some], hspells⟩
  | some value =>
    simp only [hactive, bind_some]
    cases added.1.tools.callKind call.name with
    | toolSearch =>
      obtain ⟨e', evs, hdone, hspells⟩ := hclose (build value "completed") hbare
      exact ⟨e', added.2 ++ evs, by simp only [hdone, map_some], hspells⟩
    | custom =>
      obtain ⟨e₁, evs₁, hinput, hinner⟩ := inItem_callInput "custom_tool_call_input"
        "input" value id [] (fun _ => rfl) (fun _ => rfl) hitem
      obtain ⟨e', evs, hdone, hspells⟩ := hclose (build value "completed") hinner
      refine ⟨e', added.2 ++ (evs₁ ++ evs), ?_, hspells⟩
      simp only [hinput, hdone, bind_some, map_some]
    | function =>
      obtain ⟨e₁, evs₁, hinput, hinner⟩ := inItem_callInput "function_call_arguments"
        "arguments" value id [("name", ((build value "completed").get? "name").getD .null)]
        (fun _ => rfl) (fun _ => rfl) hitem
      obtain ⟨e', evs, hdone, hspells⟩ := hclose (build value "completed") hinner
      refine ⟨e', added.2 ++ (evs₁ ++ evs), ?_, hspells⟩
      simp only [hinput, hdone, bind_some, map_some]

theorem output_response (e : ResponsesEvents decode) (status : String)
    (incompleteDetails error : Value) (usage : Option Value) :
    ((e.response status incompleteDetails error usage).get? "output").bind asArr? =
      some e.output := by
  simp only [response, responsesObject, Value.get?, foldl_cons, foldl_nil]
  rw [lookup_setMember, if_neg (by decide), lookup_setMember, if_pos rfl, bind_some, asArr?]

theorem ended_emit {kind : String} {body : Members} {output : List Value}
    (h : Between e out spans) (houtput : e.output = output)
    (hread : Responses.readFrame ⟨kind, .obj (setMember "sequence_number" (usizeValue e.sequence)
      (setMember "type" (.str kind) body))⟩ = some (.terminal output)) :
    Spells .ended told (e.emit kind body).1 (out ++ (e.emit kind body).2) := by
  refine ⟨_, shows_emit _ _ _ h.written hread, spans, ?_⟩
  rw [← houtput, h.output]

theorem spells_finish (outcome : Outcome) (usage : Option Value) (h : Spells .between told e out) :
    ∃ e' evs, e.finish outcome usage = some (e', evs) ∧
      Spells .ended { told with outcome := some (outcome, usage) } e' (out ++ evs) := by
  obtain ⟨spans, hbetween⟩ := h
  have hread : ∀ kind, kind ∈ ["response.completed", "response.incomplete", "response.failed"] →
      ∀ status details error, Responses.readFrame ⟨kind,
        .obj (setMember "sequence_number" (usizeValue e.sequence) (setMember "type" (.str kind)
          [("response", e.response status details error (some (responsesUsage usage)))]))⟩ =
        some (.terminal e.output) := by
    intro kind hkind status details error
    have hterminal : Responses.readFrame.terminal
        (.obj (setMember "sequence_number" (usizeValue e.sequence) (setMember "type" (.str kind)
          [("response", e.response status details error (some (responsesUsage usage)))]))) =
        some (.terminal e.output) := by
      have hget : (Value.obj (setMember "sequence_number" (usizeValue e.sequence)
          (setMember "type" (.str kind)
            [("response", e.response status details error (some (responsesUsage usage)))]))).get?
          "response" = some (e.response status details error (some (responsesUsage usage))) := by
        rfl
      rw [Responses.readFrame.terminal, hget, bind_some, output_response]
      rfl
    simp only [mem_cons, not_mem_nil, or_false] at hkind
    rcases hkind with rfl | rfl | rfl <;> exact hterminal
  cases outcome with
  | finished finish toolUse =>
    cases finish with
    | stop => exact ⟨_, _, rfl, ended_emit hbetween rfl (hread _ (by decide) _ _ _)⟩
    | length => exact ⟨_, _, rfl, ended_emit hbetween rfl (hread _ (by decide) _ _ _)⟩
    | contentFilter => exact ⟨_, _, rfl, ended_emit hbetween rfl (hread _ (by decide) _ _ _)⟩
  | failed failure =>
    cases failure with
    | upstream error => exact ⟨_, _, rfl, ended_emit hbetween rfl (hread _ (by decide) _ _ _)⟩
    | empty => exact ⟨_, _, rfl, ended_emit hbetween rfl (hread _ (by decide) _ _ _)⟩
    | unusableToolCalls => exact ⟨_, _, rfl, ended_emit hbetween rfl (hread _ (by decide) _ _ _)⟩

theorem keeps_spells : Keeps (fun _ _ => true) (@Spells decode) where
  start chunk _ _ h := spells_start chunk h
  usage {phase} _ _ _ _ h := by
    cases phase with
    | idle => exact ⟨shows_congr h.1 rfl, h.2⟩
    | between =>
      obtain ⟨spans, hb⟩ := h
      exact ⟨spans, shows_congr hb.written rfl, hb.output, hb.active⟩
    | inText kind text =>
      obtain ⟨spans, item, pieces, htext, hi⟩ := h
      exact ⟨spans, item, pieces, htext, shows_congr hi.written rfl, hi.output, hi.active⟩
    | ended =>
      obtain ⟨frames, hs, hsentence⟩ := h
      exact ⟨frames, shows_congr hs rfl, hsentence⟩
  openText kind h := spells_openText kind h
  textDelta h := spells_textDelta h
  annotation value h := spells_annotation value h
  closeText finished h := spells_closeText finished h
  toolCall call truncated h := by
    obtain ⟨e', evs, hcall, hspells⟩ := spells_toolCall call truncated h
    exact ⟨e', evs, congrArg (Option.map (·, true)) hcall, hspells⟩
  finish outcome usage h := spells_finish outcome usage h

/-- What a client can be left with is the beginning of a response. -/
theorem shows_of_spells {phase : Phase} (h : Spells phase told e out) :
    ∃ frames, Shows e out frames ∧ ∃ rest, Responses.Sentence (frames ++ rest) := by
  cases phase with
  | idle => exact ⟨[], h.1, [.lifecycle, .lifecycle, .terminal []], [], rfl⟩
  | between =>
    obtain ⟨spans, hbetween⟩ := h
    exact ⟨_, hbetween.written, [.terminal (spans.map (·.done))], spans, rfl⟩
  | inText kind text =>
    obtain ⟨spans, item, pieces, -, hitem⟩ := h
    refine ⟨_, hitem.written, [.textDone (wire spans.length) (pieced pieces),
      .partDone (wire spans.length) (pieced pieces), .done (wire spans.length) item,
      .terminal (spans.map (·.done) ++ [item])],
      spans ++ [⟨item, .text pieces, item⟩], ?_⟩
    rw [spansFrom_append, Nat.zero_add]
    simp [spansFrom, Span.frames, Inner.frames]
  | ended =>
    obtain ⟨frames, hshows, hsentence⟩ := h
    exact ⟨frames, hshows, [], by rwa [append_nil]⟩

end ResponsesEvents

/-! Whole responses. -/

/-- The bridge to the Responses surface. -/
def responsesBridge (decode : Bytes → Option Value) (millis : Nat) (echo : Value)
    (identity : ResponseIdentity) (tools : ResponsesToolMap) (now : U64) (ending : StreamEnd)
    (events : List ParsedEvent) : List SseEvent × Fate :=
  bridge decode (fallbackId "openai" millis)
    ({ echo, identity, tools, nowSecs := now } : ResponsesEvents decode) ending events

/-- For every upstream and either ending, the client gets the beginning of a response, its events
numbered from zero, and a whole one if the bridge completes. -/
theorem responses_grammar (decode : Bytes → Option Value) (millis : Nat) (echo : Value)
    (identity : ResponseIdentity) (tools : ResponsesToolMap) (now : U64) (ending : StreamEnd)
    (events : List ParsedEvent) :
    let written := responsesBridge decode millis echo identity tools now ending events
    written.2 ≠ .panicked ∧
    (written.1.map fun event => sequenceNumber event.data) =
      ((List.range written.1.length).map fun n => some (wire n)) ∧
    ∃ frames, written.1.map Responses.readFrame = frames.map some ∧
      (∃ rest, Responses.Sentence (frames ++ rest)) ∧
      (written.2 = .completed → events ≠ [] → Responses.Sentence frames) := by
  intro written
  by_cases hevents : events = []
  · have hwritten : written.1 = [] ∧ written.2 ≠ .panicked := by
      subst hevents
      cases ending <;> exact ⟨rfl, by rintro ⟨⟩⟩
    rw [hwritten.1]
    exact ⟨hwritten.2, rfl, [], rfl, ⟨[.lifecycle, .lifecycle, .terminal []], [], rfl⟩,
      fun _ h => absurd hevents h⟩
  · have hidle : ResponsesEvents.Spells .idle {}
        ({ echo, identity, tools, nowSecs := now } : ResponsesEvents decode) [] :=
      ⟨⟨rfl, rfl, rfl⟩, rfl, rfl⟩
    obtain ⟨hpanic, phase, told, e, hspells, -, hdone⟩ :=
      bridge_spec decode ending ResponsesEvents.keeps_spells
        (fallbackId_ne "openai" millis) _ hidle events hevents
    obtain ⟨frames, hshows, hstart⟩ := ResponsesEvents.shows_of_spells hspells
    refine ⟨hpanic, hshows.numbered, frames, hshows.read, hstart, ?_⟩
    intro hcompleted _
    obtain ⟨rfl, -⟩ := hdone hcompleted
    obtain ⟨frames', hshows', hsentence⟩ := hspells
    have hsame : frames' = frames :=
      map_injective_iff.mpr (Option.some_injective _) (hshows'.read.symm.trans hshows.read)
    exact hsame ▸ hsentence

/-- An answer of one word that has no end. -/
def unfinishedChunk : Value :=
  .obj [("choices", .arr [.obj [("delta", .obj [("content", .str "hi")])]])]

def unfinishedEvent : ParsedEvent :=
  ⟨none, some "\x7b\"choices\":[\x7b\"delta\":\x7b\"content\":\"hi\"\x7d\x7d]\x7d"⟩

theorem unfinished_cut_off :
    let written := responsesBridge (fromSlice fun _ => none) 0 .null ⟨"r", none⟩ ⟨[], [], false⟩ 0
      .ended [unfinishedEvent]
    written.2 = .failed ∧ written.1.map Responses.readFrame =
      ([.lifecycle, .lifecycle,
        .added 0 (messageItem "msg_r_0" [] "in_progress"), .part 0, .delta 0 "hi"] :
        List Responses.Frame).map some := by
  have hread : fromSlice (fun _ => none) (utf8 unfinishedEvent.payload) = some unfinishedChunk :=
    fromSlice_print (v := unfinishedChunk) _ (by decide) rfl rfl
  simp only [responsesBridge, bridge, bridgeFrom, ChatStream.event, hread]
  exact ⟨rfl, rfl⟩

end AciGateway.Transform
