import AciGateway.Transform.Errors
import AciGateway.Transform.ToolCalls
import AciGateway.Transform.UsageShapes
import AciGateway.Usage.Sanitizer

/-! The reader of a chat stream, over the writer of a client's surface. -/
namespace AciGateway.Transform

open Octets Json Sse Usage

/-! Events. -/

/-- An event as it is written. -/
structure SseEvent where
  name : String
  data : Value

def sseEvent (e : SseEvent) : String :=
  "event: " ++ e.name ++ "\ndata: " ++ jsonStr e.data ++ "\n\n"

/-- An event as it is read: its last name, and its data. -/
structure ParsedEvent where
  name : Option String
  data : Option String

def ParsedEvent.payload (event : ParsedEvent) : String := Text.trim (event.data.getD "")

/-! One chunk. -/

structure ChatChunk where
  hasChoice : Bool
  usage : Option Value
  error : Option Value
  reasoning : String
  content : String
  refusal : String
  annotations : List Value
  toolCalls : List ToolCallDelta
  finishReason : Option String

def asArr? : Value → Option (List Value)
  | .arr items => some items
  | _ => none

def asObj? : Value → Option Members
  | .obj object => some object
  | _ => none

def streamStr (object : Option Members) (key : String) : String :=
  (object.bind (textMember key)).getD ""

/-- The text of a content or a refusal, whole or in parts. -/
def chatText : Option Value → String
  | some (.str text) => text
  | some (.arr parts) => String.join (parts.filterMap fun part => (part.get? "text").bind Value.asStr?)
  | _ => ""

/-- The reasoning of a message or a delta, under either of its names. -/
def reasoningText (message : Value) : Option String :=
  (["reasoning_content", "reasoning"].findSome? fun key =>
    (message.get? key).bind Value.asStr?).filter (· ≠ "")

def responsesAnnotations (annotations : Option Value) : List Value :=
  ((annotations.bind asArr?).getD []).filterMap fun annotation =>
    if ( annotation.get? "type").bind Value.asStr? = some "url_citation" then
      (( annotation.get? "url_citation").bind asObj?).map fun citation =>
        .obj (setMember "type" (.str "url_citation") citation)
    else none

def toolCallDelta (call : Members) : ToolCallDelta :=
  let function := (call.lookup "function").bind asObj?
  { index := (call.lookup "index").bind asU64?
    id := streamStr (some call) "id"
    name := streamStr function "name"
    arguments := streamStr function "arguments" }

/-- A field of an unexpected shape is read as absent. -/
def parseChatChunk (chunk : Value) : ChatChunk :=
  let choice := (((chunk.get? "choices").bind asArr?).bind List.head?).bind asObj?
  let deltaValue := choice.bind fun choice => choice.lookup "delta"
  let delta := deltaValue.bind asObj?
  let member (key : String) := delta.bind fun delta => delta.lookup key
  { hasChoice := choice.isSome
    usage := (chunk.get? "usage").filter fun usage => (asObj? usage).isSome
    error := (chunk.get? "error").filter (!isNull ·)
    reasoning := (deltaValue.bind reasoningText).getD ""
    content := chatText (member "content")
    refusal := chatText (member "refusal")
    annotations := responsesAnnotations (member "annotations")
    toolCalls := (((member "tool_calls").bind asArr?).getD []).filterMap fun call =>
      (asObj? call).map toolCallDelta
    finishReason := (choice.bind fun choice => choice.lookup "finish_reason").bind Value.asStr? }

/-! The end of a turn. -/

inductive ChatFinish where
  | stop
  | length
  | contentFilter
  deriving DecidableEq

namespace ChatFinish

def parse (reason : Option String) : ChatFinish :=
  match reason.map fun r => String.ofList (r.toList.map Char.toLower) with
  | some "length" | some "max_tokens" => .length
  | some "content_filter" => .contentFilter
  | _ => .stop

/-- The turn was cut off before the model finished. -/
def truncated : ChatFinish → Bool
  | .length | .contentFilter => true
  | .stop => false

def stopReason (finish : ChatFinish) (hasToolCalls : Bool) : String :=
  match finish with
  | .length => "max_tokens"
  | .contentFilter => "refusal"
  | .stop => if hasToolCalls then "tool_use" else "end_turn"

def responsesStatus : ChatFinish → String × Value
  | .length => ("incomplete", .obj [("reason", .str "max_output_tokens")])
  | .contentFilter => ("incomplete", .obj [("reason", .str "content_filter")])
  | .stop => ("completed", .null)

end ChatFinish

inductive TextKind where
  | reasoning
  | text
  | refusal
  deriving DecidableEq

/-- Why a stream that ended in-band has no answer to give. -/
inductive Failure where
  | upstream (error : Value)
  | empty
  | unusableToolCalls

inductive Outcome where
  | finished (finish : ChatFinish) (toolUse : Bool)
  | failed (failure : Failure)

/-! Writers. -/

/-- The events one client surface writes for a chat stream. Without a result, the writer has
panicked. -/
class ChatEvents (E : Type) where
  start : E → Value → String → Option (E × List SseEvent)
  usage : E → Value → E
  openText : E → TextKind → Option (E × List SseEvent)
  textDelta : E → TextKind → String → Option (E × List SseEvent)
  annotation : E → Value → Option (E × List SseEvent)
  closeText : E → TextKind → String → Bool → Option (E × List SseEvent)
  /-- Whether the call was written. -/
  toolCall : E → ChatToolCall → Bool → Option ((E × List SseEvent) × Bool)
  finish : E → Outcome → Option Value → Option (E × List SseEvent)

/-! The reader. -/

structure ChatStream (E : Type) where
  events : E
  /-- The upstream's id for the response. -/
  responseId : String := ""
  answered : Bool := false
  terminated : Bool := false
  openKind : Option TextKind := none
  /-- The open text so far. -/
  text : String := ""
  /-- A tool call followed the open text. -/
  calledAfterText : Bool := false
  tools : ToolCalls := {}
  finishReason : Option String := none
  usage : Option Value := none
  error : Option Value := none

/-- The state after a step and what the step wrote, unless it panicked. -/
abbrev Written (S : Type) := Option (S × List SseEvent)

def Written.andThen {S : Type} (r : Written S) (f : S → Written S) : Written S :=
  r.bind fun before => (f before.1).map fun after => (after.1, before.2 ++ after.2)

/-- What one event, or the end of the upstream, leads to. -/
inductive Applied (S : Type) where
  | ok (s : S) (out : List SseEvent)
  /-- The upstream sent what the surface cannot represent, or stopped too early. -/
  | rejected
  | panicked

namespace ChatStream

variable {E : Type} [ChatEvents E]

def started (s : ChatStream E) : Bool := s.responseId ≠ ""

/-- A step of the writer. -/
def write (s : ChatStream E) (r : Option (E × List SseEvent)) : Written (ChatStream E) :=
  r.map fun after => ({ s with events := after.1 }, after.2)

def closeText (finished : Bool) (s : ChatStream E) : Written (ChatStream E) :=
  match s.openKind with
  | none => some (s, [])
  | some kind =>
    { s with openKind := none, text := "" }.write
      (ChatEvents.closeText s.events kind s.text finished)

def openText (kind : TextKind) (s : ChatStream E) : Written (ChatStream E) :=
  { s with openKind := some kind }.write (ChatEvents.openText s.events kind)

def textDelta (kind : TextKind) (delta : String) (s : ChatStream E) : Written (ChatStream E) :=
  { s with calledAfterText := false, text := s.text ++ delta }.write
    (ChatEvents.textDelta s.events kind delta)

def pushText (kind : TextKind) (delta : String) (s : ChatStream E) : Written (ChatStream E) :=
  Written.andThen
    (if s.openKind = some kind then some (s, [])
      else Written.andThen (s.closeText true) (openText kind))
    (textDelta kind delta)

def annotate : List Value → ChatStream E → Written (ChatStream E)
  | [], s => some (s, [])
  | annotation :: annotations, s =>
    Written.andThen (s.write ( ChatEvents.annotation s.events annotation)) (annotate annotations)

/-- The texts of a chunk, each followed by the citations if it leaves a text open; the first
such text takes them all. -/
def pushTexts : List (TextKind × String) → List Value → ChatStream E → Written (ChatStream E)
  | [], _, s => some (s, [])
  | (kind, text) :: texts, annotations, s =>
    Written.andThen (if text = "" then some (s, []) else s.pushText kind text) fun s =>
      if s.openKind = some .text then
        Written.andThen (annotate annotations s) (pushTexts texts [])
      else pushTexts texts annotations s

def begin (value : Value) (fallbackId : String) (s : ChatStream E) : Written (ChatStream E) :=
  if s.started then some (s, [])
  else
    let id := (((value.get? "id").bind Value.asStr?).filter (· ≠ "")).getD fallbackId
    { s with responseId := id }.write (ChatEvents.start s.events value fallbackId)

def noteUsage (usage : Option Value) (s : ChatStream E) : ChatStream E :=
  match usage with
  | none => s
  | some usage =>
    let usage := normalizeReasoningUsageValue usage
    { s with events := ChatEvents.usage s.events usage, usage := some usage }

def toolDelta (s : ChatStream E) (delta : ToolCallDelta) : ChatStream E :=
  match s.tools.choose delta with
  | none => s
  | some slot => { s with tools := s.tools.extendAt delta slot, calledAfterText := true }

def chunkTexts (chunk : ChatChunk) : List (TextKind × String) :=
  [(.reasoning, chunk.reasoning), (.text, chunk.content), (.refusal, chunk.refusal)]

/-- What a chunk says beside its texts, and before them. -/
def noteChunk (c : ChatChunk) (s : ChatStream E) : ChatStream E :=
  let s := s.noteUsage c.usage
  { s with error := c.error.or s.error, answered := s.answered || c.hasChoice }

/-- What it says after them. -/
def noteCalls (c : ChatChunk) (s : ChatStream E) : ChatStream E :=
  let s := c.toolCalls.foldl toolDelta s
  { s with finishReason := c.finishReason.or s.finishReason }

def chunk (value : Value) (fallbackId : String) (s : ChatStream E) : Written (ChatStream E) :=
  let c := parseChatChunk value
  (Written.andThen (s.begin value fallbackId) fun s =>
    (s.noteChunk c).pushTexts (chunkTexts c) c.annotations).map fun after =>
      (after.1.noteCalls c, after.2)

/-- Write the calls; the result says whether one was written. -/
def writeCalls (truncated : Bool) :
    List ChatToolCall → ChatStream E → Option ((ChatStream E × List SseEvent) × Bool)
  | [], s => some ((s, []), false)
  | call :: calls, s => do
    let ((events, out), used) ← ChatEvents.toolCall s.events call truncated
    let ((s, out'), used') ← writeCalls truncated calls { s with events := events }
    pure ((s, out ++ out'), used || used')

def writeOutcome (outcome : Outcome) (s : ChatStream E) : Written (ChatStream E) :=
  s.write (ChatEvents.finish s.events outcome s.usage)

/-- Write what the turn came to. -/
def conclude (s : ChatStream E) : Written (ChatStream E) :=
  let finish := ChatFinish.parse s.finishReason
  match s.error with
  | some error => s.writeOutcome (.failed (.upstream error))
  | none =>
    if !s.answered then s.writeOutcome (.failed .empty)
    else
      let calls := s.tools.calls.values
      let named := writtenCalls s.responseId calls
      (s.writeCalls finish.truncated named).bind fun r =>
        Written.andThen (some r.1) (writeOutcome
          (if named = [] ∧ calls ≠ [] ∧ ¬ finish.truncated then .failed .unusableToolCalls
            else .finished finish r.2))

def finish (s : ChatStream E) : Applied (ChatStream E) :=
  if s.terminated then .ok s []
  else if !s.started then .rejected
  else
    let finish := ChatFinish.parse s.finishReason
    -- Text the turn was cut off in is unfinished, unless calls followed it.
    let r := Written.andThen
      ({ s with terminated := true }.closeText (!finish.truncated || s.calledAfterText)) conclude
    match r with
    | some (s, out) => .ok s out
    | none => .panicked

variable (decode : Bytes → Option Value)

def event (fallbackId : String) (event : ParsedEvent) (s : ChatStream E) : Applied (ChatStream E) :=
  if event.payload = "[DONE]" then s.finish
  else if event.payload = "" ∨ s.terminated then .ok s []
  else
    match decode (utf8 event.payload) with
    | none => .rejected
    | some value =>
      match s.chunk value fallbackId with
      | some (s, out) => .ok s out
      | none => .panicked

def endOfStream (s : ChatStream E) : Applied (ChatStream E) :=
  if s.terminated then .ok s []
  else if s.finishReason = none ∧ s.error.isNone then .rejected
  else s.finish

end ChatStream

/-! A whole stream. -/

/-- How the upstream's stream ends. -/
inductive StreamEnd where
  | ended
  | failed
  deriving DecidableEq

/-- What became of a stream. -/
inductive Fate where
  | completed
  | failed
  | panicked
  deriving DecidableEq

section

variable {E : Type} [ChatEvents E] (decode : Bytes → Option Value) (fallbackId : String)

/-- What is written for the rest of a stream. -/
def bridgeFrom (ending : StreamEnd) : ChatStream E → List ParsedEvent → List SseEvent × Fate
  | s, [] =>
    match ending with
    | .failed => ([], .failed)
    | .ended =>
      match s.endOfStream with
      | .ok _ out => (out, .completed)
      | .rejected => ([], .failed)
      | .panicked => ([], .panicked)
  | s, event :: events =>
    match s.event decode fallbackId event with
    | .ok s out =>
      let rest := bridgeFrom ending s events
      (out ++ rest.1, rest.2)
    | .rejected => ([], .failed)
    | .panicked => ([], .panicked)

/-- What a bridge writes for a stream. The reader is made for the first event. -/
def bridge (writer : E) (ending : StreamEnd) (events : List ParsedEvent) : List SseEvent × Fate :=
  match events, ending with
  | [], .ended => ([], .completed)
  | events, ending => bridgeFrom decode fallbackId ending { events := writer } events

end

end AciGateway.Transform
