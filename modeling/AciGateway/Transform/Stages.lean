import AciGateway.Transform.AnthropicChat
import AciGateway.Transform.Reader
import AciGateway.Transform.Responses

/-! The transforms of a stream as stages of one pipeline: what a stage hands on is whole events,
and the next stage reads exactly those. -/
namespace AciGateway.Transform

open Octets Json Sse Usage EventStream ChatEvent SseEventReader ResponsesEvents List
open Option (map_eq_some_iff bind_eq_some_iff)
open String (ofList join toList_inj toList_ofList join_cons join_append)

/-! Reading an event. -/

/-- The name of an event after one more of its lines. -/
def nameAfter (name : Option String) (line : String) : Option String :=
  if line = "" ∨ isComment line ∨ jsonLike line then name
  else
    match Text.splitOnce ":" line with
    | some (field, value) => if field = "event" then some (Text.trim (stripSpace value)) else name
    | none => name

def parsedEvent (event : String) : ParsedEvent :=
  ⟨(eventLines event).foldl nameAfter none, parseEvent event⟩

/-! Edits in place. -/

def reasoningMembers : List String :=
  ["reasoning", "reasoning_content", "reasoning_details", "thinking_blocks", "reasoning_items"]

def excludeReasoning : Value → Value :=
  onObject (mapMember "choices" (onItems (onObject fun choice =>
    ["message", "delta"].foldl
      (fun choice container => mapMember container
        (onObject fun object => reasoningMembers.foldl (fun object key => swapRemove key object) object)
        choice)
      choice)))

theorem eventType_mapMember {key : String} (hkey : key ≠ "type") (g : Value → Value)
    (object : Members) : eventType (.obj (mapMember key g object)) = eventType (.obj object) := by
  rw [eventType_obj, eventType_obj, textMember, textMember, lookup_mapMember, if_neg hkey.symm]

theorem eventType_excludeReasoning (v : Value) : eventType (excludeReasoning v) = eventType v := by
  cases v with
  | obj object => exact eventType_mapMember (by decide) _ object
  | _ => rfl

theorem eventType_retainAllowed {allowed : List String} (h : allowed.contains "type" = false)
    (object : Members) : eventType (.obj (retainAllowed allowed object)) = none := by
  rw [eventType_obj, textMember, lookup_retainAllowed, if_neg (by simpa using h)]
  rfl

theorem eventType_canonicalizeChoices (top : List String) (h : top.contains "type" = false)
    (choice : Members → Members) (v : Value) :
    eventType (onObject (canonicalizeChoices top choice) v) = none ∨
      eventType (onObject (canonicalizeChoices top choice) v) = eventType v := by
  cases v with
  | obj object =>
    left
    rw [onObject, canonicalizeChoices, eventType_mapMember (by decide), eventType_mapMember (by decide),
      eventType_mapMember (by decide), eventType_retainAllowed h]
  | _ => exact .inr rfl

theorem eventType_canonicalizeResponses (v : Value) :
    eventType (canonicalizeResponses v) ∈ [none, some "error", eventType v] := by
  cases v with
  | obj object =>
    rw [canonicalizeResponses]
    split
    · split
      · have herror : eventType (sanitizeResponsesErrorEvent object) = some "error" := by
          rw [sanitizeResponsesErrorEvent]
          split <;> split <;> rfl
        simp [herror]
      · split
        · rw [eventType_mapMember (by decide)]
          simp
        · simp
    · rw [eventType_canonicalizeResponsesObject]
      simp
  | _ => simp [canonicalizeResponses]

theorem eventType_canonicalizeMessages (requestId : Option String) (v : Value) :
    eventType (canonicalizeMessages requestId v) ∈ [none, some "error", eventType v] := by
  cases v with
  | obj object =>
    rw [canonicalizeMessages]
    split
    · have herror : eventType (sanitizeMessagesErrorEvent object requestId) = some "error" := by
        rw [sanitizeMessagesErrorEvent]
        split
        · split <;> rfl
        · rfl
      simp [herror]
    · simp
  | _ => simp [canonicalizeMessages]

/-- The documented shape gives no event a type of the upstream's that it did not have. -/
theorem eventType_canonicalize (endpoint : Endpoint) (requestId : Option String) (v : Value) :
    eventType (canonicalize endpoint requestId v) ∈ [none, some "error", eventType v] := by
  cases endpoint with
  | chatComplete =>
    have h := eventType_canonicalizeChoices chatTop (by decide) canonicalizeChatChoice v
    rcases h with h | h <;> simp [canonicalize, canonicalizeChatCompletion, h]
  | complete =>
    have h := eventType_canonicalizeChoices completionTop (by decide) canonicalizeCompletionChoice v
    rcases h with h | h <;> simp [canonicalize, canonicalizeTextCompletion, h]
  | createModelResponse => exact eventType_canonicalizeResponses v
  | messages => exact eventType_canonicalizeMessages requestId v
  | embed => simp [canonicalize]
  | audioTranscriptions => simp [canonicalize]
  | systemOne =>
    cases v with
    | obj object =>
      have hnone : eventType (canonicalizeSystemone (.obj object)) = none := by
        rw [canonicalizeSystemone, eventType_mapMember (by decide), eventType_mapMember (by decide),
          eventType_retainAllowed (by decide)]
      simp [canonicalize, hnone]
    | _ => simp [canonicalize, canonicalizeSystemone]

/-- The sanitizer of an edit, which counts where it changes a body. -/
def editing (decode : Bytes → Option Value) (edit : Value → Value)
    (htype : ∀ v, eventType (edit v) ∈ [none, some "error", eventType v]) : Sanitizer where
  decode := decode
  edit v := if same (edit v) v then none else some (edit v)
  typed v w t hedit hnew hold := by
    split at hedit
    · cases hedit
    · cases hedit
      have hmem := htype v
      rw [hnew] at hmem
      simp only [List.mem_cons, List.not_mem_nil, or_false] at hmem
      rcases hmem with hmem | hmem | hmem
      · cases hmem
      · cases hmem
        decide
      · exact absurd hmem.symm hold

def sanitizing (decode : Bytes → Option Value) (identity : ResponseIdentity) (endpoint : Endpoint) :
    Sanitizer :=
  editing decode (fun body => canonicalize endpoint (some identity.requestId)
    (rewriteIdentity identity body)) fun v => by
      have h := eventType_canonicalize endpoint (some identity.requestId) (rewriteIdentity identity v)
      rwa [eventType_rewriteIdentity] at h

def excludingReasoning (decode : Bytes → Option Value) : Sanitizer :=
  editing decode excludeReasoning fun v => by simp [eventType_excludeReasoning]

/-! The stages. -/

inductive StreamTransform where
  | anthropicToOpenaiChat
  | openaiToAnthropicMessages
  | openaiChatToResponses (echo : Value) (identity : ResponseIdentity) (tools : ResponsesToolMap)
  | anthropicCompleteToOpenai
  | excludeReasoning
  | sanitizeResponse (identity : ResponseIdentity) (endpoint : Endpoint)

/-- The state that the events of a stream share. A stream touches the part of its transform. -/
structure StreamState (decode : Bytes → Option Value) where
  anthropic : AnthropicState := {}
  messages : Option (ChatStream (MessagesEvents decode)) := none
  responses : Option (ChatStream (ResponsesEvents decode)) := none

/-- What a step of a stage comes to. -/
inductive StageStep (decode : Bytes → Option Value) where
  | ok (state : StreamState decode) (out : Option String)
  | rejected
  | panicked

/-- What was written, if anything. -/
def written (texts : List String) : Option String :=
  if String.join texts = "" then none else some (String.join texts)

section

variable (decode : Bytes → Option Value) (now : U64) (millis : Nat) (fallbackId : String)

def completionChunk (parsed : Value) : Value :=
  .obj [("id", orNull (parsed.get? "log_id")), ("object", .str "text_completion"),
    ("created", .num (.posInt now)), ("model", orNull (parsed.get? "model")),
    ("provider", .str "anthropic"),
    ("choices", .arr [.obj [("text", orNull (parsed.get? "completion")),
      ("index", .num (.posInt 0)), ("logprobs", .null),
      ("finish_reason", orNull (parsed.get? "stop_reason"))]])]

/-- The end marker of the upstream is passed on without a frame. -/
def anthropicCompleteStream (event : ParsedEvent) : Option (Option String) :=
  if event.name = some "ping" ∨ event.payload = "" then some none
  else if event.payload = "[DONE]" then some (some "[DONE]")
  else (decode (utf8 event.payload)).map fun parsed =>
    some ("data: " ++ jsonStr (completionChunk now parsed) ++ "\n\n")

/-- A step of a bridge as a step of its stage. -/
def bridged {E : Type} (state : ChatStream E → StreamState decode) :
    Applied (ChatStream E) → StageStep decode
  | .ok s out => .ok (state s) (written (out.map sseEvent))
  | .rejected => .rejected
  | .panicked => .panicked

def StreamTransform.apply (t : StreamTransform) (event : String) (state : StreamState decode) :
    StageStep decode :=
  match t with
  | .excludeReasoning => .ok state (some (editEventBody (excludingReasoning decode) event))
  | .sanitizeResponse identity endpoint =>
    .ok state (some (editEventBody (sanitizing decode identity endpoint) event))
  | .anthropicToOpenaiChat =>
    match anthropicChatStream now fallbackId decode true (parsedEvent event) state.anthropic with
    | none => .rejected
    | some (anthropic, out) => .ok { state with anthropic } (written (out.map ChatEvent.text))
  | .openaiToAnthropicMessages =>
    bridged decode (fun s => { state with messages := some s })
      ((state.messages.getD { events := ⟨0, none, millis⟩ }).event decode fallbackId
        (parsedEvent event))
  | .openaiChatToResponses echo identity tools =>
    bridged decode (fun s => { state with responses := some s })
      ((state.responses.getD { events := { echo, identity, tools, nowSecs := now } }).event decode
        fallbackId (parsedEvent event))
  | .anthropicCompleteToOpenai =>
    match anthropicCompleteStream decode now (parsedEvent event) with
    | none => .rejected
    | some out => .ok state out

def StreamTransform.endOfStream (t : StreamTransform) (state : StreamState decode) :
    StageStep decode :=
  match t with
  | .openaiToAnthropicMessages =>
    match state.messages with
    | none => .ok state none
    | some s => bridged decode (fun s => { state with messages := some s }) s.endOfStream
  | .openaiChatToResponses _ _ _ =>
    match state.responses with
    | none => .ok state none
    | some s => bridged decode (fun s => { state with responses := some s }) s.endOfStream
  | _ => .ok state none

end

/-! What is written is whole events. -/

/-- The text of an event: lines, each with its end. -/
def IsEventText (text : String) : Prop :=
  ∃ ls : List (List Char), ls ≠ [] ∧ (∀ l ∈ ls, IsLine l) ∧
    text = String.ofList (ls.flatMap (· ++ ['\n']))

/-- The output is the given events, each closed by a blank line. -/
structure Emits (out : String) (texts : List String) : Prop where
  eq : out = String.join (texts.map (· ++ "\n"))
  each : ∀ text ∈ texts, IsEventText text

theorem emits_append {a b : String} {as bs : List String} (ha : Emits a as) (hb : Emits b bs) :
    Emits (a ++ b) (as ++ bs) := by
  refine ⟨?_, ?_⟩
  · rw [ha.eq, hb.eq, map_append, join_append]
  · intro text htext
    rcases mem_append.mp htext with htext | htext
    · exact ha.each text htext
    · exact hb.each text htext

theorem emits_frame (ls : List (List Char)) (hne : ls ≠ []) (h : ∀ l ∈ ls, IsLine l) :
    Emits (ofList (frame ls)) [ofList (ls.flatMap (· ++ ['\n']))] := by
  refine ⟨?_, ?_⟩
  · simp [frame, join]
  · intro text htext
    rw [mem_singleton.mp htext]
    exact ⟨ls, hne, h, rfl⟩

theorem utf8_lines (ls : List (List Char)) :
    utf8 (ofList (ls.flatMap (· ++ ['\n']))) =
      buffered (ls.map fun l => utf8 (ofList l)) := by
  have hline : String.utf8EncodeChar '\n' = [10] := by decide
  simp only [utf8_ofList, buffered, flatMap_map, flatMap_assoc, flatMap_append,
    flatMap_singleton, hline]

variable {l : List Char} {texts : List String}

theorem oneLine_utf8 (h : IsLine l) :
    OneLine (utf8 (ofList l)) ∧ utf8 (ofList l) ≠ [] := by
  have hmem {n : Nat} (hn : n < 128) (hbyte : UInt8.ofNat n ∈ utf8 (ofList l)) :
      Char.ofNat n ∈ l := by
    rw [utf8_ofList] at hbyte
    obtain ⟨c, hc, hbyte⟩ := mem_flatMap.mp hbyte
    exact char_of_mem_encode hn hbyte ▸ hc
  refine ⟨⟨fun h10 => h.2.1 (hmem (by decide) h10), fun h13 => h.2.2 (hmem (by decide) h13)⟩, ?_⟩
  obtain ⟨c, cs, rfl⟩ := exists_cons_of_ne_nil h.1
  rw [utf8_ofList, flatMap_cons]
  simp

/-- The next stage reads the events that were written, unless one is too long for it. -/
theorem pushChunk_emits {out : String} (h : Emits out texts)
    (hcap : ∀ text ∈ texts, (utf8 text).length ≤ maxSseLineBytes) :
    pushChunk {} (utf8 out) = ({}, texts, false) := by
  obtain ⟨rfl, heach⟩ := h
  induction texts with
  | nil => rfl
  | cons text texts ih =>
    rw [forall_mem_cons] at hcap heach
    obtain ⟨ls, hne, hls, rfl⟩ := heach.1
    have hframe : ofList (ls.flatMap (· ++ ['\n'])) ++ "\n" = ofList (frame ls) := by
      simp [frame]
    have hbytes : ∀ b ∈ ls.map fun l => utf8 (ofList l), OneLine b ∧ b ≠ [] := by
      intro b hb
      obtain ⟨l, hl, rfl⟩ := mem_map.mp hb
      exact oneLine_utf8 (hls l hl)
    have hfits := hcap.1
    rw [utf8_lines] at hfits
    rw [map_cons, join_cons, hframe, utf8_append, utf8_frame,
      pushChunk_event (by simpa using hne) hbytes hfits, ih hcap.2 heach.2,
      ← utf8_lines, fromUtf8Lossy_utf8]

/-! The events of the bridges. -/

/-- The name of an event is within one line. -/
def OneLineName (e : SseEvent) : Prop := '\n' ∉ e.name.toList ∧ '\r' ∉ e.name.toList

/-- What a step writes has the property. -/
def Written.All {S : Type} (Q : SseEvent → Prop) (r : Written S) : Prop :=
  ∀ after ∈ r, ∀ e ∈ after.2, Q e

/-- What the writer of a surface writes has the property, whatever its state. -/
structure Writes (Q : SseEvent → Prop) (E : Type) [ChatEvents E] : Prop where
  start : ∀ (e : E) chunk id, Written.All Q (ChatEvents.start e chunk id)
  openText : ∀ (e : E) kind, Written.All Q (ChatEvents.openText e kind)
  textDelta : ∀ (e : E) kind delta, Written.All Q (ChatEvents.textDelta e kind delta)
  annotation : ∀ (e : E) value, Written.All Q ( ChatEvents.annotation e value)
  closeText : ∀ (e : E) kind text finished, Written.All Q (ChatEvents.closeText e kind text finished)
  toolCall : ∀ (e : E) call truncated,
    Written.All Q ((ChatEvents.toolCall e call truncated).map Prod.fst)
  finish : ∀ (e : E) outcome usage, Written.All Q (ChatEvents.finish e outcome usage)

variable {event : ParsedEvent} {kind : String}

section

variable {Q : SseEvent → Prop} {S E : Type}

theorem Written.all_nil (s : S) : Written.All Q (some (s, [])) := by
  rintro _ ⟨⟩ e he
  cases he

theorem Written.all_some {s : S} {out : List SseEvent} (h : ∀ e ∈ out, Q e) :
    Written.All Q (some (s, out)) := by
  rintro _ ⟨⟩
  exact h

theorem Written.All.andThen {r : Written S} {f : S → Written S} (hr : r.All Q)
    (hf : ∀ s, (f s).All Q) : (r.andThen f).All Q := by
  intro after hafter e he
  obtain ⟨before, hbefore, hafter⟩ := bind_eq_some_iff.mp hafter
  obtain ⟨next, hnext, rfl⟩ := map_eq_some_iff.mp hafter
  rcases mem_append.mp he with he | he
  · exact hr before hbefore e he
  · exact hf before.1 next hnext e he

theorem ChatStream.all_write {s : ChatStream E} {r : Option (E × List SseEvent)}
    (h : Written.All Q r) : (s.write r).All Q := by
  intro after hafter e he
  obtain ⟨before, hbefore, rfl⟩ := map_eq_some_iff.mp hafter
  exact h before hbefore e he

namespace ChatStream

variable [ChatEvents E] (h : Writes Q E) (s : ChatStream E) {s' : ChatStream E}

include h

theorem all_closeText (finished : Bool) : (s.closeText finished).All Q := by
  unfold closeText
  split
  · exact Written.all_nil s
  · exact all_write (h.closeText _ _ _ _)

theorem all_pushText (kind : TextKind) (delta : String) : (s.pushText kind delta).All Q := by
  refine Written.All.andThen ?_ fun s => all_write (h.textDelta _ _ _)
  split
  · exact Written.all_nil s
  · exact (all_closeText h s true).andThen fun s => all_write (h.openText _ _)

theorem all_annotate (annotations : List Value) : (s.annotate annotations).All Q := by
  induction annotations generalizing s with
  | nil => exact Written.all_nil s
  | cons annotation annotations ih => exact (all_write ( h.annotation _ _)).andThen ih

theorem all_pushTexts (texts : List (TextKind × String)) (annotations : List Value) :
    (s.pushTexts texts annotations).All Q := by
  induction texts generalizing annotations s with
  | nil => exact Written.all_nil s
  | cons text texts ih =>
    refine Written.All.andThen ?_ fun s => ?_
    · split
      · exact Written.all_nil s
      · exact all_pushText h s _ _
    · split
      · exact (all_annotate h s annotations).andThen fun s => ih s []
      · exact ih s annotations

theorem all_chunk (value : Value) (fallbackId : String) : (s.chunk value fallbackId).All Q := by
  intro after hafter e he
  obtain ⟨before, hbefore, rfl⟩ := map_eq_some_iff.mp hafter
  refine (Written.All.andThen ?_ fun s => ?_) before hbefore e he
  · unfold begin
    split
    · exact Written.all_nil s
    · exact all_write (h.start _ _ _)
  · exact all_pushTexts h _ _ _

theorem all_writeCalls (truncated : Bool) (calls : List ChatToolCall) :
    Written.All Q ((s.writeCalls truncated calls).map Prod.fst) := by
  induction calls generalizing s with
  | nil => exact Written.all_nil s
  | cons call calls ih =>
    intro after hafter e he
    obtain ⟨r, hr, rfl⟩ := map_eq_some_iff.mp hafter
    obtain ⟨first, hfirst, hr⟩ := bind_eq_some_iff.mp hr
    obtain ⟨rest, hrest, hr⟩ := bind_eq_some_iff.mp hr
    cases hr
    rcases mem_append.mp he with he | he
    · exact h.toolCall _ _ _ first.1 (map_eq_some_iff.mpr ⟨first, hfirst, rfl⟩) e he
    · exact ih _ rest.1 (map_eq_some_iff.mpr ⟨rest, hrest, rfl⟩) e he

theorem all_conclude : s.conclude.All Q := by
  unfold conclude
  split
  · exact all_write (h.finish _ _ _)
  · split
    · exact all_write (h.finish _ _ _)
    · intro after hafter e he
      obtain ⟨r, hr, hafter⟩ := bind_eq_some_iff.mp hafter
      refine (Written.All.andThen ?_ fun s => all_write (h.finish _ _ _)) after hafter e he
      rintro _ ⟨⟩
      exact all_writeCalls h s _ _ r.1 (map_eq_some_iff.mpr ⟨r, hr, rfl⟩)

theorem all_finish {out : List SseEvent} (hfinish : s.finish = .ok s' out) : ∀ e ∈ out, Q e := by
  unfold finish at hfinish
  split at hfinish
  · cases hfinish
    simp
  · split at hfinish
    · cases hfinish
    · dsimp only at hfinish
      split at hfinish
      · next hout =>
        cases hfinish
        exact ((all_closeText h _ _).andThen fun s => all_conclude h s) _ hout
      · cases hfinish

/-- What a stream writes for an event has the property. -/
theorem all_event {decode : Bytes → Option Value} {fallbackId : String} {out : List SseEvent}
    (hevent : s.event decode fallbackId event = .ok s' out) : ∀ e ∈ out, Q e := by
  unfold ChatStream.event at hevent
  split at hevent
  · exact all_finish h s hevent
  · split at hevent
    · cases hevent
      simp
    · split at hevent
      · cases hevent
      · split at hevent
        · next hout =>
          cases hevent
          exact all_chunk h s _ _ _ hout
        · cases hevent

theorem all_endOfStream {out : List SseEvent} (hend : s.endOfStream = .ok s' out) : ∀ e ∈ out, Q e := by
  unfold endOfStream at hend
  split at hend
  · cases hend
    simp
  · split at hend
    · cases hend
    · exact all_finish h s hend

end ChatStream

end

theorem oneLineName_event (h : '\n' ∉ kind.toList ∧ '\r' ∉ kind.toList)
    (members : Members) : OneLineName (MessagesEvents.event kind members) := h

theorem writes_messages (decode : Bytes → Option Value) :
    Writes OneLineName (MessagesEvents decode) where
  start e chunk id := Written.all_some (forall_mem_singleton.mpr (oneLineName_event (by decide) _))
  openText e kind := Written.all_some (forall_mem_singleton.mpr (oneLineName_event (by decide) _))
  textDelta e kind delta := Written.all_some (forall_mem_singleton.mpr
    (oneLineName_event (by decide) _))
  annotation e value := Written.all_nil e
  closeText e kind text finished := Written.all_some (forall_mem_singleton.mpr
    (oneLineName_event (by decide) _))
  toolCall e call truncated := by
    have hcall : ∀ ev ∈ (e.toolCall call truncated).1.2, OneLineName ev := by
      have hwrite (members members' members'' : Members) :
          ∀ ev ∈ [MessagesEvents.event "content_block_start" members,
            MessagesEvents.event "content_block_delta" members',
            MessagesEvents.event "content_block_stop" members''], OneLineName ev := by
        simp only [forall_mem_cons, not_mem_nil, false_imp_iff, implies_true, and_true]
        exact ⟨oneLineName_event (by decide) _, oneLineName_event (by decide) _,
          oneLineName_event (by decide) _⟩
      unfold MessagesEvents.toolCall
      split
      · exact hwrite _ _ _
      · split
        · simp
        · exact hwrite _ _ _
    exact Written.all_some hcall
  finish e outcome usage := by
    refine Written.all_some ?_
    cases outcome with
    | failed failure => exact forall_mem_singleton.mpr (oneLineName_event (by decide) _)
    | finished finish toolUse =>
      simp only [MessagesEvents.finish, forall_mem_cons, not_mem_nil, false_imp_iff,
        implies_true, and_true]
      exact ⟨oneLineName_event (by decide) _, oneLineName_event (by decide) _⟩

section

variable {decode : Bytes → Option Value} (e : ResponsesEvents decode)

theorem all_emit (h : '\n' ∉ kind.toList ∧ '\r' ∉ kind.toList) (body : Members) :
    Written.All OneLineName (some (e.emit kind body)) :=
  Written.all_some (forall_mem_singleton.mpr h)

theorem oneLine_annotationEvent : '\n' ∉ "response.output_text.annotation.added".toList ∧
    '\r' ∉ "response.output_text.annotation.added".toList := by decide

theorem all_map {α S : Type} {Q : SseEvent → Prop} {o : Option α} {f : α → S × List SseEvent}
    (h : ∀ a, Written.All Q (some (f a))) : Written.All Q (o.map f) := by
  intro after hafter
  obtain ⟨a, -, rfl⟩ := map_eq_some_iff.mp hafter
  exact h a _ rfl

theorem all_bind {α S : Type} {Q : SseEvent → Prop} {o : Option α} {f : α → Written S}
    (h : ∀ a, (f a).All Q) : Written.All Q (o.bind f) := by
  intro after hafter
  obtain ⟨a, -, hafter⟩ := bind_eq_some_iff.mp hafter
  exact h a after hafter

theorem all_addItem (item : Value) : Written.All OneLineName (some (e.addItem item)) :=
  Written.all_some (forall_mem_singleton.mpr (by
    change '\n' ∉ "response.output_item.added".toList ∧ '\r' ∉ "response.output_item.added".toList
    decide))

theorem all_doneItem (item : Value) : (e.doneItem item).All OneLineName := by
  refine all_bind fun active => ?_
  split
  · exact all_emit _ (by decide) _
  · rintro _ ⟨⟩

theorem oneLine_textEvent (kind : TextKind) (suffix : String)
    (h : suffix ∈ ["delta", "done"]) : '\n' ∉ (textEvent kind suffix).toList ∧
      '\r' ∉ (textEvent kind suffix).toList := by
  simp only [mem_cons, not_mem_nil, or_false] at h
  rcases h with rfl | rfl <;> cases kind <;> decide

theorem all_callInput {stem key : String} (h : stem ∈ ["custom_tool_call_input",
      "function_call_arguments"]) (active : ActiveItem) (value : String) (more : Members) :
    (e.callInput stem key active value more).All OneLineName := by
  simp only [mem_cons, not_mem_nil, or_false] at h
  unfold ResponsesEvents.callInput
  refine Written.All.andThen ?_ fun e => ?_
  · split
    · exact Written.all_nil e
    · rcases h with rfl | rfl <;> exact all_emit _ (by decide) _
  · rcases h with rfl | rfl <;> exact all_emit _ (by decide) _

theorem writes_responses : Writes OneLineName (ResponsesEvents decode) where
  start e chunk id := (all_emit _ (by decide) _).andThen fun e => all_emit e (by decide) _
  openText e kind := by
    change (e.openText kind).All OneLineName
    unfold openText
    exact (all_addItem _ _).andThen fun e => all_map fun active => all_emit e (by decide) _
  textDelta e kind delta := all_map fun active =>
    all_emit e (oneLine_textEvent kind "delta" (by decide)) _
  annotation e value := all_map fun active =>
    Written.all_some (all_emit e oneLine_annotationEvent _ _ rfl)
  closeText e kind text finished := all_bind fun active =>
    ((all_emit e (oneLine_textEvent kind "done" (by decide)) _).andThen fun e =>
      all_emit e (by decide) _).andThen fun e => all_doneItem e _
  toolCall e call truncated := by
    have hcall : (e.toolCall call truncated).All OneLineName := by
      unfold toolCall
      refine (all_addItem e _).andThen fun e => ?_
      split
      · exact all_doneItem e _
      · refine all_bind fun active => ?_
        split
        · exact all_doneItem e _
        · exact (all_callInput e (by decide) _ _ _).andThen fun e => all_doneItem e _
        · exact (all_callInput e (by decide) _ _ _).andThen fun e => all_doneItem e _
    have hmap : ((ChatEvents.toolCall e call truncated).map Prod.fst) = e.toolCall call truncated := by
      change ((e.toolCall call truncated).map (·, true)).map Prod.fst = _
      rw [Option.map_map]
      exact Option.map_id'
    rw [hmap]
    exact hcall
  finish e outcome usage := by
    change (e.finish outcome usage).All OneLineName
    cases outcome with
    | finished finish toolUse => cases finish <;> exact all_emit e (by decide) _
    | failed failure => cases failure <;> exact all_emit e (by decide) _

end

/-! The texts of events. -/

theorem isLine_data (body : Value) : IsLine ("data: " ++ jsonStr body).toList :=
  isLine_prefixed (by decide) (by decide) (isLine_jsonStr body).2

theorem emits_data (body : Value) :
    Emits (text (.data body)) ["data: " ++ jsonStr body ++ "\n"] := by
  have h := emits_frame [("data: " ++ jsonStr body).toList] (by simp)
    (forall_mem_singleton.mpr (isLine_data body))
  have htext : ofList (frame [("data: " ++ jsonStr body).toList]) =
      text (.data body) := by
    rw [← toList_inj]
    simp [frame, text]
  have heach : ofList ([("data: " ++ jsonStr body).toList].flatMap (· ++ ['\n'])) =
      "data: " ++ jsonStr body ++ "\n" := by
    rw [← toList_inj]
    simp
  rwa [htext, heach] at h

theorem emits_done : Emits (text .done) ["data: [DONE]\n"] := by
  refine ⟨rfl, forall_mem_singleton.mpr ⟨["data: [DONE]".toList], by decide, ?_, rfl⟩⟩
  exact forall_mem_singleton.mpr ⟨by decide, by decide, by decide⟩

/-- The text of an event, without its blank line. -/
def ChatEvent.line : ChatEvent → String
  | .data body => "data: " ++ jsonStr body ++ "\n"
  | .done => "data: [DONE]\n"

theorem emits_chatEvents (out : List ChatEvent) :
    Emits (join (out.map text)) (out.map line) := by
  induction out with
  | nil => exact ⟨rfl, by simp⟩
  | cons event out ih =>
    rw [map_cons, join_cons]
    cases event with
    | data body => exact emits_append (emits_data body) ih
    | done => exact emits_append emits_done ih

theorem emits_sseEvent {e : SseEvent} (h : OneLineName e) : ∃ text, Emits (sseEvent e) [text] := by
  have hlines : ∀ l ∈ [("event: " ++ e.name).toList, ("data: " ++ jsonStr e.data).toList], IsLine l := by
    simp only [forall_mem_cons, not_mem_nil, false_imp_iff, implies_true, and_true]
    exact ⟨isLine_prefixed (by decide) (by decide) h, isLine_data e.data⟩
  have htext : ofList (frame [("event: " ++ e.name).toList,
      ("data: " ++ jsonStr e.data).toList]) = sseEvent e := by
    rw [← toList_inj]
    simp [frame, sseEvent]
  exact ⟨_, htext ▸ emits_frame _ (by simp) hlines⟩

theorem emits_sseEvents {out : List SseEvent} (h : ∀ e ∈ out, OneLineName e) :
    ∃ texts, Emits (join (out.map sseEvent)) texts := by
  induction out with
  | nil => exact ⟨[], rfl, by simp⟩
  | cons e out ih =>
    rw [forall_mem_cons] at h
    obtain ⟨text, htext⟩ := emits_sseEvent h.1
    obtain ⟨texts, htexts⟩ := ih h.2
    rw [map_cons, join_cons]
    exact ⟨_, emits_append htext htexts⟩

theorem written_eq {out : String} (h : written texts = some out) : out = join texts := by
  unfold written at h
  split at h
  · cases h
  · exact (Option.some.inj h).symm

theorem emits_edited {event : String} (h : TidyEvent event) (S : Sanitizer) :
    ∃ texts, Emits (editEventBody S event) texts := by
  obtain ⟨ls, hne, hls, heq⟩ := exists_editedLines S h
  exact ⟨_, heq ▸ emits_frame _ hne hls⟩

section

variable {decode : Bytes → Option Value} {now : U64} {millis : Nat} {fallbackId : String}
  {state state' : StreamState decode} {out : String} {t : StreamTransform} (strict : Bool)

theorem emits_bridged {E : Type} {f : ChatStream E → StreamState decode}
    {r : Applied (ChatStream E)} (hr : ∀ s events, r = .ok s events → ∀ e ∈ events, OneLineName e)
    (h : bridged decode f r = .ok state' (some out)) : ∃ texts, Emits out texts := by
  cases r with
  | ok s events =>
    simp only [bridged, StageStep.ok.injEq] at h
    rw [written_eq h.2]
    exact emits_sseEvents (hr s events rfl)
  | rejected => cases h
  | panicked => cases h

open StreamTransform

/-- Whatever a stage writes for an event is whole events, but for the end marker that one of them
passes on as it is. -/
theorem emits_apply {event : String} (hevent : TidyEvent event)
    (hmark : t = .anthropicCompleteToOpenai → (parsedEvent event).payload ≠ "[DONE]")
    (h : t.apply decode now millis fallbackId event state = .ok state' (some out)) :
    ∃ texts, Emits out texts := by
  cases t with
  | excludeReasoning =>
    cases h
    exact emits_edited hevent _
  | sanitizeResponse identity endpoint =>
    cases h
    exact emits_edited hevent _
  | anthropicToOpenaiChat =>
    simp only [apply] at h
    split at h
    · cases h
    · simp only [StageStep.ok.injEq] at h
      rw [written_eq h.2]
      exact ⟨_, emits_chatEvents _⟩
  | openaiToAnthropicMessages =>
    simp only [apply] at h
    exact emits_bridged (fun s events hr => ChatStream.all_event (writes_messages decode) _ hr) h
  | openaiChatToResponses echo identity tools =>
    simp only [apply] at h
    exact emits_bridged (fun s events hr => ChatStream.all_event writes_responses _ hr) h
  | anthropicCompleteToOpenai =>
    simp only [apply, anthropicCompleteStream, if_neg (hmark rfl)] at h
    split at h
    · cases h
    · next result hresult =>
      simp only [StageStep.ok.injEq] at h
      rw [h.2] at hresult
      split at hresult
      · cases hresult
      · obtain ⟨parsed, -, hout⟩ := map_eq_some_iff.mp hresult
        cases hout
        exact ⟨_, emits_data _⟩

theorem emits_endOfStream
    (h : t.endOfStream decode state = .ok state' (some out)) : ∃ texts, Emits out texts := by
  cases t with
  | openaiToAnthropicMessages =>
    simp only [endOfStream] at h
    split at h
    · cases h
    · exact emits_bridged
        (fun s events hr => ChatStream.all_endOfStream (writes_messages decode) _ hr) h
  | openaiChatToResponses echo identity tools =>
    simp only [endOfStream] at h
    split at h
    · cases h
    · exact emits_bridged (fun s events hr => ChatStream.all_endOfStream writes_responses _ hr) h
  | _ => cases h

/-! The end marker of the chat surface. -/

/-- What a stage writes for the events of a stream, until it refuses one. -/
def StreamTransform.run (t : StreamTransform) (decode : Bytes → Option Value) (now : U64)
    (millis : Nat) (fallbackId : String) : StreamState decode → List String → List String
  | _, [] => []
  | state, event :: events =>
    match t.apply decode now millis fallbackId event state with
    | .ok state out => out.toList ++ t.run decode now millis fallbackId state events
    | .rejected => []
    | .panicked => []

/-- Nothing is written for the event: it is not for this surface, empty, or refused. -/
def Silent (decode : Bytes → Option Value) (event : ParsedEvent) : Prop :=
  event.name = some "ping" ∨ event.name = some "content_block_stop" ∨
    (event.name ≠ some "message_stop" ∧
      (event.payload = "" ∨ decode (utf8 event.payload) = none))

/-- The event ends the message, or reports an error. -/
def Closing (decode : Bytes → Option Value) (event : ParsedEvent) : Prop :=
  event.name = some "message_stop" ∨
    ((event.name ≠ some "ping" ∧ event.name ≠ some "content_block_stop") ∧ event.payload ≠ "" ∧
      ∃ v ∈ decode (utf8 event.payload), (memberOf "error" "error" v).isSome)

/-- Nothing is written for what follows the end of the message. -/
def QuietAfterClose (decode : Bytes → Option Value) (events : List ParsedEvent) : Prop :=
  ∀ before closing after, events = before ++ closing :: after → Closing decode closing →
    ∀ event ∈ after, Silent decode event

/-- Chunks, and the end marker at most once, after all of them. -/
def EndsOnce (out : List ChatEvent) : Prop :=
  ∃ (bodies : List Members) (closed : Bool),
    out = bodies.map (fun body => .data (.obj body)) ++ if closed then [.done] else []

variable (now fallbackId) in
theorem anthropicChatChunk_cases (v : Value) (s : AnthropicState) :
    ((memberOf "error" "error" v).isSome ∧ ∃ body,
      (anthropicChatChunk now fallbackId strict v s).2 = [.data (.obj body), .done]) ∨
    ∃ body, (anthropicChatChunk now fallbackId strict v s).2 = [.data (.obj body)] := by
  unfold anthropicChatChunk
  cases memberOf "error" "error" v with
  | some error => exact .inl ⟨rfl, _, rfl⟩
  | none =>
    right
    cases messageUsage v with
    | some usage => exact ⟨_, rfl⟩
    | none => cases memberOf "message_delta" "usage" v <;> exact ⟨_, rfl⟩

/-- One event: nothing, one chunk, or the end of the message. -/
theorem anthropicChatStream_cases {strict : Bool} {s s' : AnthropicState} {out : List ChatEvent}
    (h : anthropicChatStream now fallbackId decode strict event s = some (s', out)) :
    out = [] ∨ (∃ body, out = [.data (.obj body)]) ∨
      (Closing decode event ∧ (out = [.done] ∨ ∃ body, out = [.data (.obj body), .done])) := by
  unfold anthropicChatStream at h
  split at h
  · cases h
    exact .inl rfl
  · next hname =>
    rw [not_or] at hname
    split at h
    · next hstop =>
      cases h
      exact .inr (.inr ⟨.inl hstop, .inl rfl⟩)
    · split at h
      · cases h
        exact .inl rfl
      · next hpayload =>
        obtain ⟨v, hv, hchunk⟩ := map_eq_some_iff.mp h
        rcases anthropicChatChunk_cases now fallbackId strict v s with
          ⟨herror, body, hout⟩ | ⟨body, hout⟩
        · rw [hchunk] at hout
          exact .inr (.inr ⟨.inr ⟨hname, hpayload, v, hv, herror⟩, .inr ⟨body, hout⟩⟩)
        · rw [hchunk] at hout
          exact .inr (.inl ⟨body, hout⟩)

theorem anthropicChatStream_silent {strict : Bool} {s s' : AnthropicState}
    {out : List ChatEvent} (hsilent : Silent decode event)
    (h : anthropicChatStream now fallbackId decode strict event s = some (s', out)) : out = [] := by
  unfold anthropicChatStream at h
  split at h
  · cases h
    rfl
  · next hname =>
    rw [not_or] at hname
    rcases hsilent with hsilent | hsilent | ⟨hstop, hsilent⟩
    · exact absurd hsilent hname.1
    · exact absurd hsilent hname.2
    · rw [if_neg hstop] at h
      rcases hsilent with hempty | hnone
      · rw [if_pos hempty] at h
        cases h
        rfl
      · split at h
        · cases h
          rfl
        · rw [hnone] at h
          cases h

variable {events : List ParsedEvent}

variable (now fallbackId) in
theorem run_silent (h : ∀ event ∈ events, Silent decode event) (s : AnthropicState) :
    (anthropicChatRun now fallbackId decode strict s events).1 = [] := by
  induction events generalizing s with
  | nil => rfl
  | cons event events ih =>
    rw [forall_mem_cons] at h
    rw [anthropicChatRun]
    split
    · rfl
    · next hstep =>
      rw [anthropicChatStream_silent h.1 hstep]
      exact ih h.2 _

variable (now fallbackId) in
theorem endsOnce_run (h : QuietAfterClose decode events)
    (s : AnthropicState) : EndsOnce (anthropicChatRun now fallbackId decode strict s events).1 := by
  induction events generalizing s with
  | nil => exact ⟨[], false, rfl⟩
  | cons event events ih =>
    have htail : QuietAfterClose decode events := fun before closing after heq hclosing =>
      h (event :: before) closing after (by rw [heq]; rfl) hclosing
    rw [anthropicChatRun]
    split
    · exact ⟨[], false, rfl⟩
    · next s' out hstep =>
      obtain ⟨bodies, closed, hrest⟩ := ih htail s'
      rcases anthropicChatStream_cases hstep with rfl | ⟨body, rfl⟩ | ⟨hclosing, hout⟩
      · exact ⟨bodies, closed, hrest⟩
      · refine ⟨body :: bodies, closed, ?_⟩
        dsimp only
        rw [hrest]
        rfl
      · have hquiet := run_silent now fallbackId strict (h [] event events rfl hclosing) s'
        rcases hout with rfl | ⟨body, rfl⟩
        · exact ⟨[], true, congrArg ([.done] ++ ·) hquiet⟩
        · exact ⟨[body], true, congrArg ([.data (.obj body), .done] ++ ·) hquiet⟩

theorem join_run_anthropic (events : List String) (state : StreamState decode) :
    join (anthropicToOpenaiChat.run decode now millis fallbackId state events) =
      join ((anthropicChatRun now fallbackId decode true state.anthropic
        (events.map parsedEvent)).1.map text) := by
  induction events generalizing state with
  | nil => rfl
  | cons event events ih =>
    rw [run, map_cons, anthropicChatRun, apply]
    cases anthropicChatStream now fallbackId decode true (parsedEvent event) state.anthropic with
    | none => rfl
    | some result =>
      obtain ⟨anthropic, out⟩ := result
      have hwritten : join (written (out.map text)).toList = join (out.map text) := by
        unfold written
        split
        · next hempty => rw [hempty]; rfl
        · rw [Option.toList_some, join_cons, String.join_nil, String.append_empty]
      rw [join_append, ih, hwritten, map_append, join_append]

end

def longComment (n : Nat) : String := String.ofList (':' :: List.replicate n 'a')

theorem isLine_longComment (n : Nat) : IsLine (':' :: replicate n 'a') :=
  ⟨by simp, by simp [mem_replicate], by simp [mem_replicate]⟩

theorem length_longComment (n : Nat) : (utf8 (longComment n)).length = n + 1 := by
  have ha : String.utf8EncodeChar 'a' = [97] := by decide
  have hcolon : String.utf8EncodeChar ':' = [58] := by decide
  rw [longComment, utf8_ofList, flatMap_cons, hcolon]
  simp [flatMap_replicate, ha]

theorem tidyEvent_line (h : IsLine l) : TidyEvent (ofList l) := by
  refine ⟨fun he => h.1 (by rw [← toList_ofList (l := l), he]; rfl), ?_⟩
  rw [toList_ofList]
  have hpair : l.Pairwise fun a b => ¬ (a = '\n' ∧ b = '\n') :=
    pairwise_of_forall_mem_list (by
      rintro a ha b _ ⟨rfl, _⟩
      exact h.2.1 ha)
  exact ⟨fun hhead => h.2.1 (mem_of_head? hhead), hpair.isChain, h.2.2⟩

theorem eventLines_line (h : IsLine l) : eventLines (ofList l) = [ofList l] := by
  have hsplit : MeterStream.splitLines (ofList l) = [ofList l] := by
    rw [MeterStream.splitLines, toList_ofList]
    simpa using congrArg (map ofList) (splitOn_lines [] (by simp) h.2.1)
  have hne : ofList l ≠ "" := fun he => h.1 (by
    rw [← toList_ofList (l := l), he]
    rfl)
  rw [eventLines, hsplit]
  simp [hne, trimEndCr_eq h.2.2]

theorem editEventBody_longComment (S : Sanitizer) (n : Nat) :
    editEventBody S (longComment n) = longComment n ++ "\n\n" := by
  have hlines : eventLines (longComment n) = [longComment n] := eventLines_line (isLine_longComment n)
  have hcomment : isComment (longComment n) = true := by simp [isComment, longComment]
  have hparse : parseEvent (longComment n) = none := by
    simp [parseEvent, hlines, parseLine, hcomment]
  have hframed := framedEvent_openLine [] (isLine_longComment n)
  rw [editEventBody, hparse]
  rw [longComment]
  simp only [flatMap_nil, nil_append] at hframed
  rw [hframed, ← toList_inj]
  simp [frame]

theorem pushChunk_overflow {l : Bytes} (h : OneLine l) (hne : l ≠ [])
    (hlength : l.length = maxSseLineBytes) (b : Bytes) :
    (pushChunk {} (l ++ 10 :: b)).2 = ([], true) := by
  have hend : ({ eventBuf := l } : SseEventReader).pushByte 10 =
      ({ eventBuf := l ++ [10], lineStart := l.length + 1 }, none) := by
    exact if_neg (fun h0 => hne (eq_nil_of_length_eq_zero h0))
  have hwithin := pushChunk_within (r := {}) h (10 :: b) rfl (by rw [nil_append, hlength])
  rw [hwithin]
  change (pushChunk { eventBuf := l } (10 :: b)).2 = _
  rw [pushChunk, hend]
  rw [if_pos (by rw [length_append, hlength]; exact Nat.lt_succ_self _)]
  rfl

end AciGateway.Transform
