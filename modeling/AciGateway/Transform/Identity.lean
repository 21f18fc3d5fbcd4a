import AciGateway.Transform.Errors

/-! What a client is told about who served its request. The identity of an answer is rewritten
where the answer's own type says it stands, and the documented members are kept; the client
reads it where its surface says it stands. -/
namespace AciGateway.Transform

open Json Sse

inductive Endpoint where
  | chatComplete
  | complete
  | embed
  | messages
  | createModelResponse
  | systemOne
  | audioTranscriptions
  deriving DecidableEq

structure ResponseIdentity where
  requestId : String
  /-- Absent when the request named no model. -/
  userModel : Option String

/-! Rewriting. -/

def containsKey (key : String) (object : Members) : Bool := (object.lookup key).isSome

def rewriteIdAndModel (identity : ResponseIdentity) (object : Members) : Members :=
  let object :=
    if containsKey "id" object then setMember "id" (.str identity.requestId) object else object
  match containsKey "model" object, identity.userModel with
  | true, some model => setMember "model" (.str model) object
  | _, _ => object

def onObject (f : Members → Members) : Value → Value
  | .obj object => .obj (f object)
  | v => v

def isResponseEvent (type : String) : Bool := "response.".toList.isPrefixOf type.toList

def rewriteIdentity (identity : ResponseIdentity) : Value → Value
  | .obj object =>
    match textMember "type" object with
    | some type =>
      if type = "message_start" then
        .obj (mapMember "message" (onObject (rewriteIdAndModel identity)) object)
      else if isResponseEvent type then
        .obj (mapMember "response" (onObject (rewriteIdAndModel identity)) object)
      else .obj (rewriteIdAndModel identity object)
    | none => .obj (rewriteIdAndModel identity object)
  | v => v

/-! The documented members. -/

def chatTop : List String :=
  ["id", "object", "created", "model", "choices", "usage", "service_tier", "error"]

def chatChoice : List String :=
  ["index", "message", "delta", "finish_reason", "logprobs", "error"]

def chatMessage : List String :=
  ["role", "content", "name", "refusal", "tool_calls", "function_call", "annotations", "audio",
    "images", "reasoning", "reasoning_content", "reasoning_details", "thinking_blocks",
    "reasoning_items"]

def chatUsageKeys : List String :=
  ["prompt_tokens", "completion_tokens", "total_tokens", "prompt_tokens_details",
    "completion_tokens_details", "cache_read_input_tokens", "cache_creation_input_tokens",
    "prompt_cache_hit_tokens", "prompt_cache_miss_tokens", "reasoning_tokens", "server_tool_use",
    "server_tool_use_details", "cost", "cost_details"]

def completionTop : List String :=
  ["id", "object", "created", "model", "choices", "usage", "error"]

def completionChoice : List String := ["text", "index", "logprobs", "finish_reason", "error"]

def responsesTop : List String :=
  ["id", "created_at", "error", "incomplete_details", "instructions", "metadata", "model",
    "object", "output", "parallel_tool_calls", "temperature", "tool_choice", "tools", "top_p",
    "max_output_tokens", "previous_response_id", "reasoning", "status", "text", "truncation",
    "usage", "user", "store", "service_tier"]

def responsesUsageKeys : List String :=
  ["input_tokens", "input_tokens_details", "output_tokens", "output_tokens_details",
    "total_tokens", "cost", "cost_details"]

def systemoneTop : List String := ["model", "answers", "usage", "error"]

def systemoneUsageKeys : List String := ["input_tokens", "output_tokens", "cost"]

def retainAllowed (allowed : List String) (object : Members) : Members :=
  object.filter fun member => allowed.contains member.1

def onItems (f : Value → Value) : Value → Value
  | .arr items => .arr (items.map f)
  | v => v

/-! Keeping them. -/

def canonicalizeChatChoice (choice : Members) : Members :=
  let choice := mapMember "error" sanitizeError (retainAllowed chatChoice choice)
  ["message", "delta"].foldl
    (fun choice container => mapMember container (onObject (retainAllowed chatMessage)) choice)
    choice

def canonicalizeCompletionChoice (choice : Members) : Members :=
  mapMember "error" sanitizeError (retainAllowed completionChoice choice)

/-- The surfaces whose answers hold a list of choices. -/
def canonicalizeChoices (top : List String) (choice : Members → Members) (object : Members) :
    Members :=
  mapMember "choices" (onItems (onObject choice))
    (mapMember "error" sanitizeError
      (mapMember "usage" (onObject (retainAllowed chatUsageKeys)) (retainAllowed top object)))

def canonicalizeChatCompletion : Value → Value :=
  onObject (canonicalizeChoices chatTop canonicalizeChatChoice)

def canonicalizeTextCompletion : Value → Value :=
  onObject (canonicalizeChoices completionTop canonicalizeCompletionChoice)

def canonicalizeResponsesObject (object : Members) : Members :=
  mapMember "error" sanitizeResponsesErrorField
    (mapMember "usage" (onObject (retainAllowed responsesUsageKeys))
      (retainAllowed responsesTop object))

def canonicalizeResponses : Value → Value
  | .obj object =>
    match textMember "type" object with
    | some type =>
      if type = "error" ∨ type = "response.error" then sanitizeResponsesErrorEvent object
      else if isResponseEvent type then
        .obj (mapMember "response" (onObject canonicalizeResponsesObject) object)
      else .obj object
    | none => .obj (canonicalizeResponsesObject object)
  | v => v

def canonicalizeMessages (requestId : Option String) : Value → Value
  | .obj object =>
    if textMember "type" object = some "error" then sanitizeMessagesErrorEvent object requestId
    else .obj object
  | v => v

def canonicalizeSystemone : Value → Value
  | .obj object =>
    let object :=
      if textMember "type" object = some "error" ∧ (object.lookup "error").all isNull then
        setMember "error" (.obj object) object
      else object
    let object := if (object.lookup "error").any isNull then swapRemove "error" object else object
    .obj (mapMember "usage" (onObject (retainAllowed systemoneUsageKeys))
      (mapMember "error" sanitizeError (retainAllowed systemoneTop object)))
  | v => v

def canonicalize (endpoint : Endpoint) (requestId : Option String) (body : Value) : Value :=
  match endpoint with
  | .chatComplete => canonicalizeChatCompletion body
  | .complete => canonicalizeTextCompletion body
  | .createModelResponse => canonicalizeResponses body
  | .messages => canonicalizeMessages requestId body
  | .embed => body
  | .systemOne => canonicalizeSystemone body
  | .audioTranscriptions => body

/-! Where the identity is read. -/

/-- A surface whose answers carry an identity. -/
inductive IdentitySurface where
  | chat
  | completions
  | messages
  | responses
  deriving DecidableEq

def IdentitySurface.endpoint : IdentitySurface → Endpoint
  | .chat => .chatComplete
  | .completions => .complete
  | .messages => .messages
  | .responses => .createModelResponse

/-- A value is the body of an answer, or one event of its stream. -/
inductive Delivery where
  | body
  | event
  deriving DecidableEq

/-- The object that carries the identity: the value, or one of its members. -/
inductive Place where
  | top
  | member (key : String)
  deriving DecidableEq

/-- The `id` and the `model` of an object. -/
def identityOf (object : Members) : Option Value × Option Value :=
  (object.lookup "id", object.lookup "model")

/-- The identity that stands at a place, if there is an object. -/
def Place.identity (place : Place) (v : Value) : Option (Option Value × Option Value) :=
  match place, v with
  | .top, .obj object => some (identityOf object)
  | .member key, .obj object =>
    match object.lookup key with
    | some (.obj inner) => some (identityOf inner)
    | _ => none
  | _, _ => none

/-- Where the type of a value says the identity stands. -/
def typedPlace : Option String → Place
  | some type =>
    if type = "message_start" then .member "message"
    else if isResponseEvent type then .member "response"
    else .top
  | none => .top

/-- Where a client of the surface reads the identity: an event may nest it, a body does not. -/
def readPlace (surface : IdentitySurface) (delivery : Delivery) (type : Option String) : Place :=
  match surface, delivery with
  | .messages, .event => if type = some "message_start" then .member "message" else .top
  | .responses, .event => if type.any isResponseEvent then .member "response" else .top
  | _, _ => .top

/-- What is shown of an identity is the given one. -/
def Conceals (identity : ResponseIdentity) (shown : Option Value × Option Value) : Prop :=
  (∀ v ∈ shown.1, v = .str identity.requestId) ∧
    ∀ v ∈ shown.2, some v = identity.userModel.map .str

/-- A client that reads the value learns the given identity only. -/
def Hidden (surface : IdentitySurface) (delivery : Delivery) (identity : ResponseIdentity)
    (v : Value) : Prop :=
  ∀ shown ∈ (readPlace surface delivery (eventType v)).identity v, Conceals identity shown

/-- The value is an error that is built anew. -/
def rebuilt (surface : IdentitySurface) (type : Option String) : Bool :=
  match surface with
  | .messages => type = some "error"
  | .responses => type = some "error" ∨ type = some "response.error"
  | _ => false

/-- What a client gets for a value of its upstream. -/
def presented (surface : IdentitySurface) (requestId : Option String) (identity : ResponseIdentity)
    (v : Value) : Value :=
  canonicalize surface.endpoint requestId (rewriteIdentity identity v)

variable {identity : ResponseIdentity} {object : Members} {k : String} {v : Value}
  {surface : IdentitySurface} {delivery : Delivery} {type : Option String}
  (requestId : Option String)

/-! Rewriting at the typed place. -/

theorem lookup_rewriteIdAndModel_of_ne (hid : k ≠ "id") (hmodel : k ≠ "model") :
    (rewriteIdAndModel identity object).lookup k = object.lookup k := by
  unfold rewriteIdAndModel
  dsimp only
  split <;> split <;> simp [lookup_setMember, hid, hmodel]

theorem lookup_id_rewriteIdAndModel : (rewriteIdAndModel identity object).lookup "id" =
    (object.lookup "id").map fun _ => .str identity.requestId := by
  unfold rewriteIdAndModel
  cases hid : object.lookup "id" <;> cases hmodel : object.lookup "model" <;>
    cases huser : identity.userModel <;>
    simp [containsKey, hid, hmodel, lookup_setMember]

theorem lookup_model_rewriteIdAndModel {model : String} (h : identity.userModel = some model) :
    (rewriteIdAndModel identity object).lookup "model" =
      (object.lookup "model").map fun _ => .str model := by
  unfold rewriteIdAndModel
  cases hid : object.lookup "id" <;> cases hmodel : object.lookup "model" <;>
    simp [containsKey, hid, hmodel, h, lookup_setMember]

theorem conceals_rewriteIdAndModel (h : identity.userModel.isSome) :
    Conceals identity (identityOf (rewriteIdAndModel identity object)) := by
  obtain ⟨model, hmodel⟩ := Option.isSome_iff_exists.mp h
  rw [identityOf, lookup_id_rewriteIdAndModel, lookup_model_rewriteIdAndModel hmodel]
  constructor
  · rintro v hv
    obtain ⟨_, _, rfl⟩ := Option.map_eq_some_iff.mp hv
    rfl
  · rintro v hv
    obtain ⟨_, _, rfl⟩ := Option.map_eq_some_iff.mp hv
    rw [hmodel]
    rfl

theorem rewriteIdentity_obj (identity : ResponseIdentity) (object : Members) :
    rewriteIdentity identity (.obj object) =
      match typedPlace (textMember "type" object) with
      | .top => .obj (rewriteIdAndModel identity object)
      | .member key => .obj (mapMember key (onObject (rewriteIdAndModel identity)) object) := by
  rw [rewriteIdentity]
  cases textMember "type" object with
  | none => rfl
  | some type =>
    simp only [typedPlace]
    split
    · rfl
    · split <;> rfl

theorem typedPlace_cases (type : Option String) : typedPlace type = .top ∨
    typedPlace type = .member "message" ∨ typedPlace type = .member "response" := by
  cases type with
  | none => exact .inl rfl
  | some type =>
    simp only [typedPlace]
    split
    · exact .inr (.inl rfl)
    · split
      · exact .inr (.inr rfl)
      · exact .inl rfl

theorem eventType_obj (object : Members) : eventType (.obj object) = textMember "type" object := rfl

theorem eventType_rewriteIdentity (identity : ResponseIdentity) (v : Value) :
    eventType (rewriteIdentity identity v) = eventType v := by
  cases v with
  | obj object =>
    rw [rewriteIdentity_obj, eventType_obj]
    rcases typedPlace_cases (textMember "type" object) with h | h | h <;> rw [h] <;>
      simp only [eventType_obj, textMember]
    · rw [lookup_rewriteIdAndModel_of_ne (by decide) (by decide)]
    · rw [lookup_mapMember, if_neg (by decide)]
    · rw [lookup_mapMember, if_neg (by decide)]
  | _ => rfl

/-- What stands at the typed place afterwards is the given identity. -/
theorem conceals_typedPlace (h : identity.userModel.isSome) (v : Value) :
    ∀ shown ∈ (typedPlace (eventType v)).identity (rewriteIdentity identity v),
      Conceals identity shown := by
  cases v with
  | obj object =>
    rw [rewriteIdentity_obj]
    rw [eventType_obj]
    intro shown hshown
    generalize typedPlace (textMember "type" object) = place at hshown
    cases place with
    | top =>
      cases hshown
      exact conceals_rewriteIdAndModel h
    | member key =>
      simp only [Place.identity, lookup_mapMember, if_pos] at hshown
      cases hkey : object.lookup key with
      | none => simp [hkey] at hshown
      | some inner =>
        rw [hkey, Option.map_some] at hshown
        cases inner with
        | obj inner =>
          cases hshown
          exact conceals_rewriteIdAndModel h
        | _ => cases hshown
  | _ => intro shown hshown; cases hshown

/-- A nested identity is rewritten and the one around it is not. -/
theorem identity_top_rewriteIdentity (identity : ResponseIdentity) (h : typedPlace (eventType v) ≠ .top) :
    Place.top.identity (rewriteIdentity identity v) = Place.top.identity v := by
  cases v with
  | obj object =>
    rw [rewriteIdentity_obj]
    rcases typedPlace_cases (textMember "type" object) with hp | hp | hp
    · exact absurd hp h
    all_goals
      rw [hp]
      simp [Place.identity, identityOf, lookup_mapMember]
  | _ => rfl

theorem readPlace_eq : readPlace surface delivery type = typedPlace type ∨
    readPlace surface delivery type = .top := by
  cases surface <;> cases delivery <;> try exact .inr rfl
  · simp only [readPlace]
    split
    · next h => exact .inl (by rw [h]; rfl)
    · exact .inr rfl
  · simp only [readPlace]
    split
    · next h =>
      cases type with
      | none => cases h
      | some t =>
        have ht : isResponseEvent t := h
        have hne : t ≠ "message_start" := by
          rintro rfl
          exact absurd ht (by decide)
        simp [typedPlace, hne, ht]
    · exact .inr rfl

/-! The documented members leave the identity alone. -/

theorem lookup_retainAllowed (allowed : List String) (object : Members) (k : String) :
    (retainAllowed allowed object).lookup k =
      if allowed.contains k then object.lookup k else none := by
  induction object with
  | nil => simp [retainAllowed]
  | cons m object ih =>
    unfold retainAllowed at ih ⊢
    rw [lookup_cons_eq, List.filter_cons]
    by_cases hm : k = m.1
    · subst hm
      by_cases hk : allowed.contains m.1
      · rw [if_pos hk, if_pos hk, lookup_cons_eq, if_pos rfl, if_pos rfl]
      · rw [if_neg hk, ih, if_neg hk, if_neg hk]
    · rw [if_neg hm, ← ih]
      split
      · rw [lookup_cons_eq, if_neg hm]
      · rfl

theorem identityOf_mapMember (g : Value → Value) (hid : k ≠ "id") (hmodel : k ≠ "model") :
    identityOf (mapMember k g object) = identityOf object := by
  simp [identityOf, lookup_mapMember, hid.symm, hmodel.symm]

theorem identityOf_retainAllowed {allowed : List String} (hid : allowed.contains "id")
    (hmodel : allowed.contains "model") :
    identityOf (retainAllowed allowed object) = identityOf object := by
  rw [identityOf, lookup_retainAllowed, lookup_retainAllowed, if_pos hid, if_pos hmodel, identityOf]

theorem identityOf_canonicalizeChoices {top : List String} (choice : Members → Members)
    (hid : top.contains "id") (hmodel : top.contains "model") :
    identityOf (canonicalizeChoices top choice object) = identityOf object := by
  unfold canonicalizeChoices
  rw [identityOf_mapMember _ (by decide) (by decide), identityOf_mapMember _ (by decide) (by decide),
    identityOf_mapMember _ (by decide) (by decide), identityOf_retainAllowed hid hmodel]

theorem identityOf_canonicalizeResponsesObject :
    identityOf (canonicalizeResponsesObject object) = identityOf object := by
  unfold canonicalizeResponsesObject
  rw [identityOf_mapMember _ (by decide) (by decide), identityOf_mapMember _ (by decide) (by decide),
    identityOf_retainAllowed (by decide) (by decide)]

theorem eventType_canonicalizeResponsesObject :
    eventType (.obj (canonicalizeResponsesObject object)) = none := by
  have hlookup : (canonicalizeResponsesObject object).lookup "type" = none := by
    unfold canonicalizeResponsesObject
    rw [lookup_mapMember, if_neg (by decide), lookup_mapMember, if_neg (by decide),
      lookup_retainAllowed, if_neg (by decide)]
  rw [eventType_obj, textMember, hlookup]
  rfl

theorem identity_canonicalizeResponses (h : rebuilt .responses (eventType v) = false) :
    (readPlace .responses delivery (eventType (canonicalizeResponses v))).identity
        (canonicalizeResponses v) =
      (readPlace .responses delivery (eventType v)).identity v := by
  cases v with
  | obj object =>
    rw [eventType_obj] at h ⊢
    cases htype : textMember "type" object with
    | none =>
      have hout : canonicalizeResponses (.obj object) =
          .obj (canonicalizeResponsesObject object) := by
        simp [canonicalizeResponses, htype]
      rw [hout, eventType_canonicalizeResponsesObject]
      cases delivery <;> exact congrArg some identityOf_canonicalizeResponsesObject
    | some type =>
      have herror : ¬ (type = "error" ∨ type = "response.error") := by
        simpa [rebuilt, htype] using h
      by_cases hevent : isResponseEvent type
      · have hout : canonicalizeResponses (.obj object) =
            .obj (mapMember "response" (onObject canonicalizeResponsesObject) object) := by
          simp [canonicalizeResponses, htype, herror, hevent]
        have htype' : textMember "type"
            (mapMember "response" (onObject canonicalizeResponsesObject) object) = some type := by
          rw [← htype, textMember, textMember, lookup_mapMember, if_neg (by decide)]
        rw [hout, eventType_obj, htype']
        cases delivery with
        | body => exact congrArg some (identityOf_mapMember _ (by decide) (by decide))
        | event =>
          -- The object that carries the identity is reduced too.
          simp only [readPlace, Option.any_some, hevent, if_true, Place.identity, lookup_mapMember]
          cases object.lookup "response" with
          | none => rfl
          | some inner =>
            cases inner with
            | obj inner => exact congrArg some identityOf_canonicalizeResponsesObject
            | _ => rfl
      · have hout : canonicalizeResponses (.obj object) = .obj object := by
          simp [canonicalizeResponses, htype, herror, hevent]
        rw [hout, eventType_obj, htype]
  | _ => rfl

/-- Where nothing is built anew, a client finds the identity that the rewriting left. -/
theorem identity_canonicalize (h : rebuilt surface (eventType v) = false) :
    (readPlace surface delivery (eventType (canonicalize surface.endpoint requestId v))).identity
        (canonicalize surface.endpoint requestId v) =
      (readPlace surface delivery (eventType v)).identity v := by
  cases surface with
  | responses => exact identity_canonicalizeResponses h
  | messages =>
    cases v with
    | obj object =>
      have herror := of_decide_eq_false h
      have hout : canonicalize IdentitySurface.messages.endpoint requestId (.obj object) =
          .obj object := if_neg herror
      rw [hout]
    | _ => rfl
  | _ =>
    cases v with
    | obj object => exact congrArg some (identityOf_canonicalizeChoices _ (by decide) (by decide))
    | _ => rfl

/-! Errors that are built anew carry no identity. -/

theorem hidden_envelope (errorType message : String) (requestId : Option String) :
    Hidden .messages delivery identity (envelope .anthropic errorType message requestId) := by
  have hplace : readPlace .messages delivery
      (eventType (envelope .anthropic errorType message requestId)) = .top := by
    cases delivery <;> rfl
  rw [Hidden, hplace]
  rintro shown hshown
  cases hshown
  cases requestId <;> exact ⟨by rintro v ⟨⟩, by rintro v ⟨⟩⟩

theorem hidden_responsesErrorEvent (code : Option String) (message : String)
    (param : Option String) (number : Option U64) :
    Hidden .responses delivery identity (responsesErrorEvent code message param number) := by
  have hplace : readPlace .responses delivery
      (eventType (responsesErrorEvent code message param number)) = .top := by
    cases delivery <;> rfl
  rw [Hidden, hplace]
  rintro shown hshown
  cases hshown
  cases number <;> exact ⟨by rintro v ⟨⟩, by rintro v ⟨⟩⟩

theorem hidden_canonicalize_of_rebuilt (h : rebuilt surface (eventType v)) :
    Hidden surface delivery identity (canonicalize surface.endpoint requestId v) := by
  cases surface with
  | chat => cases h
  | completions => cases h
  | messages =>
    cases v with
    | obj object =>
      have herror : textMember "type" object = some "error" := of_decide_eq_true h
      have hout : canonicalize IdentitySurface.messages.endpoint requestId (.obj object) =
          sanitizeMessagesErrorEvent object requestId := if_pos herror
      rw [hout, sanitizeMessagesErrorEvent]
      split
      · split <;> exact hidden_envelope _ _ _
      · exact hidden_envelope _ _ _
    | _ => cases h
  | responses =>
    cases v with
    | obj object =>
      have herror : textMember "type" object = some "error" ∨
          textMember "type" object = some "response.error" := of_decide_eq_true h
      have hout : canonicalize IdentitySurface.responses.endpoint requestId (.obj object) =
          sanitizeResponsesErrorEvent object := by
        rcases herror with herror | herror <;>
          simp [IdentitySurface.endpoint, canonicalize, canonicalizeResponses, herror]
      rw [hout, sanitizeResponsesErrorEvent]
      split <;> split <;> exact hidden_responsesErrorEvent _ _ _ _
    | _ => cases h

/-! The identity of an answer. -/

/-- A client learns the given identity only, when its surface reads it where the type of the value
says it stands, when the value is an error, or when there was no other identity to be learned. -/
theorem hidden_presented_iff (surface : IdentitySurface) (delivery : Delivery)
    (requestId : Option String) (identity : ResponseIdentity) (v : Value)
    (h : identity.userModel.isSome) :
    Hidden surface delivery identity (presented surface requestId identity v) ↔
      readPlace surface delivery (eventType v) = typedPlace (eventType v) ∨
        rebuilt surface (eventType v) ∨ Hidden surface delivery identity v := by
  have htype := eventType_rewriteIdentity identity v
  by_cases hrebuilt : rebuilt surface (eventType v)
  · refine iff_of_true ?_ (.inr (.inl hrebuilt))
    exact hidden_canonicalize_of_rebuilt requestId (htype ▸ hrebuilt)
  have hleft : Hidden surface delivery identity (presented surface requestId identity v) ↔
      ∀ shown ∈ (readPlace surface delivery (eventType v)).identity (rewriteIdentity identity v),
        Conceals identity shown := by
    rw [Hidden, presented, identity_canonicalize requestId (by simpa [htype] using hrebuilt), htype]
  rw [hleft]
  by_cases hplace : readPlace surface delivery (eventType v) = typedPlace (eventType v)
  · refine iff_of_true ?_ (.inl hplace)
    rw [hplace]
    exact conceals_typedPlace h v
  · have htop := readPlace_eq.resolve_left hplace
    have hsame := identity_top_rewriteIdentity identity
      (fun he => hplace (htop.trans he.symm))
    rw [htop, hsame, Hidden, htop]
    simp [htop ▸ hplace, hrebuilt]

def someIdentity : ResponseIdentity := ⟨"req-1", some "chat-model"⟩

/-- A chunk of a chat stream. -/
def plainChunk : Value :=
  .obj [("id", .str "chatcmpl-9"), ("model", .str "engine"), ("choices", .arr [])]

theorem hidden_plainChunk :
    Hidden .chat .event someIdentity (presented .chat (some "req-1") someIdentity plainChunk) :=
  (hidden_presented_iff .chat .event (some "req-1") someIdentity plainChunk rfl).mpr (.inl rfl)

/-- A chat answer that calls itself the start of a message keeps its own identity. -/
theorem exposed_messageStart :
    ¬ Hidden .chat .body someIdentity (presented .chat (some "req-1") someIdentity
      (.obj [("type", .str "message_start"), ("id", .str "chatcmpl-9"), ("model", .str "engine")])) := by
  intro h
  have hid := (h (some (.str "chatcmpl-9"), some (.str "engine")) rfl).1 (.str "chatcmpl-9") rfl
  exact absurd (Value.str.inj hid) (by decide)

end AciGateway.Transform
