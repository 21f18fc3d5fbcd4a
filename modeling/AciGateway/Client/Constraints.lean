import AciGateway.Lib.EcmaJson
import AciGateway.Lib.Octets
import AciGateway.Lib.Results

/-! The TypeScript verifier's serving constraints: what a request is sent with, against what the
caller and the connection asked for. -/
namespace AciGateway.Client

open Octets Ecma Results

variable {α ν : Type}

def multipartProviderHeader : String := "x-aci-provider"

def maxMultipartProviderBytes : Nat := 8192

def audioTranscriptionsPath : String := "/v1/audio/transcriptions"

/-- The `serving` part of the connection options. -/
structure ServingPolicy where
  requireVerified : Option Bool := none
  acceptedSessionIds : Option (List JsString) := none
  deriving DecidableEq

/-- `ConnectAciOptions`, as far as constraints read it. -/
structure ConnectOptions where
  serving : Option ServingPolicy := none
  deriving DecidableEq

def ConnectOptions.accepted (o : ConnectOptions) : List JsString :=
  (o.serving.bind (·.acceptedSessionIds)).getD []

def isConstrained (o : ConnectOptions) : Bool :=
  o.serving.bind (·.requireVerified) ≠ some false || o.accepted ≠ []

/-- The message of an `invalid_serving_constraints` error. -/
abbrev Invalid := String

/-! The provider object. -/

structure EffectivePolicy where
  provider : JsValue
  pinnedSessions : List JsString
  requiresVerified : Bool

def isBool : Ecma.Tree ν → Bool
  | .bool _ => true
  | _ => false

def isTrue : Ecma.Tree ν → Bool
  | .bool b => b
  | _ => false

def isFalse : Ecma.Tree ν → Bool
  | .bool b => !b
  | _ => false

def asString? : Ecma.Tree ν → Option JsString
  | .str s => some s
  | _ => none

/-- 64 lowercase hexadecimal digits. -/
def isSessionId (s : JsString) : Bool :=
  s.length = 64 && s.all fun c => (48 ≤ c && c ≤ 57) || (97 ≤ c && c ≤ 102)

def invalidSessionIds : Invalid :=
  "provider.aci_session_ids must be a non-empty array of lowercase 64-hex ids"

def parseSessionIds (value : Option JsValue) : Except Invalid (List JsString) :=
  match value with
  | none => .ok []
  | some (.arr items) =>
    if items = [] ∨ ¬ items.all (fun id => (asString? id).any isSessionId) then
      .error invalidSessionIds
    else .ok (items.filterMap asString?).eraseDups
  | some _ => .error invalidSessionIds

def sessionIdsKey : JsString := js "aci_session_ids"

def verifiedKey : JsString := js "aci_verified"

def providerKey : JsString := js "provider"

/-- The provider with its constraints written over what it had. -/
def writeConstraints (ms : List (JsString × JsValue)) (pinned : List JsString)
    (requiresVerified : Bool) : List (JsString × JsValue) :=
  let ms := if pinned ≠ [] then setMember ms sessionIdsKey (.arr (pinned.map .str)) else ms
  if requiresVerified then setMember ms verifiedKey (.bool true) else ms

def mergeProvider (value : JsValue) (o : ConnectOptions) : Except Invalid EffectivePolicy :=
  match value with
  | .obj ms => do
    ensure (∀ m ∈ ms, (js "aci_").isPrefixOf m.1 → m.1 = verifiedKey ∨ m.1 = sessionIdsKey)
      "unknown aci_ serving constraint"
    ensure ((value.get? verifiedKey).all isBool) "provider.aci_verified must be a boolean"
    let verified := (value.get? verifiedKey).any isTrue
    let supplied ← parseSessionIds (value.get? sessionIdsKey)
    ensure (supplied = [] ∨ ¬ (value.get? verifiedKey).any isFalse)
      "provider.aci_session_ids cannot be combined with aci_verified=false"
    let pinned :=
      if o.accepted = [] then supplied
      else if supplied = [] then o.accepted
      else supplied.filter (· ∈ o.accepted)
    ensure (o.accepted = [] ∨ supplied = [] ∨ pinned ≠ [])
      "request session ids do not intersect the connection acceptedSessionIds policy"
    let requiresVerified := isConstrained o || verified || pinned ≠ []
    pure ⟨.obj (writeConstraints ms pinned requiresVerified), pinned, requiresVerified⟩
  | _ => .error "provider must be a JSON object"

/-! The request. -/

/-- A text that is sent: the caller's own, or the one `JSON.stringify` wrote. -/
inductive Text (α : Type) where
  | given (text : α)
  | json (d : Doc)

/-- The document a receiver reads in a text. -/
def Text.read (read : α → Option Doc) : Text α → Option Doc
  | .given text => read text
  | .json d => some d

/-- What the platform does with bytes and header values. -/
structure Platform where
  /-- The document of a body, unless it is no UTF-8 or no JSON. -/
  readBody : Bytes → Option Doc
  readHeader : String → Option Doc
  /-- The names of the parts of a multipart body of a content type, unless it is malformed. -/
  formNames : Bytes → String → Option (List String)
  /-- The bytes of a document's text in US-ASCII. -/
  asciiBytes : Doc → Nat

structure Request where
  connection : Option String := none
  contentType : Option String := none
  /-- The `X-ACI-Provider` header. -/
  carrier : Option String := none
  path : String
  body : Bytes
  deriving DecidableEq

structure ConstrainedBody where
  body : Text Bytes
  carrier : Option (Text String)
  pinnedSessions : List JsString
  requiresVerified : Bool

/-- White space that `trim` removes. -/
def isJsSpace (c : Char) : Bool :=
  let n := c.toNat
  (9 ≤ n && n ≤ 13) || n = 0x20 || n = 0xA0 || n = 0xFEFF || n = 0x1680 ||
    (0x2000 ≤ n && n ≤ 0x200A) || n = 0x2028 || n = 0x2029 || n = 0x202F || n = 0x205F || n = 0x3000

def jsTrim (s : List Char) : List Char :=
  ((s.dropWhile isJsSpace).reverse.dropWhile isJsSpace).reverse

/-- Header values hold Latin-1 characters, of which only the ASCII letters matter here. -/
def lower (s : List Char) : List Char := s.map Char.toLower

def splitChars (sep : Char) : List Char → List (List Char)
  | [] => [[]]
  | c :: s => if c = sep then [] :: splitChars sep s else (splitChars sep s).modifyHead (c :: ·)

def connectionTokens (r : Request) : List (List Char) :=
  match r.connection with
  | none => []
  | some value => (splitChars ',' (lower value.toList)).map jsTrim

def mediaType (r : Request) : List Char :=
  lower (jsTrim ((splitChars ';' (r.contentType.getD "").toList).headD []))

def isMultipart (r : Request) : Bool := mediaType r = "multipart/form-data".toList

def isJson (r : Request) : Bool :=
  mediaType r = "application/json".toList ||
    ("application/".toList.isPrefixOf (mediaType r) && "+json".toList.isSuffixOf (mediaType r))

/-- Constraints travel in a header of their own. -/
def inHeader (r : Request) : Bool := isMultipart r && r.path = audioTranscriptionsPath

variable (P : Platform) {value : JsValue} {ms : List (JsString × JsValue)} {e : EffectivePolicy}
  {pinned : List JsString} (v : JsValue) (d : Doc)

def constrainJsonBody (body : Bytes) (o : ConnectOptions) : Except Invalid ConstrainedBody :=
  let unchanged : ConstrainedBody := ⟨.given body, none, [], false⟩
  let refuse (message : Invalid) : Except Invalid ConstrainedBody :=
    if isConstrained o then .error message else .ok unchanged
  match (P.readBody body).map parse with
  | none => refuse "JSON request body must be valid JSON"
  | some (.obj ms) =>
    match (Tree.obj ms).get? providerKey with
    | none => finish unchanged ms (.obj [])
    | some .null => finish unchanged ms (.obj [])
    | some (.obj provider) => finish unchanged ms (.obj provider)
    | some _ => refuse "provider must be a JSON object or null"
  | some _ => refuse "JSON request body must have an object top level"
where
  /-- The provider merged with the options, and written back where it demands anything. -/
  finish (unchanged : ConstrainedBody) (ms : List (JsString × JsValue)) (provider : JsValue) :
      Except Invalid ConstrainedBody := do
    let effective ← mergeProvider provider o
    if effective.requiresVerified then
      pure ⟨.json (stringify (.obj (setMember ms providerKey effective.provider))), none,
        effective.pinnedSessions, effective.requiresVerified⟩
    else pure unchanged

def rejectMultipartProvider (body : Bytes) (contentType : String) : Except Invalid Unit :=
  match P.formNames body contentType with
  | none => .error "malformed multipart body or boundary"
  | some names => do
    ensure ("model" ∈ names) "multipart body must contain a model part"
    ensure ("provider" ∉ names)
      "multipart provider form parts are forbidden; use X-ACI-Provider"

/-- The provider of a header, empty without one. -/
def readCarrier (carrier : Option String) : Except Invalid JsValue :=
  match carrier with
  | none => .ok (.obj [])
  | some value => do
    ensure (∀ c ∈ value.toList, c.toNat < 0x80) "X-ACI-Provider must contain only US-ASCII bytes"
    ensure (value.toList.length ≤ maxMultipartProviderBytes) "X-ACI-Provider exceeds 8192 bytes"
    let d ← okOr (P.readHeader value) "X-ACI-Provider must contain a single JSON object"
    pure (parse d)

def constrainMultipart (r : Request) (o : ConnectOptions) (capabilities : Option (List String)) :
    Except Invalid ConstrainedBody := do
  let provider ← readCarrier P r.carrier
  let effective ← mergeProvider provider o
  let carried := isConstrained o || r.carrier.isSome
  ensure (carried → r.path ∈ capabilities.getD [])
    "gateway does not advertise multipart serving constraints for this endpoint"
  rejectMultipartProvider P r.body (r.contentType.getD "")
  if carried then
    let value := stringify effective.provider
    ensure (P.asciiBytes value ≤ maxMultipartProviderBytes)
      "effective X-ACI-Provider exceeds 8192 bytes"
    pure ⟨.given r.body, some (.json value), effective.pinnedSessions, effective.requiresVerified⟩
  else pure ⟨.given r.body, none, effective.pinnedSessions, effective.requiresVerified⟩

def constrainRequestBody (r : Request) (o : ConnectOptions) (capabilities : Option (List String)) :
    Except Invalid ConstrainedBody := do
  ensure (multipartProviderHeader.toList ∉ connectionTokens r ∧
      "content-type".toList ∉ connectionTokens r)
    "serving constraint carriers cannot be hop-by-hop headers"
  ensure (r.carrier.isSome → inHeader r)
    "X-ACI-Provider is only valid on supported multipart endpoints"
  if inHeader r then constrainMultipart P r o capabilities
  else if isJson r then constrainJsonBody P r.body o
  else do
    ensure (¬ (isConstrained o ∧ r.body ≠ []))
      "cannot apply serving constraints to this request media type"
    pure ⟨.given r.body, none, [], isConstrained o⟩

/-! What a provider demands. -/

/-- The sessions a provider pins. -/
def pinsOf (provider : Ecma.Tree ν) : List JsString :=
  match provider.get? sessionIdsKey with
  | some (.arr items) => items.filterMap asString?
  | _ => []

def verifiedOf (provider : Ecma.Tree ν) : Bool := (provider.get? verifiedKey).any isTrue

@[simp] theorem asString?_parse : asString? (parse d) = asString? d := by
  cases d <;> simp [parse, asString?]

@[simp] theorem asString?_stringify : asString? (stringify v) = asString? v := by
  cases v with
  | num n => cases n <;> simp [stringify, asString?]
  | _ => simp [stringify, asString?]

theorem pinsOf_parse : pinsOf (parse d) = pinsOf d := by
  unfold pinsOf
  rw [get?_parse]
  cases d.get? sessionIdsKey with
  | none => rfl
  | some v =>
    cases v with
    | arr items => simp [parse, parseItems_eq, List.filterMap_map]
    | _ => simp [parse]

theorem pinsOf_stringify : pinsOf (stringify v) = pinsOf v := by
  unfold pinsOf
  rw [get?_stringify]
  cases v.get? sessionIdsKey with
  | none => rfl
  | some w =>
    cases w with
    | arr items => simp [stringify, stringifyItems_eq, List.filterMap_map]
    | num n => cases n <;> simp [stringify]
    | _ => simp [stringify]

theorem verifiedOf_parse : verifiedOf (parse d) = verifiedOf d := by
  unfold verifiedOf
  rw [get?_parse]
  cases d.get? verifiedKey with
  | none => rfl
  | some v => cases v <;> simp [parse, isTrue]

theorem verifiedOf_stringify : verifiedOf (stringify v) = verifiedOf v := by
  unfold verifiedOf
  rw [get?_stringify]
  cases v.get? verifiedKey with
  | none => rfl
  | some w =>
    cases w with
    | num n => cases n <;> simp [stringify, isTrue]
    | _ => simp [stringify, isTrue]

theorem parseSessionIds_ok {supplied : List JsString}
    (h : parseSessionIds (value.get? sessionIdsKey) = .ok supplied) :
    supplied = (pinsOf value).eraseDups := by
  unfold parseSessionIds at h
  unfold pinsOf
  split at h
  · next hnone =>
    cases h
    rw [hnone]
    rfl
  · next items harr =>
    split at h
    · cases h
    · cases h
      rw [harr]
  · cases h

theorem pinsOf_writeConstraints (required : Bool) (h : pinned = [] → pinsOf (Tree.obj ms) = []) :
    pinsOf (Tree.obj (writeConstraints ms pinned required)) = pinned := by
  have hkeys : sessionIdsKey ≠ verifiedKey := by decide
  have hget : (Tree.obj (writeConstraints ms pinned required)).get? sessionIdsKey =
      (Tree.obj (if pinned ≠ [] then setMember ms sessionIdsKey (.arr (pinned.map .str))
        else ms)).get? sessionIdsKey := by
    unfold writeConstraints
    cases required
    · rfl
    · rw [if_pos rfl, get?_setMember, if_neg hkeys]
  unfold pinsOf at h ⊢
  rw [hget]
  by_cases hp : pinned = []
  · rw [if_neg (not_not.mpr hp), hp]
    exact h hp
  · rw [if_pos hp, get?_setMember, if_pos rfl]
    simp [List.filterMap_map, Function.comp_def, asString?]

theorem verifiedOf_writeConstraints {required : Bool} (h : verifiedOf (Tree.obj ms) → required) :
    verifiedOf (Tree.obj (writeConstraints ms pinned required)) = required := by
  have hkeys : verifiedKey ≠ sessionIdsKey := by decide
  unfold writeConstraints verifiedOf at *
  cases required with
  | true => rw [if_pos rfl, get?_setMember, if_pos rfl]; rfl
  | false =>
    have hms : (Tree.obj (if pinned ≠ [] then setMember ms sessionIdsKey (.arr (pinned.map .str))
        else ms)).get? verifiedKey = (Tree.obj ms).get? verifiedKey := by
      by_cases hp : pinned ≠ []
      · rw [if_pos hp, get?_setMember, if_neg hkeys]
      · rw [if_neg hp]
    rw [if_neg (by simp), hms]
    simpa using h

/-- What the merged provider demands, from what was supplied and what the options fix. -/
structure Merged (o : ConnectOptions) (value : JsValue) (e : EffectivePolicy) : Prop where
  pins : pinsOf e.provider =
    if o.accepted = [] then (pinsOf value).eraseDups
    else if pinsOf value = [] then o.accepted
    else (pinsOf value).eraseDups.filter (· ∈ o.accepted)
  nonempty : o.accepted = [] ∨ pinsOf value = [] ∨ pinsOf e.provider ≠ []
  requires : e.requiresVerified = (isConstrained o || verifiedOf value || pinsOf e.provider ≠ [])
  verified : verifiedOf e.provider = e.requiresVerified

theorem eraseDups_eq_nil {l : List JsString} : l.eraseDups = [] ↔ l = [] := by
  cases l with
  | nil => simp
  | cons x l => simp [List.eraseDups_cons]

theorem mergeProvider_ok {o : ConnectOptions} (h : mergeProvider value o = .ok e) : Merged o value e := by
  unfold mergeProvider at h
  split at h
  · next ms =>
    simp only [bind_eq_ok, ensure_eq_ok, pure_eq_ok] at h
    obtain ⟨-, hknown, -, hbool, supplied, hids, -, hcombined, -, hmeet, rfl⟩ := h
    obtain rfl := parseSessionIds_ok hids
    simp only [eraseDups_eq_nil] at hmeet ⊢
    set pinned := if o.accepted = [] then (pinsOf (Tree.obj ms)).eraseDups
      else if pinsOf (Tree.obj ms) = [] then o.accepted
      else (pinsOf (Tree.obj ms)).eraseDups.filter (· ∈ o.accepted) with hpinned
    -- without a pin, nothing was supplied
    have hnone : pinned = [] → pinsOf (Tree.obj ms) = [] := by
      intro hp
      by_cases hacc : o.accepted = []
      · rwa [hpinned, if_pos hacc, eraseDups_eq_nil] at hp
      · rcases hmeet with hm | hm | hm
        · exact absurd hm hacc
        · exact hm
        · exact absurd hp hm
    obtain ⟨required, hrequired⟩ : ∃ required, required =
        (isConstrained o || verifiedOf (Tree.obj ms) || pinned ≠ []) := ⟨_, rfl⟩
    change Merged o (Tree.obj ms) ⟨.obj (writeConstraints ms pinned
      (isConstrained o || verifiedOf (Tree.obj ms) || pinned ≠ [])), pinned,
      isConstrained o || verifiedOf (Tree.obj ms) || pinned ≠ []⟩
    rw [← hrequired]
    have hpins := pinsOf_writeConstraints required hnone
    refine ⟨hpins, ?_, ?_, verifiedOf_writeConstraints fun hv => by simp [hrequired, hv]⟩
    · rw [hpins]
      exact hmeet
    · rw [hpins]
      exact hrequired
  · cases h

/-- The pins of a provider, and whether it demands verified serving. -/
def demand (provider : Option (Ecma.Tree ν)) : List JsString × Bool :=
  (provider.elim [] pinsOf, provider.any verifiedOf)

/-- What is sent is at least as strict as what the caller gave and as the options. -/
structure Strict (o : ConnectOptions) (given sent : List JsString × Bool) : Prop where
  from_given : ∀ id ∈ sent.1, given.1 ≠ [] → id ∈ given.1
  from_options : ∀ id ∈ sent.1, o.accepted ≠ [] → id ∈ o.accepted
  pinned : given.1 ≠ [] ∨ o.accepted ≠ [] → sent.1 ≠ []
  verified : given.2 ∨ given.1 ≠ [] ∨ isConstrained o → sent.2

theorem Merged.strict {o : ConnectOptions} (h : Merged o value e) :
    Strict o (pinsOf value, verifiedOf value) (pinsOf e.provider, verifiedOf e.provider) := by
  have hpinned : pinsOf value ≠ [] ∨ o.accepted ≠ [] → pinsOf e.provider ≠ [] := by
    intro hne
    rcases h.nonempty with hacc | hval | hsent
    · rw [h.pins, if_pos hacc, ne_eq, eraseDups_eq_nil]
      exact hne.resolve_right (not_not.mpr hacc)
    · have hacc := hne.resolve_left (not_not.mpr hval)
      rw [h.pins, if_neg hacc, if_pos hval]
      exact hacc
    · exact hsent
  refine ⟨fun id hid hne => ?_, fun id hid hacc => ?_, hpinned, fun hdem => ?_⟩
  · rw [h.pins, if_neg hne] at hid
    split at hid
    · simpa using hid
    · simpa using (List.mem_filter.mp hid).1
  · rw [h.pins, if_neg hacc] at hid
    split at hid
    · exact hid
    · simpa using (List.mem_filter.mp hid).2
  · dsimp only at hdem ⊢
    rw [h.verified, h.requires]
    rcases hdem with hv | hp | hc
    · simp [hv]
    · simp [hpinned (.inl hp)]
    · simp [hc]

theorem strict_of_nothing {o : ConnectOptions} (h : isConstrained o = false) :
    Strict o ([], false) ([], false) := by
  have hacc : o.accepted = [] := by
    simpa using (Bool.or_eq_false_iff.mp h).2
  refine ⟨by simp, by simp, ?_, ?_⟩
  · simp [hacc]
  · simp [h]

/-! The JSON body. -/

section Body

variable {P} {o : ConnectOptions} {out : ConstrainedBody} {body : Bytes}

/-- The provider of a JSON body. -/
def bodyProvider (P : Platform) (body : Text Bytes) : Option Doc :=
  (body.read P.readBody).bind (·.get? providerKey)

/-- A JSON body is sent as it is when nothing is demanded, and else with the merged provider. -/
inductive JsonOutcome (P : Platform) (o : ConnectOptions) (body : Bytes) : ConstrainedBody → Prop
  | unchanged (free : isConstrained o = false)
      (nothing : demand (bodyProvider P (.given body)) = ([], false)) :
      JsonOutcome P o body ⟨.given body, none, [], false⟩
  | rewritten (ms : List (JsString × Doc)) (value : JsValue) (e : EffectivePolicy)
      (read : P.readBody body = some (.obj ms)) (merged : Merged o value e)
      (given : demand (bodyProvider P (.given body)) = (pinsOf value, verifiedOf value))
      (requires : e.requiresVerified = true) :
      JsonOutcome P o body
        ⟨.json (stringify (.obj (setMember (ownOrder (assign (parseMembers ms))) providerKey
          e.provider))), none, e.pinnedSessions, e.requiresVerified⟩

theorem finish_outcome {ms : List (JsString × Doc)}
    (h : constrainJsonBody.finish o ⟨.given body, none, [], false⟩
      (ownOrder (assign (parseMembers ms))) value = .ok out)
    (hread : P.readBody body = some (.obj ms))
    (hgiven : demand (bodyProvider P (.given body)) = (pinsOf value, verifiedOf value)) :
    JsonOutcome P o body out := by
  obtain ⟨e, hmerge, h⟩ := bind_eq_ok.mp h
  have hmerged := mergeProvider_ok hmerge
  split at h
  · next hreq =>
    obtain rfl := pure_eq_ok.mp h
    exact .rewritten ms value e hread hmerged hgiven hreq
  · next hreq =>
    obtain rfl := pure_eq_ok.mp h
    -- nothing is required, so nothing was supplied
    have hfalse : isConstrained o = false ∧ verifiedOf value = false ∧ pinsOf e.provider = [] := by
      have hnot : e.requiresVerified = false := by simpa using hreq
      rw [hmerged.requires] at hnot
      simpa [and_assoc] using hnot
    have hpins : pinsOf value = [] := by
      by_contra hne
      exact hmerged.strict.pinned (.inl hne) hfalse.2.2
    exact .unchanged hfalse.1 (by rw [hgiven, hpins, hfalse.2.1])

theorem constrainJsonBody_outcome (h : constrainJsonBody P body o = .ok out) :
    JsonOutcome P o body out := by
  unfold constrainJsonBody at h
  -- a body without a provider of its own is sent only under free options
  have hrefuse {message : Invalid} (hnone : demand (bodyProvider P (.given body)) = ([], false))
      (h : (if isConstrained o then .error message
        else .ok (⟨.given body, none, [], false⟩ : ConstrainedBody) : Except Invalid _) = .ok out) :
      JsonOutcome P o body out := by
    split at h
    · cases h
    · next hfree =>
      cases h
      exact .unchanged (by simpa using hfree) hnone
  cases hread : P.readBody body with
  | none =>
    rw [hread] at h
    exact hrefuse (by simp [bodyProvider, Text.read, hread, demand]) h
  | some d =>
    rw [hread] at h
    cases d with
    | obj ms =>
      have hprovider : bodyProvider P (.given body) = (Tree.obj ms).get? providerKey := by
        simp [bodyProvider, Text.read, hread]
      rw [Option.map_some, parse] at h
      dsimp only at h
      rw [← parse, get?_parse] at h
      cases hp : (Tree.obj ms).get? providerKey with
      | none =>
        rw [hp] at h
        exact finish_outcome h hread (by rw [hprovider, hp]; rfl)
      | some v =>
        rw [hp] at h
        cases v with
        | null => exact finish_outcome h hread (by rw [hprovider, hp]; rfl)
        | obj provider =>
          refine finish_outcome h hread ?_
          rw [hprovider, hp, ← parse, pinsOf_parse, verifiedOf_parse]
          rfl
        | _ => exact hrefuse (by rw [hprovider, hp]; rfl) h
    | _ => exact hrefuse (by simp [bodyProvider, Text.read, hread, demand, Tree.get?]) h

/-- What a rewritten body says under the provider's name, and under every other. -/
theorem get?_rewritten (ms : List (JsString × Doc)) (value : JsValue) :
    (stringify (.obj (setMember (ownOrder (assign (parseMembers ms))) providerKey value))).get?
      providerKey = some (stringify value) := by
  rw [get?_stringify, get?_setMember, if_pos rfl]
  rfl

theorem named_rewritten {k : JsString} (hk : k ≠ providerKey) (ms : List (JsString × Doc))
    (value : JsValue) :
    named k (stringifyMembers (setMember (ownOrder (assign (parseMembers ms))) providerKey value)) =
      ((named k ms).getLast?.map fun d => stringify (parse d)).toList := by
  rw [named_stringifyMembers, named_setMember_of_ne hk, named_parsed]
  cases (named k ms).getLast? <;> rfl

theorem JsonOutcome.strict (h : JsonOutcome P o body out) :
    Strict o (demand (bodyProvider P (.given body))) (demand (bodyProvider P out.body)) := by
  cases h with
  | unchanged free nothing =>
    rw [nothing]
    exact strict_of_nothing free
  | rewritten ms value e read merged given requires =>
    have hsent : demand (bodyProvider P (.json (stringify (.obj (setMember
        (ownOrder (assign (parseMembers ms))) providerKey e.provider))))) =
        (pinsOf e.provider, verifiedOf e.provider) := by
      rw [bodyProvider, Text.read, Option.bind_some, get?_rewritten, demand, Option.elim_some,
        Option.any_some, pinsOf_stringify, verifiedOf_stringify]
    rw [given, hsent]
    exact merged.strict

/-- Every path outside the provider holds the same value. -/
def MembersKept (given sent : Doc) : Prop :=
  ∀ p, p.head? ≠ some (.key providerKey) → sent.look p = given.look p

/-- The members other than the provider survive a passage through the language. -/
def OthersSurvive : Doc → Prop
  | .obj ms => ∀ k, k ≠ providerKey → (named k ms).length ≤ 1 ∧ ∀ d ∈ named k ms, survives d
  | _ => True

/-- The caller or the options demand anything. -/
def Demanding (o : ConnectOptions) (given : List JsString × Bool) : Prop :=
  isConstrained o ∨ given.2 ∨ given.1 ≠ []

theorem Merged.demanding (h : Merged o value e)
    (hreq : e.requiresVerified = true) : Demanding o (pinsOf value, verifiedOf value) := by
  rw [h.requires, Bool.or_eq_true, Bool.or_eq_true, decide_eq_true_eq] at hreq
  rcases hreq with (hc | hv) | hp
  · exact .inl hc
  · exact .inr (.inl hv)
  · by_cases hacc : o.accepted = []
    · rw [h.pins, if_pos hacc, ne_eq, eraseDups_eq_nil] at hp
      exact .inr (.inr hp)
    · exact .inl (by simp [isConstrained, hacc])

theorem JsonOutcome.membersKept_iff {given : Doc} (h : JsonOutcome P o body out)
    (hread : P.readBody body = some given) :
    ∃ sent, out.body.read P.readBody = some sent ∧
      (MembersKept given sent ↔
        (Demanding o (demand (bodyProvider P (.given body))) → OthersSurvive given)) := by
  cases h with
  | unchanged free nothing =>
    refine ⟨given, hread, iff_of_true (fun p _ => rfl) fun hdem => ?_⟩
    rw [nothing] at hdem
    simp [Demanding, free] at hdem
  | rewritten ms value e read merged hgiven requires =>
    obtain rfl : given = .obj ms := Option.some.inj (hread.symm.trans read)
    refine ⟨_, rfl, ?_⟩
    have hdem : Demanding o (demand (bodyProvider P (.given body))) := by
      rw [hgiven]
      exact merged.demanding requires
    have hiff := look_obj_iff
      (fun m _ => look_stringify_parse_iff m.2) _ fun k hk => named_rewritten hk ms e.provider
    simp only [hdem, true_imp_iff, OthersSurvive]
    rw [← hiff]
    constructor
    · exact fun hkept k p hk => hkept (.key k :: p) (by simpa using hk)
    · intro hkept p hp
      cases p with
      | nil => rfl
      | cons step p =>
        cases step with
        | key k => exact hkept k p (by simpa using hp)
        | index i => rfl

end Body

/-! The whole request. -/

/-- The provider a request carries: in its header, or in its JSON body. -/
def carried (P : Platform) (r : Request) (body : Text Bytes) (carrier : Option (Text String)) :
    Option Doc :=
  if inHeader r then carrier.bind (·.read P.readHeader)
  else if isJson r then bodyProvider P body
  else none

/-- What the caller asked for. -/
def Request.demand (P : Platform) (r : Request) : List JsString × Bool :=
  Client.demand (carried P r (.given r.body) (r.carrier.map .given))

/-- What a request of these headers is sent with. -/
def ConstrainedBody.demand (P : Platform) (r : Request) (out : ConstrainedBody) :
    List JsString × Bool :=
  Client.demand (carried P r out.body out.carrier)

section Whole

variable {P} {r : Request} {o : ConnectOptions} {capabilities : Option (List String)}
  {out : ConstrainedBody}

theorem readCarrier_ok {carrier : Option String} (h : readCarrier P carrier = .ok value) :
    Client.demand (carrier.bind P.readHeader) = (pinsOf value, verifiedOf value) := by
  unfold readCarrier at h
  split at h
  · cases h
    rfl
  · simp only [bind_eq_ok, ensure_eq_ok, okOr_eq_ok, pure_eq_ok] at h
    obtain ⟨-, -, -, -, d, hd, rfl⟩ := h
    rw [Option.bind_some, hd, Client.demand, Option.elim_some, Option.any_some, pinsOf_parse,
      verifiedOf_parse]

theorem constrainMultipart_strict (hr : inHeader r)
    (h : constrainMultipart P r o capabilities = .ok out) :
    Strict o (r.demand P) (out.demand P r) := by
  unfold constrainMultipart at h
  simp only [bind_eq_ok, ensure_eq_ok] at h
  obtain ⟨value, hvalue, e, hmerge, -, -, -, -, h⟩ := h
  have hmerged := mergeProvider_ok hmerge
  have hgiven : r.demand P = (pinsOf value, verifiedOf value) := by
    rw [Request.demand, carried, if_pos hr, ← readCarrier_ok hvalue]
    cases r.carrier <;> rfl
  rw [hgiven]
  split at h
  · simp only [bind_eq_ok, ensure_eq_ok, pure_eq_ok] at h
    obtain ⟨-, -, rfl⟩ := h
    have hsent : ConstrainedBody.demand P r ⟨.given r.body, some (.json (stringify e.provider)),
        e.pinnedSessions, e.requiresVerified⟩ = (pinsOf e.provider, verifiedOf e.provider) := by
      rw [ConstrainedBody.demand, carried, if_pos hr, Option.bind_some, Text.read, Client.demand,
        Option.elim_some, Option.any_some, pinsOf_stringify, verifiedOf_stringify]
    rw [hsent]
    exact hmerged.strict
  · next hfree =>
    obtain rfl := pure_eq_ok.mp h
    have hboth : isConstrained o = false ∧ r.carrier = none := by simpa using hfree
    have hnone : r.demand P = ([], false) := by
      rw [Request.demand, carried, if_pos hr, hboth.2]
      rfl
    rw [← hgiven, hnone, ConstrainedBody.demand, carried, if_pos hr]
    exact strict_of_nothing hboth.1

end Whole

/-- A body with a number above the integers that binary64 holds. -/
def seedBody : Bytes := utf8 "\x7b\"seed\":9007199254740993\x7d"

/-- A platform that reads this body. -/
def seedPlatform : Platform where
  readBody b := if b = seedBody then some (.obj [(js "seed", .num 9007199254740993)]) else none
  readHeader _ := none
  formNames _ _ := none
  asciiBytes _ := 0

def seedRequest : Request where
  contentType := some "application/json"
  path := "/v1/chat/completions"
  body := seedBody

def emptyRequest : Request where
  contentType := some "text/plain"
  path := "/v1/chat/completions"
  body := []

end AciGateway.Client
