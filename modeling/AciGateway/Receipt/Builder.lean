import AciGateway.Lib.Results
import AciGateway.Session.Document

/-! Inference receipts: the event log, its builder, and the signed document. -/
namespace AciGateway.Receipt

open Octets Json Digest Lists Results Session

def receiptApiVersion : String := "aci/1"

def eventRequestReceived : String := "request.received"

def eventRequestForwarded : String := "request.forwarded"

def eventUpstreamVerified : String := "upstream.verified"

def eventResponseReturned : String := "response.returned"

def eventMiddlewareForwarded : String := "middleware.forwarded"

def eventRouteSelected : String := "route.selected"

def eventResponseReceived : String := "response.received"

inductive KeyError where
  | unknownReceiptKeyId (keyId : String)
  | unsupportedAlgo (algo : String)
  | crypto (message : String)
  deriving DecidableEq

inductive ReceiptError where
  | firstEventMustBeRequestReceived (eventType : String)
  | missingRequiredEvent (eventType : String)
  | emptyReceipt
  | reservedField (key : String)
  | reservedEventType (eventType : String)
  | canonicalization (error : JcsError)
  | invalidSessionId (id : String)
  | key (error : KeyError)
  deriving DecidableEq

structure KeyedPublicKey where
  keyId : String
  algo : String
  publicKeyHex : String
  deriving DecidableEq

def algoEd25519 : String := "ed25519"

/-- The receipt keys, and the signature under one of them. -/
structure KeyProvider where
  receiptKeys : List KeyedPublicKey
  signReceipt : String → Bytes → Except KeyError Bytes

inductive VerificationResult where
  | verified
  | failed
  deriving DecidableEq

def VerificationResult.asStr : VerificationResult → String
  | .verified => "verified"
  | .failed => "failed"

/-- The identity an accepted attestation report binds. -/
structure ReportBinding where
  keysetDigest : String
  subject : Option String
  notAfter : U64
  deriving DecidableEq

/-- What an upstream verifier hands the aggregator. -/
structure UpstreamVerifiedEvent where
  verificationRound : Option Bytes
  upstreamName : String
  providerType : Option String
  modelId : String
  urlOrigin : Option String
  verifierId : String
  result : VerificationResult
  required : Bool
  reason : Option String
  evidence : Option Value
  channelBindings : List ChannelBinding
  providerClaims : Option Value
  aciIdentity : Option ReportBinding

/-- An event; its type is kept apart from its fields, and is none of them. -/
structure ReceiptEvent where
  eventType : String
  fields : Map
  untyped : fields.get? "type" = none

def ReceiptEvent.toValue (e : ReceiptEvent) : Value :=
  .obj ((Map.empty.insert "type" (.str e.eventType)).extend e.fields.members).members

structure ReceiptBuilder where
  receiptId : String
  chatId : Option String
  model : Option String
  workloadKeysetDigest : String
  endpoint : String
  method : String
  servedAt : U64
  events : List ReceiptEvent

structure SignedReceipt where
  receiptId : String
  chatId : Option String
  workloadKeysetDigest : String
  document : Bytes
  keyId : String
  signatureHex : String
  deriving DecidableEq

namespace ReceiptBuilder

def new (receiptId : String) (chatId model : Option String)
    (workloadKeysetDigest endpoint method : String) (servedAt : U64) : ReceiptBuilder :=
  ⟨receiptId, chatId, model, workloadKeysetDigest, endpoint, method, servedAt, []⟩

def append (b : ReceiptBuilder) (eventType : String) (fields : Map) :
    Except ReceiptError ReceiptBuilder :=
  if b.events.isEmpty ∧ eventType ≠ eventRequestReceived then
    .error (.firstEventMustBeRequestReceived eventType)
  else if h : fields.get? "type" = none then
    .ok { b with events := b.events ++ [⟨eventType, fields, h⟩] }
  else .error (.reservedField "type")

def appendHash (b : ReceiptBuilder) (eventType bodyHash : String) :
    Except ReceiptError ReceiptBuilder :=
  b.append eventType (Map.empty.insert "body_hash" (.str bodyHash))

section Hash

variable (sha256 : Bytes → Bytes)

def appendBodyHash (b : ReceiptBuilder) (eventType : String) (body : Bytes) :
    Except ReceiptError (String × ReceiptBuilder) :=
  let hash := sha256Hex sha256 body
  (b.appendHash eventType hash).map (hash, ·)

def addRequestReceived (b : ReceiptBuilder) := b.appendBodyHash sha256 eventRequestReceived

def addRequestForwarded (b : ReceiptBuilder) := b.appendBodyHash sha256 eventRequestForwarded

def addMiddlewareForwarded (b : ReceiptBuilder) :=
  b.appendBodyHash sha256 eventMiddlewareForwarded

def addResponseReceived (b : ReceiptBuilder) := b.appendBodyHash sha256 eventResponseReceived

def addResponseReturned (b : ReceiptBuilder) := b.appendBodyHash sha256 eventResponseReturned

end Hash

def addResponseReceivedHash (b : ReceiptBuilder) := b.appendHash eventResponseReceived

def addResponseReturnedHash (b : ReceiptBuilder) := b.appendHash eventResponseReturned

def addRouteSelected (b : ReceiptBuilder) (targetRouteId : String) :
    Except ReceiptError ReceiptBuilder :=
  b.append eventRouteSelected (Map.empty.insert "target_route_id" (.str targetRouteId))

/-- Sixty-four lower-case hexadecimal digits. -/
def isSessionId (id : String) : Bool :=
  (utf8 id).length = 64 ∧ (utf8 id).all (fun c => (48 ≤ c ∧ c ≤ 57) ∨ (97 ≤ c ∧ c ≤ 102))

def addUpstreamVerifiedWithSession (b : ReceiptBuilder) (event : UpstreamVerifiedEvent)
    (sessionId : String) : Except ReceiptError ReceiptBuilder :=
  if isSessionId sessionId then
    b.append eventUpstreamVerified ((((Map.empty.insert "result"
      (.str VerificationResult.verified.asStr)).insert "required" (.bool event.required)).insert
        "model_id" (.str event.modelId)).insert "session_id" (.str sessionId))
  else .error (.invalidSessionId sessionId)

def addUpstreamVerifiedFailed (b : ReceiptBuilder) (modelId reason : String) (required : Bool)
    (upstreamName : Option String) : Except ReceiptError ReceiptBuilder :=
  let fields := (((Map.empty.insert "result" (.str VerificationResult.failed.asStr)).insert
    "required" (.bool required)).insert "model_id" (.str modelId)).insert "reason" (.str reason)
  b.append eventUpstreamVerified (match upstreamName.filter (· ≠ "") with
    | some name => fields.insert "upstream_name" (.str name)
    | none => fields)

/-- The event for an admitted upstream: the session it cites, or why there is none. -/
def appendUpstreamVerified (b : ReceiptBuilder) (event : UpstreamVerifiedEvent)
    (recorded : Option String) : Except ReceiptError ReceiptBuilder :=
  match recorded with
  | some sessionId => b.addUpstreamVerifiedWithSession event sessionId
  | none => b.addUpstreamVerifiedFailed event.modelId
      (event.reason.getD "no enforceable verified binding") event.required
      (some event.upstreamName)

def addExtensionEvent (b : ReceiptBuilder) (eventType : String) (fields : Map) :
    Except ReceiptError ReceiptBuilder :=
  if eventType ∈ [eventRequestReceived, eventRequestForwarded, eventUpstreamVerified,
      eventResponseReturned] then .error (.reservedEventType eventType)
  else b.append eventType fields

def setChatId (b : ReceiptBuilder) (chatId : Option String) : ReceiptBuilder :=
  { b with chatId }

/-- The first verified event names the model the upstream served. -/
def setModelId (modelId : String) : List ReceiptEvent → List ReceiptEvent
  | [] => []
  | e :: es =>
    if e.eventType = eventUpstreamVerified ∧
        (e.fields.get? "result").bind Value.asStr? = some VerificationResult.verified.asStr then
      { e with
        fields := e.fields.insert "model_id" (.str modelId)
        untyped := by simp [e.untyped] } :: es
    else e :: setModelId modelId es

def setUpstreamVerifiedModelId (b : ReceiptBuilder) (modelId : Option String) : ReceiptBuilder :=
  match modelId with
  | none => b
  | some modelId => { b with events := setModelId modelId b.events }

/-- The document before its key id and signature. -/
def payload (b : ReceiptBuilder) : Map :=
  Map.empty.extend
    [("api_version", .str receiptApiVersion), ("receipt_id", .str b.receiptId),
      ("chat_id", encodeOption .str b.chatId), ("model", encodeOption .str b.model),
      ("workload_keyset_digest", .str b.workloadKeysetDigest), ("endpoint", .str b.endpoint),
      ("method", .str b.method), ("served_at", encodeU64 b.servedAt),
      ("event_log", .arr (b.events.map ReceiptEvent.toValue))]

/-- A required verification failed, so that the request was never forwarded. -/
def refused (b : ReceiptBuilder) : Bool :=
  b.events.any (fun e => e.eventType = eventUpstreamVerified ∧
    (e.fields.get? "result").bind Value.asStr? = some VerificationResult.failed.asStr ∧
    (e.fields.get? "required").bind Value.asBool? = some true)

/-- The first required event the log does not have. -/
def missing? (b : ReceiptBuilder) : Option String :=
  [eventRequestReceived, eventRequestForwarded, eventResponseReturned].find? (fun required =>
    ¬ (required = eventRequestForwarded ∧ b.refused) ∧
      ¬ b.events.any (·.eventType = required))

def finalize (b : ReceiptBuilder) (keys : KeyProvider) (keyId : String) :
    Except ReceiptError SignedReceipt :=
  if b.events.isEmpty then .error .emptyReceipt
  else
    match b.missing? with
    | some eventType => .error (.missingRequiredEvent eventType)
    | none =>
      match keys.receiptKeys.find? (·.keyId = keyId) with
      | none => .error (.key (.unknownReceiptKeyId keyId))
      | some key =>
        if key.algo ≠ algoEd25519 then .error (.key (.unsupportedAlgo key.algo))
        else do
          let document := b.payload.insert "key_id" (.str key.keyId)
          -- `receipt_signing_input`; there is no signature to leave out yet
          let input ← (jcsBytes (.obj document.members)).mapError .canonicalization
          let signature ← (keys.signReceipt key.keyId input).mapError .key
          let signed := document.insert "signature" (.str (hexEncode signature))
          let bytes ← (jcsBytes (.obj signed.members)).mapError .canonicalization
          pure ⟨b.receiptId, b.chatId, b.workloadKeysetDigest, bytes, key.keyId,
            hexEncode signature⟩

end ReceiptBuilder

/-- The session an event of a receipt document cites. -/
def citedSession (e : Value) : Option String :=
  if (e.get? "type").bind Value.asStr? = some eventUpstreamVerified then
    (e.get? "session_id").bind Value.asStr?
  else none

/-- An `upstream.verified` event of the document, however deep a reader follows it, names the
session. -/
def SignedReceipt.Cites (r : SignedReceipt) (id : String) : Prop :=
  ∃ round limit document events, parse round limit r.document = some document ∧
    document.get? "event_log" = some (.arr events) ∧ ∃ e ∈ events, citedSession e = some id

section Lemmas

variable {b b' : ReceiptBuilder} {r : SignedReceipt} {eventType id keyId : String}
  {fields : Map} {keys : KeyProvider} {e : ReceiptEvent}

theorem get?_toValue (e : ReceiptEvent) (k : String) :
    e.toValue.get? k = (e.fields.get? k).or (if k = "type" then some (.str e.eventType) else none) :=
  (Map.get?_extend _ e.fields.unique k).trans (by rw [Map.get?_insert]; rfl)

open ReceiptBuilder

theorem append_ok (h : b.append eventType fields = .ok b') :
    ∃ hf, b' = { b with events := b.events ++ [⟨eventType, fields, hf⟩] } := by
  unfold append at h
  split at h
  · cases h
  · split at h
    · next hf => cases h; exact ⟨hf, rfl⟩
    · cases h

theorem append_eq (hb : b.events ≠ [] ∨ eventType = eventRequestReceived)
    (hf : fields.get? "type" = none) : b.append eventType fields =
      .ok { b with events := b.events ++ [⟨eventType, fields, hf⟩] } := by
  have hfirst : ¬ (b.events.isEmpty ∧ eventType ≠ eventRequestReceived) := by
    rintro ⟨he, ht⟩
    rcases hb with hb | hb
    · exact hb (List.isEmpty_iff.mp he)
    · exact ht hb
  rw [append, if_neg hfirst, dif_pos hf]

/-- The document of the log under a key, before it is signed. -/
def ReceiptBuilder.unsigned (b : ReceiptBuilder) (key : KeyedPublicKey) : Map :=
  b.payload.insert "key_id" (.str key.keyId)

/-- What was checked, signed and written in a finalization that succeeds. -/
theorem finalize_spec (h : b.finalize keys keyId = .ok r) : b.events ≠ [] ∧ b.missing? = none ∧
    r.receiptId = b.receiptId ∧ r.chatId = b.chatId ∧ ∃ key input signature,
      keys.receiptKeys.find? (·.keyId = keyId) = some key ∧ key.algo = algoEd25519 ∧
      jcsBytes (.obj (b.unsigned key).members) = .ok input ∧
      keys.signReceipt key.keyId input = .ok signature ∧
      r.signatureHex = hexEncode signature ∧
      jcsBytes (.obj ((b.unsigned key).insert "signature" (.str r.signatureHex)).members) =
        .ok r.document := by
  unfold finalize at h
  split at h
  · cases h
  next hne =>
  split at h
  · cases h
  next hm =>
  split at h
  · cases h
  next key hkey =>
  split at h
  · cases h
  next halgo =>
  simp only [bind_eq_ok, mapError_eq_ok, pure_eq_ok] at h
  obtain ⟨input, hinput, signature, hsig, bytes, hbytes, rfl⟩ := h
  exact ⟨by simpa using hne, hm, rfl, rfl, key, input, signature, hkey, not_not.mp halgo, hinput,
    hsig, rfl, hbytes⟩

/-- A finalized receipt is the canonical text of its builder's log. -/
theorem finalize_ok (h : b.finalize keys keyId = .ok r) : r.receiptId = b.receiptId ∧
    r.chatId = b.chatId ∧ ∃ signed : Map, jcsBytes (.obj signed.members) = .ok r.document ∧
      signed.get? "event_log" = some (.arr (b.events.map ReceiptEvent.toValue)) := by
  obtain ⟨-, -, hid, hchat, key, -, -, -, -, -, -, -, hbytes⟩ := finalize_spec h
  refine ⟨hid, hchat, _, hbytes, ?_⟩
  rw [Map.get?_insert, if_neg (by decide), unsigned, Map.get?_insert,
    if_neg (by decide), payload, Map.get?_extend _ (by simp)]
  rfl

theorem str_sorted {x : Value} {k s : String} (hx : sorted e.toValue = .ok x) :
    (x.get? k).bind Value.asStr? = some s ↔ e.toValue.get? k = some (.str s) := by
  have hget := get?_sorted_eq_str (Map.unique _) hx (k := k) (s := s)
  constructor
  · intro h
    obtain ⟨v, hv, hs⟩ := Option.bind_eq_some_iff.mp h
    cases v with
    | str t => cases hs; exact hget.mp hv
    | _ => cases hs
  · intro h
    rw [hget.mpr h]
    rfl

/-- What an event cites can be read off its canonical form. -/
theorem cited_sorted {x : Value} (hx : sorted e.toValue = .ok x) :
    citedSession x = some id ↔ e.eventType = eventUpstreamVerified ∧
      e.fields.get? "session_id" = some (.str id) := by
  have htype : (x.get? "type").bind Value.asStr? = some eventUpstreamVerified ↔
      e.eventType = eventUpstreamVerified := by
    rw [str_sorted hx, get?_toValue, e.untyped]
    simp
  have hsession : (x.get? "session_id").bind Value.asStr? = some id ↔
      e.fields.get? "session_id" = some (.str id) := by
    rw [str_sorted hx, get?_toValue, if_neg (by decide), Option.or_none]
  unfold citedSession
  rw [← htype, ← hsession]
  split
  · next h => simp [h]
  · next h => simp [h]

/-- A finalized receipt cites what the events of its builder name. -/
theorem cites_finalize (h : b.finalize keys keyId = .ok r) :
    r.Cites id ↔ ∃ e ∈ b.events, e.eventType = eventUpstreamVerified ∧
      e.fields.get? "session_id" = some (.str id) := by
  obtain ⟨-, -, signed, hbytes, hlog⟩ := finalize_ok h
  constructor
  · rintro ⟨round, limit, document, events, hparse, hevents, x, hx, hcited⟩
    have hdoc := sorted_of_parse hbytes hparse
    -- The log of the document is the builder's, event by event.
    obtain ⟨log, hlook, hsorted⟩ := (get?_sorted_eq_some signed.unique hdoc).mp hevents
    obtain rfl := Option.some.inj (hlook.symm.trans hlog)
    obtain ⟨ws, hws, hall⟩ := sorted_arr hsorted
    cases hws
    obtain ⟨v, hv, hvx⟩ := exists_left_of_mem hall hx
    obtain ⟨e, he, rfl⟩ := List.mem_map.mp hv
    exact ⟨e, he, (cited_sorted hvx).mp hcited⟩
  · rintro ⟨e, he, hcited⟩
    obtain ⟨document, hdoc, hprint⟩ := jcsBytes_ok hbytes
    obtain ⟨x, hx⟩ := sorted_member hdoc ((lookup_eq_some_iff signed.unique).mp hlog)
    obtain ⟨events, rfl, hall⟩ := sorted_arr hx
    obtain ⟨v, hv, hsorted⟩ := exists_right_of_mem hall (List.mem_map_of_mem he)
    refine ⟨fun _ => none, depth document, document, events, ?_, ?_, v, hv,
      (cited_sorted hsorted).mpr hcited⟩
    · rw [hprint]
      exact parse_print _ le_rfl (integral_sorted hdoc)
    · exact (get?_sorted_eq_some signed.unique hdoc).mpr ⟨_, hlog, hx⟩

theorem canonical_encodeOption (x : Option String) : canonical (encodeOption .str x) := by
  cases x <;> rfl

theorem canonicalMembers_setMember {k : String} {v : Value} {ms : Members} (hk : isAscii k)
    (hv : canonical v) (h : canonicalMembers ms) : canonicalMembers (setMember k v ms) := by
  induction ms with
  | nil => simp [setMember, canonicalMembers, hk, hv]
  | cons m ms ih =>
    simp only [canonicalMembers, Bool.and_eq_true] at h
    unfold setMember
    split
    · simp [canonicalMembers, hk, hv, h.2]
    · simp [canonicalMembers, h.1, ih h.2]

/-- The members of the document before it is signed. -/
theorem members_unsigned (b : ReceiptBuilder) (keyId : String) :
    (b.payload.insert "key_id" (.str keyId)).members =
      [("api_version", .str receiptApiVersion), ("receipt_id", .str b.receiptId),
        ("chat_id", encodeOption .str b.chatId), ("model", encodeOption .str b.model),
        ("workload_keyset_digest", .str b.workloadKeysetDigest), ("endpoint", .str b.endpoint),
        ("method", .str b.method), ("served_at", encodeU64 b.servedAt),
        ("event_log", .arr (b.events.map ReceiptEvent.toValue)), ("key_id", .str keyId)] := rfl

theorem canonical_unsigned (hcanon : ∀ e ∈ b.events, canonical e.toValue) (keyId : String) :
    canonicalMembers (b.payload.insert "key_id" (.str keyId)).members := by
  have hlog : canonicalItems (b.events.map ReceiptEvent.toValue) := by
    rw [canonicalItems_iff]
    intro v hv
    obtain ⟨e, he, rfl⟩ := List.mem_map.mp hv
    exact hcanon e he
  rw [members_unsigned]
  simp only [canonicalMembers, canonical_encodeOption, canonical, encodeU64, hlog, Bool.and_true]
  decide

/-- Finalization fails only over a missing event, the key, or a field of an event. -/
theorem exists_finalize {key : KeyedPublicKey} (hne : b.events ≠ []) (hm : b.missing? = none)
    (hkey : keys.receiptKeys.find? (·.keyId = keyId) = some key) (halgo : key.algo = algoEd25519)
    (hsign : ∀ input, ∃ signature, keys.signReceipt key.keyId input = .ok signature)
    (hcanon : ∀ e ∈ b.events, canonical e.toValue) : ∃ r, b.finalize keys keyId = .ok r := by
  have hunsigned := canonical_unsigned hcanon key.keyId
  generalize hdoc : b.payload.insert "key_id" (.str key.keyId) = document at hunsigned
  obtain ⟨input, hinput⟩ : ∃ input, jcsBytes (.obj document.members) = .ok input :=
    jcsBytes_of_canonical (by rw [canonical]; exact hunsigned)
  obtain ⟨signature, hsig⟩ := hsign input
  obtain ⟨bytes, hbytes⟩ : ∃ bytes, jcsBytes (.obj (document.insert "signature"
      (.str (hexEncode signature))).members) = .ok bytes := by
    refine jcsBytes_of_canonical ?_
    rw [canonical]
    exact canonicalMembers_setMember (by decide) rfl hunsigned
  have hempty : b.events.isEmpty = false := by simpa using hne
  refine ⟨⟨b.receiptId, b.chatId, b.workloadKeysetDigest, bytes, key.keyId,
    hexEncode signature⟩, ?_⟩
  simp [finalize, hempty, hm, hkey, halgo, hdoc, hinput, hsig, hbytes,
    Except.mapError, bind, Except.bind, pure, Except.pure]

/-- The id of a document hashed to 32 bytes. -/
theorem isSessionId_hexEncode {x : Bytes} (h : x.length = 32) : isSessionId (hexEncode x) := by
  refine decide_eq_true ⟨by rw [length_utf8_hexEncode, h], List.all_eq_true.mpr ?_⟩
  intro c hc
  exact decide_eq_true (lowercase_of_mem_hexEncode hc)

end Lemmas

end AciGateway.Receipt
