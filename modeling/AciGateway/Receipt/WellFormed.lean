import AciGateway.Canonical
import AciGateway.Lib.Sha2
import AciGateway.Receipt.Builder

/-! Whatever calls a receipt builder gets, the receipt it finalizes is well formed, and the
signature belongs to the document and not to a text of it. -/
namespace AciGateway.Receipt

open Octets Json Digest Lists Results ReceiptBuilder List

/-- A call that changes the builder. The fields of an extension event are a JSON object. -/
inductive Call where
  | addRequestReceived (body : Bytes)
  | addRequestForwarded (body : Bytes)
  | addMiddlewareForwarded (body : Bytes)
  | addRouteSelected (targetRouteId : String)
  | addUpstreamVerifiedWithSession (event : UpstreamVerifiedEvent) (sessionId : String)
  | addUpstreamVerifiedFailed (modelId reason : String) (required : Bool)
      (upstreamName : Option String)
  | addResponseReceived (body : Bytes)
  | addResponseReceivedHash (bodyHash : String)
  | addResponseReturned (wire : Bytes)
  | addResponseReturnedHash (bodyHash : String)
  | addExtensionEvent (eventType : String) (fields : Map)
      (unique : uniqueKeys (.obj fields.members))
  | setChatId (chatId : Option String)
  | setUpstreamVerifiedModelId (modelId : Option String)

def Call.isExtension : Call → Bool
  | .addExtensionEvent .. => true
  | _ => false

section Runs

variable (sha256 : Bytes → Bytes)

def Call.apply (b : ReceiptBuilder) : Call → Except ReceiptError ReceiptBuilder
  | .addRequestReceived body => (b.addRequestReceived sha256 body).map Prod.snd
  | .addRequestForwarded body => (b.addRequestForwarded sha256 body).map Prod.snd
  | .addMiddlewareForwarded body => (b.addMiddlewareForwarded sha256 body).map Prod.snd
  | .addRouteSelected targetRouteId => b.addRouteSelected targetRouteId
  | .addUpstreamVerifiedWithSession event sessionId =>
    b.addUpstreamVerifiedWithSession event sessionId
  | .addUpstreamVerifiedFailed modelId reason required upstreamName =>
    b.addUpstreamVerifiedFailed modelId reason required upstreamName
  | .addResponseReceived body => (b.addResponseReceived sha256 body).map Prod.snd
  | .addResponseReceivedHash bodyHash => b.addResponseReceivedHash bodyHash
  | .addResponseReturned wire => (b.addResponseReturned sha256 wire).map Prod.snd
  | .addResponseReturnedHash bodyHash => b.addResponseReturnedHash bodyHash
  | .addExtensionEvent eventType fields _ => b.addExtensionEvent eventType fields
  | .setChatId chatId => .ok (b.setChatId chatId)
  | .setUpstreamVerifiedModelId modelId => .ok (b.setUpstreamVerifiedModelId modelId)

/-- A builder, and for each of its events whether an extension call made it. -/
structure Draft where
  builder : ReceiptBuilder
  extension : List Bool

/-- A call that fails leaves the builder as it was. -/
def Draft.call (d : Draft) (c : Call) : Draft :=
  match c.apply sha256 d.builder with
  | .ok b => ⟨b, d.extension ++
      List.replicate (b.events.length - d.builder.events.length) c.isExtension⟩
  | .error _ => d

def Draft.run (d : Draft) (calls : List Call) : Draft := calls.foldl (Draft.call sha256) d

end Runs

/-- The event types no extension may use. -/
def reservedTypes : List String :=
  [eventRequestReceived, eventRequestForwarded, eventUpstreamVerified, eventResponseReturned]

/-- Fields that say `verified` name a session. -/
def NamesSession (fields : Map) : Prop :=
  (fields.get? "result").bind Value.asStr? = some VerificationResult.verified.asStr →
    ∃ id, fields.get? "session_id" = some (.str id) ∧ ReceiptBuilder.isSessionId id

/-- What holds of an event made by a call, extension or not. -/
structure Made (extension : Bool) (eventType : String) (fields : Map) : Prop where
  session : eventType = eventUpstreamVerified → NamesSession fields
  unique : uniqueKeys (.obj fields.members)
  unreserved : extension → eventType ∉ reservedTypes

/-- What holds of a builder at any time. -/
structure Sound (d : Draft) : Prop where
  first : ∀ e ∈ d.builder.events.head?, e.eventType = eventRequestReceived
  made : List.Forall₂ (fun x (e : ReceiptEvent) => Made x e.eventType e.fields)
    d.extension d.builder.events

variable {sha256 : Bytes → Bytes} {b b' : ReceiptBuilder} {c : Call} {d : Draft}
  {keys : KeyProvider} {keyId eventType k : String} {r : SignedReceipt} {es : List ReceiptEvent}
  (e : ReceiptEvent)

theorem unique_insert {f : Map} {v : Value} (hv : uniqueKeys v)
    (hf : uniqueKeys (.obj f.members)) : uniqueKeys (.obj (f.insert k v).members) := by
  rw [uniqueKeys_obj] at hf ⊢
  refine ⟨Map.unique _, ?_⟩
  intro m hm
  rcases mem_setMember hm with rfl | hm
  · exact hv
  · exact hf.2 m hm

/-- What an appending call does. -/
def Appends (b b' : ReceiptBuilder) (extension : Bool) : Prop :=
  ∃ e : ReceiptEvent, b'.events = b.events ++ [e] ∧
    (b.events = [] → e.eventType = eventRequestReceived) ∧ Made extension e.eventType e.fields

theorem appends_of_append {x : Bool} {fields : Map}
    (hmade : Made x eventType fields) (h : b.append eventType fields = .ok b') :
    Appends b b' x := by
  obtain ⟨hf, rfl⟩ := append_ok h
  refine ⟨⟨eventType, fields, hf⟩, rfl, ?_, hmade⟩
  intro hempty
  by_contra hne
  simp [append, hempty, hne] at h

theorem made_hash (eventType bodyHash : String) (ht : eventType ≠ eventUpstreamVerified) :
    Made false eventType (Map.empty.insert "body_hash" (.str bodyHash)) :=
  ⟨fun h => absurd h ht, unique_insert rfl rfl, nofun⟩

theorem appends_appendHash {bodyHash : String} (ht : eventType ≠ eventUpstreamVerified)
    (h : b.appendHash eventType bodyHash = .ok b') : Appends b b' false :=
  appends_of_append (made_hash eventType bodyHash ht) h

theorem appends_appendBodyHash {body : Bytes} (ht : eventType ≠ eventUpstreamVerified)
    (h : (b.appendBodyHash sha256 eventType body).map Prod.snd = .ok b') : Appends b b' false := by
  simp only [appendBodyHash, map_eq_ok] at h
  obtain ⟨_, ⟨b'', hb, rfl⟩, rfl⟩ := h
  exact appends_appendHash ht hb

theorem appends_withSession {event : UpstreamVerifiedEvent} {id : String}
    (h : b.addUpstreamVerifiedWithSession event id = .ok b') : Appends b b' false := by
  unfold addUpstreamVerifiedWithSession at h
  split at h
  · next hid =>
    refine appends_of_append ⟨?_, ?_, nofun⟩ h
    · exact fun _ _ => ⟨id, by simp, hid⟩
    · exact unique_insert rfl (unique_insert rfl (unique_insert rfl (unique_insert rfl rfl)))
  · cases h

theorem appends_failed {modelId reason : String} {required : Bool} {name : Option String}
    (h : b.addUpstreamVerifiedFailed modelId reason required name = .ok b') :
    Appends b b' false := by
  refine appends_of_append ⟨?_, ?_, nofun⟩ h
  · intro _ hverified
    revert hverified
    cases name.filter (· ≠ "") <;> simp [VerificationResult.asStr, Value.asStr?]
  · cases name.filter (· ≠ "") with
    | none =>
      exact unique_insert rfl (unique_insert rfl (unique_insert rfl (unique_insert rfl rfl)))
    | some n =>
      exact unique_insert rfl
        (unique_insert rfl (unique_insert rfl (unique_insert rfl (unique_insert rfl rfl))))

theorem appends_extension {fields : Map} (hu : uniqueKeys (.obj fields.members))
    (h : b.addExtensionEvent eventType fields = .ok b') : Appends b b' true := by
  unfold addExtensionEvent at h
  split at h
  · cases h
  · next ht =>
    refine appends_of_append ⟨?_, hu, fun _ => ht⟩ h
    intro heq
    exact absurd (by simp [heq]) ht

/-- A call appends one event, or rewrites the model of one, or leaves the log as it is. -/
theorem apply_cases (h : c.apply sha256 b = .ok b') : Appends b b' c.isExtension ∨
    b'.events = b.events ∨ ∃ m, b'.events = setModelId m b.events := by
  cases c with
  | addRequestReceived body => exact .inl (appends_appendBodyHash (by decide) h)
  | addRequestForwarded body => exact .inl (appends_appendBodyHash (by decide) h)
  | addMiddlewareForwarded body => exact .inl (appends_appendBodyHash (by decide) h)
  | addRouteSelected id =>
    refine .inl (appends_of_append ⟨?_, unique_insert rfl rfl, nofun⟩ h)
    intro ht
    exact absurd ht (by decide)
  | addUpstreamVerifiedWithSession event id => exact .inl (appends_withSession h)
  | addUpstreamVerifiedFailed modelId reason required name => exact .inl (appends_failed h)
  | addResponseReceived body => exact .inl (appends_appendBodyHash (by decide) h)
  | addResponseReceivedHash bodyHash => exact .inl (appends_appendHash (by decide) h)
  | addResponseReturned wire => exact .inl (appends_appendBodyHash (by decide) h)
  | addResponseReturnedHash bodyHash => exact .inl (appends_appendHash (by decide) h)
  | addExtensionEvent eventType fields unique => exact .inl (appends_extension unique h)
  | setChatId chatId =>
    cases h
    exact .inr (.inl rfl)
  | setUpstreamVerifiedModelId modelId =>
    cases h
    cases modelId with
    | none => exact .inr (.inl rfl)
    | some m => exact .inr (.inr ⟨m, rfl⟩)

/-- Naming the served model leaves the type, the result and the session of every event. -/
theorem made_setModelId {xs : List Bool} {m : String}
    (h : Forall₂ (fun x (e : ReceiptEvent) => Made x e.eventType e.fields) xs es) :
    Forall₂ (fun x (e : ReceiptEvent) => Made x e.eventType e.fields) xs
      (setModelId m es) := by
  induction h with
  | nil => exact .nil
  | cons he hes ih =>
    unfold setModelId
    split
    · refine .cons ⟨?_, unique_insert rfl he.unique, he.unreserved⟩ hes
      intro ht hverified
      have hget : ∀ k, k ≠ "model_id" → ∀ f : Map, (f.insert "model_id" (.str m)).get? k = f.get? k :=
        fun k hk f => by rw [Map.get?_insert, if_neg hk]
      rw [hget _ (by decide)] at hverified
      obtain ⟨id, hid, hs⟩ := he.session ht hverified
      exact ⟨id, by rw [hget _ (by decide), hid], hs⟩
    · exact .cons he ih

theorem head?_setModelId {m t : String} (h : ∀ e ∈ es.head?, e.eventType = t) :
    ∀ e ∈ (setModelId m es).head?, e.eventType = t := by
  cases es with
  | nil => exact h
  | cons e es =>
    have ht := h e rfl
    unfold setModelId
    split <;> (intro e' he'; cases he'; exact ht)

theorem length_setModelId (m : String) (es : List ReceiptEvent) :
    (setModelId m es).length = es.length := by
  induction es with
  | nil => rfl
  | cons e es ih =>
    unfold setModelId
    split
    · rfl
    · rw [length_cons, length_cons, ih]

theorem sound_call (h : Sound d) (c : Call) : Sound (d.call sha256 c) := by
  unfold Draft.call
  split
  · next b' hok =>
    rcases apply_cases hok with ⟨e, hev, hfirst, hmade⟩ | hev | ⟨m, hev⟩
    · have hone : b'.events.length - d.builder.events.length = 1 := by simp [hev]
      refine ⟨?_, ?_⟩
      · rw [hev]
        cases hd : d.builder.events with
        | nil =>
          intro e' he'
          cases he'
          exact hfirst hd
        | cons e₀ es =>
          have := h.first
          rw [hd] at this
          exact this
      · rw [hone, hev]
        exact rel_append h.made (.cons hmade .nil)
    · refine ⟨by rw [hev]; exact h.first, ?_⟩
      simpa [hev] using h.made
    · refine ⟨by rw [hev]; exact head?_setModelId h.first, ?_⟩
      simpa [hev, length_setModelId] using made_setModelId h.made
  · exact h

theorem sound_run (h : Sound d) (calls : List Call) : Sound (d.run sha256 calls) := by
  induction calls generalizing d with
  | nil => exact h
  | cons c cs ih => exact ih (sound_call h c)

/-! The log of a document, as its members say it. -/

def memberStr (v : Value) (k : String) : Option String := (v.get? k).bind Value.asStr?

def memberBool (v : Value) (k : String) : Option Bool := (v.get? k).bind Value.asBool?

/-- A log starts with the request and ends up answered. It is forwarded unless a required
verification failed, and names a session wherever it says `verified`. -/
structure WellFormedLog (log : List Value) : Prop where
  first : log.head?.bind (memberStr · "type") = some eventRequestReceived
  returned : ∃ e ∈ log, memberStr e "type" = some eventResponseReturned
  forwarded : (∃ e ∈ log, memberStr e "type" = some eventRequestForwarded) ∨
    ∃ e ∈ log, memberStr e "type" = some eventUpstreamVerified ∧
      memberStr e "result" = some VerificationResult.failed.asStr ∧
      memberBool e "required" = some true
  sessions : ∀ e ∈ log, memberStr e "type" = some eventUpstreamVerified →
    memberStr e "result" = some VerificationResult.verified.asStr →
    ∃ id, memberStr e "session_id" = some id ∧ ReceiptBuilder.isSessionId id

theorem memberStr_type : memberStr e.toValue "type" = some e.eventType := by
  rw [memberStr, get?_toValue, e.untyped]
  rfl

theorem get?_toValue_of_ne (hk : k ≠ "type") : e.toValue.get? k = e.fields.get? k := by
  rw [get?_toValue, if_neg hk, Option.or_none]

theorem exists_type {t : String} (h : b.events.any (·.eventType = t)) :
    ∃ e ∈ b.events.map ReceiptEvent.toValue, memberStr e "type" = some t := by
  obtain ⟨e, he, ht⟩ := any_eq_true.mp h
  exact ⟨e.toValue, mem_map_of_mem he, by rw [memberStr_type, of_decide_eq_true ht]⟩

theorem wellFormedLog (h : Sound d) (hne : d.builder.events ≠ []) (hm : d.builder.missing? = none) :
    WellFormedLog (d.builder.events.map ReceiptEvent.toValue) := by
  have hreq : ∀ t ∈ [eventRequestReceived, eventRequestForwarded, eventResponseReturned],
      (t = eventRequestForwarded ∧ d.builder.refused) ∨ d.builder.events.any (·.eventType = t) := by
    intro t ht
    have := find?_eq_none.mp hm t ht
    simp only [decide_eq_true_eq, not_and, not_not] at this
    by_cases hr : t = eventRequestForwarded ∧ d.builder.refused
    · exact .inl hr
    · exact .inr (this (fun ht hr' => hr ⟨ht, hr'⟩))
  refine ⟨?_, ?_, ?_, ?_⟩
  · cases hd : d.builder.events with
    | nil => exact absurd hd hne
    | cons e es =>
      have ht := h.first e (by rw [hd]; rfl)
      rw [map_cons, head?_cons, Option.bind_some, memberStr_type, ht]
  · rcases hreq eventResponseReturned (by simp) with ⟨he, -⟩ | hany
    · exact absurd he (by decide)
    · exact exists_type hany
  · rcases hreq eventRequestForwarded (by simp) with ⟨-, hr⟩ | hany
    · obtain ⟨e, he, hr⟩ := any_eq_true.mp hr
      obtain ⟨ht, hresult, hrequired⟩ := of_decide_eq_true hr
      refine .inr ⟨e.toValue, mem_map_of_mem he, by rw [memberStr_type, ht], ?_, ?_⟩
      · rw [memberStr, get?_toValue_of_ne e (by decide), hresult]
      · rw [memberBool, get?_toValue_of_ne e (by decide), hrequired]
    · exact .inl (exists_type hany)
  · intro v hv ht hresult
    obtain ⟨e, he, rfl⟩ := mem_map.mp hv
    obtain ⟨x, -, hmade⟩ := exists_left_of_mem h.made he
    rw [memberStr_type, Option.some.injEq] at ht
    rw [memberStr, get?_toValue_of_ne e (by decide)] at hresult
    obtain ⟨id, hid, hs⟩ := hmade.session ht hresult
    exact ⟨id, by rw [memberStr, get?_toValue_of_ne e (by decide), hid]; rfl, hs⟩

/-! The signature. -/

/-- The document without its signature. -/
def withoutSignature : Value → Value
  | .obj ms => .obj (swapRemove "signature" ms)
  | v => v

/-- The bytes a receipt signature covers. -/
def receiptSigningInput (document : Value) : Except JcsError Bytes :=
  jcsBytes (withoutSignature document)

section Signature

-- Ed25519 verification: public key, message and signature.
variable (verifyStrict : Bytes → Bytes → Bytes → Bool)

def verifyReceiptSignature (key : KeyedPublicKey) (payload signature : Bytes) : Bool :=
  if key.algo ≠ algoEd25519 then false
  else match hexDecode key.publicKeyHex with
    | some publicKey => publicKey.length = 32 ∧ signature.length = 64 ∧
        verifyStrict publicKey payload signature
    | none => false

/-- A signature in a served receipt, checked against the document a verifier parsed. -/
def receiptVerifies (key : KeyedPublicKey) (document : Value) (signatureHex : String) : Bool :=
  match receiptSigningInput document, hexDecode signatureHex with
  | .ok input, some signature => verifyReceiptSignature verifyStrict key input signature
  | _, _ => false

/-- An ideal signature verifies for the message it was made of, and for no other. -/
def IdealSignature (key : KeyedPublicKey) (message signature : Bytes) : Prop :=
  ∀ m, verifyReceiptSignature verifyStrict key m signature ↔ m = message

end Signature

variable {verifyStrict : Bytes → Bytes → Bytes → Bool} {key : KeyedPublicKey} {v w : Value}

theorem uniqueKeys_withoutSignature (h : uniqueKeys v) : uniqueKeys (withoutSignature v) := by
  cases v with
  | obj ms => exact uniqueKeys_swapRemove h
  | _ => exact h

theorem same_withoutSignature (hv : uniqueKeys v) (hw : uniqueKeys w) (h : same v w) :
    same (withoutSignature v) (withoutSignature w) := by
  cases v with
  | obj ms =>
    cases w with
    | obj ns => exact same_swapRemove (uniqueKeys_obj.mp hv).1 (uniqueKeys_obj.mp hw).1 h
    | _ => cases h
  | _ => cases w <;> exact h

theorem uniqueKeys_toValue {e : ReceiptEvent} (h : uniqueKeys (.obj e.fields.members)) :
    uniqueKeys e.toValue := by
  refine uniqueKeys_obj.mpr ⟨Map.unique _, ?_⟩
  intro m hm
  rcases Map.mem_extend hm with hm | hm
  · exact (uniqueKeys_obj.mp h).2 m hm
  · rw [mem_singleton.mp hm]
    rfl

theorem uniqueKeys_unsigned (h : ∀ e ∈ b.events, uniqueKeys (.obj e.fields.members))
    (key : KeyedPublicKey) : uniqueKeys (.obj (b.unsigned key).members) := by
  have hlog : uniqueKeysItems (b.events.map ReceiptEvent.toValue) := by
    rw [uniqueKeysItems_iff]
    intro v hv
    obtain ⟨e, he, rfl⟩ := mem_map.mp hv
    exact uniqueKeys_toValue (h e he)
  have hoption : ∀ x : Option String, uniqueKeys (encodeOption .str x) := by
    intro x
    cases x <;> rfl
  refine uniqueKeys_obj.mpr ⟨Map.unique _, ?_⟩
  rw [unsigned, members_unsigned]
  simp [uniqueKeys, hoption, encodeU64, hlog]

theorem get?_signed (b : ReceiptBuilder) (key : KeyedPublicKey) (s : String) :
    Value.get? "event_log" (.obj ((b.unsigned key).insert "signature" (.str s)).members) =
      some (.arr (b.events.map ReceiptEvent.toValue)) := by
  have hget := Map.get?_insert (b.unsigned key) "signature" (.str s) "event_log"
  exact hget.trans rfl

theorem receiptVerifies_iff {input signature : Bytes} {s : String}
    (hs : s = hexEncode signature) (hideal : IdealSignature verifyStrict key input signature) :
    receiptVerifies verifyStrict key v s ↔ receiptSigningInput v = .ok input := by
  subst hs
  unfold receiptVerifies
  cases receiptSigningInput v with
  | error e => simp
  | ok m => simpa using hideal m

/-- Whatever calls a builder got, the document it signs is well formed, with no event of a
reserved type from an extension call. The signature verifies for a text exactly when what the
text says differs from the document in nothing but member order and the signature. -/
theorem finalized_receipt (calls : List Call) (receiptId : String) (chatId model : Option String)
    (workloadKeysetDigest endpoint method : String) (servedAt : U64)
    (hd : d = Draft.run sha256 ⟨.new receiptId chatId model workloadKeysetDigest endpoint method
      servedAt, []⟩ calls)
    (h : d.builder.finalize keys keyId = .ok r)
    (hkey : keys.receiptKeys.find? (·.keyId = keyId) = some key)
    (hideal : ∀ input signature, keys.signReceipt key.keyId input = .ok signature →
      r.signatureHex = hexEncode signature → IdealSignature verifyStrict key input signature) :
    ∃ document log, uniqueKeys document ∧ jcsBytes document = .ok r.document ∧
      memberStr document "signature" = some r.signatureHex ∧
      document.get? "event_log" = some (.arr log) ∧ WellFormedLog log ∧
      List.Forall₂ (fun (x : Bool) e => x = true → ∀ t ∈ reservedTypes,
        memberStr e "type" ≠ some t) d.extension log ∧
      ∀ round text w, fromSlice round text = some w →
        (same w document → receiptVerifies verifyStrict key w r.signatureHex) ∧
        (receiptVerifies verifyStrict key w r.signatureHex ↔
          same (withoutSignature w) (withoutSignature document)) := by
  have hsound : Sound d := by
    rw [hd]
    exact sound_run ⟨by rintro e ⟨⟩, .nil⟩ calls
  obtain ⟨hne, hm, -, -, key', input, signature, hkey', -, hinput, hsign, hhex, hbytes⟩ :=
    finalize_spec h
  obtain rfl := Option.some.inj (hkey'.symm.trans hkey)
  have hunique : ∀ e ∈ d.builder.events, uniqueKeys (.obj e.fields.members) := by
    intro e he
    obtain ⟨x, -, hmade⟩ := exists_left_of_mem hsound.made he
    exact hmade.unique
  have hu := unique_insert (k := "signature") (v := .str r.signatureHex) rfl
    (uniqueKeys_unsigned hunique key')
  refine ⟨_, d.builder.events.map ReceiptEvent.toValue, hu, hbytes, ?_, ?_,
    wellFormedLog hsound hne hm, ?_, ?_⟩
  · rfl
  · exact get?_signed d.builder key' r.signatureHex
  · rw [forall₂_map_right_iff]
    refine hsound.made.imp ?_
    intro x e hmade hx t ht htype
    rw [memberStr_type, Option.some.injEq] at htype
    exact hmade.unreserved hx (htype ▸ ht)
  · intro round text w hw
    have hwu := uniqueKeys_of_fromSlice hw
    have hiff : receiptVerifies verifyStrict key' w r.signatureHex ↔
        same (withoutSignature w) (.obj (d.builder.unsigned key').members) := by
      rw [receiptVerifies_iff hhex (hideal input signature hsign hhex), receiptSigningInput,
        jcsBytes_eq_iff_same (uniqueKeys_withoutSignature hwu) (uniqueKeys_unsigned hunique key')
          hinput]
    refine ⟨?_, hiff⟩
    intro hsame
    have := same_withoutSignature hwu hu hsame
    exact hiff.mpr this

/-- A refused request: its log has no `request.forwarded`. -/
def refusalCalls : List Call :=
  [.addRequestReceived [], .addUpstreamVerifiedFailed "m" "expired" true none,
    .addExtensionEvent eventRequestForwarded Map.empty rfl,
    .addExtensionEvent "x.note" Map.empty rfl, .addResponseReturned []]

def signOnlyKey : KeyedPublicKey := ⟨"k", algoEd25519, hexEncode (List.replicate 32 0)⟩

/-- The signature of one message, and another one for all others. -/
def signOnly (message : Bytes) : KeyProvider where
  receiptKeys := [signOnlyKey]
  signReceipt _ m := .ok (List.replicate 64 (if m = message then 0 else 1))

/-- A log that can be finalized can be signed ideally. -/
theorem exists_ideal_receipt (hne : b.events ≠ []) (hm : b.missing? = none)
    (hcanon : ∀ e ∈ b.events, canonical e.toValue) : ∃ message r,
    b.finalize (signOnly message) "k" = .ok r ∧
      ∀ input signature, (signOnly message).signReceipt "k" input = .ok signature →
        r.signatureHex = hexEncode signature →
        IdealSignature (fun _ m _ => m = message) signOnlyKey input signature := by
  have hunsigned : canonical (.obj (b.unsigned signOnlyKey).members) :=
    canonical_unsigned hcanon "k"
  obtain ⟨message, hmessage⟩ := jcsBytes_of_canonical hunsigned
  obtain ⟨r, hr⟩ : ∃ r, b.finalize (signOnly message) "k" = .ok r :=
    exists_finalize hne hm rfl rfl (fun _ => ⟨_, rfl⟩) hcanon
  refine ⟨message, r, hr, ?_⟩
  intro input signature hsign hhex
  -- The receipt carries the signature of the message, which no other message has.
  obtain ⟨-, -, -, -, key, input', signature', hkey, -, hinput', hsign', hhex', -⟩ :=
    finalize_spec hr
  obtain rfl : signOnlyKey = key := Option.some.inj hkey
  obtain rfl : message = input' := Except.ok.inj (hmessage.symm.trans hinput')
  obtain rfl := hexEncode_injective (hhex.symm.trans hhex')
  have hzero : signature = replicate 64 0 := by
    simpa [signOnly] using hsign'.symm
  have hinput : input = message := by
    by_contra hne
    simp [signOnly, hne, hzero] at hsign
  intro m
  simp [verifyReceiptSignature, signOnlyKey, hzero, hinput]

variable (sha256) in
def refusalDraft : Draft := Draft.run sha256
  ⟨.new "r" none none "d" "/v1/chat/completions" "POST" 5, []⟩ refusalCalls

theorem canonical_refusal : ∀ e ∈ (refusalDraft sha256).builder.events, canonical e.toValue := by
  have hall : (refusalDraft sha256).builder.events.all (fun e => canonical e.toValue) := rfl
  exact all_eq_true.mp hall

theorem finalized_receipt_refusal : ∃ (keys : KeyProvider) (r : SignedReceipt)
    (verifyStrict : Bytes → Bytes → Bytes → Bool) (key : KeyedPublicKey),
    (refusalDraft Sha2.sha256).builder.finalize keys "k" = .ok r ∧
    ∃ document log, jcsBytes document = .ok r.document ∧
      document.get? "event_log" = some (.arr log) ∧ WellFormedLog log ∧
      ∀ round text w, fromSlice round text = some w → same w document →
        receiptVerifies verifyStrict key w r.signatureHex := by
  obtain ⟨message, r, hr, hideal⟩ := exists_ideal_receipt
    (cons_ne_nil _ _) rfl canonical_refusal
  obtain ⟨document, log, -, hbytes, -, hlog, hwell, -, htexts⟩ := finalized_receipt refusalCalls
    "r" none none "d" "/v1/chat/completions" "POST" 5 rfl hr rfl hideal
  exact ⟨_, r, _, _, hr, document, log, hbytes, hlog, hwell,
    fun round text w hw => (htexts round text w hw).1⟩

end AciGateway.Receipt
