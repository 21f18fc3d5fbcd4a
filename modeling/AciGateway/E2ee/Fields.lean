import AciGateway.Canonical
import AciGateway.E2ee.Replay
import AciGateway.Lib.JsonVisit
import AciGateway.Lib.Sealing

/-! Decryption of the encrypted fields of a request. Every field is bound to its path and to
the request through the associated data of its ciphertext. -/
namespace AciGateway.E2ee

open Octets Json Digest Results

def completionsPath : String := "/v1/completions"

def embeddingsPath : String := "/v1/embeddings"

def E2eeAadMode.isAci : E2eeAadMode → Bool
  | .aciV2 => true
  | .legacyV1 => false

inductive E2eeDecryptor where
  | aciV2 (keyId : String)
  | legacy (signingAlgo : String)

/-- Decryption of the key provider, given the key, the ciphertext and the associated data. -/
structure KeyProvider where
  decryptE2ee : String → String → Bytes → Option Bytes
  decryptLegacyE2ee : String → String → Option Bytes → Option Bytes

/-- The keys and the request the fields belong to. -/
structure FieldCrypto where
  keys : KeyProvider
  decryptor : E2eeDecryptor
  algo : String
  aadMode : E2eeAadMode
  model : String
  nonce : Option String
  timestamp : Option U64

def aciRequestAad (algo model field nonce : String) (timestamp : U64) : Except E2eeError Bytes :=
  (jcsBytes (.obj [("purpose", .str "aci.e2ee.request.v2"), ("algo", .str algo),
    ("model", .str model), ("field", .str field), ("nonce", .str nonce),
    ("ts", .num (.posInt timestamp))])).mapError (fun _ => .decryptionFailed)

namespace FieldCrypto

variable (crypto : FieldCrypto)

/-- The request nonce and timestamp, required whenever the mode builds associated data. -/
def nonceTs : Except E2eeError (String × U64) := do
  let nonce ← okOr crypto.nonce .decryptionFailed
  let timestamp ← okOr crypto.timestamp .decryptionFailed
  pure (nonce, timestamp)

def requestFieldAad (field : String) : Except E2eeError (Option Bytes) :=
  match crypto.aadMode with
  | .aciV2 => do
    let nonceTs ← crypto.nonceTs
    let aad ← aciRequestAad crypto.algo crypto.model field nonceTs.1 nonceTs.2
    pure (some aad)
  | .legacyV1 => .ok none

def decryptE2eeField (ciphertextHex : String) (aad : Option Bytes) : Except E2eeError Bytes :=
  match crypto.decryptor with
  | .aciV2 keyId => do
    let aad ← okOr aad .decryptionFailed
    okOr (crypto.keys.decryptE2ee keyId ciphertextHex aad) .decryptionFailed
  | .legacy signingAlgo =>
    okOr (crypto.keys.decryptLegacyE2ee signingAlgo ciphertextHex aad) .decryptionFailed

/-- The text of the ciphertext at a field. -/
def decryptText (field ciphertextHex : String) : Except E2eeError String := do
  let aad ← crypto.requestFieldAad field
  let plaintext ← crypto.decryptE2eeField ciphertextHex aad
  okOr (ofUtf8? plaintext) .decryptionFailed

/-- A string is replaced by what `restore` makes of its text; anything else passes through. -/
def decryptTo (restore : String → Value) (field : String) : Visit E2eeError
  | .str ciphertextHex => (crypto.decryptText field ciphertextHex).map (fun t => (1, restore t))
  | v => .ok (0, v)

def decryptString (field : String) : Visit E2eeError := crypto.decryptTo .str field

def decryptContentPartField (key field : String) : Visit E2eeError :=
  visitObj key (crypto.decryptString field)

def decryptContentPartNested (wrapperKey innerKey field : String) : Visit E2eeError :=
  visitObj wrapperKey (visitObj innerKey (crypto.decryptString field))

def decryptContentPart (messageIndex contentIndex : Nat) (part : Value) :
    Except E2eeError (Nat × Value) :=
  let location := "messages." ++ toString messageIndex ++ ".content." ++ toString contentIndex
  match (part.get? "type").bind Value.asStr? with
  | some "text" => crypto.decryptContentPartField "text" (location ++ ".text") part
  | some "image_url" =>
    if crypto.aadMode.isAci then
      crypto.decryptContentPartNested "image_url" "url" (location ++ ".image_url.url") part
    else .ok (0, part)
  | some "input_audio" =>
    if crypto.aadMode.isAci then
      crypto.decryptContentPartNested "input_audio" "data" (location ++ ".input_audio.data") part
    else .ok (0, part)
  | _ => .ok (0, part)

section

-- How the JSON reader rounds numbers that are not integers.
variable (round : Bytes → Option FloatText)

def decryptedChatContentValue (plaintext : String) : Value :=
  match fromSlice round (utf8 plaintext) with
  | some (.arr items) => .arr items
  | _ => .str plaintext

def decryptContentValue (messageIndex : Nat) : Visit E2eeError
  | .str ciphertextHex =>
    crypto.decryptTo (decryptedChatContentValue round)
      ("messages." ++ toString messageIndex ++ ".content") (.str ciphertextHex)
  | .arr items => visitArr (crypto.decryptContentPart messageIndex) (.arr items)
  | v => .ok (0, v)

/-- The strings of a prompt or an embedding input: the value itself, or its items. -/
def decryptStrings (name : String) : Visit E2eeError
  | .str ciphertextHex => crypto.decryptString name (.str ciphertextHex)
  | .arr items =>
    visitArr (fun index => crypto.decryptString (name ++ "." ++ toString index)) (.arr items)
  | v => .ok (0, v)

/-- A request without an encrypted field is refused, as is one without the member that would
hold it. -/
def someDecrypted (r : Except E2eeError (Nat × Value)) : Except E2eeError Value := do
  let (count, payload) ← r
  ensure (count ≠ 0) .decryptionFailed
  pure payload

def decryptCompletionPrompt (payload : Value) : Except E2eeError Value :=
  someDecrypted (visitObj "prompt" (crypto.decryptStrings "prompt") payload)

def decryptEmbeddingInput (payload : Value) : Except E2eeError Value :=
  someDecrypted (visitObj "input" (crypto.decryptStrings "input") payload)

def decryptRequestPayload (endpointPath : String) (payload : Value) : Except E2eeError Value :=
  if endpointPath = completionsPath then crypto.decryptCompletionPrompt payload
  else if endpointPath = embeddingsPath then crypto.decryptEmbeddingInput payload
  else someDecrypted (visitObj "messages"
    (visitArr (fun m => visitObj "content" (crypto.decryptContentValue round m))) payload)

end

end FieldCrypto

/-! The client's side: the request locations of the protocol, and their encryption. -/

section Client

-- The ciphertext of a text at a path.
variable (encrypt : String → String → String)

def encryptAt (path : String) : Value → Value
  | .str s => .str (encrypt path s)
  | v => v

def encryptPart (m c : Nat) (part : Value) : Value :=
  let path := "messages." ++ toString m ++ ".content." ++ toString c
  match (part.get? "type").bind Value.asStr? with
  | some "text" => mapObj "text" (encryptAt encrypt (path ++ ".text")) part
  | some "image_url" =>
    mapObj "image_url" (mapObj "url" (encryptAt encrypt (path ++ ".image_url.url"))) part
  | some "input_audio" =>
    mapObj "input_audio" (mapObj "data" (encryptAt encrypt (path ++ ".input_audio.data"))) part
  | _ => part

def encryptContent (m : Nat) : Value → Value
  | .str s => encryptAt encrypt ("messages." ++ toString m ++ ".content") (.str s)
  | v => mapArr (encryptPart encrypt m) v

def encryptStrings (name : String) : Value → Value
  | .str s => encryptAt encrypt name (.str s)
  | v => mapArr (fun i => encryptAt encrypt (name ++ "." ++ toString i)) v

/-- The request with every location of the protocol encrypted. -/
def encryptRequest (endpoint : String) : Value → Value :=
  if endpoint = completionsPath then mapObj "prompt" (encryptStrings encrypt "prompt")
  else if endpoint = embeddingsPath then mapObj "input" (encryptStrings encrypt "input")
  else mapObj "messages" (mapArr (fun m => mapObj "content" (encryptContent encrypt m)))

end Client

def placeAt (path : String) : Value → List Place
  | .str s => [(path, s)]
  | _ => []

def partPlaces (m c : Nat) (part : Value) : List Place :=
  let path := "messages." ++ toString m ++ ".content." ++ toString c
  match (part.get? "type").bind Value.asStr? with
  | some "text" => placesObj "text" (placeAt (path ++ ".text")) part
  | some "image_url" =>
    placesObj "image_url" (placesObj "url" (placeAt (path ++ ".image_url.url"))) part
  | some "input_audio" =>
    placesObj "input_audio" (placesObj "data" (placeAt (path ++ ".input_audio.data"))) part
  | _ => []

def contentPlaces (m : Nat) : Value → List Place
  | .str s => placeAt ("messages." ++ toString m ++ ".content") (.str s)
  | v => placesArr (partPlaces m) v

def stringPlaces (name : String) : Value → List Place
  | .str s => placeAt name (.str s)
  | v => placesArr (fun i => placeAt (name ++ "." ++ toString i)) v

/-- The request locations of the protocol with the texts that stand there. -/
def requestPlaces (endpoint : String) : Value → List Place :=
  if endpoint = completionsPath then placesObj "prompt" (stringPlaces "prompt")
  else if endpoint = embeddingsPath then placesObj "input" (stringPlaces "input")
  else placesObj "messages" (placesArr (fun m => placesObj "content" (contentPlaces m)))

/-- The request with the content of each message rewritten; only a chat request has any. -/
def mapContents (g : Nat → Value → Value) (endpoint : String) : Value → Value :=
  if endpoint = completionsPath then id
  else if endpoint = embeddingsPath then id
  else mapObj "messages" (mapArr (fun m => mapObj "content" (g m)))

/-- A client may serialize the structured content of a message, to encrypt it as a whole. -/
def serializeContent (whole : Nat → Value → Bool) (m : Nat) (content : Value) : Value :=
  if whole m content then .str ((ofUtf8? (print content)).getD "") else content

def mapStr (restore : String → Value) : Value → Value
  | .str s => restore s
  | v => v

/-- What decryption gives back: a content text that reads as a JSON array is that array. -/
def restoredRequest (round : Bytes → Option FloatText) (endpoint : String) : Value → Value :=
  mapContents (fun _ => mapStr (FieldCrypto.decryptedChatContentValue round)) endpoint

/-- What the associated data of a request names besides the field. -/
structure RequestContext where
  algo : String
  model : String
  nonce : String
  timestamp : U64
  deriving DecidableEq

def RequestContext.aad (r : RequestContext) (field : String) : Except E2eeError Bytes :=
  aciRequestAad r.algo r.model field r.nonce r.timestamp

/-- The field decryption of a version 2 request. -/
def RequestContext.crypto (r : RequestContext) (keys : KeyProvider) (keyId : String) :
    FieldCrypto where
  keys := keys
  decryptor := .aciV2 keyId
  algo := r.algo
  aadMode := .aciV2
  model := r.model
  nonce := some r.nonce
  timestamp := some r.timestamp

variable {crypto : FieldCrypto} {round : Bytes → Option FloatText} {keys : KeyProvider}
  {r r' : RequestContext} {endpoint path path' keyId name : String} {payload : Value} {a : Bytes}
  {m : Nat}

/-! The associated data determines the request and the field. -/

def aadObject (r : RequestContext) (field : String) : Value :=
  .obj [("purpose", .str "aci.e2ee.request.v2"), ("algo", .str r.algo), ("model", .str r.model),
    ("field", .str field), ("nonce", .str r.nonce), ("ts", .num (.posInt r.timestamp))]

theorem aad_eq_ok : r.aad path = .ok a ↔ jcsBytes (aadObject r path) = .ok a := mapError_eq_ok

theorem exists_aad (r : RequestContext) (path : String) : ∃ a, r.aad path = .ok a := by
  obtain ⟨a, ha⟩ := jcsBytes_of_canonical (show canonical (aadObject r path) from rfl)
  exact ⟨a, aad_eq_ok.mpr ha⟩

theorem uniqueKeys_aadObject (r : RequestContext) (path : String) :
    uniqueKeys (aadObject r path) := rfl

theorem aad_inj (h : r.aad path = .ok a) (h' : r'.aad path' = .ok a) : r = r' ∧ path = path' := by
  have hsame := (jcsBytes_eq_iff_same (uniqueKeys_aadObject r path)
    (uniqueKeys_aadObject r' path') (aad_eq_ok.mp h')).mp (aad_eq_ok.mp h)
  have halgo := same_lookup "algo" hsame rfl rfl
  have hmodel := same_lookup "model" hsame rfl rfl
  have hpath := same_lookup "field" hsame rfl rfl
  have hnonce := same_lookup "nonce" hsame rfl rfl
  have hts := same_lookup "ts" hsame rfl rfl
  obtain ⟨algo, model, nonce, timestamp⟩ := r
  simp_all [same]

/-! One field. -/

open FieldCrypto

theorem decryptText_eq (c : String) : (r.crypto keys keyId).decryptText path c = (do
    let a ← r.aad path
    let p ← okOr (keys.decryptE2ee keyId c a) .decryptionFailed
    okOr (ofUtf8? p) .decryptionFailed) := by
  rw [RequestContext.aad]
  unfold decryptText requestFieldAad decryptE2eeField
  cases h : aciRequestAad r.algo r.model path r.nonce r.timestamp <;>
    simp [RequestContext.crypto, nonceTs, okOr, bind, Except.bind, pure, Except.pure, h]

theorem decryptText_eq_ok {c t : String} : (r.crypto keys keyId).decryptText path c = .ok t ↔
    ∃ a, r.aad path = .ok a ∧ ∃ p, keys.decryptE2ee keyId c a = some p ∧ ofUtf8? p = some t := by
  simp only [decryptText_eq, bind_eq_ok, okOr_eq_ok]

theorem decryptText_eq_error {c : String} {e : E2eeError}
    (h : (r.crypto keys keyId).decryptText path c = .error e) : e = .decryptionFailed := by
  obtain ⟨a, ha⟩ := exists_aad r path
  simp only [decryptText_eq, ha, bind_eq_error, okOr_eq_error] at h
  rcases h with h | ⟨_, -, ⟨-, rfl⟩ | ⟨_, -, -, rfl⟩⟩
  · cases h
  · rfl
  · rfl

/-! The walk of a whole request. -/

/-- The walk behind `decryptRequestPayload`, which also refuses to restore nothing. -/
def requestWalk (crypto : FieldCrypto) (round : Bytes → Option FloatText) (endpoint : String) :
    Visit E2eeError :=
  if endpoint = completionsPath then visitObj "prompt" (crypto.decryptStrings "prompt")
  else if endpoint = embeddingsPath then visitObj "input" (crypto.decryptStrings "input")
  else visitObj "messages"
    (visitArr (fun m => visitObj "content" (crypto.decryptContentValue round m)))

theorem decryptRequestPayload_eq : crypto.decryptRequestPayload round endpoint payload =
    someDecrypted (requestWalk crypto round endpoint payload) := by
  unfold decryptRequestPayload requestWalk
  split_ifs <;> rfl

section Opens

/-- A place of the request that decrypts. -/
def Opened (crypto : FieldCrypto) (x : Place) : Prop := ∃ t, crypto.decryptText x.1 x.2 = .ok t

variable (keys keyId round r)

theorem opens_string (restore : String → Value) (path : String) :
    Opens (Opened (r.crypto keys keyId)) .decryptionFailed
      ((r.crypto keys keyId).decryptTo restore path) (placeAt path) where
  ok := by
    intro v s h x hx
    cases v with
    | str c =>
      obtain ⟨t, ht, -⟩ := map_eq_ok.mp h
      rw [List.mem_singleton.mp hx]
      exact ⟨t, ht⟩
    | _ => cases hx
  error := by
    intro v e h
    cases v with
    | str c => exact decryptText_eq_error (map_eq_error.mp h)
    | _ => cases h

theorem opens_part (m c : Nat) : Opens (Opened (r.crypto keys keyId)) .decryptionFailed
    ((r.crypto keys keyId).decryptContentPart m c) (partPlaces m c) := by
  apply opens_of_choice
  intro part
  unfold decryptContentPart partPlaces
  split
  · exact ⟨_, _, opens_obj (opens_string keys r keyId _ _), rfl, rfl⟩
  · exact ⟨_, _, opens_obj (opens_obj (opens_string keys r keyId _ _)), rfl, rfl⟩
  · exact ⟨_, _, opens_obj (opens_obj (opens_string keys r keyId _ _)), rfl, rfl⟩
  · exact ⟨_, _, opens_skip, rfl, rfl⟩

theorem opens_content (m : Nat) : Opens (Opened (r.crypto keys keyId)) .decryptionFailed
    ((r.crypto keys keyId).decryptContentValue round m) (contentPlaces m) := by
  apply opens_of_choice
  intro content
  cases content with
  | str c => exact ⟨_, _, opens_string keys r keyId _ _, rfl, rfl⟩
  | arr items => exact ⟨_, _, opens_arr (opens_part keys r keyId m), rfl, rfl⟩
  | _ => exact ⟨_, _, opens_skip, rfl, rfl⟩

theorem opens_strings (name : String) : Opens (Opened (r.crypto keys keyId)) .decryptionFailed
    ((r.crypto keys keyId).decryptStrings name) (stringPlaces name) := by
  apply opens_of_choice
  intro v
  cases v with
  | str c => exact ⟨_, _, opens_string keys r keyId _ _, rfl, rfl⟩
  | arr items => exact ⟨_, _, opens_arr (fun _ => opens_string keys r keyId _ _), rfl, rfl⟩
  | _ => exact ⟨_, _, opens_skip, rfl, rfl⟩

theorem opens_request (endpoint : String) : Opens (Opened (r.crypto keys keyId)) .decryptionFailed
    (requestWalk (r.crypto keys keyId) round endpoint) (requestPlaces endpoint) := by
  unfold requestWalk requestPlaces
  split_ifs
  · exact opens_obj (opens_strings keys r keyId _)
  · exact opens_obj (opens_strings keys r keyId _)
  · exact opens_obj (opens_arr (fun m => opens_obj (opens_content round keys r keyId m)))

end Opens

section Restores

-- The client seals each text for its path.
variable {Sealed : String → Bytes → Bytes → String → Prop}
  (ideal : Sealing.Ideal keys.decryptE2ee Sealed) {encrypt : String → String → String}
  (hseal : ∀ path s a, r.aad path = .ok a → Sealed keyId a (utf8 s) (encrypt path s))

include ideal hseal

theorem decryptText_encrypt (path s : String) :
    (r.crypto keys keyId).decryptText path (encrypt path s) = .ok s := by
  obtain ⟨a, ha⟩ := exists_aad r path
  exact decryptText_eq_ok.mpr ⟨a, ha, utf8 s, ideal.opens (hseal path s a ha), ofUtf8?_utf8 s⟩

theorem restores_string (restore : String → Value) (path : String) :
    Restores ((r.crypto keys keyId).decryptTo restore path) (encryptAt encrypt path)
      (mapStr restore) (placeAt path) := by
  intro v
  cases v with
  | str s =>
    rw [encryptAt, decryptTo, decryptText_encrypt ideal hseal]
    rfl
  | _ => rfl

theorem restores_field (path : String) : Restores ((r.crypto keys keyId).decryptString path)
    (encryptAt encrypt path) id (placeAt path) := by
  have hid : mapStr Value.str = id := by
    funext v
    cases v <;> rfl
  exact hid ▸ restores_string ideal hseal Value.str path

theorem restores_fieldObj (k path : String) :
    Restores (visitObj k ((r.crypto keys keyId).decryptString path))
      (mapObj k (encryptAt encrypt path)) id (placesObj k (placeAt path)) :=
  mapObj_id ▸ restores_obj (restores_field ideal hseal path)

theorem restores_part (m c : Nat) : Restores ((r.crypto keys keyId).decryptContentPart m c)
    (encryptPart encrypt m c) id (partPlaces m c) := by
  intro part
  -- Encryption leaves the type of a part as it is, so both sides take the same branch.
  have htype : (encryptPart encrypt m c part).get? "type" = part.get? "type" := by
    unfold encryptPart
    split
    · exact get?_mapObj _ (by decide) part
    · exact get?_mapObj _ (by decide) part
    · exact get?_mapObj _ (by decide) part
    · rfl
  unfold decryptContentPart
  rw [htype]
  unfold encryptPart partPlaces
  split
  · exact restores_fieldObj ideal hseal "text" _ part
  · exact mapObj_id ▸ restores_obj (restores_fieldObj ideal hseal "url" _) part
  · exact mapObj_id ▸ restores_obj (restores_fieldObj ideal hseal "data" _) part
  · simp_all

theorem restores_content (m : Nat) :
    Restores ((r.crypto keys keyId).decryptContentValue round m) (encryptContent encrypt m)
      (mapStr (decryptedChatContentValue round)) (contentPlaces m) := by
  intro content
  cases content with
  | str s => exact restores_string ideal hseal _ _ (.str s)
  | arr items =>
    have h := restores_arr (restores_part ideal hseal m) (.arr items)
    rw [mapArr_id] at h
    exact h
  | _ => rfl

theorem restores_strings (name : String) :
    Restores ((r.crypto keys keyId).decryptStrings name) (encryptStrings encrypt name) id
      (stringPlaces name) := by
  intro v
  cases v with
  | str s => exact restores_field ideal hseal _ (.str s)
  | arr items =>
    have h := restores_arr
      (fun i => restores_field ideal hseal (name ++ "." ++ toString i)) (.arr items)
    rw [mapArr_id] at h
    exact h
  | _ => rfl

theorem restores_request (endpoint : String) :
    Restores (requestWalk (r.crypto keys keyId) round endpoint) (encryptRequest encrypt endpoint)
      (restoredRequest round endpoint) (requestPlaces endpoint) := by
  unfold requestWalk encryptRequest restoredRequest mapContents requestPlaces
  split_ifs
  · exact mapObj_id ▸ restores_obj (restores_strings ideal hseal _)
  · exact mapObj_id ▸ restores_obj (restores_strings ideal hseal _)
  · exact restores_obj (restores_arr (fun m => restores_obj (restores_content ideal hseal m)))

end Restores

theorem someDecrypted_ok {n : Nat} {v : Value} : someDecrypted (.ok (n, v)) =
    if n = 0 then .error .decryptionFailed else .ok v := by
  by_cases h : n = 0 <;> simp [someDecrypted, ensure, h, bind, Except.bind, pure, Except.pure]

/-- A text that does not decrypt at its place fails the request. -/
theorem decryptRequestPayload_rejects {x : Place} (hx : x ∈ requestPlaces endpoint payload)
    (hclosed : ¬ Opened (r.crypto keys keyId) x) :
    (r.crypto keys keyId).decryptRequestPayload round endpoint payload =
      .error .decryptionFailed := by
  rw [decryptRequestPayload_eq]
  have hopens := opens_request round keys r keyId endpoint
  cases h : requestWalk (r.crypto keys keyId) round endpoint payload with
  | ok s => exact absurd (hopens.ok h x hx) hclosed
  | error e => rw [hopens.error h]; rfl

/-- A content that a client serializes reads back as itself. -/
def ReadsBack (round : Bytes → Option FloatText) (whole : Nat → Value → Bool) : Prop :=
  ∀ m content, whole m content → ∃ items, content = .arr items ∧
    fromSlice round (print content) = some content

theorem restoredRequest_serialize {whole : Nat → Value → Bool} (hw : ReadsBack round whole) :
    restoredRequest round endpoint (mapContents (serializeContent whole) endpoint payload) =
      restoredRequest round endpoint payload := by
  have hcontent : ∀ m content,
      mapStr (decryptedChatContentValue round) (serializeContent whole m content) =
        mapStr (decryptedChatContentValue round) content := by
    intro m content
    unfold serializeContent
    split
    · rename_i h
      obtain ⟨items, rfl, hread⟩ := hw m content h
      obtain ⟨s, hs⟩ := isText_print (.arr items)
      rw [← hs] at hread
      simp [mapStr, ← hs, decryptedChatContentValue, hread]
    · rfl
  unfold restoredRequest mapContents
  split_ifs
  · rfl
  · rfl
  · simp only [mapObj_mapObj, mapArr_mapArr, hcontent]

/-- A ciphertext sealed for one request and field is refused at any other. A request whose
locations were all encrypted is restored, and refused if it has none. -/
theorem request_fields_bound {Sealed : String → Bytes → Bytes → String → Prop}
    (ideal : Sealing.Ideal keys.decryptE2ee Sealed) (round : Bytes → Option FloatText) :
    (∀ (r r' : RequestContext) (path path' c k keyId endpoint : String) (a p : Bytes)
        (payload : Value), (r, path) ≠ (r', path') → r.aad path = .ok a → Sealed k a p c →
      (path', c) ∈ requestPlaces endpoint payload →
      (r'.crypto keys keyId).decryptRequestPayload round endpoint payload =
        .error .decryptionFailed) ∧
    ∀ (r : RequestContext) (keyId endpoint : String) (encrypt : String → String → String)
        (whole : Nat → Value → Bool) (payload : Value),
      (∀ path s a, r.aad path = .ok a → Sealed keyId a (utf8 s) (encrypt path s)) →
      ReadsBack round whole →
      let request := mapContents (serializeContent whole) endpoint payload
      (r.crypto keys keyId).decryptRequestPayload round endpoint
          (encryptRequest encrypt endpoint request) =
        if requestPlaces endpoint request = [] then .error .decryptionFailed
        else .ok (restoredRequest round endpoint payload) := by
  constructor
  · intro r r' path path' c k keyId endpoint a p payload hne ha hc hplace
    apply decryptRequestPayload_rejects hplace
    rintro ⟨t, ht⟩
    obtain ⟨a', ha', p', hp', -⟩ := decryptText_eq_ok.mp ht
    obtain ⟨-, rfl⟩ := ideal.only hc hp'
    obtain ⟨hr, hpath⟩ := aad_inj ha ha'
    exact hne (Prod.ext hr hpath)
  · intro r keyId endpoint encrypt whole payload hseal hw request
    rw [decryptRequestPayload_eq, restores_request ideal hseal endpoint request, someDecrypted_ok,
      restoredRequest_serialize hw]
    simp only [List.length_eq_zero_iff]

/-! A sealing that shows the key, the associated data and the plaintext. -/

def sealedDocument (keyId : String) (aad plaintext : Bytes) : Value :=
  .arr [.str keyId, .str (hexEncode aad), .str (hexEncode plaintext)]

def sealedInTheOpen (keyId : String) (aad plaintext : Bytes) (c : String) : Prop :=
  utf8 c = print (sealedDocument keyId aad plaintext)

def openKeys : KeyProvider where
  decryptE2ee keyId c aad :=
    match fromSlice (fun _ => none) (utf8 c) with
    | some (.arr [.str k, .str a, .str p]) =>
      if k = keyId ∧ a = hexEncode aad then hexDecode p else none
    | _ => none
  decryptLegacyE2ee _ _ _ := none

theorem decrypt_openKeys {k k' c : String} {a a' p : Bytes} (h : sealedInTheOpen k a p c) :
    openKeys.decryptE2ee k' c a' = if k = k' ∧ hexEncode a = hexEncode a' then some p else none := by
  have hdepth : depth (sealedDocument k a p) ≤ recursionLimit := Nat.le_of_ble_eq_true rfl
  have hread : fromSlice (fun _ => none) (utf8 c) = some (sealedDocument k a p) := by
    rw [show utf8 c = _ from h]
    exact fromSlice_print _ hdepth rfl rfl
  simp only [openKeys, hread, sealedDocument, hexDecode_hexEncode]

theorem ideal_openKeys : Sealing.Ideal openKeys.decryptE2ee sealedInTheOpen where
  opens := by
    intro k a p c h
    simp [decrypt_openKeys h]
  only := by
    intro k a p c k' a' p' h ho
    rw [decrypt_openKeys h] at ho
    split at ho
    · rename_i heq
      exact ⟨heq.1.symm, (hexEncode_injective heq.2).symm⟩
    · cases ho

/-- The client of a request that seals in the open. -/
def openEncrypt (r : RequestContext) (keyId path s : String) : String :=
  match r.aad path with
  | .ok a => (ofUtf8? (print (sealedDocument keyId a (utf8 s)))).getD ""
  | .error _ => ""

theorem sealed_openEncrypt (r : RequestContext) (keyId path s : String) (a : Bytes)
    (h : r.aad path = .ok a) : sealedInTheOpen keyId a (utf8 s) (openEncrypt r keyId path s) := by
  obtain ⟨t, ht⟩ := isText_print (sealedDocument keyId a (utf8 s))
  simp only [openEncrypt, h, ← ht, ofUtf8?_utf8, Option.getD_some]
  exact ht

def chatContext : RequestContext := ⟨e2eeAlgoX25519Aesgcm, "m", "n", 1700000000⟩

def chatPayload : Value :=
  .obj [("model", .str "m"), ("messages", .arr [.obj [("role", .str "user"),
    ("content", .str "[\"a\"]")], .obj [("role", .str "user"), ("content", .arr [
      .obj [("type", .str "image_url"), ("image_url", .obj [("url", .str "u")])]])]])]

theorem request_fields_bound_chat :
    (chatContext.crypto openKeys "k").decryptRequestPayload (fun _ => none) "/v1/chat/completions"
        (encryptRequest (openEncrypt chatContext "k") "/v1/chat/completions" chatPayload) =
      .ok (.obj [("model", .str "m"), ("messages", .arr [.obj [("role", .str "user"),
        ("content", .arr [.str "a"])], .obj [("role", .str "user"), ("content", .arr [
          .obj [("type", .str "image_url"), ("image_url", .obj [("url", .str "u")])]])]])]) ∧
    ∀ a c, chatContext.aad "messages.1.content" = .ok a → sealedInTheOpen "k" a [] c →
      (chatContext.crypto openKeys "k").decryptRequestPayload (fun _ => none)
        "/v1/chat/completions" (.obj [("messages", .arr [.obj [("content", .str c)]])]) =
      .error .decryptionFailed := by
  obtain ⟨hreject, hrestore⟩ := request_fields_bound ideal_openKeys (fun _ => none)
  constructor
  · have h := hrestore chatContext "k" "/v1/chat/completions" (openEncrypt chatContext "k")
      (fun _ _ => false) chatPayload (sealed_openEncrypt chatContext "k") (by simp [ReadsBack])
    have hplaces : requestPlaces "/v1/chat/completions" (mapContents
        (serializeContent (fun _ _ => false)) "/v1/chat/completions" chatPayload) ≠ [] := by
      decide
    have hread : fromSlice (fun _ => none) (utf8 "[\"a\"]") = some (.arr [.str "a"]) :=
      fromSlice_print (v := .arr [.str "a"]) _ (by decide) rfl rfl
    refine h.trans ((if_neg hplaces).trans (congrArg _ ?_))
    simp [restoredRequest, mapContents, chatPayload, mapObj, mapMember, mapArr, mapStr,
      decryptedChatContentValue, hread, completionsPath, embeddingsPath]
  · intro a c ha hc
    exact hreject chatContext chatContext "messages.1.content" "messages.0.content" c "k" "k" _ a []
      _ (by decide) ha hc (List.mem_singleton.mpr rfl)

/-- A request of token ids has nothing to encrypt, so what the client sends is refused. -/
theorem request_without_fields_refused :
    let payload : Value := .obj [("model", .str "m"), ("input", .arr [.num (.posInt 1)])]
    Sealing.Ideal openKeys.decryptE2ee sealedInTheOpen ∧
    (∀ path s a, chatContext.aad path = .ok a →
      sealedInTheOpen "k" a (utf8 s) (openEncrypt chatContext "k" path s)) ∧
    (chatContext.crypto openKeys "k").decryptRequestPayload (fun _ => none) embeddingsPath
        (encryptRequest (openEncrypt chatContext "k") embeddingsPath payload) =
      .error .decryptionFailed :=
  ⟨ideal_openKeys, sealed_openEncrypt chatContext "k", rfl⟩

end AciGateway.E2ee
