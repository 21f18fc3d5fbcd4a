import AciGateway.Chutes.Crypto
import AciGateway.Chutes.Session
import AciGateway.Lib.JsonDocument
import AciGateway.Lib.Sha2
import AciGateway.Receipt.Builder

/-! The Chutes backend: it selects a pooled instance whose stated key hash the verified event
binds, and encrypts the request to the key pooled with it. -/
namespace AciGateway.Chutes

open Octets Json Text Results Receipt Session ChutesSessionStore List

structure ChutesInstanceInfo where
  instanceId : String
  e2ePubkey : String
  nonces : List String

structure ChutesInstancesResponse where
  instances : List ChutesInstanceInfo
  nonceExpiresIn : Option U64

structure ChutesLookupEntry where
  name : Option String
  chuteId : Option String

def looksLikeUuid (value : String) : Bool :=
  value.toList.count '-' + 1 = 5 && (utf8 value).length = 36 &&
    value.toList.all (fun c => c = '-' || (hexValue c).isSome)

def chutesAcceptedBindings (event : UpstreamVerifiedEvent) :
    Except UpstreamError (List ChutesAcceptedBinding) := do
  let accepted := event.channelBindings.filterMap fun binding =>
    match binding with
    | .e2eePublicKeySha256 provider keyId algorithm publicKeySha256 =>
      if provider = "chutes" ∧ algorithm = mlkem768Algorithm then some ⟨keyId, publicKeySha256⟩
      else none
    | _ => none
  ensure (accepted ≠ []) (.transport "verified Chutes event did not include an E2EE key binding")
  pure accepted

section

variable (sha256 : Bytes → Bytes)

/-- The instances of a live answer that the bindings accept; a key that does not decode fails
the whole answer. -/
def acceptedInstances (accepted : List ChutesAcceptedBinding) :
    List ChutesInstanceInfo → Except UpstreamError (List ChutesVerifiedInstance)
  | [] => .ok []
  | i :: rest => do
    let publicKeySha256 ← chutesE2eePubkeySha256 sha256 i.e2ePubkey
    let rest ← acceptedInstances accepted rest
    pure (if chutesBindingMatches accepted i.instanceId publicKeySha256 then
      ⟨i.instanceId, i.e2ePubkey, publicKeySha256, i.nonces⟩ :: rest else rest)

def noMatchingKey : UpstreamError :=
  .channelBindingMismatch "Chutes did not return an E2EE key matching the verified binding"

def verifiedDiscoveryFromResponse (chuteId : String) (discovery : ChutesInstancesResponse)
    (accepted : List ChutesAcceptedBinding) : Except UpstreamError ChutesVerifiedDiscovery := do
  let instances ← acceptedInstances sha256 accepted discovery.instances
  ensure (instances ≠ []) noMatchingKey
  pure ⟨chuteId, discovery.nonceExpiresIn, instances⟩

def cacheVerifiedChutesNonces (s : ChutesSessionStore) (now : Nat) (chuteId : String)
    (discovery : ChutesInstancesResponse) (accepted : List ChutesAcceptedBinding) :
    Except UpstreamError Nat × ChutesSessionStore :=
  match verifiedDiscoveryFromResponse sha256 chuteId discovery accepted with
  | .error e => (.error e, s)
  | .ok verified => s.recordVerifiedDiscovery now verified

/-- What is done to the store: the verifier's `recordProviderSession`, the refill and refresh of
a pool, and the calls of requests. -/
inductive StoreCall where
  | recordProviderSession (discovery : ChutesVerifiedDiscovery)
  | cacheVerifiedChutesNonces (chuteId : String) (discovery : ChutesInstancesResponse)
      (accepted : List ChutesAcceptedBinding)
  | popVerifiedNonce (chuteId : String) (accepted : List ChutesAcceptedBinding)
  | cachedChuteId (model : String)
  | cacheChuteId (model chuteId : String)

def StoreCall.apply (now : Nat) (s : ChutesSessionStore) : StoreCall → ChutesSessionStore
  | .recordProviderSession discovery => (s.recordVerifiedDiscovery now discovery).2
  | .cacheVerifiedChutesNonces chuteId discovery accepted =>
    (Chutes.cacheVerifiedChutesNonces sha256 s now chuteId discovery accepted).2
  | .popVerifiedNonce chuteId accepted => (s.popVerifiedNonce now chuteId accepted).2
  | .cachedChuteId model => (s.cachedChuteId now model).2
  | .cacheChuteId model chuteId => s.cacheChuteId now model chuteId

/-- A run of calls, each with the clock reading it takes. -/
def run (calls : List (Nat × StoreCall)) (s : ChutesSessionStore) : ChutesSessionStore :=
  calls.foldl (fun s call => call.2.apply sha256 call.1 s) s

/-- What one invocation meets from outside: the clock at its own calls to the store, the calls
of others before each of them, and the answers of the Chutes API. -/
structure Surroundings where
  clock : Nat → Nat
  others : Nat → List (Nat × StoreCall)
  lookup : Except UpstreamError (List ChutesLookupEntry)
  instances : Except UpstreamError ChutesInstancesResponse

structure ChutesProviderBackend where
  apiKey : Option String
  basicAuth : Bool
  chuteIds : String → Option String

def ChutesProviderBackend.getApiKey (b : ChutesProviderBackend) : Except UpstreamError String := do
  let token := b.apiKey.getD ""
  ensure (trim token ≠ "")
    (.transport "Chutes E2EE transport requires bearer_token in upstream config")
  pure token

def ChutesProviderBackend.authorization (b : ChutesProviderBackend) (apiKey : String) : String :=
  (if b.basicAuth then "Basic" else "Bearer") ++ " " ++ apiKey

def lookedUp (model : String) (items : List ChutesLookupEntry) : Except UpstreamError String :=
  okOr ((items.find? (fun e => e.name = some model ∧ e.chuteId.isSome)).bind (·.chuteId))
    (.routing ("Chutes /chutes lookup did not return an exact chute_id match for model " ++ model))

def resolveChuteId (b : ChutesProviderBackend) (around : Surroundings) (s : ChutesSessionStore)
    (model : String) : Except UpstreamError String × ChutesSessionStore :=
  if looksLikeUuid model then (.ok model, s)
  else
    match b.chuteIds model with
    | some chuteId => (.ok chuteId, s)
    | none =>
      match (run sha256 (around.others 0) s).cachedChuteId (around.clock 0) model with
      | (some chuteId, s) => (.ok chuteId, s)
      | (none, s) =>
        match around.lookup.bind (lookedUp model) with
        | .error e => (.error e, s)
        | .ok chuteId =>
          (.ok chuteId, (run sha256 (around.others 1) s).cacheChuteId (around.clock 1) model chuteId)

/-- The pool is tried, tried again under the refill lock, refilled and tried a last time. -/
def acquireVerifiedChutesSession (around : Surroundings) (s : ChutesSessionStore) (chuteId : String)
    (accepted : List ChutesAcceptedBinding) :
    Except UpstreamError SelectedChutesInstance × ChutesSessionStore :=
  match (run sha256 (around.others 2) s).popVerifiedNonce (around.clock 2) chuteId accepted with
  | (some selected, s) => (.ok selected, s)
  | (none, s) =>
    match (run sha256 (around.others 3) s).popVerifiedNonce (around.clock 3) chuteId accepted with
    | (some selected, s) => (.ok selected, s)
    | (none, s) =>
      match around.instances with
      | .error e => (.error e, s)
      | .ok discovery =>
        match cacheVerifiedChutesNonces sha256 (run sha256 (around.others 4) s) (around.clock 4)
            chuteId discovery accepted with
        | (.error e, s) => (.error e, s)
        | (.ok _, s) =>
          match (run sha256 (around.others 5) s).popVerifiedNonce (around.clock 5) chuteId
              accepted with
          | (some selected, s) => (.ok selected, s)
          | (none, s) => (.error noMatchingKey, s)

/-- The request posted to `/e2e/invoke`. -/
structure Invocation (S : Suite) where
  authorization : String
  chuteId : String
  instanceId : String
  nonce : String
  stream : Bool
  path : String
  request : ChutesE2eeRequest S

/-- The checks before the store is used: the token, the body and its model. -/
def checkInvocation (round : Bytes → Option FloatText) (b : ChutesProviderBackend)
    (req : PreparedUpstreamRequest) (event : UpstreamVerifiedEvent) :
    Except UpstreamError (String × Value × String) := do
  ensure (event.result = .verified) (.transport
    "Chutes E2EE transport requires a verified chutes-ml-kem-768 public key binding")
  let apiKey ← b.getApiKey
  let payload ← okOr (fromSlice round req.body) (.routing "invalid JSON request body")
  let model ← okOr ((payload.get? "model").bind Value.asStr?)
    (.routing "request body must contain a string model field")
  pure (apiKey, payload, model)

def invokeVerified (S : Suite) (round : Bytes → Option FloatText) (b : ChutesProviderBackend)
    (around : Surroundings) (secret : S.Secret) (s : ChutesSessionStore)
    (req : PreparedUpstreamRequest) (event : UpstreamVerifiedEvent) (stream : Bool) :
    Except UpstreamError (Invocation S) × ChutesSessionStore :=
  match checkInvocation round b req event with
  | .error e => (.error e, s)
  | .ok (apiKey, payload, model) =>
    match resolveChuteId sha256 b around s model with
    | (.error e, s) => (.error e, s)
    | (.ok chuteId, s) =>
      match chutesAcceptedBindings event with
      | .error e => (.error e, s)
      | .ok accepted =>
        match acquireVerifiedChutesSession sha256 around s chuteId accepted with
        | (.error e, s) => (.error e, s)
        | (.ok selected, s) =>
          ((buildChutesE2eeRequest S secret selected.e2ePubkey payload).map fun request =>
            { authorization := b.authorization apiKey
              chuteId
              instanceId := selected.instanceId
              nonce := selected.nonce
              stream
              path := req.path.getD "/v1/chat/completions"
              request }, s)

end

/-! The pool carries what is true of every stated hash. -/

/-- The stated hash is the hash of the key, up to the case of its digits. -/
def StatesKey (sha256 : Bytes → Bytes) (e2ePubkey stated : String) : Prop :=
  ∀ key, base64Decode e2ePubkey = some key → eqIgnoreAsciiCase stated (hexEncode (sha256 key))

/-- A call that records only true hashes. The backend's own calls always do. -/
def StoreCall.Honest (sha256 : Bytes → Bytes) : StoreCall → Prop
  | .recordProviderSession discovery => ∀ i ∈ discovery.instances, i.nonces ≠ [] →
      StatesKey sha256 i.e2ePubkey i.publicKeySha256
  | _ => True

/-- Every pooled nonce comes with the hash of its key. -/
def TrueHashes (sha256 : Bytes → Bytes) : ChutesSessionStore → Prop :=
  Pooled (fun _ e2ePubkey stated => StatesKey sha256 e2ePubkey stated)

variable {sha256 : Bytes → Bytes} {S : Suite} {s s' : ChutesSessionStore} {now : Nat}
  {chuteId model : String} {accepted : List ChutesAcceptedBinding}
  {discovery : ChutesInstancesResponse} {event : UpstreamVerifiedEvent}
  {selected : SelectedChutesInstance} {around : Surroundings} {b : ChutesProviderBackend}

theorem statesKey_acceptedInstances {infos : List ChutesInstanceInfo}
    {instances : List ChutesVerifiedInstance}
    (h : acceptedInstances sha256 accepted infos = .ok instances) :
    ∀ i ∈ instances, StatesKey sha256 i.e2ePubkey i.publicKeySha256 := by
  induction infos generalizing instances with
  | nil =>
    cases h
    simp
  | cons info infos ih =>
    simp only [acceptedInstances, chutesE2eePubkeySha256, bind_eq_ok, decodePubkey_eq_ok,
      pure_eq_ok] at h
    obtain ⟨hash, ⟨key, hkey, rfl⟩, rest, hrest, rfl⟩ := h
    intro i hi
    split at hi
    · rcases mem_cons.mp hi with rfl | hi
      · intro key' hkey'
        rw [Option.some.inj (hkey.symm.trans hkey')]
        exact eqIgnoreAsciiCase_refl _
      · exact ih hrest i hi
    · exact ih hrest i hi

theorem trueHashes_cacheVerifiedChutesNonces (h : TrueHashes sha256 s) :
    TrueHashes sha256 (cacheVerifiedChutesNonces sha256 s now chuteId discovery accepted).2 := by
  unfold cacheVerifiedChutesNonces
  split
  · exact h
  · rename_i verified hv
    simp only [verifiedDiscoveryFromResponse, bind_eq_ok, pure_eq_ok] at hv
    obtain ⟨instances, hi, -, -, rfl⟩ := hv
    exact pooled_recordVerifiedDiscovery h (fun i hmem _ => statesKey_acceptedInstances hi i hmem)

theorem trueHashes_cachedChuteId (h : TrueHashes sha256 s) :
    TrueHashes sha256 (s.cachedChuteId now model).2 := by
  unfold cachedChuteId
  split
  · split <;> exact h
  · exact h

theorem trueHashes_call {call : StoreCall} (hc : call.Honest sha256) (h : TrueHashes sha256 s) :
    TrueHashes sha256 (call.apply sha256 now s) := by
  cases call with
  | recordProviderSession discovery =>
    exact pooled_recordVerifiedDiscovery h hc
  | cacheVerifiedChutesNonces => exact trueHashes_cacheVerifiedChutesNonces h
  | popVerifiedNonce => exact pooled_popVerifiedNonce h
  | cachedChuteId => exact trueHashes_cachedChuteId h
  | cacheChuteId => exact h

theorem trueHashes_run {calls : List (Nat × StoreCall)}
    (hc : ∀ c ∈ calls, c.2.Honest sha256) (h : TrueHashes sha256 s) :
    TrueHashes sha256 (run sha256 calls s) := by
  induction calls generalizing s with
  | nil => exact h
  | cons call calls ih =>
    exact ih (fun c hm => hc c (mem_cons_of_mem _ hm)) (trueHashes_call (hc call mem_cons_self) h)

theorem trueHashes_after {α : Type} {r : α × ChutesSessionStore} {o : α} (he : r = (o, s'))
    (h : TrueHashes sha256 r.2) : TrueHashes sha256 s' := by
  subst he
  exact h

theorem trueHashes_resolveChuteId (ho : ∀ i, ∀ c ∈ around.others i, c.2.Honest sha256)
    (h : TrueHashes sha256 s) : TrueHashes sha256 (resolveChuteId sha256 b around s model).2 := by
  unfold resolveChuteId
  have h0 : TrueHashes sha256 ((run sha256 (around.others 0) s).cachedChuteId (around.clock 0) model).2 :=
    trueHashes_cachedChuteId (trueHashes_run (ho 0) h)
  split
  · exact h
  · split
    · exact h
    · split
      · rename_i heq
        exact trueHashes_after heq h0
      · rename_i heq
        have h0 := trueHashes_after heq h0
        split
        · exact h0
        · exact trueHashes_run (ho 1) h0

/-- A key is bound by the event when the event binds its hash to the instance, or to none. -/
def KeyBound (sha256 : Bytes → Bytes) (event : UpstreamVerifiedEvent) (instanceId : String)
    (key : Bytes) : Prop :=
  ∃ keyId hash, .e2eePublicKeySha256 "chutes" keyId mlkem768Algorithm hash ∈ event.channelBindings ∧
    (keyId = none ∨ keyId = some instanceId) ∧ eqIgnoreAsciiCase hash (hexEncode (sha256 key))

theorem mem_chutesAcceptedBindings (h : chutesAcceptedBindings event = .ok accepted) :
    ∀ a ∈ accepted, .e2eePublicKeySha256 "chutes" a.keyId mlkem768Algorithm a.publicKeySha256 ∈
      event.channelBindings := by
  simp only [chutesAcceptedBindings, bind_eq_ok, pure_eq_ok] at h
  obtain ⟨-, -, rfl⟩ := h
  intro a ha
  obtain ⟨binding, hb, hsome⟩ := mem_filterMap.mp ha
  split at hsome
  · split at hsome
    · rename_i heq
      obtain ⟨rfl, rfl⟩ := heq
      cases hsome
      exact hb
    · cases hsome
  · cases hsome

theorem keyBound_of_matches {instanceId stated e2ePubkey : String} {key : Bytes}
    (ha : chutesAcceptedBindings event = .ok accepted)
    (hm : chutesBindingMatches accepted instanceId stated)
    (hs : StatesKey sha256 e2ePubkey stated) (hk : base64Decode e2ePubkey = some key) :
    KeyBound sha256 event instanceId key := by
  obtain ⟨a, hmem, hmatch⟩ := any_eq_true.mp hm
  rw [Bool.and_eq_true] at hmatch
  refine ⟨a.keyId, a.publicKeySha256, mem_chutesAcceptedBindings ha a hmem, ?_,
    eqIgnoreAsciiCase_trans hmatch.2 (hs key hk)⟩
  cases hid : a.keyId with
  | none => exact .inl rfl
  | some id =>
    rw [hid] at hmatch
    exact .inr (congrArg some (by simpa using hmatch.1))

section Acquire

variable (ho : ∀ i, ∀ c ∈ around.others i, c.2.Honest sha256)
include ho

theorem trueHashes_pop {i : Nat} {o : Option SelectedChutesInstance} (h : TrueHashes sha256 s)
    (hp : (run sha256 (around.others i) s).popVerifiedNonce (around.clock i) chuteId accepted =
      (o, s')) : TrueHashes sha256 s' :=
  trueHashes_after hp (pooled_popVerifiedNonce (trueHashes_run (ho i) h))

theorem selected_pop {i : Nat} (h : TrueHashes sha256 s)
    (hp : (run sha256 (around.others i) s).popVerifiedNonce (around.clock i) chuteId accepted =
      (some selected, s')) : ∃ stated,
    chutesBindingMatches accepted selected.instanceId stated ∧
      StatesKey sha256 selected.e2ePubkey stated :=
  popVerifiedNonce_selected (trueHashes_run (ho i) h) (congrArg Prod.fst hp)

/-- Whatever others do in between, the session acquired comes from a pool of true hashes. -/
theorem acquireVerifiedChutesSession_selected (h : TrueHashes sha256 s)
    (hs : (acquireVerifiedChutesSession sha256 around s chuteId accepted).1 = .ok selected) :
    ∃ stated, chutesBindingMatches accepted selected.instanceId stated ∧
      StatesKey sha256 selected.e2ePubkey stated := by
  unfold acquireVerifiedChutesSession at hs
  split at hs
  · rename_i hp
    cases hs
    exact selected_pop ho h hp
  · rename_i hp
    have h := trueHashes_pop ho h hp
    split at hs
    · rename_i hp
      cases hs
      exact selected_pop ho h hp
    · rename_i hp
      have h := trueHashes_pop ho h hp
      split at hs
      · cases hs
      · split at hs
        · cases hs
        · rename_i hc
          have h := trueHashes_after hc
            (trueHashes_cacheVerifiedChutesNonces (trueHashes_run (ho 4) h))
          split at hs
          · rename_i hp
            cases hs
            exact selected_pop ho h hp
          · cases hs

end Acquire

/-- What a request that is sent has passed. -/
theorem invokeVerified_eq_ok {round : Bytes → Option FloatText} {secret : S.Secret}
    {req : PreparedUpstreamRequest} {stream : Bool} {invocation : Invocation S} :
    (invokeVerified sha256 S round b around secret s req event stream).1 = .ok invocation ↔
      ∃ apiKey payload model chuteId accepted s₁ selected s₂ request,
        checkInvocation round b req event = .ok (apiKey, payload, model) ∧
        resolveChuteId sha256 b around s model = (.ok chuteId, s₁) ∧
        chutesAcceptedBindings event = .ok accepted ∧
        acquireVerifiedChutesSession sha256 around s₁ chuteId accepted = (.ok selected, s₂) ∧
        buildChutesE2eeRequest S secret selected.e2ePubkey payload = .ok request ∧
        invocation = ⟨b.authorization apiKey, chuteId, selected.instanceId, selected.nonce, stream,
          req.path.getD "/v1/chat/completions", request⟩ := by
  constructor
  · intro h
    unfold invokeVerified at h
    split at h
    · cases h
    · rename_i hc
      split at h
      · cases h
      · rename_i hr
        split at h
        · cases h
        · rename_i ha
          split at h
          · cases h
          · rename_i hq
            obtain ⟨request, hb, rfl⟩ := map_eq_ok.mp h
            exact ⟨_, _, _, _, _, _, _, _, _, hc, hr, ha, hq, hb, rfl⟩
  · rintro ⟨apiKey, payload, model, chuteId, accepted, s₁, selected, s₂, request, hc, hr, ha, hq,
      hb, rfl⟩
    simp only [invokeVerified, hc, hr, ha, hq, hb, Except.map]

/-- After every run of calls that record true hashes, and whatever such calls come in between, a
request is encrypted to a key that the verified event binds to the instance it is sent to. -/
theorem invokeVerified_key_bound {round : Bytes → Option FloatText} {secret : S.Secret}
    {req : PreparedUpstreamRequest} {stream : Bool} {invocation : Invocation S}
    (calls : List (Nat × StoreCall)) (hcalls : ∀ c ∈ calls, c.2.Honest sha256)
    (ho : ∀ i, ∀ c ∈ around.others i, c.2.Honest sha256)
    (h : (invokeVerified sha256 S round b around secret (run sha256 calls .new) req event
      stream).1 = .ok invocation) :
    KeyBound sha256 event invocation.instanceId invocation.request.recipient := by
  obtain ⟨_, _, model, _, accepted, s₁, selected, _, request, -, hr, ha, hq, hb, rfl⟩ :=
    invokeVerified_eq_ok.mp h
  have hnew := trueHashes_run hcalls pooled_new
  have hs := trueHashes_after hr (trueHashes_resolveChuteId ho hnew)
  obtain ⟨stated, hmatch, hstates⟩ :=
    acquireVerifiedChutesSession_selected ho hs (congrArg Prod.fst hq)
  exact keyBound_of_matches ha hmatch hstates (buildChutesE2eeRequest_recipient hb)

/-! A store with one nonce, and a request that takes it. -/

/-- Encryption left out; it takes keys of the length of ML-KEM-768 keys. -/
def plainSuite : Suite where
  Secret := Unit
  responsePk _ := []
  validKey key := key.length = 1184
  encapsulate _ _ := (List.replicate mlkemCtSize 0, [])
  decapsulate _ _ := []
  hkdf _ _ _ := []
  nonce _ := List.replicate 12 0
  encrypt _ _ plaintext := some plaintext
  decrypt _ _ ciphertext := some ciphertext
  gzipCompress := some

def plainBackend : ChutesProviderBackend := ⟨some "t", false, fun _ => some "c"⟩

def statedInstance (keyText stated : String) : StoreCall :=
  .recordProviderSession ⟨"c", none, [⟨"i", keyText, stated, ["n"]⟩]⟩

def quiet : Surroundings where
  clock _ := 1
  others _ := []
  lookup := .ok []
  instances := .ok ⟨[], none⟩

def modelRequest : PreparedUpstreamRequest := ⟨print (.obj [("model", .str "m")]), none⟩

def bindingEvent (hash : String) : UpstreamVerifiedEvent where
  verificationRound := none
  upstreamName := "chutes"
  providerType := some "chutes"
  modelId := "m"
  urlOrigin := none
  verifierId := "v"
  result := .verified
  required := true
  reason := none
  evidence := none
  channelBindings := [.e2eePublicKeySha256 "chutes" (some "i") mlkem768Algorithm hash]
  providerClaims := none
  aciIdentity := none

theorem exists_plainRequest {keyText : String} {key : Bytes} (payload : Members)
    (hkey : base64Decode keyText = some key) (hlen : key.length = 1184) :
    ∃ request, buildChutesE2eeRequest plainSuite () keyText (.obj payload) = .ok request := by
  have hderive : chutesDeriveKey plainSuite [] (replicate mlkemCtSize 0) infoReq = .ok [] := by
    rw [chutesDeriveKey, ensure, if_pos (by rw [length_replicate]; decide)]
    rfl
  simp only [buildChutesE2eeRequest, bind_eq_ok, decodePubkey_eq_ok, ensure_eq_ok, okOr_eq_ok,
    pure_eq_ok]
  exact ⟨_, key, hkey, (), decide_eq_true hlen, [], hderive, _, rfl, _, rfl, _, rfl, rfl⟩

/-- The hash an instance is recorded with is taken as stated, so the request goes to its key. -/
theorem invokeVerified_stated (sha256 : Bytes → Bytes) (stated : String) {keyText : String} {key : Bytes}
    (hkey : base64Decode keyText = some key) (hlen : key.length = 1184) :
    ∃ invocation, (invokeVerified sha256 plainSuite (fun _ => none) plainBackend quiet ()
        (run sha256 [(0, statedInstance keyText stated)] .new) modelRequest (bindingEvent stated)
        false).1 = .ok invocation ∧
      invocation.instanceId = "i" ∧ invocation.request.recipient = key := by
  have hbody : fromSlice (fun _ => none) modelRequest.body = some (.obj [("model", .str "m")]) :=
    fromSlice_print _ (by decide) rfl rfl
  have hcheck : checkInvocation (fun _ => none) plainBackend modelRequest (bindingEvent stated) =
      .ok ("t", .obj [("model", .str "m")], "m") := by
    simp only [checkInvocation, hbody]
    rfl
  have hacquire : ∃ s, acquireVerifiedChutesSession sha256 quiet
      (run sha256 [(0, statedInstance keyText stated)] .new) "c" [⟨some "i", stated⟩] =
        (.ok ⟨"i", keyText, "n"⟩, s) := by
    simp [acquireVerifiedChutesSession, quiet, run, StoreCall.apply, statedInstance,
      recordVerifiedDiscovery, recordNonceCandidates,
      offers, addNonce, popVerifiedNonce,
      selectNonce, chutesBindingMatches, eqIgnoreAsciiCase_refl,
      defaultNonceTtlSeconds, new]
  obtain ⟨s, hacquire⟩ := hacquire
  obtain ⟨request, hrequest⟩ := exists_plainRequest [("model", .str "m")] hkey hlen
  refine ⟨_, invokeVerified_eq_ok.mpr ⟨_, _, _, "c", _, _, _, s, request, hcheck, rfl, rfl, hacquire,
    hrequest, rfl⟩, rfl, ?_⟩
  exact Option.some.inj ((buildChutesE2eeRequest_recipient hrequest).symm.trans hkey)

theorem invokeVerified_key_bound_stated :
    let key := List.replicate 1184 0
    let stated := hexEncode (Sha2.sha256 key)
    ∃ invocation, (invokeVerified Sha2.sha256 plainSuite (fun _ => none) plainBackend quiet ()
        (run Sha2.sha256 [(0, statedInstance (base64Encode key) stated)] .new) modelRequest
        (bindingEvent stated) false).1 = .ok invocation ∧
      KeyBound Sha2.sha256 (bindingEvent stated) invocation.instanceId
        invocation.request.recipient := by
  intro key stated
  have hdecode := base64Decode_base64Encode key
  obtain ⟨invocation, h, -, -⟩ :=
    invokeVerified_stated Sha2.sha256 stated hdecode (length_replicate ..)
  refine ⟨invocation, h, invokeVerified_key_bound _ ?_ ?_ h⟩
  · intro c hc
    rw [mem_singleton.mp hc]
    intro i hi _
    rw [mem_singleton.mp hi]
    intro key' hkey'
    rw [← Option.some.inj (hdecode.symm.trans hkey')]
    exact eqIgnoreAsciiCase_refl _
  · intro i c hc
    cases hc

/-- The verifier's output states a hash that is not the key's, and the request is encrypted to
the key all the same. -/
theorem invokeVerified_key_unbound :
    let key := List.replicate 1184 0
    ∃ invocation, (invokeVerified Sha2.sha256 plainSuite (fun _ => none) plainBackend quiet ()
        (run Sha2.sha256 [(0, statedInstance (base64Encode key) "00")] .new) modelRequest
        (bindingEvent "00") false).1 = .ok invocation ∧
      ¬ KeyBound Sha2.sha256 (bindingEvent "00") invocation.instanceId
        invocation.request.recipient := by
  intro key
  obtain ⟨invocation, h, -, -⟩ := invokeVerified_stated Sha2.sha256 "00"
    (base64Decode_base64Encode key) (length_replicate ..)
  refine ⟨invocation, h, ?_⟩
  rintro ⟨keyId, hash, hmem, -, hsame⟩
  cases mem_singleton.mp hmem
  -- A hash has 64 digits.
  have hlen := congrArg length (of_decide_eq_true hsame)
  rw [length_map, length_map, length_hexEncode, Sha2.length_sha256] at hlen
  cases hlen

end AciGateway.Chutes
