import AciGateway.Lib.Lines
import AciGateway.Receipt.Builder
import AciGateway.ZeroG.Response

/-! The 0G backend. A request is sealed to a provider the verified event binds and sent through
the router; what the router gives back is released as it opens, and is complete once the
provider's signature over it has been checked. -/
namespace AciGateway.ZeroG

open Octets Json Results Text Lines Receipt Session ResponseOpener List

def zeroGProvider : String := "0g-private-computer"

def zeroGE2eeAlgorithm : String := "0g-pc-v1-hpke-x25519-hkdf-sha256-chacha20poly1305"

def chatCompletionsPath : String := "/v1/chat/completions"

def maxSseBufferBytes : Nat := 4 * 2 ^ 20

def rejected (message : String) : UpstreamError := .transport ("0G response rejected: " ++ message)

structure VerifiedProvider where
  providerAddress : String
  providerIdentity : Option String
  endpoint : String
  model : String
  signingAddress : String
  e2eePublicKey : String

def decodeVerifiedProvider : Value → Option VerifiedProvider
  | .obj fields => do
    let providerAddress ← required "provider_address" decodeString fields
    let providerIdentity ← optionalMember "provider_identity" decodeString fields
    let endpoint ← required "endpoint" decodeString fields
    let model ← required "model" decodeString fields
    let signingAddress ← required "signing_address" decodeString fields
    let e2eePublicKey ← required "e2ee_public_key" decodeString fields
    pure ⟨providerAddress, providerIdentity, endpoint, model, signingAddress, e2eePublicKey⟩
  | .arr [providerAddress, providerIdentity, endpoint, model, signingAddress, e2eePublicKey] => do
    let providerAddress ← decodeString providerAddress
    let providerIdentity ← nullable decodeString providerIdentity
    let endpoint ← decodeString endpoint
    let model ← decodeString model
    let signingAddress ← decodeString signingAddress
    let e2eePublicKey ← decodeString e2eePublicKey
    pure ⟨providerAddress, providerIdentity, endpoint, model, signingAddress, e2eePublicKey⟩
  | _ => none

def decodeChatSignature : Value → Option ChatSignature
  | .obj fields => do
    let text ← required "text" decodeString fields
    let signature ← required "signature" decodeString fields
    pure ⟨text, signature⟩
  | .arr [text, signature] => do
    let text ← decodeString text
    let signature ← decodeString signature
    pure ⟨text, signature⟩
  | _ => none

/-- What the router is sent: the envelope, and the headers that pin the provider. -/
structure RouterRequest where
  envelope : Value
  providerAddress : String
  providerIdentity : Option String

def routerRequest (provider : VerifiedProvider) (envelope : Value) : RouterRequest :=
  ⟨envelope, provider.providerAddress, provider.providerIdentity.filter (fun i => i ≠ "")⟩

/-- A response, with the chunks of its body. -/
structure HttpResponse where
  status : Nat
  statusText : String
  resKey : Option String
  contentType : Option String
  contentLength : Option Nat
  body : List (Except UpstreamError Bytes)

structure SignatureCheck where
  url : String
  signer : String
  provider : String

structure UpstreamResponse where
  statusCode : Nat
  body : Bytes
  contentType : String
  servedInstanceId : Option String

def isSignatureKey (key : String) : Bool :=
  1 ≤ (utf8 key).length && (utf8 key).length ≤ 64 &&
    key.toList.all (fun c => c.isAlphanum || c = '_' || c = '-')

/-- The body of a response that is read whole, up to `limit` bytes. -/
def collectBody (limit : Nat) : Bytes → List (Except UpstreamError Bytes) → Except UpstreamError Bytes
  | out, [] => .ok out
  | _, .error e :: _ => .error e
  | out, .ok chunk :: rest =>
    if chunk.length > limit - out.length then .error .responseTooLarge
    else collectBody limit (out ++ chunk) rest

def readBufferedUpstreamResponse (limit : Nat) (response : HttpResponse) :
    Except UpstreamError Bytes :=
  match response.contentLength with
  | some length => if length > limit then .error .responseTooLarge else
      collectBody limit [] response.body
  | none => collectBody limit [] response.body

/-- What happens at the end of an event: a frame is opened, the response is complete, or reading
it has failed. -/
inductive StreamEvent where
  | opened (frame out : Map)
  | done
  | failed (e : UpstreamError)

def isEmptyValue : Value → Bool
  | .null => true
  | .arr items => items.isEmpty
  | .obj members => members.isEmpty
  | _ => false

/-- A frame left without a value is not passed on. -/
def carries (out : Map) : Bool := !out.members.all (fun m => isEmptyValue m.2)

def eventBytes (out : Map) : Bytes := utf8 "data: " ++ print (.obj out.members) ++ utf8 "\n\n"

def doneBytes : Bytes := utf8 "data: [DONE]\n\n"

/-- The item the stream yields, if any. -/
def StreamEvent.item? : StreamEvent → Option (Except UpstreamError Bytes)
  | .opened _ out => if carries out then some (.ok (eventBytes out)) else none
  | .done => some (.ok doneBytes)
  | .failed e => some (.error e)

def StreamEvent.frame? : StreamEvent → Option Map
  | .opened frame _ => some frame
  | _ => none

/-- Another line of data of the same event. -/
def appendData (value : Bytes) : Option Bytes → Bytes
  | none => value
  | some data => if data = [] then value else data ++ 10 :: value

section

variable (sha256 : Bytes → Bytes) (canonicalize : Value → Except String Bytes)
  (round : Bytes → Option FloatText) (recoverSigner : String → String → Except String String)

/-- The provider recorded under the key of a binding, and the key, if they agree with it. -/
def boundTo (instances : Value) (model : String) : ChannelBinding → Option (VerifiedProvider × Bytes)
  | .e2eePublicKeySha256 provider (some address) algorithm publicKeySha256 => do
    let verified ← (instances.get? address).bind decodeVerifiedProvider
    let key ← hexDecode verified.e2eePublicKey
    if key.length = 32 ∧ provider = zeroGProvider ∧ algorithm = zeroGE2eeAlgorithm ∧
        eqIgnoreAsciiCase (hexEncode (sha256 key)) publicKeySha256 ∧
        eqIgnoreAsciiCase verified.providerAddress address ∧ verified.model = model then
      some (verified, key)
    else none
  | _ => none

def boundProvider (event : UpstreamVerifiedEvent) (model : String) :
    Option (VerifiedProvider × Bytes) := do
  if event.result = .verified then
    let instances ← event.providerClaims.bind (fun claims => claims.get? "instances")
    event.channelBindings.findSome? (boundTo sha256 instances model)
  else none

/-- The signature of a response, asked for up to three times. -/
def fetchFrom (limit : Nat) (answers : Nat → Except String HttpResponse) :
    Nat → Nat → String → Except UpstreamError ChatSignature
  | 0, _, lastError => .error (.transport lastError)
  | remaining + 1, attempt, _ =>
    match answers attempt with
    | .error message => fetchFrom limit answers remaining (attempt + 1) message
    | .ok response =>
      if 200 ≤ response.status ∧ response.status < 300 then do
        let body ← readBufferedUpstreamResponse limit response
        okOr ((fromSlice round body).bind decodeChatSignature) (.transport "malformed signature")
      else if response.status = 404 ∨ 500 ≤ response.status ∧ response.status < 600 then
        fetchFrom limit answers remaining (attempt + 1)
          ("signature endpoint returned " ++ response.statusText)
      else .error (.transport ("signature endpoint returned " ++ response.statusText))

namespace SignatureCheck

def fetch (limit : Nat) (answers : Nat → Except String HttpResponse) :
    Except UpstreamError ChatSignature := fetchFrom round limit answers 3 0 ""

def verify (check : SignatureCheck) (limit : Nat)
    (answers : String → Nat → Except String HttpResponse) (expectedText : String) :
    Except UpstreamError Unit := do
  let signature ← (fetch round limit (answers check.url)).mapError fun reason =>
    match reason with
    | .responseTooLarge => .responseTooLarge
    | _ => .transport "0G response signature unavailable"
  (verifySignature recoverSigner signature expectedText check.signer).mapError fun _ =>
    .transport "0G response signature invalid"

end SignatureCheck

variable {H : Hpke}

/-- What a line of the stream does. -/
inductive LineStep (H : Hpke) where
  | more (data : Option Bytes)
  | opened (frame out : Map) (opener : ResponseOpener H)
  | stop

def readLine (data : Option Bytes) (o : ResponseOpener H) (line : Bytes) :
    Except UpstreamError (LineStep H) :=
  let line := trimAsciiEnd line
  match line.dropPrefix? (utf8 "data:") with
  | some value => .ok (.more (some (appendData ((value.dropPrefix? (utf8 " ")).getD value) data)))
  | none =>
    if line ≠ [] then .ok (.more data) else
    match data with
    | none => .ok (.more none)
    | some event =>
      if trimAscii event = utf8 "[DONE]" then .ok .stop else do
        let frame ← okOr (readMap round event) (rejected "invalid event")
        let (o, out) ← (o.openFrame sha256 canonicalize round frame).mapError protocolError
        pure (.opened frame out o)

/-- Where reading stands after some lines. -/
inductive Reading (H : Hpke) where
  | more (data : Option Bytes) (opener : ResponseOpener H)
  | stopped (opener : ResponseOpener H)

/-- The frames the lines open, each with what it is opened to. -/
def readLines (data : Option Bytes) (o : ResponseOpener H) :
    List Bytes → List (Map × Map) × Except UpstreamError (Reading H)
  | [] => ([], .ok (.more data o))
  | line :: rest =>
    match readLine sha256 canonicalize round data o line with
    | .error e => ([], .error e)
    | .ok .stop => ([], .ok (.stopped o))
    | .ok (.more data) => readLines data o rest
    | .ok (.opened frame out o) =>
      let (log, reading) := readLines none o rest
      ((frame, out) :: log, reading)

/-- The loop over the chunks. At their end an event without its blank line still counts. -/
def readChunks (buffer : Bytes) (data : Option Bytes) (o : ResponseOpener H) :
    List (Except UpstreamError Bytes) →
      List (Map × Map) × Except UpstreamError (ResponseOpener H)
  | .error e :: _ => ([], .error e)
  | [] =>
    if (buffer ++ utf8 "\n\n").length > maxSseBufferBytes then
      ([], .error (rejected "SSE line too long"))
    else
      match readLines sha256 canonicalize round data o (ended (buffer ++ utf8 "\n\n")) with
      | (log, .error e) => (log, .error e)
      | (log, .ok (.stopped o)) => (log, .ok o)
      | (log, .ok (.more _ o)) => (log, .ok o)
  | .ok chunk :: chunks =>
    if (buffer ++ chunk).length > maxSseBufferBytes then
      ([], .error (rejected "SSE line too long"))
    else
      match readLines sha256 canonicalize round data o (ended (buffer ++ chunk)) with
      | (log, .error e) => (log, .error e)
      | (log, .ok (.stopped o)) => (log, .ok o)
      | (log, .ok (.more data o)) =>
        let (log', reading) := readChunks (rest (buffer ++ chunk)) data o chunks
        (log ++ log', reading)

def verifiedEventStream (limit : Nat) (answers : String → Nat → Except String HttpResponse)
    (raw : List (Except UpstreamError Bytes)) (o : ResponseOpener H) (check : SignatureCheck) :
    List StreamEvent :=
  let (log, reading) := readChunks sha256 canonicalize round [] none o raw
  let verified : Except UpstreamError Unit := do
    let o ← reading
    let text ← (o.signedText sha256 true).mapError protocolError
    check.verify round recoverSigner limit answers text
  log.map (fun entry => .opened entry.1 entry.2) ++
    [match verified with
      | .ok () => .done
      | .error e => .failed e]

/-- The backend with what surrounds it: the limit of its buffers, the broker's address for an
endpoint, the router, and the broker's answers to requests for a signature. -/
structure ZeroGProviderBackend where
  maxBufferedResponseBytes : Nat
  brokerApi : String → Except String String
  post : RouterRequest → Except UpstreamError HttpResponse
  answers : String → Nat → Except String HttpResponse

namespace ZeroGProviderBackend

/-- The provider, its broker's address and the sealed request. -/
def sealRequest (b : ZeroGProviderBackend) (secret : H.Secret) (req : PreparedUpstreamRequest)
    (event : UpstreamVerifiedEvent) :
    Except UpstreamError (VerifiedProvider × String × Value × OpenerSeed H) := do
  ensure (req.path.getD chatCompletionsPath = chatCompletionsPath)
    (.invalidRequest "0G Private Computer serves only /v1/chat/completions")
  let request ← okOr (readMap round req.body) (.invalidRequest "invalid JSON request body")
  let model := ((request.get? "model").bind Value.asStr?).getD ""
  let (provider, encPub) ← okOr (boundProvider sha256 event model)
    (.channelBindingMismatch ("no verified 0G provider is bound for model \"" ++ model ++ "\""))
  let api ← (b.brokerApi provider.endpoint).mapError .transport
  let (envelope, seed) ← sealChatRequest sha256 canonicalize H secret request encPub
    provider.signingAddress
  pure (provider, api, envelope, seed)

def send (b : ZeroGProviderBackend) (secret : H.Secret) (req : PreparedUpstreamRequest)
    (event : UpstreamVerifiedEvent) :
    Except UpstreamError (HttpResponse × ResponseOpener H × SignatureCheck) := do
  let (provider, api, envelope, seed) ← b.sealRequest sha256 canonicalize round secret req event
  let response ← b.post (routerRequest provider envelope)
  ensure (response.status = 200) (.upstream (UInt16.ofNat response.status))
  let key ← okOr (response.resKey.filter isSignatureKey)
    (rejected "response carried no valid ZG-Res-Key")
  pure (response, ResponseOpener.new H seed,
    ⟨api ++ "/proxy/signature/" ++ key, provider.signingAddress, provider.providerAddress⟩)

def forwardVerifiedPrepared (b : ZeroGProviderBackend) (secret : H.Secret)
    (req : PreparedUpstreamRequest) (event : UpstreamVerifiedEvent) :
    Except UpstreamError UpstreamResponse := do
  let (response, opener, check) ← b.send sha256 canonicalize round secret req event
  let body ← readBufferedUpstreamResponse b.maxBufferedResponseBytes response
  let frame ← okOr (readMap round body) (rejected "invalid body")
  let (opener, out) ← (opener.openFrame sha256 canonicalize round frame).mapError protocolError
  let text ← (opener.signedText sha256 false).mapError protocolError
  check.verify round recoverSigner b.maxBufferedResponseBytes b.answers text
  pure ⟨200, print (.obj out.members), "application/json", some check.provider⟩

def forwardStreamVerifiedPrepared (b : ZeroGProviderBackend) (secret : H.Secret)
    (req : PreparedUpstreamRequest) (event : UpstreamVerifiedEvent) :
    Except UpstreamError (List StreamEvent) := do
  let (response, opener, check) ← b.send sha256 canonicalize round secret req event
  ensure (response.contentType.any (fun t => "text/event-stream".toList.isPrefixOf t.toList))
    (rejected "a streamed response must be text/event-stream")
  pure (verifiedEventStream sha256 canonicalize round recoverSigner b.maxBufferedResponseBytes
    b.answers response.body opener check)

end ZeroGProviderBackend

end

variable {sha256 : Bytes → Bytes} {canonicalize : Value → Except String Bytes}
  {round : Bytes → Option FloatText} {recoverSigner : String → String → Except String String}
  {H : Hpke} {secret : H.Secret} {seed : OpenerSeed H} {o o' o'' : ResponseOpener H}
  {frames frames' outs outs' : List Map} {log : List (Map × Map)} {data : Option Bytes}
  {b : ZeroGProviderBackend} {req : PreparedUpstreamRequest} {event : UpstreamVerifiedEvent}
  {provider : VerifiedProvider} {api : String} {envelope : Members} {request : Part}
  {Signed : SignedResponse → Prop} {answers : String → Nat → Except String HttpResponse}
  {check : SignatureCheck} (body : Bytes)

theorem openFrames_append
    (h : o.openFrames sha256 canonicalize round frames = .ok (o', outs))
    (h' : o'.openFrames sha256 canonicalize round frames' = .ok (o'', outs')) :
    o.openFrames sha256 canonicalize round (frames ++ frames') = .ok (o'', outs ++ outs') := by
  induction frames generalizing o outs with
  | nil =>
    obtain ⟨rfl, rfl⟩ := Prod.mk.inj (Except.ok.inj h)
    exact h'
  | cons frame frames ih =>
    simp only [openFrames, bind_eq_ok, pure_eq_ok, Prod.exists, Prod.mk.injEq, cons_append] at h ⊢
    obtain ⟨o₁, out, hframe, o₂, outs, hframes, rfl, rfl⟩ := h
    exact ⟨o₁, out, hframe, o'', outs ++ outs', ih hframes, rfl, rfl⟩

/-- The opener a reading stands at. -/
def Reading.opener : Reading H → ResponseOpener H
  | .more _ o => o
  | .stopped o => o

theorem readLine_opened {line : Bytes} {frame out : Map}
    (h : readLine sha256 canonicalize round data o line = .ok (.opened frame out o')) :
    o.openFrame sha256 canonicalize round frame = .ok (o', out) := by
  simp only [readLine] at h
  split at h
  · cases h
  · split at h
    · cases h
    · split at h
      · cases h
      · split at h
        · cases h
        · simp only [bind_eq_ok, okOr_eq_ok, mapError_eq_ok, pure_eq_ok, Prod.exists] at h
          obtain ⟨frame', -, o₁, out', hframe, hsame⟩ := h
          cases hsame
          exact hframe

theorem readLines_log {lines : List Bytes} {reading : Reading H}
    (h : readLines sha256 canonicalize round data o lines = (log, .ok reading)) :
    o.openFrames sha256 canonicalize round (log.map Prod.fst) =
      .ok (reading.opener, log.map Prod.snd) := by
  induction lines generalizing data o log with
  | nil =>
    obtain ⟨rfl, hreading⟩ := Prod.mk.inj h
    cases hreading
    rfl
  | cons line lines ih =>
    unfold readLines at h
    split at h
    · cases h
    · obtain ⟨rfl, hreading⟩ := Prod.mk.inj h
      cases hreading
      rfl
    · exact ih h
    · next frame out o₁ hline =>
      obtain ⟨rfl, hreading⟩ := Prod.mk.inj h
      have hrest := ih (Prod.ext rfl hreading)
      have hframe := readLine_opened hline
      have hone : o.openFrames sha256 canonicalize round [frame] = .ok (o₁, [out]) := by
        simp [openFrames, hframe, bind, Except.bind, pure, Except.pure]
      exact openFrames_append hone hrest

theorem readChunks_log {buffer : Bytes} {chunks : List (Except UpstreamError Bytes)}
    (h : readChunks sha256 canonicalize round buffer data o chunks = (log, .ok o')) :
    o.openFrames sha256 canonicalize round (log.map Prod.fst) = .ok (o', log.map Prod.snd) := by
  induction chunks generalizing buffer data o log with
  | nil =>
    unfold readChunks at h
    split at h
    · cases h
    · split at h
      · cases h
      · next hlines =>
        cases h
        exact readLines_log hlines
      · next hlines =>
        cases h
        exact readLines_log hlines
  | cons chunk chunks ih =>
    unfold readChunks at h
    split at h
    · cases h
    · next heq => cases heq
    · next heq =>
      cases heq
      split at h
      · cases h
      · split at h
        · cases h
        · next hlines =>
          cases h
          exact readLines_log hlines
        · next hlines =>
          obtain ⟨rfl, hreading⟩ := Prod.mk.inj h
          rw [map_append, map_append]
          exact openFrames_append (readLines_log hlines) (ih (Prod.ext rfl hreading))

theorem eventBytes_ne_doneBytes (out : Map) : eventBytes out ≠ doneBytes := by
  intro h
  have hdone : doneBytes = utf8 "data: " ++ 91 :: utf8 "DONE]\n\n" := by decide
  rw [eventBytes, append_assoc, hdone, append_right_inj] at h
  cases hms : out.members with
  | nil => simp [hms, print] at h
  | cons m ms => simp [hms, print] at h

open StreamEvent

/-- Only a response that was read to its end and verified is done. -/
theorem done_item {limit : Nat} {raw : List (Except UpstreamError Bytes)}
    (h : .ok doneBytes ∈ (verifiedEventStream sha256 canonicalize round recoverSigner limit answers
      raw o check).filterMap item?) :
    ∃ log o' text, readChunks sha256 canonicalize round [] none o raw = (log, .ok o') ∧
      o'.signedText sha256 true = .ok text ∧
      check.verify round recoverSigner limit answers text = .ok () ∧
      verifiedEventStream sha256 canonicalize round recoverSigner limit answers raw o check =
        log.map (fun entry => .opened entry.1 entry.2) ++ [.done] := by
  unfold verifiedEventStream at h ⊢
  generalize readChunks sha256 canonicalize round [] none o raw = result at h ⊢
  obtain ⟨log, reading⟩ := result
  simp only [filterMap_append, mem_append, mem_filterMap] at h
  rcases h with ⟨e, he, hitem⟩ | ⟨e, he, hitem⟩
  · obtain ⟨entry, -, rfl⟩ := mem_map.mp he
    simp only [item?] at hitem
    split at hitem
    · exact absurd (Except.ok.inj (Option.some.inj hitem)) (eventBytes_ne_doneBytes _)
    · cases hitem
  · rw [mem_singleton.mp he] at hitem
    split at hitem
    · next hverified =>
      simp only [bind_eq_ok, mapError_eq_ok] at hverified
      obtain ⟨o', rfl, text, htext, hverify⟩ := hverified
      refine ⟨log, o', text, rfl, htext, hverify, ?_⟩
      simp only [htext, hverify, bind, Except.bind, Except.mapError]
    · cases hitem

/-- What the events of a complete stream tell of its frames. -/
theorem filterMap_frame? (log : List (Map × Map)) :
    (log.map (fun entry => opened entry.1 entry.2) ++ [done]).filterMap
      frame? = log.map Prod.fst := by
  induction log with
  | nil => rfl
  | cons entry log ih =>
    rw [map_cons, cons_append, filterMap_cons, ih, map_cons]
    rfl

/-- The items of a complete stream. -/
theorem filterMap_item? (log : List (Map × Map)) :
    (log.map (fun entry => opened entry.1 entry.2) ++ [done]).filterMap
      item? = ((log.map Prod.snd).filter carries).map (fun out => .ok (eventBytes out)) ++
        [.ok doneBytes] := by
  induction log with
  | nil => rfl
  | cons entry log ih =>
    rw [map_cons, cons_append, map_cons, filter_cons, filterMap_cons, ih, item?]
    cases carries entry.2 <;> rfl

open SignatureCheck

theorem verify_eq_ok {limit : Nat} {text : String}
    (h : check.verify round recoverSigner limit answers text = .ok ()) :
    ∃ signature, verifySignature recoverSigner signature text check.signer = .ok () := by
  simp only [verify, bind_eq_ok, mapError_eq_ok] at h
  obtain ⟨signature, -, h⟩ := h
  exact ⟨signature, h⟩

/-- The frame the router delivers as a whole. -/
def ZeroGProviderBackend.deliveredFrame (b : ZeroGProviderBackend)
    (round : Bytes → Option FloatText) (provider : VerifiedProvider) (envelope : Value) :
    Option Map := do
  let response ← (b.post (routerRequest provider envelope)).toOption
  let body ← (readBufferedUpstreamResponse b.maxBufferedResponseBytes response).toOption
  readMap round body

open ZeroGProviderBackend

theorem requestHash_of_sealRequest
    (hsent : b.sealRequest sha256 canonicalize round secret req event =
      .ok (provider, api, .obj envelope, seed))
    (hrequest : partOf canonicalize envelope = some request) :
    seed.requestHash = request.hash sha256 := by
  simp only [sealRequest, bind_eq_ok, ensure_eq_ok, okOr_eq_ok, mapError_eq_ok,
    pure_eq_ok, Prod.exists, Prod.mk.injEq] at hsent
  obtain ⟨-, -, _, -, _, _, -, _, -, _, _, hseal, rfl, rfl, rfl, rfl⟩ := hsent
  obtain ⟨-, -, -, enc, aad, ciphertext, -, haad, -, henvelope, rfl⟩ := sealChatRequest_eq_ok.mp hseal
  rw [Value.obj.inj henvelope, partOf_sealedEnvelope haad, Option.some.injEq] at hrequest
  rw [← hrequest]
  rfl

theorem send_eq_ok {response : HttpResponse} {opener : ResponseOpener H} {sent : Value}
    (hsent : b.sealRequest sha256 canonicalize round secret req event = .ok (provider, api, sent, seed))
    (h : b.send sha256 canonicalize round secret req event = .ok (response, opener, check)) :
    b.post (routerRequest provider sent) = .ok response ∧
      opener = new H seed ∧ check.signer = provider.signingAddress := by
  simp only [send, hsent, bind_eq_ok, ensure_eq_ok, okOr_eq_ok, pure_eq_ok,
    Prod.exists, Prod.mk.injEq, Except.ok.injEq] at h
  obtain ⟨_, _, _, _, ⟨rfl, rfl, rfl, rfl⟩, _, hpost, -, -, key, -, rfl, rfl, rfl⟩ := h
  exact ⟨hpost, rfl, rfl⟩

/-- A response the backend completes is the one the bound provider signed for this request: the
frames it opened are the frames that were signed, in order, the last one is the final one, and
what is passed on is made of decrypted members, members the associated data covers and the
model of the request. -/
theorem completed_response_signed
    (hsig : SignsOnly sha256 recoverSigner provider.signingAddress Signed)
    (hlen : ∀ x, (sha256 x).length = 32)
    (hsent : b.sealRequest sha256 canonicalize round secret req event =
      .ok (provider, api, .obj envelope, seed))
    (hrequest : partOf canonicalize envelope = some request) :
    (∀ response,
      b.forwardVerifiedPrepared sha256 canonicalize round recoverSigner secret req event =
        .ok response →
      (∀ frame, b.deliveredFrame round provider (.obj envelope) = some frame →
        Set.InjOn sha256 (hashed sha256 canonicalize Signed request [frame])) →
      ∃ r out, Signed r ∧ r.stream = false ∧ r.request = request ∧
        Completed canonicalize round seed r [out] ∧ response.body = print (.obj out.members)) ∧
    (∀ events,
      b.forwardStreamVerifiedPrepared sha256 canonicalize round recoverSigner secret req event =
        .ok events →
      .ok doneBytes ∈ events.filterMap StreamEvent.item? →
      Set.InjOn sha256 (hashed sha256 canonicalize Signed request
        (events.filterMap StreamEvent.frame?)) →
      ∃ r outs, Signed r ∧ r.stream = true ∧ r.request = request ∧
        Completed canonicalize round seed r outs ∧
        events.filterMap StreamEvent.item? =
          (outs.filter carries).map (fun out => .ok (eventBytes out)) ++ [.ok doneBytes]) := by
  have hseed := requestHash_of_sealRequest hsent hrequest
  constructor
  · intro response h hinj
    simp only [forwardVerifiedPrepared, bind_eq_ok, okOr_eq_ok, mapError_eq_ok,
      pure_eq_ok, Prod.exists] at h
    obtain ⟨delivered, opener, check, hsend, body, hbody, frame, hframe, o, out, hopen, text, htext, _,
      hverify, rfl⟩ := h
    obtain ⟨hpost, rfl, hsigner⟩ := send_eq_ok hsent hsend
    obtain ⟨signature, hverify⟩ := verify_eq_ok hverify
    rw [hsigner] at hverify
    have hdelivered : b.deliveredFrame round provider (.obj envelope) = some frame := by
      simp [deliveredFrame, hpost, hbody, hframe, Except.toOption]
    have hopens : (new H seed).openFrames sha256 canonicalize round [frame] =
        .ok (o, [out]) := by
      simp [openFrames, hopen, bind, Except.bind, pure, Except.pure]
    obtain ⟨r, hr, hstream, hreq, hcompleted⟩ :=
      completed_of_signature hsig hlen (hinj frame hdelivered) hseed hopens htext hverify
    exact ⟨r, out, hr, hstream, hreq, hcompleted, rfl⟩
  · intro events h hdone hinj
    simp only [forwardStreamVerifiedPrepared, bind_eq_ok, pure_eq_ok, Prod.exists] at h
    obtain ⟨delivered, opener, check, hsend, -, -, rfl⟩ := h
    obtain ⟨-, rfl, hsigner⟩ := send_eq_ok hsent hsend
    obtain ⟨log, o, text, hread, htext, hverify, hevents⟩ := done_item hdone
    obtain ⟨signature, hverify⟩ := verify_eq_ok hverify
    rw [hsigner] at hverify
    rw [hevents, filterMap_frame?] at hinj
    obtain ⟨r, hr, hstream, hreq, hcompleted⟩ :=
      completed_of_signature hsig hlen hinj hseed (readChunks_log hread) htext hverify
    refine ⟨r, log.map Prod.snd, hr, hstream, hreq, hcompleted, ?_⟩
    rw [hevents, filterMap_item?]

/-- A hash of 32 bytes: the length and the last bytes. -/
def tailHash (b : Bytes) : Bytes :=
  byte b.length :: ((List.replicate 31 0 ++ b).reverse.take 31).reverse

/-- A cipher in the open. -/
def openHpke : Hpke where
  Secret := Unit
  validKey _ := true
  responsePublic _ := []
  encap _ _ := some []
  encrypt _ _ _ plaintext := some plaintext
  validEnc _ := true
  decrypt _ _ _ _ ciphertext := some ciphertext

def answeredProvider : VerifiedProvider :=
  ⟨"p", none, "e", "m", "s", hexEncode (List.replicate 32 0)⟩

def answeredEvent : UpstreamVerifiedEvent where
  verificationRound := none
  upstreamName := "u"
  providerType := none
  modelId := "m"
  urlOrigin := none
  verifierId := "v"
  result := .verified
  required := true
  reason := none
  evidence := none
  channelBindings := [.e2eePublicKeySha256 zeroGProvider (some "p") zeroGE2eeAlgorithm
    (hexEncode (tailHash (List.replicate 32 0)))]
  providerClaims := some (.obj [("instances", .obj [("p", .obj [("provider_address", .str "p"),
    ("endpoint", .str "e"), ("model", .str "m"), ("signing_address", .str "s"),
    ("e2ee_public_key", .str (hexEncode (List.replicate 32 0)))])])])
  aciIdentity := none

def answeredFrame : Map :=
  ⟨[(e2ee, .obj [("v", .num (.posInt 1)), ("enc", .str ""), ("sealed_fields", .arr [.str "choices"]),
    ("final", .bool true), ("ciphertext", .str (base64UrlEncode (utf8 "\x7b\"choices\":[1]\x7d")))])],
    by simp⟩

def answeredOut : Map := ⟨[("choices", .arr [.num (.posInt 1)])], by simp⟩

def answeredRequest : Part := ⟨[1], utf8 "\x7b\"messages\":[]\x7d"⟩

def answeredPart : Part := ⟨[1], utf8 "\x7b\"choices\":[1]\x7d"⟩

def answeredResponse (stream : Bool) : SignedResponse := ⟨stream, answeredRequest, [answeredPart], fun _ => rfl⟩

def answeringBackend (body : Bytes) (text : String) : ZeroGProviderBackend where
  maxBufferedResponseBytes := 1000
  brokerApi _ := .ok "b"
  post _ := .ok ⟨200, "200 OK", some "k", some "text/event-stream", none, [.ok body]⟩
  answers _ _ := .ok ⟨200, "200 OK", none, none, none,
    [.ok (print (.obj [("text", .str text), ("signature", .str "")]))]⟩

/-- The signer of both responses. -/
def recoverAnswered (text _signature : String) : Except String String :=
  if text = (answeredResponse true).text tailHash ∨ text = (answeredResponse false).text tailHash then
    .ok "s"
  else .error "malformed 0G signature"

def AnsweredSigned (r : SignedResponse) : Prop := r = answeredResponse true ∨ r = answeredResponse false

theorem signsOnly_answered : SignsOnly tailHash recoverAnswered "s" AnsweredSigned := by
  intro text signature recovered h _
  unfold recoverAnswered at h
  split at h
  · next htext =>
    rcases htext with rfl | rfl
    · exact ⟨_, .inl rfl, rfl⟩
    · exact ⟨_, .inr rfl, rfl⟩
  · cases h

theorem injOn_answered : Set.InjOn tailHash
    (hashed tailHash (fun _ => .ok [1]) AnsweredSigned answeredRequest [answeredFrame]) := by
  have hall : ∀ x ∈ hashed tailHash (fun _ => .ok [1]) AnsweredSigned answeredRequest [answeredFrame],
      x ∈ strings tailHash answeredRequest [answeredPart] := by
    rintro x (hx | ⟨r, rfl | rfl, hx⟩)
    · exact hx
    · exact hx
    · exact hx
  have hinj : ∀ x ∈ strings tailHash answeredRequest [answeredPart],
      ∀ y ∈ strings tailHash answeredRequest [answeredPart], tailHash x = tailHash y → x = y := by
    decide +kernel
  exact fun x hx y hy h => hinj x (hall x hx) y (hall y hy) h

def answeredChat : Map := ⟨[("model", .str "m"), ("messages", .arr [])], by simp⟩

def answeredReq : PreparedUpstreamRequest := ⟨print (.obj answeredChat.members), none⟩

def answeredEnvelope : Members :=
  sealedEnvelope tailHash openHpke () answeredChat (List.replicate 32 0) "s" []
    answeredRequest.ciphertext

def answeredSeed : OpenerSeed openHpke := ⟨(), answeredRequest.hash tailHash, some (.str "m")⟩

theorem sealRequest_answered (text : String) :
    (answeringBackend body text).sealRequest tailHash (fun _ => .ok [1]) (fun _ => none) ()
        answeredReq answeredEvent =
      .ok (answeredProvider, "b", .obj answeredEnvelope, answeredSeed) := by
  have hbody : readMap (fun _ => none) answeredReq.body = some answeredChat :=
    readMap_eq_some.mpr (fromSlice_print _ (by decide) rfl rfl)
  simp only [sealRequest, hbody]
  rfl

theorem send_answered (text : String) :
    (answeringBackend body text).send tailHash (fun _ => .ok [1]) (fun _ => none) () answeredReq
        answeredEvent =
      .ok (⟨200, "200 OK", some "k", some "text/event-stream", none, [.ok body]⟩,
        new openHpke answeredSeed, ⟨"b/proxy/signature/k", "s", "p"⟩) := by
  simp only [send, sealRequest_answered]
  rfl

theorem openFrame_answered :
    (new openHpke answeredSeed).openFrame tailHash (fun _ => .ok [1]) (fun _ => none)
        answeredFrame =
      .ok (⟨(), some ([], 1), answeredRequest.hash tailHash, some (.str "m"),
        [answeredPart.hash tailHash], true⟩, answeredOut) := by
  have hread : readMap (fun _ => none) answeredPart.ciphertext = some answeredOut :=
    readMap_eq_some.mpr (fromSlice_print (v := .obj answeredOut.members) _ (by decide) rfl rfl)
  simp only [openFrame, bind_eq_ok, ensure_eq_ok, okOr_eq_ok, pure_eq_ok]
  exact ⟨(), rfl, _, rfl, _, rfl, (), rfl, ([], 0), rfl, answeredPart.ciphertext, rfl, [1], rfl,
    answeredPart.ciphertext, rfl, answeredOut, hread, (), ⟨rfl, by decide⟩, rfl⟩

/-- The signature as the broker serves it. -/
def answeredSignature (stream : Bool) : Value :=
  .obj [("text", .str ((answeredResponse stream).text tailHash)), ("signature", .str "")]

theorem fetch_answered (stream : Bool) (url : String) :
    fetch (fun _ => none) 1000
        ((answeringBackend body ((answeredResponse stream).text tailHash)).answers url) =
      .ok ⟨(answeredResponse stream).text tailHash, ""⟩ := by
  have hread : fromSlice (fun _ => none) (print (answeredSignature stream)) =
      some (answeredSignature stream) :=
    fromSlice_print _ (by cases stream <;> decide) rfl rfl
  have hsmall : (print (answeredSignature stream)).length ≤ 1000 := by
    cases stream <;> decide +kernel
  have hbody : collectBody 1000 [] [.ok (print (answeredSignature stream))] =
      .ok (print (answeredSignature stream)) := if_neg (Nat.not_lt.mpr hsmall)
  have hfetch : fetch (fun _ => none) 1000
      ((answeringBackend body ((answeredResponse stream).text tailHash)).answers url) =
        (collectBody 1000 [] [.ok (print (answeredSignature stream))] >>= fun body =>
          okOr ((fromSlice (fun _ => none) body).bind decodeChatSignature)
            (.transport "malformed signature")) := rfl
  rw [hfetch, hbody, bind_eq_ok]
  exact ⟨_, rfl, by rw [hread]; rfl⟩

theorem verify_answered (stream : Bool) (url : String) :
    verify (fun _ => none) recoverAnswered ⟨url, "s", "p"⟩ 1000
        (answeringBackend body ((answeredResponse stream).text tailHash)).answers
        ((answeredResponse stream).text tailHash) = .ok () := by
  have hrecover : recoverAnswered ((answeredResponse stream).text tailHash) "" = .ok "s" := by
    refine if_pos ?_
    cases stream
    · exact .inr rfl
    · exact .inl rfl
  simp only [verify, fetch_answered, bind_eq_ok, mapError_eq_ok, verifySignature, ensure_eq_ok]
  exact ⟨_, rfl, (), rfl, "s", hrecover, eqIgnoreAsciiCase_refl _⟩

def answeredStream : Bytes := utf8 "data: " ++ print (.obj answeredFrame.members) ++ utf8 "\n\n"

/-- The opener after the frame. -/
def answeredOpener : ResponseOpener openHpke :=
  ⟨(), some ([], 1), answeredRequest.hash tailHash, some (.str "m"), [answeredPart.hash tailHash], true⟩

theorem readLine_answered :
    readLine tailHash (fun _ => .ok [1]) (fun _ => none) (some (print (.obj answeredFrame.members)))
        (new openHpke answeredSeed) [] =
      .ok (.opened answeredFrame answeredOut answeredOpener) := by
  have hread : readMap (fun _ => none) (print (.obj answeredFrame.members)) = some answeredFrame :=
    readMap_eq_some.mpr (fromSlice_print _ (by decide) rfl rfl)
  have hline : readLine tailHash (fun _ => .ok [1]) (fun _ => none)
      (some (print (.obj answeredFrame.members))) (new openHpke answeredSeed) [] =
        (okOr (readMap (fun _ => none) (print (.obj answeredFrame.members)))
          (rejected "invalid event") >>= fun frame =>
            (((new openHpke answeredSeed).openFrame tailHash (fun _ => .ok [1])
              (fun _ => none) frame).mapError protocolError) >>= fun opened =>
                pure (.opened frame opened.2 opened.1)) := rfl
  rw [hline, hread]
  simp only [bind_eq_ok, okOr_eq_ok, mapError_eq_ok, pure_eq_ok]
  exact ⟨_, rfl, _, openFrame_answered, rfl⟩

theorem readChunks_answered :
    readChunks tailHash (fun _ => .ok [1]) (fun _ => none) [] none
        (new openHpke answeredSeed) [.ok answeredStream] =
      ([(answeredFrame, answeredOut)], .ok answeredOpener) := by
  have hlines : ended answeredStream = [utf8 "data: " ++ print (.obj answeredFrame.members), []] := by
    decide +kernel
  have hrest : rest answeredStream = [] := by decide +kernel
  have hdata : readLine tailHash (fun _ => .ok [1]) (fun _ => none) none (new openHpke answeredSeed)
        (utf8 "data: " ++ print (.obj answeredFrame.members)) =
      .ok (.more (some (print (.obj answeredFrame.members)))) := rfl
  have hend : readChunks tailHash (fun _ => .ok [1]) (fun _ => none) [] none answeredOpener [] =
      ([], .ok answeredOpener) := rfl
  rw [readChunks, nil_append, if_neg (by decide +kernel), hlines, hrest]
  simp only [readLines, hdata, readLine_answered, hend, append_nil]

theorem completed_response_signed_once :
    (answeringBackend answeredStream
        ((answeredResponse true).text tailHash)).forwardStreamVerifiedPrepared (H := openHpke) tailHash
          (fun _ => .ok [1]) (fun _ => none) recoverAnswered () answeredReq answeredEvent =
      .ok [.opened answeredFrame answeredOut, .done] ∧
    ∃ r outs, AnsweredSigned r ∧ r.stream = true ∧ r.request = answeredRequest ∧
      Completed (fun _ => .ok [1]) (fun _ => none) answeredSeed r outs ∧
      [StreamEvent.opened answeredFrame answeredOut, .done].filterMap StreamEvent.item? =
        (outs.filter carries).map (fun out => .ok (eventBytes out)) ++ [.ok doneBytes] := by
  have hrun : (answeringBackend answeredStream
      ((answeredResponse true).text tailHash)).forwardStreamVerifiedPrepared (H := openHpke) tailHash
        (fun _ => .ok [1]) (fun _ => none) recoverAnswered () answeredReq answeredEvent =
      .ok [.opened answeredFrame answeredOut, .done] := by
    have htext : answeredOpener.signedText tailHash true =
        .ok ((answeredResponse true).text tailHash) := rfl
    have hverify := verify_answered answeredStream true "b/proxy/signature/k"
    simp only [forwardStreamVerifiedPrepared, send_answered, bind_eq_ok, pure_eq_ok]
    refine ⟨_, rfl, (), rfl, ?_⟩
    simp only [verifiedEventStream, readChunks_answered, htext, Except.mapError, bind, Except.bind]
    rw [show (answeringBackend answeredStream
      ((answeredResponse true).text tailHash)).maxBufferedResponseBytes = 1000 from rfl, hverify]
    rfl
  refine ⟨hrun, ?_⟩
  exact (completed_response_signed signsOnly_answered (by simp [tailHash])
    (sealRequest_answered _ _) rfl).2 _ hrun (mem_filterMap.mpr
      ⟨.done, mem_cons_of_mem _ mem_cons_self, rfl⟩) injOn_answered

end AciGateway.ZeroG
