import AciGateway.Lib.HttpClient
import AciGateway.Lib.Sha2
import AciGateway.Receipt.Builder
import AciGateway.Upstream
import Mathlib.Data.List.Destutter

/-! The forwarding backend of an OpenAI-compatible upstream, and the TLS channel it binds a
verified request to. -/
namespace AciGateway.OpenAi

open Octets Digest Results Session Receipt HttpClient Relation

structure OpenAICompatibleBackend where
  name : String
  baseUrl : String
  path : String

/-- The backend's own client, or a client that accepts only the given keys; two clients that
were built apart have different numbers and share no connection. -/
inductive Client where
  | plain
  | pinned (built : Nat) (accepted : List String)
  deriving DecidableEq

structure CachedPinnedClient where
  acceptedSpkis : List String
  client : Client

def getOrBuild (current : Option CachedPinnedClient) (acceptedSpkis : List String)
    (build : List String → Except UpstreamError Client) :
    Except UpstreamError (Client × Option CachedPinnedClient) :=
  match current.filter (fun cached => cached.acceptedSpkis = acceptedSpkis) with
  | some cached => .ok (cached.client, current)
  | none => do
    let client ← build acceptedSpkis
    pure (client, some ⟨acceptedSpkis, client⟩)

inductive CertificateError where
  | applicationVerificationFailure
  | badEncoding

section Tls

variable (sha256 : Bytes → Bytes) (publicKey : Bytes → Option Bytes)

/-- `SpkiPinVerifier`; `publicKey` reads the subject public key out of a certificate. -/
def verifyServerCert (accepted : List String) (endEntity : Bytes) :
    Except CertificateError Unit := do
  ensure (accepted ≠ []) .applicationVerificationFailure
  let key ← okOr (publicKey endEntity) .badEncoding
  ensure (sha256BareHex sha256 key ∈ accepted) .applicationVerificationFailure

/-- `webpki` is the verifier of a client that has none of its own. -/
def Client.accepts (webpki : Bytes → Prop) : Client → Bytes → Prop
  | .plain, cert => webpki cert
  | .pinned _ accepted, cert => verifyServerCert sha256 publicKey accepted cert = .ok ()

end Tls

namespace OpenAICompatibleBackend

variable (debug : String → String) (b : OpenAICompatibleBackend)

/-- The keys the bindings of an event name; `debug` quotes a text in a message. -/
def boundSpkis : List ChannelBinding → Except UpstreamError (List String)
  | [] => .ok []
  | .tlsSpkiSha256 origin spkiSha256 :: bindings =>
    if origin = b.baseUrl then (boundSpkis bindings).map (spkiSha256 :: ·)
    else .error (.transport ("verified TLS SPKI binding origin " ++ debug origin ++
      " does not match upstream " ++ debug b.baseUrl))
  | .e2eePublicKeySha256 provider _ algorithm _ :: _ =>
    .error (.transport ("backend " ++ b.name ++ " cannot enforce " ++ provider ++
      " E2EE binding " ++ debug algorithm))
  | .proxyImageSha256 provider _ _ :: _ =>
    .error (.transport ("backend " ++ b.name ++ " cannot enforce " ++ provider ++
      " proxy-image binding"))

/-- The client for an event, and the cache after it. -/
def clientForEvent (current : Option CachedPinnedClient)
    (pinnedSpkiClient : List String → Except UpstreamError Client)
    (event : UpstreamVerifiedEvent) :
    Except UpstreamError (Client × Option CachedPinnedClient) :=
  if event.channelBindings = [] then .ok (.plain, current)
  else do
    let spkis ← b.boundSpkis debug event.channelBindings
    ensure ("https://".toList.isPrefixOf b.baseUrl.toList)
      (.transport "TLS channel binding requires an https upstream")
    let accepted := (spkis.insertionSort (· ≤ ·)).destutter (· ≠ ·)
    getOrBuild current accepted pinnedSpkiClient

/-- The address a request is posted to. -/
def requestUrl (req : PreparedUpstreamRequest) : String := b.baseUrl ++ req.path.getD b.path

end OpenAICompatibleBackend

/-- The backend and its clients at work. `built` counts the pinned clients. -/
structure State where
  current : Option CachedPinnedClient
  built : Nat
  http : HttpClient.State Client (Option UpstreamVerifiedEvent) Bytes

def State.initial : State := ⟨none, 0, .initial⟩

/-- Hand the request to the HTTP client; an address that is none is an error there. -/
def State.post (s : State) (client : Client) (tag : Option UpstreamVerifiedEvent) :
    Option Url → State
  | none => s
  | some url =>
    { s with http := { s.http with exchanges := s.http.exchanges ++ [⟨client, tag, url, true, 0⟩] } }

section Steps

variable (sha256 : Bytes → Bytes) (publicKey : Bytes → Option Bytes) (webpki : Bytes → Prop)
  (debug : String → String) (parseUrl : String → Option Url) (b : OpenAICompatibleBackend)

/-- Calls of the backend, started at any time and in any number, between the events of the
network. A call with an error of its own changes nothing. -/
inductive Step : State → State → Prop
  | forward (s : State) (req : PreparedUpstreamRequest) :
      Step s (s.post .plain none (parseUrl (b.requestUrl req)))
  | forwardVerified (s : State) (req : PreparedUpstreamRequest) (event : UpstreamVerifiedEvent)
      (client : Client) (current : Option CachedPinnedClient)
      (h : b.clientForEvent debug s.current (fun keys => .ok (.pinned s.built keys)) event =
        .ok (client, current)) :
      Step s (State.post { s with current, built := s.built + 1 } client (some event)
        (parseUrl (b.requestUrl req)))
  | network (s : State) (http : HttpClient.State Client (Option UpstreamVerifiedEvent) Bytes)
      (h : HttpClient.Step (Client.accepts sha256 publicKey webpki) s.http http) :
      Step s { s with http }

end Steps

/-- An `https` address has the scheme `https`. -/
def SchemeRead (parseUrl : String → Option Url) : Prop :=
  ∀ text url, "https://".toList <+: text.toList → parseUrl text = some url → url.scheme = .https

section Lemmas

variable {sha256 : Bytes → Bytes} {publicKey : Bytes → Option Bytes} {webpki : Bytes → Prop}
  {debug : String → String} {parseUrl : String → Option Url} {b : OpenAICompatibleBackend}
  {s s' : State} {event : UpstreamVerifiedEvent}

open OpenAICompatibleBackend

theorem boundSpkis_mem {bindings : List ChannelBinding} {spkis : List String}
    (h : b.boundSpkis debug bindings = .ok spkis) :
    ∀ key ∈ spkis, ChannelBinding.tlsSpkiSha256 b.baseUrl key ∈ bindings := by
  induction bindings generalizing spkis with
  | nil => cases h; simp
  | cons binding bindings ih =>
    cases binding with
    | tlsSpkiSha256 origin spkiSha256 =>
      rw [boundSpkis] at h
      split at h
      · next ho =>
        obtain ⟨rest, hrest, rfl⟩ := map_eq_ok.mp h
        intro key hkey
        rcases List.mem_cons.mp hkey with rfl | hkey
        · rw [ho]
          exact List.mem_cons_self
        · exact List.mem_cons_of_mem _ (ih hrest key hkey)
      · cases h
    | e2eePublicKeySha256 provider keyId algorithm digest => cases h
    | proxyImageSha256 provider digest credential => cases h

theorem getOrBuild_ok {current current' : Option CachedPinnedClient} {keys : List String}
    {build : List String → Except UpstreamError Client} {client : Client}
    (h : getOrBuild current keys build = .ok (client, current')) :
    (∃ cached, current = some cached ∧ cached.acceptedSpkis = keys ∧ client = cached.client ∧
      current' = current) ∨
    build keys = .ok client ∧ current' = some ⟨keys, client⟩ := by
  rw [getOrBuild] at h
  split at h
  · next cached hc =>
    obtain ⟨hc, hk⟩ := Option.filter_eq_some_iff.mp hc
    cases h
    exact .inl ⟨cached, hc, of_decide_eq_true hk, rfl, rfl⟩
  · obtain ⟨built, hb, hp⟩ := bind_eq_ok.mp h
    cases hp
    exact .inr ⟨hb, rfl⟩

/-- The client in the cache accepts the keys it is cached for. -/
def CacheMatches (s : State) : Prop :=
  ∀ cached, s.current = some cached → ∃ n, cached.client = .pinned n cached.acceptedSpkis

/-- The client an event with bindings gets accepts only keys its bindings name, at an
upstream whose address is `https`. -/
def BoundTo (b : OpenAICompatibleBackend) (event : UpstreamVerifiedEvent) (client : Client) :
    Prop :=
  "https://".toList <+: b.baseUrl.toList ∧ ∃ n accepted, client = .pinned n accepted ∧
    ∀ key ∈ accepted, ChannelBinding.tlsSpkiSha256 b.baseUrl key ∈ event.channelBindings

theorem clientForEvent_spec (hc : CacheMatches s) {n : Nat} {client : Client}
    {current : Option CachedPinnedClient}
    (h : b.clientForEvent debug s.current (fun keys => .ok (.pinned n keys)) event =
      .ok (client, current)) :
    CacheMatches { s with current } ∧ (event.channelBindings ≠ [] → BoundTo b event client) := by
  rw [clientForEvent] at h
  split at h
  · next he =>
    cases h
    exact ⟨hc, fun hne => absurd he hne⟩
  · simp only [bind_eq_ok, ensure_eq_ok] at h
    obtain ⟨spkis, hspkis, -, hhttps, h⟩ := h
    have hkeys : ∀ key ∈ (spkis.insertionSort (· ≤ ·)).destutter (· ≠ ·),
        ChannelBinding.tlsSpkiSha256 b.baseUrl key ∈ event.channelBindings := by
      intro key hkey
      have hsorted := (List.destutter_sublist _ _).subset hkey
      exact boundSpkis_mem hspkis key ((List.mem_insertionSort _).mp hsorted)
    rw [List.isPrefixOf_iff_prefix] at hhttps
    rcases getOrBuild_ok h with ⟨cached, hcached, hk, rfl, rfl⟩ | ⟨hb, rfl⟩
    · obtain ⟨m, hm⟩ := hc cached hcached
      refine ⟨hc, fun _ => ⟨hhttps, m, _, hm, ?_⟩⟩
      rw [hk]
      exact hkeys
    · cases hb
      refine ⟨?_, fun _ => ⟨hhttps, n, _, rfl, hkeys⟩⟩
      intro cached hcached
      cases hcached
      exact ⟨n, rfl⟩

/-- A request for an event with bindings goes through a client of these bindings, and carries
its body to `https` addresses only. -/
def Guarded (b : OpenAICompatibleBackend) (e : Exchange Client (Option UpstreamVerifiedEvent)) :
    Prop :=
  ∀ event, e.tag = some event → event.channelBindings ≠ [] →
    BoundTo b event e.client ∧ (e.body = true → e.url.scheme = .https)

/-- No response leads the body of a bound request to an address that is not `https`. -/
def BodyStaysOnHttps (s : State) : Prop :=
  ∀ e r e', (e, r) ∈ s.http.answers → follow e r = some e' → e'.body = true →
    ∀ event, e.tag = some event → event.channelBindings ≠ [] → e'.url.scheme = .https

structure Bound (sha256 : Bytes → Bytes) (publicKey : Bytes → Option Bytes)
    (webpki : Bytes → Prop) (b : OpenAICompatibleBackend) (s : State) : Prop where
  cache : CacheMatches s
  sound : Sound (Client.accepts sha256 publicKey webpki) s.http
  traced : Traced (Guarded b) s.http

theorem Bound.initial : Bound sha256 publicKey webpki b .initial where
  cache _ h := nomatch h
  sound := .initial
  traced := .initial

theorem Bound.post (hi : Bound sha256 publicKey webpki b s) {client : Client}
    {tag : Option UpstreamVerifiedEvent} {url : Option Url}
    (h : ∀ u, url = some u → Guarded b ⟨client, tag, u, true, 0⟩) :
    Bound sha256 publicKey webpki b (s.post client tag url) := by
  cases url with
  | none => exact hi
  | some u => exact ⟨hi.cache, ⟨hi.sound.verified, hi.sound.placed⟩, hi.traced.start (h u rfl)⟩

theorem https_requestUrl (h : "https://".toList <+: b.baseUrl.toList)
    (req : PreparedUpstreamRequest) : "https://".toList <+: (b.requestUrl req).toList := by
  rw [requestUrl, String.toList_append]
  exact h.trans (List.prefix_append _ _)

theorem guarded_of_follow (hs : BodyStaysOnHttps s)
    {e e' : Exchange Client (Option UpstreamVerifiedEvent)} {r : Response}
    (hm : (e, r) ∈ s.http.answers) (hg : Guarded b e) (hf : follow e r = some e') :
    Guarded b e' := by
  obtain ⟨hclient, htag⟩ := follow_keeps hf
  intro event hevent hne
  rw [htag] at hevent
  rw [hclient]
  exact ⟨(hg event hevent hne).1, fun hb => hs e r e' hm hf hb event hevent hne⟩

theorem bodyStaysOnHttps_back
    (h : Step sha256 publicKey webpki debug parseUrl b s s') (hs : BodyStaysOnHttps s') :
    BodyStaysOnHttps s := by
  have hsub : s.http.answers ⊆ s'.http.answers := by
    cases h with
    | forward req => cases parseUrl (b.requestUrl req) <;> exact fun _ hx => hx
    | forwardVerified req event client current h =>
      cases parseUrl (b.requestUrl req) <;> exact fun _ hx => hx
    | network http h => exact h.answers_subset
  intro e r e' hm
  exact hs e r e' (hsub hm)

theorem Bound.step (hparse : SchemeRead parseUrl)
    (h : Step sha256 publicKey webpki debug parseUrl b s s') (hs : BodyStaysOnHttps s')
    (hi : Bound sha256 publicKey webpki b s) : Bound sha256 publicKey webpki b s' := by
  cases h with
  | forward req => exact hi.post (fun _ _ _ hevent => by cases hevent)
  | forwardVerified req event client current h =>
    obtain ⟨hcache, hbound⟩ := clientForEvent_spec hi.cache h
    have hi' : Bound sha256 publicKey webpki b { s with current, built := s.built + 1 } :=
      ⟨hcache, hi.sound, hi.traced⟩
    refine hi'.post ?_
    intro url hurl event' hevent hne
    cases hevent
    have hb := hbound hne
    exact ⟨hb, fun _ => hparse _ url (https_requestUrl hb.1 req) hurl⟩
  | network http h =>
    exact ⟨hi.cache, hi.sound.step h, hi.traced.step h
      (fun e r e' hm hg hf => guarded_of_follow hs hm hg hf)⟩

end Lemmas

/-- In every run in which no response leads the body of a bound request to an address that is
not `https`, the body of a request for an event with a TLS binding is written only to a TLS
connection whose leaf key is one the event binds to the backend's address. -/
theorem bound_body_on_bound_key {sha256 : Bytes → Bytes} {publicKey : Bytes → Option Bytes}
    {webpki : Bytes → Prop} {debug : String → String} {parseUrl : String → Option Url}
    (hparse : SchemeRead parseUrl) {b : OpenAICompatibleBackend} {s : State}
    (hrun : ReflTransGen (Step sha256 publicKey webpki debug parseUrl b) .initial s)
    (hs : BodyStaysOnHttps s) {w : Write Client (Option UpstreamVerifiedEvent) Bytes}
    (hw : w ∈ s.http.writes) (hbody : w.exchange.body = true) {event : UpstreamVerifiedEvent}
    (htag : w.exchange.tag = some event) {origin key : String}
    (hbinding : ChannelBinding.tlsSpkiSha256 origin key ∈ event.channelBindings) :
    w.connection.scheme = .https ∧ ∃ cert leafKey, w.connection.leaf = some cert ∧
      publicKey cert = some leafKey ∧
      ChannelBinding.tlsSpkiSha256 b.baseUrl (sha256BareHex sha256 leafKey) ∈
        event.channelBindings := by
  have hi := Runs.invariant_under (fun h hs => bodyStaysOnHttps_back h hs)
      (fun h hs hi => hi.step hparse h hs) hrun (fun _ => Bound.initial) hs
  have hne := List.ne_nil_of_mem hbinding
  obtain ⟨⟨-, n, accepted, hclient, hkeys⟩, hscheme⟩ := hi.traced.writes w hw event htag hne
  obtain ⟨hk, howner, hsame⟩ := hi.sound.placed w hw
  have htls := hsame.trans (hscheme hbody)
  obtain ⟨cert, hleaf, hacc⟩ := hi.sound.verified _ hk htls
  rw [howner, hclient] at hacc
  simp only [Client.accepts, verifyServerCert, bind_eq_ok, ensure_eq_ok, okOr_eq_ok] at hacc
  obtain ⟨-, -, leafKey, hleafKey, hmem⟩ := hacc
  exact ⟨htls, cert, leafKey, hleaf, hleafKey, hkeys _ hmem⟩

/-! One upstream, one event that binds it to the key of a certificate, and its redirect. -/

namespace Bounce

def backend : OpenAICompatibleBackend := ⟨"tee", "https://tee.example", "/v1/chat/completions"⟩

def request : PreparedUpstreamRequest := ⟨utf8 "\x7b\x7d", none⟩

/-- Only `https` addresses are addresses here. -/
def parseUrl (text : String) : Option Url :=
  if "https://".toList.isPrefixOf text.toList then
    let rest := text.toList.drop 8
    some ⟨.https, String.ofList (rest.takeWhile (· ≠ '/')),
      String.ofList (rest.dropWhile (· ≠ '/'))⟩
  else none

theorem schemeRead_parseUrl : SchemeRead parseUrl := by
  intro text url hp h
  rw [parseUrl, if_pos (List.isPrefixOf_iff_prefix.mpr hp)] at h
  cases h
  rfl

def certificate : Bytes := [48]

def key : String := sha256BareHex Sha2.sha256 certificate

def event : UpstreamVerifiedEvent where
  verificationRound := none
  upstreamName := "tee"
  providerType := none
  modelId := "m"
  urlOrigin := some "https://tee.example"
  verifierId := "v"
  result := .verified
  required := true
  reason := none
  evidence := none
  channelBindings := [.tlsSpkiSha256 "https://tee.example" key]
  providerClaims := none
  aciIdentity := none

abbrev Moves : State → State → Prop :=
  Step Sha2.sha256 some (fun _ => False) id parseUrl backend

def posted : Exchange Client (Option UpstreamVerifiedEvent) where
  client := .pinned 0 [key]
  tag := some event
  url := ⟨.https, "tee.example", "/v1/chat/completions"⟩
  body := true
  redirects := 0

def tls : Connection Client Bytes := ⟨.pinned 0 [key], .https, "tee.example", some certificate⟩

def cached : CachedPinnedClient := ⟨[key], .pinned 0 [key]⟩

/-- The request written to the bound connection. -/
def sent : State := ⟨some cached, 1, [tls], [posted], [], [⟨posted, tls⟩]⟩

theorem clientForEvent_event :
    backend.clientForEvent id none (fun keys => .ok (.pinned 0 keys)) event =
      .ok (.pinned 0 [key], some cached) := by
  have hspkis : backend.boundSpkis id event.channelBindings = .ok [key] := by
    simp [event, OpenAICompatibleBackend.boundSpkis, backend, Except.map]
  have hne : event.channelBindings ≠ [] := by simp [event]
  have hhttps : "https://".toList.isPrefixOf backend.baseUrl.toList := by decide
  have hone : ([key].insertionSort (· ≤ ·)).destutter (· ≠ ·) = [key] := by simp
  rw [OpenAICompatibleBackend.clientForEvent, if_neg hne, hspkis]
  simp only [bind, Except.bind, ensure, hhttps, if_true, hone, getOrBuild, Option.filter_none, pure,
    Except.pure, cached]

theorem accepts_certificate :
    Client.accepts Sha2.sha256 some (fun _ => False) (.pinned 0 [key]) certificate := by
  simp [Client.accepts, verifyServerCert, ensure, okOr, key, bind, Except.bind]

theorem reaches_sent : ReflTransGen Moves .initial sent := by
  have hpost : Moves .initial ⟨some cached, 1, [], [posted], [], []⟩ :=
    Step.forwardVerified .initial request event _ _ clientForEvent_event
  have hshake : Moves ⟨some cached, 1, [], [posted], [], []⟩
      ⟨some cached, 1, [tls], [posted], [], []⟩ :=
    .network _ _ (.handshake _ _ "tee.example" certificate accepts_certificate)
  have hsend : Moves ⟨some cached, 1, [tls], [posted], [], []⟩ sent :=
    .network _ _ (.send _ posted tls (by simp) (by simp) rfl rfl rfl)
  exact ((ReflTransGen.single hpost).tail hshake).tail hsend

end Bounce

theorem bound_body_on_bound_key_sent :
    Bounce.tls.scheme = .https ∧ ∃ cert leafKey, Bounce.tls.leaf = some cert ∧
      some cert = some leafKey ∧ ChannelBinding.tlsSpkiSha256 Bounce.backend.baseUrl
        (sha256BareHex Sha2.sha256 leafKey) ∈ Bounce.event.channelBindings :=
  bound_body_on_bound_key Bounce.schemeRead_parseUrl Bounce.reaches_sent
    (fun _ _ _ h => nomatch h) (List.mem_singleton_self (⟨Bounce.posted, Bounce.tls⟩ : Write _ _ _))
    rfl rfl (List.mem_singleton_self _)

namespace Bounce

/-- Temporary redirect to an address without TLS. -/
def answer : Response := ⟨307, some ⟨.http, "other.example", "/"⟩⟩

def redirected : Exchange Client (Option UpstreamVerifiedEvent) :=
  { posted with url := ⟨.http, "other.example", "/"⟩, redirects := 1 }

def clear : Connection Client Bytes := ⟨.pinned 0 [key], .http, "other.example", none⟩

def leaked : State :=
  ⟨some cached, 1, [tls, clear], [redirected], [(posted, answer)],
    [⟨posted, tls⟩, ⟨redirected, clear⟩]⟩

theorem reaches_leaked : ReflTransGen Moves .initial leaked := by
  have hredirect : Moves sent
      ⟨some cached, 1, [tls], [redirected], [(posted, answer)], [⟨posted, tls⟩]⟩ :=
    .network _ _ (.redirect _ 0 posted redirected answer rfl rfl)
  have hconnect : Moves ⟨some cached, 1, [tls], [redirected], [(posted, answer)], [⟨posted, tls⟩]⟩
      ⟨some cached, 1, [tls, clear], [redirected], [(posted, answer)], [⟨posted, tls⟩]⟩ :=
    .network _ _ (.plain _ _ "other.example")
  have hsend : Moves
      ⟨some cached, 1, [tls, clear], [redirected], [(posted, answer)], [⟨posted, tls⟩]⟩ leaked :=
    .network _ _ (.send _ redirected clear (by simp) (by simp) rfl rfl rfl)
  exact ((reaches_sent.tail hredirect).tail hconnect).tail hsend

end Bounce

/-- The client follows the redirect of a bound upstream and writes the body in clear. -/
theorem bound_body_in_clear : ∃ s, ReflTransGen Bounce.Moves .initial s ∧ ∃ w ∈ s.http.writes,
    w.exchange.body = true ∧ w.exchange.tag = some Bounce.event ∧
    ChannelBinding.tlsSpkiSha256 Bounce.backend.baseUrl Bounce.key ∈
      Bounce.event.channelBindings ∧
    w.connection.scheme = .http ∧ w.connection.leaf = none :=
  ⟨Bounce.leaked, Bounce.reaches_leaked, ⟨Bounce.redirected, Bounce.clear⟩,
    by simp [Bounce.leaked], rfl, rfl, List.mem_singleton_self _, rfl, rfl⟩

end AciGateway.OpenAi
