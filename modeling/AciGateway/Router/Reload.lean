import AciGateway.OpenAi.Backend
import AciGateway.Router.Model

/-! A request on its way through the gateway while the configuration of the upstreams is
replaced. Every step of the request reads the configuration that is installed by then. -/
namespace AciGateway.Router

open Octets Json Results Receipt Relation ModelRouterBackend

/-- The backend of the installed configuration. -/
inductive Installed where
  | empty
  | router (r : ModelRouterBackend)

section Machine

variable {Form : Type} (round : Bytes → Option FloatText) (debug : String → String)
  (display : UpstreamError → String) (privatemodeProxy : Option String)
  (encode : Form → Value → Except UpstreamError (Bytes × String)) (aciRequired : Bool)

def buildState (config : List UpstreamConfig) : Except UpstreamConfigError Installed :=
  if config = [] then .ok .empty
  else (buildModelRouter debug display privatemodeProxy config).map .router

def Installed.prepare (req : UpstreamRequest Form) :
    Installed → Except UpstreamError (PreparedUpstreamRequest Form)
  | .empty => .error (.routing "no upstreams configured")
  | .router r => r.prepare round debug req

def Installed.requiresVerifiedBinding (p : PreparedUpstreamRequest Form) : Installed → Bool
  | .empty => false
  | .router r => r.requiresVerifiedBinding debug p

/-- `forward_verified_prepared`, up to the backend that is handed the request. -/
def Installed.forwardVerifiedPrepared (p : PreparedUpstreamRequest Form)
    (event : UpstreamVerifiedEvent) : Installed → Except UpstreamError ModelRoute
  | .empty =>
    if event.channelBindings = [] then .error (.routing "no upstreams configured")
    else .error (.transport "backend unconfigured cannot enforce upstream channel bindings")
  | .router r => r.routeFromPrepared debug p

def channelBindingReverifyAttempts : Nat := 2

def attestedRouteEligible (isTee : Option Bool) : Bool := isTee = some true

/-- Where a request is. `acted` is the answer to `requires_verified_binding` that the
verification gate was given. -/
inductive Phase (Form : Type) where
  | received (req : UpstreamRequest Form)
  | prepared (p : PreparedUpstreamRequest Form)
  | decided (p : PreparedUpstreamRequest Form) (acted : Bool)
  | admitted (p : PreparedUpstreamRequest Form) (acted : Bool) (event : UpstreamVerifiedEvent)
  | forwarded (p : PreparedUpstreamRequest Form) (acted : Bool) (event : UpstreamVerifiedEvent)
  | ended

/-- The body handed to the backend of a route. -/
structure Delivery (Form : Type) where
  prepared : PreparedUpstreamRequest Form
  acted : Bool
  event : UpstreamVerifiedEvent
  route : ModelRoute

/-- `installs` and `deliveries` are the history: what was installed, and where the request was
by then; what was delivered. -/
structure State (Form : Type) where
  installed : Installed
  phase : Phase Form
  reverifyAttempts : Nat
  installs : List (Installed × Phase Form)
  deliveries : List (Delivery Form)

def State.initial (installed : Installed) (req : UpstreamRequest Form) : State Form :=
  ⟨installed, .received req, 0, [], []⟩

/-- The fail-closed gate: a required verification succeeded and binds a channel. -/
def Gate (required : Bool) (event : UpstreamVerifiedEvent) : Prop :=
  required = true → event.result = .verified ∧ event.channelBindings ≠ []

/-- The steps of one request and of the replacements beside it. The verifier may answer with
any event, and the request may end at any point: by a refusal, an error, its response or its
cancellation. -/
inductive Step : State Form → State Form → Prop
  | replace (s : State Form) (config : List UpstreamConfig) (installed : Installed)
      (h : buildState debug display privatemodeProxy config = .ok installed) :
      Step s { s with installed, installs := s.installs ++ [(installed, s.phase)] }
  | prepare (s : State Form) (req : UpstreamRequest Form) (p p' : PreparedUpstreamRequest Form)
      (hs : s.phase = .received req) (h : s.installed.prepare round debug req = .ok p)
      (he : p.encodeAudio round encode = .ok p')
      (hr : aciRequired = true → attestedRouteEligible p'.isTee = true) :
      Step s { s with phase := .prepared p' }
  | requires (s : State Form) (p : PreparedUpstreamRequest Form) (hs : s.phase = .prepared p) :
      Step s { s with phase := .decided p (s.installed.requiresVerifiedBinding debug p) }
  | verify (s : State Form) (p : PreparedUpstreamRequest Form) (acted : Bool)
      (event : UpstreamVerifiedEvent) (hs : s.phase = .decided p acted)
      (hg : Gate (aciRequired || acted) event) :
      Step s { s with phase := .admitted p acted event }
  | forward (s : State Form) (p : PreparedUpstreamRequest Form) (acted : Bool)
      (event : UpstreamVerifiedEvent) (route : ModelRoute)
      (hs : s.phase = .admitted p acted event)
      (h : s.installed.forwardVerifiedPrepared debug p event = .ok route) :
      Step s { s with
        phase := .forwarded p acted event
        deliveries := s.deliveries ++ [⟨p, acted, event, route⟩] }
  | reverify (s : State Form) (p : PreparedUpstreamRequest Form) (acted : Bool)
      (event : UpstreamVerifiedEvent) (hs : s.phase = .forwarded p acted event)
      (ha : s.reverifyAttempts < channelBindingReverifyAttempts) :
      Step s { s with phase := .prepared p, reverifyAttempts := s.reverifyAttempts + 1 }
  | finish (s : State Form) : Step s { s with phase := .ended }

end Machine

section Agreement

variable {Form : Type} (debug : String → String)

/-- The prepared request records the route, and the answer acted on is its backend's. -/
def Delivery.Matches (d : Delivery Form) : Prop :=
  Records d.prepared d.route ∧ d.acted = d.route.upstream.requiresVerifiedBinding

/-- If the configuration has a route under the prepared request's id, that route is the one
recorded, with the answer acted on where there is one already. -/
def Agrees (installed : Installed) (p : PreparedUpstreamRequest Form) (acted : Option Bool) :
    Prop :=
  ∀ r route, installed = .router r → r.routeFromPrepared debug p = .ok route →
    Records p route ∧ ∀ answer ∈ acted, answer = route.upstream.requiresVerifiedBinding

/-- `Agrees`, for the request where it is. -/
def Compatible (installed : Installed) : Phase Form → Prop
  | .received _ | .ended => True
  | .prepared p => Agrees debug installed p none
  | .decided p acted | .admitted p acted _ | .forwarded p acted _ =>
    Agrees debug installed p (some acted)

/-- Every configuration that was installed was compatible with the request in flight. -/
def CompatibleInstalls (s : State Form) : Prop := ∀ x ∈ s.installs, Compatible debug x.1 x.2

end Agreement

section Lemmas

variable {Form : Type} {round : Bytes → Option FloatText} {debug : String → String}
  {display : UpstreamError → String} {privatemodeProxy : Option String}
  {encode : Form → Value → Except UpstreamError (Bytes × String)} {aciRequired : Bool}
  {s s' : State Form} {installed : Installed} {p p' : PreparedUpstreamRequest Form}

theorem agrees_of_prepare {req : UpstreamRequest Form}
    (h : installed.prepare round debug req = .ok p) : Agrees debug installed p none := by
  rintro r route rfl hroute
  obtain ⟨route', hlookup, hid, hrec⟩ := prepare_ok h
  obtain ⟨hid', hlookup'⟩ := routeFromPrepared_ok hroute
  have hsame : route.routeId = route'.routeId := Option.some.inj (hid'.symm.trans hid)
  rw [hsame, hlookup] at hlookup'
  cases hlookup'
  exact ⟨hrec, by simp⟩

/-- Only the body of the request changes when its audio form is encoded. -/
theorem agrees_encodeAudio {acted : Option Bool} (he : p.encodeAudio round encode = .ok p')
    (h : Agrees debug installed p acted) : Agrees debug installed p' acted := by
  rw [encodeAudio_ok he]
  exact h

theorem agrees_requires (h : Agrees debug installed p none) :
    Agrees debug installed p (some (installed.requiresVerifiedBinding debug p)) := by
  rintro r route rfl hroute
  refine ⟨(h r route rfl hroute).1, ?_⟩
  rintro answer ⟨⟩
  simp [Installed.requiresVerifiedBinding, requiresVerifiedBinding, hroute]

theorem matches_of_forward {acted : Bool} {event : UpstreamVerifiedEvent} {route : ModelRoute}
    (ha : Agrees debug installed p (some acted))
    (h : installed.forwardVerifiedPrepared debug p event = .ok route) :
    (⟨p, acted, event, route⟩ : Delivery Form).Matches := by
  cases installed with
  | empty =>
    rw [Installed.forwardVerifiedPrepared] at h
    split at h <;> cases h
  | router r =>
    obtain ⟨hrec, hacted⟩ := ha r route rfl h
    exact ⟨hrec, hacted acted rfl⟩

/-- The request agrees with what is installed, and so did every delivery. -/
def Consistent (debug : String → String) (s : State Form) : Prop :=
  Compatible debug s.installed s.phase ∧ ∀ d ∈ s.deliveries, d.Matches

theorem consistent_step
    (h : Step round debug display privatemodeProxy encode aciRequired s s')
    (hc : CompatibleInstalls debug s') (hi : Consistent debug s) : Consistent debug s' := by
  obtain ⟨hnow, hdel⟩ := hi
  cases h with
  | replace config installed h =>
    exact ⟨hc (installed, s.phase) (List.mem_append_right _ (List.mem_singleton_self _)), hdel⟩
  | prepare req p p' hs h he hr =>
    exact ⟨agrees_encodeAudio he (agrees_of_prepare h), hdel⟩
  | requires p hs =>
    rw [hs] at hnow
    exact ⟨agrees_requires hnow, hdel⟩
  | verify p acted event hs hg =>
    rw [hs] at hnow
    exact ⟨hnow, hdel⟩
  | forward p acted event route hs h =>
    rw [hs] at hnow
    refine ⟨hnow, ?_⟩
    intro d hd
    rcases List.mem_append.mp hd with hd | hd
    · exact hdel d hd
    · rw [List.mem_singleton.mp hd]
      exact matches_of_forward hnow h
  | reverify p acted event hs ha =>
    rw [hs] at hnow
    -- The answer is forgotten: the next round asks again.
    refine ⟨?_, hdel⟩
    intro r route hr hroute
    exact ⟨(hnow r route hr hroute).1, by simp⟩
  | finish => exact ⟨trivial, hdel⟩

theorem compatibleInstalls_back
    (h : Step round debug display privatemodeProxy encode aciRequired s s')
    (hc : CompatibleInstalls debug s') : CompatibleInstalls debug s := by
  have hsub : s.installs ⊆ s'.installs := by
    cases h <;> simp
  exact fun x hx => hc x (hsub hx)

end Lemmas

/-- In every run in which each configuration installed was compatible with the request in
flight, each backend that got the body is the one the request was prepared for, and gave the
answer acted on. -/
theorem delivered_as_prepared {Form : Type} {round : Bytes → Option FloatText}
    {debug : String → String} {display : UpstreamError → String} {privatemodeProxy : Option String}
    {encode : Form → Value → Except UpstreamError (Bytes × String)} {aciRequired : Bool}
    {installed : Installed} {req : UpstreamRequest Form} {s : State Form}
    (hrun : ReflTransGen (Step round debug display privatemodeProxy encode aciRequired)
      (.initial installed req) s)
    (hc : CompatibleInstalls debug s) : ∀ d ∈ s.deliveries, d.Matches := by
  have hi : Consistent debug s :=
    Runs.invariant_under (fun h hc => compatibleInstalls_back h hc)
      (fun h hc hi => consistent_step h hc hi) hrun
      (fun _ => ⟨trivial, fun _ hd => nomatch hd⟩) hc
  exact hi.2

/-! One upstream name whose address changes between the answer and the forward. -/

/-- The backend that forwards for an OpenAI-compatible upstream. -/
def ProviderBackend.openAi (b : ProviderBackend) : OpenAi.OpenAICompatibleBackend :=
  ⟨b.name, b.baseUrl, "/v1/chat/completions"⟩

namespace Swap

def config (url : String) : UpstreamConfig :=
  ⟨"up", .openAiCompatible, url, none, none, [("m", "m")]⟩

def backend (url : String) : ProviderBackend := ⟨.openAiCompatible, "up", trimEndSlashes url⟩

def route (url : String) : ModelRoute where
  forceVerboseJson := false
  publicModelId := "m"
  upstreamModelId := "m"
  upstream := backend url
  routeId := "up:m"
  path := none
  streamingUsage := none
  isTee := some false

def router (url : String) : ModelRouterBackend :=
  (ModelRouterBackend.new "model-router").insertRoute (route url)

variable (url : String)

theorem buildState_config :
    buildState id (fun _ => "") none [config url] = .ok (.router (router url)) := by
  have hback : buildProviderBackend id none (config url) = .ok (backend url) := by
    simp [buildProviderBackend, config, backend, pure, Except.pure]
  have hnew : ModelRoute.new "m" "m" (backend url) "up:m" =
      .ok ⟨false, "m", "m", backend url, "up:m", none, none, none⟩ := rfl
  have hroute : modelRoute (config url) (backend url) ("m", "m") = .ok (route url) := by
    simp [modelRoute, config, hnew, route, providerIsTee, bind, Except.bind, pure, Except.pure]
  have hadd : (new "model-router").addRoute id (route url) = .ok (router url) :=
    rfl
  have hmodels : (config url).models = [("m", "m")] := rfl
  simp [buildState, buildModelRouter, hback, hmodels, addModel, hroute, hadd, Except.mapError, bind,
    Except.bind, pure, Except.pure, Except.map]

theorem routeFromPrepared_router {p : PreparedUpstreamRequest Unit} (h : p.routeId = some "up:m") :
    (router url).routeFromPrepared id p = .ok (route url) := by
  simp only [routeFromPrepared, h]
  rfl

theorem requires_router {p : PreparedUpstreamRequest Unit} (h : p.routeId = some "up:m") :
    (Installed.router (router url)).requiresVerifiedBinding id p = false := by
  simp [Installed.requiresVerifiedBinding, requiresVerifiedBinding,
    routeFromPrepared_router url h, route, backend, ProviderBackend.requiresVerifiedBinding]

def request : UpstreamRequest Unit :=
  ⟨none, none, print (.obj [("model", .str "m")]), some "/v1/chat/completions", none⟩

def prepared (url : String) : PreparedUpstreamRequest Unit where
  request := request
  upstreamName := "up"
  urlOrigin := some (trimEndSlashes url)
  modelId := "m"
  routeId := some "up:m"
  isTee := some false

theorem prepare_request : (router url).prepare (fun _ => none) id request = .ok (prepared url) := by
  have hparse : fromSlice (fun _ => none) request.body = some (.obj [("model", .str "m")]) :=
    fromSlice_print (v := .obj [("model", .str "m")]) _ (by decide) (by decide) (by decide)
  have hroute : (router url).selectRoute (fun _ => none) id request = .ok (route url) := by
    have hmodel : requestModelId (fun _ => none) request.body = some "m" := by
      rw [requestModelId, hparse]
      rfl
    rw [selectRoute, hmodel]
    rfl
  have hbody : prepareBody (fun _ => none) (route url) request = .ok request.body := by
    rw [prepareBody, rewriteRequestModel, hparse]
    rfl
  rw [prepare, hroute]
  simp only [bind, Except.bind, hbody]
  rfl

/-- Nothing was verified, and nothing had to be. -/
def event : UpstreamVerifiedEvent where
  verificationRound := none
  upstreamName := "up"
  providerType := none
  modelId := "m"
  urlOrigin := none
  verifierId := "none"
  result := .failed
  required := false
  reason := none
  evidence := none
  channelBindings := []
  providerClaims := none
  aciIdentity := none

abbrev Moves : State Unit → State Unit → Prop :=
  Step (fun _ => none) id (fun _ => "") none (fun _ _ => .error .responseTooLarge) false

/-- The request, prepared for one address and forwarded under a configuration with another. -/
def swapped (url url' : String) : State Unit where
  installed := .router (router url')
  phase := .forwarded (prepared url) false event
  reverifyAttempts := 0
  installs := [(.router (router url'), .decided (prepared url) false)]
  deliveries := [⟨prepared url, false, event, route url'⟩]

theorem reaches_swapped (url' : String) :
    ReflTransGen Moves (.initial (.router (router url)) request) (swapped url url') := by
  have hprepare : Moves (.initial (.router (router url)) request)
      ⟨.router (router url), .prepared (prepared url), 0, [], []⟩ :=
    .prepare _ request _ _ rfl (prepare_request url) rfl (by simp)
  have hrequires : Moves ⟨.router (router url), .prepared (prepared url), 0, [], []⟩
      ⟨.router (router url), .decided (prepared url) false, 0, [], []⟩ := by
    have h : Moves ⟨.router (router url), .prepared (prepared url), 0, [], []⟩ _ :=
      .requires _ (prepared url) rfl
    rwa [requires_router url rfl] at h
  have hreplace : Moves ⟨.router (router url), .decided (prepared url) false, 0, [], []⟩
      ⟨.router (router url'), .decided (prepared url) false, 0,
        [(.router (router url'), .decided (prepared url) false)], []⟩ :=
    .replace _ [config url'] _ (buildState_config url')
  have hverify : Moves ⟨.router (router url'), .decided (prepared url) false, 0,
        [(.router (router url'), .decided (prepared url) false)], []⟩
      ⟨.router (router url'), .admitted (prepared url) false event, 0,
        [(.router (router url'), .decided (prepared url) false)], []⟩ :=
    .verify _ (prepared url) false event rfl (fun h => by cases h)
  have hforward : Moves ⟨.router (router url'), .admitted (prepared url) false event, 0,
        [(.router (router url'), .decided (prepared url) false)], []⟩ (swapped url url') :=
    .forward _ (prepared url) false event (route url') rfl (routeFromPrepared_router url' rfl)
  exact ((((ReflTransGen.single hprepare).tail hrequires).tail hreplace).tail hverify).tail hforward

end Swap

/-- A configuration that is installed again, with the same route. -/
theorem delivered_as_prepared_again :
    (Swap.swapped "https://a.example" "https://a.example").deliveries ≠ [] ∧
    ∀ d ∈ (Swap.swapped "https://a.example" "https://a.example").deliveries, d.Matches := by
  refine ⟨List.cons_ne_nil _ _, delivered_as_prepared (Swap.reaches_swapped _ _) ?_⟩
  intro x hx
  rw [List.mem_singleton.mp hx]
  intro r route hr hroute
  cases hr
  rw [Swap.routeFromPrepared_router _ rfl] at hroute
  cases hroute
  refine ⟨⟨rfl, rfl, rfl, rfl⟩, ?_⟩
  rintro answer ⟨⟩
  rfl

/-- The body of a request prepared for one address is posted to another, which was installed
under the same name while the request was being verified. -/
theorem delivered_elsewhere : ∃ s, ReflTransGen Swap.Moves
      (.initial (.router (Swap.router "https://a.example")) Swap.request) s ∧
    ∃ d ∈ s.deliveries, d.prepared.urlOrigin = some "https://a.example" ∧
      d.route.upstream.urlOrigin = some "https://b.example" ∧
      d.route.upstream.openAi.clientForEvent id none (fun _ => .error .responseTooLarge) d.event =
        .ok (.plain, none) ∧
      d.route.upstream.openAi.requestUrl ⟨d.prepared.request.body, d.prepared.request.path⟩ =
        "https://b.example/v1/chat/completions" :=
  ⟨_, Swap.reaches_swapped "https://a.example" "https://b.example", _,
    List.mem_singleton_self _, rfl, rfl, rfl, rfl⟩

end AciGateway.Router
