import AciGateway.Lib.FinMap
import AciGateway.Lib.JsonDocument
import AciGateway.Lib.Results
import AciGateway.Lib.Text
import AciGateway.Upstream

/-! The model router that a configuration of upstreams builds, and what it prepares. -/
namespace AciGateway.Router

open Octets Json Results Text

inductive UpstreamProvider where
  | openAiCompatible
  | anthropic
  | aciService
  | chutes
  | tinfoil
  | nearAi
  | secretAi
  | privatemode
  | phalaDirect
  | armetAi
  | zeroGPrivateComputer
  deriving DecidableEq

inductive StreamingUsage where
  | final
  | continuous
  deriving DecidableEq

/-- What the router reads of an upstream's configuration. `models` maps public model ids to
the upstream's, in the order of the public ids. -/
structure UpstreamConfig where
  name : String
  provider : UpstreamProvider
  baseUrl : String
  path : Option String
  streamingUsage : Option StreamingUsage
  models : List (String × String)

/-- A request for some upstream; `Form` is an audio form whose file is not encoded yet. -/
structure UpstreamRequest (Form : Type) where
  form : Option Form
  contentType : Option String
  body : Bytes
  path : Option String
  targetRouteId : Option String

/-- A request for one upstream, with what was known of that upstream when it was chosen. -/
structure PreparedUpstreamRequest (Form : Type) where
  request : UpstreamRequest Form
  upstreamName : String
  urlOrigin : Option String
  modelId : String
  routeId : Option String
  isTee : Option Bool

/-- The backend of a provider. -/
structure ProviderBackend where
  provider : UpstreamProvider
  name : String
  baseUrl : String

def ProviderBackend.urlOrigin (b : ProviderBackend) : Option String := some b.baseUrl

/-- Only the 0G backend answers yes, whatever the request. -/
def ProviderBackend.requiresVerifiedBinding (b : ProviderBackend) : Bool :=
  b.provider = .zeroGPrivateComputer

structure ModelRoute where
  forceVerboseJson : Bool
  publicModelId : String
  upstreamModelId : String
  upstream : ProviderBackend
  routeId : String
  path : Option String
  streamingUsage : Option StreamingUsage
  isTee : Option Bool

def ModelRoute.new (publicModelId upstreamModelId : String) (upstream : ProviderBackend)
    (routeId : String) : Except UpstreamError ModelRoute := do
  ensure (trim publicModelId ≠ "") (.routing "public model id must not be empty")
  ensure (trim upstreamModelId ≠ "") (.routing "upstream model id must not be empty")
  ensure (trim routeId ≠ "") (.routing "route id must not be empty")
  pure ⟨false, publicModelId, upstreamModelId, upstream, routeId, none, none, none⟩

/-- A path with a leading slash. -/
def rooted (path : String) : String :=
  if "/".toList.isPrefixOf path.toList then path else "/" ++ path

/-- `routes` holds every route under its own id. -/
structure ModelRouterBackend where
  name : String
  routes : FinMap String ModelRoute
  defaultRoutes : FinMap String String
  order : List String
  keyed : ∀ id route, routes.lookup id = some route → route.routeId = id

inductive UpstreamConfigError where
  | invalidConfig (message : String)

section Build

variable (debug : String → String)

def ModelRouterBackend.new (name : String) : ModelRouterBackend where
  name := name
  routes := ∅
  defaultRoutes := ∅
  order := []
  keyed _ _ h := by simp at h

/-- The first route of a public model is its default. -/
def ModelRouterBackend.insertRoute (r : ModelRouterBackend) (route : ModelRoute) :
    ModelRouterBackend :=
  let first := r.defaultRoutes.lookup route.publicModelId = none
  { name := r.name
    routes := r.routes.insert route.routeId route
    defaultRoutes :=
      if first then r.defaultRoutes.insert route.publicModelId route.routeId else r.defaultRoutes
    order := if first then r.order ++ [route.publicModelId] else r.order
    keyed := by
      intro id found h
      rw [FinMap.lookup_insert_eq] at h
      split at h
      · next hid => cases h; exact hid.symm
      · exact r.keyed id found h }

def ModelRouterBackend.addRoute (r : ModelRouterBackend) (route : ModelRoute) :
    Except UpstreamError ModelRouterBackend := do
  ensure (r.routes.lookup route.routeId = none)
    (.routing ("duplicate route id " ++ debug route.routeId))
  pure (r.insertRoute route)

def trimEndSlashes (url : String) : String := 
  String.ofList (url.toList.reverse.dropWhile (· = '/')).reverse

/-- `privatemodeProxy` is the address of the proxy the gateway is deployed with. -/
def buildProviderBackend (privatemodeProxy : Option String) (cfg : UpstreamConfig) :
    Except UpstreamConfigError ProviderBackend := do
  if cfg.provider = .privatemode then
    let proxy ← okOr privatemodeProxy (.invalidConfig ("Privatemode upstream " ++
      debug cfg.name ++ " requires static privatemode_proxy gateway config"))
    ensure (trimEndSlashes cfg.baseUrl = proxy) (.invalidConfig ("Privatemode upstream " ++
      debug cfg.name ++ " base_url " ++ debug cfg.baseUrl ++
      " does not match static proxy endpoint " ++ debug proxy))
  pure ⟨cfg.provider, cfg.name, trimEndSlashes cfg.baseUrl⟩

def providerIsTee : UpstreamProvider → Bool
  | .openAiCompatible | .anthropic => false
  | .aciService | .chutes | .tinfoil | .nearAi | .secretAi | .privatemode | .phalaDirect
  | .armetAi | .zeroGPrivateComputer => true

def modelRoute (cfg : UpstreamConfig) (backend : ProviderBackend) (model : String × String) :
    Except UpstreamError ModelRoute := do
  let route ← ModelRoute.new model.1 model.2 backend (cfg.name ++ ":" ++ model.1)
  pure { route with
    path := cfg.path.map rooted
    streamingUsage := cfg.streamingUsage
    forceVerboseJson := cfg.provider = .nearAi
    isTee := some (providerIsTee cfg.provider) }

/-- `display` is the text of an error. -/
def addModel (display : UpstreamError → String) (cfg : UpstreamConfig) (backend : ProviderBackend)
    (router : ModelRouterBackend) (model : String × String) :
    Except UpstreamConfigError ModelRouterBackend := do
  let route ← (modelRoute cfg backend model).mapError (fun e => .invalidConfig (display e))
  (router.addRoute debug route).mapError (fun e => .invalidConfig (display e))

def buildModelRouter (display : UpstreamError → String) (privatemodeProxy : Option String)
    (config : List UpstreamConfig) : Except UpstreamConfigError ModelRouterBackend :=
  config.foldlM (fun router cfg => do
    let backend ← buildProviderBackend debug privatemodeProxy cfg
    cfg.models.foldlM (addModel debug display cfg backend) router) (.new "model-router")

end Build

section Prepare

variable {Form : Type} (round : Bytes → Option FloatText) (debug : String → String)

def requestModelId (body : Bytes) : Option String := do
  if body = [] then none
  let parsed ← fromSlice round body
  (← parsed.get? "model").asStr?

def rewriteRequestModel (body : Bytes) (upstreamModelId : String) : Except UpstreamError Bytes := do
  let parsed ← okOr (fromSlice round body) (.routing "invalid JSON request body")
  match parsed with
  | .obj ms =>
    match ms.lookup "model" with
    | some (.str _) => pure (print (.obj (setMember "model" (.str upstreamModelId) ms)))
    | _ => .error (.routing "request body must contain a string model field")
  | _ => .error (.routing "request body must be a JSON object")

def setVerboseJson (body : Bytes) : Except UpstreamError Bytes := do
  let metadata ← okOr (fromSlice round body) (.invalidRequest "invalid JSON")
  match metadata with
  | .obj ms => pure (print (.obj (setMember "response_format" (.str "verbose_json") ms)))
  | _ => .error (.invalidRequest "metadata is not an object")

def supportsStreamingUsage (path : String) : Bool :=
  "/chat/completions".toList.isSuffixOf path.toList || "/completions".toList.isSuffixOf path.toList

/-- The stream options with the usage asked for; options that are no object are replaced. -/
def StreamingUsage.options (policy : StreamingUsage) (given : Option Value) : Members :=
  let options := match given with
    | some (.obj ms) => ms
    | _ => []
  let options := setMember "include_usage" (.bool true) options
  if policy = .continuous then setMember "continuous_usage_stats" (.bool true) options else options

def StreamingUsage.apply (policy : StreamingUsage) (path : Option String) (body : Bytes) :
    Except UpstreamError Bytes :=
  if path.any supportsStreamingUsage then do
    let parsed ← okOr (fromSlice round body) (.routing "invalid JSON")
    match parsed with
    | .obj ms =>
      match ms.lookup "stream" with
      | some (.bool true) => pure (print (.obj
          (setMember "stream_options" (.obj (policy.options (ms.lookup "stream_options"))) ms)))
      | _ => pure body
    | _ => pure body
  else .ok body

namespace ModelRouterBackend

variable (r : ModelRouterBackend)

def routeForId (routeId : String) : Except UpstreamError ModelRoute :=
  okOr (r.routes.lookup routeId) (.routing ("unknown target route " ++ debug routeId))

def routeFor (publicModelId : String) : Except UpstreamError ModelRoute := do
  let routeId ← okOr (r.defaultRoutes.lookup publicModelId)
    (.routing ("no upstream route for model " ++ debug publicModelId))
  r.routeForId debug routeId

def routeFromPrepared (req : PreparedUpstreamRequest Form) : Except UpstreamError ModelRoute := do
  let routeId ← okOr req.routeId (.routing "prepared router request is missing route id")
  r.routeForId debug routeId

/-- Both chat surfaces are sent to the upstream's chat path. -/
def onChatSurface (path : Option String) : Bool :=
  path.all (fun path => path = "/v1/chat/completions" || path = "/v1/messages")

/-- The route the request names, or the default one of the model its body names. -/
def selectRoute (req : UpstreamRequest Form) : Except UpstreamError ModelRoute := do
  let bodyModelId ← okOr (requestModelId round req.body)
    (.routing "request body must contain a string model field")
  match req.targetRouteId with
  | some routeId => r.routeForId debug routeId
  | none => r.routeFor debug bodyModelId

/-- The path on the upstream. -/
def upstreamPath (route : ModelRoute) (path : Option String) : Option String :=
  if onChatSurface path then some (route.path.getD "/v1/chat/completions") else path

def prepareBody (route : ModelRoute) (req : UpstreamRequest Form) :
    Except UpstreamError Bytes := do
  let body ← rewriteRequestModel round req.body route.upstreamModelId
  let body ← (if req.form.isSome && route.forceVerboseJson then setVerboseJson round body
    else .ok body)
  match route.streamingUsage with
  | some policy => policy.apply round (upstreamPath route req.path) body
  | none => .ok body

def prepare (req : UpstreamRequest Form) :
    Except UpstreamError (PreparedUpstreamRequest Form) := do
  let route ← r.selectRoute round debug req
  let body ← prepareBody round route req
  pure {
    request := { req with body, path := upstreamPath route req.path }
    upstreamName := route.upstream.name
    urlOrigin := route.upstream.urlOrigin
    modelId := route.upstreamModelId
    routeId := some route.routeId
    isTee := route.isTee }

def requiresVerifiedBinding (req : PreparedUpstreamRequest Form) : Bool :=
  match r.routeFromPrepared debug req with
  | .ok route => route.upstream.requiresVerifiedBinding
  | .error _ => false

end ModelRouterBackend

/-- Encode the audio form, once, after the route is chosen. -/
def PreparedUpstreamRequest.encodeAudio (p : PreparedUpstreamRequest Form)
    (encode : Form → Value → Except UpstreamError (Bytes × String)) :
    Except UpstreamError (PreparedUpstreamRequest Form) :=
  match p.request.form with
  | none => .ok p
  | some form => do
    let params ← okOr (fromSlice round p.request.body)
      (.invalidRequest "invalid transcription metadata")
    let (body, contentType) ← encode form params
    pure { p with request :=
      { p.request with form := none, body, contentType := some contentType } }

end Prepare

section Lemmas

variable {Form : Type} {round : Bytes → Option FloatText} {debug : String → String}
  {r : ModelRouterBackend} {route : ModelRoute} {p p' : PreparedUpstreamRequest Form}

theorem routeForId_ok {id : String} (h : r.routeForId debug id = .ok route) :
    r.routes.lookup id = some route ∧ route.routeId = id := by
  have hl := okOr_eq_ok.mp h
  exact ⟨hl, r.keyed id route hl⟩

theorem routeFromPrepared_ok (h : r.routeFromPrepared debug p = .ok route) :
    p.routeId = some route.routeId ∧ r.routes.lookup route.routeId = some route := by
  simp only [ModelRouterBackend.routeFromPrepared, bind_eq_ok, okOr_eq_ok] at h
  obtain ⟨id, hid, h⟩ := h
  obtain ⟨hl, rfl⟩ := routeForId_ok h
  exact ⟨hid, hl⟩

/-- The prepared request records the route it was prepared for. -/
def Records (p : PreparedUpstreamRequest Form) (route : ModelRoute) : Prop :=
  p.upstreamName = route.upstream.name ∧ p.urlOrigin = route.upstream.urlOrigin ∧
    p.modelId = route.upstreamModelId ∧ p.isTee = route.isTee

theorem prepare_ok {req : UpstreamRequest Form} (h : r.prepare round debug req = .ok p) :
    ∃ route, r.routes.lookup route.routeId = some route ∧ p.routeId = some route.routeId ∧
      Records p route := by
  simp only [ModelRouterBackend.prepare, bind_eq_ok, pure_eq_ok] at h
  obtain ⟨route, hroute, -, -, rfl⟩ := h
  refine ⟨route, ?_, rfl, rfl, rfl, rfl, rfl⟩
  simp only [ModelRouterBackend.selectRoute, bind_eq_ok] at hroute
  obtain ⟨model, -, hroute⟩ := hroute
  split at hroute
  · obtain ⟨hl, rfl⟩ := routeForId_ok hroute
    exact hl
  · simp only [ModelRouterBackend.routeFor, bind_eq_ok] at hroute
    obtain ⟨id, -, hroute⟩ := hroute
    obtain ⟨hl, rfl⟩ := routeForId_ok hroute
    exact hl

theorem encodeAudio_ok {encode : Form → Value → Except UpstreamError (Bytes × String)}
    (h : p.encodeAudio round encode = .ok p') : p' = { p with request := p'.request } := by
  unfold PreparedUpstreamRequest.encodeAudio at h
  split at h
  · cases h
    rfl
  · simp only [bind_eq_ok, pure_eq_ok] at h
    obtain ⟨-, -, -, -, rfl⟩ := h
    rfl

end Lemmas

end AciGateway.Router
