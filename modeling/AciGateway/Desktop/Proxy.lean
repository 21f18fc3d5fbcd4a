import AciGateway.Desktop.Tokens
import Mathlib

/-! The local proxy: requests on their way to the verified service, and the calls that replace
its session and credentials meanwhile. Every read and write of the shared state is a step of
its own. -/
namespace AciGateway.Desktop

structure Session (Service Catalog : Type) where
  generation : Nat
  epoch : Nat
  sessionId : Option String
  service : Option Service
  verified : Bool
  catalog : Option Catalog

/-- Permission to forward one request through a verified session. -/
structure Lease (Service : Type) where
  generation : Nat
  epoch : Nat
  sessionId : String
  service : Service

/-- Who a request was admitted as, and under which credential epoch. -/
structure Auth where
  agent : String
  token : String
  epoch : Nat
  deriving DecidableEq

inductive Rejection where
  | unauthorized
  | forbidden
  | gatewayNotVerified
  | credentialsChanged
  | apiKeyMissing
  | invalidRequest
  | modelNotFound
  deriving DecidableEq

/-- What is shared: the session and whether its lock is held for writing, the credentials and
their epoch, the delivery token in force, and which tokens are cancelled. -/
structure Shared (Service Catalog : Type) where
  session : Session Service Catalog
  locked : Bool
  tokens : TokenSet
  apiKey : Option String
  credentialEpoch : Nat
  gate : Nat
  cancelled : Nat → Bool

/-- A request as it arrives: the token it presents, if any, and its path. -/
structure Incoming where
  token : Option String
  path : String
  surface : Surface

section Functions

variable {Service Catalog : Type}

/-- Whether the publication of a session revokes what was admitted under another. -/
def Session.revokes (current session : Session Service Catalog) : Bool :=
  current.generation ≠ session.generation || current.epoch ≠ session.epoch ||
    current.sessionId ≠ session.sessionId || current.service.isSome ≠ session.service.isSome ||
    current.verified ≠ session.verified || current.catalog.isSome ≠ session.catalog.isSome

def verifiedSession (session : Session Service Catalog) : Except Rejection (Lease Service) :=
  match session.service, session.verified, session.catalog with
  | some service, true, some _ =>
    .ok ⟨session.generation, session.epoch, session.sessionId.getD "unscoped", service⟩
  | _, _, _ => .error .gatewayNotVerified

def leaseValid (session : Session Service Catalog) (lease : Lease Service) : Bool :=
  session.verified && session.generation = lease.generation && session.epoch = lease.epoch &&
    session.catalog.isSome

/-- `authorize`, once it has loaded the credential epoch. -/
def authorize (tokens : TokenSet) (epoch : Nat) (incoming : Incoming) : Except Rejection Auth :=
  match incoming.token with
  | none => .error .unauthorized
  | some token =>
    match tokens.agentFor token with
    | none => .error .unauthorized
    | some agent =>
      if agentAllows agent incoming.path then .ok ⟨agent, token, epoch⟩ else .error .forbidden

/-- `current_key`, once it has found the credential epoch unchanged. -/
def currentKey (tokens : TokenSet) (apiKey : Option String) (auth : Auth) :
    Except Rejection String :=
  if tokens.agentFor auth.token ≠ some auth.agent then .error .unauthorized
  else
    match apiKey with
    | some key => .ok key
    | none => .error .apiKeyMissing

/-- `check_catalog`; `offers` says whether a model is listed, and with the surface. -/
def checkCatalog (offers : Catalog → String → Surface → Option Bool)
    (session : Session Service Catalog) (model : Option String) (surface : Surface) :
    Except Rejection Unit :=
  match model, session.catalog with
  | none, _ => .error .invalidRequest
  | some _, none => .error .gatewayNotVerified
  | some model, some catalog =>
    match offers catalog model surface with
    | none => .error .modelNotFound
    | some true => .ok ()
    | some false => .error .invalidRequest

end Functions

/-- What a request holds once it has taken its delivery token. -/
structure Grant (Service : Type) where
  auth : Auth
  lease : Lease Service
  delivery : Nat

/-- Where a request is. From `sending` on it is driven by polls, each of which looks at the
delivery token first: `polled` says that it has, and that the token was not cancelled. -/
inductive Phase (Service : Type) where
  | idle
  | arrived (incoming : Incoming)
  | epochLoaded (incoming : Incoming) (epoch : Nat)
  | authorized (incoming : Incoming) (auth : Auth)
  | leased (incoming : Incoming) (auth : Auth) (lease : Lease Service)
  | epochMatched (incoming : Incoming) (auth : Auth) (lease : Lease Service)
  | reading (incoming : Incoming) (auth : Auth) (lease : Lease Service)
  | checked (auth : Auth) (lease : Lease Service)
  | gated (grant : Grant Service)
  | leaseChecked (grant : Grant Service)
  | epochChecked (grant : Grant Service)
  | keyed (grant : Grant Service) (key : String)
  | sending (grant : Grant Service) (key : String) (polled : Bool)
  | awaiting (grant : Grant Service) (polled : Bool)
  | streaming (grant : Grant Service) (polled : Bool)
  | done

/-- What a request step shows outside. -/
inductive Action (Service : Type) where
  | silent
  | handed (service : Service) (key : String)
  | yielded (chunk : List UInt8)

section Requests

variable {Service Catalog : Type} (offers : Catalog → String → Surface → Option Bool)

/-- The steps of one request. It may end at any point: refused, failed, timed out, revoked,
answered, or dropped by its client. -/
inductive RequestStep (sh : Shared Service Catalog) :
    Phase Service → Action Service → Phase Service → Prop
  | arrive (incoming : Incoming) : RequestStep sh .idle .silent (.arrived incoming)
  | loadEpoch (incoming : Incoming) :
      RequestStep sh (.arrived incoming) .silent (.epochLoaded incoming sh.credentialEpoch)
  | authorize (incoming : Incoming) (epoch : Nat) (auth : Auth)
      (h : authorize sh.tokens epoch incoming = .ok auth) :
      RequestStep sh (.epochLoaded incoming epoch) .silent (.authorized incoming auth)
  | lease (incoming : Incoming) (auth : Auth) (lease : Lease Service) (hl : sh.locked = false)
      (h : verifiedSession sh.session = .ok lease) :
      RequestStep sh (.authorized incoming auth) .silent (.leased incoming auth lease)
  | matchEpoch (incoming : Incoming) (auth : Auth) (lease : Lease Service)
      (h : sh.credentialEpoch = auth.epoch) :
      RequestStep sh (.leased incoming auth lease) .silent (.epochMatched incoming auth lease)
  | matchKey (incoming : Incoming) (auth : Auth) (lease : Lease Service) (key : String)
      (h : currentKey sh.tokens sh.apiKey auth = .ok key) :
      RequestStep sh (.epochMatched incoming auth lease) .silent (.reading incoming auth lease)
  | read (incoming : Incoming) (auth : Auth) (lease : Lease Service) (model : Option String)
      (hl : sh.locked = false)
      (h : checkCatalog offers sh.session model incoming.surface = .ok ()) :
      RequestStep sh (.reading incoming auth lease) .silent (.checked auth lease)
  | takeGate (auth : Auth) (lease : Lease Service) :
      RequestStep sh (.checked auth lease) .silent (.gated ⟨auth, lease, sh.gate⟩)
  | checkLease (g : Grant Service) (hl : sh.locked = false)
      (h : leaseValid sh.session g.lease = true) :
      RequestStep sh (.gated g) .silent (.leaseChecked g)
  | checkEpoch (g : Grant Service) (h : sh.credentialEpoch = g.auth.epoch) :
      RequestStep sh (.leaseChecked g) .silent (.epochChecked g)
  | takeKey (g : Grant Service) (key : String)
      (h : currentKey sh.tokens sh.apiKey g.auth = .ok key) :
      RequestStep sh (.epochChecked g) .silent (.keyed g key)
  | send (g : Grant Service) (key : String) (h : sh.cancelled g.delivery = false) :
      RequestStep sh (.keyed g key) .silent (.sending g key false)
  | pollSend (g : Grant Service) (key : String) (h : sh.cancelled g.delivery = false) :
      RequestStep sh (.sending g key false) .silent (.sending g key true)
  | hand (g : Grant Service) (key : String) :
      RequestStep sh (.sending g key true) (.handed g.lease.service key) (.awaiting g false)
  | pollCall (g : Grant Service) (h : sh.cancelled g.delivery = false) :
      RequestStep sh (.awaiting g false) .silent (.awaiting g true)
  | callPending (g : Grant Service) :
      RequestStep sh (.awaiting g true) .silent (.awaiting g false)
  | respond (g : Grant Service) :
      RequestStep sh (.awaiting g true) .silent (.streaming g false)
  | pollStream (g : Grant Service) (h : sh.cancelled g.delivery = false) :
      RequestStep sh (.streaming g false) .silent (.streaming g true)
  | streamPending (g : Grant Service) :
      RequestStep sh (.streaming g true) .silent (.streaming g false)
  | yield (g : Grant Service) (chunk : List UInt8) :
      RequestStep sh (.streaming g true) (.yielded chunk) (.streaming g false)
  | finish (p : Phase Service) : RequestStep sh p .silent .done

end Requests

inductive Call (Service Catalog : Type) where
  | setApiKey (key : Option String)
  | setTokens (tokens : TokenSet)
  | publish (session : Session Service Catalog)

/-- What a call revokes: authority that is checked through the lease, or through the epoch. -/
inductive Kind where
  | lease
  | credentials
  deriving DecidableEq

/-- Where a call is. `affected` are the requests it revokes, and `old` is the delivery token
it has taken out of force. -/
inductive CallPhase (Service Catalog : Type) where
  | idle
  | invoked (call : Call Service Catalog)
  | written (kind : Kind) (affected : Nat → Prop)
  | bumped (affected : Nat → Prop)
  | replaced (kind : Kind) (affected : Nat → Prop) (old : Nat)
  | cancelled (kind : Kind) (affected : Nat → Prop)
  | returned

section Phases

variable {Service : Type}

/-- The credential epoch a request has loaded. -/
def Phase.epoch? : Phase Service → Option Nat
  | .epochLoaded _ e => some e
  | .authorized _ a | .leased _ a _ | .epochMatched _ a _ | .reading _ a _ | .checked a _ =>
    some a.epoch
  | .gated g | .leaseChecked g | .epochChecked g | .keyed g _ | .sending g _ _ | .awaiting g _
  | .streaming g _ => some g.auth.epoch
  | _ => none

def Phase.auth? : Phase Service → Option Auth
  | .authorized _ a | .leased _ a _ | .epochMatched _ a _ | .reading _ a _ | .checked a _ => some a
  | .gated g | .leaseChecked g | .epochChecked g | .keyed g _ | .sending g _ _ | .awaiting g _
  | .streaming g _ => some g.auth
  | _ => none

def Phase.lease? : Phase Service → Option (Lease Service)
  | .leased _ _ l | .epochMatched _ _ l | .reading _ _ l | .checked _ l => some l
  | .gated g | .leaseChecked g | .epochChecked g | .keyed g _ | .sending g _ _ | .awaiting g _
  | .streaming g _ => some g.lease
  | _ => none

def Phase.delivery? : Phase Service → Option Nat
  | .gated g | .leaseChecked g | .epochChecked g | .keyed g _ | .sending g _ _ | .awaiting g _
  | .streaming g _ => some g.delivery
  | _ => none

/-- Whether the last check of a kind of authority is behind the request. -/
def Phase.past (kind : Kind) : Phase Service → Bool
  | .leaseChecked _ => kind = .lease
  | .epochChecked _ | .keyed _ _ | .sending _ _ _ | .awaiting _ _ | .streaming _ _ => true
  | _ => false

/-- Between the look at the delivery token and what it was looked at for. -/
def Phase.midPoll : Phase Service → Bool
  | .sending _ _ polled | .awaiting _ polled | .streaming _ polled => polled
  | _ => false

end Phases

/-- `superseded` and `revoked` are the history: the requests a publication has overtaken, and
those a call has revoked that has returned since. -/
structure State (Service Catalog : Type) where
  shared : Shared Service Catalog
  requests : Nat → Phase Service
  calls : Nat → CallPhase Service Catalog
  superseded : Nat → Prop
  revoked : Nat → Prop

inductive Label (Service Catalog : Type) where
  | request (r : Nat) (action : Action Service)
  | published (session : Session Service Catalog)
  | bumped
  | replaced
  | cancelled (old : Nat)
  | other

section Calls

variable {Service Catalog : Type}

def State.setRequest (s : State Service Catalog) (r : Nat) (p : Phase Service) :
    State Service Catalog :=
  { s with requests := Function.update s.requests r p }

def State.setCall (s : State Service Catalog) (c : Nat) (p : CallPhase Service Catalog) :
    State Service Catalog :=
  { s with calls := Function.update s.calls c p }

def State.setShared (s : State Service Catalog) (sh : Shared Service Catalog) :
    State Service Catalog :=
  { s with shared := sh }

@[simp] theorem calls_setShared (s : State Service Catalog) (sh : Shared Service Catalog) :
    (s.setShared sh).calls = s.calls := rfl

/-- `CancellationToken::cancel`. -/
def Shared.cancel (sh : Shared Service Catalog) (old : Nat) : Shared Service Catalog :=
  { sh with cancelled := fun d => sh.cancelled d || d = old }

/-- Requests admitted under a key that is not the new one. -/
def keyAffected (s : State Service Catalog) (key : Option String) (r : Nat) : Prop :=
  (s.requests r).auth?.isSome ∧ s.shared.apiKey ≠ key

/-- Requests whose token is not in the new set, or there for another agent. -/
def tokenAffected (s : State Service Catalog) (tokens : TokenSet) (r : Nat) : Prop :=
  ∃ auth, (s.requests r).auth? = some auth ∧ tokens.agentFor auth.token ≠ some auth.agent

/-- Requests with a lease of the session that is replaced. -/
def leaseAffected (s : State Service Catalog) (r : Nat) : Prop := (s.requests r).lease?.isSome

end Calls

section Machine

variable {Service Catalog : Type} (offers : Catalog → String → Surface → Option Bool)

inductive Step : State Service Catalog → Label Service Catalog → State Service Catalog → Prop
  | request (s : State Service Catalog) (r : Nat) (action : Action Service) (p : Phase Service)
      (h : RequestStep offers s.shared (s.requests r) action p) :
      Step s (.request r action) (s.setRequest r p)
  | invoke (s : State Service Catalog) (c : Nat) (call : Call Service Catalog)
      (h : s.calls c = .idle) : Step s .other (s.setCall c (.invoked call))
  | writeKey (s : State Service Catalog) (c : Nat) (key : Option String)
      (h : s.calls c = .invoked (.setApiKey key)) :
      Step s .other ((s.setShared { s.shared with apiKey := key }).setCall c
        (.written .credentials (keyAffected s key)))
  | sameTokens (s : State Service Catalog) (c : Nat)
      (h : s.calls c = .invoked (.setTokens s.shared.tokens)) :
      Step s .other (s.setCall c .returned)
  | writeTokens (s : State Service Catalog) (c : Nat) (tokens : TokenSet)
      (h : s.calls c = .invoked (.setTokens tokens)) (hne : s.shared.tokens ≠ tokens) :
      Step s .other ((s.setShared { s.shared with tokens }).setCall c
        (.written .credentials (tokenAffected s tokens)))
  | bump (s : State Service Catalog) (c : Nat) (affected : Nat → Prop)
      (h : s.calls c = .written .credentials affected) :
      Step s .bumped ((s.setShared { s.shared with
        credentialEpoch := (s.shared.credentialEpoch + 1) % 2 ^ 64 }).setCall c (.bumped affected))
  | publishSame (s : State Service Catalog) (c : Nat) (session : Session Service Catalog)
      (h : s.calls c = .invoked (.publish session)) (hl : s.shared.locked = false)
      (hr : s.shared.session.revokes session = false) :
      Step s (.published session)
        ((s.setShared { s.shared with session }).setCall c .returned)
  | publish (s : State Service Catalog) (c : Nat) (session : Session Service Catalog)
      (h : s.calls c = .invoked (.publish session)) (hl : s.shared.locked = false)
      (hr : s.shared.session.revokes session = true) :
      Step s (.published session)
        ({ s.setShared { s.shared with session, locked := true } with
          superseded := fun r => s.superseded r ∨ leaseAffected s r }.setCall c
            (.written .lease (leaseAffected s)))
  | replaceLease (s : State Service Catalog) (c : Nat) (affected : Nat → Prop)
      (h : s.calls c = .written .lease affected) :
      Step s .replaced ((s.setShared { s.shared with gate := s.shared.gate + 1 }).setCall c
        (.replaced .lease affected s.shared.gate))
  | replaceCredentials (s : State Service Catalog) (c : Nat) (affected : Nat → Prop)
      (h : s.calls c = .bumped affected) :
      Step s .replaced ((s.setShared { s.shared with gate := s.shared.gate + 1 }).setCall c
        (.replaced .credentials affected s.shared.gate))
  | cancel (s : State Service Catalog) (c : Nat) (kind : Kind) (affected : Nat → Prop)
      (old : Nat) (h : s.calls c = .replaced kind affected old) :
      Step s (.cancelled old) ((s.setShared (s.shared.cancel old)).setCall c
        (.cancelled kind affected))
  | returned (s : State Service Catalog) (c : Nat) (kind : Kind) (affected : Nat → Prop)
      (h : s.calls c = .cancelled kind affected) :
      Step s .other ({ s.setShared { s.shared with
          locked := if kind = Kind.lease then false else s.shared.locked } with
        revoked := fun r => s.revoked r ∨ affected r }.setCall c .returned)

/-- Nothing is in flight, and nothing has been called. -/
def State.initial (session : Session Service Catalog) (tokens : TokenSet)
    (apiKey : Option String) : State Service Catalog where
  shared := ⟨session, false, tokens, apiKey, 1, 0, fun _ => false⟩
  requests _ := .idle
  calls _ := .idle
  superseded _ := False
  revoked _ := False

/-- What a step must meet for the barrier to hold. A published session does not revalidate a
lease that it, or an earlier publication, has overtaken; the epoch does not wrap; a gate is
not replaced while another call has still to cancel the one it took out; and a token is not
cancelled between a request's look at it and what follows. -/
def Orderly (s : State Service Catalog) : Label Service Catalog → Prop
  | .published session => ∀ r lease, (s.requests r).lease? = some lease →
      (s.requests r).past .lease = false →
      s.superseded r ∨ s.shared.session.revokes session = true → leaseValid session lease = false
  | .bumped => s.shared.credentialEpoch + 1 < 2 ^ 64
  | .replaced => ∀ c kind affected old, s.calls c ≠ .replaced kind affected old
  | .cancelled old => ∀ r, (s.requests r).delivery? = some old → (s.requests r).midPoll = false
  | _ => True

end Machine

end AciGateway.Desktop
