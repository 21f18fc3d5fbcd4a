import AciGateway.Lib.SingleFlight
import AciGateway.Receipt.Builder

/-! The verifiers that cache: of an external provider, of an ACI service, and of 0G. They
differ in the key of an entry, in what they keep, and in how long it is fresh. -/
namespace AciGateway.Verify

open Json Session Receipt SingleFlight Relation

structure UpstreamVerificationRequest where
  upstreamName : String
  urlOrigin : Option String
  modelId : String
  forwardedBodyHash : String
  required : Bool

/-- A kept event, for another request: `CachedProviderEvent::event_for`. -/
def eventFor (request : UpstreamVerificationRequest) (event : UpstreamVerifiedEvent) :
    UpstreamVerifiedEvent :=
  { event with
    upstreamName := request.upstreamName
    modelId := request.modelId
    urlOrigin := request.urlOrigin
    required := request.required }

/-- Time is counted in nanoseconds. -/
def seconds (n : Nat) : Nat := n * 10 ^ 9

/-- `perRouter` is the attestation scope of a provider whose models share one channel. -/
structure ExternalProviderVerifier where
  perRouter : Bool
  cacheTtlSeconds : Nat

structure ExternalProviderVerifierCacheKey where
  upstreamName : String
  urlOrigin : Option String
  modelId : String
  deriving DecidableEq

def ExternalProviderVerifier.cacheKey (v : ExternalProviderVerifier)
    (request : UpstreamVerificationRequest) : ExternalProviderVerifierCacheKey where
  upstreamName := request.upstreamName
  urlOrigin := request.urlOrigin
  modelId := if v.perRouter then "" else request.modelId

/-- A verification ends with an event, which is kept when it is a verified one. -/
def ExternalProviderVerifier.policy (v : ExternalProviderVerifier) :
    Policy ExternalProviderVerifierCacheKey UpstreamVerificationRequest UpstreamVerifiedEvent
      UpstreamVerifiedEvent UpstreamVerifiedEvent where
  key := v.cacheKey
  store event :=
    if v.cacheTtlSeconds = 0 ∨ event.result ≠ .verified then none else some event
  hit := eventFor
  answer _ event := event
  ttl := seconds v.cacheTtlSeconds
  fresh _ expiresAt instant _ := v.cacheTtlSeconds ≠ 0 && instant < expiresAt
  dropsExpired := true

/-- What the verifier of an ACI service keeps, for the service as a whole. -/
structure CachedAciServiceVerification where
  evidence : Option Value
  channelBindings : List ChannelBinding
  identity : ReportBinding
  sessionMaterial : Option Value

structure AciServiceUpstreamVerifier where
  verifierId : String
  cacheTtlSeconds : Nat

def CachedAciServiceVerification.eventFor (verified : CachedAciServiceVerification)
    (request : UpstreamVerificationRequest) (verifierId : String) : UpstreamVerifiedEvent where
  verificationRound := none
  upstreamName := request.upstreamName
  providerType := some "aci-service"
  modelId := request.modelId
  urlOrigin := request.urlOrigin
  verifierId := verifierId
  result := .verified
  required := request.required
  reason := none
  evidence := verified.evidence
  channelBindings := verified.channelBindings
  providerClaims := verified.sessionMaterial
  aciIdentity := some verified.identity

/-- The event of a verification that failed for `reason`. -/
def AciServiceUpstreamVerifier.failedEvent (v : AciServiceUpstreamVerifier)
    (request : UpstreamVerificationRequest) (reason : String) : UpstreamVerifiedEvent where
  verificationRound := none
  upstreamName := request.upstreamName
  providerType := none
  modelId := request.modelId
  urlOrigin := request.urlOrigin
  verifierId := v.verifierId
  result := .failed
  required := request.required
  reason := some reason
  evidence := none
  channelBindings := []
  providerClaims := none
  aciIdentity := none

/-- One entry for all requests; it is fresh while its keyset is valid, too. -/
def AciServiceUpstreamVerifier.policy (v : AciServiceUpstreamVerifier) :
    Policy Unit UpstreamVerificationRequest (Except String CachedAciServiceVerification)
      CachedAciServiceVerification UpstreamVerifiedEvent where
  key _ := ()
  store
    | .ok verified => some verified
    | .error _ => none
  hit request verified := verified.eventFor request v.verifierId
  answer request
    | .ok verified => verified.eventFor request v.verifierId
    | .error reason => v.failedEvent request reason
  ttl := seconds v.cacheTtlSeconds
  fresh verified expiresAt instant wall :=
    instant < expiresAt && wall < seconds verified.identity.notAfter.val
  dropsExpired := false

structure ZeroGProviderVerifier where
  cacheTtlSeconds : Nat

def ZeroGProviderVerifier.policy (v : ZeroGProviderVerifier) :
    Policy String UpstreamVerificationRequest UpstreamVerifiedEvent UpstreamVerifiedEvent
      UpstreamVerifiedEvent where
  key request := request.modelId
  store event :=
    if 0 < v.cacheTtlSeconds ∧ event.result = .verified then some event else none
  hit := eventFor
  answer _ event := event
  ttl := seconds v.cacheTtlSeconds
  fresh _ expiresAt instant _ := instant < expiresAt
  dropsExpired := false

/-- In every run in which no invalidation met a running verification for its key, no call made
after an invalidation returned an event of a verification started before it. -/
def InvalidationEffective {K R O V E : Type} [DecidableEq K] (P : Policy K R O V E) : Prop :=
  ∀ s, ReflTransGen (Step P) .initial s → s.Quiet → s.Effective P

theorem invalidation_effective (p : ExternalProviderVerifier) (a : AciServiceUpstreamVerifier)
    (z : ZeroGProviderVerifier) : InvalidationEffective p.policy ∧
      InvalidationEffective a.policy ∧ InvalidationEffective z.policy :=
  ⟨fun _ => effective_of_quiet, fun _ => effective_of_quiet, fun _ => effective_of_quiet⟩

namespace Race

def request : UpstreamVerificationRequest := ⟨"up", none, "m", "", true⟩

def identity : ReportBinding := ⟨"sha256:00", none, ⟨1, by decide⟩⟩

def verified : CachedAciServiceVerification := ⟨none, [], identity, none⟩

def event : UpstreamVerifiedEvent := verified.eventFor request "v"

def externalVerifier : ExternalProviderVerifier := ⟨false, 300⟩

def aciService : AciServiceUpstreamVerifier := ⟨"v", 300⟩

def zeroG : ZeroGProviderVerifier := ⟨300⟩

/-- A verification, an invalidation, and a second verification by a call made after it. -/
def renewed : State String UpstreamVerificationRequest UpstreamVerifiedEvent
    UpstreamVerifiedEvent where
  step := 7
  instant := 0
  wall := 0
  cache := Function.update (Function.update
    (zeroG.policy.put (fun _ => none) "m" event 0 1) "m" none) "m"
      (some ⟨event, seconds 300, 5⟩)
  locked := false
  calls := []
  answers := [⟨request, 0, 1, event⟩, ⟨request, 4, 5, event⟩]
  invalidations := [⟨"m", 3, false⟩]

theorem reaches_renewed : ReflTransGen (Step zeroG.policy) .initial renewed := by
  have hbegin : Step zeroG.policy .initial _ := .begin .initial .refresh request
  have hfirst := ((ReflTransGen.single hbegin).tail
    (.acquire _ 0 ⟨.refresh, request, 0, .waiting⟩ rfl rfl rfl)).tail
    (.finish _ 0 ⟨.refresh, request, 0, .verifying 1 0⟩ 1 0 event rfl rfl)
  have hdropped := hfirst.tail (.invalidate _ request)
  exact ((hdropped.tail (.begin _ .refresh request)).tail
    (.acquire _ 0 ⟨.refresh, request, 4, .waiting⟩ rfl rfl rfl)).tail
    (.finish _ 0 ⟨.refresh, request, 4, .verifying 5 0⟩ 5 0 event rfl rfl)

end Race

open Race

theorem invalidation_effective_renewed : Race.renewed.Effective Race.zeroG.policy :=
  (invalidation_effective externalVerifier aciService zeroG).2.2 renewed
    reaches_renewed (by
      intro x hx
      rw [List.mem_singleton.mp hx])

/-- Each of the three returns to a later call what a verification stored that was running when
its key was invalidated. -/
theorem invalidation_overtaken :
    (∃ s, ReflTransGen (Step Race.externalVerifier.policy) .initial s ∧
      ¬ s.Effective Race.externalVerifier.policy) ∧
    (∃ s, ReflTransGen (Step Race.aciService.policy) .initial s ∧
      ¬ s.Effective Race.aciService.policy) ∧
    ∃ s, ReflTransGen (Step Race.zeroG.policy) .initial s ∧
      ¬ s.Effective Race.zeroG.policy :=
  ⟨exists_stale_run (o := event) (v := event) _ request rfl
      (by simp [ExternalProviderVerifier.policy, externalVerifier, seconds]),
    exists_stale_run (o := .ok verified) (v := verified) _ request rfl
      (by simp [AciServiceUpstreamVerifier.policy, aciService, verified, identity, seconds]),
    exists_stale_run (o := event) (v := event) _ request rfl
      (by simp [ZeroGProviderVerifier.policy, zeroG, seconds])⟩

end AciGateway.Verify
