import AciGateway.Usage.StreamMeter

/-! The report guard of a request: what is posted for each way the forward resolves, and for a
request that is dropped. -/
namespace AciGateway.Usage

open Octets Json Sse

/-! The journal of the forward. -/

structure InFlightAttempt where
  routeId : String
  attemptIndex : Nat
  deriving DecidableEq

structure Journal where
  inFlight : Option InFlightAttempt := none
  abandoned : List Failover.FailedAttempt := []
  deriving DecidableEq

namespace Journal

def setInFlight (j : Journal) (routeId : String) (attemptIndex : Nat) : Journal :=
  { j with inFlight := some ⟨routeId, attemptIndex⟩ }

def clearInFlight (j : Journal) : Journal := { j with inFlight := none }

def recordAbandoned (j : Journal) (f : Failover.FailedAttempt) : Journal :=
  { j with abandoned := j.abandoned ++ [f] }

/-- The candidate at hand is left, abandoned or only skipped. -/
def leave (j : Journal) : Option Failover.FailedAttempt → Journal
  | some f => j.recordAbandoned f
  | none => j

end Journal

/-- What the forward does between two points at which it waits. -/
inductive Move where
  /-- It turns to a candidate. -/
  | attempt (left : Option Failover.FailedAttempt) (routeId : String)
  /-- It pauses before the capacity retry. -/
  | pause (left : Option Failover.FailedAttempt)
  deriving DecidableEq

def Journal.advance (j : Journal) : Move → Journal
  | .attempt left routeId =>
    let j := j.leave left
    j.setInFlight routeId j.abandoned.length
  | .pause left => (j.leave left).clearInFlight

/-! Results. -/

inductive MiddlewareForwardResult where
  | forwarded (upstreamStatus : UInt16) (upstreamBody : Bytes) (selectedRoute : String)
      (failedAttempts : List Failover.FailedAttempt)
  | stream (upstreamStatus : UInt16) (isSse : Bool) (selectedRoute : String)
      (failedAttempts : List Failover.FailedAttempt)
  | upstreamError (upstreamStatus : UInt16) (upstreamBody : Bytes) (selectedRoute : String)
      (failedAttempts : List Failover.FailedAttempt)
  | allFailed (failedAttempts : List Failover.FailedAttempt) (e : ServiceError)

/-- What a request comes with and how its bodies read. -/
structure Handler where
  stream : Bool
  e2ee : Bool
  aciConstrained : Bool
  /-- The heartbeat is on. -/
  keepalive : Bool
  protocol : SseProtocol
  decode : Bytes → Option Value
  classifier : Failover.Classifier
  /-- The status the client is given for an upstream error. -/
  mapped : UInt16 → Bytes → UInt16
  /-- Whether a success body, as the client is to see it, says that the operation failed; `none`
  when it cannot be represented. -/
  converted : Bytes → Option Bool

def mapUpstreamStatus (status : UInt16) : UInt16 :=
  if status ∈ [400, 404, 413, 422, 429, 503, 504] then status else 502

def forwardErrorStatus : ServiceError → UInt16
  | .admissionInvariant _ => 500
  | .earlyResponseKeysetExpired => 503
  | .e2ee _ => 400
  | .upstreamVerification (.noEligibleAttestedSession _) => 412
  | .upstreamVerification _ => 503
  | .upstream (.routing _) => 404
  | .upstream (.invalidRequest _) => 400
  | .upstream (.timeout _) => 504
  | .invalidNonce _ | .downstreamTlsDomainMissing | .downstreamTlsDomainUnknown _ => 400
  | .upstream (.upstream status) =>
    if 200 ≤ status ∧ status < 300 then 502 else mapUpstreamStatus status
  | _ => 502

def forwardErrorSource : ServiceError → ErrorSource
  | .upstreamVerification (.noEligibleAttestedRoute _)
  | .upstreamVerification (.noEligibleAttestedSession _)
  | .earlyResponseKeysetExpired => .gateway
  | _ => .upstream

def classifyUpstream (C : Failover.Classifier) (status : UInt16) (body : Bytes) : ErrorClass :=
  if C.declaresQuotaExhausted status body then .upstreamQuotaExhausted
  else if Failover.isUpstreamCapacitySignal status body then .upstreamCapacity
  else if C.imageInputError status body then .upstreamImageFetchFailed
  else .upstreamHttpError

/-- The status reported for an upstream error. -/
def reportedStatus (C : Failover.Classifier) (mapped upstreamStatus : UInt16) (body : Bytes) :
    UInt16 :=
  let recorded := Failover.recordedAttemptStatus C ⟨upstreamStatus, body, none⟩
  if recorded ≠ upstreamStatus then recorded
  else if 400 ≤ mapped ∧ mapped < 500 then mapped
  else upstreamStatus

/-! The guard. -/

structure Meter where
  /-- The outcome is still to be reported. -/
  armed : Bool
  isStreaming : Bool
  /-- The reports of the request so far, the guard's own and those of the stream. -/
  posted : List PostReport := []
  deriving DecidableEq

namespace Meter

def spawn (m : Meter) (r : PostReport) : Meter := { m with posted := m.posted ++ [r] }

def disarm (m : Meter) : Meter := { m with armed := false }

def success (m : Meter) (status : UInt16) (attemptIndex : Nat) (route : String)
    (errorClass : Option ErrorClass) : Meter :=
  m.disarm.spawn
    { status, attemptIndex, isStreaming := false, selectedRouteId := some route,
      errorMessage := errorClass, kind := .outcome }

def upstreamError (m : Meter) (status : UInt16) (attemptIndex : Nat) (route : String)
    (errorClass : Option ErrorClass) : Meter :=
  m.disarm.spawn
    { status, attemptIndex, isStreaming := true, selectedRouteId := some route,
      errorMessage := errorClass, kind := .outcome }

def gatewayFailureAt (m : Meter) (attemptIndex : Nat) (route : Option String) (status : UInt16)
    (source : ErrorSource) (errorClass : ErrorClass) (isStreaming : Bool) : Meter :=
  m.disarm.spawn
    { status, attemptIndex, isStreaming, selectedRouteId := route, errorSource := some source,
      errorMessage := some errorClass, kind := .outcome }

def gatewayFailure (m : Meter) (status : UInt16) (source : ErrorSource) (errorClass : ErrorClass)
    (isStreaming : Bool) : Meter :=
  m.gatewayFailureAt 0 none status source errorClass isStreaming

/-- The rows of abandoned attempts; one that has no status is not reported. -/
def attemptRows (isStreaming : Bool) : Nat → List Failover.FailedAttempt → List PostReport
  | _, [] => []
  | index, a :: attempts =>
    let rows := attemptRows isStreaming (index + 1) attempts
    if a.status = 0 then rows
    else
      { status := a.status, attemptIndex := index, isStreaming,
        selectedRouteId := some a.routeId, kind := .attempt } :: rows

def failedAttempts (m : Meter) (attempts : List Failover.FailedAttempt) (isStreaming : Bool) :
    Meter :=
  { m with posted := m.posted ++ attemptRows isStreaming 0 attempts }

/-- The guard is dropped. -/
def drop (m : Meter) (j : Journal) : Meter :=
  if m.armed then
    (m.disarm.failedAttempts j.abandoned m.isStreaming).spawn
      { status := 499, attemptIndex := j.inFlight.elim j.abandoned.length (·.attemptIndex),
        isStreaming := m.isStreaming, selectedRouteId := j.inFlight.map (·.routeId),
        errorMessage := some .clientDisconnected, kind := .outcome }
  else m

variable (H : Handler)

/-- A buffered answer. -/
def accountForwarded (m : Meter) (status : UInt16) (body : Bytes) (route : String)
    (attempts : List Failover.FailedAttempt) : Meter :=
  if 200 ≤ status ∧ status < 300 then
    match H.converted body with
    | none =>
      (m.failedAttempts attempts false).gatewayFailureAt attempts.length (some route) 502
        .upstream .upstreamMalformedResponse false
    | some failed =>
      (m.success (if failed then 502 else status) attempts.length route
        (if failed then some .upstreamResponseFailed else none)).failedAttempts attempts false
  else
    (m.success (reportedStatus H.classifier (H.mapped status body) status body) attempts.length
      route (some (classifyUpstream H.classifier status body))).failedAttempts attempts false

/-- A stream that never began. -/
def accountUpstreamError (m : Meter) (isStreaming : Bool) (status : UInt16) (body : Bytes)
    (route : String) (attempts : List Failover.FailedAttempt) : Meter :=
  (m.failedAttempts attempts isStreaming).upstreamError
    (reportedStatus H.classifier (H.mapped status body) status body) attempts.length route
    (some (classifyUpstream H.classifier status body))

def accountAllFailed (m : Meter) (isStreaming : Bool) (attempts : List Failover.FailedAttempt)
    (e : ServiceError) : Meter :=
  let m := m.failedAttempts attempts isStreaming
  if 500 ≤ forwardErrorStatus e then
    m.gatewayFailureAt attempts.length none (forwardErrorStatus e) (forwardErrorSource e)
      (.ofService e) isStreaming
  else m.disarm

def accountError (m : Meter) (isStreaming : Bool) (e : ServiceError) : Meter :=
  if 500 ≤ forwardErrorStatus e then
    m.gatewayFailure (forwardErrorStatus e) (forwardErrorSource e) (.ofService e) isStreaming
  else m.disarm

/-- A result that an early-committed body delivers in-band. -/
def accountForwardFailure (m : Meter) :
    Except ServiceError MiddlewareForwardResult → Meter
  | .ok (.upstreamError status body route attempts) =>
    m.accountUpstreamError H m.isStreaming status body route attempts
  | .ok (.allFailed attempts e) => m.accountAllFailed m.isStreaming attempts e
  | .error e => m.accountError m.isStreaming e
  | .ok (.forwarded ..) | .ok (.stream ..) =>
    m.gatewayFailure 502 .gateway .internalError m.isStreaming

end Meter

/-! The request. -/

inductive Phase where
  /-- The handler waits for the forward. -/
  | forwarding
  /-- The response was committed early: its body waits for the forward. -/
  | committed
  /-- The body is read through the stream meter. -/
  | streaming (early : Bool) (body : MeterStream)
  /-- Nothing of the request is left. -/
  | closed
  deriving DecidableEq

structure Request where
  journal : Journal
  guard : Meter
  phase : Phase
  deriving DecidableEq

inductive Event where
  | move (m : Move)
  /-- The heartbeat interval elapsed before the forward resolved. -/
  | elapsed
  | resolve (result : Except ServiceError MiddlewareForwardResult)
  | poll (p : Polled)
  /-- The finalizer yields an error to the response body. -/
  | bodyError
  /-- The handler, or the response body, is dropped. -/
  | drop

namespace Request

variable (H : Handler)

/-- The guard is armed. -/
def start : Request := ⟨{}, ⟨true, H.stream, []⟩, .forwarding⟩

/-- The candidate waited on has not itself failed in this request. -/
def waitingOnCleanCandidate (j : Journal) : Bool :=
  match j.inFlight with
  | some current => !j.abandoned.any (·.routeId = current.routeId)
  | none => j.abandoned = []

/-- The finalizer takes any stream but an encrypted one that is not an event stream. -/
def finalizerAccepts (e2ee isSse : Bool) : Bool := !(e2ee && !isSse)

/-- The guard hands over to the stream meter. -/
def toStream (r : Request) (early : Bool) (status : UInt16) (route : String)
    (attempts : List Failover.FailedAttempt) : Request :=
  { r with guard := (r.guard.failedAttempts attempts true).disarm
           phase := .streaming early (.new ⟨route, attempts.length, status⟩ H.protocol) }

def post (r : Request) (reports : List PostReport) : Request :=
  { r with guard := { r.guard with posted := r.guard.posted ++ reports } }

/-- The chain below the response body is dropped. -/
def dropBody (r : Request) (abort : Bool) : Request :=
  match r.phase with
  | .forwarding | .committed => { r with guard := r.guard.drop r.journal, phase := .closed }
  | .streaming _ body => { r.post (body.drop abort).2 with phase := .closed }
  | .closed => r

def runInner (r : Request) : Except ServiceError MiddlewareForwardResult → Request
  | .ok (.forwarded status body route attempts) =>
    { r with guard := r.guard.accountForwarded H status body route attempts, phase := .closed }
  | .ok (.stream status isSse route attempts) =>
    if H.e2ee && !isSse then
      { r with guard := (r.guard.failedAttempts attempts true).disarm, phase := .closed }
    else
      let r := r.toStream H false status route attempts
      -- the abort flag is set while the finalizer takes the stream
      if finalizerAccepts H.e2ee isSse then r else r.dropBody true
  | .ok (.upstreamError status body route attempts) =>
    { r with guard := r.guard.accountUpstreamError H true status body route attempts
             phase := .closed }
  | .ok (.allFailed attempts e) =>
    { r with guard := r.guard.accountAllFailed H.stream attempts e, phase := .closed }
  | .error e => { r with guard := r.guard.accountError H.stream e, phase := .closed }

/-- The forward resolves inside the body of an early response. -/
def resolveInBody (r : Request) : Except ServiceError MiddlewareForwardResult → Request
  | .ok (.stream status _ route attempts) => r.toStream H true status route attempts
  | other => { r with guard := r.guard.accountForwardFailure H other, phase := .closed }

/-- A stream resolves with the attempts of the journal, on the candidate in flight. -/
def Resolves (j : Journal) : Except ServiceError MiddlewareForwardResult → Prop
  | .ok (.stream status _ route attempts) =>
    status = 200 ∧ attempts = j.abandoned ∧ j.inFlight = some ⟨route, attempts.length⟩
  | _ => True

instance (j : Journal) : DecidablePred (Resolves j)
  | .ok (.stream status _ route attempts) => inferInstanceAs (Decidable
      (status = 200 ∧ attempts = j.abandoned ∧ j.inFlight = some ⟨route, attempts.length⟩))
  | .ok (.forwarded ..) | .ok (.upstreamError ..) | .ok (.allFailed ..) | .error _ => .isTrue trivial

/-- The report of a body that failed after its stream had settled. An early response learns of the
serving candidate from the journal. -/
def lateFailure (j : Journal) (early : Bool) (body : MeterStream) : PostReport where
  status := 502
  attemptIndex :=
    if early then j.inFlight.elim 0 (·.attemptIndex) else body.report.attemptIndex
  isStreaming := true
  selectedRouteId := if early then j.inFlight.map (·.routeId) else some body.report.selectedRouteId
  errorSource := some .gateway
  errorMessage := some .downstreamFinalizerFailed
  kind := .late

/-- The body wrapper is given an error. -/
def failBody (r : Request) : Request :=
  match r.phase with
  | .streaming early body =>
    let r := if body.settled then r.post [lateFailure r.journal early body] else r
    r.dropBody true
  | _ => r.dropBody true

def step (r : Request) : Event → Option Request
  | .move m =>
    match r.phase with
    | .forwarding | .committed => some { r with journal := r.journal.advance m }
    | _ => none
  | .elapsed =>
    if r.phase = .forwarding ∧ H.keepalive ∧ H.stream ∧ ¬ H.e2ee ∧ ¬ H.aciConstrained then
      some (if waitingOnCleanCandidate r.journal then { r with phase := .committed } else r)
    else none
  | .resolve result =>
    if Resolves r.journal result then
      match r.phase with
      | .forwarding => some (r.runInner H result)
      | .committed => some (r.resolveInBody H result)
      | _ => none
    else none
  | .poll p =>
    match r.phase with
    | .streaming early body =>
      let out := body.pollNext H.decode false p
      some { r.post out.2.1 with phase := .streaming early out.1 }
    | _ => none
  | .bodyError =>
    match r.phase with
    | .committed | .streaming .. => some r.failBody
    | _ => none
  | .drop => if r.phase = .closed then none else some (r.dropBody false)

/-- The states of a run, from a state on. -/
def run (r : Request) (events : List Event) : Option Request := events.foldlM (step H) r

end Request

end AciGateway.Usage
