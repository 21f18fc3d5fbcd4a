import AciGateway.Failover.Walk
import AciGateway.Lib.Utf8
import AciGateway.Lib.Text
import AciGateway.Sse.Framing

/-! Usage reports, and the meter that reads a stream on its way to the client and reports how it
ended. -/
namespace AciGateway.Usage

open Octets Json Sse

/-! Errors. -/

inductive ServiceError where
  | testKeysInProduction
  | invalidAttestedSessionTtl
  | admissionInvariant (detail : String)
  | earlyResponseKeysetExpired
  | invalidSourceProvenance
  | upstreamVerification (e : Failover.UpstreamVerificationError)
  | keyset (message : String)
  | invalidNonce (message : String)
  | e2ee (message : String)
  | key (message : String)
  | receipt (message : String)
  | upstream (e : UpstreamError)
  | sessionStore (message : String)
  | metrics (message : String)
  | noReceiptKey
  | downstreamTlsDomainMissing
  | downstreamTlsDomainUnknown (host : String)
  deriving DecidableEq

/-- The component that broke, when it was not the upstream. -/
inductive ErrorSource where
  | gateway
  | upstream
  deriving DecidableEq

inductive ErrorClass where
  | requestShapingFailed
  | noEligibleAttestedRoute
  | keysetExpired
  | upstreamHttpError
  | upstreamQuotaExhausted
  | upstreamCapacity
  | upstreamImageFetchFailed
  | upstreamTimeout
  | upstreamTransport
  | upstreamChannelBindingMismatch
  | upstreamVerificationFailed
  | upstreamMalformedResponse
  | upstreamResponseFailed
  | streamInbandError
  | streamTruncated
  | streamLineOverflow
  | clientDisconnected
  | e2eeFailed
  | receiptFailed
  | downstreamFinalizerFailed
  | internalError
  deriving DecidableEq

def ErrorClass.ofUpstream : UpstreamError → ErrorClass
  | .routing _ => .internalError
  | .invalidRequest _ => .requestShapingFailed
  | .transport _ | .responseTooLarge => .upstreamTransport
  | .timeout _ => .upstreamTimeout
  | .channelBindingMismatch _ => .upstreamChannelBindingMismatch
  | .upstream _ => .upstreamHttpError

def ErrorClass.ofService : ServiceError → ErrorClass
  | .earlyResponseKeysetExpired => .keysetExpired
  | .upstreamVerification (.noEligibleAttestedRoute _)
  | .upstreamVerification (.noEligibleAttestedSession _) => .noEligibleAttestedRoute
  | .upstreamVerification .noVerifierResult
  | .upstreamVerification (.verifierFailed _) => .upstreamVerificationFailed
  | .upstream e => .ofUpstream e
  | .e2ee _ => .e2eeFailed
  | .receipt _ | .noReceiptKey => .receiptFailed
  | _ => .internalError

/-! Reports. -/

/-- What a report is about. The wire form does not tell. -/
inductive ReportKind where
  /-- A candidate the failover walk abandoned. -/
  | attempt
  /-- How the request ended. -/
  | outcome
  /-- A body that failed after its stream had settled. -/
  | late
  deriving DecidableEq

structure PostReport where
  status : UInt16
  attemptIndex : Nat
  isStreaming : Bool
  selectedRouteId : Option String
  errorSource : Option ErrorSource := none
  errorMessage : Option ErrorClass := none
  /-- Ghost: the code that posts it. -/
  kind : ReportKind
  deriving DecidableEq

/-- What control tells reports of one request apart by. -/
def PostReport.identity (r : PostReport) : Nat × UInt16 := (r.attemptIndex, r.status)

/-! The stream meter. -/

inductive Outcome where
  | completed
  | failed
  | clientClosed
  deriving DecidableEq

def meteredStatus (outcome : Outcome) (upstreamStatus failureStatus : UInt16) : UInt16 :=
  match outcome with
  | .clientClosed => 499
  | .failed => failureStatus
  | .completed => upstreamStatus

structure StreamFailure where
  status : UInt16 := 502
  errorClass : Option ErrorClass := none
  source : Option ErrorSource := none
  deriving DecidableEq

def StreamFailure.fromError (e : ServiceError) : StreamFailure :=
  match e with
  | .upstream (.timeout _) => ⟨504, some (.ofService e), none⟩
  | .upstream _ => ⟨502, some (.ofService e), none⟩
  | _ => ⟨502, some (.ofService e), some .gateway⟩

structure StreamReport where
  selectedRouteId : String
  attemptIndex : Nat
  upstreamStatus : UInt16
  deriving DecidableEq

def maxSseLineBytes : Nat := 16 * 1024 * 1024

structure MeterStream where
  report : StreamReport
  framing : SseFramingObserver
  started : Bool := false
  /-- A partial line held back. -/
  buf : Bytes := []
  innerDone : Bool := false
  sawError : Bool := false
  settled : Bool := false
  failure : StreamFailure := {}
  deriving DecidableEq

/-- One poll of the stream below. With the lines it completes comes the usage that is shown, if
any, in place of the usage on each of them: prices and the counters so far decide it. -/
inductive Polled where
  | pending
  | chunk (bytes : Bytes) (shown : Nat → Value → Option Value)
  | failed (e : ServiceError)
  | ended (shown : Nat → Value → Option Value)

/-- What a poll of the meter returns. -/
inductive Yield where
  | pending
  | item (bytes : Bytes)
  | error (e : ServiceError)
  | none
  deriving DecidableEq

inductive Fed where
  | emit (bytes : Bytes)
  | needMore
  | overflow
  deriving DecidableEq

namespace MeterStream

def new (report : StreamReport) (protocol : SseProtocol) : MeterStream :=
  { report, framing := .withProtocol (some protocol) }

/-- The report of an outcome. The flag says that the finalizer failed. -/
def postReport (m : MeterStream) (abort : Bool) (outcome : Outcome) (failure : StreamFailure) :
    PostReport where
  status := meteredStatus outcome m.report.upstreamStatus failure.status
  attemptIndex := m.report.attemptIndex
  isStreaming := true
  selectedRouteId := some m.report.selectedRouteId
  errorSource :=
    if outcome = .failed then if abort then some .gateway else failure.source else none
  errorMessage :=
    if outcome = .failed then
      if abort then some .downstreamFinalizerFailed else failure.errorClass
    else none
  kind := .outcome

/-- The failure with the class of a stream that broke off on its own. -/
def namedFailure (m : MeterStream) (outcome : Outcome) : StreamFailure :=
  let name : ErrorClass :=
    if m.sawError || m.framing.sawError then .streamInbandError else .streamTruncated
  if outcome = .failed then
    { m.failure with errorClass := m.failure.errorClass.or (some name) }
  else m.failure

def settle (m : MeterStream) (abort : Bool) (outcome : Outcome) :
    MeterStream × List PostReport :=
  if m.settled then (m, [])
  else ({ m with settled := true }, [m.postReport abort outcome (m.namedFailure outcome)])

def protocolOutcome (m : MeterStream) (cleanEof : Bool) : Outcome :=
  if m.sawError || m.framing.sawError then .failed
  else if m.framing.sawTerminal ||
      (cleanEof && m.framing.atEventBoundary && m.framing.observationUsable) then .completed
  else .failed

/-- The error an event carries, apart from its finish reasons. -/
def carriesError (parsed : Value) : Bool :=
  present parsed "error" || eventType parsed = some "error" ||
    (parsed.get? "response").any (present · "error")

def detectOutcome (m : MeterStream) (parsed : Value) : MeterStream :=
  let m := if carriesError parsed then
      { m with sawError := true
               failure := { m.failure with
                 errorClass := m.failure.errorClass.or (some .streamInbandError) } }
    else m
  if choicesError parsed || stopReasonError parsed then { m with sawError := true } else m

/-! Lines. -/

/-- The event with other usage, where it has some. -/
def withUsage (parsed : Value) (show_ : Value → Option Value) : Option Value :=
  match parsed with
  | .obj ms =>
    if present parsed "usage" then
      ((ms.lookup "usage").bind show_).map fun usage => .obj (setMember "usage" usage ms)
    else
      match ms.lookup "response" with
      | some (.obj rs) =>
        if present (.obj rs) "usage" then
          ((rs.lookup "usage").bind show_).map fun usage =>
            .obj (setMember "response" (.obj (setMember "usage" usage rs)) ms)
        else none
      | _ => none
  | _ => none

variable (decode : Bytes → Option Value)

/-- The event on a line, read by itself. -/
def lineEvent (line : String) : Option Value :=
  (Text.stripPrefix "data:" line).bind fun rest =>
    let data := Text.trim rest
    if data = "[DONE]" then none else decode (utf8 data)

def readLine (show_ : Value → Option Value) (m : MeterStream) (line : String) :
    MeterStream × Option String :=
  match lineEvent decode line with
  | none => (m, none)
  | some parsed =>
    (m.detectOutcome parsed, (withUsage parsed show_).bind fun updated =>
      (ofUtf8? (print updated)).map ("data: " ++ ·))

/-- The lines from number `n` on, each as it is or rewritten. -/
def readLines (shown : Nat → Value → Option Value) (m : MeterStream) :
    Nat → List String → MeterStream × List (String × Bool)
  | _, [] => (m, [])
  | n, line :: lines =>
    let r := readLine decode (shown n) m line
    let rest := readLines shown r.1 (n + 1) lines
    (rest.1, (r.2.getD line, r.2.isSome) :: rest.2)

def splitLines (text : String) : List String := (text.toList.splitOn '\n').map String.ofList

def transformLines (shown : Nat → Value → Option Value) (m : MeterStream) (raw : Bytes) :
    MeterStream × Bytes :=
  let r := readLines decode shown m 0 (splitLines (fromUtf8Lossy raw))
  (r.1, if r.2.any Prod.snd then utf8 ("\n".intercalate (r.2.map Prod.fst)) else raw)

/-- The bytes to the last line feed, with it. -/
def completeLines (b : Bytes) : Bytes := (b.reverse.dropWhile (· ≠ 10)).reverse

def oversizedLine (b : Bytes) : Bool := (b.splitOn 10).any (maxSseLineBytes < ·.length)

def process (shown : Nat → Value → Option Value) (m : MeterStream) (bytes : Bytes) :
    MeterStream × Fed :=
  let buf := m.buf ++ bytes
  if oversizedLine buf then ({ m with buf }, .overflow)
  else
    let complete := completeLines buf
    if complete = [] then ({ m with buf }, .needMore)
    else
      let r := transformLines decode shown { m with buf := buf.drop complete.length } complete
      (r.1, .emit r.2)

/-- The line held back when the stream ends. -/
def flush (shown : Nat → Value → Option Value) (m : MeterStream) : MeterStream × Option Bytes :=
  if m.buf = [] then (m, none)
  else
    let r := transformLines decode shown { m with buf := [] } m.buf
    (r.1, some r.2)

/-! Polls. -/

/-- The stream below has ended. -/
def close (m : MeterStream) : MeterStream := { m with innerDone := true, buf := [] }

/-- One turn of the loop in a poll: the reports it posts and what the poll returns, if it is
over. -/
def pollNext (abort : Bool) (m : MeterStream) (p : Polled) :
    MeterStream × List PostReport × Option Yield :=
  let m := { m with started := true }
  if m.innerDone then (m, [], some .none)
  else
    match p with
    | .pending => (m, [], some .pending)
    | .chunk bytes shown =>
      let r := process decode shown { m with framing := m.framing.observe decode bytes } bytes
      match r.2 with
      | .emit out => (r.1, [], some (.item out))
      | .needMore => (r.1, [], none)
      | .overflow =>
        let failure := { r.1.failure with
          errorClass := r.1.failure.errorClass.or (some .streamLineOverflow) }
        let m := { r.1.close with failure }
        let s := m.settle abort (m.protocolOutcome false)
        (s.1, s.2, some (.error (.upstream (.transport "sse line overflow"))))
    | .failed e =>
      let m := { m.close with failure := .fromError e }
      let s := m.settle abort (m.protocolOutcome false)
      (s.1, s.2, some (.error e))
    | .ended shown =>
      let r := flush decode shown { m with innerDone := true }
      let s := r.1.settle abort (r.1.protocolOutcome true)
      (s.1, s.2, some (r.2.elim .none .item))

/-- The stream is dropped. -/
def drop (abort : Bool) (m : MeterStream) : MeterStream × List PostReport :=
  if !m.started && abort then
    { m with failure := ⟨502, some .downstreamFinalizerFailed, some .gateway⟩ }.settle abort .failed
  else if abort then m.settle abort .failed
  else m.settle abort .clientClosed

end MeterStream

end AciGateway.Usage
