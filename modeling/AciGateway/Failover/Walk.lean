import AciGateway.Upstream
import Mathlib

/-! The failover walk over the candidates of a request: what one attempt comes to, how the walk
goes on, and the capacity-retry pass. -/
namespace AciGateway.Failover

open Octets

inductive UpstreamVerificationError where
  | noVerifierResult
  | verifierFailed (reason : String)
  | noEligibleAttestedRoute (model : String)
  | noEligibleAttestedSession (model : String)
  deriving DecidableEq

/-- The errors of the service that the walk tells apart. -/
inductive ServiceError where
  | upstream (e : UpstreamError)
  | upstreamVerification (e : UpstreamVerificationError)
  | earlyResponseKeysetExpired
  | internal (message : String)
  deriving DecidableEq

/-! Answers. -/

/-- An upstream's answer; `retryAfter` is its header in the delay-seconds form. -/
structure Answer where
  status : UInt16
  body : Bytes
  retryAfter : Option Nat
  deriving DecidableEq

/-- What the walk asks of error bodies. -/
structure Classifier where
  /-- The client's own image could not be fetched. -/
  imageInputError : UInt16 → Bytes → Bool
  declaresQuotaExhausted : UInt16 → Bytes → Bool

def isRetryableProviderStatus (status : UInt16) : Bool :=
  status ∈ [401, 402, 403, 404, 429, 500, 502, 503, 504] || (520 ≤ status && status ≤ 527)

def upstreamCapacityMarker : Bytes := utf8 "exhausted all available targets"

def isUpstreamCapacitySignal (status : UInt16) (body : Bytes) : Bool :=
  status = 429 || (500 ≤ status && status < 600 && decide (upstreamCapacityMarker <:+: body))

def shouldFailOver (C : Classifier) (a : Answer) : Bool :=
  (isRetryableProviderStatus a.status || isUpstreamCapacitySignal a.status a.body) &&
    !C.imageInputError a.status a.body

def recordedAttemptStatus (C : Classifier) (a : Answer) : UInt16 :=
  if C.declaresQuotaExhausted a.status a.body then 402 else a.status

def capacityRetryDelayMs : Nat := 2000

def capacityRetryMaxElapsedMs : Nat := 10000

/-- The wait an answer asks for, in milliseconds. -/
def retryAfter (a : Answer) : Nat :=
  a.retryAfter.elim 0 fun secs => min (secs * 1000) capacityRetryMaxElapsedMs

def capacityRetryEligible (done : Bool) (elapsed : Nat) : Bool :=
  !done && elapsed ≤ capacityRetryMaxElapsedMs

/-- The status of a candidate that gave no response. A request the route cannot carry has none. -/
def abandonedStatus : UpstreamError → Option UInt16
  | .timeout _ => some 504
  | .invalidRequest _ => none
  | .upstream status => some (if 200 ≤ status ∧ status < 300 then 502 else status)
  | _ => some 502

/-! One attempt. -/

/-- A response as it arrives; a stream may not be readable to its end. -/
structure Response where
  statusCode : UInt16
  body : Bytes
  retryAfter : Option Nat
  unreadable : Option UpstreamError := none
  deriving DecidableEq

def Response.withheld (status : UInt16) : Response := ⟨status, [], none, none⟩

inductive ReverifyOutcome where
  | forwarded (r : Response)
  | refreshFailed (e : ServiceError)
  | failed (e : UpstreamError)
  deriving DecidableEq

/-- What the services answer in one round of forwarding. -/
structure Round where
  forward : Except UpstreamError Response
  refresh : Option ServiceError := none
  admission : Option ServiceError := none

def channelBindingReverifyAttempts : Nat := 2

def isMismatch : Except UpstreamError Response → Bool
  | .error (.channelBindingMismatch _) => true
  | _ => false

/-- The outcome of a round after which no other follows. -/
def lastRound (r : Round) : ReverifyOutcome :=
  match r.forward with
  | .ok response => .forwarded response
  | .error (.upstream status) =>
    if 200 ≤ status ∧ status < 300 then .failed (.upstream status)
    else .forwarded (.withheld status)
  | .error e => .failed e

/-- The outcome of a round, unless it was a mismatch and the fresh event was admitted. -/
def closeRound (callerSupplied : Bool) (r : Round) : Option ReverifyOutcome :=
  if isMismatch r.forward ∧ ¬ callerSupplied then (r.refresh.or r.admission).map .refreshFailed
  else some (lastRound r)

/-- Forward, and verify again after a binding mismatch, with the calls made. A mismatch is found
before a byte of the request is sent. -/
def forwardWithBindingReverify (callerSupplied : Bool) (rounds : Nat → Round) :
    Nat → Nat → ReverifyOutcome × List (Except UpstreamError Response)
  | 0, n => (lastRound (rounds n), [(rounds n).forward])
  | left + 1, n =>
    match closeRound callerSupplied (rounds n) with
    | some outcome => (outcome, [(rounds n).forward])
    | none =>
      let rest := forwardWithBindingReverify callerSupplied rounds left (n + 1)
      (rest.1, (rounds n).forward :: rest.2)

/-- What the services answer in one attempt. -/
structure AttemptWorld where
  /-- The TEE classification of the prepared route. -/
  prepare : Except UpstreamError (Option Bool)
  encodeAudio : Option UpstreamError
  recordedEvent : Option ServiceError
  admission : Option ServiceError
  rounds : Nat → Round
  select : Option ServiceError
  receipt : Option ServiceError
  /-- Time since the walk began when the answer is weighed. -/
  elapsed : Nat
  /-- The attempt's own wall time. -/
  duration : Nat

/-- What the walk knows of its request. -/
structure RequestContext where
  stream : Bool
  aciRequired : Bool
  userModel : String
  callerSupplied : Bool

/-- What an attempt comes to. -/
inductive Verdict where
  /-- A failure that is not charged to the route. -/
  | skipped (priority : Nat) (e : ServiceError)
  | abandoned (status : UInt16) (priority : Nat) (e : ServiceError)
  /-- An answer to weigh. -/
  | answered (a : Answer)
  /-- A stream that began. -/
  | served
  /-- The whole request fails at once. -/
  | aborted (e : ServiceError)
  | expired
  deriving DecidableEq

def failedVerdict (e : UpstreamError) : Verdict :=
  match abandonedStatus e with
  | some status => .abandoned status 2 (.upstream e)
  | none => .skipped 2 (.upstream e)

def isVerification : ServiceError → Bool
  | .upstreamVerification _ => true
  | _ => false

/-- The response of an attempt, as the walk weighs it. -/
def respond (R : RequestContext) (r : Response) : Verdict :=
  if R.stream then
    if r.statusCode = 200 then .served
    else
      match r.unreadable with
      | some .responseTooLarge => failedVerdict .responseTooLarge
      | some _ => .answered ⟨r.statusCode, [], r.retryAfter⟩
      | none => .answered ⟨r.statusCode, r.body, r.retryAfter⟩
  else .answered ⟨r.statusCode, r.body, r.retryAfter⟩

def forwardVerdict (R : RequestContext) (w : AttemptWorld) : ReverifyOutcome → Verdict
  | .forwarded r =>
    match w.select with
    | some e => .aborted e
    | none => respond R r
  | .refreshFailed e =>
    if R.stream ∧ e = .earlyResponseKeysetExpired then .expired
    else .abandoned 502 (if isVerification e then 3 else 2) e
  | .failed e => failedVerdict e

/-- The verdict on an attempt and the calls it made to the upstream. -/
def attempt (R : RequestContext) (w : AttemptWorld) :
    Verdict × List (Except UpstreamError Response) :=
  match w.prepare with
  | .error (.routing message) => (.abandoned 502 1 (.upstream (.routing message)), [])
  | .error e => (.abandoned 502 2 (.upstream e), [])
  | .ok isTee =>
    match w.encodeAudio with
    | some e => (.abandoned 502 2 (.upstream e), [])
    | none =>
      if R.aciRequired ∧ isTee ≠ some true then
        (.skipped 0 (.upstreamVerification (.noEligibleAttestedRoute R.userModel)), [])
      else
        match w.recordedEvent with
        | some (.upstreamVerification e) => (.abandoned 502 3 (.upstreamVerification e), [])
        | some e => (.aborted e, [])
        | none =>
          match w.admission with
          | some .earlyResponseKeysetExpired => (.expired, [])
          | some (.upstreamVerification (.noEligibleAttestedSession model)) =>
            (.skipped 0 (.upstreamVerification (.noEligibleAttestedSession model)), [])
          | some e => (.aborted e, [])
          | none =>
            let out := forwardWithBindingReverify R.callerSupplied w.rounds
              channelBindingReverifyAttempts 0
            (forwardVerdict R w out.1, out.2)

/-! The walk. -/

structure ForwardCandidate where
  routeId : String
  body : Bytes
  path : String
  deriving DecidableEq

/-- An attempt by the pass it is made in and the place of its candidate in the request. -/
structure AttemptId where
  retry : Bool
  candidate : Nat
  deriving DecidableEq

structure FailedAttempt where
  routeId : String
  status : UInt16
  durationMs : Nat
  /-- Ghost: the attempt it reports. -/
  id : AttemptId
  deriving DecidableEq

structure RetainedResponse where
  answer : Answer
  routeId : String
  attemptSlot : Nat
  /-- Ghost: the attempt that got the answer. -/
  id : AttemptId
  deriving DecidableEq

/-- Ghost: one attempt that was made. -/
structure Entry where
  id : AttemptId
  verdict : Verdict
  calls : List (Except UpstreamError Response)

structure Walk where
  failedAttempts : List FailedAttempt := []
  aggregatedErr : Option (Nat × ServiceError) := none
  retained : Option RetainedResponse := none
  capacityIndices : List Nat := []
  capacityWait : Nat := 0
  /-- Ghost: the attempts so far. -/
  log : List Entry := []

def upgradeErr (slot : Option (Nat × ServiceError)) (priority : Nat) (e : ServiceError) :
    Option (Nat × ServiceError) :=
  if slot.all (·.1 ≤ priority) then some (priority, e) else slot

inductive ForwardResult where
  /-- A committed answer, buffered or as the error of a stream that never began. -/
  | answer (a : Answer) (route : String) (failedAttempts : List FailedAttempt) (id : AttemptId)
  | stream (route : String) (failedAttempts : List FailedAttempt) (id : AttemptId)
  | allFailed (failedAttempts : List FailedAttempt) (e : ServiceError)

/-- The walk goes on, or the request is decided. -/
inductive Flow where
  | next (s : Walk)
  | stop (r : Except ServiceError ForwardResult) (log : List Entry)

def Walk.upgrade (s : Walk) (priority : Nat) (e : ServiceError) : Walk :=
  { s with aggregatedErr := upgradeErr s.aggregatedErr priority e }

def Walk.abandon (s : Walk) (f : FailedAttempt) : Walk :=
  { s with failedAttempts := s.failedAttempts ++ [f] }

/-- A capacity signal is remembered for the second pass. -/
def Walk.noteCapacity (s : Walk) (isCapacity : Bool) (index : Nat) (a : Answer) : Walk :=
  if isCapacity then
    { s with capacityIndices := s.capacityIndices ++ [index]
             capacityWait := max s.capacityWait (retryAfter a) }
  else s

/-- Everything the walk depends on. -/
structure Env where
  context : RequestContext
  classifier : Classifier
  world : AttemptId → AttemptWorld
  /-- Time since the walk began when the candidates are exhausted. -/
  exitElapsed : Nat
  jitter : Nat

variable (E : Env)

/-- Commit a response; building its receipt may fail. -/
def commit (id : AttemptId) (r : ForwardResult) : Except ServiceError ForwardResult :=
  match (E.world id).receipt with
  | some e => .error e
  | none => .ok r

/-- A streamed error is relayed without a receipt. -/
def commitAnswer (id : AttemptId) (r : ForwardResult) : Except ServiceError ForwardResult :=
  if E.context.stream then .ok r else commit E id r

/-- Ghost: the record of an attempt. -/
def entryOf (id : AttemptId) : Entry :=
  ⟨id, (attempt E.context (E.world id)).1, (attempt E.context (E.world id)).2⟩

@[simp] theorem entryOf_id (id : AttemptId) : (entryOf E id).id = id := rfl

/-- One candidate. -/
def visit (done isLast : Bool) (index : Nat) (id : AttemptId) (c : ForwardCandidate) (s : Walk) :
    Flow :=
  let w := E.world id
  let s : Walk := { s with log := s.log ++ [entryOf E id] }
  let abandoned (status : UInt16) : FailedAttempt := ⟨c.routeId, status, w.duration, id⟩
  match (entryOf E id).verdict with
  | .skipped priority e => .next (s.upgrade priority e)
  | .abandoned status priority e => .next ((s.abandon (abandoned status)).upgrade priority e)
  | .aborted e => .stop (.error e) s.log
  | .expired => .stop (.ok (.allFailed s.failedAttempts .earlyResponseKeysetExpired)) s.log
  | .served => .stop (commit E id (.stream c.routeId s.failedAttempts id)) s.log
  | .answered a =>
    let isCapacity := isUpstreamCapacitySignal a.status a.body
    let lastMayRetry := (isCapacity || s.capacityIndices ≠ []) && capacityRetryEligible done w.elapsed
    if (!isLast || lastMayRetry) && shouldFailOver E.classifier a then
      let kept : RetainedResponse := ⟨a, c.routeId, s.failedAttempts.length, id⟩
      let s := { s.noteCapacity isCapacity index a with retained := some kept }
      .next (s.abandon (abandoned (recordedAttemptStatus E.classifier a)))
    else .stop (commitAnswer E id (.answer a c.routeId s.failedAttempts id)) s.log

/-- The candidates of a pass from an index on, each with its place in the request. -/
def pass (done : Bool) : Nat → List (Nat × ForwardCandidate) → Walk → Flow
  | _, [], s => .next s
  | index, (place, c) :: rest, s =>
    match visit E done rest.isEmpty index ⟨done, place⟩ c s with
    | .next s => pass done (index + 1) rest s
    | .stop r log => .stop r log

/-- The candidates exhausted: the retained answer, or the most telling error. -/
def finish (candidates : List ForwardCandidate) (s : Walk) :
    Except ServiceError ForwardResult × List Entry :=
  match s.retained with
  | some r =>
    (commitAnswer E r.id (.answer r.answer r.routeId (s.failedAttempts.eraseIdx r.attemptSlot) r.id),
      s.log)
  | none =>
    let e := (s.aggregatedErr.map (·.2)).getD (.upstream (.routing
      ("all upstream routes failed (attempted: " ++
        ", ".intercalate (candidates.map (·.routeId)) ++ ")")))
    (.ok (.allFailed s.failedAttempts e), s.log)

/-- The pause before the second pass, in milliseconds. -/
def retryDelay (s : Walk) : Nat :=
  max (capacityRetryDelayMs + E.jitter % capacityRetryDelayMs) s.capacityWait

/-- The candidates whose answers were capacity signals. -/
def replayed (current : List (Nat × ForwardCandidate)) (s : Walk) :
    List (Nat × ForwardCandidate) :=
  s.capacityIndices.filterMap (current[·]?)

def forwardChatCompletionForMiddleware (candidates : List ForwardCandidate) :
    Except ServiceError ForwardResult × List Entry :=
  if candidates = [] then
    (.error (.upstream (.routing "no candidate routes supplied")), [])
  else
    let current := candidates.zipIdx.map fun p => (p.2, p.1)
    match pass E false 0 current {} with
    | .stop r log => (r, log)
    | .next s =>
      if s.capacityIndices ≠ [] ∧ capacityRetryEligible false E.exitElapsed then
        let again := replayed current s
        match pass E true 0 again { s with capacityIndices := [], capacityWait := 0 } with
        | .stop r log => (r, log)
        | .next s => finish E candidates s
      else finish E candidates s

/-! The states of the walk. -/

/-- The candidates of the first pass. -/
def firstPass (candidates : List ForwardCandidate) : List (Nat × ForwardCandidate) :=
  candidates.zipIdx.map fun p => (p.2, p.1)

/-- A state at the head of the loop, with the pass, the candidates left in it and the index of
the next one. -/
inductive Visited (candidates : List ForwardCandidate) :
    Bool → List (Nat × ForwardCandidate) → Nat → Walk → Prop
  | start : Visited candidates false (firstPass candidates) 0 {}
  | step {done place c rest index s s'} (h : Visited candidates done ((place, c) :: rest) index s)
      (hv : visit E done rest.isEmpty index ⟨done, place⟩ c s = .next s') :
      Visited candidates done rest (index + 1) s'
  | retry {index s} (h : Visited candidates false [] index s) (hc : s.capacityIndices ≠ [])
      (he : capacityRetryEligible false E.exitElapsed) :
      Visited candidates true (replayed (firstPass candidates) s) 0
        { s with capacityIndices := [], capacityWait := 0 }

/-- A pass runs through visited states, to its end or to the candidate that decides. -/
theorem pass_visited {candidates : List ForwardCandidate} {done : Bool}
    {cs : List (Nat × ForwardCandidate)} {index : Nat} {s : Walk}
    (h : Visited E candidates done cs index s) :
    (∃ n s', pass E done index cs s = .next s' ∧ Visited E candidates done [] n s') ∨
    ∃ place c rest n s' r log, pass E done index cs s = .stop r log ∧
      Visited E candidates done ((place, c) :: rest) n s' ∧
      visit E done rest.isEmpty n ⟨done, place⟩ c s' = .stop r log := by
  induction cs generalizing index s with
  | nil => exact .inl ⟨index, s, rfl, h⟩
  | cons p rest ih =>
    obtain ⟨place, c⟩ := p
    rw [pass]
    cases hv : visit E done rest.isEmpty index ⟨done, place⟩ c s with
    | next s' => exact ih (h.step hv)
    | stop r log => exact .inr ⟨place, c, rest, index, s, r, log, rfl, h, hv⟩

/-- How a request is decided: by one candidate, or after the last one. -/
inductive Decided (candidates : List ForwardCandidate) :
    Except ServiceError ForwardResult × List Entry → Prop
  | visit {done place c rest index s r log}
      (h : Visited E candidates done ((place, c) :: rest) index s)
      (hv : visit E done rest.isEmpty index ⟨done, place⟩ c s = .stop r log) :
      Decided candidates (r, log)
  | finish {done index s} (h : Visited E candidates done [] index s) :
      Decided candidates (finish E candidates s)

theorem forward_decided {candidates : List ForwardCandidate} (hne : candidates ≠ []) :
    Decided E candidates (forwardChatCompletionForMiddleware E candidates) := by
  unfold forwardChatCompletionForMiddleware
  rw [if_neg hne]
  dsimp only
  rw [← firstPass]
  have hstart : Visited E candidates false (firstPass candidates) 0 {} := .start
  rcases pass_visited E hstart with
    ⟨n, s, hp, hs⟩ | ⟨place, c, rest, n, s, r, log, hp, hs, hv⟩
  · rw [hp]
    dsimp only
    split
    · next hretry =>
      rcases pass_visited E (hs.retry hretry.1 hretry.2) with
        ⟨n', s', hp', hs'⟩ | ⟨place, c, rest, n', s', r, log, hp', hs', hv⟩
      · rw [hp']
        exact .finish hs'
      · rw [hp']
        exact .visit hs' hv
    · exact .finish hs
  · rw [hp]
    exact .visit hs hv

end AciGateway.Failover
