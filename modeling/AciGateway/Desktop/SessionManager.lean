import AciGateway.Desktop.Proxy

/-! The verifier session of the desktop runtime: starts, stops, verifier events and catalog
loads over one locked record, and the sessions they publish to the local proxy. What a call
does under the lock is one step. A publication after the lock is released is another. -/
namespace AciGateway.Desktop.SessionManager

inductive VerificationStatus where
  | stopped
  | verifying
  | verified
  | blocked
  | error
  deriving DecidableEq

/-- What clients observe, as far as the session's own functions read it. -/
structure AppState where
  status : VerificationStatus := .stopped
  configurationVerification : Bool := false
  sessionId : Option String := none
  sessionActive : Bool := false
  reconnecting : Bool := false
  endpointError : Option String := none
  verificationFailed : Bool := false
  error : Option String := none

/-- `connection_intended` -/
def AppState.connectionIntended (state : AppState) : Bool :=
  state.sessionActive && !state.configurationVerification && state.status ≠ .blocked

/-- What survives a stop or restart of the verifier. -/
def AppState.carried (previous : AppState) : AppState where
  sessionId := previous.sessionId
  sessionActive := previous.sessionActive
  endpointError := previous.endpointError

/-- The setters that leave the verifier alone. -/
inductive Update where
  | setEndpoint (error : Option String)
  | setServiceConfiguration
  | reportError (message : String)
  | cancelReconnection

def AppState.update (state : AppState) : Update → AppState
  | .setEndpoint error => { state with endpointError := error }
  | .setServiceConfiguration => { state with error := none }
  | .reportError message => { state with error := some message }
  | .cancelReconnection => { state with reconnecting := false }

/-- What the lock guards. `task` says whether a verifier task is attached. -/
structure RuntimeState (Service : Type) where
  task : Bool
  generation : Nat
  epoch : Nat
  catalogRead : Nat
  service : Option Service
  identityReady : Bool
  verificationOnly : Bool
  sessionId : String
  state : AppState

inductive VerifierEvent (Service : Type) where
  | ready (service : Service)
  | identityUpdated
  | identityRenewed
  | blocked (code : Option String) (reason : String)
  | fatal (error : String) (transcript : Bool)
  | terminated (error : Option String)

/-- Why `start` refuses before it changes anything. -/
inductive Refusal where
  | endpointUnavailable (error : String)
  | alreadyRunning

section Functions

variable {Service Catalog : Type}

namespace RuntimeState

/-- `SessionManager::new`; `active` is the session that the usage store was left with. -/
def new (active : Except String (Option String)) : RuntimeState Service where
  task := false
  generation := 0
  epoch := 0
  catalogRead := 0
  service := none
  identityReady := false
  verificationOnly := false
  sessionId := (active.toOption.join).getD "unscoped"
  state :=
    match active with
    | .ok (some id) =>
      { sessionId := some id, sessionActive := true, reconnecting := true,
        error := some ("The previous protection session was interrupted. " ++
          "Protection will resume after verification.") }
    | .error error => { error := some error }
    | .ok none => {}

def setState (r : RuntimeState Service) (state : AppState) : RuntimeState Service :=
  { r with state }

def report (r : RuntimeState Service) (message : String) : RuntimeState Service :=
  r.setState { r.state with error := some message }

def loseVerification (r : RuntimeState Service) : RuntimeState Service :=
  let state : AppState := { r.state with
    status := if r.state.status = .blocked then .blocked else .error }
  { r with
    epoch := r.epoch + 1
    identityReady := false
    state := { state with reconnecting := state.connectionIntended } }

/-- `show_identity`: the displayed identity changes, and the catalog stays. -/
def showIdentity (r : RuntimeState Service) : RuntimeState Service :=
  { r with
    identityReady := true
    state := { r.state with verificationFailed := false, error := none } }

/-- A new identity epoch, which waits for its verified catalog. -/
def identify (r : RuntimeState Service) : RuntimeState Service :=
  { r.showIdentity with
    epoch := r.epoch + 1
    state := { r.showIdentity.state with status := .verifying } }

/-- `end_failed_verification` -/
def endFailedVerification (r : RuntimeState Service) : RuntimeState Service :=
  r.setState { r.state with verificationFailed := false }

/-- `start_inner` up to the release of its lock. A session that goes on keeps its id, any
other takes `fresh`. -/
def start (r : RuntimeState Service) (verificationOnly : Bool) (fresh : String) :
    Except Refusal (RuntimeState Service) :=
  match r.state.endpointError with
  | some error => .error (.endpointUnavailable error)
  | none =>
    if r.task then .error .alreadyRunning
    else
      let continuing := r.state.sessionActive && r.state.sessionId.isSome
      let sessionId := if continuing then r.sessionId else fresh
      -- A retry keeps showing the failed verification that it retries.
      let retried := continuing && !verificationOnly && r.state.verificationFailed
      .ok { r with
        generation := (r.generation + 1) % 2 ^ 64
        sessionId
        service := none
        identityReady := false
        verificationOnly
        state := { r.state.carried with
          status := .verifying
          configurationVerification := verificationOnly
          sessionId := some sessionId
          reconnecting := continuing && !verificationOnly
          sessionActive := continuing || !verificationOnly
          verificationFailed := retried
          error := if retried then r.state.error else none } }

/-- The end of `start_inner`: the task is attached unless verification failed meanwhile. -/
def attach (r : RuntimeState Service) (generation : Nat) : RuntimeState Service :=
  if r.generation ≠ generation then r
  else if r.state.status = .error ∨ r.state.status = .blocked then r
  else { r with task := true }

/-- `stop_with_reconnect` up to the release of its lock. -/
def stop (r : RuntimeState Service) (reconnecting : Bool) : RuntimeState Service :=
  { r with
    task := false
    generation := (r.generation + 1) % 2 ^ 64
    service := none
    identityReady := false
    verificationOnly := false
    state := { r.state.carried with
      reconnecting
      sessionActive := reconnecting && r.state.sessionActive } }

/-- A key set change retires the verifier, unless a security block holds. -/
def rotating (r : RuntimeState Service) (code : Option String) : Bool :=
  code = some "keyset_changed" && r.state.status ≠ .blocked

/-- `handle_event` under the lock; `Terminated` is left to `terminated`. -/
def handleEvent (r : RuntimeState Service) : VerifierEvent Service → RuntimeState Service
  | .ready service => { r with service := some service }.identify
  | .identityUpdated => r.identify
  | .identityRenewed => if r.state.status = .verified then r.showIdentity else r.identify
  | .blocked code reason =>
    if r.rotating code then { r with task := false }.loseVerification.report reason
    else (r.setState { r.state with status := .blocked }).loseVerification.report reason
  | .fatal error transcript =>
    r.loseVerification.setState
      { r.loseVerification.state with error := some error, verificationFailed := transcript }
  | .terminated _ => r

/-- Whether `handle_event` has a task of its own to stop once the lock is released. -/
def retires (r : RuntimeState Service) : VerifierEvent Service → Bool
  | .blocked code _ => r.rotating code && r.task
  | _ => false

/-- `end_verifier` up to the release of its lock. -/
def endVerifier (r : RuntimeState Service) : RuntimeState Service :=
  { r with service := none, verificationOnly := false }.loseVerification

def terminated (r : RuntimeState Service) (error : Option String) : RuntimeState Service :=
  if r.state.status = .error ∨ r.state.status = .blocked then { r with task := false }.endVerifier
  else
    (({ r with task := false }.report (match error with
      | some error => "Verifier task stopped unexpectedly: " ++ error
      | none => "Verifier stopped unexpectedly")).endFailedVerification).endVerifier

/-- `fail_if`, once it has found its generation and status in force. -/
def fail (r : RuntimeState Service) (message : String) : RuntimeState Service :=
  (({ r with task := false }.report message).endFailedVerification).endVerifier

/-- What a catalog load asks of the record, before its read and after it. -/
def expects (r : RuntimeState Service) (generation epoch : Nat) : Bool :=
  r.generation = generation && r.epoch = epoch && r.identityReady

def catalogLoaded (r : RuntimeState Service) : RuntimeState Service :=
  r.setState { r.state with status := .verified, reconnecting := false, error := none }

/-- The session that `handle_event` publishes under the lock. -/
def closedSession (r : RuntimeState Service) : Session Service Catalog :=
  ⟨r.generation, r.epoch, some r.sessionId, r.service, false, none⟩

/-- The session that a catalog load opens. -/
def openSession (r : RuntimeState Service) (catalog : Catalog) : Session Service Catalog :=
  ⟨r.generation, r.epoch, some r.sessionId, r.service, true, some catalog⟩

end RuntimeState

/-- The session of `publish_unverified`. -/
def unverified (generation epoch : Nat) (sessionId : Option String) : Session Service Catalog :=
  ⟨generation, epoch, sessionId, none, false, none⟩

end Functions

inductive Call (Service : Type) where
  | start (verificationOnly : Bool) (fresh : String)
  | stop (reconnecting : Bool)
  | event (generation : Nat) (event : VerifierEvent Service)
  | failIf (generation : Nat) (status : Option VerificationStatus) (message : String)
  | refresh
  | load (generation epoch : Nat)

/-- What a publication after the lock is for: the start of a generation, or the end of one. -/
inductive Purpose where
  | start
  | stop (generation : Nat)
  | fail (generation : Nat)

/-- Where a call is. An `unpublished` one has released the lock with a session in hand. -/
inductive Phase (Service Catalog : Type) where
  | idle
  | invoked (call : Call Service)
  | unpublished (session : Session Service Catalog) (purpose : Purpose)
  | launching (generation : Nat)
  | launched (generation : Nat)
  | retiring (generation : Nat)
  | fetching (generation epoch read : Nat)
  | requested (generation epoch read : Nat)
  | fetched (generation epoch read : Nat) (result : Except String Catalog)
  | returned

/-- Shared state, and its history by generation: `runs` says how a generation was started and
`loaded` that a catalog was read in it. `ended` is a verifier that failed or terminated, with
no `Ready` since; `failed` says that this was published too. `stopped` is a generation whose
stop was published, and `lost` one that was blocked or failed fatally, with no identity
reported since. -/
structure World (Service Catalog : Type) where
  runtime : RuntimeState Service
  proxy : Session Service Catalog
  sinks : Nat → Bool
  runs : Nat → Option Bool
  loaded : Nat → Prop
  ended : Nat → Prop
  failed : Nat → Prop
  stopped : Nat → Prop
  lost : Nat → Prop

structure State (Service Catalog : Type) where
  world : World Service Catalog
  calls : Nat → Phase Service Catalog

inductive Label (Service Catalog : Type) where
  | bump
  | late (session : Session Service Catalog)
  | handled (generation : Nat) (event : VerifierEvent Service)
  | other

section Machine

variable {Service Catalog : Type}

/-- A session of the generation and epoch that a catalog load works for. -/
def serves (session : Session Service Catalog) (generation epoch : Nat) : Bool :=
  session.generation = generation && session.epoch = epoch

/-- Steps that change neither the session nor the manager's part in it: calls that are made,
refused or found stale, the launch of a verifier, and the read of a catalog. -/
inductive QuietStep (w : World Service Catalog) :
    Phase Service Catalog → RuntimeState Service → (Nat → Bool) → Phase Service Catalog → Prop
  | invoke (call : Call Service) (h : ∀ g e, call = .event g e → w.sinks g = true) :
      QuietStep w .idle w.runtime w.sinks (.invoked call)
  | startRefused (verificationOnly : Bool) (fresh : String) (refusal : Refusal)
      (h : w.runtime.start verificationOnly fresh = .error refusal) :
      QuietStep w (.invoked (.start verificationOnly fresh)) w.runtime w.sinks .returned
  | spawn (g : Nat) :
      QuietStep w (.launching g) w.runtime (Function.update w.sinks g true) (.launched g)
  | spawnFailed (g : Nat) (error : String) :
      QuietStep w (.launching g) w.runtime w.sinks (.invoked (.failIf g none error))
  | saveFailed (g : Nat) (error : String) :
      QuietStep w (.launched g) w.runtime w.sinks (.invoked (.failIf g none error))
  | attach (g : Nat) : QuietStep w (.launched g) (w.runtime.attach g) w.sinks .returned
  | eventStale (g : Nat) (e : VerifierEvent Service) (h : w.runtime.generation ≠ g) :
      QuietStep w (.invoked (.event g e)) w.runtime w.sinks .returned
  | retired (g : Nat) : QuietStep w (.retiring g) w.runtime w.sinks .returned
  | retireFailed (g : Nat) :
      QuietStep w (.retiring g) w.runtime w.sinks
        (.invoked (.failIf g none "Could not stop the previous verifier"))
  | failStale (g : Nat) (status : Option VerificationStatus) (message : String)
      (h : w.runtime.generation ≠ g ∨ ∃ st, status = some st ∧ w.runtime.state.status ≠ st) :
      QuietStep w (.invoked (.failIf g status message)) w.runtime w.sinks .returned
  | refreshRefused (h : w.runtime.identityReady = false) :
      QuietStep w (.invoked .refresh) w.runtime w.sinks .returned
  | refresh (h : w.runtime.identityReady = true) :
      QuietStep w (.invoked .refresh) w.runtime w.sinks
        (.invoked (.load w.runtime.generation w.runtime.epoch))
  | loadStale (g e : Nat) (h : w.runtime.expects g e = false) :
      QuietStep w (.invoked (.load g e)) w.runtime w.sinks .returned
  | loadRead (g e : Nat) (h : w.runtime.expects g e = true) :
      QuietStep w (.invoked (.load g e))
        { w.runtime with catalogRead := w.runtime.catalogRead + 1 } w.sinks
        (.fetching g e (w.runtime.catalogRead + 1))
  | fetchRefused (g e read : Nat) (error : String)
      (h : serves w.proxy g e = false ∨ w.proxy.service = none) :
      QuietStep w (.fetching g e read) w.runtime w.sinks (.fetched g e read (.error error))
  | fetchSend (g e read : Nat) (h : serves w.proxy g e = true) (hs : w.proxy.service.isSome) :
      QuietStep w (.fetching g e read) w.runtime w.sinks (.requested g e read)
  | fetchFailed (g e read : Nat) (error : String) :
      QuietStep w (.requested g e read) w.runtime w.sinks (.fetched g e read (.error error))
  | fetchOk (g e read : Nat) (catalog : Catalog) (h : serves w.proxy g e = true) :
      QuietStep w (.requested g e read) w.runtime w.sinks (.fetched g e read (.ok catalog))
  | settleStale (g e read : Nat) (result : Except String Catalog)
      (h : w.runtime.expects g e = false ∨ w.runtime.catalogRead ≠ read ∨
        w.runtime.service = none) :
      QuietStep w (.fetched g e read result) w.runtime w.sinks .returned
  | settleKept (g e : Nat) (error : String) (h : w.runtime.expects g e = true)
      (hs : w.runtime.service.isSome) (hv : w.runtime.state.status = .verified) :
      QuietStep w (.fetched g e w.runtime.catalogRead (.error error))
        (w.runtime.report ("Cannot read the verified model list: " ++ error)) w.sinks .returned
  | settleFailed (g e : Nat) (error : String) (h : w.runtime.expects g e = true)
      (hs : w.runtime.service.isSome) (hv : w.runtime.state.status ≠ .verified) :
      QuietStep w (.fetched g e w.runtime.catalogRead (.error error)) w.runtime w.sinks
        (.invoked (.failIf g none ("Cannot read the verified model list: " ++ error)))

def State.set (s : State Service Catalog) (c : Nat) (w : World Service Catalog)
    (p : Phase Service Catalog) : State Service Catalog :=
  ⟨w, Function.update s.calls c p⟩

/-- A start takes the lock: the next generation is a run of its kind. -/
def World.begin (w : World Service Catalog) (verificationOnly : Bool)
    (r : RuntimeState Service) : World Service Catalog :=
  { w with
    runtime := r
    runs := Function.update w.runs r.generation (some verificationOnly) }

/-- An event of the manager's own generation takes the lock. -/
def World.handle (w : World Service Catalog) (event : VerifierEvent Service) :
    World Service Catalog :=
  let r := w.runtime.handleEvent event
  let g := w.runtime.generation
  { w with
    runtime := r
    -- Any state other than verified revokes the session at once.
    proxy := if r.state.status = .verified then w.proxy else r.closedSession
    ended := match event with
      | .ready _ => Function.update w.ended g False
      | _ => w.ended
    failed := match event with
      | .ready _ => Function.update w.failed g False
      | _ => w.failed
    lost := match event with
      | .ready _ | .identityUpdated | .identityRenewed => Function.update w.lost g False
      | .blocked _ _ | .fatal _ _ => Function.update w.lost g True
      | .terminated _ => w.lost }

/-- The verifier of the manager's generation failed or terminated. -/
def World.finish (w : World Service Catalog) (r : RuntimeState Service) :
    World Service Catalog :=
  { w with runtime := r, ended := Function.update w.ended r.generation True }

/-- The session that `end_verifier` publishes. -/
def RuntimeState.endedSession (r : RuntimeState Service) : Session Service Catalog :=
  unverified r.generation r.epoch (some r.sessionId)

/-- A catalog load has the lock again, and a catalog. -/
def World.settle (w : World Service Catalog) (catalog : Catalog) : World Service Catalog :=
  { w with
    runtime := w.runtime.catalogLoaded
    -- A settings verification never opens the session to agents.
    proxy := if w.runtime.verificationOnly then w.proxy else w.runtime.openSession catalog
    loaded := Function.update w.loaded w.runtime.generation True }

/-- A session is published after the lock. -/
def World.publish (w : World Service Catalog) (session : Session Service Catalog)
    (purpose : Purpose) : World Service Catalog :=
  { w with
    proxy := session
    stopped := match purpose with
      | .stop g => Function.update w.stopped g True
      | _ => w.stopped
    failed := match purpose with
      | .fail g => Function.update w.failed g (w.ended g)
      | _ => w.failed }

/-- Where a call goes on once its session is published. -/
def Purpose.next (session : Session Service Catalog) : Purpose → Phase Service Catalog
  | .start => .launching session.generation
  | .stop _ | .fail _ => .returned

inductive Step : State Service Catalog → Label Service Catalog → State Service Catalog → Prop
  | update (s : State Service Catalog) (u : Update) :
      Step s .other { s with world := { s.world with
        runtime := s.world.runtime.setState (s.world.runtime.state.update u) } }
  | quiet (s : State Service Catalog) (c : Nat) (r : RuntimeState Service) (sinks : Nat → Bool)
      (p : Phase Service Catalog) (h : QuietStep s.world (s.calls c) r sinks p) :
      Step s .other (s.set c { s.world with runtime := r, sinks } p)
  | start (s : State Service Catalog) (c : Nat) (verificationOnly : Bool) (fresh : String)
      (r : RuntimeState Service) (h : s.calls c = .invoked (.start verificationOnly fresh))
      (hr : s.world.runtime.start verificationOnly fresh = .ok r) :
      Step s .bump (s.set c (s.world.begin verificationOnly r)
        (.unpublished (unverified r.generation 0 (some r.sessionId)) .start))
  | stop (s : State Service Catalog) (c : Nat) (reconnecting : Bool)
      (h : s.calls c = .invoked (.stop reconnecting)) :
      Step s .bump (s.set c { s.world with runtime := s.world.runtime.stop reconnecting }
        (.unpublished (unverified (s.world.runtime.stop reconnecting).generation
          s.world.runtime.epoch (if reconnecting then some s.world.runtime.sessionId else none))
          (.stop s.world.runtime.generation)))
  | event (s : State Service Catalog) (c : Nat) (event : VerifierEvent Service)
      (h : s.calls c = .invoked (.event s.world.runtime.generation event))
      (hne : ∀ error, event ≠ .terminated error) :
      Step s (.handled s.world.runtime.generation event) (s.set c (s.world.handle event)
        (if s.world.runtime.retires event then .retiring s.world.runtime.generation
        else .returned))
  | terminated (s : State Service Catalog) (c : Nat) (error : Option String)
      (h : s.calls c = .invoked (.event s.world.runtime.generation (.terminated error))) :
      Step s .other (s.set c (s.world.finish (s.world.runtime.terminated error))
        (.unpublished (s.world.runtime.terminated error).endedSession
          (.fail s.world.runtime.generation)))
  | fail (s : State Service Catalog) (c : Nat) (status : Option VerificationStatus)
      (message : String)
      (h : s.calls c = .invoked (.failIf s.world.runtime.generation status message))
      (hs : ∀ st, status = some st → s.world.runtime.state.status = st) :
      Step s .other (s.set c (s.world.finish (s.world.runtime.fail message))
        (.unpublished (s.world.runtime.fail message).endedSession
          (.fail s.world.runtime.generation)))
  | settle (s : State Service Catalog) (c g e : Nat) (catalog : Catalog)
      (h : s.calls c = .fetched g e s.world.runtime.catalogRead (.ok catalog))
      (he : s.world.runtime.expects g e = true) (hs : s.world.runtime.service.isSome) :
      Step s .other (s.set c (s.world.settle catalog) .returned)
  | publish (s : State Service Catalog) (c : Nat) (session : Session Service Catalog)
      (purpose : Purpose) (h : s.calls c = .unpublished session purpose) :
      Step s (.late session)
        (s.set c (s.world.publish session purpose) (purpose.next session))

/-- Nothing was called yet, and the proxy holds its default session. -/
def State.initial (active : Except String (Option String)) : State Service Catalog where
  world :=
    { runtime := .new active
      proxy := unverified 0 0 none
      sinks := fun _ => false
      runs := fun _ => none
      loaded := fun _ => False
      ended := fun _ => False
      failed := fun _ => False
      stopped := fun _ => False
      lost := fun _ => False }
  calls _ := .idle

/-- No call is in progress. -/
def State.Quiescent (s : State Service Catalog) : Prop :=
  ∀ c, s.calls c = .idle ∨ s.calls c = .returned

/-! What a step can be asked to meet, in the state before it. -/

/-- The generation does not wrap. -/
def NoWrap (s : State Service Catalog) : Label Service Catalog → Prop
  | .bump => s.world.runtime.generation + 1 < 2 ^ 64
  | _ => True

/-- A settings verification that has failed or terminated reports no `Ready` any more. -/
def NoRevival (s : State Service Catalog) : Label Service Catalog → Prop
  | .handled g (.ready _) => s.world.ended g → s.world.runs g ≠ some true
  | _ => True

/-- A session published after the lock is of the manager's generation still, and the manager
has not opened one meanwhile. -/
def InTime (s : State Service Catalog) : Label Service Catalog → Prop
  | .late session => session.generation = s.world.runtime.generation ∧
      ¬(s.world.runtime.state.status = .verified ∧ s.world.runtime.verificationOnly = false)
  | _ => True

/-- A step that meets a condition. -/
def StepWhere (condition : State Service Catalog → Label Service Catalog → Prop)
    (s t : State Service Catalog) : Prop :=
  ∃ l, Step s l t ∧ condition s l

end Machine

end AciGateway.Desktop.SessionManager
