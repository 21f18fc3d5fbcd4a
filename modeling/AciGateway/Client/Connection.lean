import Mathlib.Logic.Function.Basic

/-! The TypeScript connection: identity refreshes, the transport they install, and the fetches
that go on between their awaits. -/
namespace AciGateway.Client

/-- A keyset, apart from its expiry in the canonical form that `jcsEqual` compares. -/
structure WorkloadKeyset (κ : Type) where
  fields : κ
  notAfter : Nat
  deriving DecidableEq

structure VerifiedAciIdentity (κ π : Type) where
  keyset : WorkloadKeyset κ
  workloadKeysetDigest : String
  composeHash : String
  teeType : String
  /-- The source provenance with absent members as null, in canonical form. -/
  sourceProvenance : π
  deriving DecidableEq

variable {κ π : Type}

def VerifiedAciIdentity.expiresAt (i : VerifiedAciIdentity κ π) : Nat := i.keyset.notAfter * 1000

def sameKeysetFamily [DecidableEq κ] (keyset previous : WorkloadKeyset κ) : Bool :=
  keyset.fields = previous.fields

def sameIdentityFamily [DecidableEq κ] [DecidableEq π] (i previous : VerifiedAciIdentity κ π) :
    Bool :=
  sameKeysetFamily i.keyset previous.keyset && i.composeHash = previous.composeHash &&
    i.teeType = previous.teeType && i.sourceProvenance = previous.sourceProvenance

structure PinnedTransport where
  spkiPins : List String
  closed : Bool

inductive ConnectionError where
  | closed
  | identityExpired
  | attestationVerification
  | invalidRequest
  deriving DecidableEq

/-- Where the one refresh that may run is. -/
inductive RefreshPhase (κ π : Type) where
  /-- The identity is being established. -/
  | providing
  /-- The candidate transport is being probed. -/
  | probing (i : VerifiedAciIdentity κ π) (candidate : Nat)
  /-- It has ended, but the connection still names it. -/
  | done

inductive RefreshResult where
  | ok (rotated : Bool)
  | failed
  deriving DecidableEq

/-- Where a fetch is, between its awaits. -/
inductive FetchPhase (κ π : Type) where
  | idle
  /-- Waiting for a refresh. -/
  | waiting (refresh : Nat) (expired : Bool)
  /-- The identity was found fresh. -/
  | admitted
  /-- The request is prepared for a transport, under the identity of that moment. -/
  | preparing (transport : Nat) (i : VerifiedAciIdentity κ π)
  | handed
  | threw (e : ConnectionError)

/-- Ghost: a request an open transport took, with the connection at that moment. -/
structure Handed (κ π : Type) where
  now : Nat
  currentIdentity : Option (VerifiedAciIdentity κ π)
  installed : Option Nat
  members : List (String × VerifiedAciIdentity κ π)
  transport : Nat
  spkiPins : List String
  /-- The identity the request was prepared under. -/
  prepared : VerifiedAciIdentity κ π

structure Connection (κ π : Type) where
  now : Nat := 0
  currentIdentity : Option (VerifiedAciIdentity κ π) := none
  transport : Option Nat := none
  transports : Nat → PinnedTransport := fun _ => ⟨[], true⟩
  nextTransport : Nat := 0
  members : List (String × VerifiedAciIdentity κ π) := []
  pendingDigest : Option String := none
  closed : Bool := false
  /-- A `close` waits for the refresh. -/
  closing : Bool := false
  refreshing : Option (Nat × RefreshPhase κ π) := none
  results : Nat → Option RefreshResult := fun _ => none
  nextRefresh : Nat := 0
  fetches : Nat → FetchPhase κ π := fun _ => .idle
  /-- Ghost: the requests sent. -/
  handed : List (Handed κ π) := []

/-- What happens on the connection, each between two awaits. -/
inductive Event (κ π : Type) where
  | tick (t : Nat)
  | refresh
  | provided (i : VerifiedAciIdentity κ π)
  | provideFailed
  | probed
  | probeFailed
  | settle
  | close
  | closeFinished
  | fetch (f : Nat)
  | resumed (f : Nat)
  | captured (f : Nat)
  | prepareFailed (f : Nat)
  | dispatched (f : Nat)
  | observed (digest : String)

namespace Connection

variable [DecidableEq κ] [DecidableEq π] (pinsFor : κ → List String) (s : Connection κ π)

def closeTransport (t : Nat) : Connection κ π :=
  { s with transports := Function.update s.transports t { s.transports t with closed := true } }

def setFetch (f : Nat) (phase : FetchPhase κ π) : Connection κ π :=
  { s with fetches := Function.update s.fetches f phase }

/-- Some admitted keyset has not expired. -/
def fresh (now : Nat) (members : List (String × VerifiedAciIdentity κ π)) : Bool :=
  members.any fun m => now < m.2.expiresAt

/-- Join the refresh that runs, or start one. -/
def refreshIdentity : Nat × Connection κ π :=
  match s.refreshing with
  | some (r, _) => (r, s)
  | none =>
    (s.nextRefresh,
      { s with refreshing := some (s.nextRefresh, .providing), nextRefresh := s.nextRefresh + 1 })

/-- A refresh ends. -/
def endRefresh (r : Nat) (result : RefreshResult) : Connection κ π :=
  { s with refreshing := some (r, .done), results := Function.update s.results r (some result) }

/-- The candidate is made for the identity that was established. -/
def probe (r : Nat) (i : VerifiedAciIdentity κ π) : Connection κ π :=
  { s with
    refreshing := some (r, .probing i s.nextTransport)
    transports := Function.update s.transports s.nextTransport ⟨pinsFor i.keyset.fields, false⟩
    nextTransport := s.nextTransport + 1 }

def renewal (i : VerifiedAciIdentity κ π) : Bool := s.currentIdentity.any (sameIdentityFamily i ·)

/-- The keysets admitted once the identity is. -/
def admitIdentity (i : VerifiedAciIdentity κ π) : List (String × VerifiedAciIdentity κ π) :=
  let kept := if s.renewal i then s.members.filter (fun m => s.now < m.2.expiresAt) else []
  (i.workloadKeysetDigest, i) :: kept.filter (·.1 ≠ i.workloadKeysetDigest)

/-- Admit the identity, with the candidate or, for a renewal, the transport there is. -/
def commit (r : Nat) (i : VerifiedAciIdentity κ π) (candidate : Nat) : Connection κ π :=
  let rotated := s.currentIdentity.isSome && !s.renewal i
  let s' : Connection κ π :=
    { s with members := s.admitIdentity i, currentIdentity := some i, pendingDigest := none }
  let s' := match s.transport with
    | some previous =>
      if s.renewal i then s'.closeTransport candidate
      else { s'.closeTransport previous with transport := some candidate }
    | none => { s' with transport := some candidate }
  s'.endRefresh r (.ok rotated)

def finishClose : Connection κ π :=
  match s.transport with
  | some t => { s.closeTransport t with transport := none, closing := false }
  | none => { s with closing := false }

def pending : Bool := s.pendingDigest.any (· ≠ "")

/-- A fetch up to its first await. -/
def startFetch (f : Nat) : Connection κ π :=
  if s.closed || s.transport.isNone then s.setFetch f (.threw .closed)
  else if !s.pending && fresh s.now s.members then s.setFetch f .admitted
  else
    let (r, s') := s.refreshIdentity
    s'.setFetch f (.waiting r (!fresh s.now s.members))

def resumeFetch (f : Nat) (expired : Bool) : RefreshResult → Connection κ π
  | .failed => s.setFetch f (.threw (if expired then .identityExpired else .attestationVerification))
  | .ok true => s.setFetch f (.threw .identityExpired)
  | .ok false => s.setFetch f .admitted

def capture (f : Nat) : Connection κ π :=
  match s.transport, s.currentIdentity with
  | some t, some i => s.setFetch f (.preparing t i)
  | _, _ => s.setFetch f (.threw .closed)

/-- Hand the prepared request over; a closed transport refuses it. -/
def dispatch (f t : Nat) (i : VerifiedAciIdentity κ π) : Connection κ π :=
  if (s.transports t).closed then s.setFetch f (.threw .closed)
  else
    { s.setFetch f .handed with
      handed := ⟨s.now, s.currentIdentity, s.transport, s.members, t, (s.transports t).spkiPins, i⟩ ::
        s.handed }

def observeDigest (digest : String) : Connection κ π :=
  if (s.members.lookup digest).any (s.now < ·.expiresAt) then s
  else { s with pendingDigest := some digest }

/-- One event, where it can happen. -/
def step : Event κ π → Option (Connection κ π)
  | .tick t => some { s with now := t }
  | .refresh => if s.closed then none else some s.refreshIdentity.2
  | .provided i =>
    match s.refreshing with
    | some (r, .providing) => some (s.probe pinsFor r i)
    | _ => none
  | .provideFailed =>
    match s.refreshing with
    | some (r, .providing) => some (s.endRefresh r .failed)
    | _ => none
  | .probed =>
    match s.refreshing with
    | some (r, .probing i candidate) =>
      if s.closed then some ((s.closeTransport candidate).endRefresh r .failed)
      else some (s.commit r i candidate)
    | _ => none
  | .probeFailed =>
    match s.refreshing with
    | some (r, .probing _ candidate) => some ((s.closeTransport candidate).endRefresh r .failed)
    | _ => none
  | .settle =>
    match s.refreshing with
    | some (_, .done) => some { s with refreshing := none }
    | _ => none
  | .close =>
    if s.closed then none
    else if s.refreshing.isNone then some { s with closed := true }.finishClose
    else some { s with closed := true, closing := true }
  | .closeFinished => if s.closing && s.refreshing.isNone then some s.finishClose else none
  | .fetch f =>
    match s.fetches f with
    | .idle => some (s.startFetch f)
    | _ => none
  | .resumed f =>
    match s.fetches f with
    | .waiting r expired =>
      -- a refresh settles before those who wait for it go on
      if s.refreshing.any (·.1 = r) then none else (s.results r).map (s.resumeFetch f expired)
    | _ => none
  | .captured f =>
    match s.fetches f with
    | .admitted => some (s.capture f)
    | _ => none
  | .prepareFailed f =>
    match s.fetches f with
    | .preparing .. => some (s.setFetch f (.threw .invalidRequest))
    | _ => none
  | .dispatched f =>
    match s.fetches f with
    | .preparing t i => some (s.dispatch f t i)
    | _ => none
  | .observed digest => some (s.observeDigest digest)

end Connection

end AciGateway.Client
