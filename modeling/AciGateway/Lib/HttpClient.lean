import AciGateway.Lib.Runs

/-! An HTTP client that pools its connections and follows redirects. Copies of one client
handle share its connections; a redirect is answered by another request of the same handle. -/
namespace HttpClient

open List

inductive Scheme where
  | http
  | https
  deriving DecidableEq

structure Url where
  scheme : Scheme
  authority : String
  rest : String
  deriving DecidableEq

/-- `location` is the redirect target, resolved against the URL of the request. -/
structure Response where
  status : Nat
  location : Option Url

/-- A connection of the client `owner`; `leaf` is the certificate the server holds the key of,
on a TLS connection. -/
structure Connection (C Cert : Type) where
  owner : C
  scheme : Scheme
  authority : String
  leaf : Option Cert

/-- A request on its way, made for `tag`. `body` says whether an attempt carries the body. -/
structure Exchange (C T : Type) where
  client : C
  tag : T
  url : Url
  body : Bool
  redirects : Nat

/-- One attempt: the request was written to the connection. -/
structure Write (C T Cert : Type) where
  exchange : Exchange C T
  connection : Connection C Cert

/-- `connections` holds those established so far, open or not, and `answers` and `writes` are
the history. -/
structure State (C T Cert : Type) where
  connections : List (Connection C Cert)
  exchanges : List (Exchange C T)
  answers : List (Exchange C T × Response)
  writes : List (Write C T Cert)

def State.initial {C T Cert : Type} : State C T Cert := ⟨[], [], [], []⟩

def redirectLimit : Nat := 10

variable {C T Cert : Type}

/-- The request that follows a response, under the default policy. There is none where the
caller gets the response, or the error that there were too many redirects. -/
def follow (e : Exchange C T) (r : Response) : Option (Exchange C T) :=
  match r.location with
  | none => none
  | some url =>
    if e.redirects < redirectLimit then
      if r.status = 301 ∨ r.status = 302 ∨ r.status = 303 then
        some { e with url, body := false, redirects := e.redirects + 1 }
      else if r.status = 307 ∨ r.status = 308 then
        some { e with url, redirects := e.redirects + 1 }
      else none
    else none

theorem follow_keeps {e e' : Exchange C T} {r : Response} (h : follow e r = some e') :
    e'.client = e.client ∧ e'.tag = e.tag := by
  simp only [follow] at h
  split at h
  · cases h
  · split at h
    · split at h
      · cases h; exact ⟨rfl, rfl⟩
      · split at h
        · cases h; exact ⟨rfl, rfl⟩
        · cases h
    · cases h

/-- What the network may do to the clients, each of which verifies the certificate of a server
by `accepts`. A request may be written more than once, since an attempt may be repeated on
another connection. -/
inductive Step (accepts : C → Cert → Prop) : State C T Cert → State C T Cert → Prop
  | handshake (s : State C T Cert) (c : C) (authority : String) (cert : Cert)
      (ha : accepts c cert) :
      Step accepts s
        { s with connections := s.connections ++ [⟨c, .https, authority, some cert⟩] }
  | resume (s : State C T Cert) (k : Connection C Cert) (authority : String)
      (hk : k ∈ s.connections) (hs : k.scheme = .https) :
      Step accepts s { s with connections := s.connections ++ [{ k with authority }] }
  | plain (s : State C T Cert) (c : C) (authority : String) :
      Step accepts s { s with connections := s.connections ++ [⟨c, .http, authority, none⟩] }
  | send (s : State C T Cert) (e : Exchange C T) (k : Connection C Cert)
      (he : e ∈ s.exchanges) (hk : k ∈ s.connections) (ho : k.owner = e.client)
      (hs : k.scheme = e.url.scheme) (ha : k.authority = e.url.authority) :
      Step accepts s { s with writes := s.writes ++ [⟨e, k⟩] }
  | redirect (s : State C T Cert) (i : Nat) (e e' : Exchange C T) (r : Response)
      (he : s.exchanges[i]? = some e) (hf : follow e r = some e') :
      Step accepts s
        { s with exchanges := s.exchanges.set i e', answers := s.answers ++ [(e, r)] }
  | done (s : State C T Cert) (i : Nat) (e : Exchange C T) (r : Response)
      (he : s.exchanges[i]? = some e) (hf : follow e r = none) :
      Step accepts s
        { s with exchanges := s.exchanges.eraseIdx i, answers := s.answers ++ [(e, r)] }
  | abort (s : State C T Cert) (i : Nat) :
      Step accepts s { s with exchanges := s.exchanges.eraseIdx i }

variable {accepts : C → Cert → Prop} {P : Exchange C T → Prop} {s s' : State C T Cert}

/-- Every TLS connection has a certificate its client accepts, and every request was written
to a connection of its own client, of the scheme of its URL. -/
structure Sound (accepts : C → Cert → Prop) (s : State C T Cert) : Prop where
  verified : ∀ k ∈ s.connections, k.scheme = .https →
    ∃ cert, k.leaf = some cert ∧ accepts k.owner cert
  placed : ∀ w ∈ s.writes, w.connection ∈ s.connections ∧
    w.connection.owner = w.exchange.client ∧ w.connection.scheme = w.exchange.url.scheme

theorem Sound.initial : Sound accepts (State.initial : State C T Cert) where
  verified _ h := nomatch h
  placed _ h := nomatch h

theorem Sound.connect (hi : Sound accepts s) {k : Connection C Cert}
    (hk : k.scheme = .https → ∃ cert, k.leaf = some cert ∧ accepts k.owner cert) :
    Sound accepts { s with connections := s.connections ++ [k] } where
  verified k' hk' := by
    rcases mem_append.mp hk' with hk' | hk'
    · exact hi.verified k' hk'
    · rw [mem_singleton.mp hk']
      exact hk
  placed w hw := ⟨mem_append_left _ (hi.placed w hw).1, (hi.placed w hw).2⟩

theorem Sound.step (h : Step accepts s s') (hi : Sound accepts s) : Sound accepts s' := by
  cases h with
  | handshake c authority cert ha => exact hi.connect (fun _ => ⟨cert, rfl, ha⟩)
  | resume k authority hk hs => exact hi.connect (hi.verified k hk)
  | plain c authority => exact hi.connect (fun hs => by cases hs)
  | send e k he hk ho hs ha =>
    refine ⟨hi.verified, ?_⟩
    intro w hw
    rcases mem_append.mp hw with hw | hw
    · exact hi.placed w hw
    · rw [mem_singleton.mp hw]
      exact ⟨hk, ho, hs⟩
  | redirect i e e' r he hf => exact ⟨hi.verified, hi.placed⟩
  | done i e r he hf => exact ⟨hi.verified, hi.placed⟩
  | abort i => exact ⟨hi.verified, hi.placed⟩

/-- `P` holds of the requests on their way and of those written. -/
structure Traced (P : Exchange C T → Prop) (s : State C T Cert) : Prop where
  exchanges : ∀ e ∈ s.exchanges, P e
  writes : ∀ w ∈ s.writes, P w.exchange

theorem Traced.initial : Traced P (State.initial : State C T Cert) where
  exchanges _ h := nomatch h
  writes _ h := nomatch h

theorem Traced.start (ht : Traced P s) {e : Exchange C T} (he : P e) :
    Traced P { s with exchanges := s.exchanges ++ [e] } where
  exchanges e' he' := by
    rcases mem_append.mp he' with he' | he'
    · exact ht.exchanges e' he'
    · rw [mem_singleton.mp he']
      exact he
  writes := ht.writes

/-- What holds of every new request, and of the request that follows each answer given, holds
of every request. -/
theorem Traced.step (h : Step accepts s s')
    (hf : ∀ e r e', (e, r) ∈ s'.answers → P e → follow e r = some e' → P e')
    (ht : Traced P s) : Traced P s' := by
  cases h with
  | handshake c authority cert ha => exact ⟨ht.exchanges, ht.writes⟩
  | resume k authority hk hs => exact ⟨ht.exchanges, ht.writes⟩
  | plain c authority => exact ⟨ht.exchanges, ht.writes⟩
  | send e k he hk ho hs ha =>
    refine ⟨ht.exchanges, ?_⟩
    intro w hw
    rcases mem_append.mp hw with hw | hw
    · exact ht.writes w hw
    · rw [mem_singleton.mp hw]
      exact ht.exchanges e he
  | redirect i e e' r he hfollow =>
    have hP : P e' := hf e r e' (mem_append_right _ (mem_singleton_self _))
      (ht.exchanges e (mem_of_getElem? he)) hfollow
    refine ⟨?_, ht.writes⟩
    intro x hx
    rcases mem_or_eq_of_mem_set hx with hx | rfl
    · exact ht.exchanges x hx
    · exact hP
  | done i e r he hfollow =>
    exact ⟨fun x hx => ht.exchanges x (mem_of_mem_eraseIdx hx), ht.writes⟩
  | abort i => exact ⟨fun x hx => ht.exchanges x (mem_of_mem_eraseIdx hx), ht.writes⟩

theorem Step.answers_subset (h : Step accepts s s') : s.answers ⊆ s'.answers := by
  cases h <;> simp

end HttpClient
