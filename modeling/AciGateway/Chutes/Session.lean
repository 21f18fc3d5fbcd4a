import AciGateway.Lib.Results
import AciGateway.Session.Document
import AciGateway.Upstream

/-! The session store of a Chutes upstream: the chute id of each model, and the pool of
single-use nonces of each chute. The pool carries an instance's key next to the hash stated
for it. Each call takes the lock of the store once, so calls of different requests interleave
as a list. -/
namespace AciGateway.Chutes

open Octets Text Results List

def defaultNonceTtlSeconds : Nat := 55

def modelCacheTtlSeconds : Nat := 300

structure ChutesVerifiedInstance where
  instanceId : String
  e2ePubkey : String
  publicKeySha256 : String
  nonces : List String

structure ChutesVerifiedDiscovery where
  chuteId : String
  nonceExpiresIn : Option U64
  instances : List ChutesVerifiedInstance

structure ChutesAcceptedBinding where
  keyId : Option String
  publicKeySha256 : String

structure SelectedChutesInstance where
  instanceId : String
  e2ePubkey : String
  nonce : String

structure ChutesPooledNonce where
  instanceId : String
  e2ePubkey : String
  publicKeySha256 : String
  nonce : String
  expiresAt : Nat

structure CachedChuteId where
  chuteId : String
  expiresAt : Nat

/-- A chute without a pool has an empty one. -/
structure ChutesSessionStore where
  modelMap : String → Option CachedChuteId
  noncePools : String → List ChutesPooledNonce

def chutesBindingMatches (accepted : List ChutesAcceptedBinding)
    (instanceId publicKeySha256 : String) : Bool :=
  accepted.any fun binding =>
    binding.keyId.all (· = instanceId) &&
      eqIgnoreAsciiCase binding.publicKeySha256 publicKeySha256

namespace ChutesSessionStore

def new : ChutesSessionStore where
  modelMap _ := none
  noncePools _ := []

def cachedChuteId (s : ChutesSessionStore) (now : Nat) (model : String) :
    Option String × ChutesSessionStore :=
  match s.modelMap model with
  | some entry =>
    if now < entry.expiresAt then (some entry.chuteId, s)
    else (none, { s with modelMap := Function.update s.modelMap model none })
  | none => (none, s)

def cacheChuteId (s : ChutesSessionStore) (now : Nat) (model chuteId : String) :
    ChutesSessionStore :=
  { s with modelMap :=
      Function.update s.modelMap model (some ⟨chuteId, now + modelCacheTtlSeconds⟩) }

/-- The nonces of the candidates in turn: the first of each, then the second of each. -/
def offers (candidates : List ChutesVerifiedInstance) : List (ChutesVerifiedInstance × String) :=
  let maxNonces := (candidates.map (·.nonces.length)).foldr max 0
  (List.range maxNonces).flatMap fun i =>
    candidates.filterMap fun c => c.nonces[i]?.map fun nonce => (c, nonce)

/-- A nonce joins the pool unless the instance already has it there. -/
def addNonce (expiresAt : Nat) (pool : List ChutesPooledNonce)
    (offer : ChutesVerifiedInstance × String) : List ChutesPooledNonce :=
  let (candidate, nonce) := offer
  if pool.any (fun n => n.instanceId = candidate.instanceId ∧ n.nonce = nonce) then pool
  else pool ++ [
    { instanceId := candidate.instanceId
      e2ePubkey := candidate.e2ePubkey
      publicKeySha256 := candidate.publicKeySha256
      nonce, expiresAt }]

/-- The number of nonces added, and the store. -/
def recordNonceCandidates (s : ChutesSessionStore) (now : Nat) (chuteId : String) (nonceTtl : Nat)
    (candidates : List ChutesVerifiedInstance) : Nat × ChutesSessionStore :=
  let pool := s.noncePools chuteId
  let pool' := (offers candidates).foldl (addNonce (now + nonceTtl)) pool
  (pool'.length - pool.length,
    { s with noncePools := Function.update s.noncePools chuteId pool' })

/-- Nonces live for a stated time, and without it for a default one. The hash an instance comes
with is taken as stated. -/
def recordVerifiedDiscovery (s : ChutesSessionStore) (now : Nat)
    (discovery : ChutesVerifiedDiscovery) : Except UpstreamError Nat × ChutesSessionStore :=
  let nonceTtl := (discovery.nonceExpiresIn.map Fin.val).getD defaultNonceTtlSeconds
  if nonceTtl = 0 then (.ok 0, s)
  else
    let candidates := discovery.instances.filter (fun i => ¬ i.nonces.isEmpty)
    if candidates.isEmpty then
      (.error (.transport "verified Chutes E2EE instances did not include fresh nonces"), s)
    else
      let (added, s) := s.recordNonceCandidates now discovery.chuteId nonceTtl candidates
      (.ok added, s)

/-- The pass of `popVerifiedNonce` over a pool: expired and unmatched nonces are dropped, the
first of the others is selected and the rest are kept. -/
def selectNonce (now : Nat) (accepted : List ChutesAcceptedBinding) :
    List ChutesPooledNonce → Option SelectedChutesInstance → List ChutesPooledNonce →
      Option SelectedChutesInstance × List ChutesPooledNonce
  | [], selected, retained => (selected, retained)
  | n :: pool, selected, retained =>
    if n.expiresAt ≤ now then selectNonce now accepted pool selected retained
    else if ¬ chutesBindingMatches accepted n.instanceId n.publicKeySha256 then
      selectNonce now accepted pool selected retained
    else
      match selected with
      | none =>
        selectNonce now accepted pool (some ⟨n.instanceId, n.e2ePubkey, n.nonce⟩) retained
      | some _ => selectNonce now accepted pool selected (retained ++ [n])

def popVerifiedNonce (s : ChutesSessionStore) (now : Nat) (chuteId : String)
    (accepted : List ChutesAcceptedBinding) :
    Option SelectedChutesInstance × ChutesSessionStore :=
  let (selected, retained) := selectNonce now accepted (s.noncePools chuteId) none []
  (selected, { s with noncePools := Function.update s.noncePools chuteId retained })

end ChutesSessionStore

/-! What every entry of every pool has in common passes from the discoveries to the selection. -/

/-- `P` holds of the instance, key and stated hash of every pooled nonce. -/
def Pooled (P : String → String → String → Prop) (s : ChutesSessionStore) : Prop :=
  ∀ chuteId, ∀ n ∈ s.noncePools chuteId, P n.instanceId n.e2ePubkey n.publicKeySha256

variable {P : String → String → String → Prop} {s : ChutesSessionStore} {now : Nat}
  {chuteId : String} {accepted : List ChutesAcceptedBinding}
  {candidates : List ChutesVerifiedInstance} {discovery : ChutesVerifiedDiscovery}
  {pool : List ChutesPooledNonce}

theorem pooled_new : Pooled P .new := by
  intro chuteId n hn
  cases hn

theorem Pooled.update (h : Pooled P s)
    (hpool : ∀ n ∈ pool, P n.instanceId n.e2ePubkey n.publicKeySha256) :
    Pooled P { s with noncePools := Function.update s.noncePools chuteId pool } := by
  intro c n hn
  dsimp only at hn
  by_cases hc : c = chuteId
  · subst hc
    rw [Function.update_self] at hn
    exact hpool n hn
  · rw [Function.update_of_ne hc] at hn
    exact h c n hn

namespace ChutesSessionStore

variable {offer : ChutesVerifiedInstance × String} {n : ChutesPooledNonce}
  {i : SelectedChutesInstance} {expiresAt : Nat}

theorem mem_offers (h : offer ∈ offers candidates) :
    offer.1 ∈ candidates ∧ offer.2 ∈ offer.1.nonces := by
  simp only [offers, mem_flatMap, mem_filterMap, Option.map_eq_some_iff] at h
  obtain ⟨i, -, c, hc, nonce, hnonce, rfl⟩ := h
  exact ⟨hc, mem_of_getElem? hnonce⟩

theorem mem_addNonce (h : n ∈ addNonce expiresAt pool offer) :
    n ∈ pool ∨ n = ⟨offer.1.instanceId, offer.1.e2ePubkey, offer.1.publicKeySha256, offer.2,
      expiresAt⟩ ∧ ∀ m ∈ pool, ¬ (m.instanceId = n.instanceId ∧ m.nonce = n.nonce) := by
  unfold addNonce at h
  dsimp only at h
  split at h
  · exact .inl h
  · next hnew =>
    rcases mem_append.mp h with h | h
    · exact .inl h
    · obtain rfl := mem_singleton.mp h
      refine .inr ⟨rfl, ?_⟩
      simpa using hnew

theorem pooled_addNonces {l : List (ChutesVerifiedInstance × String)}
    (hl : ∀ offer ∈ l, P offer.1.instanceId offer.1.e2ePubkey offer.1.publicKeySha256)
    (hpool : ∀ n ∈ pool, P n.instanceId n.e2ePubkey n.publicKeySha256) :
    ∀ n ∈ l.foldl (addNonce expiresAt) pool, P n.instanceId n.e2ePubkey n.publicKeySha256 := by
  induction l generalizing pool with
  | nil => exact hpool
  | cons offer l ih =>
    apply ih (fun o ho => hl o (mem_cons_of_mem _ ho))
    intro n hn
    rcases mem_addNonce hn with hn | ⟨rfl, -⟩
    · exact hpool n hn
    · exact hl offer mem_cons_self

/-- A discovery adds only its instances that come with nonces. -/
theorem pooled_recordVerifiedDiscovery (h : Pooled P s)
    (hd : ∀ i ∈ discovery.instances, i.nonces ≠ [] → P i.instanceId i.e2ePubkey i.publicKeySha256) :
    Pooled P (s.recordVerifiedDiscovery now discovery).2 := by
  unfold recordVerifiedDiscovery
  dsimp only
  split
  · exact h
  · split
    · exact h
    · apply h.update
      refine pooled_addNonces ?_ (h discovery.chuteId)
      intro offer ho
      obtain ⟨hm, hn⟩ := mem_filter.mp (mem_offers ho).1
      exact hd offer.1 hm (by simpa using hn)

/-- The instance and key of a nonce match. -/
def bound (accepted : List ChutesAcceptedBinding) (n : ChutesPooledNonce) : Bool :=
  chutesBindingMatches accepted n.instanceId n.publicKeySha256

/-- A nonce that is alive and matches. -/
def usable (now : Nat) (accepted : List ChutesAcceptedBinding) (n : ChutesPooledNonce) : Bool :=
  now < n.expiresAt && bound accepted n

theorem selectNonce_some (pool retained : List ChutesPooledNonce) (i : SelectedChutesInstance) :
    selectNonce now accepted pool (some i) retained =
      (some i, retained ++ pool.filter (usable now accepted)) := by
  induction pool generalizing retained with
  | nil => simp [selectNonce]
  | cons n pool ih =>
    rw [selectNonce, ih, ih, filter_cons, usable, bound]
    by_cases hlive : n.expiresAt ≤ now
    · simp [hlive]
    · by_cases hm : chutesBindingMatches accepted n.instanceId n.publicKeySha256 <;>
        simp [hlive, hm, Nat.lt_of_not_le]

/-- The pass selects the first usable nonce and keeps the other ones. -/
theorem selectNonce_eq (pool : List ChutesPooledNonce) :
    selectNonce now accepted pool none [] =
      ((pool.filter (usable now accepted)).head?.map fun n =>
        ⟨n.instanceId, n.e2ePubkey, n.nonce⟩, (pool.filter (usable now accepted)).tail) := by
  induction pool with
  | nil => rfl
  | cons n pool ih =>
    rw [selectNonce, ih, filter_cons, usable, bound]
    by_cases hlive : n.expiresAt ≤ now
    · simp [hlive, Nat.not_lt.mpr hlive]
    · by_cases hm : chutesBindingMatches accepted n.instanceId n.publicKeySha256 <;>
        simp [hlive, hm, Nat.lt_of_not_le, selectNonce_some]

theorem mem_popVerifiedNonce {c : String}
    (h : n ∈ (s.popVerifiedNonce now chuteId accepted).2.noncePools c) : n ∈ s.noncePools c := by
  simp only [popVerifiedNonce, selectNonce_eq, Function.update_apply] at h
  split at h
  · next hc => exact hc ▸ mem_of_mem_filter (mem_of_mem_tail h)
  · exact h

theorem pooled_popVerifiedNonce (h : Pooled P s) :
    Pooled P (s.popVerifiedNonce now chuteId accepted).2 :=
  fun c n hn => h c n (mem_popVerifiedNonce hn)

/-- The nonce handed out stands first among the usable ones of the pool. -/
theorem popVerifiedNonce_eq_some
    (hi : (s.popVerifiedNonce now chuteId accepted).1 = some i) : ∃ n rest,
      (s.noncePools chuteId).filter (usable now accepted) = n :: rest ∧
      i = ⟨n.instanceId, n.e2ePubkey, n.nonce⟩ := by
  simp only [popVerifiedNonce, selectNonce_eq, Option.map_eq_some_iff, head?_eq_some_iff] at hi
  obtain ⟨n, ⟨rest, hrest⟩, rfl⟩ := hi
  exact ⟨n, rest, hrest, rfl⟩

theorem usable_of_filter {rest : List ChutesPooledNonce}
    (h : pool.filter (usable now accepted) = n :: rest) :
    n ∈ pool ∧ now < n.expiresAt ∧ bound accepted n := by
  have hn : n ∈ pool.filter (usable now accepted) := h ▸ mem_cons_self
  simpa [usable] using hn

/-- A selected instance comes from the pool, with a stated hash that matches. -/
theorem popVerifiedNonce_selected (h : Pooled P s)
    (hi : (s.popVerifiedNonce now chuteId accepted).1 = some i) : ∃ stated,
      chutesBindingMatches accepted i.instanceId stated ∧ P i.instanceId i.e2ePubkey stated := by
  obtain ⟨n, rest, hrest, rfl⟩ := popVerifiedNonce_eq_some hi
  obtain ⟨hn, -, hm⟩ := usable_of_filter hrest
  exact ⟨n.publicKeySha256, hm, h chuteId n hn⟩

end ChutesSessionStore

end AciGateway.Chutes
