import AciGateway.Session.Index
import AciGateway.Lib.Runs

/-! The session index among its callers: the leases they hold, and the steps taken on it
under its lock. A leased or retained session is always served. -/
namespace AciGateway.Session

open Octets Relation

/-- What callers asked of the registry: a deadline passed for a session, or an operation that
evicted with its own reading of the clock. -/
inductive Event where
  | passed (id : String) (deadline : U64)
  | ran (now : U64)
  deriving DecidableEq

/-- The index and the leases outstanding on it. `sealed` and `trace`, latest first, record the
sessions sealed for the index and the events so far; no step reads them. -/
structure World (sha256 : Bytes → Bytes) where
  index : SessionIndex
  leases : List SessionLease
  sealed : List (AttestedSession sha256)
  trace : List Event

variable {sha256 : Bytes → Bytes}

namespace World

/-- Whether a lease refers to the token, beside the entry itself. -/
def held (w : World sha256) (token : Nat) : Bool := w.leases.any (·.token = token)

/-- Hand out a lease. -/
def lend (w : World sha256) (lease : SessionLease) : World sha256 :=
  { w with leases := lease :: w.leases }

/-- Note a deadline that took effect. -/
def promise (w : World sha256) (id : String) (deadline : U64) : World sha256 :=
  { w with trace := .passed id deadline :: w.trace }

def evict (w : World sha256) (now : U64) : World sha256 :=
  { w with index := w.index.evictLapsed w.held now, trace := .ran now :: w.trace }

def current (w : World sha256) (fingerprint : String) (retentionUntil now : U64) :
    Option SessionLease × World sha256 :=
  match w.index.current w.held fingerprint retentionUntil now with
  | (some lease, ix) =>
    (some lease, ({ w with index := ix, trace := .ran now :: w.trace }.lend lease).promise
      lease.sessionId (max retentionUntil lease.expiresAt))
  | (none, ix) => (none, { w with index := ix, trace := .ran now :: w.trace })

/-- Insert a session. With a log behind the index its bundle is now in it. -/
def file (w : World sha256) (logged : Bool) (fingerprint : String)
    (session : AttestedSession sha256) (split : SplitSession) (retentionUntil : U64) :
    World sha256 :=
  let inserted := w.index.insert fingerprint split retentionUntil
  { w with
    index := if logged then inserted.markPersisted split.digest else inserted
    sealed := session :: w.sealed }

/-- Insert, lease, evict. -/
def store (w : World sha256) (logged : Bool) (fingerprint : String)
    (session : AttestedSession sha256) (split : SplitSession) (retentionUntil now : U64) :
    Except String SessionLease × World sha256 :=
  let w := w.file logged fingerprint session split retentionUntil
  match w.index.lease split.sessionId with
  | some lease =>
    (.ok lease, ((w.lend lease).evict now).promise lease.sessionId
      (max retentionUntil lease.expiresAt))
  -- The source would panic here; the entry was inserted above.
  | none => (.error "no entry found for key", w)

def get (w : World sha256) (id : String) (now : U64) :
    Option (AttestedSession sha256) × World sha256 :=
  let (session, ix) := w.index.get sha256 w.held id now
  (session, { w with index := ix, trace := .ran now :: w.trace })

def extendRetention (w : World sha256) (lease : SessionLease) (deadline : U64) :
    Except String Unit × World sha256 :=
  match w.index.extend lease deadline with
  | .ok ix =>
    (.ok (), { w with index := ix }.promise lease.sessionId deadline)
  | .error e => (.error e, w)

/-- `InMemorySessionStore::current_or_seal`, all under one lock. -/
def currentOrSeal (w : World sha256) (fingerprint : String) (retentionUntil now : U64)
    (sealSession : Except String (AttestedSession sha256)) :
    Except String SessionLease × World sha256 :=
  match w.current fingerprint retentionUntil now with
  | (some lease, w) => (.ok lease, w)
  | (none, w) =>
    match sealSession with
    | .error e => (.error e, w)
    | .ok session =>
      match SplitSession.new sha256 session with
      | none => (.error "attested session has no complete evidence bundle (§8.2)", w)
      | some split => w.store false fingerprint session split retentionUntil now

end World

/-- One step on the index under its lock, or on a lease without it. -/
inductive RegistryStep : World sha256 → World sha256 → Prop
  | current (w) (fingerprint : String) (retentionUntil now : U64) :
      RegistryStep w (w.current fingerprint retentionUntil now).2
  | store (w) (logged : Bool) (fingerprint : String) (session : AttestedSession sha256)
      (split : SplitSession) (retentionUntil now : U64)
      (h : SplitSession.new sha256 session = some split) :
      RegistryStep w (w.store logged fingerprint session split retentionUntil now).2
  | get (w) (id : String) (now : U64) : RegistryStep w (w.get id now).2
  | evict (w) (now : U64) : RegistryStep w (w.evict now)
  | markAllPersisted (w) : RegistryStep w { w with index := w.index.markAllPersisted }
  | extendRetention (w) (lease : SessionLease) (deadline : U64) :
      RegistryStep w (w.extendRetention lease deadline).2
  | clone (w) (lease : SessionLease) (h : lease ∈ w.leases) :
      RegistryStep w { w with leases := lease :: w.leases }
  | drop (w) (lease : SessionLease) : RegistryStep w { w with leases := w.leases.erase lease }

/-- The deadline was passed for the session, and no operation since was at or past it. -/
def Standing : List Event → String → U64 → Prop
  | [], _, _ => False
  | .passed id' d' :: trace, id, d => (id = id' ∧ d = d') ∨ Standing trace id d
  | .ran now :: trace, id, d => now < d ∧ Standing trace id d

/-- The session is leased, or retained past `now`. -/
def Kept (w : World sha256) (id : String) (now : U64) : Prop :=
  (∃ lease ∈ w.leases, lease.sessionId = id) ∨ ∃ d, Standing w.trace id d ∧ now < d

/-- What every run of the registry keeps. -/
structure Good (w : World sha256) : Prop where
  inv : Inv w.sealed w.index
  leased : ∀ lease ∈ w.leases, ∃ e, w.index.byId.lookup lease.sessionId = some e ∧
    e.token = lease.token
  standing : ∀ id d, Standing w.trace id d → ∃ e, w.index.byId.lookup id = some e ∧
    d ≤ e.retentionUntil

section Steps

variable {w w' : World sha256} {id : String} {now deadline : U64} {lease : SessionLease}
  {session : AttestedSession sha256} {split : SplitSession} {ix : SessionIndex}

theorem held_of_mem (h : lease ∈ w.leases) : w.held lease.token :=
  List.any_eq_true.mpr ⟨lease, h, by simp⟩

/-- An index that keeps every entry's token and never lowers its deadline. -/
theorem Good.update (hg : Good w) {sealed : List (AttestedSession sha256)} (hi : Inv sealed ix)
    (hk : ∀ id e, w.index.byId.lookup id = some e → ∃ e', ix.byId.lookup id = some e' ∧
      e'.token = e.token ∧ e.retentionUntil ≤ e'.retentionUntil) :
    Good { w with index := ix, sealed := sealed } where
  inv := hi
  leased lease hm := by
    obtain ⟨e, hl, ht⟩ := hg.leased lease hm
    obtain ⟨e', hl', ht', -⟩ := hk _ _ hl
    exact ⟨e', hl', ht'.trans ht⟩
  standing id d hs := by
    obtain ⟨e, hl, hd⟩ := hg.standing id d hs
    obtain ⟨e', hl', -, hd'⟩ := hk _ _ hl
    exact ⟨e', hl', hd.trans hd'⟩

theorem Good.evict (hg : Good w) (now : U64) : Good (w.evict now) where
  inv := inv_evictLapsed hg.inv _ _
  leased lease hm := by
    obtain ⟨e, hl, ht⟩ := hg.leased lease hm
    refine ⟨e, (lookup_evictLapsed hg.inv).mpr ⟨hl, .inr ?_⟩, ht⟩
    rw [ht]
    exact held_of_mem hm
  standing id d := by
    rintro ⟨hnow, hs⟩
    obtain ⟨e, hl, hd⟩ := hg.standing id d hs
    exact ⟨e, (lookup_evictLapsed hg.inv).mpr ⟨hl, .inl (hnow.trans_le hd)⟩, hd⟩

theorem Good.lend (hg : Good w)
    (h : ∃ e, w.index.byId.lookup lease.sessionId = some e ∧ e.token = lease.token) :
    Good (w.lend lease) where
  inv := hg.inv
  leased l hm := by
    rcases List.mem_cons.mp hm with rfl | hm
    · exact h
    · exact hg.leased l hm
  standing := hg.standing

theorem Good.promise (hg : Good w)
    (h : ∃ e, w.index.byId.lookup id = some e ∧ deadline ≤ e.retentionUntil) :
    Good (w.promise id deadline) where
  inv := hg.inv
  leased := hg.leased
  standing id' d := by
    rintro (⟨rfl, rfl⟩ | hs)
    · exact h
    · exact hg.standing id' d hs

/-- An extension keeps every entry, and raises the leased one to the deadline. -/
theorem Good.extend (hg : Good w) (h : w.index.extend lease deadline = .ok ix) :
    Good { w with index := ix } ∧ ∃ entry e, w.index.byId.lookup lease.sessionId = some entry ∧
      ix.byId.lookup lease.sessionId = some e ∧ e.stripped = entry.stripped ∧
      e.token = lease.token ∧ deadline ≤ e.retentionUntil := by
  obtain ⟨hi, -, -, entry, hl, ht, hlook⟩ := extend_spec hg.inv h
  have hself := hlook lease.sessionId
  rw [if_pos rfl] at hself
  refine ⟨hg.update hi ?_, entry, _, hl, hself, rfl, ht, le_max_right _ _⟩
  intro id e hle
  rw [hlook]
  split
  · next hid =>
    subst hid
    obtain rfl : e = entry := Option.some.inj (hle.symm.trans hl)
    exact ⟨_, rfl, rfl, le_max_left _ _⟩
  · exact ⟨e, hle, rfl, le_rfl⟩

theorem Good.current (hg : Good w) (fingerprint : String) (retentionUntil now : U64) :
    Good (w.current fingerprint retentionUntil now).2 := by
  have hev := hg.evict now
  unfold World.current
  rcases current_cases w.held w.index fingerprint retentionUntil now with
    hc | ⟨id, found, ix, -, hf, -, hx, hc⟩
  · rw [hc]
    exact hev
  · rw [hc]
    obtain ⟨hgood, entry, e, hentry, hl, hstrip, ht, hd⟩ := hev.extend hx
    obtain rfl : found = entry := Option.some.inj (hf.symm.trans hentry)
    have hexp := hstrip ▸ hgood.inv.expires hl
    exact (hgood.lend ⟨e, hl, ht⟩).promise ⟨e, hl, max_le hd hexp⟩

theorem lookup_file (w : World sha256) (logged : Bool) (fingerprint : String)
    (session : AttestedSession sha256) (split : SplitSession) (retentionUntil : U64) (id : String) :
    (w.file logged fingerprint session split retentionUntil).index.byId.lookup id =
      if id = split.sessionId then some (w.index.entryFor fingerprint split retentionUntil)
      else w.index.byId.lookup id := by
  rw [← lookup_insert]
  cases logged <;> rfl

/-- Filing a session keeps every other entry, and never lowers a deadline. -/
theorem Good.file (hg : Good w) (logged : Bool) (fingerprint : String) (retentionUntil : U64)
    (hn : SplitSession.new sha256 session = some split) (hd : Distinct (session :: w.sealed)) :
    Good (w.file logged fingerprint session split retentionUntil) := by
  have hi : Inv (session :: w.sealed) (w.index.insert fingerprint split retentionUntil) :=
    inv_insert hd (hg.inv.mono (List.subset_cons_self _ _)) ⟨session, by simp, hn⟩
  apply hg.update
  · cases logged
    · exact hi
    · exact inv_markPersisted hi split.digest
  · intro id e hl
    have hfile := lookup_file w logged fingerprint session split retentionUntil id
    by_cases hid : id = split.sessionId
    · subst hid
      rw [if_pos rfl] at hfile
      obtain ⟨hle, ht⟩ := entryFor_keeps fingerprint retentionUntil hl
      exact ⟨_, hfile, ht, hle⟩
    · rw [if_neg hid] at hfile
      exact ⟨e, hfile.trans hl, rfl, le_rfl⟩

/-- Storing hands out a lease on the entry filed, which its own eviction cannot take. -/
theorem store_eq (w : World sha256) (logged : Bool) (fingerprint : String)
    (session : AttestedSession sha256) (split : SplitSession) (retentionUntil now : U64) :
    let entry := w.index.entryFor fingerprint split retentionUntil
    let lease := SessionIndex.leaseOf split.sessionId entry
    w.store logged fingerprint session split retentionUntil now =
      (.ok lease, (((w.file logged fingerprint session split retentionUntil).lend lease).evict
        now).promise split.sessionId (max retentionUntil split.stripped.expiresAt)) := by
  intro entry lease
  have hl := lookup_file w logged fingerprint session split retentionUntil split.sessionId
  rw [if_pos rfl] at hl
  simp only [World.store, SessionIndex.lease, hl, Option.map_some]
  rfl

theorem Good.store (hg : Good w) (logged : Bool) (fingerprint : String) (retentionUntil now : U64)
    (hn : SplitSession.new sha256 session = some split) (hd : Distinct (session :: w.sealed)) :
    Good (w.store logged fingerprint session split retentionUntil now).2 := by
  rw [store_eq]
  have hfile := hg.file logged fingerprint retentionUntil hn hd
  have hl : (w.file logged fingerprint session split retentionUntil).index.byId.lookup
      split.sessionId = some (w.index.entryFor fingerprint split retentionUntil) := by
    rw [lookup_file, if_pos rfl]
  have hlent : Good ((w.file logged fingerprint session split retentionUntil).lend
      (SessionIndex.leaseOf split.sessionId (w.index.entryFor fingerprint split
        retentionUntil))) := hfile.lend ⟨_, hl, rfl⟩
  refine (hlent.evict now).promise ⟨_, (lookup_evictLapsed hlent.inv).mpr ⟨hl, .inr ?_⟩,
    le_entryFor⟩
  exact held_of_mem (w := (w.file logged fingerprint session split retentionUntil).lend _)
    (List.mem_cons_self ..)

theorem Good.get (hg : Good w) (id : String) (now : U64) : Good (w.get id now).2 :=
  hg.evict now

theorem Good.extendRetention (hg : Good w) (lease : SessionLease) (deadline : U64) :
    Good (w.extendRetention lease deadline).2 := by
  unfold World.extendRetention
  cases h : w.index.extend lease deadline with
  | error e => exact hg
  | ok ix =>
    obtain ⟨hgood, -, e, -, hl, -, -, hd⟩ := hg.extend h
    exact hgood.promise ⟨e, hl, hd⟩

theorem sealed_step (h : RegistryStep w w') : w.sealed ⊆ w'.sealed := by
  cases h with
  | current fingerprint retentionUntil now =>
    unfold World.current
    split <;> exact List.Subset.refl _
  | store logged fingerprint session split retentionUntil now h =>
    rw [store_eq]
    exact List.subset_cons_self _ _
  | extendRetention lease deadline =>
    unfold World.extendRetention
    split <;> exact List.Subset.refl _
  | get | evict | markAllPersisted | clone | drop => exact List.Subset.refl _

theorem sealed_run (h : ReflTransGen RegistryStep w w') : w.sealed ⊆ w'.sealed := by
  induction h with
  | refl => exact List.Subset.refl _
  | tail _ hs ih => exact List.Subset.trans ih (sealed_step hs)

theorem good_step (h : RegistryStep w w') (hd : Distinct w'.sealed) (hg : Good w) : Good w' := by
  cases h with
  | current fingerprint retentionUntil now => exact hg.current fingerprint retentionUntil now
  | store logged fingerprint session split retentionUntil now h =>
    rw [store_eq] at hd
    exact hg.store logged fingerprint retentionUntil now h hd
  | get id now => exact hg.get id now
  | evict now => exact hg.evict now
  | markAllPersisted =>
    exact hg.update (inv_markAllPersisted hg.inv) (fun _ e hl => ⟨e, hl, rfl, le_rfl⟩)
  | extendRetention lease deadline => exact hg.extendRetention lease deadline
  | clone lease h => exact hg.lend (hg.leased lease h)
  | drop lease =>
    exact ⟨hg.inv, fun l hm => hg.leased l (List.mem_of_mem_erase hm), hg.standing⟩

theorem good_run {w₀ : World sha256} (h : ReflTransGen RegistryStep w₀ w)
    (hinit : Distinct w₀.sealed → Good w₀) (hd : Distinct w.sealed) : Good w :=
  Runs.invariant_under (H := fun w => Distinct w.sealed) (fun hs hd => hd.mono (sealed_step hs))
    good_step h hinit hd

/-- A kept session is served, with the bytes that were sealed. -/
theorem get_of_kept (hg : Good w) (hd : Distinct w.sealed) (hk : Kept w id now) :
    ∃ served, (w.get id now).1 = some served ∧ (∃ s ∈ w.sealed, s.sessionId = id) ∧
      ∀ s ∈ w.sealed, s.sessionId = id → served.bytes = s.bytes := by
  obtain ⟨e, hl⟩ : ∃ e, (w.evict now).index.byId.lookup id = some e := by
    rcases hk with ⟨lease, hm, rfl⟩ | ⟨d, hs, hlt⟩
    · obtain ⟨e, hl, -⟩ := (hg.evict now).leased lease hm
      exact ⟨e, hl⟩
    · obtain ⟨e, hl, -⟩ := (hg.evict now).standing id d ⟨hlt, hs⟩
      exact ⟨e, hl⟩
  obtain ⟨s, hm, hid, hr⟩ := rebuild_spec hd (hg.evict now).inv hl
  refine ⟨s, ?_, ⟨s, hm, hid⟩, ?_⟩
  · exact (congrArg (Option.bind · _) hl).trans hr
  · intro s' hm' hid'
    exact hd.bytes_eq hm hm' (hid.trans hid'.symm)

end Steps

end AciGateway.Session
