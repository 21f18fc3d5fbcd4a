import AciGateway.Session.Document
import AciGateway.Lib.FinMap

/-! The session index shared by both stores, and what its operations keep. -/
namespace AciGateway.Session

open Octets Json Digest FinMap

structure SessionEntry where
  stripped : SessionDocument
  contentType : String
  fingerprint : String
  retentionUntil : U64
  /-- The address of the entry's ownership token. -/
  token : Nat
  hasDigest : stripped.evidence.digest.isSome

def SessionEntry.digest (e : SessionEntry) : String := e.stripped.evidence.digest.get e.hasDigest

structure Bundle where
  bytes : Bytes
  /-- Retained sessions citing this bundle; it is dropped at zero. -/
  citers : Nat
  /-- Whether the log already holds this bundle's record. -/
  persisted : Bool

structure SessionLease where
  sessionId : String
  establishedAt : U64
  expiresAt : U64
  token : Nat
  deriving DecidableEq

/-- A retention deadline and an id filed under it. -/
abbrev Hint := U64 × String

structure SessionIndex where
  byId : FinMap String SessionEntry
  byFingerprint : FinMap String String
  byRetention : List Hint
  bundles : FinMap String Bundle
  /-- The address the next token gets; every token in use lies below. -/
  nextToken : Nat

def SessionIndex.empty : SessionIndex := ⟨∅, ∅, [], ∅, 0⟩

/-- One more session cites the bundle. -/
def cite (bundles : FinMap String Bundle) (digest : String) (bytes : Bytes) :
    FinMap String Bundle :=
  match bundles.lookup digest with
  | some b => bundles.insert digest { b with citers := b.citers + 1 }
  | none => bundles.insert digest ⟨bytes, 1, false⟩

/-- One session fewer cites the bundle. -/
def uncite (bundles : FinMap String Bundle) (digest : String) : FinMap String Bundle :=
  match bundles.lookup digest with
  | some b =>
    if b.citers - 1 = 0 then bundles.erase digest
    else bundles.insert digest { b with citers := b.citers - 1 }
  | none => bundles

namespace SessionIndex

def dropRetentionHint (ix : SessionIndex) (id : String) (retentionUntil : U64) : SessionIndex :=
  { ix with byRetention := ix.byRetention.filter (· ≠ (retentionUntil, id)) }

def addRetentionHint (ix : SessionIndex) (id : String) (retentionUntil : U64) : SessionIndex :=
  { ix with byRetention := ix.byRetention.insert (retentionUntil, id) }

/-- The entry `insert` files: an id already there keeps its token and its later deadline. -/
def entryFor (ix : SessionIndex) (fingerprint : String) (split : SplitSession)
    (retentionUntil : U64) : SessionEntry where
  stripped := split.stripped
  contentType := split.contentType
  fingerprint
  retentionUntil :=
    match ix.byId.lookup split.sessionId with
    | some e => max e.retentionUntil (max retentionUntil split.stripped.expiresAt)
    | none => max retentionUntil split.stripped.expiresAt
  token :=
    match ix.byId.lookup split.sessionId with
    | some e => e.token
    | none => ix.nextToken
  hasDigest := by simp [split.digest_eq]

def insert (ix : SessionIndex) (fingerprint : String) (split : SplitSession)
    (retentionUntil : U64) : SessionIndex :=
  let id := split.sessionId
  let entry := ix.entryFor fingerprint split retentionUntil
  let filed :=
    match ix.byId.lookup id with
    | some prev =>
      { ix with byId := ix.byId.insert id entry }.dropRetentionHint id prev.retentionUntil
    | none =>
      { ix with
        byId := ix.byId.insert id entry
        bundles := cite ix.bundles split.digest split.bundle
        nextToken := ix.nextToken + 1 }
  { filed.addRetentionHint id entry.retentionUntil with
    byFingerprint := ix.byFingerprint.insert fingerprint id }

/-- Remove an entry, its place as the channel's current session, and its citation. -/
def forget (ix : SessionIndex) (id : String) (entry : SessionEntry) : SessionIndex :=
  { ix with
    byId := ix.byId.erase id
    byFingerprint :=
      if ix.byFingerprint.lookup entry.fingerprint = some id then
        ix.byFingerprint.erase entry.fingerprint
      else ix.byFingerprint
    bundles := uncite ix.bundles entry.digest }

/-- One id of a lapsed bucket: filed again while a lease holds its token, else forgotten. -/
def evictOne (held : Nat → Bool) (ix : SessionIndex) (hint : Hint) : SessionIndex :=
  let popped := ix.dropRetentionHint hint.2 hint.1
  match popped.byId.lookup hint.2 with
  | none => popped
  | some entry =>
    if held entry.token then popped.addRetentionHint hint.2 hint.1
    else popped.forget hint.2 entry

/-- The hints at or before `now`, by deadline. -/
def lapsed (ix : SessionIndex) (now : U64) : List Hint :=
  (ix.byRetention.filter (·.1 ≤ now)).insertionSort (·.1 ≤ ·.1)

/-- `held` tells the tokens that a lease still refers to. -/
def evictLapsed (held : Nat → Bool) (ix : SessionIndex) (now : U64) : SessionIndex :=
  (ix.lapsed now).foldl (evictOne held) ix

/-- Rebuild the served session: the stored document plus its bundle. -/
def rebuild (sha256 : Bytes → Bytes) (ix : SessionIndex) (id : String) (entry : SessionEntry) :
    Option (AttestedSession sha256) := do
  let bundle ← ix.bundles.lookup entry.digest
  let document :=
    { entry.stripped with evidence := .fromBytes sha256 entry.contentType bundle.bytes }
  let session ← (AttestedSession.seal sha256 document).toOption
  if session.sessionId = id then some session else none

def get (sha256 : Bytes → Bytes) (held : Nat → Bool) (ix : SessionIndex) (id : String)
    (now : U64) : Option (AttestedSession sha256) × SessionIndex :=
  let ix := ix.evictLapsed held now
  ((ix.byId.lookup id).bind (ix.rebuild sha256 id), ix)

def leaseOf (id : String) (entry : SessionEntry) : SessionLease :=
  ⟨id, entry.stripped.establishedAt, entry.stripped.expiresAt, entry.token⟩

/-- `none` where the source panics: no entry under `id`. -/
def lease (ix : SessionIndex) (id : String) : Option SessionLease :=
  (ix.byId.lookup id).map (leaseOf id)

/-- Move an entry to a later deadline. -/
def raise (ix : SessionIndex) (id : String) (entry : SessionEntry) (deadline : U64) :
    SessionIndex :=
  ({ ix with byId := ix.byId.insert id { entry with retentionUntil := deadline } }
    |>.dropRetentionHint id entry.retentionUntil).addRetentionHint id deadline

def extend (ix : SessionIndex) (lease : SessionLease) (deadline : U64) :
    Except String SessionIndex :=
  match ix.byId.lookup lease.sessionId with
  | none => .error "session lease does not belong to this store"
  | some entry =>
    if entry.token ≠ lease.token then .error "session lease does not belong to this store"
    else if entry.retentionUntil < deadline then .ok (ix.raise lease.sessionId entry deadline)
    else .ok ix

/-- The channel's current session, if it has one that is still valid at `now`. -/
def current (held : Nat → Bool) (ix : SessionIndex) (fingerprint : String)
    (retentionUntil now : U64) : Option SessionLease × SessionIndex :=
  let ix := ix.evictLapsed held now
  match ix.byFingerprint.lookup fingerprint with
  | none => (none, ix)
  | some id =>
    match ix.byId.lookup id with
    | none => (none, ix)
    | some entry =>
      if entry.stripped.expiresAt ≤ now then (none, ix)
      else
        match ix.extend (leaseOf id entry) retentionUntil with
        | .ok extended => (some (leaseOf id entry), extended)
        | .error _ => (none, ix)

def bundlePersisted (ix : SessionIndex) (digest : String) : Bool :=
  match ix.bundles.lookup digest with
  | some b => b.persisted
  | none => false

def markPersisted (ix : SessionIndex) (digest : String) : SessionIndex :=
  { ix with bundles := ix.bundles.modify digest ({ · with persisted := true }) }

/-- Every bundle of the index is in the log. -/
def markAllPersisted (ix : SessionIndex) : SessionIndex :=
  { ix with bundles := ix.bundles.mapValues ({ · with persisted := true }) }

end SessionIndex

/-! Counting citations. -/

section Citations

variable {bundles : FinMap String Bundle} {digest digest' : String} {b : Bundle} {bytes : Bytes}

def citersOf (bundles : FinMap String Bundle) (digest : String) : Nat :=
  match bundles.lookup digest with
  | some b => b.citers
  | none => 0

/-- `b` differs from the bundle already under `digest` in its citers at most. -/
def Carried (bundles : FinMap String Bundle) (digest : String) (b : Bundle) : Prop :=
  ∃ b₀, bundles.lookup digest = some b₀ ∧ b₀.bytes = b.bytes ∧ b₀.persisted = b.persisted

theorem citersOf_insert (bundles : FinMap String Bundle) (digest digest' : String) (b : Bundle) :
    citersOf (bundles.insert digest b) digest' =
      if digest' = digest then b.citers else citersOf bundles digest' := by
  unfold citersOf
  rw [lookup_insert_eq]
  by_cases h : digest' = digest
  · simp [h]
  · simp [h]

theorem citersOf_cite (bundles : FinMap String Bundle) (digest digest' : String) (bytes : Bytes) :
    citersOf (cite bundles digest bytes) digest' =
      citersOf bundles digest' + if digest' = digest then 1 else 0 := by
  unfold cite
  cases h : bundles.lookup digest with
  | none =>
    by_cases hd : digest' = digest
    · subst hd
      simp [citersOf, h]
    · simp [citersOf_insert, hd]
  | some b =>
    by_cases hd : digest' = digest
    · subst hd
      simp [citersOf, h]
    · simp [citersOf_insert, hd]

theorem citersOf_uncite (bundles : FinMap String Bundle) (digest digest' : String) :
    citersOf (uncite bundles digest) digest' =
      citersOf bundles digest' - if digest' = digest then 1 else 0 := by
  unfold uncite
  cases h : bundles.lookup digest with
  | none =>
    by_cases hd : digest' = digest
    · subst hd
      simp [citersOf, h]
    · simp [hd]
  | some b =>
    by_cases hd : digest' = digest
    · subst hd
      by_cases hz : b.citers - 1 = 0
      · simp [citersOf, h, hz]
      · simp [citersOf, h, hz]
    · by_cases hz : b.citers - 1 = 0
      · simp [citersOf, hz, hd]
      · simp [citersOf_insert, hz, hd]

theorem lookup_cite (h : (cite bundles digest bytes).lookup digest' = some b) :
    Carried bundles digest' b ∨ digest' = digest ∧ b.bytes = bytes := by
  unfold cite at h
  cases hl : bundles.lookup digest with
  | none =>
    rw [hl, lookup_insert_eq] at h
    split at h
    · next hd => cases h; exact .inr ⟨hd, rfl⟩
    · exact .inl ⟨b, h, rfl, rfl⟩
  | some b₀ =>
    rw [hl, lookup_insert_eq] at h
    split at h
    · next hd => cases h; subst hd; exact .inl ⟨b₀, hl, rfl, rfl⟩
    · exact .inl ⟨b, h, rfl, rfl⟩

theorem lookup_uncite (h : (uncite bundles digest).lookup digest' = some b) :
    Carried bundles digest' b := by
  unfold uncite at h
  cases hl : bundles.lookup digest with
  | none => rw [hl] at h; exact ⟨b, h, rfl, rfl⟩
  | some b₀ =>
    rw [hl] at h
    by_cases hz : b₀.citers - 1 = 0
    · simp only [hz, if_true, lookup_erase_eq] at h
      split at h
      · cases h
      · exact ⟨b, h, rfl, rfl⟩
    · simp only [hz, if_false, lookup_insert_eq] at h
      split at h
      · next hd => cases h; subst hd; exact ⟨b₀, hl, rfl, rfl⟩
      · exact ⟨b, h, rfl, rfl⟩

end Citations

/-! What the index keeps. `sealed` lists every session that was ever sealed for it. -/

section Invariant

variable {sha256 : Bytes → Bytes} {sealed sealed' : List (AttestedSession sha256)}
  {ix : SessionIndex} {split : SplitSession} {id fingerprint id' : String} {e e' : SessionEntry}
  {retentionUntil now deadline d : U64} {held : Nat → Bool} {hint : Hint} {lease : SessionLease}

/-- A split of a sealed session. -/
def SplitOf (sealed : List (AttestedSession sha256)) (split : SplitSession) : Prop :=
  ∃ s ∈ sealed, SplitSession.new sha256 s = some split

/-- SHA-256 tells apart the documents sealed so far, and the bundles they cite. -/
structure Distinct (sealed : List (AttestedSession sha256)) : Prop where
  documents : Set.InjOn sha256 {b | ∃ s ∈ sealed, s.bytes = b}
  bundles : Set.InjOn sha256 {b | ∃ split, SplitOf sealed split ∧ split.bundle = b}

/-- The entry is what `insert` keeps of a split. -/
def Origin (sealed : List (AttestedSession sha256)) (id : String) (e : SessionEntry) : Prop :=
  ∃ split, SplitOf sealed split ∧ split.sessionId = id ∧ split.stripped = e.stripped ∧
    split.contentType = e.contentType

structure Inv (sealed : List (AttestedSession sha256)) (ix : SessionIndex) : Prop where
  origin : ∀ {id e}, ix.byId.lookup id = some e → Origin sealed id e
  expires : ∀ {id e}, ix.byId.lookup id = some e → e.stripped.expiresAt ≤ e.retentionUntil
  token : ∀ {id e}, ix.byId.lookup id = some e → e.token < ix.nextToken
  hint : ∀ {d id}, (d, id) ∈ ix.byRetention ↔
    ∃ e, ix.byId.lookup id = some e ∧ e.retentionUntil = d
  citers : ∀ digest,
    citersOf ix.bundles digest = FinMap.count (fun e => e.digest = digest) ix.byId
  bundle : ∀ {digest b}, ix.bundles.lookup digest = some b →
    ∃ split, SplitOf sealed split ∧ split.digest = digest ∧ split.bundle = b.bytes

theorem SplitOf.mono (h : SplitOf sealed split) (hs : sealed ⊆ sealed') :
    SplitOf sealed' split := by
  obtain ⟨s, hm, hn⟩ := h
  exact ⟨s, hs hm, hn⟩

theorem Distinct.mono (h : Distinct sealed') (hs : sealed ⊆ sealed') : Distinct sealed where
  documents := by
    apply h.documents.mono
    rintro b ⟨s, hm, hb⟩
    exact ⟨s, hs hm, hb⟩
  bundles := by
    apply h.bundles.mono
    rintro b ⟨split, ho, hb⟩
    exact ⟨split, ho.mono hs, hb⟩

theorem Inv.mono (h : Inv sealed ix) (hs : sealed ⊆ sealed') : Inv sealed' ix where
  origin hl := by
    obtain ⟨split, ho, hrest⟩ := h.origin hl
    exact ⟨split, ho.mono hs, hrest⟩
  expires := h.expires
  token := h.token
  hint := h.hint
  citers := h.citers
  bundle hl := by
    obtain ⟨split, ho, hrest⟩ := h.bundle hl
    exact ⟨split, ho.mono hs, hrest⟩

open SessionIndex

theorem inv_empty : Inv sealed empty where
  origin h := by cases h
  expires h := by cases h
  token h := by cases h
  hint := by simp [empty]
  citers digest := rfl
  bundle h := by cases h

theorem mem_dropRetentionHint :
    (d, id) ∈ (ix.dropRetentionHint id' retentionUntil).byRetention ↔
      (d, id) ∈ ix.byRetention ∧ (d, id) ≠ (retentionUntil, id') := by
  rw [dropRetentionHint, List.mem_filter, decide_eq_true_iff]

theorem mem_addRetentionHint :
    (d, id) ∈ (ix.addRetentionHint id' retentionUntil).byRetention ↔
      (d, id) = (retentionUntil, id') ∨ (d, id) ∈ ix.byRetention :=
  List.mem_insert_iff

/-- The three things that can happen to an id of a lapsed bucket. -/
theorem evictOne_cases (held : Nat → Bool) (ix : SessionIndex) (hint : Hint) :
    let popped := ix.dropRetentionHint hint.2 hint.1
    (ix.byId.lookup hint.2 = none ∧ ix.evictOne held hint = popped) ∨
    (∃ entry, ix.byId.lookup hint.2 = some entry ∧ held entry.token ∧
      ix.evictOne held hint = popped.addRetentionHint hint.2 hint.1) ∨
    (∃ entry, ix.byId.lookup hint.2 = some entry ∧ ¬ held entry.token ∧
      ix.evictOne held hint = popped.forget hint.2 entry) := by
  intro popped
  have hpop : popped.byId = ix.byId := rfl
  unfold evictOne
  cases h : ix.byId.lookup hint.2 with
  | none => exact .inl ⟨rfl, by simp only [popped, hpop, h]⟩
  | some entry =>
    by_cases hh : held entry.token
    · exact .inr (.inl ⟨entry, rfl, hh, by simp only [popped, hpop, h, hh, if_true]⟩)
    · exact .inr (.inr ⟨entry, rfl, hh, by simp [popped, hpop, h, hh]⟩)

theorem lookup_evictOne :
    (ix.evictOne held hint).byId.lookup id = some e ↔
      ix.byId.lookup id = some e ∧ (id ≠ hint.2 ∨ held e.token) := by
  by_cases hid : id = hint.2
  · subst hid
    rcases evictOne_cases held ix hint with ⟨hl, he⟩ | ⟨entry, hl, hh, he⟩ | ⟨entry, hl, hh, he⟩
    · rw [he, hl]
      simp [dropRetentionHint, hl]
    · rw [he, hl]
      simp only [addRetentionHint, dropRetentionHint, hl]
      constructor
      · rintro ⟨⟩
        exact ⟨rfl, .inr hh⟩
      · exact And.left
    · rw [he, hl, forget, lookup_erase_eq, if_pos rfl]
      simp only [reduceCtorEq, false_iff]
      rintro ⟨⟨⟩, h | h⟩
      · exact h rfl
      · exact hh h
  · rcases evictOne_cases held ix hint with ⟨-, he⟩ | ⟨entry, -, -, he⟩ | ⟨entry, -, -, he⟩
    · simp [he, dropRetentionHint, hid]
    · simp [he, addRetentionHint, dropRetentionHint, hid]
    · simp [he, forget, dropRetentionHint, hid]

theorem lookup_of_evictOne (h : (ix.evictOne held hint).byId.lookup id = some e) :
    ix.byId.lookup id = some e :=
  (lookup_evictOne.mp h).1

/-- A bundle that survives an eviction is the one that was there. -/
theorem carried_evictOne {digest : String} {b : Bundle}
    (h : (ix.evictOne held hint).bundles.lookup digest = some b) : Carried ix.bundles digest b := by
  rcases evictOne_cases held ix hint with ⟨-, he⟩ | ⟨entry, -, -, he⟩ | ⟨entry, -, -, he⟩
  · rw [he] at h
    exact ⟨b, h, rfl, rfl⟩
  · rw [he] at h
    exact ⟨b, h, rfl, rfl⟩
  · rw [he] at h
    exact lookup_uncite h

/-- Evicting one hint keeps the index in order, provided the hint is not out of date. -/
theorem inv_evictOne (hi : Inv sealed ix)
    (hd : ∀ e, ix.byId.lookup hint.2 = some e → e.retentionUntil = hint.1) :
    Inv sealed (ix.evictOne held hint) where
  origin h := hi.origin (lookup_of_evictOne h)
  expires h := hi.expires (lookup_of_evictOne h)
  token h := by
    have ht := hi.token (lookup_of_evictOne h)
    rcases evictOne_cases held ix hint with ⟨-, he⟩ | ⟨entry, -, -, he⟩ | ⟨entry, -, -, he⟩
    all_goals
      rw [he]
      exact ht
  hint := by
    intro d id
    obtain ⟨d', id'⟩ := hint
    rcases evictOne_cases held ix (d', id') with ⟨hl, he⟩ | ⟨entry, hl, hh, he⟩ | ⟨entry, hl, hh, he⟩
    · rw [he, mem_dropRetentionHint, hi.hint]
      constructor
      · exact And.left
      · rintro ⟨e, hle, hde⟩
        refine ⟨⟨e, hle, hde⟩, ?_⟩
        rintro ⟨⟩
        cases hl.symm.trans hle
    · rw [he, mem_addRetentionHint, mem_dropRetentionHint, hi.hint]
      constructor
      · rintro (⟨⟨⟩⟩ | h)
        · exact ⟨entry, hl, hd entry hl⟩
        · exact h.1
      · intro h
        by_cases heq : (d, id) = (d', id')
        · exact .inl heq
        · exact .inr ⟨h, heq⟩
    · rw [he]
      simp only [forget, lookup_erase_eq]
      rw [show _ ∈ (dropRetentionHint ix id' d').byRetention ↔ _ from
        mem_dropRetentionHint, hi.hint]
      by_cases hid : id = id'
      · subst hid
        simp only [if_true, reduceCtorEq, false_and, exists_false, iff_false]
        rintro ⟨⟨e, hle, rfl⟩, hne⟩
        rw [hd e hle] at hne
        exact hne rfl
      · simp [hid, dropRetentionHint]
  citers digest := by
    rcases evictOne_cases held ix hint with ⟨-, he⟩ | ⟨entry, -, -, he⟩ | ⟨entry, hl, -, he⟩
    · rw [he]
      exact hi.citers digest
    · rw [he]
      exact hi.citers digest
    · rw [he]
      have hc := count_erase (p := fun e => decide (e.digest = digest)) hl
      have hu := citersOf_uncite ix.bundles entry.digest digest
      have hn := hi.citers digest
      simp only [forget, dropRetentionHint]
      by_cases hdig : entry.digest = digest
      · simp [hdig] at hc hu ⊢
        omega
      · have hdig' := Ne.symm hdig
        simp [hdig, hdig'] at hc hu ⊢
        omega
  bundle h := by
    obtain ⟨b₀, hb, hbytes, -⟩ := carried_evictOne h
    rw [← hbytes]
    exact hi.bundle hb

theorem mem_lapsed : hint ∈ ix.lapsed now ↔ hint ∈ ix.byRetention ∧ hint.1 ≤ now := by
  rw [lapsed, (List.perm_insertionSort _ _).mem_iff, List.mem_filter, decide_eq_true_iff]

/-- A pass over up-to-date hints: the order is kept, and exactly the entries with a visited
hint that nobody holds are gone. -/
theorem evict_fold (hi : Inv sealed ix) (hs : List Hint)
    (hd : ∀ h ∈ hs, ∀ e, ix.byId.lookup h.2 = some e → e.retentionUntil = h.1) :
    Inv sealed (hs.foldl (evictOne held) ix) ∧
      ∀ id e, (hs.foldl (evictOne held) ix).byId.lookup id = some e ↔
        ix.byId.lookup id = some e ∧ ((e.retentionUntil, id) ∉ hs ∨ held e.token) := by
  induction hs generalizing ix with
  | nil => exact ⟨hi, by simp⟩
  | cons h hs ih =>
    have hi' : Inv sealed (ix.evictOne held h) := inv_evictOne hi (hd h (by simp))
    have hd' : ∀ h' ∈ hs, ∀ e, (ix.evictOne held h).byId.lookup h'.2 = some e →
        e.retentionUntil = h'.1 :=
      fun h' hm e hl => hd h' (List.mem_cons_of_mem _ hm) e (lookup_of_evictOne hl)
    obtain ⟨hinv, hlook⟩ := ih hi' hd'
    refine ⟨hinv, ?_⟩
    intro id e
    rw [List.foldl_cons, hlook, lookup_evictOne]
    constructor
    · rintro ⟨⟨hl, hne⟩, hrest⟩
      refine ⟨hl, ?_⟩
      rcases hrest with hn | hh
      · rcases hne with hne | hh
        · left
          rintro (_ | ⟨_, hm⟩)
          · exact hne rfl
          · exact hn hm
        · exact .inr hh
      · exact .inr hh
    · rintro ⟨hl, hn | hh⟩
      · rw [List.mem_cons, not_or] at hn
        refine ⟨⟨hl, .inl ?_⟩, .inl hn.2⟩
        rintro rfl
        exact hn.1 (Prod.ext (hd h (by simp) e hl) rfl)
      · exact ⟨⟨hl, .inr hh⟩, .inr hh⟩

theorem Inv.lapsed_upToDate (hi : Inv sealed ix) (now : U64) :
    ∀ h ∈ ix.lapsed now, ∀ e, ix.byId.lookup h.2 = some e → e.retentionUntil = h.1 := by
  intro h hm e hl
  obtain ⟨e', hl', hd⟩ := hi.hint.mp (mem_lapsed.mp hm).1
  obtain rfl : e = e' := Option.some.inj (hl.symm.trans hl')
  exact hd

theorem inv_evictLapsed (hi : Inv sealed ix) (held : Nat → Bool) (now : U64) :
    Inv sealed (ix.evictLapsed held now) :=
  (evict_fold hi _ (hi.lapsed_upToDate now)).1

/-- What an eviction at `now` leaves: the entries retained past `now`, and those held. -/
theorem lookup_evictLapsed (hi : Inv sealed ix) :
    (ix.evictLapsed held now).byId.lookup id = some e ↔
      ix.byId.lookup id = some e ∧ (now < e.retentionUntil ∨ held e.token) := by
  unfold evictLapsed
  rw [(evict_fold hi _ (hi.lapsed_upToDate now)).2]
  refine and_congr_right fun hl => or_congr_left ?_
  rw [mem_lapsed, not_and, not_le]
  constructor
  · intro h
    exact h (hi.hint.mpr ⟨e, hl, rfl⟩)
  · intro h _
    exact h

/-- Nothing happens while every entry is retained. -/
theorem evictLapsed_of_live (hi : Inv sealed ix)
    (h : ∀ id e, ix.byId.lookup id = some e → now < e.retentionUntil) :
    ix.evictLapsed held now = ix := by
  have hnil : ix.lapsed now = [] := by
    rw [List.eq_nil_iff_forall_not_mem]
    intro hint hm
    obtain ⟨hm, hle⟩ := mem_lapsed.mp hm
    obtain ⟨e, hl, hd⟩ := hi.hint.mp hm
    exact absurd (hd ▸ h _ e hl) (not_lt.mpr hle)
  rw [evictLapsed, hnil, List.foldl_nil]

theorem carried_evictLapsed {digest : String} {b : Bundle}
    (h : (ix.evictLapsed held now).bundles.lookup digest = some b) :
    Carried ix.bundles digest b := by
  unfold evictLapsed at h
  generalize ix.lapsed now = hs at h
  induction hs generalizing ix with
  | nil => exact ⟨b, h, rfl, rfl⟩
  | cons hint hs ih =>
    obtain ⟨b₁, h₁, hbytes, hp⟩ := ih h
    obtain ⟨b₀, h₀, hbytes₀, hp₀⟩ := carried_evictOne h₁
    exact ⟨b₀, h₀, hbytes₀.trans hbytes, hp₀.trans hp⟩

/-- An id names one sequence of bytes. -/
theorem Distinct.bytes_eq (hd : Distinct sealed) {s s' : AttestedSession sha256}
    (hs : s ∈ sealed) (hs' : s' ∈ sealed) (h : s.sessionId = s'.sessionId) :
    s.bytes = s'.bytes := by
  rw [s.sessionId_eq, s'.sessionId_eq] at h
  exact hd.documents ⟨s, hs, rfl⟩ ⟨s', hs', rfl⟩ (hexEncode_injective h)

/-- An id names one bundle. -/
theorem Distinct.digest_eq (hd : Distinct sealed) {split' : SplitSession}
    (h : SplitOf sealed split) (h' : SplitOf sealed split')
    (hid : split.sessionId = split'.sessionId) : split.digest = split'.digest := by
  obtain ⟨s, hs, hn⟩ := h
  obtain ⟨s', hs', hn'⟩ := h'
  obtain ⟨hsid, hstrip, -, -⟩ := split_spec hn
  obtain ⟨hsid', hstrip', -, -⟩ := split_spec hn'
  have hb : s.bytes = s'.bytes := hd.bytes_eq hs hs' (by rw [← hsid, ← hsid', hid])
  have hdoc := digest_of_jcsBytes s.bytes_eq (hb ▸ s'.bytes_eq)
  have he := split.digest_eq
  have he' := split'.digest_eq
  rw [hstrip] at he
  rw [hstrip'] at he'
  exact Option.some.inj (he.symm.trans (hdoc.trans he'))

theorem digest_of_stripped (h : split.stripped = e.stripped) : e.digest = split.digest := by
  have hd := split.digest_eq
  rw [h] at hd
  simp [SessionEntry.digest, hd]

theorem insert_byId :
    (ix.insert fingerprint split retentionUntil).byId =
      ix.byId.insert split.sessionId (ix.entryFor fingerprint split retentionUntil) := by
  unfold SessionIndex.insert
  cases h : ix.byId.lookup split.sessionId <;> simp only [h] <;> rfl

theorem insert_bundles :
    (ix.insert fingerprint split retentionUntil).bundles =
      if (ix.byId.lookup split.sessionId).isSome then ix.bundles
      else cite ix.bundles split.digest split.bundle := by
  unfold SessionIndex.insert
  cases h : ix.byId.lookup split.sessionId <;> simp only [h] <;> rfl

theorem lookup_insert :
    (ix.insert fingerprint split retentionUntil).byId.lookup id =
      if id = split.sessionId then some (ix.entryFor fingerprint split retentionUntil)
      else ix.byId.lookup id := by
  rw [insert_byId, lookup_insert_eq]

theorem le_entryFor :
    max retentionUntil split.stripped.expiresAt ≤
      (ix.entryFor fingerprint split retentionUntil).retentionUntil := by
  simp only [entryFor]
  split
  · exact le_max_right _ _
  · exact le_rfl

theorem entryFor_keeps (fingerprint : String) (retentionUntil : U64)
    (h : ix.byId.lookup split.sessionId = some e) :
    e.retentionUntil ≤ (ix.entryFor fingerprint split retentionUntil).retentionUntil ∧
      (ix.entryFor fingerprint split retentionUntil).token = e.token := by
  simp [entryFor, h]

theorem entryFor_new (h : ix.byId.lookup split.sessionId = none) :
    (ix.entryFor fingerprint split retentionUntil).retentionUntil =
        max retentionUntil split.stripped.expiresAt ∧
      (ix.entryFor fingerprint split retentionUntil).token = ix.nextToken := by
  simp [entryFor, h]

theorem mem_insert_hint (hi : Inv sealed ix) :
    (d, id) ∈ (ix.insert fingerprint split retentionUntil).byRetention ↔
      if id = split.sessionId then
        d = (ix.entryFor fingerprint split retentionUntil).retentionUntil
      else (d, id) ∈ ix.byRetention := by
  unfold SessionIndex.insert
  cases h : ix.byId.lookup split.sessionId with
  | none =>
    simp only [h]
    rw [mem_addRetentionHint]
    by_cases hid : id = split.sessionId
    · subst hid
      have hn : (d, split.sessionId) ∉ ix.byRetention := by
        rw [hi.hint]
        rintro ⟨e, hl, -⟩
        cases h.symm.trans hl
      simp [hn]
    · simp [hid]
  | some prev =>
    simp only [h]
    rw [mem_addRetentionHint, mem_dropRetentionHint]
    by_cases hid : id = split.sessionId
    · subst hid
      have hn : ¬ ((d, split.sessionId) ∈ ix.byRetention ∧
          (d, split.sessionId) ≠ (prev.retentionUntil, split.sessionId)) := by
        rintro ⟨hm, hne⟩
        obtain ⟨e, hl, rfl⟩ := hi.hint.mp hm
        obtain rfl : prev = e := Option.some.inj (h.symm.trans hl)
        exact hne rfl
      rw [or_iff_left hn]
      simp
    · simp [hid]

theorem lookup_insert_bundle {digest : String} {b : Bundle}
    (h : (ix.insert fingerprint split retentionUntil).bundles.lookup digest = some b) :
    Carried ix.bundles digest b ∨ digest = split.digest ∧ b.bytes = split.bundle := by
  rw [insert_bundles] at h
  split at h
  · exact .inl ⟨b, h, rfl, rfl⟩
  · exact lookup_cite h

theorem citers_insert (hd : Distinct sealed) (hi : Inv sealed ix) (hs : SplitOf sealed split)
    (digest : String) :
    citersOf (ix.insert fingerprint split retentionUntil).bundles digest =
      count (fun e => e.digest = digest) (ix.insert fingerprint split retentionUntil).byId := by
  have hdig : (ix.entryFor fingerprint split retentionUntil).digest = split.digest :=
    digest_of_stripped rfl
  rw [insert_byId, insert_bundles]
  cases hl : ix.byId.lookup split.sessionId with
  | none =>
    rw [count_insert_new hl, ← hi.citers, hdig, if_neg (by simp), citersOf_cite]
    simp only [decide_eq_true_eq]
    simp only [eq_comm]
  | some prev =>
    obtain ⟨split', hs', hid, hstrip, -⟩ := hi.origin hl
    have heq : prev.digest = split.digest := by
      rw [digest_of_stripped hstrip]
      exact hd.digest_eq hs' hs hid
    rw [count_insert_old hl (by rw [heq, hdig]), ← hi.citers]
    rfl

theorem nextToken_insert (hi : Inv sealed ix) :
    ix.nextToken ≤ (ix.insert fingerprint split retentionUntil).nextToken ∧
      (ix.entryFor fingerprint split retentionUntil).token <
        (ix.insert fingerprint split retentionUntil).nextToken := by
  unfold SessionIndex.insert
  cases hl : ix.byId.lookup split.sessionId with
  | none =>
    simp only [hl, SessionIndex.addRetentionHint, (entryFor_new hl).2]
    omega
  | some prev =>
    simp only [hl, SessionIndex.addRetentionHint, SessionIndex.dropRetentionHint,
      (entryFor_keeps _ _ hl).2]
    exact ⟨le_rfl, hi.token hl⟩

theorem inv_insert (hd : Distinct sealed) (hi : Inv sealed ix) (hs : SplitOf sealed split) :
    Inv sealed (ix.insert fingerprint split retentionUntil) where
  origin h := by
    rw [lookup_insert] at h
    split at h
    · next hid =>
      cases h
      exact ⟨split, hs, hid.symm, rfl, rfl⟩
    · exact hi.origin h
  expires h := by
    rw [lookup_insert] at h
    split at h
    · cases h
      exact (le_max_right _ _).trans le_entryFor
    · exact hi.expires h
  token h := by
    obtain ⟨hle, hlt⟩ := nextToken_insert hi
    rw [lookup_insert] at h
    split at h
    · cases h
      exact hlt
    · exact (hi.token h).trans_le hle
  hint := by
    intro d id
    rw [mem_insert_hint hi, lookup_insert]
    split
    · simp [eq_comm]
    · exact hi.hint
  citers := citers_insert hd hi hs
  bundle h := by
    rcases lookup_insert_bundle h with ⟨b₀, hb, hbytes, -⟩ | ⟨rfl, hbytes⟩
    · rw [← hbytes]
      exact hi.bundle hb
    · exact ⟨split, hs, rfl, hbytes.symm⟩

theorem lookup_raise (deadline : U64) :
    (ix.raise id' e deadline).byId.lookup id =
      if id = id' then some { e with retentionUntil := deadline } else ix.byId.lookup id :=
  lookup_insert_eq ix.byId id' id _

theorem inv_raise (hi : Inv sealed ix) (hl : ix.byId.lookup id = some e)
    (hlt : e.retentionUntil < deadline) : Inv sealed (ix.raise id e deadline) where
  origin h := by
    rw [lookup_raise] at h
    split at h
    · next hid =>
      cases h
      obtain ⟨split, hs, hid', hrest⟩ := hi.origin hl
      exact ⟨split, hs, hid'.trans hid.symm, hrest⟩
    · exact hi.origin h
  expires h := by
    rw [lookup_raise] at h
    split at h
    · cases h
      exact (hi.expires hl).trans hlt.le
    · exact hi.expires h
  token h := by
    rw [lookup_raise] at h
    split at h
    · cases h
      have ht := hi.token hl
      exact ht
    · exact hi.token h
  hint := by
    intro d id'
    rw [lookup_raise, raise, mem_addRetentionHint, mem_dropRetentionHint]
    by_cases hid : id' = id
    · subst hid
      have hn : ¬ ((d, id') ∈ ix.byRetention ∧ (d, id') ≠ (e.retentionUntil, id')) := by
        rintro ⟨hm, hne⟩
        obtain ⟨e', hl', rfl⟩ := hi.hint.mp hm
        obtain rfl : e = e' := Option.some.inj (hl.symm.trans hl')
        exact hne rfl
      rw [or_iff_left hn]
      simp [eq_comm]
    · simp [hid, hi.hint]
  citers digest := by
    have hc : count (fun e => decide (e.digest = digest)) (ix.raise id e deadline).byId =
        count (fun e => decide (e.digest = digest)) ix.byId :=
      count_insert_old hl rfl
    rw [hc]
    exact hi.citers digest
  bundle h := hi.bundle h

/-- A successful extension moves the deadline of the leased entry, and nothing else. -/
theorem extend_spec {ix' : SessionIndex} (hi : Inv sealed ix)
    (h : ix.extend lease deadline = .ok ix') :
    Inv sealed ix' ∧ ix'.bundles = ix.bundles ∧ ix'.byFingerprint = ix.byFingerprint ∧
      ∃ entry, ix.byId.lookup lease.sessionId = some entry ∧ entry.token = lease.token ∧
        ∀ id, ix'.byId.lookup id =
          if id = lease.sessionId then
            some { entry with retentionUntil := max entry.retentionUntil deadline }
          else ix.byId.lookup id := by
  unfold extend at h
  cases hl : ix.byId.lookup lease.sessionId with
  | none => rw [hl] at h; cases h
  | some entry =>
    simp only [hl] at h
    split at h
    · cases h
    · next ht =>
      have ht := not_not.mp ht
      split at h
      · next hlt =>
        cases h
        refine ⟨inv_raise hi hl hlt, rfl, rfl, entry, rfl, ht, ?_⟩
        intro id
        rw [lookup_raise, max_eq_right hlt.le]
      · next hle =>
        cases h
        refine ⟨hi, rfl, rfl, entry, rfl, ht, ?_⟩
        intro id
        rw [max_eq_left (not_lt.mp hle)]
        split
        · next hid => rw [hid, hl]
        · rfl

/-- A lease taken from the index extends: the panic of `current` is never reached. -/
theorem exists_extend (hl : ix.byId.lookup lease.sessionId = some e)
    (ht : e.token = lease.token) (deadline : U64) : ∃ ix', ix.extend lease deadline = .ok ix' := by
  simp only [extend, hl, ht, ne_eq, not_true_eq_false, if_false]
  split
  · exact ⟨_, rfl⟩
  · exact ⟨_, rfl⟩

/-- Looking up a channel evicts, and then either finds no valid session or leases and extends
the one it finds. -/
theorem current_cases (held : Nat → Bool) (ix : SessionIndex) (fingerprint : String)
    (retentionUntil now : U64) :
    ix.current held fingerprint retentionUntil now = (none, ix.evictLapsed held now) ∨
    ∃ id entry ix', (ix.evictLapsed held now).byFingerprint.lookup fingerprint = some id ∧
      (ix.evictLapsed held now).byId.lookup id = some entry ∧ now < entry.stripped.expiresAt ∧
      (ix.evictLapsed held now).extend (leaseOf id entry) retentionUntil =
        .ok ix' ∧
      ix.current held fingerprint retentionUntil now =
        (some (leaseOf id entry), ix') := by
  simp only [current]
  generalize ix.evictLapsed held now = ev
  cases hf : ev.byFingerprint.lookup fingerprint with
  | none => simp
  | some id =>
    cases hl : ev.byId.lookup id with
    | none => simp [hl]
    | some entry =>
      by_cases hx : entry.stripped.expiresAt ≤ now
      · simp [hl, hx]
      · obtain ⟨ix', he⟩ : ∃ ix', ev.extend (leaseOf id entry) retentionUntil =
            .ok ix' := exists_extend hl rfl retentionUntil
        refine .inr ⟨id, entry, ix', rfl, hl, not_le.mp hx, he, ?_⟩
        simp [hl, hx, he]

theorem inv_markPersisted (hi : Inv sealed ix) (digest : String) :
    Inv sealed (ix.markPersisted digest) where
  origin := hi.origin
  expires := hi.expires
  token := hi.token
  hint := hi.hint
  citers digest' := by
    refine Eq.trans ?_ (hi.citers digest')
    simp only [markPersisted, citersOf, lookup_modify]
    by_cases hd : digest' = digest
    · subst hd
      cases ix.bundles.lookup digest' <;> simp
    · simp [hd]
  bundle h := by
    simp only [markPersisted, lookup_modify] at h
    split at h
    · next hd =>
      obtain ⟨b, hb, rfl⟩ := Option.map_eq_some_iff.mp h
      have hs := hi.bundle hb
      rw [hd]
      exact hs
    · exact hi.bundle h

theorem inv_markAllPersisted (hi : Inv sealed ix) : Inv sealed ix.markAllPersisted where
  origin := hi.origin
  expires := hi.expires
  token := hi.token
  hint := hi.hint
  citers digest := by
    refine Eq.trans ?_ (hi.citers digest)
    simp only [markAllPersisted, citersOf, lookup_mapValues]
    cases ix.bundles.lookup digest <;> simp
  bundle h := by
    simp only [markAllPersisted, lookup_mapValues] at h
    obtain ⟨b, hb, rfl⟩ := Option.map_eq_some_iff.mp h
    have hs := hi.bundle hb
    exact hs

/-- An entry is what is left of a sealed session whose bundle is in the index. -/
theorem exists_session (hd : Distinct sealed) (hi : Inv sealed ix)
    (hl : ix.byId.lookup id = some e) :
    ∃ s ∈ sealed, ∃ split b, SplitSession.new sha256 s = some split ∧ split.sessionId = id ∧
      split.stripped = e.stripped ∧ split.contentType = e.contentType ∧
      ix.bundles.lookup split.digest = some b ∧ b.bytes = split.bundle := by
  obtain ⟨split, ⟨s, hm, hn⟩, hid, hstrip, hct⟩ := hi.origin hl
  have hdig := digest_of_stripped hstrip
  have hpos : 0 < citersOf ix.bundles split.digest := by
    rw [hi.citers, count_pos_iff]
    exact ⟨id, e, hl, by simp [hdig]⟩
  obtain ⟨b, hb⟩ : ∃ b, ix.bundles.lookup split.digest = some b := by
    unfold citersOf at hpos
    cases hb : ix.bundles.lookup split.digest with
    | none => rw [hb] at hpos; cases hpos
    | some b => exact ⟨b, rfl⟩
  obtain ⟨split', ⟨s', hm', hn'⟩, hdig', hbytes⟩ := hi.bundle hb
  refine ⟨s, hm, split, b, hn, hid, hstrip, hct, hb, ?_⟩
  rw [← hbytes]
  apply hd.bundles ⟨split', ⟨s', hm', hn'⟩, rfl⟩ ⟨split, ⟨s, hm, hn⟩, rfl⟩
  have h := (split_spec hn).2.2.2
  have h' := (split_spec hn').2.2.2
  rw [hdig', h] at h'
  exact hexEncode_injective (String.append_right_inj _ |>.mp h'.symm)

/-- Rebuilding an entry gives back a sealed session. -/
theorem rebuild_spec (hd : Distinct sealed) (hi : Inv sealed ix) (hl : ix.byId.lookup id = some e) :
    ∃ s ∈ sealed, s.sessionId = id ∧ ix.rebuild sha256 id e = some s := by
  obtain ⟨s, hm, split, b, hn, rfl, hstrip, hct, hb, hbytes⟩ := exists_session hd hi hl
  refine ⟨s, hm, (split_spec hn).1.symm, ?_⟩
  have hdoc := restore_split hn
  rw [hstrip, hct, ← hbytes] at hdoc
  rw [← digest_of_stripped hstrip] at hb
  simp only [rebuild, hb, Option.bind_eq_bind, Option.bind_some, hdoc, seal_document,
    Except.toOption, (split_spec hn).1, if_true]

/-- A session retained past `now` is served. -/
theorem get_of_lookup (hd : Distinct sealed) (hi : Inv sealed ix)
    (hl : ix.byId.lookup id = some e) (hnow : now < e.retentionUntil) (held : Nat → Bool) :
    ∃ s ∈ sealed, s.sessionId = id ∧ (ix.get sha256 held id now).1 = some s := by
  have hlive : (ix.evictLapsed held now).byId.lookup id = some e :=
    (lookup_evictLapsed hi).mpr ⟨hl, .inl hnow⟩
  obtain ⟨s, hm, hid, hr⟩ := rebuild_spec hd (inv_evictLapsed hi held now) hlive
  exact ⟨s, hm, hid, (congrArg (Option.bind · _) hlive).trans hr⟩

/-- A session without an entry is not served. -/
theorem get_of_lookup_none (hi : Inv sealed ix) (hl : ix.byId.lookup id = none)
    (held : Nat → Bool) : (ix.get sha256 held id now).1 = none := by
  have hnone : (ix.evictLapsed held now).byId.lookup id = none := by
    cases he : (ix.evictLapsed held now).byId.lookup id with
    | none => rfl
    | some e => cases hl.symm.trans ((lookup_evictLapsed hi).mp he).1
  exact congrArg (Option.bind · _) hnone

end Invariant

end AciGateway.Session
