import AciGateway.Session.Log
import AciGateway.Session.Registry
import Mathlib.Data.Prod.Lex

/-! The two session stores as machines. Every call of a store is cut into the stretches it runs
under a lock, so that any interleaving of callers is a run of single steps. -/
namespace AciGateway.Session

open Octets Json Lines Relation World

variable {sha256 : Bytes → Bytes}

/-! The store without a log: a call is one step. -/

inductive InMemoryStep : World sha256 → World sha256 → Prop
  | currentOrSeal (w) (fingerprint : String) (retentionUntil now : U64)
      (sealSession : Except String (AttestedSession sha256)) :
      InMemoryStep w (w.currentOrSeal fingerprint retentionUntil now sealSession).2
  | getSession (w) (id : String) (now : U64) : InMemoryStep w (w.get id now).2
  | extendRetention (w) (lease : SessionLease) (deadline : U64) :
      InMemoryStep w (w.extendRetention lease deadline).2
  | clone (w) (lease : SessionLease) (h : lease ∈ w.leases) :
      InMemoryStep w { w with leases := lease :: w.leases }
  | drop (w) (lease : SessionLease) : InMemoryStep w { w with leases := w.leases.erase lease }

def World.empty : World sha256 := ⟨.empty, [], [], []⟩

/-! The store with a log. -/

/-- What the holder of the writer lock is about. -/
inductive Job (sha256 : Bytes → Bytes) where
  /-- Nobody holds the lock. -/
  | idle
  /-- No current session was found under the lock; a new one is being sealed. -/
  | sealing (fingerprint : String) (retentionUntil now : U64)
  /-- The bundle was looked up; the records are about to be written. -/
  | appending (fingerprint : String) (session : AttestedSession sha256) (split : SplitSession)
      (hsplit : SplitSession.new sha256 session = some split) (retentionUntil now : U64)
      (bundlePersisted : Bool)
  /-- The index was serialized; the new file is about to be swapped in. -/
  | compacting (lines : List Bytes)

/-- `appended` notes each session whose append returned, with the deadline it wrote. -/
structure JsonlStore (sha256 : Bytes → Bytes) where
  world : World sha256
  file : Bytes
  writer : LogWriter
  job : Job sha256
  appended : List (AttestedSession sha256 × U64)

inductive Action (sha256 : Bytes → Bytes) where
  /-- `current_or_seal` before it takes the writer lock. -/
  | lookup (fingerprint : String) (retentionUntil now : U64)
  /-- `current_or_seal` with the writer lock just taken. -/
  | lookupLocked (fingerprint : String) (retentionUntil now : U64)
  /-- What `seal` returned, and the look at whether the log holds the bundle. -/
  | sealed (result : Except String (AttestedSession sha256))
  /-- The write and the index update; `some n` if the write failed after `n` bytes. -/
  | write (failed : Option Nat)
  /-- `compact` up to the serialized index. -/
  | compact (now : U64)
  /-- The rest of `compact`; `false` if the new file could not be written or renamed. -/
  | swap (done : Bool)
  | getSession (id : String) (now : U64)
  | extendRetention (lease : SessionLease) (deadline : U64)
  | clone (lease : SessionLease)
  | drop (lease : SessionLease)

/-- Entries compare by the time they were established, then by id. -/
def ageKey (x : String × SessionEntry) : U64 ×ₗ String := toLex (x.2.stripped.establishedAt, x.1)

/-- The entries of the index, oldest first. -/
def SessionIndex.oldestFirst (ix : SessionIndex) : List (String × SessionEntry) :=
  (ix.byId.entries.map (fun e => (e.1, e.2))).insertionSort (fun a b => ageKey a ≤ ageKey b)

/-- The records of a compacted log but for their numbers: bundles, then sessions. -/
def SessionIndex.snapshot (ix : SessionIndex) (now : U64) : List (U64 → SessionLogRecord) :=
  ix.bundles.entries.map (fun b seq => evidenceRecord seq now b.2.bytes) ++
    ix.oldestFirst.map (fun e seq => sessionRecord seq now e.2.fingerprint e.2.retentionUntil
      e.2.contentType e.2.stripped)

def SessionIndex.compactLines (ix : SessionIndex) (now : U64) : List Bytes :=
  ((ix.snapshot now).mapIdx (fun n record => record (Fin.ofNat _ n))).map recordLine

namespace JsonlStore

/-- A store opened on a log with the content `file`. -/
def opened (sha256 : Bytes → Bytes) (reader : Reader) (file : Bytes) (now : U64) :
    JsonlStore sha256 where
  world := ⟨(openLog sha256 reader file now).1, [], (replay sha256 reader file now).sealed, []⟩
  file
  writer := (openLog sha256 reader file now).2
  job := .idle
  appended := []

def write (s : JsonlStore sha256) (fingerprint : String) (session : AttestedSession sha256)
    (split : SplitSession) (retentionUntil now : U64) (bundlePersisted : Bool)
    (failed : Option Nat) : JsonlStore sha256 :=
  let s := { s with job := .idle }
  match appendText s.writer bundlePersisted fingerprint split retentionUntil now with
  | .error _ => s
  | .ok (out, nextSeq) =>
    match failed with
    | some n =>
      { s with
        file := s.file ++ out.take n
        writer := { s.writer with needsSeparator := true } }
    | none =>
      let deadline := max retentionUntil split.stripped.expiresAt
      { s with
        file := s.file ++ out
        writer := ⟨nextSeq, false⟩
        world := (s.world.store true fingerprint session split deadline now).2
        appended := (session, deadline) :: s.appended }

/-- One step; `none` if the writer lock is not as the action needs it. -/
def step (s : JsonlStore sha256) : Action sha256 → Option (JsonlStore sha256)
  | .lookup fingerprint retentionUntil now =>
    some { s with world := (s.world.current fingerprint retentionUntil now).2 }
  | .lookupLocked fingerprint retentionUntil now =>
    match s.job with
    | .idle =>
      let (lease, world) := s.world.current fingerprint retentionUntil now
      let job := if lease.isSome then .idle else .sealing fingerprint retentionUntil now
      some { s with world, job }
    | _ => none
  | .sealed result =>
    match s.job, result with
    | .sealing fingerprint retentionUntil now, .ok session =>
      match h : SplitSession.new sha256 session with
      | some split =>
        let persisted := s.world.index.bundlePersisted split.digest
        some { s with job := .appending fingerprint session split h retentionUntil now persisted }
      | none => some { s with job := .idle }
    | .sealing .., .error _ => some { s with job := .idle }
    | _, _ => none
  | .write failed =>
    match s.job with
    | .appending fingerprint session split _ retentionUntil now persisted =>
      some (s.write fingerprint session split retentionUntil now persisted failed)
    | _ => none
  | .compact now =>
    match s.job with
    | .idle =>
      let world := s.world.evict now
      some { s with world, job := .compacting (world.index.compactLines now) }
    | _ => none
  | .swap done =>
    match s.job with
    | .compacting lines =>
      if done then
        some { s with
          world := { s.world with index := s.world.index.markAllPersisted }
          file := lines.flatten
          writer := ⟨Fin.ofNat _ lines.length, false⟩
          job := .idle }
      else some { s with job := .idle }
    | _ => none
  | .getSession id now => some { s with world := (s.world.get id now).2 }
  | .extendRetention lease deadline =>
    some { s with world := (s.world.extendRetention lease deadline).2 }
  | .clone lease =>
    if lease ∈ s.world.leases then
      some { s with world := { s.world with leases := lease :: s.world.leases } }
    else none
  | .drop lease => some { s with world := { s.world with leases := s.world.leases.erase lease } }

def run : JsonlStore sha256 → List (Action sha256) → Option (JsonlStore sha256)
  | s, [] => some s
  | s, a :: actions => (s.step a).bind (run · actions)

end JsonlStore

section Simulation

variable {w w' : World sha256} {s s' : JsonlStore sha256} {a : Action sha256}
  {actions : List (Action sha256)} {reader : Reader} {file : Bytes} {now : U64} {id : String}

/-- A call of the store without a log is a lookup and at most one insertion. -/
theorem registry_currentOrSeal (w : World sha256) (fingerprint : String)
    (retentionUntil now : U64) (sealSession : Except String (AttestedSession sha256)) :
    ReflTransGen RegistryStep w
      (w.currentOrSeal fingerprint retentionUntil now sealSession).2 := by
  have hcur := RegistryStep.current w fingerprint retentionUntil now
  unfold currentOrSeal
  generalize w.current fingerprint retentionUntil now = found at hcur ⊢
  obtain ⟨lease, w₁⟩ := found
  cases lease with
  | some lease => exact .single hcur
  | none =>
    cases sealSession with
    | error e => exact .single hcur
    | ok session =>
      simp only
      split
      · exact .single hcur
      · next split hn => exact .tail (.single hcur) (.store w₁ false _ session split _ _ hn)

theorem registry_inMemory (h : InMemoryStep w w') : ReflTransGen RegistryStep w w' := by
  cases h with
  | currentOrSeal fingerprint retentionUntil now sealSession =>
    exact registry_currentOrSeal w fingerprint retentionUntil now sealSession
  | getSession id now => exact .single (.get w id now)
  | extendRetention lease deadline => exact .single (.extendRetention w lease deadline)
  | clone lease h => exact .single (.clone w lease h)
  | drop lease => exact .single (.drop w lease)

open JsonlStore

/-- The three ways an append can end. -/
theorem write_cases (s : JsonlStore sha256) (fingerprint : String)
    (session : AttestedSession sha256) (split : SplitSession) (retentionUntil now : U64)
    (persisted : Bool) (failed : Option Nat) :
    let s' := s.write fingerprint session split retentionUntil now persisted failed
    let text := appendText s.writer persisted fingerprint split retentionUntil now
    let deadline := max retentionUntil split.stripped.expiresAt
    ((∃ e, text = .error e) ∧ s' = { s with job := .idle }) ∨
    (∃ out next n, text = .ok (out, next) ∧ failed = some n ∧
      s' = { s with file := s.file ++ out.take n
                    writer := { s.writer with needsSeparator := true }
                    job := .idle }) ∨
    (∃ out next, text = .ok (out, next) ∧ failed = none ∧
      s' = { s with file := s.file ++ out
                    writer := ⟨next, false⟩
                    world := (s.world.store true fingerprint session split deadline now).2
                    job := .idle
                    appended := (session, deadline) :: s.appended }) := by
  intro s' text deadline
  simp only [s', write]
  cases ht : text with
  | error e =>
    simp only [text] at ht
    simp [ht]
  | ok r =>
    simp only [text] at ht
    obtain ⟨out, next⟩ := r
    cases failed with
    | some n => exact .inr (.inl ⟨out, next, n, rfl, rfl, by simp only [ht]⟩)
    | none => exact .inr (.inr ⟨out, next, rfl, rfl, by simp only [ht, deadline]⟩)

theorem registry_write (s : JsonlStore sha256) (fingerprint : String)
    (session : AttestedSession sha256) (split : SplitSession) (retentionUntil now : U64)
    (persisted : Bool) (failed : Option Nat) (hn : SplitSession.new sha256 session = some split) :
    ReflTransGen RegistryStep s.world
      (s.write fingerprint session split retentionUntil now persisted failed).world := by
  rcases write_cases s fingerprint session split retentionUntil now persisted failed with
    ⟨-, hw⟩ | ⟨_, _, _, -, -, hw⟩ | ⟨_, _, -, -, hw⟩
  · rw [hw]
  · rw [hw]
  · rw [hw]
    exact .single (.store s.world true fingerprint session split _ now hn)

/-- Each step of the store with a log is at most one step on its index. -/
theorem registry_step (h : s.step a = some s') : ReflTransGen RegistryStep s.world s'.world := by
  cases a with
  | lookup fingerprint retentionUntil now =>
    cases h
    exact .single (.current s.world fingerprint retentionUntil now)
  | lookupLocked fingerprint retentionUntil now =>
    simp only [step] at h
    split at h
    · cases h
      exact .single (.current s.world fingerprint retentionUntil now)
    · cases h
  | sealed result =>
    simp only [step] at h
    split at h
    · split at h <;> (cases h; exact .refl)
    · cases h; exact .refl
    · cases h
  | write failed =>
    simp only [step] at h
    split at h
    · next fingerprint session split hn retentionUntil now persisted _ =>
      cases h
      exact registry_write s fingerprint session split retentionUntil now persisted failed hn
    · cases h
  | compact now =>
    simp only [step] at h
    split at h
    · cases h
      exact .single (.evict s.world now)
    · cases h
  | swap done =>
    simp only [step] at h
    split at h
    · split at h
      · cases h
        exact .single (.markAllPersisted s.world)
      · cases h
        exact .refl
    · cases h
  | getSession id now => cases h; exact .single (.get s.world id now)
  | extendRetention lease deadline =>
    cases h
    exact .single (.extendRetention s.world lease deadline)
  | clone lease =>
    simp only [step] at h
    split at h
    · next hm =>
      cases h
      exact .single (.clone s.world lease hm)
    · cases h
  | drop lease => cases h; exact .single (.drop s.world lease)

theorem run_cons {actions : List (Action sha256)} :
    s.run (a :: actions) = some s' ↔ ∃ s₁, s.step a = some s₁ ∧ s₁.run actions = some s' := by
  rw [run, Option.bind_eq_some_iff]

theorem run_append_list (actions actions' : List (Action sha256)) :
    s.run (actions ++ actions') = (s.run actions).bind (run · actions') := by
  induction actions generalizing s with
  | nil => rfl
  | cons a actions ih =>
    simp only [List.cons_append, run, Option.bind_assoc, ih]

theorem registry_run (h : s.run actions = some s') :
    ReflTransGen RegistryStep s.world s'.world := by
  induction actions generalizing s with
  | nil => cases h; exact .refl
  | cons a actions ih =>
    obtain ⟨s₁, hs, hr⟩ := run_cons.mp h
    exact (registry_step hs).trans (ih hr)

theorem good_empty : Good (empty : World sha256) where
  inv := inv_empty
  leased := by simp [empty]
  standing _ _ h := h.elim

theorem good_opened (hd : Distinct (opened sha256 reader file now).world.sealed) :
    Good (opened sha256 reader file now).world where
  inv := inv_openLog hd
  leased := by simp [opened]
  standing _ _ h := h.elim

theorem registry_inMemoryRun (h : ReflTransGen InMemoryStep w w') :
    ReflTransGen RegistryStep w w' := by
  induction h with
  | refl => exact .refl
  | tail _ hs ih => exact ih.trans (registry_inMemory hs)

theorem good_inMemory (h : ReflTransGen InMemoryStep empty w) (hd : Distinct w.sealed) : Good w :=
  good_run (registry_inMemoryRun h) (fun _ => good_empty) hd

theorem good_jsonl (h : (opened sha256 reader file now).run actions = some s)
    (hd : Distinct s.world.sealed) : Good s.world :=
  good_run (registry_run h) good_opened hd

/-- A leased or retained session is never lost: in every state either store can reach, whatever
its log held when it was opened, the session is served with the bytes that were sealed. -/
theorem kept_session_served (reader : Reader) :
    (∀ w : World sha256, ReflTransGen InMemoryStep World.empty w → Distinct w.sealed →
      ∀ id now, Kept w id now →
        ∃ served, (w.get id now).1 = some served ∧ (∃ s ∈ w.sealed, s.sessionId = id) ∧
          ∀ s ∈ w.sealed, s.sessionId = id → served.bytes = s.bytes) ∧
    (∀ (file : Bytes) (t : U64) (actions : List (Action sha256)) (s : JsonlStore sha256),
      (JsonlStore.opened sha256 reader file t).run actions = some s → Distinct s.world.sealed →
      ∀ id now, Kept s.world id now →
        ∃ served, (s.world.get id now).1 = some served ∧
          (∃ session ∈ s.world.sealed, session.sessionId = id) ∧
          ∀ session ∈ s.world.sealed, session.sessionId = id →
            served.bytes = session.bytes) := by
  constructor
  · intro w hrun hd id now hk
    exact get_of_kept (good_inMemory hrun hd) hd hk
  · intro file t actions s hrun hd id now hk
    exact get_of_kept (good_jsonl hrun hd) hd hk

end Simulation

section Calls

variable {s : JsonlStore sha256} {session : AttestedSession sha256} {split : SplitSession}
  {fingerprint : String} {retentionUntil now : U64}

/-- A first call on an empty store without a log. -/
theorem currentOrSeal_empty (hn : SplitSession.new sha256 session = some split)
    (fingerprint : String) (retentionUntil now : U64) :
    (empty.currentOrSeal fingerprint retentionUntil now (.ok session)).2 =
      ({ empty with trace := [.ran now] }.store false fingerprint session split
        retentionUntil now).2 := by
  simp only [currentOrSeal]
  rw [show current (empty : World sha256) fingerprint retentionUntil now =
    (none, { empty with trace := [.ran now] }) from rfl]
  simp only [hn]

theorem step_sealed (hj : s.job = .sealing fingerprint retentionUntil now)
    (hn : SplitSession.new sha256 session = some split) :
    s.step (.sealed (.ok session)) =
      some { s with job := .appending fingerprint session split hn retentionUntil now
                      (s.world.index.bundlePersisted split.digest) } := by
  simp only [JsonlStore.step, hj]
  split
  · next split' hn' =>
    obtain rfl : split' = split := Option.some.inj (hn'.symm.trans hn)
    rfl
  · next hnone => cases hnone.symm.trans hn

/-- A call that finds no current session, alone on the store, ends in an append. -/
theorem run_append (hj : s.job = .idle)
    (hcur : (s.world.current fingerprint retentionUntil now).1 = none)
    (hn : SplitSession.new sha256 session = some split) (failed : Option Nat) :
    let world := (s.world.current fingerprint retentionUntil now).2
    s.run [.lookupLocked fingerprint retentionUntil now, .sealed (.ok session), .write failed] =
      some ({ s with world }.write fingerprint session split retentionUntil now
        (world.index.bundlePersisted split.digest) failed) := by
  intro world
  have h₁ : s.step (.lookupLocked fingerprint retentionUntil now) =
      some { s with world, job := .sealing fingerprint retentionUntil now } := by
    simp [JsonlStore.step, hj, hcur, world]
  rw [run_cons]
  refine ⟨_, h₁, ?_⟩
  rw [run_cons]
  refine ⟨_, step_sealed rfl hn, ?_⟩
  rfl

end Calls

open SessionIndex

/-- The store after a first append to a log without records. -/
theorem run_first (reader : Reader) {session : AttestedSession sha256} {split : SplitSession}
    {file : Bytes} (hfile : records reader file = [])
    (hn : SplitSession.new sha256 session = some split) (fingerprint : String)
    (retentionUntil now : U64) :
    let world : World sha256 := ⟨empty, [], [], [.ran now]⟩
    let deadline := max retentionUntil split.stripped.expiresAt
    ∃ s out, (JsonlStore.opened sha256 reader file 0).run
        [.lookupLocked fingerprint retentionUntil now, .sealed (.ok session), .write none] =
          some s ∧
      (∃ next, appendText ⟨0, false⟩ false fingerprint split retentionUntil now =
        .ok (out, next)) ∧
      s.file = file ++ out ∧ s.job = .idle ∧ s.appended = [(session, deadline)] ∧
      s.writer = ⟨2, false⟩ ∧
      s.world = (world.store true fingerprint session split deadline now).2 := by
  intro world deadline
  obtain ⟨out, next, hout⟩ := exists_appendText (w := ⟨0, false⟩) (by decide) false fingerprint
    split retentionUntil now
  have hopen : JsonlStore.opened sha256 reader file 0 =
      ⟨⟨empty, [], [], []⟩, file, ⟨0, false⟩, .idle, []⟩ := by
    simp only [JsonlStore.opened, openLog, replay, hfile]
    rfl
  let s : JsonlStore sha256 := ⟨world, file, ⟨0, false⟩, .idle, []⟩
  have hrun : (JsonlStore.opened sha256 reader file 0).run
      [.lookupLocked fingerprint retentionUntil now, .sealed (.ok session), .write none] =
        some (s.write fingerprint session split retentionUntil now false none) := by
    rw [hopen]
    exact run_append rfl rfl hn none
  rcases write_cases s fingerprint session split retentionUntil now false none with
    ⟨⟨e, he⟩, -⟩ | ⟨_, _, _, -, hf, -⟩ | ⟨out', next', ht, -, hw⟩
  · cases he.symm.trans hout
  · cases hf
  · rw [hw] at hrun
    cases ht.symm.trans hout
    obtain ⟨seq, -, hnext, -, -, hseq⟩ := appendText_ok hout
    obtain rfl : seq = 1 := Option.some.inj (hseq.symm.trans (by decide))
    obtain rfl : next = 2 := Option.some.inj (hnext.symm.trans (by decide))
    exact ⟨_, out, hrun, ⟨2, hout⟩, rfl, rfl, rfl, rfl, rfl⟩

/-- A session filed at 5 under the deadline 9: it is served at 100 to the holder of its lease,
and by the store with a log at 8 after the lease is gone. -/
theorem kept_session_served_once : ∃ (session : AttestedSession Sha2.sha256) (lease : SessionLease),
    let memory := (World.empty.currentOrSeal "channel" 7 5 (.ok session)).2
    (∃ served, (memory.get session.sessionId 100).1 = some served ∧
      served.bytes = session.bytes) ∧
    ∃ s, (JsonlStore.opened Sha2.sha256 Reader.strict [] 0).run
        [.lookupLocked "channel" 7 5, .sealed (.ok session), .write none, .drop lease] = some s ∧
      s.world.leases = [] ∧
      ∃ served, (s.world.get session.sessionId 8).1 = some served ∧
        served.bytes = session.bytes := by
  obtain ⟨session, split, hdoc, hn, -, -⟩ :=
    exists_split_bare Sha2.sha256 5 9 "text/plain" [1] (by decide)
  obtain ⟨hid, hstrip, -, -⟩ := split_spec hn
  have hexp : split.stripped.expiresAt = 9 := by
    rw [hstrip, hdoc]
    rfl
  refine ⟨session, leaseOf split.sessionId (empty.entryFor "channel"
    split (max 7 split.stripped.expiresAt)), ?_, ?_⟩
  · have hmem := currentOrSeal_empty hn "channel" 7 5
    rw [store_eq] at hmem
    obtain ⟨served, hs, -, hb⟩ := (kept_session_served Reader.strict).1 _
      (.single (.currentOrSeal empty "channel" 7 5 (.ok session)))
      (by rw [hmem]; exact distinct_singleton session) session.sessionId 100
      (.inl (by rw [hmem]; exact ⟨_, List.mem_cons_self .., hid⟩))
    exact ⟨served, hs, hb session (by rw [hmem]; exact List.mem_cons_self ..) rfl⟩
  · obtain ⟨s, out, hrun, -, -, -, -, -, hworld⟩ := run_first Reader.strict (records_nil _) hn
      "channel" 7 5
    rw [store_eq] at hworld
    have hlast := run_append_list (s := JsonlStore.opened Sha2.sha256 Reader.strict [] 0)
      [.lookupLocked "channel" 7 5, .sealed (.ok session), .write none]
      [.drop (leaseOf split.sessionId (empty.entryFor "channel"
        split (max 7 split.stripped.expiresAt)))]
    rw [hrun] at hlast
    refine ⟨_, hlast, ?_, ?_⟩
    · simp [hworld, promise, evict, lend, file]
    · obtain ⟨served, hs, -, hb⟩ := (kept_session_served Reader.strict).2 [] 0 _ _ hlast
        (by rw [hworld]; exact distinct_singleton session) session.sessionId 8
        (.inr ⟨9, by rw [hworld, hexp, ← hid]; exact .inl ⟨rfl, by decide⟩, by decide⟩)
      exact ⟨served, hs, hb session (by rw [hworld]; exact List.mem_cons_self ..) rfl⟩

/-- Over every run from every log, the index has one retention hint for each session it holds, at
its deadline, and no other, and each bundle counts the sessions that cite it. -/
theorem index_consistent {reader : Reader} {file : Bytes} {now : U64}
    {actions : List (Action sha256)} {s : JsonlStore sha256}
    (h : (JsonlStore.opened sha256 reader file now).run actions = some s)
    (hd : Distinct s.world.sealed) :
    (∀ d id, (d, id) ∈ s.world.index.byRetention ↔
      ∃ e, s.world.index.byId.lookup id = some e ∧ e.retentionUntil = d) ∧
    ∀ digest, citersOf s.world.index.bundles digest =
      FinMap.count (fun e => e.digest = digest) s.world.index.byId := by
  have hi := (good_jsonl h hd).inv
  exact ⟨fun _ _ => hi.hint, hi.citers⟩

theorem index_consistent_first : ∃ s : JsonlStore Sha2.sha256, s.appended.length = 1 ∧
    ∀ digest, citersOf s.world.index.bundles digest =
      FinMap.count (fun e => e.digest = digest) s.world.index.byId := by
  obtain ⟨session, split, -, hn, -, -⟩ :=
    exists_split_bare Sha2.sha256 5 9 "text/plain" [1] (by decide)
  obtain ⟨s, out, hrun, -, -, -, happ, -, hworld⟩ := run_first Reader.strict (records_nil _) hn
    "channel" 7 5
  rw [store_eq] at hworld
  exact ⟨s, by rw [happ]; rfl, (index_consistent hrun
    (by rw [hworld]; exact distinct_singleton session)).2⟩

end AciGateway.Session
