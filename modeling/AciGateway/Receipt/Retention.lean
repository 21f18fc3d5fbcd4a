import AciGateway.Receipt.Store
import AciGateway.Session.Store

/-! The service between its two stores: a receipt is published only after the session it cites
is retained for as long as the receipt can be found. -/
namespace AciGateway.Receipt

open Octets Json Digest Session Relation ReceiptStore ReceiptBuilder World List

variable {sha256 : Bytes → Bytes} {eventType : String}

/-- The builders a request reaches before its receipt is stored with the lease. Every call of
the builder that does not name an upstream is an `append` under another event type. -/
inductive Drafted (lease : Option SessionLease) : ReceiptBuilder → Prop
  | new (receiptId : String) (chatId model : Option String)
      (workloadKeysetDigest endpoint method : String) (servedAt : U64) :
      Drafted lease (.new receiptId chatId model workloadKeysetDigest endpoint method servedAt)
  | append {b b' : ReceiptBuilder} {eventType : String} {fields : Map} (h : Drafted lease b)
      (ht : eventType ≠ eventUpstreamVerified) (ha : b.append eventType fields = .ok b') :
      Drafted lease b'
  | verified {b b' : ReceiptBuilder} {event : UpstreamVerifiedEvent} (h : Drafted lease b)
      (ha : b.appendUpstreamVerified event (lease.map (·.sessionId)) = .ok b') : Drafted lease b'
  | failed {b b' : ReceiptBuilder} {modelId reason : String} {required : Bool}
      {upstreamName : Option String} (h : Drafted lease b)
      (ha : b.addUpstreamVerifiedFailed modelId reason required upstreamName = .ok b') :
      Drafted lease b'
  | setChatId {b : ReceiptBuilder} (h : Drafted lease b) (chatId : Option String) :
      Drafted lease (b.setChatId chatId)
  | setModelId {b : ReceiptBuilder} (h : Drafted lease b) (modelId : Option String) :
      Drafted lease (b.setUpstreamVerifiedModelId modelId)

/-- The event, if it names an upstream, cites no session but the leased one. -/
def CitesLease (lease : Option SessionLease) (e : ReceiptEvent) : Prop :=
  e.eventType = eventUpstreamVerified → ∀ id, e.fields.get? "session_id" = some (.str id) →
    ∃ l ∈ lease, l.sessionId = id

section Drafts

variable {lease : Option SessionLease} {b b' : ReceiptBuilder} {r : SignedReceipt}
  {keys : KeyProvider} {keyId id modelId : String}

theorem citesLease_append {fields : Map}
    (h : ∀ e ∈ b.events, CitesLease lease e) (ha : b.append eventType fields = .ok b')
    (hnew : eventType = eventUpstreamVerified → ∀ id, fields.get? "session_id" = some (.str id) →
      ∃ l ∈ lease, l.sessionId = id) : ∀ e ∈ b'.events, CitesLease lease e := by
  obtain ⟨hf, rfl⟩ := append_ok ha
  intro e he
  rcases mem_append.mp he with he | he
  · exact h e he
  · rw [mem_singleton.mp he]
    exact hnew

theorem citesLease_setModelId {events : List ReceiptEvent} (h : ∀ e ∈ events, CitesLease lease e) :
    ∀ e ∈ setModelId modelId events, CitesLease lease e := by
  induction events with
  | nil => exact h
  | cons x events ih =>
    unfold setModelId
    have hx := h x (mem_cons_self ..)
    have hrest : ∀ e ∈ events, CitesLease lease e := fun e he => h e (mem_cons_of_mem _ he)
    split
    · intro e he
      rcases mem_cons.mp he with rfl | he
      · intro ht id hid
        rw [Map.get?_insert, if_neg (by decide)] at hid
        exact hx ht id hid
      · exact hrest e he
    · intro e he
      rcases mem_cons.mp he with rfl | he
      · exact hx
      · exact ih hrest e he

theorem citesLease_failed {reason : String} {required : Bool}
    {upstreamName : Option String} (h : ∀ e ∈ b.events, CitesLease lease e)
    (ha : b.addUpstreamVerifiedFailed modelId reason required upstreamName = .ok b') :
    ∀ e ∈ b'.events, CitesLease lease e := by
  refine citesLease_append h ha ?_
  intro _ id hid
  split at hid <;> simp at hid

theorem citesLease_drafted (h : Drafted lease b) : ∀ e ∈ b.events, CitesLease lease e := by
  induction h with
  | new => intro e he; cases he
  | append _ ht ha ih => exact citesLease_append ih ha (fun he => absurd he ht)
  | verified _ ha ih =>
    cases lease with
    | none => exact citesLease_failed ih ha
    | some l =>
      simp only [Option.map_some, appendUpstreamVerified, addUpstreamVerifiedWithSession] at ha
      split at ha
      · refine citesLease_append ih ha ?_
        intro _ id hid
        exact ⟨l, rfl, Value.str.inj (Option.some.inj hid)⟩
      · cases ha
  | failed _ ha ih => exact citesLease_failed ih ha
  | setChatId _ _ ih => exact ih
  | setModelId _ modelId ih =>
    cases modelId with
    | none => exact ih
    | some modelId => exact citesLease_setModelId ih

/-- A receipt cites no session but the one its lease is on. -/
theorem leased_of_cites (h : Drafted lease b) (hr : b.finalize keys keyId = .ok r)
    (hc : r.Cites id) : ∃ l ∈ lease, l.sessionId = id := by
  obtain ⟨e, he, ht, hs⟩ := (cites_finalize hr).mp hc
  exact citesLease_drafted h e he ht id hs

end Drafts

/-- A session store as the service uses it: the states it starts from, its steps, what it does
for `extend_retention`, and the registry behind each of its states. -/
structure Backend (sha256 : Bytes → Bytes) where
  State : Type
  world : State → World sha256
  Initial : State → Prop
  Step : State → State → Prop
  extendRetention : State → SessionLease → U64 → Except String Unit × State
  good_initial : ∀ {x}, Initial x → Distinct (world x).sealed → Good (world x)
  trace_initial : ∀ {x}, Initial x → (world x).trace = []
  registry_step : ∀ {x y}, Step x y → ReflTransGen RegistryStep (world x) (world y)
  extend_result : ∀ x lease deadline, (extendRetention x lease deadline).1 =
    ((world x).extendRetention lease deadline).1
  extend_world : ∀ x lease deadline, world (extendRetention x lease deadline).2 =
    ((world x).extendRetention lease deadline).2

/-- `InMemorySessionStore` -/
def Backend.inMemory (sha256 : Bytes → Bytes) : Backend sha256 where
  State := World sha256
  world w := w
  Initial w := w = World.empty
  Step := InMemoryStep
  extendRetention := World.extendRetention
  good_initial h _ := h ▸ good_empty
  trace_initial h := h ▸ rfl
  registry_step := registry_inMemory
  extend_result _ _ _ := rfl
  extend_world _ _ _ := rfl

/-- `JsonlSessionStore`, opened on any log. -/
def Backend.jsonl (sha256 : Bytes → Bytes) (reader : Reader) : Backend sha256 where
  State := JsonlStore sha256
  world s := s.world
  Initial s := ∃ file now, s = .opened sha256 reader file now
  Step s s' := ∃ a, s.step a = some s'
  extendRetention s lease deadline :=
    ((s.world.extendRetention lease deadline).1,
      { s with world := (s.world.extendRetention lease deadline).2 })
  good_initial := by
    rintro _ ⟨file, now, rfl⟩ hd
    exact good_opened hd
  trace_initial := by
    rintro _ ⟨file, now, rfl⟩
    rfl
  registry_step := by
    rintro _ _ ⟨a, h⟩
    exact Session.registry_step h
  extend_result _ _ _ := rfl
  extend_world _ _ _ := rfl

/-- A call of `store_receipt` that has retained the cited session and not yet published. -/
structure Publishing where
  receipt : SignedReceipt
  requester : Option ReceiptOwner
  now : U64
  expiresAt : U64
  deriving DecidableEq

structure Service (B : Backend sha256) where
  sessions : B.State
  receipts : ReceiptStore
  clock : U64
  publishing : List Publishing

namespace Service

variable {B : Backend sha256}

def started (sessions : B.State) (clock : U64) : Service B := ⟨sessions, .empty, clock, []⟩

/-- `store_receipt` up to the publication. -/
def retain (s : Service B) (receipt : SignedReceipt) (requester : Option ReceiptOwner)
    (now ttlSeconds : U64) (lease : Option SessionLease) :
    Except String Publishing × Service B :=
  let expiresAt := U64.satAdd now ttlSeconds
  let call : Publishing := ⟨receipt, requester, now, expiresAt⟩
  match lease with
  | none => (.ok call, { s with publishing := call :: s.publishing })
  | some lease =>
    match B.extendRetention s.sessions lease expiresAt with
    | (.error e, x) =>
      (.error ("failed to retain cited session: " ++ e), { s with sessions := x })
    | (.ok (), x) =>
      (.ok call, { s with sessions := x, publishing := call :: s.publishing })

/-- The rest of `store_receipt`. -/
def publish (s : Service B) (call : Publishing) : Service B :=
  { s with
    receipts := s.receipts.put call.receipt call.requester call.now call.expiresAt
    publishing := s.publishing.erase call }

def storeReceipt (s : Service B) (receipt : SignedReceipt) (requester : Option ReceiptOwner)
    (now ttlSeconds : U64) (lease : Option SessionLease) : Except String Unit × Service B :=
  match s.retain receipt requester now ttlSeconds lease with
  | (.error e, s) => (.error e, s)
  | (.ok call, s) => (.ok (), s.publish call)

end Service

/-- A step of the service. The clock never goes back; a call may act on a reading that other
calls have overtaken by the time it takes its lock. -/
inductive ServiceStep {B : Backend sha256} : Service B → Service B → Prop
  | tick (s) (now : U64) (h : s.clock ≤ now) : ServiceStep s { s with clock := now }
  | sessions (s) {x : B.State} (h : B.Step s.sessions x)
      (hclock : ∀ now, .ran now ∈ (B.world x).trace → now ≤ s.clock) :
      ServiceStep s { s with sessions := x }
  | retain (s) {b : ReceiptBuilder} {keys : KeyProvider} {keyId : String}
      {receipt : SignedReceipt} (requester : Option ReceiptOwner) (now ttlSeconds : U64)
      (lease : Option SessionLease) (hlease : ∀ l ∈ lease, l ∈ (B.world s.sessions).leases)
      (hnow : now ≤ s.clock) (hb : Drafted lease b) (hr : b.finalize keys keyId = .ok receipt) :
      ServiceStep s (s.retain receipt requester now ttlSeconds lease).2
  | publish (s) (call : Publishing) (h : call ∈ s.publishing) : ServiceStep s (s.publish call)
  | getByReceiptId (s) (id : String) (now : U64) (hnow : now ≤ s.clock) :
      ServiceStep s { s with receipts := (s.receipts.getByReceiptId id now).2 }
  | getByChatId (s) (id : String) (now : U64) (hnow : now ≤ s.clock) :
      ServiceStep s { s with receipts := (s.receipts.getByChatId id now).2 }
  | ownerOf (s) (id : String) (now : U64) (hnow : now ≤ s.clock) :
      ServiceStep s { s with receipts := (s.receipts.ownerOf id now).2 }

section Runs

variable {B : Backend sha256} {s s' s₀ : Service B} {w w' : World sha256} {sid id : String}
  {r : SignedReceipt} {d t : U64} {x : B.State}

theorem standing_append {evs trace : List Event} (h : Standing trace sid d)
    (hevs : ∀ now, .ran now ∈ evs → now < d) : Standing (evs ++ trace) sid d := by
  induction evs with
  | nil => exact h
  | cons ev evs ih =>
    have hrest := ih (fun now hm => hevs now (mem_cons_of_mem _ hm))
    cases ev with
    | passed id' d' => exact .inr hrest
    | ran now => exact ⟨hevs now (mem_cons_self ..), hrest⟩

theorem trace_step (h : RegistryStep w w') : ∃ evs, w'.trace = evs ++ w.trace := by
  cases h with
  | current fingerprint retentionUntil now =>
    unfold current
    split
    · exact ⟨[.passed _ _, .ran now], rfl⟩
    · exact ⟨[.ran now], rfl⟩
  | store logged fingerprint session split retentionUntil now h =>
    rw [store_eq]
    exact ⟨[.passed _ _, .ran now], rfl⟩
  | get id now => exact ⟨[.ran now], rfl⟩
  | evict now => exact ⟨[.ran now], rfl⟩
  | extendRetention lease deadline =>
    unfold extendRetention
    split
    · exact ⟨[.passed _ _], rfl⟩
    · exact ⟨[], rfl⟩
  | markAllPersisted | clone | drop => exact ⟨[], rfl⟩

theorem trace_run (h : ReflTransGen RegistryStep w w') : ∃ evs, w'.trace = evs ++ w.trace := by
  induction h with
  | refl => exact ⟨[], rfl⟩
  | tail _ hs ih =>
    obtain ⟨evs, he⟩ := ih
    obtain ⟨evs', he'⟩ := trace_step hs
    exact ⟨evs' ++ evs, by rw [he', he, append_assoc]⟩

/-- Until the deadline of the receipt, the sessions it cites are promised to be kept as long. -/
def Covered (s : Service B) (r : SignedReceipt) (expiresAt : U64) : Prop :=
  s.clock < expiresAt → ∀ sid, r.Cites sid → Standing (B.world s.sessions).trace sid expiresAt

/-- What every run of the service keeps. -/
structure Promised (s : Service B) : Prop where
  good : Good (B.world s.sessions)
  stored : ∀ id entry, s.receipts.byReceipt.lookup id = some entry →
    Covered s entry.receipt entry.expiresAt
  publishing : ∀ call ∈ s.publishing, Covered s call.receipt call.expiresAt

/-- A step of the sessions leaves every promise standing that the clock has not reached. -/
theorem Covered.sessions (h : Covered s r d)
    (hrun : ReflTransGen RegistryStep (B.world s.sessions) (B.world x))
    (hclock : s.clock < d → ∀ evs, (B.world x).trace = evs ++ (B.world s.sessions).trace →
      ∀ now, .ran now ∈ evs → now < d) (publishing : List Publishing) :
    Covered { s with sessions := x, publishing := publishing } r d := by
  intro hd sid hc
  obtain ⟨evs, he⟩ := trace_run hrun
  have hstand := standing_append (h hd sid hc) (hclock hd evs he)
  rwa [← he] at hstand

theorem Promised.receipts (h : Promised s) {receipts : ReceiptStore}
    (hr : ∀ id entry, receipts.byReceipt.lookup id = some entry →
      s.receipts.byReceipt.lookup id = some entry) : Promised { s with receipts := receipts } where
  good := h.good
  stored id entry hl := h.stored id entry (hr id entry hl)
  publishing := h.publishing

/-- An extension promises its deadline, if it succeeds, and evicts nothing. -/
theorem trace_extendRetention (w : World sha256) (lease : SessionLease) (deadline : U64) :
    ((w.extendRetention lease deadline).1 = .ok () ∧
      (w.extendRetention lease deadline).2.trace =
        [.passed lease.sessionId deadline] ++ w.trace) ∨
    ((∃ e, (w.extendRetention lease deadline).1 = .error e) ∧
      (w.extendRetention lease deadline).2.trace = [] ++ w.trace) := by
  unfold extendRetention
  cases w.index.extend lease deadline with
  | ok ix => exact .inl ⟨rfl, rfl⟩
  | error e => exact .inr ⟨⟨e, rfl⟩, rfl⟩

/-- Every promise outlives an extension. -/
theorem Covered.extend (h : Covered s r d) (lease : SessionLease) (deadline : U64)
    (publishing : List Publishing) :
    Covered { s with sessions := (B.extendRetention s.sessions lease deadline).2
                     publishing := publishing } r d := by
  have hw := B.extend_world s.sessions lease deadline
  refine h.sessions ?_ ?_ publishing
  · rw [hw]
    exact .single (.extendRetention _ lease deadline)
  · intro _ evs hevs now hm
    rw [hw] at hevs
    rcases trace_extendRetention (B.world s.sessions) lease deadline with ⟨-, ht⟩ | ⟨-, ht⟩
    · rw [append_cancel_right (hevs.symm.trans ht)] at hm
      cases mem_singleton.mp hm
    · rw [append_cancel_right (hevs.symm.trans ht)] at hm
      cases hm

/-- The ways `store_receipt` can come to its publication, or not. -/
theorem retain_cases (s : Service B) (r : SignedReceipt) (requester : Option ReceiptOwner)
    (now ttlSeconds : U64) (lease : Option SessionLease) :
    let d := U64.satAdd now ttlSeconds
    let s' := (s.retain r requester now ttlSeconds lease).2
    let calls := ⟨r, requester, now, d⟩ :: s.publishing
    (lease = none ∧ s' = { s with publishing := calls }) ∨
    ∃ l, lease = some l ∧
      (((∃ e, (B.extendRetention s.sessions l d).1 = .error e) ∧
        s' = { s with sessions := (B.extendRetention s.sessions l d).2 }) ∨
      ((B.extendRetention s.sessions l d).1 = .ok () ∧
        s' = { s with sessions := (B.extendRetention s.sessions l d).2, publishing := calls })) := by
  intro d s' calls
  cases lease with
  | none => exact .inl ⟨rfl, rfl⟩
  | some l =>
    refine .inr ⟨l, rfl, ?_⟩
    simp only [s', Service.retain, d]
    generalize B.extendRetention s.sessions l (U64.satAdd now ttlSeconds) = out
    obtain ⟨res, x⟩ := out
    cases res with
    | error e => exact .inl ⟨⟨e, rfl⟩, rfl⟩
    | ok u => exact .inr ⟨rfl, rfl⟩

theorem Promised.retain {b : ReceiptBuilder} {keys : KeyProvider} {keyId : String}
    {lease : Option SessionLease} (h : Promised s) (requester : Option ReceiptOwner)
    (now ttlSeconds : U64) (hb : Drafted lease b) (hr : b.finalize keys keyId = .ok r) :
    Promised (s.retain r requester now ttlSeconds lease).2 := by
  have hgood : ∀ l d, Good (B.world (B.extendRetention s.sessions l d).2) := by
    intro l d
    rw [B.extend_world]
    exact h.good.extendRetention l d
  rcases retain_cases s r requester now ttlSeconds lease with
    ⟨rfl, hs⟩ | ⟨l, rfl, ⟨-, hs⟩ | ⟨hok, hs⟩⟩
  · refine ⟨h.good, h.stored, ?_⟩
    intro call hm
    rcases mem_cons.mp hm with rfl | hm
    · intro _ sid hc
      obtain ⟨l, hl, -⟩ := leased_of_cites hb hr hc
      cases hl
    · exact h.publishing call hm
  · rw [hs]
    exact ⟨hgood l _, fun id entry hl => (h.stored id entry hl).extend l _ _,
      fun call hm => (h.publishing call hm).extend l _ _⟩
  · rw [hs]
    refine ⟨hgood l _, fun id entry hl => (h.stored id entry hl).extend l _ _, ?_⟩
    intro call hm
    rcases mem_cons.mp hm with rfl | hm
    · -- The receipt of this call cites the leased session, which has just been promised.
      intro _ sid hc
      obtain ⟨l', hl, rfl⟩ := leased_of_cites hb hr hc
      obtain rfl := Option.some.inj hl
      rw [B.extend_result] at hok
      rw [B.extend_world]
      rcases trace_extendRetention (B.world s.sessions) l (U64.satAdd now ttlSeconds) with
        ⟨-, ht⟩ | ⟨⟨e, he⟩, -⟩
      · rw [ht]
        exact .inl ⟨rfl, rfl⟩
      · cases he.symm.trans hok
    · exact (h.publishing call hm).extend l _ _

theorem promised_step (h : ServiceStep s s') (hd : Distinct (B.world s'.sessions).sealed)
    (hp : Promised s) : Promised s' := by
  cases h with
  | tick now hle =>
    have hc : ∀ {r d}, Covered s r d → Covered { s with clock := now } r d :=
      fun hc hlt => hc (hle.trans_lt hlt)
    exact ⟨hp.good, fun id entry hl => hc (hp.stored id entry hl),
      fun call hm => hc (hp.publishing call hm)⟩
  | @sessions x hx hclock =>
    have hrun := B.registry_step hx
    have hc : ∀ {r d}, Covered s r d → Covered { s with sessions := x } r d := by
      intro r d hc
      refine hc.sessions hrun ?_ s.publishing
      intro hlt evs hevs now hm
      exact (hclock now (by rw [hevs]; exact mem_append_left _ hm)).trans_lt hlt
    exact ⟨good_run hrun (fun _ => hp.good) hd, fun id entry hl => hc (hp.stored id entry hl),
      fun call hm => hc (hp.publishing call hm)⟩
  | retain requester now ttlSeconds lease _ _ hb hr => exact hp.retain requester now ttlSeconds hb hr
  | publish call hm =>
    refine ⟨hp.good, ?_, fun c hc => hp.publishing c (mem_of_mem_erase hc)⟩
    intro id entry hl
    rcases lookup_of_put hl with rfl | hl
    · exact hp.publishing call hm
    · exact hp.stored id entry hl
  | getByReceiptId id now _ => exact hp.receipts (fun _ _ hl => lookup_of_live hl)
  | getByChatId id now _ => exact hp.receipts (fun _ _ hl => lookup_of_getByChatId hl)
  | ownerOf id now _ => exact hp.receipts (fun _ _ hl => lookup_of_live hl)

theorem sealed_serviceStep (h : ServiceStep s s') :
    (B.world s.sessions).sealed ⊆ (B.world s'.sessions).sealed := by
  cases h with
  | sessions hx _ => exact sealed_run (B.registry_step hx)
  | retain requester now ttlSeconds lease _ _ hb hr =>
    have hsub : ∀ l d, (B.world s.sessions).sealed ⊆
        (B.world (B.extendRetention s.sessions l d).2).sealed := by
      intro l d
      rw [B.extend_world]
      exact sealed_step (.extendRetention _ l d)
    rcases retain_cases s _ requester now ttlSeconds lease with
      ⟨rfl, hs⟩ | ⟨l, rfl, ⟨-, hs⟩ | ⟨-, hs⟩⟩
    · exact Subset.refl _
    · rw [hs]
      exact hsub l _
    · rw [hs]
      exact hsub l _
  | tick | publish | getByReceiptId | getByChatId | ownerOf => exact Subset.refl _

theorem promised_run {clock : U64} (hx : B.Initial x)
    (h : ReflTransGen ServiceStep (Service.started x clock) s)
    (hd : Distinct (B.world s.sessions).sealed) : Promised s := by
  refine Runs.invariant_under (fun hs hd => hd.mono (sealed_serviceStep hs)) promised_step h ?_ hd
  intro hd
  refine ⟨B.good_initial hx hd, ?_, ?_⟩
  · intro id entry hl
    cases hl
  · intro call hm
    cases hm

/-- A receipt that can be found at the time `t` cites no session that cannot be. -/
theorem cited_session_served {x : B.State} {clock : U64} (hx : B.Initial x)
    (hrun : ReflTransGen ServiceStep (Service.started x clock) s)
    (hd : Distinct (B.world s.sessions).sealed) (ht : s.clock ≤ t)
    (hl : (s.receipts.getByReceiptId id t).1 = some r ∨ (s.receipts.getByChatId id t).1 = some r)
    (hc : r.Cites sid) :
    ∃ session, ((B.world s.sessions).get sid t).1 = some session ∧
      sha256BareHex sha256 session.bytes = sid := by
  have hp := promised_run hx hrun hd
  obtain ⟨id', entry, hentry, rfl, hlt⟩ : ∃ id' entry,
      s.receipts.byReceipt.lookup id' = some entry ∧ entry.receipt = r ∧ t < entry.expiresAt := by
    rcases hl with hl | hl
    · exact found_of_getByReceiptId hl
    · exact found_of_getByChatId hl
  have hstand := hp.stored id' entry hentry (ht.trans_lt hlt) sid hc
  obtain ⟨served, hget, ⟨session, hm, rfl⟩, hbytes⟩ :=
    get_of_kept hp.good hd (.inr ⟨_, hstand, hlt⟩)
  refine ⟨served, hget, ?_⟩
  rw [hbytes session hm rfl]
  exact session.sessionId_eq.symm

end Runs

/-! One receipt, from the session it cites to its lookup. -/

section Once

variable {lease : SessionLease}

/-- A provider with one receipt key. -/
def oneKey : KeyProvider := ⟨[⟨"k", algoEd25519, ""⟩], fun _ _ => .ok []⟩

/-- The events of a forwarded request whose upstream was verified. -/
def forwardedEvents (sessionId : String) : List ReceiptEvent :=
  [⟨eventRequestReceived, Map.empty.insert "body_hash" (.str ""), rfl⟩,
    ⟨eventRequestForwarded, Map.empty.insert "body_hash" (.str ""), rfl⟩,
    ⟨eventUpstreamVerified, (((Map.empty.insert "result" (.str "verified")).insert "required"
      (.bool true)).insert "model_id" (.str "m")).insert "session_id" (.str sessionId), rfl⟩,
    ⟨eventResponseReturned, Map.empty.insert "body_hash" (.str ""), rfl⟩]

/-- A builder that holds the first `n` of them. -/
def forwardedBuilder (sessionId : String) (n : Nat) : ReceiptBuilder :=
  { ReceiptBuilder.new "r" none none "d" "/v1/chat/completions" "POST" 5 with
    events := (forwardedEvents sessionId).take n }

theorem drafted_hash {lease : Option SessionLease} {b : ReceiptBuilder}
    (h : Drafted lease b) (ht : eventType ≠ eventUpstreamVerified)
    (hb : b.events ≠ [] ∨ eventType = eventRequestReceived) (hash : String) :
    Drafted lease { b with events := b.events ++
      [⟨eventType, Map.empty.insert "body_hash" (.str hash), rfl⟩] } :=
  h.append ht (append_eq hb rfl)

theorem drafted_forwarded (hid : isSessionId lease.sessionId) :
    Drafted (some lease) (forwardedBuilder lease.sessionId 4) := by
  let event : UpstreamVerifiedEvent :=
    ⟨none, "u", none, "m", none, "v", .verified, true, none, none, [], none, none⟩
  have h₀ : Drafted (some lease) (forwardedBuilder lease.sessionId 0) := .new ..
  have h₁ : Drafted (some lease) (forwardedBuilder lease.sessionId 1) :=
    drafted_hash h₀ (by decide) (.inr rfl) ""
  have h₂ : Drafted (some lease) (forwardedBuilder lease.sessionId 2) :=
    drafted_hash h₁ (by decide) (.inl (cons_ne_nil _ _)) ""
  have hverified : (forwardedBuilder lease.sessionId 2).appendUpstreamVerified event
      (some lease.sessionId) = .ok (forwardedBuilder lease.sessionId 3) := by
    rw [appendUpstreamVerified, addUpstreamVerifiedWithSession, if_pos hid]
    exact append_eq (.inl (cons_ne_nil _ _)) rfl
  exact drafted_hash (h₂.verified hverified) (by decide) (.inl (cons_ne_nil _ _)) ""

theorem exists_receipt (id : String) :
    ∃ r, (forwardedBuilder id 4).finalize oneKey "k" = .ok r ∧ r.receiptId = "r" ∧
      r.Cites id := by
  obtain ⟨r, hr⟩ : ∃ r, (forwardedBuilder id 4).finalize oneKey "k" = .ok r := by
    refine exists_finalize (cons_ne_nil _ _) rfl rfl rfl (fun _ => ⟨[], rfl⟩) ?_
    intro e he
    simp only [forwardedBuilder, forwardedEvents, take_succ_cons, take_zero,
      mem_cons, not_mem_nil, or_false] at he
    rcases he with rfl | rfl | rfl | rfl <;> rfl
  refine ⟨r, hr, (finalize_ok hr).1, (cites_finalize hr).mpr ?_⟩
  exact ⟨_, mem_cons_of_mem _ (mem_cons_of_mem _ (mem_cons_self ..)), rfl, rfl⟩

variable {session : AttestedSession sha256} {split : SplitSession}

/-- The store after one call of `current_or_seal` at 5: what it sealed, when, and for whom. -/
theorem world_once (hn : SplitSession.new sha256 session = some split) :
    ∃ w : World sha256, InMemoryStep empty w ∧ w.sealed = [session] ∧
      (∀ now, .ran now ∈ w.trace → now = 5) ∧
      ∃ lease ∈ w.leases, lease.sessionId = session.sessionId := by
  refine ⟨_, .currentOrSeal empty "channel" 7 5 (.ok session), ?_⟩
  rw [currentOrSeal_empty hn, store_eq]
  refine ⟨rfl, ?_, _, mem_cons_self .., (split_spec hn).1⟩
  simp [promise, evict, lend, file]

/-- The extension, and the publication, of a receipt for ten seconds at 5. -/
theorem publish_once {w : World sha256} {lease : SessionLease} {b : ReceiptBuilder}
    {keys : KeyProvider} {keyId : String} {r : SignedReceipt} (hgood : Good w)
    (hstep : InMemoryStep World.empty w) (htrace : ∀ now, .ran now ∈ w.trace → now = 5)
    (hlease : lease ∈ w.leases) (hb : Drafted (some lease) b) (hr : b.finalize keys keyId = .ok r) :
    ∃ s : Service (Backend.inMemory sha256),
      ReflTransGen ServiceStep (Service.started World.empty 5) s ∧ s.clock = 5 ∧
      World.sealed s.sessions = w.sealed ∧
      (s.receipts.getByReceiptId r.receiptId 6).1 = some r := by
  let B := Backend.inMemory sha256
  let d := U64.satAdd 5 10
  let call : Publishing := ⟨r, none, 5, d⟩
  -- The lease still holds its entry, so that the extension succeeds.
  obtain ⟨e, hl, htok⟩ := hgood.leased lease hlease
  obtain ⟨ix, hext⟩ := exists_extend hl htok d
  have hres : w.extendRetention lease d =
      (.ok (), { w with index := ix }.promise lease.sessionId d) := by
    rw [World.extendRetention, hext]
  let s₁ : Service B := { Service.started (B := B) World.empty 5 with sessions := w }
  let s₂ : Service B := { s₁ with
    sessions := { w with index := ix }.promise lease.sessionId d
    publishing := [call] }
  have h₁ : ServiceStep (Service.started World.empty 5) s₁ :=
    .sessions _ hstep (fun now hm => (htrace now hm).le)
  have h₂ : ServiceStep s₁ (s₁.retain r none 5 10 (some lease)).2 := by
    refine .retain s₁ none 5 10 (some lease) ?_ le_rfl hb hr
    rintro l ⟨⟩
    exact hlease
  have hs₂ : (s₁.retain r none 5 10 (some lease)).2 = s₂ := by
    rcases retain_cases s₁ r none 5 10 (some lease) with ⟨hl, -⟩ | ⟨l, hl, ⟨⟨e, he⟩, -⟩ | ⟨-, hs⟩⟩
    · cases hl
    · cases hl
      cases he.symm.trans (congrArg Prod.fst hres)
    · cases hl
      rw [hs]
      exact congrArg (fun x => ({ s₁ with sessions := x, publishing := [call] } : Service B))
        (congrArg Prod.snd hres)
  rw [hs₂] at h₂
  have h₃ : ServiceStep s₂ (s₂.publish call) := .publish s₂ call (mem_cons_self ..)
  refine ⟨s₂.publish call, .tail (.tail (.single h₁) h₂) h₃, rfl, rfl, ?_⟩
  have hput : (ReceiptStore.empty.put r none 5 d).byReceipt.lookup r.receiptId =
      some ⟨r, none, d⟩ := by
    rw [ReceiptStore.put, ReceiptStore.lookup_insert, if_pos rfl]
  change Option.map (·.receipt) ((ReceiptStore.empty.put r none 5 d).live r.receiptId 6).1 = some r
  rw [ReceiptStore.live, hput]
  rfl

end Once

/-- A receipt published at 5 for ten seconds, and the session it cites, at 6. -/
theorem cited_session_served_once : ∃ (session : AttestedSession Sha2.sha256)
    (s : Service (Backend.inMemory Sha2.sha256)) (r : SignedReceipt),
    ReflTransGen ServiceStep (Service.started World.empty 5) s ∧
    (s.receipts.getByReceiptId "r" 6).1 = some r ∧ r.Cites session.sessionId ∧
    ∃ served, (World.get s.sessions session.sessionId 6).1 = some served ∧
      sha256BareHex Sha2.sha256 served.bytes = session.sessionId := by
  obtain ⟨session, split, -, hn, -, -⟩ :=
    exists_split_bare Sha2.sha256 5 9 "text/plain" [1] (by decide)
  obtain ⟨w, hstep, hsealed, htrace, lease, hlease, hid⟩ := world_once hn
  have hsid : isSessionId lease.sessionId := by
    rw [hid, session.sessionId_eq]
    exact isSessionId_hexEncode (Sha2.length_sha256 _)
  obtain ⟨r, hr, hrid, hcites⟩ := exists_receipt lease.sessionId
  have hd : Distinct w.sealed := by
    rw [hsealed]
    exact distinct_singleton session
  obtain ⟨s, hrun, hclock, hs, hfound⟩ := publish_once (good_inMemory (.single hstep) hd) hstep
    htrace hlease (drafted_forwarded hsid) hr
  rw [hrid] at hfound
  rw [hid] at hcites
  rw [← hs] at hd
  exact ⟨session, s, r, hrun, hfound, hcites,
    cited_session_served rfl hrun hd (by rw [hclock]; decide) (.inl hfound) hcites⟩

end AciGateway.Receipt
