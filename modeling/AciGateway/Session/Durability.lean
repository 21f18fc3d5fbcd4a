import AciGateway.Session.Store

/-! What the log remembers. A session whose append returned is served after a reopen, provided
the log did not end in the middle of a line when the store was opened on it. -/
namespace AciGateway.Session

open Octets Json Digest Lines JsonlStore List

variable {sha256 : Bytes → Bytes} {reader : Reader} {s s' : JsonlStore sha256} {a : Action sha256}
  {file out bundle : Bytes} {rs rs' : List SessionLogRecord}
  {digest fingerprint contentType id : String} {session : AttestedSession sha256}
  {split : SplitSession} {d now retentionUntil next : U64} {persisted : Bool}
  {P : AttestedSession sha256 → Prop} {actions : List (Action sha256)} {st : Replay sha256}
  {w : LogWriter}

/-- A text that starts at the start of a line is read on its own. -/
theorem records_append (reader : Reader) {x : Bytes} (h : Clean x) (y : Bytes) :
    records reader (x ++ y) = records reader x ++ records reader y := by
  obtain ⟨init, last, hx, hj⟩ := lines_join x
  obtain ⟨l, ls, hy⟩ := exists_cons_of_ne_nil (lines_ne_nil y)
  have hblank := h last (by simp [hx])
  have hlast : readLine reader last = none := by simp [readLine, trimAscii_of_forall hblank]
  have hline : readLine reader (last ++ l) = readLine reader l := by
    simp only [readLine, trimAscii_append hblank]
  simp only [records, hj y l ls hy, hx, hy, filterMap_append, filterMap_cons, hlast,
    hline, filterMap_nil, append_nil]

/-- The records hold a bundle with the digest. -/
def Logged (sha256 : Bytes → Bytes) (digest : String) (rs : List SessionLogRecord) : Prop :=
  ∃ r ∈ rs, ∃ b, evidenceOf r = some b ∧ sha256Hex sha256 b = digest

theorem evidenceOf_evidence {seq seq' ts : U64}
    (h : U64.succ? seq = some seq') : evidenceOf (evidenceRecord seq ts bundle) = some bundle := by
  simp [evidenceOf, evidenceRecord, h]

theorem evidenceOf_session {seq ts : U64} {stripped : SessionDocument} :
    evidenceOf (sessionRecord seq ts fingerprint retentionUntil contentType stripped) = none := by
  have htype : recordTypeSession ≠ recordTypeEvidence := by decide
  simp [evidenceOf, sessionRecord, htype]

/-- The records hold the session with the deadline `d`, after its bundle. -/
def Recorded (session : AttestedSession sha256) (d : U64) (rs : List SessionLogRecord) : Prop :=
  ∃ split pre post seq seq' ts fingerprint, SplitSession.new sha256 session = some split ∧
    U64.succ? seq = some seq' ∧
    rs = pre ++ sessionRecord seq ts fingerprint d split.contentType split.stripped :: post ∧
    Logged sha256 split.digest pre

theorem Logged.append (h : Logged sha256 digest rs) (rs' : List SessionLogRecord) :
    Logged sha256 digest (rs ++ rs') := by
  obtain ⟨r, hr, hb⟩ := h
  exact ⟨r, mem_append_left _ hr, hb⟩

theorem Recorded.append (h : Recorded session d rs) (rs' : List SessionLogRecord) :
    Recorded session d (rs ++ rs') := by
  obtain ⟨split, pre, post, seq, seq', ts, fingerprint, hn, hs, rfl, hl⟩ := h
  exact ⟨split, pre, post ++ rs', seq, seq', ts, fingerprint, hn, hs, by simp, hl⟩

/-! What the index knows about the log. -/

/-- Every bundle marked as persisted was so marked before, or satisfies `p`. -/
def MarkedFrom (w w' : World sha256) (p : String → Prop) : Prop :=
  ∀ digest b, w'.index.bundles.lookup digest = some b → b.persisted = true →
    p digest ∨ ∃ b₀, w.index.bundles.lookup digest = some b₀ ∧ b₀.persisted = true

theorem markedFrom_evict (w : World sha256) (now : U64) (p : String → Prop) :
    MarkedFrom w (w.evict now) p := by
  intro digest b hb hp
  obtain ⟨b₀, h₀, -, hp₀⟩ := carried_evictLapsed hb
  exact .inr ⟨b₀, h₀, hp₀.trans hp⟩

theorem bundles_extend {ix ix' : SessionIndex} {lease : SessionLease} {deadline : U64}
    (h : ix.extend lease deadline = .ok ix') : ix'.bundles = ix.bundles := by
  unfold SessionIndex.extend at h
  split at h
  · cases h
  · split at h
    · cases h
    · split at h <;> (cases h; rfl)

theorem markedFrom_current (w : World sha256) (fingerprint : String) (retentionUntil now : U64)
    (p : String → Prop) : MarkedFrom w (w.current fingerprint retentionUntil now).2 p := by
  have hev := markedFrom_evict w now p
  unfold World.current
  rcases current_cases w.held w.index fingerprint retentionUntil now with
    hc | ⟨id, entry, ix, -, -, -, hx, hc⟩
  · rw [hc]
    exact hev
  · rw [hc]
    intro digest b hb hp
    refine hev digest b ?_ hp
    exact (congrArg (AList.lookup digest) (bundles_extend hx)).symm.trans hb

theorem markedFrom_extendRetention (w : World sha256) (lease : SessionLease) (deadline : U64)
    (p : String → Prop) : MarkedFrom w (w.extendRetention lease deadline).2 p := by
  intro digest b hb hp
  refine .inr ⟨b, ?_, hp⟩
  unfold World.extendRetention at hb
  cases h : w.index.extend lease deadline with
  | error e =>
    rw [h] at hb
    exact hb
  | ok ix =>
    rw [h] at hb
    exact (congrArg (AList.lookup digest) (bundles_extend h)).symm.trans hb

/-- Storing a session marks its own bundle only. -/
theorem markedFrom_store (w : World sha256) (fingerprint : String)
    (session : AttestedSession sha256) (split : SplitSession) (retentionUntil now : U64) :
    MarkedFrom w (w.store true fingerprint session split retentionUntil now).2
      (· = split.digest) := by
  rw [store_eq]
  intro digest b hb hp
  obtain ⟨b₁, h₁, -, hp₁⟩ := carried_evictLapsed hb
  simp only [World.lend, World.file, if_true, SessionIndex.markPersisted,
    FinMap.lookup_modify] at h₁
  split at h₁
  · next hd => exact .inl hd
  · rcases lookup_insert_bundle h₁ with ⟨b₀, h₀, -, hp₀⟩ | ⟨hd, -⟩
    · exact .inr ⟨b₀, h₀, hp₀.trans (hp₁.trans hp)⟩
    · exact .inl hd

/-- A bundle that an append leaves out is in the log. -/
def Job.Backed (rs : List SessionLogRecord) : Job sha256 → Prop
  | .appending _ _ split _ _ _ persisted => persisted = true → Logged sha256 split.digest rs
  | _ => True

/-- What holds while a store only appends to its log. -/
structure Sound (reader : Reader) (s : JsonlStore sha256) : Prop where
  tail : s.writer.needsSeparator = true ∨ Clean s.file
  marked : ∀ digest b, s.world.index.bundles.lookup digest = some b → b.persisted = true →
    Logged sha256 digest (records reader s.file)
  pending : s.job.Backed (records reader s.file)
  appended : ∀ p ∈ s.appended, Recorded p.1 p.2 (records reader s.file)

/-- A step on the index alone. -/
theorem Sound.index (h : Sound reader s) {w : World sha256}
    (hw : MarkedFrom s.world w (fun _ => False)) : Sound reader { s with world := w } where
  tail := h.tail
  marked digest b hb hp := by
    rcases hw digest b hb hp with hf | ⟨b₀, h₀, hp₀⟩
    · exact hf.elim
    · exact h.marked digest b₀ h₀ hp₀
  pending := h.pending
  appended := h.appended

/-- A step on who holds the writer lock. -/
theorem Sound.lock (h : Sound reader s) {job : Job sha256}
    (hj : job.Backed (records reader s.file)) : Sound reader { s with job := job } where
  tail := h.tail
  marked := h.marked
  pending := hj
  appended := h.appended

/-- Text put at the end of the log adds its own records to those there. -/
theorem records_write (reader : Reader) (ht : w.needsSeparator = true ∨ Clean file)
    (hout : appendText w persisted fingerprint split retentionUntil now = .ok (out, next))
    (n : Nat) :
    records reader (file ++ out.take n) = records reader file ++ records reader (out.take n) := by
  rcases ht with hsep | hclean
  · obtain ⟨seq, evidence, -, rfl, -⟩ := appendText_ok hout
    rw [hsep, if_pos rfl, append_assoc, singleton_append]
    cases n with
    | zero => simp
    | succ n =>
      rw [take_succ_cons, records_newline]
      rfl
  · exact records_append reader hclean _

theorem clean_appendText
    (hout : appendText w persisted fingerprint split retentionUntil now = .ok (out, next))
    (file : Bytes) : Clean (file ++ out) := by
  obtain ⟨seq, evidence, -, rfl, -⟩ := appendText_ok hout
  rw [sessionLine, recordLine, ← append_assoc, ← append_assoc]
  exact clean_append_newline _

open SplitSession (new)

/-- The records of an append that returned hold its session. -/
theorem recorded_appendText (reader : Reader) (hn : new sha256 session = some split)
    (hout : appendText w persisted fingerprint split retentionUntil now = .ok (out, next))
    (hl : persisted = true → Logged sha256 split.digest rs) :
    Logged sha256 split.digest (rs ++ records reader out) ∧
      Recorded session (max retentionUntil split.stripped.expiresAt)
        (rs ++ records reader out) := by
  obtain ⟨seq, hnext, hseq, hrec⟩ := records_appendText reader hout
  rw [hrec]
  cases persisted with
  | true =>
    have hlog := hl rfl
    exact ⟨hlog.append _, split, rs, [], seq, next, now, fingerprint, hn, hnext, rfl, hlog⟩
  | false =>
    have hlog : Logged sha256 split.digest (rs ++ [evidenceRecord w.nextSeq now split.bundle]) := by
      have hs := hseq
      refine ⟨_, mem_append_right _ (mem_singleton_self _), split.bundle, ?_, ?_⟩
      · exact evidenceOf_evidence hs
      · exact (split_spec hn).2.2.2.symm
    rw [if_neg Bool.false_ne_true, ← append_assoc]
    exact ⟨hlog.append _, split, _, [], seq, next, now, fingerprint, hn, hnext, rfl, hlog⟩

theorem Sound.write (h : Sound reader s) (hn : new sha256 session = some split)
    (hl : persisted = true → Logged sha256 split.digest (records reader s.file))
    (failed : Option Nat) :
    Sound reader (s.write fingerprint session split retentionUntil now persisted failed) := by
  rcases write_cases s fingerprint session split retentionUntil now persisted failed with
    ⟨-, hw⟩ | ⟨out, next, n, hout, -, hw⟩ | ⟨out, next, hout, -, hw⟩
  · rw [hw]
    exact h.lock trivial
  · have hrec := records_write reader h.tail hout n
    rw [hw]
    refine ⟨.inl rfl, ?_, trivial, ?_⟩
    · intro digest b hb hp
      rw [hrec]
      exact (h.marked digest b hb hp).append _
    · intro p hp
      rw [hrec]
      exact (h.appended p hp).append _
  · have hrec := records_write reader h.tail hout out.length
    rw [take_length] at hrec
    obtain ⟨hlog, hsession⟩ := recorded_appendText reader hn hout hl
    rw [hw]
    refine ⟨.inr (clean_appendText hout s.file), ?_, trivial, ?_⟩
    · intro digest b hb hp
      rw [hrec]
      rcases markedFrom_store s.world fingerprint session split _ now digest b hb hp with
        rfl | ⟨b₀, h₀, hp₀⟩
      · exact hlog
      · exact (h.marked digest b₀ h₀ hp₀).append _
    · intro p hp
      rw [hrec]
      rcases mem_cons.mp hp with rfl | hp
      · exact hsession
      · exact (h.appended p hp).append _

/-- Everything but compaction. -/
def Action.appends : Action sha256 → Prop
  | .compact _ => False
  | .swap _ => False
  | _ => True

theorem sound_step (hs : s.step a = some s') (ha : a.appends) (h : Sound reader s) :
    Sound reader s' := by
  cases a with
  | lookup fingerprint retentionUntil now =>
    cases hs
    exact h.index (markedFrom_current s.world fingerprint retentionUntil now _)
  | lookupLocked fingerprint retentionUntil now =>
    simp only [step] at hs
    split at hs
    · cases hs
      refine (h.index (markedFrom_current s.world fingerprint retentionUntil now _)).lock ?_
      split <;> trivial
    · cases hs
  | sealed result =>
    simp only [step] at hs
    split at hs
    · split at hs
      · next session split hn =>
        cases hs
        refine h.lock ?_
        intro hp
        unfold SessionIndex.bundlePersisted at hp
        split at hp
        · next b hb => exact h.marked split.digest b hb hp
        · cases hp
      · cases hs
        exact h.lock trivial
    · cases hs
      exact h.lock trivial
    · cases hs
  | write failed =>
    simp only [step] at hs
    split at hs
    · next fingerprint session split hn retentionUntil now persisted hj =>
      cases hs
      have hb := h.pending
      rw [hj] at hb
      exact h.write hn hb failed
    · cases hs
  | compact now => exact ha.elim
  | swap done => exact ha.elim
  | getSession id now =>
    cases hs
    exact h.index (markedFrom_evict s.world now _)
  | extendRetention lease deadline =>
    cases hs
    exact h.index (markedFrom_extendRetention s.world lease deadline _)
  | clone lease =>
    simp only [step] at hs
    split at hs
    · cases hs
      exact h.index (fun digest b hb hp => .inr ⟨b, hb, hp⟩)
    · cases hs
  | drop lease =>
    cases hs
    exact h.index (fun digest b hb hp => .inr ⟨b, hb, hp⟩)

/-! What replay makes of the records. -/

theorem document_of_seal {document : SessionDocument}
    (h : (AttestedSession.seal sha256 document).toOption = some session) :
    session.document = document := by
  unfold AttestedSession.seal at h
  split at h
  · cases h
    rfl
  · cases h

/-- A replayed session cites the digest of a bundle that was read. -/
theorem replaySession_digest {r : SessionLogRecord} {bundles : FinMap String Bytes}
    (h : replaySession sha256 reader r bundles = some (session, split)) :
    ∃ digest bundle, bundles.lookup digest = some bundle ∧
      split.digest = sha256Hex sha256 bundle := by
  have hn := replaySession_new h
  simp only [replaySession, Option.bind_eq_bind, Option.bind_eq_some_iff] at h
  obtain ⟨ct, -, h⟩ := h
  split at h
  · cases h
  · simp only [Option.bind_eq_some_iff] at h
    obtain ⟨b, -, doc, -, digest, -, bundle, hb, s, hs, sp, -, he⟩ := h
    cases he
    refine ⟨digest, bundle, hb, ?_⟩
    have hdig := split.digest_eq
    rw [(split_spec hn).2.1, SessionDocument.strip, document_of_seal hs] at hdig
    exact (Option.some.inj hdig).symm

/-- What was read from the records `rs`. -/
structure ReadFrom (rs : List SessionLogRecord) (st : Replay sha256) : Prop where
  bundle : ∀ digest bytes, st.bundles.lookup digest = some bytes →
    ∃ r ∈ rs, evidenceOf r = some bytes ∧ sha256Hex sha256 bytes = digest
  logged : ∀ digest, Logged sha256 digest rs → ∃ bytes, st.bundles.lookup digest = some bytes
  index : ∀ digest b, st.index.bundles.lookup digest = some b → Logged sha256 digest rs

theorem readFrom_start (sha256 : Bytes → Bytes) : ReadFrom [] (Replay.start sha256) where
  bundle _ _ h := by cases h
  logged _ h := by
    obtain ⟨r, hr, -⟩ := h
    cases hr
  index _ _ h := by cases h

theorem Logged.of_append (h : Logged sha256 digest (rs ++ rs')) :
    Logged sha256 digest rs ∨ Logged sha256 digest rs' := by
  obtain ⟨r, hr, hb⟩ := h
  rcases mem_append.mp hr with hr | hr
  · exact .inl ⟨r, hr, hb⟩
  · exact .inr ⟨r, hr, hb⟩

theorem ReadFrom.record (h : ReadFrom rs st) (reader : Reader) (now : U64) (r : SessionLogRecord) :
    ReadFrom (rs ++ [r]) (replayRecord sha256 reader now st r) := by
  have hmem : r ∈ rs ++ [r] := mem_append_right _ (mem_singleton_self r)
  have hold : ∀ digest, evidenceOf r = none → Logged sha256 digest (rs ++ [r]) →
      Logged sha256 digest rs := by
    intro digest he hl
    rcases hl.of_append with hl | ⟨r', hr', b, hb, -⟩
    · exact hl
    · rw [mem_singleton.mp hr', he] at hb
      cases hb
  have hkeep : ∀ digest bytes, st.bundles.lookup digest = some bytes →
      ∃ r' ∈ rs ++ [r], evidenceOf r' = some bytes ∧ sha256Hex sha256 bytes = digest := by
    intro digest bytes hb
    obtain ⟨r', hr', hev⟩ := h.bundle digest bytes hb
    exact ⟨r', mem_append_left _ hr', hev⟩
  rcases replayRecord_cases reader now st r with
    ⟨he, hx, hb, -⟩ | ⟨bytes, he, hx, hb, -⟩ | ⟨session, split, f, ret, he, hrep, hx, hb, -⟩
  · refine ⟨by rw [hb]; exact hkeep, ?_, ?_⟩
    · intro digest hl
      rw [hb]
      exact h.logged digest (hold digest he hl)
    · intro digest b hl
      rw [hx] at hl
      exact (h.index digest b hl).append _
  · refine ⟨?_, ?_, ?_⟩
    · intro digest bytes' hl
      rw [hb, FinMap.lookup_insert_eq] at hl
      split at hl
      · next hd =>
        cases hl
        exact ⟨r, hmem, he, hd.symm⟩
      · exact hkeep digest bytes' hl
    · intro digest hl
      rw [hb, FinMap.lookup_insert_eq]
      split
      · exact ⟨bytes, rfl⟩
      · next hd =>
        rcases hl.of_append with hl | ⟨r', hr', b, hev, hdig⟩
        · exact h.logged digest hl
        · rw [mem_singleton.mp hr', he] at hev
          cases hev
          exact (hd hdig.symm).elim
    · intro digest b hl
      rw [hx] at hl
      exact (h.index digest b hl).append _
  · refine ⟨by rw [hb]; exact hkeep, ?_, ?_⟩
    · intro digest hl
      rw [hb]
      exact h.logged digest (hold digest he hl)
    · intro digest b hl
      rw [hx] at hl
      rcases lookup_insert_bundle hl with ⟨b₀, h₀, -, -⟩ | ⟨rfl, -⟩
      · exact (h.index digest b₀ h₀).append _
      · obtain ⟨digest', bundle, hlook, hdig⟩ := replaySession_digest hrep
        obtain ⟨r', hr', hev, -⟩ := h.bundle digest' bundle hlook
        exact ⟨r', mem_append_left _ hr', bundle, hev, hdig.symm⟩

theorem ReadFrom.records (h : ReadFrom rs st) (reader : Reader) (now : U64)
    (rs' : List SessionLogRecord) :
    ReadFrom (rs ++ rs') (rs'.foldl (replayRecord sha256 reader now) st) := by
  induction rs' generalizing rs st with
  | nil => simpa using h
  | cons r rs' ih =>
    have := ih (h.record reader now r)
    rwa [append_assoc, singleton_append] at this

theorem sound_opened (hc : Clean file) : Sound reader (opened sha256 reader file now) where
  tail := .inr hc
  marked digest b hb _ := by
    have hread := (readFrom_start sha256).records reader now (records reader file)
    simp only [opened, openLog, SessionIndex.markAllPersisted, FinMap.lookup_mapValues] at hb
    obtain ⟨b₀, h₀, -⟩ := Option.map_eq_some_iff.mp hb
    exact hread.index digest b₀ h₀
  pending := trivial
  appended p hp := by cases hp

theorem sound_run (hr : s.run actions = some s')
    (ha : ∀ a ∈ actions, a.appends) (h : Sound reader s) : Sound reader s' := by
  induction actions generalizing s with
  | nil =>
    cases hr
    exact h
  | cons a actions ih =>
    obtain ⟨s₁, hs, hr⟩ := run_cons.mp hr
    exact ih hr (fun a ha' => ha a (by simp [ha'])) (sound_step hs (ha a (by simp)) h)

/-- Records that follow do not take a session away. -/
theorem kept_replayRecords (reader : Reader) (now : U64) {e : SessionEntry}
    (rs : List SessionLogRecord) (h : st.index.byId.lookup id = some e) :
    ∃ e', (rs.foldl (replayRecord sha256 reader now) st).index.byId.lookup id = some e' ∧
      e.retentionUntil ≤ e'.retentionUntil := by
  induction rs generalizing st e with
  | nil => exact ⟨e, h, le_rfl⟩
  | cons r rs ih =>
    have hstep : ∃ e₁, (replayRecord sha256 reader now st r).index.byId.lookup id = some e₁ ∧
        e.retentionUntil ≤ e₁.retentionUntil := by
      rcases replayRecord_cases reader now st r with
        ⟨-, hx, -, -⟩ | ⟨-, -, hx, -, -⟩ | ⟨-, split, f, ret, -, -, hx, -, -⟩
      · exact ⟨e, by rw [hx]; exact h, le_rfl⟩
      · exact ⟨e, by rw [hx]; exact h, le_rfl⟩
      · rw [hx]
        by_cases hid : id = split.sessionId
        · subst hid
          exact ⟨_, by rw [lookup_insert, if_pos rfl], (entryFor_keeps _ _ h).1⟩
        · exact ⟨e, by rw [lookup_insert, if_neg hid]; exact h, le_rfl⟩
    obtain ⟨e₁, h₁, hle₁⟩ := hstep
    obtain ⟨e', h', hle⟩ := ih h₁
    exact ⟨e', h', hle₁.trans hle⟩

/-- The bundles among the records. -/
def evidenceIn (rs : List SessionLogRecord) : Set Bytes := {b | ∃ r ∈ rs, evidenceOf r = some b}

/-- Replay takes the session's content type, and its document is not too deep. -/
def Replays (session : AttestedSession sha256) : Prop :=
  ∀ split, SplitSession.new sha256 session = some split →
    replayable split.contentType ∧ depth session.document.toValue ≤ 127

/-- A recorded session is served until its deadline. -/
theorem served_of_recorded (hrec : Recorded session d (records reader file)) (hnow : now < d)
    (hok : Replays session) (hd : Distinct (replay sha256 reader file now).sealed)
    (hb : ∀ split, new sha256 session = some split →
      Set.InjOn sha256 (insert split.bundle (evidenceIn (records reader file)))) :
    ∃ s, served sha256 reader file now session.sessionId = some s ∧ s.bytes = session.bytes := by
  obtain ⟨split, pre, post, seq, seq', ts, fingerprint, hn, hs, hrs, hl⟩ := hrec
  obtain ⟨hid, -, -, hdig⟩ := split_spec hn
  -- The bundle read before the session's record is the session's own.
  have hread := (readFrom_start sha256).records reader now pre
  obtain ⟨bytes, hlook⟩ := hread.logged split.digest hl
  obtain ⟨r, hr, hev, hhex⟩ := hread.bundle split.digest bytes hlook
  have hin : bytes ∈ evidenceIn (records reader file) :=
    ⟨r, by rw [hrs]; exact mem_append_left _ hr, hev⟩
  have hsame : bytes = split.bundle := by
    rw [hdig] at hhex
    exact hb split hn (Set.mem_insert_of_mem _ hin) (Set.mem_insert _ _)
      (hexEncode_injective (String.append_right_inj _ |>.mp hhex))
  rw [hsame] at hlook
  have hsession := replayRecord_session reader ts fingerprint hs hnow hn hlook
  rw [if_pos (hok split hn)] at hsession
  have hreplay : replay sha256 reader file now = post.foldl (replayRecord sha256 reader now)
      (replayRecord sha256 reader now (pre.foldl (replayRecord sha256 reader now)
        (.start sha256)) (sessionRecord seq ts fingerprint d split.contentType
          split.stripped)) := by
    rw [replay, hrs, foldl_append, foldl_cons]
  have hmem : session ∈ (replay sha256 reader file now).sealed := by
    rw [hreplay, hsession]
    exact sealed_replayRecords now _ post (mem_cons_self ..)
  obtain ⟨e, he, hle⟩ : ∃ e, (replay sha256 reader file now).index.byId.lookup
      session.sessionId = some e ∧ d ≤ e.retentionUntil := by
    obtain ⟨e, he, hle⟩ : ∃ e, (replayRecord sha256 reader now (pre.foldl
        (replayRecord sha256 reader now) (.start sha256)) (sessionRecord seq ts fingerprint d
          split.contentType split.stripped)).index.byId.lookup session.sessionId = some e ∧
        d ≤ e.retentionUntil := by
      rw [hsession]
      exact ⟨_, lookup_insert.trans (if_pos hid.symm), (le_max_left _ _).trans le_entryFor⟩
    obtain ⟨e', he', hle'⟩ := kept_replayRecords reader now post he
    rw [hreplay]
    exact ⟨e', he', hle.trans hle'⟩
  obtain ⟨s, hs, hsid, hget⟩ := get_of_lookup hd (inv_openLog hd) he (hnow.trans_le hle)
    (fun _ => false)
  exact ⟨s, hget, hd.bytes_eq hs hmem hsid⟩

/-! The sessions a store appends are the ones it was given. -/

def Job.Holds (P : AttestedSession sha256 → Prop) : Job sha256 → Prop
  | .appending _ session .. => P session
  | _ => True

/-- Every session appended, or about to be, satisfies `P`. -/
def GivenOnly (P : AttestedSession sha256 → Prop) (s : JsonlStore sha256) : Prop :=
  s.job.Holds P ∧ ∀ p ∈ s.appended, P p.1

theorem givenOnly_step (hs : s.step a = some s')
    (ha : ∀ session, a = .sealed (.ok session) → P session) (h : GivenOnly P s) :
    GivenOnly P s' := by
  obtain ⟨hjob, happ⟩ := h
  cases a with
  | lookup | getSession | extendRetention | drop =>
    cases hs
    exact ⟨hjob, happ⟩
  | lookupLocked fingerprint retentionUntil now =>
    simp only [step] at hs
    split at hs
    · cases hs
      refine ⟨?_, happ⟩
      split <;> trivial
    · cases hs
  | sealed result =>
    simp only [step] at hs
    split at hs
    · split at hs
      · cases hs
        exact ⟨ha _ rfl, happ⟩
      · cases hs
        exact ⟨trivial, happ⟩
    · cases hs
      exact ⟨trivial, happ⟩
    · cases hs
  | write failed =>
    simp only [step] at hs
    split at hs
    · next fingerprint session split hn retentionUntil now persisted hj =>
      cases hs
      rw [hj] at hjob
      rcases write_cases s fingerprint session split retentionUntil now persisted failed with
        ⟨-, hw⟩ | ⟨_, _, _, -, -, hw⟩ | ⟨_, _, -, -, hw⟩
      · rw [hw]
        exact ⟨trivial, happ⟩
      · rw [hw]
        exact ⟨trivial, happ⟩
      · rw [hw]
        refine ⟨trivial, ?_⟩
        intro p hp
        rcases mem_cons.mp hp with rfl | hp
        · exact hjob
        · exact happ p hp
    · cases hs
  | compact now =>
    simp only [step] at hs
    split at hs
    · cases hs
      exact ⟨trivial, happ⟩
    · cases hs
  | swap done =>
    simp only [step] at hs
    split at hs
    · split at hs <;> (cases hs; exact ⟨trivial, happ⟩)
    · cases hs
  | clone lease =>
    simp only [step] at hs
    split at hs
    · cases hs
      exact ⟨hjob, happ⟩
    · cases hs

theorem givenOnly_run
    (hr : s.run actions = some s') (ha : ∀ session, .sealed (.ok session) ∈ actions → P session)
    (h : GivenOnly P s) : GivenOnly P s' := by
  induction actions generalizing s with
  | nil =>
    cases hr
    exact h
  | cons a actions ih =>
    obtain ⟨s₁, hs, hr⟩ := run_cons.mp hr
    refine ih hr (fun session hm => ha session (by simp [hm])) (givenOnly_step hs ?_ h)
    rintro session rfl
    exact ha session (by simp)

/-- Appends survive: a store opened on a log that does not end inside a line, and given only
sessions that replay takes, keeps every session whose append returned, whatever writes failed
in between. The reopened store serves each of them until the deadline it was appended with. -/
theorem appended_sessions_served (now : U64) {t : U64} {actions : List (Action sha256)}
    (hclean : Clean file) (hgiven : ∀ session, .sealed (.ok session) ∈ actions → Replays session)
    (hactions : ∀ a ∈ actions, a.appends)
    (hrun : (JsonlStore.opened sha256 reader file t).run actions = some s)
    (hd : Distinct (replay sha256 reader s.file now).sealed)
    (hb : Set.InjOn sha256 (evidenceIn (records reader s.file) ∪
      {b | ∃ p ∈ s.appended, ∃ split, SplitSession.new sha256 p.1 = some split ∧
        split.bundle = b})) :
    ∀ p ∈ s.appended, now < p.2 →
      ∃ session, served sha256 reader s.file now p.1.sessionId = some session ∧
        session.bytes = p.1.bytes := by
  intro p hp hnow
  have hsound := sound_run hrun hactions (sound_opened hclean)
  have hok := (givenOnly_run hrun hgiven ⟨trivial, fun _ hp => by cases hp⟩).2 p hp
  refine served_of_recorded (hsound.appended p hp) hnow hok hd ?_
  intro split hn
  apply hb.mono
  rintro b (rfl | hb)
  · exact .inr ⟨p, hp, split, hn, rfl⟩
  · exact .inl hb

theorem replays_bare {t expires : U64}
    (hdoc : session.document = .bare t expires (.fromBytes sha256 contentType bundle))
    (hct : Text.contains contentType ";base64," = false) (hr : replayable contentType) :
    Replays session := by
  intro split hn
  have hdec : session.document.evidence.decode sha256 = some (contentType, bundle) := by
    rw [hdoc]
    exact decode_fromBytes hct
  obtain ⟨split', hn', hsplit, -⟩ := exists_split hdec
  cases hn.symm.trans hn'
  rw [hsplit, hdoc, depth_bare]
  exact ⟨hr, by omega⟩

/-- What replay reads from the two records of an append, and nothing else. -/
theorem replay_append (reader : Reader) {t : U64}
    (hn : new sha256 session = some split) (hok : Replays session)
    (hout : appendText w false fingerprint split retentionUntil t = .ok (out, next))
    (hnow : now < max retentionUntil split.stripped.expiresAt) :
    (replay sha256 reader out now).sealed = [session] ∧
      evidenceIn (records reader out) = {split.bundle} := by
  obtain ⟨seq, hnext, hseq, hrec⟩ := records_appendText reader hout
  obtain ⟨-, -, -, hdig⟩ := split_spec hn
  have hb : ((∅ : FinMap String Bytes).insert (sha256Hex sha256 split.bundle)
      split.bundle).lookup split.digest = some split.bundle := by
    rw [hdig, FinMap.lookup_insert_eq, if_pos rfl]
  constructor
  · simp only [replay, hrec, Bool.false_eq_true, if_false, cons_append,
      nil_append, foldl_cons, foldl_nil]
    rw [replayRecord_evidence hseq, replayRecord_session reader t fingerprint hnext hnow hn hb,
      if_pos (hok split hn)]
    rfl
  · simp only [evidenceIn, hrec, Bool.false_eq_true, if_false, cons_append, nil_append,
      exists_mem_cons_iff, evidenceOf_evidence hseq, evidenceOf_session]
    simp [eq_comm]

/-- An append to an empty log survives the reopen. -/
theorem appended_session_served_once : ∃ (session : AttestedSession Sha2.sha256) (s : _),
    (JsonlStore.opened Sha2.sha256 Reader.strict [] 0).run
      [.lookupLocked "channel" 7 5, .sealed (.ok session), .write none] = some s ∧
    (∃ d, (session, d) ∈ s.appended) ∧
    ∃ found, served Sha2.sha256 Reader.strict s.file 6 session.sessionId = some found ∧
      found.bytes = session.bytes := by
  obtain ⟨session, split, hdoc, hn, -, -⟩ :=
    exists_split_bare Sha2.sha256 5 9 "text/plain" [1] (by decide)
  have hok : Replays session := replays_bare hdoc (by decide) (by decide)
  obtain ⟨s, out, hrun, ⟨next, hout⟩, hfile, -, happ, -, -⟩ := run_first Reader.strict
    (records_nil _) hn "channel" 7 5
  rw [nil_append] at hfile
  have hnow : (6 : U64) < max 7 split.stripped.expiresAt := lt_max_of_lt_left (by decide)
  obtain ⟨hsealed, hevidence⟩ := replay_append Reader.strict hn hok hout hnow
  refine ⟨session, s, hrun, ⟨_, by rw [happ]; exact mem_singleton_self _⟩, ?_⟩
  refine appended_sessions_served 6 clean_nil ?_ ?_ hrun ?_ ?_
    (session, max 7 split.stripped.expiresAt) (by simp [happ]) hnow
  · intro session' hm
    obtain rfl : session' = session := by simpa using hm
    exact hok
  · intro a ha
    simp only [mem_cons, not_mem_nil, or_false] at ha
    rcases ha with rfl | rfl | rfl <;> trivial
  · rw [hfile, hsealed]
    exact distinct_singleton session
  · rw [hfile, hevidence, happ]
    have hset : ∀ b ∈ ({split.bundle} ∪ {b | ∃ p ∈ [(session, max 7 split.stripped.expiresAt)],
        ∃ split, SplitSession.new Sha2.sha256 p.1 = some split ∧ split.bundle = b} : Set Bytes),
        b = split.bundle := by
      rintro b (rfl | ⟨p, hp, split', hn', rfl⟩)
      · rfl
      · rw [mem_singleton.mp hp, hn] at hn'
        rw [Option.some.inj hn']
    intro b hb b' hb' _
    rw [hset b hb, hset b' hb']

theorem parse_letter (round : Bytes → Option FloatText) (limit : Nat) (b : Bytes) :
    parse round limit (120 :: b) = none := by
  simp [parse, readValue, skipSpace, isSpace, isDigit]

/-- A stray letter before a record makes a line that is not a record. -/
theorem records_letter (r : SessionLogRecord) :
    records Reader.strict (120 :: print r.toValue) = [] := by
  obtain ⟨b, hb⟩ := exists_print_obj _
  have htrim : trimAscii (120 :: print r.toValue) = 120 :: print r.toValue := by
    rw [SessionLogRecord.toValue, hb, ← cons_append]
    exact trimAscii_eq (by decide) (by decide)
  have hread : readLine Reader.strict (120 :: print r.toValue) = none := by
    rw [readLine, htrim]
    simp [Reader.strict, parse_letter]
  have hline : lines (120 :: print r.toValue) = [120 :: print r.toValue] :=
    lines_of_notMem (by simp [newline_notMem_print])
  simp [records, hline, hread]

/-- A session without its bundle is not served. -/
theorem served_without_bundle (seq ts retentionUntil : U64) (fingerprint contentType : String)
    (stripped : SessionDocument) (hrec : records reader file =
      [sessionRecord seq ts fingerprint retentionUntil contentType stripped]) :
    served sha256 reader file now id = none := by
  have hindex : (replay sha256 reader file now).index = SessionIndex.empty := by
    rw [replay, hrec, foldl_cons, foldl_nil]
    rcases replayRecord_cases reader now (.start sha256) (sessionRecord seq ts
      fingerprint retentionUntil contentType stripped) with
      ⟨-, hx, -, -⟩ | ⟨-, -, hx, -, -⟩ | ⟨_, _, _, _, -, hrep, -, -, -⟩
    · exact hx
    · exact hx
    · obtain ⟨digest, bundle, hlook, -⟩ := replaySession_digest hrep
      cases hlook
  rw [served, openLog, hindex]
  exact get_empty id

/-- A log of one stray letter: the append returns, its bundle is lost with the merged line, and
with it the session. -/
theorem appended_session_lost : ∃ (session : AttestedSession Sha2.sha256) (s : _),
    (JsonlStore.opened Sha2.sha256 Reader.strict [120] 0).run
      [.lookupLocked "channel" 7 5, .sealed (.ok session), .write none] = some s ∧
    Replays session ∧ (session, 9) ∈ s.appended ∧
    served Sha2.sha256 Reader.strict s.file 6 session.sessionId = none := by
  obtain ⟨session, split, hdoc, hn, -, -⟩ :=
    exists_split_bare Sha2.sha256 5 9 "text/plain" [1] (by decide)
  have hexp : split.stripped.expiresAt = 9 := by
    rw [(split_spec hn).2.1, hdoc]
    rfl
  have hfile₀ : records Reader.strict [120] = [] := by
    have hl : lines [120] = [[120]] := by decide
    have hr : readLine Reader.strict [120] = none := by
      simp [readLine, show trimAscii [120] = [120] by decide, Reader.strict, parse_letter]
    simp [records, hl, hr]
  obtain ⟨s, out, hrun, ⟨next, hout⟩, hfile, -, happ, -, -⟩ := run_first Reader.strict hfile₀ hn
    "channel" 7 5
  refine ⟨session, s, hrun, replays_bare hdoc (by decide) (by decide), ?_, ?_⟩
  · rw [happ, hexp]
    exact mem_singleton_self _
  · obtain ⟨seq, evidence, -, rfl, rfl, -⟩ := appendText_ok hout
    have hlines : s.file = (120 :: print (evidenceRecord 0 5 split.bundle).toValue) ++
        10 :: sessionLine seq 5 "channel" (max 7 split.stripped.expiresAt) split.contentType
          split.stripped := by
      rw [hfile]
      simp [evidenceLine, recordLine]
    refine served_without_bundle seq 5 (max 7 split.stripped.expiresAt) "channel"
      split.contentType split.stripped ?_
    rw [hlines, records_newline, records_letter, sessionLine, records_single]
    rfl

end AciGateway.Session
