import AciGateway.Session.Codec
import AciGateway.Lib.Sha2
import AciGateway.Session.Index
import AciGateway.Lib.Lines

/-! The append-only session log: the lines written to it, and the index replayed from it. -/
namespace AciGateway.Session

open Octets Json Digest Lines SessionIndex List

def recordTypeEvidence : String := "evidence"

def recordTypeSession : String := "attested_session"

def recordLine (r : SessionLogRecord) : Bytes := print r.toValue ++ [10]

def evidenceRecord (seq ts : U64) (bundle : Bytes) : SessionLogRecord where
  seq
  ts
  recordType := recordTypeEvidence
  fingerprint := none
  retentionUntil := none
  contentType := none
  payloadB64 := base64Encode bundle

def evidenceLine (seq ts : U64) (bundle : Bytes) : Bytes :=
  recordLine (evidenceRecord seq ts bundle)

def sessionRecord (seq ts : U64) (fingerprint : String) (retentionUntil : U64)
    (contentType : String) (stripped : SessionDocument) : SessionLogRecord where
  seq
  ts
  recordType := recordTypeSession
  fingerprint := some fingerprint
  retentionUntil := some retentionUntil
  contentType := some contentType
  payloadB64 := base64Encode (print stripped.toValue)

def sessionLine (seq ts : U64) (fingerprint : String) (retentionUntil : U64)
    (contentType : String) (stripped : SessionDocument) : Bytes :=
  recordLine (sessionRecord seq ts fingerprint retentionUntil contentType stripped)

structure LogWriter where
  nextSeq : U64
  needsSeparator : Bool
  deriving DecidableEq

/-- What one append writes, and the sequence number after it. -/
def appendText (w : LogWriter) (bundlePersisted : Bool) (fingerprint : String)
    (split : SplitSession) (retentionUntil now : U64) : Except String (Bytes × U64) := do
  let separator : Bytes := if w.needsSeparator then [10] else []
  let (evidence, seq) ←
    if bundlePersisted then pure (([] : Bytes), w.nextSeq)
    else
      match U64.succ? w.nextSeq with
      | some seq => pure (evidenceLine w.nextSeq now split.bundle, seq)
      | none => throw "session log sequence number overflowed u64::MAX"
  let session := sessionLine seq now fingerprint
    (max retentionUntil split.stripped.expiresAt) split.contentType split.stripped
  match U64.succ? seq with
  | some nextSeq => pure (separator ++ evidence ++ session, nextSeq)
  | none => throw "session log sequence number overflowed u64::MAX"

/-- A content type that replay takes for a single media type of a data URI. -/
def replayable (contentType : String) : Bool :=
  !Text.contains contentType ";base64" && !Text.contains contentType ","

/-- What `open` has read so far. `sealed` notes the sessions rebuilt, for the proofs. -/
structure Replay (sha256 : Bytes → Bytes) where
  nextSeq : U64
  index : SessionIndex
  bundles : FinMap String Bytes
  sealed : List (AttestedSession sha256)

section Open

variable (sha256 : Bytes → Bytes) (reader : Reader)

def Replay.start : Replay sha256 := ⟨0, .empty, ∅, []⟩

/-- Rebuild a session from its record and the bundles read so far. The source returns the split
alone. -/
def replaySession (record : SessionLogRecord) (bundles : FinMap String Bytes) :
    Option (AttestedSession sha256 × SplitSession) := do
  let contentType ← record.contentType
  if !replayable contentType then none
  else
    let document ← reader.document (← base64Decode record.payloadB64)
    let digest ← document.evidence.digest
    let bundle ← bundles.lookup digest
    let document := { document with evidence := .fromBytes sha256 contentType bundle }
    let session ← (AttestedSession.seal sha256 document).toOption
    let split ← SplitSession.new sha256 session
    some (session, split)

def replayRecord (now : U64) (st : Replay sha256) (record : SessionLogRecord) : Replay sha256 :=
  match U64.succ? record.seq with
  | none => st
  | some seqAfter =>
    let st := { st with nextSeq := max st.nextSeq seqAfter }
    if record.recordType = recordTypeEvidence then
      match base64Decode record.payloadB64 with
      | some bytes => { st with bundles := st.bundles.insert (sha256Hex sha256 bytes) bytes }
      | none => st
    else if record.recordType = recordTypeSession then
      match record.fingerprint, record.retentionUntil with
      | some fingerprint, some retentionUntil =>
        if retentionUntil ≤ now then st
        else
          match replaySession sha256 reader record st.bundles with
          | some (session, split) =>
            { st with
              index := st.index.insert fingerprint split retentionUntil
              sealed := session :: st.sealed }
          | none => st
      | _, _ => st
    else st

/-- The record on a line, unless the line is blank or malformed. -/
def readLine (line : Bytes) : Option SessionLogRecord :=
  let trimmed := trimAscii line
  if trimmed = [] then none else reader.record trimmed

def records (file : Bytes) : List SessionLogRecord := (lines file).filterMap (readLine reader)

def replay (file : Bytes) (now : U64) : Replay sha256 :=
  (records reader file).foldl (replayRecord sha256 reader now) (.start sha256)

/-- The index and the writer after opening a log with the content `file`. -/
def openLog (file : Bytes) (now : U64) : SessionIndex × LogWriter :=
  let st := replay sha256 reader file now
  (st.index.markAllPersisted, ⟨st.nextSeq, false⟩)

end Open

variable {sha256 : Bytes → Bytes} {reader : Reader} {session : AttestedSession sha256}
  {split : SplitSession} {st : Replay sha256} {bundles : FinMap String Bytes}
  {seq seq' ts now retentionUntil next : U64} {fingerprint : String} {bundle out rest file : Bytes}
  {w : LogWriter} {persisted : Bool} (r : SessionLogRecord)

/-! Reading the lines back. -/

theorem newline_notMem_print (v : Value) : (10 : UInt8) ∉ print v := by
  intro hm
  have := printable_print v 10 hm
  exact absurd this (by decide)

theorem lines_recordLine (rest : Bytes) :
    lines (recordLine r ++ rest) = print r.toValue :: lines rest := by
  rw [recordLine, append_assoc, singleton_append, lines_append,
    lines_of_notMem (newline_notMem_print _)]
  rfl

theorem readLine_print (reader : Reader) (r : SessionLogRecord) :
    readLine reader (print r.toValue) = some r := by
  have htrim : trimAscii (print r.toValue) = print r.toValue := by
    obtain ⟨b, hb⟩ := exists_print_obj _
    rw [SessionLogRecord.toValue, hb]
    exact trimAscii_eq (by decide) (by decide)
  have hne : print r.toValue ≠ [] := by
    obtain ⟨b, hb⟩ := exists_print_obj _
    rw [SessionLogRecord.toValue, hb]
    exact cons_ne_nil _ _
  simp only [readLine, htrim, hne, if_false, reader.record_print]

/-- A line that was written is read back, before the rest of the log. -/
theorem records_recordLine (reader : Reader) (r : SessionLogRecord) (rest : Bytes) :
    records reader (recordLine r ++ rest) = r :: records reader rest := by
  rw [records, lines_recordLine, filterMap_cons_some (readLine_print reader r)]
  rfl

theorem records_newline (reader : Reader) (a b : Bytes) :
    records reader (a ++ 10 :: b) = records reader a ++ records reader b := by
  rw [records, lines_append, filterMap_append]
  rfl

theorem records_single (reader : Reader) (r : SessionLogRecord) :
    records reader (recordLine r) = [r] := by
  have := records_recordLine reader r []
  rwa [append_nil] at this

@[simp] theorem records_nil (reader : Reader) : records reader [] = [] := rfl

open U64 (succ?)

theorem replayRecord_evidence (h : succ? seq = some seq') :
    replayRecord sha256 reader now st (evidenceRecord seq ts bundle) =
      { st with nextSeq := max st.nextSeq seq'
                bundles := st.bundles.insert (sha256Hex sha256 bundle) bundle } := by
  simp [replayRecord, evidenceRecord, h, base64Decode_base64Encode]

open SplitSession (new)

/-- A split session whose bundle was read comes back whole, unless its content type or its
depth is one that replay refuses. -/
theorem replaySession_split (reader : Reader) (seq ts : U64) (fingerprint : String)
    (retentionUntil : U64) (hn : new sha256 session = some split)
    (hb : bundles.lookup split.digest = some split.bundle) :
    replaySession sha256 reader
        (sessionRecord seq ts fingerprint retentionUntil split.contentType split.stripped) bundles =
      if replayable split.contentType ∧ depth session.document.toValue ≤ 127 then
        some (session, split)
      else none := by
  obtain ⟨-, hstrip, -, -⟩ := split_spec hn
  have hint : integral split.stripped.toValue := by
    rw [hstrip]
    exact integral_strip (integral_of_jcsBytes session.bytes_eq)
  have hdepth : depth split.stripped.toValue = depth session.document.toValue := by
    rw [hstrip, depth_strip]
  by_cases hr : replayable split.contentType
  · by_cases hd : depth session.document.toValue ≤ 127
    · have hread := reader.document_print split.stripped (hdepth ▸ hd) hint
      have hdoc := restore_split hn
      simp [replaySession, sessionRecord, hr, hd, base64Decode_base64Encode, hread,
        split.digest_eq, hb, hdoc, Except.toOption, hn]
    · have hread := reader.document_deep split.stripped (hdepth ▸ not_le.mp hd) hint
      simp [replaySession, sessionRecord, hd, base64Decode_base64Encode, hread]
  · simp [replaySession, sessionRecord, hr]

theorem replayRecord_session (reader : Reader) (ts : U64) (fingerprint : String)
    (h : succ? seq = some seq') (hnow : now < retentionUntil) (hn : new sha256 session = some split)
    (hb : st.bundles.lookup split.digest = some split.bundle) :
    replayRecord sha256 reader now st
        (sessionRecord seq ts fingerprint retentionUntil split.contentType split.stripped) =
      if replayable split.contentType ∧ depth session.document.toValue ≤ 127 then
        { st with nextSeq := max st.nextSeq seq'
                  index := st.index.insert fingerprint split retentionUntil
                  sealed := session :: st.sealed }
      else { st with nextSeq := max st.nextSeq seq' } := by
  have hs := replaySession_split reader seq ts fingerprint retentionUntil hn hb
  have htype : recordTypeSession ≠ recordTypeEvidence := by decide
  simp only [sessionRecord] at hs
  by_cases hc : replayable split.contentType ∧ depth session.document.toValue ≤ 127
  · simp [replayRecord, sessionRecord, h, htype, not_le.mpr hnow, hs, hc]
  · simp [replayRecord, sessionRecord, h, htype, not_le.mpr hnow, hs, hc]

/-- The bundle that a record adds to the ones read, if it is an evidence record. -/
def evidenceOf (record : SessionLogRecord) : Option Bytes :=
  if (U64.succ? record.seq).isSome ∧ record.recordType = recordTypeEvidence then
    base64Decode record.payloadB64
  else none

/-- Everything a record can do to what was read before it. -/
theorem replayRecord_cases (reader : Reader) (now : U64) (st : Replay sha256) (r : SessionLogRecord) :
    let st' := replayRecord sha256 reader now st r
    (evidenceOf r = none ∧ st'.index = st.index ∧ st'.bundles = st.bundles ∧
      st'.sealed = st.sealed) ∨
    (∃ bytes, evidenceOf r = some bytes ∧ st'.index = st.index ∧
      st'.bundles = st.bundles.insert (sha256Hex sha256 bytes) bytes ∧ st'.sealed = st.sealed) ∨
    (∃ session split fingerprint retentionUntil, evidenceOf r = none ∧
      replaySession sha256 reader r st.bundles = some (session, split) ∧
      st'.index = st.index.insert fingerprint split retentionUntil ∧
      st'.bundles = st.bundles ∧ st'.sealed = session :: st.sealed) := by
  intro st'
  have hst' : st' = replayRecord sha256 reader now st r := rfl
  clear_value st'
  unfold replayRecord at hst'
  unfold evidenceOf
  cases hseq : succ? r.seq with
  | none =>
    simp only [hseq] at hst'
    subst hst'
    simp
  | some seqAfter =>
    simp only [hseq] at hst'
    by_cases he : r.recordType = recordTypeEvidence
    · cases hb : base64Decode r.payloadB64 with
      | none =>
        simp only [he, if_true, hb] at hst'
        subst hst'
        simp [he]
      | some bytes =>
        simp only [he, if_true, hb] at hst'
        subst hst'
        simp [he]
    · simp only [he, if_false] at hst'
      simp only [he, and_false, if_false]
      by_cases hs : r.recordType = recordTypeSession
      · simp only [hs, if_true] at hst'
        split at hst'
        · next fingerprint retentionUntil hf hret =>
          split at hst'
          · subst hst'
            simp
          · split at hst'
            · next session split hrep =>
              subst hst'
              exact .inr (.inr ⟨session, split, fingerprint, retentionUntil, trivial, hrep, rfl,
                rfl, rfl⟩)
            · subst hst'
              simp
        · subst hst'
          simp
      · simp only [hs, if_false] at hst'
        subst hst'
        simp

theorem replaySession_new {r : SessionLogRecord}
    (h : replaySession sha256 reader r bundles = some (session, split)) :
    new sha256 session = some split := by
  simp only [replaySession, Option.bind_eq_bind, Option.bind_eq_some_iff] at h
  obtain ⟨ct, -, h⟩ := h
  split at h
  · cases h
  · simp only [Option.bind_eq_some_iff] at h
    obtain ⟨b, -, d, -, digest, -, bundle, -, s, -, sp, hn, he⟩ := h
    cases he
    exact hn

/-- What one record leads to. -/
theorem sealed_replayRecord (now : U64) (st : Replay sha256) (r : SessionLogRecord) :
    st.sealed ⊆ (replayRecord sha256 reader now st r).sealed := by
  rcases replayRecord_cases reader now st r with
    ⟨-, -, -, hs⟩ | ⟨-, -, -, -, hs⟩ | ⟨session, -, -, -, -, -, -, -, hs⟩
  · rw [hs]
    exact Subset.refl _
  · rw [hs]
    exact Subset.refl _
  · rw [hs]
    exact subset_cons_self _ _

theorem sealed_replayRecords (now : U64) (st : Replay sha256) (rs : List SessionLogRecord) :
    st.sealed ⊆ (rs.foldl (replayRecord sha256 reader now) st).sealed := by
  induction rs generalizing st with
  | nil => exact Subset.refl _
  | cons r rs ih => exact Subset.trans (sealed_replayRecord now st r) (ih _)

theorem inv_replayRecord (hi : Inv st.sealed st.index)
    (hd : Distinct (replayRecord sha256 reader now st r).sealed) :
    Inv (replayRecord sha256 reader now st r).sealed
      (replayRecord sha256 reader now st r).index := by
  rcases replayRecord_cases reader now st r with
    ⟨-, hx, -, hs⟩ | ⟨-, -, hx, -, hs⟩ | ⟨session, split, _, _, -, hrep, hx, -, hs⟩
  · rw [hx, hs]
    exact hi
  · rw [hx, hs]
    exact hi
  · rw [hs] at hd
    rw [hx, hs]
    exact inv_insert hd (hi.mono (subset_cons_self _ _))
      ⟨session, mem_cons_self .., replaySession_new hrep⟩

theorem inv_replayRecords (rs : List SessionLogRecord) (hi : Inv st.sealed st.index)
    (hd : Distinct (rs.foldl (replayRecord sha256 reader now) st).sealed) :
    Inv (rs.foldl (replayRecord sha256 reader now) st).sealed
      (rs.foldl (replayRecord sha256 reader now) st).index := by
  induction rs generalizing st with
  | nil => exact hi
  | cons r rs ih =>
    exact ih (inv_replayRecord r hi (hd.mono (sealed_replayRecords now _ rs))) hd

/-- A log of any content opens to an index in order. -/
theorem inv_openLog (hd : Distinct (replay sha256 reader file now).sealed) :
    Inv (replay sha256 reader file now).sealed (openLog sha256 reader file now).1 :=
  inv_markAllPersisted (inv_replayRecords _ inv_empty hd)

/-- What an append writes: a separator if one is due, the bundle unless it is in the log, and
the session. -/
theorem appendText_ok
    (h : appendText w persisted fingerprint split retentionUntil now = .ok (out, next)) :
    ∃ seq evidence, succ? seq = some next ∧
      out = (if w.needsSeparator then [10] else []) ++ evidence ++
        sessionLine seq now fingerprint (max retentionUntil split.stripped.expiresAt)
          split.contentType split.stripped ∧
      if persisted then evidence = [] ∧ seq = w.nextSeq
      else evidence = evidenceLine w.nextSeq now split.bundle ∧
        succ? w.nextSeq = some seq := by
  unfold appendText at h
  cases persisted with
  | true =>
    cases hs : succ? w.nextSeq with
    | none => simp [hs, bind, Except.bind, pure, Except.pure, throw, throwThe, MonadExceptOf.throw] at h
    | some n =>
      simp only [hs, bind, Except.bind, pure, Except.pure, if_true, Except.ok.injEq,
        Prod.mk.injEq] at h
      obtain ⟨rfl, rfl⟩ := h
      exact ⟨w.nextSeq, [], hs, rfl, rfl, rfl⟩
  | false =>
    cases hs : succ? w.nextSeq with
    | none => simp [hs, bind, Except.bind, throw, throwThe, MonadExceptOf.throw] at h
    | some seq =>
      cases hs' : succ? seq with
      | none =>
        simp [hs, hs', bind, Except.bind, pure, Except.pure, throw, throwThe,
          MonadExceptOf.throw] at h
      | some n =>
        simp only [hs, hs', bind, Except.bind, pure, Except.pure, Except.ok.injEq,
          Prod.mk.injEq, Bool.false_eq_true, if_false] at h
        obtain ⟨rfl, rfl⟩ := h
        exact ⟨seq, _, hs', rfl, rfl, rfl⟩

/-- What a store just opened on the log serves. -/
def served (sha256 : Bytes → Bytes) (reader : Reader) (file : Bytes) (now : U64) (id : String) :
    Option (AttestedSession sha256) :=
  ((openLog sha256 reader file now).1.get sha256 (fun _ => false) id now).1

theorem distinct_singleton (session : AttestedSession sha256) : Distinct [session] where
  documents := by
    rintro _ ⟨s, hs, rfl⟩ _ ⟨s', hs', rfl⟩ -
    rw [mem_singleton.mp hs, mem_singleton.mp hs']
  bundles := by
    rintro _ ⟨split, ⟨s, hs, hn⟩, rfl⟩ _ ⟨split', ⟨s', hs', hn'⟩, rfl⟩ -
    rw [mem_singleton.mp hs] at hn
    rw [mem_singleton.mp hs', hn] at hn'
    rw [Option.some.inj hn']

theorem records_appendText (reader : Reader)
    (h : appendText w persisted fingerprint split retentionUntil now = .ok (out, next)) :
    ∃ seq, succ? seq = some next ∧
      (if persisted then seq = w.nextSeq else succ? w.nextSeq = some seq) ∧
      records reader out =
        (if persisted then [] else [evidenceRecord w.nextSeq now split.bundle]) ++
        [sessionRecord seq now fingerprint (max retentionUntil split.stripped.expiresAt)
          split.contentType split.stripped] := by
  obtain ⟨seq, evidence, hnext, rfl, hseq⟩ := appendText_ok h
  have hsep : ∀ rest, records reader ((if w.needsSeparator then [10] else []) ++ rest) =
      records reader rest := by
    intro rest
    cases w.needsSeparator
    · rfl
    · exact records_newline reader [] rest
  rw [append_assoc, hsep]
  cases persisted with
  | true =>
    obtain ⟨rfl, rfl⟩ := hseq
    exact ⟨_, hnext, rfl, records_single reader _⟩
  | false =>
    obtain ⟨rfl, hs⟩ := hseq
    refine ⟨seq, hnext, hs, ?_⟩
    rw [evidenceLine, records_recordLine, sessionLine, records_single]
    rfl

/-- The index that replay builds from the two records of a first append. -/
theorem openLog_append {t : U64} (hn : new sha256 session = some split)
    (hout : appendText w false fingerprint split retentionUntil t = .ok (out, next))
    (hnow : now < max retentionUntil split.stripped.expiresAt) :
    (openLog sha256 reader out now).1 =
      (if replayable split.contentType ∧ depth session.document.toValue ≤ 127 then
        empty.insert fingerprint split
          (max retentionUntil split.stripped.expiresAt)
      else empty).markAllPersisted := by
  obtain ⟨seq, hnext, hseq, hrec⟩ := records_appendText reader hout
  obtain ⟨-, -, -, hdig⟩ := split_spec hn
  have hb : ((∅ : FinMap String Bytes).insert (sha256Hex sha256 split.bundle)
      split.bundle).lookup split.digest = some split.bundle := by
    rw [hdig, FinMap.lookup_insert_eq, if_pos rfl]
  simp only [openLog, replay, hrec, Bool.false_eq_true, if_false, cons_append,
    nil_append, foldl_cons, foldl_nil]
  rw [replayRecord_evidence hseq, replayRecord_session reader t fingerprint hnext hnow hn hb]
  split <;> rfl

/-- A log that refused its only session serves none. -/
theorem get_empty (id : String) :
    (empty.markAllPersisted.get sha256 (fun _ => false) id now).1 = none := rfl

/-- An index of one session serves it until its deadline. -/
theorem get_single (hn : new sha256 session = some split)
    (hnow : now < max retentionUntil split.stripped.expiresAt) :
    ((empty.insert fingerprint split retentionUntil).markAllPersisted.get sha256
      (fun _ => false) session.sessionId now).1 = some session := by
  have hi : Inv [session] (empty.insert fingerprint split retentionUntil) :=
    inv_insert (distinct_singleton session) inv_empty ⟨session, mem_singleton_self _, hn⟩
  have hl : (empty.insert fingerprint split
      retentionUntil).markAllPersisted.byId.lookup session.sessionId =
        some (empty.entryFor fingerprint split retentionUntil) := by
    change (empty.insert fingerprint split retentionUntil).byId.lookup _ = _
    rw [lookup_insert, if_pos (split_spec hn).1.symm]
  obtain ⟨s, hs, -, hg⟩ := get_of_lookup (distinct_singleton session) (inv_markAllPersisted hi) hl
    (hnow.trans_le le_entryFor) (fun _ => false)
  rw [hg, mem_singleton.mp hs]

/-- A session that splits is served again by the log its append wrote exactly when replay takes
its content type for a media type and its document nests at most 127 levels deep. -/
theorem append_replays_iff (reader : Reader) (now : U64) {w : LogWriter} {next t : U64}
    (hn : SplitSession.new sha256 session = some split)
    (hout : appendText w false fingerprint split retentionUntil t = .ok (out, next))
    (hnow : now < max retentionUntil split.stripped.expiresAt) :
    (∃ s, served sha256 reader out now session.sessionId = some s ∧
        s.sessionId = session.sessionId ∧ s.bytes = session.bytes) ↔
      replayable split.contentType ∧ depth session.document.toValue ≤ 127 := by
  rw [served, openLog_append hn hout hnow]
  constructor
  · rintro ⟨s, hs, -⟩
    by_contra hc
    rw [if_neg hc, get_empty] at hs
    cases hs
  · intro hc
    rw [if_pos hc]
    refine ⟨session, get_single hn ?_, rfl, rfl⟩
    exact hnow.trans_le (le_max_left _ _)

theorem exists_appendText (h : w.nextSeq.val + 2 < 2 ^ 64) (persisted : Bool)
    (fingerprint : String) (split : SplitSession) (retentionUntil now : U64) :
    ∃ out next, appendText w persisted fingerprint split retentionUntil now = .ok (out, next) := by
  have hs : succ? w.nextSeq = some ⟨w.nextSeq.val + 1, by omega⟩ := dif_pos _
  have hs' : succ? ⟨w.nextSeq.val + 1, by omega⟩ = some ⟨w.nextSeq.val + 1 + 1, h⟩ :=
    dif_pos _
  cases persisted with
  | true => simp [appendText, hs, bind, Except.bind, pure, Except.pure]
  | false => simp [appendText, hs, hs', bind, Except.bind, pure, Except.pure]

theorem depth_bare (t d : U64) (e : EvidenceRef) :
    depth (SessionDocument.bare t d e).toValue = 3 := by
  simp [SessionDocument.bare, SessionDocument.toValue, SessionDocument.toMembers, encodeEndpoint,
    encodeU64, SessionClaims.toValue, Claim.toValue, Claim.unknown, ValueMap.toMembers,
    ValueMap.empty, ifSome, depth, depthMembers, depthItems, depth_evidence]

/-- Plain text evidence of the byte `1` comes back from the log. -/
theorem append_replays_plain : ∃ (session s : AttestedSession Sha2.sha256) (out : Bytes),
    session.document = .bare 5 9 (.fromBytes Sha2.sha256 "text/plain" [1]) ∧
    (∃ split next, SplitSession.new Sha2.sha256 session = some split ∧
      appendText ⟨0, false⟩ false "channel" split 7 5 = .ok (out, next)) ∧
    served Sha2.sha256 Reader.strict out 6 session.sessionId = some s ∧
    s.bytes = session.bytes := by
  obtain ⟨session, split, hdoc, hn, hct, -⟩ :=
    exists_split_bare Sha2.sha256 5 9 "text/plain" [1] (by decide)
  obtain ⟨out, next, hout⟩ := exists_appendText (w := ⟨0, false⟩) (by decide) false "channel"
    split 7 5
  have hdepth : depth session.document.toValue ≤ 127 := by
    rw [hdoc, depth_bare]
    omega
  have hrep : replayable split.contentType := by
    rw [hct]
    decide
  obtain ⟨s, hs, -, hb⟩ := (append_replays_iff Reader.strict 6 hn hout
    (lt_max_of_lt_left (by decide))).mpr ⟨hrep, hdepth⟩
  exact ⟨session, s, out, hdoc, ⟨split, next, hn, hout⟩, hs, hb⟩

/-- A comma in the content type: the append succeeds, and every reader loses the session. -/
theorem append_lost_comma : ∃ (session : AttestedSession Sha2.sha256) (out : Bytes),
    session.document = .bare 5 9 (.fromBytes Sha2.sha256 "text/plain,v1" [1]) ∧
    (∃ split next, SplitSession.new Sha2.sha256 session = some split ∧
      appendText ⟨0, false⟩ false "channel" split 7 5 = .ok (out, next)) ∧
    ∀ reader, served Sha2.sha256 reader out 6 session.sessionId = none := by
  obtain ⟨session, split, hdoc, hn, hct, -⟩ :=
    exists_split_bare Sha2.sha256 5 9 "text/plain,v1" [1] (by decide)
  obtain ⟨out, next, hout⟩ := exists_appendText (w := ⟨0, false⟩) (by decide) false "channel"
    split 7 5
  refine ⟨session, out, hdoc, ⟨split, next, hn, hout⟩, ?_⟩
  intro reader
  have hrep : ¬ (replayable split.contentType ∧ depth session.document.toValue ≤ 127) := by
    rw [hct]
    rintro ⟨h, -⟩
    exact absurd h (by decide)
  rw [served, openLog_append hn hout (lt_max_of_lt_left (by decide)), if_neg hrep, get_empty]

end AciGateway.Session
