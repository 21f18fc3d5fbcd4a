import AciGateway.Verify.Appraisal

/-! What an accepted appraisal establishes, and which of its session materials are recognised
as reviewed. -/
namespace AciGateway.Verify

open Octets Json Digest Results Dstack Session Receipt Sha2 HashChain TdxMaterial List

variable {P : Platform} {i : AppraisalInputs} {a : Appraisal} {v : Value}

/-! From the checks to the material. -/

theorem allPassed_iff {results : List CheckResult} : allPassed results ↔
    (∀ id, ∃ r ∈ results, r.id = id) ∧ ∀ r ∈ results, r.passed := by
  have hall : ∀ id, id ∈ CheckId.all := by
    intro id
    cases id <;> decide
  simp only [allPassed, Bool.and_eq_true, all_eq_true, any_eq_true, decide_eq_true_eq]
  exact ⟨fun h => ⟨fun id => h.1 id (hall id), h.2⟩, fun h => ⟨fun id _ => h.1 id, h.2⟩⟩

/-- The material is built from what the checks handed over, and from nothing else. -/
theorem authenticatedSessionMaterial_some {results : List CheckResult}
    {quote : Option VerifiedReport} {provenance : Option MeasuredProvenance}
    {custody : Option VerifiedReceiptCustody} {published : SourceProvenance}
    (h : authenticatedSessionMaterial P results quote provenance custody published = some v) :
    allPassed results ∧ ∃ q p c m appId, quote = some q ∧ provenance = some p ∧
      custody = some c ∧ p.appId = some appId ∧ v = AciServiceMaterial.toValue m ∧
      m.sessionMaterialVersion = "aci-service/1" ∧
      fromQuote P.sha256 q.report = some m.tdx ∧ m.tcbStatus = q.status ∧
      sortedUnique m.advisoryIds ∧ Hex.parse 32 p.composeHash = some m.measuredComposeHash ∧
      m.measuredAppId = hexEncode appId ∧ m.publishedSourceProvenance = published.toMembers ∧
      ReceiptCustody.fromVerified c = some m.receiptKeyCustody := by
  simp only [authenticatedSessionMaterial, guard, Option.bind_eq_bind, Option.bind_eq_some_iff,
    Option.some.injEq] at h
  obtain ⟨_, hpassed, q, rfl, p, rfl, c, rfl, tdx, htdx, hash, hhash, appId, happ, custody, hc,
    rfl⟩ := h
  refine ⟨?_, q, p, c, _, appId, rfl, rfl, rfl, happ, rfl, rfl, htdx, rfl,
    sortedUnique_destutter _, hhash, rfl, rfl, hc⟩
  by_contra hn
  simp [hn] at hpassed

theorem valid_of_fromReport {report : QuoteReport} {m : TdxReportMaterial}
    (h : TdxReportMaterial.fromReport report = some m) : m.valid := by
  cases report with
  | sgxEnclave data => cases h
  | td10 base => cases h; rfl
  | td15 base svn td => cases h; rfl

theorem valid_of_fromQuote {sha256 : Bytes → Bytes} {report : QuoteReport} {m : TdxMaterial}
    (h : fromQuote sha256 report = some m) : m.valid sha256 m.tdxReport.toValue := by
  simp only [fromQuote, Option.bind_eq_bind, Option.bind_eq_some_iff, Option.some.injEq] at h
  obtain ⟨tdx, htdx, digest, hd, rfl⟩ := h
  simp [valid, valid_of_fromReport htdx, hd]

/-- Provenance that is declared is provenance the recogniser can name. -/
theorem namesSource_of_declared {p : SourceProvenance} (h : p.declared.isSome) :
    namesSource p.toMembers := by
  obtain ⟨url, commit, digest, image⟩ := p
  cases url <;> cases commit <;> cases digest <;>
    simp_all [SourceProvenance.declared, namesSource, SourceProvenance.toMembers, isString,
      lookup, encodeOption, Value.asStr?]

/-- What an accepted appraisal established: every check passed on the report, the measured
values come from the log of the quote that was verified, and its bindings from the keyset. -/
structure Established (P : Platform) (i : AppraisalInputs) (a : Appraisal) (v : Value)
    (appId : Bytes) : Prop where
  present : ∀ id, ∃ r ∈ a.results, r.id = id
  passed : ∀ r ∈ a.results, r.passed
  evidence : ∃ raw q b composeHash,
    verifyReportBinding P.sha256 i.report.toAttestationReport i.nonce = .ok b ∧
    a.identity = some b ∧ QuoteVerified P i raw b.reportData q ∧
    Measured P i.report.evidence q.report composeHash (some appId) ∧
    v.get? "measured_compose_hash" = some (.str (hexEncode composeHash)) ∧
    v.get? "measured_app_id" = some (.str (hexEncode appId)) ∧
    ∀ binding ∈ a.channelBindings, ∃ origin pin, binding = .tlsSpkiSha256 origin pin ∧
      ∃ key ∈ b.keyset.tlsPublicKeys, normalizeSha256Hex key.spkiSha256Hex = .ok pin


theorem get?_version (m : AciServiceMaterial) :
    m.toValue.get? "session_material_version" = some (.str m.sessionMaterialVersion) := by
  simp [AciServiceMaterial.toValue, Value.get?]

theorem get?_composeHash (m : AciServiceMaterial) :
    m.toValue.get? "measured_compose_hash" =
      some (.str (hexEncode m.measuredComposeHash.bytes)) := by
  simp [AciServiceMaterial.toValue, Value.get?, lookup, Hex.toValue]

theorem get?_appId (m : AciServiceMaterial) :
    m.toValue.get? "measured_app_id" = some (.str m.measuredAppId) := by
  simp [AciServiceMaterial.toValue, Value.get?, lookup]

/-- An appraisal with material: its checks, what they established, and the profile check. -/
theorem appraiseReport_ok (h : appraiseReport P i = .ok a) (hv : a.sessionMaterial = some v) :
    ∃ appId, Established P i a v appId ∧ (validProfile P.sha256 v ↔ appId ≠ []) ∧
      (v.get? "session_material_version").bind Value.asStr? = some "aci-service/1" := by
  unfold appraiseReport at h
  split at h
  · cases h
  obtain rfl := Except.ok.inj h
  obtain ⟨hall, q, p, c, m, appId, hq, hp, hc, happ, rfl, hversion, htdx, hstatus, hsorted, hhash,
    hid, hpublished, hcustody⟩ := authenticatedSessionMaterial_some hv
  obtain ⟨hpresent, hpassed⟩ := allPassed_iff.mp hall
  have hchecks := hpassed
  simp only [mem_mergeSort, mem_cons, not_mem_nil, or_false, forall_eq_or_imp, forall_eq] at hchecks
  obtain ⟨hquote, hbinding, -, hprovenance, hcustodied, -⟩ := hchecks
  obtain ⟨raw, q', data, hdata, hquote, hverified⟩ := appraiseClaimedQuote_passed hquote
  obtain ⟨b, hb, hbinding⟩ := appraiseBinding_passed hbinding
  obtain ⟨hdeclared, r, p', hr, hp', hmeasure⟩ := appraiseProvenance_passed hprovenance
  obtain ⟨-, -, c', -, -, hc', hnamed⟩ := appraiseCustody_passed hcustodied
  -- What a check handed over is what the material was built from.
  rw [hquote] at hq hr
  obtain rfl := Option.some.inj hq
  obtain rfl := Option.some.inj hr
  obtain rfl := Option.some.inj (hp'.symm.trans hp)
  obtain rfl := Option.some.inj (hc'.symm.trans hc)
  obtain ⟨composeHash, hcompose, hmeasured⟩ := measureProvenance_ok hmeasure
  rw [hcompose] at hhash
  rw [happ] at hmeasured
  have hreported : b.reportData = data :=
    Option.some.inj ((verifyReportBinding_eq_ok.mp hbinding).2.2.2.2.2.2.symm.trans hdata)
  refine ⟨appId, ⟨hpresent, hpassed, raw, _, b, composeHash, hbinding, hb, hreported ▸ hverified,
    hmeasured, ?_, ?_, ?_⟩, ?_, ?_⟩
  · rw [get?_composeHash, Hex.bytes_of_parse hhash]
  · rw [get?_appId, hid]
  · intro binding hmem
    rw [hb] at hmem
    exact mem_appraiseChannel hmem
  · obtain ⟨url, collateral, -, hverify⟩ := hverified.verified
    have hvalid := valid_of_fromQuote htdx
    have hnonempty := P.dcap.status_ne hverify
    have hnames := namesSource_of_declared hdeclared
    simp [validProfile_toValue, hvalid, hstatus, hnonempty, hsorted, hid, hpublished, hnames,
      valid_of_fromVerified hnamed hcustody, lowerHex_hexEncode]
  · rw [get?_version, hversion]
    rfl

theorem sessionMaterial_of_finish {sha256 : Bytes → Bytes} {body : Bytes} {now : Nat}
    {cached : CachedAciServiceVerification} (h : finishVerification sha256 body now a = .ok cached)
    (hv : a.sessionMaterial = some v) : cached.sessionMaterial = some v := by
  unfold finishVerification at h
  split at h
  · cases h
  · simp only [bind_eq_ok, pure_eq_ok] at h
    obtain ⟨_, -, _, -, rfl⟩ := h
    exact hv

/-! Each check passes on evidence that supports it. -/

section Passing

variable {report : QuoteReport} {p : MeasuredProvenance} {policy : AciServiceVerifierPolicy}
  {k : WorkloadKeyset} {c : VerifiedReceiptCustody} {m : Bytes}

theorem appraiseClaimedQuote_of_verified {raw data : Bytes} {url : String} {q : VerifiedReport}
    (hd : decodeHex32 i.report.attestation.reportDataHex = some data)
    (hp : parseQuoteEvidence P i.report.evidence = .ok (raw, report))
    (hb : quoteBindsReportData i.report.evidence report.dcapReportData data = .ok ())
    (hs : i.quote = .online url)
    (hv : verifyQuoteToRoot P raw url i.nowSecs i.report.attestation.teeType = .ok q) :
    appraiseClaimedQuote P i = (pass .quote, some report, some q) := by
  simp [appraiseClaimedQuote, appraiseQuote, hd, hp, hb, hs, hv]

theorem appraiseProvenance_of_measured {declared compose : String}
    (hd : i.report.sourceProvenance.declared = some declared)
    (hc : (i.report.evidence.get? "app_compose").bind Value.asStr? = some compose)
    (hm : measureProvenance P i.report.evidence report = .ok p)
    (ha : acceptsCompose i.acceptedComposes p.composeHash) :
    appraiseProvenance P i (some report) = (pass .provenance, some p) := by
  simp [appraiseProvenance, hd, hc, hm, ha]

theorem appraiseCustody_of_verified (hp : i.custody = .dstackKms policy)
    (hv : verifyDstackKmsReceiptCustody P.secp P.debug i.report.evidence k m policy = .ok c)
    (ha : policy.acceptsMeasured k i.report.sourceProvenance m) :
    appraiseCustody P i (some k) (some m) = (pass .custody, some c) := by
  simp [appraiseCustody, hp, hv, ha]

theorem custodySignature_of_hex {chain : List Value} {n : Nat}
    (h : chain[n]? = some (.str (hexEncode m))) : custodySignature chain n = .ok m := by
  simp [custodySignature, h, Value.asStr?, decodeHex, okOr, bind, Except.bind, Except.mapError]

theorem custodyField_of_str {receipt : Value} {name text : String}
    (h : receipt.get? name = some (.str text)) : custodyField receipt name = .ok text := by
  simp [custodyField, h, Value.asStr?]

end Passing

/-! A service with any app-id, and libraries that accept its evidence. -/

namespace Sample

def zeros (n : Nat) : Hex n := ⟨List.replicate n 0, List.length_replicate⟩

def secp : Secp256k1 where
  Key := Unit
  fromEncodedPoint _ := .ok ()
  recoverFromDigest _ _ _ := .ok ()
  toSec1Bytes _ := ⟨2 :: List.replicate 32 0, rfl⟩
  compressed _ := rfl

def dcap (report : QuoteReport) : Dcap where
  Collateral := Unit
  parse _ := .ok report
  verify _ _ _ := .ok ⟨"UpToDate", report, []⟩
  parses h := by cases h; rfl
  status_ne h := by cases h; simp

def composeHash : Bytes := sha256 (utf8 "app")

def digests (appId : Bytes) : List Bytes :=
  [sha384 (runtimePreimage "compose-hash" composeHash), sha384 (runtimePreimage "app-id" appId)]

def events (appId : Bytes) : List DstackEventLog :=
  [runtimeEvent "compose-hash" composeHash, runtimeEvent "app-id" appId]

def base (appId statement : Bytes) : TdReport where
  teeTcbSvn := zeros 16
  mrSeam := zeros 48
  mrSignerSeam := zeros 48
  seamAttributes := zeros 8
  tdAttributes := zeros 8
  xfam := zeros 8
  mrTd := zeros 48
  mrConfigId := zeros 48
  mrOwner := zeros 48
  mrOwnerConfig := zeros 48
  rtMr0 := zeros 48
  rtMr1 := zeros 48
  rtMr2 := zeros 48
  rtMr3 := ⟨chain sha384 zeroRegister (digests appId), length_chain length_sha384 rfl⟩
  reportData := ⟨reportDataSlot (sha256 statement), by simp [reportDataSlot]⟩

def quoteReport (appId statement : Bytes) : QuoteReport := .td10 (base appId statement)

def platform (appId statement : Bytes) : Platform where
  sha256 := sha256
  sha384 := sha384
  fromStr := fromStr
  hostStr _ := .ok none
  debug s := s
  secp := secp
  dcap := dcap (quoteReport appId statement)
  getCollateral _ _ := .ok ()

def publicKey : String := hexEncode (List.replicate 32 17)
def spki : String := hexEncode (List.replicate 32 170)
def rootKey : String := hexEncode (2 :: List.replicate 32 0)
def signature : Value := .str (hexEncode (List.replicate 65 0))
def nonce : String := hexEncode (List.replicate 32 0)

def keyset : WorkloadKeyset :=
  ⟨none, 2000000000, [⟨"r1", "ed25519", publicKey⟩], [], [⟨spki, none⟩]⟩

def keysetValue : Value :=
  .obj [("subject", .null), ("not_after", .num (.posInt 2000000000)),
    ("receipt_signing_keys", .arr [.obj [("key_id", .str "r1"), ("algo", .str "ed25519"),
      ("public_key", .str publicKey)]]),
    ("e2ee_public_keys", .arr []), ("tls_public_keys", .arr [.obj [("spki_sha256", .str spki)]])]

def receiptEntry : Value :=
  .obj [("role", .str "receipt"), ("public_key", .str publicKey),
    ("purpose", .str "aci.receipt.ed25519.v1"), ("kms_public_key", .str rootKey),
    ("signature_chain", .arr [signature, signature])]

def custody : Value := .obj [("provider", .str "dstack-kms"), ("keys", .arr [receiptEntry])]

def verified : VerifiedReceiptCustody :=
  ⟨"dstack-kms", publicKey, "aci.receipt.ed25519.v1", rootKey, rootKey, rootKey⟩

def evidence (log : String) : Value :=
  .obj [("quote", .str ""), ("event_log", .str log), ("app_compose", .str "app"),
    ("key_custody", custody)]

def policy : AciServiceVerifierPolicy := ⟨[], ["img"], [rootKey]⟩

def inputs (log : String) (jcs statement : Bytes) : AppraisalInputs where
  report := { boundReport sha256 keysetValue jcs statement with
    sourceProvenance := ⟨none, none, some "img", none⟩
    evidence := evidence log }
  nonce := some nonce
  nowSecs := 1000
  expiryWaived := false
  quote := .online "https://pccs.example"
  acceptedComposes := []
  custody := .dstackKms policy
  channel := .declaredFor "https://up.example"

theorem compressed_rootKey : compressedK256PublicKeyHex secp rootKey = .ok rootKey := by
  simp [compressedK256PublicKeyHex, rootKey, decodeHex, secp, bind, Except.bind, pure,
    Except.pure, Except.mapError]

theorem new_policy : AciServiceVerifierPolicy.new secp [] ["img"] [rootKey] = .ok policy := by
  simp [AciServiceVerifierPolicy.new, compressed_rootKey, bind, Except.bind, pure, Except.pure,
    Except.mapError, ensure, policy]

variable {appId jcs t : Bytes} {log : String}

theorem measured_events (appId : Bytes) :
    measuredPayload (events appId) "compose-hash" = .ok composeHash ∧
      measuredPayload (events appId) "app-id" = .ok appId := by
  have hname : ∀ n p m, isRuntimeEvent n (runtimeEvent m p) = decide (m = n) := by
    simp [isRuntimeEvent, runtimeEvent]
  refine ⟨measuredPayload_ok.mpr ⟨runtimeEvent "compose-hash" composeHash, ?_, ?_⟩,
    measuredPayload_ok.mpr ⟨runtimeEvent "app-id" appId, ?_, ?_⟩⟩
  · simp [dstackRtmr3Event, events, hname]
  · simp [decodeHex, runtimeEvent]
  · simp [dstackRtmr3Event, events, hname]
  · simp [decodeHex, runtimeEvent]

theorem verify_events (hlog : fromStr log = some (events appId)) :
    verifyDstackEventLog sha384 fromStr (evidence log)
      (some (chain sha384 zeroRegister (digests appId))) = .ok (events appId) := by
  have hall : (events appId).filter (fun e => e.imr = 3) = events appId := by
    simp [events, runtimeEvent]
  refine verify_ok_iff.mpr ⟨⟨log, rfl, hlog⟩,
    replay_ok_iff.mpr ⟨length_chain length_sha384 rfl, digests appId, ?_, rfl⟩⟩
  rw [hall]
  simp [events, digests, extendedDigest_runtimeEvent length_sha384]

theorem quote_passes (log : String) (appId jcs t : Bytes) :
    appraiseClaimedQuote (platform appId t) (inputs log jcs t) =
      (pass .quote, some (quoteReport appId t), some ⟨"UpToDate", quoteReport appId t, []⟩) := by
  have hdata : decodeHex32 (inputs log jcs t).report.attestation.reportDataHex =
      some (sha256 t) := by
    simp [inputs, boundReport, decodeHex32]
  have hslot : quoteBindsReportData (evidence log) (quoteReport appId t).dcapReportData
      (sha256 t) = .ok () := by
    simp only [quoteBindsReportData, bind_eq_ok, ensure_eq_ok]
    exact ⟨(), rfl, rfl⟩
  exact appraiseClaimedQuote_of_verified hdata
    (show parseQuoteEvidence (platform appId t) (evidence log) = .ok ([], _) from rfl) hslot rfl rfl

theorem measure_evidence (hlog : fromStr log = some (events appId)) :
    measureProvenance (platform appId t) (evidence log) (quoteReport appId t) =
      .ok ⟨hexEncode composeHash, some appId⟩ := by
  have hcompose : verifyDstackAppCompose sha256 (evidence log) composeHash = .ok () := by
    simp [verifyDstackAppCompose, evidence, Value.get?, lookup, Value.asStr?, composeHash,
      pure, Except.pure]
  have hmeasured : verifyDstackComposeMeasurement sha256 (evidence log) (events appId) =
      .ok (hexEncode composeHash) := by
    have hlen : composeHash.length = 32 := length_sha256 _
    simp [verifyDstackComposeMeasurement, (measured_events appId).1, hlen, hcompose, bind,
      Except.bind, pure, Except.pure]
  simp only [measureProvenance, bind_eq_ok, pure_eq_ok]
  refine ⟨_, verify_events hlog, _, hmeasured, ?_⟩
  simp [dstackAppId, (measured_events appId).2, Except.toOption]

theorem provenance_passes (hlog : fromStr log = some (events appId)) :
    appraiseProvenance (platform appId t) (inputs log jcs t) (some (quoteReport appId t)) =
      (pass .provenance, some ⟨hexEncode composeHash, some appId⟩) :=
  appraiseProvenance_of_measured rfl rfl (measure_evidence hlog) rfl

theorem custody_verifies (log : String) (appId : Bytes) :
    verifyKmsReceiptCustody secp (fun s => s) (evidence log) keyset appId = .ok verified := by
  have hr : receiptCustody (evidence log) = .ok ("dstack-kms", receiptEntry) := rfl
  have hrecover : ∀ m, recoverK256PublicKey secp m (replicate 65 0) = .ok () := fun _ => rfl
  simp only [verifyKmsReceiptCustody, bind_eq_ok, ensure_eq_ok, pure_eq_ok, mapError_eq_ok,
    okOr_eq_ok, Prod.exists]
  refine ⟨_, _, hr, _, custodyField_of_str rfl, (), ?_, _, custodyField_of_str rfl, _,
    custodyField_of_str rfl, (), rfl, _, rfl, (), rfl, _, custodySignature_of_hex rfl, _,
    custodySignature_of_hex rfl, _, compressed_rootKey, _, hrecover _, _, hrecover _,
    replicate 32 17, ?_, rfl⟩
  · simp [keyset]
  · simp [decodeHex, publicKey]

theorem custody_passes (log : String) (appId jcs t : Bytes) :
    appraiseCustody (platform appId t) (inputs log jcs t) (some keyset) (some appId) =
      (pass .custody, some verified) :=
  appraiseCustody_of_verified rfl
    (verifyDstackKms_ok.mpr ⟨custody_verifies log appId, by simp [policy, verified]⟩) rfl

theorem channel_passes (log : String) (appId jcs t : Bytes) :
    appraiseChannel (platform appId t) (inputs log jcs t) (some keyset) =
      (pass .channel, [.tlsSpkiSha256 "https://up.example" spki]) := by
  have hspki : keySpki ⟨spki, none⟩ = .ok spki := by
    simp [keySpki, spki, normalizeSha256Hex_hexEncode]
  have hd : declaredTlsChannelBindings (platform appId t) keyset (evidence log)
      "https://up.example" = .ok [.tlsSpkiSha256 "https://up.example" spki] := by
    simp [declaredTlsChannelBindings, declaredTlsPins, keyset, hspki, ensure, bind, Except.bind,
      pure, Except.pure]
  have hi : (inputs log jcs t).channel = .declaredFor "https://up.example" := rfl
  have he : (inputs log jcs t).report.evidence = evidence log := rfl
  simp [appraiseChannel, hi, he, hd]

theorem binding_passes {log : String} {appId jcs t : Bytes} (hjcs : jcsBytes keysetValue = .ok jcs)
    (ht : attestationStatement ("sha256:" ++ hexEncode (sha256 jcs)) (some nonce) = .ok t) :
    appraiseBinding (platform appId t) (inputs log jcs t) = (pass .binding,
      some ⟨"sha256:" ++ hexEncode (sha256 jcs), keyset, sha256 t, t, jcs⟩) := by
  have hb := verify_boundReport sha256 length_sha256 hjcs
    (show decodeWorkloadKeyset keysetValue = some keyset from rfl) ht
  have hp : (platform appId t).sha256 = sha256 := rfl
  have hr : (inputs log jcs t).report.toAttestationReport =
    boundReport sha256 keysetValue jcs t := rfl
  have hn : (inputs log jcs t).nonce = some nonce := rfl
  simp only [appraiseBinding, hp, hr, hn, hb]

def results : List CheckResult :=
  [pass .quote, pass .binding, pass .expiry, pass .provenance, pass .custody, pass .channel]

theorem mergeSort_results : results.mergeSort (fun r s => r.id.rank ≤ s.id.rank) = results := by
  apply mergeSort_of_pairwise
  simp [results, pass, CheckId.rank]

theorem material (appId t : Bytes) : ∃ v, authenticatedSessionMaterial (platform appId t) results
    (some ⟨"UpToDate", quoteReport appId t, []⟩) (some ⟨hexEncode composeHash, some appId⟩)
    (some verified) ⟨none, none, some "img", none⟩ = some v := by
  obtain ⟨jcs, hjcs⟩ := jcsBytes_of_canonical (v := (TdxReportMaterial.ofBase
    (base appId t) .td10 none none).toValue) rfl
  have htdx : fromQuote sha256 (quoteReport appId t) = some
      ⟨.ofBase (base appId t) .td10 none none, sha256Hex sha256 jcs⟩ := by
    simp [fromQuote, quoteReport, TdxReportMaterial.fromReport, reportDigest, hjcs]
  have hhash := Hex.parse_hexEncode (length_sha256 (utf8 "app")) (by decide)
  have hcustody : ReceiptCustody.fromVerified verified = some ⟨"dstack-kms",
      "aci.receipt.ed25519.v1", ⟨replicate 32 17, rfl⟩, ⟨2 :: replicate 32 0, rfl⟩,
      ⟨2 :: replicate 32 0, rfl⟩, ⟨2 :: replicate 32 0, rfl⟩⟩ := by
    rfl
  have hpassed : allPassed results := rfl
  have hsha : (platform appId t).sha256 = sha256 := rfl
  simp [authenticatedSessionMaterial, hpassed, hsha, htdx, composeHash, hhash, hcustody]

/-- Whatever app-id was measured, the service is appraised with material. -/
theorem exists_appraisal (appId : Bytes) : ∃ P i a v cached,
    (∃ url, i.quote = .online url) ∧ i.custody = .dstackKms policy ∧
    AciServiceVerifierPolicy.new P.secp [] ["img"] [rootKey] = .ok policy ∧
    appraiseReport P i = .ok a ∧ a.sessionMaterial = some v ∧
    finishVerification P.sha256 [] 1000 a = .ok cached ∧
    v.get? "measured_app_id" = some (.str (hexEncode appId)) := by
  obtain ⟨log, hlog⟩ := exists_text (events appId)
  obtain ⟨jcs, hjcs⟩ := jcsBytes_of_canonical (v := keysetValue) rfl
  obtain ⟨t, ht⟩ := exists_statement sha256 length_sha256 jcs (some nonce) rfl
  obtain ⟨v, hv⟩ := material appId t
  have hquote := quote_passes log appId jcs t
  have hbinding : appraiseBinding (platform appId t) (inputs log jcs t) = _ :=
    binding_passes hjcs ht
  have hexpiry : appraiseExpiry (inputs log jcs t) (some keyset) = pass .expiry := rfl
  have hprovenance : appraiseProvenance (platform appId t) (inputs log jcs t)
      (some (quoteReport appId t)) = _ := provenance_passes hlog
  have ha : appraiseReport (platform appId t) (inputs log jcs t) = .ok {
      results := results
      identity := some ⟨"sha256:" ++ hexEncode (sha256 jcs), keyset, sha256 t, t, jcs⟩
      channelBindings := [.tlsSpkiSha256 "https://up.example" spki]
      sessionMaterial := some v } := by
    have hversion : (inputs log jcs t).report.apiVersion = "aci/1" := rfl
    have hsource : (inputs log jcs t).report.sourceProvenance =
      ⟨none, none, some "img", none⟩ := rfl
    simp only [appraiseReport, hversion, hquote, hbinding, Option.map_some, hexpiry, hprovenance,
      Option.bind_some, custody_passes, channel_passes, hsource]
    rw [show [pass .quote, pass .binding, pass .expiry, pass .provenance, pass .custody,
      pass .channel] = results from rfl, mergeSort_results, hv]
    rfl
  refine ⟨_, _, _, v, _, ⟨_, rfl⟩, rfl, new_policy, ha, rfl, rfl, ?_⟩
  obtain ⟨-, _, _, _, m, _, -, hp, -, happ, rfl, -, -, -, -, -, hid, -⟩ :=
    authenticatedSessionMaterial_some hv
  cases hp
  cases happ
  rw [get?_appId, hid]

end Sample

theorem get?_appId_inj {appId appId' : Bytes}
    (h : v.get? "measured_app_id" = some (.str (hexEncode appId)))
    (h' : v.get? "measured_app_id" = some (.str (hexEncode appId'))) : appId = appId' := by
  rw [h, Option.some.injEq, Value.str.injEq, hexEncode_inj] at h'
  exact h'

/-- An accepted appraisal is sound, and the session it leads to is recognised as reviewed
exactly when the measured app-id is not empty. -/
theorem appraisal_sound (h : appraiseReport P i = .ok a) (hv : a.sessionMaterial = some v) :
    ∃ appId, Established P i a v appId ∧
      ∀ body now cached request, finishVerification P.sha256 body now a = .ok cached →
        cached.sessionMaterial = some v ∧
        (reviewedSessionMaterial P.sha256 (cached.eventFor request "aci-service/v2") v ↔
          appId ≠ []) := by
  obtain ⟨appId, hest, hprofile, hversion⟩ := appraiseReport_ok h hv
  refine ⟨appId, hest, ?_⟩
  intro body now cached request hf
  refine ⟨sessionMaterial_of_finish hf hv, ?_⟩
  simp [reviewedSessionMaterial, CachedAciServiceVerification.eventFor, hversion, hprofile]

theorem appraisal_sound_measured : ∃ P i a v cached,
    appraiseReport P i = .ok a ∧ a.sessionMaterial = some v ∧
    finishVerification P.sha256 [] 1000 a = .ok cached ∧ Established P i a v [4] ∧
    ∀ request,
      reviewedSessionMaterial P.sha256 (cached.eventFor request "aci-service/v2") v := by
  obtain ⟨P, i, a, v, cached, -, -, -, ha, hv, hf, happ⟩ := Sample.exists_appraisal [4]
  obtain ⟨appId, hest, hreviewed⟩ := appraisal_sound ha hv
  obtain ⟨-, -, -, -, -, -, -, -, -, happ', -⟩ := hest.evidence
  obtain rfl := get?_appId_inj happ happ'
  refine ⟨P, i, a, v, cached, ha, hv, hf, hest, ?_⟩
  intro request
  exact (hreviewed [] 1000 cached request hf).2.mpr (by simp)

/-- An event log may measure an empty app-id. The appraisal accepts it, and the material it
records is not recognised. -/
theorem unreviewed_material : ∃ P i policy a v cached,
    (∃ url, i.quote = .online url) ∧ i.custody = .dstackKms policy ∧
    AciServiceVerifierPolicy.new P.secp [] ["img"] [Sample.rootKey] = .ok policy ∧
    appraiseReport P i = .ok a ∧ a.sessionMaterial = some v ∧
    finishVerification P.sha256 [] 1000 a = .ok cached ∧ cached.sessionMaterial = some v ∧
    ∀ request,
      reviewedSessionMaterial P.sha256 (cached.eventFor request "aci-service/v2") v = false := by
  obtain ⟨P, i, a, v, cached, hquote, hcustody, hnew, ha, hv, hf, happ⟩ :=
    Sample.exists_appraisal []
  obtain ⟨appId, hest, hprofile, -⟩ := appraiseReport_ok ha hv
  obtain ⟨-, -, -, -, -, -, -, -, -, happ', -⟩ := hest.evidence
  obtain rfl := get?_appId_inj happ happ'
  refine ⟨P, i, _, a, v, cached, hquote, hcustody, hnew, ha, hv, hf,
    sessionMaterial_of_finish hf hv, ?_⟩
  have hn : validProfile P.sha256 v = false := by simpa using hprofile
  simp [reviewedSessionMaterial, hn]

end AciGateway.Verify
