import AciGateway.Verify.Cache
import AciGateway.Verify.Channel
import AciGateway.Verify.Custody

/-! The appraisal of an attestation report: its six checks, and the session material that is
recorded once all of them have passed. -/
namespace AciGateway.Verify

open Octets Json Digest Results Dstack Session Receipt

/-- The measurements of a TDX quote. -/
structure TdReport where
  teeTcbSvn : Hex 16
  mrSeam : Hex 48
  mrSignerSeam : Hex 48
  seamAttributes : Hex 8
  tdAttributes : Hex 8
  xfam : Hex 8
  mrTd : Hex 48
  mrConfigId : Hex 48
  mrOwner : Hex 48
  mrOwnerConfig : Hex 48
  rtMr0 : Hex 48
  rtMr1 : Hex 48
  rtMr2 : Hex 48
  rtMr3 : Hex 48
  reportData : Hex 64

inductive QuoteReport where
  | sgxEnclave (reportData : Hex 64)
  | td10 (base : TdReport)
  | td15 (base : TdReport) (teeTcbSvn2 : Hex 16) (mrServiceTd : Hex 48)

namespace QuoteReport

def isSgx : QuoteReport → Bool
  | sgxEnclave _ => true
  | _ => false

def dcapReportData : QuoteReport → Bytes
  | sgxEnclave data => data.bytes
  | td10 base => base.reportData.bytes
  | td15 base _ _ => base.reportData.bytes

def dcapRtmr3 : QuoteReport → Option Bytes
  | sgxEnclave _ => none
  | td10 base => some base.rtMr3.bytes
  | td15 base _ _ => some base.rtMr3.bytes

end QuoteReport

structure VerifiedReport where
  status : String
  report : QuoteReport
  advisoryIds : List String

/-- The DCAP library. A quote that verifies to the vendor root parses to the report it
verified, and is given a TCB status. -/
structure Dcap where
  Collateral : Type
  parse : Bytes → Except String QuoteReport
  verify : Bytes → Collateral → Nat → Except String VerifiedReport
  parses : ∀ {raw collateral now v}, verify raw collateral now = .ok v → parse raw = .ok v.report
  status_ne : ∀ {raw collateral now v}, verify raw collateral now = .ok v → v.status ≠ ""

/-- What the appraisal takes from its libraries and its surroundings. -/
structure Platform where
  sha256 : Bytes → Bytes
  sha384 : Bytes → Bytes
  fromStr : String → Option (List DstackEventLog)
  hostStr : String → Except String (Option String)
  debug : String → String
  secp : Secp256k1
  dcap : Dcap
  getCollateral : String → Bytes → Except String dcap.Collateral

/-- A report with the provenance and the evidence it is appraised on. -/
structure EvidencedReport extends AttestationReport where
  sourceProvenance : SourceProvenance
  evidence : Value

inductive QuoteStepError where
  | missingQuote
  | invalidQuoteHex (value : String)
  | unparsableQuote (message : String)
  | invalidEvidenceReportDataHex (value : String)
  | evidenceReportDataMismatch
  | reportDataSlotMismatch (slot : String)
  | collateral (url reason : String)
  | verification (message : String)
  | teeTypeMismatch (reported verified : String)

inductive CheckId where
  | quote
  | binding
  | expiry
  | provenance
  | custody
  | channel
  deriving DecidableEq

def CheckId.all : List CheckId := [.quote, .binding, .expiry, .provenance, .custody, .channel]

/-- The place of a check in the specification's order. -/
def CheckId.rank : CheckId → Nat
  | quote => 0
  | binding => 1
  | expiry => 2
  | provenance => 3
  | custody => 4
  | channel => 5

inductive FailureCause where
  | binding (e : AciReportValidationError)
  | quote (e : QuoteStepError)
  | expired (now notAfter : Nat)
  | provenance (message : String)
  | evidence (e : EventLogError)
  | custody (e : KeyCustodyError)
  | policy (message : String)
  | declared (e : ChannelBindingError)
  | channel (message : String)
  | notReached (why : String)

inductive Outcome where
  | pass
  | failed (cause : FailureCause)
  | unevaluable (why : String)

structure CheckResult where
  id : CheckId
  outcome : Outcome

def CheckResult.passed (r : CheckResult) : Bool :=
  match r.outcome with
  | .pass => true
  | _ => false

def pass (id : CheckId) : CheckResult := ⟨id, .pass⟩
def failed (id : CheckId) (cause : FailureCause) : CheckResult := ⟨id, .failed cause⟩
def unevaluable (id : CheckId) (why : String) : CheckResult := ⟨id, .unevaluable why⟩
def unreached (id : CheckId) (why : String) : CheckResult := failed id (.notReached why)

inductive QuoteSource where
  | online (pccsUrl : String)
  | offline (reason : String)

inductive CustodyEvidence where
  | dstackKms (policy : AciServiceVerifierPolicy)
  | unimplemented (reason : String)

inductive ChannelEvidence where
  | observed (host spkiSha256 : String)
  | declaredFor (origin : String)
  | unobservable (reason : String)
  | notObserved (reason : String)

structure AppraisalInputs where
  report : EvidencedReport
  nonce : Option String
  nowSecs : Nat
  expiryWaived : Bool
  quote : QuoteSource
  acceptedComposes : List String
  custody : CustodyEvidence
  channel : ChannelEvidence

structure MeasuredProvenance where
  composeHash : String
  appId : Option Bytes

structure Appraisal where
  results : List CheckResult
  identity : Option Verify.ReportBinding
  channelBindings : List ChannelBinding
  sessionMaterial : Option Value

section

variable (P : Platform)

def parseQuoteEvidence (evidence : Value) : Except QuoteStepError (Bytes × QuoteReport) := do
  let quoteHex ← okOr ((evidence.get? "quote").bind Value.asStr?) .missingQuote
  let raw ← (decodeHex quoteHex).mapError (fun _ => .invalidQuoteHex quoteHex)
  let report ← (P.dcap.parse raw).mapError .unparsableQuote
  pure (raw, report)

/-- A published copy of the slot must be the slot of the quote. -/
def checkPublishedSlot (evidence : Value) (slot : Bytes) : Except QuoteStepError Unit :=
  match (evidence.get? "quote_report_data").bind Value.asStr? with
  | none => .ok ()
  | some published => do
    let bytes ← (decodeHex published).mapError (fun _ => .invalidEvidenceReportDataHex published)
    ensure (bytes = slot) .evidenceReportDataMismatch

def quoteBindsReportData (evidence : Value) (slot reportData : Bytes) :
    Except QuoteStepError Unit := do
  checkPublishedSlot evidence slot
  ensure (slot = reportDataSlot reportData) (.reportDataSlotMismatch (hexEncode slot))

def teeType (report : QuoteReport) : String := if report.isSgx then "sgx" else "tdx"

def verifyQuoteToRoot (raw : Bytes) (pccsUrl : String) (nowSecs : Nat) (claimedTeeType : String) :
    Except QuoteStepError VerifiedReport := do
  let collateral ← (P.getCollateral pccsUrl raw).mapError (.collateral pccsUrl)
  let verified ← (P.dcap.verify raw collateral nowSecs).mapError .verification
  ensure (claimedTeeType = teeType verified.report)
    (.teeTypeMismatch claimedTeeType (teeType verified.report))
  pure verified

def appraiseQuote (i : AppraisalInputs) (claimed : Bytes) :
    CheckResult × Option QuoteReport × Option VerifiedReport :=
  match parseQuoteEvidence P i.report.evidence with
  | .error e => (failed .quote (.quote e), none, none)
  | .ok (raw, report) =>
    match quoteBindsReportData i.report.evidence report.dcapReportData claimed with
    | .error e => (failed .quote (.quote e), some report, none)
    | .ok () =>
      match i.quote with
      | .offline reason => (unevaluable .quote reason, some report, none)
      | .online pccsUrl =>
        match verifyQuoteToRoot P raw pccsUrl i.nowSecs i.report.attestation.teeType with
        | .ok verified => (pass .quote, some report, some verified)
        | .error e => (failed .quote (.quote e), some report, none)

def appraiseClaimedQuote (i : AppraisalInputs) :
    CheckResult × Option QuoteReport × Option VerifiedReport :=
  match decodeHex32 i.report.attestation.reportDataHex with
  | some claimed => appraiseQuote P i claimed
  | none => (failed .quote (.quote (.invalidQuoteHex i.report.attestation.reportDataHex)),
      none, none)

/-- A report bound without a nonce is bound, but not known to be fresh. -/
def appraiseBinding (i : AppraisalInputs) : CheckResult × Option Verify.ReportBinding :=
  match verifyReportBinding P.sha256 i.report.toAttestationReport i.nonce with
  | .error e => (failed .binding (.binding e), none)
  | .ok binding =>
    match i.nonce with
    | some _ => (pass .binding, some binding)
    | none => (unevaluable .binding "binding shown, freshness not established", some binding)

def appraiseExpiry (i : AppraisalInputs) : Option WorkloadKeyset → CheckResult
  | none => unreached .expiry "no decoded keyset to read not_after from (see the binding check)"
  | some keyset =>
    if i.expiryWaived then unevaluable .expiry "expiry not enforced"
    else if keyset.isExpiredAt i.nowSecs then
      failed .expiry (.expired i.nowSecs keyset.notAfter.val)
    else pass .expiry

/-- The provenance as it is named in messages; `none` if there is no acceptable one. -/
def SourceProvenance.declared (p : SourceProvenance) : Option String :=
  match p.repoUrl, p.repoCommit, p.imageDigest with
  | some url, some commit, _ => some ("repo=" ++ url ++ " commit=" ++ commit)
  | _, _, some digest => some ("image_digest=" ++ digest)
  | _, _, _ => none

/-- What to say of a provenance that no measurement backs. -/
def unmeasured (source : QuoteSource) (declared : String) : CheckResult :=
  match source with
  | .online _ => failed .provenance (.provenance
      ("no measurement backs the declared provenance (" ++ declared ++
        "): the service publishes no app_compose (spec 9.1(4), spec 4.1)"))
  | .offline _ => unevaluable .provenance "no app_compose"

/-- The compose hash and the app-id, from a log that replays to the quote's RTMR3. -/
def measureProvenance (evidence : Value) (report : QuoteReport) :
    Except EventLogError MeasuredProvenance := do
  let events ← verifyDstackEventLog P.sha384 P.fromStr evidence report.dcapRtmr3
  let measured ← verifyDstackComposeMeasurement P.sha256 evidence events
  pure ⟨measured, (dstackAppId events).toOption⟩

def acceptsCompose (accepted : List String) (measured : String) : Bool :=
  accepted.isEmpty || accepted.any (fun a => Text.eqIgnoreAsciiCase a measured)

def appraiseProvenance (i : AppraisalInputs) (quoteReport : Option QuoteReport) :
    CheckResult × Option MeasuredProvenance :=
  match i.report.sourceProvenance.declared with
  | none => (failed .provenance
      (.provenance "the report declares no source provenance (spec 4.1)"), none)
  | some declared =>
    match (i.report.evidence.get? "app_compose").bind Value.asStr?, quoteReport with
    | some _, some report =>
      match measureProvenance P i.report.evidence report with
      | .error e => (failed .provenance (.evidence e), none)
      | .ok measured =>
        if acceptsCompose i.acceptedComposes measured.composeHash then
          (pass .provenance, some measured)
        else (failed .provenance (.policy ("measured compose-hash=" ++ measured.composeHash ++
          " is not in the accepted list")), none)
    | _, _ => (unmeasured i.quote declared, none)

def subjectText (keyset : WorkloadKeyset) : String := keyset.subject.getD "null"

def appraiseCustody (i : AppraisalInputs) (keyset : Option WorkloadKeyset)
    (appId : Option Bytes) : CheckResult × Option VerifiedReceiptCustody :=
  match i.custody, keyset, appId with
  | .unimplemented _, _, _ => (unevaluable .custody "custody policy not implemented", none)
  | .dstackKms _, none, _ =>
    (unreached .custody "no established keyset to check custody for", none)
  | .dstackKms _, some _, none => (unreached .custody
      "the measured app-id the custody chain anchors on was never established", none)
  | .dstackKms policy, some keyset, some appId =>
    match verifyDstackKmsReceiptCustody P.secp P.debug i.report.evidence keyset appId policy with
    | .error e => (failed .custody (.custody e), none)
    | .ok custody =>
      if policy.acceptsMeasured keyset i.report.sourceProvenance appId then
        (pass .custody, some custody)
      else (failed .custody (.policy ("subject " ++ subjectText keyset ++
        " is not acceptable to the verifier policy")), none)

def declaredTlsChannelBindings (keyset : WorkloadKeyset) (evidence : Value) (origin : String) :
    Except ChannelBindingError (List ChannelBinding) := do
  let pins ← declaredTlsPins P.hostStr P.debug keyset evidence origin
  pure (pins.map (.tlsSpkiSha256 origin))

def observedChannel (keyset : WorkloadKeyset) (host spki : String) : CheckResult :=
  let host := E2ee.toAsciiLowercase host
  let observed := E2ee.toAsciiLowercase spki
  let candidates := (keyset.tlsKeysForHost host).map TlsSpki.spkiSha256Hex
  if candidates.any (fun c => Text.eqIgnoreAsciiCase c observed) then pass .channel
  else if candidates.isEmpty then
    failed .channel (.channel (
      if keyset.tlsPublicKeys.isEmpty then "the keyset publishes no TLS role"
      else "no attested TLS key is scoped to " ++ host))
  else failed .channel (.channel ("observed SPKI " ++ observed ++ " is not attested"))

def unreachedChannel : CheckResult :=
  unreached .channel "no decoded keyset to match the channel against (see the binding check)"

def appraiseChannel (i : AppraisalInputs) (keyset : Option WorkloadKeyset) :
    CheckResult × List ChannelBinding :=
  match i.channel, keyset with
  | .unobservable _, _ => (unevaluable .channel "no live channel to bind", [])
  | .notObserved reason, _ => (failed .channel (.channel reason), [])
  | .observed _ _, none => (unreachedChannel, [])
  | .declaredFor _, none => (unreachedChannel, [])
  | .observed host spki, some keyset => (observedChannel keyset host spki, [])
  | .declaredFor origin, some keyset =>
    match declaredTlsChannelBindings P keyset i.report.evidence origin with
    | .ok bindings => (pass .channel, bindings)
    | .error e => (failed .channel (.declared e), [])

def TdxReportMaterial.ofBase (base : TdReport) (format : TdxReportFormat)
    (teeTcbSvn2 : Option (Hex 16)) (mrServiceTd : Option (Hex 48)) : TdxReportMaterial where
  reportFormat := format
  teeTcbSvn := base.teeTcbSvn
  mrSeam := base.mrSeam
  mrSignerSeam := base.mrSignerSeam
  seamAttributes := base.seamAttributes
  tdAttributes := base.tdAttributes
  xfam := base.xfam
  mrTd := base.mrTd
  mrConfigId := base.mrConfigId
  mrOwner := base.mrOwner
  mrOwnerConfig := base.mrOwnerConfig
  rtMr0 := base.rtMr0
  rtMr1 := base.rtMr1
  rtMr2 := base.rtMr2
  rtMr3 := base.rtMr3
  teeTcbSvn2 := teeTcbSvn2
  mrServiceTd := mrServiceTd

def TdxReportMaterial.fromReport : QuoteReport → Option TdxReportMaterial
  | .sgxEnclave _ => none
  | .td10 base => some (.ofBase base .td10 none none)
  | .td15 base svn td => some (.ofBase base .td15 (some svn) (some td))

def TdxMaterial.fromQuote (sha256 : Bytes → Bytes) (report : QuoteReport) : Option TdxMaterial := do
  let tdxReport ← TdxReportMaterial.fromReport report
  let tdxReportSha256 ← reportDigest sha256 tdxReport.toValue
  some { tdxReport, tdxReportSha256 }

def allPassed (results : List CheckResult) : Bool :=
  CheckId.all.all (fun id => results.any (fun r => r.id = id)) && results.all CheckResult.passed

def authenticatedSessionMaterial (results : List CheckResult) (quote : Option VerifiedReport)
    (provenance : Option MeasuredProvenance) (custody : Option VerifiedReceiptCustody)
    (published : SourceProvenance) : Option Value := do
  guard (allPassed results)
  let quote ← quote
  let provenance ← provenance
  let custody ← custody
  let tdx ← TdxMaterial.fromQuote P.sha256 quote.report
  let composeHash ← Hex.parse 32 provenance.composeHash
  let appId ← provenance.appId
  let receiptKeyCustody ← ReceiptCustody.fromVerified custody
  some (AciServiceMaterial.toValue {
    sessionMaterialVersion := "aci-service/1"
    tdx
    tcbStatus := quote.status
    advisoryIds := (quote.advisoryIds.mergeSort (fun a b => a ≤ b)).destutter (· ≠ ·)
    measuredComposeHash := composeHash
    measuredAppId := hexEncode appId
    publishedSourceProvenance := published.toMembers
    receiptKeyCustody })

def appraiseReport (i : AppraisalInputs) : Except String Appraisal :=
  if i.report.apiVersion ≠ "aci/1" then
    .error ("unsupported ACI api_version " ++ P.debug i.report.apiVersion ++
      " (expected \"aci/1\")")
  else
    let quote := appraiseClaimedQuote P i
    let binding := appraiseBinding P i
    let keyset := binding.2.map ReportBinding.keyset
    let provenance := appraiseProvenance P i quote.2.1
    let custody := appraiseCustody P i keyset (provenance.2.bind MeasuredProvenance.appId)
    let channel := appraiseChannel P i keyset
    let results := [quote.1, binding.1, appraiseExpiry i keyset, provenance.1, custody.1,
      channel.1].mergeSort (fun r s => r.id.rank ≤ s.id.rank)
    .ok {
      results
      identity := binding.2
      channelBindings := channel.2
      sessionMaterial := authenticatedSessionMaterial P results quote.2.2 provenance.2 custody.2
        i.report.sourceProvenance }

end

def Appraisal.firstProblem (a : Appraisal) : Option CheckResult :=
  a.results.find? (fun r => !r.passed)

/-- `reviewed_session_material`, for the events of ACI services. -/
def reviewedSessionMaterial (sha256 : Bytes → Bytes) (event : UpstreamVerifiedEvent)
    (claims : Value) : Bool :=
  event.providerType = some "aci-service" && event.verifierId = "aci-service/v2" &&
    event.aciIdentity.isSome &&
    (claims.get? "session_material_version").bind Value.asStr? = some "aci-service/1" &&
    validProfile sha256 claims

inductive AciServiceVerificationError where
  | check (problem : CheckResult)
  | keysetExpired
  | noIdentity

/-- `finish_verification`: an appraisal without a problem is kept, unless the keyset has
expired in the meantime. -/
def finishVerification (sha256 : Bytes → Bytes) (body : Bytes) (nowSecs : Nat) (a : Appraisal) :
    Except AciServiceVerificationError CachedAciServiceVerification := do
  if let some problem := a.firstProblem then
    throw (.check problem)
  let identity ← okOr a.identity .noIdentity
  ensure (¬ identity.keyset.isExpiredAt nowSecs) .keysetExpired
  pure {
    evidence := some (rawEvidence sha256 body "application/json" none)
    channelBindings := a.channelBindings
    identity := ⟨identity.keysetDigest, identity.keyset.subject, identity.keyset.notAfter⟩
    sessionMaterial := a.sessionMaterial }

variable {P : Platform} {i : AppraisalInputs} {a : Appraisal} {v : Value}
  {keyset : Option WorkloadKeyset} {appId : Option Bytes}

/-! What each check rests on when it passes. -/

section Checks

variable (id : CheckId)

@[simp] theorem passed_pass : (pass id).passed := rfl

@[simp] theorem passed_failed (c : FailureCause) :
    (failed id c).passed = false := rfl

@[simp] theorem passed_unreached (why : String) :
    (unreached id why).passed = false := rfl

@[simp] theorem passed_unevaluable (why : String) :
    (unevaluable id why).passed = false := rfl

variable {evidence : Value} {report : QuoteReport} {raw : Bytes}

theorem slot_of_quoteBinds {slot data : Bytes} {u : Unit}
    (h : quoteBindsReportData evidence slot data = .ok u) : slot = reportDataSlot data := by
  simp only [quoteBindsReportData, bind_eq_ok, ensure_eq_ok] at h
  exact h.choose_spec.2

theorem parseQuoteEvidence_ok (h : parseQuoteEvidence P evidence = .ok (raw, report)) :
    (∃ hex, (evidence.get? "quote").bind Value.asStr? = some hex ∧ decodeHex hex = .ok raw) ∧
      P.dcap.parse raw = .ok report := by
  simp only [parseQuoteEvidence, bind_eq_ok, okOr_eq_ok, mapError_eq_ok, pure_eq_ok,
    Prod.mk.injEq] at h
  obtain ⟨hex, hhex, _, hraw, _, hparse, rfl, rfl⟩ := h
  exact ⟨⟨hex, hhex, hraw⟩, hparse⟩

theorem verifyQuoteToRoot_ok {url tee : String} {now : Nat} {q : VerifiedReport}
    (h : verifyQuoteToRoot P raw url now tee = .ok q) :
    ∃ collateral, P.getCollateral url raw = .ok collateral ∧
      P.dcap.verify raw collateral now = .ok q := by
  simp only [verifyQuoteToRoot, bind_eq_ok, mapError_eq_ok, pure_eq_ok] at h
  obtain ⟨collateral, hc, _, hv, -, -, rfl⟩ := h
  exact ⟨collateral, hc, hv⟩

/-- The quote of the evidence, verified to the vendor root and bound to `data`. -/
structure QuoteVerified (P : Platform) (i : AppraisalInputs) (raw data : Bytes)
    (q : VerifiedReport) : Prop where
  evidence : ∃ hex, (i.report.evidence.get? "quote").bind Value.asStr? = some hex ∧
    decodeHex hex = .ok raw
  verified : ∃ url collateral, P.getCollateral url raw = .ok collateral ∧
    P.dcap.verify raw collateral i.nowSecs = .ok q
  slot : q.report.dcapReportData = reportDataSlot data

theorem appraiseQuote_passed {claimed : Bytes} (h : (appraiseQuote P i claimed).1.passed) :
    ∃ raw q, appraiseQuote P i claimed = (pass .quote, some q.report, some q) ∧
      QuoteVerified P i raw claimed q := by
  unfold appraiseQuote at h ⊢
  cases hp : parseQuoteEvidence P i.report.evidence with
  | error e => simp [hp] at h
  | ok parsed =>
    obtain ⟨raw, report⟩ := parsed
    simp only [hp] at h ⊢
    cases hb : quoteBindsReportData i.report.evidence report.dcapReportData claimed with
    | error e => simp [hb] at h
    | ok u =>
      simp only [hb] at h ⊢
      cases hs : i.quote with
      | offline reason => simp [hs] at h
      | online url =>
        simp only [hs] at h ⊢
        cases hv : verifyQuoteToRoot P raw url i.nowSecs i.report.attestation.teeType with
        | error e => simp [hv] at h
        | ok q =>
          obtain ⟨collateral, hc, hq⟩ := verifyQuoteToRoot_ok hv
          obtain ⟨hex, hparse⟩ := parseQuoteEvidence_ok hp
          -- The quote is parsed once for its report, and once more when it is verified.
          have hr : report = q.report := Except.ok.inj (hparse.symm.trans (P.dcap.parses hq))
          subst hr
          exact ⟨raw, q, rfl, hex, ⟨url, collateral, hc, hq⟩, slot_of_quoteBinds hb⟩

theorem appraiseClaimedQuote_passed (h : (appraiseClaimedQuote P i).1.passed) :
    ∃ raw q data, decodeHex32 i.report.attestation.reportDataHex = some data ∧
      appraiseClaimedQuote P i = (pass .quote, some q.report, some q) ∧
      QuoteVerified P i raw data q := by
  unfold appraiseClaimedQuote at h ⊢
  cases hd : decodeHex32 i.report.attestation.reportDataHex with
  | none => simp [hd] at h
  | some data =>
    simp only [hd] at h ⊢
    obtain ⟨raw, q, he, hq⟩ := appraiseQuote_passed h
    exact ⟨raw, q, data, rfl, he, hq⟩

theorem appraiseBinding_passed (h : (appraiseBinding P i).1.passed) :
    ∃ b, (appraiseBinding P i).2 = some b ∧
      verifyReportBinding P.sha256 i.report.toAttestationReport i.nonce = .ok b := by
  unfold appraiseBinding at h ⊢
  cases hv : verifyReportBinding P.sha256 i.report.toAttestationReport i.nonce with
  | error e => simp [hv] at h
  | ok b =>
    simp only [hv] at h ⊢
    cases hn : i.nonce with
    | none => simp [hn] at h
    | some nonce => exact ⟨b, rfl, rfl⟩

theorem not_ok_of_notTdx {H : Bytes → Bytes} {fromStr : String → Option (List DstackEventLog)}
    (events : List DstackEventLog) : verifyDstackEventLog H fromStr evidence none ≠ .ok events := by
  intro h
  unfold verifyDstackEventLog at h
  split at h
  · split at h
    · simp only [bind_eq_ok] at h
      obtain ⟨-, -, h⟩ := h
      cases h
    · cases h
  · cases h

/-- The compose hash and the app-id are payloads of a log that replays to `rtmr3`. -/
structure Measured (P : Platform) (evidence : Value) (report : QuoteReport)
    (composeHash : Bytes) (appId : Option Bytes) : Prop where
  log : ∃ rtmr3 events, report.dcapRtmr3 = some rtmr3 ∧
    verifyDstackEventLog P.sha384 P.fromStr evidence (some rtmr3) = .ok events ∧
    measuredPayload events "compose-hash" = .ok composeHash ∧
    (measuredPayload events "app-id").toOption = appId

theorem composeMeasurement_ok {events : List DstackEventLog} {hash : String}
    (h : verifyDstackComposeMeasurement P.sha256 evidence events = .ok hash) :
    ∃ measured, measuredPayload events "compose-hash" = .ok measured ∧
      hash = hexEncode measured := by
  simp only [verifyDstackComposeMeasurement, bind_eq_ok] at h
  obtain ⟨measured, hm, h⟩ := h
  split at h
  · cases h
  · simp only [bind_eq_ok, pure_eq_ok] at h
    obtain ⟨-, -, rfl⟩ := h
    exact ⟨measured, hm, rfl⟩

theorem measureProvenance_ok {p : MeasuredProvenance}
    (h : measureProvenance P evidence report = .ok p) :
    ∃ composeHash, p.composeHash = hexEncode composeHash ∧
      Measured P evidence report composeHash p.appId := by
  simp only [measureProvenance, bind_eq_ok, pure_eq_ok] at h
  obtain ⟨events, hlog, hash, hhash, rfl⟩ := h
  obtain ⟨composeHash, hc, rfl⟩ := composeMeasurement_ok hhash
  cases hr : report.dcapRtmr3 with
  | none =>
    rw [hr] at hlog
    exact absurd hlog (not_ok_of_notTdx _)
  | some rtmr3 => exact ⟨composeHash, rfl, rtmr3, events, hr, hr ▸ hlog, hc, rfl⟩

theorem appraiseProvenance_passed {report : Option QuoteReport}
    (h : (appraiseProvenance P i report).1.passed) :
    i.report.sourceProvenance.declared.isSome ∧ ∃ r p, report = some r ∧
      (appraiseProvenance P i report).2 = some p ∧
      measureProvenance P i.report.evidence r = .ok p := by
  unfold appraiseProvenance at h ⊢
  cases hd : i.report.sourceProvenance.declared with
  | none => simp [hd] at h
  | some declared =>
    refine ⟨rfl, ?_⟩
    simp only [hd] at h ⊢
    split at h
    · next r _ =>
      cases hm : measureProvenance P i.report.evidence r with
      | error e => simp [hm] at h
      | ok p =>
        simp only [hm] at h ⊢
        split at h
        · next hc => exact ⟨r, p, rfl, by simp [hc], hm⟩
        · simp at h
    · simp only [unmeasured] at h
      split at h <;> simp at h

theorem appraiseCustody_passed (h : (appraiseCustody P i keyset appId).1.passed) :
    ∃ k m c, keyset = some k ∧ appId = some m ∧ (appraiseCustody P i keyset appId).2 = some c ∧
      c.Named P.secp := by
  unfold appraiseCustody at h ⊢
  split at h
  · simp at h
  · simp at h
  · simp at h
  · next policy k m hpolicy =>
    cases hv : verifyDstackKmsReceiptCustody P.secp P.debug i.report.evidence k m policy with
    | error e => simp [hv] at h
    | ok c =>
      simp only [hv] at h
      split at h
      · next ha =>
        exact ⟨k, m, c, rfl, rfl, by simp [ha], named_of_verifyKms (verifyDstackKms_ok.mp hv).1⟩
      · simp at h

/-- Every binding is for a key of the keyset, whether or not the check passes. -/
theorem mem_appraiseChannel {k : WorkloadKeyset} {b : ChannelBinding}
    (h : b ∈ (appraiseChannel P i (some k)).2) :
    ∃ origin pin, b = .tlsSpkiSha256 origin pin ∧ ∃ key ∈ k.tlsPublicKeys,
      normalizeSha256Hex key.spkiSha256Hex = .ok pin := by
  unfold appraiseChannel at h
  split at h
  · simp at h
  · simp at h
  · simp at h
  · simp at h
  · simp at h
  · next origin k' _ hk =>
    obtain rfl := Option.some.inj hk
    cases hd : declaredTlsChannelBindings P k i.report.evidence origin with
    | error e => simp [hd] at h
    | ok bindings =>
      simp only [hd] at h
      simp only [declaredTlsChannelBindings, bind_eq_ok, pure_eq_ok] at hd
      obtain ⟨pins, hpins, rfl⟩ := hd
      obtain ⟨pin, hpin, rfl⟩ := List.mem_map.mp h
      exact ⟨origin, pin, rfl, mem_of_declaredTlsPins hpins hpin⟩

end Checks

end AciGateway.Verify
