import AciGateway.Canonical
import AciGateway.E2ee.Replay
import AciGateway.Lib.JsonDecode
import AciGateway.Lib.Results
import AciGateway.Lib.Sha2
import AciGateway.Lib.Text

/-! The binding of an attestation report: the keyset digest, the attestation statement over
it and the nonce, and the report data the hardware quote carries. -/
namespace AciGateway.Verify

open Octets Json Digest E2ee Results List

structure TlsSpki where
  spkiSha256Hex : String
  domain : Option String
  deriving DecidableEq

structure WorkloadKeyset where
  subject : Option String
  notAfter : U64
  receiptSigningKeys : List KeyedPublicKey
  e2eePublicKeys : List KeyedPublicKey
  tlsPublicKeys : List TlsSpki
  deriving DecidableEq

structure AttestationEnvelope where
  teeType : String
  workloadKeyset : Value
  reportDataHex : String

structure AttestationReport where
  apiVersion : String
  workloadKeysetDigest : String
  attestation : AttestationEnvelope

/-- A record is read from an object or from the array of its fields in order. -/
def decodeKeyedPublicKey : Value → Option KeyedPublicKey
  | .obj ms => do
    let keyId ← required "key_id" decodeString ms
    let algo ← required "algo" decodeString ms
    let publicKeyHex ← required "public_key" decodeString ms
    some { keyId, algo, publicKeyHex }
  | .arr [keyId, algo, publicKey] => do
    let keyId ← decodeString keyId
    let algo ← decodeString algo
    let publicKeyHex ← decodeString publicKey
    some { keyId, algo, publicKeyHex }
  | _ => none

def decodeTlsSpki : Value → Option TlsSpki
  | .obj ms => do
    let spkiSha256Hex ← required "spki_sha256" decodeString ms
    let domain ← optionalMember "domain" decodeString ms
    some { spkiSha256Hex, domain }
  | .arr [spki] => do
    let spkiSha256Hex ← decodeString spki
    some { spkiSha256Hex, domain := none }
  | .arr [spki, domain] => do
    let spkiSha256Hex ← decodeString spki
    let domain ← nullable decodeString domain
    some { spkiSha256Hex, domain }
  | _ => none

/-- A member that stands for its default when it is absent, but must not be `null`. -/
def defaultMember {α : Type} (k : String) (decode : Value → Option α) (default : α)
    (ms : Members) : Option α := do
  match ← member? k ms with
  | none => some default
  | some v => decode v

def decodeWorkloadKeyset : Value → Option WorkloadKeyset
  | .obj ms => do
    let subject ← optionalMember "subject" decodeString ms
    let notAfter ← required "not_after" decodeU64 ms
    let receiptSigningKeys ← required "receipt_signing_keys" (decodeList decodeKeyedPublicKey) ms
    let e2eePublicKeys ← required "e2ee_public_keys" (decodeList decodeKeyedPublicKey) ms
    let tlsPublicKeys ← defaultMember "tls_public_keys" (decodeList decodeTlsSpki) [] ms
    some { subject, notAfter, receiptSigningKeys, e2eePublicKeys, tlsPublicKeys }
  | .arr [subject, notAfter, signing, e2ee] => do
    let subject ← nullable decodeString subject
    let notAfter ← decodeU64 notAfter
    let receiptSigningKeys ← decodeList decodeKeyedPublicKey signing
    let e2eePublicKeys ← decodeList decodeKeyedPublicKey e2ee
    some { subject, notAfter, receiptSigningKeys, e2eePublicKeys, tlsPublicKeys := [] }
  | .arr [subject, notAfter, signing, e2ee, tls] => do
    let subject ← nullable decodeString subject
    let notAfter ← decodeU64 notAfter
    let receiptSigningKeys ← decodeList decodeKeyedPublicKey signing
    let e2eePublicKeys ← decodeList decodeKeyedPublicKey e2ee
    let tlsPublicKeys ← decodeList decodeTlsSpki tls
    some { subject, notAfter, receiptSigningKeys, e2eePublicKeys, tlsPublicKeys }
  | _ => none

def WorkloadKeyset.isExpiredAt (k : WorkloadKeyset) (nowSecs : Nat) : Bool :=
  nowSecs ≥ k.notAfter.val

inductive InvalidStatementInput where
  | keysetDigest
  | nonce
  deriving DecidableEq

def reportDataPurpose : String := "aci.report_data.v1"

def isLowerHexByte (c : UInt8) : Bool := (48 ≤ c ∧ c ≤ 57) ∨ (97 ≤ c ∧ c ≤ 102)

/-- Exactly 64 lower-case hexadecimal digits. -/
def isValidNonce (nonce : String) : Bool :=
  (utf8 nonce).length = 64 ∧ (utf8 nonce).all isLowerHexByte

/-- How the statement writes the nonce. -/
def nonceMember : Option String → String
  | some nonce => "\"" ++ nonce ++ "\""
  | none => "null"

/-- The bytes the quote binds. Both inputs are checked to be hexadecimal, so that neither can
add members to the template. -/
def attestationStatement (keysetDigest : String) (nonce : Option String) :
    Except InvalidStatementInput Bytes := do
  let hex := (Text.stripPrefix "sha256:" keysetDigest).getD ""
  ensure ((utf8 hex).length = 64 ∧ (utf8 hex).all isLowerHexByte) .keysetDigest
  ensure (nonce.all isValidNonce) .nonce
  pure (utf8 ("\x7b\"keyset_digest\":\"" ++ keysetDigest ++ "\",\"nonce\":" ++ nonceMember nonce ++
    ",\"purpose\":\"" ++ reportDataPurpose ++ "\"\x7d"))

section

variable (sha256 : Bytes → Bytes)

def reportData (statement : Bytes) : Bytes := sha256 statement

/-- The 64 bytes of the quote: the digest, then zeros. -/
def reportDataSlot (reportData : Bytes) : Bytes := reportData ++ List.replicate 32 0

def decodeHex32 (value : String) : Option Bytes := do
  let bytes ← hexDecode (stripHexMark value)
  if bytes.length = 32 then some bytes else none

/-- Why a keyset is refused: it has no canonical form, it is not a keyset, or one key has
two roles. -/
inductive KeysetFault where
  | jcs (e : JcsError)
  | shape
  | sharedKey (message : String)
  deriving DecidableEq

inductive AciReportValidationError where
  | unsupportedApiVersion (version : String)
  | invalidKeyset (fault : KeysetFault)
  | workloadKeysetDigestMismatch (computed claimed : String)
  | reportDataMismatch (computed reported : String)
  | invalidReportDataHex
  | invalidNonce (e : InvalidStatementInput)
  | keysetExpired
  deriving DecidableEq

structure ReportBinding where
  keysetDigest : String
  keyset : WorkloadKeyset
  reportData : Bytes
  statement : Bytes
  keysetJcs : Bytes

def verifyReportBinding (report : AttestationReport) (nonce : Option String) :
    Except AciReportValidationError ReportBinding := do
  let keysetJcs ← (jcsBytes report.attestation.workloadKeyset).mapError (.invalidKeyset <| .jcs ·)
  let keysetDigest := "sha256:" ++ hexEncode (sha256 keysetJcs)
  ensure (keysetDigest = report.workloadKeysetDigest)
    (.workloadKeysetDigestMismatch keysetDigest report.workloadKeysetDigest)
  let keyset ← okOr (decodeWorkloadKeyset report.attestation.workloadKeyset) (.invalidKeyset .shape)
  let statement ← (attestationStatement keysetDigest nonce).mapError .invalidNonce
  let computed := reportData sha256 statement
  let reported ← okOr (decodeHex32 report.attestation.reportDataHex) .invalidReportDataHex
  ensure (reported = computed) (.reportDataMismatch (hexEncode computed) (hexEncode reported))
  pure { keysetDigest, keyset, reportData := computed, statement, keysetJcs }

structure ValidatedAciReport where
  workloadKeysetDigest : String
  keyset : WorkloadKeyset
  reportData : Bytes
  evidence : Option Value

/-- A fetched artifact with its digest. -/
def rawEvidence (data : Bytes) (contentType : String) (sourceUrl : Option String) : Value :=
  .obj ([("digest", .str (sha256Hex sha256 data)),
    ("data", .str ("data:" ++ contentType ++ ";base64," ++ base64Encode data))] ++
      ifSome "source_url" .str sourceUrl)

/-- The first signing key whose text is also listed for E2EE. -/
def WorkloadKeyset.sharedKey? (k : WorkloadKeyset) : Option KeyedPublicKey :=
  k.receiptSigningKeys.find? (fun signing =>
    k.e2eePublicKeys.any (fun e2ee => e2ee.publicKeyHex = signing.publicKeyHex))

def validateAciReportBinding (report : AttestationReport) (nonce : Option String)
    (nowSecs : Nat) (rawReportBody : Option Bytes) :
    Except AciReportValidationError ValidatedAciReport := do
  ensure (report.apiVersion = "aci/1") (.unsupportedApiVersion report.apiVersion)
  let binding ← verifyReportBinding sha256 report nonce
  ensure (¬ binding.keyset.isExpiredAt nowSecs) .keysetExpired
  match binding.keyset.sharedKey? with
  | some signing => .error (.invalidKeyset (.sharedKey
      ("key " ++ signing.keyId ++ " is listed for both the receipt and E2EE roles (§3.1)")))
  | none => .ok {
      workloadKeysetDigest := binding.keysetDigest
      keyset := binding.keyset
      reportData := binding.reportData
      evidence := rawReportBody.map (rawEvidence sha256 · "application/json" none) }

end

variable {sha256 : Bytes → Bytes} {report report' : AttestationReport}
  {nonce nonce' : Option String} {b b' : ReportBinding} {d d' : String} {t : Bytes}

theorem attestationStatement_ok (h : attestationStatement d nonce = .ok t) :
    (utf8 d).length = 71 ∧ nonce.all isValidNonce ∧
      t = utf8 ("\x7b\"keyset_digest\":\"" ++ d ++ "\",\"nonce\":" ++ nonceMember nonce ++
        ",\"purpose\":\"" ++ reportDataPurpose ++ "\"\x7d") := by
  simp only [attestationStatement, bind_eq_ok, ensure_eq_ok, pure_eq_ok] at h
  obtain ⟨-, ⟨hlen, -⟩, -, hn, rfl⟩ := h
  refine ⟨?_, hn, rfl⟩
  cases hs : Text.stripPrefix "sha256:" d with
  | none =>
    rw [hs] at hlen
    cases hlen
  | some hex =>
    rw [hs, Option.getD_some] at hlen
    rw [← Text.stripPrefix_eq hs, utf8_append, length_append, hlen]
    rfl

theorem length_of_valid {n : String} (h : isValidNonce n) : (utf8 n).length = 64 :=
  (of_decide_eq_true h).1

/-- A nonce written in quotes is longer than the literal `null`. -/
theorem nonceMember_inj (h : nonce.all isValidNonce) (h' : nonce'.all isValidNonce)
    (heq : utf8 (nonceMember nonce) = utf8 (nonceMember nonce')) : nonce = nonce' := by
  have hquoted : ∀ n, isValidNonce n → (utf8 (nonceMember (some n))).length = 66 := by
    intro n hn
    simp only [nonceMember, utf8_append, length_append, length_of_valid hn]
    rfl
  have hnull : (utf8 (nonceMember none)).length = 4 := rfl
  have hlen := congrArg length heq
  cases nonce with
  | none =>
    cases nonce' with
    | none => rfl
    | some n => rw [hnull, hquoted n h'] at hlen; cases hlen
  | some m =>
    cases nonce' with
    | none => rw [hnull, hquoted m h] at hlen; cases hlen
    | some n =>
      rw [utf8_inj.mp (append_cancel_left (append_cancel_right heq))]

/-- The statement determines the digest and the nonce it was built from. -/
theorem attestationStatement_inj (h : attestationStatement d nonce = .ok t)
    (h' : attestationStatement d' nonce' = .ok t) : d = d' ∧ nonce = nonce' := by
  obtain ⟨hd, hn, rfl⟩ := attestationStatement_ok h
  obtain ⟨hd', hn', heq⟩ := attestationStatement_ok h'
  simp only [utf8_append, append_assoc] at heq
  -- The digests have one length, so what follows them starts at one place.
  obtain ⟨hdigest, heq⟩ := append_inj (append_cancel_left heq) (hd.trans hd'.symm)
  have heq := append_cancel_right (append_cancel_left heq)
  exact ⟨utf8_inj.mp hdigest, nonceMember_inj hn hn' heq⟩

theorem verifyReportBinding_eq_ok : verifyReportBinding sha256 report nonce = .ok b ↔
    jcsBytes report.attestation.workloadKeyset = .ok b.keysetJcs ∧
      b.keysetDigest = "sha256:" ++ hexEncode (sha256 b.keysetJcs) ∧
      report.workloadKeysetDigest = b.keysetDigest ∧
      decodeWorkloadKeyset report.attestation.workloadKeyset = some b.keyset ∧
      attestationStatement b.keysetDigest nonce = .ok b.statement ∧
      b.reportData = sha256 b.statement ∧
      decodeHex32 report.attestation.reportDataHex = some b.reportData := by
  simp only [verifyReportBinding, bind_eq_ok, ensure_eq_ok, okOr_eq_ok, mapError_eq_ok, pure_eq_ok]
  constructor
  · rintro ⟨jcs, hjcs, -, hdigest, keyset, hkeyset, statement, hstatement, _, hreported, -, rfl, rfl⟩
    exact ⟨hjcs, rfl, hdigest.symm, hkeyset, hstatement, rfl, hreported⟩
  · rintro ⟨hjcs, hdigest, hclaimed, hkeyset, hstatement, hdata, hreported⟩
    refine ⟨_, hjcs, (), ?_, _, hkeyset, _, hdigest ▸ hstatement, _, hreported, (), hdata, ?_⟩
    · rw [hclaimed, hdigest]
    · obtain ⟨digest, keyset, data, statement, jcs⟩ := b
      simp_all [reportData]

/-- Two accepted reports whose quotes carry the same report data have the same nonce, and
keysets that differ in member order only. -/
theorem report_data_binds (hu : uniqueKeys report.attestation.workloadKeyset)
    (hu' : uniqueKeys report'.attestation.workloadKeyset)
    (h : verifyReportBinding sha256 report nonce = .ok b)
    (h' : verifyReportBinding sha256 report' nonce' = .ok b')
    (hslot : reportDataSlot b.reportData = reportDataSlot b'.reportData)
    (hstatement : sha256 b.statement = sha256 b'.statement → b.statement = b'.statement)
    (hkeyset : sha256 b.keysetJcs = sha256 b'.keysetJcs → b.keysetJcs = b'.keysetJcs) :
    nonce = nonce' ∧ same report.attestation.workloadKeyset report'.attestation.workloadKeyset := by
  obtain ⟨hjcs, hdigest, -, -, hs, hdata, -⟩ := verifyReportBinding_eq_ok.mp h
  obtain ⟨hjcs', hdigest', -, -, hs', hdata', -⟩ := verifyReportBinding_eq_ok.mp h'
  have hreport : b.reportData = b'.reportData := append_cancel_right hslot
  rw [hdata, hdata'] at hreport
  rw [← hstatement hreport] at hs'
  obtain ⟨hd, hn⟩ := attestationStatement_inj hs hs'
  refine ⟨hn, ?_⟩
  rw [hdigest, hdigest'] at hd
  have hhash : sha256 b.keysetJcs = sha256 b'.keysetJcs := by simpa using congrArg utf8 hd
  rw [← hkeyset hhash] at hjcs'
  obtain ⟨w, hw, hw'⟩ := sorted_of_jcsBytes hjcs hjcs'
  exact same_of_sorted hw hu hu' hw'

/-! A report that is bound to its keyset, for any hash of 32 bytes. -/

section Bound

variable (sha256) {kv : Value} {ks : WorkloadKeyset}

/-- The report a service with the keyset `kv` serves for a nonce. -/
def boundReport (kv : Value) (jcs statement : Bytes) : AttestationReport where
  apiVersion := "aci/1"
  workloadKeysetDigest := "sha256:" ++ hexEncode (sha256 jcs)
  attestation := {
    teeType := "tdx"
    workloadKeyset := kv
    reportDataHex := hexEncode (sha256 statement) }

theorem exists_statement (hlen : ∀ x, (sha256 x).length = 32) (jcs : Bytes)
    (nonce : Option String) (hn : nonce.all isValidNonce) :
    ∃ t, attestationStatement ("sha256:" ++ hexEncode (sha256 jcs)) nonce = .ok t := by
  have hhex : (utf8 (hexEncode (sha256 jcs))).all isLowerHexByte :=
    all_eq_true.mpr (fun c hc => decide_eq_true (lowercase_of_mem_hexEncode hc))
  simp only [attestationStatement, bind_eq_ok, ensure_eq_ok, pure_eq_ok, Text.stripPrefix_append,
    Option.getD_some]
  exact ⟨_, (), ⟨by rw [length_utf8_hexEncode, hlen], hhex⟩, (), hn, rfl⟩

theorem verify_boundReport (hlen : ∀ x, (sha256 x).length = 32) {jcs t : Bytes}
    (hjcs : jcsBytes kv = .ok jcs) (hks : decodeWorkloadKeyset kv = some ks)
    (ht : attestationStatement ("sha256:" ++ hexEncode (sha256 jcs)) nonce = .ok t) :
    verifyReportBinding sha256 (boundReport sha256 kv jcs t) nonce =
      .ok ⟨"sha256:" ++ hexEncode (sha256 jcs), ks, sha256 t, t, jcs⟩ := by
  refine verifyReportBinding_eq_ok.mpr ⟨hjcs, rfl, rfl, hks, ht, rfl, ?_⟩
  simp [boundReport, decodeHex32, hlen]

end Bound

/-- A keyset with one signing key, its members in two orders. -/
def oneKeyset (swapped : Bool) : Value :=
  let signing := ("receipt_signing_keys", Value.arr [.obj [("key_id", .str "r1"),
    ("algo", .str "ed25519"), ("public_key", .str "aa")]])
  let rest := [("not_after", Value.num (.posInt 2000000000)), ("subject", .null),
    ("e2ee_public_keys", .arr [])]
  .obj (if swapped then rest ++ [signing] else signing :: rest)

theorem report_data_binds_reordered : ∃ r r' b b',
    r.attestation.workloadKeyset ≠ r'.attestation.workloadKeyset ∧
    verifyReportBinding Sha2.sha256 r none = .ok b ∧
    verifyReportBinding Sha2.sha256 r' none = .ok b' ∧ b.reportData = b'.reportData ∧
    same r.attestation.workloadKeyset r'.attestation.workloadKeyset := by
  have hlen := Sha2.length_sha256
  obtain ⟨x, hx⟩ := sorted_of_canonical (v := oneKeyset false) (by decide)
  obtain ⟨y, hy⟩ := sorted_of_canonical (v := oneKeyset true) (by decide)
  obtain rfl := sorted_of_same hx (by decide) (by decide) hy (by decide)
  have hjcs : jcsBytes (oneKeyset false) = .ok (print x) := by rw [jcsBytes, hx]; rfl
  have hjcs' : jcsBytes (oneKeyset true) = .ok (print x) := by rw [jcsBytes, hy]; rfl
  obtain ⟨t, ht⟩ := exists_statement Sha2.sha256 hlen (print x) none rfl
  have h := verify_boundReport Sha2.sha256 hlen hjcs rfl ht
  have h' := verify_boundReport Sha2.sha256 hlen hjcs' rfl ht
  refine ⟨_, _, _, _, ?_, h, h', rfl, ?_⟩
  · simp [boundReport, oneKeyset]
  · have hu : uniqueKeys (oneKeyset false) ∧ uniqueKeys (oneKeyset true) := by decide
    exact (report_data_binds hu.1 hu.2 h h' rfl (fun _ => rfl) (fun _ => rfl)).2

/-! Key roles. -/

/-- The bytes a key or a certificate digest is written for. -/
def material (hex : String) : Option Bytes := hexDecode (stripHexMark hex)

/-- No two entries of the lists are written for the same bytes. -/
def Apart (as bs : List String) : Prop :=
  ∀ a ∈ as, ∀ b ∈ bs, ∀ m, material a = some m → material b ≠ some m

namespace WorkloadKeyset

variable (k : WorkloadKeyset)

def receiptTexts : List String := k.receiptSigningKeys.map KeyedPublicKey.publicKeyHex
def e2eeTexts : List String := k.e2eePublicKeys.map KeyedPublicKey.publicKeyHex
def tlsTexts : List String := k.tlsPublicKeys.map TlsSpki.spkiSha256Hex

/-- No key material serves two of the three roles. -/
def RolesApart : Prop := Apart k.receiptTexts k.e2eeTexts ∧ Apart k.receiptTexts k.tlsTexts ∧
  Apart k.e2eeTexts k.tlsTexts

end WorkloadKeyset

variable {now : Nat} {body : Option Bytes} {v : ValidatedAciReport}

open WorkloadKeyset

/-- Keys are compared as they are written. -/
theorem sharedKey?_eq_none {k : WorkloadKeyset} :
    k.sharedKey? = none ↔ ∀ a ∈ k.receiptTexts, a ∉ k.e2eeTexts := by
  simp [sharedKey?, receiptTexts, e2eeTexts]

theorem validateAciReportBinding_eq_ok :
    validateAciReportBinding sha256 report nonce now body = .ok v ↔
      report.apiVersion = "aci/1" ∧ ∃ b, verifyReportBinding sha256 report nonce = .ok b ∧
        ¬ b.keyset.isExpiredAt now ∧ b.keyset.sharedKey? = none ∧
        v = ⟨b.keysetDigest, b.keyset, b.reportData,
          body.map (rawEvidence sha256 · "application/json" none)⟩ := by
  simp only [validateAciReportBinding, bind_eq_ok, ensure_eq_ok, exists_and_left, exists_const]
  refine and_congr_right (fun _ => exists_congr (fun b => and_congr_right (fun _ => ?_)))
  refine and_congr_right (fun _ => ?_)
  cases b.keyset.sharedKey? <;> simp [eq_comm]

/-- A keyset with one key for receipts, one for E2EE and one TLS certificate. -/
def threeKeys (signing e2ee tls : String) : Value := .obj [("subject", .null),
  ("not_after", .num (.posInt 2000000000)),
  ("receipt_signing_keys", .arr [.obj [("key_id", .str "r1"), ("algo", .str "ed25519"),
    ("public_key", .str signing)]]),
  ("e2ee_public_keys", .arr [.obj [("key_id", .str "e1"),
    ("algo", .str "x25519-aes-256-gcm-hkdf-sha256"), ("public_key", .str e2ee)]]),
  ("tls_public_keys", .arr [.obj [("spki_sha256", .str tls)]])]

theorem exists_threeKeys (hlen : ∀ x, (sha256 x).length = 32) (signing e2ee tls : String)
    (hne : signing ≠ e2ee) : ∃ report v,
      validateAciReportBinding sha256 report none 1000 none = .ok v ∧
      v.keyset.receiptTexts = [signing] ∧ v.keyset.e2eeTexts = [e2ee] ∧
      v.keyset.tlsTexts = [tls] := by
  have hcanon : canonical (threeKeys signing e2ee tls) := rfl
  have hks : decodeWorkloadKeyset (threeKeys signing e2ee tls) =
      some ⟨none, 2000000000, [⟨"r1", "ed25519", signing⟩],
        [⟨"e1", "x25519-aes-256-gcm-hkdf-sha256", e2ee⟩], [⟨tls, none⟩]⟩ := rfl
  obtain ⟨jcs, hjcs⟩ := jcsBytes_of_canonical hcanon
  obtain ⟨t, ht⟩ := exists_statement sha256 hlen jcs none rfl
  have h := verify_boundReport sha256 hlen hjcs hks ht
  refine ⟨_, _, validateAciReportBinding_eq_ok.mpr ⟨rfl, _, h, ?_, ?_, rfl⟩, rfl, rfl, rfl⟩
  · simp [isExpiredAt]
  · simpa [sharedKey?_eq_none, receiptTexts, e2eeTexts] using hne

theorem apart_singleton {a b : String} {x y : Bytes} (ha : material a = some x)
    (hb : material b = some y) (hne : x ≠ y) : Apart [a] [b] := by
  intro a' ha' b' hb' m hm hm'
  rw [mem_singleton.mp ha', ha] at hm
  rw [mem_singleton.mp hb', hb] at hm'
  exact hne (Option.some.inj (hm.trans hm'.symm))

end AciGateway.Verify
