import AciGateway.Verify.Report
import Mathlib

/-! The session material of an ACI service: what is recorded of an accepted appraisal, and the
check that recognises it. The two are written apart in the source; here one reads back what
the other wrote. -/
namespace AciGateway.Verify

open Octets Json Digest

/-- `N` bytes, written as lower-case hex. -/
structure Hex (n : Nat) where
  bytes : Bytes
  sized : bytes.length = n
  deriving DecidableEq

def lowerHex (value : String) : Bool :=
  value ≠ "" && (utf8 value).length % 2 = 0 && (utf8 value).all isLowerHexByte

def Hex.parse (n : Nat) (value : String) : Option (Hex n) :=
  if lowerHex value then do
    let bytes ← hexDecode value
    if h : bytes.length = n then some ⟨bytes, h⟩ else none
  else none

def Hex.toValue {n : Nat} (h : Hex n) : Value := .str (hexEncode h.bytes)

def Hex.ofValue (n : Nat) (v : Value) : Option (Hex n) := do
  let value ← decodeString v
  Hex.parse n value

inductive TdxReportFormat where
  | td10
  | td15
  deriving DecidableEq

def TdxReportFormat.toValue : TdxReportFormat → Value
  | .td10 => .str "td10"
  | .td15 => .str "td15"

def TdxReportFormat.ofValue (v : Value) : Option TdxReportFormat := do
  let text ← decodeString v
  if text = "td10" then some .td10 else if text = "td15" then some .td15 else none

structure TdxReportMaterial where
  reportFormat : TdxReportFormat
  teeTcbSvn : Hex 16
  mrSeam : Hex 48
  mrSignerSeam : Hex 48
  seamAttributes : Hex 8
  tdAttributes : Hex 8
  xfam : Hex 8
  mrTd : Hex 48
  mrConfigId : Hex 48
  mrOwner : Hex 48
  mrOwnerConfig : Hex 48
  rtMr0 : Hex 48
  rtMr1 : Hex 48
  rtMr2 : Hex 48
  rtMr3 : Hex 48
  teeTcbSvn2 : Option (Hex 16)
  mrServiceTd : Option (Hex 48)

namespace TdxReportMaterial

def fields : List String :=
  ["report_format", "tee_tcb_svn", "mr_seam", "mr_signer_seam", "seam_attributes",
    "td_attributes", "xfam", "mr_td", "mr_config_id", "mr_owner", "mr_owner_config", "rt_mr0",
    "rt_mr1", "rt_mr2", "rt_mr3", "tee_tcb_svn2", "mr_service_td"]

def toValue (m : TdxReportMaterial) : Value :=
  .obj ([("report_format", m.reportFormat.toValue), ("tee_tcb_svn", m.teeTcbSvn.toValue),
    ("mr_seam", m.mrSeam.toValue), ("mr_signer_seam", m.mrSignerSeam.toValue),
    ("seam_attributes", m.seamAttributes.toValue), ("td_attributes", m.tdAttributes.toValue),
    ("xfam", m.xfam.toValue), ("mr_td", m.mrTd.toValue),
    ("mr_config_id", m.mrConfigId.toValue), ("mr_owner", m.mrOwner.toValue),
    ("mr_owner_config", m.mrOwnerConfig.toValue), ("rt_mr0", m.rtMr0.toValue),
    ("rt_mr1", m.rtMr1.toValue), ("rt_mr2", m.rtMr2.toValue), ("rt_mr3", m.rtMr3.toValue)] ++
    ifSome "tee_tcb_svn2" Hex.toValue m.teeTcbSvn2 ++
    ifSome "mr_service_td" Hex.toValue m.mrServiceTd)

/-- A field that may be absent, but is not `null`. -/
def present {α : Type} (k : String) (decode : Value → Option α) (ms : Members) :
    Option (Option α) :=
  defaultMember k (fun v => (decode v).map some) none ms

/-- Other fields than these are refused. -/
def ofMembers (ms : Members) : Option TdxReportMaterial := do
  guard (ms.all (fun m => m.1 ∈ fields))
  let reportFormat ← required "report_format" TdxReportFormat.ofValue ms
  let teeTcbSvn ← required "tee_tcb_svn" (Hex.ofValue 16) ms
  let mrSeam ← required "mr_seam" (Hex.ofValue 48) ms
  let mrSignerSeam ← required "mr_signer_seam" (Hex.ofValue 48) ms
  let seamAttributes ← required "seam_attributes" (Hex.ofValue 8) ms
  let tdAttributes ← required "td_attributes" (Hex.ofValue 8) ms
  let xfam ← required "xfam" (Hex.ofValue 8) ms
  let mrTd ← required "mr_td" (Hex.ofValue 48) ms
  let mrConfigId ← required "mr_config_id" (Hex.ofValue 48) ms
  let mrOwner ← required "mr_owner" (Hex.ofValue 48) ms
  let mrOwnerConfig ← required "mr_owner_config" (Hex.ofValue 48) ms
  let rtMr0 ← required "rt_mr0" (Hex.ofValue 48) ms
  let rtMr1 ← required "rt_mr1" (Hex.ofValue 48) ms
  let rtMr2 ← required "rt_mr2" (Hex.ofValue 48) ms
  let rtMr3 ← required "rt_mr3" (Hex.ofValue 48) ms
  let teeTcbSvn2 ← present "tee_tcb_svn2" (Hex.ofValue 16) ms
  let mrServiceTd ← present "mr_service_td" (Hex.ofValue 48) ms
  some ⟨reportFormat, teeTcbSvn, mrSeam, mrSignerSeam, seamAttributes, tdAttributes, xfam, mrTd,
    mrConfigId, mrOwner, mrOwnerConfig, rtMr0, rtMr1, rtMr2, rtMr3, teeTcbSvn2, mrServiceTd⟩

def valid (m : TdxReportMaterial) : Bool :=
  match m.reportFormat with
  | .td10 => m.teeTcbSvn2.isNone && m.mrServiceTd.isNone
  | .td15 => m.teeTcbSvn2.isSome && m.mrServiceTd.isSome

end TdxReportMaterial

/-- The digest of a report as it is supplied. -/
def reportDigest (sha256 : Bytes → Bytes) (report : Value) : Option String :=
  match jcsBytes report with
  | .ok bytes => some (sha256Hex sha256 bytes)
  | .error _ => none

structure TdxMaterial where
  tdxReport : TdxReportMaterial
  tdxReportSha256 : String

def TdxMaterial.valid (sha256 : Bytes → Bytes) (m : TdxMaterial) (supplied : Value) : Bool :=
  m.tdxReport.valid && reportDigest sha256 supplied = some m.tdxReportSha256

structure ReceiptCustody where
  provider : String
  purpose : String
  receiptPublicKey : Hex 32
  kmsPublicKey : Hex 33
  appPublicKey : Hex 33
  rootPublicKey : Hex 33

namespace ReceiptCustody

def toValue (c : ReceiptCustody) : Value :=
  .obj [("provider", .str c.provider), ("purpose", .str c.purpose),
    ("receipt_public_key", c.receiptPublicKey.toValue),
    ("kms_public_key", c.kmsPublicKey.toValue), ("app_public_key", c.appPublicKey.toValue),
    ("root_public_key", c.rootPublicKey.toValue)]

def ofMembers (ms : Members) : Option ReceiptCustody := do
  let provider ← required "provider" decodeString ms
  let purpose ← required "purpose" decodeString ms
  let receiptPublicKey ← required "receipt_public_key" (Hex.ofValue 32) ms
  let kmsPublicKey ← required "kms_public_key" (Hex.ofValue 33) ms
  let appPublicKey ← required "app_public_key" (Hex.ofValue 33) ms
  let rootPublicKey ← required "root_public_key" (Hex.ofValue 33) ms
  some ⟨provider, purpose, receiptPublicKey, kmsPublicKey, appPublicKey, rootPublicKey⟩

/-- A key that starts as a compressed point does. -/
def compressed (key : Hex 33) : Bool := key.bytes.head? = some 2 || key.bytes.head? = some 3

def valid (c : ReceiptCustody) : Bool :=
  c.provider = "dstack-kms" && c.purpose = "aci.receipt.ed25519.v1" &&
    [c.kmsPublicKey, c.appPublicKey, c.rootPublicKey].all compressed

end ReceiptCustody

structure AciServiceMaterial where
  sessionMaterialVersion : String
  tdx : TdxMaterial
  tcbStatus : String
  advisoryIds : List String
  measuredComposeHash : Hex 32
  measuredAppId : String
  publishedSourceProvenance : Members
  receiptKeyCustody : ReceiptCustody

namespace AciServiceMaterial

def toValue (m : AciServiceMaterial) : Value :=
  .obj [("session_material_version", .str m.sessionMaterialVersion),
    ("tdx_report", m.tdx.tdxReport.toValue), ("tdx_report_sha256", .str m.tdx.tdxReportSha256),
    ("tcb_status", .str m.tcbStatus), ("advisory_ids", .arr (m.advisoryIds.map .str)),
    ("measured_compose_hash", m.measuredComposeHash.toValue),
    ("measured_app_id", .str m.measuredAppId),
    ("published_source_provenance", .obj m.publishedSourceProvenance),
    ("receipt_key_custody", m.receiptKeyCustody.toValue)]

def ofMembers (ms : Members) : Option AciServiceMaterial := do
  let sessionMaterialVersion ← required "session_material_version" decodeString ms
  let tdxReport ← required "tdx_report" (decodeObj TdxReportMaterial.ofMembers) ms
  let tdxReportSha256 ← required "tdx_report_sha256" decodeString ms
  let tcbStatus ← required "tcb_status" decodeString ms
  let advisoryIds ← required "advisory_ids" (decodeList decodeString) ms
  let measuredComposeHash ← required "measured_compose_hash" (Hex.ofValue 32) ms
  let measuredAppId ← required "measured_app_id" decodeString ms
  let publishedSourceProvenance ← required "published_source_provenance" (decodeObj some) ms
  let receiptKeyCustody ← required "receipt_key_custody" (decodeObj ReceiptCustody.ofMembers) ms
  some ⟨sessionMaterialVersion, ⟨tdxReport, tdxReportSha256⟩, tcbStatus, advisoryIds,
    measuredComposeHash, measuredAppId, publishedSourceProvenance, receiptKeyCustody⟩

end AciServiceMaterial

def sortedUnique : List String → Bool
  | a :: b :: l => a < b && sortedUnique (b :: l)
  | _ => true

def isString (v : Option Value) : Bool := (v.bind Value.asStr?).isSome

/-- Provenance names an image, or a commit of a repository. -/
def namesSource (p : Members) : Bool :=
  isString (p.lookup "image_digest") ||
    isString (p.lookup "repo_url") && isString (p.lookup "repo_commit")

/-- `valid_profile` for `aci-service`. -/
def validProfile (sha256 : Bytes → Bytes) (claims : Value) : Bool :=
  match decodeObj AciServiceMaterial.ofMembers claims with
  | some m =>
    m.tdx.valid sha256 ((claims.get? "tdx_report").getD .null) && m.tcbStatus ≠ "" &&
      sortedUnique m.advisoryIds && lowerHex m.measuredAppId && m.receiptKeyCustody.valid &&
      namesSource m.publishedSourceProvenance
  | none => false

/-! What is written is read back. -/

section RoundTrip

variable {n : Nat} (m : AciServiceMaterial)

theorem isLowerHexByte_of_mem {b : Bytes} {c : UInt8} (h : c ∈ utf8 (hexEncode b)) :
    isLowerHexByte c := by
  have := lowercase_of_mem_hexEncode h
  simpa [isLowerHexByte] using this

theorem lowerHex_hexEncode (b : Bytes) : lowerHex (hexEncode b) = decide (b ≠ []) := by
  have hall : (utf8 (hexEncode b)).all isLowerHexByte = true :=
    List.all_eq_true.mpr (fun _ => isLowerHexByte_of_mem)
  have hempty : hexEncode b = "" ↔ b = [] := by
    rw [← hexEncode_inj (b := [])]
    rfl
  simp [lowerHex, length_utf8_hexEncode, hall, hempty]

theorem Hex.parse_hexEncode {b : Bytes} (h : b.length = n) (hn : 0 < n) :
    Hex.parse n (hexEncode b) = some ⟨b, h⟩ := by
  have hne : b ≠ [] := List.ne_nil_of_length_pos (h ▸ hn)
  simp [Hex.parse, lowerHex_hexEncode, hne, h]

theorem Hex.bytes_of_parse {b : Bytes} {h : Hex n} (hp : Hex.parse n (hexEncode b) = some h) :
    h.bytes = b := by
  unfold Hex.parse at hp
  split at hp
  · simp only [hexDecode_hexEncode, Option.bind_eq_bind, Option.bind_some] at hp
    split at hp
    · cases hp
      rfl
    · cases hp
  · cases hp

theorem Hex.ofValue_toValue (hn : 0 < n) (h : Hex n) : Hex.ofValue n h.toValue = some h := by
  simp [Hex.ofValue, Hex.toValue, decodeString, Hex.parse_hexEncode h.sized hn]

@[simp] theorem format_ofValue_toValue (f : TdxReportFormat) :
    TdxReportFormat.ofValue f.toValue = some f := by
  cases f <;> rfl

open TdxReportMaterial

@[simp] theorem tdxReport_ofMembers_toValue (m : TdxReportMaterial) :
    decodeObj ofMembers m.toValue = some m := by
  cases m with
  | mk f a b c d e g h i j k l o p q svn td =>
  cases svn <;> cases td <;> simp [toValue, ofMembers, present,
      fields, defaultMember, required, member?, ifSome, Hex.ofValue_toValue]

@[simp] theorem custody_ofMembers_toValue (c : ReceiptCustody) :
    decodeObj ReceiptCustody.ofMembers c.toValue = some c := by
  simp [ReceiptCustody.toValue, ReceiptCustody.ofMembers, required, member?, Hex.ofValue_toValue]

theorem ofMembers_material : decodeObj AciServiceMaterial.ofMembers m.toValue = some m := by
  have hids : decodeList decodeString (.arr (m.advisoryIds.map Value.str)) = some m.advisoryIds :=
    decodeList_map decodeString_str m.advisoryIds
  simp [AciServiceMaterial.toValue, AciServiceMaterial.ofMembers, required, member?, hids,
    Hex.ofValue_toValue]

/-- What the recogniser asks of a material that was written by its own type. -/
theorem validProfile_toValue {sha256 : Bytes → Bytes} :
    validProfile sha256 m.toValue ↔
      m.tdx.valid sha256 m.tdx.tdxReport.toValue ∧ m.tcbStatus ≠ "" ∧
        sortedUnique m.advisoryIds ∧ lowerHex m.measuredAppId ∧ m.receiptKeyCustody.valid ∧
        namesSource m.publishedSourceProvenance := by
  have hreport : m.toValue.get? "tdx_report" = some m.tdx.tdxReport.toValue := by
    simp [AciServiceMaterial.toValue, Value.get?, List.lookup]
  simp only [validProfile, ofMembers_material, hreport, Option.getD_some, Bool.and_eq_true,
    decide_eq_true_eq, and_assoc]

theorem sortedUnique_iff {l : List String} : sortedUnique l ↔ l.IsChain (· < ·) := by
  induction l with
  | nil => simp [sortedUnique]
  | cons a l ih =>
    cases l with
    | nil => simp [sortedUnique]
    | cons b l => simp [sortedUnique, ih]

/-- Sorting and then dropping repetitions leaves an ascending list. -/
theorem sortedUnique_destutter (l : List String) :
    sortedUnique ((l.mergeSort (fun a b => a ≤ b)).destutter (· ≠ ·)) := by
  rw [sortedUnique_iff]
  have hsorted := List.pairwise_mergeSort' (α := String) (· ≤ ·) l
  have hle := (hsorted.sublist (List.destutter_sublist (· ≠ ·) _)).isChain
  have hne := List.isChain_destutter (· ≠ ·) (l.mergeSort (fun a b => a ≤ b))
  rw [List.isChain_iff_getElem] at *
  exact fun i hi => lt_of_le_of_ne (hle i hi) (hne i hi)

end RoundTrip

end AciGateway.Verify
