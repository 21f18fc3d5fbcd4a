import AciGateway.Session.Document

/-! Reading session documents and log records back from their JSON. -/
namespace AciGateway.Session

open Octets Json Digest SessionDocument

/-- One line in the append-only session log. -/
structure SessionLogRecord where
  seq : U64
  ts : U64
  recordType : String
  fingerprint : Option String
  retentionUntil : Option U64
  contentType : Option String
  /-- Evidence: the bundle bytes. Session: the document without its evidence data. -/
  payloadB64 : String
  deriving DecidableEq

def SessionLogRecord.toValue (r : SessionLogRecord) : Value :=
  .obj ([("seq", encodeU64 r.seq), ("ts", encodeU64 r.ts), ("type", .str r.recordType)] ++
    ifSome "fingerprint" .str r.fingerprint ++ ifSome "retention_until" encodeU64 r.retentionUntil ++
    ifSome "content_type" .str r.contentType ++ [("payload_b64", .str r.payloadB64)])

def SessionLogRecord.ofMembers (ms : Members) : Option SessionLogRecord := do
  let seq ← required "seq" decodeU64 ms
  let ts ← required "ts" decodeU64 ms
  let recordType ← required "type" decodeString ms
  let fingerprint ← optionalMember "fingerprint" decodeString ms
  let retentionUntil ← optionalMember "retention_until" decodeU64 ms
  let contentType ← optionalMember "content_type" decodeString ms
  let payloadB64 ← required "payload_b64" decodeString ms
  some { seq, ts, recordType, fingerprint, retentionUntil, contentType, payloadB64 }

variable (r : SessionLogRecord) (d : SessionDocument) (i : WorkloadIdentityRef) (e : EvidenceRef)

theorem record_ofMembers : decodeObj SessionLogRecord.ofMembers r.toValue = some r := by
  obtain ⟨seq, ts, type, fingerprint, retention, contentType, payload⟩ := r
  cases fingerprint <;> cases retention <;> cases contentType <;>
    simp [SessionLogRecord.toValue, SessionLogRecord.ofMembers, required, optionalMember, member?,
      ifSome, encodeU64, decodeU64]

def ClaimStatus.decode : Value → Option ClaimStatus
  | .str "asserted" => some .asserted
  | .str "refuted" => some .refuted
  | .str "unknown" => some .unknown
  | _ => none

def ClaimSource.decode : Value → Option ClaimSource
  | .str "hardware_proven" => some .hardwareProven
  | .str "verifier_derived" => some .verifierDerived
  | .str "provider_asserted" => some .providerAsserted
  | .str "operator_asserted" => some .operatorAsserted
  | _ => none

def Claim.ofMembers (ms : Members) : Option Claim := do
  let status ← required "status" ClaimStatus.decode ms
  let source ← optionalMember "source" ClaimSource.decode ms
  let reason ← optionalMember "reason" decodeString ms
  some { status, source, reason }

/-- Reads the maps that are written: members in name order, no name twice. -/
def ValueMap.decode (v : Value) : Option ValueMap :=
  match v with
  | .obj ms =>
    if h : (ms.map Prod.fst).Pairwise (· < ·) ∧ uniqueKeysMembers ms then some ⟨ms, h.1, h.2⟩
    else none
  | _ => none

def ValueMap.ofMembers (ms : Members) : Option ValueMap := do
  match ← member? "extra" ms with
  | none => some .empty
  | some v => ValueMap.decode v

def SessionClaims.ofMembers (ms : Members) : Option SessionClaims := do
  let claim := fun k => required k (decodeObj Claim.ofMembers) ms
  let teeAttested ← claim "tee_attested"
  let gpuAttested ← claim "gpu_attested"
  let tcbUpToDate ← claim "tcb_up_to_date"
  let osKnownGood ← claim "os_known_good"
  let servingSoftwareKnownGood ← claim "serving_software_known_good"
  let modelWeightsProvenance ← claim "model_weights_provenance"
  let extra ← ValueMap.ofMembers ms
  some { teeAttested, gpuAttested, tcbUpToDate, osKnownGood, servingSoftwareKnownGood,
         modelWeightsProvenance, extra }

def EvidenceRef.ofMembers (ms : Members) : Option EvidenceRef := do
  let digest ← optionalMember "digest" decodeString ms
  let dataUri ← optionalMember "data" decodeString ms
  some { digest, dataUri }

def WorkloadIdentityRef.ofMembers (ms : Members) : Option WorkloadIdentityRef := do
  let signingAddress ← optionalMember "signing_address" decodeString ms
  let extra ← ValueMap.ofMembers ms
  some { signingAddress, extra }

def ChannelBinding.ofMembers (ms : Members) : Option ChannelBinding := do
  let text := fun k => required k decodeString ms
  match ← text "type" with
  | "tls_spki_sha256" => some (.tlsSpkiSha256 (← text "origin") (← text "spki_sha256"))
  | "e2ee_public_key_sha256" =>
    some (.e2eePublicKeySha256 (← text "provider") (← optionalMember "key_id" decodeString ms)
      (← text "algorithm") (← text "public_key_sha256"))
  | "proxy_image_sha256" =>
    some (.proxyImageSha256 (← text "provider") (← text "proxy_image_digest")
      (← text "credential_sha256"))
  | _ => none

def SessionDocument.ofMembers (ms : Members) : Option SessionDocument := do
  let apiVersion ← required "api_version" decodeString ms
  let upstreamName ← required "upstream_name" decodeString ms
  let endpoint ← optionalMember "endpoint" decodeString ms
  let verifierId ← required "verifier_id" decodeString ms
  let establishedAt ← required "established_at" decodeU64 ms
  let expiresAt ← required "expires_at" decodeU64 ms
  let identity ← optionalMember "identity" (decodeObj WorkloadIdentityRef.ofMembers) ms
  let channelBinding ←
    required "channel_binding" (decodeList (decodeObj ChannelBinding.ofMembers)) ms
  let claims ← required "claims" (decodeObj SessionClaims.ofMembers) ms
  let evidence ← required "evidence" (decodeObj EvidenceRef.ofMembers) ms
  some { apiVersion, upstreamName, endpoint, verifierId, establishedAt, expiresAt, identity,
         channelBinding, claims, evidence }

@[simp] theorem status_decode (s : ClaimStatus) : ClaimStatus.decode (.str s.name) = some s := by
  cases s <;> rfl

@[simp] theorem source_decode (s : ClaimSource) : ClaimSource.decode (.str s.name) = some s := by
  cases s <;> rfl

@[simp] theorem claim_ofMembers (c : Claim) : decodeObj Claim.ofMembers c.toValue = some c := by
  obtain ⟨status, source, reason⟩ := c
  cases source <;> cases reason <;>
    simp [Claim.toValue, Claim.ofMembers, required, optionalMember, member?, ifSome]

theorem map_decode (m : ValueMap) : ValueMap.decode (.obj m.members) = some m :=
  dif_pos ⟨m.ordered, m.unique⟩

theorem filter_extra (m : ValueMap) (k : String) :
    m.toMembers.filter (fun x => decide (x.1 = k)) = if k = "extra" then m.toMembers else [] := by
  unfold ValueMap.toMembers
  by_cases hm : m.members = [] <;> by_cases hk : k = "extra" <;> simp [hm, hk, eq_comm]

/-- The raw facts are read back, whatever stands before them. -/
theorem extra_ofMembers (ms : Members) (m : ValueMap)
    (h : ms.filter (fun x => decide (x.1 = "extra")) = []) :
    ValueMap.ofMembers (ms ++ m.toMembers) = some m := by
  simp only [ValueMap.ofMembers, member?, List.filter_append, h, filter_extra, if_true,
    List.nil_append]
  unfold ValueMap.toMembers
  by_cases hm : m.members = []
  · obtain ⟨members, ordered, unique⟩ := m
    subst hm
    rfl
  · simp [hm, map_decode]

@[simp] theorem claims_ofMembers (c : SessionClaims) :
    decodeObj SessionClaims.ofMembers c.toValue = some c := by
  have hx := fun (ms : Members) h => extra_ofMembers ms c.extra h
  simp only [SessionClaims.toValue, SessionClaims.ofMembers, decodeObj_obj]
  rw [hx _ (by simp)]
  simp [required, member?, filter_extra]

@[simp] theorem evidence_ofMembers : decodeObj EvidenceRef.ofMembers e.toValue = some e := by
  obtain ⟨digest, dataUri⟩ := e
  cases digest <;> cases dataUri <;>
    simp [EvidenceRef.toValue, EvidenceRef.ofMembers, optionalMember, member?, ifSome]

@[simp] theorem identity_ofMembers :
    decodeObj WorkloadIdentityRef.ofMembers i.toValue = some i := by
  have hx := fun (ms : Members) h => extra_ofMembers ms i.extra h
  simp only [WorkloadIdentityRef.toValue, WorkloadIdentityRef.ofMembers, decodeObj_obj]
  rw [hx _ (by simp)]
  obtain ⟨signingAddress, extra⟩ := i
  cases signingAddress <;> simp [optionalMember, member?, filter_extra, ifSome]

@[simp] theorem nullable_identity :
    nullable (decodeObj WorkloadIdentityRef.ofMembers) i.toValue = some (some i) := by
  have h : nullable (decodeObj WorkloadIdentityRef.ofMembers) i.toValue =
      (decodeObj WorkloadIdentityRef.ofMembers i.toValue).map some := rfl
  rw [h, identity_ofMembers]
  rfl

@[simp] theorem binding_ofMembers (b : ChannelBinding) :
    decodeObj ChannelBinding.ofMembers b.toValue = some b := by
  cases b with
  | tlsSpkiSha256 origin spki =>
    simp [ChannelBinding.toValue, ChannelBinding.ofMembers, required, member?]
  | e2eePublicKeySha256 provider keyId algorithm key =>
    cases keyId <;> simp [ChannelBinding.toValue, ChannelBinding.ofMembers, required,
      optionalMember, member?, ifSome]
  | proxyImageSha256 provider image credential =>
    simp [ChannelBinding.toValue, ChannelBinding.ofMembers, required, member?]

/-- A document is read back as it was written. -/
theorem document_ofMembers : decodeObj ofMembers d.toValue = some d := by
  obtain ⟨apiVersion, upstreamName, endpoint, verifierId, establishedAt, expiresAt, identity,
    channelBinding, claims, evidence⟩ := d
  have hb := decodeList_map binding_ofMembers channelBinding
  cases endpoint <;> cases identity <;> simp [toValue, toMembers, ofMembers, required,
      optionalMember, member?, ifSome, encodeEndpoint, hb]

theorem depth_record : depth r.toValue = 1 := by
  obtain ⟨seq, ts, type, fingerprint, retention, contentType, payload⟩ := r
  cases fingerprint <;> cases retention <;> cases contentType <;>
    simp [SessionLogRecord.toValue, ifSome, encodeU64, depth, depthMembers]

theorem integral_record : integral r.toValue := by
  obtain ⟨seq, ts, type, fingerprint, retention, contentType, payload⟩ := r
  cases fingerprint <;> cases retention <;> cases contentType <;>
    simp [SessionLogRecord.toValue, ifSome, encodeU64, integral, integralMembers]

theorem depth_evidence : depth e.toValue = 1 := by
  obtain ⟨digest, dataUri⟩ := e
  cases digest <;> cases dataUri <;> simp [EvidenceRef.toValue, ifSome, depth, depthMembers]

theorem integral_evidence : integral e.toValue := by
  obtain ⟨digest, dataUri⟩ := e
  cases digest <;> cases dataUri <;> simp [EvidenceRef.toValue, ifSome, integral, integralMembers]

/-- Stripping a document changes its last member only. -/
theorem strip_toMembers : ∃ front,
    d.toMembers = front ++ [("evidence", d.evidence.toValue)] ∧
      d.strip.toMembers = front ++ [("evidence", d.strip.evidence.toValue)] := by
  refine ⟨[("api_version", .str d.apiVersion), ("upstream_name", .str d.upstreamName),
    ("endpoint", encodeEndpoint d.endpoint), ("verifier_id", .str d.verifierId),
    ("established_at", encodeU64 d.establishedAt), ("expires_at", encodeU64 d.expiresAt)] ++
    ifSome "identity" WorkloadIdentityRef.toValue d.identity ++
    [("channel_binding", .arr (d.channelBinding.map ChannelBinding.toValue)),
      ("claims", d.claims.toValue)], ?_, ?_⟩
  · simp [toMembers]
  · simp [toMembers, strip]

theorem integral_strip {d : SessionDocument} (h : integral d.toValue) :
    integral d.strip.toValue := by
  obtain ⟨front, hd, hs⟩ := strip_toMembers d
  simp only [toValue, integral, integralMembers_iff, hd, hs,
    List.forall_mem_append, List.forall_mem_singleton, integral_evidence, and_true] at h ⊢
  exact h

theorem depth_strip : depth d.strip.toValue = depth d.toValue := by
  obtain ⟨front, hd, hs⟩ := strip_toMembers d
  simp only [toValue, depth, Nat.add_right_cancel_iff]
  refine eq_of_forall_ge_iff fun n => ?_
  simp only [depthMembers_le_iff, hd, hs, List.forall_mem_append, List.forall_mem_singleton,
    depth_evidence]

/-! The JSON reader of the log. -/

/-- The reader behind the log: what it makes of any bytes is its own affair, but it reads back
what the log's writer printed, unless that nests too deep for it. -/
structure Reader where
  record : Bytes → Option SessionLogRecord
  document : Bytes → Option SessionDocument
  record_print : ∀ r : SessionLogRecord, record (print r.toValue) = some r
  document_print : ∀ d : SessionDocument, depth d.toValue ≤ 127 → integral d.toValue →
    document (print d.toValue) = some d
  document_deep : ∀ d : SessionDocument, 127 < depth d.toValue → integral d.toValue →
    document (print d.toValue) = none

/-- A reader that accepts just the members it knows. -/
def Reader.strict : Reader where
  record b := (parse (fun _ => none) 127 b).bind (decodeObj SessionLogRecord.ofMembers)
  document b := (parse (fun _ => none) 127 b).bind (decodeObj SessionDocument.ofMembers)
  record_print r := by
    rw [parse_print _ (by rw [depth_record]; omega) (integral_record r)]
    exact record_ofMembers r
  document_print d hd hi := by
    rw [parse_print _ hd hi]
    exact document_ofMembers d
  document_deep d hd hi := by
    rw [parse_print_none _ hd hi]
    rfl

end AciGateway.Session
