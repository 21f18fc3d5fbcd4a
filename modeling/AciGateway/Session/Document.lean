import AciGateway.Digest
import AciGateway.Lib.JsonDecode
import AciGateway.Lib.Text

/-! Attested sessions: the document, its sealed bytes, and the evidence bundle it carries. -/
namespace AciGateway.Session

open Octets Json Digest

inductive ClaimStatus where
  | asserted
  | refuted
  | unknown
  deriving DecidableEq

def ClaimStatus.name : ClaimStatus → String
  | .asserted => "asserted"
  | .refuted => "refuted"
  | .unknown => "unknown"

inductive ClaimSource where
  | hardwareProven
  | verifierDerived
  | providerAsserted
  | operatorAsserted
  deriving DecidableEq

def ClaimSource.name : ClaimSource → String
  | .hardwareProven => "hardware_proven"
  | .verifierDerived => "verifier_derived"
  | .providerAsserted => "provider_asserted"
  | .operatorAsserted => "operator_asserted"

structure Claim where
  status : ClaimStatus
  source : Option ClaimSource
  reason : Option String
  deriving DecidableEq

/-- A claim with no evidence either way. -/
def Claim.unknown : Claim := ⟨.unknown, none, none⟩

/-- A `BTreeMap<String, Value>`: members in strict name order, and no name twice inside any
of the values. -/
structure ValueMap where
  members : Members
  ordered : (members.map Prod.fst).Pairwise (· < ·)
  unique : uniqueKeysMembers members

def ValueMap.empty : ValueMap := ⟨[], by simp, rfl⟩

structure SessionClaims where
  teeAttested : Claim
  gpuAttested : Claim
  tcbUpToDate : Claim
  osKnownGood : Claim
  servingSoftwareKnownGood : Claim
  modelWeightsProvenance : Claim
  extra : ValueMap

structure EvidenceRef where
  digest : Option String
  dataUri : Option String
  deriving DecidableEq

structure WorkloadIdentityRef where
  signingAddress : Option String
  extra : ValueMap

inductive ChannelBinding where
  | tlsSpkiSha256 (origin spkiSha256 : String)
  | e2eePublicKeySha256 (provider : String) (keyId : Option String)
      (algorithm publicKeySha256 : String)
  | proxyImageSha256 (provider proxyImageDigest credentialSha256 : String)
  deriving DecidableEq

structure SessionDocument where
  apiVersion : String
  upstreamName : String
  endpoint : Option String
  verifierId : String
  establishedAt : U64
  expiresAt : U64
  identity : Option WorkloadIdentityRef
  channelBinding : List ChannelBinding
  claims : SessionClaims
  evidence : EvidenceRef

/-! Serialization. Members follow the order of the fields; an absent optional field is left
out, except that an absent endpoint is `null`. -/

def Claim.toValue (c : Claim) : Value :=
  .obj ([("status", .str c.status.name)] ++ ifSome "source" (fun s => .str s.name) c.source ++
    ifSome "reason" .str c.reason)

/-- The raw facts, left out when there are none. -/
def ValueMap.toMembers (m : ValueMap) : Members :=
  if m.members = [] then [] else [("extra", .obj m.members)]

def SessionClaims.toValue (c : SessionClaims) : Value :=
  .obj ([("tee_attested", c.teeAttested.toValue), ("gpu_attested", c.gpuAttested.toValue),
    ("tcb_up_to_date", c.tcbUpToDate.toValue), ("os_known_good", c.osKnownGood.toValue),
    ("serving_software_known_good", c.servingSoftwareKnownGood.toValue),
    ("model_weights_provenance", c.modelWeightsProvenance.toValue)] ++ c.extra.toMembers)

def EvidenceRef.toValue (e : EvidenceRef) : Value :=
  .obj (ifSome "digest" .str e.digest ++ ifSome "data" .str e.dataUri)

def WorkloadIdentityRef.toValue (i : WorkloadIdentityRef) : Value :=
  .obj (ifSome "signing_address" .str i.signingAddress ++ i.extra.toMembers)

def ChannelBinding.toValue : ChannelBinding → Value
  | .tlsSpkiSha256 origin spki =>
    .obj [("type", .str "tls_spki_sha256"), ("origin", .str origin), ("spki_sha256", .str spki)]
  | .e2eePublicKeySha256 provider keyId algorithm key =>
    .obj ([("type", .str "e2ee_public_key_sha256"), ("provider", .str provider)] ++
      ifSome "key_id" .str keyId ++
      [("algorithm", .str algorithm), ("public_key_sha256", .str key)])
  | .proxyImageSha256 provider image credential =>
    .obj [("type", .str "proxy_image_sha256"), ("provider", .str provider),
      ("proxy_image_digest", .str image), ("credential_sha256", .str credential)]

def encodeEndpoint : Option String → Value
  | some endpoint => .str endpoint
  | none => .null

def SessionDocument.toMembers (d : SessionDocument) : Members :=
  [("api_version", .str d.apiVersion), ("upstream_name", .str d.upstreamName),
    ("endpoint", encodeEndpoint d.endpoint), ("verifier_id", .str d.verifierId),
    ("established_at", encodeU64 d.establishedAt), ("expires_at", encodeU64 d.expiresAt)] ++
  ifSome "identity" WorkloadIdentityRef.toValue d.identity ++
  [("channel_binding", .arr (d.channelBinding.map ChannelBinding.toValue)),
    ("claims", d.claims.toValue), ("evidence", d.evidence.toValue)]

def SessionDocument.toValue (d : SessionDocument) : Value := .obj d.toMembers

section Sha

variable (sha256 : Bytes → Bytes)

/-- The content type and the bytes of a complete bundle, if the data URI holds one that
hashes to the digest. -/
def EvidenceRef.decode (e : EvidenceRef) : Option (String × Bytes) := do
  let digest ← e.digest
  let dataUri ← e.dataUri
  let (contentType, b64) ← Text.splitOnce ";base64," (← Text.stripPrefix "data:" dataUri)
  let bytes ← base64Decode b64
  if sha256Hex sha256 bytes = digest then some (contentType, bytes) else none

def EvidenceRef.fromBytes (contentType : String) (bytes : Bytes) : EvidenceRef where
  digest := some (sha256Hex sha256 bytes)
  dataUri := some ("data:" ++ contentType ++ ";base64," ++ base64Encode bytes)

/-- A session frozen with its canonical bytes and its content address. -/
structure AttestedSession where
  sessionId : String
  bytes : Bytes
  document : SessionDocument
  bytes_eq : jcsBytes document.toValue = .ok bytes
  sessionId_eq : sessionId = sha256BareHex sha256 bytes

def AttestedSession.seal (document : SessionDocument) :
    Except JcsError (AttestedSession sha256) :=
  match h : jcsBytes document.toValue with
  | .ok bytes => .ok ⟨sha256BareHex sha256 bytes, bytes, document, h, rfl⟩
  | .error e => .error e

/-- The document without the bytes of its bundle. -/
def SessionDocument.strip (d : SessionDocument) : SessionDocument :=
  { d with evidence := { d.evidence with dataUri := none } }

/-- A session split for storage. -/
structure SplitSession where
  sessionId : String
  stripped : SessionDocument
  digest : String
  contentType : String
  bundle : Bytes
  digest_eq : stripped.evidence.digest = some digest

/-- `none` when the session has no complete evidence bundle. -/
def SplitSession.new (session : AttestedSession sha256) : Option SplitSession :=
  match session.document.evidence.decode sha256, hd : session.document.evidence.digest with
  | some (contentType, bundle), some digest =>
    some { sessionId := session.sessionId, stripped := session.document.strip, digest,
           contentType, bundle, digest_eq := hd }
  | _, _ => none

end Sha

variable {sha256 : Bytes → Bytes} {e : EvidenceRef} {contentType : String} {bytes : Bytes}
  {session : AttestedSession sha256} {split : SplitSession} {d d' : SessionDocument}

open EvidenceRef

/-- A complete bundle is written back exactly as it was read. -/
theorem fromBytes_of_decode (h : e.decode sha256 = some (contentType, bytes)) :
    fromBytes sha256 contentType bytes = e := by
  simp only [decode, Option.bind_eq_bind, Option.bind_eq_some_iff] at h
  obtain ⟨digest, hd, uri, hu, rest, hr, ⟨ct, b64⟩, hs, decoded, hb, he⟩ := h
  split at he
  · next hdig =>
    obtain ⟨rfl, rfl⟩ := Prod.mk.inj (Option.some.inj he)
    have huri : "data:" ++ ct ++ ";base64," ++ base64Encode decoded = uri := by
      rw [base64Encode_of_base64Decode hb, ← Text.stripPrefix_eq hr, ← Text.splitOnce_eq hs]
      simp [String.append_assoc]
    cases e
    simp_all [fromBytes]
  · cases he

/-- Evidence written for a content type without the mark of the data is complete. -/
theorem decode_fromBytes (h : Text.contains contentType ";base64," = false) :
    (fromBytes sha256 contentType bytes).decode sha256 =
      some (contentType, bytes) := by
  have hstrip := Text.stripPrefix_append "data:"
    (contentType ++ ";base64," ++ base64Encode bytes)
  have hsplit := Text.splitOnce_append (base64Encode bytes)
    (show ";base64,".toList = ';' :: "base64,".toList by decide) (by decide) h
  simp only [← String.append_assoc] at hstrip
  simp [decode, fromBytes, hstrip, hsplit]

@[simp] theorem seal_document (session : AttestedSession sha256) :
    AttestedSession.seal sha256 session.document = .ok session := by
  obtain ⟨id, bytes, document, hb, hid⟩ := session
  unfold AttestedSession.seal
  split
  · next b h =>
    obtain rfl : b = bytes := Except.ok.inj (h.symm.trans hb)
    subst hid
    rfl
  · next err h => cases h.symm.trans hb

open SplitSession

/-- A session splits when its evidence is complete. -/
theorem exists_split (h : session.document.evidence.decode sha256 = some (contentType, bytes)) :
    ∃ split, new sha256 session = some split ∧ split.contentType = contentType ∧
      split.bundle = bytes := by
  unfold new
  split
  · next ct bundle digest hdec hdig =>
    obtain ⟨rfl, rfl⟩ := Prod.mk.inj (Option.some.inj (h.symm.trans hdec))
    exact ⟨_, rfl, rfl, rfl⟩
  · next hno =>
    cases hdig : session.document.evidence.digest with
    | none => simp [decode, hdig] at h
    | some digest => exact (hno _ _ _ h hdig).elim

/-- What splitting keeps: the id, the stripped document, and a bundle from which the
evidence is rebuilt. -/
theorem split_spec (h : new sha256 session = some split) :
    split.sessionId = session.sessionId ∧ split.stripped = session.document.strip ∧
      EvidenceRef.fromBytes sha256 split.contentType split.bundle = session.document.evidence ∧
      split.digest = sha256Hex sha256 split.bundle := by
  unfold new at h
  split at h
  · next contentType bundle digest hdec hdig =>
    cases h
    have hev := fromBytes_of_decode hdec
    refine ⟨rfl, rfl, hev, ?_⟩
    have := congrArg EvidenceRef.digest hev
    rw [hdig] at this
    exact (Option.some.inj this).symm
  · cases h

/-- Putting the bundle back restores the document. -/
theorem restore_split (h : new sha256 session = some split) :
    { split.stripped with
      evidence := fromBytes sha256 split.contentType split.bundle } =
        session.document := by
  obtain ⟨-, hs, he, -⟩ := split_spec h
  rw [hs, he]
  rfl

theorem nodup_toMembers (d : SessionDocument) : (d.toMembers.map Prod.fst).Nodup := by
  cases h : d.identity <;> simp [SessionDocument.toMembers, ifSome, h]

theorem nodup_evidence (e : EvidenceRef) :
    ((ifSome "digest" Value.str e.digest ++ ifSome "data" Value.str e.dataUri).map
      Prod.fst).Nodup := by
  cases hd : e.digest <;> cases hu : e.dataUri <;> simp [ifSome]

theorem lookup_evidence (d : SessionDocument) :
    d.toMembers.lookup "evidence" = some d.evidence.toValue := by
  cases h : d.identity <;> simp [SessionDocument.toMembers, ifSome, h, List.lookup_cons]

theorem lookup_digest (e : EvidenceRef) :
    (ifSome "digest" Value.str e.digest ++ ifSome "data" Value.str e.dataUri).lookup "digest" =
      e.digest.map .str := by
  cases hd : e.digest <;> cases hu : e.dataUri <;> simp [ifSome, List.lookup_cons]

theorem mem_evidence (d : SessionDocument) : ("evidence", d.evidence.toValue) ∈ d.toMembers := by
  simp [SessionDocument.toMembers]

theorem get?_digest {x : Value} (h : sorted e.toValue = .ok x) :
    x.get? "digest" = e.digest.map .str := by
  rw [get?_sorted (nodup_evidence e) h, lookup_digest]
  cases e.digest <;> simp [sorted, Except.toOption]

/-- Canonical bytes name one evidence digest. -/
theorem digest_of_jcsBytes (h : jcsBytes d.toValue = .ok bytes)
    (h' : jcsBytes d'.toValue = .ok bytes) : d.evidence.digest = d'.evidence.digest := by
  obtain ⟨w, hw, hw'⟩ := sorted_of_jcsBytes h h'
  obtain ⟨x, hx⟩ := sorted_member hw (mem_evidence d)
  obtain ⟨x', hx'⟩ := sorted_member hw' (mem_evidence d')
  have hev := get?_sorted (nodup_toMembers d) hw "evidence"
  have hev' := get?_sorted (nodup_toMembers d') hw' "evidence"
  simp only [lookup_evidence, hx, hx', Option.bind_some, Except.toOption] at hev hev'
  obtain rfl : x = x' := Option.some.inj (hev.symm.trans hev')
  have hd := (get?_digest hx).symm.trans (get?_digest hx')
  exact Option.map_injective (fun _ _ h => by simpa using h) hd

/-- A document that makes no claims, for the given evidence. -/
def SessionDocument.bare (establishedAt expiresAt : U64) (evidence : EvidenceRef) :
    SessionDocument where
  apiVersion := "aci/1"
  upstreamName := "phala-direct"
  endpoint := none
  verifierId := "phala-direct/1"
  establishedAt
  expiresAt
  identity := none
  channelBinding := []
  claims := ⟨.unknown, .unknown, .unknown, .unknown, .unknown, .unknown, .empty⟩
  evidence

theorem canonical_bare (establishedAt expiresAt : U64) (e : EvidenceRef) :
    canonical (SessionDocument.bare establishedAt expiresAt e).toValue := by
  obtain ⟨digest, dataUri⟩ := e
  cases digest <;> cases dataUri <;> rfl

/-- A document without claims can be sealed, and splits into the evidence it was given. -/
theorem exists_split_bare (sha256 : Bytes → Bytes) (establishedAt expiresAt : U64)
    (contentType : String) (bundle : Bytes) (h : Text.contains contentType ";base64," = false) :
    ∃ (session : AttestedSession sha256) (split : SplitSession),
      session.document =
        .bare establishedAt expiresAt (.fromBytes sha256 contentType bundle) ∧
      new sha256 session = some split ∧ split.contentType = contentType ∧
      split.bundle = bundle := by
  obtain ⟨bytes, hb⟩ := jcsBytes_of_canonical (canonical_bare establishedAt expiresAt
    (.fromBytes sha256 contentType bundle))
  let session : AttestedSession sha256 := ⟨sha256BareHex sha256 bytes, bytes, _, hb, rfl⟩
  have hdec : session.document.evidence.decode sha256 = some (contentType, bundle) :=
    decode_fromBytes h
  obtain ⟨split, hsplit⟩ := exists_split hdec
  exact ⟨session, split, rfl, hsplit⟩

end AciGateway.Session
