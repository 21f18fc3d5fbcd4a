import AciGateway.Dstack.EventLog
import AciGateway.Verify.SessionMaterial

/-! The KMS chain behind the receipt key, and which chains a verifier accepts. -/
namespace AciGateway.Verify

open Octets Json Results Dstack ReceiptCustody

/-- The secp256k1 library: the key of an encoded point, the key that signed a message (from
the 64 bytes of a signature and a recovery id), and the compressed form of a key. -/
structure Secp256k1 where
  Key : Type
  fromEncodedPoint : Bytes → Except String Key
  recoverFromDigest : Bytes → Bytes → UInt8 → Except String Key
  toSec1Bytes : Key → Hex 33
  compressed : ∀ key, ReceiptCustody.compressed (toSec1Bytes key)

inductive KeyCustodyError where
  | missingKeyCustody
  | unsupportedKeyCustodyProvider (provider : String)
  | invalidKeyCustody (message : String)
  | invalidHex (e : EventLogError)
  | missingReceiptKeyCustody
  | receiptKeyCustodyMismatch
  | kmsSignatureChain (message : String)
  | kmsRootRejected

structure VerifiedReceiptCustody where
  provider : String
  receiptPublicKey : String
  purpose : String
  kmsPublicKey : String
  appPublicKey : String
  rootPublicKey : String

section

variable (secp : Secp256k1) (debug : String → String)

def recoverK256PublicKey (message signature : Bytes) : Except String secp.Key := do
  ensure (signature.length = 65)
    ("recoverable secp256k1 signature must be 65 bytes, got " ++ toString signature.length)
  let last := signature.getLast?.getD 0
  -- Ethereum's offset of the recovery id is accepted as well.
  let recid := if 27 ≤ last ∧ last ≤ 30 then last - 27 else last
  ensure (recid < 4) ("invalid recovery id: " ++ toString last.toNat)
  secp.recoverFromDigest message (signature.take 64) recid

def compressedK256PublicKeyHex (publicKeyHex : String) : Except KeyCustodyError String := do
  let publicKey ← (decodeHex publicKeyHex).mapError .invalidHex
  let key ← (secp.fromEncodedPoint publicKey).mapError
    (fun e => .kmsSignatureChain ("invalid secp256k1 public key: " ++ e))
  pure (hexEncode (secp.toSec1Bytes key).bytes)

/-- A text field of the receipt's entry. -/
def custodyField (receipt : Value) (name : String) : Except KeyCustodyError String :=
  okOr ((receipt.get? name).bind Value.asStr?)
    (.invalidKeyCustody ("receipt key custody missing " ++ name))

def custodySignature (chain : List Value) (index : Nat) : Except KeyCustodyError Bytes := do
  let text ← okOr ((chain[index]?).bind Value.asStr?) (.invalidKeyCustody
    ("receipt key custody signature_chain[" ++ toString index ++ "] is not a string"))
  (decodeHex text).mapError .invalidHex

def asArray? : Value → Option (List Value)
  | .arr vs => some vs
  | _ => none

/-- The first entry for the receipt role. -/
def receiptCustody (evidence : Value) : Except KeyCustodyError (String × Value) := do
  let keyCustody ← okOr (evidence.get? "key_custody") .missingKeyCustody
  let provider ← okOr ((keyCustody.get? "provider").bind Value.asStr?)
    (.invalidKeyCustody "missing provider")
  ensure (provider = "dstack-kms") (.unsupportedKeyCustodyProvider provider)
  let keys ← okOr ((keyCustody.get? "keys").bind asArray?) (.invalidKeyCustody "missing keys")
  let receipt ← okOr (keys.find? (fun key => (key.get? "role").bind Value.asStr? = some "receipt"))
    .missingReceiptKeyCustody
  pure (provider, receipt)

def purposeMessage (purpose kmsPublicKey : String) : Bytes := utf8 (purpose ++ ":" ++ kmsPublicKey)

def rootMessage (appId appPublicKey : Bytes) : Bytes :=
  utf8 "dstack-kms-issued" ++ utf8 ":" ++ appId ++ appPublicKey

/-- The chain from the measured app-id to the root it ends in. -/
def verifyKmsReceiptCustody (evidence : Value) (keyset : WorkloadKeyset) (appId : Bytes) :
    Except KeyCustodyError VerifiedReceiptCustody := do
  let (provider, receipt) ← receiptCustody evidence
  let publicKey ← custodyField receipt "public_key"
  ensure (keyset.receiptSigningKeys.any (fun key => key.publicKeyHex = publicKey))
    .receiptKeyCustodyMismatch
  let kmsPublicKey ← custodyField receipt "kms_public_key"
  let purpose ← custodyField receipt "purpose"
  ensure (purpose = "aci.receipt.ed25519.v1") (.invalidKeyCustody
    ("receipt key custody purpose is " ++ debug purpose ++
      ", expected \"aci.receipt.ed25519.v1\""))
  let signatureChain ← okOr ((receipt.get? "signature_chain").bind asArray?)
    (.invalidKeyCustody "receipt key custody missing signature_chain")
  ensure (signatureChain.length = 2) (.invalidKeyCustody
    ("receipt key custody signature_chain must contain 2 signatures, got " ++
      toString signatureChain.length))
  let purposeSignature ← custodySignature signatureChain 0
  let appSignature ← custodySignature signatureChain 1
  let kmsPublicKey ← compressedK256PublicKeyHex secp kmsPublicKey
  let appPublicKey ← (recoverK256PublicKey secp (purposeMessage purpose kmsPublicKey)
    purposeSignature).mapError .kmsSignatureChain
  let appBytes := (secp.toSec1Bytes appPublicKey).bytes
  let rootPublicKey ← (recoverK256PublicKey secp (rootMessage appId appBytes)
    appSignature).mapError .kmsSignatureChain
  let receiptPublicKey ← (decodeHex publicKey).mapError .invalidHex
  pure {
    provider, purpose, kmsPublicKey
    receiptPublicKey := hexEncode receiptPublicKey
    appPublicKey := hexEncode appBytes
    rootPublicKey := hexEncode (secp.toSec1Bytes rootPublicKey).bytes }

end

structure SourceProvenance where
  repoUrl : Option String
  repoCommit : Option String
  imageDigest : Option String
  imageProvenance : Option Value

def SourceProvenance.toMembers (p : SourceProvenance) : Members :=
  [("repo_url", encodeOption .str p.repoUrl), ("repo_commit", encodeOption .str p.repoCommit),
    ("image_digest", encodeOption .str p.imageDigest),
    ("image_provenance", encodeOption id p.imageProvenance)]

inductive AciServiceVerifierConfigError where
  | emptyPolicy
  | emptyKmsRootPolicy
  | invalidKmsRootPublicKey (e : KeyCustodyError)

structure AciServiceVerifierPolicy where
  acceptedSubjects : List String
  acceptedImageDigests : List String
  acceptedKmsRootPublicKeys : List String

namespace AciServiceVerifierPolicy

def new (secp : Secp256k1) (subjects imageDigests kmsRoots : List String) :
    Except AciServiceVerifierConfigError AciServiceVerifierPolicy := do
  let acceptedSubjects := subjects.filter (· ≠ "")
  let acceptedImageDigests := imageDigests.filter (· ≠ "")
  let acceptedKmsRootPublicKeys ← kmsRoots.mapM (fun key =>
    (compressedK256PublicKeyHex secp key).mapError .invalidKmsRootPublicKey)
  ensure (acceptedSubjects ≠ [] ∨ acceptedImageDigests ≠ []) .emptyPolicy
  ensure (acceptedKmsRootPublicKeys ≠ []) .emptyKmsRootPolicy
  pure { acceptedSubjects, acceptedImageDigests, acceptedKmsRootPublicKeys }

/-- A declared subject may only restate the measured app-id. -/
def acceptsMeasured (policy : AciServiceVerifierPolicy) (keyset : WorkloadKeyset)
    (provenance : SourceProvenance) (measuredAppId : Bytes) : Bool :=
  let measuredSubject := "app-id:0x" ++ hexEncode measuredAppId
  if keyset.subject.any (· ≠ measuredSubject) then false
  else policy.acceptedSubjects.contains measuredSubject ||
    provenance.imageDigest.any policy.acceptedImageDigests.contains

end AciServiceVerifierPolicy

section

variable (secp : Secp256k1) (debug : String → String)

def verifyDstackKmsReceiptCustody (evidence : Value) (keyset : WorkloadKeyset) (appId : Bytes)
    (policy : AciServiceVerifierPolicy) : Except KeyCustodyError VerifiedReceiptCustody := do
  let custody ← verifyKmsReceiptCustody secp debug evidence keyset appId
  ensure (policy.acceptedKmsRootPublicKeys.contains custody.rootPublicKey) .kmsRootRejected
  pure custody

end

def ReceiptCustody.fromVerified (custody : VerifiedReceiptCustody) : Option ReceiptCustody := do
  let receiptPublicKey ← Hex.parse 32 custody.receiptPublicKey
  let kmsPublicKey ← Hex.parse 33 custody.kmsPublicKey
  let appPublicKey ← Hex.parse 33 custody.appPublicKey
  let rootPublicKey ← Hex.parse 33 custody.rootPublicKey
  some ⟨custody.provider, custody.purpose, receiptPublicKey, kmsPublicKey, appPublicKey,
    rootPublicKey⟩

variable {secp : Secp256k1} {debug : String → String} {evidence : Value}
  {keyset : WorkloadKeyset} {appId : Bytes} {policy : AciServiceVerifierPolicy}
  {custody : VerifiedReceiptCustody} {c : ReceiptCustody}

/-- What every verified custody states, whoever signed it. -/
structure VerifiedReceiptCustody.Named (secp : Secp256k1) (custody : VerifiedReceiptCustody) :
    Prop where
  provider : custody.provider = "dstack-kms"
  purpose : custody.purpose = "aci.receipt.ed25519.v1"
  kms : ∃ key, custody.kmsPublicKey = hexEncode (secp.toSec1Bytes key).bytes
  app : ∃ key, custody.appPublicKey = hexEncode (secp.toSec1Bytes key).bytes
  root : ∃ key, custody.rootPublicKey = hexEncode (secp.toSec1Bytes key).bytes

theorem provider_of_receiptCustody {provider : String} {receipt : Value}
    (h : receiptCustody evidence = .ok (provider, receipt)) : provider = "dstack-kms" := by
  simp only [receiptCustody, bind_eq_ok, ensure_eq_ok, pure_eq_ok, Prod.mk.injEq] at h
  obtain ⟨-, -, _, -, -, hp, -, -, -, -, rfl, -⟩ := h
  exact hp

theorem exists_key_of_compressed {text hex : String}
    (h : compressedK256PublicKeyHex secp text = .ok hex) :
    ∃ key, hex = hexEncode (secp.toSec1Bytes key).bytes := by
  simp only [compressedK256PublicKeyHex, bind_eq_ok, pure_eq_ok] at h
  obtain ⟨-, -, key, -, rfl⟩ := h
  exact ⟨key, rfl⟩

theorem named_of_verifyKms
    (h : verifyKmsReceiptCustody secp debug evidence keyset appId = .ok custody) :
    custody.Named secp := by
  simp only [verifyKmsReceiptCustody, bind_eq_ok, ensure_eq_ok, pure_eq_ok, mapError_eq_ok,
    Prod.exists] at h
  obtain ⟨provider, receipt, hr, _, -, -, -, _, -, purpose, -, -, hp, _, -, -, -, _, -, _, -,
    kms, hkms, app, -, root, -, -, -, rfl⟩ := h
  exact ⟨provider_of_receiptCustody hr, hp, exists_key_of_compressed hkms, ⟨app, rfl⟩, ⟨root, rfl⟩⟩

theorem verifyDstackKms_ok :
    verifyDstackKmsReceiptCustody secp debug evidence keyset appId policy = .ok custody ↔
      verifyKmsReceiptCustody secp debug evidence keyset appId = .ok custody ∧
        policy.acceptedKmsRootPublicKeys.contains custody.rootPublicKey := by
  simp only [verifyDstackKmsReceiptCustody, bind_eq_ok, ensure_eq_ok, pure_eq_ok]
  constructor
  · rintro ⟨_, hv, -, hc, rfl⟩
    exact ⟨hv, hc⟩
  · rintro ⟨hv, hc⟩
    exact ⟨_, hv, (), hc, rfl⟩

/-- A key that was written compressed is read back as such. -/
theorem compressed_of_parse {key : Hex 33} {text : String}
    (hk : ∃ k, text = hexEncode (secp.toSec1Bytes k).bytes)
    (h : Hex.parse 33 text = some key) : compressed key := by
  obtain ⟨k, rfl⟩ := hk
  have hb := Hex.bytes_of_parse h
  simpa [compressed, hb] using secp.compressed k

/-- Every custody that verifies, and has a receipt key of 32 bytes, is a valid one. -/
theorem valid_of_fromVerified (hn : custody.Named secp)
    (h : fromVerified custody = some c) : c.valid := by
  simp only [fromVerified, Option.bind_eq_bind, Option.bind_eq_some_iff, Option.some.injEq] at h
  obtain ⟨receipt, -, kms, hkms, app, happ, root, hroot, rfl⟩ := h
  simp [valid, hn.provider, hn.purpose, compressed_of_parse hn.kms hkms,
    compressed_of_parse hn.app happ, compressed_of_parse hn.root hroot]

end AciGateway.Verify
