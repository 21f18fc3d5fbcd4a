import AciGateway.Lib.JsonMap
import AciGateway.Lib.Results
import AciGateway.Upstream

/-! The Chutes encrypted transport: ML-KEM key agreement and an authenticated cipher. -/
namespace AciGateway.Chutes

open Octets Json Results

def mlkem768Algorithm : String := "chutes-ml-kem-768"
def mlkemCtSize : Nat := 1088
def tagSize : Nat := 16
def infoReq : Bytes := utf8 "e2e-req-v1"
def infoStream : Bytes := utf8 "e2e-stream-v1"

/-- The primitives. `Secret` holds the randomness of one request: its response key pair, the
encapsulation and the nonce. -/
structure Suite where
  Secret : Type
  responsePk : Secret → Bytes
  validKey : Bytes → Bool
  encapsulate : Secret → Bytes → Bytes × Bytes
  decapsulate : Secret → Bytes → Bytes
  hkdf : Bytes → Bytes → Bytes → Bytes
  nonce : Secret → Bytes
  encrypt : Bytes → Bytes → Bytes → Option Bytes
  decrypt : Bytes → Bytes → Bytes → Option Bytes
  gzipCompress : Bytes → Option Bytes

/-- `recipient` is the key the blob is encrypted to. -/
structure ChutesE2eeRequest (S : Suite) where
  recipient : Bytes
  blob : Bytes
  responseSk : S.Secret

def decodePubkey (e2ePubkeyB64 : String) : Except UpstreamError Bytes :=
  okOr (base64Decode e2ePubkeyB64) (.transport "invalid Chutes E2EE public key")

def chutesE2eePubkeySha256 (sha256 : Bytes → Bytes) (e2ePubkeyB64 : String) :
    Except UpstreamError String := do
  let pubkey ← decodePubkey e2ePubkeyB64
  pure (hexEncode (sha256 pubkey))

section

variable (S : Suite)

def chutesDeriveKey (sharedSecret mlkemCt info : Bytes) : Except UpstreamError Bytes := do
  ensure (16 ≤ mlkemCt.length) (.transport "Chutes ML-KEM ciphertext is too short")
  pure (S.hkdf (mlkemCt.take 16) sharedSecret info)

def withResponsePk (secret : S.Secret) : Value → Except UpstreamError Value
  | .obj ms =>
    .ok (.obj (setMember "e2e_response_pk" (.str (base64Encode (S.responsePk secret))) ms))
  | _ => .error (.routing "request body must be a JSON object")

def buildChutesE2eeRequest (secret : S.Secret) (e2ePubkeyB64 : String) (payload : Value) :
    Except UpstreamError (ChutesE2eeRequest S) := do
  let pubkey ← decodePubkey e2ePubkeyB64
  ensure (S.validKey pubkey) (.transport "invalid Chutes ML-KEM public key")
  let (mlkemCt, sharedSecret) := S.encapsulate secret pubkey
  let symKey ← chutesDeriveKey S sharedSecret mlkemCt infoReq
  let payload ← withResponsePk S secret payload
  let compressed ← okOr (S.gzipCompress (print payload)) (.transport "gzip failed")
  let encrypted ← okOr (S.encrypt symKey (S.nonce secret) compressed)
    (.transport "Chutes E2EE encryption failed")
  pure { recipient := pubkey, blob := mlkemCt ++ S.nonce secret ++ encrypted, responseSk := secret }

def decryptChutesStreamInit (secret : S.Secret) (mlkemCtB64 : String) :
    Except UpstreamError Bytes := do
  let mlkemCt ← okOr (base64Decode mlkemCtB64) (.transport "invalid Chutes stream init")
  ensure (mlkemCt.length = mlkemCtSize) (.transport "invalid Chutes stream ML-KEM CT")
  chutesDeriveKey S (S.decapsulate secret mlkemCt) mlkemCt infoStream

def decryptChutesStreamChunk (streamKey : Bytes) (chunkB64 : String) :
    Except UpstreamError Bytes := do
  let raw ← okOr (base64Decode chunkB64) (.transport "invalid Chutes stream chunk")
  ensure (12 + tagSize < raw.length) (.transport "Chutes E2EE stream chunk is too short")
  okOr (S.decrypt streamKey (raw.take 12) (raw.drop 12))
    (.transport "Chutes E2EE decryption failed")

end

theorem decodePubkey_eq_ok {text : String} {key : Bytes} :
    decodePubkey text = .ok key ↔ base64Decode text = some key := okOr_eq_ok

theorem buildChutesE2eeRequest_recipient {S : Suite} {secret : S.Secret} {text : String}
    {payload : Value} {r : ChutesE2eeRequest S}
    (h : buildChutesE2eeRequest S secret text payload = .ok r) :
    base64Decode text = some r.recipient := by
  simp only [buildChutesE2eeRequest, bind_eq_ok, decodePubkey_eq_ok, pure_eq_ok] at h
  obtain ⟨pubkey, hkey, -, -, -, -, -, -, -, -, -, -, rfl⟩ := h
  exact hkey

end AciGateway.Chutes
