import AciGateway.Verify.Report

/-! The TLS keys a client of a deployment pins, as the report declares them. -/
namespace AciGateway.Verify

open Octets Json E2ee Results

inductive ChannelBindingError where
  | missingTlsSpkiBinding
  | missingDownstreamTlsBinding
  | invalidDownstreamTlsBinding (message : String)
  | invalidBaseUrl (origin reason : String)
  | baseUrlWithoutHost (origin : String)
  | invalidBaseUrlHost (host reason : String)
  | downstreamTlsBindingHostMismatch (reported expected : String)
  | downstreamTlsBindingNotInKeyset
  deriving DecidableEq

def trimEndDots (s : String) : String :=
  String.ofList (s.toList.reverse.dropWhile (· = '.')).reverse

/-- The TLS entries that apply to a host: those without a domain, and those for this one. -/
def WorkloadKeyset.tlsKeysForHost (k : WorkloadKeyset) (host : String) : List TlsSpki :=
  let host := trimEndDots (Text.trim host)
  k.tlsPublicKeys.filter (fun key =>
    match key.domain with
    | some domain => Text.eqIgnoreAsciiCase (trimEndDots (Text.trim domain)) host
    | none => true)

def isAsciiHexDigit (c : UInt8) : Bool :=
  (48 ≤ c ∧ c ≤ 57) ∨ (97 ≤ c ∧ c ≤ 102) ∨ (65 ≤ c ∧ c ≤ 70)

def normalizeSha256Hex (value : String) : Except String String := do
  let value := Text.trim value
  ensure ((utf8 value).length = 64 ∧ (utf8 value).all isAsciiHexDigit)
    "expected 64 hex characters"
  pure (toAsciiLowercase value)

section

-- How the host of a URL is found, and how a text is quoted in messages.
variable (hostStr : String → Except String (Option String)) (debug : String → String)

def normalizeTlsDomain (raw : String) : Except String String := do
  let domain := toAsciiLowercase (trimEndDots (Text.trim raw))
  ensure (domain ≠ "" ∧ domain.toList.all (fun c =>
      c ≠ '/' ∧ c ≠ ':' ∧ c ≠ '=' ∧ c ≠ ',' ∧ ¬ Text.isWhitespace c))
    ("invalid TLS domain " ++ debug raw)
  pure domain

structure SelectedDownstreamTlsBinding where
  domain : String
  spkiSha256 : String

def selectedDownstreamTlsBinding (evidence : Value) :
    Except ChannelBindingError SelectedDownstreamTlsBinding := do
  let binding ← okOr (evidence.get? "downstream_tls_binding") .missingDownstreamTlsBinding
  let domain ← okOr ((binding.get? "domain").bind Value.asStr?)
    (.invalidDownstreamTlsBinding "downstream_tls_binding.domain must be a string")
  let spkiSha256 ← okOr ((binding.get? "spki_sha256").bind Value.asStr?)
    (.invalidDownstreamTlsBinding "downstream_tls_binding.spki_sha256 must be a string")
  let domain ← (normalizeTlsDomain debug domain).mapError
    (fun e => .invalidDownstreamTlsBinding ("invalid downstream_tls_binding.domain: " ++ e))
  let spkiSha256 ← (normalizeSha256Hex spkiSha256).mapError
    (fun e => .invalidDownstreamTlsBinding ("invalid downstream_tls_binding.spki_sha256: " ++ e))
  pure { domain, spkiSha256 }

def originHostDomain (origin : String) : Except ChannelBindingError String := do
  let host ← (hostStr origin).mapError (.invalidBaseUrl origin)
  let host ← okOr host (.baseUrlWithoutHost origin)
  (normalizeTlsDomain debug host).mapError (.invalidBaseUrlHost host)

def keySpki (key : TlsSpki) : Except ChannelBindingError String :=
  (normalizeSha256Hex key.spkiSha256Hex).mapError
    (fun e => .invalidDownstreamTlsBinding ("invalid keyset TLS SPKI digest: " ++ e))

/-- The first of the keys with the selected digest. A key before it that does not normalize
is an error. -/
def selectPin (spkiSha256 : String) : List TlsSpki → Except ChannelBindingError (List String)
  | [] => .error .downstreamTlsBindingNotInKeyset
  | key :: keys => do
    let spki ← keySpki key
    if spki = spkiSha256 then .ok [spkiSha256] else selectPin spkiSha256 keys

def declaredTlsPins (keyset : WorkloadKeyset) (evidence : Value) (origin : String) :
    Except ChannelBindingError (List String) := do
  ensure (keyset.tlsPublicKeys ≠ []) .missingTlsSpkiBinding
  if keyset.tlsPublicKeys.any (fun key => key.domain.isSome) then do
    let selected ← selectedDownstreamTlsBinding debug evidence
    let originDomain ← originHostDomain hostStr debug origin
    ensure (selected.domain = originDomain)
      (.downstreamTlsBindingHostMismatch selected.domain originDomain)
    selectPin selected.spkiSha256 (keyset.tlsKeysForHost selected.domain)
  else keyset.tlsPublicKeys.mapM keySpki

end

variable {hostStr : String → Except String (Option String)} {debug : String → String}
  {keyset : WorkloadKeyset} {evidence : Value} {origin pin spki : String} {pins : List String}

theorem normalize_of_keySpki {key : TlsSpki} (h : keySpki key = .ok pin) :
    normalizeSha256Hex key.spkiSha256Hex = .ok pin := by
  simpa [keySpki] using h

theorem mem_of_selectPin {keys : List TlsSpki} (h : selectPin spki keys = .ok pins)
    (hp : pin ∈ pins) : ∃ key ∈ keys, normalizeSha256Hex key.spkiSha256Hex = .ok pin := by
  induction keys with
  | nil => cases h
  | cons key keys ih =>
    simp only [selectPin, bind_eq_ok] at h
    obtain ⟨found, hkey, h⟩ := h
    split at h
    · next heq =>
      obtain rfl := Except.ok.inj h
      obtain rfl := List.mem_singleton.mp hp
      exact ⟨key, List.mem_cons_self, heq ▸ normalize_of_keySpki hkey⟩
    · obtain ⟨k, hk, hn⟩ := ih h
      exact ⟨k, List.mem_cons_of_mem _ hk, hn⟩

/-- Whatever is pinned is the digest of a key of the keyset. -/
theorem mem_of_declaredTlsPins (h : declaredTlsPins hostStr debug keyset evidence origin = .ok pins)
    (hp : pin ∈ pins) :
    ∃ key ∈ keyset.tlsPublicKeys, normalizeSha256Hex key.spkiSha256Hex = .ok pin := by
  simp only [declaredTlsPins, bind_eq_ok] at h
  obtain ⟨-, -, h⟩ := h
  split at h
  · simp only [bind_eq_ok] at h
    obtain ⟨selected, -, -, -, -, -, h⟩ := h
    obtain ⟨key, hk, hn⟩ := mem_of_selectPin h hp
    exact ⟨key, List.mem_of_mem_filter hk, hn⟩
  · obtain ⟨key, hk, hn⟩ := Lists.exists_left_of_mem (Lists.mapM_ok_iff.mp h) hp
    exact ⟨key, hk, normalize_of_keySpki hn⟩

/-- A digest as it is written by the encoder is its own normal form. -/
theorem normalizeSha256Hex_hexEncode {b : Bytes} (h : b.length = 32) :
    normalizeSha256Hex (hexEncode b) = .ok (hexEncode b) := by
  have hdigit : ∀ n < 16, Text.isWhitespace (hexDigit n) = false ∧
      (hexDigit n).toLower = hexDigit n := by decide
  have hplain : ∀ c ∈ (hexEncode b).toList, Text.isWhitespace c = false ∧ c.toLower = c := by
    intro c hc
    rw [hexEncode, String.toList_ofList] at hc
    obtain ⟨n, hn, rfl⟩ := mem_hexChars hc
    exact hdigit n hn
  have htrim : Text.trim (hexEncode b) = hexEncode b :=
    Text.trim_eq_self (fun c hc => (hplain c hc).1)
  have hlower : toAsciiLowercase (hexEncode b) = hexEncode b := by
    rw [toAsciiLowercase, List.map_congr_left (fun c hc => (hplain c hc).2), List.map_id',
      String.ofList_toList]
  have hall : (utf8 (hexEncode b)).all isAsciiHexDigit := by
    rw [List.all_eq_true]
    intro c hc
    have := lowercase_of_mem_hexEncode hc
    simp only [isAsciiHexDigit, decide_eq_true_eq]
    tauto
  simp only [normalizeSha256Hex, htrim, hlower, bind_eq_ok, ensure_eq_ok]
  exact ⟨(), ⟨by rw [length_utf8_hexEncode, h], hall⟩, rfl⟩

end AciGateway.Verify
