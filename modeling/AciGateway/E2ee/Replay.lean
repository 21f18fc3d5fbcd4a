import AciGateway.Lib.JsonParse

/-! The ACI path of an end-to-end encrypted request, up to decryption, and its replay
cache. Calls share nothing but the cache, which each takes under its write lock once, so a
run is the list of its calls in lock order with the clock reading of each. -/
namespace AciGateway.E2ee

open Octets Json U64

inductive E2eeError where
  | headerMissing
  | invalidSigningAlgo
  | invalidVersion
  | invalidPublicKey
  | modelKeyMismatch
  | invalidNonce
  | replayDetected
  | invalidTimestamp
  | invalidPayloadModel
  | decryptionFailed
  | encryptionFailed
  deriving DecidableEq

structure E2eeRequestParts where
  signingAlgo : Option String
  clientPublicKey : Option String
  modelPublicKey : Option String
  version : Option String
  nonce : Option String
  timestamp : Option String
  deriving DecidableEq

structure KeyedPublicKey where
  keyId : String
  algo : String
  publicKeyHex : String
  deriving DecidableEq

structure E2eeReplayKey where
  clientPublicKeyHex : String
  modelPublicKeyHex : String
  nonce : String
  deriving DecidableEq

inductive E2eeAadMode where
  | aciV2
  | legacyV1

structure E2eeRequestContext where
  version : String
  algo : String
  aadMode : E2eeAadMode
  requestModel : String
  clientPublicKeyHex : String
  nonce : Option String
  timestamp : Option Nat

structure E2eePreparedRequest where
  decryptedBody : Bytes
  context : E2eeRequestContext

/-- What the field decryption is given besides the payload. -/
structure E2eeFieldCrypto where
  keyId : String
  algo : String
  model : String
  nonce : String
  timestamp : Nat

/-- One call with the keyset in force and the clock reading it takes. -/
structure Call where
  parts : E2eeRequestParts
  body : Bytes
  endpointPath : String
  keyset : List KeyedPublicKey
  now : UInt64

/-- The code this path calls: curve arithmetic, the JSON reader, field decryption, and the
legacy path, which never touches the replay cache. -/
structure Backend where
  normalizeSecp256k1PublicKeyHex : String → Option String
  fromSlice : Bytes → Option Value
  decryptRequestPayload : E2eeFieldCrypto → String → Value → Except E2eeError Value
  prepareLegacyE2eeRequest : Call → Except E2eeError E2eePreparedRequest

def e2eeVersionV2 : String := "2"
def e2eeAlgoX25519Aesgcm : String := "x25519-aes-256-gcm-hkdf-sha256"
def e2eeAlgoSecp256k1Aesgcm : String := "secp256k1-aes-256-gcm-hkdf-sha256"

def isAciE2eeSuite (algo : String) : Bool :=
  algo = e2eeAlgoX25519Aesgcm ∨ algo = e2eeAlgoSecp256k1Aesgcm

def normalizeX25519PublicKeyHex (value : String) : Option String := do
  let bytes ← hexDecode (stripHexMark value)
  if bytes.length = 32 then some (hexEncode bytes) else none

def isAsciiHexdigit (c : UInt8) : Bool :=
  (48 ≤ c ∧ c ≤ 57) ∨ (65 ≤ c ∧ c ≤ 70) ∨ (97 ≤ c ∧ c ≤ 102)

def validateAciE2eeNonce (nonce : String) : Except E2eeError Unit :=
  if (utf8 nonce).length = 64 ∧ (utf8 nonce).all isAsciiHexdigit then .ok ()
  else .error .invalidNonce

def validateAciPayloadModel (payload : Value) : Except E2eeError String :=
  match (payload.get? "model").bind Value.asStr? with
  | some model => .ok model
  | none => .error .invalidPayloadModel

def toAsciiLowercase (s : String) : String := String.ofList (s.toList.map Char.toLower)

def required (header : Option String) : Except E2eeError String :=
  match header with
  | some value => .ok value
  | none => .error .headerMissing

/-- The headers of the ACI path once they are known to be present and well formed. -/
structure Headers where
  clientPublicKey : String
  modelPublicKey : String
  nonce : String
  timestamp : Nat

def checkHeaders (parts : E2eeRequestParts) : Except E2eeError Headers := do
  let version ← required parts.version
  if version ≠ e2eeVersionV2 then
    throw .invalidVersion
  let clientPublicKey ← required parts.clientPublicKey
  let modelPublicKey ← required parts.modelPublicKey
  let nonce ← required parts.nonce
  let timestamp ← required parts.timestamp
  validateAciE2eeNonce nonce
  match U64.parse timestamp with
  | some timestamp => pure { clientPublicKey, modelPublicKey, nonce, timestamp }
  | none => throw .invalidTimestamp

/-- The acceptance window, `|now - timestamp| ≤ 300`. -/
def checkTimestamp (now timestamp : Nat) : Except E2eeError Unit :=
  if U64.absDiff now timestamp > 300 then .error .invalidTimestamp else .ok ()

/-- A request that has passed every check before the replay cache. -/
structure Checked where
  headers : Headers
  selectedKey : KeyedPublicKey
  replayKey : E2eeReplayKey
  payload : Value
  requestModel : String

section

variable (B : Backend)

def normalizeAciE2eePublicKeyHex (algo value : String) : Option String :=
  if algo = e2eeAlgoX25519Aesgcm then normalizeX25519PublicKeyHex value
  else if algo = e2eeAlgoSecp256k1Aesgcm then B.normalizeSecp256k1PublicKeyHex value
  else none

def selects (modelPublicKey : String) (key : KeyedPublicKey) : Bool :=
  isAciE2eeSuite key.algo &&
    match normalizeAciE2eePublicKeyHex B key.algo modelPublicKey,
      normalizeAciE2eePublicKeyHex B key.algo key.publicKeyHex with
    | some supplied, some stored => supplied = stored
    | _, _ => false

/-- The checks on keys and body, which do not read the clock. -/
def checkKeysAndBody (keyset : List KeyedPublicKey) (body : Bytes) (headers : Headers) :
    Except E2eeError Checked := do
  let some selectedKey := keyset.find? (selects B headers.modelPublicKey)
    | throw .modelKeyMismatch
  let some clientPublicKeyHex :=
      normalizeAciE2eePublicKeyHex B selectedKey.algo headers.clientPublicKey
    | throw .invalidPublicKey
  let some modelPublicKeyHex :=
      normalizeAciE2eePublicKeyHex B selectedKey.algo headers.modelPublicKey
    | throw .invalidPublicKey
  let some payload := B.fromSlice body
    | throw .decryptionFailed
  let requestModel ← validateAciPayloadModel payload
  let nonce := toAsciiLowercase headers.nonce
  pure { headers, selectedKey, payload, requestModel
         replayKey := { clientPublicKeyHex, modelPublicKeyHex, nonce } }

def checkRequest (call : Call) : Except E2eeError Checked := do
  let headers ← checkHeaders call.parts
  checkTimestamp call.now.toNat headers.timestamp
  checkKeysAndBody B call.keyset call.body headers

/-- The deadline of each remembered request. -/
abbrev ReplayCache := E2eeReplayKey → Option Nat

def retain (now : Nat) (cache : ReplayCache) : ReplayCache :=
  fun key => (cache key).filter (now < ·)

def claimE2eeReplay (cache : ReplayCache) (key : E2eeReplayKey) (now : Nat) :
    Except E2eeError Unit × ReplayCache :=
  let cache := retain now cache
  if (cache key).isSome then (.error .replayDetected, cache)
  else (.ok (), Function.update cache key (some (U64.saturatingAdd now 300)))

/-- What follows a successful claim. -/
def decryptChecked (endpointPath : String) (c : Checked) : Except E2eeError E2eePreparedRequest := do
  let crypto : E2eeFieldCrypto :=
    { keyId := c.selectedKey.keyId, algo := c.selectedKey.algo, model := c.requestModel
      nonce := c.headers.nonce, timestamp := c.headers.timestamp }
  let payload ← B.decryptRequestPayload crypto endpointPath c.payload
  pure { decryptedBody := print payload
         context :=
          { version := e2eeVersionV2, algo := c.selectedKey.algo, aadMode := .aciV2
            requestModel := c.requestModel
            clientPublicKeyHex := c.replayKey.clientPublicKeyHex
            nonce := some c.headers.nonce, timestamp := some c.headers.timestamp } }

def prepareE2eeV2Request (cache : ReplayCache) (call : Call) :
    Except E2eeError E2eePreparedRequest × ReplayCache :=
  if call.parts.signingAlgo.isSome then (B.prepareLegacyE2eeRequest call, cache)
  else
    match checkRequest B call with
    | .error e => (.error e, cache)
    | .ok c =>
      match claimE2eeReplay cache c.replayKey call.now.toNat with
      | (.error e, cache) => (.error e, cache)
      | (.ok (), cache) => (decryptChecked B call.endpointPath c, cache)

/-- The cache after a run of calls, from the empty cache of a new service. -/
def run (calls : List Call) : ReplayCache :=
  calls.foldl (fun cache call => (prepareE2eeV2Request B cache call).2) (fun _ => none)

end

variable {B : Backend} {cache : ReplayCache} {key : E2eeReplayKey} {call first later : Call}
  {before between calls : List Call} {c d : Checked} {now t deadline : Nat}

theorem retain_eq_some :
    retain now cache key = some deadline ↔ cache key = some deadline ∧ now < deadline := by
  simp [retain, Option.filter_eq_some_iff]

/-- A remembered request is refused until the clock reaches its deadline. -/
theorem claimE2eeReplay_live (h : cache key = some deadline) (hn : now < deadline) :
    claimE2eeReplay cache key now = (.error .replayDetected, retain now cache) := by
  have hk := retain_eq_some.mpr ⟨h, hn⟩
  simp [claimE2eeReplay, hk]

theorem claimE2eeReplay_ok_iff : (claimE2eeReplay cache key now).1 = .ok () ↔
    retain now cache key = none := by
  unfold claimE2eeReplay
  cases h : retain now cache key <;> simp [h]

theorem claimE2eeReplay_ok (h : (claimE2eeReplay cache key now).1 = .ok ()) :
    (claimE2eeReplay cache key now).2 key = some (saturatingAdd now 300) := by
  have hn := claimE2eeReplay_ok_iff.mp h
  simp [claimE2eeReplay, hn]

/-- Claims drop only entries whose deadline has come, and never move a live one. -/
theorem claimE2eeReplay_keeps {key' : E2eeReplayKey} (h : cache key = some deadline)
    (hn : now < deadline) : (claimE2eeReplay cache key' now).2 key = some deadline := by
  by_cases hk : key' = key
  · subst hk
    rw [claimE2eeReplay_live h hn]
    exact retain_eq_some.mpr ⟨h, hn⟩
  · simp only [claimE2eeReplay]
    split
    · exact retain_eq_some.mpr ⟨h, hn⟩
    · exact (Function.update_of_ne (Ne.symm hk) _ _).trans (retain_eq_some.mpr ⟨h, hn⟩)

/-- What one call does to the cache: nothing, or one claim at its clock reading. -/
theorem prepare_cache (B : Backend) (cache : ReplayCache) (call : Call) :
    (prepareE2eeV2Request B cache call).2 = cache ∨
      ∃ key, (prepareE2eeV2Request B cache call).2 =
        (claimE2eeReplay cache key call.now.toNat).2 := by
  unfold prepareE2eeV2Request
  split
  · exact Or.inl rfl
  · split
    · exact Or.inl rfl
    · next c hc =>
      refine Or.inr ⟨c.replayKey, ?_⟩
      split <;> simp_all

theorem live_step (h : cache key = some deadline) (hn : call.now.toNat < deadline) :
    (prepareE2eeV2Request B cache call).2 key = some deadline := by
  obtain hc | ⟨key', hc⟩ := prepare_cache B cache call
  · rw [hc, h]
  · rw [hc]
    exact claimE2eeReplay_keeps h hn

/-- An entry outlives every run of calls that all read the clock before its deadline. -/
theorem live_calls (h : cache key = some deadline)
    (hn : ∀ call ∈ calls, call.now.toNat < deadline) :
    calls.foldl (fun cache call => (prepareE2eeV2Request B cache call).2) cache key =
      some deadline := by
  induction calls generalizing cache with
  | nil => exact h
  | cons call calls ih =>
    exact ih (live_step h (hn call (by simp))) (fun a ha => hn a (by simp [ha]))

theorem run_append (before after : List Call) : run B (before ++ after) =
    after.foldl (fun cache call => (prepareE2eeV2Request B cache call).2) (run B before) := by
  simp [run]

/-- The clock readings of the calls do not decrease in the order the cache sees them. -/
def InClockOrder (calls : List Call) : Prop := calls.Pairwise (fun a b => a.now ≤ b.now)

/-- The call takes the ACI path and passes every check that precedes the replay cache. -/
def Passes (B : Backend) (call : Call) (c : Checked) : Prop :=
  call.parts.signingAlgo = none ∧ checkRequest B call = .ok c

/-- The call is handed on to decryption. -/
def LetThrough (B : Backend) (cache : ReplayCache) (call : Call) (c : Checked) : Prop :=
  Passes B call c ∧ (claimE2eeReplay cache c.replayKey call.now.toNat).1 = .ok ()

/-- Same normalized client and model keys, same nonce up to case, same timestamp. -/
def SameTuple (c d : Checked) : Prop :=
  d.replayKey = c.replayKey ∧ d.headers.timestamp = c.headers.timestamp

theorem checkTimestamp_ok : checkTimestamp now t = .ok () ↔ absDiff now t ≤ 300 := by
  unfold checkTimestamp
  split <;> simp_all

theorem headers_of_checkKeysAndBody {keyset : List KeyedPublicKey} {body : Bytes}
    {headers : Headers} (h : checkKeysAndBody B keyset body headers = .ok c) :
    c.headers = headers := by
  unfold checkKeysAndBody at h
  simp only [bind, Except.bind, pure, Except.pure, throw, throwThe, MonadExceptOf.throw] at h
  repeat' split at h
  all_goals cases h
  rfl

/-- The clock enters the checks only through the acceptance window. -/
theorem checkRequest_ok : checkRequest B call = .ok c ↔
    checkHeaders call.parts = .ok c.headers ∧
      absDiff call.now.toNat c.headers.timestamp ≤ 300 ∧
      checkKeysAndBody B call.keyset call.body c.headers = .ok c := by
  unfold checkRequest
  cases hh : checkHeaders call.parts with
  | error e => simp [bind, Except.bind]
  | ok headers =>
    constructor
    · intro h
      cases ht : checkTimestamp call.now.toNat headers.timestamp with
      | error e => simp [bind, Except.bind, ht] at h
      | ok _ =>
        simp only [bind, Except.bind, ht] at h
        have hc := headers_of_checkKeysAndBody h
        subst hc
        exact ⟨rfl, checkTimestamp_ok.mp ht, h⟩
    · rintro ⟨he, ht, hk⟩
      cases he
      simp only [bind, Except.bind, checkTimestamp_ok.mpr ht]
      exact hk

/-- Repeating an accepted request at another time inside its window passes the checks. -/
theorem passes_at (clock : UInt64) (h : Passes B call c)
    (hw : absDiff clock.toNat c.headers.timestamp ≤ 300) :
    Passes B { call with now := clock } c := by
  obtain ⟨hs, hc⟩ := h
  obtain ⟨hh, -, hk⟩ := checkRequest_ok.mp hc
  exact ⟨hs, checkRequest_ok.mpr ⟨hh, hw, hk⟩⟩

theorem prepare_of_passes (h : Passes B call c) :
    (prepareE2eeV2Request B cache call).2 =
      (claimE2eeReplay cache c.replayKey call.now.toNat).2 := by
  simp only [prepareE2eeV2Request, h.1, h.2, Option.isSome_none, Bool.false_eq_true, if_false]
  split <;> simp_all

theorem prepare_replayDetected (h : Passes B call c)
    (hc : cache c.replayKey = some deadline) (hn : call.now.toNat < deadline) :
    (prepareE2eeV2Request B cache call).1 = .error .replayDetected := by
  simp only [prepareE2eeV2Request, h.1, h.2, Option.isSome_none, Bool.false_eq_true, if_false,
    claimE2eeReplay_live hc hn]

/-- Once the clock has reached its deadline, an entry no longer stops its own replay. -/
theorem letThrough_of_lapsed (h : Passes B call c) (hc : cache c.replayKey = some deadline)
    (hn : deadline ≤ call.now.toNat) : LetThrough B cache call c := by
  refine ⟨h, claimE2eeReplay_ok_iff.mpr ?_⟩
  simpa [retain, hc] using hn

theorem letThrough_of_absent (h : Passes B call c) (hc : cache c.replayKey = none) :
    LetThrough B cache call c := by
  refine ⟨h, claimE2eeReplay_ok_iff.mpr ?_⟩
  simp [retain, hc]

/-- The entry an accepted call leaves behind. -/
theorem entry_of_letThrough (h : LetThrough B (run B before) first c) :
    run B (before ++ [first]) c.replayKey = some (saturatingAdd first.now.toNat 300) := by
  rw [run_append]
  exact (congrFun (prepare_of_passes h.1) _).trans (claimE2eeReplay_ok h.2)

theorem not_letThrough (hc : cache c.replayKey = some deadline)
    (hn : call.now.toNat < deadline) : ¬ LetThrough B cache call c := by
  rintro ⟨-, hok⟩
  rw [claimE2eeReplay_live hc hn] at hok
  cases hok

theorem timestamp_of_checkHeaders {parts : E2eeRequestParts} {headers : Headers}
    (h : checkHeaders parts = .ok headers) : headers.timestamp ≤ maxValue := by
  unfold checkHeaders at h
  simp only [bind, Except.bind, pure, Except.pure, throw, throwThe, MonadExceptOf.throw] at h
  repeat' split at h
  all_goals cases h
  next ht => exact parse_le ht

/-- The clock value at which an entry made at `now` is dropped. -/
def dropTime (now : UInt64) : UInt64 :=
  UInt64.ofNatLT (U64.saturatingAdd now.toNat 300) (by
    have := U64.saturatingAdd_le (a := now.toNat) (b := 300)
    have hsize : UInt64.size = 2 ^ 64 := rfl
    unfold U64.maxValue at this
    omega)

/-- The entry of an accepted request stays live for the whole acceptance window of its
timestamp exactly when the request arrived strictly after that timestamp, short of the end
of the clock. -/
theorem window_before_deadline {now : UInt64} (ht : t ≤ maxValue) (hw : absDiff now.toNat t ≤ 300) :
    (∀ clock : UInt64, now ≤ clock → absDiff clock.toNat t ≤ 300 →
        clock.toNat < saturatingAdd now.toNat 300) ↔
      t < now.toNat ∧ t + 300 < maxValue := by
  have hmax := toNat_le now
  rw [absDiff_le] at hw
  constructor
  · intro h
    by_contra hn
    have hd : (dropTime now).toNat = saturatingAdd now.toNat 300 := by simp [dropTime]
    have hle : now ≤ dropTime now := by
      rw [UInt64.le_iff_toNat_le, hd, saturatingAdd]
      omega
    have := h (dropTime now) hle (by rw [hd, absDiff_le, saturatingAdd]; omega)
    omega
  · rintro ⟨h1, h2⟩ clock - hc
    rw [absDiff_le] at hc
    rw [lt_saturatingAdd]
    omega

/-- Replays are refused for the whole acceptance window exactly when the accepted request
reached the service strictly after its own timestamp. A request whose timestamp is the
current second or lies ahead is forgotten at the last instant of its window or earlier. -/
theorem replay_rejected_iff (h : LetThrough B (run B before) first c) :
    (∀ between later d, InClockOrder (first :: (between ++ [later])) →
        Passes B later d → SameTuple c d →
        ¬ LetThrough B (run B (before ++ first :: between)) later d ∧
        (prepareE2eeV2Request B (run B (before ++ first :: between)) later).1 =
          .error .replayDetected) ↔
      c.headers.timestamp < first.now.toNat ∧ c.headers.timestamp + 300 < U64.maxValue := by
  have hentry := entry_of_letThrough h
  obtain ⟨hp, -⟩ := h
  obtain ⟨hh, hwin, -⟩ := checkRequest_ok.mp hp.2
  rw [← window_before_deadline (timestamp_of_checkHeaders hh) hwin]
  constructor
  · intro h clock hclock hw
    by_contra hlapsed
    have hpass := passes_at clock hp hw
    have hrej := h [] _ c (by simpa [InClockOrder] using hclock) hpass ⟨rfl, rfl⟩
    exact hrej.1 (letThrough_of_lapsed hpass hentry (Nat.le_of_not_lt hlapsed))
  · rintro h between later d horder hpass ⟨hkey, htime⟩
    obtain ⟨hfirst, hrest⟩ := List.pairwise_cons.mp horder
    have hlate : later.now.toNat < saturatingAdd first.now.toNat 300 := by
      have hw := (checkRequest_ok.mp hpass.2).2.1
      rw [htime] at hw
      exact h later.now (hfirst later (by simp)) hw
    have hbetween : ∀ call ∈ between, call.now.toNat < saturatingAdd first.now.toNat 300 := by
      intro call hc
      have hle := (List.pairwise_append.mp hrest).2.2 call hc later (by simp)
      rw [UInt64.le_iff_toNat_le] at hle
      omega
    have hlive : run B (before ++ first :: between) d.replayKey =
        some (saturatingAdd first.now.toNat 300) := by
      rw [hkey, List.append_cons, run_append]
      exact live_calls hentry hbetween
    exact ⟨not_letThrough hlive hlate, prepare_replayDetected hpass hlive hlate⟩

/-- A service with one X25519 key. Field decryption is not reached below. -/
def demoBackend : Backend where
  normalizeSecp256k1PublicKeyHex _ := none
  fromSlice := Json.parse (fun _ => none) 127
  decryptRequestPayload _ _ _ := .error .decryptionFailed
  prepareLegacyE2eeRequest _ := .error .invalidSigningAlgo

def demoCall (timestamp : String) (now : UInt64) : Call where
  parts :=
    { signingAlgo := none
      clientPublicKey := some (String.ofList (List.replicate 64 'c'))
      modelPublicKey := some (String.ofList (List.replicate 64 'a'))
      version := some "2"
      nonce := some (String.ofList (List.replicate 64 '0'))
      timestamp := some timestamp }
  body := utf8 "\x7b\"model\":\"m\"\x7d"
  endpointPath := "/v1/chat/completions"
  keyset := [{ keyId := "k", algo := e2eeAlgoX25519Aesgcm
               publicKeyHex := String.ofList (List.replicate 64 'A') }]
  now := now

/-- Reading the timestamp off a successful check. -/
theorem passes_of_timestamp (B : Backend) (call : Call) (hs : call.parts.signingAlgo = none)
    (h : (checkRequest B call).map (fun c => c.headers.timestamp) = .ok t) :
    ∃ c, Passes B call c ∧ c.headers.timestamp = t := by
  cases hc : checkRequest B call with
  | error e => simp [hc, Except.map] at h
  | ok c =>
    simp only [hc, Except.map, Except.ok.injEq] at h
    exact ⟨c, ⟨hs, hc⟩, h⟩

/-- A request that arrives one second after its timestamp cannot be replayed. -/
theorem replay_rejected_after_timestamp : ∃ c,
    LetThrough demoBackend (run demoBackend []) (demoCall "999" 1000) c ∧
    ∀ between later d, InClockOrder (demoCall "999" 1000 :: (between ++ [later])) →
      Passes demoBackend later d → SameTuple c d →
      ¬ LetThrough demoBackend (run demoBackend ([] ++ demoCall "999" 1000 :: between)) later d ∧
      (prepareE2eeV2Request demoBackend (run demoBackend ([] ++ demoCall "999" 1000 :: between))
        later).1 = .error .replayDetected := by
  obtain ⟨c, hp, ht⟩ := passes_of_timestamp demoBackend (demoCall "999" 1000) (t := 999) rfl
    (by decide +kernel)
  have hl : LetThrough demoBackend (run demoBackend []) (demoCall "999" 1000) c :=
    letThrough_of_absent hp rfl
  exact ⟨c, hl, (replay_rejected_iff hl).mpr (by rw [ht]; decide)⟩

/-- A request stamped with the second it arrives in is let through again 300 seconds later,
while its timestamp is still accepted. -/
theorem replay_accepted_at_window_end : ∃ c,
    LetThrough demoBackend (run demoBackend []) (demoCall "1000" 1000) c ∧
    LetThrough demoBackend (run demoBackend [demoCall "1000" 1000]) (demoCall "1000" 1300) c := by
  obtain ⟨c, hp, ht⟩ := passes_of_timestamp demoBackend (demoCall "1000" 1000) (t := 1000) rfl
    (by decide +kernel)
  have hl : LetThrough demoBackend (run demoBackend []) (demoCall "1000" 1000) c :=
    letThrough_of_absent hp rfl
  have hp' : Passes demoBackend (demoCall "1000" 1300) c :=
    passes_at 1300 hp (by rw [ht]; decide)
  have he := entry_of_letThrough hl
  exact ⟨c, hl, letThrough_of_lapsed hp' he (by decide)⟩

/-- A request stamped with its own second, and any repetition inside its window. -/
theorem demo_letThrough : ∃ c, LetThrough demoBackend (run demoBackend []) (demoCall "1000" 1000) c ∧
    ∀ clock, absDiff clock.toNat 1000 ≤ 300 → Passes demoBackend (demoCall "1000" clock) c := by
  obtain ⟨c, hp, ht⟩ := passes_of_timestamp demoBackend (demoCall "1000" 1000) (t := 1000) rfl
    (by decide +kernel)
  exact ⟨c, letThrough_of_absent hp rfl, fun clock hw => passes_at clock hp (by rwa [ht])⟩

/-- In whatever order calls read the clock and take the lock, a replay is let through only after
one of them, or with the replay itself, at the deadline of the first request or later. -/
theorem deadline_before_replay (h : LetThrough B (run B before) first c)
    (hk : d.replayKey = c.replayKey)
    (hl : LetThrough B (run B (before ++ first :: between)) later d) :
    ∃ call ∈ between ++ [later], saturatingAdd first.now.toNat 300 ≤ call.now.toNat := by
  by_contra! hn
  have hlive : run B (before ++ first :: between) d.replayKey =
      some (saturatingAdd first.now.toNat 300) := by
    rw [hk, List.append_cons, run_append]
    exact live_calls (entry_of_letThrough h) fun call hc => hn call (by simp [hc])
  exact not_letThrough hlive (hn later (by simp)) hl

theorem deadline_before_replay_at_end : ∃ c,
    LetThrough demoBackend (run demoBackend [demoCall "1000" 1000]) (demoCall "1000" 1300) c ∧
    ∃ call ∈ [demoCall "1000" 1300], saturatingAdd (1000 : UInt64).toNat 300 ≤ call.now.toNat := by
  obtain ⟨c, hl, hp⟩ := demo_letThrough
  have hl' := letThrough_of_lapsed (hp 1300 (by decide)) (entry_of_letThrough hl) (by decide)
  exact ⟨c, hl', deadline_before_replay hl rfl hl'⟩

end AciGateway.E2ee
