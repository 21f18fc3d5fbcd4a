import AciGateway.Lib.JsonDecode
import AciGateway.Lib.JsonDocument
import AciGateway.Lib.Results
import AciGateway.Lib.Sha2
import AciGateway.Upstream

/-! Sealing a chat request for a 0G provider. The request is split into members the router
reads, which stay clear and are bound as associated data, and members sealed to the provider. -/
namespace AciGateway.ZeroG

open Octets Json Results List
open Prod (fst)

def e2ee : String := "_e2ee"

def cleartextFields : List String :=
  ["model", "stream", "stream_options", "max_tokens", "max_completion_tokens"]

/-- HPKE in base mode. `Secret` holds the randomness of one request: its response key pair and
the encapsulation. `decrypt` takes the encapsulated key and the number of the message. -/
structure Hpke where
  Secret : Type
  validKey : Bytes → Bool
  responsePublic : Secret → Bytes
  encap : Secret → Bytes → Option Bytes
  encrypt : Secret → Bytes → Bytes → Bytes → Option Bytes
  validEnc : Bytes → Bool
  decrypt : Secret → Bytes → Nat → Bytes → Bytes → Option Bytes

/-- The error of the protocol, as the backend reports it. -/
def protocolError (message : String) : UpstreamError := .transport ("0G E2EE: " ++ message)

section

-- The hash, and the canonical form of a document as its library gives it.
variable (sha256 : Bytes → Bytes) (canonicalize : Value → Except String Bytes)

/-- `H(aad, ct)`. -/
def bindingHash (aad ciphertext : Bytes) : Bytes := sha256 (sha256 aad ++ sha256 ciphertext)

def metaOf (envelope : Members) : Option Members :=
  match envelope.lookup e2ee with
  | some (.obj fields) => some fields
  | _ => none

def decodeUnbound (fields : Members) : Option (Option (List String)) :=
  nullable (decodeList decodeString) ((fields.lookup "unbound_fields").getD .null)

def removeAll (names : List String) (ms : Members) : Members :=
  names.foldl (fun ms name => swapRemove name ms) ms

/-- The members the associated data covers. -/
def boundMembers (envelope fields : Members) (unbound : List String) : Members :=
  setMember e2ee (.obj (swapRemove "ciphertext" fields)) (removeAll unbound envelope)

def envelopeAad (envelope : Members) : Except String Bytes := do
  let fields ← okOr (metaOf envelope) "envelope carries no _e2ee object"
  let unbound ← okOr (decodeUnbound fields) "unbound_fields must be an array of strings"
  canonicalize (.obj (boundMembers envelope fields (unbound.getD [])))

/-- A stream must ask for its usage. -/
def includeUsage (request : Map) : Map :=
  match request.get? "stream" with
  | some (.bool true) =>
    let options := match request.get? "stream_options" with
      | some (.obj options) => options
      | _ => []
    request.insert "stream_options" (.obj (setMember "include_usage" (.bool true) options))
  | _ => request

def isClear (name : String) : Bool := name ∈ cleartextFields

def clearMembers (request : Map) : Members := request.members.filter (fun m => isClear m.1)

def sealedMembers (request : Map) : Members := request.members.filter (fun m => !isClear m.1)

section

variable (H : Hpke)

def envelopeMeta (secret : H.Secret) (encPub : Bytes) (signer : String) (enc : Bytes)
    (names : List String) : Members :=
  [("v", .num (.posInt 1)), ("kem_id", .str "0x0020"),
    ("key_id", .str (base64UrlEncode ((sha256 encPub).take 8))), ("signer_addr", .str signer),
    ("client_eph_pub", .str (base64UrlEncode (H.responsePublic secret))),
    ("enc", .str (base64UrlEncode enc)), ("sealed_fields", .arr (names.map .str))]

/-- What the response is opened with. -/
structure OpenerSeed where
  secret : H.Secret
  requestHash : Bytes
  model : Option Value

def sealChatRequest (secret : H.Secret) (request : Map) (encPub : Bytes) (signer : String) :
    Except UpstreamError (Value × OpenerSeed H) := do
  ensure ((request.get? e2ee).isNone)
    (.invalidRequest "request field \"_e2ee\" is reserved by the 0G E2EE transport")
  ensure ((request.get? "messages").isSome)
    (.invalidRequest "0G E2EE chat requests must carry messages")
  let request := includeUsage request
  ensure (H.validKey encPub) (protocolError "invalid provider encryption key")
  let enc ← okOr (H.encap secret encPub) (protocolError "encapsulation failed")
  let fields := envelopeMeta sha256 H secret encPub signer enc
    ((sealedMembers request).map Prod.fst)
  let envelope := setMember e2ee (.obj fields) (clearMembers request)
  let aad ← (envelopeAad canonicalize envelope).mapError protocolError
  let ciphertext ← okOr (H.encrypt secret encPub aad (print (.obj (sealedMembers request))))
    (protocolError "encryption failed")
  let fields := setMember "ciphertext" (.str (base64UrlEncode ciphertext)) fields
  pure (.obj (setMember e2ee (.obj fields) envelope),
    ⟨secret, bindingHash sha256 aad ciphertext, request.get? "model"⟩)

end

/-- What the provider's broker makes of an envelope: it opens the ciphertext and puts its members
next to the clear ones. -/
def brokerMerge (decrypt : Bytes → Bytes → Bytes → Option Bytes) (read : Bytes → Option Value) :
    Value → Option Members
  | .obj envelope => do
    let fields ← metaOf envelope
    let enc ← ((fields.lookup "enc").bind Value.asStr?).bind base64UrlDecode
    let ciphertext ← ((fields.lookup "ciphertext").bind Value.asStr?).bind base64UrlDecode
    let aad ← (envelopeAad canonicalize envelope).toOption
    let plaintext ← decrypt enc aad ciphertext
    match read plaintext with
    | some (.obj opened) => some (swapRemove e2ee envelope ++ opened)
    | _ => none
  | _ => none

end

variable {sha256 : Bytes → Bytes} {canonicalize : Value → Except String Bytes} {H : Hpke}
  {secret : H.Secret} {request request' : Map} {encPub enc : Bytes} {signer : String}
  {envelope : Value} {seed seed' : OpenerSeed H} {ms fields : Members} (ciphertext : Bytes)

theorem e2ee_notMem_clear (request : Map) : e2ee ∉ (clearMembers request).map fst := by
  intro h
  obtain ⟨m, hm, hname⟩ := mem_map.mp h
  have hclear := (mem_filter.mp hm).2
  rw [hname] at hclear
  exact absurd hclear (by decide)

/-- The associated data of an envelope that leaves no member unbound. -/
theorem envelopeAad_concat (h : e2ee ∉ ms.map fst) (hu : fields.lookup "unbound_fields" = none) :
    envelopeAad canonicalize (ms ++ [(e2ee, .obj fields)]) =
      canonicalize (.obj (ms ++ [(e2ee, .obj (swapRemove "ciphertext" fields))])) := by
  have hmeta : metaOf (ms ++ [(e2ee, .obj fields)]) = some fields := by
    rw [metaOf, lookup_concat h]
  have hunbound : decodeUnbound fields = some none := by
    rw [decodeUnbound, hu]
    rfl
  simp only [envelopeAad, hmeta, hunbound, okOr, bind, Except.bind, Option.getD_none, boundMembers,
    removeAll, foldl_nil, setMember_concat h]

/-- The request is split: what is not clear is sealed. -/
theorem clear_append_sealed_perm (request : Map) :
    (clearMembers request ++ sealedMembers request).Perm request.members :=
  filter_append_perm _ _

/-- The envelope of an accepted request: its clear members, and the metadata with the sealed
names and the ciphertext. -/
def sealedEnvelope (sha256 : Bytes → Bytes) (H : Hpke) (secret : H.Secret) (request : Map)
    (encPub : Bytes) (signer : String) (enc ciphertext : Bytes) : Members :=
  clearMembers request ++ [(e2ee, .obj (envelopeMeta sha256 H secret encPub signer enc
    ((sealedMembers request).map Prod.fst) ++
      [("ciphertext", .str (base64UrlEncode ciphertext))]))]

/-- What the associated data of an accepted request is computed from. -/
def boundEnvelope (sha256 : Bytes → Bytes) (H : Hpke) (secret : H.Secret) (request : Map)
    (encPub : Bytes) (signer : String) (enc : Bytes) : Members :=
  clearMembers request ++ [(e2ee, .obj (envelopeMeta sha256 H secret encPub signer enc
    ((sealedMembers request).map Prod.fst)))]

theorem sealChatRequest_eq_ok :
    sealChatRequest sha256 canonicalize H secret request encPub signer = .ok (envelope, seed) ↔
      (request.get? e2ee).isNone ∧ (request.get? "messages").isSome ∧ H.validKey encPub ∧
      ∃ enc aad ciphertext, H.encap secret encPub = some enc ∧
        canonicalize (.obj (boundEnvelope sha256 H secret (includeUsage request) encPub signer enc)) =
          .ok aad ∧
        H.encrypt secret encPub aad (print (.obj (sealedMembers (includeUsage request)))) =
          some ciphertext ∧
        envelope = .obj (sealedEnvelope sha256 H secret (includeUsage request) encPub signer enc
          ciphertext) ∧
        seed = ⟨secret, bindingHash sha256 aad ciphertext, (includeUsage request).get? "model"⟩ := by
  have hnew := e2ee_notMem_clear (includeUsage request)
  have haad : ∀ enc, envelopeAad canonicalize (boundEnvelope sha256 H secret (includeUsage request)
      encPub signer enc) = canonicalize (.obj (boundEnvelope sha256 H secret (includeUsage request)
      encPub signer enc)) := fun enc => envelopeAad_concat hnew rfl
  have hbound : ∀ enc, setMember e2ee (.obj (envelopeMeta sha256 H secret encPub signer enc
      ((sealedMembers (includeUsage request)).map fst))) (clearMembers (includeUsage request)) =
        boundEnvelope sha256 H secret (includeUsage request) encPub signer enc :=
    fun enc => setMember_of_notMem _ hnew
  have hsealed : ∀ enc ciphertext, setMember e2ee (.obj (setMember "ciphertext"
      (.str (base64UrlEncode ciphertext)) (envelopeMeta sha256 H secret encPub signer enc
        ((sealedMembers (includeUsage request)).map fst))))
        (boundEnvelope sha256 H secret (includeUsage request) encPub signer enc) =
      sealedEnvelope sha256 H secret (includeUsage request) encPub signer enc ciphertext :=
    fun enc ciphertext => setMember_concat hnew
  simp only [sealChatRequest, bind_eq_ok, ensure_eq_ok, okOr_eq_ok, mapError_eq_ok, pure_eq_ok,
    hbound, haad, hsealed, Prod.mk.injEq]
  constructor
  · rintro ⟨-, h1, -, h2, -, h3, enc, henc, aad, haad, ciphertext, hct, rfl, rfl⟩
    exact ⟨h1, h2, h3, enc, aad, ciphertext, henc, haad, hct, rfl, rfl⟩
  · rintro ⟨h1, h2, h3, enc, aad, ciphertext, henc, haad, hct, rfl, rfl⟩
    exact ⟨(), h1, (), h2, (), h3, enc, henc, aad, haad, ciphertext, hct, rfl, rfl⟩

/-! Asking for the usage touches a clear member only. -/

theorem filter_includeUsage (p : String → Bool) (h : p "stream_options" = false) :
    (includeUsage request).members.filter (fun m => p m.1) =
      request.members.filter (fun m => p m.1) := by
  unfold includeUsage
  split
  · exact (filter_setMember p).trans (by simp [h])
  · rfl

theorem sealedMembers_includeUsage : sealedMembers (includeUsage request) = sealedMembers request :=
  filter_includeUsage (fun k => !isClear k) (by decide)

theorem get?_clearMembers {k : String} (hk : isClear k) :
    (clearMembers request).lookup k = request.get? k := by
  rw [clearMembers, Map.get?]
  induction request.members with
  | nil => rfl
  | cons m ms ih =>
    rw [lookup_cons_eq, filter_cons]
    by_cases hm : k = m.1
    · subst hm
      rw [if_pos hk, lookup_cons_eq, if_pos rfl, if_pos rfl]
    · split
      · rw [lookup_cons_eq, if_neg hm, ih]
      · exact ih

theorem clearMembers_includeUsage (h : clearMembers request = clearMembers request') :
    clearMembers (includeUsage request) = clearMembers (includeUsage request') := by
  have hget : ∀ {k}, isClear k → request.get? k = request'.get? k := by
    intro k hk
    rw [← get?_clearMembers hk, ← get?_clearMembers hk, h]
  have hset : ∀ (r : Map) (v : Value), clearMembers (r.insert "stream_options" v) =
      setMember "stream_options" v (clearMembers r) :=
    fun r v => (filter_setMember isClear).trans (if_pos (by decide))
  unfold includeUsage
  rw [hget (by decide), hget (by decide)]
  split
  · rw [hset, hset, h]
  · exact h

theorem isSome_get?_iff {k : String} (hk : ¬ isClear k) :
    (request.get? k).isSome ↔ k ∈ (sealedMembers request).map fst := by
  rw [Map.get?, lookup_isSome_iff, sealedMembers, mem_map]
  constructor
  · rintro ⟨m, hm, hname⟩
    obtain rfl := eq_of_beq hname
    exact ⟨m, mem_filter.mpr ⟨hm, by simpa using hk⟩, rfl⟩
  · rintro ⟨m, hm, rfl⟩
    exact ⟨m, (mem_filter.mp hm).1, beq_self_eq_true _⟩

theorem metaOf_sealedEnvelope :
    metaOf (sealedEnvelope sha256 H secret request encPub signer enc ciphertext) =
      some (envelopeMeta sha256 H secret encPub signer enc ((sealedMembers request).map fst) ++
        [("ciphertext", .str (base64UrlEncode ciphertext))]) := by
  rw [metaOf, sealedEnvelope, lookup_concat (e2ee_notMem_clear request)]

/-- The envelope shows the names of the sealed members. -/
theorem sealedNames_of_envelope {ciphertext ciphertext' : Bytes}
    (h : sealedEnvelope sha256 H secret request encPub signer enc ciphertext =
      sealedEnvelope sha256 H secret request' encPub signer enc ciphertext') :
    (sealedMembers request).map fst = (sealedMembers request').map fst := by
  have hmeta := congrArg metaOf h
  rw [metaOf_sealedEnvelope, metaOf_sealedEnvelope] at hmeta
  have hnames := congrArg (lookup "sealed_fields") (Option.some.inj hmeta)
  have hstr := Value.arr.inj (Option.some.inj hnames)
  exact map_injective_iff.mpr (fun _ _ => Value.str.inj) hstr

theorem envelopeAad_sealedEnvelope :
    envelopeAad canonicalize (sealedEnvelope sha256 H secret request encPub signer enc ciphertext) =
      canonicalize (.obj (boundEnvelope sha256 H secret request encPub signer enc)) := by
  rw [sealedEnvelope, envelopeAad_concat (e2ee_notMem_clear request) rfl,
    swapRemove_concat (by simp [envelopeMeta]), boundEnvelope]

/-- The broker recovers the request from the envelope, if it opens what was encrypted and reads
what was printed. -/
theorem brokerMerge_sealedEnvelope {decrypt : Bytes → Bytes → Bytes → Option Bytes}
    {read : Bytes → Option Value} {aad ciphertext plaintext : Bytes} {opened : Members}
    (haad : canonicalize (.obj (boundEnvelope sha256 H secret request encPub signer enc)) = .ok aad)
    (hopen : decrypt enc aad ciphertext = some plaintext)
    (hread : read plaintext = some (.obj opened)) :
    brokerMerge canonicalize decrypt read
        (.obj (sealedEnvelope sha256 H secret request encPub signer enc ciphertext)) =
      some (clearMembers request ++ opened) := by
  have haad' := (envelopeAad_sealedEnvelope ciphertext).trans haad
  have hclear : swapRemove e2ee
      (sealedEnvelope sha256 H secret request encPub signer enc ciphertext) = clearMembers request :=
    swapRemove_concat (e2ee_notMem_clear request)
  have henc : (lookup "enc" (envelopeMeta sha256 H secret encPub signer enc
      ((sealedMembers request).map fst) ++
        [("ciphertext", .str (base64UrlEncode ciphertext))])) = some (.str (base64UrlEncode enc)) := rfl
  have hct : (lookup "ciphertext" (envelopeMeta sha256 H secret encPub signer enc
      ((sealedMembers request).map fst) ++ [("ciphertext", .str (base64UrlEncode ciphertext))])) =
          some (.str (base64UrlEncode ciphertext)) := rfl
  simp [brokerMerge, metaOf_sealedEnvelope, henc, hct, haad', hclear, hopen, hread, Value.asStr?, Except.toOption]

/-- An ideal cipher shows no more of the plaintext than its length. -/
def Hpke.LengthOnly (H : Hpke) : Prop :=
  ∀ secret key aad p p', p.length = p'.length → H.encrypt secret key aad p = H.encrypt secret key aad p'

/-- Requests with the same clear members, the same names of sealed members and the same length of
these in print have the same envelope, if the cipher shows no more of the plaintext. -/
theorem sealChatRequest_congr (hlength : H.LengthOnly)
    (h : sealChatRequest sha256 canonicalize H secret request encPub signer = .ok (envelope, seed))
    (hclear : clearMembers request = clearMembers request')
    (hnames : (sealedMembers request).map fst = (sealedMembers request').map fst)
    (hprint : (print (.obj (sealedMembers request))).length =
      (print (.obj (sealedMembers request'))).length) :
    ∃ seed', sealChatRequest sha256 canonicalize H secret request' encPub signer =
      .ok (envelope, seed') := by
  obtain ⟨hfresh, hmessages, hkey, enc, aad, ciphertext, henc, haad, hct, rfl, rfl⟩ :=
    sealChatRequest_eq_ok.mp h
  have hpresent : ∀ {k}, ¬ isClear k → ((request.get? k).isSome ↔ (request'.get? k).isSome) := by
    intro k hk
    rw [isSome_get?_iff hk, isSome_get?_iff hk, hnames]
  have hclear' := clearMembers_includeUsage hclear
  have hnames' : (sealedMembers (includeUsage request)).map fst =
      (sealedMembers (includeUsage request')).map fst := by
    rw [sealedMembers_includeUsage, sealedMembers_includeUsage, hnames]
  refine ⟨_, sealChatRequest_eq_ok.mpr
    ⟨?_, (hpresent (by decide)).mp hmessages, hkey, enc, aad, ciphertext, henc, ?_, ?_, ?_, rfl⟩⟩
  · have h := hpresent (k := e2ee) (by decide)
    rw [Option.isNone_iff_eq_none] at hfresh ⊢
    rw [hfresh] at h
    simpa using h
  · rw [← haad, boundEnvelope, boundEnvelope, hclear', hnames']
  · rw [sealedMembers_includeUsage] at hct ⊢
    rw [← hct]
    exact hlength _ _ _ _ _ hprint.symm
  · rw [sealedEnvelope, sealedEnvelope, hclear', hnames']

/-- The envelope of an accepted request holds its clear members and the metadata, which lists the
sealed members; the two parts are disjoint, and opening and merging gives the request back, with
its usage asked for. Requests that agree on the clear members and, in order, on the names of the
sealed ones have the same envelope. -/
theorem sealed_request
    (h : sealChatRequest sha256 canonicalize H secret request encPub signer = .ok (envelope, seed)) :
    (∃ fields, envelope = .obj (clearMembers (includeUsage request) ++ [(e2ee, .obj fields)]) ∧
      fields.lookup "sealed_fields" =
        some (.arr ((sealedMembers request).map (fun m => .str m.1)))) ∧
    ((clearMembers (includeUsage request)).map Prod.fst).Disjoint
      ((sealedMembers request).map Prod.fst) ∧
    (∀ (decrypt : Bytes → Bytes → Bytes → Option Bytes) (read : Bytes → Option Value) plaintext,
      plaintext = print (.obj (sealedMembers request)) →
      (∀ enc aad ciphertext, H.encap secret encPub = some enc →
        H.encrypt secret encPub aad plaintext = some ciphertext →
        decrypt enc aad ciphertext = some plaintext) →
      read plaintext = some (.obj (sealedMembers request)) →
      ∃ merged, brokerMerge canonicalize decrypt read envelope = some merged ∧
        merged.Perm (includeUsage request).members) ∧
    (H.LengthOnly → ∀ request' : Map, clearMembers request = clearMembers request' →
      (sealedMembers request).map Prod.fst = (sealedMembers request').map Prod.fst →
      (print (.obj (sealedMembers request))).length = (print (.obj (sealedMembers request'))).length →
      ∃ seed', sealChatRequest sha256 canonicalize H secret request' encPub signer =
        .ok (envelope, seed')) := by
  refine ⟨?_, ?_, ?_, fun hlength request' => sealChatRequest_congr hlength h⟩
  all_goals
    obtain ⟨-, -, -, enc, aad, ciphertext, henc, haad, hct, rfl, rfl⟩ := sealChatRequest_eq_ok.mp h
  · refine ⟨_, rfl, ?_⟩
    have hnames : ((sealedMembers request).map Prod.fst).map Value.str =
        (sealedMembers request).map (fun m => .str m.1) := map_map
    rw [sealedMembers_includeUsage, ← hnames]
    rfl
  · intro k hclear hsealed
    obtain ⟨m, hm, rfl⟩ := mem_map.mp hclear
    obtain ⟨n, hn, hname⟩ := mem_map.mp hsealed
    have hm := (mem_filter.mp hm).2
    have hn := (mem_filter.mp hn).2
    rw [hname, hm] at hn
    cases hn
  · rintro decrypt read _ rfl hopen hread
    rw [sealedMembers_includeUsage] at hct
    refine ⟨_, brokerMerge_sealedEnvelope haad (hopen enc aad ciphertext henc hct) hread, ?_⟩
    rw [← sealedMembers_includeUsage]
    exact clear_append_sealed_perm _

/-- A cipher whose ciphertexts are zeros. -/
def zeroHpke : Hpke where
  Secret := Unit
  validKey _ := true
  responsePublic _ := []
  encap _ _ := some []
  encrypt _ _ _ plaintext := some (List.replicate plaintext.length 0)
  validEnc _ := true
  decrypt _ _ _ _ _ := none

theorem zeroHpke_lengthOnly : zeroHpke.LengthOnly := by
  intro _ _ _ p p' h
  simp only [zeroHpke, h]

def streamRequest (content : String) : Map :=
  ⟨[("model", .str "m"), ("messages", .arr [.str content]), ("stream", .bool true)], by simp⟩

theorem sealed_request_stream :
    ∃ envelope seed seed',
      sealChatRequest (fun b => b) (fun v => .ok (print v)) zeroHpke () (streamRequest "a") [] "s" =
        .ok (envelope, seed) ∧
      sealChatRequest (fun b => b) (fun v => .ok (print v)) zeroHpke () (streamRequest "b") [] "s" =
        .ok (envelope, seed') ∧
      ∃ merged, brokerMerge (fun v => .ok (print v))
          (fun _ _ _ => some (print (.obj [("messages", .arr [.str "a"])]))) (fromSlice fun _ => none)
          envelope = some merged ∧
        merged.Perm [("model", .str "m"), ("messages", .arr [.str "a"]), ("stream", .bool true),
          ("stream_options", .obj [("include_usage", .bool true)])] := by
  obtain ⟨envelope, seed, h⟩ : ∃ envelope seed, sealChatRequest (fun b => b)
      (fun v => .ok (print v)) zeroHpke () (streamRequest "a") [] "s" = .ok (envelope, seed) :=
    ⟨_, _, rfl⟩
  obtain ⟨-, -, hmerge, hsame⟩ := sealed_request h
  obtain ⟨seed', h'⟩ := hsame zeroHpke_lengthOnly (streamRequest "b") rfl rfl rfl
  refine ⟨envelope, seed, seed', h, h', hmerge _ _ _ rfl (fun _ _ _ _ _ => rfl) ?_⟩
  exact fromSlice_print _ (by decide) rfl rfl

/-- The order of the sealed members shows in the envelope. -/
theorem sealed_request_order :
    let request : Map := ⟨[("messages", .arr []), ("n", .num (.posInt 1))], by decide⟩
    let request' : Map := ⟨[("n", .num (.posInt 1)), ("messages", .arr [])], by decide⟩
    zeroHpke.LengthOnly ∧ clearMembers request = clearMembers request' ∧
    (sealedMembers request).Perm (sealedMembers request') ∧
    (print (.obj (sealedMembers request))).length = (print (.obj (sealedMembers request'))).length ∧
    ∃ envelope envelope' seed seed',
      sealChatRequest Sha2.sha256 (fun v => .ok (print v)) zeroHpke () request [] "s" =
        .ok (envelope, seed) ∧
      sealChatRequest Sha2.sha256 (fun v => .ok (print v)) zeroHpke () request' [] "s" =
        .ok (envelope', seed') ∧
      envelope ≠ envelope' := by
  refine ⟨zeroHpke_lengthOnly, rfl, Perm.swap _ _ _, rfl, _, _, _, _,
    sealChatRequest_eq_ok.mpr ⟨rfl, rfl, rfl, [], _, _, rfl, rfl, rfl, rfl, rfl⟩,
    sealChatRequest_eq_ok.mpr ⟨rfl, rfl, rfl, [], _, _, rfl, rfl, rfl, rfl, rfl⟩, ?_⟩
  intro h
  have hnames := sealedNames_of_envelope (Value.obj.inj h)
  exact absurd hnames (by decide)

end AciGateway.ZeroG
