import AciGateway.Lib.Text
import AciGateway.ZeroG.Envelope

/-! Opening the response of a 0G provider. A frame is opened with its clear members as
associated data; its hash is kept, and the provider's signature is over the hashes. -/
namespace AciGateway.ZeroG

open Octets Json Results Text List

structure FrameMeta where
  v : Option U64
  enc : Option String
  sealedFields : List String
  unboundFields : Option (List String)
  isFinal : Bool
  ciphertext : String

/-- The metadata of a frame, as an object or as the array of its fields. -/
def decodeFrameMeta : Value → Option FrameMeta
  | .obj fields => do
    let v ← optionalMember "v" decodeU64 fields
    let enc ← optionalMember "enc" decodeString fields
    let sealedFields ← required "sealed_fields" (decodeList decodeString) fields
    let unboundFields ← optionalMember "unbound_fields" (decodeList decodeString) fields
    let isFinal ← (← member? "final" fields).elim (some false) Value.asBool?
    let ciphertext ← required "ciphertext" decodeString fields
    pure ⟨v, enc, sealedFields, unboundFields, isFinal, ciphertext⟩
  | .arr [v, enc, sealedFields, unboundFields, isFinal, ciphertext] => do
    let v ← nullable decodeU64 v
    let enc ← nullable decodeString enc
    let sealedFields ← decodeList decodeString sealedFields
    let unboundFields ← nullable (decodeList decodeString) unboundFields
    let isFinal ← isFinal.asBool?
    let ciphertext ← decodeString ciphertext
    pure ⟨v, enc, sealedFields, unboundFields, isFinal, ciphertext⟩
  | _ => none

/-- What the profile for chat does not allow to be sealed, or to be left unbound. -/
def profileForbids (sealedFields unbound : List String) : Bool :=
  !sealedFields.any (fun f => f = "choices") ||
    sealedFields.any (fun f => f = "usage" || f = "model" || f = e2ee) ||
    unbound.any (fun f => f = "usage" || f = e2ee)

def decode (value : String) : Except String Bytes :=
  okOr (base64UrlDecode value) "0G field is not unpadded base64url"

/-- The opened frame without its unbound member `field`; the model the request bound takes the
place of an unbound model. -/
def dropUnbound (model : Option Value) (frame : Map) (field : String) : Map :=
  match frame.get? field, model with
  | some _, some model =>
    if field = "model" then (frame.remove field).insert field model else frame.remove field
  | _, _ => frame.remove field

section

variable (H : Hpke)

/-- `context` holds the encapsulated key of the response and the number of the next frame. -/
structure ResponseOpener where
  secret : H.Secret
  context : Option (Bytes × Nat)
  requestHash : Bytes
  model : Option Value
  frameHashes : List Bytes
  sawFinal : Bool

def ResponseOpener.new (seed : OpenerSeed H) : ResponseOpener H :=
  ⟨seed.secret, none, seed.requestHash, seed.model, [], false⟩

end

section

variable (sha256 : Bytes → Bytes) (canonicalize : Value → Except String Bytes)
  (round : Bytes → Option FloatText)

namespace ResponseOpener

variable {H : Hpke}

/-- The first frame sets up the context of the response. -/
def receiver (o : ResponseOpener H) (fields : FrameMeta) : Except String (Bytes × Nat) :=
  match o.context with
  | some context => .ok context
  | none => do
    ensure (fields.v = some 1) "first 0G response frame lacks version 1 and enc"
    let enc ← okOr fields.enc "first 0G response frame lacks version 1 and enc"
    let enc ← decode enc
    ensure (H.validEnc enc) "invalid 0G response enc"
    pure (enc, 0)

def openFrame (o : ResponseOpener H) (frame : Map) : Except String (ResponseOpener H × Map) := do
  ensure (o.sawFinal = false) "0G response carried a frame after its final frame"
  let value ← okOr (frame.get? e2ee) "0G response frame is not sealed"
  let fields ← okOr (decodeFrameMeta value) "malformed 0G frame envelope"
  let unbound := fields.unboundFields.getD []
  ensure (profileForbids fields.sealedFields unbound = false)
    "0G response frame seals or unbinds fields the chat profile forbids"
  let context ← o.receiver fields
  let ciphertext ← decode fields.ciphertext
  let aad ← envelopeAad canonicalize frame.members
  let plaintext ← okOr (H.decrypt o.secret context.1 context.2 aad ciphertext)
    "0G response frame failed authenticated decryption"
  let opened ← okOr (readMap round plaintext) "decrypted 0G response is not a JSON object"
  let names := opened.members.map Prod.fst
  ensure (fields.sealedFields.insertionSort (· ≤ ·) = names.insertionSort (· ≤ ·) ∧
      ∀ name ∈ names, ((frame.remove e2ee).get? name).isNone)
    "decrypted 0G response fields do not match sealed_fields"
  pure ({ o with
      context := some (context.1, context.2 + 1)
      frameHashes := o.frameHashes ++ [bindingHash sha256 aad ciphertext]
      sawFinal := fields.isFinal },
    (unbound.foldl (dropUnbound o.model) (frame.remove e2ee)).extend opened.members)

end ResponseOpener

def signatureText (stream : Bool) (requestHash responseHash : Bytes) : String :=
  (if stream then "zg-sig-v1/e2ee-ct-stream" else "zg-sig-v1/e2ee-ct") ++ ":" ++
    hexEncode requestHash ++ ":" ++ hexEncode responseHash

/-- The text the provider must have signed. -/
def ResponseOpener.signedText {H : Hpke} (o : ResponseOpener H) (stream : Bool) :
    Except String String := do
  ensure o.sawFinal "0G response ended before its final frame"
  match stream, o.frameHashes with
  | false, [frame] => pure (signatureText false o.requestHash frame)
  | false, _ => .error "a buffered 0G response must be one frame"
  | true, frames => pure (signatureText true o.requestHash (sha256 frames.flatten))

end

structure ChatSignature where
  text : String
  signature : String

/-- `recoverSigner` gives the address that signed a text, in the text's own format for signed
messages. -/
def verifySignature (recoverSigner : String → String → Except String String)
    (signature : ChatSignature) (expectedText signer : String) : Except String Unit := do
  ensure (signature.text = expectedText) "0G signature does not bind this request and response"
  let recovered ← recoverSigner signature.text signature.signature
  ensure (eqIgnoreAsciiCase recovered signer)
    ("0G signature recovered " ++ recovered ++ ", expected " ++ signer)

/-! What a signature is over. -/

/-- Associated data and ciphertext. -/
structure Part where
  aad : Bytes
  ciphertext : Bytes
  deriving DecidableEq

/-- A request and the frames that answer it, as a provider signs them. -/
structure SignedResponse where
  stream : Bool
  request : Part
  frames : List Part
  single : stream = false → frames.length = 1

section

variable (sha256 : Bytes → Bytes) (canonicalize : Value → Except String Bytes)

def Part.hash (p : Part) : Bytes := bindingHash sha256 p.aad p.ciphertext

/-- The strings that are hashed for a part. -/
def Part.strings (p : Part) : List Bytes :=
  [p.aad, p.ciphertext, sha256 p.aad ++ sha256 p.ciphertext]

/-- The strings that are hashed for a response. -/
def strings (request : Part) (frames : List Part) : List Bytes :=
  (frames.map (Part.hash sha256)).flatten :: (request :: frames).flatMap (Part.strings sha256)

def SignedResponse.text (r : SignedResponse) : String :=
  signatureText r.stream (r.request.hash sha256)
    (if r.stream then sha256 (r.frames.map (Part.hash sha256)).flatten
      else (r.frames.map (Part.hash sha256)).flatten)

/-- The parts of an envelope, of a request or of a frame. -/
def partOf (envelope : Members) : Option Part := do
  let fields ← metaOf envelope
  let ciphertext ← ((fields.lookup "ciphertext").bind Value.asStr?).bind base64UrlDecode
  let aad ← (envelopeAad canonicalize envelope).toOption
  pure ⟨aad, ciphertext⟩

end

variable {sha256 : Bytes → Bytes} {canonicalize : Value → Except String Bytes}
  {round : Bytes → Option FloatText} {H : Hpke} {S : Set Bytes} {p q : Part}
  {r r' : SignedResponse}

theorem signatureText_inj {stream stream' : Bool} {a a' b b' : Bytes} (ha : a.length = a'.length)
    (hb : b.length = b'.length) (h : signatureText stream a b = signatureText stream' a' b') :
    stream = stream' ∧ a = a' ∧ b = b' := by
  have hlists : ∀ (s : Bool) a b, (signatureText s a b).toList =
      ((if s then "zg-sig-v1/e2ee-ct-stream" else "zg-sig-v1/e2ee-ct").toList ++ ':' ::
        (hexEncode a).toList) ++ ':' :: (hexEncode b).toList := by
    simp [signatureText, String.toList_append]
  have h := congrArg String.toList h
  rw [hlists, hlists] at h
  have hb' : (':' :: (hexEncode b).toList).length = (':' :: (hexEncode b').toList).length := by
    rw [length_cons, length_cons, length_hexEncode, length_hexEncode, hb]
  have ha' : (':' :: (hexEncode a).toList).length = (':' :: (hexEncode a').toList).length := by
    rw [length_cons, length_cons, length_hexEncode, length_hexEncode, ha]
  obtain ⟨hleft, hright⟩ := append_inj' h hb'
  obtain ⟨hscheme, hmiddle⟩ := append_inj' hleft ha'
  refine ⟨?_, hexEncode_injective (String.toList_inj.mp (cons.inj hmiddle).2),
    hexEncode_injective (String.toList_inj.mp (cons.inj hright).2)⟩
  cases stream <;> cases stream' <;> first | rfl | exact absurd hscheme (by decide)

section

variable (hlen : ∀ x, (sha256 x).length = 32) (hinj : Set.InjOn sha256 S)

include hlen hinj

theorem hash_inj (hp : ∀ x ∈ p.strings sha256, x ∈ S) (hq : ∀ x ∈ q.strings sha256, x ∈ S)
    (h : p.hash sha256 = q.hash sha256) : p = q := by
  simp only [Part.strings, forall_mem_cons] at hp hq
  obtain ⟨haad, hct, hpair, -⟩ := hp
  obtain ⟨haad', hct', hpair', -⟩ := hq
  have hpairs := hinj hpair hpair' h
  obtain ⟨ha, hc⟩ := append_inj hpairs ((hlen _).trans (hlen _).symm)
  cases q
  cases hinj haad haad' ha
  cases hinj hct hct' hc
  rfl

theorem hashes_inj {ps qs : List Part} (hp : ∀ x ∈ ps.flatMap (Part.strings sha256), x ∈ S)
    (hq : ∀ x ∈ qs.flatMap (Part.strings sha256), x ∈ S)
    (h : ps.map (Part.hash sha256) = qs.map (Part.hash sha256)) : ps = qs := by
  induction ps generalizing qs with
  | nil => exact (map_eq_nil_iff.mp h.symm).symm
  | cons p ps ih =>
    cases qs with
    | nil => cases h
    | cons q qs =>
      simp only [flatMap_cons, forall_mem_append] at hp hq
      obtain ⟨hhead, htail⟩ := cons.inj h
      rw [hash_inj hlen hinj hp.1 hq.1 hhead, ih hp.2 hq.2 htail]

/-- The signed text determines the request and the frames. -/
theorem text_inj (hr : ∀ x ∈ strings sha256 r.request r.frames, x ∈ S)
    (hr' : ∀ x ∈ strings sha256 r'.request r'.frames, x ∈ S)
    (h : r.text sha256 = r'.text sha256) : r = r' := by
  simp only [strings, forall_mem_cons, flatMap_cons, forall_mem_append] at hr hr'
  obtain ⟨hconcat, hrequest, hframes⟩ := hr
  obtain ⟨hconcat', hrequest', hframes'⟩ := hr'
  have hlength : ∀ (p : Part), (p.hash sha256).length = 32 := fun p => hlen _
  have hhashes : ∀ (ps : List Part), ∀ x ∈ ps.map (Part.hash sha256), x.length = 32 := by
    intro ps x hx
    obtain ⟨p, -, rfl⟩ := mem_map.mp hx
    exact hlength p
  have hresponse : ∀ (r : SignedResponse), (if r.stream then
      sha256 (r.frames.map (Part.hash sha256)).flatten
        else (r.frames.map (Part.hash sha256)).flatten).length = 32 := by
    intro r
    cases hs : r.stream with
    | true => exact hlen _
    | false =>
      obtain ⟨p, hp⟩ := length_eq_one_iff.mp (r.single hs)
      simpa [hp] using hlength p
  obtain ⟨hstream, hreq, hresp⟩ := signatureText_inj
    ((hlength _).trans (hlength _).symm) ((hresponse r).trans (hresponse r').symm) h
  have hflat : (r.frames.map (Part.hash sha256)).flatten =
      (r'.frames.map (Part.hash sha256)).flatten := by
    rw [← hstream] at hresp
    cases hs : r.stream with
    | true =>
      rw [hs, if_pos rfl, if_pos rfl] at hresp
      exact hinj hconcat hconcat' hresp
    | false => simpa [hs] using hresp
  have hsame := Lists.flatten_injective_of_length (by decide) (hhashes _) (hhashes _) hflat
  cases r'
  cases hstream
  cases hash_inj hlen hinj hrequest hrequest' hreq
  cases hashes_inj hlen hinj hframes hframes' hsame
  rfl

end

theorem partOf_sealedEnvelope {secret : H.Secret} {request : Map} {encPub enc : Bytes}
    {signer : String} {aad ciphertext : Bytes}
    (haad : canonicalize (.obj (boundEnvelope sha256 H secret request encPub signer enc)) = .ok aad) :
    partOf canonicalize (sealedEnvelope sha256 H secret request encPub signer enc ciphertext) =
      some ⟨aad, ciphertext⟩ := by
  have haad := (envelopeAad_sealedEnvelope ciphertext).trans haad
  have hct : lookup "ciphertext" (envelopeMeta sha256 H secret encPub signer enc
      ((sealedMembers request).map Prod.fst) ++
        [("ciphertext", .str (base64UrlEncode ciphertext))]) =
          some (.str (base64UrlEncode ciphertext)) := rfl
  simp [partOf, metaOf_sealedEnvelope, hct, haad, Value.asStr?, Except.toOption]

/-! What an opened frame is made of. -/

/-- The members the associated data covers mark the frame as final. -/
def MarkedFinal (bound : Members) : Prop :=
  ∃ fields, metaOf bound = some fields ∧ member? "final" fields = some (some (.bool true))

structure OpenedFrame where
  part : Part
  isFinal : Bool
  opened : Map

/-- Every member of the opened frame was decrypted with the associated data, is covered by it, or
is the model of the request. -/
def Genuine (canonicalize : Value → Except String Bytes) (round : Bytes → Option FloatText)
    (secret : H.Secret) (model : Option Value) (enc : Bytes) (n : Nat) (f : OpenedFrame) : Prop :=
  ∃ plaintext decrypted bound,
    H.decrypt secret enc n f.part.aad f.part.ciphertext = some plaintext ∧
    readMap round plaintext = some decrypted ∧
    canonicalize (.obj bound) = .ok f.part.aad ∧
    (f.isFinal ↔ MarkedFinal bound) ∧
    ∀ m ∈ f.opened.members, m ∈ decrypted.members ∨ m ∈ bound ∧ m.1 ≠ e2ee ∨
      m.1 = "model" ∧ model = some m.2

variable {model : Option Value} {frame out : Map} {frames outs : List Map} {names : List String}
  {m : String × Value} {ms fields : Members} {o o' : ResponseOpener H} {info : FrameMeta}

theorem mem_dropUnbound {field : String} (h : m ∈ (dropUnbound model frame field).members) :
    m ∈ frame.members ∧ m.1 ≠ field ∨ m.1 = "model" ∧ model = some m.2 := by
  unfold dropUnbound at h
  split at h
  · split at h
    · next v hfield =>
      rcases mem_setMember h with rfl | h
      · exact .inr ⟨hfield, rfl⟩
      · exact .inl (Map.mem_remove.mp h)
    · exact .inl (Map.mem_remove.mp h)
  · exact .inl (Map.mem_remove.mp h)

theorem mem_foldl_dropUnbound (h : m ∈ (names.foldl (dropUnbound model) frame).members) :
    m ∈ frame.members ∧ m.1 ∉ names ∨ m.1 = "model" ∧ model = some m.2 := by
  induction names generalizing frame with
  | nil => exact .inl ⟨h, by simp⟩
  | cons name names ih =>
    rcases ih h with ⟨hm, hnot⟩ | hmodel
    · rcases mem_dropUnbound hm with ⟨hm, hne⟩ | hmodel
      · exact .inl ⟨hm, by simp [hne, hnot]⟩
      · exact .inr hmodel
    · exact .inr hmodel

theorem mem_removeAll (hu : (ms.map Prod.fst).Nodup) (hm : m ∈ ms) (hnot : m.1 ∉ names) :
    m ∈ removeAll names ms := by
  induction names generalizing ms with
  | nil => exact hm
  | cons name names ih =>
    rw [mem_cons, not_or] at hnot
    exact ih (nodup_swapRemove hu) ((mem_swapRemove hu).mpr ⟨hm, hnot.1⟩) hnot.2

/-- What the metadata of a frame says, in the object it was decoded from. -/
theorem decodeFrameMeta_obj (h : decodeFrameMeta (.obj fields) = some info) :
    decodeUnbound fields = some info.unboundFields ∧
    (fields.lookup "ciphertext").bind Value.asStr? = some info.ciphertext ∧
    (info.isFinal ↔ member? "final" fields = some (some (.bool true))) := by
  simp only [decodeFrameMeta, Option.bind_eq_bind, Option.bind_eq_some_iff] at h
  obtain ⟨v, -, enc, -, sealedFields, -, unbound, hunbound, final, hfinal, isFinal, hflag, ciphertext,
    hciphertext, ⟨⟩⟩ := h
  refine ⟨lookup_of_optionalMember hunbound, ?_, ?_⟩
  · exact lookup_of_required hciphertext
  · rw [hfinal]
    cases final with
    | none => cases hflag; simp
    | some value => cases value <;> cases hflag; simp

theorem metaOf_eq_some : metaOf ms = some fields ↔ ms.lookup e2ee = some (.obj fields) := by
  unfold metaOf
  split
  · next fields' h => simp [h]
  · next h => exact ⟨fun h' => (by cases h'), fun h' => (h _ h').elim⟩

theorem envelopeAad_eq_ok {aad : Bytes} (h : envelopeAad canonicalize ms = .ok aad) :
    ∃ fields unbound, metaOf ms = some fields ∧ decodeUnbound fields = some unbound ∧
      canonicalize (.obj (boundMembers ms fields (unbound.getD []))) = .ok aad := by
  simp only [envelopeAad, bind_eq_ok, okOr_eq_ok] at h
  obtain ⟨fields, hfields, unbound, hunbound, h⟩ := h
  exact ⟨fields, unbound, hfields, hunbound, h⟩

/-- The associated data covers the mark of a final frame. -/
theorem markedFinal_boundMembers (unbound : List String) :
    MarkedFinal (boundMembers ms fields unbound) ↔
      member? "final" fields = some (some (.bool true)) := by
  have hmeta : metaOf (boundMembers ms fields unbound) = some (swapRemove "ciphertext" fields) := by
    rw [metaOf_eq_some, boundMembers, lookup_setMember, if_pos rfl]
  simp [MarkedFinal, hmeta, member?_swapRemove]

open ResponseOpener

theorem openFrame_eq_ok (h : o.openFrame sha256 canonicalize round frame = .ok (o', out)) :
    ∃ enc n f, o.sawFinal = false ∧
      (o.context = some (enc, n) ∨ o.context = none ∧ n = 0) ∧
      partOf canonicalize frame.members = some f.part ∧ f.opened = out ∧
      Genuine canonicalize round o.secret o.model enc n f ∧
      o' = { o with
        context := some (enc, n + 1)
        frameHashes := o.frameHashes ++ [f.part.hash sha256]
        sawFinal := f.isFinal } := by
  simp only [openFrame, bind_eq_ok, ensure_eq_ok, okOr_eq_ok, pure_eq_ok, Prod.mk.injEq] at h
  obtain ⟨-, hopen, value, hvalue, info, hinfo, -, -, context, hcontext, ciphertext, hct, aad, haad,
    plaintext, hplain, decrypted, hread, -, -, rfl, rfl⟩ := h
  obtain ⟨fields, unbound, hmeta, hunbound, hbound⟩ := envelopeAad_eq_ok haad
  obtain rfl : value = .obj fields := Option.some.inj (hvalue.symm.trans (metaOf_eq_some.mp hmeta))
  obtain ⟨hunbound', hlookup, hfinal⟩ := decodeFrameMeta_obj hinfo
  obtain rfl : info.unboundFields = unbound := Option.some.inj (hunbound'.symm.trans hunbound)
  refine ⟨context.1, context.2, ⟨⟨aad, ciphertext⟩, info.isFinal, _⟩, hopen, ?_, ?_, rfl, ?_, rfl⟩
  · unfold receiver at hcontext
    split at hcontext
    · next context' hsome =>
      cases hcontext
      exact .inl hsome
    · next hnone =>
      simp only [bind_eq_ok, ensure_eq_ok, okOr_eq_ok, pure_eq_ok] at hcontext
      obtain ⟨-, -, -, -, enc, -, -, -, rfl⟩ := hcontext
      exact .inr ⟨hnone, rfl⟩
  · have hdecode : base64UrlDecode info.ciphertext = some ciphertext := okOr_eq_ok.mp hct
    simp [partOf, hmeta, hlookup, hdecode, haad, Except.toOption]
  · refine ⟨plaintext, decrypted, _, hplain, hread, hbound,
      hfinal.trans (markedFinal_boundMembers _).symm, ?_⟩
    intro m hm
    rcases Map.mem_extend hm with hm | hm
    · exact .inl hm
    · rcases mem_foldl_dropUnbound hm with ⟨hm, hnot⟩ | hmodel
      · obtain ⟨hm, hne⟩ := Map.mem_remove.mp hm
        exact .inr (.inl ⟨mem_setMember_of_ne (mem_removeAll frame.unique hm hnot) hne, hne⟩)
      · exact .inr (.inr hmodel)

/-- The frames of a response, opened in order. -/
def ResponseOpener.openFrames (sha256 : Bytes → Bytes)
    (canonicalize : Value → Except String Bytes) (round : Bytes → Option FloatText)
    (o : ResponseOpener H) : List Map → Except String (ResponseOpener H × List Map)
  | [] => .ok (o, [])
  | frame :: frames => do
    let (o, out) ← o.openFrame sha256 canonicalize round frame
    let (o, outs) ← o.openFrames sha256 canonicalize round frames
    pure (o, out :: outs)

/-- The log of a run: what each frame was opened to. A final frame is the last one. -/
theorem openFrames_eq_ok (h : o.openFrames sha256 canonicalize round frames = .ok (o', outs)) :
    ∃ enc log, (∀ c, o.context = some c → c.1 = enc) ∧
      frames.map (fun frame => partOf canonicalize frame.members) =
        log.map (fun f => some f.part) ∧
      log.map OpenedFrame.opened = outs ∧
      (∀ i f, log[i]? = some f → Genuine canonicalize round o.secret o.model enc
        ((o.context.map Prod.snd).getD 0 + i) f) ∧
      (o.sawFinal = true → log = []) ∧ (∀ f ∈ log.dropLast, f.isFinal = false) ∧
      o'.sawFinal = (log.getLast?.map OpenedFrame.isFinal).getD o.sawFinal ∧
      o'.requestHash = o.requestHash ∧
      o'.frameHashes = o.frameHashes ++ log.map (fun f => f.part.hash sha256) := by
  induction frames generalizing o outs with
  | nil =>
    obtain ⟨rfl, rfl⟩ := Prod.mk.inj (Except.ok.inj h)
    refine ⟨(o.context.map Prod.fst).getD [], [], ?_, rfl, rfl, by simp, fun _ => rfl, by simp, rfl,
      rfl, by simp⟩
    intro c hc
    simp [hc]
  | cons frame frames ih =>
    simp only [openFrames, bind_eq_ok, pure_eq_ok, Prod.exists, Prod.mk.injEq] at h
    obtain ⟨o₁, out, hframe, o₂, outs, hframes, rfl, rfl⟩ := h
    obtain ⟨enc, n, f, hopen, hcontext, hpart, rfl, hgenuine, rfl⟩ := openFrame_eq_ok hframe
    obtain ⟨enc', log, henc, hparts, rfl, hlog, hfinal, hlast, hsaw, hrequest, hhashes⟩ := ih hframes
    obtain rfl : enc = enc' := henc _ rfl
    have hnumber : (o.context.map Prod.snd).getD 0 = n := by
      rcases hcontext with hc | ⟨hc, rfl⟩ <;> simp [hc]
    refine ⟨enc, f :: log, ?_, ?_, rfl, ?_, ?_, ?_, ?_, hrequest, ?_⟩
    · intro c hc
      rcases hcontext with hc' | ⟨hc', -⟩
      · rw [hc', Option.some.injEq] at hc
        rw [← hc]
      · rw [hc'] at hc
        cases hc
    · rw [map_cons, map_cons, hparts, hpart]
    · intro i f' hf
      rw [hnumber]
      cases i with
      | zero =>
        cases hf
        exact hgenuine
      | succ i =>
        have h := hlog i f' hf
        rwa [show ((Option.map Prod.snd (some (enc, n + 1))).getD 0 + i) = n + (i + 1) by
          simp only [Option.map_some, Option.getD_some]; omega] at h
    · simp [hopen]
    · -- A frame was opened after this one, so this one was not final.
      intro f' hf
      cases log with
      | nil => cases hf
      | cons g log =>
        have hnot : f.isFinal = false := by
          cases hf' : f.isFinal with
          | false => rfl
          | true => cases hfinal hf'
        rw [dropLast_cons_cons, mem_cons] at hf
        rcases hf with rfl | hf
        · exact hnot
        · exact hlast f' hf
    · rw [hsaw]
      cases log with
      | nil => rfl
      | cons g log => rw [getLast?_cons_cons, getLast?_eq_some_getLast (by simp)]; rfl
    · rw [hhashes, map_cons, append_assoc]
      rfl

/-- Ideal signatures: what recovers to the signer is the text of a response it signed. -/
def SignsOnly (sha256 : Bytes → Bytes) (recoverSigner : String → String → Except String String)
    (signer : String) (Signed : SignedResponse → Prop) : Prop :=
  ∀ text signature recovered, recoverSigner text signature = .ok recovered →
    eqIgnoreAsciiCase recovered signer → ∃ r, Signed r ∧ r.text sha256 = text

/-- The outputs are the frames of the signed response, opened in order, and the last frame is the
final one. -/
def Completed (canonicalize : Value → Except String Bytes) (round : Bytes → Option FloatText)
    (seed : OpenerSeed H) (r : SignedResponse) (outs : List Map) : Prop :=
  ∃ (enc : Bytes) (log : List OpenedFrame),
    log.map OpenedFrame.part = r.frames ∧ log.map OpenedFrame.opened = outs ∧
    (∀ i f, log[i]? = some f → Genuine canonicalize round seed.secret seed.model enc i f) ∧
    (∀ f ∈ log.dropLast, f.isFinal = false) ∧
    ∃ f, log.getLast? = some f ∧ f.isFinal = true

/-- The strings hashed while a response is read and those its signer hashed. -/
def hashed (sha256 : Bytes → Bytes) (canonicalize : Value → Except String Bytes)
    (Signed : SignedResponse → Prop) (request : Part) (frames : List Map) : Set Bytes :=
  {x | x ∈ strings sha256 request
      (frames.filterMap (fun frame => partOf canonicalize frame.members)) ∨
    ∃ r, Signed r ∧ x ∈ strings sha256 r.request r.frames}

variable {stream : Bool} {text signer : String} {seed : OpenerSeed H} {request : Part}
  {Signed : SignedResponse → Prop} {recoverSigner : String → String → Except String String}
  {signature : ChatSignature}

theorem signedText_eq_ok (h : o.signedText sha256 stream = .ok text) :
    o.sawFinal = true ∧ (stream = false → o.frameHashes.length = 1) ∧
    text = signatureText stream o.requestHash
      (if stream then sha256 o.frameHashes.flatten else o.frameHashes.flatten) := by
  obtain ⟨_, hsaw, htext⟩ := bind_eq_ok.mp h
  refine ⟨ensure_eq_ok.mp hsaw, ?_⟩
  split at htext
  · next hashes =>
    cases htext
    simp [hashes]
  · cases htext
  · cases htext
    simp

/-- A response that was read to its end under a valid signature is the one that was signed. -/
theorem completed_of_signature (hsig : SignsOnly sha256 recoverSigner signer Signed)
    (hlen : ∀ x, (sha256 x).length = 32)
    (hinj : Set.InjOn sha256 (hashed sha256 canonicalize Signed request frames))
    (hseed : seed.requestHash = request.hash sha256)
    (hopen : (new H seed).openFrames sha256 canonicalize round frames =
      .ok (o, outs)) (htext : o.signedText sha256 stream = .ok text)
    (hverify : verifySignature recoverSigner signature text signer = .ok ()) :
    ∃ r, Signed r ∧ r.stream = stream ∧ r.request = request ∧
      Completed canonicalize round seed r outs := by
  obtain ⟨enc, log, -, hparts, houts, hlog, -, hlast, hsaw, hrequest, hhashes⟩ :=
    openFrames_eq_ok hopen
  obtain ⟨hfinal, hsingle, htext⟩ := signedText_eq_ok htext
  simp only [verifySignature, bind_eq_ok, ensure_eq_ok] at hverify
  obtain ⟨-, hsame, recovered, hrecovered, hsigner⟩ := hverify
  obtain ⟨r, hr, hrtext⟩ := hsig _ _ _ hrecovered hsigner
  have hhashes : o.frameHashes = (log.map OpenedFrame.part).map (Part.hash sha256) := by
    rw [hhashes, map_map]
    rfl
  -- The response as the opener saw it.
  let seen : SignedResponse := ⟨stream, request, log.map OpenedFrame.part, fun hs => by
    have h := hsingle hs
    rwa [hhashes, length_map] at h⟩
  have hseen : r = seen := by
    refine text_inj hlen hinj (fun x hx => .inr ⟨r, hr, hx⟩) (fun x hx => .inl ?_) ?_
    · have hfilter : frames.filterMap (fun frame => partOf canonicalize frame.members) =
          log.map OpenedFrame.part := by
        have h := congrArg (filterMap id) hparts
        simpa [filterMap_map, Function.comp_def] using h
      rw [hfilter]
      exact hx
    · rw [hrtext, hsame, htext, hrequest, hhashes]
      exact congrArg (signatureText stream · _) hseed
  refine ⟨r, hr, ?_⟩
  subst hseen
  refine ⟨rfl, rfl, enc, log, rfl, houts, fun i f hf => ?_, hlast, ?_⟩
  · have hgenuine := hlog i f hf
    rwa [show ((new H seed).context.map Prod.snd).getD 0 + i = i from
      Nat.zero_add i] at hgenuine
  · rw [hfinal] at hsaw
    cases hl : log.getLast? with
    | none =>
      rw [hl] at hsaw
      cases hsaw
    | some f =>
      rw [hl] at hsaw
      exact ⟨f, rfl, hsaw.symm⟩

end AciGateway.ZeroG
