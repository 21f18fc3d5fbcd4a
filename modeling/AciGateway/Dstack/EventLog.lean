import AciGateway.Lib.HashChain
import AciGateway.Lib.JsonDecode
import AciGateway.Lib.Sha2
import Mathlib.Data.List.TakeWhile

/-! The dstack event log: its replay to RTMR3 and the lookup of a runtime event in it. -/
namespace AciGateway.Dstack

open Octets Json HashChain Sha2 Lists List

def dstackRuntimeEventType : UInt32 := 0x08000001

structure DstackEventLog where
  imr : UInt32
  eventType : UInt32
  digest : String
  event : String
  eventPayload : String
  deriving DecidableEq

/-- Why a log is refused. The texts of hex and JSON errors belong to other crates; the value
that failed to decode stands for them. -/
inductive EventLogError where
  | missingEvidence
  | invalidJson (text : String)
  | invalidHex (value : String)
  | notFortyEightBytes
  | notTdx
  | rtmr3Mismatch
  | multipleEvents (name : String)
  | noEvent (name : String)
  | composeHashLength
  | missingAppCompose
  | appComposeMismatch
  deriving DecidableEq

def decodeHex (value : String) : Except EventLogError Bytes :=
  match hexDecode (stripHexMark value) with
  | some bytes => .ok bytes
  | none => .error (.invalidHex value)

/-- `u32::to_ne_bytes` on the little-endian hosts that produce and check TDX quotes. -/
def toNeBytes (n : UInt32) : Bytes :=
  [byte (n.toNat % 256), byte (n.toNat / 256 % 256), byte (n.toNat / 65536 % 256),
    byte (n.toNat / 16777216)]

/-- What a runtime event hashes: its type, name and payload, joined by colons. -/
def runtimePreimage (event : String) (payload : Bytes) : Bytes :=
  toNeBytes dstackRuntimeEventType ++ utf8 ":" ++ utf8 event ++ utf8 ":" ++ payload

section

variable (H : Bytes → Bytes)

def dstackEventDigest (e : DstackEventLog) : Except EventLogError Bytes :=
  if e.eventType ≠ dstackRuntimeEventType then decodeHex e.digest
  else do
    let payload ← decodeHex e.eventPayload
    pure (H (runtimePreimage e.event payload))

/-- A digest shorter than a register is padded with zeros; a longer one is kept. -/
def resize (digest : Bytes) : Bytes := digest ++ List.replicate (48 - digest.length) 0

def zeroRegister : Bytes := List.replicate 48 0

def replayDstackRtmr (events : List DstackEventLog) (imr : UInt32) :
    Except EventLogError Bytes := do
  let mr ← (events.filter (fun e => e.imr = imr)).foldlM (fun mr e => do
    let digest ← dstackEventDigest H e
    pure (H (mr ++ resize digest))) zeroRegister
  if mr.length = 48 then pure mr else throw .notFortyEightBytes

/-- Accept the log in the evidence if it replays to the quote's RTMR3. -/
def verifyDstackEventLog (fromStr : String → Option (List DstackEventLog)) (evidence : Value)
    (quoteRtmr3 : Option Bytes) : Except EventLogError (List DstackEventLog) := do
  let some eventLog := (evidence.get? "event_log").bind Value.asStr?
    | throw .missingEvidence
  let some events := fromStr eventLog
    | throw (.invalidJson eventLog)
  let rtmr3 ← replayDstackRtmr H events 3
  let some quoteRtmr3 := quoteRtmr3
    | throw .notTdx
  if rtmr3 ≠ quoteRtmr3 then
    throw .rtmr3Mismatch
  pure events

end

def isRuntimeEvent (name : String) (e : DstackEventLog) : Bool :=
  e.imr = 3 ∧ e.eventType = dstackRuntimeEventType ∧ e.event = name

/-- The only runtime event with a name before the first `system-ready`. -/
def dstackRtmr3Event (events : List DstackEventLog) (name : String) :
    Except EventLogError (Option DstackEventLog) :=
  match (events.takeWhile (fun e => !isRuntimeEvent "system-ready" e)).filter
      (isRuntimeEvent name) with
  | [] => .ok none
  | [e] => .ok (some e)
  | _ => .error (.multipleEvents name)

/-- The decoded payload of a runtime event the log must carry. -/
def measuredPayload (events : List DstackEventLog) (name : String) :
    Except EventLogError Bytes := do
  let some e ← dstackRtmr3Event events name
    | throw (.noEvent name)
  decodeHex e.eventPayload

def dstackAppId (events : List DstackEventLog) : Except EventLogError Bytes :=
  measuredPayload events "app-id"

def verifyDstackAppCompose (sha256 : Bytes → Bytes) (evidence : Value) (measured : Bytes) :
    Except EventLogError Unit := do
  let some appCompose := (evidence.get? "app_compose").bind Value.asStr?
    | throw .missingAppCompose
  if sha256 (utf8 appCompose) ≠ measured then
    throw .appComposeMismatch

def verifyDstackComposeMeasurement (sha256 : Bytes → Bytes) (evidence : Value)
    (events : List DstackEventLog) : Except EventLogError String := do
  let measured ← measuredPayload events "compose-hash"
  if measured.length ≠ 32 then
    throw .composeHashLength
  verifyDstackAppCompose sha256 evidence measured
  pure (hexEncode measured)

section Replay

variable {H : Bytes → Bytes} {e : DstackEventLog} {events : List DstackEventLog}
  {name : String} {payload : Bytes} {R : Bytes} {ds : List Bytes}

/-- What an entry adds to the register. -/
def extendedDigest (H : Bytes → Bytes) (e : DstackEventLog) : Except EventLogError Bytes :=
  (dstackEventDigest H e).map resize

theorem foldlM_digests (es : List DstackEventLog) (r : Bytes) :
    es.foldlM (fun mr e => do
      let digest ← dstackEventDigest H e
      pure (H (mr ++ resize digest))) r = (es.mapM (extendedDigest H)).map (chain H r) := by
  induction es generalizing r with
  | nil => rfl
  | cons e es ih =>
    rw [mapM_cons, foldlM_cons]
    cases h : dstackEventDigest H e with
    | error x => simp [extendedDigest, h, bind, Except.bind, Except.map]
    | ok d =>
      simp only [extendedDigest, h, bind, Except.bind, Except.map, pure, Except.pure] at ih ⊢
      rw [ih]
      split <;> simp [chain]

/-- A log replays to `R` when the digests of its entries chain to `R`. -/
theorem replay_ok_iff : replayDstackRtmr H events 3 = .ok R ↔
    R.length = 48 ∧ ∃ ds, Forall₂ (fun e d => extendedDigest H e = .ok d)
      (events.filter (fun e => e.imr = 3)) ds ∧ chain H zeroRegister ds = R := by
  unfold replayDstackRtmr
  rw [foldlM_digests]
  simp only [← mapM_ok_iff]
  cases hs : (events.filter (fun e => e.imr = 3)).mapM (extendedDigest H) with
  | error x => simp [bind, Except.bind, Except.map]
  | ok ds =>
    simp only [bind, Except.bind, Except.map]
    split <;> simp_all [pure, Except.pure, throw, throwThe, MonadExceptOf.throw] <;> grind

theorem verify_ok_iff {fromStr : String → Option (List DstackEventLog)} {evidence : Value} :
    verifyDstackEventLog H fromStr evidence (some R) = .ok events ↔
      (∃ text, (evidence.get? "event_log").bind Value.asStr? = some text ∧
        fromStr text = some events) ∧ replayDstackRtmr H events 3 = .ok R := by
  unfold verifyDstackEventLog
  cases ht : (evidence.get? "event_log").bind Value.asStr? with
  | none => simp [throw, throwThe, MonadExceptOf.throw]
  | some text =>
    cases hp : fromStr text with
    | none => simp [hp, throw, throwThe, MonadExceptOf.throw]
    | some es =>
      cases hr : replayDstackRtmr H es 3 with
      | error x =>
        simp_all [bind, Except.bind]
        grind
      | ok mr =>
        simp [hp, hr, bind, Except.bind, pure, Except.pure, throw, throwThe, MonadExceptOf.throw]
        split <;> grind

theorem dstackRtmr3Event_some (h : dstackRtmr3Event events name = .ok (some e)) :
    e ∈ events ∧ isRuntimeEvent name e ∧ name ≠ "system-ready" := by
  unfold dstackRtmr3Event at h
  split at h
  · cases h
  · next e' hf =>
    cases h
    have he : e ∈ (events.takeWhile (fun e => !isRuntimeEvent "system-ready" e)).filter
        (isRuntimeEvent name) := by simp [hf]
    obtain ⟨hm, hn⟩ := mem_filter.mp he
    refine ⟨(takeWhile_sublist _).subset hm, hn, ?_⟩
    rintro rfl
    have := mem_takeWhile_imp hm
    simp [hn] at this
  · cases h

theorem measuredPayload_ok : measuredPayload events name = .ok payload ↔
    ∃ e, dstackRtmr3Event events name = .ok (some e) ∧
      decodeHex e.eventPayload = .ok payload := by
  unfold measuredPayload
  cases h : dstackRtmr3Event events name with
  | error x => simp [bind, Except.bind]
  | ok o => cases o <;> simp [bind, Except.bind, throw, throwThe, MonadExceptOf.throw]

/-- The strings SHA-384 is applied to when the log is replayed. -/
def hashInputs (H : Bytes → Bytes) (events : List DstackEventLog) : List Bytes :=
  let es := events.filter (fun e => e.imr = 3)
  es.filterMap (fun e =>
      if e.eventType = dstackRuntimeEventType then
        (decodeHex e.eventPayload).toOption.map (runtimePreimage e.event)
      else none) ++
    inputs H zeroRegister ((es.mapM (extendedDigest H)).toOption.getD [])

theorem resize_of_le {d : Bytes} (h : 48 ≤ d.length) : resize d = d := by
  simp [resize, Nat.sub_eq_zero_of_le h]

theorem le_length_resize (d : Bytes) : 48 ≤ (resize d).length := by
  simp [resize]
  omega

/-- A runtime entry adds the hash of its own fields. -/
theorem extendedDigest_runtime (hlen : ∀ x, (H x).length = 48) (he : isRuntimeEvent name e)
    (hp : decodeHex e.eventPayload = .ok payload) :
    extendedDigest H e = .ok (H (runtimePreimage name payload)) := by
  simp only [isRuntimeEvent, decide_eq_true_eq] at he
  obtain ⟨-, ht, rfl⟩ := he
  simp [extendedDigest, dstackEventDigest, ht, hp, bind, Except.bind, pure, Except.pure,
    Except.map, resize_of_le, hlen]

/-- An entry of another type that adds the digest `d`, whatever it measured. -/
def rawEvent (d : Bytes) : DstackEventLog where
  imr := 3
  eventType := 0
  digest := hexEncode d
  event := ""
  eventPayload := ""

/-- A runtime entry with a chosen name and payload. -/
def runtimeEvent (name : String) (payload : Bytes) : DstackEventLog where
  imr := 3
  eventType := dstackRuntimeEventType
  digest := ""
  event := name
  eventPayload := hexEncode payload

theorem extendedDigest_rawEvent {d : Bytes} (h : 48 ≤ d.length) :
    extendedDigest H (rawEvent d) = .ok d := by
  simp [extendedDigest, dstackEventDigest, rawEvent, dstackRuntimeEventType, decodeHex,
    Except.map, resize_of_le h]

theorem extendedDigest_runtimeEvent (hlen : ∀ x, (H x).length = 48) :
    extendedDigest H (runtimeEvent name payload) = .ok (H (runtimePreimage name payload)) :=
  extendedDigest_runtime hlen (by simp [isRuntimeEvent, runtimeEvent])
    (by simp [decodeHex, runtimeEvent])

/-- A log with a single runtime entry reports that entry. -/
theorem dstackRtmr3Event_relabelled (hn : name ≠ "system-ready") (dl dr : List Bytes) :
    dstackRtmr3Event (dl.map rawEvent ++ runtimeEvent name payload :: dr.map rawEvent) name =
      .ok (some (runtimeEvent name payload)) := by
  have hraw : ∀ d n, isRuntimeEvent n (rawEvent d) = false := by
    simp [isRuntimeEvent, rawEvent, dstackRuntimeEventType]
  have hrun : ∀ n, isRuntimeEvent n (runtimeEvent name payload) = decide (name = n) := by
    simp [isRuntimeEvent, runtimeEvent]
  have htake : (dl.map rawEvent ++ runtimeEvent name payload :: dr.map rawEvent).takeWhile
      (fun e => !isRuntimeEvent "system-ready" e) =
        dl.map rawEvent ++ runtimeEvent name payload :: dr.map rawEvent := by
    rw [takeWhile_eq_self_iff]
    intro e he
    simp only [mem_append, mem_cons, mem_map] at he
    rcases he with ⟨d, -, rfl⟩ | rfl | ⟨d, -, rfl⟩ <;> simp [hraw, hrun, hn]
  have hfilter : (dl.map rawEvent ++ runtimeEvent name payload :: dr.map rawEvent).filter
      (isRuntimeEvent name) = [runtimeEvent name payload] := by
    simp [filter_map, Function.comp_def, hraw, hrun]
  simp [dstackRtmr3Event, htake, hfilter]

end Replay

section Binding

variable {H : Bytes → Bytes} {fromStr : String → Option (List DstackEventLog)} {S : Set Bytes}
  {e : DstackEventLog} {events : List DstackEventLog} {evidence : Value} {name : String}
  {payload other R x : Bytes} {ds : List Bytes}

theorem preimage_mem_hashInputs (he : e ∈ events) (hr : isRuntimeEvent name e)
    (hp : decodeHex e.eventPayload = .ok payload) :
    runtimePreimage name payload ∈ hashInputs H events := by
  simp only [isRuntimeEvent, decide_eq_true_eq] at hr
  obtain ⟨hi, ht, rfl⟩ := hr
  refine mem_append_left _ (mem_filterMap.mpr ⟨e, ?_, ?_⟩)
  · simp [he, hi]
  · simp [ht, hp, Except.toOption]

theorem inputs_mem_hashInputs (hd : Forall₂ (fun e d => extendedDigest H e = .ok d)
      (events.filter (fun e => e.imr = 3)) ds) (hx : x ∈ inputs H zeroRegister ds) :
    x ∈ hashInputs H events := by
  apply mem_append_right
  simpa [mapM_ok_iff.mpr hd, Except.toOption] using hx

theorem length_digest (hd : Forall₂ (fun e d => extendedDigest H e = .ok d)
      (events.filter (fun e => e.imr = 3)) ds) {d : Bytes} (h : d ∈ ds) : 48 ≤ d.length := by
  obtain ⟨e, -, he⟩ := exists_left_of_mem hd h
  unfold extendedDigest at he
  cases hx : dstackEventDigest H e with
  | error x => simp [hx, Except.map] at he
  | ok x =>
    simp only [hx, Except.map, Except.ok.injEq] at he
    exact he ▸ le_length_resize x

/-- An entry under a given name can stand for any register update that hashes to its digest. -/
theorem relabelled_digests (hlen : ∀ x, (H x).length = 48) {dl dr : List Bytes}
    (hl : ∀ d ∈ dl ++ H (runtimePreimage name payload) :: dr, 48 ≤ d.length) :
    Forall₂ (fun e d => extendedDigest H e = .ok d)
      ((dl.map rawEvent ++ runtimeEvent name payload :: dr.map rawEvent).filter
        (fun e => e.imr = 3)) (dl ++ H (runtimePreimage name payload) :: dr) := by
  have hraw : ∀ ds : List Bytes, (∀ d ∈ ds, 48 ≤ d.length) →
      Forall₂ (fun e d => extendedDigest H e = .ok d) (ds.map rawEvent) ds := by
    intro ds hds
    rw [forall₂_map_left_iff]
    exact forall₂_same.mpr (fun d hd => extendedDigest_rawEvent (hds d hd))
  have hall : (dl.map rawEvent ++ runtimeEvent name payload :: dr.map rawEvent).filter
      (fun e => decide (e.imr = 3)) =
        dl.map rawEvent ++ runtimeEvent name payload :: dr.map rawEvent := by
    rw [filter_eq_self]
    intro e he
    simp only [mem_append, mem_cons, mem_map] at he
    rcases he with ⟨d, -, rfl⟩ | rfl | ⟨d, -, rfl⟩ <;> rfl
  rw [hall]
  refine rel_append (hraw dl ?_) (.cons (extendedDigest_runtimeEvent hlen) (hraw dr ?_))
  · intro d hd; exact hl d (by simp [hd])
  · intro d hd; exact hl d (by simp [hd])

theorem hashInputs_relabelled (hlen : ∀ x, (H x).length = 48) {dl dr : List Bytes}
    (hl : ∀ d ∈ dl ++ H (runtimePreimage name payload) :: dr, 48 ≤ d.length)
    (hx : x ∈ hashInputs H (dl.map rawEvent ++ runtimeEvent name payload :: dr.map rawEvent)) :
    x = runtimePreimage name payload ∨
      x ∈ inputs H zeroRegister (dl ++ H (runtimePreimage name payload) :: dr) := by
  rcases mem_append.mp hx with hx | hx
  · left
    obtain ⟨a, ha, hax⟩ := mem_filterMap.mp hx
    obtain ⟨ha, -⟩ := mem_filter.mp ha
    simp only [mem_append, mem_cons, mem_map] at ha
    rcases ha with ⟨d, -, rfl⟩ | rfl | ⟨d, -, rfl⟩
    · simp [rawEvent, dstackRuntimeEventType] at hax
    · simpa [runtimeEvent, decodeHex, Except.toOption, eq_comm] using hax
    · simp [rawEvent, dstackRuntimeEventType] at hax
  · right
    rw [mapM_ok_iff.mpr (relabelled_digests hlen hl)] at hx
    exact hx

/-- Two logs with the same RTMR3 agree on the measurement `name` exactly when no entry of
the first, wherever it stands and whatever its label, adds a digest that is also the digest
of a runtime event `name` with another payload. -/
theorem measurement_bound_iff (hI : Ideal H S 48 zeroRegister)
    (hprint : ∀ events, ∃ text, fromStr text = some events)
    (hv : verifyDstackEventLog H fromStr evidence (some R) = .ok events)
    (hS : ∀ x ∈ hashInputs H events, x ∈ S) (hm : measuredPayload events name = .ok payload) :
    (∀ evidence' events' payload',
        verifyDstackEventLog H fromStr evidence' (some R) = .ok events' →
        (∀ x ∈ hashInputs H events', x ∈ S) →
        measuredPayload events' name = .ok payload' → payload' = payload) ↔
      ∀ a ∈ events, a.imr = 3 → ∀ other, runtimePreimage name other ∈ S →
        extendedDigest H a = .ok (H (runtimePreimage name other)) → other = payload := by
  obtain ⟨-, hreplay⟩ := verify_ok_iff.mp hv
  obtain ⟨hR, ds, hds, hchain⟩ := replay_ok_iff.mp hreplay
  obtain ⟨e, he, -⟩ := measuredPayload_ok.mp hm
  constructor
  · intro h a ha himr other hother hdigest
    -- relabel: the entry `a` becomes a runtime event, every other one keeps only its digest
    obtain ⟨d, hd, hda⟩ := exists_right_of_mem hds (mem_filter.mpr ⟨ha, by simp [himr]⟩)
    rw [hdigest] at hda
    cases hda
    obtain ⟨dl, dr, rfl⟩ := append_of_mem hd
    have hl : ∀ d ∈ dl ++ H (runtimePreimage name other) :: dr, 48 ≤ d.length :=
      fun d hd => length_digest hds hd
    obtain ⟨text, htext⟩ :=
      hprint (dl.map rawEvent ++ runtimeEvent name other :: dr.map rawEvent)
    refine h (.obj [("event_log", .str text)]) _ other
      (verify_ok_iff.mpr ⟨⟨text, rfl, htext⟩, ?_⟩) ?_
      (measuredPayload_ok.mpr ⟨runtimeEvent name other, ?_, ?_⟩)
    · exact replay_ok_iff.mpr ⟨hR, _, relabelled_digests hI.length_out hl, hchain⟩
    · intro x hx
      rcases hashInputs_relabelled hI.length_out hl hx with rfl | hx
      · exact hother
      · exact hS x (inputs_mem_hashInputs hds hx)
    · exact dstackRtmr3Event_relabelled (dstackRtmr3Event_some he).2.2 dl dr
    · simp [decodeHex, runtimeEvent]
  · intro h evidence' events' payload' hv' hS' hm'
    obtain ⟨e', he', hp'⟩ := measuredPayload_ok.mp hm'
    obtain ⟨-, hreplay'⟩ := verify_ok_iff.mp hv'
    obtain ⟨-, ds', hds', hchain'⟩ := replay_ok_iff.mp hreplay'
    have hsame : ds' = ds := chain_injective hI
      (fun x hx => hS' x (inputs_mem_hashInputs hds' hx))
      (fun x hx => hS x (inputs_mem_hashInputs hds hx)) (hchain'.trans hchain.symm)
    obtain ⟨hm', hr', -⟩ := dstackRtmr3Event_some he'
    have hdigest := extendedDigest_runtime hI.length_out hr' hp'
    have himr' : e'.imr = 3 := by
      simp only [isRuntimeEvent, decide_eq_true_eq] at hr'
      exact hr'.1
    obtain ⟨d, hd, hde⟩ := exists_right_of_mem hds' (mem_filter.mpr ⟨hm', by simp [himr']⟩)
    rw [hdigest] at hde
    cases hde
    obtain ⟨a, ha, had⟩ := exists_left_of_mem hds (hsame ▸ hd)
    obtain ⟨ha, himr⟩ := mem_filter.mp ha
    exact h a ha (by simpa using himr) payload'
      (hS' _ (preimage_mem_hashInputs hm' hr' hp')) had

end Binding

/-! The JSON reader of the event log. -/

def DstackEventLog.toValue (e : DstackEventLog) : Value :=
  .obj [("imr", encodeU32 e.imr), ("event_type", encodeU32 e.eventType),
    ("digest", .str e.digest), ("event", .str e.event), ("event_payload", .str e.eventPayload)]

def DstackEventLog.ofMembers (ms : Members) : Option DstackEventLog := do
  let imr ← required "imr" decodeU32 ms
  let eventType ← required "event_type" decodeU32 ms
  let digest ← required "digest" decodeString ms
  let event ← required "event" decodeString ms
  let eventPayload ← required "event_payload" decodeString ms
  some { imr, eventType, digest, event, eventPayload }

def fromStr (text : String) : Option (List DstackEventLog) :=
  (Json.parse (fun _ => none) 127 (utf8 text)).bind
    (decodeList (decodeObj DstackEventLog.ofMembers))

open DstackEventLog

theorem ofMembers_toValue (e : DstackEventLog) : decodeObj ofMembers e.toValue = some e := by
  simp [toValue, ofMembers, required, member?]

theorem depth_toValue (e : DstackEventLog) : depth e.toValue = 1 := by
  simp [toValue, depth, depthMembers, encodeU32]

theorem integral_toValue (e : DstackEventLog) : integral e.toValue := by
  simp [toValue, integral, integralMembers, encodeU32]

/-- Every list of events is the reading of some text. -/
theorem exists_text (events : List DstackEventLog) : ∃ text, fromStr text = some events := by
  obtain ⟨text, htext⟩ := isText_print (.arr (events.map toValue))
  have hd : depth (.arr (events.map toValue)) ≤ 127 := by
    have : depthItems (events.map toValue) ≤ 1 := by
      simp [depthItems_le_iff, depth_toValue]
    simp only [depth]
    omega
  have hi : integral (.arr (events.map toValue)) := by
    simp [integral, integralItems_iff, integral_toValue]
  refine ⟨text, ?_⟩
  rw [fromStr, htext, parse_print _ hd hi]
  exact decodeList_map ofMembers_toValue events

/-- A log replays to the chain of its digests. -/
theorem verify_relabelled (name : String) (payload : Bytes) (dl dr : List Bytes)
    (hl : ∀ d ∈ dl ++ sha384 (runtimePreimage name payload) :: dr, 48 ≤ d.length) :
    ∃ evidence, verifyDstackEventLog sha384 fromStr evidence
      (some (chain sha384 zeroRegister (dl ++ sha384 (runtimePreimage name payload) :: dr))) =
        .ok (dl.map rawEvent ++ runtimeEvent name payload :: dr.map rawEvent) := by
  obtain ⟨text, htext⟩ :=
    exists_text (dl.map rawEvent ++ runtimeEvent name payload :: dr.map rawEvent)
  refine ⟨.obj [("event_log", .str text)], verify_ok_iff.mpr ⟨⟨text, rfl, htext⟩, ?_⟩⟩
  exact replay_ok_iff.mpr ⟨length_chain length_sha384 rfl, _, relabelled_digests length_sha384 hl, rfl⟩

/-- Two 32-byte compose hashes. -/
def composeHashP : Bytes := List.replicate 32 1
def composeHashQ : Bytes := List.replicate 32 2

def composeDigest (payload : Bytes) : Bytes := sha384 (runtimePreimage "compose-hash" payload)

/-- Two logs with one RTMR3 report different compose hashes. Each keeps one of the two
measured compose hashes as a runtime event and states the digest of the other under a
different event type. -/
theorem composeHash_relabelled : ∃ evidence evidence' events events' R,
    verifyDstackEventLog sha384 fromStr evidence (some R) = .ok events ∧
    verifyDstackEventLog sha384 fromStr evidence' (some R) = .ok events' ∧
    measuredPayload events "compose-hash" = .ok composeHashP ∧
    measuredPayload events' "compose-hash" = .ok composeHashQ ∧
    composeHashP ≠ composeHashQ := by
  obtain ⟨evidence, hv⟩ := verify_relabelled "compose-hash" composeHashP
    [composeDigest composeHashQ] [] (by simp [composeDigest])
  obtain ⟨evidence', hv'⟩ := verify_relabelled "compose-hash" composeHashQ
    [] [composeDigest composeHashP] (by simp [composeDigest])
  refine ⟨evidence, evidence', _, _, _, hv, hv', ?_, ?_, by decide⟩
  · exact measuredPayload_ok.mpr ⟨_, dstackRtmr3Event_relabelled (by decide) _ _,
      by simp [decodeHex, runtimeEvent]⟩
  · exact measuredPayload_ok.mpr ⟨_, dstackRtmr3Event_relabelled (by decide) _ _,
      by simp [decodeHex, runtimeEvent]⟩

/-- The two strings hashed for a log that holds one compose hash. -/
def composeInputs : Set Bytes :=
  {runtimePreimage "compose-hash" composeHashP, zeroRegister ++ composeDigest composeHashP}

theorem ideal_composeInputs : Ideal sha384 composeInputs 48 zeroRegister where
  length_out := length_sha384
  length_init := rfl
  injOn := by
    have hne : sha384 (runtimePreimage "compose-hash" composeHashP) ≠
        sha384 (zeroRegister ++ composeDigest composeHashP) := by decide +kernel
    rintro x (rfl | rfl) y (rfl | rfl) h
    · rfl
    · exact absurd h hne
    · exact absurd h.symm hne
    · rfl
  fresh := by
    rintro x (rfl | rfl)
    · decide +kernel
    · decide +kernel

/-- A log whose only entry is its compose hash binds that hash. -/
theorem composeHash_bound : ∃ evidence,
    verifyDstackEventLog sha384 fromStr evidence
        (some (chain sha384 zeroRegister [composeDigest composeHashP])) =
      .ok [runtimeEvent "compose-hash" composeHashP] ∧
    ∀ evidence' events' payload',
      verifyDstackEventLog sha384 fromStr evidence'
        (some (chain sha384 zeroRegister [composeDigest composeHashP])) = .ok events' →
      (∀ x ∈ hashInputs sha384 events', x ∈ composeInputs) →
      measuredPayload events' "compose-hash" = .ok payload' → payload' = composeHashP := by
  obtain ⟨evidence, hv⟩ := verify_relabelled "compose-hash" composeHashP
    [] [] (by simp)
  refine ⟨evidence, hv, (measurement_bound_iff ideal_composeInputs exists_text hv ?_ ?_).mpr ?_⟩
  · intro x hx
    rcases hashInputs_relabelled length_sha384 (by simp) hx with rfl | hx
    · exact Or.inl rfl
    · right
      simpa [inputs, composeDigest] using hx
  · exact measuredPayload_ok.mpr ⟨_, dstackRtmr3Event_relabelled (by decide) [] [],
      by simp [decodeHex, runtimeEvent]⟩
  · intro a _ _ other hother _
    rcases hother with h | h
    · simpa [runtimePreimage] using h
    · have hhead : some (byte 1) = some 0 := congrArg head? h
      exact absurd hhead (by decide)

end AciGateway.Dstack
