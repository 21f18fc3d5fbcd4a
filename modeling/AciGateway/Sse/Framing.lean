import AciGateway.Lib.EventStream
import AciGateway.Lib.JsonDocument

/-! The observer of an event stream that the receipt finalizer and the meter share: which
payloads it reads, and how it compares with the standard's parser. -/
namespace AciGateway.Sse

open Octets Json EventStream Scanner List

/-- The streaming protocol an endpoint speaks. -/
inductive SseProtocol where
  | openaiChat
  | openaiResponses
  | anthropicMessages
  deriving DecidableEq

def sseProtocol (endpointPath : String) : SseProtocol :=
  if endpointPath = "/v1/messages" then .anthropicMessages
  else if endpointPath = "/v1/responses" then .openaiResponses
  else .openaiChat

def maxObservedEventBytes : Nat := 16 * 1024 * 1024

/-! What one payload says. -/

def asU64? : Value → Option U64
  | .num (.posInt n) => some n
  | _ => none

def isNull : Value → Bool
  | .null => true
  | _ => false

/-- The member under a name, unless it is null. -/
def present (v : Value) (name : String) : Bool := (v.get? name).any fun e => !isNull e

def sequenceNumber (parsed : Value) : Option U64 := (parsed.get? "sequence_number").bind asU64?

def eventType (parsed : Value) : Option String := (parsed.get? "type").bind Value.asStr?

/-- The protocol's framing terminal. -/
def isTerminal (protocol : SseProtocol) (parsed : Value) : Bool :=
  match protocol with
  | .openaiChat => false
  | .anthropicMessages => eventType parsed = some "message_stop"
  | .openaiResponses =>
    eventType parsed = some "response.completed" ||
      eventType parsed = some "response.incomplete" || eventType parsed = some "response.failed"

def isErrorReason (r : String) : Bool := r = "error" || "_error".toList.isSuffixOf r.toList

def choicesError (parsed : Value) : Bool :=
  match parsed.get? "choices" with
  | some (.arr choices) =>
    choices.any fun choice => ((choice.get? "finish_reason").bind Value.asStr?).any isErrorReason
  | _ => false

def stopReasonError (parsed : Value) : Bool :=
  (((parsed.get? "delta").bind (·.get? "stop_reason")).bind Value.asStr?).any isErrorReason

/-- An in-band error, however the protocol frames it. -/
def isInbandError (parsed : Value) : Bool :=
  eventType parsed = some "error" || present parsed "error" ||
    eventType parsed = some "response.failed" ||
    (parsed.get? "response").any (present · "error") ||
    choicesError parsed || stopReasonError parsed

/-! The observer. -/

structure SseFramingObserver where
  /-- `none` when these bytes are not the client-facing stream. -/
  protocol : Option SseProtocol
  lineBuffer : Bytes := []
  eventData : Bytes := []
  pendingCr : Bool := false
  chatId : Option String := none
  modelId : Option String := none
  sawTerminal : Bool := false
  sawError : Bool := false
  midEvent : Bool := false
  lastSequenceNumber : Option U64 := none
  observationFailed : Bool := false
  /-- Ghost: the payloads dispatched so far. -/
  dispatched : List Bytes := []
  deriving DecidableEq

namespace SseFramingObserver

def atEventBoundary (o : SseFramingObserver) : Bool := o.lineBuffer = [] && !o.midEvent

def observationUsable (o : SseFramingObserver) : Bool := !o.observationFailed

/-- Nothing is left to learn. -/
def done (o : SseFramingObserver) : Bool :=
  o.observationFailed ||
    (o.chatId.isSome && o.modelId.isSome &&
      (o.protocol.isNone || o.sawTerminal || o.sawError))

/-- The larger of the number seen so far and that of an event. -/
def latest (last next : Option U64) : Option U64 :=
  match last, next with
  | some m, some n => some (max m n)
  | last, none => last
  | none, some n => some n

def observeTerminal (o : SseFramingObserver) (parsed : Value) : SseFramingObserver :=
  let o := { o with lastSequenceNumber := latest o.lastSequenceNumber (sequenceNumber parsed) }
  match o.protocol with
  | none => o
  | some protocol =>
    { o with sawTerminal := o.sawTerminal || isTerminal protocol parsed
             sawError := o.sawError || isInbandError parsed }

section Decode

-- How the JSON library reads a payload.
variable (decode : Bytes → Option Value)

/-- The payload of an event. -/
def observePayload (o : SseFramingObserver) (data : Bytes) : SseFramingObserver :=
  let o := { o with dispatched := o.dispatched ++ [data] }
  if data = utf8 "[DONE]" then
    { o with sawTerminal := o.sawTerminal || o.protocol = some .openaiChat }
  else
    match decode data with
    | none => o
    | some parsed =>
      let o := o.observeTerminal parsed
      { o with chatId := o.chatId.or ((parsed.get? "id").bind Value.asStr?)
               modelId := o.modelId.or ((parsed.get? "model").bind Value.asStr?) }

def dispatchEvent (o : SseFramingObserver) : SseFramingObserver :=
  if o.eventData = [] then o
  else
    let data := if o.eventData.getLast? = some 10 then o.eventData.dropLast else o.eventData
    { o with eventData := [] }.observePayload decode data

/-- The value of a `data:` line. -/
def dataValue (line : Bytes) : Option Bytes :=
  if (utf8 "data:").isPrefixOf line then
    match line.drop 5 with
    | 32 :: value => some value
    | value => some value
  else none

def observeLine (o : SseFramingObserver) (line : Bytes) : SseFramingObserver :=
  if line = [] then { o.dispatchEvent decode with midEvent := false }
  else if line.head? = some 58 then o
  else
    let o := { o with midEvent := true }
    match dataValue line with
    | none => o
    | some value => { o with eventData := o.eventData ++ value ++ [10] }

/-- Stop buffering. -/
def giveUp (o : SseFramingObserver) : SseFramingObserver :=
  { o with observationFailed := true, lineBuffer := [], eventData := [] }

def overCap (o : SseFramingObserver) : Bool :=
  maxObservedEventBytes < o.lineBuffer.length + o.eventData.length

/-- One byte of the loop. -/
def step (o : SseFramingObserver) (c : UInt8) : SseFramingObserver :=
  if o.pendingCr ∧ c = 10 then { o with pendingCr := false }
  else if c = 13 ∨ c = 10 then
    let o := { o with pendingCr := c = 13, lineBuffer := [] }.observeLine decode o.lineBuffer
    if o.done then o else if o.overCap then o.giveUp else o
  else
    let o := { o with pendingCr := false, lineBuffer := o.lineBuffer ++ [c] }
    if o.overCap then o.giveUp else o

/-- A chunk. The loop ends early exactly when nothing is left to learn. -/
def observe (o : SseFramingObserver) (chunk : Bytes) : SseFramingObserver :=
  chunk.foldl (fun o c => if o.done then o else o.step decode c) o

end Decode

/-- Observe the client-facing stream of a protocol, or identifiers only. -/
def withProtocol (protocol : Option SseProtocol) : SseFramingObserver := { protocol }

def new (endpointPath : String) : SseFramingObserver :=
  withProtocol (some (sseProtocol endpointPath))

/-! Chunks. -/

section Chunks

variable {decode : Bytes → Option Value} {o : SseFramingObserver} {s : Bytes}

@[simp] theorem observe_nil (o : SseFramingObserver) : o.observe decode [] = o := rfl

theorem observe_append (o : SseFramingObserver) (a b : Bytes) :
    o.observe decode (a ++ b) = (o.observe decode a).observe decode b := by
  simp [observe]

theorem observe_concat (o : SseFramingObserver) (a : Bytes) (c : UInt8) :
    o.observe decode (a ++ [c]) =
      if (o.observe decode a).done then o.observe decode a
      else (o.observe decode a).step decode c := by
  rw [observe_append]
  rfl

/-- Chunk boundaries leave no trace. -/
theorem foldl_observe (o : SseFramingObserver) (chunks : List Bytes) :
    chunks.foldl (observe decode) o = o.observe decode chunks.flatten := by
  induction chunks generalizing o with
  | nil => rfl
  | cons chunk chunks ih => rw [foldl_cons, ih, flatten_cons, observe_append]

theorem observe_of_done (h : o.done) (s : Bytes) : o.observe decode s = o := by
  induction s with
  | nil => rfl
  | cons c s ih =>
    change (if o.done then o else o.step decode c).observe decode s = o
    rw [if_pos h, ih]

theorem not_done_of_prefix {q : Bytes} (h : ¬ (o.observe decode s).done) (hq : q <+: s) :
    ¬ (o.observe decode q).done := by
  obtain ⟨r, rfl⟩ := hq
  intro hdone
  rw [observe_append, observe_of_done hdone] at h
  exact h hdone

end Chunks

/-! The lines it reads. -/

section Lines

variable (decode : Bytes → Option Value) {o : SseFramingObserver} {l : Bytes} {c : UInt8}

/-- The buffers of the line in progress play no part in what an event does. -/
theorem observePayload_buffers (o : SseFramingObserver) (data b : Bytes) (p : Bool) :
    { o with lineBuffer := b, pendingCr := p }.observePayload decode data =
      { o.observePayload decode data with lineBuffer := b, pendingCr := p } := by
  unfold observePayload observeTerminal
  split
  · rfl
  · cases decode data with
    | none => rfl
    | some parsed => cases o with | mk protocol => cases protocol <;> rfl

theorem dispatchEvent_buffers (o : SseFramingObserver) (b : Bytes) (p : Bool) :
    { o with lineBuffer := b, pendingCr := p }.dispatchEvent decode =
      { o.dispatchEvent decode with lineBuffer := b, pendingCr := p } := by
  unfold dispatchEvent
  split
  · rfl
  · exact observePayload_buffers decode { o with eventData := [] } _ b p

theorem observeLine_buffers (o : SseFramingObserver) (l b : Bytes) (p : Bool) :
    { o with lineBuffer := b, pendingCr := p }.observeLine decode l =
      { o.observeLine decode l with lineBuffer := b, pendingCr := p } := by
  unfold observeLine
  split
  · rw [dispatchEvent_buffers]
  · split
    · rfl
    · cases dataValue l <;> rfl

/-- The state after the lines of `s`, with what is read of the next one. -/
def tracked (o : SseFramingObserver) (s : Bytes) : SseFramingObserver :=
  { (EventStream.Scanner.scan {} s).2.foldl (observeLine decode) o with
    lineBuffer := (EventStream.Scanner.scan {} s).1.line
    pendingCr := (EventStream.Scanner.scan {} s).1.afterReturn }

theorem not_failed_of_not_done (h : ¬ o.done) : o.observationFailed = false := by
  unfold done at h
  cases hf : o.observationFailed
  · rfl
  · simp [hf] at h

/-! What a byte does to an observer that has not given up. -/

theorem step_skip (h : o.pendingCr ∧ c = 10) :
    o.step decode c = { o with pendingCr := false } := if_pos h

theorem step_newline (hskip : ¬ (o.pendingCr ∧ c = 10)) (hend : c = 13 ∨ c = 10)
    (hok : (o.step decode c).observationFailed = false) :
    o.step decode c =
      { o with pendingCr := c = 13, lineBuffer := [] }.observeLine decode o.lineBuffer := by
  unfold step at hok ⊢
  rw [if_neg hskip, if_pos hend] at hok ⊢
  dsimp only at hok ⊢
  split
  · rfl
  · next hdone =>
    rw [if_neg hdone] at hok
    split
    · next hcap => simp [if_pos hcap, giveUp] at hok
    · rfl

theorem step_byte (hend : ¬ (c = 13 ∨ c = 10)) (hok : (o.step decode c).observationFailed = false) :
    o.step decode c = { o with pendingCr := false, lineBuffer := o.lineBuffer ++ [c] } := by
  have hskip : ¬ (o.pendingCr ∧ c = 10) := fun h => hend (.inr h.2)
  unfold step at hok ⊢
  rw [if_neg hskip, if_neg hend] at hok ⊢
  dsimp only at hok ⊢
  split
  · next hcap => simp [if_pos hcap, giveUp] at hok
  · rfl

/-- As long as nothing stops it, the observer reads line by line. -/
theorem observe_eq_tracked {protocol : Option SseProtocol} {s : Bytes}
    (hlive : ∀ q, q <+: s → q ≠ s → ¬ ((withProtocol protocol).observe decode q).done)
    (hok : ((withProtocol protocol).observe decode s).observationFailed = false) :
    (withProtocol protocol).observe decode s = tracked decode (withProtocol protocol) s := by
  induction s using reverseRecOn with
  | nil => rfl
  | append_singleton s c ih =>
    have hnow := hlive s (prefix_append s [c]) (by simp)
    have hs := ih (fun q hq hne => not_done_of_prefix hnow hq)
      (not_failed_of_not_done hnow)
    rw [observe_concat, if_neg hnow] at hok ⊢
    rw [hs] at hok ⊢
    unfold tracked at hok ⊢
    rw [scan_append]
    generalize scan {} s = r at hok ⊢
    obtain ⟨⟨line, afterReturn⟩, ls⟩ := r
    by_cases hskip : afterReturn ∧ c = 10
    · rw [step_skip decode hskip]
      simp [scan, feed, hskip]
    · by_cases hend : c = 13 ∨ c = 10
      · rw [step_newline decode hskip hend hok]
        dsimp only
        rw [observeLine_buffers]
        simp [scan, feed, hskip, hend.symm]
      · rw [step_byte decode hend hok]
        have hend' : ¬ (c = 10 ∨ c = 13) := fun h => hend h.symm
        simp [scan, feed, hskip, hend']

/-! The cap is out of reach of a short stream. -/

/-- What a payload may change. -/
theorem observePayload_eq (o : SseFramingObserver) (data : Bytes) : ∃ chat model t e n,
    o.observePayload decode data =
      { o with dispatched := o.dispatched ++ [data], chatId := chat, modelId := model,
               sawTerminal := t, sawError := e, lastSequenceNumber := n } := by
  unfold observePayload observeTerminal
  split
  · exact ⟨_, _, _, _, _, rfl⟩
  · cases decode data with
    | none => exact ⟨_, _, _, _, _, rfl⟩
    | some parsed =>
      obtain ⟨protocol⟩ := o
      cases protocol <;> exact ⟨_, _, _, _, _, rfl⟩

theorem dispatchEvent_eventData (o : SseFramingObserver) :
    (o.dispatchEvent decode).eventData = [] := by
  unfold dispatchEvent
  split
  · assumption
  · obtain ⟨chat, model, t, e, n, h⟩ := observePayload_eq decode { o with eventData := [] }
      (if o.eventData.getLast? = some 10 then o.eventData.dropLast else o.eventData)
    rw [h]

theorem dispatchEvent_failed (o : SseFramingObserver) :
    (o.dispatchEvent decode).observationFailed = o.observationFailed := by
  unfold dispatchEvent
  split
  · rfl
  · obtain ⟨chat, model, t, e, n, h⟩ := observePayload_eq decode { o with eventData := [] }
      (if o.eventData.getLast? = some 10 then o.eventData.dropLast else o.eventData)
    rw [h]

theorem length_dataValue {v : Bytes} (h : dataValue l = some v) : v.length + 5 ≤ l.length := by
  unfold dataValue at h
  split at h
  · next hp =>
    obtain ⟨r, rfl⟩ := List.isPrefixOf_iff_prefix.mp hp
    have hr : (utf8 "data:" ++ r).drop 5 = r := rfl
    have hl : (utf8 "data:" ++ r).length = 5 + r.length := by simp [utf8]; rfl
    rw [hr] at h
    split at h <;> cases h
    · simp at hl ⊢
      omega
    · omega
  · cases h

theorem length_observeLine (o : SseFramingObserver) (l : Bytes) :
    (o.observeLine decode l).eventData.length ≤ o.eventData.length + l.length := by
  unfold observeLine
  split
  · simp [dispatchEvent_eventData]
  · split
    · simp
    · cases hv : dataValue l with
      | none => simp
      | some v =>
        have := length_dataValue hv
        simp
        omega

theorem observeLine_lineBuffer (o : SseFramingObserver) (l : Bytes) :
    (o.observeLine decode l).lineBuffer = o.lineBuffer := by
  rw [observeLine_buffers]

theorem observeLine_failed (o : SseFramingObserver) (l : Bytes) :
    (o.observeLine decode l).observationFailed = o.observationFailed := by
  unfold observeLine
  split
  · exact dispatchEvent_failed decode o
  · split
    · rfl
    · cases dataValue l <;> rfl

/-- The bytes held back. -/
def held (o : SseFramingObserver) : Nat := o.lineBuffer.length + o.eventData.length

theorem overCap_eq_false (h : o.held ≤ maxObservedEventBytes) : o.overCap = false :=
  decide_eq_false (Nat.not_lt.mpr h)

theorem step_of_held_lt (hok : o.observationFailed = false) (h : o.held < maxObservedEventBytes) :
    (o.step decode c).observationFailed = false ∧ (o.step decode c).held ≤ o.held + 1 := by
  unfold step
  split
  · exact ⟨hok, Nat.le_succ _⟩
  · split
    · have hlen := length_observeLine decode
        { o with pendingCr := c = 13, lineBuffer := [] } o.lineBuffer
      have hbuf := observeLine_lineBuffer decode
        { o with pendingCr := c = 13, lineBuffer := [] } o.lineBuffer
      have hfail := observeLine_failed decode
        { o with pendingCr := c = 13, lineBuffer := [] } o.lineBuffer
      dsimp only at hlen hbuf hfail ⊢
      generalize observeLine decode _ o.lineBuffer = o' at hlen hbuf hfail ⊢
      have hheld : o'.held ≤ o.held := by
        simp only [held, hbuf, length_nil]
        omega
      rw [overCap_eq_false (hheld.trans h.le)]
      have hboth : (if o'.done then o' else if false then o'.giveUp else o') = o' := by simp
      rw [hboth]
      exact ⟨hfail.trans hok, by omega⟩
    · have hheld : { o with pendingCr := false, lineBuffer := o.lineBuffer ++ [c] }.held =
          o.held + 1 := by
        simp only [held, length_append, length_singleton]
        omega
      dsimp only
      rw [overCap_eq_false (hheld.trans_le h)]
      exact ⟨hok, hheld.le⟩

theorem observe_of_length_le (protocol : Option SseProtocol) {s : Bytes}
    (h : s.length ≤ maxObservedEventBytes) :
    ((withProtocol protocol).observe decode s).observationFailed = false ∧
      ((withProtocol protocol).observe decode s).held ≤ s.length := by
  induction s using reverseRecOn with
  | nil => exact ⟨rfl, Nat.le_refl 0⟩
  | append_singleton s c ih =>
    rw [length_append, length_singleton] at h ⊢
    obtain ⟨hok, hheld⟩ := ih (by omega)
    rw [observe_concat]
    split
    · exact ⟨hok, by omega⟩
    · obtain ⟨hok', hheld'⟩ := step_of_held_lt decode hok (by omega)
      exact ⟨hok', by omega⟩

/-! The payloads. -/

theorem dispatchEvent_dispatched {values : List Bytes} (h : o.eventData = buffered values) :
    (o.dispatchEvent decode).dispatched =
      o.dispatched ++ (joined values).toList := by
  unfold dispatchEvent joined
  by_cases hv : values = []
  · rw [if_pos (by rw [h, hv]; rfl), if_pos hv]
    simp
  · have hne : o.eventData ≠ [] := by
      rw [h, ne_eq, buffered_eq_nil]
      exact hv
    rw [if_neg hne, if_neg hv]
    have hdata : (if o.eventData.getLast? = some 10 then o.eventData.dropLast else o.eventData) =
        intercalate [10] values := by
      simp [h, buffered_eq values hv]
    obtain ⟨chat, model, t, e, n, hp⟩ := observePayload_eq decode
      { o with eventData := [] } (intercalate [10] values)
    rw [hdata]
    exact congrArg dispatched hp

theorem dataValue_of_comment (h : l.head? = some 58) : dataValue l = none := by
  unfold dataValue
  rw [if_neg]
  intro hp
  obtain ⟨r, rfl⟩ := List.isPrefixOf_iff_prefix.mp hp
  have hhead : (utf8 "data:" ++ r).head? = some 100 := rfl
  rw [hhead] at h
  exact absurd h (by decide)

/-- Reading lines, the observer dispatches the payload of every block they close. -/
theorem foldl_observeLine {open_ : List Bytes} (ls : List Bytes)
    (h : o.eventData = buffered (open_.filterMap dataValue)) :
    (ls.foldl (observeLine decode) o).dispatched =
      o.dispatched ++ payloadsOf dataValue (blocks open_ ls) := by
  induction ls generalizing o open_ with
  | nil => simp [blocks, payloadsOf]
  | cons l ls ih =>
    by_cases hl : l = []
    · subst hl
      have hempty : (o.observeLine decode []).eventData =
          buffered (([] : List Bytes).filterMap dataValue) :=
        dispatchEvent_eventData decode o
      have hone : (o.observeLine decode []).dispatched =
          o.dispatched ++ (joined (open_.filterMap dataValue)).toList :=
        dispatchEvent_dispatched decode h
      rw [foldl_cons, ih hempty, hone, blocks, payloadsOf, payloadsOf]
      cases hj : joined (open_.filterMap dataValue) <;> simp [hj]
    · rw [blocks_cons hl, foldl_cons]
      have hnext : (o.observeLine decode l).eventData =
            buffered ((open_ ++ [l]).filterMap dataValue) ∧
          (o.observeLine decode l).dispatched = o.dispatched := by
        unfold observeLine
        rw [if_neg hl]
        split
        · next hc => simp [h, dataValue_of_comment hc]
        · cases hv : dataValue l <;> simp [h, hv, buffered]
      rw [ih hnext.1, hnext.2]

end Lines

/-! Against the standard. -/

/-- A `data` field without a colon, which the standard reads as an empty value. -/
def bareData : Bytes := utf8 "data"

theorem dataField_of_data (r : Bytes) :
    dataField (utf8 "data:" ++ r) = dataValue (utf8 "data:" ++ r) := by
  have hl : utf8 "data:" ++ r = 100 :: 97 :: 116 :: 97 :: 58 :: r := rfl
  have hp : (utf8 "data:").isPrefixOf (utf8 "data:" ++ r) = true := by simp
  rw [dataValue, if_pos hp, hl]
  have hname : utf8 "data" = [100, 97, 116, 97] := rfl
  cases r with
  | nil => simp [dataField, field, hname]
  | cons c r =>
    by_cases hc : c = 32
    · simp [dataField, field, hname, hc]
    · simp only [dataField, field, hname]
      split <;> simp_all

/-- The two readings of a line differ on the bare field name only. -/
theorem dataField_eq {l : Bytes} (h : l ≠ bareData) : dataField l = dataValue l := by
  by_cases hp : utf8 "data:" <+: l
  · obtain ⟨r, rfl⟩ := hp
    exact dataField_of_data r
  · have hnone : dataValue l = none := by
      rw [dataValue, if_neg]
      simpa using hp
    rw [hnone, dataField]
    split
    · rfl
    · rw [if_neg]
      intro hname
      have hsplit := takeWhile_append_dropWhile (p := (· ≠ 58)) (l := l)
      change l.takeWhile (· ≠ 58) = bareData at hname
      rw [hname] at hsplit
      cases hd : l.dropWhile (· ≠ 58) with
      | nil => exact h (by rw [← hsplit, hd, append_nil])
      | cons c r =>
        have hc : c = 58 := by
          have := head?_dropWhile_not (fun x : UInt8 => decide (x ≠ 58)) l
          rw [hd] at this
          simpa using this
        exact hp ⟨r, by rw [← hsplit, hd, hc]; rfl⟩

theorem dataField_bareData : dataField bareData = some [] := by decide

theorem dataValue_bareData : dataValue bareData = none := by decide

theorem filterMap_sublist (block : List Bytes) :
    (block.filterMap dataValue).Sublist (block.filterMap dataField) := by
  induction block with
  | nil => exact Sublist.refl _
  | cons l block ih =>
    by_cases hl : l = bareData
    · subst hl
      simpa [dataField_bareData, dataValue_bareData] using ih.cons []
    · rw [filterMap_cons, filterMap_cons, dataField_eq hl]
      cases dataValue l with
      | none => exact ih
      | some v => exact ih.cons_cons v

theorem filterMap_eq_iff (block : List Bytes) :
    block.filterMap dataField = block.filterMap dataValue ↔ bareData ∉ block := by
  constructor
  · intro h hmem
    obtain ⟨a, b, rfl⟩ := append_of_mem hmem
    have ha := (filterMap_sublist a).length_le
    have hb := (filterMap_sublist b).length_le
    have hlen := congrArg length h
    simp [dataField_bareData, dataValue_bareData] at hlen
    omega
  · intro h
    apply filterMap_congr
    intro l hl
    exact dataField_eq (fun he => h (he ▸ hl))

/-- What the observer reads of a stream as the standard does: no event has a bare `data`
line, and a byte order mark does not hide the first line of the first event. -/
def Legible (s : Bytes) : Prop :=
  (∀ block ∈ EventStream.blocks [] (EventStream.lines s), bareData ∉ block) ∧
    (EventStream.byteOrderMark <+: s →
      ∀ block ∈ (EventStream.blocks [] (EventStream.lines s)).head?,
        ∀ l ∈ block.head?, EventStream.dataField l = none)

theorem forall₂_readings (bs : List (List Bytes)) :
    Forall₂ Sublist (bs.map (·.filterMap dataValue)) (bs.map (·.filterMap dataField)) := by
  induction bs with
  | nil => exact .nil
  | cons block bs ih => exact .cons (filterMap_sublist block) ih

variable {bs : List (List Bytes)}

theorem lf_notMem_values (hlf : ∀ block ∈ bs, ∀ l ∈ block, 10 ∉ l) :
    ∀ w ∈ bs.map (·.filterMap dataField), ∀ v ∈ w, 10 ∉ v := by
  intro w hw v hv
  obtain ⟨block, hblock, rfl⟩ := mem_map.mp hw
  obtain ⟨l, hl, hd⟩ := mem_filterMap.mp hv
  exact lf_notMem_dataField (hlf block hblock l hl) hd

theorem payloadsOf_eq_iff (hlf : ∀ block ∈ bs, ∀ l ∈ block, 10 ∉ l) :
    payloadsOf dataField bs = payloadsOf dataValue bs ↔
      ∀ block ∈ bs, bareData ∉ block := by
  have hiff := filterMap_joined_eq_iff (forall₂_readings bs) (lf_notMem_values hlf)
  refine hiff.trans ?_
  rw [map_inj_left]
  exact forall₂_congr fun block _ => filterMap_eq_iff block

/-- A first line that only the standard sees. -/
theorem payloadsOf_cons_eq_iff {l : Bytes} {b : List Bytes}
    (hlf : ∀ block ∈ (l :: b) :: bs, ∀ l ∈ block, 10 ∉ l) :
    payloadsOf dataField ((l :: b) :: bs) =
        payloadsOf dataValue (b :: bs) ↔
      dataField l = none ∧ ∀ block ∈ b :: bs, bareData ∉ block := by
  cases hd : dataField l with
  | none =>
    have hskip : payloadsOf dataField ((l :: b) :: bs) = payloadsOf dataField (b :: bs) := by
      simp [payloadsOf, hd]
    have hlf' : ∀ block ∈ b :: bs, ∀ l ∈ block, 10 ∉ l := by
      rw [forall_mem_cons] at hlf ⊢
      exact ⟨fun l' hl' => hlf.1 l' (by simp [hl']), hlf.2⟩
    rw [hskip, payloadsOf_eq_iff hlf']
    simp
  | some v =>
    refine iff_of_false (fun h => ?_) (by simp)
    have hpairs : Forall₂ Sublist ((b :: bs).map (·.filterMap dataValue))
        (((l :: b) :: bs).map (·.filterMap dataField)) := by
      refine .cons ?_ (forall₂_readings bs)
      simpa [hd] using (filterMap_sublist b).cons v
    have heq := (filterMap_joined_eq_iff hpairs (lf_notMem_values hlf)).mp h
    have hlen := congrArg length (cons.inj heq).1
    have hle := (filterMap_sublist b).length_le
    simp [hd] at hlen
    omega

theorem dataValue_mark (l : Bytes) : dataValue (byteOrderMark ++ l) = none := by
  rw [dataValue, if_neg]
  intro hp
  obtain ⟨r, hr⟩ := List.isPrefixOf_iff_prefix.mp hp
  have hhead := congrArg head? hr
  change some 100 = some 239 at hhead
  exact absurd hhead (by decide)

/-- The payloads of the lines of a stream, mark included. -/
def seen (s : Bytes) : List Bytes :=
  EventStream.payloadsOf dataValue (EventStream.blocks [] (EventStream.linesFrom [] s))

theorem seen_mark (r : Bytes) :
    seen (byteOrderMark ++ r) =
      payloadsOf dataValue (blocks [] (linesFrom [] r).tail) := by
  have hraw : linesFrom [] (byteOrderMark ++ r) =
      (linesFrom [] r).modifyHead (byteOrderMark ++ ·) := by
    rw [← linesFrom_append]
    rfl
  rw [seen, hraw]
  cases linesFrom [] r with
  | nil => rfl
  | cons l ls =>
    exact payloadsOf_blocks_congr (by simp [dataValue_mark]) ls

theorem seen_eq_iff (s : Bytes) : seen s = payloads s ↔ Legible s := by
  have hlf : ∀ block ∈ blocks [] (lines s), ∀ l ∈ block, 10 ∉ l := by
    intro block hb l hl
    have hmem := mem_blocks hb hl
    exact lf_notMem_lines (by simpa using hmem)
  rw [payloads_eq, eq_comm]
  by_cases hm : byteOrderMark <+: s
  · obtain ⟨r, rfl⟩ := hm
    have hlines : lines (byteOrderMark ++ r) = linesFrom [] r := by
      simp [lines, stripMark, byteOrderMark]
    rw [seen_mark, Legible, hlines]
    rw [hlines] at hlf
    cases hls : linesFrom [] r with
    | nil => simp [blocks, payloadsOf]
    | cons l ls =>
      rw [hls] at hlf
      by_cases hl : l = []
      · -- the mark stands alone on a line that the standard reads as blank
        subst hl
        have hskip : payloadsOf dataField ([] :: blocks [] ls) =
            payloadsOf dataField (blocks [] ls) := rfl
        rw [blocks, forall_mem_cons] at hlf
        rw [blocks, hskip, tail_cons, payloadsOf_eq_iff hlf.2]
        simp
      · have hblocks : blocks [] (l :: ls) = (blocks [] ls).modifyHead (l :: ·) := by
          rw [blocks_cons hl]
          exact blocks_append [l] [] ls
        rw [hblocks] at hlf ⊢
        rw [tail_cons]
        cases hbs : blocks [] ls with
        | nil => simp [payloadsOf]
        | cons b bs =>
          rw [hbs, modifyHead_cons] at hlf
          rw [modifyHead_cons, payloadsOf_cons_eq_iff hlf]
          have hbare : dataField l = none → bareData ≠ l := by
            rintro hnone rfl
            simp [dataField_bareData] at hnone
          rw [forall_mem_cons, forall_mem_cons, mem_cons, not_or]
          simp only [head?_cons, Option.mem_def, Option.some.injEq, forall_eq']
          tauto
  · have hlines : lines s = linesFrom [] s := by
      rw [lines, stripMark, if_neg (by simpa using hm)]
    rw [seen, ← hlines, payloadsOf_eq_iff hlf, Legible]
    simp [hm]

theorem tracked_dispatched (decode : Bytes → Option Value) (protocol : Option SseProtocol)
    (s : Bytes) : (tracked decode (withProtocol protocol) s).dispatched = seen s := by
  change ((scan {} s).2.foldl (observeLine decode) (withProtocol protocol)).dispatched = _
  have hopen : (withProtocol protocol).eventData =
    buffered (([] : List Bytes).filterMap dataValue) := rfl
  rw [scan_eq_linesFrom, foldl_observeLine decode _ hopen]
  rfl

/-- However a stream is cut into chunks, the observer ends in the same state. Until nothing is
left to learn, it dispatches the payloads of the standard exactly on the legible streams. -/
theorem dispatches_payloads_iff (decode : Bytes → Option Value) (protocol : Option SseProtocol) :
    (∀ chunks chunks' : List Bytes, chunks.flatten = chunks'.flatten →
      chunks.foldl (observe decode) (withProtocol protocol) =
        chunks'.foldl (observe decode) (withProtocol protocol)) ∧
    ∀ chunks : List Bytes, chunks.flatten.length ≤ maxObservedEventBytes →
      (∀ q, q <+: chunks.flatten → q ≠ chunks.flatten →
        ¬ ((withProtocol protocol).observe decode q).done) →
      ((chunks.foldl (observe decode) (withProtocol protocol)).dispatched =
          EventStream.payloads chunks.flatten ↔
        Legible chunks.flatten) := by
  refine ⟨fun chunks chunks' h => ?_, fun chunks hlen hlive => ?_⟩
  · rw [foldl_observe, foldl_observe, h]
  · have hok := (observe_of_length_le decode protocol hlen).1
    rw [foldl_observe, observe_eq_tracked decode hlive hok, tracked_dispatched]
    exact seen_eq_iff chunks.flatten

theorem dispatches_payloads_iff_of_greeting :
    ([utf8 "data: hi\r", utf8 "\n\r\n"].foldl (observe fun _ => none)
        (withProtocol (some .openaiChat))).dispatched =
        EventStream.payloads [utf8 "data: hi\r", utf8 "\n\r\n"].flatten ↔
      Legible [utf8 "data: hi\r", utf8 "\n\r\n"].flatten := by
  have hlive : ¬ ((withProtocol (some .openaiChat)).observe (fun _ => none)
      [utf8 "data: hi\r", utf8 "\n\r\n"].flatten).done := by decide
  exact (dispatches_payloads_iff (fun _ => none) (some .openaiChat)).2 _ (by decide)
    fun q hq _ => not_done_of_prefix hlive hq

/-- A bare `data` line makes an event with an empty payload, and a byte order mark is not part
of the first line; the observer misses both events. -/
theorem dispatches_fewer_payloads :
    ((new "/v1/chat/completions").observe (fun _ => none) (utf8 "data\n\n")).dispatched = [] ∧
    EventStream.payloads (utf8 "data\n\n") = [[]] ∧
    ((new "/v1/chat/completions").observe (fun _ => none)
      (EventStream.byteOrderMark ++ utf8 "data: x\n\n")).dispatched = [] ∧
    EventStream.payloads (EventStream.byteOrderMark ++ utf8 "data: x\n\n") = [utf8 "x"] := by
  decide

end SseFramingObserver

end AciGateway.Sse
