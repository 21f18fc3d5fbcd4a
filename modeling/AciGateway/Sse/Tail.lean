import AciGateway.Sse.Framing

/-! The bytes the receipt finalizer appends to a stream that stopped without its terminal. -/
namespace AciGateway.Sse

open Octets Json EventStream SseFramingObserver Scanner List

/-! Error payloads. -/

/-- The API surface that shapes an error. -/
inductive Surface where
  | openai
  | anthropic
  deriving DecidableEq

def errorType : Surface → Nat → String
  | .anthropic, status =>
    match status with
    | 400 => "invalid_request_error"
    | 401 => "authentication_error"
    | 402 => "billing_error"
    | 403 => "permission_error"
    | 404 => "not_found_error"
    | 413 => "request_too_large"
    | 429 => "rate_limit_error"
    | 504 => "timeout_error"
    | s => if 500 ≤ s then "api_error" else "invalid_request_error"
  | .openai, status =>
    match status with
    | 401 => "authentication_error"
    | 402 => "insufficient_quota"
    | 403 => "permission_error"
    | 404 => "not_found_error"
    | 429 => "rate_limit_error"
    | 503 => "service_unavailable"
    | 504 => "timeout_error"
    | s => if 500 ≤ s then "upstream_error" else "invalid_request_error"

def upstreamMessage : Nat → String
  | 400 | 422 => "The request was rejected as invalid"
  | 401 | 402 | 403 => "The upstream provider is currently unavailable"
  | 404 => "The requested model or resource was not found"
  | 413 => "The request is too large"
  | 429 => "Rate limit exceeded. Please retry after some time."
  | 503 => "The model is currently unavailable. Please try again later."
  | 504 => "The upstream provider timed out"
  | _ => "The upstream provider returned an error"

def envelope (surface : Surface) (errorType message : String) (requestId : Option String) : Value :=
  match surface with
  | .anthropic =>
    .obj ([("type", .str "error"),
      ("error", .obj [("type", .str errorType), ("message", .str message)])] ++
      (requestId.map fun id => ("request_id", Value.str id)).toList)
  | .openai =>
    .obj [("error", .obj [("message", .str message), ("type", .str errorType), ("code", .null),
      ("param", .null)])]

def chatGatewayError (status : Nat) : Value :=
  .obj [("message", .str (upstreamMessage status)), ("type", .str (errorType .openai status)),
    ("code", .num (.posInt (Fin.ofNat (2 ^ 64) status))), ("param", .null)]

def responsesGatewayCode : Nat → String
  | 429 => "rate_limit_exceeded"
  | 400 | 413 | 422 => "invalid_prompt"
  | _ => "server_error"

def optStr : Option String → Value
  | some s => .str s
  | none => .null

def responsesErrorEvent (code : Option String) (message : String) (param : Option String)
    (sequenceNumber : Option U64) : Value :=
  .obj ([("type", .str "error"), ("code", optStr code), ("message", .str message),
    ("param", optStr param)] ++
    (sequenceNumber.map fun n => ("sequence_number", Value.num (.posInt n))).toList)

/-! The tails. -/

def streamSuccessTerminator : SseProtocol → Option Bytes
  | .openaiChat => some (utf8 "data: [DONE]\n\n")
  | .anthropicMessages | .openaiResponses => none

/-- The number without a successor. -/
def lastNumber : U64 := ⟨U64.maxValue, by decide⟩

/-- The number of an error that continues a sequence. -/
def nextNumber (last : Option U64) : U64 := last.elim 0 (U64.satAdd · 1)

/-- The error in the protocol's shape. -/
def errorBody (protocol : SseProtocol) (status : Nat) (requestId : Option String)
    (last : Option U64) : Value :=
  match protocol with
  | .anthropicMessages =>
    envelope .anthropic (errorType .anthropic status) (upstreamMessage status) requestId
  | .openaiResponses =>
    responsesErrorEvent (some (responsesGatewayCode status)) (upstreamMessage status) none
      (some (nextNumber last))
  | .openaiChat => .obj [("error", chatGatewayError status)]

def streamErrorEvent (protocol : SseProtocol) (status : Nat) (requestId : Option String)
    (last : Option U64) : Bytes :=
  let body := print (errorBody protocol status requestId last)
  match protocol with
  | .anthropicMessages | .openaiResponses =>
    utf8 "\n\nevent: error\ndata: " ++ body ++ utf8 "\n\n"
  | .openaiChat => utf8 "\n\ndata: " ++ body ++ utf8 "\n\ndata: [DONE]\n\n"

def streamErrorTail (protocol : SseProtocol) (requestId : Option String) (last : Option U64) :
    Bytes :=
  streamErrorEvent protocol 502 requestId last

/-- What a finalizing stream holds of its framing. -/
structure FinalizerShared where
  sseParser : SseFramingObserver
  requestId : Option String
  /-- The upstream ended with a transport error. -/
  broken : Bool
  errorTailSettled : Bool := false
  deriving DecidableEq

def FinalizerShared.takeSynthesizedTail (f : FinalizerShared) : FinalizerShared × Option Bytes :=
  ({ f with errorTailSettled := true },
    if f.errorTailSettled then none
    else
      f.sseParser.protocol.bind fun protocol =>
        if f.sseParser.sawTerminal || f.sseParser.sawError then none
        else if !f.sseParser.atEventBoundary || !f.sseParser.observationUsable then none
        else if !f.broken then streamSuccessTerminator protocol
        else if protocol = .openaiResponses ∧ f.sseParser.lastSequenceNumber = some lastNumber
        then none
        else some (streamErrorTail protocol f.requestId f.sseParser.lastSequenceNumber))

/-! What a tail says to the client. -/

def doneEvent : Event := ⟨utf8 "message", utf8 "[DONE]"⟩

/-- The events of a tail: the marker of a completed stream, or the protocol's error. -/
def tailEvents (protocol : SseProtocol) (broken : Bool) (requestId : Option String)
    (last : Option U64) : List Event :=
  let body := print (errorBody protocol 502 requestId last)
  if broken then
    match protocol with
    | .openaiChat => [⟨utf8 "message", body⟩, doneEvent]
    | .openaiResponses | .anthropicMessages => [⟨utf8 "error", body⟩]
  else [doneEvent]

theorem oneLine_print (v : Value) : OneLine (print v) := by
  constructor
  · intro h
    exact absurd (printable_print v 10 h) (by decide)
  · intro h
    exact absurd (printable_print v 13 h) (by decide)

theorem oneLine_done : OneLine (utf8 "[DONE]") := ⟨by decide, by decide⟩

theorem eventsFrom_done (r : Bool) :
    eventsFrom {} (scan ⟨[], r⟩ (utf8 "data: [DONE]\n\n")).2 = [doneEvent] := by
  cases r <;> decide

theorem eventsFrom_streamErrorTail (protocol : SseProtocol) (requestId : Option String)
    (last : Option U64) (r : Bool) :
    eventsFrom {} (scan ⟨[], r⟩ (streamErrorTail protocol requestId last)).2 =
      tailEvents protocol true requestId last := by
  have hbody := oneLine_print (errorBody protocol 502 requestId last)
  unfold streamErrorTail streamErrorEvent tailEvents
  generalize print (errorBody protocol 502 requestId last) = body at hbody ⊢
  have htyped : eventsFrom {} (scan ⟨[], r⟩
      (utf8 "\n\nevent: error\ndata: " ++ body ++ utf8 "\n\n")).2 = [⟨utf8 "error", body⟩] := by
    have hsplit : utf8 "\n\nevent: error\ndata: " ++ body ++ utf8 "\n\n" =
        10 :: 10 :: (utf8 "event: error" ++ 10 :: (utf8 "data: " ++ body ++ 10 :: 10 :: [])) := by
      rfl
    have hname : OneLine (utf8 "event: error") := ⟨by decide, by decide⟩
    have hinterpret : Buffers.interpret {} (utf8 "event: error") = { type := utf8 "error" } := by
      decide
    rw [hsplit, eventsFrom_blank, linesFrom_line hname, nil_append,
      eventsFrom_cons (by decide), hinterpret, eventsFrom_dataLine hbody, if_neg (by decide)]
    rfl
  have hchat : eventsFrom {} (scan ⟨[], r⟩
      (utf8 "\n\ndata: " ++ body ++ utf8 "\n\ndata: [DONE]\n\n")).2 =
      [⟨utf8 "message", body⟩, doneEvent] := by
    have hsplit : utf8 "\n\ndata: " ++ body ++ utf8 "\n\ndata: [DONE]\n\n" =
        10 :: 10 :: (utf8 "data: " ++ body ++
          10 :: 10 :: (utf8 "data: " ++ utf8 "[DONE]" ++ 10 :: 10 :: [])) := by
      rfl
    rw [hsplit, eventsFrom_blank, eventsFrom_dataLine hbody, eventsFrom_dataLine oneLine_done]
    rfl
  cases protocol
  · exact hchat
  · exact htyped
  · exact htyped

variable {p t : Bytes} (ls : List Bytes)

namespace SseFramingObserver

variable {decode : Bytes → Option Value} {o : SseFramingObserver}

/-! Between events. -/

/-- With no event in progress, the standard's buffers are empty too. -/
theorem buffersAfter_of_midEvent (b : Buffers) (hb : o.midEvent = false → b = {})
    (h : (ls.foldl (observeLine decode) o).midEvent = false) : buffersAfter b ls = {} := by
  induction ls generalizing o b with
  | nil => exact hb h
  | cons l ls ih =>
    by_cases hl : l = []
    · subst hl
      exact ih {} (fun _ => rfl) h
    · rw [buffersAfter_cons hl]
      refine ih _ (fun hm => ?_) h
      by_cases hc : l.head? = some 58
      · have hsame : o.observeLine decode l = o := by rw [observeLine, if_neg hl, if_pos hc]
        rw [hsame] at hm
        rw [hb hm, Buffers.interpret, if_pos hc]
      · have hmid : (o.observeLine decode l).midEvent = true := by
          rw [observeLine, if_neg hl, if_neg hc]
          cases dataValue l <;> rfl
        rw [hmid] at hm
        cases hm

/-- A stream on which no tail is refused has been read to its end. -/
theorem eq_tracked_of_boundary {protocol : Option SseProtocol}
    (hlive : ¬ ((withProtocol protocol).observe decode p).done) :
    (withProtocol protocol).observe decode p = tracked decode (withProtocol protocol) p :=
  observe_eq_tracked decode (fun _ hq _ => not_done_of_prefix hlive hq)
    (not_failed_of_not_done hlive)

theorem observeLine_protocol (o : SseFramingObserver) (l : Bytes) :
    (o.observeLine decode l).protocol = o.protocol := by
  unfold observeLine
  split
  · unfold dispatchEvent
    split
    · rfl
    · obtain ⟨chat, model, t, e, n, h⟩ := observePayload_eq decode { o with eventData := [] }
        (if o.eventData.getLast? = some 10 then o.eventData.dropLast else o.eventData)
      rw [h]
  · split
    · rfl
    · cases dataValue l <;> rfl

theorem foldl_protocol : (ls.foldl (observeLine decode) o).protocol = o.protocol := by
  induction ls generalizing o with
  | nil => rfl
  | cons l ls ih => rw [foldl_cons, ih, observeLine_protocol]

theorem stripMark_mark (r : Bytes) : stripMark (byteOrderMark ++ r) = r := by
  simp [stripMark, byteOrderMark]

/-- At an event boundary, what follows starts its own events. -/
theorem events_append_of_boundary {protocol : Option SseProtocol}
    (hlive : ¬ ((withProtocol protocol).observe decode p).done)
    (hat : ((withProtocol protocol).observe decode p).atEventBoundary)
    (ht : ¬ byteOrderMark <+: t) :
    ∃ r, events (p ++ t) = events p ++ eventsFrom {} (scan ⟨[], r⟩ t).2 := by
  rw [eq_tracked_of_boundary hlive] at hat
  obtain ⟨hline, hmid⟩ : (scan {} p).1.line = [] ∧
      ((scan {} p).2.foldl (observeLine decode) (withProtocol protocol)).midEvent = false := by
    rw [atEventBoundary, Bool.and_eq_true, decide_eq_true_eq, Bool.not_eq_true'] at hat
    exact hat
  by_cases hm : byteOrderMark <+: p
  · obtain ⟨r, rfl⟩ := hm
    have hscan : scan {} (byteOrderMark ++ r) = scan ⟨byteOrderMark ++ [], false⟩ r :=
      rfl
    rw [hscan, scan_open] at hline hmid
    dsimp only at hline hmid
    have hlines : (scan ⟨[], false⟩ r).2 ≠ [] := by
      intro hnil
      rw [if_pos hnil] at hline
      simp [byteOrderMark] at hline
    rw [if_neg hlines] at hline
    refine ⟨_, events_append ?_ ?_ ?_⟩
    · rw [append_assoc, stripMark_mark, stripMark_mark]
    · exact hline
    · rw [lines_eq_scan, stripMark_mark]
      obtain ⟨l, ls, hls⟩ := exists_cons_of_ne_nil hlines
      rw [hls, modifyHead_cons, foldl_cons] at hmid
      -- the line with the mark has started an event, so a blank line has come since
      have hopen : ((withProtocol protocol).observeLine decode (byteOrderMark ++ l)).midEvent =
          true := by
        cases dataValue (byteOrderMark ++ l) <;> rfl
      have hrest (b : Buffers) : buffersAfter b ls = {} :=
        buffersAfter_of_midEvent ls b (fun h => by rw [hopen] at h; cases h) hmid
      rw [hls]
      by_cases hl : l = []
      · subst hl
        exact hrest {}
      · rw [buffersAfter_cons hl]
        exact hrest _
  · have hmark : stripMark p = p := by rw [stripMark, if_neg (by simpa using hm)]
    have hmark' : ¬ byteOrderMark <+: p ++ t := by
      rcases p with _ | ⟨a, _ | ⟨b, _ | ⟨c, p⟩⟩⟩
      · exact ht
      · rintro ⟨r, hr⟩
        obtain rfl : 0xef = a := (cons.inj hr).1
        exact absurd hline (by decide)
      · rintro ⟨r, hr⟩
        obtain rfl : 0xef = a := (cons.inj hr).1
        obtain rfl : 0xbb = b := (cons.inj (cons.inj hr).2).1
        exact absurd hline (by decide)
      · simpa [byteOrderMark] using hm
    refine ⟨_, events_append ?_ ?_ ?_⟩
    · rw [hmark, stripMark, if_neg (by simpa using hmark')]
    · rw [hmark]
      exact hline
    · rw [lines_eq_scan, hmark]
      exact buffersAfter_of_midEvent _ {} (fun _ => rfl) hmid

end SseFramingObserver

/-! What the observer has noticed. -/

/-- The part of the JSON library's behaviour that the framing rests on: a line feed between
tokens is white space, and one inside a token is refused, however many there are. -/
structure JsonReader where
  decode : Bytes → Option Value
  decode_nil : decode [] = none
  decode_done : decode (utf8 "[DONE]") = none
  leading : ∀ b, decode (10 :: b) = decode b
  trailing : ∀ b, decode (b ++ [10]) = decode b
  doubled : ∀ a b, decode (a ++ 10 :: 10 :: b) = decode (a ++ 10 :: b)

/-- The payload ends the stream of a protocol, or is an in-band error. -/
def Ends (J : JsonReader) (protocol : SseProtocol) (d : Bytes) : Prop :=
  (protocol = .openaiChat ∧ d = utf8 "[DONE]") ∨
    ∃ v, J.decode d = some v ∧ (isTerminal protocol v ∨ isInbandError v)

/-- The number a payload carries. -/
def numberOf (J : JsonReader) (d : Bytes) : Option U64 := (J.decode d).bind sequenceNumber

variable {d : Bytes}

namespace SseFramingObserver

/-- Every payload dispatched so far has left its mark. -/
structure Noticed (J : JsonReader) (protocol : SseProtocol) (o : SseFramingObserver) : Prop where
  protocol_eq : o.protocol = some protocol
  ends : ∀ d ∈ o.dispatched, Ends J protocol d → o.sawTerminal ∨ o.sawError
  number : ∀ d ∈ o.dispatched, ∀ n, numberOf J d = some n →
    ∃ m, o.lastSequenceNumber = some m ∧ n ≤ m

variable {J : JsonReader} {protocol : SseProtocol} {o : SseFramingObserver}

theorem latest_some {last next : Option U64} {n : U64} (h : next = some n) :
    ∃ m, latest last next = some m ∧ n ≤ m := by
  subst h
  cases last with
  | none => exact ⟨n, rfl, le_refl n⟩
  | some m => exact ⟨max m n, rfl, le_max_right m n⟩

theorem latest_of_some {last next : Option U64} {m : U64} (h : last = some m) :
    ∃ m', latest last next = some m' ∧ m ≤ m' := by
  subst h
  cases next with
  | none => exact ⟨m, rfl, le_refl m⟩
  | some n => exact ⟨max m n, rfl, le_max_left m n⟩

/-- One more payload, whose own mark is left. -/
theorem Noticed.concat {o' : SseFramingObserver} (h : Noticed J protocol o)
    (hp : o'.protocol = o.protocol) (hd : o'.dispatched = o.dispatched ++ [d])
    (hflags : o.sawTerminal ∨ o.sawError → o'.sawTerminal ∨ o'.sawError)
    (hlast : ∀ m, o.lastSequenceNumber = some m → ∃ m', o'.lastSequenceNumber = some m' ∧ m ≤ m')
    (hends : Ends J protocol d → o'.sawTerminal ∨ o'.sawError)
    (hnumber : ∀ n, numberOf J d = some n → ∃ m, o'.lastSequenceNumber = some m ∧ n ≤ m) :
    Noticed J protocol o' := by
  refine ⟨hp.trans h.protocol_eq, fun d' hd' he => ?_, fun d' hd' n hn => ?_⟩
  · rw [hd, mem_append, mem_singleton] at hd'
    rcases hd' with hd' | rfl
    · exact hflags (h.ends d' hd' he)
    · exact hends he
  · rw [hd, mem_append, mem_singleton] at hd'
    rcases hd' with hd' | rfl
    · obtain ⟨m, hm, hle⟩ := h.number d' hd' n hn
      obtain ⟨m', hm', hle'⟩ := hlast m hm
      exact ⟨m', hm', hle.trans hle'⟩
    · exact hnumber n hn

theorem Noticed.observePayload (h : Noticed J protocol o) (d : Bytes) :
    Noticed J protocol (o.observePayload J.decode d) := by
  unfold SseFramingObserver.observePayload
  by_cases hdone : d = utf8 "[DONE]"
  · have hnone : J.decode d = none := hdone ▸ J.decode_done
    rw [if_pos hdone]
    refine h.concat rfl rfl ?_ (fun m hm => ⟨m, hm, le_refl m⟩) ?_ ?_
    · simp only [Bool.or_eq_true]
      tauto
    · rintro (⟨hchat, -⟩ | ⟨v, hv, -⟩)
      · simp [h.protocol_eq, hchat]
      · rw [hnone] at hv
        cases hv
    · intro n hn
      rw [numberOf, hnone] at hn
      cases hn
  · rw [if_neg hdone]
    cases hv : J.decode d with
    | none =>
      refine h.concat rfl rfl id (fun m hm => ⟨m, hm, le_refl m⟩) ?_ ?_
      · rintro (⟨-, hd⟩ | ⟨v, hv', -⟩)
        · exact absurd hd hdone
        · rw [hv] at hv'
          cases hv'
      · intro n hn
        rw [numberOf, hv] at hn
        cases hn
    | some parsed =>
      simp only [observeTerminal, h.protocol_eq]
      refine h.concat h.protocol_eq.symm rfl ?_ (fun m hm => latest_of_some hm) ?_ ?_
      · simp only [Bool.or_eq_true]
        tauto
      · rintro (⟨-, hd⟩ | ⟨v, hv', hends⟩)
        · exact absurd hd hdone
        · obtain rfl : parsed = v := Option.some.inj (hv.symm.trans hv')
          simp only [Bool.or_eq_true]
          tauto
      · intro n hn
        rw [numberOf, hv] at hn
        exact latest_some hn

theorem Noticed.observeLine (h : Noticed J protocol o) (l : Bytes) :
    Noticed J protocol (o.observeLine J.decode l) := by
  unfold SseFramingObserver.observeLine
  split
  · unfold dispatchEvent
    split
    · exact ⟨h.protocol_eq, h.ends, h.number⟩
    · have hclear : Noticed J protocol { o with eventData := [] } :=
        ⟨h.protocol_eq, h.ends, h.number⟩
      have hnext := hclear.observePayload
        (if o.eventData.getLast? = some 10 then o.eventData.dropLast else o.eventData)
      exact ⟨hnext.protocol_eq, hnext.ends, hnext.number⟩
  · split
    · exact h
    · cases dataValue l <;> exact ⟨h.protocol_eq, h.ends, h.number⟩

theorem Noticed.foldl (h : Noticed J protocol o) :
    Noticed J protocol (ls.foldl (SseFramingObserver.observeLine J.decode) o) := by
  induction ls generalizing o with
  | nil => exact h
  | cons l ls ih => exact ih (h.observeLine l)

theorem noticed_of_live (hlive : ¬ ((withProtocol (some protocol)).observe J.decode p).done) :
    Noticed J protocol ((withProtocol (some protocol)).observe J.decode p) := by
  have hstart : Noticed J protocol (withProtocol (some protocol)) := by
    refine ⟨rfl, ?_, ?_⟩ <;> simp [withProtocol]
  have hlines := hstart.foldl (scan {} p).2
  rw [eq_tracked_of_boundary hlive]
  exact ⟨hlines.protocol_eq, hlines.ends, hlines.number⟩

end SseFramingObserver

/-! What the observer reads of an event. -/

namespace JsonReader

variable (J : JsonReader)

/-- Between lines, one more line feed changes nothing. -/
theorem decode_insert {a : Bytes} (ha : a = [] ∨ a.getLast? = some 10) (b : Bytes) :
    J.decode (a ++ 10 :: b) = J.decode (a ++ b) := by
  rcases ha with rfl | ha
  · exact J.leading b
  · obtain ⟨a, rfl⟩ := getLast?_eq_some_iff.mp ha
    rw [append_assoc, append_assoc]
    exact J.doubled a b

/-- A bare `data` line does not change what an event decodes to. -/
theorem decode_buffered (a : Bytes) (ha : a = [] ∨ a.getLast? = some 10) (block : List Bytes) :
    J.decode (a ++ buffered (block.filterMap dataField)) =
      J.decode (a ++ buffered (block.filterMap dataValue)) := by
  induction block generalizing a with
  | nil => rfl
  | cons l block ih =>
    by_cases hl : l = bareData
    · subst hl
      rw [filterMap_cons, filterMap_cons, dataField_bareData, dataValue_bareData, ← ih a ha]
      exact J.decode_insert ha _
    · rw [filterMap_cons, filterMap_cons, dataField_eq hl]
      cases dataValue l with
      | none => exact ih a ha
      | some v =>
        have := ih (a ++ v ++ [10]) (.inr (by simp))
        simpa [buffered] using this

theorem decode_joined {values : List Bytes} (h : joined values = some d) :
    J.decode d = J.decode (buffered values) := by
  unfold joined at h
  split at h
  · cases h
  · next hne =>
    cases h
    rw [buffered_eq values hne, J.trailing]

end JsonReader

/-- The payload of the first event when a byte order mark hides its first line. -/
def hidden (s : Bytes) : Option Bytes :=
  if byteOrderMark.isPrefixOf s then
    match blocks [] (lines s) with
    | (l :: b) :: _ => if dataField l = none then none else joined ((l :: b).filterMap dataField)
    | _ => none
  else none

namespace SseFramingObserver

variable {J : JsonReader} {protocol : SseProtocol} {o : SseFramingObserver} {s : Bytes}
  {block : List Bytes}

theorem hidden_mem (h : hidden s = some d) : d ∈ payloads s := by
  rw [payloads_eq, payloadsOf]
  unfold hidden at h
  split at h
  · split at h
    · next l b bs hbs =>
      split at h
      · cases h
      · rw [hbs, map_cons, filterMap_cons, h]
        exact mem_cons_self
    · cases h
  · cases h

/-- The observer read the event of these lines. -/
structure Read (s d : Bytes) (block : List Bytes) : Prop where
  payload : joined (block.filterMap dataField) = some d
  one_line : ∀ l ∈ block, 10 ∉ l
  seen : ∀ d', joined (block.filterMap dataValue) = some d' → d' ∈ seen s

theorem mem_payloadsOf {value : Bytes → Option Bytes} {bs : List (List Bytes)} :
    d ∈ payloadsOf value bs ↔ ∃ block ∈ bs, joined (block.filterMap value) = some d := by
  simp [payloadsOf]

/-- Only the event hidden by a mark is not read. -/
theorem hidden_or_read (h : d ∈ payloads s) : hidden s = some d ∨ ∃ block, Read s d block := by
  rw [payloads_eq] at h
  obtain ⟨block, hblock, hd⟩ := mem_payloadsOf.mp h
  have hlf : ∀ l ∈ block, 10 ∉ l := by
    intro l hl
    have hmem := mem_blocks hblock hl
    exact lf_notMem_lines (by simpa using hmem)
  by_cases hm : byteOrderMark <+: s
  · obtain ⟨r, rfl⟩ := hm
    have hlines : lines (byteOrderMark ++ r) = linesFrom [] r := by rw [lines, stripMark_mark]
    have hread {b : List Bytes} (hb : b ∈ blocks [] (linesFrom [] r).tail)
        (hb' : ∀ l ∈ b, 10 ∉ l) (hd' : joined (b.filterMap dataField) = some d) :
        Read (byteOrderMark ++ r) d b :=
      ⟨hd', hb', fun d' hd' => by rw [seen_mark]; exact mem_payloadsOf.mpr ⟨b, hb, hd'⟩⟩
    rw [hlines] at hblock
    cases hls : linesFrom [] r with
    | nil =>
      rw [hls] at hblock
      cases hblock
    | cons l ls =>
      rw [hls] at hblock
      rw [hls, tail_cons] at hread
      by_cases hl : l = []
      · subst hl
        rcases mem_cons.mp hblock with rfl | hblock
        · cases hd
        · exact .inr ⟨block, hread hblock hlf hd⟩
      · have hblocks : blocks [] (l :: ls) = (blocks [] ls).modifyHead (l :: ·) := by
          rw [blocks_cons hl]
          exact blocks_append [l] [] ls
        cases hbs : blocks [] ls with
        | nil => simp [hblocks, hbs] at hblock
        | cons b bs =>
          rw [hbs] at hread
          rw [hblocks, hbs, modifyHead_cons] at hblock
          rcases mem_cons.mp hblock with rfl | hblock
          · by_cases hdata : dataField l = none
            · rw [filterMap_cons, hdata] at hd
              exact .inr ⟨b, hread (by simp) (fun l hl => hlf l (by simp [hl])) hd⟩
            · left
              rw [hidden, if_pos (by simp), hlines, hls, hblocks, hbs, modifyHead_cons]
              simpa [hdata] using hd
          · exact .inr ⟨block, hread (by simp [hblock]) hlf hd⟩
  · right
    have hlines : lines s = linesFrom [] s := by
      rw [lines, stripMark, if_neg (by simpa using hm)]
    rw [hlines] at hblock
    exact ⟨block, hd, hlf, fun d' hd' => mem_payloadsOf.mpr ⟨block, hblock, hd'⟩⟩

theorem Read.decode {v : Value} (h : Read s d block)
    (hv : J.decode d = some v) : ∃ d' ∈ SseFramingObserver.seen s, J.decode d' = some v := by
  have hsame := J.decode_buffered [] (.inl rfl) block
  rw [nil_append, nil_append, ← J.decode_joined h.payload, hv] at hsame
  cases hj : joined (block.filterMap dataValue) with
  | none =>
    have hnil : block.filterMap dataValue = [] := by
      by_contra hne
      simp [joined, hne] at hj
    rw [hnil] at hsame
    exact absurd hsame (by simp [buffered, J.decode_nil])
  | some d' => exact ⟨d', h.seen d' hj, by rw [J.decode_joined hj, ← hsame]⟩

/-- The marker of the chat protocol is one line. -/
theorem Read.done (h : Read s (utf8 "[DONE]") block) :
    utf8 "[DONE]" ∈ SseFramingObserver.seen s := by
  have hvalues : ∀ v ∈ block.filterMap dataField, 10 ∉ v := by
    intro v hv
    obtain ⟨l, hl, hd⟩ := mem_filterMap.mp hv
    exact lf_notMem_dataField (h.one_line l hl) hd
  have hone : block.filterMap dataField = [utf8 "[DONE]"] := by
    have hp := h.payload
    unfold joined at hp
    split at hp
    · cases hp
    · next hne =>
      have hcount := count_buffered hvalues
      rw [buffered_eq _ hne, Option.some.inj hp] at hcount
      obtain ⟨v, hv⟩ := length_eq_one_iff.mp (hcount.symm.trans (by decide))
      rw [hv] at hp ⊢
      simpa [intercalate] using hp
  have hbare : bareData ∉ block := by
    intro hmem
    have : [] ∈ block.filterMap dataField := mem_filterMap.mpr ⟨_, hmem, dataField_bareData⟩
    rw [hone, mem_singleton] at this
    exact absurd this (by decide)
  refine h.seen _ ?_
  rw [← (filterMap_eq_iff block).mpr hbare]
  exact h.payload

/-- Without a terminal or an error noticed, only the hidden event may hold one. -/
theorem hidden_of_ends (hd : d ∈ payloads p) (he : Ends J protocol d)
    (hquiet : ∀ d' ∈ seen p, ¬ Ends J protocol d') : hidden p = some d := by
  rcases hidden_or_read hd with h | ⟨block, h⟩
  · exact h
  · exfalso
    rcases he with ⟨hchat, rfl⟩ | ⟨v, hv, hterm⟩
    · exact hquiet _ h.done (.inl ⟨hchat, rfl⟩)
    · obtain ⟨d', hd', hv'⟩ := h.decode hv
      exact hquiet d' hd' (.inr ⟨v, hv', hterm⟩)

theorem hidden_or_seen_number {n : U64} (hd : d ∈ payloads p)
    (hn : numberOf J d = some n) : hidden p = some d ∨ ∃ d' ∈ seen p, numberOf J d' = some n := by
  rcases hidden_or_read hd with h | ⟨block, h⟩
  · exact .inl h
  · obtain ⟨v, hv, hseq⟩ := Option.bind_eq_some_iff.mp hn
    obtain ⟨d', hd', hv'⟩ := h.decode hv
    exact .inr ⟨d', hd', by rw [numberOf, hv']; exact hseq⟩

end SseFramingObserver

open SseFramingObserver

/-! When a tail is written. -/

theorem takeSynthesizedTail_eq_some {f : FinalizerShared} (h : f.takeSynthesizedTail.2 = some t) :
    ∃ protocol, f.sseParser.protocol = some protocol ∧
      f.sseParser.sawTerminal = false ∧ f.sseParser.sawError = false ∧
      f.sseParser.atEventBoundary ∧ f.sseParser.observationFailed = false ∧
      ((f.broken = false ∧ protocol = .openaiChat ∧ t = utf8 "data: [DONE]\n\n") ∨
        f.broken ∧
          (protocol = .openaiResponses → f.sseParser.lastSequenceNumber ≠ some lastNumber) ∧
          t = streamErrorTail protocol f.requestId f.sseParser.lastSequenceNumber) := by
  unfold FinalizerShared.takeSynthesizedTail at h
  split at h
  · cases h
  · obtain ⟨protocol, hp, h⟩ := Option.bind_eq_some_iff.mp h
    refine ⟨protocol, hp, ?_⟩
    split at h
    · cases h
    · next hflags =>
      split at h
      · cases h
      · next hat =>
        obtain ⟨hterm, herr⟩ : f.sseParser.sawTerminal = false ∧ f.sseParser.sawError = false := by
          simpa using hflags
        obtain ⟨hbound, hok⟩ :
            f.sseParser.atEventBoundary ∧ f.sseParser.observationFailed = false := by
          simpa [observationUsable] using hat
        refine ⟨hterm, herr, hbound, hok, ?_⟩
        split at h
        · next hbroken =>
          left
          cases protocol <;> cases h
          exact ⟨by simpa using hbroken, rfl, rfl⟩
        · next hbroken =>
          split at h
          · cases h
          · next hlast =>
            cases h
            exact .inr ⟨by simpa using hbroken, fun hr hl => hlast ⟨hr, hl⟩, rfl⟩

theorem not_mark_tail (protocol : SseProtocol) (requestId : Option String) (last : Option U64) :
    ¬ byteOrderMark <+: streamErrorTail protocol requestId last := by
  rintro ⟨r, hr⟩
  have hhead := congrArg head? hr
  have htail : (streamErrorTail protocol requestId last).head? = some 10 := by
    cases protocol <;> rfl
  rw [htail] at hhead
  exact absurd hhead (by simp [byteOrderMark])

theorem lt_nextNumber {last : Option U64} {m n : U64} (hlast : last ≠ some lastNumber)
    (hm : last = some m) (hn : n ≤ m) : n < nextNumber last := by
  subst hm
  have hmax : m.val ≠ U64.maxValue := fun he => hlast (congrArg some (Fin.ext he))
  have hle : n.val ≤ m.val := hn
  change n.val < min (m.val + 1) U64.maxValue
  unfold U64.maxValue at hmax ⊢
  omega

/-- Whenever a tail is written, the client reads the events of the stream and then exactly
those of the tail. That no terminal and no error came before, and that the tail's number is
above all others, holds exactly when the event hidden by a byte order mark, if any, is no
terminal and no error and is numbered below the tail. -/
theorem synthesized_tail_iff (J : JsonReader) (protocol : Option SseProtocol)
    (chunks : List Bytes) (requestId : Option String) (broken settled : Bool) (t : Bytes)
    (h : (FinalizerShared.takeSynthesizedTail
      ⟨chunks.foldl (observe J.decode) (withProtocol protocol), requestId, broken, settled⟩).2 =
        some t) :
    ∃ P, protocol = some P ∧
      let last := (chunks.foldl (observe J.decode) (withProtocol protocol)).lastSequenceNumber
      let numbered (d : Bytes) : Prop :=
        P = .openaiResponses → broken → ∀ n, numberOf J d = some n → n < nextNumber last
      events (chunks.flatten ++ t) =
        events chunks.flatten ++ tailEvents P broken requestId last ∧
      (P = .openaiResponses →
        sequenceNumber (errorBody P 502 requestId last) = some (nextNumber last)) ∧
      ((∀ d ∈ payloads chunks.flatten, ¬ Ends J P d ∧ numbered d) ↔
        ∀ d ∈ hidden chunks.flatten, ¬ Ends J P d ∧ numbered d) := by
  obtain ⟨P, hp, hterm, herr, hat, hok, htail⟩ := takeSynthesizedTail_eq_some h
  dsimp only at hp hterm herr hat hok htail
  rw [foldl_observe] at hp hterm herr hat hok htail ⊢
  have hlive : ¬ ((withProtocol protocol).observe J.decode chunks.flatten).done := by
    simp [done, hok, hp, hterm, herr]
  obtain rfl : protocol = some P := by
    rw [eq_tracked_of_boundary hlive] at hp
    exact (foldl_protocol _).symm.trans hp
  generalize chunks.flatten = p at hp hterm herr hat hok htail hlive ⊢
  have hnoticed := noticed_of_live hlive
  have hseen : ((withProtocol (some P)).observe J.decode p).dispatched = seen p := by
    rw [eq_tracked_of_boundary hlive, tracked_dispatched]
  have hquiet : ∀ d ∈ seen p, ¬ Ends J P d := by
    intro d hd he
    have := hnoticed.ends d (hseen ▸ hd) he
    simp [hterm, herr] at this
  refine ⟨P, rfl, ?_, ?_, fun hall d hd => hall d (hidden_mem hd), fun hhid d hd => ⟨?_, ?_⟩⟩
  · rcases htail with ⟨hbroken, rfl, rfl⟩ | ⟨hbroken, -, rfl⟩
    · obtain ⟨r, hr⟩ := events_append_of_boundary hlive hat
        (show ¬ byteOrderMark <+: utf8 "data: [DONE]\n\n" by decide)
      rw [hr, eventsFrom_done, tailEvents, hbroken]
      rfl
    · obtain ⟨r, hr⟩ := events_append_of_boundary hlive hat
        (not_mark_tail P requestId _)
      rw [hr, eventsFrom_streamErrorTail, hbroken]
  · rintro rfl
    rfl
  · intro he
    exact (hhid d (hidden_of_ends hd he hquiet)).1 he
  · rintro rfl hbroken n hn
    rcases hidden_or_seen_number hd hn with hh | ⟨d', hd', hn'⟩
    · exact (hhid d hh).2 rfl hbroken n hn
    · obtain ⟨m, hm, hle⟩ := hnoticed.number d' (hseen ▸ hd') n hn'
      rcases htail with ⟨hb, -⟩ | ⟨-, hlast, -⟩
      · rw [hb] at hbroken
        cases hbroken
      · exact lt_nextNumber (hlast rfl) hm hle

/-- A reader that drops every line feed. -/
def JsonReader.lenient : JsonReader where
  decode b := fromSlice (fun _ => none) (b.filter (· ≠ 10))
  decode_nil := by decide +kernel
  decode_done := by decide +kernel
  leading b := by simp
  trailing b := by simp
  doubled a b := by simp

theorem synthesized_tail_iff_of_delta :
    ∃ P, some .openaiResponses = some P ∧
      let chunks := [utf8 "data: \x7b\"sequence_number\":4\x7d\n", utf8 "\n"]
      let last := (chunks.foldl (observe JsonReader.lenient.decode)
        (withProtocol (some .openaiResponses))).lastSequenceNumber
      let numbered (d : Bytes) : Prop :=
        P = .openaiResponses → true → ∀ n, numberOf JsonReader.lenient d = some n →
          n < nextNumber last
      events (chunks.flatten ++ streamErrorTail .openaiResponses none (some 4)) =
        events chunks.flatten ++ tailEvents P true none last ∧
      (P = .openaiResponses →
        sequenceNumber (errorBody P 502 none last) = some (nextNumber last)) ∧
      ((∀ d ∈ payloads chunks.flatten, ¬ Ends JsonReader.lenient P d ∧ numbered d) ↔
        ∀ d ∈ hidden chunks.flatten, ¬ Ends JsonReader.lenient P d ∧ numbered d) :=
  synthesized_tail_iff JsonReader.lenient (some .openaiResponses)
    [utf8 "data: \x7b\"sequence_number\":4\x7d\n", utf8 "\n"] none true false _ (by decide +kernel)

/-- A complete stream that starts with a byte order mark is given a second end. -/
theorem tail_after_marked_done :
    (FinalizerShared.takeSynthesizedTail
      ⟨(new "/v1/chat/completions").observe JsonReader.lenient.decode
        (byteOrderMark ++ utf8 "data: [DONE]\n\n"), none, false, false⟩).2 =
        some (utf8 "data: [DONE]\n\n") ∧
      payloads (byteOrderMark ++ utf8 "data: [DONE]\n\n") = [utf8 "[DONE]"] ∧
      Ends JsonReader.lenient .openaiChat (utf8 "[DONE]") :=
  ⟨by decide +kernel, by decide, .inl ⟨rfl, rfl⟩⟩

end AciGateway.Sse
