import AciGateway.Lib.EventText
import AciGateway.Sse.Tail

/-! The observer of a stream, event by event: what it notes of a whole event, and when two
observers of different streams note the same. -/
namespace AciGateway.Sse

open Octets Json EventStream List

/-! What is noted of a payload. -/

/-- Two payloads say the same of their stream. -/
structure SameSigns (v w : Value) : Prop where
  terminal : ∀ protocol, isTerminal protocol v = isTerminal protocol w
  error : isInbandError v = isInbandError w
  number : sequenceNumber v = sequenceNumber w
  id : (v.get? "id").bind Value.asStr? = (w.get? "id").bind Value.asStr?
  model : (v.get? "model").bind Value.asStr? = (w.get? "model").bind Value.asStr?

theorem SameSigns.refl (v : Value) : SameSigns v v := ⟨fun _ => rfl, rfl, rfl, rfl, rfl⟩

theorem SameSigns.trans {u v w : Value} (h : SameSigns u v) (h' : SameSigns v w) : SameSigns u w :=
  ⟨fun p => (h.terminal p).trans (h'.terminal p), h.error.trans h'.error,
    h.number.trans h'.number, h.id.trans h'.id, h.model.trans h'.model⟩

/-- Two payloads are read alike. -/
def SameReading (decode : Bytes → Option Value) (d d' : Bytes) : Prop :=
  (d = utf8 "[DONE]" ↔ d' = utf8 "[DONE]") ∧ Option.Rel SameSigns (decode d) (decode d')

theorem SameReading.refl (decode : Bytes → Option Value) (d : Bytes) : SameReading decode d d := by
  refine ⟨Iff.rfl, ?_⟩
  cases decode d with
  | none => exact .none
  | some v => exact .some (.refl v)

namespace SseFramingObserver

variable {decode : Bytes → Option Value} {o f g : SseFramingObserver} {l : Bytes}

/-- Between two events, with everything read. -/
structure Resting (o : SseFramingObserver) : Prop where
  line : o.lineBuffer = []
  data : o.eventData = []
  cr : o.pendingCr = false
  mid : o.midEvent = false
  ok : o.observationFailed = false

/-- Two observers have noted the same. -/
structure Agree (f g : SseFramingObserver) : Prop where
  protocol : f.protocol = g.protocol
  chatId : f.chatId = g.chatId
  modelId : f.modelId = g.modelId
  terminal : f.sawTerminal = g.sawTerminal
  error : f.sawError = g.sawError
  number : f.lastSequenceNumber = g.lastSequenceNumber
  failed : f.observationFailed = g.observationFailed

theorem Agree.refl (o : SseFramingObserver) : Agree o o := ⟨rfl, rfl, rfl, rfl, rfl, rfl, rfl⟩

theorem Agree.done (h : Agree f g) : f.done = g.done := by
  unfold SseFramingObserver.done
  rw [h.failed, h.chatId, h.modelId, h.protocol, h.terminal, h.error]

/-- Payloads that are read alike are noted alike. -/
theorem Agree.observePayload (h : Agree f g) {d d' : Bytes} (hd : SameReading decode d d') :
    Agree (f.observePayload decode d) (g.observePayload decode d') := by
  obtain ⟨hdone, hrel⟩ := hd
  unfold SseFramingObserver.observePayload
  dsimp only
  by_cases hmark : d = utf8 "[DONE]"
  · rw [if_pos hmark, if_pos (hdone.mp hmark)]
    exact ⟨h.protocol, h.chatId, h.modelId, by simp [h.terminal, h.protocol], h.error, h.number,
      h.failed⟩
  · rw [if_neg hmark, if_neg (fun h' => hmark (hdone.mpr h'))]
    generalize decode d = r at hrel
    generalize decode d' = r' at hrel
    cases hrel with
    | none => exact ⟨h.protocol, h.chatId, h.modelId, h.terminal, h.error, h.number, h.failed⟩
    | some hsigns =>
      have hp := h.protocol
      dsimp only
      unfold observeTerminal
      cases hf : f.protocol with
      | none =>
        rw [hf] at hp
        simp only [← hp]
        exact ⟨rfl, by simp [h.chatId, hsigns.id], by simp [h.modelId, hsigns.model],
          h.terminal, h.error, by simp [h.number, hsigns.number], h.failed⟩
      | some protocol =>
        rw [hf] at hp
        simp only [← hp]
        exact ⟨rfl, by simp [h.chatId, hsigns.id], by simp [h.modelId, hsigns.model],
          by simp [h.terminal, hsigns.terminal], by simp [h.error, hsigns.error],
          by simp [h.number, hsigns.number], h.failed⟩

/-! Lines. -/

/-- The bytes of an open line are only kept. -/
theorem observe_open (hl : OneLine l) (hdone : ¬ o.done) (hcr : o.pendingCr = false)
    (hcap : o.held + l.length ≤ maxObservedEventBytes) :
    o.observe decode l = { o with lineBuffer := o.lineBuffer ++ l } := by
  induction l generalizing o with
  | nil => simp
  | cons c l ih =>
    have hc : ¬ (c = 13 ∨ c = 10) := by
      rintro (rfl | rfl)
      · exact hl.2 mem_cons_self
      · exact hl.1 mem_cons_self
    have hl' : OneLine l :=
      ⟨fun h => hl.1 (mem_cons_of_mem c h), fun h => hl.2 (mem_cons_of_mem c h)⟩
    have hheld : { o with pendingCr := false, lineBuffer := o.lineBuffer ++ [c] }.held =
        o.held + 1 := by
      simp only [held, length_append, length_singleton]
      omega
    rw [length_cons] at hcap
    have hstep : o.step decode c =
        { o with pendingCr := false, lineBuffer := o.lineBuffer ++ [c] } := by
      have hskip : ¬ (o.pendingCr ∧ c = 10) := fun h => hc (.inr h.2)
      unfold step
      rw [if_neg hskip, if_neg hc]
      dsimp only
      rw [overCap_eq_false (by omega)]
      rfl
    change (if o.done then o else o.step decode c).observe decode l = _
    have hrest := ih (o := { o with pendingCr := false, lineBuffer := o.lineBuffer ++ [c] }) hl'
      hdone rfl (by omega)
    rw [if_neg hdone, hstep, hrest]
    simp [hcr]

variable (decode) in
/-- A whole line is read as one. -/
theorem observe_line (hl : OneLine l) (hdone : ¬ o.done) (hline : o.lineBuffer = [])
    (hcr : o.pendingCr = false) (hcap : o.eventData.length + l.length ≤ maxObservedEventBytes) :
    o.observe decode (l ++ [10]) = o.observeLine decode l := by
  have hopen : o.observe decode l = { o with lineBuffer := l } := by
    rw [observe_open hl hdone hcr (by simp [held, hline]; omega), hline, nil_append]
  have hsame : { o with pendingCr := false, lineBuffer := [] } = o := by rw [← hcr, ← hline]
  have hlen := length_observeLine decode o l
  have hbuf := observeLine_lineBuffer decode o l
  have hdone' : ¬ { o with lineBuffer := l }.done := hdone
  rw [observe_concat, hopen, if_neg hdone']
  unfold step
  rw [if_neg (by simp [hcr]), if_pos (.inr rfl)]
  dsimp only
  rw [show (decide ((10 : UInt8) = 13)) = false from rfl, hsame,
    overCap_eq_false (by simp only [held, hbuf, hline, length_nil]; omega)]
  simp

variable (decode) in
/-- A line that is not blank adds its value, if it has one, to the event. -/
theorem observeLine_of_ne (o : SseFramingObserver) (hl : l ≠ []) :
    ∃ mid, o.observeLine decode l =
      { o with midEvent := mid, eventData := o.eventData ++ buffered (dataValue l).toList } := by
  unfold observeLine
  rw [if_neg hl]
  split
  · next hc => exact ⟨o.midEvent, by simp [dataValue_of_comment hc, buffered]⟩
  · refine ⟨true, ?_⟩
    cases dataValue l <;> simp [buffered]

/-- What an event leaves, by the values of its `data` fields. -/
def observeEvent (decode : Bytes → Option Value) (o : SseFramingObserver) (values : List Bytes) :
    SseFramingObserver :=
  (joined values).elim o (o.observePayload decode)

theorem observePayload_midEvent (o : SseFramingObserver) (data : Bytes) (mid : Bool) :
    { o with midEvent := mid }.observePayload decode data =
      { o.observePayload decode data with midEvent := mid } := by
  unfold observePayload observeTerminal
  split
  · rfl
  · cases decode data with
    | none => rfl
    | some parsed => cases o with | mk protocol => cases protocol <;> rfl

variable (decode) in
theorem observeLine_nil_midEvent (o : SseFramingObserver) (mid : Bool) :
    { o with midEvent := mid }.observeLine decode [] = o.observeLine decode [] := by
  unfold observeLine dispatchEvent
  rw [if_pos rfl, if_pos rfl]
  split
  · rfl
  · rw [observePayload_midEvent { o with eventData := [] } _ mid]

theorem observe_lines (ls : List Bytes) (hls : ∀ l ∈ ls, l ≠ [] ∧ OneLine l) (hdone : ¬ o.done)
    (hline : o.lineBuffer = []) (hcr : o.pendingCr = false)
    (hcap : o.eventData.length + (block ls).length ≤ maxObservedEventBytes) :
    o.observe decode (block ls) =
      { o with eventData := o.eventData ++ buffered (ls.filterMap dataValue) }.observeLine decode
        [] := by
  induction ls generalizing o with
  | nil =>
    have hblank := observe_line decode (l := []) ⟨by simp, by simp⟩ hdone hline hcr (by simp; omega)
    simpa [block, buffered] using hblank
  | cons l ls ih =>
    rw [forall_mem_cons] at hls
    have hsplit : block (l :: ls) = l ++ [10] ++ block ls := by simp [block]
    have hlen : (block (l :: ls)).length = l.length + 1 + (block ls).length := by
      rw [hsplit, length_append, length_append, length_singleton]
    obtain ⟨mid, hread⟩ := observeLine_of_ne decode o hls.1.1
    have hgrow := length_observeLine decode o l
    rw [hsplit, observe_append, observe_line decode hls.1.2 hdone hline hcr (by omega)]
    rw [hread] at hgrow ⊢
    dsimp only at hgrow
    have hrest := ih (o := { o with
      midEvent := mid, eventData := o.eventData ++ buffered (dataValue l).toList })
      hls.2 hdone hline hcr (by dsimp only; omega)
    have hmid := observeLine_nil_midEvent decode
      { o with eventData := o.eventData ++ buffered ((l :: ls).filterMap dataValue) } mid
    rw [hrest, ← hmid]
    cases hv : dataValue l <;> simp [hv, buffered]

theorem dispatchEvent_eq (o : SseFramingObserver) (hdata : o.eventData = []) (values : List Bytes) :
    { o with eventData := buffered values }.dispatchEvent decode = o.observeEvent decode values := by
  have hsame : { o with eventData := [] } = o := by rw [← hdata]
  unfold dispatchEvent observeEvent joined
  by_cases hv : values = []
  · rw [if_pos (by rw [hv]; rfl), if_pos hv, hv]
    exact hsame
  · rw [if_neg (by simpa [buffered_eq_nil] using hv), if_neg hv]
    have hlast : (if (buffered values).getLast? = some 10 then (buffered values).dropLast
        else buffered values) = intercalate [10] values := by
      simp [buffered_eq values hv]
    dsimp only
    rw [hlast, hsame]
    rfl

/-- Between events an observer that still reads notes the payload of the next one. -/
theorem observe_block {ls : List Bytes} (h : o.Resting) (hdone : ¬ o.done)
    (hls : ∀ l ∈ ls, l ≠ [] ∧ OneLine l) (hcap : (block ls).length ≤ maxObservedEventBytes) :
    o.observe decode (block ls) = o.observeEvent decode (ls.filterMap dataValue) := by
  rw [observe_lines ls hls hdone h.line h.cr (by simpa [h.data] using hcap), h.data,
    nil_append, observeLine, if_pos rfl, dispatchEvent_eq o h.data]
  unfold observeEvent
  cases joined (ls.filterMap dataValue) with
  | none =>
    have hmid := h.mid
    cases o
    simp_all
  | some d =>
    obtain ⟨chat, model, t, e, n, heq⟩ := observePayload_eq decode o d
    have hmid := h.mid
    dsimp only [Option.elim_some]
    rw [heq]
    cases o
    simp_all

theorem Resting.observePayload (h : o.Resting) (d : Bytes) :
    (o.observePayload decode d).Resting := by
  obtain ⟨chat, model, t, e, n, heq⟩ := observePayload_eq decode o d
  rw [heq]
  exact ⟨h.line, h.data, h.cr, h.mid, h.ok⟩

theorem step_protocol (o : SseFramingObserver) (c : UInt8) :
    (o.step decode c).protocol = o.protocol := by
  have hline (b : Bytes) (p : Bool) :
      ({ o with pendingCr := p, lineBuffer := [] }.observeLine decode b).protocol = o.protocol :=
    observeLine_protocol _ b
  unfold step
  split
  · rfl
  · split
    · dsimp only
      split
      · exact hline _ _
      · split
        · exact hline _ _
        · exact hline _ _
    · dsimp only
      split <;> rfl

theorem observe_protocol (o : SseFramingObserver) (b : Bytes) :
    (o.observe decode b).protocol = o.protocol := by
  induction b using reverseRecOn with
  | nil => rfl
  | append_singleton b c ih =>
    rw [observe_concat]
    split
    · exact ih
    · rw [step_protocol, ih]

variable (decode) in
/-- Two observers that agree still do after events with payloads that are read alike. -/
theorem Agree.observe_block {ls ls' : List Bytes} (h : Agree f g) (hf : f.Resting) (hg : g.Resting)
    (hls : ∀ l ∈ ls, l ≠ [] ∧ OneLine l) (hls' : ∀ l ∈ ls', l ≠ [] ∧ OneLine l)
    (hcap : (block ls).length ≤ maxObservedEventBytes)
    (hcap' : (block ls').length ≤ maxObservedEventBytes)
    (hread : Option.Rel (SameReading decode) (joined (ls.filterMap dataValue))
      (joined (ls'.filterMap dataValue))) :
    Agree (f.observe decode (block ls)) (g.observe decode (block ls')) ∧
      (f.observe decode (block ls)).Resting ∧ (g.observe decode (block ls')).Resting := by
  by_cases hdone : f.done
  · have hdone' : g.done := h.done ▸ hdone
    rw [observe_of_done hdone, observe_of_done hdone']
    exact ⟨h, hf, hg⟩
  · have hdone' : ¬ g.done := h.done ▸ hdone
    rw [SseFramingObserver.observe_block hf hdone hls hcap,
      SseFramingObserver.observe_block hg hdone' hls' hcap']
    unfold observeEvent
    generalize joined (ls.filterMap dataValue) = r at hread
    generalize joined (ls'.filterMap dataValue) = r' at hread
    cases hread with
    | none => exact ⟨h, hf, hg⟩
    | some hd => exact ⟨h.observePayload hd, hf.observePayload _, hg.observePayload _⟩

/-- A comment between events leaves no trace. -/
theorem observe_comment (h : o.Resting) (hl : OneLine l) (hc : l.head? = some 58)
    (hcap : (block [l]).length ≤ maxObservedEventBytes) : o.observe decode (block [l]) = o := by
  by_cases hdone : o.done
  · exact observe_of_done hdone _
  · have hne : l ≠ [] := fun hnil => by simp [hnil] at hc
    rw [SseFramingObserver.observe_block h hdone (by simp [hne, hl]) hcap]
    simp [observeEvent, dataValue_of_comment hc, joined]

end SseFramingObserver

end AciGateway.Sse
