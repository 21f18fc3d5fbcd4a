import AciGateway.Transform.ChatStream

/-! Whole runs of the reader: what every step keeps of a writer holds of all that is written. -/
namespace AciGateway.Transform

open Octets Json ChatStream List

/-! What an upstream has said. -/

/-- Where the writer stands. -/
inductive Phase where
  | idle
  | between
  | inText (kind : TextKind) (text : String)
  | ended

/-- What the writer has been told. -/
structure Told where
  said : List (TextKind × String) := []
  calls : List (ChatToolCall × Bool) := []
  outcome : Option (Outcome × Option Value) := none

/-- What the reader has gathered beside the texts. -/
structure Reading where
  responseId : String := ""
  answered : Bool := false
  tools : ToolCalls := {}
  finishReason : Option String := none
  usage : Option Value := none
  error : Option Value := none

namespace Reading

def noteChunk (fallbackId : String) (value : Value) (r : Reading) : Reading :=
  let c := parseChatChunk value
  { responseId :=
      if r.responseId = "" then
        (((value.get? "id").bind Value.asStr?).filter (· ≠ "")).getD fallbackId
      else r.responseId
    answered := r.answered || c.hasChoice
    tools := c.toolCalls.foldl ToolCalls.toolDelta r.tools
    finishReason := c.finishReason.or r.finishReason
    usage := (c.usage.map normalizeReasoningUsageValue).or r.usage
    error := c.error.or r.error }

def named (r : Reading) : List ChatToolCall := writtenCalls r.responseId r.tools.calls.values

def truncated (r : Reading) : Bool := (ChatFinish.parse r.finishReason).truncated

/-- The turn came to calls that none can run. -/
def Unusable (r : Reading) : Prop := r.named = [] ∧ r.tools.calls.values ≠ [] ∧ ¬ r.truncated

instance (r : Reading) : Decidable r.Unusable :=
  inferInstanceAs (Decidable (_ ∧ _ ∧ _))

/-- What the writer is told at the end, after the texts. -/
def conclusion (runs : ChatToolCall → Bool → Bool) (r : Reading)
    (said : List (TextKind × String)) : Told :=
  match r.error with
  | some error => { said, outcome := some (.failed (.upstream error), r.usage) }
  | none =>
    if r.answered then
      { said
        calls := r.named.map (·, r.truncated)
        outcome := some
          (if r.Unusable then .failed .unusableToolCalls
            else .finished (ChatFinish.parse r.finishReason)
              (r.named.any fun call => runs call r.truncated), r.usage) }
    else { said, outcome := some (.failed .empty, r.usage) }

end Reading

/-- The chunks an upstream sends before the end of its stream. -/
def chunks (decode : Bytes → Option Value) : List ParsedEvent → List Value
  | [] => []
  | event :: events =>
    if event.payload = "[DONE]" then []
    else if event.payload = "" then chunks decode events
    else
      match decode (utf8 event.payload) with
      | none => []
      | some value => value :: chunks decode events

/-- The texts of a chunk. -/
def deltas (value : Value) : List (TextKind × String) :=
  (ChatStream.chunkTexts (parseChatChunk value)).filter (·.2 ≠ "")

/-! What every step keeps. -/

/-- A property of a writer that each of its steps keeps, in the order the reader takes them. -/
structure Keeps {E : Type} [ChatEvents E] (runs : ChatToolCall → Bool → Bool)
    (P : Phase → Told → E → List SseEvent → Prop) : Prop where
  start : ∀ {told e out} chunk {fallbackId : String}, fallbackId ≠ "" → P .idle told e out →
    ∃ e' evs, ChatEvents.start e chunk fallbackId = some (e', evs) ∧ P .between told e' (out ++ evs)
  usage : ∀ {phase told e out} usage, P phase told e out → P phase told (ChatEvents.usage e usage) out
  openText : ∀ {told e out} kind, P .between told e out →
    ∃ e' evs, ChatEvents.openText e kind = some (e', evs) ∧ P (.inText kind "") told e' (out ++ evs)
  textDelta : ∀ {told e out kind text delta}, P (.inText kind text) told e out →
    ∃ e' evs, ChatEvents.textDelta e kind delta = some (e', evs) ∧
      P (.inText kind (text ++ delta)) { told with said := told.said ++ [(kind, delta)] } e' (out ++ evs)
  annotation : ∀ {told e out text} annotation, P (.inText .text text) told e out →
    ∃ e' evs, ChatEvents.annotation e annotation = some (e', evs) ∧
      P (.inText .text text) told e' (out ++ evs)
  closeText : ∀ {told e out kind text} finished, P (.inText kind text) told e out →
    ∃ e' evs, ChatEvents.closeText e kind text finished = some (e', evs) ∧
      P .between told e' (out ++ evs)
  toolCall : ∀ {told e out} call truncated, P .between told e out →
    ∃ e' evs, ChatEvents.toolCall e call truncated = some ((e', evs), runs call truncated) ∧
      P .between { told with calls := told.calls ++ [(call, truncated)] } e' (out ++ evs)
  finish : ∀ {told e out} outcome usage, P .between told e out →
    ∃ e' evs, ChatEvents.finish e outcome usage = some (e', evs) ∧
      P .ended { told with outcome := some (outcome, usage) } e' (out ++ evs)

variable {evs : List SseEvent}

namespace ChatStream

variable {E : Type} [ChatEvents E] {runs : ChatToolCall → Bool → Bool}
  {P : Phase → Told → E → List SseEvent → Prop} {s s' : ChatStream E} {told : Told}
  {out : List SseEvent} {kind : TextKind}

def reading (s : ChatStream E) : Reading :=
  ⟨s.responseId, s.answered, s.tools, s.finishReason, s.usage, s.error⟩

omit [ChatEvents E] in
@[simp] theorem reading_usage : s.reading.usage = s.usage := rfl

omit [ChatEvents E] in
@[simp] theorem reading_error : s.reading.error = s.error := rfl

omit [ChatEvents E] in
@[simp] theorem reading_answered : s.reading.answered = s.answered := rfl

omit [ChatEvents E] in
@[simp] theorem reading_finishReason : s.reading.finishReason = s.finishReason := rfl

def textPhase (s : ChatStream E) : Phase :=
  match s.openKind with
  | none => .between
  | some kind => .inText kind s.text

/-- The property holds of the writer of a response that has begun. -/
structure Running (P : Phase → Told → E → List SseEvent → Prop) (told : Told)
    (out : List SseEvent) (s : ChatStream E) : Prop where
  holds : P s.textPhase told s.events out
  resting : s.openKind = none → s.text = ""

/-- A step of the reader goes through, keeps the property, and gathers nothing. -/
def Goes (P : Phase → Told → E → List SseEvent → Prop) (told : Told) (out : List SseEvent)
    (s : ChatStream E) (r : Written (ChatStream E)) : Prop :=
  ∃ s' evs, r = some (s', evs) ∧ Running P told (out ++ evs) s' ∧ s'.reading = s.reading ∧
    s'.terminated = s.terminated

omit [ChatEvents E] in
theorem Goes.refl (h : Running P told out s) : Goes P told out s (some (s, [])) :=
  ⟨s, [], rfl, by rwa [append_nil], rfl, rfl⟩

omit [ChatEvents E] in
theorem Goes.andThen {r : Written (ChatStream E)} {f : ChatStream E → Written (ChatStream E)}
    {told' : Told} (h : Goes P told out s r)
    (hf : ∀ s' evs, r = some (s', evs) → Running P told (out ++ evs) s' →
      Goes P told' (out ++ evs) s' (f s')) : Goes P told' out s (r.andThen f) := by
  obtain ⟨s', evs, rfl, hrun, hread, hterm⟩ := h
  obtain ⟨s'', evs', hf', hrun', hread', hterm'⟩ := hf s' evs rfl hrun
  refine ⟨s'', evs ++ evs', by simp [Written.andThen, hf'], ?_, hread'.trans hread,
    hterm'.trans hterm⟩
  rwa [← append_assoc]

omit [ChatEvents E] in
theorem goes_write {r : Option (E × List SseEvent)} {e' : E}
    (hr : r = some (e', evs)) (hrun : Running P told (out ++ evs) { s' with events := e' })
    (hread : s'.reading = s.reading) (hterm : s'.terminated = s.terminated) :
    Goes P told out s (s'.write r) :=
  ⟨{ s' with events := e' }, evs, by simp only [write, hr, Option.map_some], hrun, hread, hterm⟩

theorem goes_closeText (hP : Keeps runs P) (finished : Bool) (h : Running P told out s) :
    Goes P told out s (s.closeText finished) := by
  unfold closeText
  cases hopen : s.openKind with
  | none => exact Goes.refl h
  | some kind =>
    have hholds := h.holds
    rw [textPhase, hopen] at hholds
    obtain ⟨e', evs, hclose, hafter⟩ := hP.closeText finished hholds
    exact goes_write hclose ⟨hafter, fun _ => rfl⟩ rfl rfl

theorem closeText_openKind {finished : Bool}
    (h : s.closeText finished = some (s', evs)) : s'.openKind = none := by
  unfold closeText at h
  cases hopen : s.openKind with
  | none =>
    rw [hopen] at h
    obtain ⟨rfl, -⟩ := Prod.mk.inj (Option.some.inj h)
    exact hopen
  | some kind =>
    rw [hopen] at h
    obtain ⟨after, -, hs⟩ := Option.map_eq_some_iff.mp h
    exact (Prod.mk.inj hs).1 ▸ rfl

theorem goes_openText (hP : Keeps runs P) (kind : TextKind) (h : Running P told out s)
    (hopen : s.openKind = none) : Goes P told out s (s.openText kind) := by
  have hholds := h.holds
  rw [textPhase, hopen] at hholds
  obtain ⟨e', evs, hwrite, hafter⟩ := hP.openText kind hholds
  refine goes_write hwrite ⟨?_, by rintro ⟨⟩⟩ rfl rfl
  simpa only [textPhase, h.resting hopen] using hafter

theorem openText_openKind (evs : List SseEvent)
    (h : s.openText kind = some (s', evs)) : s'.openKind = some kind := by
  obtain ⟨after, -, hs⟩ := Option.map_eq_some_iff.mp h
  exact (Prod.mk.inj hs).1 ▸ rfl

theorem goes_textDelta (hP : Keeps runs P) (delta : String)
    (h : Running P told out s) (hopen : s.openKind = some kind) :
    Goes P { told with said := told.said ++ [(kind, delta)] } out s (s.textDelta kind delta) := by
  have hholds := h.holds
  rw [textPhase, hopen] at hholds
  obtain ⟨e', evs, hwrite, hafter⟩ := @Keeps.textDelta _ _ _ _ hP _ _ _ _ _ delta hholds
  refine goes_write hwrite ⟨?_, ?_⟩ rfl rfl
  · simpa only [textPhase, hopen] using hafter
  · intro hnone
    rw [hopen] at hnone
    cases hnone

theorem goes_pushText (hP : Keeps runs P) (kind : TextKind) (delta : String)
    (h : Running P told out s) :
    Goes P { told with said := told.said ++ [(kind, delta)] } out s (s.pushText kind delta) := by
  unfold pushText
  by_cases hopen : s.openKind = some kind
  · rw [if_pos hopen]
    refine (Goes.refl h).andThen ?_
    rintro s' evs heq hrun
    obtain ⟨rfl, rfl⟩ := Prod.mk.inj (Option.some.inj heq)
    exact goes_textDelta hP delta hrun hopen
  · rw [if_neg hopen]
    have hreopened : Goes P told out s (Written.andThen (s.closeText true) fun s' => s'.openText kind) := by
      refine (goes_closeText hP true h).andThen ?_
      intro s' evs heq hrun
      exact goes_openText hP kind hrun (closeText_openKind heq)
    refine hreopened.andThen ?_
    intro s' evs heq hrun
    refine goes_textDelta hP delta hrun ?_
    obtain ⟨before, -, hmap⟩ := Option.bind_eq_some_iff.mp heq
    obtain ⟨after, hafter, hs⟩ := Option.map_eq_some_iff.mp hmap
    obtain ⟨rfl, -⟩ := Prod.mk.inj hs
    exact openText_openKind after.2 hafter

theorem goes_annotate (hP : Keeps runs P) (annotations : List Value) (h : Running P told out s)
    (hopen : s.openKind = some .text) : Goes P told out s (s.annotate annotations) := by
  induction annotations generalizing s out with
  | nil => exact Goes.refl h
  | cons annotation annotations ih =>
    have hholds := h.holds
    rw [textPhase, hopen] at hholds
    obtain ⟨e', evs, hwrite, hafter⟩ := hP.annotation annotation hholds
    have hgoes : Goes P told out s (s.write ( ChatEvents.annotation s.events annotation)) := by
      refine goes_write hwrite ⟨?_, h.resting⟩ rfl rfl
      simpa only [textPhase, hopen] using hafter
    refine hgoes.andThen ?_
    intro s' evs' heq hrun
    obtain ⟨after, -, hs⟩ := Option.map_eq_some_iff.mp heq
    exact ih hrun ((Prod.mk.inj hs).1 ▸ hopen)

theorem goes_pushTexts (hP : Keeps runs P) (texts : List (TextKind × String))
    (annotations : List Value) (h : Running P told out s) :
    Goes P { told with said := told.said ++ texts.filter (·.2 ≠ "") } out s
      (s.pushTexts texts annotations) := by
  induction texts generalizing s out told annotations with
  | nil => simpa [pushTexts] using Goes.refl h
  | cons x texts ih =>
    obtain ⟨kind, text⟩ := x
    -- The text itself, if there is one.
    have hfirst : Goes P { told with said := told.said ++ [(kind, text)].filter (·.2 ≠ "") } out s
        (if text = "" then some (s, []) else s.pushText kind text) := by
      by_cases htext : text = ""
      · simpa [htext] using Goes.refl h
      · simpa [htext] using goes_pushText hP kind text h
    have hsaid : told.said ++ ((kind, text) :: texts).filter (·.2 ≠ "") =
        told.said ++ [(kind, text)].filter (·.2 ≠ "") ++ texts.filter (·.2 ≠ "") := by
      rw [append_assoc, ← filter_append, singleton_append]
    rw [hsaid, pushTexts]
    refine hfirst.andThen ?_
    intro s' evs _ hrun
    by_cases hopen : s'.openKind = some .text
    · rw [if_pos hopen]
      exact (goes_annotate hP annotations hrun hopen).andThen fun s'' evs' _ hrun' => ih [] hrun'
    · rw [if_neg hopen]
      exact ih annotations hrun

/-! One chunk. -/

/-- The property holds of the writer, wherever it stands. -/
structure Sat (P : Phase → Told → E → List SseEvent → Prop) (told : Told) (out : List SseEvent)
    (s : ChatStream E) : Prop where
  ended : s.terminated → P .ended told s.events out
  idle : ¬ s.terminated → s.responseId = "" →
    P .idle told s.events out ∧ s.openKind = none ∧ s.text = ""
  running : ¬ s.terminated → s.responseId ≠ "" → Running P told out s

variable {fallbackId : String} (c : ChatChunk)

theorem begin_spec (hP : Keeps runs P) (hfallback : fallbackId ≠ "") (value : Value)
    (h : Sat P told out s) (hterm : ¬ s.terminated) :
    ∃ s' evs, s.begin value fallbackId = some (s', evs) ∧ Running P told (out ++ evs) s' ∧
      s'.terminated = s.terminated ∧ s'.reading = { s.reading with responseId :=
        if s.responseId = "" then
          (((value.get? "id").bind Value.asStr?).filter (· ≠ "")).getD fallbackId
        else s.responseId } := by
  unfold begin
  by_cases hid : s.responseId = ""
  · obtain ⟨hholds, hopen, htext⟩ := h.idle hterm hid
    obtain ⟨e', evs, hwrite, hafter⟩ := hP.start value hfallback hholds
    rw [if_neg (by simp [started, hid]), if_pos hid]
    refine ⟨_, evs, congrArg (Option.map _) hwrite, ⟨?_, fun _ => htext⟩, rfl, rfl⟩
    simpa only [textPhase, hopen] using hafter
  · rw [if_pos (by simp [started, hid]), if_neg hid]
    refine ⟨s, [], rfl, ?_, rfl, rfl⟩
    rw [append_nil]
    exact h.running hterm hid

theorem running_noteChunk (hP : Keeps runs P) (c : ChatChunk) (h : Running P told out s) :
    Running P told out (s.noteChunk c) := by
  unfold noteChunk noteUsage
  cases c.usage with
  | none => exact ⟨h.holds, h.resting⟩
  | some usage => exact ⟨hP.usage _ h.holds, h.resting⟩

theorem reading_noteChunk (s : ChatStream E) :
    (s.noteChunk c).reading = { s.reading with
      answered := s.answered || c.hasChoice
      usage := (c.usage.map normalizeReasoningUsageValue).or s.usage
      error := c.error.or s.error } := by
  unfold noteChunk noteUsage
  cases c.usage <;> rfl

theorem terminated_noteChunk (s : ChatStream E) : (s.noteChunk c).terminated = s.terminated := by
  unfold noteChunk noteUsage
  cases c.usage <;> rfl

omit [ChatEvents E] in
/-- Tool calls are gathered apart from the texts. -/
theorem foldl_toolDelta (ds : List ToolCallDelta) (s : ChatStream E) : ∃ called,
    ds.foldl toolDelta s =
      { s with tools := ds.foldl ToolCalls.toolDelta s.tools, calledAfterText := called } := by
  induction ds generalizing s with
  | nil => exact ⟨s.calledAfterText, rfl⟩
  | cons d ds ih =>
    have hstep : ∃ called, s.toolDelta d =
        { s with tools := s.tools.toolDelta d, calledAfterText := called } := by
      unfold toolDelta ToolCalls.toolDelta
      cases s.tools.choose d with
      | none => exact ⟨s.calledAfterText, rfl⟩
      | some slot => exact ⟨true, rfl⟩
    obtain ⟨called, hstep⟩ := hstep
    obtain ⟨called', hrest⟩ := ih (s.toolDelta d)
    refine ⟨called', ?_⟩
    rw [foldl_cons, foldl_cons, hrest, hstep]

theorem chunk_spec (hP : Keeps runs P) (hfallback : fallbackId ≠ "") (value : Value)
    (h : Sat P told out s) (hterm : ¬ s.terminated) :
    ∃ s' evs, s.chunk value fallbackId = some (s', evs) ∧
      Running P { told with said := told.said ++ deltas value } (out ++ evs) s' ∧
      ¬ s'.terminated ∧ s'.reading = s.reading.noteChunk fallbackId value := by
  obtain ⟨s₁, evs₁, hbegin, hrun₁, hterm₁, hread₁⟩ := begin_spec hP hfallback value h hterm
  obtain ⟨s₂, evs₂, hpush, hrun₂, hread₂, hterm₂⟩ :=
    goes_pushTexts hP (chunkTexts (parseChatChunk value)) (parseChatChunk value).annotations
      (running_noteChunk hP (parseChatChunk value) hrun₁)
  obtain ⟨called, hcalls⟩ := foldl_toolDelta (parseChatChunk value).toolCalls s₂
  refine ⟨s₂.noteCalls (parseChatChunk value), evs₁ ++ evs₂, ?_, ⟨?_, ?_⟩, ?_, ?_⟩
  · simp [chunk, Written.andThen, hbegin, hpush]
  · rw [← append_assoc, noteCalls, hcalls]
    exact hrun₂.holds
  · rw [noteCalls, hcalls]
    exact hrun₂.resting
  · rw [noteCalls, hcalls]
    rw [hterm₂, terminated_noteChunk, hterm₁]
    exact hterm
  · have hgathered : (s₂.noteCalls (parseChatChunk value)).reading = { s₂.reading with
        tools := (parseChatChunk value).toolCalls.foldl ToolCalls.toolDelta s₂.reading.tools
        finishReason := (parseChatChunk value).finishReason.or s₂.reading.finishReason } := by
      rw [noteCalls, hcalls]
      rfl
    rw [hgathered, hread₂, reading_noteChunk]
    have hfields : s₁.answered = s.answered ∧ s₁.usage = s.usage ∧ s₁.error = s.error :=
      ⟨congrArg Reading.answered hread₁, congrArg Reading.usage hread₁,
        congrArg Reading.error hread₁⟩
    rw [hfields.1, hfields.2.1, hfields.2.2, hread₁]
    rfl

/-! The end. -/

theorem writeCalls_spec (hP : Keeps runs P) (truncated : Bool) (calls : List ChatToolCall)
    (h : P .between told s.events out) :
    ∃ e' evs, s.writeCalls truncated calls =
        some (({ s with events := e' }, evs), calls.any (runs · truncated)) ∧
      P .between { told with calls := told.calls ++ calls.map (·, truncated) } e' (out ++ evs) := by
  induction calls generalizing s out told with
  | nil => exact ⟨s.events, [], rfl, by simpa using h⟩
  | cons call calls ih =>
    obtain ⟨e₁, evs₁, hcall, hafter⟩ := hP.toolCall call truncated h
    obtain ⟨e₂, evs₂, hrest, hafter'⟩ := ih (s := { s with events := e₁ }) hafter
    refine ⟨e₂, evs₁ ++ evs₂, ?_, ?_⟩
    · simp [writeCalls, hcall, hrest]
    · simpa using hafter'

theorem writeOutcome_spec (hP : Keeps runs P) (outcome : Outcome)
    (h : P .between told s.events out) :
    ∃ e' evs, s.writeOutcome outcome = some ({ s with events := e' }, evs) ∧
      P .ended { told with outcome := some (outcome, s.usage) } e' (out ++ evs) := by
  obtain ⟨e', evs, hwrite, hafter⟩ := hP.finish outcome s.usage h
  exact ⟨e', evs, by simp only [writeOutcome, write, hwrite, Option.map_some], hafter⟩

theorem conclude_of_answered (herror : s.error = none) (hanswered : s.answered) :
    s.conclude = (s.writeCalls s.reading.truncated s.reading.named).bind fun r =>
      Written.andThen (some r.1) (writeOutcome
        (if s.reading.Unusable then .failed .unusableToolCalls
          else .finished (ChatFinish.parse s.finishReason) r.2)) := by
  simp only [conclude, herror, hanswered, Bool.not_true, Bool.false_eq_true, if_false]
  rfl

theorem conclude_spec (hP : Keeps runs P) {said : List (TextKind × String)}
    (h : P .between { said } s.events out) :
    ∃ e' evs, s.conclude = some ({ s with events := e' }, evs) ∧
      P .ended (s.reading.conclusion runs said) e' (out ++ evs) := by
  rcases Option.eq_none_or_eq_some s.error with herror | ⟨error, herror⟩
  · by_cases hanswered : s.answered
    · obtain ⟨e₁, evs₁, hcalls, hafter⟩ :=
        writeCalls_spec hP s.reading.truncated s.reading.named h
      obtain ⟨e₂, evs₂, hwrite, hafter'⟩ := writeOutcome_spec hP (s := { s with events := e₁ })
        (if s.reading.Unusable then .failed .unusableToolCalls
          else .finished (ChatFinish.parse s.finishReason)
            (s.reading.named.any fun call => runs call s.reading.truncated)) hafter
      refine ⟨e₂, evs₁ ++ evs₂, ?_, ?_⟩
      · rw [conclude_of_answered herror hanswered, hcalls]
        simp only [Written.andThen, Option.bind_some, hwrite, Option.map_some]
      · simpa [Reading.conclusion, herror, hanswered] using hafter'
    · obtain ⟨e', evs, hwrite, hafter⟩ := writeOutcome_spec hP (.failed .empty) h
      refine ⟨e', evs, ?_, ?_⟩
      · rw [← hwrite]
        simp [conclude, herror, hanswered]
      · simpa [Reading.conclusion, herror, hanswered] using hafter
  · obtain ⟨e', evs, hwrite, hafter⟩ := writeOutcome_spec hP (.failed (.upstream error)) h
    refine ⟨e', evs, ?_, ?_⟩
    · rw [← hwrite]
      simp [conclude, herror]
    · simpa [Reading.conclusion, herror] using hafter

theorem finish_spec (hP : Keeps runs P) {said : List (TextKind × String)}
    (h : Running P { said } out s) (hterm : ¬ s.terminated) (hstarted : s.responseId ≠ "") :
    ∃ s' evs, s.finish = .ok s' evs ∧ s'.terminated ∧
      P .ended (s.reading.conclusion runs said) s'.events (out ++ evs) := by
  obtain ⟨s₁, evs₁, hclose, hrun, hread, hterm'⟩ := goes_closeText hP
    (s := { s with terminated := true })
    (!(ChatFinish.parse s.finishReason).truncated || s.calledAfterText) ⟨h.holds, h.resting⟩
  have hholds := hrun.holds
  rw [textPhase, closeText_openKind hclose] at hholds
  obtain ⟨e₂, evs₂, hconclude, hafter⟩ := conclude_spec hP hholds
  refine ⟨{ s₁ with events := e₂ }, evs₁ ++ evs₂, ?_, hterm', ?_⟩
  · rw [finish, if_neg hterm, if_neg (by simp [started, hstarted])]
    simp [Written.andThen, hclose, hconclude]
  · rw [hread, append_assoc] at hafter
    exact hafter

end ChatStream

/-! Whole streams. -/

section

variable {E : Type} [ChatEvents E] {runs : ChatToolCall → Bool → Bool}
  {P : Phase → Told → E → List SseEvent → Prop} {s : ChatStream E} {out : List SseEvent}
  {fallbackId : String} {decode : Bytes → Option Value} {ending : StreamEnd}
  {said : List (TextKind × String)} {r : List SseEvent × Fate} {reading : Reading}

theorem Reading.said_conclusion (r : Reading) : (r.conclusion runs said).said = said := by
  unfold conclusion
  split
  · rfl
  · split <;> rfl

/-- After the end nothing is written. -/
theorem bridgeFrom_of_terminated (events : List ParsedEvent) (h : s.terminated) :
    bridgeFrom decode fallbackId ending s events =
      ([], if ending = .ended then .completed else .failed) := by
  induction events with
  | nil =>
    cases ending with
    | ended => simp [bridgeFrom, ChatStream.endOfStream, h]
    | failed => rfl
  | cons event events ih =>
    have hevent : s.event decode fallbackId event = .ok s [] := by
      unfold ChatStream.event
      split
      · simp [ChatStream.finish, h]
      · rw [if_pos (.inr h)]
    simp [bridgeFrom, hevent, ih]

/-- Where the property stands when nothing more is written, and what came of the stream. -/
def Closes (runs : ChatToolCall → Bool → Bool) (P : Phase → Told → E → List SseEvent → Prop)
    (r : List SseEvent × Fate) (out : List SseEvent) (said : List (TextKind × String))
    (reading : Reading) : Prop :=
  r.2 ≠ .panicked ∧ ∃ phase told e, P phase told e (out ++ r.1) ∧ told.said = said ∧
    (r.2 = .completed → phase = .ended ∧ told = reading.conclusion runs said)

omit [ChatEvents E] in
theorem closes_open
    (h : Sat P { said } out s) (hterm : ¬ s.terminated) (hr : r = ([], .failed)) :
    Closes runs P r out said reading := by
  subst hr
  refine ⟨by rintro ⟨⟩, ?_⟩
  rw [append_nil]
  by_cases hid : s.responseId = ""
  · exact ⟨.idle, { said }, s.events, (h.idle hterm hid).1, rfl, by rintro ⟨⟩⟩
  · exact ⟨s.textPhase, { said }, s.events, (h.running hterm hid).holds, rfl, by rintro ⟨⟩⟩

omit [ChatEvents E] in
theorem closes_ended {e : E}
    (h : P .ended (reading.conclusion runs said) e (out ++ evs)) (hr : r.1 = evs)
    (hfate : r.2 ≠ .panicked) : Closes runs P r out said reading :=
  ⟨hfate, .ended, _, e, hr ▸ h, Reading.said_conclusion _, fun _ => ⟨rfl, rfl⟩⟩

/-- What the reader has gathered after some chunks. -/
def gathered (fallbackId : String) (r : Reading) (values : List Value) : Reading :=
  values.foldl (fun r value => r.noteChunk fallbackId value) r

/-- A stream that has not begun cannot end, and one that has ends with its conclusion. -/
theorem finish_cases (hP : Keeps runs P) (h : Sat P { said } out s)
    (hterm : ¬ s.terminated) : s.finish = .rejected ∨
      ∃ s' evs, s.finish = .ok s' evs ∧ s'.terminated ∧
        P .ended (s.reading.conclusion runs said) s'.events (out ++ evs) := by
  by_cases hid : s.responseId = ""
  · simp [finish, hterm, started, hid]
  · exact .inr (finish_spec hP (h.running hterm hid) hterm hid)

theorem bridgeFrom_spec (hP : Keeps runs P) (hfallback : fallbackId ≠ "")
    (events : List ParsedEvent) (h : ChatStream.Sat P { said } out s) (hterm : ¬ s.terminated) :
    Closes runs P (bridgeFrom decode fallbackId ending s events) out
      (said ++ (chunks decode events).flatMap deltas)
      (gathered fallbackId s.reading (chunks decode events)) := by
  induction events generalizing s said out with
  | nil =>
    simp only [chunks, flatMap_nil, append_nil, gathered, foldl_nil, bridgeFrom]
    cases ending with
    | failed => exact closes_open h hterm rfl
    | ended =>
      by_cases hearly : s.finishReason = none ∧ s.error.isNone
      · refine closes_open h hterm ?_
        simp [ChatStream.endOfStream, hterm, hearly]
      · have hend : s.endOfStream = s.finish := by
          rw [ChatStream.endOfStream, if_neg hterm, if_neg hearly]
        rcases finish_cases hP h hterm with hreject | ⟨s', evs, hok, -, hafter⟩
        · refine closes_open h hterm ?_
          simp [hend, hreject]
        · simp only [hend, hok]
          exact closes_ended hafter rfl (by rintro ⟨⟩)
  | cons event events ih =>
    by_cases hdone : event.payload = "[DONE]"
    · have hevent : s.event decode fallbackId event = s.finish := if_pos hdone
      simp only [chunks, hdone, if_true, flatMap_nil, append_nil, gathered,
        foldl_nil, bridgeFrom, hevent]
      rcases finish_cases hP h hterm with hreject | ⟨s', evs, hok, hterm', hafter⟩
      · refine closes_open h hterm ?_
        rw [hreject]
      · simp only [hok, bridgeFrom_of_terminated events hterm', append_nil]
        refine closes_ended hafter rfl ?_
        split <;> rintro ⟨⟩
    by_cases hempty : event.payload = ""
    · have hevent : s.event decode fallbackId event = .ok s [] := by
        rw [ChatStream.event, if_neg hdone, if_pos (.inl hempty)]
      have hrest := ih h hterm
      simpa [chunks, hempty, bridgeFrom, hevent] using hrest
    cases hdecode : decode (utf8 event.payload) with
    | none =>
      have hevent : s.event decode fallbackId event = .rejected := by
        rw [ChatStream.event, if_neg hdone, if_neg (not_or.mpr ⟨hempty, hterm⟩), hdecode]
      simp only [chunks, hdone, hempty, if_false, hdecode, flatMap_nil, append_nil,
        gathered, foldl_nil, bridgeFrom, hevent]
      exact closes_open h hterm rfl
    | some value =>
      obtain ⟨s', evs, hchunk, hrun, hterm', hread⟩ :=
        ChatStream.chunk_spec hP hfallback value h hterm
      have hid : s'.responseId ≠ "" := by
        have hsame : s'.responseId = (s.reading.noteChunk fallbackId value).responseId :=
          congrArg Reading.responseId hread
        rw [hsame, Reading.noteChunk]
        split
        · cases hget : ((value.get? "id").bind Value.asStr?).filter (· ≠ "") with
          | none => exact hfallback
          | some id => simpa using (Option.filter_eq_some_iff.mp hget).2
        · assumption
      have hsat : ChatStream.Sat P { said := said ++ deltas value } (out ++ evs) s' :=
        ⟨fun ht => absurd ht hterm', fun _ he => absurd he hid, fun _ _ => hrun⟩
      obtain ⟨hfate, phase, told, e, hholds, hsaid, hdone'⟩ := ih hsat hterm'
      rw [hread] at hdone'
      have hevent : s.event decode fallbackId event = .ok s' evs := by
        rw [ChatStream.event, if_neg hdone, if_neg (not_or.mpr ⟨hempty, hterm⟩), hdecode]
        simp only [hchunk]
      simp only [chunks, hdone, hempty, if_false, hdecode, flatMap_cons, bridgeFrom, hevent,
        ← append_assoc]
      exact ⟨hfate, phase, told, e, by rwa [← append_assoc], hsaid, hdone'⟩

variable (decode ending) in
/-- A property of a writer that its steps keep holds of all that its bridge writes. -/
theorem bridge_spec (hP : Keeps runs P) (hfallback : fallbackId ≠ "") (writer : E)
    (h : P .idle {} writer []) (events : List ParsedEvent) (hevents : events ≠ []) :
    Closes runs P (bridge decode fallbackId writer ending events) []
      ((chunks decode events).flatMap deltas) (gathered fallbackId {} (chunks decode events)) := by
  have hsat : Sat P {} [] ({ events := writer } : ChatStream E) :=
    ⟨fun ht => absurd ht (by simp), fun _ _ => ⟨h, rfl, rfl⟩, fun _ hid => absurd rfl hid⟩
  have hbridge : bridge decode fallbackId writer ending events =
      bridgeFrom decode fallbackId ending { events := writer } events := by
    unfold bridge
    split
    · exact absurd rfl hevents
    · rfl
  rw [hbridge]
  exact bridgeFrom_spec hP hfallback events hsat (by simp)

end

end AciGateway.Transform
