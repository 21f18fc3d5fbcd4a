import AciGateway.Transform.ChatRun

/-! The events of the Messages surface for a chat stream, and their grammar. -/
namespace AciGateway.Transform

open Octets Json Sse List

/-! The writer. -/

def usizeValue (n : Nat) : Value := .num (.posInt (Fin.ofNat (2 ^ 64) n))

def thinkingBlock (thinking : String) : Value :=
  .obj [("type", .str "thinking"), ("thinking", .str thinking), ("signature", .str "")]

def textBlock (text : String) : Value := .obj [("type", .str "text"), ("text", .str text)]

/-- Arguments as a JSON object; none at all are those of a call without arguments. -/
def functionCallArguments (decode : Bytes → Option Value) (arguments : String) : Option String :=
  if Text.trim arguments = "" then some "\x7b\x7d"
  else if ((decode (utf8 arguments)).bind asObj?).isSome then some arguments
  else none

/-- The call can be run, or the model finished and meant it so. -/
def runsCall (decode : Bytes → Option Value) (call : ChatToolCall) (truncated : Bool) : Bool :=
  (functionCallArguments decode call.arguments).isSome || !truncated

structure MessagesEvents (decode : Bytes → Option Value) where
  /-- The index the next content block takes. -/
  nextIndex : Nat := 0
  upstreamUsage : Option Value := none
  /-- The clock. -/
  nowMillis : Nat

namespace MessagesEvents

variable {decode : Bytes → Option Value}

def event (kind : String) (members : Members) : SseEvent :=
  ⟨kind, .obj (("type", .str kind) :: members)⟩

def blockStart (e : MessagesEvents decode) (block : Value) : SseEvent :=
  event "content_block_start" [("index", usizeValue e.nextIndex), ("content_block", block)]

def blockDelta (e : MessagesEvents decode) (delta : Value) : SseEvent :=
  event "content_block_delta" [("index", usizeValue e.nextIndex), ("delta", delta)]

def blockStop (e : MessagesEvents decode) : MessagesEvents decode × SseEvent :=
  ({ e with nextIndex := e.nextIndex + 1 },
    event "content_block_stop" [("index", usizeValue e.nextIndex)])

def start (e : MessagesEvents decode) (chunk : Value) (fallbackId : String) : SseEvent :=
  let text (key : String) := ((chunk.get? key).bind Value.asStr?).filter (· ≠ "")
  let id := (text "id").getD
    (if fallbackId = "" then "msg_" ++ toString e.nowMillis else fallbackId)
  let usage := match messagesUsage (chunk.get? "usage") with
    | .obj usage => .obj (setMember "output_tokens" (usizeValue 0) usage)
    | usage => usage
  event "message_start"
    [("message", .obj [("id", .str id), ("type", .str "message"), ("role", .str "assistant"),
      ("content", .arr []), ("model", .str ((text "model").getD "unknown")),
      ("stop_reason", .null), ("stop_sequence", .null), ("usage", usage)])]

def openBlock : TextKind → Value
  | .reasoning => thinkingBlock ""
  | .text | .refusal => textBlock ""

def deltaOf : TextKind → String → Value
  | .reasoning, delta => .obj [("type", .str "thinking_delta"), ("thinking", .str delta)]
  | .text, delta | .refusal, delta => .obj [("type", .str "text_delta"), ("text", .str delta)]

/-- A call as one block: malformed arguments become an empty input, and a call that was cut off
is dropped. -/
def toolCall (e : MessagesEvents decode) (call : ChatToolCall) (truncated : Bool) :
    (MessagesEvents decode × List SseEvent) × Bool :=
  let write (input : String) : (MessagesEvents decode × List SseEvent) × Bool :=
    ((e.blockStop.1,
      [e.blockStart (.obj [("type", .str "tool_use"), ("id", .str call.id),
          ("name", .str call.name), ("input", .obj [])]),
        e.blockDelta (.obj [("type", .str "input_json_delta"), ("partial_json", .str input)]),
        e.blockStop.2]), true)
  match functionCallArguments decode call.arguments with
  | some input => write input
  | none => if truncated then ((e, []), false) else write "\x7b\x7d"

def failureError : Failure → Value
  | .upstream error => error
  | .empty =>
    .obj [("type", .str "api_error"),
      ("message", .str "The upstream provider returned no response")]
  | .unusableToolCalls =>
    .obj [("type", .str "api_error"),
      ("message", .str "The upstream provider returned tool calls without a name")]

def finish (outcome : Outcome) (usage : Option Value) : List SseEvent :=
  match outcome with
  | .failed failure => [event "error" [("error", failureError failure)]]
  | .finished finish toolUse =>
    [event "message_delta"
        [("delta", .obj [("stop_reason", .str (finish.stopReason toolUse)),
            ("stop_sequence", .null)]),
          ("usage", messagesUsage usage)],
      event "message_stop" []]

instance : ChatEvents (MessagesEvents decode) where
  start e chunk fallbackId := some (e, [e.start chunk fallbackId])
  usage e usage := { e with upstreamUsage := some (messagesUsage (some usage)) }
  openText e kind := some (e, [e.blockStart (openBlock kind)])
  textDelta e kind delta := some (e, [e.blockDelta (deltaOf kind delta)])
  annotation e _ := some (e, [])
  closeText e _ _ _ := some (e.blockStop.1, [e.blockStop.2])
  toolCall e call truncated := some (e.toolCall call truncated)
  finish e outcome usage := some (e, finish outcome usage)

end MessagesEvents

/-! The grammar. -/

inductive BlockKind where
  | thinking
  | text
  | toolUse
  deriving DecidableEq

/-- What a client sees of an event. -/
inductive Frame where
  | messageStart
  | blockStart (index : U64) (kind : BlockKind)
  | blockDelta (index : U64) (kind : BlockKind) (text : String)
  | blockStop (index : U64)
  | messageDelta
  | messageStop
  | error
  deriving DecidableEq

def readIndex (data : Value) : Option U64 := (data.get? "index").bind asU64?

def readBlock (block : Value) : Option BlockKind :=
  match eventType block with
  | some "thinking" => some .thinking
  | some "text" => some .text
  | some "tool_use" => some .toolUse
  | _ => none

def readDelta (delta : Value) : Option (BlockKind × String) :=
  let text (key : String) := (delta.get? key).bind Value.asStr?
  match eventType delta with
  | some "thinking_delta" => (text "thinking").map (.thinking, ·)
  | some "text_delta" => (text "text").map (.text, ·)
  | some "input_json_delta" => (text "partial_json").map (.toolUse, ·)
  | _ => none

/-- An event as a client reads it: its name says its type again. -/
def readFrame (e : SseEvent) : Option Frame :=
  if eventType e.data ≠ some e.name then none
  else
    match e.name with
    | "message_start" => some .messageStart
    | "content_block_start" =>
      match readIndex e.data, (e.data.get? "content_block").bind readBlock with
      | some index, some kind => some (.blockStart index kind)
      | _, _ => none
    | "content_block_delta" =>
      match readIndex e.data, (e.data.get? "delta").bind readDelta with
      | some index, some (kind, text) => some (.blockDelta index kind text)
      | _, _ => none
    | "content_block_stop" => (readIndex e.data).map .blockStop
    | "message_delta" => some .messageDelta
    | "message_stop" => some .messageStop
    | "error" => some .error
    | _ => none

/-- The number of a block on the wire. -/
def wire (n : Nat) : U64 := Fin.ofNat (2 ^ 64) n

def blockFrames (n : Nat) (block : BlockKind × List String) : List Frame :=
  .blockStart (wire n) block.1 :: block.2.map (.blockDelta (wire n) block.1) ++ [.blockStop (wire n)]

/-- Blocks one after the other, numbered from `n`. -/
def blocksFrom : Nat → List (BlockKind × List String) → List Frame
  | _, [] => []
  | n, block :: blocks => blockFrames n block ++ blocksFrom (n + 1) blocks

/-- A whole message. -/
def Sentence (frames : List Frame) : Prop :=
  ∃ blocks, frames = .messageStart :: blocksFrom 0 blocks ++ [.messageDelta, .messageStop] ∨
    frames = .messageStart :: blocksFrom 0 blocks ++ [.error]

/-- The text of one kind in all the blocks. -/
def frameText (kind : BlockKind) (frames : List Frame) : String :=
  String.join (frames.filterMap fun
    | .blockDelta _ kind' text => if kind' = kind then some text else none
    | _ => none)

def TextKind.block : TextKind → BlockKind
  | .reasoning => .thinking
  | .text | .refusal => .text

/-- The text of one kind that an upstream sent. -/
def spokenText (kind : BlockKind) (said : List (TextKind × String)) : String :=
  String.join ((said.filter fun d => d.1.block = kind).map Prod.snd)

theorem blocksFrom_append (n : Nat) (bs cs : List (BlockKind × List String)) :
    blocksFrom n (bs ++ cs) = blocksFrom n bs ++ blocksFrom (n + bs.length) cs := by
  induction bs generalizing n with
  | nil => rfl
  | cons b bs ih => simp [blocksFrom, ih, Nat.add_assoc, Nat.add_comm 1]

theorem frameText_append (kind : BlockKind) (fs gs : List Frame) :
    frameText kind (fs ++ gs) = frameText kind fs ++ frameText kind gs := by
  simp [frameText, String.join_append]

theorem spokenText_append (kind : BlockKind) (ds es : List (TextKind × String)) :
    spokenText kind (ds ++ es) = spokenText kind ds ++ spokenText kind es := by
  simp [spokenText, String.join_append]

variable {out : List SseEvent} {told : Told}

namespace MessagesEvents

variable {decode : Bytes → Option Value} {e : MessagesEvents decode} {text : String}
  {kind : BlockKind}

theorem readFrame_blockStart {block : Value} (h : readBlock block = some kind) :
    readFrame (e.blockStart block) = some (.blockStart (wire e.nextIndex) kind) := by
  have hread : readFrame (e.blockStart block) = match some (wire e.nextIndex), readBlock block with
      | some index, some kind => some (.blockStart index kind)
      | _, _ => none := rfl
  rw [hread, h]

theorem readFrame_blockDelta {delta : Value} (h : readDelta delta = some (kind, text)) :
    readFrame (e.blockDelta delta) = some (.blockDelta (wire e.nextIndex) kind text) := by
  have hread : readFrame (e.blockDelta delta) = match some (wire e.nextIndex), readDelta delta with
      | some index, some (kind, text) => some (.blockDelta index kind text)
      | _, _ => none := rfl
  rw [hread, h]

theorem readFrame_blockStop :
    readFrame e.blockStop.2 = some (.blockStop (wire e.nextIndex)) := rfl

theorem readBlock_openBlock (kind : TextKind) : readBlock (openBlock kind) = some kind.block := by
  cases kind <;> rfl

theorem readDelta_deltaOf (kind : TextKind) (delta : String) :
    readDelta (deltaOf kind delta) = some (kind.block, delta) := by
  cases kind <;> rfl

/-! What each step keeps. -/

/-- What the writer has written, as a client reads it, in each phase. -/
def Spells (phase : Phase) (told : Told) (e : MessagesEvents decode) (out : List SseEvent) : Prop :=
  ∃ frames blocks, out.map readFrame = frames.map some ∧
    (∀ kind ∈ [BlockKind.thinking, .text], frameText kind frames = spokenText kind told.said) ∧
    match phase with
    | .idle => frames = [] ∧ e.nextIndex = 0
    | .between => frames = .messageStart :: blocksFrom 0 blocks ∧ e.nextIndex = blocks.length
    | .inText kind _ => e.nextIndex = blocks.length ∧ ∃ texts : List String,
        frames = .messageStart :: blocksFrom 0 blocks ++
          .blockStart (wire e.nextIndex) kind.block ::
            texts.map (.blockDelta (wire e.nextIndex) kind.block)
    | .ended => Sentence frames

theorem spells_start (chunk : Value) (fallbackId : String)
    (h : Spells .idle told e out) : Spells .between told e (out ++ [e.start chunk fallbackId]) := by
  obtain ⟨frames, -, hread, htext, rfl, hindex⟩ := h
  refine ⟨[.messageStart], [], ?_, htext, rfl, hindex⟩
  rw [map_append, hread]
  rfl

theorem spells_openText (kind : TextKind) (h : Spells .between told e out) :
    Spells (.inText kind "") told e (out ++ [e.blockStart (openBlock kind)]) := by
  obtain ⟨frames, blocks, hread, htext, rfl, hindex⟩ := h
  refine ⟨.messageStart :: blocksFrom 0 blocks ++ [.blockStart (wire e.nextIndex) kind.block],
    blocks, ?_, ?_, hindex, [], rfl⟩
  · rw [map_append, hread, map_singleton, readFrame_blockStart (readBlock_openBlock kind)]
    simp
  · intro k hk
    rw [frameText_append, htext k hk]
    exact String.append_empty

theorem spells_textDelta {kind : TextKind}
    {delta : String} (h : Spells (.inText kind text) told e out) :
    Spells (.inText kind (text ++ delta)) { told with said := told.said ++ [(kind, delta)] } e
      (out ++ [e.blockDelta (deltaOf kind delta)]) := by
  obtain ⟨frames, blocks, hread, htext, hindex, texts, hframes⟩ := h
  refine ⟨frames ++ [.blockDelta (wire e.nextIndex) kind.block delta], blocks, ?_, ?_, hindex,
    texts ++ [delta], by simp [hframes]⟩
  · rw [map_append, hread, map_singleton,
      readFrame_blockDelta (readDelta_deltaOf kind delta), map_append]
    rfl
  · intro k hk
    rw [frameText_append, htext k hk, spokenText_append]
    by_cases hkind : kind.block = k
    · simp [frameText, spokenText, hkind]
    · simp [frameText, spokenText, hkind]

theorem spells_closeText {kind : TextKind} (h : Spells (.inText kind text) told e out) :
    Spells .between told e.blockStop.1 (out ++ [e.blockStop.2]) := by
  obtain ⟨frames, blocks, hread, htext, hindex, texts, hframes⟩ := h
  refine ⟨frames ++ [.blockStop (wire e.nextIndex)], blocks ++ [(kind.block, texts)], ?_, ?_, ?_,
    by simp [blockStop, hindex]⟩
  · rw [map_append, hread, map_singleton, readFrame_blockStop, map_append]
    rfl
  · intro k hk
    rw [frameText_append, htext k hk]
    exact String.append_empty
  · rw [hframes, blocksFrom_append, Nat.zero_add, ← hindex]
    simp [blocksFrom, blockFrames]

/-- One block for a call. -/
theorem spells_writtenCall (block : Value) (input : String)
    (hblock : readBlock block = some .toolUse) (h : Spells .between told e out) :
    Spells .between told e.blockStop.1 (out ++ [e.blockStart block,
      e.blockDelta (.obj [("type", .str "input_json_delta"), ("partial_json", .str input)]),
      e.blockStop.2]) := by
  obtain ⟨frames, blocks, hread, htext, hframes, hindex⟩ := h
  refine ⟨frames ++ blockFrames e.nextIndex (.toolUse, [input]), blocks ++ [(.toolUse, [input])],
    ?_, ?_, ?_, by simp [blockStop, hindex]⟩
  · rw [map_append, hread, map_append, map_cons, readFrame_blockStart hblock]
    rfl
  · intro k hk
    have hne : BlockKind.toolUse ≠ k := by
      rintro rfl
      exact absurd hk (by decide)
    rw [frameText_append, htext k hk]
    simp [frameText, blockFrames, hne]
  · rw [hframes, blocksFrom_append, Nat.zero_add, ← hindex]
    simp [blocksFrom]

theorem spells_toolCall (call : ChatToolCall) (truncated : Bool) (h : Spells .between told e out) :
    (e.toolCall call truncated).2 = runsCall decode call truncated ∧
      Spells .between { told with calls := told.calls ++ [(call, truncated)] }
        (e.toolCall call truncated).1.1 (out ++ (e.toolCall call truncated).1.2) := by
  unfold toolCall runsCall
  cases functionCallArguments decode call.arguments with
  | some input => exact ⟨rfl, spells_writtenCall _ input rfl h⟩
  | none =>
    cases truncated with
    | true =>
      refine ⟨rfl, ?_⟩
      change Spells .between _ e (out ++ [])
      rw [append_nil]
      exact h
    | false => exact ⟨rfl, spells_writtenCall _ _ rfl h⟩

theorem spells_finish (outcome : Outcome) (usage : Option Value) (h : Spells .between told e out) :
    Spells .ended { told with outcome := some (outcome, usage) } e (out ++ finish outcome usage) := by
  obtain ⟨frames, blocks, hread, htext, hframes, hindex⟩ := h
  cases outcome with
  | finished finish toolUse =>
    refine ⟨frames ++ [.messageDelta, .messageStop], blocks, ?_, ?_, blocks, .inl (by rw [hframes])⟩
    · rw [map_append, hread, map_append]
      rfl
    · intro k hk
      rw [frameText_append, htext k hk]
      exact String.append_empty
  | failed failure =>
    refine ⟨frames ++ [.error], blocks, ?_, ?_, blocks, .inr (by rw [hframes])⟩
    · rw [map_append, hread, map_append]
      rfl
    · intro k hk
      rw [frameText_append, htext k hk]
      exact String.append_empty

theorem keeps_spells : Keeps (runsCall decode) (@Spells decode) where
  start chunk _ _ h := ⟨_, _, rfl, spells_start chunk _ h⟩
  usage _ h := h
  openText kind h := ⟨_, _, rfl, spells_openText kind h⟩
  textDelta h := ⟨_, _, rfl, spells_textDelta h⟩
  annotation _ h := ⟨_, _, rfl, by rwa [append_nil]⟩
  closeText _ h := ⟨_, _, rfl, spells_closeText h⟩
  toolCall call truncated h := by
    obtain ⟨hruns, hspells⟩ := spells_toolCall call truncated h
    exact ⟨_, _, congrArg some (Prod.ext rfl hruns), hspells⟩
  finish outcome usage h := ⟨_, _, rfl, spells_finish outcome usage h⟩

end MessagesEvents

/-! Whole messages. -/

/-- What a client can be left with is the beginning of a message. -/
theorem prefix_of_spells {decode : Bytes → Option Value} {phase : Phase}
    {e : MessagesEvents decode} (h : MessagesEvents.Spells phase told e out) :
    ∃ frames, out.map readFrame = frames.map some ∧ (∃ rest, Sentence (frames ++ rest)) ∧
      ∀ kind ∈ [BlockKind.thinking, .text], frameText kind frames = spokenText kind told.said := by
  obtain ⟨frames, blocks, hread, htext, hphase⟩ := h
  refine ⟨frames, hread, ?_, htext⟩
  cases phase with
  | idle => exact ⟨[.messageStart, .messageDelta, .messageStop], [], .inl (by rw [hphase.1]; rfl)⟩
  | between => exact ⟨[.messageDelta, .messageStop], blocks, .inl (by rw [hphase.1])⟩
  | inText kind text =>
    obtain ⟨hindex, texts, hframes⟩ := hphase
    refine ⟨[.blockStop (wire e.nextIndex), .messageDelta, .messageStop],
      blocks ++ [(kind.block, texts)], .inl ?_⟩
    rw [hframes, blocksFrom_append, Nat.zero_add, ← hindex]
    simp [blocksFrom, blockFrames]
  | ended => exact ⟨[], by rwa [append_nil]⟩

/-- The id of a response whose upstream gave none. -/
def fallbackId (provider : String) (millis : Nat) : String := provider ++ "-" ++ toString millis

theorem fallbackId_ne (provider : String) (millis : Nat) : fallbackId provider millis ≠ "" := by
  intro h
  have hlist := congrArg String.toList h
  simp [fallbackId] at hlist

/-- The bridge to the Messages surface. -/
def messagesBridge (decode : Bytes → Option Value) (millis now : Nat) (ending : StreamEnd)
    (events : List ParsedEvent) : List SseEvent × Fate :=
  bridge decode (fallbackId "openai" millis) (⟨0, none, now⟩ : MessagesEvents decode) ending events

end AciGateway.Transform
