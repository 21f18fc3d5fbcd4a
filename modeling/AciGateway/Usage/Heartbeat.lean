import AciGateway.Usage.Verdict

/-! Heartbeats in a streamed response: a client that reads events does not see them. -/
namespace AciGateway.Usage

open Octets Json Sse EventStream List

variable (decode : Bytes → Option Value) (last : Nat → Value → Option Value)

/-- What the client is sent from the next item on. After an error of the meter nothing comes. -/
def sentFrom (final : Option Ending) : List Passing → MeterStream → Bytes
  | [], m =>
    match final with
    | some .ended =>
      match (m.pollNext decode false (.ended last)).2.2 with
      | some (.item out) => out
      | _ => []
    | _ => []
  | .heartbeat :: ps, m => keepAliveComment ++ sentFrom final ps m
  | .item bytes shown :: ps, m =>
    let r := m.pollNext decode false (.chunk bytes shown)
    match r.2.2 with
    | some (.item out) => out ++ sentFrom final ps r.1
    | some (.error _) => []
    | _ => sentFrom final ps r.1

/-- The same response without a heartbeat. -/
def unbeaten (ps : List Passing) : List Passing := ps.filter (·.bytes?.isSome)

variable {decode last} {m : MeterStream} {final : Option Ending}

/-! Events of whole blocks. -/

theorem eventsFrom_block {ls : List Bytes} (h : ∀ l ∈ ls, l ≠ [] ∧ OneLine l) (b : Buffers)
    (rest : Bytes) : eventsFrom b (linesFrom [] (block ls ++ rest)) =
      eventsFrom b (ls ++ [[]]) ++ eventsFrom {} (linesFrom [] rest) := by
  induction ls generalizing b with
  | nil => simp [block, linesFrom, eventsFrom]
  | cons l ls ih =>
    rw [forall_mem_cons] at h
    rw [block_cons, append_assoc, cons_append, linesFrom_line h.1.2, nil_append,
      cons_append, eventsFrom_cons h.1.1, eventsFrom_cons h.1.1, ih h.2]

/-- The mark is in the first line or nowhere. -/
theorem marked_append_lf (l b : Bytes) :
    byteOrderMark.isPrefixOf (l ++ 10 :: b) = byteOrderMark.isPrefixOf l := by
  rcases l with _ | ⟨x, _ | ⟨y, _ | ⟨z, l⟩⟩⟩ <;> simp [byteOrderMark, isPrefixOf]

theorem marked_block {ls : List Bytes} (b : Bytes) :
    byteOrderMark.isPrefixOf (block ls ++ b) = byteOrderMark.isPrefixOf (block ls) := by
  cases ls with
  | nil => exact marked_append_lf [] b
  | cons l ls =>
    rw [block_cons, append_assoc, cons_append, marked_append_lf, marked_append_lf]

/-! One item. -/

/-- The meter reads, and holds nothing back. -/
def Reading (m : MeterStream) : Prop := m.innerDone = false ∧ m.buf = []

/-- A whole event goes on as a whole event, or is past the cap of the meter. -/
theorem pollNext_event {b : Bytes} (hb : IsEvent b) (hm : Reading m)
    (shown : Nat → Value → Option Value) :
    let r := m.pollNext decode false (.chunk b shown)
    (∃ e, r.2.2 = some (.error e)) ∨
      ∃ ls : List Bytes, (∀ l ∈ ls, l ≠ [] ∧ OneLine l) ∧ r.2.2 = some (.item (block ls)) ∧
        Reading r.1 := by
  obtain ⟨ls, hls, rfl⟩ := hb
  have hbytes : utf8 (String.ofList (frame ls)) = block (byteLines ls) := utf8_frame ls
  by_cases hover : MeterStream.oversizedLine (block (byteLines ls))
  · left
    rw [hbytes]
    simp [MeterStream.pollNext, MeterStream.process, hm.1, hm.2, hover]
  · right
    obtain ⟨ls', hshown, hout⟩ := transformLines_frame decode shown hls
      (observed decode m (block (byteLines ls)))
    obtain ⟨err, named, hstate, -, -⟩ := readLines_state decode shown
      (observed decode m (block (byteLines ls))) 0
      (MeterStream.splitLines (fromUtf8Lossy (block (byteLines ls))))
    rw [hbytes] at hout ⊢
    rw [pollNext_block m hm.1 hm.2 (by simpa using hover)]
    dsimp only
    rw [hout, utf8_frame]
    refine ⟨_, byteLines_lines (Shows.lines hls hshown), rfl, ?_⟩
    rw [Reading, MeterStream.transformLines, hstate]
    exact hm

/-! A whole response. -/

theorem eventsFrom_sent {ps : List Passing} (hitems : ∀ b ∈ ps.filterMap Passing.bytes?, IsEvent b)
    (hm : Reading m) : eventsFrom {} (linesFrom [] (sentFrom decode last final ps m)) =
      eventsFrom {} (linesFrom [] (sentFrom decode last final (unbeaten ps) m)) := by
  induction ps generalizing m with
  | nil => rfl
  | cons p ps ih =>
    cases p with
    | heartbeat =>
      have hsilent : eventsFrom {} ([utf8 ": PROCESSING"] ++ [[]]) = [] := by decide
      have hblock : keepAliveComment = block [utf8 ": PROCESSING"] := by decide
      have hline : utf8 ": PROCESSING" ≠ [] ∧ OneLine (utf8 ": PROCESSING") :=
        ⟨by decide, by decide, by decide⟩
      rw [sentFrom, hblock, eventsFrom_block (forall_mem_singleton.mpr hline), hsilent]
      exact ih hitems hm
    | item b shown =>
      have hitems := forall_mem_cons.mp hitems
      rw [unbeaten, filter_cons_of_pos rfl, ← unbeaten, sentFrom, sentFrom]
      rcases pollNext_event hitems.1 hm shown with ⟨e, he⟩ | ⟨ls, hls, hout, hm'⟩
      · rw [he]
      · rw [hout]
        dsimp only
        rw [eventsFrom_block hls, eventsFrom_block hls, ih hitems.2 hm']

theorem marked_sent {ps : List Passing} (hitems : ∀ b ∈ ps.filterMap Passing.bytes?, IsEvent b)
    (hm : Reading m)
    (hmark : byteOrderMark.isPrefixOf (sentFrom decode last final (unbeaten ps) m) = false) :
    byteOrderMark.isPrefixOf (sentFrom decode last final ps m) = false := by
  rcases ps with _ | ⟨_ | ⟨b, shown⟩, ps⟩
  · exact hmark
  · rfl
  · have hb : IsEvent b := hitems b mem_cons_self
    rw [unbeaten, filter_cons_of_pos rfl, sentFrom] at hmark
    rw [sentFrom]
    rcases pollNext_event hb hm shown with ⟨e, he⟩ | ⟨ls, -, hout, -⟩
    · rw [he]
      rfl
    · rw [hout] at hmark ⊢
      dsimp only at hmark ⊢
      rw [marked_block] at hmark ⊢
      exact hmark

/-- Wherever heartbeats come, the client reads the events it reads without any, unless what it is
sent begins with a byte order mark. -/
theorem heartbeats_invisible (S : Sanitizer) (protocol : SseProtocol) (report : StreamReport)
    (last : Nat → Value → Option Value) (chunks : List Bytes) (ending : Ending)
    (ps : List Passing) (final : Option Ending) (hps : Delivered S chunks ending ps final)
    (hmark : ¬ byteOrderMark <+:
      sentFrom S.decode last final (unbeaten ps) (.new report protocol)) :
    events (sentFrom S.decode last final ps (.new report protocol)) =
      events (sentFrom S.decode last final (unbeaten ps) (.new report protocol)) := by
  have hitems := hps.items
  have hm : Reading (.new report protocol) := ⟨rfl, rfl⟩
  have hmark := eq_false_of_ne_true fun h => hmark (List.isPrefixOf_iff_prefix.mp h)
  rw [events, events, lines, lines, stripMark, stripMark, marked_sent hitems hm hmark, hmark]
  exact eventsFrom_sent hitems hm

/-- An event of one letter, after a byte order mark or none. -/
def letterEvent (mark : Bytes) : Bytes := mark ++ utf8 "data: x\n\n"

theorem heartbeats_invisible_letter :
    events (sentFrom plainSanitizer.decode showZero (some .ended)
        [.heartbeat, .item (letterEvent []) showZero, .heartbeat]
        (.new ⟨"r", 0, 200⟩ .openaiChat)) =
      events (letterEvent []) := by
  have hps : Delivered plainSanitizer [letterEvent []] .ended
      [.heartbeat, .item (letterEvent []) showZero, .heartbeat] (some .ended) := by
    show sanitize _ _ _ _ = _
    decide +kernel
  have hsent : sentFrom plainSanitizer.decode showZero (some .ended)
      (unbeaten [.heartbeat, .item (letterEvent []) showZero, .heartbeat])
      (.new ⟨"r", 0, 200⟩ .openaiChat) = letterEvent [] := by decide +kernel
  rw [heartbeats_invisible plainSanitizer .openaiChat ⟨"r", 0, 200⟩ showZero [letterEvent []]
    .ended _ _ hps (by rw [hsent]; decide), hsent]

/-- A heartbeat before a byte order mark hides the event that the mark stands in front of. -/
theorem mark_after_heartbeat :
    let sent (ps : List Passing) := sentFrom plainSanitizer.decode showZero (some .ended) ps
      (.new ⟨"r", 0, 200⟩ .openaiChat)
    let item := Passing.item (letterEvent byteOrderMark) showZero
    Delivered plainSanitizer [letterEvent byteOrderMark] .ended [.heartbeat, item] (some .ended) ∧
      (events (sent [.heartbeat, item])).length = 0 ∧ (events (sent [item])).length = 1 := by
  refine ⟨?_, ?_, ?_⟩
  · show sanitize _ _ _ _ = _
    decide +kernel
  · decide +kernel
  · decide +kernel

end AciGateway.Usage
