import AciGateway.Lib.EventText
import AciGateway.Usage.StreamMeter

/-! The last transform of a stream before its meter: events are cut out of the bytes, their bodies
edited, and each is handed on as a whole. -/
namespace AciGateway.Usage

open Octets Json Sse EventStream List
open String (ofList toList_inj toList_ofList)

/-! Cutting events. -/

structure SseEventReader where
  eventBuf : Bytes := []
  /-- Where the open line starts. -/
  lineStart : Nat := 0
  pendingCr : Bool := false

namespace SseEventReader

/-- The pending event, if there is one. -/
def takeEvent (r : SseEventReader) : SseEventReader × Option String :=
  ({ r with eventBuf := [], lineStart := 0 },
    if r.eventBuf = [] then none else some (fromUtf8Lossy r.eventBuf))

def endLine (r : SseEventReader) : SseEventReader × Option String :=
  if r.eventBuf.length = r.lineStart then r.takeEvent
  else ({ r with eventBuf := r.eventBuf ++ [10], lineStart := r.eventBuf.length + 1 }, none)

def pushByte (r : SseEventReader) (c : UInt8) : SseEventReader × Option String :=
  if r.pendingCr ∧ c = 10 then ({ r with pendingCr := false }, none)
  else if c = 13 ∨ c = 10 then { r with pendingCr := c = 13 }.endLine
  else ({ r with pendingCr := false, eventBuf := r.eventBuf ++ [c] }, none)

/-- The events a chunk completes, and whether the pending one ran past the cap. -/
def pushChunk (r : SseEventReader) : Bytes → SseEventReader × List String × Bool
  | [] => (r, [], false)
  | c :: cs =>
    let out := r.pushByte c
    if maxSseLineBytes < out.1.eventBuf.length then (out.1, out.2.toList, true)
    else
      let rest := pushChunk out.1 cs
      (rest.1, out.2.toList ++ rest.2.1, rest.2.2)

/-- At a clean end an event without its blank line is dispatched too. -/
def finish (r : SseEventReader) : SseEventReader × Option String := r.takeEvent

end SseEventReader

/-! Editing one event. -/

def trimEndCr (line : String) : String :=
  String.ofList (line.toList.reverse.dropWhile (· = '\r')).reverse

def eventLines (event : String) : List String :=
  let lines := MeterStream.splitLines event
  (if lines.getLast? = some "" then lines.dropLast else lines).map trimEndCr

/-- The line opens a JSON text. -/
def jsonLike (line : String) : Bool :=
  (line.toList.dropWhile Text.isWhitespace).head?.any (· ∈ ['{', '[', '"'])

def isComment (line : String) : Bool := line.toList.head? = some ':'

def pushText (buf : Option String) (value : String) : Option String :=
  some (match buf with
    | none | some "" => value
    | some text => text ++ "\n" ++ value)

def stripSpace (value : String) : String := (Text.stripPrefix " " value).getD value

/-- The `data` fields and the lines without a field, each collected on its own. -/
def parseLine (acc : Option String × Option String) (line : String) :
    Option String × Option String :=
  if line = "" ∨ isComment line then acc
  else
    match if jsonLike line then none else Text.splitOnce ":" line with
    | some (field, value) =>
      if field = "data" then (pushText acc.1 (stripSpace value), acc.2) else acc
    | none => (acc.1, pushText acc.2 line)

/-- The payload of an event; a bare one counts when there is no `data` field. -/
def parseEvent (event : String) : Option String :=
  let acc := (eventLines event).foldl parseLine (none, none)
  acc.1.or (acc.2.filter (Text.trim · ≠ ""))

def framedEvent (event : String) : String :=
  if event.toList.getLast? = some '\n' then event ++ "\n" else event ++ "\n\n"

def hasField (name line : String) : Bool := (Text.splitOnce ":" line).any (·.1 = name)

def isBarePayload (line : String) : Bool :=
  line ≠ "" && !isComment line && (jsonLike line || !line.toList.contains ':')

/-- The lines with the payload, and the name of the event, replaced. -/
def replaceLines (hasData : Bool) (replacement : String) (eventName : Option String) :
    Bool → List String → List String
  | _, [] => []
  | replaced, line :: lines =>
    if hasField "data" line || (!hasData && isBarePayload line) then
      if replaced then replaceLines hasData replacement eventName true lines
      else
        (if hasData then "data: " ++ replacement else replacement) ::
          replaceLines hasData replacement eventName true lines
    else
      let kept := if hasField "event" line then (eventName.map ("event: " ++ ·)).getD line else line
      kept :: replaceLines hasData replacement eventName replaced lines

def replaceDataFields (event replacement : String) (eventName : Option String) : String :=
  let lines := eventLines event
  let out := replaceLines (lines.any (hasField "data")) replacement eventName false lines
  String.ofList (frame (out.map String.toList))

def jsonStr (v : Value) : String := (ofUtf8? (print v)).getD ""

/-- What is shown of the bodies of a stream. -/
structure Sanitizer where
  decode : Bytes → Option Value
  /-- The body with the request's own identity in the documented shape, where that changes it. -/
  edit : Value → Option Value
  /-- A new type is a name. -/
  typed : ∀ v w t, edit v = some w → eventType w = some t → eventType v ≠ some t →
    '\n' ∉ t.toList ∧ '\r' ∉ t.toList

/-- The new type of an event whose type an edit changed. -/
def renamedTo (v w : Value) : Option String :=
  match eventType v, eventType w with
  | some old, some new => if old = new then none else some new
  | _, _ => none

variable (S : Sanitizer) {ls : List (List Char)} {event : String} {lines : List String}
  {tail : List Char} (v : Value)

def editEventBody (event : String) : String :=
  match (parseEvent event).map Text.trim with
  | none => framedEvent event
  | some payload =>
    if payload = "" ∨ payload = "[DONE]" then framedEvent event
    else
      match S.decode (utf8 payload) with
      | none => framedEvent event
      | some body =>
        match S.edit body with
        | none => framedEvent event
        | some edited => replaceDataFields event (jsonStr edited) (renamedTo body edited)

/-! The stream. -/

/-- How a stream ends. -/
inductive Ending where
  | ended
  | failed (e : ServiceError)
  deriving DecidableEq

/-- What the transform yields for the chunks of the stream below it, and how it ends. -/
def sanitize : SseEventReader → List Bytes → Ending → List Bytes × Ending
  | r, [], .ended => (r.finish.2.toList.map fun event => utf8 (editEventBody S event), .ended)
  | _, [], .failed e => ([], .failed e)
  | r, chunk :: chunks, ending =>
    let out := r.pushChunk chunk
    let items := out.2.1.map fun event => utf8 (editEventBody S event)
    if out.2.2 then
      (items, .failed (.upstream (.transport "provider SSE event exceeded the size cap")))
    else
      let rest := sanitize out.1 chunks ending
      (items ++ rest.1, rest.2)

/-! What it yields is whole. -/

/-- The pending event has no blank line, and its open line is empty when it should be. -/
structure SseEventReader.Inv (r : SseEventReader) : Prop where
  tidy : Tidy 10 13 r.eventBuf
  start_le : r.lineStart ≤ r.eventBuf.length
  blank : r.eventBuf.length ≠ r.lineStart → r.eventBuf.getLast? ≠ some 10

/-- An event as the reader hands it on. -/
def TidyEvent (event : String) : Prop := event ≠ "" ∧ Tidy '\n' '\r' event.toList

/-- The bytes are one event with its blank line. -/
def IsEvent (b : Bytes) : Prop :=
  ∃ ls : List (List Char), (∀ l ∈ ls, IsLine l) ∧ b = utf8 (String.ofList (frame ls))

namespace SseEventReader

variable {r : SseEventReader} {S}

theorem inv_initial : Inv {} := ⟨⟨by simp, .nil, by simp⟩, Nat.le_refl 0, by simp⟩

theorem tidy_concat {b : Bytes} {c : UInt8} (h : Tidy 10 13 b) (hc : c ≠ 13)
    (hlf : c = 10 → b ≠ [] ∧ b.getLast? ≠ some 10) : Tidy 10 13 (b ++ [c]) := by
  refine ⟨?_, ?_, ?_⟩
  · intro hhead
    cases b with
    | nil => exact (hlf (Option.some.inj hhead)).1 rfl
    | cons d b => exact h.head hhead
  · refine isChain_append.mpr ⟨h.chain, .singleton c, ?_⟩
    rintro x hx y hy ⟨rfl, rfl⟩
    have hc10 : c = 10 := Option.some.inj hy
    exact (hlf hc10).2 hx
  · simp [h.noReturn, Ne.symm hc]

theorem takeEvent_spec (h : r.Inv) :
    r.takeEvent.1.Inv ∧ ∀ event ∈ r.takeEvent.2, TidyEvent event := by
  refine ⟨⟨⟨by simp [takeEvent], .nil, by simp [takeEvent]⟩, Nat.le_refl 0, by simp [takeEvent]⟩, ?_⟩
  intro event hevent
  simp only [takeEvent, Option.mem_def] at hevent
  split at hevent <;> cases hevent
  next hne => exact ⟨fromUtf8Lossy_ne hne, tidy_fromUtf8Lossy h.tidy⟩

theorem pushByte_spec (h : r.Inv) (c : UInt8) :
    (r.pushByte c).1.Inv ∧ ∀ event ∈ (r.pushByte c).2, TidyEvent event := by
  unfold pushByte
  split
  · exact ⟨⟨h.tidy, h.start_le, h.blank⟩, by simp⟩
  · split
    · unfold endLine
      split
      · exact takeEvent_spec (r := { r with pendingCr := _ }) ⟨h.tidy, h.start_le, h.blank⟩
      · next hopen =>
        refine ⟨⟨tidy_concat h.tidy (by decide) fun _ => ⟨?_, h.blank hopen⟩, by simp, by simp⟩,
          by simp⟩
        rintro hnil
        have hstart := h.start_le
        dsimp only at hnil hopen
        rw [hnil] at hstart hopen
        simp at hstart
        exact hopen hstart.symm
    · next hend =>
      have hstart := h.start_le
      have hc : c ≠ 13 ∧ c ≠ 10 := ⟨fun h => hend (.inl h), fun h => hend (.inr h)⟩
      refine ⟨⟨tidy_concat h.tidy hc.1 fun h => absurd h hc.2, ?_, ?_⟩, by simp⟩
      · simp
        omega
      · simp [hc.2]

theorem pushChunk_spec (h : r.Inv) (chunk : Bytes) :
    (r.pushChunk chunk).1.Inv ∧ ∀ event ∈ (r.pushChunk chunk).2.1, TidyEvent event := by
  induction chunk generalizing r with
  | nil => exact ⟨h, by simp [pushChunk]⟩
  | cons c chunk ih =>
    obtain ⟨hinv, hevents⟩ := pushByte_spec h c
    obtain ⟨hinv', hevents'⟩ := ih hinv
    rw [pushChunk]
    dsimp only
    split
    · exact ⟨hinv, by simpa using hevents⟩
    · refine ⟨hinv', ?_⟩
      intro event hmem
      rcases mem_append.mp hmem with hmem | hmem
      · exact hevents event (by simpa using hmem)
      · exact hevents' event hmem

end SseEventReader

theorem framedEvent_lines (hne : ls ≠ []) :
    framedEvent (ofList (ls.flatMap (· ++ ['\n']))) = ofList (frame ls) := by
  have hlast : (ofList (ls.flatMap (· ++ ['\n']))).toList.getLast? = some '\n' := by
    rcases eq_nil_or_concat ls with rfl | ⟨ls, l, rfl⟩
    · exact absurd rfl hne
    · simp
  rw [framedEvent, if_pos hlast, ← toList_inj]
  simp [frame]

theorem framedEvent_openLine (ls : List (List Char)) (h : IsLine tail) :
    framedEvent (ofList (ls.flatMap (· ++ ['\n']) ++ tail)) =
      ofList (frame (ls ++ [tail])) := by
  have hlast : (ofList (ls.flatMap (· ++ ['\n']) ++ tail)).toList.getLast? ≠ some '\n' := by
    obtain ⟨init, c, hc⟩ := eq_nil_or_concat tail |>.resolve_left h.1
    have hmem : c ∈ tail := by simp [hc]
    have hcne : c ≠ '\n' := fun he => h.2.1 (he ▸ hmem)
    simpa [hc] using hcne
  rw [framedEvent, if_neg hlast, ← toList_inj]
  simp [frame]

theorem trimEndCr_eq {l : List Char} (h : '\r' ∉ l) : trimEndCr (ofList l) = ofList l := by
  have hdrop : l.reverse.dropWhile (· = '\r') = l.reverse := by
    refine Text.dropWhile_eq_self fun c hc => ?_
    have hne : c ≠ '\r' := fun he => h (he ▸ mem_reverse.mp hc)
    simpa using hne
  simp [trimEndCr, hdrop]

theorem map_trimEndCr (h : ∀ l ∈ ls, IsLine l) :
    (ls.map ofList).map trimEndCr = ls.map ofList := by
  rw [map_map]
  exact map_congr_left fun l hl => trimEndCr_eq (h l hl).2.2

theorem splitLines_eq (tail : List Char) (h : ∀ l ∈ ls, IsLine l) (htail : '\n' ∉ tail) :
    MeterStream.splitLines (ofList (ls.flatMap (· ++ ['\n']) ++ tail)) =
      (ls ++ [tail]).map ofList := by
  rw [MeterStream.splitLines, toList_ofList, splitOn_lines ls (fun l hl => (h l hl).2.1) htail]

theorem eventLines_lines (h : ∀ l ∈ ls, IsLine l) :
    eventLines (ofList (ls.flatMap (· ++ ['\n']))) = ls.map ofList := by
  have hsplit := splitLines_eq [] h (by simp)
  rw [append_nil] at hsplit
  rw [eventLines, hsplit]
  simp only [map_append, map_cons, map_nil, getLast?_concat, dropLast_concat]
  rw [if_pos trivial, map_trimEndCr h]

theorem eventLines_openLine (h : ∀ l ∈ ls, IsLine l) (htail : IsLine tail) :
    eventLines (ofList (ls.flatMap (· ++ ['\n']) ++ tail)) =
      (ls ++ [tail]).map ofList := by
  have hlast : ofList tail ≠ "" := fun he => htail.1 (by
    rw [← toList_ofList (l := tail), he]
    rfl)
  rw [eventLines, splitLines_eq tail h htail.2.1]
  simp only [map_append, map_cons, map_nil, getLast?_concat]
  rw [if_neg (by simpa using hlast)]
  simpa [trimEndCr_eq htail.2.2] using map_trimEndCr h

/-- The lines of an event are lines, and the framed event is made of them. -/
theorem exists_eventLines (h : TidyEvent event) :
    ∃ ls : List (List Char), ls ≠ [] ∧ (∀ l ∈ ls, IsLine l) ∧
      eventLines event = ls.map ofList ∧ framedEvent event = ofList (frame ls) := by
  obtain ⟨hne, htidy⟩ := h
  obtain ⟨ls, tail, hls, htail, heq⟩ := htidy.exists_lines
  obtain rfl : event = ofList (ls.flatMap (· ++ ['\n']) ++ tail) := by
    rw [← heq, String.ofList_toList]
  rcases htail with rfl | htail
  · rw [append_nil] at hne ⊢
    have hls_ne : ls ≠ [] := by
      rintro rfl
      exact hne rfl
    exact ⟨ls, hls_ne, hls, eventLines_lines hls, framedEvent_lines hls_ne⟩
  · refine ⟨ls ++ [tail], by simp, ?_, eventLines_openLine hls htail, framedEvent_openLine ls htail⟩
    intro l hl
    rcases mem_append.mp hl with hl | hl
    · exact hls l hl
    · rw [mem_singleton.mp hl]
      exact htail

theorem utf8_jsonStr : utf8 (jsonStr v) = print v := by
  obtain ⟨s, hs⟩ := isText_print v
  rw [jsonStr, ← hs, ofUtf8?_utf8]
  rfl

theorem print_ne_nil : print v ≠ [] := by
  cases v with
  | null => decide
  | bool b => cases b <;> decide
  | num n => simpa [print] using n.print_ne_nil
  | str s => simp [print, printString]
  | arr vs => cases vs <;> simp [print]; decide
  | obj ms => rcases ms with _ | ⟨⟨k, v⟩, ms⟩ <;> simp [print]

theorem mem_utf8_of_mem {s : String} {c : Char} {n : UInt8} (h : c ∈ s.toList)
    (hc : String.utf8EncodeChar c = [n]) : n ∈ utf8 s := by
  rw [← String.ofList_toList (s := s), utf8_ofList]
  exact mem_flatMap.mpr ⟨c, h, by simp [hc]⟩

theorem isLine_jsonStr : IsLine (jsonStr v).toList := by
  refine ⟨?_, ?_, ?_⟩
  · intro hnil
    have hempty : jsonStr v = "" := toList_inj.mp hnil
    have hprint := utf8_jsonStr v
    rw [hempty] at hprint
    exact print_ne_nil v hprint.symm
  · intro hmem
    have h10 := mem_utf8_of_mem hmem (n := 10) (by decide)
    rw [utf8_jsonStr] at h10
    exact absurd (printable_print v 10 h10) (by decide)
  · intro hmem
    have h13 := mem_utf8_of_mem hmem (n := 13) (by decide)
    rw [utf8_jsonStr] at h13
    exact absurd (printable_print v 13 h13) (by decide)

theorem isLine_prefixed {s t : String} (hs : s ≠ "") (hs' : '\n' ∉ s.toList ∧ '\r' ∉ s.toList)
    (ht : '\n' ∉ t.toList ∧ '\r' ∉ t.toList) : IsLine (s ++ t).toList := by
  refine ⟨?_, ?_, ?_⟩
  · have hne : s.toList ≠ [] := fun h => hs (toList_inj.mp h)
    simp [hne]
  · simpa using ⟨hs'.1, ht.1⟩
  · simpa using ⟨hs'.2, ht.2⟩

theorem isLine_replaceLines (hasData : Bool) {replacement : String} {eventName : Option String}
    (hr : IsLine replacement.toList)
    (hn : ∀ name ∈ eventName, '\n' ∉ name.toList ∧ '\r' ∉ name.toList) (replaced : Bool)
    (hl : ∀ line ∈ lines, IsLine line.toList) :
    ∀ line ∈ replaceLines hasData replacement eventName replaced lines, IsLine line.toList := by
  induction lines generalizing replaced with
  | nil => simp [replaceLines]
  | cons line lines ih =>
    rw [forall_mem_cons] at hl
    unfold replaceLines
    split
    · split
      · exact ih true hl.2
      · rw [forall_mem_cons]
        refine ⟨?_, ih true hl.2⟩
        split
        · exact isLine_prefixed (by decide) (by decide) hr.2
        · exact hr
    · dsimp only
      rw [forall_mem_cons]
      refine ⟨?_, ih replaced hl.2⟩
      split
      · cases hname : eventName with
        | none => exact hl.1
        | some name => exact isLine_prefixed (by decide) (by decide) (hn name hname)
      · exact hl.1

theorem replaceLines_ne_nil (hasData : Bool) (replacement : String) (eventName : Option String)
    (h : lines ≠ []) : replaceLines hasData replacement eventName false lines ≠ [] := by
  obtain ⟨line, lines, rfl⟩ := exists_cons_of_ne_nil h
  unfold replaceLines
  split <;> simp

theorem renamedTo_line {body edited : Value} (h : S.edit body = some edited) :
    ∀ name ∈ renamedTo body edited, '\n' ∉ name.toList ∧ '\r' ∉ name.toList := by
  intro name hname
  unfold renamedTo at hname
  split at hname
  · next old new hold hnew =>
    split at hname
    · cases hname
    · next hne =>
      cases hname
      refine S.typed body edited name h hnew ?_
      rw [hold]
      simpa using hne
  · cases hname

/-- What is written for an event has lines, and its blank line. -/
theorem exists_editedLines (h : TidyEvent event) :
    ∃ ls : List (List Char), ls ≠ [] ∧ (∀ l ∈ ls, IsLine l) ∧
      editEventBody S event = ofList (frame ls) := by
  obtain ⟨ls, hne, hls, hlines, hframed⟩ := exists_eventLines h
  have hkept : ∃ ls : List (List Char), ls ≠ [] ∧ (∀ l ∈ ls, IsLine l) ∧
      framedEvent event = ofList (frame ls) := ⟨ls, hne, hls, hframed⟩
  unfold editEventBody
  split
  · exact hkept
  · split
    · exact hkept
    · split
      · exact hkept
      · next body hbody =>
        split
        · exact hkept
        · next edited hedit =>
          have hall : ∀ line ∈ eventLines event, IsLine line.toList := by
            rw [hlines]
            intro line hline
            obtain ⟨l, hl, rfl⟩ := mem_map.mp hline
            rw [toList_ofList]
            exact hls l hl
          have hreplaced := isLine_replaceLines ((eventLines event).any (hasField "data"))
            (isLine_jsonStr edited) (renamedTo_line S hedit) false hall
          refine ⟨_, ?_, ?_, rfl⟩
          · simpa using replaceLines_ne_nil _ _ _ (by simpa [hlines] using hne)
          · intro l hl
            obtain ⟨line, hline, rfl⟩ := mem_map.mp hl
            exact hreplaced line hline

theorem isEvent_editEventBody (h : TidyEvent event) : IsEvent (utf8 (editEventBody S event)) := by
  obtain ⟨ls, -, hls, heq⟩ := exists_editedLines S h
  exact ⟨ls, hls, congrArg utf8 heq⟩

/-- However the bytes are cut, the stream yields whole events. -/
theorem isEvent_sanitize {r : SseEventReader} (h : r.Inv) (chunks : List Bytes) (ending : Ending) :
    ∀ b ∈ (sanitize S r chunks ending).1, IsEvent b := by
  have hitems {events : List String} (hevents : ∀ event ∈ events, TidyEvent event) :
      ∀ b ∈ events.map fun event => utf8 (editEventBody S event), IsEvent b := by
    intro b hb
    obtain ⟨event, hevent, rfl⟩ := mem_map.mp hb
    exact isEvent_editEventBody S (hevents event hevent)
  induction chunks generalizing r with
  | nil =>
    cases ending with
    | ended =>
      refine hitems ?_
      intro event hevent
      exact (SseEventReader.takeEvent_spec h).2 event (Option.mem_toList.mp hevent)
    | failed e => simp [sanitize]
  | cons chunk chunks ih =>
    obtain ⟨hinv, hevents⟩ := SseEventReader.pushChunk_spec h chunk
    rw [sanitize]
    dsimp only
    split
    · exact hitems hevents
    · intro b hb
      rcases mem_append.mp hb with hb | hb
      · exact hitems hevents b hb
      · exact ih hinv b hb

end AciGateway.Usage
