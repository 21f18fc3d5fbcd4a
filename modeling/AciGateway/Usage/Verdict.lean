import AciGateway.Sse.Events
import AciGateway.Usage.Sanitizer

/-! The last stretch of a streamed response: the meter reads the sanitized events, heartbeats come
between them, and the finalizer observes what goes out. Both judge how the stream ended. -/
namespace AciGateway.Usage

open Octets Json Sse EventStream MeterStream List
open String (ofList toList_ofList ofList_inj)
open SseFramingObserver (dataValue)

/-! The stretch. -/

def keepAliveComment : Bytes := utf8 ": PROCESSING\n\n"

/-- What the layer of heartbeats passes on: its own comment, or what the meter makes of an item,
with the usage shown on its lines. -/
inductive Passing where
  | heartbeat
  | item (bytes : Bytes) (shown : Nat → Value → Option Value)

def Passing.bytes? : Passing → Option Bytes
  | .heartbeat => none
  | .item bytes _ => some bytes

/-- What is known when a stream is over. -/
structure Verdict where
  /-- What the meter reported. -/
  posted : List PostReport
  /-- The finalizer's observer. -/
  parser : SseFramingObserver
  /-- The error the finalizer absorbed. -/
  cause : Option ServiceError := none
  /-- The client went away. -/
  left : Bool := false
  deriving DecidableEq

variable (decode : Bytes → Option Value) {show_ : Value → Option Value}

/-- The end of a stream. Without one the client goes away. -/
def conclude (last : Nat → Value → Option Value) (m : MeterStream) (g : SseFramingObserver) :
    Option Ending → Verdict
  | none => { posted := (m.drop false).2, parser := g, left := true }
  | some .ended =>
    let r := m.pollNext decode false (.ended last)
    let g := match r.2.2 with
      | some (.item out) => g.observe decode out
      | _ => g
    { posted := r.2.1, parser := g }
  | some (.failed e) =>
    { posted := (m.pollNext decode false (.failed e)).2.1, parser := g, cause := some e }

/-- After a poll of the meter: what it yields goes past the observer, and an error is the end. -/
def pass (g : SseFramingObserver) (r : MeterStream × List PostReport × Option Yield)
    (next : MeterStream → SseFramingObserver → Verdict) : Verdict :=
  match r.2.2 with
  | some (.item out) => next r.1 (g.observe decode out)
  | some (.error e) => { posted := r.2.1, parser := g, cause := some e }
  | _ => next r.1 g

/-- The rest of a stream, from its next item on. -/
def conduct (last : Nat → Value → Option Value) (ending : Option Ending) :
    List Passing → MeterStream → SseFramingObserver → Verdict
  | [], m, g => conclude decode last m g ending
  | .heartbeat :: ps, m, g => conduct last ending ps m (g.observe decode keepAliveComment)
  | .item bytes shown :: ps, m, g =>
    pass decode g (m.pollNext decode false (.chunk bytes shown)) (conduct last ending ps)

/-- A response with both observers at its start. -/
def stream (last : Nat → Value → Option Value) (report : StreamReport) (protocol : SseProtocol)
    (ps : List Passing) (ending : Option Ending) : Verdict :=
  conduct decode last ending ps (.new report protocol) (.withProtocol (some protocol))

/-- The items are those of a sanitized stream: all of them, or a beginning when the client goes
away. -/
def Delivered (S : Sanitizer) (chunks : List Bytes) (ending : Ending) (ps : List Passing)
    (final : Option Ending) : Prop :=
  match final with
  | some e => sanitize S {} chunks ending = (ps.filterMap Passing.bytes?, e)
  | none => ps.filterMap Passing.bytes? <+: (sanitize S {} chunks ending).1

namespace Verdict

/-- How a stream ended, by what the finalizer saw. -/
def judged (v : Verdict) : Outcome :=
  if v.left then .clientClosed
  else if v.parser.sawError then .failed
  else if v.parser.sawTerminal ||
      (v.cause.isNone && v.parser.atEventBoundary && v.parser.observationUsable) then .completed
  else .failed

/-- Why it failed, if it did. -/
def reason (v : Verdict) : StreamFailure :=
  match v.cause with
  | some e => .fromError e
  | none =>
    { errorClass := some (if v.parser.sawError then .streamInbandError else .streamTruncated) }

/-- The finalizer at the end. -/
def shared (v : Verdict) (requestId : Option String) : FinalizerShared :=
  { sseParser := v.parser, requestId, broken := v.cause.isSome }

/-- The client is told of an error, by the gateway or by the upstream. -/
def ToldError (v : Verdict) (requestId : Option String) : Prop :=
  v.parser.sawError ∨ ∃ protocol, (v.shared requestId).takeSynthesizedTail.2 =
    some (streamErrorTail protocol requestId v.parser.lastSequenceNumber)

/-- The finalizer completes the stream, or leaves it as complete. -/
def LeftComplete (v : Verdict) (requestId : Option String) : Prop :=
  (∃ protocol terminator, streamSuccessTerminator protocol = some terminator ∧
    (v.shared requestId).takeSynthesizedTail.2 = some terminator) ∨
  (v.parser.sawError = false ∧ (v.parser.sawTerminal ∨
    (v.cause = none ∧ v.parser.atEventBoundary ∧ v.parser.observationUsable)))

end Verdict

/-! Streams on which they agree. -/

/-- A line that reads as an event of its own reports an error. -/
def reportsError (v : Value) : Bool := MeterStream.carriesError v || choicesError v || stopReasonError v

/-- The values of the `data` lines. -/
def dataValues (b : Bytes) : List Bytes :=
  (MeterStream.splitLines (fromUtf8Lossy b)).filterMap fun line =>
    SseFramingObserver.dataValue (utf8 line)

/-- The meter, in the state it is in, reads an item as the observers do: a line that reads as an
event of its own is the whole payload of its event, it is no error that comes after the observers
have stopped, and with other usage on it the event stays within the caps and reads back. -/
structure Fair (m : MeterStream) (b : Bytes) (shown : Nat → Value → Option Value) : Prop where
  size : b.length ≤ maxObservedEventBytes
  whole : ∀ line ∈ MeterStream.splitLines (fromUtf8Lossy b), ∀ v,
    MeterStream.lineEvent decode line = some v →
      ∃ d, dataValues b = [d] ∧ d ≠ utf8 "[DONE]" ∧ decode d = some v
  timely : ∀ line ∈ MeterStream.splitLines (fromUtf8Lossy b), ∀ v,
    MeterStream.lineEvent decode line = some v → m.framing.done → reportsError v →
      m.framing.sawError
  rewritten : ∀ line ∈ MeterStream.splitLines (fromUtf8Lossy b), ∀ v n u,
    MeterStream.lineEvent decode line = some v → MeterStream.withUsage v (shown n) = some u →
      b.length + (print u).length + 6 ≤ maxObservedEventBytes ∧
        ∃ u', decode (print u) = some u' ∧ SameSigns u u'

/-- Every item of a stream is read so. -/
def FairRun : List Passing → MeterStream → Prop
  | [], _ => True
  | .heartbeat :: ps, m => FairRun ps m
  | .item b shown :: ps, m =>
    Fair decode m b shown ∧ FairRun ps (m.pollNext decode false (.chunk b shown)).1

/-! Usage on an event. -/

theorem get?_setMember {k k' : String} (h : k' ≠ k) (v : Value) (ms : Members) :
    (Value.obj (setMember k v ms)).get? k' = (Value.obj ms).get? k' := by
  change (setMember k v ms).lookup k' = ms.lookup k'
  rw [lookup_setMember, if_neg h]

theorem sameSigns_of_get? {v w : Value} (h : ∀ k, k ≠ "usage" → k ≠ "response" → v.get? k = w.get? k)
    (hr : (v.get? "response").any (present · "error") = (w.get? "response").any (present · "error")) :
    SameSigns v w := by
  have htype : eventType v = eventType w := by
    unfold eventType
    rw [h "type" (by decide) (by decide)]
  have hpresent : present v "error" = present w "error" := by
    unfold present
    rw [h "error" (by decide) (by decide)]
  have hchoices : choicesError v = choicesError w := by
    unfold choicesError
    rw [h "choices" (by decide) (by decide)]
  have hstop : stopReasonError v = stopReasonError w := by
    unfold stopReasonError
    rw [h "delta" (by decide) (by decide)]
  refine ⟨fun protocol => ?_, ?_, ?_, ?_, ?_⟩
  · unfold isTerminal
    rw [htype]
  · unfold isInbandError
    rw [htype, hpresent, hr, hchoices, hstop]
  · unfold sequenceNumber
    rw [h "sequence_number" (by decide) (by decide)]
  · rw [h "id" (by decide) (by decide)]
  · rw [h "model" (by decide) (by decide)]

/-- Other usage on an event leaves the rest of it alone. -/
theorem sameSigns_withUsage {v u : Value} (h : withUsage v show_ = some u) : SameSigns v u := by
  unfold withUsage at h
  split at h
  · next ms =>
    split at h
    · obtain ⟨usage, -, rfl⟩ := Option.map_eq_some_iff.mp h
      refine sameSigns_of_get? (fun k hk _ => (get?_setMember hk usage ms).symm) ?_
      rw [get?_setMember (by decide) usage ms]
    · split at h
      · next rs hrs =>
        split at h
        · obtain ⟨usage, -, rfl⟩ := Option.map_eq_some_iff.mp h
          refine sameSigns_of_get? (fun k _ hk => (get?_setMember hk _ ms).symm) ?_
          have hold : (Value.obj ms).get? "response" = some (.obj rs) := hrs
          have hnew : (Value.obj (setMember "response" (.obj (setMember "usage" usage rs))
              ms)).get? "response" = some (.obj (setMember "usage" usage rs)) := by
            change (setMember _ _ ms).lookup "response" = _
            rw [lookup_setMember, if_pos rfl]
          rw [hold, hnew, Option.any_some, Option.any_some]
          unfold present
          rw [get?_setMember (by decide)]
        · cases h
      · cases h
  · cases h

/-- Written out, it is an object, not the marker. -/
theorem print_withUsage_ne {v u : Value}
    (h : withUsage v show_ = some u) : print u ≠ utf8 "[DONE]" := by
  have hobj : ∃ ms, u = .obj ms := by
    unfold withUsage at h
    split at h
    · split at h
      · obtain ⟨usage, -, rfl⟩ := Option.map_eq_some_iff.mp h
        exact ⟨_, rfl⟩
      · split at h
        · split at h
          · obtain ⟨usage, -, rfl⟩ := Option.map_eq_some_iff.mp h
            exact ⟨_, rfl⟩
          · cases h
        · cases h
    · cases h
  obtain ⟨ms, rfl⟩ := hobj
  intro heq
  have hhead : (print (.obj ms)).head? = some 123 := by
    rcases ms with _ | ⟨⟨k, v⟩, ms⟩ <;> simp [print]
  rw [heq] at hhead
  exact absurd hhead (by decide)

/-! The lines of an item. -/

variable {decode} {shown : Nat → Value → Option Value}

/-- What a line of an item becomes. -/
def Shows (decode : Bytes → Option Value) (shown : Nat → Value → Option Value)
    (line line' : String) : Prop :=
  line' = line ∨ ∃ v n u, MeterStream.lineEvent decode line = some v ∧
    MeterStream.withUsage v (shown n) = some u ∧ line' = "data: " ++ jsonStr u

theorem readLine_shows (n : Nat) (m : MeterStream) (line : String) :
    Shows decode shown line ((readLine decode (shown n) m line).2.getD line) := by
  unfold readLine
  cases hv : lineEvent decode line with
  | none => exact .inl rfl
  | some v =>
    cases hu : withUsage v (shown n) with
    | none => exact .inl (by simp [hu])
    | some u =>
      refine .inr ⟨v, n, u, hv, hu, ?_⟩
      obtain ⟨s, hs⟩ := isText_print u
      simp [hu, jsonStr, ← hs, ofUtf8?_utf8]

variable (decode shown) in
/-- The lines of an item, each as it is or with other usage. -/
theorem readLines_shows (m : MeterStream) (n : Nat) (lines : List String) :
    Forall₂ (Shows decode shown) lines
      ((readLines decode shown m n lines).2.map Prod.fst) := by
  induction lines generalizing m n with
  | nil => exact .nil
  | cons line lines ih => exact .cons (readLine_shows n m line) (ih _ _)

variable (decode shown) in
theorem readLines_kept (m : MeterStream) (n : Nat) (lines : List String)
    (h : ((readLines decode shown m n lines).2.any Prod.snd) = false) :
    (readLines decode shown m n lines).2.map Prod.fst = lines := by
  induction lines generalizing m n with
  | nil => rfl
  | cons line lines ih =>
    rw [readLines] at h ⊢
    simp only [any_cons, Bool.or_eq_false_iff, Option.isSome_eq_false_iff,
      Option.isNone_iff_eq_none] at h
    rw [map_cons, ih _ _ h.2, h.1]
    rfl

theorem readLines_append (m : MeterStream) (n : Nat) (a b : List String) :
    readLines decode shown m n (a ++ b) =
      let r := readLines decode shown m n a
      let s := readLines decode shown r.1 (n + a.length) b
      (s.1, r.2 ++ s.2) := by
  induction a generalizing m n with
  | nil => simp [readLines]
  | cons line a ih =>
    rw [cons_append, readLines, ih, readLines]
    simp [Nat.add_assoc, Nat.add_comm 1]

/-- The meter after lines that report an error, and name the failure by it. -/
def noted (m : MeterStream) (err named : Bool) : MeterStream :=
  { m with
    sawError := m.sawError || err
    failure := if named then { m.failure with
      errorClass := m.failure.errorClass.or (some .streamInbandError) } else m.failure }

theorem noted_noted (m : MeterStream) (e n e' n' : Bool) :
    noted (noted m e n) e' n' = noted m (e || e') (n || n') := by
  cases n <;> cases n' <;> simp [noted, Bool.or_assoc]

theorem detectOutcome_eq (m : MeterStream) (v : Value) :
    m.detectOutcome v = noted m (reportsError v) (carriesError v) := by
  unfold detectOutcome noted reportsError
  cases hc : carriesError v <;> cases hf : choicesError v || stopReasonError v <;> simp [hf]

variable (decode shown) in
/-- Only the errors that lines report are remembered. -/
theorem readLines_state (m : MeterStream) (n : Nat) (lines : List String) :
    ∃ err named, (readLines decode shown m n lines).1 = noted m err named ∧
      (named = true → err = true) ∧
      (err = true → ∃ line ∈ lines, ∃ v, lineEvent decode line = some v ∧
        reportsError v) := by
  induction lines generalizing m n with
  | nil => exact ⟨false, false, by simp [readLines, noted], by simp, by simp⟩
  | cons line lines ih =>
    cases hv : lineEvent decode line with
    | none =>
      obtain ⟨err, named, hrest, hnamed, herr⟩ := ih m (n + 1)
      refine ⟨err, named, ?_, hnamed, fun h => ?_⟩
      · rw [readLines, readLine, hv]
        exact hrest
      · obtain ⟨line', hmem, v, hv', hrep⟩ := herr h
        exact ⟨line', mem_cons_of_mem line hmem, v, hv', hrep⟩
    | some v =>
      obtain ⟨err, named, hrest, hnamed, herr⟩ := ih (m.detectOutcome v) (n + 1)
      refine ⟨reportsError v || err, carriesError v || named, ?_, ?_, fun h => ?_⟩
      · rw [readLines, readLine, hv]
        dsimp only
        rw [hrest, detectOutcome_eq, noted_noted]
      · rw [Bool.or_eq_true, Bool.or_eq_true]
        rintro (h | h)
        · exact .inl (by simp [reportsError, h])
        · exact .inr (hnamed h)
      · rw [Bool.or_eq_true] at h
        rcases h with h | h
        · exact ⟨line, mem_cons_self, v, hv, h⟩
        · obtain ⟨line', hmem, v, hv', hrep⟩ := herr h
          exact ⟨line', mem_cons_of_mem line hmem, v, hv', hrep⟩

theorem isInbandError_of_reportsError {v : Value} (h : reportsError v) : isInbandError v := by
  unfold reportsError carriesError at h
  unfold isInbandError
  simp only [Bool.or_eq_true] at h ⊢
  tauto

/-! An item. -/

theorem splitLines_frame {ls : List (List Char)} (h : ∀ l ∈ ls, IsLine l) :
    splitLines (fromUtf8Lossy (utf8 (ofList (frame ls)))) =
      ls.map ofList ++ ["", ""] := by
  rw [fromUtf8Lossy_utf8, splitLines, toList_ofList, frame, splitOn_block fun l hl => (h l hl).2.1]
  simp

theorem intercalate_frame (ls : List (List Char)) :
    ['\n'].intercalate (ls ++ [[], []]) = frame ls := by
  induction ls with
  | nil => rfl
  | cons l ls ih =>
    rw [frame_cons, ← ih]
    cases ls <;> simp [intercalate]

variable (decode shown) in
/-- The meter hands an event on with its lines as they are shown. -/
theorem transformLines_frame {ls : List (List Char)} (h : ∀ l ∈ ls, IsLine l) (m : MeterStream) :
    ∃ ls' : List (List Char),
      Forall₂ (fun l l' => Shows decode shown (ofList l) (ofList l')) ls ls' ∧
      (transformLines decode shown m (utf8 (ofList (frame ls)))).2 =
        utf8 (ofList (frame ls')) := by
  have hblank (m : MeterStream) (n : Nat) :
      readLines decode shown m n ["", ""] = (m, [("", false), ("", false)]) := rfl
  have hshows := readLines_shows decode shown m 0 (ls.map ofList)
  have hkept := readLines_kept decode shown m 0 (ls.map ofList)
  unfold transformLines
  rw [splitLines_frame h, readLines_append]
  dsimp only
  rw [hblank]
  generalize readLines decode shown m 0 (ls.map ofList) = r at hshows hkept ⊢
  refine ⟨(r.2.map Prod.fst).map String.toList, ?_, ?_⟩
  · rw [forall₂_map_right_iff]
    rw [forall₂_map_left_iff] at hshows
    exact hshows.imp fun _ _ hs => by rwa [String.ofList_toList]
  · dsimp only
    split
    · rw [utf8_inj, ← String.toList_inj, String.toList_intercalate, toList_ofList,
        ← intercalate_frame]
      simp
    · next hany =>
      simp only [any_append, any_cons, any_nil, Bool.or_false, Bool.not_eq_true] at hany
      rw [hkept hany]
      simp

/-! The values of its lines. -/

theorem dataValue_data (r : Bytes) :
    ∃ x, dataValue (utf8 "data:" ++ r) = some x := by
  unfold dataValue
  rw [if_pos (by simp)]
  split
  · exact ⟨_, rfl⟩
  · exact ⟨_, rfl⟩

/-- A line that reads as an event of its own is a `data` line. -/
theorem dataValue_of_lineEvent {line : String} {v : Value} (h : lineEvent decode line = some v) :
    ∃ x, dataValue (utf8 line) = some x := by
  obtain ⟨rest, hrest, -⟩ := Option.bind_eq_some_iff.mp h
  rw [← Text.stripPrefix_eq hrest, utf8_append]
  exact dataValue_data _

theorem dataValue_shown (u : Value) :
    dataValue (utf8 ("data: " ++ jsonStr u)) = some (print u) := by
  have hsplit : utf8 ("data: " ++ jsonStr u) = utf8 "data:" ++ 32 :: print u := by
    rw [utf8_append, utf8_jsonStr]
    rfl
  rw [hsplit]
  rfl

/-- The lines of an event in bytes. -/
def byteLines (ls : List (List Char)) : List Bytes := ls.map fun l => utf8 (String.ofList l)

theorem byteLines_lines {ls : List (List Char)} (h : ∀ l ∈ ls, IsLine l) :
    ∀ l ∈ byteLines ls, l ≠ [] ∧ OneLine l := by
  intro b hb
  obtain ⟨l, hl, rfl⟩ := mem_map.mp hb
  obtain ⟨hne, hlf, hcr⟩ := h l hl
  have hback {n : Nat} (hn : n < 128) (hmem : UInt8.ofNat n ∈ utf8 (ofList l)) :
      Char.ofNat n ∈ l := by
    rw [utf8_ofList] at hmem
    obtain ⟨c, hc, hmem⟩ := mem_flatMap.mp hmem
    exact char_of_mem_encode hn hmem ▸ hc
  refine ⟨?_, fun h10 => hlf (hback (by decide) h10), fun h13 => hcr (hback (by decide) h13)⟩
  intro hnil
  have hempty : ofList l = "" := utf8_inj.mp hnil
  exact hne (by simpa using congrArg String.toList hempty)

theorem dataValues_frame {ls : List (List Char)} (h : ∀ l ∈ ls, IsLine l) :
    dataValues (utf8 (ofList (frame ls))) =
      (byteLines ls).filterMap dataValue := by
  have hblank : dataValue (utf8 "") = none := rfl
  rw [dataValues, splitLines_frame h, filterMap_append, byteLines, filterMap_map, filterMap_map]
  simp [hblank]

/-- Lines of which none reads as an event are shown as they are. -/
theorem eq_of_silent {ls ls' : List (List Char)}
    (h : Forall₂ (fun l l' => Shows decode shown (ofList l) (ofList l')) ls ls')
    (hsilent : ∀ l ∈ ls, dataValue (utf8 (ofList l)) = none ∨
      lineEvent decode (ofList l) = none) : ls' = ls := by
  have heq : Forall₂ (fun l l' => l = l') ls ls' := by
    refine ((forall₂_and_left _ _).mpr ⟨hsilent, h⟩).imp ?_
    rintro l l' ⟨hl, heq | ⟨v, n, u, hv, -⟩⟩
    · exact (ofList_inj.mp heq).symm
    · obtain ⟨x, hx⟩ := dataValue_of_lineEvent hv
      rcases hl with hl | hl
      · rw [hl] at hx
        cases hx
      · rw [hl] at hv
        cases hv
  rw [forall₂_eq_eq_eq] at heq
  exact heq.symm

/-- With one `data` line at most, an event grows by what that line becomes. -/
theorem length_shown {ls ls' : List (List Char)} {k : Nat}
    (h : Forall₂ (fun l l' => Shows decode shown (ofList l) (ofList l')) ls ls')
    (hone : ((byteLines ls).filterMap dataValue).length ≤ 1)
    (hk : ∀ l ∈ ls, ∀ v n u, lineEvent decode (ofList l) = some v →
      withUsage v (shown n) = some u → (print u).length + 6 ≤ k) :
    (block (byteLines ls')).length ≤ (block (byteLines ls)).length + k := by
  induction h with
  | nil => exact Nat.le_add_right _ k
  | @cons l l' ls ls' hl hrest ih =>
    rw [forall_mem_cons] at hk
    have hsplit (l : List Char) (ls : List (List Char)) : (block (byteLines (l :: ls))).length =
        (utf8 (ofList l)).length + 1 + (block (byteLines ls)).length := by
      rw [byteLines, map_cons, block_cons, length_append, length_cons, byteLines]
      omega
    rw [hsplit, hsplit]
    rcases hl with heq | ⟨v, n, u, hv, hu, heq⟩
    · have hsub : (byteLines ls).filterMap dataValue <:+
          (byteLines (l :: ls)).filterMap dataValue :=
        IsSuffix.filterMap _ (suffix_cons _ _)
      have hle := ih (hsub.length_le.trans hone) hk.2
      rw [heq]
      omega
    · obtain ⟨x, hx⟩ := dataValue_of_lineEvent hv
      -- this is the one data line, so the others stay
      have hnone : (byteLines ls).filterMap dataValue = [] := by
        rw [byteLines, map_cons, filterMap_cons_some hx, length_cons] at hone
        exact eq_nil_of_length_eq_zero (by rw [byteLines]; omega)
      have hsame : ls' = ls := by
        refine eq_of_silent hrest fun l hl => .inl ?_
        exact filterMap_eq_nil_iff.mp hnone _ (mem_map_of_mem hl)
      have hlen : (utf8 (ofList l')).length = 6 + (print u).length := by
        have hdata : (utf8 "data: ").length = 6 := rfl
        rw [heq, utf8_append, utf8_jsonStr, length_append, hdata]
      have hgrow := hk.1 v n u hv hu
      rw [hsame]
      omega

section Shown

variable {m : MeterStream} {ls ls' : List (List Char)}
  (hls : ∀ l ∈ ls, IsLine l)
  (hfair : Fair decode m (utf8 (String.ofList (frame ls))) shown)
  (hshown : List.Forall₂ (fun l l' => Shows decode shown (String.ofList l) (String.ofList l')) ls ls')

include hls in
theorem mem_splitLines_frame {l : List Char} (hl : l ∈ ls) : ofList l ∈
    splitLines (fromUtf8Lossy (utf8 (ofList (frame ls)))) := by
  rw [splitLines_frame hls]
  exact mem_append_left _ (mem_map_of_mem hl)

include hls hfair

theorem Fair.whole_of_mem {l : List Char} (hl : l ∈ ls) {v : Value}
    (hv : lineEvent decode (ofList l) = some v) :
    ∃ d, (byteLines ls).filterMap dataValue = [d] ∧ d ≠ utf8 "[DONE]" ∧
      decode d = some v ∧ dataValue (utf8 (ofList l)) = some d := by
  obtain ⟨d, hd, hne, hread⟩ := hfair.whole _ (mem_splitLines_frame hls hl) v hv
  rw [dataValues_frame hls] at hd
  obtain ⟨x, hx⟩ := dataValue_of_lineEvent hv
  have hxd : x ∈ (byteLines ls).filterMap dataValue :=
    mem_filterMap.mpr ⟨_, mem_map_of_mem hl, hx⟩
  rw [hd, mem_singleton] at hxd
  exact ⟨d, hd, hne, hread, hxd ▸ hx⟩

theorem Fair.sameReading_line {l l' : List Char} (hl : l ∈ ls)
    (h : Shows decode shown (ofList l) (ofList l')) :
    Option.Rel (SameReading decode) (dataValue (utf8 (ofList l)))
      (dataValue (utf8 (ofList l'))) := by
  rcases h with heq | ⟨v, n, u, hv, hu, heq⟩
  · rw [heq]
    cases dataValue (utf8 (ofList l)) with
    | none => exact .none
    | some x => exact .some (.refl decode x)
  · obtain ⟨d, -, hne, hread, hval⟩ := hfair.whole_of_mem hls hl hv
    obtain ⟨-, u', hback, hsigns⟩ :=
      hfair.rewritten _ (mem_splitLines_frame hls hl) v n u hv hu
    rw [heq, hval, dataValue_shown]
    refine .some ⟨iff_of_false hne (print_withUsage_ne hu), ?_⟩
    rw [hread, hback]
    exact .some ((sameSigns_withUsage hu).trans hsigns)

include hshown

/-- The event as it is shown fits, and its payload is read as the one that came in. -/
theorem Fair.fits_and_reads :
    (block (byteLines ls')).length ≤ maxObservedEventBytes ∧
    Option.Rel (SameReading decode) (joined ((byteLines ls).filterMap dataValue))
      (joined ((byteLines ls').filterMap dataValue)) := by
  have hsize := hfair.size
  rw [utf8_frame, ← byteLines] at hsize
  by_cases hev : ∃ l ∈ ls, ∃ v, lineEvent decode (ofList l) = some v
  · obtain ⟨l₀, hl₀, v₀, hv₀⟩ := hev
    obtain ⟨d, hd, -⟩ := hfair.whole_of_mem hls hl₀ hv₀
    constructor
    · have hlen := length_shown hshown (by simp [hd])
        (k := maxObservedEventBytes - (block (byteLines ls)).length) ?_
      · omega
      · intro l hl v n u hv hu
        have hfit := (hfair.rewritten _ (mem_splitLines_frame hls hl) v n u hv hu).1
        rw [utf8_frame, ← byteLines] at hfit
        omega
    · have hpairs := ((forall₂_and_left _ _).mpr ⟨fun l hl => hl, hshown⟩).imp
        fun _ _ h => hfair.sameReading_line hls h.1 h.2
      have hvalues := rel_filterMap (fun _ _ h => h) hpairs
      change Forall₂ _ (filterMap (dataValue ∘ _) ls) (filterMap (dataValue ∘ _) ls') at hvalues
      rw [← filterMap_map, ← filterMap_map, ← byteLines, ← byteLines, hd] at hvalues
      obtain ⟨d', rest, hd', hnil, heq⟩ := forall₂_cons_left_iff.mp hvalues
      rw [forall₂_nil_left_iff] at hnil
      rw [hd, heq, hnil]
      simpa [joined] using hd'
  · have hsame : ls' = ls := by
      refine eq_of_silent hshown fun l hl => .inr (Option.eq_none_iff_forall_ne_some.mpr ?_)
      exact fun v hv => hev ⟨l, hl, v, hv⟩
    rw [hsame]
    refine ⟨hsize, ?_⟩
    cases joined ((byteLines ls).filterMap dataValue) with
    | none => exact .none
    | some d => exact .some (.refl decode d)

end Shown

/-! A run. -/

/-- Between items the meter has noted what both observers have. -/
structure Watching (report : StreamReport) (m : MeterStream) (g : SseFramingObserver) : Prop where
  report : m.report = report
  buf : m.buf = []
  reading : m.innerDone = false
  unsettled : m.settled = false
  failure : m.failure = {} ∨
    m.framing.sawError ∧ m.failure = { errorClass := some .streamInbandError }
  sawError : m.sawError → m.framing.sawError
  protocol : m.framing.protocol.isSome
  framing : m.framing.Resting
  observer : g.Resting
  agree : m.framing.Agree g

variable {report : StreamReport} {m : MeterStream} {g : SseFramingObserver}

theorem watching_new (report : StreamReport) (protocol : SseProtocol) :
    Watching report (.new report protocol) (.withProtocol (some protocol)) :=
  ⟨rfl, rfl, rfl, rfl, .inl rfl, by simp [new], rfl, ⟨rfl, rfl, rfl, rfl, rfl⟩,
    ⟨rfl, rfl, rfl, rfl, rfl⟩, .refl _⟩

variable (decode) in
theorem Watching.heartbeat (h : Watching report m g) :
    Watching report m (g.observe decode keepAliveComment) := by
  have hcomment : keepAliveComment = block [utf8 ": PROCESSING"] := by decide
  rw [hcomment, SseFramingObserver.observe_comment h.observer ⟨by decide, by decide⟩ rfl (by decide)]
  exact h

open SseFramingObserver (observe_of_done observe_block observeEvent observePayload observeTerminal observationUsable)

/-- The observer of the meter has seen every error that a line reports. -/
theorem Watching.sawError_observe (h : Watching report m g) {ls : List (List Char)}
    (hls : ∀ l ∈ ls, IsLine l) (hfair : Fair decode m (utf8 (ofList (frame ls))) shown)
    {line : String} {v : Value}
    (hline : line ∈ splitLines (fromUtf8Lossy (utf8 (ofList (frame ls)))))
    (hv : lineEvent decode line = some v) (hrep : reportsError v) :
    (m.framing.observe decode (block (byteLines ls))).sawError := by
  by_cases hdone : m.framing.done
  · rw [observe_of_done hdone]
    exact hfair.timely line hline v hv hdone hrep
  · have hsize := hfair.size
    rw [utf8_frame, ← byteLines] at hsize
    obtain ⟨d, hd, hne, hread⟩ := hfair.whole line hline v hv
    rw [dataValues_frame hls] at hd
    obtain ⟨protocol, hp⟩ := Option.isSome_iff_exists.mp h.protocol
    rw [observe_block h.framing hdone (byteLines_lines hls) hsize, hd]
    simp [observeEvent, joined, observePayload, hne, hread,
      observeTerminal, hp, isInbandError_of_reportsError hrep]

theorem sawError_mono {o : SseFramingObserver} {ls : List Bytes} (h : o.Resting)
    (hls : ∀ l ∈ ls, l ≠ [] ∧ OneLine l) (hcap : (block ls).length ≤ maxObservedEventBytes)
    (hs : o.sawError) : (o.observe decode (block ls)).sawError := by
  by_cases hdone : o.done
  · rwa [observe_of_done hdone]
  · rw [observe_block h hdone hls hcap, observeEvent]
    cases joined (ls.filterMap dataValue) with
    | none => exact hs
    | some d =>
      simp only [Option.elim_some, observePayload, observeTerminal]
      split
      · exact hs
      · cases decode d with
        | none => exact hs
        | some v =>
          cases o.protocol with
          | none => exact hs
          | some protocol => simp [hs]

theorem length_le_intercalate {l : Bytes} {ls : List Bytes} (sep : Bytes) (h : l ∈ ls) :
    l.length ≤ (sep.intercalate ls).length := by
  induction ls with
  | nil => cases h
  | cons k ls ih =>
    cases ls with
    | nil => simp [mem_singleton.mp h, intercalate]
    | cons k' ls =>
      have hsplit : sep.intercalate (k :: k' :: ls) = k ++ sep ++ sep.intercalate (k' :: ls) := by
        simp [intercalate]
      rw [hsplit, length_append, length_append]
      rcases mem_cons.mp h with rfl | h
      · omega
      · have hrest := ih h
        omega

variable {b : Bytes}

theorem oversizedLine_of_length (h : b.length ≤ maxObservedEventBytes) :
    oversizedLine b = false := by
  rw [oversizedLine, any_eq_false]
  intro l hl
  have hle := length_le_intercalate [10] hl
  rw [intercalate_splitOn] at hle
  have hcap : maxSseLineBytes = maxObservedEventBytes := rfl
  simpa [hcap] using hle.trans h

theorem completeLines_block (ls : List Bytes) : completeLines (block ls) = block ls := by
  simp [completeLines, block]

variable (decode shown) in
theorem process_block {ls : List Bytes} (m : MeterStream) (hbuf : m.buf = [])
    (hfits : oversizedLine (block ls) = false) :
    m.process decode shown (block ls) =
      let r := transformLines decode shown m (block ls)
      (r.1, .emit r.2) := by
  have hne : block ls ≠ [] := by simp [block]
  have hsame : { m with buf := [] } = m := by rw [← hbuf]
  unfold process
  dsimp only
  rw [hbuf, nil_append, hfits, completeLines_block, if_neg hne, drop_length, hsame]
  rfl

/-- The meter with its observer past an event, before it reads the lines. -/
def observed (decode : Bytes → Option Value) (m : MeterStream) (b : Bytes) : MeterStream :=
  { m with started := true, framing := m.framing.observe decode b }

/-- What the meter does with a whole event that it has room for. -/
theorem pollNext_block {ls : List Bytes} (m : MeterStream) (hopen : m.innerDone = false)
    (hbuf : m.buf = []) (hfits : oversizedLine (block ls) = false) :
    m.pollNext decode false (.chunk (block ls) shown) =
      let r := transformLines decode shown (observed decode m (block ls)) (block ls)
      (r.1, [], some (.item r.2)) := by
  have hprocess := process_block decode shown (observed decode m (block ls)) hbuf hfits
  unfold pollNext
  dsimp only [observed] at hprocess ⊢
  rw [if_neg (by simp [hopen]), hprocess]

theorem Shows.isLine {l l' : List Char} (hl : IsLine l)
    (h : Shows decode shown (ofList l) (ofList l')) : IsLine l' := by
  rcases h with heq | ⟨v, n, u, -, -, heq⟩
  · rwa [ofList_inj.mp heq]
  · have hline := isLine_prefixed (s := "data: ") (by decide) (by decide) (isLine_jsonStr u).2
    rwa [← heq, toList_ofList] at hline

theorem Shows.lines {ls ls' : List (List Char)} (hls : ∀ l ∈ ls, IsLine l)
    (h : Forall₂ (fun l l' => Shows decode shown (ofList l) (ofList l')) ls ls') :
    ∀ l ∈ ls', IsLine l := by
  have hboth : Forall₂ (fun l l' => IsLine l' ∧ True) ls ls' :=
    ((forall₂_and_left _ _).mpr ⟨hls, h⟩).imp fun _ _ hl => ⟨hl.2.isLine hl.1, trivial⟩
  exact ((forall₂_and_left _ _).mp hboth.flip).1

/-- What an event leaves in the meter: its observer past it, and the errors its lines report. -/
theorem Watching.noted (h : Watching report m g) {o : SseFramingObserver}
    {err named : Bool} (hnamed : named = true → err = true)
    (hmono : m.framing.sawError → (m.framing.observe decode b).sawError)
    (hseen : err = true → (m.framing.observe decode b).sawError)
    (hrest : (m.framing.observe decode b).Resting) (ho : o.Resting)
    (hagree : (m.framing.observe decode b).Agree o) :
    Watching report (noted (observed decode m b) err named) o := by
  refine ⟨h.report, h.buf, h.reading, h.unsettled, ?_, ?_, ?_, hrest, ho, hagree⟩
  · unfold Usage.noted
    dsimp only [observed]
    cases hn : named with
    | false =>
      rcases h.failure with hf | ⟨hs, hf⟩
      · exact .inl (by simpa using hf)
      · exact .inr ⟨hmono hs, by simpa using hf⟩
    | true =>
      refine .inr ⟨hseen (hnamed hn), ?_⟩
      rcases h.failure with hf | ⟨-, hf⟩ <;> simp [hf]
  · intro hs
    rcases (Bool.or_eq_true _ _).mp hs with hs | hs
    · exact hmono (h.sawError hs)
    · exact hseen hs
  · show (m.framing.observe decode b).protocol.isSome
    rw [SseFramingObserver.observe_protocol]
    exact h.protocol

/-- The meter hands a whole event on, and knows of it what the observers do. -/
theorem Watching.item (h : Watching report m g) (hb : IsEvent b) (hfair : Fair decode m b shown) :
    ∃ m' out, m.pollNext decode false (.chunk b shown) = (m', [], some (.item out)) ∧
      Watching report m' (g.observe decode out) := by
  obtain ⟨ls, hls, rfl⟩ := hb
  have hbytes := utf8_frame ls
  rw [← byteLines] at hbytes
  have hsize := hfair.size
  rw [hbytes] at hsize
  have hlines := byteLines_lines hls
  obtain ⟨ls', hshown, hout⟩ := transformLines_frame decode shown hls
    (observed decode m (block (byteLines ls)))
  obtain ⟨err, named, hstate, hnamed, herr⟩ := readLines_state decode shown
    (observed decode m (block (byteLines ls))) 0
    (splitLines (fromUtf8Lossy (utf8 (ofList (frame ls)))))
  obtain ⟨hcap', hreading⟩ := hfair.fits_and_reads hls hshown
  have hls' := Shows.lines hls hshown
  obtain ⟨hagree, hrest, hrest'⟩ := h.agree.observe_block decode h.framing h.observer
    hlines (byteLines_lines hls') hsize hcap' hreading
  refine ⟨_, _, ?_, h.noted hnamed (sawError_mono h.framing hlines hsize) ?_ hrest hrest' hagree⟩
  · rw [hbytes, pollNext_block m h.reading h.buf (oversizedLine_of_length hsize)]
    rw [hbytes] at hout hstate
    dsimp only
    rw [hout, utf8_frame, ← byteLines, ← hstate]
    rfl
  · intro he
    obtain ⟨line, hline, v, hv, hrep⟩ := herr he
    exact h.sawError_observe hls hfair hline hv hrep

/-! The end of a run. -/

/-- A stream that did not fail is reported without a reason. -/
theorem postReport_of_ne (m : MeterStream) {outcome : Outcome} {f f' : StreamFailure}
    (h : outcome = .failed → f = f') :
    m.postReport false outcome f = m.postReport false outcome f' := by
  cases outcome with
  | failed => rw [h rfl]
  | completed => rfl
  | clientClosed => rfl

theorem Watching.sawError_eq (h : Watching report m g) :
    (m.sawError || m.framing.sawError) = g.sawError := by
  rw [← h.agree.error]
  cases hs : m.sawError with
  | false => rfl
  | true => simp [h.sawError hs]

theorem Watching.protocolOutcome (h : Watching report m g) (clean : Bool) :
    m.protocolOutcome clean =
      if g.sawError then .failed
      else if g.sawTerminal || (clean && g.atEventBoundary && g.observationUsable) then .completed
      else .failed := by
  have hclean : m.framing.atEventBoundary = true ∧ g.atEventBoundary = true := by
    simp [SseFramingObserver.atEventBoundary, h.framing.line, h.framing.mid, h.observer.line,
      h.observer.mid]
  unfold MeterStream.protocolOutcome observationUsable
  rw [h.sawError_eq, hclean.1, hclean.2, h.agree.terminal, h.agree.failed]

theorem Watching.namedFailure (h : Watching report m g) :
    m.namedFailure .failed =
      { errorClass := some (if g.sawError then .streamInbandError else .streamTruncated) } := by
  unfold MeterStream.namedFailure
  rw [h.sawError_eq]
  rcases h.failure with hf | ⟨hs, hf⟩
  · simp [hf]
  · rw [h.agree.error] at hs
    simp [hf, hs]

theorem pollNext_ended (hreading : m.innerDone = false) (hbuf : m.buf = [])
    (hopen : m.settled = false) (last : Nat → Value → Option Value) :
    (m.pollNext decode false (.ended last)).2 =
      ([m.postReport false (m.protocolOutcome true) (m.namedFailure (m.protocolOutcome true))],
        some .none) := by
  simp only [pollNext, flush, settle, hreading, hbuf, hopen, Bool.false_eq_true, if_false, if_true]
  rfl

theorem pollNext_failed (hreading : m.innerDone = false) (hopen : m.settled = false)
    (e : ServiceError) :
    (m.pollNext decode false (.failed e)).2.1 =
      [m.postReport false (m.protocolOutcome false)
        ({ m with failure := .fromError e }.namedFailure (m.protocolOutcome false))] := by
  simp only [pollNext, settle, close, hreading, hopen, Bool.false_eq_true, if_false]
  rfl

theorem namedFailure_fromError (m : MeterStream) (e : ServiceError) :
    ({ m with failure := .fromError e }).namedFailure .failed = .fromError e := by
  have hname : (StreamFailure.fromError e).errorClass.isSome := by
    unfold StreamFailure.fromError
    split <;> rfl
  obtain ⟨c, hc⟩ := Option.isSome_iff_exists.mp hname
  simp only [namedFailure, if_true]
  rw [hc, Option.some_or, ← hc]

theorem conclude_ended (last : Nat → Value → Option Value) {posted : List PostReport}
    (h : (m.pollNext decode false (.ended last)).2 = (posted, some .none)) :
    conclude decode last m g (some .ended) = { posted, parser := g } := by
  unfold conclude
  dsimp only
  rw [h]

variable (decode) in
/-- At the end the meter reports what the observer of the finalizer implies. -/
theorem Watching.settled (h : Watching report m g) (last : Nat → Value → Option Value)
    (final : Option Ending) :
    let v := conclude decode last m g final
    v.posted = [m.postReport false v.judged v.reason] := by
  match final with
  | none =>
    have hdrop : (m.drop false).2 = [m.postReport false .clientClosed m.failure] := by
      simp [MeterStream.drop, MeterStream.settle, h.unsettled, MeterStream.namedFailure]
    show (m.drop false).2 = _
    rw [hdrop]
    exact congrArg (fun r => [r]) (postReport_of_ne _ (by simp))
  | some .ended =>
    dsimp only
    rw [conclude_ended last (pollNext_ended h.reading h.buf h.unsettled last)]
    rw [h.protocolOutcome]
    refine congrArg (fun r => [r]) (postReport_of_ne _ fun hfailed => ?_)
    rw [hfailed]
    exact h.namedFailure
  | some (.failed e) =>
    show (m.pollNext decode false (.failed e)).2.1 = _
    rw [pollNext_failed h.reading h.unsettled, h.protocolOutcome]
    refine congrArg (fun r => [r]) (postReport_of_ne _ fun hfailed => ?_)
    rw [hfailed]
    exact namedFailure_fromError m e

theorem postReport_report {m m' : MeterStream} (h : m.report = m'.report) :
    m.postReport = m'.postReport := by
  unfold postReport
  rw [h]

/-- Along a run the meter stays in step with the observers, and then reports what they imply. -/
theorem Watching.run (h : Watching report m g) (protocol : SseProtocol)
    (last : Nat → Value → Option Value) (final : Option Ending) {ps : List Passing}
    (hitems : ∀ b ∈ ps.filterMap Passing.bytes?, IsEvent b) (hfair : FairRun decode ps m) :
    let v := conduct decode last final ps m g
    v.posted = [(new report protocol).postReport false v.judged v.reason] ∧
      v.left = final.isNone := by
  induction ps generalizing m g with
  | nil =>
    have hsettled := h.settled decode last final
    have hreport : m.postReport = (new report protocol).postReport :=
      postReport_report h.report
    rw [hreport] at hsettled
    refine ⟨hsettled, ?_⟩
    match final with
    | none => rfl
    | some .ended => rfl
    | some (.failed e) => rfl
  | cons p ps ih =>
    cases p with
    | heartbeat =>
      have hrest := ih (h.heartbeat decode) hitems hfair
      rwa [conduct]
    | item b shown =>
      obtain ⟨hb, hitems⟩ : IsEvent b ∧ ∀ b ∈ ps.filterMap Passing.bytes?, IsEvent b := by
        simpa [Passing.bytes?] using hitems
      obtain ⟨m', out, hpoll, hnext⟩ := h.item hb hfair.1
      have hrest := ih hnext hitems (by simpa [hpoll] using hfair.2)
      rwa [conduct, hpoll]

/-! What the finalizer does, and what it implies. -/

theorem streamErrorTail_ne (protocol p : SseProtocol) (requestId : Option String)
    (last : Option U64) :
    streamSuccessTerminator p ≠ some (streamErrorTail protocol requestId last) := by
  intro heq
  have hhead : (streamErrorTail protocol requestId last).head? = some 10 := by
    cases protocol <;> rfl
  cases p with
  | openaiChat =>
    rw [← Option.some.inj heq] at hhead
    exact absurd hhead (by decide)
  | openaiResponses => cases heq
  | anthropicMessages => cases heq

namespace Verdict

variable {v : Verdict} {requestId : Option String}

theorem judged_of_toldError (h : v.ToldError requestId) : v.judged ≠ .completed := by
  unfold judged
  split
  · simp
  · rcases h with hs | ⟨protocol, htail⟩
    · simp [hs]
    · obtain ⟨p, -, hterm, -, -, -, ⟨-, -, heq⟩ | ⟨hbroken, -⟩⟩ :=
        takeSynthesizedTail_eq_some htail
      · exact absurd (congrArg some heq.symm) (streamErrorTail_ne protocol .openaiChat requestId _)
      · dsimp only [shared] at hterm hbroken
        simp [hterm, Option.isNone_eq_false_iff.mpr hbroken]

theorem judged_of_leftComplete (h : v.LeftComplete requestId) : v.judged ≠ .failed := by
  unfold judged
  split
  · simp
  · rcases h with ⟨p, terminator, hp, htail⟩ | ⟨hs, hterm | ⟨hcause, hat, hok⟩⟩
    · obtain ⟨q, -, -, hs, hat, hok, ⟨hbroken, -⟩ | ⟨-, -, heq⟩⟩ :=
        takeSynthesizedTail_eq_some htail
      · dsimp only [shared] at hs hat hok hbroken
        simp [hs, hat, observationUsable, hok, Option.isSome_eq_false_iff.mp hbroken]
      · exact absurd (heq ▸ hp) (streamErrorTail_ne q p requestId _)
    · simp [hs, hterm]
    · simp [hs, hcause, hat, hok]

theorem judged_eq_clientClosed : v.judged = .clientClosed ↔ v.left = true := by
  unfold judged
  split_ifs with hleft <;> simp [hleft]

end Verdict

theorem Delivered.items {S : Sanitizer} {chunks : List Bytes} {ending : Ending}
    {ps : List Passing} {final : Option Ending} (h : Delivered S chunks ending ps final) :
    ∀ b ∈ ps.filterMap Passing.bytes?, IsEvent b := by
  have hall := isEvent_sanitize S SseEventReader.inv_initial chunks ending
  cases final with
  | none => exact fun b hb => hall b (h.mem hb)
  | some e =>
    have hsame := h
    rwa [hsame] at hall

/-- When every item is read by the meter as by the observers, the one report on a stream says what
the observer of the finalizer implies: a client that is told of an error has no completed stream,
and one whose stream is left as complete has no failed one. -/
theorem judged_alike (S : Sanitizer) (protocol : SseProtocol) (report : StreamReport)
    (last : Nat → Value → Option Value) (requestId : Option String) (chunks : List Bytes)
    (ending : Ending) (ps : List Passing) (final : Option Ending)
    (hps : Delivered S chunks ending ps final)
    (hfair : FairRun S.decode ps (.new report protocol)) :
    let v := stream S.decode last report protocol ps final
    ∃ outcome reason,
      v.posted = [(MeterStream.new report protocol).postReport false outcome reason] ∧
      outcome = v.judged ∧ reason = v.reason ∧ (outcome = .clientClosed ↔ final = none) ∧
      (v.ToldError requestId → outcome ≠ .completed) ∧
      (v.LeftComplete requestId → outcome ≠ .failed) := by
  obtain ⟨hposted, hleft⟩ := (watching_new report protocol).run protocol last final hps.items hfair
  refine ⟨_, _, hposted, rfl, rfl, ?_, Verdict.judged_of_toldError,
    Verdict.judged_of_leftComplete⟩
  rw [Verdict.judged_eq_clientClosed, hleft]
  exact Option.isNone_iff_eq_none

def plainSanitizer : Sanitizer where
  decode := fromSlice fun _ => none
  edit := fun _ => none
  typed := by simp

/-- An event with usage that is shown another way. -/
def usageEvent : Bytes := utf8 "data: \x7b\"usage\":1\x7d\n\n"

/-- Usage is shown as zero. -/
def showZero : Nat → Value → Option Value := fun _ _ => some (.num (.posInt 0))

theorem judged_alike_usage :
    Delivered plainSanitizer [usageEvent] .ended [.heartbeat, .item usageEvent showZero]
      (some .ended) ∧
    let v := stream plainSanitizer.decode showZero ⟨"r", 0, 200⟩ .openaiChat
      [.heartbeat, .item usageEvent showZero] (some .ended)
    ∃ outcome reason,
      v.posted = [(MeterStream.new ⟨"r", 0, 200⟩ .openaiChat).postReport false outcome reason] ∧
      outcome = v.judged ∧ reason = v.reason ∧
      (outcome = .clientClosed ↔ (some Ending.ended) = none) ∧
      (v.ToldError none → outcome ≠ .completed) ∧ (v.LeftComplete none → outcome ≠ .failed) := by
  have hps : Delivered plainSanitizer [usageEvent] .ended [.heartbeat, .item usageEvent showZero]
      (some .ended) := by
    show sanitize _ _ _ _ = _
    decide +kernel
  refine ⟨hps, judged_alike plainSanitizer .openaiChat ⟨"r", 0, 200⟩ showZero none [usageEvent]
    .ended _ _ hps ?_⟩
  have hlines : splitLines (fromUtf8Lossy usageEvent) =
      ["data: \x7b\"usage\":1\x7d", "", ""] := by decide +kernel
  have hdecode (n : U64) : plainSanitizer.decode (print (.obj [("usage", .num (.posInt n))])) =
      some (.obj [("usage", .num (.posInt n))]) := by
    have hdepth : depth (.obj [("usage", .num (.posInt n))]) = 1 := rfl
    exact fromSlice_print _ (by rw [hdepth]; decide) rfl rfl
  have htext : utf8 "\x7b\"usage\":1\x7d" = print (.obj [("usage", .num (.posInt 1))]) := by
    decide +kernel
  have hread : lineEvent plainSanitizer.decode "data: \x7b\"usage\":1\x7d" =
      some (.obj [("usage", .num (.posInt 1))]) := by
    rw [← hdecode 1, ← htext]
    rfl
  have hblank : lineEvent plainSanitizer.decode "" = none := rfl
  have honly {line : String} {v : Value}
      (hline : line ∈ splitLines (fromUtf8Lossy usageEvent))
      (hv : lineEvent plainSanitizer.decode line = some v) :
      v = .obj [("usage", .num (.posInt 1))] := by
    rw [hlines] at hline
    simp only [mem_cons, not_mem_nil, or_false, or_self] at hline
    rcases hline with rfl | rfl
    · rw [hread] at hv
      exact (Option.some.inj hv).symm
    · cases hv
  refine ⟨⟨by decide, fun line hline v hv => ?_, fun line hline v hv => ?_,
    fun line hline v n u hv hu => ?_⟩, trivial⟩
  · rw [honly hline hv]
    exact ⟨utf8 "\x7b\"usage\":1\x7d", by decide +kernel, by decide, htext ▸ hdecode 1⟩
  · intro hdone
    cases hdone
  · rw [honly hline hv] at hu
    have hshown : withUsage (.obj [("usage", .num (.posInt 1))]) (showZero n) =
        some (.obj [("usage", .num (.posInt 0))]) := rfl
    cases hu
    exact ⟨by decide +kernel, _, hdecode 0, .refl _⟩

/-! Where they part. -/

/-- An event whose first line alone is an error. Together its lines are no document. -/
def halfError : Bytes := utf8 "data: \x7b\"error\":1\x7d\ndata: x\n\n"

/-- The meter takes the line for an error, and reports a failure of a stream that the finalizer
completes. -/
theorem judged_apart :
    Delivered plainSanitizer [halfError] .ended [.item halfError fun _ _ => none] (some .ended) ∧
    let v := stream plainSanitizer.decode (fun _ _ => none) ⟨"r", 0, 200⟩ .openaiChat
      [.item halfError fun _ _ => none] (some .ended)
    v.posted = [(MeterStream.new ⟨"r", 0, 200⟩ .openaiChat).postReport false .failed
      { errorClass := some .streamInbandError }] ∧
    v.LeftComplete none ∧
    (v.shared none).takeSynthesizedTail.2 = some (utf8 "data: [DONE]\n\n") := by
  refine ⟨?_, ?_, ?_, ?_⟩
  · show sanitize _ _ _ _ = _
    decide +kernel
  · decide +kernel
  · right
    decide +kernel
  · decide +kernel

end AciGateway.Usage
