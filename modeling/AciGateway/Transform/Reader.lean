import AciGateway.Usage.Sanitizer

/-! What the reader of a stage makes of whole events. -/
namespace AciGateway.Usage.SseEventReader

open Octets EventStream List

variable {r : SseEventReader} {open_ ls : List Bytes} {c : UInt8}

/-! Whole events below the cap. -/

theorem pushByte_inner (hlf : c ≠ 10) (hcr : c ≠ 13) :
    r.pushByte c = ({ r with pendingCr := false, eventBuf := r.eventBuf ++ [c] }, none) := by
  simp [pushByte, hlf, hcr]

theorem pushByte_lf (h : r.pendingCr = false) : r.pushByte 10 = r.endLine := by
  obtain ⟨buf, start, cr⟩ := r
  cases (h : cr = false)
  simp [pushByte]

theorem pushChunk_cons (b : Bytes) (h : (r.pushByte c).1.eventBuf.length ≤ maxSseLineBytes) :
    r.pushChunk (c :: b) =
      (((r.pushByte c).1.pushChunk b).1, (r.pushByte c).2.toList ++ ((r.pushByte c).1.pushChunk b).2.1,
        ((r.pushByte c).1.pushChunk b).2.2) := by
  rw [pushChunk]
  exact if_neg (Nat.not_lt.mpr h)

/-- The reader between lines of an event. -/
def opened (ls : List Bytes) : SseEventReader := ⟨buffered ls, (buffered ls).length, false⟩

theorem pushChunk_within {l : Bytes} (h : OneLine l) (b : Bytes) (hr : r.pendingCr = false)
    (hcap : (r.eventBuf ++ l).length ≤ maxSseLineBytes) :
    r.pushChunk (l ++ b) = { r with eventBuf := r.eventBuf ++ l }.pushChunk b := by
  induction l generalizing r with
  | nil => simp
  | cons c l ih =>
    have hlf : c ≠ 10 := fun hc => h.1 (hc ▸ mem_cons_self)
    have hcr : c ≠ 13 := fun hc => h.2 (hc ▸ mem_cons_self)
    have hl : OneLine l := ⟨fun hm => h.1 (mem_cons_of_mem c hm),
      fun hm => h.2 (mem_cons_of_mem c hm)⟩
    have hfits : (r.eventBuf ++ [c]).length ≤ maxSseLineBytes := by
      simp only [length_append, length_cons, length_nil] at hcap ⊢
      omega
    have hbyte := pushByte_inner (r := r) hlf hcr
    rw [cons_append, pushChunk_cons _ (by rw [hbyte]; exact hfits), hbyte]
    dsimp only
    rw [ih hl rfl (by simpa using hcap)]
    simp [hr]

theorem buffered_length_concat (open_ : List Bytes) (l : Bytes) :
    (buffered (open_ ++ [l])).length = (buffered open_).length + l.length + 1 := by
  simp [buffered]
  omega

theorem pushChunk_line {l : Bytes} (h : OneLine l) (hne : l ≠ []) (b : Bytes)
    (hcap : (buffered (open_ ++ [l])).length ≤ maxSseLineBytes) :
    (opened open_).pushChunk (l ++ 10 :: b) = (opened (open_ ++ [l])).pushChunk b := by
  have hlength := buffered_length_concat open_ l
  have hpos : l.length ≠ 0 := fun h0 => hne (eq_nil_of_length_eq_zero h0)
  have hend : ({ opened open_ with eventBuf := (opened open_).eventBuf ++ l } :
      SseEventReader).pushByte 10 = (opened (open_ ++ [l]), none) := by
    rw [pushByte_lf rfl, endLine, if_neg (by simp [opened, hpos])]
    simp [opened, buffered]
    omega
  rw [pushChunk_within h _ rfl (by simp [opened]; omega),
    pushChunk_cons _ (by rw [hend]; exact hcap), hend]
  rfl

theorem pushChunk_lines (open_ : List Bytes) (h : ∀ l ∈ ls, OneLine l ∧ l ≠ []) (b : Bytes)
    (hcap : (buffered (open_ ++ ls)).length ≤ maxSseLineBytes) :
    (opened open_).pushChunk (buffered ls ++ b) = (opened (open_ ++ ls)).pushChunk b := by
  induction ls generalizing open_ with
  | nil => simp [buffered]
  | cons l ls ih =>
    rw [forall_mem_cons] at h
    have hsplit : open_ ++ l :: ls = open_ ++ [l] ++ ls := by simp
    rw [hsplit] at hcap ⊢
    have hfirst : (buffered (open_ ++ [l])).length ≤ maxSseLineBytes := by
      refine Nat.le_trans ?_ hcap
      simp [buffered]
    have hbytes : buffered (l :: ls) ++ b = l ++ 10 :: (buffered ls ++ b) := by simp [buffered]
    rw [hbytes, pushChunk_line h.1.1 h.1.2 _ hfirst, ih _ h.2 hcap]

/-- A whole event gives its lines, and the reader is as before it. -/
theorem pushChunk_event (hne : ls ≠ []) (h : ∀ l ∈ ls, OneLine l ∧ l ≠ [])
    (hcap : (buffered ls).length ≤ maxSseLineBytes) (b : Bytes) :
    pushChunk {} (block ls ++ b) =
      ((pushChunk {} b).1, fromUtf8Lossy (buffered ls) :: (pushChunk {} b).2.1,
        (pushChunk {} b).2.2) := by
  have hbytes : block ls ++ b = buffered ls ++ 10 :: b := by simp [block, buffered]
  have hbuf : buffered ls ≠ [] := fun hb => hne (buffered_eq_nil.mp hb)
  have hlines := pushChunk_lines [] h (10 :: b) (by simpa using hcap)
  have hend : (opened ls).pushByte 10 = ({}, some (fromUtf8Lossy (buffered ls))) := by
    rw [pushByte_lf rfl, endLine, takeEvent]
    simp [opened, hbuf]
  rw [hbytes, show ({} : SseEventReader) = opened [] from rfl, hlines, nil_append,
    pushChunk_cons _ (by rw [hend]; simp), hend]
  rfl

/-! Chunks, and the lines of the observer. -/

/-- The events of the chunks and of the end, unless one ran past the cap. -/
def deliver (r : SseEventReader) : List Bytes → Option (List String)
  | [] => some r.finish.2.toList
  | chunk :: chunks =>
    let out := r.pushChunk chunk
    if out.2.2 then none else (deliver out.1 chunks).map (out.2.1 ++ ·)

theorem deliver_append (r : SseEventReader) (a b : Bytes) (chunks : List Bytes) :
    r.deliver (a :: b :: chunks) = r.deliver ((a ++ b) :: chunks) := by
  induction a generalizing r with
  | nil =>
    change (r.deliver (b :: chunks)).map ([] ++ ·) = r.deliver (b :: chunks)
    simp
  | cons c a ih =>
    by_cases hover : maxSseLineBytes < (r.pushByte c).1.eventBuf.length
    · simp [deliver, pushChunk, hover]
    · have h : ∀ a chunks, r.deliver ((c :: a) :: chunks) =
          ((r.pushByte c).1.deliver (a :: chunks)).map ((r.pushByte c).2.toList ++ ·) := by
        intro a chunks
        simp only [deliver, pushChunk, if_neg hover, apply_ite (Option.map _), Option.map_none,
          Option.map_map]
        congr
        funext events
        simp
      rw [cons_append, h, h, ih]

/-- A byte that ends the open line. The line feed after a carriage return does not. -/
def endsLine (pendingCr : Bool) (c : UInt8) : Bool := !(pendingCr && c = 10) && (c = 13 || c = 10)

/-- The lines the reader ends. -/
def lines (r : SseEventReader) : Bytes → List Bytes
  | [] => []
  | c :: b =>
    (if endsLine r.pendingCr c then [r.eventBuf.drop r.lineStart] else []) ++
      (r.pushByte c).1.lines b

open Sse (SseFramingObserver SseProtocol)

/-- The lines the observer looks at. -/
def observed (decode : Bytes → Option Json.Value) (o : SseFramingObserver) : Bytes → List Bytes
  | [] => []
  | c :: b =>
    if o.done then []
    else (if endsLine o.pendingCr c then [o.lineBuffer] else []) ++
      observed decode (o.step decode c) b

/-- The reader keeps what the observer keeps of an event. -/
structure Same (r : SseEventReader) (o : SseFramingObserver) : Prop where
  pendingCr : o.pendingCr = r.pendingCr
  line : o.lineBuffer = r.eventBuf.drop r.lineStart
  start : r.lineStart ≤ r.eventBuf.length
  data : o.eventData.length ≤ r.lineStart

variable (decode : Bytes → Option Json.Value) {o : SseFramingObserver}

theorem Same.pushByte (h : Same r o) (hcap : (r.pushByte c).1.eventBuf.length ≤ maxSseLineBytes) :
    Same (r.pushByte c).1 (o.step decode c) := by
  have hlength : o.lineBuffer.length = r.eventBuf.length - r.lineStart := by simp [h.line]
  have hstart := h.start
  have hdata := h.data
  unfold SseEventReader.pushByte at hcap ⊢
  unfold SseFramingObserver.step
  rw [h.pendingCr]
  by_cases hskip : r.pendingCr ∧ c = 10
  · rw [if_pos hskip, if_pos hskip]
    exact ⟨rfl, h.line, h.start, h.data⟩
  · rw [if_neg hskip] at hcap ⊢
    rw [if_neg hskip]
    by_cases hend : c = 13 ∨ c = 10
    · rw [if_pos hend] at hcap ⊢
      rw [if_pos hend]
      have hgrown := SseFramingObserver.length_observeLine decode
        { o with pendingCr := c = 13, lineBuffer := [] } o.lineBuffer
      have hblank : o.lineBuffer = [] →
          (({ o with pendingCr := c = 13, lineBuffer := [] } : SseFramingObserver).observeLine
            decode o.lineBuffer).eventData = [] := by
        intro hnil
        rw [hnil, SseFramingObserver.observeLine, if_pos rfl]
        exact SseFramingObserver.dispatchEvent_eventData decode _
      rw [SseFramingObserver.observeLine_buffers] at hgrown hblank ⊢
      dsimp only at hgrown hblank ⊢
      generalize o.observeLine decode o.lineBuffer = o' at hgrown hblank ⊢
      have hdone : ∀ {o : SseFramingObserver}, o.overCap = false →
          (if o.done then o else if o.overCap then o.giveUp else o) = o := by
        intro o hunder
        simp [hunder]
      have hlen : o'.eventData.length ≤ maxSseLineBytes → SseFramingObserver.overCap
          { o' with lineBuffer := [], pendingCr := c = 13 } = false := by
        intro hle
        refine SseFramingObserver.overCap_eq_false ?_
        change 0 + o'.eventData.length ≤ maxSseLineBytes
        omega
      unfold endLine at hcap ⊢
      by_cases hopen : r.eventBuf.length = r.lineStart
      · have hgone := hblank (eq_nil_of_length_eq_zero (by omega))
        rw [if_pos hopen, hdone (hlen (by simp [hgone]))]
        exact ⟨rfl, rfl, Nat.le_refl 0, by simp [hgone, takeEvent]⟩
      · rw [if_neg hopen] at hcap ⊢
        simp only [length_append, length_singleton] at hcap
        rw [hdone (hlen (by omega))]
        exact ⟨rfl, by simp, by simp, by dsimp only; omega⟩
    · rw [if_neg hend] at hcap ⊢
      rw [if_neg hend]
      have hunder : SseFramingObserver.overCap
          { o with pendingCr := false, lineBuffer := o.lineBuffer ++ [c] } = false := by
        refine SseFramingObserver.overCap_eq_false ?_
        change (o.lineBuffer ++ [c]).length + o.eventData.length ≤ maxSseLineBytes
        simp only [length_append, length_singleton] at hcap ⊢
        omega
      dsimp only
      rw [hunder]
      exact ⟨rfl, by simp [h.line, drop_append_of_le_length hstart], by simp; omega, hdata⟩

theorem observed_lines (h : Same r o) (b : Bytes) (hcap : (r.pushChunk b).2.2 = false) :
    observed decode o b <+: r.lines b ∧
      (¬ (o.observe decode b).done → observed decode o b = r.lines b) := by
  induction b generalizing r o with
  | nil => exact ⟨prefix_rfl, fun _ => rfl⟩
  | cons c b ih =>
    by_cases hdone : o.done
    · rw [SseFramingObserver.observe_of_done hdone, observed, if_pos hdone]
      exact ⟨List.nil_prefix, fun hn => absurd hdone hn⟩
    · rw [pushChunk] at hcap
      dsimp only at hcap
      split at hcap
      · cases hcap
      · next hfits =>
        obtain ⟨hfirst, hall⟩ := ih (h.pushByte decode (Nat.not_lt.mp hfits)) hcap
        have hobserve : o.observe decode (c :: b) = (o.step decode c).observe decode b := by
          rw [SseFramingObserver.observe, foldl_cons, if_neg hdone]
          rfl
        rw [hobserve, observed, if_neg hdone, lines, h.pendingCr, h.line]
        exact ⟨(prefix_append_right_inj _).mpr hfirst, fun hn => by rw [hall hn]⟩

theorem deliver_flatten (r : SseEventReader) (chunks : List Bytes) :
    r.deliver chunks = r.deliver [chunks.flatten] := by
  induction chunks generalizing r with
  | nil => simp [deliver, pushChunk]
  | cons chunk chunks ih =>
    rw [flatten_cons, ← deliver_append, deliver, deliver]
    simp only [ih]

/-- Within the cap the events do not depend on the chunks, and the observer sees the reader's
lines: all of them, or the first ones if it stops because nothing is left to learn. -/
theorem reads_like_observer (protocol : Option SseProtocol) (chunks : List Bytes)
    {events : List String} (h : deliver {} [chunks.flatten] = some events) :
    deliver {} chunks = some events ∧
    observed decode (.withProtocol protocol) chunks.flatten <+: lines {} chunks.flatten ∧
    (¬ ((SseFramingObserver.withProtocol protocol).observe decode chunks.flatten).done →
      observed decode (.withProtocol protocol) chunks.flatten = lines {} chunks.flatten) := by
  have hcap : (pushChunk {} chunks.flatten).2.2 = false := by
    by_contra hover
    simp [deliver, hover] at h
  have hsame : Same {} (.withProtocol protocol) := ⟨rfl, rfl, Nat.le_refl 0, Nat.le_refl 0⟩
  exact ⟨(deliver_flatten {} chunks).trans h, observed_lines decode hsame _ hcap⟩

/-- A line break cut in two by the chunks. -/
theorem reads_like_observer_split :
    deliver {} [[97, 13], [10, 98]] = some ["a\nb"] ∧
      observed (fun _ => none) (.withProtocol none) [97, 13, 10, 98] = [[97]] := by
  have hone : deliver {} [[97, 13, 10, 98]] = some ["a\nb"] := by decide
  have h := reads_like_observer (fun _ => none) none [[97, 13], [10, 98]] hone
  exact ⟨h.1, h.2.2 (by decide)⟩

/-- Once it knows the identifiers the observer looks at no further line. -/
theorem observer_stops : ∃ decode, ∃ b : Bytes, deliver {} [b] ≠ none ∧
    observed decode (.withProtocol none) b ≠ lines {} b := by
  refine ⟨fun _ => some (.obj [("id", .str "a"), ("model", .str "b")]),
    utf8 "data:\x7b\"id\":\"a\",\"model\":\"b\"\x7d\n\n:\n", ?_, ?_⟩ <;> decide

end AciGateway.Usage.SseEventReader
