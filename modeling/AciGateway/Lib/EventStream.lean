import AciGateway.Lib.Octets

/-! The event stream format of the HTML standard, on bytes. A line break never lies inside a
character, so the text of a payload is decoded from its bytes. The `id` and `retry` fields
concern reconnecting only. -/
namespace EventStream

open Octets List

/-- The lines a stream completes, after what was read of the first one. Line feed, carriage
return and the two together all end a line. -/
def linesFrom (open_ : Bytes) : Bytes → List Bytes
  | [] => []
  | 13 :: 10 :: b => open_ :: linesFrom [] b
  | 13 :: b => open_ :: linesFrom [] b
  | 10 :: b => open_ :: linesFrom [] b
  | c :: b => linesFrom (open_ ++ [c]) b

def byteOrderMark : Bytes := [0xef, 0xbb, 0xbf]

/-- One leading byte order mark is ignored. -/
def stripMark (b : Bytes) : Bytes :=
  if byteOrderMark.isPrefixOf b then b.drop 3 else b

def lines (b : Bytes) : List Bytes := linesFrom [] (stripMark b)

structure Event where
  type : Bytes
  data : Bytes
  deriving DecidableEq

structure Buffers where
  data : Bytes := []
  type : Bytes := []
  deriving DecidableEq

/-- The name of a field line and its value. -/
def field (line : Bytes) : Bytes × Bytes :=
  (line.takeWhile (· ≠ 58),
    match line.dropWhile (· ≠ 58) with
    | _ :: 32 :: value => value
    | _ :: value => value
    | [] => [])

/-- The event a blank line dispatches. -/
def Buffers.dispatch (b : Buffers) : Option Event :=
  if b.data = [] then none
  else some ⟨if b.type = [] then utf8 "message" else b.type, b.data.dropLast⟩

/-- A line that is not blank. -/
def Buffers.interpret (b : Buffers) (line : Bytes) : Buffers :=
  if line.head? = some 58 then b
  else
    if (field line).1 = utf8 "data" then { b with data := b.data ++ (field line).2 ++ [10] }
    else if (field line).1 = utf8 "event" then { b with type := (field line).2 }
    else b

def eventsFrom (b : Buffers) : List Bytes → List Event
  | [] => []
  | [] :: lines => b.dispatch.toList ++ eventsFrom {} lines
  | line :: lines => eventsFrom (b.interpret line) lines

/-- What is left in the buffers after the lines. -/
def buffersAfter (b : Buffers) : List Bytes → Buffers
  | [] => b
  | [] :: lines => buffersAfter {} lines
  | line :: lines => buffersAfter (b.interpret line) lines

def events (b : Bytes) : List Event := eventsFrom {} (lines b)

def payloads (b : Bytes) : List Bytes := (events b).map Event.data

/-! Reading byte by byte. -/

structure Scanner where
  line : Bytes := []
  /-- The last byte was a carriage return. -/
  afterReturn : Bool := false
  deriving DecidableEq

def Scanner.feed (s : Scanner) (c : UInt8) : Scanner × Option Bytes :=
  if s.afterReturn ∧ c = 10 then (⟨s.line, false⟩, none)
  else if c = 10 ∨ c = 13 then (⟨[], c = 13⟩, some s.line)
  else (⟨s.line ++ [c], false⟩, none)

def Scanner.scan (s : Scanner) : Bytes → Scanner × List Bytes
  | [] => (s, [])
  | c :: b => (((s.feed c).1.scan b).1, (s.feed c).2.toList ++ ((s.feed c).1.scan b).2)

open Scanner

theorem Scanner.scan_append (s : Scanner) (a b : Bytes) :
    s.scan (a ++ b) = (((s.scan a).1.scan b).1, (s.scan a).2 ++ ((s.scan a).1.scan b).2) := by
  induction a generalizing s with
  | nil => rfl
  | cons c a ih => simp [scan, ih]

/-- A return that no line feed follows leaves nothing behind. -/
theorem Scanner.scan_afterReturn {line b : Bytes} (h : b.head? ≠ some 10) :
    (scan ⟨line, true⟩ b).2 = (scan ⟨line, false⟩ b).2 := by
  cases b with
  | nil => rfl
  | cons c b =>
    have hc : c ≠ 10 := by simpa using h
    simp [scan, feed, hc]

theorem scan_eq_linesFrom (open_ b : Bytes) : (scan ⟨open_, false⟩ b).2 = linesFrom open_ b := by
  fun_induction linesFrom open_ b with
  | case1 open_ => rfl
  | case2 open_ b ih => simp [scan, feed, ← ih]
  | case3 open_ b hb ih =>
    have hhead : b.head? ≠ some 10 := by
      cases b with
      | nil => simp
      | cons c b =>
        intro hc
        exact hb b (by simpa using hc)
    simp [scan, feed, ← ih, scan_afterReturn hhead]
  | case4 open_ b ih => simp [scan, feed, ← ih]
  | case5 open_ c b _ hcr hlf ih =>
    have h13 : c ≠ 13 := hcr
    have h10 : c ≠ 10 := hlf
    simp [scan, feed, h13, h10, ← ih]

/-! Events as blocks of lines. -/

/-- The lines of each event that a blank line closes, after the lines of the first one. -/
def blocks (open_ : List Bytes) : List Bytes → List (List Bytes)
  | [] => []
  | [] :: ls => open_ :: blocks [] ls
  | l :: ls => blocks (open_ ++ [l]) ls

/-- The value of a line that is a `data` field. -/
def dataField (line : Bytes) : Option Bytes :=
  if line.head? = some 58 then none
  else if (field line).1 = utf8 "data" then some (field line).2
  else none

/-- The payload the values of an event make. -/
def joined (values : List Bytes) : Option Bytes :=
  if values = [] then none else some (List.intercalate [10] values)

/-- The payloads of blocks, by what counts as the value of a line. -/
def payloadsOf (value : Bytes → Option Bytes) (bs : List (List Bytes)) : List Bytes :=
  (bs.map (·.filterMap value)).filterMap joined

/-- The data buffer that values leave. -/
def buffered (values : List Bytes) : Bytes := values.flatMap (· ++ [10])

theorem buffered_eq (values : List Bytes) (h : values ≠ []) :
    buffered values = intercalate [10] values ++ [10] := by
  induction values with
  | nil => exact absurd rfl h
  | cons v values ih =>
    cases values with
    | nil => simp [buffered, intercalate]
    | cons w values =>
      have hw := ih (by simp)
      rw [buffered, flatMap_cons, ← buffered, hw]
      simp [intercalate]

variable {values : List Bytes}

theorem buffered_eq_nil : buffered values = [] ↔ values = [] := by
  cases values <;> simp [buffered]

variable {l v : Bytes} {open_ : List Bytes} {b : Buffers}

theorem blocks_cons (h : l ≠ []) (ls : List Bytes) :
    blocks open_ (l :: ls) = blocks (open_ ++ [l]) ls := by
  obtain ⟨c, b, rfl⟩ := exists_cons_of_ne_nil h
  rfl

theorem eventsFrom_cons (h : l ≠ []) (ls : List Bytes) :
    eventsFrom b (l :: ls) = eventsFrom (b.interpret l) ls := by
  obtain ⟨c, rest, rfl⟩ := exists_cons_of_ne_nil h
  rfl

theorem Buffers.interpret_data (b : Buffers) (line : Bytes) :
    (b.interpret line).data = b.data ++ buffered (dataField line).toList := by
  unfold interpret dataField
  split
  · simp [buffered]
  · split
    · simp [buffered]
    · split <;> simp [buffered]

theorem Buffers.dispatch_data (h : b.data = buffered values) :
    b.dispatch.toList.map Event.data = (joined values).toList := by
  unfold dispatch joined
  by_cases hv : values = []
  · simp [h, hv, buffered]
  · rw [if_neg (by rw [h, buffered_eq_nil]; exact hv), if_neg hv]
    simp [h, buffered_eq values hv]

theorem eventsFrom_data (ls : List Bytes) (h : b.data = buffered (open_.filterMap dataField)) :
    (eventsFrom b ls).map Event.data = payloadsOf dataField (blocks open_ ls) := by
  induction ls generalizing b open_ with
  | nil => rfl
  | cons l ls ih =>
    cases l with
    | nil =>
      have hrest : (eventsFrom {} ls).map Event.data = payloadsOf dataField (blocks [] ls) := ih rfl
      simp only [eventsFrom, map_append, Buffers.dispatch_data h, hrest, blocks, payloadsOf,
        map_cons, filterMap_cons]
      cases joined (open_.filterMap dataField) <;> rfl
    | cons c rest =>
      rw [eventsFrom_cons (by simp), blocks_cons (by simp)]
      apply ih
      rw [Buffers.interpret_data, h]
      cases hd : dataField (c :: rest) <;> simp [hd, buffered]

theorem payloads_eq (b : Bytes) : payloads b = payloadsOf dataField (blocks [] (lines b)) :=
  eventsFrom_data (lines b) rfl

/-- Only what the open lines hold matters of them. -/
theorem payloadsOf_blocks_congr {value : Bytes → Option Bytes} {o o' : List Bytes}
    (h : o.filterMap value = o'.filterMap value) (ls : List Bytes) :
    payloadsOf value (blocks o ls) = payloadsOf value (blocks o' ls) := by
  induction ls generalizing o o' with
  | nil => rfl
  | cons l ls ih =>
    by_cases hl : l = []
    · subst hl
      simp [blocks, payloadsOf, h]
    · rw [blocks_cons hl, blocks_cons hl]
      exact ih (by simp [h])

theorem linesFrom_cons {c : UInt8} (hcr : c ≠ 13) (hlf : c ≠ 10) (open_ b : Bytes) :
    linesFrom open_ (c :: b) = linesFrom (open_ ++ [c]) b := by
  rw [linesFrom]
  · exact fun _ h => absurd h hcr
  · exact hcr
  · exact hlf

/-- What is read of the first line comes before the rest of it. -/
theorem linesFrom_append (a open_ b : Bytes) :
    linesFrom (a ++ open_) b = (linesFrom open_ b).modifyHead (a ++ ·) := by
  fun_induction linesFrom open_ b with
  | case1 open_ => rfl
  | case2 open_ b ih => rfl
  | case3 open_ b hb ih => simp [linesFrom]
  | case4 open_ b ih => rfl
  | case5 open_ c b h hcr hlf ih => rw [linesFrom_cons hcr hlf, append_assoc, ih]

theorem lf_notMem_linesFrom {open_ b : Bytes} (ho : 10 ∉ open_) (h : l ∈ linesFrom open_ b) :
    10 ∉ l := by
  fun_induction linesFrom open_ b with
  | case1 open_ => simp at h
  | case2 open_ b ih =>
    rcases mem_cons.mp h with rfl | h
    · exact ho
    · exact ih (by simp) h
  | case3 open_ b hb ih =>
    rcases mem_cons.mp h with rfl | h
    · exact ho
    · exact ih (by simp) h
  | case4 open_ b ih =>
    rcases mem_cons.mp h with rfl | h
    · exact ho
    · exact ih (by simp) h
  | case5 open_ c b _ _ hlf ih =>
    have hc : 10 ≠ c := fun he => hlf he.symm
    exact ih (by simp [ho, hc]) h

theorem lf_notMem_lines {b : Bytes} (h : l ∈ lines b) : 10 ∉ l :=
  lf_notMem_linesFrom (by simp) h

theorem lf_notMem_field (hl : 10 ∉ l) : 10 ∉ (field l).2 := by
  have hdrop : 10 ∉ l.dropWhile (· ≠ 58) := fun hm => hl ((dropWhile_sublist _).subset hm)
  unfold field
  dsimp only
  split <;> simp_all

theorem lf_notMem_dataField (hl : 10 ∉ l) (h : dataField l = some v) : 10 ∉ v := by
  unfold dataField at h
  split at h
  · cases h
  · split at h
    · cases h
      exact lf_notMem_field hl
    · cases h

theorem mem_blocks {ls block : List Bytes} (hb : block ∈ blocks open_ ls)
    (hl : l ∈ block) : l ∈ open_ ∨ l ∈ ls := by
  induction ls generalizing open_ with
  | nil => simp [blocks] at hb
  | cons l' ls ih =>
    by_cases hl' : l' = []
    · subst hl'
      rcases mem_cons.mp hb with rfl | hb
      · exact .inl hl
      · have := ih hb
        simp at this
        simp [this]
    · rw [blocks_cons hl'] at hb
      have := ih hb
      simp only [mem_append, mem_singleton] at this
      simp only [mem_cons]
      tauto

/-- The lines read before belong to the first event. -/
theorem blocks_append (a open_ ls : List Bytes) :
    blocks (a ++ open_) ls = (blocks open_ ls).modifyHead (a ++ ·) := by
  induction ls generalizing open_ with
  | nil => rfl
  | cons l ls ih =>
    by_cases hl : l = []
    · subst hl
      rfl
    · rw [blocks_cons hl, blocks_cons hl, append_assoc, ih]

/-! A stream and what follows it. -/

theorem eventsFrom_append (b : Buffers) (ls ms : List Bytes) :
    eventsFrom b (ls ++ ms) = eventsFrom b ls ++ eventsFrom (buffersAfter b ls) ms := by
  induction ls generalizing b with
  | nil => rfl
  | cons l ls ih =>
    cases l with
    | nil => simp [eventsFrom, buffersAfter, ih]
    | cons c l => simp [eventsFrom, buffersAfter, ih]

theorem buffersAfter_cons (h : l ≠ []) (ls : List Bytes) :
    buffersAfter b (l :: ls) = buffersAfter (b.interpret l) ls := by
  obtain ⟨c, rest, rfl⟩ := exists_cons_of_ne_nil h
  rfl

/-- What is read of the first line stays in front of it until the line ends. -/
theorem Scanner.scan_open (a line b : Bytes) (r : Bool) :
    scan ⟨a ++ line, r⟩ b =
      let x := scan ⟨line, r⟩ b
      (if x.2 = [] then { x.1 with line := a ++ x.1.line } else x.1,
        x.2.modifyHead (a ++ ·)) := by
  induction b generalizing line r with
  | nil => simp [scan]
  | cons c b ih =>
    by_cases hskip : r ∧ c = 10
    · simp [scan, feed, hskip, ih]
    · by_cases hend : c = 10 ∨ c = 13
      · simp [scan, feed, hskip, hend]
      · simp [scan, feed, hskip, hend, ih]

theorem lines_eq_scan (b : Bytes) : lines b = (scan {} (stripMark b)).2 :=
  (scan_eq_linesFrom [] (stripMark b)).symm

/-- After a stream that ends between events, the events of what follows are added. -/
theorem events_append {p t : Bytes} (hmark : stripMark (p ++ t) = stripMark p ++ t)
    (hline : (scan {} (stripMark p)).1.line = []) (hbuffers : buffersAfter {} (lines p) = {}) :
    events (p ++ t) =
      events p ++ eventsFrom {} (scan ⟨[], (scan {} (stripMark p)).1.afterReturn⟩ t).2 := by
  have hlines : lines (p ++ t) = lines p ++
      (scan ⟨[], (scan {} (stripMark p)).1.afterReturn⟩ t).2 := by
    rw [lines_eq_scan, lines_eq_scan, hmark, scan_append]
    generalize scan {} (stripMark p) = x at hline ⊢
    obtain ⟨⟨line, r⟩, ls⟩ := x
    rw [show line = [] from hline]
  rw [events, hlines, eventsFrom_append, hbuffers, events]

/-! Writing events. -/

/-- Bytes within one line. -/
def OneLine (l : Bytes) : Prop := 10 ∉ l ∧ 13 ∉ l

theorem linesFrom_line (h : OneLine l) (open_ b : Bytes) :
    linesFrom open_ (l ++ 10 :: b) = (open_ ++ l) :: linesFrom [] b := by
  induction l generalizing open_ with
  | nil => simp [linesFrom]
  | cons c l ih =>
    have hlf : c ≠ 10 := fun he => h.1 (by simp [he])
    have hcr : c ≠ 13 := fun he => h.2 (by simp [he])
    have hl : OneLine l := ⟨fun hm => h.1 (by simp [hm]), fun hm => h.2 (by simp [hm])⟩
    rw [cons_append, linesFrom_cons hcr hlf, ih hl]
    simp

/-- Two line feeds end whatever line break came before them and leave nothing else. -/
theorem eventsFrom_blank (r : Bool) (b : Bytes) :
    eventsFrom {} (scan ⟨[], r⟩ (10 :: 10 :: b)).2 = eventsFrom {} (linesFrom [] b) := by
  rw [← scan_eq_linesFrom]
  cases r <;> simp [scan, feed, eventsFrom, Buffers.dispatch]

theorem field_data (v : Bytes) : field (utf8 "data: " ++ v) = (utf8 "data", v) := by
  have hl : utf8 "data: " ++ v = 100 :: 97 :: 116 :: 97 :: 58 :: 32 :: v := rfl
  rw [hl, field]
  simp
  rfl

theorem interpret_dataLine (b : Buffers) (v : Bytes) :
    b.interpret (utf8 "data: " ++ v) = { b with data := b.data ++ v ++ [10] } := by
  have hhead : (utf8 "data: " ++ v).head? ≠ some 58 := by
    change some (100 : UInt8) ≠ some 58
    decide
  rw [Buffers.interpret, if_neg hhead, field_data, if_pos rfl]

/-- An event of one `data` line, after the lines that gave its type. -/
theorem eventsFrom_dataLine (hv : OneLine v) (type b : Bytes) :
    eventsFrom { type } (linesFrom [] (utf8 "data: " ++ v ++ 10 :: 10 :: b)) =
      ⟨if type = [] then utf8 "message" else type, v⟩ :: eventsFrom {} (linesFrom [] b) := by
  have hline : OneLine (utf8 "data: " ++ v) := by
    have hname : OneLine (utf8 "data: ") := ⟨by decide, by decide⟩
    exact ⟨by simp [hv.1, hname.1], by simp [hv.2, hname.2]⟩
  have hne : utf8 "data: " ++ v ≠ [] := by
    have : utf8 "data: " ≠ [] := by decide
    simp [this]
  rw [linesFrom_line hline, nil_append, eventsFrom_cons hne, interpret_dataLine]
  simp [linesFrom, eventsFrom, Buffers.dispatch]

/-! Two readings of the same lines. -/

theorem count_buffered (h : ∀ v ∈ values, 10 ∉ v) : (buffered values).count 10 = values.length := by
  induction values with
  | nil => rfl
  | cons v values ih =>
    have hv : v.count 10 = 0 := count_eq_zero.mpr (h v (by simp))
    have hrest := ih (fun w hw => h w (by simp [hw]))
    rw [buffered, flatMap_cons, ← buffered]
    simp [hv, hrest]

/-- A payload tells how many values it was joined from. -/
theorem eq_of_joined_eq {o w : List Bytes} (hs : o.Sublist w) (hlf : ∀ v ∈ w, 10 ∉ v)
    (h : joined w = joined o) : w = o := by
  refine (hs.eq_of_length ?_).symm
  have hlf' : ∀ v ∈ o, 10 ∉ v := fun v hv => hlf v (hs.subset hv)
  rw [← count_buffered hlf, ← count_buffered hlf']
  congr 1
  unfold joined at h
  split at h <;> split at h
  · simp_all
  · cases h
  · cases h
  · next hw ho => rw [buffered_eq w hw, buffered_eq o ho, Option.some.inj h]

theorem length_filterMap_joined_le {O W : List (List Bytes)} (h : Forall₂ Sublist O W) :
    (O.filterMap joined).length ≤ (W.filterMap joined).length := by
  induction h with
  | nil => simp
  | @cons o w O W hs h ih =>
    by_cases ho : o = []
    · subst ho
      simp only [filterMap_cons, joined, if_pos]
      split
      · exact ih
      · exact Nat.le_succ_of_le ih
    · have hw : w ≠ [] := by
        rintro rfl
        exact ho (sublist_nil.mp hs)
      simpa [joined, ho, hw] using ih

/-- When one reading sees less of every block, the payloads are the same only if it sees all. -/
theorem filterMap_joined_eq_iff {O W : List (List Bytes)} (h : Forall₂ Sublist O W)
    (hlf : ∀ w ∈ W, ∀ v ∈ w, 10 ∉ v) : W.filterMap joined = O.filterMap joined ↔ W = O := by
  refine ⟨fun he => ?_, fun he => by rw [he]⟩
  induction h with
  | nil => rfl
  | @cons o w O W hs h ih =>
    have hlf' : ∀ w ∈ W, ∀ v ∈ w, 10 ∉ v := fun w hw => hlf w (by simp [hw])
    have hle := length_filterMap_joined_le h
    by_cases ho : o = []
    · by_cases hw : w = []
      · subst ho hw
        rw [ih hlf' (by simpa [joined] using he)]
      · -- the fuller reading dispatches one payload more
        have hlen := congrArg length he
        simp [joined, ho, hw] at hlen
        omega
    · have hw : w ≠ [] := by
        rintro rfl
        exact ho (sublist_nil.mp hs)
      simp only [filterMap_cons, joined, if_neg ho, if_neg hw, cons.injEq] at he
      have hwo : w = o := eq_of_joined_eq hs (hlf w (by simp)) (by simp [joined, ho, hw, he.1])
      rw [hwo, ih hlf' he.2]

end EventStream
