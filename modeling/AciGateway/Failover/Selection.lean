import AciGateway.Failover.Walk

/-! What the failover walk returns, told from the attempts it made. -/
namespace AciGateway.Failover

open Octets Walk List

variable {E : Env} {candidates : List ForwardCandidate} {log : List Entry} {index : Nat}
  {done isLast : Bool} {cs rest : List (Nat × ForwardCandidate)} {s s' : Walk}
  {c : ForwardCandidate} {r : Except ServiceError ForwardResult} {id : AttemptId}

/-! Reading the log. -/

def answerOf? (e : Entry) : Option (AttemptId × Answer) :=
  match e.verdict with
  | .answered a => some (e.id, a)
  | _ => none

def answers (log : List Entry) : List (AttemptId × Answer) := log.filterMap answerOf?

def errorOf? (e : Entry) : Option (Nat × ServiceError) :=
  match e.verdict with
  | .skipped priority err => some (priority, err)
  | .abandoned _ priority err => some (priority, err)
  | _ => none

def errors (log : List Entry) : List (Nat × ServiceError) := log.filterMap errorOf?

/-- The attempt got an outcome that is charged to its route. -/
def hasOutcome (e : Entry) : Bool :=
  match e.verdict with
  | .abandoned .. | .answered _ | .served => true
  | _ => false

def outcomes (log : List Entry) : List AttemptId := (log.filter hasOutcome).map (·.id)

def isCapacity (e : Entry) : Bool :=
  (answerOf? e).any fun x => isUpstreamCapacitySignal x.2.status x.2.body

/-- The error of highest priority, the latest among equals. -/
def Worst (es : List (Nat × ServiceError)) : Option (Nat × ServiceError) → Prop
  | none => es = []
  | some x => ∃ before after, es = before ++ x :: after ∧
      (∀ y ∈ before, y.1 ≤ x.1) ∧ ∀ y ∈ after, y.1 < x.1

theorem Worst.upgrade {es : List (Nat × ServiceError)} {slot : Option (Nat × ServiceError)}
    (h : Worst es slot) (priority : Nat) (e : ServiceError) :
    Worst (es ++ [(priority, e)]) (upgradeErr slot priority e) := by
  unfold upgradeErr
  cases slot with
  | none =>
    obtain rfl : es = [] := h
    exact ⟨[], [], by simp, by simp, by simp⟩
  | some x =>
    obtain ⟨before, after, rfl, hb, ha⟩ := h
    split
    · next hle =>
      have hx : x.1 ≤ priority := by simpa using hle
      refine ⟨before ++ x :: after, [], by simp, ?_, by simp⟩
      intro y hy
      rcases mem_append.mp hy with hy | hy
      · exact (hb y hy).trans hx
      · rcases mem_cons.mp hy with rfl | hy
        · exact hx
        · exact (ha y hy).le.trans hx
    · next hlt =>
      have hx : priority < x.1 := by simpa using hlt
      refine ⟨before, after ++ [(priority, e)], by simp, hb, ?_⟩
      intro y hy
      rcases mem_append.mp hy with hy | hy
      · exact ha y hy
      · obtain rfl : y = (priority, e) := by simpa using hy
        exact hx

@[simp] theorem answers_concat (log : List Entry) (e : Entry) :
    answers (log ++ [e]) = answers log ++ (answerOf? e).toList := by
  cases h : answerOf? e <;> simp [answers, h]

@[simp] theorem errors_concat (log : List Entry) (e : Entry) :
    errors (log ++ [e]) = errors log ++ (errorOf? e).toList := by
  cases h : errorOf? e <;> simp [errors, h]

theorem outcomes_concat (log : List Entry) (e : Entry) :
    outcomes (log ++ [e]) = outcomes log ++ if hasOutcome e then [e.id] else [] := by
  by_cases h : hasOutcome e <;> simp [outcomes, h]

/-! What every state of the walk keeps. -/

structure Kept (E : Env) (s : Walk) : Prop where
  failed : s.failedAttempts.map (·.id) = outcomes s.log
  retained : s.retained.map (fun r => (r.id, r.answer)) = (answers s.log).getLast?
  slot : ∀ r ∈ s.retained, (s.failedAttempts[r.attemptSlot]?).map (·.id) = some r.id
  worst : Worst (errors s.log) s.aggregatedErr
  weighed : ∀ x ∈ answers s.log, shouldFailOver E.classifier x.2
  going : ∀ e ∈ s.log, (answerOf? e).isSome ∨ (errorOf? e).isSome

@[simp] theorem noteCapacity_failedAttempts (s : Walk) (b : Bool) (index : Nat) (a : Answer) :
    (s.noteCapacity b index a).failedAttempts = s.failedAttempts := by
  cases b <;> rfl

@[simp] theorem noteCapacity_aggregatedErr (s : Walk) (b : Bool) (index : Nat) (a : Answer) :
    (s.noteCapacity b index a).aggregatedErr = s.aggregatedErr := by
  cases b <;> rfl

@[simp] theorem noteCapacity_log (s : Walk) (b : Bool) (index : Nat) (a : Answer) :
    (s.noteCapacity b index a).log = s.log := by
  cases b <;> rfl

@[simp] theorem noteCapacity_capacityIndices (s : Walk) (b : Bool) (index : Nat) (a : Answer) :
    (s.noteCapacity b index a).capacityIndices =
      if b then s.capacityIndices ++ [index] else s.capacityIndices := by
  cases b <;> rfl

theorem going_concat {e : Entry} (h : ∀ e ∈ log, (answerOf? e).isSome ∨ (errorOf? e).isSome)
    (he : (answerOf? e).isSome ∨ (errorOf? e).isSome) :
    ∀ e' ∈ log ++ [e], (answerOf? e').isSome ∨ (errorOf? e').isSome := by
  intro e' he'
  rcases mem_append.mp he' with he' | he'
  · exact h e' he'
  · obtain rfl : e' = e := by simpa using he'
    exact he

theorem slot_concat {f : FailedAttempt} {r : RetainedResponse}
    (h : (s.failedAttempts[r.attemptSlot]?).map (·.id) = some r.id) :
    ((s.failedAttempts ++ [f])[r.attemptSlot]?).map (·.id) = some r.id := by
  obtain ⟨g, hg, -⟩ := Option.map_eq_some_iff.mp h
  have hlt := (List.getElem?_eq_some_iff.mp hg).1
  rw [List.getElem?_append_left hlt]
  exact h

theorem kept_visit (h : Kept E s) (hv : visit E done isLast index id c s = .next s') :
    Kept E s' := by
  unfold visit at hv
  dsimp only at hv
  split at hv
  · next priority e hverdict =>
    cases hv
    have ha : answerOf? (entryOf E id) = none := by simp [answerOf?, hverdict]
    have he : errorOf? (entryOf E id) = some (priority, e) := by simp [errorOf?, hverdict]
    have ho : hasOutcome (entryOf E id) = false := by simp [hasOutcome, hverdict]
    refine ⟨?_, ?_, h.slot, ?_, ?_, ?_⟩
    · simpa [upgrade, outcomes_concat, ho] using h.failed
    · simpa [upgrade, ha] using h.retained
    · simpa [upgrade, he] using h.worst.upgrade priority e
    · simpa [upgrade, ha] using h.weighed
    · exact going_concat h.going (.inr (by simp [he]))
  · next status priority e hverdict =>
    cases hv
    have ha : answerOf? (entryOf E id) = none := by simp [answerOf?, hverdict]
    have he : errorOf? (entryOf E id) = some (priority, e) := by simp [errorOf?, hverdict]
    have ho : hasOutcome (entryOf E id) = true := by simp [hasOutcome, hverdict]
    refine ⟨?_, ?_, ?_, ?_, ?_, ?_⟩
    · simp [upgrade, abandon, outcomes_concat, ho, h.failed]
    · simpa [upgrade, abandon, ha] using h.retained
    · exact fun r hr => slot_concat (h.slot r hr)
    · simpa [upgrade, abandon, he] using h.worst.upgrade priority e
    · simpa [upgrade, abandon, ha] using h.weighed
    · exact going_concat h.going (.inr (by simp [he]))
  · cases hv
  · cases hv
  · cases hv
  · next a hverdict =>
    split at hv
    · next hfail =>
      cases hv
      have ha : answerOf? (entryOf E id) = some (id, a) := by simp [answerOf?, hverdict]
      have he : errorOf? (entryOf E id) = none := by simp [errorOf?, hverdict]
      have ho : hasOutcome (entryOf E id) = true := by simp [hasOutcome, hverdict]
      have hover := (Bool.and_eq_true _ _ ▸ hfail).2
      refine ⟨?_, ?_, ?_, ?_, ?_, ?_⟩
      · simp [abandon, outcomes_concat, ho, h.failed]
      · simp [abandon, ha]
      · rintro r hr
        obtain rfl := Option.mem_some_iff.mp hr
        simp [abandon]
      · simpa [abandon, he] using h.worst
      · intro x hx
        have hx' : x ∈ answers s.log ∨ x = (id, a) := by simpa [abandon, ha] using hx
        rcases hx' with hx' | rfl
        · exact h.weighed x hx'
        · exact hover
      · have hgoing := going_concat h.going (e := entryOf E id) (.inl (by simp [ha]))
        simpa [abandon] using hgoing
    · cases hv

theorem kept_visited (h : Visited E candidates done cs index s) : Kept E s := by
  induction h with
  | start =>
    exact ⟨rfl, rfl, by simp, rfl, by simp [answers], by simp⟩
  | step h hv ih => exact kept_visit ih hv
  | retry h hc he ih => exact ⟨ih.failed, ih.retained, ih.slot, ih.worst, ih.weighed, ih.going⟩

/-! Which attempts are made. -/

theorem visit_next_log (hv : visit E done isLast index id c s = .next s') :
    s'.log = s.log ++ [entryOf E id] ∧
      s'.capacityIndices =
        if isCapacity (entryOf E id) then s.capacityIndices ++ [index] else s.capacityIndices := by
  unfold visit at hv
  dsimp only at hv
  split at hv
  · next hverdict =>
    cases hv
    exact ⟨rfl, by simp [isCapacity, answerOf?, hverdict, upgrade]⟩
  · next hverdict =>
    cases hv
    exact ⟨rfl, by simp [isCapacity, answerOf?, hverdict, upgrade, abandon]⟩
  · cases hv
  · cases hv
  · cases hv
  · next a hverdict =>
    split at hv
    · cases hv
      exact ⟨by simp [abandon], by simp [isCapacity, answerOf?, hverdict, abandon]⟩
    · cases hv

theorem visit_stop_log
    (hv : visit E done isLast index id c s = .stop r log) : log = s.log ++ [entryOf E id] := by
  unfold visit at hv
  dsimp only at hv
  split at hv
  · cases hv
  · cases hv
  · cases hv; rfl
  · cases hv; rfl
  · cases hv; rfl
  · split at hv
    · cases hv
    · cases hv; rfl

/-- The record of a candidate's attempt in a pass. -/
def made (E : Env) (done : Bool) (p : Nat × ForwardCandidate) : Entry := entryOf E ⟨done, p.1⟩

/-- The candidates of the second pass: those that answered with a capacity signal. -/
def secondPass (E : Env) (candidates : List ForwardCandidate) : List (Nat × ForwardCandidate) :=
  (firstPass candidates).filter fun p => isCapacity (made E false p)

/-- The attempts so far and the candidates left are the schedule. -/
def OnSchedule (E : Env) (candidates : List ForwardCandidate) (done : Bool)
    (cs : List (Nat × ForwardCandidate)) (index : Nat) (s : Walk) : Prop :=
  ∃ past, past.length = index ∧
    if done then
      past ++ cs = secondPass E candidates ∧
        s.log = (firstPass candidates).map (made E false) ++ past.map (made E true)
    else
      past ++ cs = firstPass candidates ∧ s.log = past.map (made E false) ∧
        s.capacityIndices.filterMap ((firstPass candidates)[·]?) =
          past.filter fun p => isCapacity (made E false p)

theorem onSchedule_visited (h : Visited E candidates done cs index s) :
    OnSchedule E candidates done cs index s := by
  induction h with
  | start => exact ⟨[], rfl, by simp⟩
  | @step done place c rest index s s' h hv ih =>
    obtain ⟨past, hlen, hsched⟩ := ih
    obtain ⟨hlog, hcap⟩ := visit_next_log hv
    refine ⟨past ++ [(place, c)], by simp [hlen], ?_⟩
    cases done with
    | true =>
      obtain ⟨hsplit, hpast⟩ := hsched
      exact ⟨by simpa using hsplit, by simp [hlog, hpast, made]⟩
    | false =>
      obtain ⟨hsplit, hpast, hindices⟩ := hsched
      refine ⟨by simpa using hsplit, by simp [hlog, hpast, made], ?_⟩
      have hget : (firstPass candidates)[index]? = some (place, c) := by
        rw [← hsplit, getElem?_append_right hlen.le, hlen]
        simp
      rw [hcap, filter_append, ← hindices]
      by_cases hc : isCapacity (entryOf E ⟨false, place⟩)
      · simp [hc, hget, made]
      · simp [hc, made]
  | @retry index s h hc he ih =>
    obtain ⟨past, -, hsplit, hpast, hindices⟩ := ih
    rw [append_nil] at hsplit
    subst hsplit
    exact ⟨[], rfl, by simp [replayed, hindices, secondPass], by simpa using hpast⟩

/-- The attempts made: the candidates in order, and then those that answered with a capacity
signal in order, each pass possibly cut short. -/
def Scheduled (E : Env) (candidates : List ForwardCandidate) (log : List Entry) : Prop :=
  ∃ first second, log = first.map (made E false) ++ second.map (made E true) ∧
    first <+: firstPass candidates ∧ second <+: secondPass E candidates ∧
    (second ≠ [] → first = firstPass candidates)

theorem OnSchedule.scheduled
    (h : OnSchedule E candidates done cs index s) : Scheduled E candidates s.log := by
  obtain ⟨past, -, h⟩ := h
  cases done with
  | true =>
    obtain ⟨hsplit, hlog⟩ := h
    exact ⟨firstPass candidates, past, hlog, prefix_refl _, ⟨cs, hsplit⟩, fun _ => rfl⟩
  | false =>
    obtain ⟨hsplit, hlog, -⟩ := h
    exact ⟨past, [], by simpa using hlog, ⟨cs, hsplit⟩, List.nil_prefix, fun h => absurd rfl h⟩

theorem OnSchedule.scheduled_concat {p : Nat × ForwardCandidate}
    (h : OnSchedule E candidates done (p :: rest) index s) :
    Scheduled E candidates (s.log ++ [made E done p]) := by
  obtain ⟨past, -, h⟩ := h
  cases done with
  | true =>
    obtain ⟨hsplit, hlog⟩ := h
    exact ⟨firstPass candidates, past ++ [p], by simp [hlog], prefix_refl _,
      ⟨rest, by simpa using hsplit⟩, fun _ => rfl⟩
  | false =>
    obtain ⟨hsplit, hlog, -⟩ := h
    exact ⟨past ++ [p], [], by simp [hlog], ⟨rest, by simpa using hsplit⟩, List.nil_prefix,
      fun h => absurd rfl h⟩

theorem OnSchedule.log_ne_nil
    (h : OnSchedule E candidates done [] index s) (hne : candidates ≠ []) : s.log ≠ [] := by
  have hfirst : firstPass candidates ≠ [] := by simpa [firstPass] using hne
  obtain ⟨past, -, h⟩ := h
  cases done with
  | true =>
    obtain ⟨-, hlog⟩ := h
    simp [hlog, hfirst]
  | false =>
    obtain ⟨hsplit, hlog, -⟩ := h
    rw [append_nil] at hsplit
    simpa [hlog, hsplit] using hfirst

theorem nodup_places (candidates : List ForwardCandidate) :
    ((firstPass candidates).map (·.1)).Nodup := by
  have hplaces : (firstPass candidates).map (·.1) = range' 0 candidates.length := by
    simp [firstPass, Function.comp_def]
  rw [hplaces]
  exact nodup_range'

theorem Scheduled.nodup (h : Scheduled E candidates log) : (log.map (·.id)).Nodup := by
  obtain ⟨first, second, rfl, hfirst, hsecond, -⟩ := h
  have hids (b : Bool) (l : List (Nat × ForwardCandidate)) :
      (l.map (made E b)).map (·.id) = (l.map (·.1)).map fun place => ⟨b, place⟩ := by
    simp [made, Function.comp_def]
  have hinj (b : Bool) : Function.Injective fun place => (⟨b, place⟩ : AttemptId) := by
    intro i j hij
    exact congrArg AttemptId.candidate hij
  rw [map_append, hids, hids, nodup_append]
  have hplaces := nodup_places candidates
  refine ⟨?_, ?_, ?_⟩
  · exact Nodup.map (hinj false) ((hfirst.sublist.map _).nodup hplaces)
  · have hsub : second.Sublist (firstPass candidates) :=
      hsecond.sublist.trans filter_sublist
    exact Nodup.map (hinj true) ((hsub.map _).nodup hplaces)
  · intro x hx y hy hxy
    obtain ⟨i, -, rfl⟩ := mem_map.mp hx
    obtain ⟨j, -, rfl⟩ := mem_map.mp hy
    cases hxy

/-- A second attempt on a candidate follows a capacity signal of the first. -/
theorem Scheduled.second (h : Scheduled E candidates log) {e : Entry}
    (he : e ∈ log) (hretry : e.id.retry = true) :
    ∃ e' ∈ log, e'.id = ⟨false, e.id.candidate⟩ ∧ isCapacity e' := by
  obtain ⟨first, second, rfl, -, hsecond, hall⟩ := h
  rcases mem_append.mp he with he | he
  · obtain ⟨p, -, rfl⟩ := mem_map.mp he
    cases hretry
  · obtain ⟨p, hp, rfl⟩ := mem_map.mp he
    have hmem := hsecond.subset hp
    rw [secondPass, mem_filter] at hmem
    have hfirst := hall (ne_nil_of_mem hp)
    refine ⟨made E false p, ?_, rfl, hmem.2⟩
    rw [hfirst]
    exact mem_append_left _ (mem_map_of_mem hmem.1)

/-! How often an upstream is reached. -/

/-- The calls of an attempt that reached the upstream. -/
def reached (e : Entry) : List (Except UpstreamError Response) := e.calls.filter (!isMismatch ·)

theorem length_reached_reverify (callerSupplied : Bool) (rounds : Nat → Round) (left n : Nat) :
    ((forwardWithBindingReverify callerSupplied rounds left n).2.filter (!isMismatch ·)).length ≤
      1 := by
  have hone (call : Except UpstreamError Response) :
      ([call].filter (!isMismatch ·)).length ≤ 1 := length_filter_le _ _
  induction left generalizing n with
  | zero => exact hone _
  | succ left ih =>
    rw [forwardWithBindingReverify]
    cases hc : closeRound callerSupplied (rounds n) with
    | some outcome => exact hone _
    | none =>
      have hmismatch : isMismatch (rounds n).forward := by
        unfold closeRound at hc
        split at hc
        · next h => exact h.1
        · cases hc
      simpa [hmismatch] using ih (n + 1)

theorem length_reached (id : AttemptId) : (reached (entryOf E id)).length ≤ 1 := by
  unfold reached entryOf attempt
  split
  · simp
  · simp
  · split
    · simp
    · split
      · simp
      · split
        · simp
        · simp
        · split
          · simp
          · simp
          · simp
          · exact length_reached_reverify _ _ _ _

/-- The calls on a candidate that reached its upstream. -/
def reaches (i : Nat) (log : List Entry) : Nat :=
  ((log.filter (·.id.candidate = i)).map fun e => (reached e).length).sum

theorem Scheduled.reaches_le (h : Scheduled E candidates log) (i : Nat) : reaches i log ≤ 2 := by
  have hnodup := h.nodup
  have hmade : ∀ e ∈ log, (reached e).length ≤ 1 := by
    obtain ⟨first, second, rfl, -⟩ := h
    intro e he
    rcases mem_append.mp he with he | he <;>
    · obtain ⟨p, -, rfl⟩ := mem_map.mp he
      exact length_reached _
  -- at most one attempt in each pass
  have htwo : (log.filter (·.id.candidate = i)).length ≤ 2 := by
    have hsub : ((log.filter (·.id.candidate = i)).map (·.id)).Nodup :=
      (filter_sublist.map _).nodup hnodup
    have hmem : ∀ x ∈ (log.filter (·.id.candidate = i)).map (·.id),
        x ∈ [(⟨false, i⟩ : AttemptId), ⟨true, i⟩] := by
      intro x hx
      obtain ⟨e, he, rfl⟩ := mem_map.mp hx
      have hi : e.id.candidate = i := by simpa using (mem_filter.mp he).2
      rw [← hi]
      obtain ⟨retry, candidate⟩ := e.id
      cases retry <;> simp
    exact (subperm_of_subset hsub hmem).length_le.trans_eq' (by simp)
  calc reaches i log ≤ ((log.filter (·.id.candidate = i)).map fun _ => 1).sum := by
        refine sum_le_sum fun e he => hmade e (mem_filter.mp he).1
    _ = (log.filter (·.id.candidate = i)).length := by simp
    _ ≤ 2 := htwo

/-! The result. -/

/-- The first answer that is no reason to fail over, or else the most recent answer. -/
def Selected (C : Classifier) (log : List Entry) (id : AttemptId) (a : Answer) : Prop :=
  (answers log).find? (fun x => !shouldFailOver C x.2) = some (id, a) ∨
    (∀ x ∈ answers log, shouldFailOver C x.2) ∧ (answers log).getLast? = some (id, a)

/-- The reported attempts, with the committed one last, are those that got an outcome, each once. -/
def Reported (log : List Entry) (failedAttempts : List FailedAttempt) (id : AttemptId) : Prop :=
  (failedAttempts.map (·.id) ++ [id]).Perm (outcomes log) ∧ (outcomes log).Nodup

/-- The last attempt ended the walk at once. -/
def Ended (log : List Entry) (v : Verdict) : Prop := ∃ e, log.getLast? = some e ∧ e.verdict = v

/-- What a result says of the attempts made. -/
def Told (E : Env) (candidates : List ForwardCandidate) (log : List Entry) :
    Except ServiceError ForwardResult → Prop
  | .ok (.answer a _ failedAttempts id) =>
    Selected E.classifier log id a ∧ Reported log failedAttempts id
  | .ok (.stream _ failedAttempts id) =>
    (∀ x ∈ answers log, shouldFailOver E.classifier x.2) ∧ Ended log .served ∧
      Reported log failedAttempts id
  | .ok (.allFailed failedAttempts e) =>
    (answers log = [] ∧ failedAttempts.map (·.id) = outcomes log ∧
      ∃ priority, Worst (errors log) (some (priority, e))) ∨
    (Ended log .expired ∧ e = .earlyResponseKeysetExpired)
  | .error e =>
    (candidates = [] ∧ e = .upstream (.routing "no candidate routes supplied")) ∨
    Ended log (.aborted e) ∨ ∃ id ∈ outcomes log, (E.world id).receipt = some e

theorem Scheduled.nodup_outcomes (h : Scheduled E candidates log) : (outcomes log).Nodup :=
  (filter_sublist.map _).nodup h.nodup

theorem told_commit {r : ForwardResult}
    (hid : id ∈ outcomes log) (h : Told E candidates log (.ok r)) :
    Told E candidates log (commit E id r) := by
  unfold commit
  split
  · next e he => exact .inr (.inr ⟨id, hid, he⟩)
  · exact h

theorem told_commitAnswer {r : ForwardResult}
    (hid : id ∈ outcomes log) (h : Told E candidates log (.ok r)) :
    Told E candidates log (commitAnswer E id r) := by
  unfold commitAnswer
  split
  · exact h
  · exact told_commit hid h

theorem told_visit {place : Nat} (h : Visited E candidates done ((place, c) :: rest) index s)
    (hv : visit E done rest.isEmpty index ⟨done, place⟩ c s = .stop r log) :
    Scheduled E candidates log ∧ Told E candidates log r := by
  have hkept := kept_visited h
  have hlog := visit_stop_log hv
  have hsched : Scheduled E candidates log := by
    rw [hlog]
    exact (onSchedule_visited h).scheduled_concat
  refine ⟨hsched, ?_⟩
  subst hlog
  have hlast : (s.log ++ [entryOf E ⟨done, place⟩]).getLast? = some (entryOf E ⟨done, place⟩) := by
    simp
  -- the reported attempts are those before this one
  have hreported (ho : hasOutcome (entryOf E ⟨done, place⟩) = true) :
      Reported (s.log ++ [entryOf E ⟨done, place⟩]) s.failedAttempts ⟨done, place⟩ ∧
        (⟨done, place⟩ : AttemptId) ∈ outcomes (s.log ++ [entryOf E ⟨done, place⟩]) := by
    refine ⟨⟨?_, hsched.nodup_outcomes⟩, ?_⟩
    · rw [outcomes_concat, if_pos ho, hkept.failed]
      exact Perm.refl _
    · simp [outcomes_concat, ho]
  unfold visit at hv
  dsimp only at hv
  split at hv
  · cases hv
  · cases hv
  · next e hverdict =>
    cases hv
    exact .inr (.inl ⟨_, hlast, hverdict⟩)
  · next hverdict =>
    cases hv
    exact .inr ⟨⟨_, hlast, hverdict⟩, rfl⟩
  · next hverdict =>
    cases hv
    obtain ⟨hrep, hmem⟩ := hreported (by simp [hasOutcome, hverdict])
    have hnone : answerOf? (entryOf E ⟨done, place⟩) = none := by simp [answerOf?, hverdict]
    refine told_commit hmem ⟨?_, ⟨_, hlast, hverdict⟩, hrep⟩
    simpa [hnone] using hkept.weighed
  · next a hverdict =>
    split at hv
    · cases hv
    · cases hv
      obtain ⟨hrep, hmem⟩ := hreported (by simp [hasOutcome, hverdict])
      have hsome : answerOf? (entryOf E ⟨done, place⟩) = some (⟨done, place⟩, a) := by
        simp [answerOf?, hverdict]
      refine told_commitAnswer hmem ⟨?_, hrep⟩
      unfold Selected
      rw [answers_concat, hsome]
      by_cases hover : shouldFailOver E.classifier a
      · right
        refine ⟨?_, by simp⟩
        intro x hx
        rcases mem_append.mp hx with hx | hx
        · exact hkept.weighed x hx
        · obtain rfl : x = (⟨done, place⟩, a) := by simpa using hx
          exact hover
      · have hbefore : (answers s.log).find? (fun x => !shouldFailOver E.classifier x.2) = none := by
          rw [find?_eq_none]
          intro x hx
          simp [hkept.weighed x hx]
        rw [find?_append, hbefore]
        simp [hover]

theorem told_finish (hne : candidates ≠ []) (h : Visited E candidates done [] index s) :
    Scheduled E candidates (finish E candidates s).2 ∧
      Told E candidates (finish E candidates s).2 (finish E candidates s).1 := by
  have hkept := kept_visited h
  have hsched := (onSchedule_visited h).scheduled
  unfold finish
  cases hr : s.retained with
  | some r =>
    refine ⟨hsched, ?_⟩
    have hlast : (answers s.log).getLast? = some (r.id, r.answer) := by
      rw [← hkept.retained, hr]
      rfl
    obtain ⟨f, hf, hid⟩ := Option.map_eq_some_iff.mp (hkept.slot r hr)
    obtain ⟨hlt, hget⟩ := List.getElem?_eq_some_iff.mp hf
    have hperm : ((s.failedAttempts.eraseIdx r.attemptSlot).map (·.id) ++ [r.id]).Perm
        (outcomes s.log) := by
      rw [← hkept.failed, ← hid, ← hget]
      refine List.perm_append_comm.trans ?_
      exact (List.getElem_cons_eraseIdx_perm hlt).map (·.id)
    have hmem : r.id ∈ outcomes s.log := hperm.subset (by simp)
    exact told_commitAnswer hmem ⟨.inr ⟨hkept.weighed, hlast⟩, hperm, hsched.nodup_outcomes⟩
  | none =>
    refine ⟨hsched, .inl ?_⟩
    have hanswers : answers s.log = [] := by
      have := hkept.retained
      rw [hr, Option.map_none] at this
      exact List.getLast?_eq_none_iff.mp this.symm
    refine ⟨hanswers, hkept.failed, ?_⟩
    have hworst := hkept.worst
    cases hw : s.aggregatedErr with
    | some x =>
      rw [hw] at hworst
      exact ⟨x.1, hworst⟩
    | none =>
      -- the walk has tried a candidate, which gave an answer or an error
      rw [hw] at hworst
      obtain ⟨e, he⟩ := List.exists_mem_of_ne_nil _ ((onSchedule_visited h).log_ne_nil hne)
      rcases hkept.going e he with hsome | hsome
      · obtain ⟨x, hx⟩ := Option.isSome_iff_exists.mp hsome
        have hmem : x ∈ answers s.log := List.mem_filterMap.mpr ⟨e, he, hx⟩
        simp [hanswers] at hmem
      · obtain ⟨x, hx⟩ := Option.isSome_iff_exists.mp hsome
        have hmem : x ∈ errors s.log := List.mem_filterMap.mpr ⟨e, he, hx⟩
        simp [show errors s.log = [] from hworst] at hmem

theorem told_forward (E : Env) (candidates : List ForwardCandidate) :
    Scheduled E candidates (forwardChatCompletionForMiddleware E candidates).2 ∧
      Told E candidates (forwardChatCompletionForMiddleware E candidates).2
        (forwardChatCompletionForMiddleware E candidates).1 := by
  by_cases hne : candidates = []
  · subst hne
    exact ⟨⟨[], [], rfl, List.nil_prefix, List.nil_prefix, fun h => absurd rfl h⟩, .inl ⟨rfl, rfl⟩⟩
  · have hdecided := forward_decided E hne
    generalize forwardChatCompletionForMiddleware E candidates = out at hdecided
    cases hdecided with
    | visit h hv => exact told_visit h hv
    | finish h => exact told_finish hne h

/-- The walk tries the candidates in order and those that signalled a lack of capacity once more,
reaches each upstream at most twice, keeps the slot of the retained answer right, and selects and
reports as `Told` says. -/
theorem forward_selects (E : Env) (candidates : List ForwardCandidate) :
    let out := forwardChatCompletionForMiddleware E candidates
    Scheduled E candidates out.2 ∧ (∀ i, reaches i out.2 ≤ 2) ∧
    (∀ e ∈ out.2, e.id.retry → ∃ e' ∈ out.2, e'.id = ⟨false, e.id.candidate⟩ ∧ isCapacity e') ∧
    (∀ done cs index s, Visited E candidates done cs index s → ∀ r ∈ s.retained,
      (s.failedAttempts[r.attemptSlot]?).map (·.id) = some r.id) ∧
    Told E candidates out.2 out.1 := by
  obtain ⟨hsched, htold⟩ := told_forward E candidates
  refine ⟨hsched, hsched.reaches_le, ?_, ?_, htold⟩
  · exact fun e he hretry => hsched.second he hretry
  · exact fun done cs index s h => (kept_visited h).slot

/-- The services of an attempt whose upstream answers with a status at once. -/
def answering (status : UInt16) : AttemptWorld :=
  { prepare := .ok (some true), encodeAudio := none, recordedEvent := none, admission := none
    rounds := fun _ => { forward := .ok ⟨status, [], none, none⟩ }
    select := none, receipt := none, elapsed := 0, duration := 0 }

def plainEnv (status : UInt16) : Env :=
  { context := ⟨false, false, "m", false⟩, classifier := ⟨fun _ _ => false, fun _ _ => false⟩
    world := fun _ => answering status, exitElapsed := 0, jitter := 0 }

/-- A lone candidate's answer of status 500 is a reason to fail over and is committed all the
same, with no answer retained. -/
theorem last_answer_is_not_retained :
    let a : Answer := ⟨500, [], none⟩
    shouldFailOver (plainEnv 500).classifier a = true ∧
    visit (plainEnv 500) false true 0 ⟨false, 0⟩ ⟨"r", [], "/"⟩ {} =
      .stop (.ok (.answer a "r" [] ⟨false, 0⟩)) [entryOf (plainEnv 500) ⟨false, 0⟩] ∧
    forwardChatCompletionForMiddleware (plainEnv 500) [⟨"r", [], "/"⟩] =
      (.ok (.answer a "r" [] ⟨false, 0⟩), [entryOf (plainEnv 500) ⟨false, 0⟩]) :=
  ⟨rfl, rfl, rfl⟩

end AciGateway.Failover
