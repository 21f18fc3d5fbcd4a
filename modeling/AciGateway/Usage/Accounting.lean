import AciGateway.Usage.Guard

/-! Each request is accounted for once: one outcome over every run and every drop, with a row for
each attempt before it. -/
namespace AciGateway.Usage

open Octets Json Sse Request Meter List

/-! What a poll or a drop of the stream meter posts. -/

/-- The meter reports nothing, or its one outcome. -/
def Settles (m m' : MeterStream) (posted : List PostReport) : Prop :=
  m'.report = m.report ∧
    (m'.settled = m.settled ∧ posted = [] ∨
      m.settled = false ∧ m'.settled = true ∧ ∃ r, posted = [r] ∧ r.kind = .outcome ∧
        r.attemptIndex = m.report.attemptIndex)

/-- Reading lines leaves the report and the obligation alone. -/
def SameDuty (m m' : MeterStream) : Prop := m'.report = m.report ∧ m'.settled = m.settled

namespace MeterStream

variable (decode : Bytes → Option Value) {shown : Nat → Value → Option Value} {m m₀ : MeterStream}

theorem detectOutcome_duty (m : MeterStream) (parsed : Value) :
    SameDuty m (m.detectOutcome parsed) := by
  unfold detectOutcome
  by_cases hc : carriesError parsed <;>
    by_cases hr : (choicesError parsed || stopReasonError parsed) = true <;> simp [hc, hr, SameDuty]

theorem readLine_duty (show_ : Value → Option Value) (m : MeterStream) (line : String) :
    SameDuty m (readLine decode show_ m line).1 := by
  unfold readLine
  cases lineEvent decode line with
  | none => exact ⟨rfl, rfl⟩
  | some parsed => exact detectOutcome_duty m parsed

theorem readLines_duty (n : Nat) (lines : List String) (m : MeterStream) :
    SameDuty m (readLines decode shown m n lines).1 := by
  induction lines generalizing m n with
  | nil => exact ⟨rfl, rfl⟩
  | cons line lines ih =>
    have hline := readLine_duty decode (shown n) m line
    have hrest := ih (n + 1) (readLine decode (shown n) m line).1
    exact ⟨hrest.1.trans hline.1, hrest.2.trans hline.2⟩

theorem transformLines_duty (shown : Nat → Value → Option Value) (m : MeterStream) (raw : Bytes) :
    SameDuty m (transformLines decode shown m raw).1 := by
  exact readLines_duty decode 0 (splitLines (fromUtf8Lossy raw)) m

theorem process_duty (shown : Nat → Value → Option Value) (m : MeterStream) (bytes : Bytes) :
    SameDuty m (process decode shown m bytes).1 := by
  unfold process
  dsimp only
  split
  · exact ⟨rfl, rfl⟩
  · split
    · exact ⟨rfl, rfl⟩
    · have h := transformLines_duty decode shown
        { m with buf := (m.buf ++ bytes).drop (completeLines (m.buf ++ bytes)).length }
        (completeLines (m.buf ++ bytes))
      exact h

theorem flush_duty (shown : Nat → Value → Option Value) (m : MeterStream) : SameDuty m (flush decode shown m).1 := by
  unfold flush
  split
  · exact ⟨rfl, rfl⟩
  · have h := transformLines_duty decode shown { m with buf := [] } m.buf
    exact h

theorem settle_settles (abort : Bool) (outcome : Outcome) (h : SameDuty m₀ m) :
    Settles m₀ (m.settle abort outcome).1 (m.settle abort outcome).2 := by
  unfold settle
  cases hs : m.settled
  · refine ⟨h.1, .inr ⟨h.2 ▸ hs, rfl, _, rfl, rfl, ?_⟩⟩
    rw [← h.1]
    rfl
  · exact ⟨h.1, .inl ⟨h.2, rfl⟩⟩

theorem pollNext_settles (abort : Bool) (m : MeterStream) (p : Polled) :
    Settles m (m.pollNext decode abort p).1 (m.pollNext decode abort p).2.1 := by
  unfold pollNext
  dsimp only
  split
  · exact ⟨rfl, .inl ⟨rfl, rfl⟩⟩
  · cases p with
    | pending => exact ⟨rfl, .inl ⟨rfl, rfl⟩⟩
    | chunk bytes shown =>
      have hduty := process_duty decode shown
        { m with started := true, framing := m.framing.observe decode bytes } bytes
      dsimp only at hduty ⊢
      split
      · exact ⟨hduty.1, .inl ⟨hduty.2, rfl⟩⟩
      · exact ⟨hduty.1, .inl ⟨hduty.2, rfl⟩⟩
      · exact settle_settles abort _ ⟨hduty.1, hduty.2⟩
    | failed e => exact settle_settles abort _ ⟨rfl, rfl⟩
    | ended shown =>
      have hduty := flush_duty decode shown { m with started := true, innerDone := true }
      exact settle_settles abort _ ⟨hduty.1, hduty.2⟩

theorem drop_settles (abort : Bool) (m : MeterStream) :
    Settles m (m.drop abort).1 (m.drop abort).2 := by
  unfold drop
  split
  · exact settle_settles abort _ ⟨rfl, rfl⟩
  · split <;> exact settle_settles abort _ ⟨rfl, rfl⟩

theorem settle_settled (abort : Bool) (outcome : Outcome) (m : MeterStream) :
    (m.settle abort outcome).1.settled = true := by
  unfold settle
  split <;> simp_all

theorem drop_settled (abort : Bool) (m : MeterStream) : (m.drop abort).1.settled = true := by
  unfold drop
  split
  · exact settle_settled ..
  · split <;> exact settle_settled ..

/-- The reports of a sequence of polls and the drop after it; with each comes the abort flag. -/
def lifetime (m : MeterStream) : List (Bool × Polled) → Bool → List PostReport
  | [], abort => (m.drop abort).2
  | (flag, p) :: polls, abort =>
    (m.pollNext decode flag p).2.1 ++ lifetime (m.pollNext decode flag p).1 polls abort

theorem length_lifetime (polls : List (Bool × Polled)) (abort : Bool) (m : MeterStream) :
    (lifetime decode m polls abort).length = if m.settled then 0 else 1 := by
  induction polls generalizing m with
  | nil =>
    rcases drop_settles abort m with ⟨-, ⟨hsame, hnone⟩ | ⟨hopen, -, r, hone, -⟩⟩
    · rw [drop_settled] at hsame
      simp [lifetime, hnone, ← hsame]
    · simp [lifetime, hone, hopen]
  | cons poll polls ih =>
    obtain ⟨flag, p⟩ := poll
    rw [lifetime, length_append, ih]
    rcases pollNext_settles decode flag m p with
      ⟨-, ⟨hsame, hnone⟩ | ⟨hopen, hclosed, r, hone, -⟩⟩
    · simp [hnone, hsame]
    · simp [hone, hopen, hclosed]

end MeterStream

/-! The reports of a request. -/

theorem Meter.attemptRows_spec (s : Bool) (n : Nat) (attempts : List Failover.FailedAttempt) :
    (∀ r ∈ attemptRows s n attempts,
      r.kind = .attempt ∧ n ≤ r.attemptIndex ∧ r.attemptIndex < n + attempts.length) ∧
    ((attemptRows s n attempts).map PostReport.identity).Nodup := by
  induction attempts generalizing n with
  | nil => simp [attemptRows]
  | cons a attempts ih =>
    obtain ⟨hrows, hnodup⟩ := ih (n + 1)
    have hlater : ∀ r ∈ attemptRows s (n + 1) attempts,
        r.kind = .attempt ∧ n < r.attemptIndex ∧ r.attemptIndex < n + (attempts.length + 1) := by
      intro r hr
      obtain ⟨hk, hl, hu⟩ := hrows r hr
      exact ⟨hk, by omega, by omega⟩
    unfold attemptRows
    split
    · exact ⟨fun r hr => ⟨(hlater r hr).1, (hlater r hr).2.1.le, (hlater r hr).2.2⟩, hnodup⟩
    · constructor
      · intro r hr
        rcases mem_cons.mp hr with rfl | hr
        · exact ⟨rfl, le_rfl, by simp⟩
        · exact ⟨(hlater r hr).1, (hlater r hr).2.1.le, (hlater r hr).2.2⟩
      · rw [map_cons, nodup_cons]
        refine ⟨?_, hnodup⟩
        intro hmem
        obtain ⟨r, hr, hid⟩ := mem_map.mp hmem
        have hindex : r.attemptIndex = n := congrArg Prod.fst hid
        exact absurd (hlater r hr).2.1 (by omega)

/-- The rows of the attempts, then the outcome, then what came late, in whatever order they were
posted. -/
structure Tally (posted outcomes lates : List PostReport) : Prop where
  split : ∃ s attempts, posted.Perm (Meter.attemptRows s 0 attempts ++ (outcomes ++ lates)) ∧
    ∀ r ∈ outcomes ++ lates, r.attemptIndex = attempts.length
  outcome : ∀ r ∈ outcomes, r.kind = .outcome
  late : ∀ r ∈ lates, r.kind = .late ∧ r.status = 502

/-- The reports of one kind. -/
def ofKind (kind : ReportKind) (posted : List PostReport) : List PostReport :=
  posted.filter (·.kind = kind)

theorem ofKind_eq_self {kind : ReportKind} {l : List PostReport} (h : ∀ r ∈ l, r.kind = kind) :
    ofKind kind l = l := filter_eq_self.mpr (by simpa using h)

theorem ofKind_eq_nil {kind other : ReportKind} {l : List PostReport} (h : ∀ r ∈ l, r.kind = other)
    (hne : other ≠ kind) : ofKind kind l = [] := by
  refine filter_eq_nil_iff.mpr ?_
  intro r hr
  simpa [h r hr] using hne

namespace Tally

variable {posted outcomes lates : List PostReport}

theorem ofKind_perm (h : Tally posted outcomes lates) :
    (ofKind .outcome posted).Perm outcomes ∧ (ofKind .late posted).Perm lates := by
  obtain ⟨s, attempts, hperm, -⟩ := h.split
  have hrows := fun r hr => ((attemptRows_spec s 0 attempts).1 r hr).1
  have hlate := fun r hr => (h.late r hr).1
  constructor
  · refine (hperm.filter _).trans (.of_eq ?_)
    rw [filter_append, filter_append]
    change ofKind _ _ ++ (ofKind _ _ ++ ofKind _ _) = _
    rw [ofKind_eq_nil hrows (by decide), ofKind_eq_self h.outcome, ofKind_eq_nil hlate (by decide)]
    simp
  · refine (hperm.filter _).trans (.of_eq ?_)
    rw [filter_append, filter_append]
    change ofKind _ _ ++ (ofKind _ _ ++ ofKind _ _) = _
    rw [ofKind_eq_nil hrows (by decide), ofKind_eq_nil h.outcome (by decide), ofKind_eq_self hlate]
    simp

/-- What comes late is told of the attempt whose outcome was reported. -/
theorem late_index (h : Tally posted outcomes lates) {l o : PostReport} (hl : l ∈ lates)
    (ho : o ∈ outcomes) : l.attemptIndex = o.attemptIndex := by
  obtain ⟨s, attempts, -, hindex⟩ := h.split
  rw [hindex l (mem_append_right _ hl), hindex o (mem_append_left _ ho)]

theorem nodup_identity (h : Tally posted outcomes lates) (houtcomes : outcomes.length ≤ 1)
    (hlates : lates.length ≤ 1) (hapart : ∀ o ∈ outcomes, ∀ l ∈ lates, o.status ≠ 502) :
    (posted.map PostReport.identity).Nodup := by
  obtain ⟨s, attempts, hperm, hindex⟩ := h.split
  obtain ⟨hrows, hnodup⟩ := attemptRows_spec s 0 attempts
  rw [(hperm.map _).nodup_iff, map_append, nodup_append]
  refine ⟨hnodup, ?_, ?_⟩
  · rcases outcomes with _ | ⟨o, _ | ⟨o', os⟩⟩
    · rcases lates with _ | ⟨l, _ | ⟨l', ls⟩⟩
      · simp
      · simp
      · simp at hlates
    · rcases lates with _ | ⟨l, _ | ⟨l', ls⟩⟩
      · simp
      · have hne : o.status ≠ l.status := by
          rw [(h.late l mem_cons_self).2]
          exact hapart o mem_cons_self l mem_cons_self
        simp [PostReport.identity, hne]
      · simp at hlates
    · simp at houtcomes
  · intro a ha b hb hab
    obtain ⟨r, hr, rfl⟩ := mem_map.mp ha
    obtain ⟨t, ht, rfl⟩ := mem_map.mp hb
    have heq : r.attemptIndex = t.attemptIndex := congrArg Prod.fst hab
    have hlt := (hrows r hr).2.2
    rw [heq, hindex t ht] at hlt
    omega

end Tally

/-! Runs. -/

section Runs

variable (H : Handler)

/-- The results after which the guard is disarmed without a report. -/
def Refusal : Except ServiceError MiddlewareForwardResult → Bool
  | .ok (.stream _ isSse _ _) => H.e2ee && !isSse
  | .ok (.allFailed _ e) | .error e => forwardErrorStatus e < 500
  | .ok (.forwarded ..) | .ok (.upstreamError ..) => false

def refuses : Event → Bool
  | .resolve result => Refusal H result
  | _ => false

/-- The response body is given an error when its stream has settled. -/
def FailsLate (r : Request) (e : Event) : Prop :=
  e matches .bodyError ∧ ∃ early body, r.phase = .streaming early body ∧ body.settled = true

/-- In the course of the events, the response body fails after its stream has settled. -/
def LateFailure (events : List Event) : Prop :=
  ∃ before e after r, events = before ++ e :: after ∧
    Request.run H (.start H) before = some r ∧ FailsLate r e

/-- A state of the request, with whether it was refused and whether its body failed late. -/
inductive Sound (refused late : Prop) : Request → Prop
  | waiting {j phase} (hphase : phase = .forwarding ∨ phase = .committed ∧ H.e2ee = false)
      (hj : ∀ a, j.inFlight = some a → a.attemptIndex = j.abandoned.length)
      (hr : ¬ refused) (hl : ¬ late) : Sound refused late ⟨j, ⟨true, H.stream, []⟩, phase⟩
  | streaming {j : Journal} {g : Meter} {early body outcomes}
      (harmed : g.armed = false)
      (hposted : g.posted = Meter.attemptRows true 0 j.abandoned ++ outcomes)
      (houtcomes : outcomes.length = if body.settled then 1 else 0)
      (hkind : ∀ r ∈ outcomes, r.kind = .outcome ∧ r.attemptIndex = j.abandoned.length)
      (hindex : body.report.attemptIndex = j.abandoned.length)
      (hj : ∃ route, j.inFlight = some ⟨route, j.abandoned.length⟩)
      (hr : ¬ refused) (hl : ¬ late) : Sound refused late ⟨j, g, .streaming early body⟩
  | closed {j : Journal} {g : Meter} {outcomes lates} (h : Tally g.posted outcomes lates)
      (hr : outcomes.length = 1 ∧ ¬ refused ∨ outcomes = [] ∧ refused)
      (hl : lates.length = 1 ∧ late ∧ ¬ refused ∨ lates = [] ∧ ¬ late) :
      Sound refused late ⟨j, g, .closed⟩

/-! One step. -/

variable {H}

theorem tally_outcome (s : Bool) (attempts : List Failover.FailedAttempt) {o : PostReport}
    {posted : List PostReport} (hp : posted.Perm (attemptRows s 0 attempts ++ [o]))
    (hk : o.kind = .outcome) (hi : o.attemptIndex = attempts.length) : Tally posted [o] [] where
  split := ⟨s, attempts, by simpa using hp, by simpa using hi⟩
  outcome := by simpa using hk
  late := by simp

theorem tally_rows (s : Bool) (attempts : List Failover.FailedAttempt) :
    Tally (attemptRows s 0 attempts) [] [] where
  split := ⟨s, attempts, by simp, by simp⟩
  outcome := by simp
  late := by simp

/-- A request that ends with its one outcome, or refused with none. -/
def Accounted (refused : Prop) (posted : List PostReport) : Prop :=
  ∃ outcomes, Tally posted outcomes [] ∧ (outcomes.length = 1 ∧ ¬ refused ∨ outcomes = [] ∧ refused)

theorem accounted_outcome (s : Bool) (attempts : List Failover.FailedAttempt) {o : PostReport}
    {posted : List PostReport} (hp : posted.Perm (attemptRows s 0 attempts ++ [o]))
    (hk : o.kind = .outcome) (hi : o.attemptIndex = attempts.length) {refused : Prop}
    (hr : ¬ refused) : Accounted refused posted :=
  ⟨[o], tally_outcome s attempts hp hk hi, .inl ⟨rfl, hr⟩⟩

namespace Meter

/-- A guard that has reported nothing yet. -/
def fresh (s : Bool) : Meter := ⟨true, s, []⟩

variable (s t : Bool) (attempts : List Failover.FailedAttempt) (e : ServiceError) (status : UInt16)

theorem accounted_forwarded (body : Bytes) (route : String) :
    Accounted False ((fresh s).accountForwarded H status body route attempts).posted := by
  have hrows {o : PostReport} (hk : o.kind = .outcome) (hi : o.attemptIndex = attempts.length) :
      Accounted False (o :: attemptRows false 0 attempts) :=
    accounted_outcome false attempts (perm_append_singleton o _).symm hk hi id
  unfold accountForwarded
  split
  · split
    · exact accounted_outcome false attempts (.refl _) rfl rfl id
    · exact hrows rfl rfl
  · exact hrows rfl rfl

theorem accounted_upstreamError (body : Bytes) (route : String) :
    Accounted False ((fresh s).accountUpstreamError H t status body route attempts).posted :=
  accounted_outcome t attempts (.refl _) rfl rfl id

theorem accounted_allFailed :
    Accounted (forwardErrorStatus e < 500) ((fresh s).accountAllFailed t attempts e).posted := by
  unfold accountAllFailed
  split
  · next h => exact accounted_outcome t attempts (.refl _) rfl rfl (UInt16.not_lt.mpr h)
  · next h => exact ⟨[], tally_rows t attempts, .inr ⟨rfl, UInt16.not_le.mp h⟩⟩

theorem accounted_error :
    Accounted (forwardErrorStatus e < 500) ((fresh s).accountError t e).posted := by
  unfold accountError
  split
  · next h => exact accounted_outcome t [] (.refl _) rfl rfl (UInt16.not_lt.mpr h)
  · next h => exact ⟨[], tally_rows t [], .inr ⟨rfl, UInt16.not_le.mp h⟩⟩

theorem accounted_drop {j : Journal}
    (hj : ∀ a, j.inFlight = some a → a.attemptIndex = j.abandoned.length) :
    Accounted False ((fresh s).drop j).posted := by
  refine accounted_outcome s j.abandoned (.refl _) rfl ?_ id
  cases h : j.inFlight with
  | none => rfl
  | some a => exact hj a h

end Meter

variable {refused late : Prop} {j : Journal} {g : Meter}
  {result : Except ServiceError MiddlewareForwardResult} {r : Request} {phase : Phase}

theorem Accounted.closed (h : Accounted refused g.posted) (hl : ¬ late) :
    Sound H refused late ⟨j, g, .closed⟩ := by
  obtain ⟨outcomes, ht, hr⟩ := h
  exact .closed ht hr (.inr ⟨rfl, hl⟩)

theorem Accounted.congr {posted : List PostReport} (h : Accounted refused posted) {refused' : Prop}
    (hr : refused ↔ refused') : Accounted refused' posted := propext hr ▸ h

theorem advance_index (j : Journal) (m : Move) : ∀ a, (j.advance m).inFlight = some a →
    a.attemptIndex = (j.advance m).abandoned.length := by
  cases m with
  | attempt left routeId =>
    rintro a ⟨⟩
    rfl
  | pause left => rintro a ⟨⟩

/-- The guard hands a stream over. -/
theorem sound_toStream {early isSse : Bool} {status : UInt16} {route : String}
    {attempts : List Failover.FailedAttempt} (hr : ¬ refused) (hl : ¬ late)
    (hres : Resolves j (.ok (.stream status isSse route attempts))) :
    Sound H refused late
      (toStream H ⟨j, fresh H.stream, phase⟩ early status route attempts) := by
  obtain ⟨-, rfl, hin⟩ := hres
  have hposted : ((fresh H.stream).failedAttempts j.abandoned true).disarm.posted =
      attemptRows true 0 j.abandoned ++ [] := (append_nil _).symm
  exact .streaming rfl hposted rfl (by simp) rfl ⟨route, hin⟩ hr hl

theorem sound_runInner (hl : ¬ late) (hres : Resolves j result) :
    Sound H (Refusal H result = true) late
      (runInner H ⟨j, fresh H.stream, phase⟩ result) := by
  cases result with
  | error e => exact ((accounted_error _ _ e).congr (by simp [Refusal])).closed hl
  | ok result =>
    cases result with
    | forwarded status body route attempts =>
      exact ((accounted_forwarded _ _ status body route).congr (by simp [Refusal])).closed hl
    | stream status isSse route attempts =>
      simp only [runInner]
      split
      · next h => exact Accounted.closed ⟨[], tally_rows true attempts, .inr ⟨rfl, h⟩⟩ hl
      · next h =>
        have haccepts : finalizerAccepts H.e2ee isSse = true := by
          rw [finalizerAccepts, eq_false_of_ne_true h]
          rfl
        rw [if_pos haccepts]
        exact sound_toStream h hl hres
    | upstreamError status body route attempts =>
      exact ((accounted_upstreamError _ _ _ status body route).congr (by simp [Refusal])).closed hl
    | allFailed attempts e =>
      exact ((accounted_allFailed _ _ _ e).congr (by simp [Refusal])).closed hl

/-- In the body of an early response. -/
theorem sound_resolveInBody (he : H.e2ee = false) (hl : ¬ late) (hres : Resolves j result) :
    Sound H (Refusal H result = true) late
      (resolveInBody H ⟨j, fresh H.stream, phase⟩ result) := by
  cases result with
  | error e => exact ((accounted_error _ _ e).congr (by simp [Refusal])).closed hl
  | ok result =>
    cases result with
    | forwarded status body route attempts =>
      refine Accounted.closed (accounted_outcome true [] (.refl _) rfl rfl ?_) hl
      simp [Refusal]
    | stream status isSse route attempts => exact sound_toStream (by simp [Refusal, he]) hl hres
    | upstreamError status body route attempts =>
      exact ((accounted_upstreamError _ _ _ status body route).congr (by simp [Refusal])).closed hl
    | allFailed attempts e =>
      exact ((accounted_allFailed _ _ _ e).congr (by simp [Refusal])).closed hl

theorem Request.post_posted (r : Request) (reports : List PostReport) :
    (r.post reports).guard.posted = r.guard.posted ++ reports := rfl

/-- The reports of a stream after a poll or a drop. -/
theorem outcomes_of_settles {body body' : MeterStream} {outcomes posted : List PostReport} {n : Nat}
    (h : Settles body body' posted) (hindex : body.report.attemptIndex = n)
    (houtcomes : outcomes.length = if body.settled then 1 else 0)
    (hkind : ∀ r ∈ outcomes, r.kind = .outcome ∧ r.attemptIndex = n) :
    (outcomes ++ posted).length = (if body'.settled then 1 else 0) ∧
      ∀ r ∈ outcomes ++ posted, r.kind = .outcome ∧ r.attemptIndex = n := by
  rcases h with ⟨-, ⟨hsame, rfl⟩ | ⟨hopen, hclosed, r, rfl, hk, hi⟩⟩
  · rw [append_nil, hsame]
    exact ⟨houtcomes, hkind⟩
  · refine ⟨by simp [houtcomes, hopen, hclosed], ?_⟩
    intro t ht
    rcases mem_append.mp ht with ht | ht
    · exact hkind t ht
    · obtain rfl := mem_singleton.mp ht
      exact ⟨hk, hi.trans hindex⟩

theorem sound_dropBody (abort : Bool) (h : Sound H refused late r) :
    Sound H refused late (r.dropBody abort) := by
  cases h with
  | waiting hphase hj hr hl =>
    have hdrop := (accounted_drop H.stream hj).congr (by simpa using hr)
    rcases hphase with rfl | ⟨rfl, -⟩ <;> exact hdrop.closed hl
  | @streaming j g early body outcomes harmed hposted houtcomes hkind hindex hj hr hl =>
    obtain ⟨hlength, hall⟩ := outcomes_of_settles (MeterStream.drop_settles abort body) hindex
      houtcomes hkind
    rw [MeterStream.drop_settled, if_pos rfl] at hlength
    have ht : Tally (g.posted ++ (body.drop abort).2) (outcomes ++ (body.drop abort).2) [] := by
      refine ⟨⟨true, j.abandoned, ?_, ?_⟩, fun r hr => (hall r hr).1, by simp⟩
      · rw [hposted, append_assoc, append_nil]
      · simpa using fun r hr => (hall r hr).2
    exact .closed ht (.inl ⟨hlength, hr⟩) (.inr ⟨rfl, hl⟩)
  | closed ht hr hl => exact .closed ht hr hl

/-- The body of an early or a metered response fails. -/
theorem sound_failBody (h : Sound H refused late r) :
    Sound H refused (late ∨ FailsLate r .bodyError) r.failBody := by
  cases h with
  | @waiting j phase hphase hj hr hl =>
    have hsame : (late ∨ FailsLate ⟨j, ⟨true, H.stream, []⟩, phase⟩ .bodyError) ↔ late := by
      refine or_iff_left ?_
      rintro ⟨-, early, body, hp, -⟩
      rcases hphase with rfl | ⟨rfl, -⟩ <;> cases hp
    rw [hsame]
    have hdrop := sound_dropBody true (.waiting hphase hj hr hl : Sound H refused late _)
    rcases hphase with rfl | ⟨rfl, -⟩ <;> exact hdrop
  | @streaming j g early body outcomes harmed hposted houtcomes hkind hindex hj hr hl =>
    cases hset : body.settled with
    | false =>
      have hsame : (late ∨ FailsLate ⟨j, g, .streaming early body⟩ .bodyError) ↔ late := by
        refine or_iff_left ?_
        rintro ⟨-, e, b, ⟨⟩, hb⟩
        rw [hset] at hb
        cases hb
      rw [hsame]
      have hfail : failBody ⟨j, g, .streaming early body⟩ =
          dropBody ⟨j, g, .streaming early body⟩ true := by simp [failBody, hset]
      rw [hfail]
      exact sound_dropBody true (.streaming harmed hposted houtcomes hkind hindex hj hr hl)
    | true =>
      have hsilent : (body.drop true).2 = [] := by
        rcases MeterStream.drop_settles true body with ⟨-, ⟨-, hnone⟩ | ⟨hopen, -⟩⟩
        · exact hnone
        · rw [hset] at hopen
          cases hopen
      have hpost : (failBody ⟨j, g, .streaming early body⟩).guard.posted =
          g.posted ++ [lateFailure j early body] := by
        simp [failBody, hset, dropBody, post, hsilent]
      have hover : (failBody ⟨j, g, .streaming early body⟩).phase = .closed := by
        simp [failBody, hset, dropBody, post]
      have hlate : (lateFailure j early body).attemptIndex = j.abandoned.length := by
        obtain ⟨route, hin⟩ := hj
        cases early
        · exact hindex
        · simp [lateFailure, hin]
      generalize failBody ⟨j, g, .streaming early body⟩ = r' at hpost hover
      obtain ⟨j', g', phase'⟩ := r'
      obtain rfl : phase' = .closed := hover
      have ht : Tally g'.posted outcomes [lateFailure j early body] := by
        refine ⟨⟨true, j.abandoned, ?_, ?_⟩, fun r hr => (hkind r hr).1, by simp [lateFailure]⟩
        · have hg := hpost
          rw [hg, hposted, append_assoc]
        · intro r hr
          rcases mem_append.mp hr with hr | hr
          · exact (hkind r hr).2
          · obtain rfl := mem_singleton.mp hr
            exact hlate
      exact .closed ht (.inl ⟨by simpa [hset] using houtcomes, hr⟩)
        (.inl ⟨rfl, .inr ⟨rfl, early, body, rfl, hset⟩, hr⟩)
  | @closed j g outcomes lates ht hr hl =>
    have hsame : (late ∨ FailsLate ⟨j, g, .closed⟩ .bodyError) ↔ late := by
      refine or_iff_left ?_
      rintro ⟨-, early, body, hp, -⟩
      cases hp
    rw [hsame]
    exact .closed ht hr hl

theorem sound_step {r' : Request} {e : Event} (h : Sound H refused late r)
    (hs : r.step H e = some r') :
    Sound H (refused ∨ refuses H e = true) (late ∨ FailsLate r e) r' := by
  cases e with
  | bodyError =>
    have hfail : r' = r.failBody := by
      simp only [step] at hs
      split at hs <;> cases hs <;> rfl
    rw [hfail]
    simpa [refuses] using sound_failBody h
  | drop =>
    have hdrop : r' = r.dropBody false := by
      simp only [step] at hs
      split at hs <;> cases hs
      rfl
    rw [hdrop]
    simpa [refuses, FailsLate] using sound_dropBody false h
  | move m =>
    cases h with
    | @waiting j phase hphase hj hr hl =>
      have hmove : r' = ⟨j.advance m, ⟨true, H.stream, []⟩, phase⟩ := by
        rcases hphase with rfl | ⟨rfl, -⟩ <;> exact (Option.some.inj hs).symm
      rw [hmove]
      exact .waiting hphase (advance_index j m) (by simpa [refuses] using hr)
        (by simpa [FailsLate] using hl)
    | streaming => cases hs
    | closed => cases hs
  | elapsed =>
    cases h with
    | @waiting j phase hphase hj hr hl =>
      simp only [step] at hs
      split at hs
      · next hc =>
        cases hs
        have hr' : ¬ (refused ∨ refuses H .elapsed = true) := by simpa [refuses] using hr
        split
        · exact .waiting (.inr ⟨rfl, by simpa using hc.2.2.2.1⟩) hj hr'
            (by simpa [FailsLate] using hl)
        · exact .waiting hphase hj hr' (by simpa [FailsLate] using hl)
      · cases hs
    | streaming => simp [step] at hs
    | closed => simp [step] at hs
  | resolve result =>
    cases h with
    | @waiting j phase hphase hj hr hl =>
      have hrefused : (refused ∨ refuses H (.resolve result) = true) ↔ Refusal H result = true :=
        or_iff_right hr
      have hl' : ¬ (late ∨ FailsLate ⟨j, ⟨true, H.stream, []⟩, phase⟩ (.resolve result)) := by
        simpa [FailsLate] using hl
      rw [propext hrefused]
      simp only [step] at hs
      split at hs
      · next hres =>
        rcases hphase with rfl | ⟨rfl, he⟩
        · cases hs
          exact sound_runInner hl' hres
        · cases hs
          exact sound_resolveInBody he hl' hres
      · cases hs
    | streaming =>
      simp only [step] at hs
      split at hs <;> cases hs
    | closed =>
      simp only [step] at hs
      split at hs <;> cases hs
  | poll p =>
    cases h with
    | waiting hphase => rcases hphase with rfl | ⟨rfl, -⟩ <;> cases hs
    | @streaming j g early body outcomes harmed hposted houtcomes hkind hindex hj hr hl =>
      cases hs
      have hsettles := MeterStream.pollNext_settles H.decode false body p
      obtain ⟨hlength, hall⟩ := outcomes_of_settles hsettles hindex houtcomes hkind
      refine .streaming harmed ?_ hlength hall (hsettles.1 ▸ hindex) hj
        (by simpa [refuses] using hr) (by simpa [FailsLate] using hl)
      rw [post_posted, hposted, append_assoc]
      rfl
    | closed => cases hs

theorem run_concat (r : Request) (events : List Event) (e : Event) :
    run H r (events ++ [e]) = (run H r events).bind (step H · e) := by
  simp [run, foldlM_append]

theorem lateFailure_concat {events : List Event} {e : Event}
    (hrun : run H (.start H) events = some r) :
    LateFailure H (events ++ [e]) ↔ LateFailure H events ∨ FailsLate r e := by
  constructor
  · rintro ⟨before, e', after, r', heq, hr', hlate⟩
    rcases eq_nil_or_concat after with rfl | ⟨after, last, rfl⟩
    · obtain ⟨rfl, ⟨⟩⟩ := append_inj' heq rfl
      rw [hrun] at hr'
      cases hr'
      exact .inr hlate
    · rw [concat_eq_append, ← cons_append, ← append_assoc] at heq
      obtain ⟨rfl, -⟩ := append_inj' heq rfl
      exact .inl ⟨before, e', after, r', rfl, hr', hlate⟩
  · rintro (⟨before, e', after, r', rfl, hr', hlate⟩ | hlate)
    · exact ⟨before, e', after ++ [e], r', by simp, hr', hlate⟩
    · exact ⟨events, e, [], r, rfl, hrun, hlate⟩

theorem sound_run (events : List Event) (r : Request) (hrun : run H (.start H) events = some r) :
    Sound H (events.any (refuses H) = true) (LateFailure H events) r := by
  induction events using reverseRecOn generalizing r with
  | nil =>
    cases hrun
    refine .waiting (.inl rfl) (by rintro a ⟨⟩) (by simp) ?_
    rintro ⟨before, e, after, r, heq, -⟩
    simp at heq
  | append_singleton events e ih =>
    rw [run_concat] at hrun
    obtain ⟨t, ht, hs⟩ := Option.bind_eq_some_iff.mp hrun
    have hstep := sound_step (ih t ht) hs
    rw [propext (lateFailure_concat ht)]
    simpa using hstep

end Runs

/-! The forward. -/

section Forward

open Failover

variable {E : Env} {candidates : List ForwardCandidate} {rest : List (Nat × ForwardCandidate)}
  {c : ForwardCandidate} {index : Nat} {done : Bool} {id : AttemptId}

/-- What a visit that goes on does to the list of abandoned attempts. -/
theorem visit_next {isLast : Bool} {s s' : Walk} (h : visit E done isLast index id c s = .next s') :
    ∃ left : Option FailedAttempt, s'.failedAttempts = s.failedAttempts ++ left.toList := by
  unfold visit at h
  dsimp only at h
  split at h
  · cases h
    exact ⟨none, by simp [Walk.upgrade]⟩
  · cases h
    exact ⟨some _, rfl⟩
  · cases h
  · cases h
  · cases h
  · next a ha =>
    split at h
    · cases h
      refine ⟨some ⟨c.routeId, recordedAttemptStatus E.classifier a, (E.world id).duration, id⟩, ?_⟩
      simp only [Walk.abandon, Walk.noteCapacity]
      split <;> rfl
    · cases h

theorem leave_abandoned (j : Journal) (left : Option FailedAttempt) :
    (j.leave left).abandoned = j.abandoned ++ left.toList := by
  cases left <;> simp [Journal.leave, Journal.recordAbandoned]

/-- At the head of the loop the journal holds the abandoned attempts, but for the one that was
just left. -/
theorem visited_journal {s : Walk} (h : Visited E candidates done rest index s) :
    ∃ (moves : List Move) (left : Option FailedAttempt),
      (moves.foldl Journal.advance {}).abandoned ++ left.toList = s.failedAttempts := by
  induction h with
  | start => exact ⟨[], none, rfl⟩
  | @step done place c rest index s s' h hv ih =>
    obtain ⟨moves, left, hs⟩ := ih
    obtain ⟨left', hs'⟩ := visit_next hv
    refine ⟨moves ++ [.attempt left c.routeId], left', ?_⟩
    rw [foldl_append, hs', ← hs]
    exact congrArg (· ++ left'.toList) (leave_abandoned _ left)
  | retry h hc he ih =>
    obtain ⟨moves, left, hs⟩ := ih
    refine ⟨moves ++ [.pause left], none, ?_⟩
    rw [foldl_append, Option.toList_none, append_nil, ← hs]
    exact leave_abandoned _ left

/-- While a candidate is tried, it is in flight at the place after the abandoned ones. -/
theorem journal_in_flight {place : Nat}
    {s : Walk} (h : Visited E candidates done ((place, c) :: rest) index s) :
    ∃ moves : List Move, moves.foldl Journal.advance {} =
      ⟨some ⟨c.routeId, s.failedAttempts.length⟩, s.failedAttempts⟩ := by
  obtain ⟨moves, left, hs⟩ := visited_journal h
  refine ⟨moves ++ [.attempt left c.routeId], ?_⟩
  rw [foldl_append, ← hs, ← leave_abandoned]
  rfl

/-- A stream of the walk resolves as the request expects it to. -/
theorem forward_resolves (hne : candidates ≠ []) {route : String} {attempts : List FailedAttempt}
    {log : List Entry} (isSse : Bool)
    (h : forwardChatCompletionForMiddleware E candidates = (.ok (.stream route attempts id), log)) :
    ∃ moves : List Move, Resolves (moves.foldl Journal.advance {})
      (.ok (.stream 200 isSse route attempts)) := by
  have hdecided := forward_decided E hne
  rw [h] at hdecided
  generalize hres : (Except.ok (ForwardResult.stream route attempts id), log) = res at hdecided
  cases hdecided with
  | @visit done place c rest index s r log' hv hvisit =>
    cases hres
    obtain ⟨hroute, hattempts⟩ : route = c.routeId ∧ attempts = s.failedAttempts := by
      unfold visit commitAnswer commit at hvisit
      dsimp only at hvisit
      split at hvisit
      · cases hvisit
      · cases hvisit
      · cases hvisit
      · cases hvisit
      · split at hvisit <;> cases hvisit
        exact ⟨rfl, rfl⟩
      · split at hvisit
        · cases hvisit
        · split at hvisit
          · cases hvisit
          · split at hvisit <;> cases hvisit
    obtain ⟨moves, hj⟩ := journal_in_flight hv
    refine ⟨moves, ?_⟩
    rw [hj, hroute, hattempts]
    exact ⟨rfl, rfl, rfl⟩
  | @finish done index s hv =>
    unfold finish commitAnswer commit at hres
    split at hres
    · split at hres
      · cases hres
      · split at hres <;> cases hres
    · cases hres

end Forward

/-! The accounts of a request. -/

/-- Whatever the forward comes to, however the stream ends and wherever the request is dropped,
one outcome is reported, or none after a refusal. A body that fails after its stream has settled
is reported once more, at the attempt that served it. Reports differ by attempt or status, unless
the late one repeats a stream that had itself been settled as a bad gateway. A stream settles
once over its polls and its drop. -/
theorem usage_reported (H : Handler) :
    (∀ events r, Request.run H (.start H) events = some r →
      let posted := (r.dropBody false).guard.posted
      ((ofKind .outcome posted).length = if events.any (refuses H) then 0 else 1) ∧
      ((ofKind .late posted).length = 1 ∧ LateFailure H events ∨
        ofKind .late posted = [] ∧ ¬ LateFailure H events) ∧
      (∀ l ∈ ofKind .late posted, l.status = 502 ∧
        ∃ o ∈ ofKind .outcome posted, l.attemptIndex = o.attemptIndex) ∧
      ((∀ o ∈ ofKind .outcome posted, ∀ l ∈ ofKind .late posted, o.status ≠ 502) →
        (posted.map PostReport.identity).Nodup)) ∧
    ∀ decode report protocol polls abort,
      (MeterStream.lifetime decode (.new report protocol) polls abort).length = 1 := by
  refine ⟨fun events r hrun => ?_, fun decode report protocol polls abort => ?_⟩
  · have hsound := sound_dropBody false (sound_run events r hrun)
    have hover : (r.dropBody false).phase = .closed := by
      unfold dropBody
      split <;> simp_all
    generalize r.dropBody false = r' at hsound hover
    cases hsound with
    | waiting hphase =>
      rcases hphase with rfl | ⟨rfl, -⟩ <;> cases hover
    | streaming => cases hover
    | @closed j g outcomes lates ht hr hl =>
      obtain ⟨houtcomes, hlates⟩ := ht.ofKind_perm
      have hone : outcomes.length ≤ 1 := by
        rcases hr with ⟨h, -⟩ | ⟨rfl, -⟩
        · exact h.le
        · simp
      have hlone : lates.length ≤ 1 := by
        rcases hl with ⟨h, -⟩ | ⟨rfl, -⟩
        · exact h.le
        · simp
      refine ⟨?_, ?_, ?_, ?_⟩
      · rw [houtcomes.length_eq]
        rcases hr with ⟨h, hno⟩ | ⟨rfl, hyes⟩
        · rw [if_neg hno, h]
        · rw [if_pos hyes]
          rfl
      · rcases hl with ⟨h, hyes, -⟩ | ⟨rfl, hno⟩
        · exact .inl ⟨hlates.length_eq.trans h, hyes⟩
        · exact .inr ⟨hlates.eq_nil, hno⟩
      · intro l hmem
        have hmem := hlates.mem_iff.mp hmem
        refine ⟨(ht.late l hmem).2, ?_⟩
        rcases hl with ⟨-, -, hno⟩ | ⟨rfl, -⟩
        · rcases hr with ⟨h, -⟩ | ⟨-, hyes⟩
          · obtain ⟨o, rfl⟩ := length_eq_one_iff.mp h
            exact ⟨o, houtcomes.mem_iff.mpr mem_cons_self,
              ht.late_index hmem mem_cons_self⟩
          · exact absurd hyes hno
        · cases hmem
      · intro hapart
        refine ht.nodup_identity hone hlone ?_
        intro o ho l hmem
        exact hapart o (houtcomes.mem_iff.mpr ho) l (hlates.mem_iff.mpr hmem)
  · rw [MeterStream.length_lifetime]
    rfl

/-- A streaming request on the chat endpoint. -/
def chatHandler : Handler where
  stream := true
  e2ee := false
  aciConstrained := false
  keepalive := true
  protocol := .openaiChat
  decode _ := none
  classifier := ⟨fun _ _ => false, fun _ _ => false⟩
  mapped status _ := mapUpstreamStatus status
  converted _ := none

/-- The first candidate answers with a stream that ends. -/
def streamed : List Event :=
  [.move (.attempt none "a"), .resolve (.ok (.stream 200 true "a" [])),
    .poll (.ended fun _ _ => none)]

theorem usage_reported_of_stream :
    ∃ r, Request.run chatHandler (.start chatHandler) streamed = some r ∧
      (ofKind .outcome (r.dropBody false).guard.posted).length = 1 :=
  ⟨_, rfl, ((usage_reported chatHandler).1 streamed _ rfl).1⟩

/-- A receipt that cannot be stored after the stream has settled is reported on top of it. -/
theorem reported_twice :
    ∃ r, Request.run chatHandler (.start chatHandler) (streamed ++ [.bodyError]) = some r ∧
      r.phase = .closed ∧
      r.guard.posted.map (fun p => (p.identity, p.kind)) =
        [((0, 200), .outcome), ((0, 502), .late)] :=
  ⟨_, rfl, rfl, rfl⟩

end AciGateway.Usage
