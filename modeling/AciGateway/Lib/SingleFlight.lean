import AciGateway.Lib.Runs
import Mathlib.Data.List.Basic
import Mathlib.Order.Basic

/-! A cache of verifications, filled by one verification at a time. A call looks into the cache,
waits for the lock, looks again, verifies and stores the outcome; an invalidation drops the
entry of its key without the lock. -/
namespace SingleFlight

open List

variable {K R O V E : Type}

/-- What a cache is for: keys of requests `R`, outcomes `O` of a verification, values `V` that
are kept, and the events `E` that calls return. -/
structure Policy (K R O V E : Type) where
  key : R → K
  store : O → Option V
  /-- The event for a request, from a value that was kept. -/
  hit : R → V → E
  /-- The event of the verification itself. -/
  answer : R → O → E
  ttl : Nat
  /-- Whether a value may still be returned, given when it expires and the two clocks. -/
  fresh : V → (expiresAt instant wall : Nat) → Bool
  /-- Whether a look at an expired entry also drops what is stored under its key. -/
  dropsExpired : Bool

/-- `verification` is the number of the step at which the verification started. -/
structure Entry (V : Type) where
  value : V
  expiresAt : Nat
  verification : Nat

inductive Kind where
  | verify
  | refresh
  | cached
  deriving DecidableEq

/-- Where a call is. The lock is held from `rechecking` on. -/
inductive Phase where
  | checking
  | dropping
  | waiting
  | rechecking
  | redropping
  | verifying (verification started : Nat)
  deriving DecidableEq

/-- A call, and the step it was made at. -/
structure Call (R : Type) where
  kind : Kind
  request : R
  since : Nat
  phase : Phase

/-- An event returned by a call that was made at the step `since`. -/
structure Answer (R E : Type) where
  request : R
  since : Nat
  verification : Nat
  event : E

/-- `busy` says that a verification for the key was running. -/
structure Invalidation (K : Type) where
  key : K
  step : Nat
  busy : Bool

/-- `step` counts the steps; `answers` and `invalidations` are the history. -/
structure State (K R V E : Type) where
  step : Nat
  instant : Nat
  wall : Nat
  cache : K → Option (Entry V)
  locked : Bool
  calls : List (Call R)
  answers : List (Answer R E)
  invalidations : List (Invalidation K)

def State.initial : State K R V E := ⟨0, 0, 0, fun _ => none, false, [], [], []⟩

def Call.verifying (c : Call R) : Bool :=
  match c.phase with
  | .verifying _ _ => true
  | _ => false

def Phase.looking (p : Phase) : Bool := p = .checking || p = .rechecking

/-- The phase after a look that found nothing; `none` ends the call. -/
def Call.onMiss (c : Call R) (s : State K R V E) : Option Phase :=
  match c.phase with
  | .checking | .dropping => if c.kind = .cached then none else some .waiting
  | _ => some (.verifying s.step s.instant)

/-- Let the call at `i` go on in the phase, or end. -/
def State.move (s : State K R V E) (i : Nat) (c : Call R) : Option Phase → State K R V E
  | some phase => { s with step := s.step + 1, calls := s.calls.set i { c with phase } }
  | none => { s with step := s.step + 1, calls := s.calls.eraseIdx i }

def State.drop [DecidableEq K] (s : State K R V E) (k : K) : State K R V E :=
  { s with cache := Function.update s.cache k none }

/-- A verification for the key is running. -/
def State.busy [DecidableEq K] (P : Policy K R O V E) (s : State K R V E) (k : K) : Bool :=
  s.calls.any (fun c => c.verifying && P.key c.request = k)

/-- The cache after a verification that ended with the outcome. -/
def Policy.put [DecidableEq K] (P : Policy K R O V E) (cache : K → Option (Entry V)) (k : K)
    (o : O) (started verification : Nat) : K → Option (Entry V) :=
  match P.store o with
  | some v => Function.update cache k (some ⟨v, started + P.ttl, verification⟩)
  | none => cache

inductive Step [DecidableEq K] (P : Policy K R O V E) : State K R V E → State K R V E → Prop
  | begin (s : State K R V E) (kind : Kind) (request : R) :
      Step P s { s with
        step := s.step + 1
        calls := s.calls ++
          [⟨kind, request, s.step, if kind = .refresh then .waiting else .checking⟩] }
  | hit (s : State K R V E) (i : Nat) (c : Call R) (e : Entry V) (hc : s.calls[i]? = some c)
      (hp : c.phase.looking = true) (he : s.cache (P.key c.request) = some e)
      (hf : P.fresh e.value e.expiresAt s.instant s.wall = true) :
      Step P s { s with
        step := s.step + 1
        locked := if c.phase = .rechecking then false else s.locked
        calls := s.calls.eraseIdx i
        answers := s.answers ++
          [⟨c.request, c.since, e.verification, P.hit c.request e.value⟩] }
  | miss (s : State K R V E) (i : Nat) (c : Call R) (hc : s.calls[i]? = some c)
      (hp : c.phase.looking = true)
      (hm : ∀ e, s.cache (P.key c.request) = some e →
        P.fresh e.value e.expiresAt s.instant s.wall = false ∧ P.dropsExpired = false) :
      Step P s (s.move i c (c.onMiss s))
  | expired (s : State K R V E) (i : Nat) (c : Call R) (e : Entry V)
      (hc : s.calls[i]? = some c) (hp : c.phase.looking = true)
      (he : s.cache (P.key c.request) = some e)
      (hf : P.fresh e.value e.expiresAt s.instant s.wall = false) (hd : P.dropsExpired = true) :
      Step P s (s.move i c (some (if c.phase = .checking then .dropping else .redropping)))
  | drop (s : State K R V E) (i : Nat) (c : Call R) (hc : s.calls[i]? = some c)
      (hp : c.phase = .dropping ∨ c.phase = .redropping) :
      Step P s ((s.drop (P.key c.request)).move i c (c.onMiss s))
  | acquire (s : State K R V E) (i : Nat) (c : Call R) (hc : s.calls[i]? = some c)
      (hp : c.phase = .waiting) (hl : s.locked = false) :
      Step P s ({ s with locked := true }.move i c (some
        (if c.kind = Kind.refresh then .verifying s.step s.instant else .rechecking)))
  | finish (s : State K R V E) (i : Nat) (c : Call R) (verification started : Nat) (o : O)
      (hc : s.calls[i]? = some c) (hp : c.phase = .verifying verification started) :
      Step P s { s with
        step := s.step + 1
        cache := P.put s.cache (P.key c.request) o started verification
        locked := false
        calls := s.calls.eraseIdx i
        answers := s.answers ++ [⟨c.request, c.since, verification, P.answer c.request o⟩] }
  | cancel (s : State K R V E) (i : Nat) (c : Call R) (hc : s.calls[i]? = some c)
      (hp : c.phase = .waiting ∨ c.verifying = true) :
      Step P s ({ s with locked := if c.verifying then false else s.locked }.move i c none)
  | invalidate (s : State K R V E) (request : R) :
      Step P s { s.drop (P.key request) with
        step := s.step + 1
        invalidations := s.invalidations ++
          [⟨P.key request, s.step, s.busy P (P.key request)⟩] }
  | elapse (s : State K R V E) (instant wall : Nat) (h : s.instant ≤ instant) :
      Step P s { s with step := s.step + 1, instant, wall }

/-- The verification started after every invalidation of the key so far. -/
def State.After (s : State K R V E) (k : K) (verification : Nat) : Prop :=
  ∀ x ∈ s.invalidations, x.key = k → x.step ≤ verification

/-- No call made after an invalidation returned an event of a verification started before. -/
def State.Effective (P : Policy K R O V E) (s : State K R V E) : Prop :=
  ∀ a ∈ s.answers, ∀ x ∈ s.invalidations, x.key = P.key a.request → x.step < a.since →
    x.step ≤ a.verification

/-- No invalidation met a running verification for its key. -/
def State.Quiet (s : State K R V E) : Prop := ∀ x ∈ s.invalidations, x.busy = false

variable {P : Policy K R O V E} {s s' : State K R V E} {cache : K → Option (Entry V)}

structure Clean (P : Policy K R O V E) (s : State K R V E) : Prop where
  past : ∀ x ∈ s.invalidations, x.step < s.step
  stored : ∀ k e, s.cache k = some e → s.After k e.verification
  running : ∀ c ∈ s.calls, ∀ verification started, c.phase = .verifying verification started →
    s.After (P.key c.request) verification
  made : ∀ c ∈ s.calls, c.since ≤ s.step
  returned : ∀ a ∈ s.answers, a.since ≤ s.step
  effective : s.Effective P

theorem Clean.after_step (hi : Clean P s) (k : K) : s.After k s.step :=
  fun x hx _ => Nat.le_of_lt (hi.past x hx)

theorem Clean.initial : Clean P (State.initial : State K R V E) where
  past _ h := nomatch h
  stored _ _ h := nomatch h
  running _ h := nomatch h
  made _ h := nomatch h
  returned _ h := nomatch h
  effective _ h := nomatch h

/-- A step that invalidates nothing: entries, calls and answers that are new are of a
verification after every invalidation of their key. -/
theorem Clean.next (hi : Clean P s) (hstep : s'.step = s.step + 1)
    (hinv : s'.invalidations = s.invalidations)
    (hstored : ∀ k e, s'.cache k = some e → s.cache k = some e ∨ s.After k e.verification)
    (hcalls : ∀ c ∈ s'.calls, c ∈ s.calls ∨ c.since ≤ s.step ∧
      ∀ verification started, c.phase = .verifying verification started →
        s.After (P.key c.request) verification)
    (hanswers : ∀ a ∈ s'.answers, a ∈ s.answers ∨ a.since ≤ s.step ∧
      s.After (P.key a.request) a.verification) : Clean P s' := by
  have hafter : ∀ k n, s'.After k n ↔ s.After k n := by
    intro k n
    rw [State.After, State.After, hinv]
  refine ⟨?_, ?_, ?_, ?_, ?_, ?_⟩
  · rw [hinv, hstep]
    intro x hx
    have := hi.past x hx
    omega
  · intro k e he
    rw [hafter]
    exact (hstored k e he).elim (hi.stored k e) id
  · intro c hc verification started hp
    rw [hafter]
    rcases hcalls c hc with hc | hc
    · exact hi.running c hc verification started hp
    · exact hc.2 verification started hp
  · intro c hc
    rw [hstep]
    rcases hcalls c hc with hc | hc
    · exact Nat.le_succ_of_le (hi.made c hc)
    · exact Nat.le_succ_of_le hc.1
  · intro a ha
    rw [hstep]
    rcases hanswers a ha with ha | ha
    · exact Nat.le_succ_of_le (hi.returned a ha)
    · exact Nat.le_succ_of_le ha.1
  · intro a ha x hx hk hlt
    rw [hinv] at hx
    rcases hanswers a ha with ha | ha
    · exact hi.effective a ha x hx hk hlt
    · exact ha.2 x hx hk

/-- Moving a call on: a verification that starts now starts after every invalidation. -/
theorem Clean.move (hi : Clean P s) {i : Nat} {c : Call R} {phase : Option Phase} {locked : Bool}
    (hc : s.calls[i]? = some c) (hcache : ∀ k e, cache k = some e → s.cache k = some e)
    (hphase : ∀ verification started, phase = some (.verifying verification started) →
      verification = s.step) : Clean P ({ s with locked, cache }.move i c phase) := by
  cases phase with
  | none =>
    exact hi.next rfl rfl (fun k e he => .inl (hcache k e he))
      (fun x hx => .inl (mem_of_mem_eraseIdx hx)) (fun _ ha => .inl ha)
  | some phase =>
    refine hi.next rfl rfl (fun k e he => .inl (hcache k e he)) ?_ (fun _ ha => .inl ha)
    intro x hx
    rcases mem_or_eq_of_mem_set hx with hx | rfl
    · exact .inl hx
    · refine .inr ⟨hi.made c (mem_of_getElem? hc), ?_⟩
      intro verification started hp
      rw [hphase verification started (congrArg some hp)]
      exact hi.after_step _

theorem onMiss_verifying {c : Call R} {verification started : Nat}
    (h : c.onMiss s = some (.verifying verification started)) : verification = s.step := by
  unfold Call.onMiss at h
  split at h
  · split at h <;> cases h
  · split at h <;> cases h
  · cases h
    rfl

variable [DecidableEq K]

theorem drop_stored {k k' : K} {e : Entry V} (h : (s.drop k).cache k' = some e) :
    k' ≠ k ∧ s.cache k' = some e := by
  by_cases hk : k' = k
  · subst hk
    simp [State.drop] at h
  · exact ⟨hk, by simpa [State.drop, Function.update_of_ne hk] using h⟩

theorem put_stored {k k' : K} {o : O} {started verification : Nat}
    {e : Entry V} (h : P.put cache k o started verification k' = some e) :
    cache k' = some e ∨ k' = k ∧ e.verification = verification := by
  cases hs : P.store o with
  | none =>
    simp only [Policy.put, hs] at h
    exact .inl h
  | some v =>
    simp only [Policy.put, hs] at h
    by_cases hk : k' = k
    · subst hk
      rw [Function.update_self] at h
      cases h
      exact .inr ⟨rfl, rfl⟩
    · rw [Function.update_of_ne hk] at h
      exact .inl h

/-- Where no verification for the key is running, what is stored and what runs afterwards has
nothing to do with the key, or started later. -/
theorem Clean.invalidate (hi : Clean P s) {request : R} (hq : s.busy P (P.key request) = false) :
    Clean P { s.drop (P.key request) with
      step := s.step + 1
      invalidations := s.invalidations ++ [⟨P.key request, s.step, false⟩] } := by
  refine ⟨?_, ?_, ?_, ?_, ?_, ?_⟩
  · intro x hx
    rcases mem_append.mp hx with hx | hx
    · exact Nat.lt_succ_of_lt (hi.past x hx)
    · rw [mem_singleton.mp hx]
      exact Nat.lt_succ_self _
  · intro k e he x hx hk
    obtain ⟨hne, he⟩ := drop_stored he
    rcases mem_append.mp hx with hx | hx
    · exact hi.stored k e he x hx hk
    · rw [mem_singleton.mp hx] at hk
      exact absurd hk.symm hne
  · intro c hc verification started hp x hx hk
    rcases mem_append.mp hx with hx | hx
    · exact hi.running c hc verification started hp x hx hk
    · rw [mem_singleton.mp hx] at hk
      have hidle := any_eq_false.mp hq c hc
      have hkey : P.key c.request = P.key request := hk.symm
      simp [Call.verifying, hp, hkey] at hidle
  · exact fun c hc => Nat.le_succ_of_le (hi.made c hc)
  · exact fun a ha => Nat.le_succ_of_le (hi.returned a ha)
  · intro a ha x hx hk hlt
    rcases mem_append.mp hx with hx | hx
    · exact hi.effective a ha x hx hk hlt
    · -- The call was made before this invalidation.
      rw [mem_singleton.mp hx] at hlt
      exact absurd (hi.returned a ha) (Nat.not_le.mpr hlt)

theorem Clean.step (h : Step P s s') (hq : s'.Quiet) (hi : Clean P s) : Clean P s' := by
  cases h with
  | begin kind request =>
    refine hi.next rfl rfl (fun _ _ he => .inl he) ?_ (fun _ ha => .inl ha)
    intro c hc
    rcases mem_append.mp hc with hc | hc
    · exact .inl hc
    · rw [mem_singleton.mp hc]
      refine .inr ⟨Nat.le_refl _, ?_⟩
      intro verification started hp
      split at hp <;> cases hp
  | hit i c e hc hp he hf =>
    refine hi.next rfl rfl (fun _ _ he => .inl he) (fun x hx => .inl (mem_of_mem_eraseIdx hx)) ?_
    intro a ha
    rcases mem_append.mp ha with ha | ha
    · exact .inl ha
    · rw [mem_singleton.mp ha]
      exact .inr ⟨hi.made c (mem_of_getElem? hc), hi.stored _ e he⟩
  | miss i c hc hp hm =>
    exact hi.move hc (fun _ _ he => he) (fun _ _ h => onMiss_verifying h)
  | expired i c e hc hp he hf hd =>
    refine hi.move hc (fun _ _ he => he) ?_
    intro verification started h
    split at h <;> cases h
  | drop i c hc hp =>
    exact hi.move hc (fun _ _ he => (drop_stored he).2) (fun _ _ h => onMiss_verifying h)
  | acquire i c hc hp hl =>
    refine hi.move hc (fun _ _ he => he) ?_
    intro verification started h
    split at h
    · cases h
      rfl
    · cases h
  | finish i c verification started o hc hp =>
    have hafter := hi.running c (mem_of_getElem? hc) verification started hp
    refine hi.next rfl rfl ?_ (fun x hx => .inl (mem_of_mem_eraseIdx hx)) ?_
    · intro k e he
      rcases put_stored he with he | ⟨rfl, rfl⟩
      · exact .inl he
      · exact .inr hafter
    · intro a ha
      rcases mem_append.mp ha with ha | ha
      · exact .inl ha
      · rw [mem_singleton.mp ha]
        exact .inr ⟨hi.made c (mem_of_getElem? hc), hafter⟩
  | cancel i c hc hp => exact hi.move hc (fun _ _ he => he) (fun _ _ h => nomatch h)
  | invalidate request =>
    have hidle : s.busy P (P.key request) = false :=
      hq ⟨P.key request, s.step, s.busy P (P.key request)⟩
        (mem_append_right _ (mem_singleton_self _))
    rw [hidle]
    exact hi.invalidate hidle
  | elapse instant wall h =>
    exact hi.next rfl rfl (fun _ _ he => .inl he) (fun _ hx => .inl hx) (fun _ ha => .inl ha)

theorem quiet_back (h : Step P s s') (hq : s'.Quiet) : s.Quiet := by
  have hsub : s.invalidations ⊆ s'.invalidations := by
    cases h with
    | miss i c hc hp hm => cases hm : c.onMiss s <;> exact fun _ hx => hx
    | drop i c hc hp => cases hm : c.onMiss s <;> exact fun _ hx => hx
    | _ => simp [State.move]
  exact fun x hx => hq x (hsub hx)

/-- In a run without an invalidation during a verification for its key, every invalidation is
effective. -/
theorem effective_of_quiet (h : Relation.ReflTransGen (Step P) .initial s) (hq : s.Quiet) :
    s.Effective P :=
  (Runs.invariant_under (fun h hq => quiet_back h hq) (fun h hq hi => Clean.step h hq hi) h
    (fun _ => Clean.initial) hq).effective

/-- A verification that is running when its key is invalidated is returned to a later call. -/
theorem exists_stale_run (P : Policy K R O V E) (request : R) {o : O} {v : V}
    (hs : P.store o = some v) (hf : P.fresh v P.ttl 0 0 = true) :
    ∃ s, Relation.ReflTransGen (Step P) .initial s ∧ ¬ s.Effective P := by
  let k := P.key request
  let busy : State K R V E :=
    ⟨2, 0, 0, fun _ => none, true, [⟨.refresh, request, 0, .verifying 1 0⟩], [], []⟩
  have hbusy : Relation.ReflTransGen (Step P) .initial busy :=
    (Relation.ReflTransGen.single (.begin .initial .refresh request)).tail
      (.acquire _ 0 ⟨.refresh, request, 0, .waiting⟩ rfl rfl rfl)
  have hinvalidated := hbusy.tail (.invalidate busy request)
  have hstored := hinvalidated.tail
    (.finish _ 0 ⟨.refresh, request, 0, .verifying 1 0⟩ 1 0 o rfl rfl)
  have hlater := hstored.tail (.begin _ .cached request)
  have hput : ∀ cache : K → Option (Entry V), P.put cache k o 0 1 k = some ⟨v, P.ttl, 1⟩ := by
    intro cache
    simp [Policy.put, hs]
  have hhit := hlater.tail
    (.hit _ 0 ⟨.cached, request, 4, .checking⟩ ⟨v, P.ttl, 1⟩ rfl rfl (hput _) hf)
  refine ⟨_, hhit, ?_⟩
  intro heff
  have hle := heff ⟨request, 4, 1, P.hit request v⟩ (by simp)
    ⟨k, 2, busy.busy P k⟩ (by simp [busy, k]) rfl (Nat.lt_of_sub_pos Nat.two_pos)
  exact absurd hle (Nat.not_succ_le_self 1)

end SingleFlight
