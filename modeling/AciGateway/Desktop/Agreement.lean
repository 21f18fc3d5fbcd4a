import AciGateway.Desktop.Closure
import AciGateway.Lib.Runs

/-! The manager and the proxy agree: what a stop, a failure or a loss of verification closes
stays closed, a settings verification opens nothing, and at rest the proxy's session is
verified exactly when the manager says so. -/
namespace AciGateway.Desktop.SessionManager

open Relation

variable {Service Catalog : Type} {r : RuntimeState Service} {w : World Service Catalog}
  {s t : State Service Catalog} {p : Phase Service Catalog} {l : Label Service Catalog}
  {sinks : Nat → Bool} {c : Nat} {active : Except String (Option String)}
  {P : Session Service Catalog → Prop} {session : Session Service Catalog}
  {e : VerifierEvent Service} {purpose : Purpose}

/-! Agreement at rest. -/

section Agreement

/-- Some call holds a session that it has not published yet. -/
def State.Pending (s : State Service Catalog) (P : Session Service Catalog → Prop) : Prop :=
  ∃ c session purpose, s.calls c = .unpublished session purpose ∧ P session

structure Agrees (s : State Service Catalog) : Prop where
  opened : s.world.proxy.verified = true →
    (s.world.runtime.state.status = .verified ∧ s.world.runtime.verificationOnly = false) ∨
      s.Pending fun _ => True
  verified : s.world.runtime.state.status = .verified →
    s.world.runtime.verificationOnly = false → s.world.proxy.verified = true
  generation : s.world.proxy.generation = s.world.runtime.generation ∨
    s.Pending fun session => session.generation = s.world.runtime.generation

theorem pending_set
    (hc : ∀ session purpose, s.calls c ≠ .unpublished session purpose) (h : s.Pending P) :
    (s.set c w p).Pending P := by
  obtain ⟨c', session, purpose, h, hP⟩ := h
  have hne : c' ≠ c := by
    rintro rfl
    exact hc session purpose h
  exact ⟨c', session, purpose, by simpa [State.set, hne] using h, hP⟩

theorem pending_new (hP : P session) : (s.set c w (.unpublished session purpose)).Pending P :=
  ⟨c, session, purpose, Function.update_self _ _ _, hP⟩

theorem agrees_initial (active : Except String (Option String)) :
    Agrees (State.initial active : State Service Catalog) where
  opened h := by simp [State.initial, unverified] at h
  verified h := by
    simp only [State.initial, RuntimeState.new] at h
    split at h <;> simp at h
  generation := Or.inl rfl

theorem agrees_alike (ha : Alike s.world.runtime t.world.runtime)
    (hproxy : t.world.proxy = s.world.proxy)
    (hp : ∀ P, s.Pending P → t.Pending P) (hs : Agrees s) : Agrees t := by
  constructor <;> simp only [ha.generation, ha.verificationOnly, ha.status, hproxy]
  · exact fun h => (hs.opened h).imp_right (hp _)
  · exact hs.verified
  · exact hs.generation.imp_right (hp _)

/-- A new generation is about to be published. -/
theorem agrees_fresh (hv : w.runtime.state.status ≠ .verified)
    (hg : session.generation = w.runtime.generation) :
    Agrees (s.set c w (.unpublished session purpose)) where
  opened _ := Or.inr (pending_new trivial)
  verified h := absurd h hv
  generation := Or.inr (pending_new hg)

theorem agrees_event (he : ∀ error, e ≠ .terminated error)
    (hc : ∀ session purpose, s.calls c ≠ .unpublished session purpose) (hs : Agrees s) :
    Agrees (s.set c (s.world.handle e) p) where
  opened h := by
    obtain ⟨ho, rfl, hv⟩ := opens_handle he ⟨h, rfl⟩
    refine (hs.opened ho.1).imp ?_ (pending_set hc)
    rintro ⟨-, hvo⟩
    refine ⟨?_, hvo ▸ verificationOnly_handleEvent _ _⟩
    simp only [State.set, World.handle, RuntimeState.handleEvent, if_pos hv]
    exact hv
  verified h hvo := by
    have hproxy : (s.world.handle e).proxy = s.world.proxy := if_pos h
    obtain ⟨-, hv⟩ := status_handleEvent _ _ he h
    exact hproxy ▸ hs.verified hv ((verificationOnly_handleEvent _ _).symm.trans hvo)
  generation := by
    by_cases h : (s.world.runtime.handleEvent e).state.status = .verified
    · have hproxy : (s.world.handle e).proxy = s.world.proxy := if_pos h
      have hgen : (s.world.handle e).runtime.generation = s.world.runtime.generation :=
        generation_handleEvent _ _
      simp only [State.set, hproxy, hgen]
      exact hs.generation.imp_right (pending_set hc)
    · have hproxy : (s.world.handle e).proxy = (s.world.runtime.handleEvent e).closedSession :=
        if_neg h
      exact Or.inl (congrArg Session.generation hproxy)

theorem agrees_settle {catalog : Catalog}
    (hc : ∀ session purpose, s.calls c ≠ .unpublished session purpose) (hs : Agrees s) :
    Agrees (s.set c (s.world.settle catalog) p) := by
  cases hvo : s.world.runtime.verificationOnly with
  | true =>
    have hproxy : (s.world.settle catalog).proxy = s.world.proxy := if_pos hvo
    constructor <;> simp only [State.set, hproxy]
    · intro h
      refine Or.inr (pending_set hc ((hs.opened h).resolve_left ?_))
      simp [hvo]
    · exact fun _ h => absurd (hvo.symm.trans h) (by simp)
    · exact hs.generation.imp_right (pending_set hc)
  | false =>
    have hproxy : (s.world.settle catalog).proxy = s.world.runtime.openSession catalog :=
      if_neg (by simp [hvo])
    constructor <;> simp only [State.set, hproxy]
    · exact fun _ => Or.inl ⟨rfl, hvo⟩
    · exact fun _ _ => rfl
    · exact Or.inl rfl

theorem agrees_step (h : Step s l t) (hi : InTime s l) (hc : ClosedState s) (hs : Agrees s) :
    Agrees t := by
  cases h with
  | update u => exact agrees_alike (alike_update _ u) rfl (fun _ => id) hs
  | quiet c r sinks p h =>
    exact agrees_alike (alike_quiet h) rfl
      (fun _ => pending_set fun session purpose => (published_quiet h session purpose).1) hs
  | start c verificationOnly fresh r h hr => exact agrees_fresh (fresh_start hr).1.status rfl
  | stop c reconnecting h => exact agrees_fresh (fresh_stop _ _).status rfl
  | event c event h hne => exact agrees_event hne (by simp [h]) hs
  | terminated c error h => exact agrees_fresh (over_terminated _ error).status rfl
  | fail c status message h hst => exact agrees_fresh (over_fail _ message).status rfl
  | settle c g e catalog h he hsv => exact agrees_settle (by simp [h]) hs
  | publish c session purpose h =>
    have hp := hc.calls c
    rw [h] at hp
    refine ⟨fun hv => ?_, fun hv hvo => absurd ⟨hv, hvo⟩ hi.2, Or.inl hi.1⟩
    exact absurd (hp.1.symm.trans hv) (by simp)

end Agreement

/-! The results. -/

/-- All that a step can be asked to meet. -/
def Orderly (s : State Service Catalog) (l : Label Service Catalog) : Prop :=
  NoWrap s l ∧ NoRevival s l ∧ InTime s l

theorem closed_run (h : ReflTransGen (StepWhere NoWrap) (State.initial active) s) : ClosedState s := by
  refine Runs.invariant ?_ h ⟨closed_initial active, fun _ => trivial⟩
  rintro a b ⟨l, hl, hw⟩
  exact closedState_step hl hw

theorem ran_run
    (h : ReflTransGen (StepWhere fun s l => NoWrap s l ∧ NoRevival s l) (State.initial active) s) :
    ClosedState s ∧ RanState s := by
  refine Runs.invariant (P := fun s => ClosedState s ∧ RanState s) ?_ h
    ⟨⟨closed_initial active, fun _ => trivial⟩, ran_initial active, fun _ => trivial⟩
  rintro a b ⟨l, hl, hw, hv⟩ ⟨hc, hr⟩
  exact ⟨closedState_step hl hw hc, ranState_step hl hw hv hc hr⟩

theorem agrees_run (h : ReflTransGen (StepWhere Orderly) (State.initial active) s) :
    RanState s ∧ Agrees s := by
  refine (Runs.invariant (P := fun s => ClosedState s ∧ RanState s ∧ Agrees s) ?_ h
    ⟨⟨closed_initial active, fun _ => trivial⟩, ⟨ran_initial active, fun _ => trivial⟩,
      agrees_initial active⟩).2
  rintro a b ⟨l, hl, hw, hv, hi⟩ ⟨hc, hr, ha⟩
  exact ⟨closedState_step hl hw hc, ranState_step hl hw hv hc hr, agrees_step hl hi hc ha⟩

/-- A verified manager is verified for the kind of run that was started. -/
theorem verificationOnly_iff (hr : Ran w) (hv : w.runtime.state.status = .verified) :
    w.runtime.verificationOnly = false ↔ w.runs w.runtime.generation = some false := by
  obtain ⟨hid, hsv⟩ := hr.verified hv
  refine ⟨fun hvo => ?_, hr.protection⟩
  cases hrun : w.runs w.runtime.generation with
  | none => exact absurd hrun (hr.identified hid)
  | some verificationOnly =>
    cases verificationOnly with
    | false => rfl
    | true =>
      obtain ⟨hvo', -⟩ | ⟨-, hn⟩ := hr.settings hrun
      · simp [hvo] at hvo'
      · simp [hn] at hsv

theorem not_pending (hq : s.Quiescent) : ¬s.Pending P := by
  rintro ⟨c, session, purpose, h, -⟩
  obtain hc | hc := hq c <;> simp [hc] at h

/-- What is closed stays closed, unless an identity is reported that opens it again. Only the
catalog of a run that protects opens a session. At rest the proxy and the manager agree. -/
theorem session_agreement (active : Except String (Option String)) (s : State Service Catalog) :
    (ReflTransGen (StepWhere NoWrap) (State.initial active) s →
      ∀ g, s.world.stopped g ∨ s.world.failed g ∨ s.world.lost g → ¬s.world.Opens g) ∧
    (ReflTransGen (StepWhere fun s l => NoWrap s l ∧ NoRevival s l) (State.initial active) s →
      ∀ g, s.world.Opens g → s.world.runs g = some false ∧ s.world.loaded g) ∧
    (ReflTransGen (StepWhere Orderly) (State.initial active) s → s.Quiescent →
      s.world.proxy.generation = s.world.runtime.generation ∧
      (s.world.proxy.verified = true ↔ s.world.runtime.state.status = .verified ∧
        s.world.runs s.world.runtime.generation = some false)) := by
  refine ⟨?_, ?_, ?_⟩
  · intro h g hg
    have hc := (closed_run h).world
    obtain hg | hg | hg := hg
    · exact (hc.stopped g hg).2
    · exact (hc.failed g hg).2
    · exact (hc.lost g hg).2.2
  · exact fun h => (ran_run h).2.world.opens
  · intro h hq
    obtain ⟨hr, ha⟩ := agrees_run h
    refine ⟨ha.generation.resolve_right (not_pending hq), ?_, ?_⟩
    · intro hv
      obtain ⟨hst, hvo⟩ := (ha.opened hv).resolve_right (not_pending hq)
      exact ⟨hst, (verificationOnly_iff hr.world hst).mp hvo⟩
    · rintro ⟨hst, hrun⟩
      exact ha.verified hst ((verificationOnly_iff hr.world hst).mpr hrun)

/-! Runs of whole calls, one after the other. -/

namespace Scenario

theorem set_set (s : State Service Catalog) (c : Nat) (w w' : World Service Catalog)
    (p p' : Phase Service Catalog) : (s.set c w p).set c w' p' = s.set c w' p' := by
  simp [State.set]

/-- A step of the call that has just been set. -/
theorem calls_set (s : State Service Catalog) (c : Nat) (w : World Service Catalog)
    (p : Phase Service Catalog) : (s.set c w p).calls c = p :=
  Function.update_self _ _ _

variable {w' : World Service Catalog}

/-- A whole call is made of steps of that call. -/
theorem quiet_run {q : Phase Service Catalog}
    (h : ReflTransGen (StepWhere Orderly) s (s.set c w' p)) (hq : QuietStep w' p r sinks q) :
    ReflTransGen (StepWhere Orderly) s (s.set c { w' with runtime := r, sinks } q) := by
  have hstep := Step.quiet (s.set c w' p) c r sinks q (by rwa [calls_set])
  rw [set_set] at hstep
  exact h.tail ⟨_, hstep, trivial, trivial, trivial⟩

theorem invoke_run (call : Call Service) (hc : s.calls c = .idle)
    (h : ∀ g e, call = .event g e → s.world.sinks g = true) :
    ReflTransGen (StepWhere Orderly) s (s.set c s.world (.invoked call)) :=
  .single ⟨_, .quiet s c _ _ _ (hc ▸ .invoke call h), trivial, trivial, trivial⟩

theorem publish_run
    (h : ReflTransGen (StepWhere Orderly) s (s.set c w' (.unpublished session purpose)))
    (hg : session.generation = w'.runtime.generation) (hst : w'.runtime.state.status ≠ .verified) :
    ReflTransGen (StepWhere Orderly) s
      (s.set c (w'.publish session purpose) (purpose.next session)) := by
  have hstep := Step.publish _ c _ _ (calls_set s c w' (.unpublished session purpose))
  rw [set_set] at hstep
  exact h.tail ⟨_, hstep, trivial, trivial, hg, fun hv => hst hv.1⟩

/-- What a start leaves behind when nothing comes between. -/
def World.started (w : World Service Catalog) (verificationOnly : Bool)
    (r : RuntimeState Service) : World Service Catalog :=
  { (w.begin verificationOnly r).publish (unverified r.generation 0 (some r.sessionId)) .start with
    runtime := r.attach r.generation
    sinks := Function.update w.sinks r.generation true }

theorem start_run {verificationOnly : Bool} (fresh : String) (hc : s.calls c = .idle)
    (hr : s.world.runtime.start verificationOnly fresh = .ok r)
    (hw : s.world.runtime.generation + 1 < 2 ^ 64) :
    ReflTransGen (StepWhere Orderly) s
      (s.set c (World.started s.world verificationOnly r) .returned) := by
  have h₁ := invoke_run (.start verificationOnly fresh) hc (by simp)
  have hstart := Step.start (s.set c s.world (.invoked (.start verificationOnly fresh))) c
    verificationOnly fresh r (calls_set _ _ _ _) hr
  rw [set_set] at hstart
  have h₂ := h₁.tail ⟨_, hstart, hw, trivial, trivial⟩
  have h₃ := publish_run h₂ rfl (fresh_start hr).1.status
  have h₄ := quiet_run h₃ (.spawn r.generation)
  exact (quiet_run h₄ (.attach r.generation) :)

theorem event_step (hne : ∀ error, e ≠ .terminated error)
    (hret : s.world.runtime.retires e = false) :
    Step (s.set c s.world (.invoked (.event s.world.runtime.generation e)))
      (.handled s.world.runtime.generation e) (s.set c (s.world.handle e) .returned) := by
  have hevent := Step.event _ c e
    (calls_set s c s.world (.invoked (.event s.world.runtime.generation e))) hne
  simpa [State.set, hret] using hevent

theorem event_run (hc : s.calls c = .idle) (hs : s.world.sinks s.world.runtime.generation = true)
    (hne : ∀ error, e ≠ .terminated error) (hret : s.world.runtime.retires e = false)
    (hv : ∀ service, e = .ready service → ¬s.world.ended s.world.runtime.generation) :
    ReflTransGen (StepWhere Orderly) s (s.set c (s.world.handle e) .returned) := by
  have h₁ := invoke_run (.event s.world.runtime.generation e) hc (by rintro g e' ⟨⟩; exact hs)
  refine h₁.tail ⟨_, event_step hne hret, trivial, ?_, trivial⟩
  cases e with
  | ready service => exact fun he => absurd he (hv service rfl)
  | _ => trivial

/-- The next read of the catalog is the latest. -/
def World.reading (w : World Service Catalog) : World Service Catalog :=
  { w with runtime := { w.runtime with catalogRead := w.runtime.catalogRead + 1 } }

theorem load_run {g e : Nat} (catalog : Catalog) (hc : s.calls c = .idle)
    (he : s.world.runtime.expects g e = true) (hp : serves s.world.proxy g e = true)
    (hps : s.world.proxy.service.isSome) (hs : s.world.runtime.service.isSome) :
    ReflTransGen (StepWhere Orderly) s
      (s.set c ((World.reading s.world).settle catalog) .returned) := by
  have h₁ := invoke_run (.load g e) hc (by simp)
  have h₂ := quiet_run h₁ (.loadRead g e he)
  have h₃ := quiet_run h₂ (.fetchSend g e _ hp hps)
  have h₄ := quiet_run h₃ (.fetchOk g e _ catalog hp)
  have hsettle := Step.settle (s.set c (World.reading s.world) (.fetched g e _ (.ok catalog))) c
    g e catalog (calls_set _ _ _ _) he hs
  rw [set_set] at hsettle
  exact h₄.tail ⟨_, hsettle, trivial, trivial, trivial⟩

/-- What a stop leaves behind when nothing comes between. -/
def World.halted (w : World Service Catalog) (reconnecting : Bool) : World Service Catalog :=
  { w with runtime := w.runtime.stop reconnecting }.publish
    (unverified (w.runtime.stop reconnecting).generation w.runtime.epoch
      (if reconnecting then some w.runtime.sessionId else none)) (.stop w.runtime.generation)

theorem stop_run (reconnecting : Bool) (hc : s.calls c = .idle)
    (hw : s.world.runtime.generation + 1 < 2 ^ 64) :
    ReflTransGen (StepWhere Orderly) s
      (s.set c (World.halted s.world reconnecting) .returned) := by
  have h₁ := invoke_run (.stop reconnecting) hc (by simp)
  have hstop := Step.stop (s.set c s.world (.invoked (.stop reconnecting))) c reconnecting
    (calls_set _ _ _ _)
  rw [set_set] at hstop
  have h₂ := h₁.tail ⟨_, hstop, hw, trivial, trivial⟩
  exact publish_run h₂ rfl (fresh_stop _ _).status

/-- The first half of a failure: the lock is released, and nothing is published. -/
theorem fail_begun (status : Option VerificationStatus) (message : String) (hc : s.calls c = .idle)
    (hst : ∀ st, status = some st → s.world.runtime.state.status = st) :
    ReflTransGen (StepWhere Orderly) s
      (s.set c (s.world.finish (s.world.runtime.fail message))
        (.unpublished (s.world.runtime.fail message).endedSession
          (.fail s.world.runtime.generation))) := by
  have h₁ := invoke_run (.failIf s.world.runtime.generation status message) hc (by simp)
  have hfail := Step.fail _ c status message (calls_set s c s.world
    (.invoked (.failIf s.world.runtime.generation status message))) hst
  rw [set_set] at hfail
  exact h₁.tail ⟨_, hfail, trivial, trivial, trivial⟩

/-- The same for a verifier that terminates. -/
theorem terminated_begun (error : Option String) (hc : s.calls c = .idle)
    (hs : s.world.sinks s.world.runtime.generation = true) :
    ReflTransGen (StepWhere Orderly) s
      (s.set c (s.world.finish (s.world.runtime.terminated error))
        (.unpublished (s.world.runtime.terminated error).endedSession
          (.fail s.world.runtime.generation))) := by
  have h₁ := invoke_run (.event s.world.runtime.generation (.terminated error)) hc
    (by rintro g e ⟨⟩; exact hs)
  have hterm := Step.terminated _ c error (calls_set s c s.world
    (.invoked (.event s.world.runtime.generation (.terminated error))))
  rw [set_set] at hterm
  exact h₁.tail ⟨_, hterm, trivial, trivial, trivial⟩

/-- Any step at all. -/
theorem plain_run (h : ReflTransGen (StepWhere Orderly) s t) :
    ReflTransGen (StepWhere fun _ _ => True) s t := by
  refine h.lift id ?_
  rintro a b ⟨l, hl, -⟩
  exact ⟨l, hl, trivial⟩

/-! The manager of a fresh installation. -/

def fresh : State Unit Unit := State.initial (.ok none)

def startIn (s : State Unit Unit) (c : Nat) (verificationOnly : Bool) : State Unit Unit :=
  let r := (s.world.runtime.start verificationOnly "session").toOption.getD s.world.runtime
  s.set c (World.started s.world verificationOnly r) .returned

def handleIn (s : State Unit Unit) (c : Nat) (e : VerifierEvent Unit) : State Unit Unit :=
  s.set c (s.world.handle e) .returned

def loadIn (s : State Unit Unit) (c : Nat) : State Unit Unit :=
  s.set c ((World.reading s.world).settle ()) .returned

/-- A protected session of generation 1. -/
def guarded : State Unit Unit := loadIn (handleIn (startIn fresh 0 false) 1 (.ready ())) 2

theorem guarded_run : ReflTransGen (StepWhere Orderly) fresh guarded := by
  have h₁ : ReflTransGen (StepWhere Orderly) fresh (startIn fresh 0 false) :=
    start_run "session" rfl rfl (by decide)
  have h₂ := h₁.trans (event_run (c := 1) (e := .ready ()) rfl rfl (by simp) rfl (fun _ _ => id))
  exact h₂.trans (load_run (g := 1) (e := 1) () rfl rfl rfl rfl rfl)

theorem quiescent_set (hq : s.Quiescent) : (s.set c w' .returned).Quiescent :=
  (Function.forall_update_iff s.calls fun _ p => p = .idle ∨ p = .returned).mpr
    ⟨Or.inr rfl, fun c' _ => hq c'⟩

theorem guarded_quiescent : guarded.Quiescent :=
  quiescent_set (quiescent_set (quiescent_set fun _ => Or.inl rfl))

/-- The proxy agrees that a protected session is verified, and closes it for good with a
stop. -/
theorem session_agreement_guarded :
    (guarded.world.proxy.generation = 1 ∧ (guarded.world.proxy.verified = true ↔
      guarded.world.runtime.state.status = .verified ∧ guarded.world.runs 1 = some false)) ∧
    ¬(guarded.set 3 (World.halted guarded.world false) .returned).world.Opens 1 := by
  have hstop := guarded_run.trans (stop_run (c := 3) false rfl (by decide))
  refine ⟨(session_agreement (.ok none) guarded).2.2 guarded_run guarded_quiescent, ?_⟩
  refine (session_agreement (.ok none) _).1 (hstop.lift id ?_) 1 (Or.inl trivial)
  rintro a b ⟨l, hl, hw, -⟩
  exact ⟨l, hl, hw⟩

/-- A renewed identity opens the generation again that a block had closed. -/
theorem opens_after_blocked : ∃ s t : State Unit Unit,
    ReflTransGen (StepWhere Orderly) fresh s ∧ s.Quiescent ∧ s.world.lost 1 ∧
    ReflTransGen (StepWhere Orderly) s t ∧ t.world.Opens 1 := by
  let blocked := handleIn guarded 3 (.blocked none "re-verification failed")
  refine ⟨blocked, loadIn (handleIn blocked 4 .identityRenewed) 5, ?_,
    quiescent_set guarded_quiescent, trivial, ?_, rfl, rfl⟩
  · exact guarded_run.trans (event_run rfl rfl (by simp) rfl (by simp))
  · have h₁ : ReflTransGen (StepWhere Orderly) blocked (handleIn blocked 4 .identityRenewed) :=
      event_run rfl rfl (by simp) rfl (by simp)
    exact h₁.trans (load_run (g := 1) (e := 3) () rfl rfl rfl rfl rfl)

/-- A verifier terminates, and its successor is verified before the termination is published.
At rest the manager is then verified in generation 2, and the proxy holds generation 1. -/
theorem closed_by_predecessor : ∃ s : State Unit Unit,
    ReflTransGen (StepWhere fun _ _ => True) fresh s ∧ s.Quiescent ∧
    s.world.runtime.generation = 2 ∧ s.world.runtime.state.status = .verified ∧
    s.world.runs 2 = some false ∧
    s.world.proxy.verified = false ∧ s.world.proxy.generation = 1 := by
  let first := startIn fresh 0 false
  let ended := first.set 1 (first.world.finish (first.world.runtime.terminated none))
    (.unpublished (first.world.runtime.terminated none).endedSession (.fail 1))
  let second := loadIn (handleIn (startIn ended 2 false) 3 (.ready ())) 4
  have h₁ : ReflTransGen (StepWhere Orderly) fresh first :=
    start_run "session" rfl rfl (by decide)
  have h₂ : ReflTransGen (StepWhere Orderly) first ended := terminated_begun none rfl rfl
  have h₃ : ReflTransGen (StepWhere Orderly) ended (startIn ended 2 false) :=
    start_run "session" rfl rfl (by decide)
  have h₄ := event_run (s := startIn ended 2 false) (c := 3) (e := .ready ()) rfl rfl (by simp)
    rfl (fun _ _ => id)
  have h₅ : ReflTransGen (StepWhere Orderly) (handleIn (startIn ended 2 false) 3 (.ready ()))
      second := load_run (g := 2) (e := 2) () rfl rfl rfl rfl rfl
  have h := plain_run (((h₁.trans h₂).trans h₃).trans (h₄.trans h₅))
  refine ⟨_, h.tail ⟨_, Step.publish second 1 _ _ rfl, trivial⟩, ?_, rfl, rfl, rfl, rfl, rfl⟩
  -- Calls 0 to 4 have returned, the first failure last.
  rintro (_ | _ | _ | _ | _ | c)
  all_goals first | exact Or.inr rfl | exact Or.inl rfl

/-- A settings verification times out and then reports `Ready`: it opens the session. -/
theorem opened_by_settings : ∃ s : State Unit Unit,
    ReflTransGen (StepWhere fun _ _ => True) fresh s ∧ s.world.Opens 1 ∧
    s.world.runs 1 = some true := by
  let begun := startIn fresh 0 true
  let ended := begun.set 1 ((begun.world.finish (begun.world.runtime.fail "timed out")).publish
    (begun.world.runtime.fail "timed out").endedSession (.fail 1)) .returned
  have h₁ : ReflTransGen (StepWhere Orderly) fresh begun :=
    start_run "session" rfl rfl (by decide)
  have h₂ : ReflTransGen (StepWhere Orderly) begun ended :=
    publish_run (fail_begun (some .verifying) "timed out" rfl (by rintro st ⟨⟩; rfl)) rfl
      (over_fail _ _).status
  have h₃ := (plain_run ((h₁.trans h₂).trans (invoke_run (c := 2) (.event 1 (.ready ())) rfl
    (by rintro g e ⟨⟩; rfl)))).tail ⟨_, event_step (by simp) rfl, trivial⟩
  have h₄ : ReflTransGen (StepWhere Orderly) (handleIn ended 2 (.ready ()))
      (loadIn (handleIn ended 2 (.ready ())) 3) := load_run (g := 1) (e := 2) () rfl rfl rfl rfl rfl
  exact ⟨_, h₃.trans (plain_run h₄), ⟨rfl, rfl⟩, rfl⟩

end Scenario

end AciGateway.Desktop.SessionManager
