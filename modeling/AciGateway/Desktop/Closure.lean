import AciGateway.Desktop.SessionManager

/-! What a step of the session manager keeps: generations that a stop, a failure or a loss of
verification has closed, and the kind of run that each generation is. -/
namespace AciGateway.Desktop.SessionManager

open RuntimeState World Function

variable {Service Catalog : Type} {r r' : RuntimeState Service} {w : World Service Catalog}
  {s t : State Service Catalog} {p p' : Phase Service Catalog} {l : Label Service Catalog}
  {sinks : Nat → Bool} {c g : Nat} {verificationOnly : Bool} {session : Session Service Catalog}
  {catalog : Catalog} {purpose : Purpose} {P : Nat → Prop} (active : Except String (Option String))

/-! Histories by generation. -/

theorem update_true {a x : Nat} : update P a True x ↔ x = a ∨ P x := by
  by_cases h : x = a <;> simp [h]

theorem update_false {a x : Nat} : update P a False x ↔ x ≠ a ∧ P x := by
  by_cases h : x = a <;> simp [h]

/-! What each transition of the record can change. -/

section Transitions

/-- The record as far as the session depends on it. -/
structure Alike (r r' : RuntimeState Service) : Prop where
  generation : r'.generation = r.generation
  service : r'.service = r.service
  identityReady : r'.identityReady = r.identityReady
  verificationOnly : r'.verificationOnly = r.verificationOnly
  status : r'.state.status = r.state.status

theorem Alike.refl (r : RuntimeState Service) : Alike r r := ⟨rfl, rfl, rfl, rfl, rfl⟩

theorem alike_update (r : RuntimeState Service) (u : Update) :
    Alike r (r.setState (r.state.update u)) := by
  cases u <;> exact ⟨rfl, rfl, rfl, rfl, rfl⟩

theorem alike_attach (r : RuntimeState Service) (g : Nat) : Alike r (r.attach g) := by
  unfold attach
  split
  · exact .refl r
  · split
    · exact .refl r
    · exact ⟨rfl, rfl, rfl, rfl, rfl⟩

theorem alike_quiet (h : QuietStep w p r sinks p') : Alike w.runtime r := by
  cases h
  case attach => exact alike_attach _ _
  all_goals exact ⟨rfl, rfl, rfl, rfl, rfl⟩

/-- Only a bump, a failure or a termination leaves a session to be published. -/
theorem published_quiet (h : QuietStep w p r sinks p') (session : Session Service Catalog)
    (purpose : Purpose) : p ≠ .unpublished session purpose ∧ p' ≠ .unpublished session purpose := by
  cases h <;> simp

/-- A record in which a new generation waits for its verifier, or has none. -/
structure Fresh (r r' : RuntimeState Service) : Prop where
  generation : r'.generation = (r.generation + 1) % 2 ^ 64
  service : r'.service = none
  identityReady : r'.identityReady = false
  status : r'.state.status ≠ .verified

theorem fresh_start {fresh : String} (h : r.start verificationOnly fresh = .ok r') :
    Fresh r r' ∧ r'.verificationOnly = verificationOnly := by
  unfold start at h
  split at h
  · cases h
  · split at h
    · cases h
    · cases h
      exact ⟨⟨rfl, rfl, rfl, by simp⟩, rfl⟩

theorem fresh_stop (r : RuntimeState Service) (reconnecting : Bool) :
    Fresh r (r.stop reconnecting) :=
  ⟨rfl, rfl, rfl, by simp [stop, AppState.carried]⟩

theorem Fresh.generation_eq (h : Fresh r r') (hw : r.generation + 1 < 2 ^ 64) :
    r'.generation = r.generation + 1 := by
  rw [h.generation, Nat.mod_eq_of_lt hw]

@[simp] theorem status_loseVerification (r : RuntimeState Service) :
    r.loseVerification.state.status ≠ .verified := by
  simp only [loseVerification]
  split <;> simp

@[simp] theorem status_report (r : RuntimeState Service) (message : String) :
    (r.report message).state.status = r.state.status := rfl

/-- A record whose verifier has ended. -/
structure Over (r r' : RuntimeState Service) : Prop where
  generation : r'.generation = r.generation
  service : r'.service = none
  identityReady : r'.identityReady = false
  verificationOnly : r'.verificationOnly = false
  status : r'.state.status ≠ .verified

theorem over_endVerifier (h : r'.generation = r.generation) : Over r r'.endVerifier :=
  ⟨h, rfl, rfl, rfl, status_loseVerification _⟩

theorem over_terminated (r : RuntimeState Service) (error : Option String) :
    Over r (r.terminated error) := by
  unfold terminated
  split <;> exact over_endVerifier rfl

theorem over_fail (r : RuntimeState Service) (message : String) : Over r (r.fail message) :=
  over_endVerifier rfl

section Events

variable (r) (e : VerifierEvent Service)

@[simp] theorem generation_handleEvent : (r.handleEvent e).generation = r.generation := by
  cases e <;> simp only [handleEvent] <;> (try split) <;> rfl

@[simp] theorem verificationOnly_handleEvent :
    (r.handleEvent e).verificationOnly = r.verificationOnly := by
  cases e <;> simp only [handleEvent] <;> (try split) <;> rfl

/-- Only `Ready` brings a service. -/
theorem service_handleEvent (h : ∀ service, e ≠ .ready service) :
    (r.handleEvent e).service = r.service := by
  cases e
  case ready service => exact absurd rfl (h service)
  all_goals
    simp only [handleEvent]
    try split
    all_goals rfl

/-- A verified status outlives no event but a renewal. -/
theorem status_handleEvent (h : ∀ error, e ≠ .terminated error)
    (hv : (r.handleEvent e).state.status = .verified) :
    e = .identityRenewed ∧ r.state.status = .verified := by
  cases e with
  | ready service => simp [handleEvent, identify] at hv
  | identityUpdated => simp [handleEvent, identify] at hv
  | identityRenewed =>
    refine ⟨rfl, ?_⟩
    by_contra hn
    simp [handleEvent, hn, identify] at hv
  | blocked code reason =>
    simp only [handleEvent] at hv
    split at hv <;> simp at hv
  | fatal error transcript => exact absurd hv (status_loseVerification _)
  | terminated error => exact absurd rfl (h error)

theorem identityReady_blocked (code : Option String) (reason : String) :
    (r.handleEvent (.blocked code reason)).identityReady = false := by
  simp only [handleEvent]
  split <;> rfl

end Events

theorem expects_iff {e : Nat} :
    r.expects g e = true ↔ r.generation = g ∧ r.epoch = e ∧ r.identityReady = true := by
  simp [expects, and_assoc]

end Transitions

/-! Closed generations. -/

section Closure

/-- The proxy holds a verified session of the generation. -/
def World.Opens (w : World Service Catalog) (g : Nat) : Prop :=
  w.proxy.verified = true ∧ w.proxy.generation = g

/-- An event leaves a session open only when it renews a verified identity. -/
theorem opens_handle {e : VerifierEvent Service} (he : ∀ error, e ≠ .terminated error)
    (ho : (w.handle e).Opens g) :
    w.Opens g ∧ e = .identityRenewed ∧ w.runtime.state.status = .verified := by
  simp only [handle, Opens] at ho
  split at ho
  case isTrue hv => exact ⟨ho, status_handleEvent _ _ he hv⟩
  case isFalse => simp [closedSession] at ho

/-- A load opens the manager's generation only. -/
theorem opens_settle (ho : (w.settle catalog).Opens g) :
    w.Opens g ∨ w.runtime.generation = g ∧ w.runtime.verificationOnly = false := by
  simp only [settle, Opens] at ho
  split at ho
  case isTrue => exact Or.inl ho
  case isFalse hv => exact Or.inr ⟨ho.2, by simpa using hv⟩

structure Closed (w : World Service Catalog) : Prop where
  opens_le : ∀ g, w.Opens g → g ≤ w.runtime.generation
  stopped : ∀ g, w.stopped g → g < w.runtime.generation ∧ ¬w.Opens g
  ended : ∀ g, w.ended g → g ≤ w.runtime.generation ∧
    (g = w.runtime.generation → w.runtime.service = none)
  failed : ∀ g, w.failed g → w.ended g ∧ ¬w.Opens g
  lost : ∀ g, w.lost g → g ≤ w.runtime.generation ∧
    (g = w.runtime.generation → w.runtime.identityReady = false) ∧ ¬w.Opens g

/-- A session that waits to be published is not verified, and a stop has left its generation
behind. -/
def Revokes (generation : Nat) : Phase Service Catalog → Prop
  | .unpublished session purpose => session.verified = false ∧
    ∀ g, purpose = .stop g → g < generation
  | _ => True

theorem closed_initial : Closed (State.initial active : State Service Catalog).world := by
  constructor <;> simp [State.initial, Opens, unverified]

theorem closed_alike (h : Alike w.runtime r) (hc : Closed w) :
    Closed { w with runtime := r, sinks } := by
  obtain ⟨hle, hst, hen, hfa, hlo⟩ := hc
  constructor <;> simp only [h.generation, h.service, h.identityReady]
  · exact hle
  · exact hst
  · exact hen
  · exact hfa
  · exact hlo

/-- Behind a new generation nothing can be reopened. -/
theorem closed_fresh {runs : Nat → Option Bool} (hf : Fresh w.runtime r)
    (hw : w.runtime.generation + 1 < 2 ^ 64) (hc : Closed w) :
    Closed { w with runtime := r, runs } := by
  have hg := hf.generation_eq hw
  refine ⟨?_, ?_, ?_, hc.failed, ?_⟩ <;> simp only [hg]
  · exact fun g ho => Nat.le_succ_of_le (hc.opens_le g ho)
  · exact fun g hs => ⟨Nat.lt_succ_of_lt (hc.stopped g hs).1, (hc.stopped g hs).2⟩
  · exact fun g he => ⟨Nat.le_succ_of_le (hc.ended g he).1, fun _ => hf.service⟩
  · exact fun g hl =>
      ⟨Nat.le_succ_of_le (hc.lost g hl).1, fun _ => hf.identityReady, (hc.lost g hl).2.2⟩

theorem closed_finish (ho : Over w.runtime r) (hc : Closed w) : Closed (w.finish r) where
  opens_le := ho.generation ▸ hc.opens_le
  stopped := ho.generation ▸ hc.stopped
  ended g hg := by
    refine ⟨?_, fun _ => ho.service⟩
    obtain rfl | hg := update_true.mp hg
    · exact Nat.le_refl _
    · exact ho.generation ▸ (hc.ended g hg).1
  failed g hg := ⟨update_true.mpr (Or.inr (hc.failed g hg).1), (hc.failed g hg).2⟩
  lost g hg :=
    ⟨ho.generation ▸ (hc.lost g hg).1, fun _ => ho.identityReady, (hc.lost g hg).2.2⟩

/-- A load has a service and an identity, which a closed generation has not. -/
theorem closed_settle (hi : w.runtime.identityReady = true)
    (hs : w.runtime.service.isSome) (hc : Closed w) : Closed (w.settle catalog) := by
  have hended : ¬w.ended w.runtime.generation := by
    intro he
    simp [(hc.ended _ he).2 rfl] at hs
  refine ⟨?_, ?_, hc.ended, ?_, ?_⟩
  · intro g ho
    obtain ho | ⟨rfl, -⟩ := opens_settle ho
    · exact hc.opens_le g ho
    · exact Nat.le_refl _
  · intro g hg
    refine ⟨(hc.stopped g hg).1, fun ho => ?_⟩
    obtain ho | ⟨rfl, -⟩ := opens_settle ho
    · exact (hc.stopped g hg).2 ho
    · exact absurd (hc.stopped _ hg).1 (Nat.lt_irrefl _)
  · intro g hg
    refine ⟨(hc.failed g hg).1, fun ho => ?_⟩
    obtain ho | ⟨rfl, -⟩ := opens_settle ho
    · exact (hc.failed g hg).2 ho
    · exact hended (hc.failed _ hg).1
  · intro g hg
    refine ⟨(hc.lost g hg).1, (hc.lost g hg).2.1, fun ho => ?_⟩
    obtain ho | ⟨rfl, -⟩ := opens_settle ho
    · exact (hc.lost g hg).2.2 ho
    · simp [(hc.lost _ hg).2.1 rfl] at hi

/-- What loses the identity is lost, and what reports it is not. -/
theorem closed_handle {e : VerifierEvent Service} (he : ∀ error, e ≠ .terminated error)
    (hc : Closed w) : Closed (w.handle e) := by
  have hopen := fun g => opens_handle (w := w) (g := g) he
  have hgen : (w.handle e).runtime.generation = w.runtime.generation :=
    generation_handleEvent _ _
  refine ⟨?_, ?_, ?_, ?_, ?_⟩
  · exact fun g ho => hgen ▸ hc.opens_le g (hopen g ho).1
  · exact fun g hg =>
      ⟨hgen ▸ (hc.stopped g hg).1, fun ho => (hc.stopped g hg).2 (hopen g ho).1⟩
  · intro g hg
    cases e with
    | ready service =>
      obtain ⟨hne, hg⟩ := update_false.mp hg
      exact ⟨hgen ▸ (hc.ended g hg).1, fun h => absurd (h.trans hgen) hne⟩
    | _ =>
      refine ⟨hgen ▸ (hc.ended g hg).1, fun h => ?_⟩
      exact (service_handleEvent _ _ (by simp)).trans ((hc.ended g hg).2 (h.trans hgen))
  · intro g hg
    cases e with
    | ready service =>
      obtain ⟨hne, hg⟩ := update_false.mp hg
      exact ⟨update_false.mpr ⟨hne, (hc.failed g hg).1⟩,
        fun ho => (hc.failed g hg).2 (hopen g ho).1⟩
    | _ => exact ⟨(hc.failed g hg).1, fun ho => (hc.failed g hg).2 (hopen g ho).1⟩
  · intro g hg
    cases e with
    | ready service | identityUpdated | identityRenewed =>
      obtain ⟨hne, hg⟩ := update_false.mp hg
      exact ⟨hgen ▸ (hc.lost g hg).1, fun h => absurd (h.trans hgen) hne,
        fun ho => (hc.lost g hg).2.2 (hopen g ho).1⟩
    | blocked code reason =>
      refine ⟨?_, fun _ => identityReady_blocked _ code reason, fun ho => ?_⟩
      · obtain rfl | hg := update_true.mp hg
        · exact Nat.le_of_eq hgen.symm
        · exact hgen ▸ (hc.lost g hg).1
      · simpa using (hopen g ho).2.1
    | fatal error transcript =>
      refine ⟨?_, fun _ => rfl, fun ho => ?_⟩
      · obtain rfl | hg := update_true.mp hg
        · exact Nat.le_of_eq hgen.symm
        · exact hgen ▸ (hc.lost g hg).1
      · simpa using (hopen g ho).2.1
    | terminated error => exact absurd rfl (he error)

theorem closed_publish
    (hp : Revokes w.runtime.generation (.unpublished session purpose)) (hc : Closed w) :
    Closed (w.publish session purpose) := by
  have hopen : ∀ g, ¬(w.publish session purpose).Opens g := by
    intro g ho
    simp [publish, Opens, hp.1] at ho
  refine ⟨fun g ho => absurd ho (hopen g), ?_, hc.ended, ?_, ?_⟩
  · intro g hg
    refine ⟨?_, hopen g⟩
    cases purpose with
    | stop g' =>
      obtain rfl | hg := update_true.mp hg
      · exact hp.2 g rfl
      · exact (hc.stopped g hg).1
    | start => exact (hc.stopped g hg).1
    | fail g' => exact (hc.stopped g hg).1
  · intro g hg
    refine ⟨?_, hopen g⟩
    cases purpose with
    | fail g' =>
      by_cases he : g = g'
      · subst he
        simpa [publish] using hg
      · simp only [publish, update_of_ne he] at hg
        exact (hc.failed g hg).1
    | start => exact (hc.failed g hg).1
    | stop g' => exact (hc.failed g hg).1
  · exact fun g hg => ⟨(hc.lost g hg).1, (hc.lost g hg).2.1, hopen g⟩

theorem revokes_of_ne (n : Nat) (h : ∀ session purpose, p ≠ .unpublished session purpose) :
    Revokes n p := by
  cases p with
  | unpublished session purpose => exact absurd rfl (h session purpose)
  | _ => trivial

theorem revokes_mono {m n : Nat} (h : m ≤ n) (hp : Revokes m p) : Revokes n p := by
  cases p with
  | unpublished session purpose =>
    exact ⟨hp.1, fun g hg => Nat.lt_of_lt_of_le (hp.2 g hg) h⟩
  | _ => trivial

structure ClosedState (s : State Service Catalog) : Prop where
  world : Closed s.world
  calls : ∀ c, Revokes s.world.runtime.generation (s.calls c)

theorem closedState_set (hs : ClosedState s) (hc : Closed w)
    (hle : s.world.runtime.generation ≤ w.runtime.generation)
    (hp : Revokes w.runtime.generation p) : ClosedState (s.set c w p) where
  world := hc
  calls := (forall_update_iff _ _).mpr ⟨hp, fun c' _ => revokes_mono hle (hs.calls c')⟩

theorem closedState_step (h : Step s l t) (hw : NoWrap s l) (hs : ClosedState s) :
    ClosedState t := by
  cases h with
  | update u => exact ⟨closed_alike (alike_update _ u) hs.world, hs.calls⟩
  | quiet c r sinks p h =>
    have ha := alike_quiet h
    exact closedState_set hs (closed_alike ha hs.world) (Nat.le_of_eq ha.generation.symm)
      (revokes_of_ne _ fun session purpose => (published_quiet h session purpose).2)
  | start c verificationOnly fresh r h hr =>
    have hf := (fresh_start hr).1
    have hle := Nat.le_of_lt (Nat.lt_of_lt_of_eq (Nat.lt_succ_self _) (hf.generation_eq hw).symm)
    exact closedState_set hs (closed_fresh hf hw hs.world) hle ⟨rfl, by simp⟩
  | stop c reconnecting h =>
    have hf := fresh_stop s.world.runtime reconnecting
    have hlt := Nat.lt_of_lt_of_eq (Nat.lt_succ_self _) (hf.generation_eq hw).symm
    refine closedState_set hs (closed_fresh hf hw hs.world) (Nat.le_of_lt hlt) ⟨rfl, ?_⟩
    rintro g hg
    cases hg
    exact hlt
  | event c event h hne =>
    refine closedState_set hs (closed_handle hne hs.world)
      (Nat.le_of_eq (generation_handleEvent _ _).symm) (revokes_of_ne _ ?_)
    split <;> simp
  | terminated c error h =>
    have ho := over_terminated s.world.runtime error
    exact closedState_set hs (closed_finish ho hs.world) (Nat.le_of_eq ho.generation.symm)
      ⟨rfl, by simp⟩
  | fail c status message h hst =>
    have ho := over_fail s.world.runtime message
    exact closedState_set hs (closed_finish ho hs.world) (Nat.le_of_eq ho.generation.symm)
      ⟨rfl, by simp⟩
  | settle c g e catalog h he hsv =>
    exact closedState_set hs (closed_settle (expects_iff.mp he).2.2 hsv hs.world) (Nat.le_refl _)
      trivial
  | publish c session purpose h =>
    have hp := hs.calls c
    rw [h] at hp
    refine closedState_set hs (closed_publish hp hs.world) (Nat.le_refl _) (revokes_of_ne _ ?_)
    cases purpose <;> simp [Purpose.next]

end Closure

/-! Runs and what they may open. -/

section Kinds

/-- The record, the proxy and the history agree on what kind of run a generation is. -/
structure Ran (w : World Service Catalog) : Prop where
  runs_le : ∀ g, w.runs g ≠ none → g ≤ w.runtime.generation
  sinks : ∀ g, w.sinks g = true → w.runs g ≠ none
  identified : w.runtime.identityReady = true → w.runs w.runtime.generation ≠ none
  verified : w.runtime.state.status = .verified →
    w.runtime.identityReady = true ∧ w.runtime.service.isSome
  settings : w.runs w.runtime.generation = some true →
    (w.runtime.verificationOnly = true ∧ ¬w.ended w.runtime.generation) ∨
      (w.ended w.runtime.generation ∧ w.runtime.service = none)
  protection : w.runs w.runtime.generation = some false → w.runtime.verificationOnly = false
  opens : ∀ g, w.Opens g → w.runs g = some false ∧ w.loaded g

/-- A call made for a run is made for one that was started. -/
def Started (runs : Nat → Option Bool) : Phase Service Catalog → Prop
  | .invoked (.event g _) => runs g ≠ none
  | .unpublished session .start => runs session.generation ≠ none
  | .launching g => runs g ≠ none
  | _ => True

theorem ran_initial : Ran (State.initial active : State Service Catalog).world := by
  constructor <;> simp [State.initial, Opens, unverified, new]
  split <;> simp

theorem ran_alike (h : Alike w.runtime r) (hs : ∀ g, sinks g = true → w.runs g ≠ none)
    (hr : Ran w) : Ran { w with runtime := r, sinks } := by
  obtain ⟨hle, -, hid, hve, hse, hpr, hop⟩ := hr
  constructor <;> simp only [h.generation, h.service, h.identityReady, h.verificationOnly, h.status]
  · exact hle
  · exact hs
  · exact hid
  · exact hve
  · exact hse
  · exact hpr
  · exact hop

theorem ran_begin (hf : Fresh w.runtime r)
    (hv : r.verificationOnly = verificationOnly) (hw : w.runtime.generation + 1 < 2 ^ 64)
    (hc : Closed w) (hr : Ran w) : Ran (w.begin verificationOnly r) := by
  have hg := hf.generation_eq hw
  have hold : ∀ g ≤ w.runtime.generation, (w.begin verificationOnly r).runs g = w.runs g := by
    intro g hle
    exact update_of_ne (by omega) _ _
  have hnew : (w.begin verificationOnly r).runs r.generation = some verificationOnly :=
    update_self _ _ _
  refine ⟨?_, ?_, ?_, ?_, ?_, ?_, ?_⟩
  · intro g hrun
    by_cases he : g = r.generation
    · exact Nat.le_of_eq he
    · simp only [begin, update_of_ne he] at hrun
      exact Nat.le_trans (hr.runs_le g hrun) (hg ▸ Nat.le_succ _)
  · intro g hs
    have hrun := hr.sinks g hs
    rwa [hold g (hr.runs_le g hrun)]
  · exact fun h => absurd h (by simp [begin, hf.identityReady])
  · exact fun h => absurd h hf.status
  · intro h
    refine Or.inl ⟨?_, fun he => ?_⟩
    · exact hv.trans (Option.some.inj (hnew.symm.trans h))
    · have := (hc.ended _ he).1
      simp only [begin, hg] at this
      omega
  · exact fun h => hv.trans (Option.some.inj (hnew.symm.trans h))
  · intro g ho
    rw [hold g (hc.opens_le g ho)]
    exact hr.opens g ho

/-- The generation of a stop is no run. -/
theorem ran_stop (hf : Fresh w.runtime r) (hw : w.runtime.generation + 1 < 2 ^ 64)
    (hr : Ran w) : Ran { w with runtime := r } := by
  have hg := hf.generation_eq hw
  have hnone : w.runs r.generation = none := by
    by_contra hrun
    have := hr.runs_le _ hrun
    omega
  refine ⟨?_, hr.sinks, ?_, ?_, ?_, ?_, hr.opens⟩
  · exact fun g hrun => Nat.le_trans (hr.runs_le g hrun) (hg ▸ Nat.le_succ _)
  · exact fun h => absurd h (by simp [hf.identityReady])
  · exact fun h => absurd h hf.status
  · simp [hnone]
  · simp [hnone]

theorem ran_finish (ho : Over w.runtime r) (hr : Ran w) : Ran (w.finish r) where
  runs_le := ho.generation ▸ hr.runs_le
  sinks := hr.sinks
  identified h := absurd h (by simp [finish, ho.identityReady])
  verified h := absurd h ho.status
  settings _ := Or.inr ⟨update_true.mpr (Or.inl rfl), ho.service⟩
  protection _ := ho.verificationOnly
  opens := hr.opens

theorem ran_settle (hi : w.runtime.identityReady = true)
    (hs : w.runtime.service.isSome) (hr : Ran w) : Ran (w.settle catalog) where
  runs_le := hr.runs_le
  sinks := hr.sinks
  identified := hr.identified
  verified _ := ⟨hi, hs⟩
  settings := hr.settings
  protection := hr.protection
  opens g ho := by
    obtain ho | ⟨rfl, hv⟩ := opens_settle ho
    · exact ⟨(hr.opens g ho).1, update_true.mpr (Or.inr (hr.opens g ho).2)⟩
    · refine ⟨?_, update_true.mpr (Or.inl rfl)⟩
      cases hrun : w.runs w.runtime.generation with
      | none => exact absurd hrun (hr.identified hi)
      | some verificationOnly =>
        cases verificationOnly with
        | false => exact hrun
        | true =>
          obtain ⟨hv', -⟩ | ⟨-, hn⟩ := hr.settings hrun
          · simp [hv] at hv'
          · simp [hn] at hs

theorem ran_handle {e : VerifierEvent Service} (he : ∀ error, e ≠ .terminated error)
    (hrun : w.runs w.runtime.generation ≠ none)
    (hrev : ∀ service, e = .ready service → w.ended w.runtime.generation →
      w.runs w.runtime.generation ≠ some true) (hr : Ran w) : Ran (w.handle e) := by
  have hgen : (w.handle e).runtime.generation = w.runtime.generation :=
    generation_handleEvent _ _
  have hvo : (w.handle e).runtime.verificationOnly = w.runtime.verificationOnly :=
    verificationOnly_handleEvent _ _
  refine ⟨hgen ▸ hr.runs_le, hr.sinks, fun _ => hgen ▸ hrun, ?_, ?_, ?_, ?_⟩
  · intro hv
    obtain ⟨rfl, hv'⟩ := status_handleEvent _ _ he hv
    simp only [handle, handleEvent, if_pos hv']
    exact ⟨rfl, (hr.verified hv').2⟩
  · rw [hgen, hvo]
    intro ht
    obtain ⟨hv, hn⟩ | ⟨hend, hn⟩ := hr.settings ht
    · refine Or.inl ⟨hv, fun hend => hn ?_⟩
      cases e with
      | ready service => exact (update_false.mp hend).2
      | _ => exact hend
    · cases e with
      | ready service => exact absurd ht (hrev service rfl hend)
      | _ => exact Or.inr ⟨hend, (service_handleEvent _ _ (by simp)).trans hn⟩
  · rw [hgen, hvo]
    exact hr.protection
  · exact fun g ho => hr.opens g (opens_handle he ho).1

theorem ran_publish
    (hp : session.verified = false) (hr : Ran w) : Ran (w.publish session purpose) where
  runs_le := hr.runs_le
  sinks := hr.sinks
  identified := hr.identified
  verified := hr.verified
  settings := hr.settings
  protection := hr.protection
  opens g ho := by simp [publish, Opens, hp] at ho

theorem started_quiet (h : QuietStep w p r sinks p') (hr : Ran w) (hp : Started w.runs p) :
    Started w.runs p' := by
  cases h with
  | invoke call h =>
    cases call with
    | event g e => exact hr.sinks g (h g e rfl)
    | _ => trivial
  | _ => trivial

theorem sinks_quiet (h : QuietStep w p r sinks p') (hr : Ran w) (hp : Started w.runs p) :
    ∀ g, sinks g = true → w.runs g ≠ none := by
  cases h with
  | spawn g =>
    intro g' hs
    by_cases he : g' = g
    · exact he ▸ hp
    · rw [update_of_ne he] at hs
      exact hr.sinks g' hs
  | _ => exact hr.sinks

structure RanState (s : State Service Catalog) : Prop where
  world : Ran s.world
  calls : ∀ c, Started s.world.runs (s.calls c)

theorem ranState_set (hs : RanState s) (hr : Ran w) (hruns : w.runs = s.world.runs)
    (hp : Started s.world.runs p) : RanState (s.set c w p) where
  world := hr
  calls := hruns ▸ (forall_update_iff _ _).mpr ⟨hp, fun c' _ => hs.calls c'⟩

theorem started_begin (hp : Started w.runs p) : Started (w.begin verificationOnly r).runs p := by
  have hruns : ∀ g, w.runs g ≠ none → (w.begin verificationOnly r).runs g ≠ none := by
    intro g hg
    by_cases he : g = r.generation
    · simp [begin, he]
    · simpa [begin, update_of_ne he] using hg
  cases p with
  | invoked call =>
    cases call with
    | event g e => exact hruns g hp
    | _ => trivial
  | unpublished session purpose =>
    cases purpose with
    | start => exact hruns _ hp
    | _ => trivial
  | launching g => exact hruns g hp
  | _ => trivial

theorem ranState_step (h : Step s l t) (hw : NoWrap s l) (hv : NoRevival s l)
    (hc : ClosedState s) (hs : RanState s) : RanState t := by
  cases h with
  | update u => exact ⟨ran_alike (alike_update _ u) hs.world.sinks hs.world, hs.calls⟩
  | quiet c r sinks p h =>
    exact ranState_set hs (ran_alike (alike_quiet h) (sinks_quiet h hs.world (hs.calls c)) hs.world)
      rfl (started_quiet h hs.world (hs.calls c))
  | start c verificationOnly fresh r h hr =>
    obtain ⟨hf, hvo⟩ := fresh_start hr
    refine ⟨ran_begin hf hvo hw hc.world hs.world,
      (forall_update_iff _ _).mpr ⟨?_, fun c' _ => started_begin (hs.calls c')⟩⟩
    simp [Started, State.set, begin, unverified]
  | stop c reconnecting h =>
    exact ranState_set hs (ran_stop (fresh_stop _ reconnecting) hw hs.world) rfl trivial
  | event c event h hne =>
    have hrun := hs.calls c
    rw [h] at hrun
    refine ranState_set hs (ran_handle hne hrun ?_ hs.world) rfl ?_
    · rintro service rfl
      exact hv
    · split <;> trivial
  | terminated c error h =>
    exact ranState_set hs (ran_finish (over_terminated _ error) hs.world) rfl trivial
  | fail c status message h hst =>
    exact ranState_set hs (ran_finish (over_fail _ message) hs.world) rfl trivial
  | settle c g e catalog h he hsv =>
    exact ranState_set hs (ran_settle (expects_iff.mp he).2.2 hsv hs.world) rfl trivial
  | publish c session purpose h =>
    have hp := hc.calls c
    have hrun := hs.calls c
    rw [h] at hp hrun
    refine ranState_set hs (ran_publish hp.1 hs.world) rfl ?_
    cases purpose with
    | start => exact hrun
    | stop g => trivial
    | fail g => trivial

end Kinds

end AciGateway.Desktop.SessionManager
