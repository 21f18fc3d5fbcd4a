import AciGateway.Desktop.Proxy
import AciGateway.Lib.Runs

/-! The revocation barrier of the local proxy: once a call that revokes a request has returned,
the request is neither handed to the service nor answered. -/
namespace AciGateway.Desktop

open Relation Phase State Function

section Barrier

variable {Service Catalog : Type} {offers : Catalog → String → Surface → Option Bool}
  {sh sh' : Shared Service Catalog} {s t : State Service Catalog} {p p' : Phase Service}
  {action : Action Service} {l : Label Service Catalog} {r c : Nat} {kind : Kind} {d : Nat}
  {cp : CallPhase Service Catalog} {D D' affected : Nat → Prop}

/-! What a step of a request can change. -/

section RequestSteps

theorem epoch_of_authorize {tokens : TokenSet} {epoch : Nat} {incoming : Incoming} {auth : Auth}
    (h : authorize tokens epoch incoming = .ok auth) : auth.epoch = epoch := by
  unfold authorize at h
  split at h
  · cases h
  · split at h
    · cases h
    · split at h
      · cases h
        rfl
      · cases h

theorem epoch?_step (h : RequestStep offers sh p action p') {e : Nat} (he : p'.epoch? = some e) :
    p.epoch? = some e ∨ e = sh.credentialEpoch := by
  cases h
  case authorize incoming epoch auth h =>
    have := epoch_of_authorize h
    simp_all [epoch?]
  all_goals simp_all [epoch?]

/-- A request keeps the epoch it has loaded. -/
theorem epoch?_kept (h : RequestStep offers sh p action p') (hp : p.epoch?.isSome) :
    p' = .done ∨ p'.epoch? = p.epoch? := by
  cases h
  case authorize incoming epoch auth h =>
    have := epoch_of_authorize h
    simp_all [epoch?]
  all_goals simp_all [epoch?]

theorem lease?_kept (h : RequestStep offers sh p action p') (hp : p.lease?.isSome) :
    p' = .done ∨ p'.lease? = p.lease? := by
  cases h <;> simp_all [lease?]

theorem delivery?_step (h : RequestStep offers sh p action p') (hd : p'.delivery? = some d) :
    p.delivery? = some d ∨ d = sh.gate := by
  cases h <;> simp_all [delivery?]

theorem delivery?_of_past (h : RequestStep offers sh p action p') (hp : p.past kind)
    (hd : p'.delivery? = some d) : p.delivery? = some d := by
  cases h <;> simp_all [delivery?, past]

theorem past_kept (h : RequestStep offers sh p action p') (hp : p.past kind) :
    p' = .done ∨ p'.past kind := by
  cases h <;> simp_all [past]

/-- The lease is checked against the session. -/
theorem past_lease_step (h : RequestStep offers sh p action p') (hp : p'.past .lease) :
    p.past .lease ∨ ∃ lease, p.lease? = some lease ∧ leaseValid sh.session lease = true := by
  cases h <;> simp_all [past, lease?]

/-- The credentials are checked by their epoch. -/
theorem past_credentials_step (h : RequestStep offers sh p action p') (hp : p'.past .credentials) :
    p.past .credentials ∨ p.epoch? = some sh.credentialEpoch := by
  cases h <;> simp_all [past, epoch?]

theorem midPoll_step (h : RequestStep offers sh p action p') (hp : p'.midPoll)
    (hd : p'.delivery? = some d) : sh.cancelled d = false := by
  cases h <;> simp_all [midPoll, delivery?]

theorem done_step (h : RequestStep offers sh .done action p') : p' = .done := by
  cases h
  rfl

/-- Whatever leaves the proxy leaves it in the middle of a poll. -/
theorem midPoll_of_action (kind : Kind) (h : RequestStep offers sh p action p')
    (ha : action ≠ .silent) : p.midPoll ∧ p.past kind ∧ ∃ d, p.delivery? = some d := by
  cases h <;> simp_all [midPoll, past, delivery?]

end RequestSteps

/-! The invariant. -/

/-- Authority of a kind that the request no longer has, and will not have again. -/
def Doomed (kind : Kind) (sup : Prop) (sh : Shared Service Catalog) (p : Phase Service) : Prop :=
  match kind with
  | .lease => sup
  | .credentials => p = .done ∨ ∃ e, p.epoch? = some e ∧ e < sh.credentialEpoch

/-- A doomed request that got past the check of its authority did so with a delivery token
of which `D` holds. -/
def Barred (kind : Kind) (D : Nat → Prop) (sup : Prop) (sh : Shared Service Catalog)
    (p : Phase Service) : Prop :=
  Doomed kind sup sh p ∧ (p.past kind → ∀ d, p.delivery? = some d → D d)

structure RequestInv (sup rev : Prop) (sh : Shared Service Catalog) (p : Phase Service) :
    Prop where
  epoch_le : ∀ e, p.epoch? = some e → e ≤ sh.credentialEpoch
  delivery_le : ∀ d, p.delivery? = some d → d ≤ sh.gate
  midPoll : p.midPoll → ∀ d, p.delivery? = some d → sh.cancelled d = false
  leased : sup → p = .done ∨ p.lease?.isSome
  superseded : sup → ∀ lease, p.lease? = some lease → p.past .lease = false →
    leaseValid sh.session lease = false
  revoked : rev → ∃ kind, Barred kind (fun d => sh.cancelled d = true) sup sh p

/-- What a call in progress has already done to a request it revokes. -/
def CallInv (sup : Prop) (sh : Shared Service Catalog) (p : Phase Service) (r : Nat) :
    CallPhase Service Catalog → Prop
  | .written .lease affected => affected r → sup
  | .written .credentials affected => affected r → p = .done ∨ p.epoch?.isSome
  | .bumped affected => affected r → Doomed .credentials sup sh p
  | .replaced kind affected _ => affected r → Barred kind (fun d => d < sh.gate) sup sh p
  | .cancelled kind affected => affected r → Barred kind (fun d => sh.cancelled d = true) sup sh p
  | _ => True

/-- Tokens out of force are cancelled, or one call is about to cancel them. -/
structure GateInv (sh : Shared Service Catalog) (calls : Nat → CallPhase Service Catalog) :
    Prop where
  cancelled_lt : ∀ d, sh.cancelled d = true → d < sh.gate
  pending : ∀ d < sh.gate, sh.cancelled d = true ∨ ∃ c k a, calls c = .replaced k a d
  single : ∀ {c c' k k' a a' d d'}, calls c = .replaced k a d → calls c' = .replaced k' a' d' →
    c = c'
  old_lt : ∀ {c k a d}, calls c = .replaced k a d → d < sh.gate

structure Inv (s : State Service Catalog) : Prop where
  gate : GateInv s.shared s.calls
  request : ∀ r, RequestInv (s.superseded r) (s.revoked r) s.shared (s.requests r)
  call : ∀ r c, CallInv (s.superseded r) s.shared (s.requests r) r (s.calls c)

theorem inv_initial (session : Session Service Catalog) (tokens : TokenSet)
    (apiKey : Option String) : Inv (initial session tokens apiKey) where
  gate := ⟨by simp [initial], by simp [initial], by simp [initial], by simp [initial]⟩
  request r := by
    constructor <;> simp [initial, epoch?, delivery?, midPoll]
  call r c := trivial

section Preserved

variable {sup sup' rev : Prop}

/-! A step of the request itself. -/

theorem doomed_step (h : RequestStep offers sh p action p') (hd : Doomed kind sup sh p) :
    Doomed kind sup sh p' := by
  cases kind with
  | lease => exact hd
  | credentials =>
    obtain rfl | ⟨e, he, hlt⟩ := hd
    · exact Or.inl (done_step h)
    · obtain hp | hp := epoch?_kept h (by simp [he])
      · exact Or.inl hp
      · exact Or.inr ⟨e, hp.trans he, hlt⟩

/-- A doomed request does not get past the check. -/
theorem past_of_doomed (h : RequestStep offers sh p action p') (hi : RequestInv sup rev sh p)
    (hd : Doomed kind sup sh p) (hp : p'.past kind) : p.past kind := by
  cases kind with
  | lease =>
    obtain hp | ⟨lease, hl, hv⟩ := past_lease_step h hp
    · exact hp
    · by_contra hn
      simp [hi.superseded hd lease hl (by simpa using hn)] at hv
  | credentials =>
    obtain hp | he := past_credentials_step h hp
    · exact hp
    · obtain rfl | ⟨e, he', hlt⟩ := hd
      · simp [epoch?] at he
      · rw [he'] at he
        cases he
        exact absurd hlt (Nat.lt_irrefl _)

theorem barred_step (h : RequestStep offers sh p action p') (hi : RequestInv sup rev sh p)
    (hb : Barred kind D sup sh p) : Barred kind D sup sh p' := by
  refine ⟨doomed_step h hb.1, ?_⟩
  intro hp d hd
  have hpast := past_of_doomed h hi hb.1 hp
  exact hb.2 hpast d (delivery?_of_past h hpast hd)

theorem requestInv_step (h : RequestStep offers sh p action p') (hi : RequestInv sup rev sh p) :
    RequestInv sup rev sh p' where
  epoch_le e he := by
    obtain hp | rfl := epoch?_step h he
    · exact hi.epoch_le e hp
    · exact Nat.le_refl _
  delivery_le d hd := by
    obtain hp | rfl := delivery?_step h hd
    · exact hi.delivery_le d hp
    · exact Nat.le_refl _
  midPoll hp d hd := midPoll_step h hp hd
  leased hs := by
    obtain rfl | hp := hi.leased hs
    · exact Or.inl (done_step h)
    · refine (lease?_kept h hp).imp_right ?_
      intro he
      rwa [he]
  superseded hs lease hl hn := by
    obtain rfl | hp := hi.leased hs
    · rw [done_step h] at hl
      cases hl
    · obtain rfl | he := lease?_kept h hp
      · cases hl
      · refine hi.superseded hs lease (he ▸ hl) ?_
        by_contra hpast
        obtain rfl | hp' := past_kept h (by simpa using hpast)
        · cases hl
        · simp [hn] at hp'
  revoked hr := by
    obtain ⟨kind, hb⟩ := hi.revoked hr
    exact ⟨kind, barred_step h hi hb⟩

theorem callInv_step (h : RequestStep offers sh p action p') (hi : RequestInv sup rev sh p)
    (hc : CallInv sup sh p r cp) : CallInv sup sh p' r cp := by
  match cp with
  | .written .lease affected => exact hc
  | .written .credentials affected =>
    intro ha
    obtain rfl | hp := hc ha
    · exact Or.inl (done_step h)
    · refine (epoch?_kept h hp).imp_right ?_
      intro he
      rwa [he]
  | .bumped affected => exact fun ha => doomed_step h (hc ha)
  | .replaced kind affected old => exact fun ha => barred_step h hi (hc ha)
  | .cancelled kind affected => exact fun ha => barred_step h hi (hc ha)
  | .idle => trivial
  | .invoked call => trivial
  | .returned => trivial

/-! A step of a call: the shared state moves on, and the requests stay. -/

/-- Epochs and gates only grow, and what is cancelled stays so. -/
structure Later (sh sh' : Shared Service Catalog) : Prop where
  epoch_le : sh.credentialEpoch ≤ sh'.credentialEpoch
  gate_le : sh.gate ≤ sh'.gate
  cancelled : ∀ d, sh.cancelled d = true → sh'.cancelled d = true

theorem Later.refl (sh : Shared Service Catalog) : Later sh sh :=
  ⟨Nat.le_refl _, Nat.le_refl _, fun _ hd => hd⟩

theorem doomed_later (h : Later sh sh') (hs : sup → sup') (hd : Doomed kind sup sh p) :
    Doomed kind sup' sh' p := by
  cases kind with
  | lease => exact hs hd
  | credentials =>
    refine Or.imp_right ?_ hd
    rintro ⟨e, he, hlt⟩
    exact ⟨e, he, Nat.lt_of_lt_of_le hlt h.epoch_le⟩

theorem barred_later (h : Later sh sh') (hs : sup → sup') (hD : ∀ d, D d → D' d)
    (hb : Barred kind D sup sh p) : Barred kind D' sup' sh' p :=
  ⟨doomed_later h hs hb.1, fun hp d hd => hD d (hb.2 hp d hd)⟩

theorem callInv_later (h : Later sh sh') (hs : sup → sup') (hc : CallInv sup sh p r cp) :
    CallInv sup' sh' p r cp := by
  match cp with
  | .written .lease affected => exact fun ha => hs (hc ha)
  | .written .credentials affected => exact hc
  | .bumped affected => exact fun ha => doomed_later h hs (hc ha)
  | .replaced kind affected old =>
    exact fun ha => barred_later h hs (fun d hd => Nat.lt_of_lt_of_le hd h.gate_le) (hc ha)
  | .cancelled kind affected => exact fun ha => barred_later h hs h.cancelled (hc ha)
  | .idle => trivial
  | .invoked call => trivial
  | .returned => trivial

theorem requestInv_later (h : Later sh sh') (hi : RequestInv sup rev sh p) (hs : sup → sup')
    (hpoll : p.midPoll → ∀ d, p.delivery? = some d → sh'.cancelled d = false)
    (hleased : sup' → p = .done ∨ p.lease?.isSome)
    (hsuper : sup' → ∀ lease, p.lease? = some lease → p.past .lease = false →
      leaseValid sh'.session lease = false) : RequestInv sup' rev sh' p where
  epoch_le e he := Nat.le_trans (hi.epoch_le e he) h.epoch_le
  delivery_le d hd := Nat.le_trans (hi.delivery_le d hd) h.gate_le
  midPoll := hpoll
  leased := hleased
  superseded := hsuper
  revoked hr := by
    obtain ⟨kind, hb⟩ := hi.revoked hr
    exact ⟨kind, barred_later h hs h.cancelled hb⟩

end Preserved

/-- A step that leaves session, gate and cancellations alone keeps the invariant of requests. -/
theorem requestInv_frame {sup rev : Prop} (h : Later sh sh') (hi : RequestInv sup rev sh p)
    (hsession : sh'.session = sh.session) (hcancelled : sh'.cancelled = sh.cancelled) :
    RequestInv sup rev sh' p :=
  requestInv_later h hi id (hcancelled ▸ hi.midPoll) hi.leased (hsession ▸ hi.superseded)

/-- A call that has no token to cancel, before its step and after it. -/
theorem gateInv_frame {calls : Nat → CallPhase Service Catalog} (hg : GateInv sh calls)
    (hold : ∀ k a d, calls c ≠ .replaced k a d) (hnew : ∀ k a d, cp ≠ .replaced k a d)
    (hgate : sh'.gate = sh.gate) (hcancelled : sh'.cancelled = sh.cancelled) :
    GateInv sh' (update calls c cp) := by
  have hsame : ∀ {c' k a d}, update calls c cp c' = .replaced k a d →
      calls c' = .replaced k a d := by
    intro c' k a d h
    by_cases hc : c' = c
    · subst hc
      simp [hnew] at h
    · rwa [update_of_ne hc] at h
  refine ⟨?_, ?_, fun h h' => hg.single (hsame h) (hsame h'), fun h => hgate ▸ hg.old_lt (hsame h)⟩
  · rw [hgate, hcancelled]
    exact hg.cancelled_lt
  · rw [hgate, hcancelled]
    intro d hd
    refine (hg.pending d hd).imp_right ?_
    rintro ⟨c', k, a, hc'⟩
    have hne : c' ≠ c := by
      rintro rfl
      exact hold k a d hc'
    exact ⟨c', k, a, by rwa [update_of_ne hne]⟩

/-- A call that only rewrites the credentials, or nothing. -/
theorem inv_credentials (hi : Inv s) (hl : Later s.shared sh')
    (hsession : sh'.session = s.shared.session) (hgate : sh'.gate = s.shared.gate)
    (hcancelled : sh'.cancelled = s.shared.cancelled)
    (hold : ∀ k a d, s.calls c ≠ .replaced k a d) (hnew : ∀ k a d, cp ≠ .replaced k a d)
    (hcall : ∀ r, CallInv (s.superseded r) sh' (s.requests r) r cp) :
    Inv ((s.setShared sh').setCall c cp) where
  gate := gateInv_frame hi.gate hold hnew hgate hcancelled
  request r := requestInv_frame hl (hi.request r) hsession hcancelled
  call r := (forall_update_iff _ (fun _ x => CallInv _ _ _ r x)).mpr
    ⟨hcall r, fun c' _ => callInv_later hl id (hi.call r c')⟩

theorem inv_bump (hi : Inv s) (h : s.calls c = .written .credentials affected)
    (hwrap : s.shared.credentialEpoch + 1 < 2 ^ 64) :
    Inv ((s.setShared { s.shared with
      credentialEpoch := (s.shared.credentialEpoch + 1) % 2 ^ 64 }).setCall c
        (.bumped affected)) := by
  rw [Nat.mod_eq_of_lt hwrap]
  have hl : Later s.shared { s.shared with credentialEpoch := s.shared.credentialEpoch + 1 } :=
    ⟨Nat.le_succ _, Nat.le_refl _, fun _ hd => hd⟩
  refine inv_credentials hi hl rfl rfl rfl (by simp [h]) (by simp) ?_
  intro r ha
  have hc := hi.call r c
  rw [h] at hc
  refine (hc ha).imp_right ?_
  intro he
  obtain ⟨e, he⟩ := Option.isSome_iff_exists.mp he
  exact ⟨e, he, Nat.lt_succ_of_le ((hi.request r).epoch_le e he)⟩

/-- The gate is replaced while no other call has a token to cancel. -/
theorem inv_replace (hi : Inv s) (hnone : ∀ c k a d, s.calls c ≠ .replaced k a d)
    (hdoom : ∀ r, affected r → Doomed kind (s.superseded r) s.shared (s.requests r)) :
    Inv ((s.setShared { s.shared with gate := s.shared.gate + 1 }).setCall c
      (.replaced kind affected s.shared.gate)) := by
  have hl : Later s.shared { s.shared with gate := s.shared.gate + 1 } :=
    ⟨Nat.le_refl _, Nat.le_succ _, fun _ hd => hd⟩
  have honly : ∀ {c' k a d}, update s.calls c
      (.replaced kind affected s.shared.gate) c' = .replaced k a d →
        c' = c ∧ d = s.shared.gate := by
    intro c' k a d h
    by_cases hc : c' = c
    · subst hc
      simp only [update_self, CallPhase.replaced.injEq] at h
      exact ⟨rfl, h.2.2.symm⟩
    · rw [update_of_ne hc] at h
      exact absurd h (hnone c' k a d)
  refine ⟨⟨?_, ?_, ?_, ?_⟩, ?_, ?_⟩
  · exact fun d hd => Nat.lt_succ_of_lt (hi.gate.cancelled_lt d hd)
  · intro d hd
    obtain hlt | rfl := Nat.lt_succ_iff_lt_or_eq.mp hd
    · refine (hi.gate.pending d hlt).imp_right ?_
      rintro ⟨c', k, a, hc'⟩
      exact absurd hc' (hnone c' k a d)
    · exact Or.inr ⟨c, kind, affected, update_self ..⟩
  · exact fun h h' => (honly h).1.trans (honly h').1.symm
  · intro c' k a d h
    rw [(honly h).2]
    exact Nat.lt_succ_self _
  · exact fun r => requestInv_frame hl (hi.request r) rfl rfl
  · intro r
    refine (forall_update_iff _ (fun _ x => CallInv _ _ _ r x)).mpr ⟨?_, ?_⟩
    · intro ha
      refine ⟨doomed_later hl id (hdoom r ha), ?_⟩
      exact fun _ d hd => Nat.lt_succ_of_le ((hi.request r).delivery_le d hd)
    · exact fun c' _ => callInv_later hl id (hi.call r c')

/-- A token is cancelled while no request is between its look at it and what follows. -/
theorem inv_cancel {old : Nat} (hi : Inv s) (h : s.calls c = .replaced kind affected old)
    (hpoll : ∀ r, (s.requests r).delivery? = some old → (s.requests r).midPoll = false) :
    Inv ((s.setShared (s.shared.cancel old)).setCall c (.cancelled kind affected)) := by
  have hl : Later s.shared (s.shared.cancel old) :=
    ⟨Nat.le_refl _, Nat.le_refl _, fun d hd => by simp [Shared.cancel, hd]⟩
  have hall : ∀ d < s.shared.gate, (s.shared.cancel old).cancelled d = true := by
    intro d hd
    simp only [Shared.cancel, Bool.or_eq_true, decide_eq_true_eq]
    refine (hi.gate.pending d hd).imp_right ?_
    rintro ⟨c', k, a, hc'⟩
    obtain rfl := hi.gate.single h hc'
    rw [h] at hc'
    exact (CallPhase.replaced.inj hc').2.2.symm
  have hnot : ∀ {c' k a d}, update s.calls c (.cancelled kind affected) c' ≠ .replaced k a d := by
    intro c' k a d h'
    by_cases hc : c' = c
    · subst hc
      simp at h'
    · rw [update_of_ne hc] at h'
      exact hc (hi.gate.single h' h)
  refine ⟨⟨?_, ?_, fun h => absurd h hnot, fun h => absurd h hnot⟩, ?_, ?_⟩
  · intro d hd
    obtain hd | hd := Bool.or_eq_true_iff.mp hd
    · exact hi.gate.cancelled_lt d hd
    · obtain rfl := of_decide_eq_true hd
      exact hi.gate.old_lt h
  · exact fun d hd => Or.inl (hall d hd)
  · intro r
    refine requestInv_later hl (hi.request r) id ?_ (hi.request r).leased (hi.request r).superseded
    intro hp d hd
    have hne : d ≠ old := by
      rintro rfl
      exact Bool.false_ne_true ((hpoll r hd).symm.trans hp)
    have hopen := (hi.request r).midPoll hp d hd
    change (s.shared.cancelled d || decide (d = old)) = false
    simp [hopen, hne]
  · intro r
    refine (forall_update_iff _ (fun _ x => CallInv _ _ _ r x)).mpr ⟨?_, ?_⟩
    · intro ha
      have hc := hi.call r c
      rw [h] at hc
      exact barred_later hl id hall (hc ha)
    · exact fun c' _ => callInv_later hl id (hi.call r c')

/-- A published session does not revalidate the leases it, or an earlier one, has overtaken. -/
theorem inv_publish {session : Session Service Catalog} (locked : Bool)
    (super : Nat → Prop) (hi : Inv s) (h : s.calls c = .invoked (.publish session))
    (hmono : ∀ r, s.superseded r → super r)
    (hleased : ∀ r, super r → s.requests r = .done ∨ (s.requests r).lease?.isSome)
    (hvalid : ∀ r lease, super r → (s.requests r).lease? = some lease →
      (s.requests r).past .lease = false → leaseValid session lease = false)
    (hnew : ∀ k a d, cp ≠ .replaced k a d)
    (hcall : ∀ r, CallInv (super r) { s.shared with session, locked } (s.requests r) r cp) :
    Inv ({ s.setShared { s.shared with session, locked } with
      superseded := super }.setCall c cp) := by
  have hl : Later s.shared { s.shared with session, locked } :=
    ⟨Nat.le_refl _, Nat.le_refl _, fun _ hd => hd⟩
  refine ⟨gateInv_frame hi.gate (by simp [h]) hnew rfl rfl, ?_, ?_⟩
  · intro r
    exact requestInv_later hl (hi.request r) (hmono r) (hi.request r).midPoll (hleased r)
      (fun hs lease => hvalid r lease hs)
  · intro r
    exact (forall_update_iff _ (fun _ x => CallInv _ _ _ r x)).mpr
      ⟨hcall r, fun c' _ => callInv_later hl (hmono r) (hi.call r c')⟩

theorem inv_returned {locked : Bool} (hi : Inv s) (h : s.calls c = .cancelled kind affected) :
    Inv ({ s.setShared { s.shared with locked } with
      revoked := fun r => s.revoked r ∨ affected r }.setCall c .returned) := by
  have hl : Later s.shared { s.shared with locked } :=
    ⟨Nat.le_refl _, Nat.le_refl _, fun _ hd => hd⟩
  refine ⟨gateInv_frame hi.gate (by simp [h]) (by simp) rfl rfl, ?_, ?_⟩
  · intro r
    have hframe := requestInv_frame hl (hi.request r) rfl rfl
    refine { hframe with revoked := ?_ }
    rintro (hr | ha)
    · exact hframe.revoked hr
    · have hc := hi.call r c
      rw [h] at hc
      exact ⟨kind, barred_later hl id (fun _ hd => hd) (hc ha)⟩
  · intro r
    exact (forall_update_iff _ (fun _ x => CallInv _ _ _ r x)).mpr
      ⟨trivial, fun c' _ => callInv_later hl id (hi.call r c')⟩

theorem isSome_epoch? (h : p.auth?.isSome) : p.epoch?.isSome := by
  cases p <;> simp_all [auth?, epoch?]

theorem inv_request (hi : Inv s) (h : RequestStep offers s.shared (s.requests r) action p) :
    Inv (s.setRequest r p) where
  gate := hi.gate
  request := (forall_update_iff _ (fun r x => RequestInv _ _ _ x)).mpr
    ⟨requestInv_step h (hi.request r), fun r' _ => hi.request r'⟩
  call r' c := by
    by_cases hr : r' = r
    · subst hr
      have := callInv_step h (hi.request r') (hi.call r' c)
      simpa [setRequest] using this
    · simpa [setRequest, update_of_ne hr] using hi.call r' c

theorem inv_step (h : Step offers s l t) (ho : Orderly s l) (hi : Inv s) : Inv t := by
  cases h with
  | request r action p h => exact inv_request hi h
  | invoke c call h =>
    exact inv_credentials hi (.refl _) rfl rfl rfl (by simp [h]) (by simp) (fun _ => trivial)
  | writeKey c key h =>
    refine inv_credentials hi ⟨Nat.le_refl _, Nat.le_refl _, fun _ hd => hd⟩ rfl rfl rfl
      (by simp [h]) (by simp) ?_
    exact fun r ha => Or.inr (isSome_epoch? ha.1)
  | sameTokens c h =>
    exact inv_credentials hi (.refl _) rfl rfl rfl (by simp [h]) (by simp) (fun _ => trivial)
  | writeTokens c tokens h hne =>
    refine inv_credentials hi ⟨Nat.le_refl _, Nat.le_refl _, fun _ hd => hd⟩ rfl rfl rfl
      (by simp [h]) (by simp) ?_
    rintro r ⟨auth, ha, -⟩
    exact Or.inr (isSome_epoch? (by simp [ha]))
  | bump c affected h => exact inv_bump hi h ho
  | publishSame c session h hlock hr =>
    refine inv_publish s.shared.locked s.superseded hi h (fun _ hs => hs)
      (fun r => (hi.request r).leased) ?_ (by simp) (fun _ => trivial)
    exact fun r lease hs hle hp => ho r lease hle hp (Or.inl hs)
  | publish c session h hlock hr =>
    refine inv_publish true _ hi h (fun _ hs => Or.inl hs) ?_ ?_ (by simp) (fun r ha => Or.inr ha)
    · rintro r (hs | ha)
      · exact (hi.request r).leased hs
      · exact Or.inr ha
    · exact fun r lease _ hle hp => ho r lease hle hp (Or.inr hr)
  | replaceLease c affected h =>
    refine inv_replace hi ho ?_
    intro r ha
    have hc := hi.call r c
    rw [h] at hc
    exact hc ha
  | replaceCredentials c affected h =>
    refine inv_replace hi ho ?_
    intro r ha
    have hc := hi.call r c
    rw [h] at hc
    exact hc ha
  | cancel c kind affected old h => exact inv_cancel hi h ho
  | returned c kind affected h => exact inv_returned hi h

/-- The steps that meet the condition. -/
def OrderlyStep (offers : Catalog → String → Surface → Option Bool)
    (s t : State Service Catalog) : Prop :=
  ∃ l, Step offers s l t ∧ Orderly s l

/-- In a run of orderly steps, nothing of a revoked request leaves the proxy. -/
theorem revoked_delivers_nothing {session : Session Service Catalog} {tokens : TokenSet}
    {apiKey : Option String}
    (hrun : ReflTransGen (OrderlyStep offers) (State.initial session tokens apiKey) s)
    (hr : s.revoked r) (hstep : Step offers s (.request r action) t) : action = .silent := by
  have hi : Inv s := Runs.invariant (fun ⟨_, h, ho⟩ hi => inv_step h ho hi) hrun
    (inv_initial session tokens apiKey)
  cases hstep with
  | request _ _ p h =>
    by_contra hne
    obtain ⟨kind, -, hbarred⟩ := (hi.request r).revoked hr
    obtain ⟨hpoll, hpast, d, hd⟩ := midPoll_of_action kind h hne
    have hopen := (hi.request r).midPoll hpoll d hd
    exact Bool.false_ne_true (hopen.symm.trans (hbarred hpast d hd))

end Barrier

/-! One request, and the calls beside it. -/
namespace Lone

def tokens : TokenSet := ⟨[("t", "codex")], by simp⟩

def session (id : String) : Session Unit Unit := ⟨1, 1, some id, some (), true, some ()⟩

def incoming : Incoming := ⟨some "t", "/v1/responses", .responses⟩

def auth : Auth := ⟨"codex", "t", 1⟩

def lease : Lease Unit := ⟨1, 1, "a", ()⟩

def grant (delivery : Nat) : Grant Unit := ⟨auth, lease, delivery⟩

def offers : Unit → String → Surface → Option Bool := fun _ _ _ => some true

def shared : Shared Unit Unit := ⟨session "a", false, tokens, some "k", 1, 0, fun _ => false⟩

def start : State Unit Unit := State.initial (session "a") tokens (some "k")

/-- Any step, orderly or not. -/
def AnyStep (s t : State Unit Unit) : Prop := ∃ l, Step offers s l t

variable {sh : Shared Unit Unit} {p p' : Phase Unit} {action : Action Unit}
  {calls : Nat → CallPhase Unit Unit} {sup rev : Nat → Prop} {s t : State Unit Unit}

/-- The state with the request `0` in phase `p`, and no other. -/
def alone (sh : Shared Unit Unit) (p : Phase Unit) (calls : Nat → CallPhase Unit Unit)
    (sup rev : Nat → Prop) : State Unit Unit :=
  ⟨sh, Function.update (fun _ => .idle) 0 p, calls, sup, rev⟩

theorem request (h : RequestStep offers sh p action p') :
    Step offers (alone sh p calls sup rev) (.request 0 action) (alone sh p' calls sup rev) := by
  have hs := Step.request (alone sh p calls sup rev) 0 action p' (by simpa [alone] using h)
  simpa [alone, setRequest] using hs

theorem silent (h : RequestStep offers sh p .silent p')
    (hs : ReflTransGen (OrderlyStep offers) s (alone sh p calls sup rev)) :
    ReflTransGen (OrderlyStep offers) s (alone sh p' calls sup rev) :=
  hs.tail ⟨_, request h, trivial⟩

theorem run_any (h : ReflTransGen (OrderlyStep offers) s t) : ReflTransGen AnyStep s t :=
  h.lift id (fun _ _ ⟨l, hl, _⟩ => ⟨l, hl⟩)

/-- The request is admitted and has its body to read. -/
theorem admitted : ReflTransGen (OrderlyStep offers) start
    (alone shared (.reading incoming auth lease) (fun _ => .idle) (fun _ => False)
      (fun _ => False)) := by
  have hinit : start = alone shared .idle (fun _ => .idle) (fun _ => False) (fun _ => False) := by
    simp [start, initial, alone, shared]
  rw [hinit]
  apply silent (.matchKey incoming auth lease "k" rfl)
  apply silent (.matchEpoch incoming auth lease rfl)
  apply silent (.lease incoming auth lease rfl rfl)
  apply silent (.authorize incoming 1 auth rfl)
  apply silent (.loadEpoch incoming)
  exact silent (.arrive incoming) .refl

/-- From the body to the send, where the lease, the epoch and the key are as they were. -/
theorem ready (hlock : sh.locked = false) (hsession : leaseValid sh.session lease = true)
    (hepoch : sh.credentialEpoch = 1) (htokens : sh.tokens = tokens) (hkey : sh.apiKey = some "k")
    (hopen : sh.cancelled sh.gate = false) :
    ReflTransGen (OrderlyStep offers) (alone sh (.reading incoming auth lease) calls sup rev)
      (alone sh (.sending (grant sh.gate) "k" false) calls sup rev) := by
  have hcatalog : checkCatalog offers sh.session (some "m") incoming.surface = .ok () := by
    simp only [leaseValid, Bool.and_eq_true] at hsession
    obtain ⟨c, hc⟩ := Option.isSome_iff_exists.mp hsession.2
    simp [checkCatalog, hc, offers]
  have hcurrent : currentKey sh.tokens sh.apiKey auth = .ok "k" := by
    rw [htokens, hkey]
    rfl
  apply silent (.send (grant sh.gate) "k" hopen)
  apply silent (.takeKey (grant sh.gate) "k" hcurrent)
  apply silent (.checkEpoch (grant sh.gate) hepoch)
  apply silent (.checkLease (grant sh.gate) hlock hsession)
  apply silent (.takeGate auth lease)
  exact silent (.read incoming auth lease (some "m") hlock hcatalog) .refl

theorem revoked_delivers_nothing_key : ∃ s : State Unit Unit,
    ReflTransGen (OrderlyStep offers) start s ∧ s.revoked 0 ∧
    (s.requests 0).lease? = some lease ∧ s.calls 0 = .returned ∧
    ∀ action t, Step offers s (.request 0 action) t → action = .silent := by
  have h1 := admitted.tail ⟨_, Step.invoke _ 0 (.setApiKey none) rfl, trivial⟩
  have h2 := h1.tail ⟨_, Step.writeKey _ 0 none rfl, trivial⟩
  have h3 := h2.tail ⟨_, Step.bump _ 0 _ rfl, (by decide : 1 + 1 < 2 ^ 64)⟩
  have h4 := h3.tail ⟨_, Step.replaceCredentials _ 0 _ rfl, ?_⟩
  · have h5 := h4.tail ⟨_, Step.cancel _ 0 .credentials _ 0 rfl, ?_⟩
    · have h6 := h5.tail ⟨_, Step.returned _ 0 .credentials _ rfl, trivial⟩
      have hr : keyAffected ((alone shared (.reading incoming auth lease) (fun _ => .idle)
          (fun _ => False) (fun _ => False)).setCall 0 (.invoked (.setApiKey none))) none 0 :=
        ⟨rfl, by simp [alone, shared, setCall]⟩
      exact ⟨_, h6, Or.inr hr, rfl, rfl, fun action t h =>
        revoked_delivers_nothing h6 (Or.inr hr) h⟩
    · intro r hd
      by_cases h0 : r = 0
      · subst h0
        cases hd
      · simp [alone, setCall, setShared, update_of_ne h0, midPoll]
  · intro c k a d h
    by_cases h0 : c = 0
    · subst h0
      cases h
    · simp [alone, setCall, setShared, update_of_ne h0] at h

/-- A publication that changes the session id alone revokes, but the lease is not checked
against the id: a request that is still reading its body is handed over under the old one. -/
theorem handed_after_publish : ∃ s t : State Unit Unit, ReflTransGen AnyStep start s ∧
    s.shared.session = session "b" ∧ s.calls 0 = .returned ∧ s.revoked 0 ∧
    (s.requests 0).lease? = some lease ∧ lease.sessionId = "a" ∧
    Step offers s (.request 0 (.handed () "k")) t := by
  have h1 := (run_any admitted).tail ⟨_, Step.invoke _ 0 (.publish (session "b")) rfl⟩
  have h2 := h1.tail ⟨_, Step.publish _ 0 (session "b") rfl rfl rfl⟩
  have h3 := h2.tail ⟨_, Step.replaceLease _ 0 _ rfl⟩
  have h4 := h3.tail ⟨_, Step.cancel _ 0 .lease _ 0 rfl⟩
  have h5 := h4.tail ⟨_, Step.returned _ 0 .lease _ rfl⟩
  have h6 := h5.trans (run_any (ready rfl rfl rfl rfl rfl rfl))
  have h7 := h6.tail ⟨_, request (.pollSend (grant 1) "k" rfl)⟩
  exact ⟨_, _, h7, rfl, rfl, Or.inr rfl, rfl, rfl, request (.hand (grant 1) "k")⟩

end Lone

end AciGateway.Desktop
