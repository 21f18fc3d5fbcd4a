import AciGateway.Client.Connection

/-! Which identity a request is sent under: the transport that takes it is pinned to the identity
the connection admits at that moment, and the keyset has not expired unless it did so while the
request was prepared. -/
namespace AciGateway.Client

open Connection

variable {κ π : Type}

section Family

variable [DecidableEq κ] [DecidableEq π] {a b c : VerifiedAciIdentity κ π}

theorem sameIdentityFamily_iff : sameIdentityFamily a b = true ↔
    a.keyset.fields = b.keyset.fields ∧ a.composeHash = b.composeHash ∧ a.teeType = b.teeType ∧
      a.sourceProvenance = b.sourceProvenance := by
  simp [sameIdentityFamily, sameKeysetFamily, and_assoc]

theorem sameIdentityFamily_refl (a : VerifiedAciIdentity κ π) : sameIdentityFamily a a = true :=
  sameIdentityFamily_iff.mpr ⟨rfl, rfl, rfl, rfl⟩

theorem sameIdentityFamily_symm (h : sameIdentityFamily a b = true) :
    sameIdentityFamily b a = true := by
  obtain ⟨h₁, h₂, h₃, h₄⟩ := sameIdentityFamily_iff.mp h
  exact sameIdentityFamily_iff.mpr ⟨h₁.symm, h₂.symm, h₃.symm, h₄.symm⟩

theorem sameIdentityFamily_trans (h : sameIdentityFamily a b = true)
    (h' : sameIdentityFamily b c = true) : sameIdentityFamily a c = true := by
  obtain ⟨h₁, h₂, h₃, h₄⟩ := sameIdentityFamily_iff.mp h
  obtain ⟨h₁', h₂', h₃', h₄'⟩ := sameIdentityFamily_iff.mp h'
  exact sameIdentityFamily_iff.mpr ⟨h₁.trans h₁', h₂.trans h₂', h₃.trans h₃', h₄.trans h₄'⟩

end Family

namespace Connection

/-! What the small updates change. -/

@[simp] theorem closeTransport_closed (s : Connection κ π) (t t' : Nat) :
    ((s.closeTransport t).transports t').closed = false ↔
      t' ≠ t ∧ (s.transports t').closed = false := by
  by_cases h : t' = t <;> simp [closeTransport, h]

@[simp] theorem closeTransport_spkiPins (s : Connection κ π) (t t' : Nat) :
    ((s.closeTransport t).transports t').spkiPins = (s.transports t').spkiPins := by
  by_cases h : t' = t <;> simp [closeTransport, h]

theorem setFetch_fetches (s : Connection κ π) (f g : Nat) (phase : FetchPhase κ π) :
    (s.setFetch f phase).fetches g = if g = f then phase else s.fetches g := by
  simp [setFetch, Function.update_apply]

variable [DecidableEq κ] [DecidableEq π] {pinsFor : κ → List String} {s s' : Connection κ π}
  {i : VerifiedAciIdentity κ π} {candidate r : Nat} {phase : FetchPhase κ π} {es : List (Event κ π)}
  {e : Event κ π}

/-- The request was taken by the installed transport, pinned to the identity the connection
admitted at that moment, and was prepared under that identity's family. -/
def Pinned (pinsFor : κ → List String) (h : Handed κ π) : Prop :=
  h.installed = some h.transport ∧ ∃ i, h.currentIdentity = some i ∧
    h.spkiPins = pinsFor i.keyset.fields ∧ sameIdentityFamily h.prepared i = true ∧
    ∀ m ∈ h.members, sameIdentityFamily m.2 i = true

/-- What holds of the transports, the identities and the fetches between any two events. -/
structure Inv (pinsFor : κ → List String) (s : Connection κ π) : Prop where
  unused : ∀ t, (s.transports t).closed = false → t < s.nextTransport
  opened : ∀ t, (s.transports t).closed = false →
    s.transport = some t ∨ ∃ r i, s.refreshing = some (r, .probing i t)
  candidate : ∀ r i t, s.refreshing = some (r, .probing i t) →
    t < s.nextTransport ∧ s.transport ≠ some t ∧
      (s.transports t).spkiPins = pinsFor i.keyset.fields
  installed : ∀ t, s.transport = some t → t < s.nextTransport ∧
    ∃ i, s.currentIdentity = some i ∧ (s.transports t).spkiPins = pinsFor i.keyset.fields
  family : ∀ m ∈ s.members,
    ∃ i, s.currentIdentity = some i ∧ sameIdentityFamily m.2 i = true
  prepared : ∀ f t i, s.fetches f = .preparing t i → t < s.nextTransport ∧
    (∀ r i', s.refreshing ≠ some (r, .probing i' t)) ∧
    (s.transport = some t → ∃ cur, s.currentIdentity = some cur ∧ sameIdentityFamily i cur = true)
  handed : ∀ h ∈ s.handed, Pinned pinsFor h

theorem inv_initial : Inv pinsFor ({} : Connection κ π) := by
  refine ⟨?_, ?_, ?_, ?_, ?_, ?_, ?_⟩ <;> simp

/-- A change of a fetch's phase alone, to no preparation. -/
theorem Inv.setFetch (h : Inv pinsFor s) (f : Nat)
    (hp : ∀ t i, phase ≠ .preparing t i) : Inv pinsFor (s.setFetch f phase) := by
  refine ⟨h.unused, h.opened, h.candidate, h.installed, h.family, ?_, h.handed⟩
  intro g t i hg
  rw [setFetch_fetches] at hg
  split at hg
  · exact absurd hg (hp t i)
  · exact h.prepared g t i hg

theorem Inv.capture (h : Inv pinsFor s) (f : Nat) : Inv pinsFor (s.capture f) := by
  unfold Connection.capture
  split
  · next t i ht hi =>
    refine ⟨h.unused, h.opened, h.candidate, h.installed, h.family, ?_, h.handed⟩
    intro g t' i' hg
    rw [setFetch_fetches] at hg
    split at hg
    · cases hg
      refine ⟨(h.installed t ht).1, ?_, fun _ => ⟨i, hi, sameIdentityFamily_refl i⟩⟩
      exact fun r i' hr => (h.candidate r i' t hr).2.1 ht
    · exact h.prepared g t' i' hg
  · exact h.setFetch f (by simp)

theorem Inv.dispatch (h : Inv pinsFor s) {f t : Nat}
    (hf : s.fetches f = .preparing t i) : Inv pinsFor (s.dispatch f t i) := by
  unfold Connection.dispatch
  split
  · exact h.setFetch f (by simp)
  · next hopen =>
    have hset : Inv pinsFor (s.setFetch f .handed) := h.setFetch f (by simp)
    refine ⟨hset.unused, hset.opened, hset.candidate, hset.installed, hset.family, hset.prepared,
      ?_⟩
    obtain ⟨-, hnot, hcur⟩ := h.prepared f t i hf
    have hinst : s.transport = some t := by
      rcases h.opened t (by simpa using hopen) with ht | ⟨r, i', hr⟩
      · exact ht
      · exact absurd hr (hnot r i')
    obtain ⟨cur, hc, hfam⟩ := hcur hinst
    obtain ⟨-, cur', hc', hpins⟩ := h.installed t hinst
    rw [hc] at hc'
    cases hc'
    intro g hg
    rcases List.mem_cons.mp hg with rfl | hg
    · refine ⟨hinst, cur, hc, hpins, hfam, ?_⟩
      intro m hm
      obtain ⟨i', hi', hm'⟩ := h.family m hm
      rw [hc] at hi'
      cases hi'
      exact hm'
    · exact h.handed g hg

theorem Inv.refreshIdentity (h : Inv pinsFor s) : Inv pinsFor s.refreshIdentity.2 := by
  unfold Connection.refreshIdentity
  split
  · exact h
  · next hnone =>
    refine ⟨h.unused, ?_, by simp, h.installed, h.family, ?_, h.handed⟩
    · intro t ht
      rcases h.opened t ht with ht | ⟨r, i, hr⟩
      · exact .inl ht
      · rw [hnone] at hr
        cases hr
    · intro f t i hf
      obtain ⟨hlt, -, hcur⟩ := h.prepared f t i hf
      exact ⟨hlt, by simp, hcur⟩

theorem Inv.startFetch (h : Inv pinsFor s) (f : Nat) : Inv pinsFor (s.startFetch f) := by
  unfold Connection.startFetch
  split
  · exact h.setFetch f (by simp)
  · split
    · exact h.setFetch f (by simp)
    · exact h.refreshIdentity.setFetch f (by simp)

theorem Inv.resumeFetch (h : Inv pinsFor s) (f : Nat) (expired : Bool) (r : RefreshResult) :
    Inv pinsFor (s.resumeFetch f expired r) := by
  unfold Connection.resumeFetch
  split <;> exact h.setFetch f (by simp)

theorem Inv.probe (h : Inv pinsFor s) (hr : s.refreshing = some (r, .providing))
    (i : VerifiedAciIdentity κ π) : Inv pinsFor (s.probe pinsFor r i) := by
  have hother {t : Nat} (ht : t < s.nextTransport) :
      (s.probe pinsFor r i).transports t = s.transports t := by
    simp [Connection.probe, Nat.ne_of_lt ht]
  have hnew : (s.probe pinsFor r i).transports s.nextTransport =
      ⟨pinsFor i.keyset.fields, false⟩ := by simp [Connection.probe]
  have hcases {t : Nat} (ht : ((s.probe pinsFor r i).transports t).closed = false) :
      t = s.nextTransport ∨ (s.transports t).closed = false := by
    by_cases he : t = s.nextTransport
    · exact .inl he
    · simpa [Connection.probe, Function.update_apply, he] using ht
  refine ⟨?_, ?_, ?_, ?_, h.family, ?_, h.handed⟩
  · intro t ht
    rcases hcases ht with rfl | ht
    · exact Nat.lt_succ_self _
    · exact Nat.lt_succ_of_lt (h.unused t ht)
  · intro t ht
    rcases hcases ht with rfl | ht
    · exact .inr ⟨r, i, rfl⟩
    · rcases h.opened t ht with ht | ⟨r', i', hr'⟩
      · exact .inl ht
      · rw [hr] at hr'
        cases hr'
  · intro r' i' t ht
    cases ht
    refine ⟨Nat.lt_succ_self _, ?_, by rw [hnew]⟩
    intro hinst
    exact Nat.lt_irrefl _ (h.installed _ hinst).1
  · intro t ht
    obtain ⟨hlt, j, hj, hpins⟩ := h.installed t ht
    exact ⟨Nat.lt_succ_of_lt hlt, j, hj, by rw [hother hlt, hpins]⟩
  · intro f t j hf
    obtain ⟨hlt, -, hcur⟩ := h.prepared f t j hf
    refine ⟨Nat.lt_succ_of_lt hlt, ?_, hcur⟩
    intro r' i' hr'
    cases hr'
    exact Nat.lt_irrefl _ hlt

/-- A refresh that ends leaves no candidate open. -/
theorem Inv.endRefresh (h : Inv pinsFor s) (r : Nat) (result : RefreshResult)
    (hopen : ∀ r' i t, s.refreshing = some (r', .probing i t) → (s.transports t).closed = true) :
    Inv pinsFor (s.endRefresh r result) := by
  refine ⟨h.unused, ?_, by simp [Connection.endRefresh], h.installed, h.family, ?_, h.handed⟩
  · intro t ht
    rcases h.opened t ht with hinst | ⟨r', i, hr'⟩
    · exact .inl hinst
    · have hclosed := hopen r' i t hr'
      have ht' : (s.transports t).closed = false := ht
      rw [ht'] at hclosed
      cases hclosed
  · intro f t i hf
    obtain ⟨hlt, -, hcur⟩ := h.prepared f t i hf
    exact ⟨hlt, by simp [Connection.endRefresh], hcur⟩

theorem Inv.closeTransport (h : Inv pinsFor s) (t : Nat) : Inv pinsFor (s.closeTransport t) := by
  refine ⟨?_, ?_, ?_, ?_, h.family, h.prepared, h.handed⟩
  · intro t' ht'
    exact h.unused t' ((closeTransport_closed s t t').mp ht').2
  · intro t' ht'
    exact h.opened t' ((closeTransport_closed s t t').mp ht').2
  · intro r i t' hr
    obtain ⟨hlt, hne, hpins⟩ := h.candidate r i t' hr
    exact ⟨hlt, hne, by rw [closeTransport_spkiPins, hpins]⟩
  · intro t' ht'
    obtain ⟨hlt, i, hi, hpins⟩ := h.installed t' ht'
    exact ⟨hlt, i, hi, by rw [closeTransport_spkiPins, hpins]⟩

/-- A candidate that is given up. -/
theorem Inv.giveUp (h : Inv pinsFor s) (hr : s.refreshing = some (r, .probing i candidate)) :
    Inv pinsFor ((s.closeTransport candidate).endRefresh r .failed) := by
  refine (h.closeTransport candidate).endRefresh r .failed ?_
  intro r' i' t ht
  have hsame : s.refreshing = some (r', .probing i' t) := ht
  rw [hr] at hsame
  cases hsame
  simp [Connection.closeTransport]

theorem Inv.finishClose (h : Inv pinsFor s) : Inv pinsFor s.finishClose := by
  unfold Connection.finishClose
  split
  · next t ht =>
    have hc := h.closeTransport t
    refine ⟨hc.unused, ?_, ?_, by simp, h.family, ?_, h.handed⟩
    · intro t' ht'
      obtain ⟨hne, hopen⟩ := (closeTransport_closed s t t').mp ht'
      rcases h.opened t' hopen with hinst | hcand
      · rw [ht] at hinst
        cases hinst
        exact absurd rfl hne
      · exact .inr hcand
    · intro r i t' hr
      obtain ⟨hlt, -, hpins⟩ := hc.candidate r i t' hr
      exact ⟨hlt, by simp, hpins⟩
    · intro f t' i hf
      obtain ⟨hlt, hnot, -⟩ := h.prepared f t' i hf
      exact ⟨hlt, hnot, by simp⟩
  · exact ⟨h.unused, h.opened, h.candidate, h.installed, h.family, h.prepared, h.handed⟩

theorem renewal_iff : s.renewal i = true ↔
    ∃ cur, s.currentIdentity = some cur ∧ sameIdentityFamily i cur = true := by
  simp [renewal, Option.any_eq_true]

/-- The keysets admitted with an identity are of its family. -/
theorem Inv.admitIdentity (h : Inv pinsFor s) (i : VerifiedAciIdentity κ π) :
    ∀ m ∈ s.admitIdentity i, sameIdentityFamily m.2 i = true := by
  intro m hm
  rcases List.mem_cons.mp hm with rfl | hm
  · exact sameIdentityFamily_refl i
  · have hkept := (List.mem_filter.mp hm).1
    split at hkept
    · next hren =>
      obtain ⟨cur, hcur, hi⟩ := renewal_iff.mp hren
      obtain ⟨cur', hcur', hm'⟩ := h.family m (List.mem_filter.mp hkept).1
      rw [hcur] at hcur'
      cases hcur'
      exact sameIdentityFamily_trans hm' (sameIdentityFamily_symm hi)
    · cases hkept

/-- The transport there is, kept for a renewal. -/
theorem Inv.keep (h : Inv pinsFor s)
    (hr : s.refreshing = some (r, .probing i candidate)) (hren : s.renewal i = true)
    (result : RefreshResult) :
    Inv pinsFor (({ s with members := s.admitIdentity i, currentIdentity := some i, pendingDigest := none } :
      Connection κ π).closeTransport candidate |>.endRefresh r result) := by
  obtain ⟨cur, hcur, hfam⟩ := renewal_iff.mp hren
  refine ⟨?_, ?_, by simp [Connection.endRefresh], ?_, ?_, ?_, h.handed⟩
  · intro t ht
    exact h.unused t ((closeTransport_closed _ candidate t).mp ht).2
  · intro t ht
    obtain ⟨hne, hopen⟩ := (closeTransport_closed _ candidate t).mp ht
    rcases h.opened t hopen with hinst | ⟨r', i', hr'⟩
    · exact .inl hinst
    · rw [hr] at hr'
      cases hr'
      exact absurd rfl hne
  · intro t ht
    obtain ⟨hlt, cur', hcur', hpins⟩ := h.installed t ht
    rw [hcur] at hcur'
    cases hcur'
    refine ⟨hlt, i, rfl, ?_⟩
    rw [(sameIdentityFamily_iff.mp hfam).1, ← hpins]
    exact closeTransport_spkiPins _ candidate t
  · exact fun m hm => ⟨i, rfl, h.admitIdentity i m hm⟩
  · intro f t j hf
    obtain ⟨hlt, -, hprep⟩ := h.prepared f t j hf
    refine ⟨hlt, by simp [Connection.endRefresh], ?_⟩
    intro ht
    obtain ⟨cur', hcur', hj⟩ := hprep ht
    rw [hcur] at hcur'
    cases hcur'
    exact ⟨i, rfl, sameIdentityFamily_trans hj (sameIdentityFamily_symm hfam)⟩

/-- The candidate, installed once no other transport is open. -/
theorem Inv.install (h : Inv pinsFor s)
    (hr : s.refreshing = some (r, .probing i candidate)) {transports : Nat → PinnedTransport}
    (hopened : ∀ t, (transports t).closed = false →
      (s.transports t).closed = false ∧ s.transport ≠ some t)
    (hpins : ∀ t, (transports t).spkiPins = (s.transports t).spkiPins) (result : RefreshResult) :
    Inv pinsFor (({ s with
      members := s.admitIdentity i, currentIdentity := some i, pendingDigest := none,
      transports, transport := some candidate } : Connection κ π).endRefresh r result) := by
  obtain ⟨hlt, -, hcand⟩ := h.candidate r i candidate hr
  refine ⟨?_, ?_, by simp [Connection.endRefresh], ?_, ?_, ?_, h.handed⟩
  · exact fun t ht => h.unused t (hopened t ht).1
  · intro t ht
    obtain ⟨hopen, hne⟩ := hopened t ht
    rcases h.opened t hopen with hinst | ⟨r', i', hr'⟩
    · exact absurd hinst hne
    · rw [hr] at hr'
      cases hr'
      exact .inl rfl
  · intro t ht
    cases ht
    exact ⟨hlt, i, rfl, (hpins candidate).trans hcand⟩
  · exact fun m hm => ⟨i, rfl, h.admitIdentity i m hm⟩
  · intro f t j hf
    obtain ⟨hlt', hnot, -⟩ := h.prepared f t j hf
    refine ⟨hlt', by simp [Connection.endRefresh], ?_⟩
    intro ht
    cases ht
    exact absurd hr (hnot r i)

theorem Inv.commit (h : Inv pinsFor s) (hr : s.refreshing = some (r, .probing i candidate)) :
    Inv pinsFor (s.commit r i candidate) := by
  unfold Connection.commit
  split
  · next previous hprev =>
    split
    · next hren => exact h.keep hr hren _
    · refine h.install hr ?_ (closeTransport_spkiPins _ previous) _
      intro t ht
      obtain ⟨hne, hopen⟩ := (closeTransport_closed _ previous t).mp ht
      refine ⟨hopen, ?_⟩
      rw [hprev]
      exact fun he => hne (Option.some.inj he).symm
  · next hprev => exact h.install hr (fun t ht => ⟨ht, by simp [hprev]⟩) (fun t => rfl) _

/-- What an event does, and when it can happen. -/
inductive Moves (pinsFor : κ → List String) (s : Connection κ π) :
    Event κ π → Connection κ π → Prop
  | tick (t : Nat) : Moves pinsFor s (.tick t) { s with now := t }
  | refresh : Moves pinsFor s .refresh s.refreshIdentity.2
  | provided {r : Nat} (hr : s.refreshing = some (r, .providing)) (i : VerifiedAciIdentity κ π) :
    Moves pinsFor s (.provided i) (s.probe pinsFor r i)
  | provideFailed {r : Nat} (hr : s.refreshing = some (r, .providing)) :
    Moves pinsFor s .provideFailed (s.endRefresh r .failed)
  | probed {r candidate : Nat} {i : VerifiedAciIdentity κ π}
    (hr : s.refreshing = some (r, .probing i candidate)) :
    Moves pinsFor s .probed (s.commit r i candidate)
  | givenUp {r candidate : Nat} {i : VerifiedAciIdentity κ π}
    (hr : s.refreshing = some (r, .probing i candidate)) (e : Event κ π) :
    Moves pinsFor s e ((s.closeTransport candidate).endRefresh r .failed)
  | settle {r : Nat} (hr : s.refreshing = some (r, .done)) :
    Moves pinsFor s .settle { s with refreshing := none }
  | close : Moves pinsFor s .close { s with closed := true }.finishClose
  | closing : Moves pinsFor s .close { s with closed := true, closing := true }
  | closeFinished : Moves pinsFor s .closeFinished s.finishClose
  | fetch (f : Nat) : Moves pinsFor s (.fetch f) (s.startFetch f)
  | resumed {f r : Nat} {expired : Bool} {result : RefreshResult}
    (hf : s.fetches f = .waiting r expired) (hres : s.results r = some result) :
    Moves pinsFor s (.resumed f) (s.resumeFetch f expired result)
  | captured {f : Nat} (hf : s.fetches f = .admitted) : Moves pinsFor s (.captured f) (s.capture f)
  | prepareFailed (f : Nat) :
    Moves pinsFor s (.prepareFailed f) (s.setFetch f (.threw .invalidRequest))
  | dispatched {f t : Nat} {i : VerifiedAciIdentity κ π} (hf : s.fetches f = .preparing t i) :
    Moves pinsFor s (.dispatched f) (s.dispatch f t i)
  | observed (digest : String) : Moves pinsFor s (.observed digest) (s.observeDigest digest)

theorem moves_of_step (hs : s.step pinsFor e = some s') : Moves pinsFor s e s' := by
  cases e <;> simp only [step] at hs
  case resumed f =>
    split at hs
    · next r expired hf =>
      split at hs
      · cases hs
      · obtain ⟨result, hres, rfl⟩ := Option.map_eq_some_iff.mp hs
        exact .resumed hf hres
    · cases hs
  all_goals
    repeat' split at hs
    all_goals cases hs <;> constructor <;> assumption

theorem Inv.step (h : Inv pinsFor s) (hs : s.step pinsFor e = some s') : Inv pinsFor s' := by
  cases moves_of_step hs with
  | tick | closing =>
    exact ⟨h.unused, h.opened, h.candidate, h.installed, h.family, h.prepared, h.handed⟩
  | refresh => exact h.refreshIdentity
  | provided hr i => exact h.probe hr i
  | provideFailed hr =>
    refine h.endRefresh _ .failed ?_
    intro r' i t ht
    rw [hr] at ht
    cases ht
  | probed hr => exact h.commit hr
  | givenUp hr => exact h.giveUp hr
  | settle hr =>
    refine ⟨h.unused, ?_, by simp, h.installed, h.family, ?_, h.handed⟩
    · intro t ht
      rcases h.opened t ht with hinst | ⟨r', i, hr'⟩
      · exact .inl hinst
      · rw [hr] at hr'
        cases hr'
    · intro f t i hf
      obtain ⟨hlt, -, hcur⟩ := h.prepared f t i hf
      exact ⟨hlt, by simp, hcur⟩
  | close =>
    have hclosed : Inv pinsFor { s with closed := true } :=
      ⟨h.unused, h.opened, h.candidate, h.installed, h.family, h.prepared, h.handed⟩
    exact hclosed.finishClose
  | closeFinished => exact h.finishClose
  | fetch f => exact h.startFetch f
  | resumed => exact h.resumeFetch _ _ _
  | captured => exact h.capture _
  | prepareFailed f => exact h.setFetch f (by simp)
  | dispatched hf => exact h.dispatch hf
  | observed digest =>
    unfold observeDigest
    split
    · exact h
    · exact ⟨h.unused, h.opened, h.candidate, h.installed, h.family, h.prepared, h.handed⟩

/-! Expiry. -/

/-- The fetch has passed its check of the identity, or will without another. -/
def UnderwayIn (results : Nat → Option RefreshResult) : FetchPhase κ π → Prop
  | .admitted | .preparing .. => True
  | .waiting r _ => results r = some (.ok false)
  | _ => False

def Underway (s : Connection κ π) : Prop := ∃ f, UnderwayIn s.results (s.fetches f)

/-- The event lets no request outlive the admitted keysets: the clock does not pass the last of
them while a fetch is under way, an identity is admitted only with a keyset that has not expired,
and no fetch that finds them all expired joins a refresh that has just ended. -/
def Timely (s : Connection κ π) : Event κ π → Prop
  | .tick t => s.Underway → fresh t s.members = true
  | .probed => ∀ r i t, s.refreshing = some (r, .probing i t) → fresh s.now (s.admitIdentity i) = true
  | .fetch _ => ∀ r, s.refreshing = some (r, .done) → fresh s.now s.members = true
  | _ => True

structure FreshInv (s : Connection κ π) : Prop where
  unused : ∀ r, s.nextRefresh ≤ r → s.results r = none
  running : ∀ r phase, s.refreshing = some (r, phase) → r < s.nextRefresh
  noResult : ∀ r phase, s.refreshing = some (r, phase) → phase = .done ∨ s.results r = none
  underway : s.Underway → fresh s.now s.members = true
  handed : ∀ h ∈ s.handed, fresh h.now h.members = true

omit [DecidableEq κ] [DecidableEq π] in
theorem freshInv_initial : FreshInv ({} : Connection κ π) := by
  refine ⟨by simp, by simp, by simp, ?_, by simp⟩
  rintro ⟨f, hf⟩
  exact hf.elim

omit [DecidableEq κ] [DecidableEq π] in
theorem FreshInv.setFetch (h : FreshInv s) (f : Nat)
    (hp : UnderwayIn s.results phase → fresh s.now s.members = true) :
    FreshInv (s.setFetch f phase) := by
  refine ⟨h.unused, h.running, h.noResult, ?_, h.handed⟩
  rintro ⟨g, hg⟩
  rw [setFetch_fetches] at hg
  split at hg
  · exact hp hg
  · exact h.underway ⟨g, hg⟩

omit [DecidableEq κ] [DecidableEq π] in
theorem FreshInv.refreshIdentity (h : FreshInv s) : FreshInv s.refreshIdentity.2 := by
  unfold Connection.refreshIdentity
  split
  · exact h
  · refine ⟨?_, ?_, ?_, h.underway, h.handed⟩
    · exact fun r hr => h.unused r (Nat.le_of_succ_le hr)
    · intro r phase hr
      cases hr
      exact Nat.lt_succ_self _
    · intro r phase hr
      cases hr
      exact .inr (h.unused _ (Nat.le_refl _))

omit [DecidableEq κ] [DecidableEq π] in
/-- A refresh ends; those who wait for a success are under way then. -/
theorem FreshInv.endRefresh (h : FreshInv s) {phase : RefreshPhase κ π}
    (hr : s.refreshing = some (r, phase)) (result : RefreshResult)
    (hfresh : result = .ok false → fresh s.now s.members = true) :
    FreshInv (s.endRefresh r result) := by
  refine ⟨?_, ?_, ?_, ?_, h.handed⟩
  · intro r' hr'
    have hne : r' ≠ r := Nat.ne_of_gt (Nat.lt_of_lt_of_le (h.running r phase hr) hr')
    simpa [Connection.endRefresh, hne] using h.unused r' hr'
  · intro r' phase' hr'
    cases hr'
    exact h.running r phase hr
  · intro r' phase' hr'
    cases hr'
    exact .inl rfl
  · rintro ⟨f, hf⟩
    change UnderwayIn (Function.update s.results r (some result)) (s.fetches f) at hf
    cases hphase : s.fetches f with
    | waiting r' x =>
      rw [hphase] at hf
      by_cases hne : r' = r
      · subst hne
        exact hfresh (by simpa [UnderwayIn] using hf)
      · exact h.underway ⟨f, by simpa [UnderwayIn, hphase, hne] using hf⟩
    | admitted => exact h.underway ⟨f, by simp [UnderwayIn, hphase]⟩
    | preparing t i => exact h.underway ⟨f, by simp [UnderwayIn, hphase]⟩
    | idle => simp [UnderwayIn, hphase] at hf
    | handed => simp [UnderwayIn, hphase] at hf
    | threw e => simp [UnderwayIn, hphase] at hf

theorem FreshInv.commit (h : FreshInv s) (hr : s.refreshing = some (r, .probing i candidate))
    (hfresh : fresh s.now (s.admitIdentity i) = true) : FreshInv (s.commit r i candidate) := by
  unfold Connection.commit
  -- whichever transport stays, the keysets are the admitted ones
  repeat' split
  all_goals
    apply FreshInv.endRefresh
    · exact ⟨h.unused, h.running, h.noResult, fun _ => hfresh, h.handed⟩
    · exact hr
    · exact fun _ => hfresh

theorem FreshInv.startFetch (h : FreshInv s) (f : Nat) (ht : s.Timely (.fetch f)) :
    FreshInv (s.startFetch f) := by
  unfold Connection.startFetch
  split
  · exact h.setFetch f (by simp [UnderwayIn])
  · split
    · next hadm =>
      refine h.setFetch f fun _ => ?_
      exact (Bool.and_eq_true _ _ ▸ hadm).2
    · refine h.refreshIdentity.setFetch f ?_
      intro hwait
      -- only a refresh that has ended has a result
      unfold Connection.refreshIdentity at hwait ⊢
      split at hwait
      · next r phase hr =>
        rcases h.noResult r phase hr with rfl | hnone
        · exact ht r hr
        · have hres : s.results r = some (.ok false) := hwait
          rw [hnone] at hres
          cases hres
      · have hres : s.results s.nextRefresh = some (.ok false) := hwait
        rw [h.unused _ (Nat.le_refl _)] at hres
        cases hres

omit [DecidableEq κ] [DecidableEq π] in
/-- A change of what neither the refreshes nor the fetches nor the keysets depend on. -/
theorem FreshInv.congr (h : FreshInv s) (hnow : s'.now = s.now) (hmembers : s'.members = s.members)
    (hresults : s'.results = s.results) (hnext : s'.nextRefresh = s.nextRefresh)
    (hfetches : s'.fetches = s.fetches) (hhanded : s'.handed = s.handed)
    (hrefreshing : ∀ r phase, s'.refreshing = some (r, phase) →
      ∃ phase', s.refreshing = some (r, phase') ∧ (phase' = .done → phase = .done)) :
    FreshInv s' := by
  refine ⟨?_, ?_, ?_, ?_, ?_⟩
  · rw [hnext, hresults]
    exact h.unused
  · intro r phase hr
    obtain ⟨phase', hr', -⟩ := hrefreshing r phase hr
    rw [hnext]
    exact h.running r phase' hr'
  · intro r phase hr
    obtain ⟨phase', hr', hdone⟩ := hrefreshing r phase hr
    rw [hresults]
    exact (h.noResult r phase' hr').imp_left hdone
  · rw [Underway, hresults, hfetches, hnow, hmembers]
    exact h.underway
  · rw [hhanded]
    exact h.handed

omit [DecidableEq κ] [DecidableEq π] in
theorem FreshInv.finishClose (h : FreshInv s) : FreshInv s.finishClose := by
  unfold Connection.finishClose
  split <;> exact h.congr rfl rfl rfl rfl rfl rfl fun r phase hr => ⟨phase, hr, id⟩

theorem FreshInv.step (h : FreshInv s) (ht : s.Timely e)
    (hs : s.step pinsFor e = some s') : FreshInv s' := by
  cases moves_of_step hs with
  | tick t => exact ⟨h.unused, h.running, h.noResult, ht, h.handed⟩
  | refresh => exact h.refreshIdentity
  | provided hr i =>
    refine h.congr rfl rfl rfl rfl rfl rfl ?_
    intro r' phase hr'
    cases hr'
    exact ⟨.providing, hr, by simp⟩
  | provideFailed hr => exact h.endRefresh hr .failed (by simp)
  | probed hr => exact h.commit hr (ht _ _ _ hr)
  | @givenUp r candidate i hr =>
    have hclose : FreshInv (s.closeTransport candidate) :=
      h.congr rfl rfl rfl rfl rfl rfl fun r phase hr => ⟨phase, hr, id⟩
    exact hclose.endRefresh hr .failed (by simp)
  | settle hr => exact h.congr rfl rfl rfl rfl rfl rfl (by simp)
  | close =>
    have hclosed : FreshInv { s with closed := true } :=
      h.congr rfl rfl rfl rfl rfl rfl fun r phase hr => ⟨phase, hr, id⟩
    exact hclosed.finishClose
  | closing => exact h.congr rfl rfl rfl rfl rfl rfl fun r phase hr => ⟨phase, hr, id⟩
  | closeFinished => exact h.finishClose
  | fetch f => exact h.startFetch f ht
  | @resumed f r expired result hf hres =>
    unfold resumeFetch
    split
    · exact h.setFetch f (by simp [UnderwayIn])
    · exact h.setFetch f (by simp [UnderwayIn])
    · exact h.setFetch f fun _ => h.underway ⟨f, by simpa [UnderwayIn, hf] using hres⟩
  | @captured f hf =>
    have hfresh := h.underway ⟨f, by simp [UnderwayIn, hf]⟩
    unfold capture
    split <;> exact h.setFetch f fun _ => hfresh
  | prepareFailed f => exact h.setFetch f (by simp [UnderwayIn])
  | @dispatched f t i hf =>
    have hfresh := h.underway ⟨f, by simp [UnderwayIn, hf]⟩
    unfold dispatch
    split
    · exact h.setFetch f (by simp [UnderwayIn])
    · have hset : FreshInv (s.setFetch f .handed) := h.setFetch f (by simp [UnderwayIn])
      exact ⟨hset.unused, hset.running, hset.noResult, hset.underway,
        List.forall_mem_cons.mpr ⟨hfresh, h.handed⟩⟩
  | observed digest =>
    unfold observeDigest
    split
    · exact h
    · exact h.congr rfl rfl rfl rfl rfl rfl fun r phase hr => ⟨phase, hr, id⟩

/-! Whole runs. -/

def exec (pinsFor : κ → List String) : Connection κ π → List (Event κ π) → Option (Connection κ π)
  | s, [] => some s
  | s, e :: es => (s.step pinsFor e).bind fun s' => exec pinsFor s' es

/-- Every event of the run is timely when it happens. -/
def TimelyRun (pinsFor : κ → List String) : Connection κ π → List (Event κ π) → Prop
  | _, [] => True
  | s, e :: es => s.Timely e ∧
    match s.step pinsFor e with
    | some s' => TimelyRun pinsFor s' es
    | none => True

theorem Inv.exec (h : Inv pinsFor s) (hs : s.exec pinsFor es = some s') : Inv pinsFor s' := by
  induction es generalizing s with
  | nil =>
    cases hs
    exact h
  | cons e es ih =>
    obtain ⟨s₁, hstep, hrest⟩ := Option.bind_eq_some_iff.mp hs
    exact ih (h.step hstep) hrest

theorem FreshInv.exec (h : FreshInv s) (ht : TimelyRun pinsFor s es)
    (hs : s.exec pinsFor es = some s') : FreshInv s' := by
  induction es generalizing s with
  | nil =>
    cases hs
    exact h
  | cons e es ih =>
    obtain ⟨s₁, hstep, hrest⟩ := Option.bind_eq_some_iff.mp hs
    obtain ⟨hnow, hlater⟩ := ht
    rw [hstep] at hlater
    exact ih (h.step hnow hstep) hlater hrest

/-- In every run, a request is taken only by the transport that is installed then, pinned to the
identity admitted then, in the family the request was prepared under; and in every timely run one
of the admitted keysets has not expired then. -/
theorem requests_sent_admitted (pinsFor : κ → List String) (es : List (Event κ π))
    {s : Connection κ π} (hs : ({} : Connection κ π).exec pinsFor es = some s) :
    (∀ h ∈ s.handed, Pinned pinsFor h) ∧
    (TimelyRun pinsFor {} es → ∀ h ∈ s.handed, fresh h.now h.members = true) := by
  refine ⟨(inv_initial.exec hs).handed, ?_⟩
  exact fun ht => (freshInv_initial.exec ht hs).handed

/-- An identity with no pins, whose keyset expires after one second. -/
def shortLived : VerifiedAciIdentity Unit Unit := ⟨⟨(), 1⟩, "sha256:00", "compose", "tdx", ()⟩

/-- A connection is made, and a fetch passes its check before the keyset expires. -/
def connected : List (Event Unit Unit) :=
  [.refresh, .provided shortLived, .probed, .settle, .tick 999, .fetch 0, .captured 0]

theorem requests_sent_admitted_of_fetch :
    ∃ s, ({} : Connection Unit Unit).exec (fun _ => []) (connected ++ [.dispatched 0]) = some s ∧
      s.handed.length = 1 ∧ (∀ h ∈ s.handed, Pinned (fun _ => []) h) ∧
      ∀ h ∈ s.handed, fresh h.now h.members = true := by
  have hrun := requests_sent_admitted (fun _ => []) (connected ++ [.dispatched 0]) rfl
  have htimely : TimelyRun (fun _ => []) ({} : Connection Unit Unit)
      (connected ++ [.dispatched 0]) := by
    refine ⟨trivial, trivial, ?_, trivial, ?_, ?_, trivial, trivial, trivial⟩
    · intro r i t hr
      cases hr
      decide
    · intro _
      decide
    · intro _ _
      decide
  exact ⟨_, rfl, rfl, hrun.1, hrun.2 htimely⟩

/-- The keyset expires while the body is read, and the request is sent all the same. -/
theorem sent_after_expiry :
    ∃ s h, ({} : Connection Unit Unit).exec (fun _ => [])
        (connected ++ [.tick 1001, .dispatched 0]) = some s ∧
      s.handed = [h] ∧ fresh h.now h.members = false :=
  ⟨_, _, rfl, rfl, by decide⟩

end Connection

end AciGateway.Client
