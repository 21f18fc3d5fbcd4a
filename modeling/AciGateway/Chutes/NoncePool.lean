import AciGateway.Chutes.Session

/-! The pools of nonces over several requests: what one request takes from the others. -/
namespace AciGateway.Chutes

open ChutesSessionStore List

theorem tail_filter_eq_eraseP_iff {α : Type} (p : α → Bool) (l : List α) :
    (l.filter p).tail = l.eraseP p ↔ ∀ a ∈ l, p a := by
  constructor
  · intro h
    by_cases hex : ∃ a ∈ l, p a
    · obtain ⟨a, ha, hp⟩ := hex
      have hlen := congrArg length h
      have hpos := length_pos_of_mem (mem_filter.mpr ⟨ha, hp⟩)
      rw [length_tail, length_eraseP_of_mem ha hp] at hlen
      have hle := length_filter_le p l
      exact length_filter_eq_length_iff.mp (by omega)
    · have hnone : ∀ a ∈ l, ¬ p a := fun a ha hp => hex ⟨a, ha, hp⟩
      rw [eraseP_of_forall_not hnone, filter_eq_nil_iff.mpr hnone] at h
      rw [← h]
      simp
  · intro h
    rw [filter_eq_self.mpr h]
    cases l with
    | nil => rfl
    | cons a l => simp [h a mem_cons_self]

/-- Of the nonces of verified instances, a pop takes the one it hands out and the expired ones and
leaves the others in order, exactly if the request accepts every one of them that is alive. -/
theorem pop_leaves_others_iff (s : ChutesSessionStore) (now : Nat) (chuteId : String)
    (accepted : List ChutesAcceptedBinding) (verified : ChutesPooledNonce → Bool)
    (hv : ∀ n, bound accepted n → verified n) :
    let alive := (s.noncePools chuteId).filter fun n => now < n.expiresAt && verified n
    let r := s.popVerifiedNonce now chuteId accepted
    (r.1 = (alive.find? (bound accepted)).map (fun n => ⟨n.instanceId, n.e2ePubkey, n.nonce⟩) ∧
      (r.2.noncePools chuteId).filter verified = alive.eraseP (bound accepted)) ↔
    ∀ n ∈ alive, bound accepted n := by
  intro alive r
  have husable : (s.noncePools chuteId).filter (usable now accepted) =
      alive.filter (bound accepted) := by
    rw [filter_filter]
    refine filter_congr fun n _ => ?_
    have hn := hv n
    unfold usable
    cases hb : bound accepted n <;> simp_all
  have hkept : (r.2.noncePools chuteId).filter verified = (alive.filter (bound accepted)).tail := by
    rw [← husable]
    simp only [r, popVerifiedNonce, selectNonce_eq, Function.update_self]
    refine filter_eq_self.mpr fun n hn => hv n ?_
    have husable := of_mem_filter (mem_of_mem_tail hn)
    exact (Bool.and_eq_true _ _ ▸ husable).2
  have hfirst : r.1 =
      (alive.find? (bound accepted)).map fun n => ⟨n.instanceId, n.e2ePubkey, n.nonce⟩ := by
    rw [← head?_filter, ← husable]
    simp only [r, popVerifiedNonce, selectNonce_eq]
  rw [hkept, tail_filter_eq_eraseP_iff]
  exact and_iff_right hfirst

/-- A pool that a discovery of one nonce for each instance has filled. -/
def onePool (instances : List String) : ChutesSessionStore :=
  (ChutesSessionStore.new.recordVerifiedDiscovery 0
    ⟨"chute", none, instances.map fun i => ⟨i, "key", "hash", ["nonce"]⟩⟩).2

/-- A request that accepts both instances takes one nonce and leaves the other. -/
theorem pop_leaves_others_iff_both :
    let s := onePool ["a", "b"]
    let r := s.popVerifiedNonce 1 "chute" [⟨none, "hash"⟩]
    (r.2.noncePools "chute").filter (fun _ => true) =
      ((s.noncePools "chute").filter fun n => 1 < n.expiresAt && true).eraseP
        (bound [⟨none, "hash"⟩]) :=
  ((pop_leaves_others_iff _ 1 "chute" [⟨none, "hash"⟩] (fun _ => true) (fun _ _ => rfl)).mpr
    (by decide +kernel)).2

/-- A request for one instance throws away the nonce of the other. -/
theorem sibling_nonce_lost :
    let s := onePool ["a", "b"]
    let after := (s.popVerifiedNonce 1 "chute" [⟨some "a", "hash"⟩]).2
    (s.popVerifiedNonce 1 "chute" [⟨some "b", "hash"⟩]).1.isSome ∧
      (after.popVerifiedNonce 1 "chute" [⟨some "b", "hash"⟩]).1.isNone := by
  decide +kernel

end AciGateway.Chutes
