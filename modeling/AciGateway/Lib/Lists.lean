import Mathlib.Data.List.Nodup
import Mathlib.Tactic.NormNum

/-! Lists: fallible maps as pointwise relations, and association lists without duplicates. -/
namespace Lists

open List

theorem mapM_ok_iff {α β ε : Type} {f : α → Except ε β} {as : List α} {bs : List β} :
    as.mapM f = .ok bs ↔ Forall₂ (fun a b => f a = .ok b) as bs := by
  induction as generalizing bs with
  | nil => simp [pure, Except.pure, eq_comm]
  | cons a as ih =>
    rw [mapM_cons]
    cases bs with
    | nil => cases f a <;> cases as.mapM f <;> simp [bind, Except.bind, pure, Except.pure]
    | cons b bs =>
      rw [forall₂_cons, ← ih]
      cases f a <;> cases as.mapM f <;> simp [bind, Except.bind, pure, Except.pure]

theorem exists_mapM_ok {α β ε : Type} {f : α → Except ε β} {as : List α}
    (h : ∀ a ∈ as, ∃ b, f a = .ok b) : ∃ bs, as.mapM f = .ok bs := by
  induction as with
  | nil => exact ⟨[], rfl⟩
  | cons a as ih =>
    obtain ⟨b, hb⟩ := h a (by simp)
    obtain ⟨bs, hbs⟩ := ih (fun a ha => h a (by simp [ha]))
    exact ⟨b :: bs, mapM_ok_iff.mpr (.cons hb (mapM_ok_iff.mp hbs))⟩

theorem exists_right_of_mem {α β : Type} {r : α → β → Prop} {as : List α} {bs : List β} {a : α}
    (h : Forall₂ r as bs) (ha : a ∈ as) : ∃ b ∈ bs, r a b := by
  induction h with
  | nil => simp at ha
  | cons hab _ ih =>
    rcases mem_cons.mp ha with rfl | ha
    · exact ⟨_, by simp, hab⟩
    · obtain ⟨b, hb, hr⟩ := ih ha
      exact ⟨b, by simp [hb], hr⟩

theorem exists_left_of_mem {α β : Type} {r : α → β → Prop} {as : List α} {bs : List β} {b : β}
    (h : Forall₂ r as bs) (hb : b ∈ bs) : ∃ a ∈ as, r a b :=
  exists_right_of_mem (r := fun b a => r a b) h.flip hb

theorem forall₂_imp_mem {α β : Type} {r s : α → β → Prop} {as : List α} {bs : List β}
    (h : Forall₂ r as bs) (himp : ∀ a ∈ as, ∀ b ∈ bs, r a b → s a b) : Forall₂ s as bs := by
  induction h with
  | nil => exact .nil
  | cons hab _ ih =>
    refine .cons (himp _ (by simp) _ (by simp) hab) (ih ?_)
    intro a ha b hb
    exact himp a (by simp [ha]) b (by simp [hb])

/-- Two lists related to one list pointwise are related to each other. -/
theorem forall₂_common {α β γ : Type} {r : α → γ → Prop} {s : β → γ → Prop} {t : α → β → Prop}
    {as : List α} {bs : List β} {cs : List γ} (h : Forall₂ r as cs)
    (h' : Forall₂ s bs cs) (hst : ∀ a ∈ as, ∀ b ∈ bs, ∀ c, r a c → s b c → t a b) :
    Forall₂ t as bs := by
  induction h generalizing bs with
  | nil => cases h'; exact .nil
  | cons hac _ ih =>
    cases h' with
    | cons hbc h' =>
      refine .cons (hst _ (by simp) _ (by simp) _ hac hbc) (ih h' ?_)
      intro a ha b hb
      exact hst a (by simp [ha]) b (by simp [hb])

/-- The last element of a list in ascending order is its greatest. -/
theorem getLast?_eq_some_iff {α κ : Type} [LinearOrder κ] {key : α → κ} {l : List α} {x : α}
    (hp : l.Pairwise (fun a b => key a ≤ key b)) (hinj : ∀ a ∈ l, ∀ b ∈ l, key a = key b → a = b) :
    l.getLast? = some x ↔ x ∈ l ∧ ∀ y ∈ l, key y ≤ key x := by
  have hmax : ∀ z, l.getLast? = some z → z ∈ l ∧ ∀ y ∈ l, key y ≤ key z := by
    intro z hz
    obtain ⟨ys, rfl⟩ := List.getLast?_eq_some_iff.mp hz
    refine ⟨by simp, ?_⟩
    intro y hy
    rcases List.mem_append.mp hy with hy | hy
    · exact (List.pairwise_append.mp hp).2.2 y hy z (List.mem_singleton_self z)
    · rw [List.mem_singleton.mp hy]
  constructor
  · exact hmax x
  · rintro ⟨hx, hle⟩
    cases hz : l.getLast? with
    | none =>
      rw [List.getLast?_eq_none_iff.mp hz] at hx
      cases hx
    | some z =>
      obtain ⟨hzl, hzmax⟩ := hmax z hz
      rw [hinj z hzl x hx (le_antisymm (hle z hzl) (hzmax x hx))]

variable {α β : Type} [DecidableEq α] {k : α} {v : β} {l l' : List (α × β)}

/-- Without duplicate keys, looking up and belonging are the same. -/
theorem lookup_eq_some_iff (h : (l.map Prod.fst).Nodup) : l.lookup k = some v ↔ (k, v) ∈ l := by
  induction l with
  | nil => simp
  | cons m l ih =>
    obtain ⟨a, b⟩ := m
    obtain ⟨ha, hl⟩ := nodup_cons.mp h
    by_cases hk : k = a
    · subst hk
      have hnot : (k, v) ∉ l := fun hm => ha (mem_map.mpr ⟨_, hm, rfl⟩)
      simp [hnot, eq_comm]
    · have hb : (k == a) = false := by simpa using hk
      simp [lookup_cons, hb, hk, ih hl]

theorem mem_of_lookup (h : l.lookup k = some v) : (k, v) ∈ l := by
  induction l with
  | nil => cases h
  | cons m l ih =>
    rw [lookup_cons] at h
    cases hk : k == m.1 with
    | true =>
      rw [hk] at h
      rw [eq_of_beq hk, ← Option.some.inj h]
      exact mem_cons_self
    | false =>
      rw [hk] at h
      exact mem_cons_of_mem m (ih h)

/-- Pairs of a list without repeated names are placed by their names. -/
theorem prefix_of_names {α β : Type} {l sent : List (α × β)} (hmem : ∀ x ∈ l, x ∈ sent)
    (hl : l.map Prod.fst <+: sent.map Prod.fst) (hn : (sent.map Prod.fst).Nodup) : l <+: sent := by
  induction l generalizing sent with
  | nil => exact List.nil_prefix
  | cons x l ih =>
    cases sent with
    | nil => simp at hl
    | cons y sent =>
      rw [map_cons, map_cons, cons_prefix_cons] at hl
      rw [map_cons, nodup_cons] at hn
      have hfresh : ∀ z ∈ sent, z.1 ≠ y.1 := fun z hz he => hn.1 (he ▸ mem_map_of_mem hz)
      have hxy : x = y := by
        rcases mem_cons.mp (hmem x mem_cons_self) with rfl | hx
        · rfl
        · exact absurd hl.1 (hfresh x hx)
      subst hxy
      rw [cons_prefix_cons]
      refine ⟨rfl, ih ?_ hl.2 hn.2⟩
      intro z hz
      rcases mem_cons.mp (hmem z (mem_cons_of_mem _ hz)) with rfl | hz'
      · -- The name would stand twice in the list of names.
        exact absurd (hl.2.subset (mem_map_of_mem hz)) hn.1
      · exact hz'

/-- Strings of one length can be told apart in their concatenation. -/
theorem flatten_injective_of_length {α : Type} {n : Nat} {as bs : List (List α)} (hn : 0 < n)
    (ha : ∀ a ∈ as, a.length = n) (hb : ∀ b ∈ bs, b.length = n) (h : as.flatten = bs.flatten) :
    as = bs := by
  induction as generalizing bs with
  | nil =>
    cases bs with
    | nil => rfl
    | cons b bs =>
      have hlen := congrArg length h
      rw [flatten_cons, length_append, hb b mem_cons_self] at hlen
      simp at hlen
      omega
  | cons a as ih =>
    cases bs with
    | nil =>
      have hlen := congrArg length h
      rw [flatten_cons, length_append, ha a mem_cons_self] at hlen
      simp at hlen
      omega
    | cons b bs =>
      have hlen : a.length = b.length :=
        (ha a mem_cons_self).trans (hb b mem_cons_self).symm
      obtain ⟨rfl, htail⟩ := append_inj h hlen
      rw [ih (fun x hx => ha x (mem_cons_of_mem _ hx))
        (fun x hx => hb x (mem_cons_of_mem _ hx)) htail]

end Lists
