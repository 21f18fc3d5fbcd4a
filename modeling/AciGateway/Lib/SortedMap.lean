import Mathlib

/-! Finite maps whose entries stand in the order of their keys. -/

/-- A finite map, as `BTreeMap`. -/
structure SortedMap (κ α : Type) [LinearOrder κ] where
  entries : List (κ × α)
  sorted : entries.Pairwise fun a b => a.1 < b.1

namespace SortedMap

open List

variable {κ α : Type} [LinearOrder κ] {m : SortedMap κ α} {k k' : κ} {a : α} {l : List (κ × α)}
  {f : Option α → α}

def empty : SortedMap κ α := ⟨[], .nil⟩

def get? (m : SortedMap κ α) (k : κ) : Option α :=
  (m.entries.find? fun e => e.1 = k).map Prod.snd

def values (m : SortedMap κ α) : List α := m.entries.map Prod.snd

/-- The entry with the greatest key. -/
def last? (m : SortedMap κ α) : Option (κ × α) := m.entries.getLast?

/-- Change the value under a key, or put one there. -/
def upsertEntries (k : κ) (f : Option α → α) : List (κ × α) → List (κ × α)
  | [] => [(k, f none)]
  | e :: l =>
    if k < e.1 then (k, f none) :: e :: l
    else if k = e.1 then (k, f (some e.2)) :: l
    else e :: upsertEntries k f l

theorem mem_upsertEntries {e : κ × α} (h : e ∈ upsertEntries k f l) : e.1 = k ∨ e ∈ l := by
  induction l with
  | nil =>
    rw [upsertEntries, mem_singleton] at h
    exact .inl (h ▸ rfl)
  | cons x l ih =>
    unfold upsertEntries at h
    split at h
    · rcases mem_cons.mp h with rfl | h
      · exact .inl rfl
      · exact .inr h
    · split at h
      · rcases mem_cons.mp h with rfl | h
        · exact .inl rfl
        · exact .inr (mem_cons_of_mem x h)
      · rcases mem_cons.mp h with rfl | h
        · exact .inr mem_cons_self
        · exact (ih h).imp_right (mem_cons_of_mem x)

theorem sorted_upsertEntries (h : l.Pairwise fun a b => a.1 < b.1) :
    (upsertEntries k f l).Pairwise fun a b => a.1 < b.1 := by
  induction l with
  | nil => exact pairwise_singleton _ _
  | cons e l ih =>
    obtain ⟨hhead, htail⟩ := pairwise_cons.mp h
    unfold upsertEntries
    split
    · next hlt =>
      refine pairwise_cons.mpr ⟨?_, h⟩
      intro b hb
      rcases mem_cons.mp hb with rfl | hb
      · exact hlt
      · exact hlt.trans (hhead b hb)
    · next hnlt =>
      split
      · next heq => exact pairwise_cons.mpr ⟨fun b hb => heq ▸ hhead b hb, htail⟩
      · next hne =>
        refine pairwise_cons.mpr ⟨?_, ih htail⟩
        intro b hb
        rcases mem_upsertEntries hb with rfl | hb
        · exact lt_of_le_of_ne (not_lt.mp hnlt) fun h => hne h.symm
        · exact hhead b hb

def upsert (m : SortedMap κ α) (k : κ) (f : Option α → α) : SortedMap κ α :=
  ⟨upsertEntries k f m.entries, sorted_upsertEntries m.sorted⟩

@[simp] theorem get?_empty (k : κ) : (empty : SortedMap κ α).get? k = none := rfl

theorem find?_upsertEntries (f : Option α → α) (h : l.Pairwise fun a b => a.1 < b.1) (k' : κ) :
    ((upsertEntries k f l).find? fun e => e.1 = k').map Prod.snd =
      if k' = k then some (f ((l.find? fun e => e.1 = k).map Prod.snd))
      else (l.find? fun e => e.1 = k').map Prod.snd := by
  induction l with
  | nil =>
    by_cases hk : k = k'
    · simp [upsertEntries, hk]
    · simp [upsertEntries, hk, Ne.symm hk]
  | cons e l ih =>
    obtain ⟨hhead, htail⟩ := pairwise_cons.mp h
    have habsent : ∀ x, x ≤ e.1 → l.find? (fun e => e.1 = x) = none := by
      intro x hx
      rw [find?_eq_none]
      intro b hb
      simpa using (lt_of_le_of_lt hx (hhead b hb)).ne'
    unfold upsertEntries
    split
    · next hlt =>
      by_cases hk : k = k'
      · subst hk
        simp [hlt.ne', habsent k hlt.le]
      · simp [hk, Ne.symm hk, find?_cons]
    · split
      · next heq =>
        subst heq
        by_cases hk : e.1 = k'
        · simp [hk]
        · simp [hk, Ne.symm hk]
      · next hne =>
        by_cases hk : e.1 = k'
        · have hne' : k' ≠ k := fun h => hne (h ▸ hk.symm)
          simp [hk, hne']
        · have hne' : ¬ e.1 = k := fun h => hne h.symm
          simpa [hk, hne'] using ih htail

@[simp] theorem get?_upsert (m : SortedMap κ α) (k : κ) (f : Option α → α) (k' : κ) :
    (m.upsert k f).get? k' = if k' = k then some (f (m.get? k)) else m.get? k' :=
  find?_upsertEntries f m.sorted k'

theorem nodup_keys (m : SortedMap κ α) : (m.entries.map Prod.fst).Nodup :=
  pairwise_map.mpr (m.sorted.imp fun h => h.ne)

theorem get?_eq_some_iff : m.get? k = some a ↔ (k, a) ∈ m.entries := by
  rw [get?, Option.map_eq_some_iff]
  constructor
  · rintro ⟨e, he, rfl⟩
    have hk : e.1 = k := by simpa using find?_some he
    exact hk ▸ mem_of_find?_eq_some he
  · intro h
    have hsome : (m.entries.find? fun e => e.1 = k).isSome :=
      find?_isSome.mpr ⟨(k, a), h, by simp⟩
    obtain ⟨e, he⟩ := Option.isSome_iff_exists.mp hsome
    have hk : e.1 = k := by simpa using find?_some he
    have hsame := inj_on_of_nodup_map m.nodup_keys (mem_of_find?_eq_some he) h hk
    exact ⟨e, he, congrArg Prod.snd hsame⟩

/-- A key past the last one has no value. -/
theorem get?_eq_none_of_last? {e : κ × α} (h : m.last? = some e) (hk : e.1 < k) :
    m.get? k = none := by
  rw [Option.eq_none_iff_forall_not_mem]
  intro a ha
  have hmem := get?_eq_some_iff.mp ha
  obtain ⟨init, heq⟩ := getLast?_eq_some_iff.mp h
  have hsorted := m.sorted
  rw [heq] at hsorted hmem
  rcases mem_append.mp hmem with hinit | hlast
  · have hlt := (pairwise_append.mp hsorted).2.2 _ hinit e mem_cons_self
    exact absurd (hlt.trans hk) (lt_irrefl k)
  · obtain rfl := mem_singleton.mp hlast
    exact absurd hk (lt_irrefl k)

/-- Maps that give the same values have the same entries. -/
theorem entries_eq {l : List (κ × α)} (hl : l.Pairwise fun a b => a.1 < b.1)
    (h : ∀ k a, m.get? k = some a ↔ (k, a) ∈ l) : m.entries = l := by
  have hperm : m.entries.Perm l := by
    refine (perm_ext_iff_of_nodup m.nodup_keys.of_map ?_).mpr ?_
    · exact Nodup.of_map Prod.fst (pairwise_map.mpr (hl.imp fun h => h.ne))
    · rintro ⟨k, a⟩
      rw [← get?_eq_some_iff, h]
  exact hperm.eq_of_pairwise (fun a b _ _ hab hba => absurd (hab.trans hba) (lt_irrefl _))
    m.sorted hl

end SortedMap
