import Mathlib.Data.List.AList

/-! Finite maps with a count of the values that satisfy a predicate. -/

/-- A finite map, as `HashMap`. The order of its entries carries no meaning. -/
abbrev FinMap (K V : Type) := AList (fun _ : K => V)

namespace FinMap

variable {K V : Type} [DecidableEq K] {m : FinMap K V} {k k' : K} {u v : V} {p : V → Bool}

theorem lookup_insert_eq (m : FinMap K V) (k k' : K) (v : V) :
    (m.insert k v).lookup k' = if k' = k then some v else m.lookup k' := by
  split
  · next h => subst h; exact AList.lookup_insert m
  · next h => exact AList.lookup_insert_ne h

theorem lookup_erase_eq (m : FinMap K V) (k k' : K) :
    (m.erase k).lookup k' = if k' = k then none else m.lookup k' := by
  split
  · next h => subst h; exact AList.lookup_erase k' m
  · next h => exact AList.lookup_erase_ne h

/-- Apply `f` to the value under `k`, if there is one. -/
def modify (m : FinMap K V) (k : K) (f : V → V) : FinMap K V :=
  match m.lookup k with
  | some v => m.insert k (f v)
  | none => m

theorem lookup_modify (m : FinMap K V) (k k' : K) (f : V → V) :
    (m.modify k f).lookup k' = if k' = k then (m.lookup k).map f else m.lookup k' := by
  unfold modify
  cases h : m.lookup k with
  | none =>
    by_cases hk : k' = k
    · subst hk
      simp [h]
    · simp [hk]
  | some v => simp [lookup_insert_eq]

/-- Apply `f` to every value. -/
def mapValues (m : FinMap K V) (f : V → V) : FinMap K V where
  entries := m.entries.map (fun e => ⟨e.1, f e.2⟩)
  nodupKeys := by
    have h := m.nodupKeys
    simp only [List.NodupKeys, List.keys, List.map_map] at h ⊢
    exact h

theorem mem_entries : (⟨k, v⟩ : Sigma fun _ : K => V) ∈ m.entries ↔ m.lookup k = some v :=
  (AList.mem_lookup_iff (s := m)).symm

theorem lookup_mapValues (m : FinMap K V) (f : V → V) (k : K) :
    (m.mapValues f).lookup k = (m.lookup k).map f := by
  apply Option.ext
  intro v
  rw [← mem_entries, Option.map_eq_some_iff]
  simp only [mapValues, List.mem_map]
  constructor
  · rintro ⟨⟨k', u⟩, hm, he⟩
    cases he
    exact ⟨u, mem_entries.mp hm, rfl⟩
  · rintro ⟨u, hm, rfl⟩
    exact ⟨⟨k, u⟩, mem_entries.mpr hm, rfl⟩

/-- How many values satisfy `p`. -/
def count (p : V → Bool) (m : FinMap K V) : Nat := m.entries.countP (fun e => p e.2)

omit [DecidableEq K] in
@[simp] theorem count_empty : count p (∅ : FinMap K V) = 0 := rfl

theorem count_erase (h : m.lookup k = some u) :
    count p (m.erase k) + (if p u then 1 else 0) = count p m := by
  have hk : k ∈ m.entries.keys := AList.lookup_isSome.mp (by simp [h])
  obtain ⟨b, l₁, l₂, -, hl, he⟩ := List.exists_of_kerase hk
  have hb : b = u := by
    have hm : (⟨k, b⟩ : Sigma fun _ : K => V) ∈ m.entries := by simp [hl]
    rw [mem_entries, h] at hm
    exact (Option.some.inj hm).symm
  subst hb
  have herase : (m.erase k).entries = l₁ ++ l₂ := he
  rw [count, count, herase, hl]
  simp [List.countP_append, List.countP_cons]
  omega

theorem count_insert_new (h : m.lookup k = none) :
    count p (m.insert k v) = count p m + (if p v then 1 else 0) := by
  rw [AList.lookup_eq_none] at h
  rw [count, AList.entries_insert_of_notMem h, List.countP_cons]
  rfl

theorem count_insert_old (h : m.lookup k = some u) (hp : p u = p v) :
    count p (m.insert k v) = count p m := by
  have he := count_erase (p := p) h
  have hi : (m.insert k v).entries = ⟨k, v⟩ :: (m.erase k).entries := AList.entries_insert
  rw [← he, count, hi]
  simp [count, List.countP_cons, hp]

theorem length_insert_le (m : FinMap K V) (k : K) (v : V) :
    (m.insert k v).entries.length ≤ m.entries.length + 1 := by
  rw [AList.entries_insert, List.length_cons]
  exact Nat.succ_le_succ (List.kerase_sublist k m.entries).length_le

theorem length_modify_le (m : FinMap K V) (k : K) (f : V → V) :
    (m.modify k f).entries.length ≤ m.entries.length + 1 := by
  unfold modify
  split
  · exact length_insert_le m k _
  · exact Nat.le_succ _

theorem count_pos_iff : 0 < count p m ↔ ∃ k v, m.lookup k = some v ∧ p v := by
  rw [count, List.countP_pos_iff]
  constructor
  · rintro ⟨⟨k, v⟩, hm, hp⟩
    exact ⟨k, v, mem_entries.mp hm, hp⟩
  · rintro ⟨k, v, hm, hp⟩
    exact ⟨⟨k, v⟩, mem_entries.mpr hm, hp⟩

end FinMap
