import AciGateway.Lib.Json
import AciGateway.Lib.Lists

/-! JSON objects as maps that keep the order in which their names were first inserted. -/
namespace Json

open List
open Prod (fst)

variable {k k' : String} {v : Value} {ms : Members}

def Value.asBool? : Value → Option Bool
  | .bool b => some b
  | _ => none

/-- An optional value, `null` when it is absent. -/
def encodeOption {α : Type} (encode : α → Value) : Option α → Value
  | some a => encode a
  | none => .null

/-- The members with `v` under `k`: in the place of the old value, or at the end. -/
def setMember (k : String) (v : Value) : Members → Members
  | [] => [(k, v)]
  | (k', v') :: ms => if k' = k then (k, v) :: ms else (k', v') :: setMember k v ms

theorem keys_setMember (k : String) (v : Value) (ms : Members) :
    (setMember k v ms).map fst =
      if k ∈ ms.map fst then ms.map fst else ms.map fst ++ [k] := by
  induction ms with
  | nil => rfl
  | cons m ms ih =>
    unfold setMember
    by_cases hk : m.1 = k
    · simp [hk]
    · have hk' : ¬ k = m.1 := fun h => hk h.symm
      simp only [hk, hk', if_false, map_cons, mem_cons, false_or, ih]
      split <;> rfl

theorem lookup_cons_eq (m : String × Value) (ms : Members) (k : String) :
    lookup k (m :: ms) = if k = m.1 then some m.2 else ms.lookup k := by
  rw [lookup_cons]
  by_cases h : k = m.1
  · simp [h]
  · simp [h, beq_eq_false_iff_ne.mpr h]

theorem lookup_setMember (k : String) (v : Value) (ms : Members) (k' : String) :
    (setMember k v ms).lookup k' = if k' = k then some v else ms.lookup k' := by
  induction ms with
  | nil => rw [setMember, lookup_cons_eq]
  | cons m ms ih =>
    unfold setMember
    by_cases hk : m.1 = k
    · rw [if_pos hk, lookup_cons_eq, lookup_cons_eq, hk]
      split <;> rfl
    · rw [if_neg hk, lookup_cons_eq, lookup_cons_eq, ih]
      by_cases h : k' = m.1
      · rw [if_pos h, if_pos h, if_neg (h ▸ hk)]
      · rw [if_neg h, if_neg h]

theorem mem_setMember {m : String × Value} (h : m ∈ setMember k v ms) : m = (k, v) ∨ m ∈ ms := by
  induction ms with
  | nil => exact .inl (mem_singleton.mp h)
  | cons n ms ih =>
    unfold setMember at h
    split at h
    · rcases mem_cons.mp h with rfl | h
      · exact .inl rfl
      · exact .inr (mem_cons_of_mem n h)
    · rcases mem_cons.mp h with rfl | h
      · exact .inr mem_cons_self
      · exact (ih h).imp_right (mem_cons_of_mem n)

theorem mem_setMember_of_ne {m : String × Value} (h : m ∈ ms) (hk : m.1 ≠ k) :
    m ∈ setMember k v ms := by
  induction ms with
  | nil => cases h
  | cons n ms ih =>
    unfold setMember
    rcases mem_cons.mp h with rfl | h
    · rw [if_neg hk]
      exact mem_cons_self
    · split
      · exact mem_cons_of_mem _ h
      · exact mem_cons_of_mem _ (ih h)

/-- The members without the one under `k`, whose place the last member takes. -/
def swapRemove (k : String) : Members → Members
  | [] => []
  | m :: ms =>
    if m.1 = k then
      match ms.getLast? with
      | some last => last :: ms.dropLast
      | none => []
    else m :: swapRemove k ms

theorem swapRemove_perm_eraseP : (swapRemove k ms).Perm (ms.eraseP (fun m => m.1 = k)) := by
  induction ms with
  | nil => exact .nil
  | cons m ms ih =>
    unfold swapRemove
    by_cases hk : m.1 = k
    · rw [if_pos hk, eraseP_cons_of_pos (by simpa using hk)]
      cases hl : ms.getLast? with
      | none => rw [getLast?_eq_none_iff.mp hl]
      | some last =>
        obtain ⟨init, rfl⟩ := getLast?_eq_some_iff.mp hl
        simpa using (perm_append_singleton last init).symm
    · rw [if_neg hk, eraseP_cons_of_neg (by simpa using hk)]
      exact ih.cons m

/-- Removing moves members but keeps them. -/
theorem swapRemove_perm (h : (ms.map fst).Nodup) :
    (swapRemove k ms).Perm (ms.filter (fun m => m.1 ≠ k)) := by
  refine swapRemove_perm_eraseP.trans (.of_eq ?_)
  induction ms with
  | nil => rfl
  | cons m ms ih =>
    obtain ⟨hm, hms⟩ := nodup_cons.mp h
    by_cases hk : m.1 = k
    · have hall : ms.filter (fun n => n.1 ≠ k) = ms := by
        refine filter_eq_self.mpr ?_
        intro n hn
        have hne : n.1 ≠ k := fun he => hm (hk ▸ he ▸ mem_map_of_mem hn)
        simpa using hne
      rw [eraseP_cons_of_pos (by simpa using hk), filter_cons_of_neg (by simpa using hk), hall]
    · rw [eraseP_cons_of_neg (by simpa using hk), filter_cons_of_pos (by simpa using hk), ih hms]

theorem mem_swapRemove {m : String × Value} (h : (ms.map fst).Nodup) :
    m ∈ swapRemove k ms ↔ m ∈ ms ∧ m.1 ≠ k := by
  rw [(swapRemove_perm h).mem_iff, mem_filter]
  simp

theorem nodup_swapRemove (h : (ms.map fst).Nodup) :
    ((swapRemove k ms).map fst).Nodup := by
  rw [((swapRemove_perm h).map fst).nodup_iff]
  exact h.sublist (filter_sublist.map fst)

theorem swapRemove_concat {v : Value} (h : k ∉ ms.map fst) :
    swapRemove k (ms ++ [(k, v)]) = ms := by
  induction ms with
  | nil => simp [swapRemove]
  | cons m ms ih =>
    simp only [map_cons, mem_cons, not_or] at h
    rw [cons_append, swapRemove, if_neg (fun hk => h.1 hk.symm), ih h.2]

theorem setMember_concat {w : Value} (h : k ∉ ms.map fst) :
    setMember k v (ms ++ [(k, w)]) = ms ++ [(k, v)] := by
  induction ms with
  | nil => simp [setMember]
  | cons m ms ih =>
    simp only [map_cons, mem_cons, not_or] at h
    rw [cons_append, setMember, if_neg (fun hk => h.1 hk.symm), ih h.2]
    rfl

theorem lookup_concat (h : k ∉ ms.map fst) : (ms ++ [(k, v)]).lookup k = some v := by
  rw [← setMember_concat (w := v) h, lookup_setMember, if_pos rfl]

/-- Setting a member that `p` keeps, or drops, commutes with filtering. -/
theorem filter_setMember (p : String → Bool) : (setMember k v ms).filter (fun m => p m.1) =
    if p k then setMember k v (ms.filter (fun m => p m.1)) else ms.filter (fun m => p m.1) := by
  induction ms with
  | nil => by_cases hp : p k <;> simp [setMember, hp]
  | cons m ms ih =>
    have hset : ∀ ms, setMember k v (m :: ms) =
        if m.1 = k then (k, v) :: ms else m :: setMember k v ms := fun _ => rfl
    rw [hset]
    by_cases hk : m.1 = k
    · by_cases hp : p k <;> simp [hk, hp, setMember]
    · by_cases hp : p k <;> by_cases hm : p m.1 <;> simp_all

structure Map where
  members : Members
  unique : (members.map Prod.fst).Nodup

namespace Map

variable {m : Map} {x : String × Value}

def empty : Map := ⟨[], List.nodup_nil⟩

def get? (m : Map) (k : String) : Option Value := m.members.lookup k

def insert (m : Map) (k : String) (v : Value) : Map where
  members := setMember k v m.members
  unique := by
    rw [keys_setMember]
    split
    · exact m.unique
    · next h => simpa using m.unique.concat h

def remove (m : Map) (k : String) : Map := ⟨swapRemove k m.members, nodup_swapRemove m.unique⟩

theorem mem_remove {k : String} :
    x ∈ (m.remove k).members ↔ x ∈ m.members ∧ x.1 ≠ k := mem_swapRemove m.unique

@[simp] theorem get?_empty (k : String) : empty.get? k = none := rfl

@[simp] theorem get?_insert (m : Map) (k : String) (v : Value) (k' : String) :
    (m.insert k v).get? k' = if k' = k then some v else m.get? k' :=
  lookup_setMember k v m.members k'

/-- The map with the members of another inserted one by one. -/
def extend (m : Map) (ms : Members) : Map := ms.foldl (fun m x => m.insert x.1 x.2) m

theorem mem_extend (h : x ∈ (m.extend ms).members) : x ∈ ms ∨ x ∈ m.members := by
  induction ms generalizing m with
  | nil => exact .inr h
  | cons y ms ih =>
    have h : x ∈ ((m.insert y.1 y.2).extend ms).members := h
    rcases ih h with h | h
    · exact .inl (mem_cons_of_mem y h)
    · rcases mem_setMember h with rfl | h
      · exact .inl mem_cons_self
      · exact .inr h

theorem get?_extend (m : Map) (hms : (ms.map fst).Nodup) (k : String) :
    (m.extend ms).get? k = (ms.lookup k).or (m.get? k) := by
  induction ms generalizing m with
  | nil => rfl
  | cons x ms ih =>
    obtain ⟨hx, hms⟩ := nodup_cons.mp hms
    have hstep : (m.extend (x :: ms)).get? k = ((m.insert x.1 x.2).extend ms).get? k := rfl
    rw [hstep, ih _ hms, get?_insert, lookup_cons_eq]
    by_cases hk : k = x.1
    · subst hk
      have hnone : ms.lookup x.1 = none := by
        rw [lookup_eq_none_iff]
        intro y hy
        have hne : x.1 ≠ y.1 := fun h => hx (h ▸ mem_map_of_mem hy)
        simpa using hne
      simp [hnone]
    · simp [hk]

end Map

end Json
