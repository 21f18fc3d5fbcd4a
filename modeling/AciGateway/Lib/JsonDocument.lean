import AciGateway.Lib.JsonMap
import AciGateway.Lib.JsonParse

/-! JSON documents as a reader holds them: every object names a member once. Two documents
are the same when they differ only in the order of the members of their objects. -/
namespace Json

open Octets
open Prod (fst)

variable {v : Value} {ms ns : Members} {k : String} {round : Bytes → Option FloatText}
  {vs : List Value}

mutual

/-- The value a reader keeps: of members with one name the last, in the place of the first. -/
def dedup : Value → Value
  | .arr vs => .arr (dedupItems vs)
  | .obj ms => .obj (Map.empty.extend (dedupMembers ms)).members
  | v => v

def dedupItems : List Value → List Value
  | [] => []
  | v :: vs => dedup v :: dedupItems vs

def dedupMembers : Members → Members
  | [] => []
  | (k, v) :: ms => (k, dedup v) :: dedupMembers ms

end

/-- How many containers the reader lets be open at once. -/
def recursionLimit : Nat := 127

/-- The document in a byte string. -/
def fromSlice (round : Bytes → Option FloatText) (b : Bytes) : Option Value :=
  (parse round recursionLimit b).map dedup

mutual

/-- Equality up to the order of object members. -/
def same : Value → Value → Bool
  | .null, .null => true
  | .bool b, .bool c => b == c
  | .num n, .num m => n == m
  | .str s, .str t => s == t
  | .arr vs, .arr ws => sameItems vs ws
  | .obj ms, .obj ns => ms.length == ns.length && sameMembers ms ns
  | _, _ => false

def sameItems : List Value → List Value → Bool
  | [], [] => true
  | v :: vs, w :: ws => same v w && sameItems vs ws
  | _, _ => false

/-- Every member has its counterpart among the others. -/
def sameMembers : Members → Members → Bool
  | [], _ => true
  | (k, v) :: ms, ns =>
    (match ns.lookup k with
      | some w => same v w
      | none => false) && sameMembers ms ns

end

theorem uniqueKeysItems_iff : uniqueKeysItems vs ↔ ∀ v ∈ vs, uniqueKeys v := by
  induction vs with
  | nil => simp [uniqueKeysItems]
  | cons v vs ih => simp [uniqueKeysItems, ih]

theorem uniqueKeysMembers_iff : uniqueKeysMembers ms ↔ ∀ m ∈ ms, uniqueKeys m.2 := by
  induction ms with
  | nil => simp [uniqueKeysMembers]
  | cons m ms ih => simp [uniqueKeysMembers, ih]

theorem uniqueKeys_obj :
    uniqueKeys (.obj ms) ↔ (ms.map fst).Nodup ∧ ∀ m ∈ ms, uniqueKeys m.2 := by
  rw [uniqueKeys, Bool.and_eq_true, decide_eq_true_iff, uniqueKeysMembers_iff]

theorem setMember_of_notMem (v : Value) (h : k ∉ ms.map fst) :
    setMember k v ms = ms ++ [(k, v)] := by
  induction ms with
  | nil => rfl
  | cons m ms ih =>
    simp only [List.map_cons, List.mem_cons, not_or] at h
    rw [setMember, if_neg (fun hk => h.1 hk.symm), ih h.2]
    rfl

/-- Members under new names are put at the end. -/
theorem members_extend (m : Map) (hms : (m.members.map fst ++ ms.map fst).Nodup) :
    (m.extend ms).members = m.members ++ ms := by
  induction ms generalizing m with
  | nil => simp [Map.extend]
  | cons x ms ih =>
    have hx : x.1 ∉ m.members.map fst := by
      intro hmem
      exact List.disjoint_of_nodup_append hms hmem (by simp)
    have hins : (m.insert x.1 x.2).members = m.members ++ [x] := setMember_of_notMem x.2 hx
    have hstep : (m.extend (x :: ms)).members = ((m.insert x.1 x.2).extend ms).members := rfl
    rw [hstep, ih _ (by rw [hins]; simpa using hms), hins]
    simp

theorem dedupMembers_keys (ms : Members) : (dedupMembers ms).map fst = ms.map fst := by
  induction ms with
  | nil => rfl
  | cons m ms ih => simp [dedupMembers, ih]

mutual

/-- A value whose objects name every member once is kept as it is. -/
theorem dedup_of_uniqueKeys : ∀ {v : Value}, uniqueKeys v → dedup v = v
  | .null, _ => rfl
  | .bool _, _ => rfl
  | .num _, _ => rfl
  | .str _, _ => rfl
  | .arr vs, h => by rw [dedup, dedupItems_of_uniqueKeys h]
  | .obj ms, h => by
    rw [uniqueKeys, Bool.and_eq_true, decide_eq_true_iff] at h
    rw [dedup, members_extend _ (by simpa [Map.empty, dedupMembers_keys] using h.1),
      dedupMembers_of_uniqueKeys h.2]
    rfl

theorem dedupItems_of_uniqueKeys : ∀ {vs : List Value}, uniqueKeysItems vs → dedupItems vs = vs
  | [], _ => rfl
  | v :: vs, h => by
    rw [uniqueKeysItems, Bool.and_eq_true] at h
    rw [dedupItems, dedup_of_uniqueKeys h.1, dedupItems_of_uniqueKeys h.2]

theorem dedupMembers_of_uniqueKeys : ∀ {ms : Members}, uniqueKeysMembers ms →
    dedupMembers ms = ms
  | [], _ => rfl
  | (k, v) :: ms, h => by
    rw [uniqueKeysMembers, Bool.and_eq_true] at h
    rw [dedupMembers, dedup_of_uniqueKeys h.1, dedupMembers_of_uniqueKeys h.2]

end

theorem mem_dedupItems (h : v ∈ dedupItems vs) : ∃ u ∈ vs, v = dedup u := by
  induction vs with
  | nil => cases h
  | cons u vs ih =>
    rcases List.mem_cons.mp h with rfl | h
    · exact ⟨u, by simp, rfl⟩
    · obtain ⟨u', hu', he⟩ := ih h
      exact ⟨u', by simp [hu'], he⟩

theorem mem_dedupMembers {m : String × Value} (h : m ∈ dedupMembers ms) :
    ∃ n ∈ ms, m = (n.1, dedup n.2) := by
  induction ms with
  | nil => cases h
  | cons n ms ih =>
    rcases List.mem_cons.mp h with rfl | h
    · exact ⟨n, by simp, rfl⟩
    · obtain ⟨n', hn', he⟩ := ih h
      exact ⟨n', by simp [hn'], he⟩

theorem uniqueKeys_dedup : uniqueKeys (dedup v) := by
  induction v using Value.ind with
  | arr vs ih =>
    refine uniqueKeysItems_iff.mpr ?_
    intro v hv
    obtain ⟨u, hu, rfl⟩ := mem_dedupItems hv
    exact ih u hu
  | obj ms ih =>
    refine uniqueKeys_obj.mpr ⟨Map.unique _, ?_⟩
    intro m hm
    rcases Map.mem_extend hm with hm | hm
    · obtain ⟨n, hn, rfl⟩ := mem_dedupMembers hm
      exact ih n hn
    · cases hm
  | _ => rfl

/-- A reader holds documents. -/
theorem uniqueKeys_of_fromSlice {b : Bytes} (h : fromSlice round b = some v) : uniqueKeys v := by
  obtain ⟨u, -, rfl⟩ := Option.map_eq_some_iff.mp h
  exact uniqueKeys_dedup

/-- The object a text holds. -/
def readMap (round : Bytes → Option FloatText) (b : Bytes) : Option Map :=
  match h : fromSlice round b with
  | some (.obj ms) => some ⟨ms, (uniqueKeys_obj.mp (uniqueKeys_of_fromSlice h)).1⟩
  | _ => none

theorem readMap_eq_some {b : Bytes} {m : Map} :
    readMap round b = some m ↔ fromSlice round b = some (.obj m.members) := by
  unfold readMap
  split
  · next ms h =>
    constructor
    · rintro ⟨⟩
      exact h
    · intro hm
      have hms : ms = m.members := Value.obj.inj (Option.some.inj (h.symm.trans hm))
      cases m
      cases hms
      rfl
  · next hne => exact ⟨fun h => (by cases h), fun h => (hne _ h).elim⟩

/-- A document is read back from its compact text. -/
theorem fromSlice_print (round : Bytes → Option FloatText) (hd : depth v ≤ recursionLimit)
    (hi : integral v) (hu : uniqueKeys v) : fromSlice round (print v) = some v := by
  rw [fromSlice, parse_print round hd hi, Option.map_some, dedup_of_uniqueKeys hu]

theorem fromSlice_print_none (round : Bytes → Option FloatText)
    (hd : recursionLimit < depth v) (hi : integral v) : fromSlice round (print v) = none := by
  rw [fromSlice, parse_print_none round hd hi, Option.map_none]

theorem same_of_scalar (h : depth v = 0) : same v v := by
  cases v <;> simp_all [same, depth]

theorem sameItems_iff {ws : List Value} :
    sameItems vs ws ↔ List.Forall₂ (fun v w => same v w) vs ws := by
  induction vs generalizing ws with
  | nil => cases ws <;> simp [sameItems]
  | cons v vs ih => cases ws <;> simp [sameItems, ih]

theorem same_obj : same (.obj ms) (.obj ns) ↔
    ms.length = ns.length ∧ sameMembers ms ns := by
  rw [same, Bool.and_eq_true, beq_iff_eq]

theorem sameMembers_iff :
    sameMembers ms ns ↔ ∀ m ∈ ms, ∃ w, ns.lookup m.1 = some w ∧ same m.2 w := by
  induction ms with
  | nil => simp [sameMembers]
  | cons m ms ih =>
    rw [sameMembers, Bool.and_eq_true, ih, List.forall_mem_cons]
    refine and_congr_left (fun _ => ?_)
    cases ns.lookup m.1 <;> simp

/-- Objects that differ in member order only have the same members under every name. -/
theorem same_lookup (k : String) {w : Value} (h : same (.obj ms) (.obj ns))
    (hv : ms.lookup k = some v) (hw : ns.lookup k = some w) : same v w := by
  obtain ⟨w', hw', hsame⟩ := sameMembers_iff.mp (same_obj.mp h).2 (k, v) (Lists.mem_of_lookup hv)
  rw [hw, Option.some.injEq] at hw'
  exact hw' ▸ hsame

theorem uniqueKeys_swapRemove (h : uniqueKeys (.obj ms)) : uniqueKeys (.obj (swapRemove k ms)) := by
  rw [uniqueKeys_obj] at h ⊢
  exact ⟨nodup_swapRemove h.1, fun m hm => h.2 m ((mem_swapRemove h.1).mp hm).1⟩

/-- The same member can be removed from both sides. -/
theorem same_swapRemove (hms : (ms.map fst).Nodup) (hns : (ns.map fst).Nodup)
    (h : same (.obj ms) (.obj ns)) : same (.obj (swapRemove k ms)) (.obj (swapRemove k ns)) := by
  rw [same_obj, sameMembers_iff] at h ⊢
  have hkeys : (ms.map fst).Perm (ns.map fst) := by
    refine (List.subperm_of_subset hms ?_).perm_of_length_le (by simp [h.1])
    intro k' hk'
    obtain ⟨m, hm, rfl⟩ := List.mem_map.mp hk'
    obtain ⟨w, hw, -⟩ := h.2 m hm
    exact List.mem_map.mpr ⟨_, Lists.mem_of_lookup hw, rfl⟩
  have hlen : ∀ {l : Members}, (l.map fst).Nodup →
      (swapRemove k l).length = ((l.map fst).filter (· ≠ k)).length := by
    intro l hl
    rw [(swapRemove_perm hl).length_eq, List.filter_map, List.length_map]
    rfl
  refine ⟨?_, ?_⟩
  · rw [hlen hms, hlen hns, (hkeys.filter _).length_eq]
  · intro m hm
    obtain ⟨hm, hne⟩ := (mem_swapRemove hms).mp hm
    obtain ⟨w, hw, hsame⟩ := h.2 m hm
    refine ⟨w, (Lists.lookup_eq_some_iff (nodup_swapRemove hns)).mpr ?_, hsame⟩
    exact (mem_swapRemove hns).mpr ⟨Lists.mem_of_lookup hw, hne⟩

end Json
