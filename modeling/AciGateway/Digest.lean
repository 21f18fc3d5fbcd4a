import AciGateway.Lib.JsonParse
import AciGateway.Lib.Lists
import Mathlib.Data.String.Basic

/-! Digest fields and the canonical bytes (JCS) of signed documents. -/
namespace AciGateway.Digest

open Octets Json Lists List

def sha256Hex (sha256 : Bytes → Bytes) (payload : Bytes) : String :=
  "sha256:" ++ hexEncode (sha256 payload)

def sha256BareHex (sha256 : Bytes → Bytes) (payload : Bytes) : String :=
  hexEncode (sha256 payload)

inductive JcsError where
  | nonIntegerNumber (text : Bytes)
  | nonAsciiFieldName (name : String)
  deriving DecidableEq

def isAscii (s : String) : Bool := (utf8 s).all (· < 128)

/-- A member of the canonical object, given the canonical form of its value. -/
def checkMember (m : String × Except JcsError Value) : Except JcsError (String × Value) :=
  if isAscii m.1 then m.2.map (fun v => (m.1, v)) else .error (.nonAsciiFieldName m.1)

mutual

/-- The value with the members of every object in name order. -/
def sorted : Value → Except JcsError Value
  | .obj ms =>
    (((sortedMembers ms).insertionSort (fun a b => a.1 ≤ b.1)).mapM checkMember).map .obj
  | .arr vs => (sortedItems vs).map .arr
  | .num (.float f) => .error (.nonIntegerNumber f.text)
  | v => .ok v

def sortedItems : List Value → Except JcsError (List Value)
  | [] => .ok []
  | v :: vs => do
    let v ← sorted v
    let vs ← sortedItems vs
    pure (v :: vs)

def sortedMembers : Members → List (String × Except JcsError Value)
  | [] => []
  | (k, v) :: ms => (k, sorted v) :: sortedMembers ms

end

def jcsBytes (v : Value) : Except JcsError Bytes := (sorted v).map print

variable {v w : Value} {k : String} {ms : Members} {b : Bytes}

theorem sortedMembers_eq (ms : Members) :
    sortedMembers ms = ms.map (fun m => (m.1, sorted m.2)) := by
  induction ms with
  | nil => rfl
  | cons m ms ih => simp [sortedMembers, ih]

/-- The members of a canonical object are the canonical members of the object. -/
theorem sorted_obj (h : sorted (.obj ms) = .ok w) : ∃ out, w = .obj out ∧
    Forall₂ (fun m n => checkMember m = .ok n)
      ((sortedMembers ms).insertionSort (fun a b => a.1 ≤ b.1)) out := by
  rw [sorted] at h
  cases hm : ((sortedMembers ms).insertionSort (fun a b => a.1 ≤ b.1)).mapM checkMember with
  | error e => simp [hm, Except.map] at h
  | ok out =>
    simp only [hm, Except.map, Except.ok.injEq] at h
    exact ⟨out, h.symm, mapM_ok_iff.mp hm⟩

theorem sorted_arr {vs : List Value} (h : sorted (.arr vs) = .ok w) :
    ∃ ws, w = .arr ws ∧ Forall₂ (fun v w => sorted v = .ok w) vs ws := by
  rw [sorted] at h
  cases hs : sortedItems vs with
  | error e => rw [hs] at h; cases h
  | ok ws =>
    rw [hs] at h
    cases h
    refine ⟨ws, rfl, ?_⟩
    induction vs generalizing ws with
    | nil => cases hs; exact .nil
    | cons v vs ih =>
      rw [sortedItems] at hs
      cases hv : sorted v with
      | error e => rw [hv] at hs; cases hs
      | ok x =>
        cases hvs : sortedItems vs with
        | error e => rw [hv, hvs] at hs; cases hs
        | ok xs =>
          rw [hv, hvs] at hs
          cases hs
          exact .cons hv (ih xs hvs)

theorem checkMember_ok {m : String × Except JcsError Value} {n : String × Value}
    (h : checkMember m = .ok n) : n.1 = m.1 ∧ m.2 = .ok n.2 := by
  unfold checkMember at h
  split at h
  · cases hm : m.2 with
    | error e => simp [hm, Except.map] at h
    | ok v =>
      simp only [hm, Except.map, Except.ok.injEq] at h
      simp [← h]
  · cases h

/-- A member of the canonical object comes from a member of the object. -/
theorem mem_sorted {out : Members} (h : Forall₂ (fun m n => checkMember m = .ok n)
      ((sortedMembers ms).insertionSort (fun a b => a.1 ≤ b.1)) out) :
    (k, w) ∈ out ↔ ∃ v, (k, v) ∈ ms ∧ sorted v = .ok w := by
  constructor
  · intro hm
    obtain ⟨m, hmem, hc⟩ := exists_left_of_mem h hm
    obtain ⟨hk, hv⟩ := checkMember_ok hc
    rw [mem_insertionSort, sortedMembers_eq, mem_map] at hmem
    obtain ⟨⟨k', v⟩, hin, rfl⟩ := hmem
    obtain rfl : k = k' := hk
    exact ⟨v, hin, hv⟩
  · rintro ⟨v, hin, hv⟩
    have hmem : (k, sorted v) ∈ (sortedMembers ms).insertionSort (fun a b => a.1 ≤ b.1) := by
      rw [mem_insertionSort, sortedMembers_eq, mem_map]
      exact ⟨(k, v), hin, rfl⟩
    obtain ⟨n, hn, hc⟩ := exists_right_of_mem h hmem
    obtain ⟨hk, hv'⟩ := checkMember_ok hc
    rw [hv] at hv'
    obtain rfl : w = n.2 := Except.ok.inj hv'
    rwa [show (k, n.2) = n from Prod.ext hk.symm rfl]

/-- Every member of an object that has a canonical form has one itself. -/
theorem sorted_member (h : sorted (.obj ms) = .ok w) (hm : (k, v) ∈ ms) :
    ∃ x, sorted v = .ok x := by
  obtain ⟨out, rfl, hf⟩ := sorted_obj h
  have hmem : (k, sorted v) ∈ (sortedMembers ms).insertionSort (fun a b => a.1 ≤ b.1) := by
    rw [mem_insertionSort, sortedMembers_eq, mem_map]
    exact ⟨(k, v), hm, rfl⟩
  obtain ⟨n, -, hc⟩ := exists_right_of_mem hf hmem
  exact ⟨n.2, (checkMember_ok hc).2⟩

theorem nodup_sorted {out : Members} (hk : (ms.map Prod.fst).Nodup)
    (h : Forall₂ (fun m n => checkMember m = .ok n)
      ((sortedMembers ms).insertionSort (fun a b => a.1 ≤ b.1)) out) :
    (out.map Prod.fst).Nodup := by
  have hkeys : out.map Prod.fst =
      ((sortedMembers ms).insertionSort (fun a b => a.1 ≤ b.1)).map Prod.fst := by
    generalize (sortedMembers ms).insertionSort (fun a b => a.1 ≤ b.1) = l at h
    induction h with
    | nil => rfl
    | cons hc _ ih => simp [(checkMember_ok hc).1, ih]
  rw [hkeys]
  have hperm := (perm_insertionSort (fun a b => a.1 ≤ b.1) (sortedMembers ms)).map Prod.fst
  rw [hperm.nodup_iff, sortedMembers_eq, map_map]
  exact hk

/-- Canonicalization acts on each member on its own. -/
theorem get?_sorted (hk : (ms.map Prod.fst).Nodup) (h : sorted (.obj ms) = .ok w) (k : String) :
    w.get? k = (ms.lookup k).bind (fun v => (sorted v).toOption) := by
  obtain ⟨out, rfl, hf⟩ := sorted_obj h
  have hout := nodup_sorted hk hf
  apply Option.ext
  intro x
  rw [Value.get?, lookup_eq_some_iff hout, mem_sorted hf, Option.bind_eq_some_iff]
  simp only [lookup_eq_some_iff hk]
  constructor
  · rintro ⟨v, hv, hs⟩
    exact ⟨v, hv, by simp [hs, Except.toOption]⟩
  · rintro ⟨v, hv, hs⟩
    refine ⟨v, hv, ?_⟩
    cases hx : sorted v with
    | error e => simp [hx, Except.toOption] at hs
    | ok y => simpa [hx, Except.toOption] using hs

theorem get?_sorted_eq_some (hk : (ms.map Prod.fst).Nodup) (h : sorted (.obj ms) = .ok w)
    {x : Value} : w.get? k = some x ↔ ∃ v, ms.lookup k = some v ∧ sorted v = .ok x := by
  rw [get?_sorted hk h, Option.bind_eq_some_iff]
  constructor
  · rintro ⟨v, hv, hx⟩
    refine ⟨v, hv, ?_⟩
    cases hs : sorted v with
    | error e => rw [hs] at hx; cases hx
    | ok y => rw [hs] at hx; cases hx; rfl
  · rintro ⟨v, hv, hx⟩
    exact ⟨v, hv, by rw [hx]; rfl⟩

/-- A text of the canonical object is the text of the object. -/
theorem get?_sorted_eq_str (hk : (ms.map Prod.fst).Nodup) (h : sorted (.obj ms) = .ok w)
    {s : String} : w.get? k = some (.str s) ↔ ms.lookup k = some (.str s) := by
  rw [get?_sorted_eq_some hk h]
  constructor
  · rintro ⟨v, hv, hs⟩
    cases v with
    | str t => cases hs; exact hv
    | num n => cases n <;> cases hs
    | arr vs =>
      obtain ⟨ws, hw, -⟩ := sorted_arr hs
      cases hw
    | obj ms =>
      obtain ⟨out, hw, -⟩ := sorted_obj hs
      cases hw
    | null => cases hs
    | bool b => cases hs
  · intro hv
    exact ⟨_, hv, rfl⟩

mutual

/-- Canonical values have no floats. -/
theorem integral_sorted : ∀ {v w : Value}, sorted v = .ok w → integral w
  | .null, w, h => by cases h; rfl
  | .bool b, w, h => by cases h; rfl
  | .num (.posInt n), w, h => by cases h; rfl
  | .num (.negInt n), w, h => by cases h; rfl
  | .num (.float f), w, h => by cases h
  | .str s, w, h => by cases h; rfl
  | .arr vs, w, h => by
    rw [sorted] at h
    cases hs : sortedItems vs with
    | error e => simp [hs, Except.map] at h
    | ok ws =>
      simp only [hs, Except.map, Except.ok.injEq] at h
      subst h
      exact integralItems_sorted hs
  | .obj ms, w, h => by
    obtain ⟨out, rfl, hf⟩ := sorted_obj h
    simp only [integral, integralMembers_iff]
    rintro ⟨k, x⟩ hx
    obtain ⟨v, hv, hs⟩ := (mem_sorted hf).mp hx
    exact integral_sorted_mem ms hv hs

theorem integralItems_sorted : ∀ {vs ws : List Value}, sortedItems vs = .ok ws → integralItems ws
  | [], ws, h => by cases h; rfl
  | v :: vs, ws, h => by
    rw [sortedItems] at h
    cases hv : sorted v with
    | error e => simp [hv, bind, Except.bind] at h
    | ok x =>
      cases hs : sortedItems vs with
      | error e => simp [hv, hs, bind, Except.bind] at h
      | ok xs =>
        simp only [hv, hs, bind, Except.bind, pure, Except.pure, Except.ok.injEq] at h
        subst h
        simp [integralItems, integral_sorted hv, integralItems_sorted hs]

theorem integral_sorted_mem : ∀ (ms : Members) {k : String} {v w : Value}, (k, v) ∈ ms →
    sorted v = .ok w → integral w
  | [], _, _, _, h, _ => by simp at h
  | (k', v') :: ms, k, v, w, h, hs => by
    rcases mem_cons.mp h with heq | h
    · obtain ⟨rfl, rfl⟩ := Prod.mk.inj heq
      exact integral_sorted hs
    · exact integral_sorted_mem ms h hs

end

mutual

/-- A value with floats has no canonical form. -/
theorem integral_of_sorted : ∀ {v w : Value}, sorted v = .ok w → integral v
  | .null, _, _ => rfl
  | .bool _, _, _ => rfl
  | .num (.posInt _), _, _ => rfl
  | .num (.negInt _), _, _ => rfl
  | .num (.float _), _, h => by cases h
  | .str _, _, _ => rfl
  | .arr vs, w, h => by
    rw [sorted] at h
    cases hs : sortedItems vs with
    | error e => rw [hs] at h; cases h
    | ok ws => exact integralItems_of_sorted hs
  | .obj ms, w, h => integralMembers_of_sorted ms (fun _ _ hm => sorted_member h hm)

theorem integralItems_of_sorted : ∀ {vs ws : List Value}, sortedItems vs = .ok ws →
    integralItems vs
  | [], _, _ => rfl
  | v :: vs, ws, h => by
    rw [sortedItems] at h
    cases hv : sorted v with
    | error e => rw [hv] at h; cases h
    | ok x =>
      cases hs : sortedItems vs with
      | error e => rw [hv, hs] at h; cases h
      | ok xs => simp [integralItems, integral_of_sorted hv, integralItems_of_sorted hs]

theorem integralMembers_of_sorted : ∀ (ms : Members),
    (∀ k v, (k, v) ∈ ms → ∃ x, sorted v = .ok x) → integralMembers ms
  | [], _ => rfl
  | (k, v) :: ms, h => by
    obtain ⟨x, hx⟩ := h k v (by simp)
    have hrest := integralMembers_of_sorted ms (fun k v hm => h k v (by simp [hm]))
    simp [integralMembers, integral_of_sorted hx, hrest]

end

theorem integral_of_jcsBytes (h : jcsBytes v = .ok b) : integral v := by
  unfold jcsBytes at h
  cases hs : sorted v with
  | error e => rw [hs] at h; cases h
  | ok w => exact integral_of_sorted hs

mutual

/-- No floats, and every member name is ASCII. -/
def canonical : Value → Bool
  | .num (.float _) => false
  | .arr vs => canonicalItems vs
  | .obj ms => canonicalMembers ms
  | _ => true

def canonicalItems : List Value → Bool
  | [] => true
  | v :: vs => canonical v && canonicalItems vs

def canonicalMembers : Members → Bool
  | [] => true
  | (k, v) :: ms => isAscii k && canonical v && canonicalMembers ms

end

theorem canonicalItems_iff {vs : List Value} : canonicalItems vs ↔ ∀ v ∈ vs, canonical v := by
  induction vs with
  | nil => simp [canonicalItems]
  | cons v vs ih => simp [canonicalItems, ih]

theorem canonicalMembers_iff : canonicalMembers ms ↔ ∀ m ∈ ms, isAscii m.1 ∧ canonical m.2 := by
  induction ms with
  | nil => simp [canonicalMembers]
  | cons m ms ih => simp [canonicalMembers, ih]

/-- An object has a canonical form when its members do. -/
theorem sorted_obj_ok (h : ∀ m ∈ ms, isAscii m.1 ∧ ∃ x, sorted m.2 = .ok x) :
    ∃ w, sorted (.obj ms) = .ok w := by
  have hall : ∀ m ∈ (sortedMembers ms).insertionSort (fun a b => a.1 ≤ b.1),
      ∃ n, checkMember m = .ok n := by
    intro m hm
    rw [mem_insertionSort, sortedMembers_eq, mem_map] at hm
    obtain ⟨m, hm, rfl⟩ := hm
    obtain ⟨ha, x, hx⟩ := h m hm
    exact ⟨(m.1, x), by simp [checkMember, ha, hx, Except.map]⟩
  rw [sorted]
  obtain ⟨out, hout⟩ := exists_mapM_ok hall
  exact ⟨.obj out, by rw [hout]; rfl⟩

mutual

theorem sorted_of_canonical : ∀ {v : Value}, canonical v → ∃ w, sorted v = .ok w
  | .null, _ => ⟨_, rfl⟩
  | .bool _, _ => ⟨_, rfl⟩
  | .num (.posInt _), _ => ⟨_, rfl⟩
  | .num (.negInt _), _ => ⟨_, rfl⟩
  | .num (.float _), h => by cases h
  | .str _, _ => ⟨_, rfl⟩
  | .arr vs, h => by
    obtain ⟨ws, hs⟩ := sortedItems_of_canonical h
    exact ⟨.arr ws, by rw [sorted, hs]; rfl⟩
  | .obj ms, h => sorted_obj_ok (sortedMembers_of_canonical ms h)

theorem sortedItems_of_canonical : ∀ {vs : List Value}, canonicalItems vs →
    ∃ ws, sortedItems vs = .ok ws
  | [], _ => ⟨[], rfl⟩
  | v :: vs, h => by
    rw [canonicalItems, Bool.and_eq_true] at h
    obtain ⟨w, hw⟩ := sorted_of_canonical h.1
    obtain ⟨ws, hs⟩ := sortedItems_of_canonical h.2
    exact ⟨w :: ws, by rw [sortedItems, hw, hs]; rfl⟩

theorem sortedMembers_of_canonical : ∀ (ms : Members), canonicalMembers ms →
    ∀ m ∈ ms, isAscii m.1 ∧ ∃ x, sorted m.2 = .ok x
  | [], _, _, hm => by cases hm
  | (k, v) :: ms, h, m, hm => by
    rw [canonicalMembers, Bool.and_eq_true, Bool.and_eq_true] at h
    rcases mem_cons.mp hm with rfl | hm
    · exact ⟨h.1.1, sorted_of_canonical h.1.2⟩
    · exact sortedMembers_of_canonical ms h.2 m hm

end

theorem jcsBytes_of_canonical (h : canonical v) : ∃ b, jcsBytes v = .ok b := by
  obtain ⟨w, hw⟩ := sorted_of_canonical h
  exact ⟨print w, by rw [jcsBytes, hw]; rfl⟩

theorem jcsBytes_ok (h : jcsBytes v = .ok b) : ∃ w, sorted v = .ok w ∧ b = print w := by
  unfold jcsBytes at h
  cases hs : sorted v with
  | error e => rw [hs] at h; cases h
  | ok w =>
    rw [hs] at h
    cases h
    exact ⟨w, rfl, rfl⟩

/-- Whoever reads canonical bytes reads the canonical value. -/
theorem sorted_of_parse (h : jcsBytes v = .ok b) {round : Bytes → Option FloatText} {limit : Nat}
    (hp : parse round limit b = some w) : sorted v = .ok w := by
  obtain ⟨w', hs, rfl⟩ := jcsBytes_ok h
  have hi := integral_sorted hs
  by_cases hd : depth w' ≤ limit
  · rw [parse_print round hd hi] at hp
    rwa [Option.some.inj hp] at hs
  · rw [parse_print_none round (Nat.lt_of_not_le hd) hi] at hp
    cases hp

/-- Canonical bytes determine the canonical value. -/
theorem sorted_of_jcsBytes {v' : Value} (h : jcsBytes v = .ok b) (h' : jcsBytes v' = .ok b) :
    ∃ w, sorted v = .ok w ∧ sorted v' = .ok w := by
  unfold jcsBytes at h h'
  cases hv : sorted v with
  | error e => simp [hv, Except.map] at h
  | ok w =>
    cases hv' : sorted v' with
    | error e => simp [hv', Except.map] at h'
    | ok w' =>
      simp only [hv, hv', Except.map, Except.ok.injEq] at h h'
      have := print_injective (integral_sorted hv) (integral_sorted hv') (h.trans h'.symm)
      exact ⟨w, rfl, by rw [this]⟩

end AciGateway.Digest
