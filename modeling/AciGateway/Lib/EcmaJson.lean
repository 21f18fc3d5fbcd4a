import Mathlib

/-! JSON documents as the `JSON` object of ECMAScript reads and writes them. A document holds
the exact numbers of its text; a value of the language holds binary64 numbers. -/
namespace Ecma

open List

/-- A string of the language: UTF-16 code units. -/
abbrev JsString := List UInt16

instance lawfulBEqJsString : LawfulBEq JsString := List.instLawfulBEq

def js (s : String) : JsString := s.toList.map fun c => c.val.toUInt16

/-! Numbers. -/

/-- The quotient rounded to the nearest integer, ties to even. -/
def roundHalfEven (n d : Nat) : Nat :=
  let k := n / d
  let r := n % d
  if d < 2 * r ∨ (2 * r = d ∧ k % 2 = 1) then k + 1 else k

/-- `n / d` as a fraction in units of `2 ^ e`. -/
def scaled (n d : Nat) (e : Int) : Nat × Nat :=
  if 0 ≤ e then (n, d * 2 ^ e.toNat) else (n * 2 ^ (-e).toNat, d)

/-- The exponent of the last place of the binary64 number nearest to `n / d`. -/
def lastPlace (n d : Nat) : Int :=
  let e : Int := Nat.log2 n - Nat.log2 d - 53
  let f := scaled n d e
  max (if 2 ^ 53 ≤ f.1 / f.2 then e + 1 else e) (-1074)

/-- The nearest binary64 number, or nothing for an infinity. -/
def roundBinary64 (q : ℚ) : Option ℚ :=
  let e := lastPlace q.num.natAbs q.den
  let f := scaled q.num.natAbs q.den e
  let m := roundHalfEven f.1 f.2
  let v : ℚ := if 0 ≤ e then (m * 2 ^ e.toNat : Nat) else mkRat m (2 ^ (-e).toNat)
  if 2 ^ 1024 ≤ v then none else some (if q.num < 0 then -v else v)

/-- `s * 10 ^ p`. -/
def decimal (s : Nat) (p : Int) : ℚ :=
  if 0 ≤ p then (s * 10 ^ p.toNat : Nat) else mkRat s (10 ^ (-p).toNat)

/-- The largest `t` with `10 ^ t ≤ v`. -/
def decimalPlace (v : ℚ) : Int :=
  let t : Int := (Nat.toDigits 10 v.num.natAbs).length - (Nat.toDigits 10 v.den).length
  if decimal 1 t ≤ v then t else t - 1

/-- The decimal in units of `10 ^ p` that reads as `v`, the closer one if there are two. -/
def digitsAt (v : ℚ) (p : Int) : Option ℚ :=
  let s := (v / decimal 1 p).floor.toNat
  let below := decimal s p
  let above := decimal (s + 1) p
  if roundBinary64 below = some v then
    if roundBinary64 above = some v ∧
        (above - v < v - below ∨ (above - v = v - below ∧ s % 2 = 1)) then some above
    else some below
  else if roundBinary64 above = some v then some above
  else none

/-- The decimal with the fewest digits that reads as a binary64 number. -/
def shortest (v : ℚ) : ℚ :=
  if v = 0 then 0
  else
    let a := if v < 0 then -v else v
    let digits := ((List.range 17).findSome? fun k => digitsAt a (decimalPlace a - k)).getD a
    if v < 0 then -digits else digits

/-! Documents and values. -/

inductive Tree (ν : Type) where
  | null
  | bool (b : Bool)
  | num (n : ν)
  | str (s : JsString)
  | arr (items : List (Tree ν))
  | obj (members : List (JsString × Tree ν))

/-- The exact document of a text. -/
abbrev Doc := Tree ℚ

/-- A value of the language; a number without a rational is an infinity. -/
abbrev JsValue := Tree (Option ℚ)

variable {α β ν : Type} (ds : List Doc)

/-- The members of one name, in order. -/
def named (k : JsString) (ms : List (JsString × α)) : List α := (ms.filter (·.1 = k)).map (·.2)

/-- Give a property its value: in place, or after the others. -/
def setMember (ms : List (JsString × α)) (k : JsString) (v : α) : List (JsString × α) :=
  if k ∈ ms.map (·.1) then ms.map fun m => if m.1 = k then (k, v) else m else ms ++ [(k, v)]

/-- The properties that members leave when each is set in turn. -/
def assign (ms : List (JsString × α)) : List (JsString × α) :=
  ms.foldl (fun acc m => setMember acc m.1 m.2) []

/-- The number a property name denotes when it is an array index. -/
def arrayIndex (k : JsString) : Option Nat :=
  if k ≠ [] ∧ (∀ c ∈ k, 48 ≤ c ∧ c ≤ 57) ∧ (k.head? = some 48 → k.length = 1) then
    let n := k.foldl (fun acc c => 10 * acc + (c.toNat - 48)) 0
    if n < 2 ^ 32 - 1 then some n else none
  else none

/-- The order of own properties: array indices ascending, then the others as created. -/
def ownOrder (ms : List (JsString × α)) : List (JsString × α) :=
  (ms.filter fun m => (arrayIndex m.1).isSome).mergeSort
      (fun a b => (arrayIndex a.1).getD 0 ≤ (arrayIndex b.1).getD 0) ++
    ms.filter fun m => (arrayIndex m.1).isNone

mutual

/-- `JSON.parse`, after the text has been read. -/
def parse : Doc → JsValue
  | .null => .null
  | .bool b => .bool b
  | .num q => .num (roundBinary64 q)
  | .str s => .str s
  | .arr items => .arr (parseItems items)
  | .obj ms => .obj (ownOrder (assign (parseMembers ms)))

def parseItems : List Doc → List JsValue
  | [] => []
  | d :: ds => parse d :: parseItems ds

def parseMembers : List (JsString × Doc) → List (JsString × JsValue)
  | [] => []
  | (k, d) :: ms => (k, parse d) :: parseMembers ms

end

mutual

/-- `JSON.stringify`, as the document of the text it gives. -/
def stringify : JsValue → Doc
  | .null => .null
  | .bool b => .bool b
  | .num none => .null
  | .num (some v) => .num (shortest v)
  | .str s => .str s
  | .arr items => .arr (stringifyItems items)
  | .obj ms => .obj (stringifyMembers ms)

def stringifyItems : List JsValue → List Doc
  | [] => []
  | v :: vs => stringify v :: stringifyItems vs

def stringifyMembers : List (JsString × JsValue) → List (JsString × Doc)
  | [] => []
  | (k, v) :: ms => (k, stringify v) :: stringifyMembers ms

end

/-- The member of a name; of several the last. -/
def Tree.get? (k : JsString) : Tree ν → Option (Tree ν)
  | .obj ms => (named k ms).getLast?
  | _ => none

/-! The value at a path. -/

inductive Step where
  | key (k : JsString)
  | index (i : Nat)
  deriving DecidableEq

/-- What stands at a path, apart from what it contains. -/
inductive Shape where
  | null
  | bool (b : Bool)
  | num (q : ℚ)
  | str (s : JsString)
  | arr (length : Nat)
  | obj
  deriving DecidableEq

def Tree.shape : Doc → Shape
  | .null => .null
  | .bool b => .bool b
  | .num q => .num q
  | .str s => .str s
  | .arr items => .arr items.length
  | .obj _ => .obj

/-- Everything a document has at a path. The order of members is no part of its value. -/
def Tree.look : List Step → Doc → List Shape
  | [], d => [d.shape]
  | .key k :: p, .obj ms => (named k ms).flatMap (Tree.look p)
  | .index i :: p, .arr items => items[i]?.toList.flatMap (Tree.look p)
  | _ :: _, _ => []

mutual

/-- Every number is read and printed without loss, and no name occurs twice. -/
def survives : Doc → Bool
  | .num q => (roundBinary64 q).map shortest = some q
  | .arr items => survivesItems items
  | .obj ms => (ms.map (·.1)).Nodup && survivesMembers ms
  | _ => true

def survivesItems : List Doc → Bool
  | [] => true
  | d :: ds => survives d && survivesItems ds

def survivesMembers : List (JsString × Doc) → Bool
  | [] => true
  | (_, d) :: ms => survives d && survivesMembers ms

end

/-! Properties by name. -/

section Names

variable {k k' : JsString} {v : α} {ms : List (JsString × α)}

@[simp] theorem named_nil : named k ([] : List (JsString × α)) = [] := rfl

@[simp] theorem named_append (ns : List (JsString × α)) :
    named k (ms ++ ns) = named k ms ++ named k ns := by
  simp [named]

theorem named_cons (m : JsString × α) :
    named k (m :: ms) = if m.1 = k then m.2 :: named k ms else named k ms := by
  by_cases h : m.1 = k <;> simp [named, h]

theorem mem_named : v ∈ named k ms ↔ (k, v) ∈ ms := by
  simp [named]

theorem named_eq_nil : named k ms = [] ↔ k ∉ ms.map (·.1) := by
  simp only [eq_nil_iff_forall_not_mem, mem_named, mem_map, not_exists, not_and]
  constructor
  · rintro h ⟨a, v⟩ hmem rfl
    exact h v hmem
  · exact fun h v hmem => h (k, v) hmem rfl

theorem named_replace :
    named k (ms.map fun m => if m.1 = k' then (k', v) else m) =
      if k = k' then (named k ms).map fun _ => v else named k ms := by
  induction ms with
  | nil => simp
  | cons m ms ih =>
    rw [map_cons, named_cons, named_cons, ih]
    by_cases hk : k = k'
    · subst hk
      by_cases hm : m.1 = k <;> simp [hm]
    · by_cases hm : m.1 = k'
      · simp [hm, hk, Ne.symm hk]
      · simp [hm, hk]

theorem named_setMember_of_ne (h : k ≠ k') : named k (setMember ms k' v) = named k ms := by
  unfold setMember
  split
  · rw [named_replace, if_neg h]
  · simp [named_cons, Ne.symm h]

theorem named_setMember_self (h : (named k ms).length ≤ 1) : named k (setMember ms k v) = [v] := by
  unfold setMember
  split
  · next hmem =>
    rw [named_replace, if_pos rfl]
    have hne : named k ms ≠ [] := fun he => named_eq_nil.mp he hmem
    obtain ⟨w, hw⟩ := length_eq_one_iff.mp (le_antisymm h (length_pos_iff.mpr hne))
    rw [hw, map_singleton]
  · next hmem =>
    rw [named_append, named_eq_nil.mpr hmem]
    simp [named_cons]

theorem named_assign (ms : List (JsString × α)) :
    named k (assign ms) = (named k ms).getLast?.toList := by
  induction ms using reverseRecOn with
  | nil => rfl
  | append_singleton ms m ih =>
    have hstep : assign (ms ++ [m]) = setMember (assign ms) m.1 m.2 := by simp [assign]
    rw [hstep, named_append, named_cons, named_nil]
    by_cases h : m.1 = k
    · subst h
      rw [named_setMember_self (by rw [ih]; cases (named m.1 ms).getLast? <;> simp)]
      simp
    · rw [named_setMember_of_ne (Ne.symm h), ih]
      simp [h]

/-- Reordering leaves each name its one value. -/
theorem named_ownOrder (h : (named k ms).length ≤ 1) : named k (ownOrder ms) = named k ms := by
  have hsplit := filter_append_perm (fun m : JsString × α => (arrayIndex m.1).isSome) ms
  have hperm : (ownOrder ms).Perm ms := by
    refine (Perm.append (mergeSort_perm _ _) ?_).trans hsplit
    simp
  have hnamed : (named k (ownOrder ms)).Perm (named k ms) := (hperm.filter _).map _
  rcases Nat.le_one_iff_eq_zero_or_eq_one.mp h with h | h
  · rw [length_eq_zero_iff] at h
    rw [h] at hnamed ⊢
    exact hnamed.eq_nil
  · obtain ⟨v, hv⟩ := length_eq_one_iff.mp h
    rw [hv] at hnamed ⊢
    exact perm_singleton.mp hnamed

end Names

/-! Through the language and back. -/

/-- Induction over a tree: a container may use what holds of its items or members. -/
@[elab_as_elim]
theorem Tree.ind {motive : Tree ν → Prop} (null : motive .null) (bool : ∀ b, motive (.bool b))
    (num : ∀ n, motive (.num n)) (str : ∀ s, motive (.str s))
    (arr : ∀ items, (∀ d ∈ items, motive d) → motive (.arr items))
    (obj : ∀ ms, (∀ m ∈ ms, motive m.2) → motive (.obj ms)) (d : Tree ν) : motive d :=
  @Tree.rec ν motive (fun ds => ∀ d ∈ ds, motive d) (fun ms => ∀ m ∈ ms, motive m.2)
    (fun m => motive m.2) null bool num str arr obj
    (by simp) (fun d ds hd hds => forall_mem_cons.mpr ⟨hd, hds⟩)
    (by simp) (fun m ms hm hms => forall_mem_cons.mpr ⟨hm, hms⟩) (fun _ _ hv => hv) d

theorem parseItems_eq : parseItems ds = ds.map parse := by
  induction ds with
  | nil => rfl
  | cons d ds ih => rw [parseItems, ih, map_cons]

theorem stringifyItems_eq (vs : List JsValue) : stringifyItems vs = vs.map stringify := by
  induction vs with
  | nil => rfl
  | cons v vs ih => rw [stringifyItems, ih, map_cons]

theorem named_parseMembers (k : JsString) (ms : List (JsString × Doc)) :
    named k (parseMembers ms) = (named k ms).map parse := by
  induction ms with
  | nil => rfl
  | cons m ms ih =>
    rw [parseMembers, named_cons, named_cons, ih]
    by_cases h : m.1 = k <;> simp [h]

theorem named_stringifyMembers (k : JsString) (ms : List (JsString × JsValue)) :
    named k (stringifyMembers ms) = (named k ms).map stringify := by
  induction ms with
  | nil => rfl
  | cons m ms ih =>
    rw [stringifyMembers, named_cons, named_cons, ih]
    by_cases h : m.1 = k <;> simp [h]

/-- The properties an object of the text becomes. -/
theorem named_parsed (k : JsString) (ms : List (JsString × Doc)) :
    named k (ownOrder (assign (parseMembers ms))) = ((named k ms).getLast?.map parse).toList := by
  have hlast : named k (assign (parseMembers ms)) = ((named k ms).getLast?.map parse).toList := by
    rw [named_assign, named_parseMembers, getLast?_map]
  rw [named_ownOrder, hlast]
  rw [hlast]
  cases (named k ms).getLast? <;> simp

open Ecma.Tree (look get?)

theorem get?_parse (k : JsString) (d : Doc) : (parse d).get? k = (d.get? k).map parse := by
  cases d with
  | obj ms =>
    rw [parse, get?, get?, named_parsed]
    cases (named k ms).getLast? <;> rfl
  | _ => simp [parse, get?]

theorem get?_stringify (k : JsString) (v : JsValue) :
    (stringify v).get? k = (v.get? k).map stringify := by
  cases v with
  | obj ms => rw [stringify, get?, get?, named_stringifyMembers, getLast?_map]
  | num n => cases n <;> simp [stringify, get?]
  | _ => simp [stringify, get?]

theorem get?_setMember (k k' : JsString) (v : Tree ν) (ms : List (JsString × Tree ν)) :
    (Tree.obj (setMember ms k' v)).get? k = if k = k' then some v else (Tree.obj ms).get? k := by
  rw [get?, get?]
  by_cases h : k = k'
  · subst h
    rw [if_pos rfl]
    unfold setMember
    split
    · next hmem =>
      have hne : named k ms ≠ [] := fun he => named_eq_nil.mp he hmem
      rw [named_replace, if_pos rfl, getLast?_map, getLast?_eq_some_getLast hne]
      rfl
    · simp [named_cons]
  · rw [if_neg h, named_setMember_of_ne h]

theorem survivesItems_iff : survivesItems ds ↔ ∀ d ∈ ds, survives d := by
  induction ds with
  | nil => simp [survivesItems]
  | cons d ds ih => simp [survivesItems, ih]

theorem survivesMembers_iff (ms : List (JsString × Doc)) :
    survivesMembers ms ↔ ∀ m ∈ ms, survives m.2 := by
  induction ms with
  | nil => simp [survivesMembers]
  | cons m ms ih => simp [survivesMembers, ih]

theorem nodup_names_iff (ms : List (JsString × α)) :
    (ms.map (·.1)).Nodup ↔ ∀ k, (named k ms).length ≤ 1 := by
  have hcount (k : JsString) : (named k ms).length = (ms.map (·.1)).count k := by
    induction ms with
    | nil => rfl
    | cons m ms ih =>
      rw [named_cons, map_cons, count_cons]
      by_cases h : m.1 = k <;> simp [h, ih]
  simp only [hcount]
  exact nodup_iff_count_le_one

theorem length_look_key (k : JsString) (ms : List (JsString × Doc)) :
    (look [.key k] (.obj ms)).length = (named k ms).length := by
  simp [look]

/-- What an object has under a name after it went through the language. -/
theorem named_reprinted (k : JsString) (ms : List (JsString × Doc)) :
    named k (stringifyMembers (ownOrder (assign (parseMembers ms)))) =
      ((named k ms).getLast?.map fun d => stringify (parse d)).toList := by
  rw [named_stringifyMembers, named_parsed]
  cases (named k ms).getLast? <;> rfl

theorem look_num_iff (q : ℚ) :
    (∀ p, (stringify (parse (.num q))).look p = look p (.num q)) ↔ survives (.num q) := by
  simp only [survives, decide_eq_true_eq, parse]
  cases hr : roundBinary64 q with
  | none =>
    refine iff_of_false (fun h => ?_) (by simp)
    have := h []
    simp [stringify, look, Tree.shape] at this
  | some v =>
    rw [Option.map_some, Option.some.injEq, stringify]
    constructor
    · intro h
      have := h []
      simpa [look, Tree.shape] using this
    · rintro rfl p
      rfl

theorem look_arr_iff {items : List Doc}
    (ih : ∀ d ∈ items, (∀ p, (stringify (parse d)).look p = d.look p) ↔ survives d) :
    (∀ p, (stringify (parse (.arr items))).look p = look p (.arr items)) ↔
      survives (.arr items) := by
  rw [survives, survivesItems_iff, parse, stringify, parseItems_eq, stringifyItems_eq, map_map]
  constructor
  · intro h d hd
    obtain ⟨i, hi⟩ := mem_iff_getElem?.mp hd
    refine (ih d hd).mp fun p => ?_
    have := h (.index i :: p)
    simpa [look, hi] using this
  · intro h p
    cases p with
    | nil => simp [look, Tree.shape]
    | cons step p =>
      cases step with
      | key k => rfl
      | index i =>
        cases hi : items[i]? with
        | none => simp [look, hi]
        | some d =>
          have hd : d ∈ items := mem_iff_getElem?.mpr ⟨i, hi⟩
          have := (ih d hd).mpr (h d hd) p
          simpa [look, hi] using this

theorem look_obj_iff {ms : List (JsString × Doc)} {P : JsString → Prop}
    (ih : ∀ m ∈ ms, (∀ p, (stringify (parse m.2)).look p = m.2.look p) ↔ survives m.2)
    (ns : List (JsString × Doc)) (hns : ∀ k, P k →
      named k ns = ((named k ms).getLast?.map fun d => stringify (parse d)).toList) :
    (∀ k p, P k → look (.key k :: p) (.obj ns) = look (.key k :: p) (.obj ms)) ↔
      ∀ k, P k → (named k ms).length ≤ 1 ∧ ∀ d ∈ named k ms, survives d := by
  constructor
  · intro h k hk
    have hlen : (named k ms).length ≤ 1 := by
      rw [← length_look_key, ← h k [] hk, length_look_key, hns k hk]
      cases (named k ms).getLast? <;> simp
    refine ⟨hlen, fun d hd => (ih (k, d) (mem_named.mp hd)).mp fun p => ?_⟩
    have hone : named k ms = [d] := by
      obtain ⟨d', hd'⟩ := length_eq_one_iff.mp (le_antisymm hlen (length_pos_of_mem hd))
      rw [hd', mem_singleton] at hd
      rw [hd', hd]
    have := h k p hk
    simpa [look, hns k hk, hone] using this
  · intro h k p hk
    obtain ⟨hlen, hsur⟩ := h k hk
    rcases Nat.le_one_iff_eq_zero_or_eq_one.mp hlen with hz | ho
    · rw [length_eq_zero_iff] at hz
      simp [look, hns k hk, hz]
    · obtain ⟨d, hd⟩ := length_eq_one_iff.mp ho
      have hmem : d ∈ named k ms := by simp [hd]
      have := (ih (k, d) (mem_named.mp hmem)).mpr (hsur d hmem) p
      simpa [look, hns k hk, hd] using this

/-- A document has kept its value at every path exactly when it survives. -/
theorem look_stringify_parse_iff (d : Doc) :
    (∀ p, (stringify (parse d)).look p = d.look p) ↔ survives d := by
  induction d using Tree.ind with
  | null => simp [parse, stringify, survives]
  | bool b => simp [parse, stringify, survives]
  | str s => simp [parse, stringify, survives]
  | num q => exact look_num_iff q
  | arr items ih => exact look_arr_iff ih
  | obj ms ih =>
    have hobj := look_obj_iff (P := fun _ => True) ih _ fun k _ => named_reprinted k ms
    have hsur : survives (.obj ms) ↔
        ∀ k, True → (named k ms).length ≤ 1 ∧ ∀ d ∈ named k ms, survives d := by
      rw [survives, Bool.and_eq_true, decide_eq_true_eq, nodup_names_iff, survivesMembers_iff]
      constructor
      · exact fun h k _ => ⟨h.1 k, fun d hd => h.2 (k, d) (mem_named.mp hd)⟩
      · exact fun h => ⟨fun k => (h k trivial).1,
          fun m hm => (h m.1 trivial).2 m.2 (mem_named.mpr hm)⟩
    rw [hsur, ← hobj]
    constructor
    · exact fun h k p _ => h (.key k :: p)
    · intro h p
      cases p with
      | nil => rfl
      | cons step p =>
        cases step with
        | key k => exact h k p trivial
        | index i => rfl

end Ecma
