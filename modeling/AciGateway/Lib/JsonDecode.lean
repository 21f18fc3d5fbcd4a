import AciGateway.Lib.JsonMap
import AciGateway.Lib.JsonParse

/-! Reading records out of JSON objects, as derived deserializers do: a known member must
not occur twice, an unknown one is ignored, and an optional one may be absent or `null`. -/
namespace Json

open Octets

variable {α : Type} {k k' : String} {v : Value} {ms ms' : Members} {decode : Value → Option α}

/-- The member under `k`: `none` if it occurs twice, `some none` if it does not occur. -/
def member? (k : String) (ms : Members) : Option (Option Value) :=
  match ms.filter (fun m => m.1 = k) with
  | [] => some none
  | [m] => some (some m.2)
  | _ => none

def required (k : String) (decode : Value → Option α) (ms : Members) : Option α := do
  let v ← (← member? k ms)
  decode v

def nullable (decode : Value → Option α) : Value → Option (Option α)
  | .null => some none
  | v => (decode v).map some

def optionalMember (k : String) (decode : Value → Option α) (ms : Members) :
    Option (Option α) := do
  match ← member? k ms with
  | none => some none
  | some v => nullable decode v

/-- A member that is written only when it has a value. -/
def ifSome (k : String) (encode : α → Value) : Option α → Members
  | none => []
  | some a => [(k, encode a)]

def decodeObj (decode : Members → Option α) : Value → Option α
  | .obj ms => decode ms
  | _ => none

def decodeList (decode : Value → Option α) : Value → Option (List α)
  | .arr vs => vs.mapM decode
  | _ => none

def decodeString : Value → Option String
  | .str s => some s
  | _ => none

def encodeU64 (n : U64) : Value := .num (.posInt n)

def decodeU64 : Value → Option U64
  | .num (.posInt n) => some n
  | _ => none

def encodeU32 (n : UInt32) : Value := .num (.posInt ⟨n.toNat, by have := n.toNat_lt; omega⟩)

def decodeU32 : Value → Option UInt32
  | .num (.posInt n) => if h : n.val < 2 ^ 32 then some (UInt32.ofNatLT n.val h) else none
  | _ => none

@[simp] theorem decodeString_str (s : String) : decodeString (.str s) = some s := rfl

@[simp] theorem decodeU64_encodeU64 (n : U64) : decodeU64 (encodeU64 n) = some n := rfl

@[simp] theorem decodeU32_encodeU32 (n : UInt32) : decodeU32 (encodeU32 n) = some n := by
  simp [decodeU32, encodeU32, n.toNat_lt]

@[simp] theorem nullable_null (decode : Value → Option α) :
    nullable decode .null = some none := rfl

@[simp] theorem nullable_str (decode : Value → Option α) (s : String) :
    nullable decode (.str s) = (decode (.str s)).map some := rfl

@[simp] theorem nullable_num (decode : Value → Option α) (n : Number) :
    nullable decode (.num n) = (decode (.num n)).map some := rfl

@[simp] theorem decodeObj_obj (decode : Members → Option α) :
    decodeObj decode (.obj ms) = decode ms := rfl

theorem decodeList_map {encode : α → Value} (h : ∀ a, decode (encode a) = some a) (as : List α) :
    decodeList decode (.arr (as.map encode)) = some as := by
  simp only [decodeList]
  induction as with
  | nil => rfl
  | cons a as ih => simp [h, ih]

@[simp] theorem filter_ifSome (encode : α → Value) (a : Option α) :
    (ifSome k' encode a).filter (fun m => decide (m.1 = k)) =
      if k' = k then ifSome k' encode a else [] := by
  cases a <;> by_cases h : k' = k <;> simp [ifSome, h]

theorem lookup_eq_head_filter :
    ms.lookup k = (ms.filter (fun m => m.1 = k)).head?.map Prod.snd := by
  induction ms with
  | nil => rfl
  | cons m ms ih =>
    rw [lookup_cons_eq]
    by_cases hm : m.1 = k
    · simp [hm]
    · rw [if_neg (Ne.symm hm), ih, List.filter_cons_of_neg (by simpa using hm)]

theorem lookup_of_member? {found : Option Value} (h : member? k ms = some found) :
    ms.lookup k = found := by
  rw [lookup_eq_head_filter]
  unfold member? at h
  generalize ms.filter (fun m => m.1 = k) = l at h
  match l, h with
  | [], h => exact Option.some.inj h
  | [m], h => exact Option.some.inj h

theorem lookup_of_required {a : α}
    (h : required k decode ms = some a) : (ms.lookup k).bind decode = some a := by
  obtain ⟨found, hfound, h⟩ := Option.bind_eq_some_iff.mp h
  rw [lookup_of_member? hfound]
  exact h

theorem lookup_of_optionalMember {a : Option α} (h : optionalMember k decode ms = some a) :
    nullable decode ((ms.lookup k).getD .null) = some a := by
  obtain ⟨found, hfound, h⟩ := Option.bind_eq_some_iff.mp h
  rw [lookup_of_member? hfound]
  cases found <;> exact h

theorem member?_of_perm
    (h : (ms.filter (fun m => m.1 = k)).Perm (ms'.filter (fun m => m.1 = k))) :
    member? k ms = member? k ms' := by
  unfold member?
  generalize ms.filter (fun m => m.1 = k) = l at h
  generalize ms'.filter (fun m => m.1 = k) = l' at h
  match l, h with
  | [], h => rw [List.nil_perm.mp h]
  | [m], h => rw [List.singleton_perm.mp h]
  | a :: b :: l, h =>
    match l', h.length_eq with
    | _ :: _ :: _, _ => rfl

/-- Removing another member changes nothing for `k`. -/
theorem member?_swapRemove (h : k ≠ k') : member? k (swapRemove k' ms) = member? k ms := by
  refine member?_of_perm ((swapRemove_perm_eraseP.filter _).trans (.of_eq ?_))
  induction ms with
  | nil => rfl
  | cons m ms ih =>
    by_cases hm : m.1 = k'
    · rw [List.eraseP_cons_of_pos (by simpa using hm),
        List.filter_cons_of_neg (by simpa [hm] using h.symm)]
    · rw [List.eraseP_cons_of_neg (by simpa using hm), List.filter_cons, List.filter_cons, ih]

end Json
