import Mathlib.Tactic.NormNum

/-! Unsigned 64-bit numbers, and their arithmetic on naturals with the overflow behaviour
written out. -/

/-- A `u64`, as a bounded natural so that the order lemmas of linear orders apply. -/
abbrev U64 := Fin (2 ^ 64)

namespace U64

instance neZero : NeZero (2 ^ 64) := ⟨by decide⟩

variable {a b c : Nat}

def maxValue : Nat := 2 ^ 64 - 1

def saturatingAdd (a b : Nat) : Nat := min (a + b) maxValue

def absDiff (a b : Nat) : Nat := max a b - min a b

def checkedAdd (a b : Nat) : Option Nat := if a + b ≤ maxValue then some (a + b) else none

/-- Addition that stops at the largest number. -/
def satAdd (a b : U64) : U64 :=
  ⟨min (a.val + b.val) maxValue, lt_of_le_of_lt (Nat.min_le_right _ _) (by decide)⟩

/-- The next number, unless there is none. -/
def succ? (n : U64) : Option U64 := if h : n.val + 1 < 2 ^ 64 then some ⟨n.val + 1, h⟩ else none

theorem toNat_le (x : UInt64) : x.toNat ≤ maxValue := by
  have := x.toNat_lt
  unfold maxValue
  omega

theorem lt_saturatingAdd : c < saturatingAdd a b ↔ c < a + b ∧ c < maxValue := by
  simp [saturatingAdd]

theorem saturatingAdd_le : saturatingAdd a b ≤ maxValue := Nat.min_le_right _ _

theorem absDiff_le : absDiff a b ≤ c ↔ a ≤ b + c ∧ b ≤ a + c := by
  unfold absDiff
  omega

/-- The value of a decimal text: an optional plus sign, then digits. -/
def parse (s : String) : Option Nat :=
  let digits := match s.toList with
    | '+' :: rest => rest
    | cs => cs
  if digits ≠ [] ∧ digits.all Char.isDigit then
    let n := digits.foldl (fun acc c => 10 * acc + (c.toNat - 48)) 0
    if n ≤ maxValue then some n else none
  else none

theorem parse_le {s : String} (h : parse s = some a) : a ≤ maxValue := by
  unfold parse at h
  grind

end U64
