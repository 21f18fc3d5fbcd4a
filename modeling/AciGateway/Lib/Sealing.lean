import Mathlib.Data.List.Basic

/-! Authenticated encryption with associated data, taken as ideal. -/
namespace Sealing

variable {K A P C : Type}

/-- A ciphertext opens to what was sealed, and under no other key or associated data.
`Sealed k a p c` says that a party sealed `p` under `k` and `a` as `c`; sealing is randomized,
so one plaintext has many ciphertexts. -/
structure Ideal (decrypt : K → C → A → Option P) (Sealed : K → A → P → C → Prop) : Prop where
  opens : ∀ {k a p c}, Sealed k a p c → decrypt k c a = some p
  only : ∀ {k a p c k' a' p'}, Sealed k a p c → decrypt k' c a' = some p' → k' = k ∧ a' = a

end Sealing
