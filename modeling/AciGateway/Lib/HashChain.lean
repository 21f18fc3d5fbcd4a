import Mathlib.Data.List.Induction
import Mathlib.Tactic.NormNum

/-! Hash chains: a register that absorbs one string after another. Collision freeness is
relative to the strings that are hashed, since no hash with a fixed output length is
injective on all strings. -/
namespace HashChain

variable {α : Type*} {H : List α → List α} {S : Set (List α)} {n : Nat} {z : List α}
  {xs ys : List (List α)}

/-- `H` behaves as an ideal hash on `S`: outputs of length `n`, no two strings of `S` with
the same output, and no string of `S` whose output is the initial register. -/
structure Ideal (H : List α → List α) (S : Set (List α)) (n : Nat) (z : List α) : Prop where
  length_out : ∀ x, (H x).length = n
  length_init : z.length = n
  injOn : Set.InjOn H S
  fresh : ∀ x ∈ S, H x ≠ z

/-- The register after absorbing `xs`. -/
def chain (H : List α → List α) (z : List α) (xs : List (List α)) : List α :=
  xs.foldl (fun r x => H (r ++ x)) z

/-- The strings hashed while absorbing `xs`. -/
def inputs (H : List α → List α) : List α → List (List α) → List (List α)
  | _, [] => []
  | r, x :: xs => (r ++ x) :: inputs H (H (r ++ x)) xs

@[simp] theorem chain_nil : chain H z [] = z := rfl

@[simp] theorem chain_append_singleton (x : List α) :
    chain H z (xs ++ [x]) = H (chain H z xs ++ x) := by
  simp [chain]

@[simp] theorem inputs_append_singleton (x : List α) :
    inputs H z (xs ++ [x]) = inputs H z xs ++ [chain H z xs ++ x] := by
  induction xs generalizing z with
  | nil => simp [inputs]
  | cons y ys ih => simp [inputs, chain, ih]

theorem length_chain (hH : ∀ x, (H x).length = n) (hz : z.length = n) :
    (chain H z xs).length = n := by
  induction xs using List.reverseRecOn with
  | nil => exact hz
  | append_singleton xs x _ => simp [hH]

/-- A register reached from its initial value determines the strings it absorbed. -/
theorem chain_injective (hI : Ideal H S n z) (hx : ∀ s ∈ inputs H z xs, s ∈ S)
    (hy : ∀ s ∈ inputs H z ys, s ∈ S) (h : chain H z xs = chain H z ys) : xs = ys := by
  induction xs using List.reverseRecOn generalizing ys with
  | nil =>
    induction ys using List.reverseRecOn with
    | nil => rfl
    | append_singleton ys y _ =>
      simp only [chain_nil, chain_append_singleton] at h
      exact absurd h.symm (hI.fresh _ (hy _ (by simp)))
  | append_singleton xs x ih =>
    induction ys using List.reverseRecOn with
    | nil =>
      simp only [chain_nil, chain_append_singleton] at h
      exact absurd h (hI.fresh _ (hx _ (by simp)))
    | append_singleton ys y _ =>
      simp only [chain_append_singleton] at h
      have he := hI.injOn (hx _ (by simp)) (hy _ (by simp)) h
      obtain ⟨hr, rfl⟩ := List.append_inj he (by
        rw [length_chain hI.length_out hI.length_init, length_chain hI.length_out hI.length_init])
      have hs : xs = ys := by
        apply ih _ _ hr
        · intro s hs; exact hx s (by simp [hs])
        · intro s hs; exact hy s (by simp [hs])
      rw [hs]

end HashChain
