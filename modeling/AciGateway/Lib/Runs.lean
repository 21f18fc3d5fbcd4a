import Mathlib.Logic.Relation

/-! Invariants along the runs of a step relation. -/
namespace Runs

open Relation

variable {S : Type} {Step : S → S → Prop} {P H : S → Prop} {s₀ s : S}

/-- An invariant may lean on an assumption about the state reached, when the assumption
passes back to earlier states. -/
theorem invariant_under (hback : ∀ {a b}, Step a b → H b → H a)
    (hstep : ∀ {a b}, Step a b → H b → P a → P b) (h : ReflTransGen Step s₀ s)
    (hinit : H s₀ → P s₀) : H s → P s := by
  induction h with
  | refl => exact hinit
  | tail _ hs ih =>
    intro hb
    exact hstep hs hb (ih (hback hs hb))

theorem invariant (hstep : ∀ {a b}, Step a b → P a → P b) (h : ReflTransGen Step s₀ s)
    (hinit : P s₀) : P s :=
  invariant_under (H := fun _ => True) (fun _ _ => trivial) (fun hs _ hp => hstep hs hp) h
    (fun _ => hinit) trivial

end Runs
