import Mathlib.Logic.Basic

/-! Programs whose calls may fail, or never return because the process dies, and what holds of
them whatever happens. -/
namespace Faults

variable {κ σ α β : Type}

/-- What becomes of a call. A process that dies in a call dies before its effect. -/
inductive Fate where
  | goes
  | fails
  | crashes
  deriving DecidableEq

inductive Outcome (σ α : Type) where
  | ended (a : α) (s : σ)
  | crashed (s : σ)

/-- A program over the states `σ`, given the fates of its calls. -/
def Prog (κ σ α : Type) : Type := (κ → Fate) → σ → Outcome σ α

namespace Prog

instance : Monad (Prog κ σ) where
  pure a := fun _ s => .ended a s
  bind p f := fun F s =>
    match p F s with
    | .ended a s' => f a F s'
    | .crashed s' => .crashed s'

/-- A question about the state. -/
def get (f : σ → α) : Prog κ σ α := fun _ s => .ended (f s) s

/-- A call with its effect, and its result when it fails. -/
def call (c : κ) (failure : α) (act : σ → α × σ) : Prog κ σ α := fun F s =>
  match F c with
  | .goes => .ended (act s).1 (act s).2
  | .fails => .ended failure s
  | .crashes => .crashed s

def each (f : β → Prog κ σ Unit) : List β → Prog κ σ Unit
  | [] => pure ()
  | b :: bs => do
    f b
    each f bs

end Prog

/-- From the state `s` the program ends in `Q`, or dies in `X`. -/
def wp (F : κ → Fate) (p : Prog κ σ α) (Q : α → σ → Prop) (X : σ → Prop) (s : σ) : Prop :=
  match p F s with
  | .ended a s' => Q a s'
  | .crashed s' => X s'

variable {F : κ → Fate} {p : Prog κ σ α} {f : α → Prog κ σ β} {Q Q' : α → σ → Prop}
  {X X' : σ → Prop} {s : σ}

theorem wp_mono (h : wp F p Q X s) (hQ : ∀ a s', Q a s' → Q' a s') (hX : ∀ s', X s' → X' s') :
    wp F p Q' X' s := by
  unfold wp at h ⊢
  cases hp : p F s with
  | ended a s' => exact hQ a s' (by simpa [hp] using h)
  | crashed s' => exact hX s' (by simpa [hp] using h)

@[simp] theorem wp_pure (a : α) : wp F (pure a : Prog κ σ α) Q X s ↔ Q a s := Iff.rfl

@[simp] theorem wp_get (g : σ → α) : wp F (Prog.get g) Q X s ↔ Q (g s) s := Iff.rfl

@[simp] theorem wp_bind {Q : β → σ → Prop} :
    wp F (p >>= f) Q X s ↔ wp F p (fun a s' => wp F (f a) Q X s') X s := by
  unfold wp
  change (match (match p F s with
    | .ended a s' => f a F s'
    | .crashed s' => .crashed s') with
    | .ended a s' => Q a s'
    | .crashed s' => X s') ↔ _
  cases p F s <;> rfl

theorem wp_call {c : κ} {failure : α} {act : σ → α × σ}
    (hgoes : F c = .goes → Q (act s).1 (act s).2) (hfails : F c = .fails → Q failure s)
    (hcrashes : F c = .crashes → X s) : wp F (Prog.call c failure act) Q X s := by
  unfold wp Prog.call
  cases hc : F c with
  | goes => exact hgoes hc
  | fails => exact hfails hc
  | crashes => exact hcrashes hc

/-- A loop keeps an invariant in what it has gone through. -/
theorem wp_each {g : β → Prog κ σ Unit} {I : List β → σ → Prop} {bs : List β}
    (hstep : ∀ done b s, b ∈ bs → I done s → wp F (g b) (fun _ => I (done ++ [b])) X s)
    (h : I [] s) : wp F (Prog.each g bs) (fun _ => I bs) X s := by
  suffices hgen : ∀ done s, I done s →
      wp F (Prog.each g bs) (fun _ => I (done ++ bs)) X s from hgen [] s h
  induction bs with
  | nil =>
    intro done s hs
    simpa [Prog.each] using hs
  | cons b bs ih =>
    intro done s hs
    rw [Prog.each, wp_bind]
    refine wp_mono (hstep done b s (by simp) hs) ?_ (fun _ hx => hx)
    intro _ s' hs'
    have hrest := ih (fun done b s hb => hstep done b s (List.mem_cons_of_mem _ hb))
    simpa using hrest (done ++ [b]) s' hs'

end Faults
