import Mathlib.Data.List.Basic
import Mathlib.Algebra.GroupWithZero.Nat

universe u v

/-- How a call ends: it returns, it stays in a loop that has no exit, or it does
what the language leaves undefined, as when it touches memory outside the
objects it was handed; after that nothing is known. -/
inductive Exec (α : Type u) where
  | returns (a : α)
  | spins
  | outOfBounds
  deriving DecidableEq, Repr

namespace Exec
variable {α : Type u} {β : Type u}

protected def bind (x : Exec α) (f : α → Exec β) : Exec β :=
  match x with
  | returns a => f a
  | spins => spins
  | outOfBounds => outOfBounds

instance : Monad Exec where
  pure := returns
  bind := Exec.bind

@[simp] theorem pure_eq (a : α) : (pure a : Exec α) = returns a := rfl

@[simp] theorem returns_bind (a : α) (f : α → Exec β) : (returns a >>= f) = f a := rfl

@[simp] theorem spins_bind (f : α → Exec β) : (spins >>= f) = spins := rfl

@[simp] theorem outOfBounds_bind (f : α → Exec β) : (outOfBounds >>= f) = outOfBounds := rfl

theorem bind_assoc {γ : Type u} (x : Exec α) (f : α → Exec β) (g : β → Exec γ) :
    (x >>= f >>= g) = x >>= fun a => f a >>= g := by
  cases x <;> rfl

theorem bind_eq_returns {x : Exec α} {f : α → Exec β} {b : β} :
    (x >>= f) = returns b ↔ ∃ a, x = returns a ∧ f a = returns b := by
  cases x <;> simp

theorem map_eq_returns {f : α → β} {x : Exec α} {b : β} :
    f <$> x = returns b ↔ ∃ a, x = returns a ∧ f a = b := by
  show (x >>= fun a => returns (f a)) = returns b ↔ _
  simp [bind_eq_returns]

/-- One event after another; a run stops at the first that does not return. -/
def run {ε : Type v} (step : α → ε → Exec α) : α → List ε → Exec α
  | a, [] => returns a
  | a, e :: es => step a e >>= fun a => run step a es

theorem run_append {ε : Type v} (step : α → ε → Exec α) (a : α) (es fs : List ε) :
    run step a (es ++ fs) = run step a es >>= fun b => run step b fs := by
  induction es generalizing a with
  | nil => rfl
  | cons e es ih =>
    simp only [List.cons_append, run]
    cases step a e with
    | returns b => exact ih b
    | spins => rfl
    | outOfBounds => rfl

/-- What every step keeps, a run keeps. -/
theorem run_keeps {ε : Type v} {step : α → ε → Exec α} {P : α → Prop}
    (keeps : ∀ a e a', P a → step a e = returns a' → P a') {a b : α} {es : List ε}
    (ran : run step a es = returns b) (start : P a) : P b := by
  induction es generalizing a with
  | nil =>
    cases ran
    exact start
  | cons e es ih =>
    obtain ⟨a', stepped, rest⟩ := bind_eq_returns.mp ran
    exact ih rest (keeps a e a' start stepped)

end Exec
