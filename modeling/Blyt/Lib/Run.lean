import Blyt.Lib.Exec

universe u v

namespace Run
variable {α : Type u} {ε : Type v} {Step : α → ε → α → Prop}

/-- Along the events, every step that can be taken is a `P`. -/
def Throughout (Step P : α → ε → α → Prop) : α → List ε → Prop
  | _, [] => True
  | a, e :: es => ∀ a', Step a e a' → P a e a' ∧ Throughout Step P a' es

theorem Throughout.of_invariant (Inv : α → Prop) {P Q : α → ε → α → Prop}
    (keeps : ∀ a e a', Inv a → Step a e a' → P a e a' → Inv a' ∧ Q a e a') {a : α} {es : List ε}
    (met : Throughout Step P a es) (start : Inv a) : Throughout Step Q a es := by
  induction es generalizing a with
  | nil => trivial
  | cons e es ih =>
    intro a' step
    obtain ⟨condition, rest⟩ := met a' step
    obtain ⟨inv, good⟩ := keeps a e a' start step condition
    exact ⟨good, ih rest inv⟩

theorem Throughout.of_steps (Inv : α → Prop) {Q : α → ε → α → Prop}
    (keeps : ∀ a e a', Inv a → Step a e a' → Inv a' ∧ Q a e a') {a : α} (start : Inv a) (es : List ε) :
    Throughout Step Q a es := by
  induction es generalizing a with
  | nil => trivial
  | cons e es ih =>
    intro a' step
    obtain ⟨inv, good⟩ := keeps a e a' start step
    exact ⟨good, ih inv⟩

theorem throughout_iff (Inv : α → Prop) {P Q : α → ε → α → Prop}
    (exact : ∀ a e a', Inv a → Step a e a' → (P a e a' ↔ Q a e a'))
    (keeps : ∀ a e a', Inv a → Step a e a' → Q a e a' → Inv a') {a : α} (start : Inv a) (es : List ε) :
    Throughout Step P a es ↔ Throughout Step Q a es := by
  constructor
  · intro met
    refine met.of_invariant Inv (fun a e a' inv step condition => ?_) start
    have good := (exact a e a' inv step).mp condition
    exact ⟨keeps a e a' inv step good, good⟩
  · intro met
    refine met.of_invariant Inv (fun a e a' inv step good => ?_) start
    exact ⟨keeps a e a' inv step good, (exact a e a' inv step).mpr good⟩

theorem Throughout.last {f : α → ε → α} {P : α → ε → α → Prop} {a : α} {es : List ε} {e : ε}
    (met : Throughout (fun a e a' => a' = f a e) P a (es ++ [e])) : P (es.foldl f a) e (f (es.foldl f a) e) := by
  induction es generalizing a with
  | nil => exact (met _ rfl).1
  | cons first es ih => exact ih (met _ rfl).2

/-- What holds after every event holds at the end. -/
theorem Throughout.at_end {α : Type u} {f : α → ε → Option α} {Q : α → Prop} {a b : α} {es : List ε}
    (along : Throughout (fun a e a' => f a e = some a') (fun _ _ a' => Q a') a es) (start : Q a)
    (ran : es.foldlM f a = some b) : Q b := by
  induction es generalizing a with
  | nil =>
    cases ran
    exact start
  | cons e es ih =>
    obtain ⟨a', stepped, rest⟩ := Option.bind_eq_some_iff.mp ran
    obtain ⟨here, behind⟩ := along a' stepped
    exact ih behind here rest

/-- What holds along the events holds along those behind a part that was run. -/
theorem Throughout.behind {α : Type u} {Step : α → ε → α → Prop} {f : α → ε → Exec α}
    (steps : ∀ a e a', f a e = .returns a' → Step a e a') {P : α → ε → α → Prop} {a b : α} {es fs : List ε}
    (along : Throughout Step P a (es ++ fs)) (ran : Exec.run f a es = .returns b) : Throughout Step P b fs := by
  induction es generalizing a with
  | nil =>
    cases ran
    exact along
  | cons e es ih =>
    obtain ⟨a', stepped, rest⟩ := Exec.bind_eq_returns.mp ran
    exact ih (along a' (steps a e a' stepped)).2 rest

end Run
