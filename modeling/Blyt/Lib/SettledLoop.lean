import Mathlib.Data.List.Basic

/-! A loop that brings its state into a normal form whenever it shows it, next to the same loop that does not show it. -/

namespace SettledLoop
universe u v w
variable {σ : Type u} {ε : Type v} {δ : Type w}

/-- What a turn does, and what showing a state makes of it and shows. -/
structure Loop (σ : Type u) (ε : Type v) (δ : Type w) where
  turn : σ → ε → σ
  shows : σ → σ × δ

namespace Loop

/-- The turns alone. -/
def play (l : Loop σ ε δ) (s : σ) (events : List ε) : σ := events.foldl l.turn s

/-- After each turn the state is shown. -/
def emit (l : Loop σ ε δ) (s : σ) : List ε → List δ
  | [] => []
  | e :: events => (l.shows (l.turn s e)).2 :: l.emit (l.shows (l.turn s e)).1 events

theorem emit_length (l : Loop σ ε δ) (s : σ) (events : List ε) : (l.emit s events).length = events.length := by
  induction events generalizing s with
  | nil => rfl
  | cons e events ih => rw [emit, List.length_cons, List.length_cons, ih]

/-- Only the turns of the events count. -/
theorem emit_congr {l : Loop σ ε δ} {turn : σ → ε → σ} {events : List ε}
    (same : ∀ e ∈ events, ∀ s, turn s e = l.turn s e) (s : σ) : { l with turn := turn }.emit s events = l.emit s events := by
  induction events generalizing s with
  | nil => rfl
  | cons e events ih =>
    obtain ⟨first, others⟩ := List.forall_mem_cons.mp same
    rw [emit, emit, ih others]
    simp only [first]

end Loop

/-- In the states that `Good` allows, a turn makes the same of a state and of the shown one, as far as is shown. -/
structure Steady (l : Loop σ ε δ) (Good : σ → Prop) : Prop where
  turn : ∀ s e, Good s → Good (l.turn s e)
  agrees : ∀ s e, Good s → l.shows (l.turn (l.shows s).1 e) = l.shows (l.turn s e)

variable {l : Loop σ ε δ} {Good : σ → Prop} {s : σ}

theorem Steady.play (steady : Steady l Good) (good : Good s) (events : List ε) : Good (l.play s events) := by
  induction events generalizing s with
  | nil => exact good
  | cons e events ih => exact ih (steady.turn s e good)

/-- What is shown does not depend on whether the state was shown before. -/
theorem Steady.emit_shows (steady : Steady l Good) (good : Good s) (events : List ε) :
    l.emit (l.shows s).1 events = l.emit s events := by
  cases events with
  | nil => rfl
  | cons e events => rw [Loop.emit, Loop.emit, steady.agrees s e good]

/-- A run can be taken up in the middle, from a state that was not shown so far. -/
theorem Steady.emit_append (steady : Steady l Good) (good : Good s) (before after : List ε) :
    l.emit s (before ++ after) = l.emit s before ++ l.emit (l.play s before) after := by
  induction before generalizing s with
  | nil => rfl
  | cons e before ih =>
    have next := steady.turn s e good
    rw [List.cons_append, Loop.emit, Loop.emit, steady.emit_shows next, steady.emit_shows next, ih next,
      List.cons_append]
    rfl

/-- The rest of a run, from the shown state in its middle. -/
theorem Steady.emit_drop (steady : Steady l Good) (good : Good s) (before after : List ε) :
    (l.emit s (before ++ after)).drop before.length = l.emit (l.shows (l.play s before)).1 after := by
  have length := l.emit_length s before
  rw [steady.emit_append good, List.drop_append_of_le_length (by omega), List.drop_eq_nil_of_le (by omega),
    List.nil_append, steady.emit_shows (steady.play good before)]

end SettledLoop
