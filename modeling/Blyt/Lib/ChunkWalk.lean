import Mathlib.Data.List.Basic
import Mathlib.Algebra.Order.BigOperators.Group.List
import Mathlib.Algebra.GroupWithZero.Nat

/-! Pieces put one behind another into a buffer of `cap` bytes; one that does not fit is skipped. -/

namespace ChunkWalk
variable {cap word pos n : Nat} {sizes : List Nat}

/-- Where the next piece goes after one of `n` bytes at `pos`. -/
def advance (cap pos n : Nat) : Nat := if pos + n ≤ cap then pos + n else pos

/-- No piece would end at `word` or behind it. -/
def inWord (cap word : Nat) : Nat → List Nat → Bool
  | _, [] => true
  | pos, n :: sizes => decide (pos + n < word) && inWord cap word (advance cap pos n) sizes

theorem advance_of_fits (fits : pos + n ≤ cap) : advance cap pos n = pos + n := if_pos fits

theorem advance_of_not_fits (large : cap < pos + n) : advance cap pos n = pos := if_neg (Nat.not_le.mpr large)

/-- Small pieces before a word that is far enough end in the word. -/
theorem inWord_of_le {bound : Nat} (room : cap + bound < word) (start : pos ≤ cap) (small : ∀ n ∈ sizes, n ≤ bound) :
    inWord cap word pos sizes = true := by
  induction sizes generalizing pos with
  | nil => rfl
  | cons n sizes ih =>
    have this := small n List.mem_cons_self
    have next : advance cap pos n ≤ cap := by
      unfold advance
      split <;> omega
    rw [inWord, Bool.and_eq_true, decide_eq_true_iff]
    exact ⟨by omega, ih next fun n member => small n (List.mem_cons_of_mem _ member)⟩

/-- Pieces that end in the word when none is skipped. -/
theorem inWord_of_sum_lt (room : pos + sizes.sum < word) : inWord cap word pos sizes = true := by
  induction sizes generalizing pos with
  | nil => rfl
  | cons n sizes ih =>
    rw [List.sum_cons] at room
    have next : advance cap pos n ≤ pos + n := by
      unfold advance
      split <;> omega
    rw [inWord, Bool.and_eq_true, decide_eq_true_iff]
    exact ⟨by omega, ih (by omega)⟩

end ChunkWalk
