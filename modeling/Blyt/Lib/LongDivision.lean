import Mathlib.Algebra.GroupWithZero.Nat

/-! Long division in base two: the divisor is subtracted shifted, from the highest place down. -/

namespace LongDivision

/-- The quotient and the remainder, from the places below `places`; `q` is what the higher places gave. -/
def subtractDown (d : Nat) : Nat → Nat → Nat → Nat × Nat
  | 0, n, q => (q, n)
  | place + 1, n, q =>
    if d * 2 ^ place ≤ n then subtractDown d place (n - d * 2 ^ place) (q + 2 ^ place) else subtractDown d place n q

variable {d : Nat}

/-- One place leaves less than the divisor there. -/
theorem place_remainder {place n : Nat} (small : n < d * 2 ^ (place + 1)) : n - d * 2 ^ place < d * 2 ^ place := by
  have double : d * 2 ^ (place + 1) = d * 2 ^ place + d * 2 ^ place := by
    rw [Nat.pow_succ, Nat.mul_two, Nat.mul_add]
  omega

theorem subtractDown_equation (places n q : Nat) :
    (subtractDown d places n q).1 * d + (subtractDown d places n q).2 = q * d + n := by
  induction places generalizing n q with
  | zero => rfl
  | succ place ih =>
    rw [subtractDown]
    split
    · rename_i goes
      rw [ih, Nat.add_mul, Nat.mul_comm (2 ^ place), Nat.add_assoc, Nat.add_sub_cancel' goes]
    · exact ih n q

theorem subtractDown_remainder {places n q : Nat} (small : n < d * 2 ^ places) : (subtractDown d places n q).2 < d := by
  induction places generalizing n q with
  | zero => rwa [Nat.pow_zero, Nat.mul_one] at small
  | succ place ih =>
    rw [subtractDown]
    split
    · exact ih (place_remainder small)
    · rename_i less
      exact ih (Nat.lt_of_not_le less)

end LongDivision
