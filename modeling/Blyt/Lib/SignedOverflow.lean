import Blyt.Lib.Exec

/-! Signed arithmetic of a fixed width. -/

namespace SignedOverflow

/-- What an operation gives whose exact result is `x`. A result that does not fit `w` bits wraps around where
the code is built with `-fwrapv`; otherwise it is undefined. -/
def result (wrapv : Bool) (w : Nat) (x : Int) : Exec Int :=
  if x.bmod (2 ^ w) = x ∨ wrapv = true then .returns (x.bmod (2 ^ w)) else .outOfBounds

variable {wrapv : Bool} {w : Nat} {x : Int}

theorem result_of_fits (fits : x.bmod (2 ^ w) = x) : result wrapv w x = .returns x := by
  rw [result, if_pos (.inl fits), fits]

theorem result_wraps : result true w x = .returns (x.bmod (2 ^ w)) := if_pos (.inr rfl)

theorem result_overflows (overflows : x.bmod (2 ^ w) ≠ x) : result false w x = .outOfBounds :=
  if_neg (not_or.mpr ⟨overflows, Bool.false_ne_true⟩)

end SignedOverflow
