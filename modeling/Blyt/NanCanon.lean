import Mathlib.Data.List.Basic

namespace Blyt

/-- The bit pattern of an `f32`. -/
abbrev F32 := UInt32

def canonicalQnanBits : F32 := 0x7fc00000

/-- `canonicalize_nanf`, on bit patterns. -/
def canonicalizeNanf (x : F32) : F32 :=
  let expBits := (x >>> 23) &&& 0xff
  let frac := x &&& 0x7fffff
  if expBits = 0xff ∧ frac ≠ 0 then canonicalQnanBits else x

/-- All exponent bits set and a nonzero fraction. -/
def IsNan32 (x : F32) : Prop := (x >>> 23) &&& 0xff = 0xff ∧ x &&& 0x7fffff ≠ 0

instance (x : F32) : Decidable (IsNan32 x) := inferInstanceAs (Decidable (_ ∧ _))

theorem canonicalizeNanf_eq (x : F32) :
    canonicalizeNanf x = if IsNan32 x then canonicalQnanBits else x := rfl

theorem canonicalizeNanf_of_isNan {x : F32} (nan : IsNan32 (canonicalizeNanf x)) :
    canonicalizeNanf x = canonicalQnanBits := by
  rw [canonicalizeNanf_eq] at nan ⊢
  split at nan
  · rename_i isNan
    rw [if_pos isNan]
  · rename_i notNan
    exact absurd nan notNan

@[simp] theorem canonicalizeNanf_idem (x : F32) :
    canonicalizeNanf (canonicalizeNanf x) = canonicalizeNanf x := by
  conv_lhs => rw [canonicalizeNanf_eq]
  split
  · rename_i nan
    exact (canonicalizeNanf_of_isNan nan).symm
  · rfl

end Blyt
