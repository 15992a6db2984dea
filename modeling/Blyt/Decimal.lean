import Blyt.RuntimeTracked
import Mathlib.Data.Nat.Digits.Defs

/-! The decimal texts of the runtime's own printing loops. -/

namespace Blyt

theorem decimalTmp_digits {fuel v : Nat} : ∀ c ∈ decimalTmp fuel v, 48 ≤ c ∧ c ≤ 57 := by
  induction fuel generalizing v with
  | zero => exact fun c member => absurd member List.not_mem_nil
  | succ fuel ih =>
    intro c member
    rw [decimalTmp] at member
    split at member
    · exact absurd member List.not_mem_nil
    · rcases List.mem_cons.mp member with rfl | member
      · have small : v % 10 < 10 := Nat.mod_lt v (by decide)
        generalize v % 10 = d at small ⊢
        rw [UInt8.le_iff_toNat_le, UInt8.le_iff_toNat_le, UInt8.toNat_ofNat', Nat.mod_eq_of_lt (by omega)]
        exact ⟨Nat.le_add_right 48 d, by show 48 + d ≤ 57; omega⟩
      · exact ih c member

theorem decimal_digits {v : Nat} : ∀ c ∈ decimal v, 48 ≤ c ∧ c ≤ 57 := by
  intro c member
  rw [decimal] at member
  split at member
  · rw [List.mem_singleton.mp member]
    decide
  · exact decimalTmp_digits c (List.mem_reverse.mp member)

theorem decimal_noNul {v : Nat} : 0 ∉ decimal v := fun member => absurd (decimal_digits 0 member).1 (by decide)

theorem decimalTmp_length (fuel v : Nat) : (decimalTmp fuel v).length ≤ fuel := by
  induction fuel generalizing v with
  | zero => exact Nat.le_refl 0
  | succ fuel ih =>
    rw [decimalTmp]
    split
    · exact Nat.zero_le _
    · exact Nat.succ_le_succ (ih _)

theorem decimal_length (v : Nat) : 0 < (decimal v).length ∧ (decimal v).length ≤ 24 := by
  rw [decimal]
  split
  · decide
  · rename_i nonzero
    rw [List.length_reverse]
    refine ⟨?_, decimalTmp_length 24 v⟩
    rw [decimalTmp, if_neg nonzero]
    exact Nat.succ_pos _

theorem digit_toNat (v : Nat) : (UInt8.ofNat (48 + v % 10)).toNat = 48 + v % 10 := by
  rw [UInt8.toNat_ofNat', Nat.mod_eq_of_lt (by omega)]

theorem next_small {fuel v : Nat} (small : v < 10 ^ (fuel + 1)) : v / 10 < 10 ^ fuel := by
  rw [Nat.pow_succ] at small
  omega

theorem decimalTmp_length_le_iff {fuel v k : Nat} (small : v < 10 ^ fuel) :
    (decimalTmp fuel v).length ≤ k ↔ v < 10 ^ k := by
  induction fuel generalizing v k with
  | zero =>
    rw [Nat.lt_one_iff.mp small]
    exact iff_of_true (Nat.zero_le _) (Nat.pow_pos (by decide))
  | succ fuel ih =>
    rw [decimalTmp]
    split
    · rename_i zero
      rw [zero]
      exact iff_of_true (Nat.zero_le _) (Nat.pow_pos (by decide))
    · rename_i some
      cases k with
      | zero => exact iff_of_false (Nat.not_succ_le_zero _) (by omega)
      | succ k =>
        rw [List.length_cons, Nat.succ_le_succ_iff, ih (next_small small), Nat.pow_succ]
        omega

/-- The number that the digits stand for, the lowest first. -/
theorem decimalTmp_value {fuel v : Nat} (small : v < 10 ^ fuel) :
    (decimalTmp fuel v).foldr (fun c n => 10 * n + (c.toNat - 48)) 0 = v := by
  induction fuel generalizing v with
  | zero => exact (Nat.lt_one_iff.mp small).symm
  | succ fuel ih =>
    rw [decimalTmp]
    split
    · rename_i zero
      exact zero.symm
    · rw [List.foldr_cons, ih (next_small small), digit_toNat, Nat.add_sub_cancel_left, Nat.div_add_mod]

/-- Up to the 24 digits that fit, different numbers have different texts. -/
theorem decimal_injective {v w : Nat} (small : v < 10 ^ 24) (small' : w < 10 ^ 24) (same : decimal v = decimal w) :
    v = w := by
  have value : ∀ {u}, u < 10 ^ 24 → (decimal u).reverse.foldr (fun c n => 10 * n + (c.toNat - 48)) 0 = u := by
    intro u small
    rw [decimal]
    split
    · rename_i zero
      exact zero.symm
    · rw [List.reverse_reverse, decimalTmp_value small]
  rw [← value small, same, value small']

theorem digitChar_ascii (v : Nat) : UInt8.ofNat (Nat.digitChar (v % 10)).toNat = UInt8.ofNat (48 + v % 10) := by
  have ten : ∀ d : Fin 10, UInt8.ofNat (Nat.digitChar d).toNat = UInt8.ofNat (48 + d) := by decide
  exact ten ⟨v % 10, Nat.mod_lt _ (by decide)⟩

theorem decimalTmp_toDigits {fuel v : Nat} (some : v ≠ 0) (small : v < 10 ^ fuel) :
    (decimalTmp fuel v).reverse = (Nat.toDigits 10 v).map fun c => UInt8.ofNat c.toNat := by
  induction fuel generalizing v with
  | zero => exact absurd (Nat.lt_one_iff.mp small) some
  | succ fuel ih =>
    rw [decimalTmp, if_neg some, List.reverse_cons, Nat.toDigits_eq_if (by decide)]
    split
    · rename_i low
      have last : v / 10 = 0 := Nat.div_eq_of_lt low
      have same := digitChar_ascii v
      rw [Nat.mod_eq_of_lt low] at same ⊢
      rw [last, List.map_singleton, same]
      cases fuel <;> rfl
    · have more : v / 10 ≠ 0 := by omega
      rw [ih more (next_small small), List.map_append, List.map_singleton, digitChar_ascii]

/-- The loops print what the language prints. -/
theorem decimal_eq_toString {v : Nat} (small : v < 10 ^ 24) : decimal v = ascii (toString v) := by
  have text : ascii (toString v) = (Nat.toDigits 10 v).map fun c => UInt8.ofNat c.toNat := by
    show (Nat.repr v).toList.map _ = _
    rw [Nat.toList_repr]
  rw [text, decimal]
  split
  · rename_i zero
    rw [zero]
    rfl
  · rename_i some
    exact decimalTmp_toDigits some small

end Blyt
