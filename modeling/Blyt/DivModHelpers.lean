import Blyt.Lib.SignedOverflow
import Blyt.Lib.LongDivision
import Mathlib.Algebra.Ring.Int.Defs
import Mathlib.Data.Int.DivMod

/-! The 64-bit helpers that `lua_lib_runtime.c` has in place of libgcc's. -/

namespace Blyt
namespace DivMod
open SignedOverflow

/-- The first loop of `udivmoddi4`: the divisor, shifted, and by how much. -/
def doubleUp (n : UInt64) : Nat → UInt64 → Nat → Exec (UInt64 × Nat)
  | 0, _, _ => .spins
  | fuel + 1, d, shift =>
    if d <<< 1 ≤ n ∧ (d <<< 1) >>> 1 = d then doubleUp n fuel (d <<< 1) (shift + 1) else .returns (d, shift)

/-- The second loop, `shift + 1` counted: the quotient and what is left of `n`. -/
def subtractDown : Nat → UInt64 → UInt64 → UInt64 → UInt64 × UInt64
  | 0, n, _, q => (q, n)
  | shift + 1, n, d, q =>
    if n ≥ d then subtractDown shift (n - d) (d >>> 1) (q ||| 1 <<< UInt64.ofNat shift)
    else subtractDown shift n (d >>> 1) q

/-- The quotient and `*rem`. A divisor is doubled 63 times at most. -/
def udivmoddi4 (n d : UInt64) : Exec (UInt64 × UInt64) :=
  if d = 0 then .returns (0, 0)
  else if d > n then .returns (0, n)
  else do
    let (d, shift) ← doubleUp n 64 d 0
    return subtractDown (shift + 1) n d 0

def udivdi3 (a b : UInt64) : Exec UInt64 := do
  let (q, _) ← udivmoddi4 a b
  return q

def umoddi3 (a b : UInt64) : Exec UInt64 := do
  let (_, r) ← udivmoddi4 a b
  return r

/-- `a < 0 ? -(unsigned long long)a : (unsigned long long)a` -/
def magnitude (a : Int64) : UInt64 := if a < 0 then -a.toUInt64 else a.toUInt64

/-- `-(long long)u`, an operation on signed numbers. -/
def negated (wrapv : Bool) (u : UInt64) : Exec Int64 := do
  let x ← result wrapv 64 (-u.toInt64.toInt)
  return Int64.ofInt x

def divdi3 (wrapv : Bool) (a b : Int64) : Exec Int64 := do
  let neg := decide (a < 0) ^^ decide (b < 0)
  let (q, _) ← udivmoddi4 (magnitude a) (magnitude b)
  if neg then negated wrapv q else return q.toInt64

def moddi3 (wrapv : Bool) (a b : Int64) : Exec Int64 := do
  let neg := decide (a < 0)
  let (_, r) ← udivmoddi4 (magnitude a) (magnitude b)
  if neg then negated wrapv r else return r.toInt64

/-! The loops. -/

theorem shiftLeft_one (d : UInt64) : (d <<< 1).toNat = 2 * d.toNat % 2 ^ 64 := by
  rw [UInt64.toNat_shiftLeft]
  show d.toNat <<< 1 % 2 ^ 64 = _
  rw [Nat.shiftLeft_eq, Nat.pow_one, Nat.mul_comm]

theorem shiftRight_one (d : UInt64) : (d >>> 1).toNat = d.toNat / 2 := by
  rw [UInt64.toNat_shiftRight]
  show d.toNat >>> 1 = _
  rw [Nat.shiftRight_eq_div_pow, Nat.pow_one]

/-- The top bit of a divisor is not shifted out. -/
theorem shifted_back {d : UInt64} : (d <<< 1) >>> 1 = d ↔ 2 * d.toNat < 2 ^ 64 := by
  rw [← UInt64.toNat_inj, shiftRight_one, shiftLeft_one]
  have word := d.toNat_lt
  omega

/-- The divisor ends up at the highest place at which it goes into `n`. -/
theorem doubleUp_ends {n d : UInt64} {fuel : Nat} (shift : Nat) (goes : d ≤ n) (enough : 2 ^ 64 ≤ d.toNat * 2 ^ fuel) :
    ∃ d' more, doubleUp n fuel d shift = .returns (d', shift + more) ∧ d'.toNat = d.toNat * 2 ^ more ∧
      n.toNat < 2 * d'.toNat := by
  induction fuel generalizing d shift with
  | zero =>
    have word := d.toNat_lt
    omega
  | succ fuel ih =>
    rw [doubleUp]
    have double := shiftLeft_one d
    by_cases again : d <<< 1 ≤ n ∧ (d <<< 1) >>> 1 = d
    · rw [Nat.mod_eq_of_lt (shifted_back.mp again.2)] at double
      have enough' : 2 ^ 64 ≤ (d <<< 1).toNat * 2 ^ fuel := by
        rw [double, Nat.mul_comm 2, Nat.mul_assoc, ← Nat.pow_succ']
        exact enough
      obtain ⟨d', more, ended, value, high⟩ := ih (shift + 1) again.1 enough'
      refine ⟨d', more + 1, ?_, ?_, high⟩
      · rw [if_pos again, ended, Nat.add_assoc, Nat.add_comm 1]
      · rw [value, double, Nat.pow_succ', Nat.mul_comm 2, Nat.mul_assoc]
    · refine ⟨d, 0, if_neg again, by rw [Nat.pow_zero, Nat.mul_one], ?_⟩
      by_cases top : 2 * d.toNat < 2 ^ 64
      · have high : ¬d <<< 1 ≤ n := fun low => again ⟨low, shifted_back.mpr top⟩
        rw [Nat.mod_eq_of_lt top] at double
        rwa [UInt64.le_iff_toNat_le, double, Nat.not_le] at high
      · exact Nat.lt_of_lt_of_le n.toNat_lt (Nat.le_of_not_lt top)

/-- A bit below those that are set is added by `|=`. -/
theorem setBit_toNat {q : UInt64} {shift : Nat} (place : shift < 64) (multiple : 2 ^ (shift + 1) ∣ q.toNat) :
    (q ||| 1 <<< UInt64.ofNat shift).toNat = q.toNat + 2 ^ shift := by
  obtain ⟨k, value⟩ := multiple
  have bit : (1 <<< UInt64.ofNat shift : UInt64).toNat = 2 ^ shift := by
    have small : shift < 2 ^ 64 := by omega
    rw [UInt64.toNat_shiftLeft, UInt64.toNat_ofNat', Nat.mod_eq_of_lt small, Nat.mod_eq_of_lt place]
    show 1 <<< shift % 2 ^ 64 = _
    rw [Nat.one_shiftLeft, Nat.mod_eq_of_lt (Nat.pow_lt_pow_right (by decide) place)]
  rw [UInt64.toNat_or, bit, value, Nat.two_pow_add_eq_or_of_lt (Nat.pow_lt_pow_right (by decide) (Nat.lt_succ_self _))]

/-- The loop on words does what long division does; the divisor stands at the place that is next. -/
theorem subtractDown_refines {d : Nat} {places : Nat} {n u q : UInt64} (bits : places ≤ 64)
    (shifted : u.toNat = d * 2 ^ places / 2) (multiple : 2 ^ places ∣ q.toNat) :
    ((subtractDown places n u q).1.toNat, (subtractDown places n u q).2.toNat) =
      LongDivision.subtractDown d places n.toNat q.toNat := by
  induction places generalizing n u q with
  | zero => rfl
  | succ shift ih =>
    have here : u.toNat = d * 2 ^ shift := by
      rw [shifted, Nat.pow_succ, ← Nat.mul_assoc, Nat.mul_div_cancel _ (by decide)]
    have next : (u >>> 1).toNat = d * 2 ^ shift / 2 := by rw [shiftRight_one, here]
    have lower : 2 ^ shift ∣ q.toNat := Nat.dvd_trans (Nat.pow_dvd_pow 2 (Nat.le_succ shift)) multiple
    have set := setBit_toNat (Nat.lt_of_succ_le bits) multiple
    rw [subtractDown, LongDivision.subtractDown]
    by_cases goes : u ≤ n
    · have low : d * 2 ^ shift ≤ n.toNat := here ▸ UInt64.le_iff_toNat_le.mp goes
      rw [if_pos goes, if_pos low, ih (by omega) next (set ▸ Nat.dvd_add lower (Nat.dvd_refl _)), set,
        UInt64.toNat_sub_of_le _ _ goes, here]
    · have high : ¬d * 2 ^ shift ≤ n.toNat := fun low => goes (UInt64.le_iff_toNat_le.mpr (here ▸ low))
      rw [if_neg goes, if_neg high, ih (by omega) next lower]

theorem places_le {d d' : UInt64} {shift : Nat} (positive : 0 < d.toNat) (value : d'.toNat = d.toNat * 2 ^ shift) :
    shift + 1 ≤ 64 := by
  have word := d'.toNat_lt
  have more : 2 ^ shift ≤ d.toNat * 2 ^ shift := Nat.le_mul_of_pos_left _ positive
  by_contra beyond
  have large : 2 ^ 64 ≤ 2 ^ shift := Nat.pow_le_pow_right (by decide) (by omega)
  omega

/-- The loops end, and with a quotient and a remainder. -/
theorem udivmoddi4_unsigned {n d : UInt64} (nonzero : d ≠ 0) :
    ∃ q r, udivmoddi4 n d = .returns (q, r) ∧ n.toNat = q.toNat * d.toNat + r.toNat ∧ r < d := by
  have positive : 0 < d.toNat := Nat.pos_of_ne_zero fun zero => nonzero (UInt64.toNat_inj.mp zero)
  rw [udivmoddi4, if_neg nonzero]
  by_cases larger : d > n
  · refine ⟨0, n, if_pos larger, ?_, larger⟩
    rw [UInt64.toNat_zero, Nat.zero_mul, Nat.zero_add]
  · have enough : 2 ^ 64 ≤ d.toNat * 2 ^ 64 := Nat.le_mul_of_pos_left _ positive
    obtain ⟨d', shift, ended, value, high⟩ := doubleUp_ends 0 (UInt64.not_lt.mp larger) enough
    rw [Nat.zero_add] at ended
    have place : d'.toNat = d.toNat * 2 ^ (shift + 1) / 2 := by
      rw [value, Nat.pow_succ, ← Nat.mul_assoc, Nat.mul_div_cancel _ (by decide)]
    have small : n.toNat < d.toNat * 2 ^ (shift + 1) := by
      rw [Nat.pow_succ, ← Nat.mul_assoc, ← value, Nat.mul_comm]
      exact high
    have refines := subtractDown_refines (places_le positive value) (n := n) (q := 0) place (Nat.dvd_zero _)
    rw [UInt64.toNat_zero] at refines
    have equation := LongDivision.subtractDown_equation (d := d.toNat) (shift + 1) n.toNat 0
    have remainder := LongDivision.subtractDown_remainder (q := 0) small
    rw [← refines, Nat.zero_mul, Nat.zero_add] at equation
    rw [← refines] at remainder
    refine ⟨_, _, ?_, equation.symm, UInt64.lt_iff_toNat_lt.mpr remainder⟩
    rw [if_neg larger, ended]
    rfl

theorem udivmoddi4_divides {n d : UInt64} (nonzero : d ≠ 0) : udivmoddi4 n d = .returns (n / d, n % d) := by
  obtain ⟨q, r, divided, equation, remainder⟩ := udivmoddi4_unsigned (n := n) nonzero
  have less := UInt64.lt_iff_toNat_lt.mp remainder
  have positive : 0 < d.toNat := Nat.zero_lt_of_lt less
  rw [Nat.mul_comm, Nat.add_comm] at equation
  obtain ⟨quotient, rest⟩ := (Nat.div_mod_unique positive).mpr ⟨equation.symm, less⟩
  rw [← UInt64.toNat_div, UInt64.toNat_inj] at quotient
  rw [← UInt64.toNat_mod, UInt64.toNat_inj] at rest
  rw [divided, quotient, rest]

/-! The signs. -/

theorem toInt_eq (a : Int64) :
    a.toInt = if a.toUInt64.toNat < 2 ^ 63 then (a.toUInt64.toNat : Int) else a.toUInt64.toNat - 2 ^ 64 := by
  have half := BitVec.toInt_eq_toNat_cond a.toBitVec
  show a.toBitVec.toInt = _
  rw [half, Int64.toNat_toBitVec]
  have word := a.toUInt64.toNat_lt
  split <;> split <;> omega

theorem magnitude_toNat (a : Int64) : (magnitude a).toNat = a.toInt.natAbs := by
  have value := toInt_eq a
  have word := a.toUInt64.toNat_lt
  rw [magnitude]
  split
  · rename_i negative
    rw [Int64.lt_iff_toInt_lt, Int64.toInt_zero] at negative
    rw [UInt64.toNat_neg, UInt64.size]
    split at value <;> omega
  · rename_i natural
    rw [Int64.lt_iff_toInt_lt, Int64.toInt_zero] at natural
    split at value <;> omega

theorem toInt64_eq (u : UInt64) : u.toInt64 = Int64.ofInt u.toNat := by
  rw [Int64.ofInt_eq_ofNat, ← UInt64.toInt64_ofNat', UInt64.ofNat_toNat]

theorem ofInt_bmod (x : Int) : Int64.ofInt (x.bmod (2 ^ 64)) = Int64.ofInt x := by
  rw [← Int64.toInt_inj, Int64.toInt_ofInt, Int64.toInt_ofInt]
  exact Int.bmod_bmod

/-- Only one number has no negation. -/
theorem negated_eq (wrapv : Bool) (u : UInt64) :
    negated wrapv u = if u.toNat = 2 ^ 63 ∧ wrapv = false then .outOfBounds else .returns (Int64.ofInt (-u.toNat)) := by
  have value := toInt_eq u.toInt64
  rw [UInt64.toUInt64_toInt64] at value
  have word := u.toNat_lt
  have wrapped : Int64.ofInt (-u.toInt64.toInt) = Int64.ofInt (-u.toNat) := by
    rw [← Int64.neg_ofInt, Int64.ofInt_toInt, toInt64_eq, Int64.neg_ofInt]
  rw [negated]
  by_cases least : u.toNat = 2 ^ 63
  · cases wrapv with
    | false =>
      have overflows : (-u.toInt64.toInt).bmod (2 ^ 64) ≠ -u.toInt64.toInt := by
        rw [value, least]
        decide
      rw [result_overflows overflows, if_pos ⟨least, rfl⟩, Exec.outOfBounds_bind]
    | true =>
      rw [result_wraps, if_neg (fun both => Bool.noConfusion both.2), Exec.returns_bind, ofInt_bmod, wrapped]
      rfl
  · have fits : (-u.toInt64.toInt).bmod (2 ^ 64) = -u.toInt64.toInt := by
      split at value
      · exact Int.bmod_eq_of_le (by omega) (by omega)
      · exact Int.bmod_eq_of_le (by omega) (by omega)
    rw [result_of_fits fits, if_neg (fun both => least both.1), Exec.returns_bind, wrapped]
    rfl

theorem sign_cases (a : Int) : a < 0 ∧ -(a.natAbs : Int) = a ∨ ¬a < 0 ∧ (a.natAbs : Int) = a := by omega

/-- Truncated division, on the magnitudes. -/
theorem tdiv_magnitudes (a b : Int) : a.tdiv b =
    if (decide (a < 0) ^^ decide (b < 0)) = true then -((a.natAbs / b.natAbs : Nat) : Int)
    else (a.natAbs / b.natAbs : Nat) := by
  have quotient : (a.natAbs : Int).tdiv b.natAbs = (a.natAbs / b.natAbs : Nat) := rfl
  rcases sign_cases a with ⟨below, left⟩ | ⟨above, left⟩ <;> rcases sign_cases b with ⟨below', right⟩ | ⟨above', right⟩
  · rw [decide_eq_true below, decide_eq_true below', Bool.xor_self, if_neg Bool.false_ne_true, ← quotient,
      ← Int.neg_tdiv_neg (a.natAbs : Int), left, right]
  · rw [decide_eq_true below, decide_eq_false above', Bool.xor_false, if_pos rfl, ← quotient, ← Int.neg_tdiv, left,
      right]
  · rw [decide_eq_false above, decide_eq_true below', Bool.false_xor, if_pos rfl, ← quotient, ← Int.tdiv_neg, left,
      right]
  · rw [decide_eq_false above, decide_eq_false above', Bool.xor_self, if_neg Bool.false_ne_true, ← quotient, left,
      right]

theorem tmod_magnitudes (a b : Int) : a.tmod b =
    if decide (a < 0) = true then -((a.natAbs % b.natAbs : Nat) : Int) else (a.natAbs % b.natAbs : Nat) := by
  have remainder : (a.natAbs : Int).tmod b.natAbs = (a.natAbs % b.natAbs : Nat) := rfl
  have divisor : (a.natAbs : Int).tmod b = (a.natAbs : Int).tmod b.natAbs := by
    rcases sign_cases b with ⟨-, right⟩ | ⟨-, right⟩
    · rw [← Int.tmod_neg _ (b.natAbs : Int), right]
    · rw [right]
  rcases sign_cases a with ⟨below, left⟩ | ⟨above, left⟩
  · rw [decide_eq_true below, if_pos rfl, ← remainder, ← divisor, ← Int.neg_tmod, left]
  · rw [decide_eq_false above, if_neg Bool.false_ne_true, ← remainder, ← divisor, left]

/-- The quotient or the remainder of the magnitudes, with its sign. -/
theorem signed_eq (wrapv neg : Bool) (u : UInt64) :
    (if neg then negated wrapv u else Exec.returns u.toInt64) =
      if neg = true ∧ u.toNat = 2 ^ 63 ∧ wrapv = false then .outOfBounds
      else .returns (Int64.ofInt (if neg = true then -u.toNat else u.toNat)) := by
  cases neg with
  | false => rw [if_neg Bool.false_ne_true, if_neg (fun all => Bool.noConfusion all.1), toInt64_eq]; rfl
  | true =>
    rw [if_pos rfl, negated_eq, if_pos rfl]
    simp only [true_and]

theorem magnitude_ne_zero {b : Int64} (nonzero : b ≠ 0) : magnitude b ≠ 0 := by
  intro zero
  have none := magnitude_toNat b
  rw [zero, UInt64.toNat_zero] at none
  exact nonzero (Int64.toInt_inj.mp (Int.natAbs_eq_zero.mp none.symm))

/-- No remainder is large enough to have no negation. -/
theorem moddi3_eq (wrapv : Bool) {a b : Int64} (nonzero : b ≠ 0) :
    moddi3 wrapv a b = .returns (Int64.ofInt (a.toInt.tmod b.toInt)) := by
  have remainder : (magnitude a % magnitude b).toNat = a.toInt.natAbs % b.toInt.natAbs := by
    rw [UInt64.toNat_mod, magnitude_toNat, magnitude_toNat]
  have sign : decide (a < 0) = decide (a.toInt < 0) := decide_eq_decide.mpr Int64.lt_iff_toInt_lt
  have small : (magnitude a % magnitude b).toNat ≠ 2 ^ 63 := by
    have positive : 0 < b.toInt.natAbs := Int.natAbs_pos.mpr fun zero => nonzero (Int64.toInt_inj.mp zero)
    have less := Nat.mod_lt a.toInt.natAbs positive
    have low := b.le_toInt
    have high := b.toInt_lt
    omega
  rw [moddi3, udivmoddi4_divides (magnitude_ne_zero nonzero), tmod_magnitudes, ← sign, ← remainder]
  exact (signed_eq wrapv _ _).trans (if_neg fun all => small all.2.1)

/-- Only one quotient is large enough, and negative besides. -/
theorem quotient_large {a b : Int64} (nonzero : b ≠ 0) :
    (decide (a < 0) ^^ decide (b < 0)) = true ∧ a.toInt.natAbs / b.toInt.natAbs = 2 ^ 63 ↔
      a = Int64.minValue ∧ b = 1 := by
  constructor
  · rintro ⟨neg, quotient⟩
    have positive : 0 < b.toInt.natAbs := Int.natAbs_pos.mpr fun zero => nonzero (Int64.toInt_inj.mp zero)
    have low := a.le_toInt
    have high := a.toInt_lt
    have one : b.toInt.natAbs = 1 := by
      by_contra other
      have half : a.toInt.natAbs / b.toInt.natAbs ≤ a.toInt.natAbs / 2 := Nat.div_le_div_left (by omega) (by decide)
      omega
    rw [one, Nat.div_one] at quotient
    have least : a.toInt = -2 ^ 63 := by omega
    have below : a < 0 := Int64.lt_iff_toInt_lt.mpr (by rw [least]; decide)
    rw [decide_eq_true below, Bool.true_xor, Bool.not_eq_true', decide_eq_false_iff_not, Int64.lt_iff_toInt_lt,
      Int64.toInt_zero] at neg
    exact ⟨Int64.toInt_inj.mp least, Int64.toInt_inj.mp (show b.toInt = 1 by omega)⟩
  · rintro ⟨rfl, rfl⟩
    decide

theorem divdi3_eq (wrapv : Bool) {a b : Int64} (nonzero : b ≠ 0) :
    divdi3 wrapv a b = if (a = Int64.minValue ∧ b = 1) ∧ wrapv = false then .outOfBounds
      else .returns (Int64.ofInt (a.toInt.tdiv b.toInt)) := by
  have quotient : (magnitude a / magnitude b).toNat = a.toInt.natAbs / b.toInt.natAbs := by
    rw [UInt64.toNat_div, magnitude_toNat, magnitude_toNat]
  have sign : decide (a < 0) = decide (a.toInt < 0) := decide_eq_decide.mpr Int64.lt_iff_toInt_lt
  have sign' : decide (b < 0) = decide (b.toInt < 0) := decide_eq_decide.mpr Int64.lt_iff_toInt_lt
  have large := quotient_large (a := a) nonzero
  rw [← quotient] at large
  rw [divdi3, udivmoddi4_divides (magnitude_ne_zero nonzero), tdiv_magnitudes, ← sign, ← sign', ← quotient]
  refine (signed_eq wrapv _ _).trans (if_congr ?_ rfl rfl)
  rw [← and_assoc, large]

-- `2 ^ 63` wraps when it is converted, and nothing overflows.
example : divdi3 false Int64.minValue (-1) = .returns Int64.minValue := by decide

theorem udivdi3_eq {a b : UInt64} (nonzero : b ≠ 0) : udivdi3 a b = .returns (a / b) := by
  rw [udivdi3, udivmoddi4_divides nonzero]
  rfl

theorem umoddi3_eq {a b : UInt64} (nonzero : b ≠ 0) : umoddi3 a b = .returns (a % b) := by
  rw [umoddi3, udivmoddi4_divides nonzero]
  rfl

/-- What the helpers promise: the quotient and the remainder, truncated toward zero for signed numbers, and
modulo `2 ^ 64` where the quotient is none of these. -/
def Divides (wrapv : Bool) (n d : UInt64) (a b : Int64) : Prop :=
  (d ≠ 0 → ∃ q r, udivmoddi4 n d = .returns (q, r) ∧ n.toNat = q.toNat * d.toNat + r.toNat ∧ r < d) ∧
    (b ≠ 0 → divdi3 wrapv a b = .returns (Int64.ofInt (a.toInt.tdiv b.toInt)) ∧
      moddi3 wrapv a b = .returns (Int64.ofInt (a.toInt.tmod b.toInt)))

/-- All divisions are right but one: `__divdi3` negates the quotient of the smallest number by 1 as a signed
number. -/
theorem divides_iff (wrapv : Bool) (n d : UInt64) (a b : Int64) :
    Divides wrapv n d a b ↔ wrapv = true ∨ ¬(a = Int64.minValue ∧ b = 1) := by
  constructor
  · rintro ⟨-, signed⟩
    by_contra neither
    rw [not_or, not_not, Bool.not_eq_true] at neither
    obtain ⟨undefined_, least, one⟩ := neither
    have nonzero : b ≠ 0 := one ▸ by decide
    have quotient := (signed nonzero).1
    rw [divdi3_eq wrapv nonzero, if_pos ⟨⟨least, one⟩, undefined_⟩] at quotient
    cases quotient
  · intro either
    have defined : ¬((a = Int64.minValue ∧ b = 1) ∧ wrapv = false) := by
      rintro ⟨overflows, undefined_⟩
      rcases either with wraps | fits
      · exact Bool.noConfusion (undefined_.symm.trans wraps)
      · exact fits overflows
    refine ⟨udivmoddi4_unsigned, fun nonzero => ⟨?_, moddi3_eq wrapv nonzero⟩⟩
    rw [divdi3_eq wrapv nonzero, if_neg defined]

/-- `LLONG_MIN / 1`, as the library is built. -/
theorem least_not_divides : ¬Divides false 1 1 Int64.minValue 1 := by
  rintro ⟨-, signed⟩
  have quotient := (signed (by decide)).1
  rw [divdi3_eq false (by decide), if_pos (by decide)] at quotient
  cases quotient

end DivMod
end Blyt
