import Blyt.Vsnprintf
import Mathlib.Data.Nat.Digits.Lemmas
import Mathlib.Tactic.SplitIfs

namespace Blyt
namespace Vsnprintf

/-! The digits that the loops push. -/

/-- The digits of a number, in front of them zeros up to the precision; no precision is one of one digit. -/
def numeral (digs : Nat → UInt8) (base : Nat) (prec : Int) (v : Nat) : List UInt8 :=
  List.leftpad (if prec < 0 then 1 else prec.toNat) 0x30 ((Nat.digits base v).map digs).reverse

theorem numeral_length (digs : Nat → UInt8) (base : Nat) (prec : Int) (v : Nat) :
    (numeral digs base prec v).length = max (if prec < 0 then 1 else prec.toNat) (Nat.digits base v).length := by
  rw [numeral, List.length_leftpad, List.length_reverse, List.length_map]

theorem pushDigits_eq (digs : Nat → UInt8) {base : Nat} (large : 1 < base) (room v : Nat) (tmp : List UInt8) :
    pushDigits digs base room v tmp = if (Nat.digits base v).length ≤ room then
      .returns (((Nat.digits base v).map digs).reverse ++ tmp) else .outOfBounds := by
  induction room generalizing v tmp with
  | zero =>
    cases v with
    | zero =>
      rw [Nat.digits_zero]
      rfl
    | succ v =>
      rw [Nat.digits_def' large (Nat.succ_pos v)]
      rfl
  | succ room ih =>
    cases v with
    | zero =>
      rw [Nat.digits_zero]
      rfl
    | succ v =>
      rw [pushDigits, ih, Nat.digits_def' large (Nat.succ_pos v), List.length_cons, List.map_cons, List.reverse_cons,
        List.append_assoc, List.singleton_append]
      simp only [Nat.succ_le_succ_iff]

/-- A word has at most eleven digits. -/
theorem digits_length_le {base : Nat} (large : 8 ≤ base) (v : UInt32) : (Nat.digits base v.toNat).length ≤ 11 := by
  rw [Nat.digits_length_le_iff (by omega)]
  calc v.toNat < 2 ^ 32 := v.toNat_lt
    _ ≤ 8 ^ 11 := by decide
    _ ≤ base ^ 11 := Nat.pow_le_pow_left large 11

/-- Zeros in front of a number that has at most one. -/
theorem replicate_numeral (digs : Nat → UInt8) (base v : Nat) (prec : Int) :
    List.replicate (prec - (numeral digs base (min prec 1) v).length).toNat 0x30 ++ numeral digs base (min prec 1) v =
      numeral digs base prec v := by
  rw [numeral_length, numeral, numeral, List.leftpad, List.leftpad, ← List.append_assoc, List.replicate_append_replicate,
    List.length_reverse, List.length_map]
  congr 2
  split <;> split <;> omega

/-- What the buffer of a number holds before its zeros: one digit for zero, unless the precision is none. -/
theorem digits_pushed (digs : Nat → UInt8) {base size : Nat} (large : 8 ≤ base) (room : 11 ≤ size) (v : UInt32)
    (prec : Int) :
    pushDigits digs base (size - (if v = 0 ∧ prec ≠ 0 then [(0x30 : UInt8)] else []).length) v.toNat
      (if v = 0 ∧ prec ≠ 0 then [0x30] else []) = .returns (numeral digs base (min prec 1) v.toNat) := by
  by_cases zero : v = 0
  · subst zero
    have none : (0 : UInt32).toNat = 0 := rfl
    rw [numeral, pushDigits_eq digs (by omega), none, Nat.digits_zero, List.length_nil, if_pos (Nat.zero_le _),
      List.map_nil, List.reverse_nil, List.nil_append, List.leftpad, List.length_nil, Nat.sub_zero, List.append_nil]
    by_cases empty : prec = 0
    · subst empty
      rfl
    · have one : (if min prec 1 < 0 then 1 else (min prec 1).toNat) = 1 := by split <;> omega
      rw [if_pos ⟨rfl, empty⟩, one]
      rfl
  · have some : 0 < v.toNat := Nat.pos_of_ne_zero fun same => zero (UInt32.toNat_inj.mp same)
    have short := digits_length_le large v
    have positive : 0 < (Nat.digits base v.toNat).length := by
      rw [Nat.digits_def' (by omega) some]
      exact Nat.succ_pos _
    have none : (if min prec 1 < 0 then 1 else (min prec 1).toNat) - (Nat.digits base v.toNat).length = 0 := by
      split <;> omega
    rw [if_neg fun both => zero both.1, List.length_nil, Nat.sub_zero, pushDigits_eq digs (by omega),
      if_pos (short.trans room), List.append_nil, numeral, List.leftpad, List.length_reverse, List.length_map, none]
    rfl

/-- The zeros of `emit_uint`. -/
theorem zeros_pushed (digs : Nat → UInt8) {base size : Nat} (large : 8 ≤ base) (room : 11 ≤ size) (v : UInt32)
    (prec : Int) : pushZeros size prec (numeral digs base (min prec 1) v.toNat) =
      if prec ≤ size then .returns (numeral digs base prec v.toNat) else .outOfBounds := by
  have short := digits_length_le large v
  have length := numeral_length digs base (min prec 1) v.toNat
  have small : (numeral digs base (min prec 1) v.toNat).length ≤ 11 := by
    rw [length]
    split <;> omega
  rw [pushZeros, replicate_numeral]
  refine if_congr ?_ rfl rfl
  omega

/-- The zeros of `emit_int` from turn `i` on. -/
theorem pushZerosInt_eq (prec : Int) (room : Nat) (i : Int) (num : List UInt8) :
    pushZerosInt prec room i num = if ((prec - num.length - i + 1) / 2).toNat ≤ room then
      .returns (List.replicate ((prec - num.length - i + 1) / 2).toNat 0x30 ++ num) else .outOfBounds := by
  induction room generalizing i num with
  | zero =>
    rw [pushZerosInt]
    split
    · rw [if_neg (by omega)]
    · have none : ((prec - num.length - i + 1) / 2).toNat = 0 := by omega
      rw [none, if_pos (Nat.le_refl 0)]
      rfl
  | succ room ih =>
    rw [pushZerosInt]
    split
    · have next : ((prec - num.length - i + 1) / 2).toNat =
          ((prec - ((0x30 : UInt8) :: num).length - (i + 1) + 1) / 2).toNat + 1 := by
        rw [List.length_cons]
        omega
      rw [ih, next, List.replicate_succ', List.append_assoc, List.singleton_append]
      simp only [Nat.add_le_add_iff_right]
    · have none : ((prec - num.length - i + 1) / 2).toNat = 0 := by omega
      rw [none, if_pos (Nat.zero_le _)]
      rfl

/-- The precision that `emit_int` reaches from `n` digits on. -/
def reachedPrec (n : Nat) (prec : Int) : Int := if prec ≤ n then prec else n + (prec - n + 1) / 2

/-- The digits of a number in decimal, at least one. -/
def places (v : Nat) : Nat := max 1 (Nat.digits 10 v).length

theorem reachedPrec_eq_iff (n : Nat) (prec : Int) : reachedPrec n prec = prec ↔ prec ≤ n + 1 := by
  rw [reachedPrec]
  split <;> omega

theorem places_le (v : UInt32) : places v.toNat ≤ 11 :=
  max_le (by decide) (digits_length_le (by decide) v)

theorem zerosInt_pushed (digs : Nat → UInt8) (v : UInt32) (prec : Int) :
    (if ((numeral digs 10 (min prec 1) v.toNat).length : Int) < prec then
      pushZerosInt prec (34 - (numeral digs 10 (min prec 1) v.toNat).length) 0 (numeral digs 10 (min prec 1) v.toNat)
    else .returns (numeral digs 10 (min prec 1) v.toNat)) =
      if reachedPrec (places v.toNat) prec ≤ 34 then .returns (numeral digs 10 (reachedPrec (places v.toNat) prec) v.toNat)
      else .outOfBounds := by
  have short := places_le v
  have length := numeral_length digs 10 (min prec 1) v.toNat
  by_cases more : ((numeral digs 10 (min prec 1) v.toNat).length : Int) < prec
  · have whole : (numeral digs 10 (min prec 1) v.toNat).length = places v.toNat := by
      rw [length, places]
      split <;> omega
    have same : min prec 1 = min (reachedPrec (places v.toNat) prec) 1 := by
      rw [reachedPrec]
      split <;> omega
    have count : ((prec - (numeral digs 10 (min prec 1) v.toNat).length - 0 + 1) / 2).toNat =
        (reachedPrec (places v.toNat) prec - (numeral digs 10 (min prec 1) v.toNat).length).toNat := by
      rw [reachedPrec]
      split <;> omega
    rw [if_pos more, pushZerosInt_eq, count, same, replicate_numeral, ← same]
    refine if_congr ?_ rfl rfl
    rw [whole] at more ⊢
    rw [reachedPrec]
    split <;> omega
  · have reached : reachedPrec (places v.toNat) prec = prec := by
      rw [reachedPrec, if_pos]
      rw [length] at more
      rw [places]
      split at more <;> omega
    have none : (prec - (numeral digs 10 (min prec 1) v.toNat).length).toNat = 0 := by omega
    have all := replicate_numeral digs 10 v.toNat prec
    rw [none, List.replicate_zero, List.nil_append] at all
    rw [if_neg more, reached, all, if_pos]
    rw [length] at more
    rw [places] at short
    split at more <;> omega

/-- As many zeros as the precision asks for: at most one is missing. -/
theorem reached_of_count {digs : Nat → UInt8} {prec : Int} {v : Nat}
    (same : (numeral digs 10 (reachedPrec (places v) prec) v).count 0x30 = (numeral digs 10 prec v).count 0x30) :
    prec ≤ places v + 1 := by
  rw [numeral, numeral, List.leftpad, List.leftpad, List.count_append, List.count_append, List.count_replicate_self,
    List.count_replicate_self, List.length_reverse, List.length_map, Nat.add_right_cancel_iff] at same
  have whole : (Nat.digits 10 v).length ≤ places v := Nat.le_max_right _ _
  by_contra more
  have beyond : ¬prec ≤ places v := by omega
  rw [reachedPrec, if_neg beyond, if_neg (by omega), if_neg (by omega)] at same
  omega

theorem numeral_decimal (prec : Int) (v : Nat) :
    numeral (fun d => UInt8.ofNat (0x30 + d)) 10 prec v = numeral (digit false) 10 prec v := by
  rw [numeral, numeral]
  congr 2
  refine List.map_congr_left fun d member => ?_
  rw [digit, if_pos (Nat.digits_lt_base (by decide) member)]

/-- The sign and the digits, with so much to fill: behind them, between them, or in front of them. -/
def justified (left zeros : Bool) (pad : Nat) (sign body : List UInt8) : List UInt8 :=
  if left then sign ++ (body ++ List.replicate pad 0x20)
  else if zeros then sign ++ (List.replicate pad 0x30 ++ body)
  else List.replicate pad 0x20 ++ (sign ++ body)

theorem justified_length (left zeros : Bool) (pad : Nat) (sign body : List UInt8) :
    (justified left zeros pad sign body).length = sign.length + body.length + pad := by
  rw [justified]
  split
  · rw [List.length_append, List.length_append, List.length_replicate, Nat.add_assoc]
  · split
    · rw [List.length_append, List.length_append, List.length_replicate]
      omega
    · rw [List.length_append, List.length_append, List.length_replicate]
      omega

/-- Blanks are no zeros. -/
theorem justified_count (left : Bool) (pad : Nat) (sign body : List UInt8) :
    (justified left false pad sign body).count 0x30 = sign.count 0x30 + body.count 0x30 := by
  have blanks : (List.replicate pad (0x20 : UInt8)).count 0x30 = 0 := by
    rw [List.count_replicate, if_neg (by decide)]
  rw [justified]
  split
  · rw [List.count_append, List.count_append, blanks, Nat.add_zero]
  · rw [if_neg Bool.false_ne_true, List.count_append, List.count_append, blanks, Nat.zero_add]

theorem justified_zero (left zeros : Bool) (sign body : List UInt8) :
    justified left zeros 0 sign body = sign ++ body := by
  rw [justified, List.replicate_zero, List.replicate_zero, List.append_nil, List.nil_append, List.nil_append, ite_self,
    ite_self]

/-- `emit_uint` fills nothing where a number has the zero flag and a precision. -/
theorem emitUint_eq {base : Nat} (large : 8 ≤ base) (v : UInt32) (upper : Bool) (width prec : Int)
    (flagZero flagLeft : Bool) : emitUint v base upper width prec flagZero flagLeft = if prec ≤ 33 then
      .returns (justified flagLeft (flagZero && decide (prec < 0))
        (if flagLeft = false ∧ flagZero = true ∧ 0 ≤ prec then 0
          else (width - (numeral (digit upper) base prec v.toNat).length).toNat) []
        (numeral (digit upper) base prec v.toNat)) else .outOfBounds := by
  have pushed := digits_pushed (digit upper) large (show 11 ≤ 33 by decide) v prec
  rw [emitUint]
  simp only
  rw [pushed, Exec.returns_bind, zeros_pushed (digit upper) large (by decide)]
  by_cases fits : prec ≤ 33
  · have fits' : prec ≤ (33 : Nat) := fits
    rw [if_pos fits, if_pos fits', Exec.returns_bind]
    generalize numeral (digit upper) base prec v.toNat = body
    refine congrArg Exec.returns ?_
    cases flagLeft with
    | true =>
      rw [justified]
      rfl
    | false =>
      by_cases negative : prec < 0
      · have without : ¬0 ≤ prec := Int.not_le.mpr negative
        cases flagZero <;> simp [justified, negative, without]
      · have given : 0 ≤ prec := Int.not_lt.mp negative
        cases flagZero <;> simp [justified, negative, given]
  · have fits' : ¬prec ≤ (33 : Nat) := fits
    rw [if_neg fits, if_neg fits']
    rfl

theorem signChars_length (neg flagPlus flagSpace : Bool) :
    ((signChars neg flagPlus flagSpace).length : Int) = signWidth neg flagPlus flagSpace := by
  cases neg <;> cases flagPlus <;> cases flagSpace <;> rfl

/-- The magnitude of an `int` is a word. -/
theorem toNat_natAbs (v : Int32) : (UInt32.ofNat v.toInt.natAbs).toNat = v.toInt.natAbs := by
  have low := Int32.le_toInt v
  have high := Int32.toInt_lt v
  rw [UInt32.toNat_ofNat', Nat.mod_eq_of_lt (by omega)]

/-- What is undefined apart, `emit_int` fills up to the width. -/
theorem emitInt_eq (v : Int32) (width prec : Int) (flagZero flagLeft flagPlus flagSpace : Bool) :
    emitInt v width prec flagZero flagLeft flagPlus flagSpace =
      if v.toInt = intMin ∨ width - signWidth (decide (v.toInt < 0)) flagPlus flagSpace < intMin ∨
        34 < reachedPrec (places v.toInt.natAbs) prec then .outOfBounds
      else .returns (justified flagLeft (flagZero && decide (prec < 0))
        (width - (signChars (decide (v.toInt < 0)) flagPlus flagSpace ++
          numeral (digit false) 10 (reachedPrec (places v.toInt.natAbs) prec) v.toInt.natAbs).length).toNat
        (signChars (decide (v.toInt < 0)) flagPlus flagSpace)
        (numeral (digit false) 10 (reachedPrec (places v.toInt.natAbs) prec) v.toInt.natAbs)) := by
  have magnitude := toNat_natAbs v
  rw [emitInt]
  simp only
  generalize sameSign : signChars (decide (v.toInt < 0)) flagPlus flagSpace = front
  have frontLength := signChars_length (decide (v.toInt < 0)) flagPlus flagSpace
  rw [sameSign] at frontLength
  generalize signWidth (decide (v.toInt < 0)) flagPlus flagSpace = signw at frontLength ⊢
  by_cases undefined_ : v.toInt = intMin ∨ width - signw < intMin
  · rw [if_pos undefined_, if_pos (undefined_.imp_right .inl)]
  · rw [if_neg undefined_]
    by_cases zeros : (flagZero && ! flagLeft && decide (prec < 0)) = true
    · obtain ⟨flags, negative⟩ := Bool.and_eq_true_iff.mp zeros
      obtain ⟨zero, right⟩ := Bool.and_eq_true_iff.mp flags
      have without := of_decide_eq_true negative
      have reached : reachedPrec (places v.toInt.natAbs) prec = prec := if_pos (by omega)
      have narrow : ¬(v.toInt = intMin ∨ width - signw < intMin ∨ 34 < prec) := by
        rw [not_or] at undefined_ ⊢
        exact ⟨undefined_.1, not_or.mpr ⟨undefined_.2, by omega⟩⟩
      rw [if_pos zeros, reached, if_neg narrow, emitUint_eq (by decide), if_pos (by omega), magnitude, Exec.returns_bind,
        if_neg fun both => absurd without (Int.not_lt.mpr both.2.2)]
      rw [Bool.not_eq_true'] at right
      rw [right, zero, negative, justified, justified, List.length_append]
      simp only [Bool.and_self, Bool.false_eq_true, if_false, if_true, List.nil_append]
      have same : (max (width - signw) 0 - ((numeral (digit false) 10 prec v.toInt.natAbs).length : Int)).toNat =
          (width - ((front.length + (numeral (digit false) 10 prec v.toInt.natAbs).length : Nat) : Int)).toNat := by
        omega
      rw [same]
      rfl
    · have pushed := digits_pushed (fun d => UInt8.ofNat (0x30 + d)) (show 8 ≤ 10 by decide) (show 11 ≤ 34 by decide)
        (UInt32.ofNat v.toInt.natAbs) prec
      rw [if_neg zeros, pushed, Exec.returns_bind, zerosInt_pushed, magnitude, numeral_decimal]
      by_cases fits : reachedPrec (places v.toInt.natAbs) prec ≤ 34
      · have narrow : ¬(v.toInt = intMin ∨ width - signw < intMin ∨ 34 < reachedPrec (places v.toInt.natAbs) prec) := by
          rw [not_or] at undefined_ ⊢
          exact ⟨undefined_.1, not_or.mpr ⟨undefined_.2, by omega⟩⟩
        rw [if_pos fits, if_neg narrow, Exec.returns_bind, List.length_append]
        generalize numeral (digit false) 10 (reachedPrec (places v.toInt.natAbs) prec) v.toInt.natAbs = body
        have same : (width - ((body.length : Int) + signw)).toNat =
            (width - ((front.length + body.length : Nat) : Int)).toNat := by
          omega
        rw [same]
        refine congrArg Exec.returns ?_
        cases flagLeft with
        | true =>
          rw [justified]
          rfl
        | false =>
          rw [Bool.not_false, Bool.and_true, Bool.not_eq_true] at zeros
          rw [justified, zeros]
          exact congrArg _ (congrArg _ (List.append_nil _))
      · rw [if_neg fits, if_pos (.inr (.inr (by omega)))]
        rfl

/-- `%.4d` of 42 has one zero. -/
example : emitInt 42 0 4 false false false false = .returns [0x30, 0x34, 0x32] := by decide +kernel

/-! What the C standard prescribes for the integer conversions. -/

/-- The word that an integer conversion prints. -/
def Field.word (f : Field) : UInt32 :=
  match f.arg with
  | some (.word w) => w
  | _ => 0

def Field.isSigned (f : Field) : Prop := f.cv.conv = 0x64 ∨ f.cv.conv = 0x69

instance (f : Field) : Decidable f.isSigned := inferInstanceAs (Decidable (f.cv.conv = 0x64 ∨ f.cv.conv = 0x69))

def Field.base (f : Field) : Nat := if f.cv.conv = 0x6f then 8 else if f.cv.conv = 0x75 then 10 else 16

/-- A signed number has a sign if it is negative or a flag asks for one; `+` goes before the blank. -/
def Field.sign (f : Field) : List UInt8 :=
  if f.isSigned then signChars (decide (f.word.toInt32.toInt < 0)) f.cv.flags.plus f.cv.flags.space else []

/-- The digits, of which the precision is the least number. -/
def Field.digits (f : Field) : List UInt8 :=
  if f.isSigned then numeral (digit false) 10 f.cv.prec f.word.toInt32.toInt.natAbs
  else numeral (digit (f.cv.conv == 0x58)) f.base f.cv.prec f.word.toNat

/-- The digits of the value of a `%d`. -/
def Field.places (f : Field) : Nat := Vsnprintf.places f.word.toInt32.toInt.natAbs

theorem Field.places_le (f : Field) : f.places ≤ 11 := by
  rw [Field.places, ← toNat_natAbs]
  exact Vsnprintf.places_le _

/-- A negative width is the flag `-` and a width; `-` overrides the flag `0`, and so does a precision. -/
def Field.standard (f : Field) : List UInt8 :=
  justified (f.cv.flags.left || decide (f.cv.width < 0)) (f.cv.flags.zero && decide (f.cv.prec < 0))
    (f.cv.width.natAbs - (f.sign ++ f.digits).length) f.sign f.digits

/-- `%d`, `%u`, `%x` or `%X`, behind the `%`, with its arguments, with or without `l`; it has no flag `#`. -/
structure IntegerConversion (text : List UInt8) (ap : List Arg) (f : Field) : Prop where
  noNul : 0 ∉ text
  reads : ∃ d ap', Directive.read text = some (d, []) ∧ d.take ap = some (f, ap') ∧
    d.conv ∈ [(0x64 : UInt8), 0x75, 0x78, 0x58] ∧ (d.mods = [] ∨ d.mods = [0x6c]) ∧ 0x23 ∉ d.flags

/-- The width fits an `int`, the precision asks for at most one zero in front of a signed number, the digits of an
unsigned one fit their buffer, and the value can be negated; a negative width leaves nothing to fill, and neither does
the width of an unsigned number with a precision and the flag `0`, without `-`. -/
structure Field.Regular (f : Field) : Prop where
  width : f.cv.width ≤ intMax
  prec : f.cv.prec ≤ if f.isSigned then (f.places + 1 : Int) else 33
  value : f.isSigned → f.word.toInt32.toInt ≠ intMin
  negative : f.cv.width < 0 → f.cv.width.natAbs ≤ (f.sign ++ f.digits).length
  zeros : ¬f.isSigned → f.cv.flags.zero = true → f.cv.flags.left = false → 0 ≤ f.cv.prec →
    f.cv.width ≤ (f.digits.length : Int)

theorem justified_iff {left zeros : Bool} {width : Int} {pad : Nat} {sign body : List UInt8}
    (nothing : width < 0 → pad = 0) :
    justified left zeros pad sign body =
        justified (left || decide (width < 0)) zeros (width.natAbs - (sign ++ body).length) sign body ↔
      pad = width.natAbs - (sign ++ body).length := by
  constructor
  · intro same
    have length := congrArg List.length same
    rw [justified_length, justified_length] at length
    omega
  · intro same
    rw [← same]
    by_cases negative : width < 0
    · rw [nothing negative, justified_zero, justified_zero]
    · rw [decide_eq_false negative, Bool.or_false]

theorem run_keep (out chars : List UInt8) :
    Exec.run (fun out ch => Exec.returns (out ++ [ch])) out chars = .returns (out ++ chars) := by
  induction chars generalizing out with
  | nil => rw [Exec.run, List.append_nil]
  | cons ch chars ih => rw [Exec.run, Exec.returns_bind, ih, List.append_assoc, List.singleton_append]

section
variable {emitDouble : Conversion → UInt64 → Exec (List UInt8)} {text : List UInt8} {ap : List Arg} {f : Field}

/-- The output of a format that is one conversion. -/
theorem output_field {d : Directive} {ap' : List Arg} {chars : List UInt8} (noNul : 0 ∉ text)
    (read : Directive.read text = some (d, [])) (taken : d.take ap = some (f, ap')) :
    output emitDouble (0x25 :: text ++ [0]) ap = .returns chars ↔ f.print emitDouble = .returns chars := by
  have reads : Reads (0x25 :: text) ap [.field f] := .field read taken .done
  have noNul' : 0 ∉ 0x25 :: text := List.not_mem_cons_of_ne_of_not_mem (by decide) noNul
  have enough : (0x25 :: text).length < (0x25 :: text ++ [0]).length := by
    rw [List.length_append]
    exact Nat.lt_succ_self _
  rw [output, formatLoop_reads reads noNul' enough, printPieces, Exec.bind_eq_returns]
  constructor
  · rintro ⟨chars', printed, ran⟩
    rw [run_keep] at ran
    cases ran
    exact printed
  · intro printed
    exact ⟨chars, printed, by rw [run_keep]; rfl⟩

theorem fst_behind {α : Type} (x : Exec α) (g : α → List UInt8) (ap : List Arg) :
    ((x >>= fun a => .returns (g a, ap)) >>= fun result => .returns result.1) = x >>= fun a => .returns (g a) := by
  rw [Exec.bind_assoc]
  rfl

theorem print_int (case : caseOf f.cv.conv = .int) {w : UInt32} (arg : f.arg = some (.word w)) :
    f.print emitDouble = if f.cv.width ≤ intMax ∧ f.cv.prec ≤ intMax then
      emitInt w.toInt32 f.cv.width f.cv.prec f.cv.flags.zero f.cv.flags.left f.cv.flags.plus f.cv.flags.space
    else .outOfBounds := by
  rw [Field.print, convert, case, arg]
  refine if_congr Iff.rfl ?_ rfl
  refine (fst_behind (emitInt w.toInt32 f.cv.width f.cv.prec f.cv.flags.zero f.cv.flags.left f.cv.flags.plus
    f.cv.flags.space) (fun chars => chars) []).trans ?_
  cases emitInt w.toInt32 f.cv.width f.cv.prec f.cv.flags.zero f.cv.flags.left f.cv.flags.plus f.cv.flags.space with
  | returns | spins | outOfBounds => rfl

theorem print_uint {base : Nat} {upper : Bool} {mark : List UInt8} (case : caseOf f.cv.conv = .uint base upper mark)
    {w : UInt32} (arg : f.arg = some (.word w)) :
    f.print emitDouble = if f.cv.width ≤ intMax ∧ f.cv.prec ≤ intMax then
      emitUint w base upper f.cv.width f.cv.prec f.cv.flags.zero f.cv.flags.left >>= fun chars =>
        .returns ((if f.cv.flags.hash ∧ w ≠ 0 then mark else []) ++ chars)
    else .outOfBounds := by
  rw [Field.print, convert, case, arg]
  exact if_congr Iff.rfl (fst_behind (emitUint w base upper f.cv.width f.cv.prec f.cv.flags.zero f.cv.flags.left)
    (fun chars => (if f.cv.flags.hash ∧ w ≠ 0 then mark else []) ++ chars) []) rfl

theorem numeral_short {digs : Nat → UInt8} {base : Nat} (large : 8 ≤ base) (v : UInt32) {prec : Int}
    (small : prec ≤ 34) : (numeral digs base prec v.toNat).length ≤ 34 := by
  have short := digits_length_le large v
  rw [numeral_length]
  split <;> omega

/-- The cases of the integers. -/
theorem caseOf_int {conv : UInt8} (case : caseOf conv = .int) : conv = 0x64 ∨ conv = 0x69 := by
  unfold caseOf at case
  split_ifs at case
  assumption

theorem caseOf_uint {conv : UInt8} {base : Nat} {upper : Bool} {mark : List UInt8}
    (case : caseOf conv = .uint base upper mark) : ¬(conv = 0x64 ∨ conv = 0x69) ∧ upper = (conv == 0x58) ∧
      base = if conv = 0x6f then 8 else if conv = 0x75 then 10 else 16 := by
  unfold caseOf at case
  split_ifs at case with signed decimal hex upperHex octal
  all_goals
    cases case
    refine ⟨signed, ?_⟩
    subst conv
    decide

theorem base_large (f : Field) : 8 ≤ f.base := by
  rw [Field.base]
  split
  · decide
  · split <;> decide

/-- The parts of a `%d`. -/
theorem int_parts (case : caseOf f.cv.conv = .int) {w : UInt32} (arg : f.arg = some (.word w)) :
    f.isSigned ∧ f.word = w ∧
      f.sign = signChars (decide (w.toInt32.toInt < 0)) f.cv.flags.plus f.cv.flags.space ∧
        f.digits = numeral (digit false) 10 f.cv.prec w.toInt32.toInt.natAbs := by
  have signed : f.isSigned := caseOf_int case
  have word : f.word = w := by rw [Field.word, arg]
  refine ⟨signed, word, ?_, ?_⟩
  · rw [Field.sign, if_pos signed, word]
  · rw [Field.digits, if_pos signed, word]

theorem int_print_iff (case : caseOf f.cv.conv = .int) {w : UInt32} (arg : f.arg = some (.word w)) :
    f.print emitDouble = .returns f.standard ↔ f.Regular := by
  obtain ⟨signed, word, sign, digits⟩ := int_parts case arg
  have signWidth_le := signChars_length (decide (w.toInt32.toInt < 0)) f.cv.flags.plus f.cv.flags.space
  have placesEq : f.places = places w.toInt32.toInt.natAbs := by rw [Field.places, word]
  rw [← sign] at signWidth_le
  rw [print_int case arg, emitInt_eq, ← sign, ← placesEq, Field.standard]
  constructor
  · intro printed
    split at printed
    · rename_i small
      split at printed
      · cases printed
      · rename_i defined
        obtain ⟨value, rest⟩ := not_or.mp defined
        have same := Exec.returns.inj printed
        have prec : f.cv.prec ≤ f.places + 1 := by
          by_cases negative : f.cv.prec < 0
          · omega
          · have counted := congrArg (List.count 0x30) same
            rw [decide_eq_false negative, Bool.and_false, justified_count, justified_count, Nat.add_left_cancel_iff,
              digits] at counted
            rw [placesEq] at counted ⊢
            exact reached_of_count counted
        rw [(reachedPrec_eq_iff _ _).mpr prec, ← digits] at same
        have fill := (justified_iff fun negative => by omega).mp same
        refine ⟨small.1, ?_, fun _ => word ▸ value, fun negative => by omega, fun unsigned => absurd signed unsigned⟩
        rwa [if_pos signed]
    · cases printed
  · intro regular
    have prec := regular.prec
    rw [if_pos signed] at prec
    have value := regular.value signed
    rw [word] at value
    have few := f.places_le
    have short : f.digits.length ≤ 34 := by
      rw [digits, ← toNat_natAbs]
      exact numeral_short (by decide) _ (by omega)
    have negative := regular.negative
    rw [List.length_append] at negative
    have narrow : signWidth (decide (w.toInt32.toInt < 0)) f.cv.flags.plus f.cv.flags.space ≤ 1 := by
      rw [signWidth]
      split <;> decide
    have defined : ¬(w.toInt32.toInt = intMin ∨ f.cv.width -
        signWidth (decide (w.toInt32.toInt < 0)) f.cv.flags.plus f.cv.flags.space < intMin ∨ 34 < f.cv.prec) := by
      rw [not_or, not_or, intMin]
      exact ⟨value, by omega, by omega⟩
    rw [(reachedPrec_eq_iff _ _).mpr prec, ← digits, if_pos ⟨regular.width, by rw [intMax]; omega⟩, if_neg defined]
    refine congrArg Exec.returns ((justified_iff fun negative => by omega).mpr ?_)
    rw [List.length_append]
    omega

section
variable {base : Nat} {upper : Bool} {mark : List UInt8}

theorem uint_parts (case : caseOf f.cv.conv = .uint base upper mark) : ¬f.isSigned ∧ 8 ≤ base ∧ f.sign = [] ∧
    f.digits = numeral (digit upper) base f.cv.prec f.word.toNat := by
  obtain ⟨unsigned, sameUpper, sameBase⟩ := caseOf_uint case
  have signed : ¬f.isSigned := unsigned
  refine ⟨signed, sameBase ▸ base_large f, if_neg signed, ?_⟩
  rw [Field.digits, sameUpper, sameBase]
  exact if_neg signed

/-- What is printed of an unsigned number, as long as its digits fit. -/
theorem uint_print (case : caseOf f.cv.conv = .uint base upper mark) (noHash : f.cv.flags.hash = false) {w : UInt32}
    (arg : f.arg = some (.word w)) :
    f.print emitDouble = if f.cv.width ≤ intMax ∧ f.cv.prec ≤ 33 then
      .returns (justified f.cv.flags.left (f.cv.flags.zero && decide (f.cv.prec < 0))
        (if f.cv.flags.left = false ∧ f.cv.flags.zero = true ∧ 0 ≤ f.cv.prec then 0
          else (f.cv.width - f.digits.length).toNat) f.sign f.digits) else .outOfBounds := by
  obtain ⟨-, large, sign, digits⟩ := uint_parts case
  have word : f.word = w := by rw [Field.word, arg]
  rw [print_uint case arg, emitUint_eq large, noHash, sign, digits, word]
  by_cases small : f.cv.width ≤ intMax ∧ f.cv.prec ≤ 33
  · rw [if_pos small, if_pos ⟨small.1, small.2.trans (by decide)⟩, if_pos small.2, Exec.returns_bind,
      if_neg fun both => Bool.false_ne_true both.1, List.nil_append]
  · rw [if_neg small]
    split
    · rename_i both
      rw [if_neg fun fits => small ⟨both.1, fits⟩]
      rfl
    · rfl

theorem uint_print_iff (case : caseOf f.cv.conv = .uint base upper mark) (noHash : f.cv.flags.hash = false) {w : UInt32}
    (arg : f.arg = some (.word w)) : f.print emitDouble = .returns f.standard ↔ f.Regular := by
  obtain ⟨signed, -, sign, -⟩ := uint_parts case
  rw [uint_print case noHash arg, Field.standard]
  by_cases small : f.cv.width ≤ intMax ∧ f.cv.prec ≤ 33
  · rw [if_pos small, Exec.returns.injEq, justified_iff, sign, List.nil_append]
    · constructor
      · intro fill
        refine ⟨small.1, ?_, fun is => absurd is signed, fun negative => ?_, fun _ zero left given => ?_⟩
        · rw [if_neg signed]
          exact small.2
        · rw [sign, List.nil_append]
          split at fill <;> omega
        · rw [if_pos ⟨left, zero, given⟩] at fill
          omega
      · intro regular
        have negative := regular.negative
        rw [sign, List.nil_append] at negative
        split
        · rename_i both
          have zeros := regular.zeros signed both.2.1 both.1 both.2.2
          omega
        · omega
    · intro negative
      split <;> omega
  · rw [if_neg small]
    refine iff_of_false (fun ran => by cases ran) fun regular => small ⟨regular.width, ?_⟩
    have prec := regular.prec
    rwa [if_neg signed] at prec

end

/-- An integer conversion that is not wide takes a word. -/
theorem word_arg {case : Case} {mods : List UInt8} {prec : Int} {arg : Option Arg}
    (integer : case = .int ∨ ∃ base upper mark, case = .uint base upper mark) (narrow : isWide mods = false)
    (takes : ∀ a, arg = some a → case.takes mods prec a = true) (free : arg = none → case.hasArg = false) :
    ∃ w, arg = some (.word w) := by
  cases arg with
  | none =>
    have noArg := free rfl
    rcases integer with rfl | ⟨base, upper, mark, rfl⟩ <;> cases noArg
  | some arg =>
    have fits := takes arg rfl
    cases arg with
    | word w => exact ⟨w, rfl⟩
    | dword =>
      rcases integer with rfl | ⟨base, upper, mark, rfl⟩
      · exact absurd (narrow.symm.trans fits) Bool.false_ne_true
      · exact absurd (narrow.symm.trans fits) Bool.false_ne_true
    | ptr | str | double => rcases integer with rfl | ⟨base, upper, mark, rfl⟩ <;> cases fits

/-- Only these are printed as the standard has it. -/
theorem integer_standard_iff (is : IntegerConversion text ap f) :
    output emitDouble (0x25 :: text ++ [0]) ap = .returns f.standard ↔ f.Regular := by
  obtain ⟨d, ap', read, taken, conv, mods, hash⟩ := is.reads
  obtain ⟨-, -, -, flags, sameConv, takes, free⟩ := take_spec taken
  have noHash : f.cv.flags.hash = false := by
    rw [flags, Flags.add, Bool.false_or]
    exact Bool.eq_false_iff.mpr fun has => hash (List.contains_iff_mem.mp has)
  have narrow : isWide d.mods = false := by
    rcases mods with same | same
    · rw [same]
      rfl
    · rw [same]
      rfl
  rw [output_field is.noNul read taken]
  rw [← sameConv] at conv takes free
  have case : caseOf f.cv.conv = .int ∨ ∃ base upper mark, caseOf f.cv.conv = .uint base upper mark := by
    simp only [List.mem_cons, List.not_mem_nil, or_false] at conv
    rcases conv with signed | decimal | hex | upperHex
    · rw [signed]
      exact .inl rfl
    · rw [decimal]
      exact .inr ⟨_, _, _, rfl⟩
    · rw [hex]
      exact .inr ⟨_, _, _, rfl⟩
    · rw [upperHex]
      exact .inr ⟨_, _, _, rfl⟩
  obtain ⟨w, arg⟩ := word_arg case narrow takes free
  rcases case with case | ⟨base, upper, mark, case⟩
  · exact int_print_iff case arg
  · exact uint_print_iff case noHash arg

end

/-- `42` behind `%5d`. -/
theorem five_wide : output (fun _ _ => .spins) [0x25, 0x35, 0x64, 0] [.word 42] =
    .returns (Field.standard ⟨⟨⟨false, false, false, false, false⟩, 5, -1, 0x64⟩, some (.word 42)⟩) := by
  have is : IntegerConversion [0x35, 0x64] [.word 42]
      ⟨⟨⟨false, false, false, false, false⟩, 5, -1, 0x64⟩, some (.word 42)⟩ :=
    ⟨by decide, ⟨_, _, rfl, rfl, by decide, .inl rfl, by decide⟩⟩
  exact (integer_standard_iff is).mpr ⟨by decide, by decide, by decide, by decide, by decide⟩

/-- `%05.3u` of 42: the width is not filled. -/
theorem zeros_not_filled : ¬ ∀ (emitDouble : Conversion → UInt64 → Exec (List UInt8)) (text : List UInt8)
    (ap : List Arg) (f : Field), IntegerConversion text ap f → output emitDouble (0x25 :: text ++ [0]) ap = .returns f.standard := by
  intro all
  have is : IntegerConversion [0x30, 0x35, 0x2e, 0x33, 0x75] [.word 42]
      ⟨⟨⟨false, false, true, false, false⟩, 5, 3, 0x75⟩, some (.word 42)⟩ :=
    ⟨by decide, ⟨_, _, rfl, rfl, by decide, .inl rfl, by decide⟩⟩
  have printed : output (fun _ _ => .spins) [0x25, 0x30, 0x35, 0x2e, 0x33, 0x75, 0] [.word 42] =
      .returns [0x30, 0x34, 0x32] := by decide +kernel
  have standard : Field.standard ⟨⟨⟨false, false, true, false, false⟩, 5, 3, 0x75⟩, some (.word 42)⟩ =
      [0x20, 0x20, 0x30, 0x34, 0x32] := by decide +kernel
  have same := (all (fun _ _ => .spins) _ _ _ is).symm.trans printed
  rw [standard] at same
  cases same

end Vsnprintf
end Blyt
