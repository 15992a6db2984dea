import Blyt.VsnprintfIntegers

namespace Blyt
namespace Vsnprintf

/-! The size of what a format prints. -/

/-- The digits of a `%d` as they are printed. -/
def Field.shown (f : Field) : List UInt8 :=
  numeral (digit false) 10 (reachedPrec f.places f.cv.prec) f.word.toInt32.toInt.natAbs

/-- The characters of a string argument that are printed. -/
def Field.chars (f : Field) : List UInt8 :=
  match f.arg with
  | some (.str s) =>
    if f.cv.prec < 0 then (s.getD nullText).takeWhile (· ≠ 0)
    else ((s.getD nullText).takeWhile (· ≠ 0)).take f.cv.prec.toNat
  | _ => []

def Field.size (f : Field) : Nat :=
  match caseOf f.cv.conv with
  | .int => max f.cv.width.toNat (f.sign ++ f.shown).length
  | .uint _ _ mark => (if f.cv.flags.hash ∧ f.word ≠ 0 then mark.length else 0) +
      if f.cv.flags.left = false ∧ f.cv.flags.zero = true ∧ 0 ≤ f.cv.prec then f.digits.length
      else max f.cv.width.toNat f.digits.length
  | .pointer => 10
  | .string => max f.cv.width.toNat f.chars.length
  | .char => max f.cv.width.toNat 1
  | .double => 0
  | .percent => 1
  | .other => 2

def Piece.size : Piece → Nat
  | .literal _ => 1
  | .field f => f.size
  | .cut => 0

/-- Nothing undefined is met: the numbers fit an `int`, the argument is as large as it is read, the digits fit their
buffer, an integer can be negated, and the byte behind a string is there to be read. -/
structure Field.Prints (f : Field) : Prop where
  width : f.cv.width ≤ intMax
  prec : f.cv.prec ≤ intMax
  int : caseOf f.cv.conv = .int → ∃ w, f.arg = some (.word w) ∧ w.toInt32.toInt ≠ intMin ∧
    intMin ≤ f.cv.width - f.sign.length ∧ f.cv.prec + f.places ≤ 68
  uint : ∀ base upper mark, caseOf f.cv.conv = .uint base upper mark →
    ∃ w, f.arg = some (.word w) ∧ f.cv.prec ≤ 33
  string : ∀ s, f.arg = some (.str (some s)) → 0 ∈ s ∨ (0 ≤ f.cv.prec ∧ f.cv.prec < s.length)

/-- The arguments of a conversion match it. -/
def Field.Matched (f : Field) : Prop :=
  ∃ mods, (∀ a, f.arg = some a → (caseOf f.cv.conv).takes mods f.cv.prec a = true) ∧
    (f.arg = none → (caseOf f.cv.conv).hasArg = false)

/-- Half of the zeros that the precision asks for are in the buffer. -/
theorem reachedPrec_le_iff {n : Nat} (short : n ≤ 11) (prec : Int) : reachedPrec n prec ≤ 34 ↔ prec + n ≤ 68 := by
  rw [reachedPrec]
  split <;> omega

theorem strCount_unbounded {prec : Int} (negative : prec < 0) (n : Nat) (s : List UInt8) :
    strCount prec n s = if 0 ∈ s then .returns (n + (s.takeWhile (· ≠ 0)).length) else .outOfBounds := by
  induction s generalizing n with
  | nil => rfl
  | cons b s ih =>
    rw [strCount]
    by_cases zero : b = 0
    · rw [if_neg fun both => both.1 zero, if_pos (zero ▸ List.mem_cons_self),
        List.takeWhile_cons_of_neg (by simpa using zero)]
      rfl
    · rw [if_pos ⟨zero, .inl negative⟩, ih, List.takeWhile_cons_of_pos (by simpa using zero), List.length_cons]
      refine if_congr ?_ (by rw [Nat.add_right_comm, Nat.add_assoc]) rfl
      rw [List.mem_cons, or_iff_right (Ne.symm zero)]

theorem strCount_bounded {prec : Int} {n : Nat} (given : (n : Int) ≤ prec) (s : List UInt8) :
    strCount prec n s = if 0 ∈ s ∨ prec - n < s.length then
      .returns (n + ((s.takeWhile (· ≠ 0)).take (prec - n).toNat).length) else .outOfBounds := by
  induction s generalizing n with
  | nil =>
    refine (if_neg (not_or.mpr ⟨List.not_mem_nil, ?_⟩)).symm
    rw [List.length_nil]
    omega
  | cons b s ih =>
    rw [strCount]
    by_cases zero : b = 0
    · rw [if_neg fun both => both.1 zero, if_pos (.inl (zero ▸ List.mem_cons_self)),
        List.takeWhile_cons_of_neg (by simpa using zero), List.take_nil]
      rfl
    · rw [List.takeWhile_cons_of_pos (by simpa using zero)]
      by_cases more : (n : Int) < prec
      · have next : (prec - n).toNat = (prec - (n + 1 : Nat)).toNat + 1 := by omega
        rw [if_pos ⟨zero, .inr more⟩, ih (by omega), next, List.take_succ_cons]
        refine if_congr ?_ (by rw [List.length_cons, Nat.add_right_comm, Nat.add_assoc]) rfl
        rw [List.mem_cons, or_iff_right (Ne.symm zero), List.length_cons]
        refine or_congr Iff.rfl ?_
        omega
      · have none : (prec - n).toNat = 0 := by omega
        have last : ¬(b ≠ 0 ∧ (prec < 0 ∨ (n : Int) < prec)) := fun both => by omega
        rw [if_neg last, none, List.take_zero, List.length_nil, Nat.add_zero, if_pos]
        rw [List.length_cons]
        omega

section
variable {emitDouble : Conversion → UInt64 → Exec (List UInt8)} {f : Field}

/-- A string is counted unless what is read ends before its NUL. -/
theorem strCount_chars {s : Option (List UInt8)} (arg : f.arg = some (.str s))  :
    strCount f.cv.prec 0 (s.getD nullText) =
      if ∀ bytes, s = some bytes → 0 ∈ bytes ∨ (0 ≤ f.cv.prec ∧ f.cv.prec < bytes.length) then
        .returns f.chars.length else .outOfBounds := by
  rw [Field.chars, arg]
  simp only
  by_cases negative : f.cv.prec < 0
  · rw [strCount_unbounded negative, Nat.zero_add, if_pos negative]
    refine if_congr ?_ rfl rfl
    cases s with
    | none => exact iff_of_true (by decide) fun bytes none => by cases none
    | some bytes =>
      constructor
      · intro has bytes' same
        cases same
        exact .inl has
      · intro all
        exact (all bytes rfl).resolve_right fun both => absurd negative (Int.not_lt.mpr both.1)
  · have given : 0 ≤ f.cv.prec := Int.not_lt.mp negative
    have zero : ((0 : Nat) : Int) = 0 := rfl
    rw [strCount_bounded given, Nat.zero_add, if_neg negative, zero, Int.sub_zero]
    refine if_congr ?_ rfl rfl
    cases s with
    | none => exact iff_of_true (.inl (by decide)) fun bytes none => by cases none
    | some bytes =>
      constructor
      · intro has bytes' same
        cases same
        exact has.imp_right fun short => ⟨given, short⟩
      · intro all
        exact (all bytes rfl).imp_right fun both => both.2

theorem toInt_ofNat {n : Nat} (small : n ≤ 2 ^ 31 - 1) : (UInt32.ofNat n).toInt32.toInt = n :=
  Int32.toInt_ofNat_of_lt (by omega)

/-- How a conversion ends: it prints as much as its size, or something undefined is met. -/
def Field.Ends (f : Field) (printed : Exec (List UInt8)) : Prop :=
  (∃ chars, printed = .returns chars ∧ f.Prints ∧
    (chars.length ≤ 2 ^ 31 - 1 ∨ f.size ≤ 2 ^ 31 - 1 → chars.length = f.size)) ∨
  (printed = .outOfBounds ∧ (f.Prints → 2 ^ 31 - 1 < f.size))

theorem int_ends (case : caseOf f.cv.conv = .int) {w : UInt32} (arg : f.arg = some (.word w))
    (small : f.cv.width ≤ intMax ∧ f.cv.prec ≤ intMax) : f.Ends (f.print emitDouble) := by
  obtain ⟨-, word, sign, -⟩ := int_parts case arg
  have signw := signChars_length (decide (w.toInt32.toInt < 0)) f.cv.flags.plus f.cv.flags.space
  have shown : f.shown = numeral (digit false) 10 (reachedPrec f.places f.cv.prec) w.toInt32.toInt.natAbs := by
    rw [Field.shown, word]
  have placesEq : f.places = places w.toInt32.toInt.natAbs := by rw [Field.places, word]
  have fits := reachedPrec_le_iff f.places_le f.cv.prec
  rw [print_int case arg, if_pos small, emitInt_eq, ← signw, ← sign, ← placesEq, ← shown]
  split
  · rename_i undefined_
    refine .inr ⟨rfl, fun prints => ?_⟩
    obtain ⟨w', arg', value, low, prec⟩ := prints.int case
    cases arg.symm.trans arg'
    rcases undefined_ with least | wide | long
    · exact absurd least value
    · omega
    · exact absurd (fits.mpr prec) (Int.not_le.mpr long)
  · rename_i defined
    obtain ⟨value, rest⟩ := not_or.mp defined
    obtain ⟨low, prec⟩ := not_or.mp rest
    refine .inl ⟨_, rfl, ⟨small.1, small.2, fun _ => ⟨w, arg, value, by omega, fits.mp (Int.not_lt.mp prec)⟩,
      fun _ _ _ other => ?_, fun s str => ?_⟩, fun _ => ?_⟩
    · cases case.symm.trans other
    · cases arg.symm.trans str
    · rw [justified_length, Field.size, case, List.length_append]
      simp only
      omega

theorem uint_ends {base : Nat} {upper : Bool} {mark : List UInt8} (case : caseOf f.cv.conv = .uint base upper mark)
    {w : UInt32} (arg : f.arg = some (.word w)) (small : f.cv.width ≤ intMax ∧ f.cv.prec ≤ intMax) :
    f.Ends (f.print emitDouble) := by
  obtain ⟨unsigned, sameUpper, sameBase⟩ := caseOf_uint case
  have word : f.word = w := by rw [Field.word, arg]
  have digits : f.digits = numeral (digit upper) base f.cv.prec w.toNat := by
    rw [Field.digits, sameUpper, sameBase, word]
    exact if_neg unsigned
  rw [print_uint case arg, if_pos small, emitUint_eq (sameBase ▸ base_large f), ← digits]
  by_cases prec : f.cv.prec ≤ 33
  · rw [if_pos prec, Exec.returns_bind]
    refine .inl ⟨_, rfl, ⟨small.1, small.2, fun other => ?_, fun _ _ _ _ => ⟨w, arg, prec⟩, fun s str => ?_⟩,
      fun _ => ?_⟩
    · cases case.symm.trans other
    · cases arg.symm.trans str
    · rw [List.length_append, justified_length, Field.size, case, word]
      simp only [apply_ite List.length, List.length_nil]
      congr 1
      split <;> omega
  · rw [if_neg prec]
    refine .inr ⟨rfl, fun prints => ?_⟩
    obtain ⟨w', arg', narrow⟩ := prints.uint base upper mark case
    omega

theorem pointer_ends (case : caseOf f.cv.conv = .pointer) {p : UInt32} (arg : f.arg = some (.ptr p))
    (small : f.cv.width ≤ intMax ∧ f.cv.prec ≤ intMax) : f.Ends (f.print emitDouble) := by
  have digits : (numeral (digit false) 16 8 p.toNat).length = 8 := by
    have short : (Nat.digits 16 p.toNat).length ≤ 8 := (Nat.digits_length_le_iff (by decide) _).mpr p.toNat_lt
    rw [numeral_length, if_neg (by decide)]
    exact max_eq_left short
  have printed : f.print emitDouble = emitUint p 16 false 0 8 true false >>= fun chars =>
      .returns (0x30 :: 0x78 :: chars) := by
    rw [Field.print, if_pos small, convert, case, arg]
    exact fst_behind (emitUint p 16 false 0 8 true false) (fun chars => 0x30 :: 0x78 :: chars) []
  rw [printed, emitUint_eq (by decide), if_pos (by decide), Exec.returns_bind]
  refine .inl ⟨_, rfl, ⟨small.1, small.2, fun other => ?_, fun _ _ _ other => ?_, fun s str => ?_⟩, fun _ => ?_⟩
  · cases case.symm.trans other
  · cases case.symm.trans other
  · cases arg.symm.trans str
  · rw [List.length_cons, List.length_cons, justified_length, digits, Field.size, case]
    rfl

theorem chars_length_le {s : Option (List UInt8)} (arg : f.arg = some (.str s)) :
    f.chars.length ≤ (s.getD nullText).length := by
  have front : ((s.getD nullText).takeWhile (· ≠ 0)).length ≤ (s.getD nullText).length :=
    (List.takeWhile_prefix _).length_le
  rw [Field.chars, arg]
  simp only
  split
  · exact front
  · exact (List.length_take_le' _ _).trans front

theorem filled_length (left : Bool) (pad : Nat) (text : List UInt8) :
    ((if ! left then List.replicate pad 0x20 else []) ++
      (text ++ if left then List.replicate pad 0x20 else [])).length = text.length + pad := by
  cases left with
  | true =>
    rw [List.length_append, List.length_append, if_pos rfl, List.length_replicate]
    exact Nat.zero_add _
  | false =>
    rw [List.length_append, List.length_append, Bool.not_false, if_pos rfl, List.length_replicate]
    exact Nat.add_comm _ _

theorem string_ends (case : caseOf f.cv.conv = .string) {s : Option (List UInt8)} (arg : f.arg = some (.str s))
    (small : f.cv.width ≤ intMax ∧ f.cv.prec ≤ intMax) : f.Ends (f.print emitDouble) := by
  have printed : f.print emitDouble = emitStr s f.cv.width f.cv.prec f.cv.flags.left := by
    rw [Field.print, if_pos small, convert, case, arg]
    refine (fst_behind (emitStr s f.cv.width f.cv.prec f.cv.flags.left) (fun chars => chars) []).trans ?_
    cases emitStr s f.cv.width f.cv.prec f.cv.flags.left with
    | returns | spins | outOfBounds => rfl
  have size : f.size = max f.cv.width.toNat f.chars.length := by rw [Field.size, case]
  rw [printed, emitStr]
  simp only
  rw [strCount_chars arg]
  split
  · rename_i readable
    have prints : f.Prints := by
      refine ⟨small.1, small.2, fun other => ?_, fun _ _ _ other => ?_, fun s str => ?_⟩
      · cases case.symm.trans other
      · cases case.symm.trans other
      · cases arg.symm.trans str
        exact readable s rfl
    rw [Exec.returns_bind]
    split
    · rename_i wide
      refine .inr ⟨rfl, fun _ => Nat.lt_of_not_le fun few => ?_⟩
      rw [toInt_ofNat (by omega)] at wide
      have width := small.1
      omega
    · refine .inl ⟨_, rfl, prints, fun short => ?_⟩
      rw [filled_length, List.length_take, Nat.min_eq_left (chars_length_le arg)] at short ⊢
      have few : f.chars.length ≤ 2 ^ 31 - 1 := by omega
      rw [toInt_ofNat few, size]
      omega
  · rename_i unreadable
    refine .inr ⟨rfl, fun prints => absurd (fun bytes same => prints.string bytes ?_) unreadable⟩
    rw [arg, same]

theorem char_ends (case : caseOf f.cv.conv = .char) {w : UInt32} (arg : f.arg = some (.word w))
    (small : f.cv.width ≤ intMax ∧ f.cv.prec ≤ intMax) : f.Ends (f.print emitDouble) := by
  have printed : f.print emitDouble = .returns (emitChar w f.cv.width f.cv.flags.left) := by
    rw [Field.print, if_pos small, convert, case, arg]
    rfl
  rw [printed]
  refine .inl ⟨_, rfl, ⟨small.1, small.2, fun other => ?_, fun _ _ _ other => ?_, fun s str => ?_⟩, fun _ => ?_⟩
  · cases case.symm.trans other
  · cases case.symm.trans other
  · cases arg.symm.trans str
  · have length := filled_length f.cv.flags.left (f.cv.width - 1).toNat [w.toUInt8]
    rw [List.singleton_append, List.length_singleton] at length
    rw [emitChar, Field.size, case]
    simp only
    rw [length]
    omega

/-- A conversion without an argument. -/
theorem plain_ends (case : caseOf f.cv.conv = .percent ∨ caseOf f.cv.conv = .other) (arg : f.arg = none)
    (small : f.cv.width ≤ intMax ∧ f.cv.prec ≤ intMax) : f.Ends (f.print emitDouble) := by
  have prints : f.Prints := by
    refine ⟨small.1, small.2, fun other => ?_, fun _ _ _ other => ?_, fun s str => ?_⟩
    · rcases case with case | case <;> cases case.symm.trans other
    · rcases case with case | case <;> cases case.symm.trans other
    · cases arg.symm.trans str
  rcases case with case | case
  · refine .inl ⟨[0x25], ?_, prints, fun _ => ?_⟩
    · rw [Field.print, if_pos small, convert, case]
      rfl
    · rw [Field.size, case]
      rfl
  · refine .inl ⟨[0x25, f.cv.conv], ?_, prints, fun _ => ?_⟩
    · rw [Field.print, if_pos small, convert, case]
      rfl
    · rw [Field.size, case]
      rfl

/-- `long` is read where there is a `long long`. -/
theorem wide_ends (case : caseOf f.cv.conv = .int ∨ ∃ base upper mark, caseOf f.cv.conv = .uint base upper mark)
    {w : UInt64} (arg : f.arg = some (.dword w)) : f.Ends (f.print emitDouble) := by
  refine .inr ⟨?_, fun prints => ?_⟩
  · rw [Field.print]
    split
    · rcases case with case | ⟨base, upper, mark, case⟩
      · rw [convert, case, arg]
        rfl
      · rw [convert, case, arg]
        rfl
    · rfl
  · rcases case with case | ⟨base, upper, mark, case⟩
    · obtain ⟨w', arg', -⟩ := prints.int case
      cases arg.symm.trans arg'
    · obtain ⟨w', arg', -⟩ := prints.uint base upper mark case
      cases arg.symm.trans arg'

theorem Field.Matched.argument (matched : f.Matched) {case : Case} (here : caseOf f.cv.conv = case)
    (hasArg : case.hasArg = true) : ∃ mods a, f.arg = some a ∧ case.takes mods f.cv.prec a = true := by
  obtain ⟨mods, takes, free⟩ := matched
  rw [here] at takes free
  cases arg : f.arg with
  | none => exact absurd (free arg) (by rw [hasArg]; exact Bool.false_ne_true.symm)
  | some a => exact ⟨mods, a, rfl, takes a arg⟩

theorem Field.Matched.noArgument (matched : f.Matched) {case : Case} (here : caseOf f.cv.conv = case)
    (takesNone : ∀ mods prec a, case.takes mods prec a = false) : f.arg = none := by
  obtain ⟨mods, takes, -⟩ := matched
  rw [here] at takes
  cases arg : f.arg with
  | none => rfl
  | some a => exact absurd (takes a arg) (by rw [takesNone]; exact Bool.false_ne_true)

theorem print_ends (matched : f.Matched) (notDouble : caseOf f.cv.conv ≠ .double) : f.Ends (f.print emitDouble) := by
  by_cases small : f.cv.width ≤ intMax ∧ f.cv.prec ≤ intMax
  · cases case : caseOf f.cv.conv with
    | int =>
      obtain ⟨mods, a, arg, fits⟩ := matched.argument case rfl
      cases a with
      | word => exact int_ends case arg small
      | dword => exact wide_ends (.inl case) arg
      | ptr | str | double => cases fits
    | uint base upper mark =>
      obtain ⟨mods, a, arg, fits⟩ := matched.argument case rfl
      cases a with
      | word => exact uint_ends case arg small
      | dword => exact wide_ends (.inr ⟨_, _, _, case⟩) arg
      | ptr | str | double => cases fits
    | pointer =>
      obtain ⟨mods, a, arg, fits⟩ := matched.argument case rfl
      cases a with
      | ptr => exact pointer_ends case arg small
      | word | dword | str | double => cases fits
    | string =>
      obtain ⟨mods, a, arg, fits⟩ := matched.argument case rfl
      cases a with
      | str => exact string_ends case arg small
      | word | dword | ptr | double => cases fits
    | char =>
      obtain ⟨mods, a, arg, fits⟩ := matched.argument case rfl
      cases a with
      | word => exact char_ends case arg small
      | dword | ptr | str | double => cases fits
    | double => exact absurd case notDouble
    | percent => exact plain_ends (.inl case) (matched.noArgument case fun mods prec a => rfl) small
    | other => exact plain_ends (.inr case) (matched.noArgument case fun mods prec a => rfl) small
  · refine .inr ⟨?_, fun prints => absurd ⟨prints.width, prints.prec⟩ small⟩
    rw [Field.print, if_neg small]

end

/-! The pieces of a format. -/

/-- Nothing undefined is met in a format: it does not end within a conversion, and its output has an `int` size. -/
structure Printable (pieces : List Piece) : Prop where
  whole : .cut ∉ pieces
  prints : ∀ f, .field f ∈ pieces → f.Prints
  size : (pieces.map Piece.size).sum ≤ 2 ^ 31 - 1

/-- The conversions of `double`. -/
def doubleConversions : List UInt8 := [0x66, 0x46, 0x65, 0x45, 0x67, 0x47, 0x61, 0x41]

def NoDoubles (pieces : List Piece) : Prop := ∀ f, .field f ∈ pieces → f.cv.conv ∉ doubleConversions

theorem caseOf_double {conv : UInt8} (case : caseOf conv = .double) : conv ∈ doubleConversions := by
  unfold caseOf at case
  split_ifs at case with _ _ _ _ _ _ _ _ double
  simp only [List.mem_cons, List.not_mem_nil, or_false] at double
  rcases double with rfl | rfl | rfl | rfl | rfl | rfl <;> decide

theorem Reads.matched {text : List UInt8} {ap : List Arg} {pieces : List Piece} (reads : Reads text ap pieces) :
    ∀ f, .field f ∈ pieces → f.Matched := by
  induction reads with
  | done => exact fun f member => absurd member List.not_mem_nil
  | literal other reads ih =>
    intro f member
    rcases List.mem_cons.mp member with same | member
    · cases same
    · exact ih f member
  | @field text rest ap ap' d f' pieces read taken reads ih =>
    intro f member
    rcases List.mem_cons.mp member with same | member
    · cases same
      obtain ⟨-, -, -, -, conv, takes, free⟩ := take_spec taken
      rw [← conv] at takes free
      exact ⟨d.mods, takes, free⟩
    · exact ih f member
  | cut =>
    intro f member
    cases List.mem_singleton.mp member

section
variable {emitDouble : Conversion → UInt64 → Exec (List UInt8)} {pieces : List Piece}

/-- What is printable is printed to any sink. -/
theorem Printable.printed (printable : Printable pieces) (matched : ∀ f, .field f ∈ pieces → f.Matched)
    (noDoubles : NoDoubles pieces) : ∃ chars : List UInt8, chars.length = (pieces.map Piece.size).sum ∧
      ∀ {κ : Type} (pput : κ → UInt8 → Exec κ) (c : κ),
        printPieces emitDouble pput pieces c = Exec.run pput c chars := by
  induction pieces with
  | nil => exact ⟨[], rfl, fun pput c => rfl⟩
  | cons piece pieces ih =>
    obtain ⟨whole, prints, size⟩ := printable
    rw [List.map_cons, List.sum_cons] at size
    obtain ⟨chars, length, run⟩ := ih
      ⟨fun member => whole (List.mem_cons_of_mem _ member), fun f member => prints f (List.mem_cons_of_mem _ member),
        by omega⟩ (fun f member => matched f (List.mem_cons_of_mem _ member))
      (fun f member => noDoubles f (List.mem_cons_of_mem _ member))
    rw [List.map_cons, List.sum_cons]
    cases piece with
    | literal ch =>
      refine ⟨ch :: chars, ?_, fun pput c => ?_⟩
      · rw [List.length_cons, length, Nat.add_comm]
        rfl
      · rw [printPieces, Exec.run]
        exact congrArg _ (funext fun c => run pput c)
    | field f =>
      have double : caseOf f.cv.conv ≠ .double := fun case => noDoubles f List.mem_cons_self (caseOf_double case)
      have small : f.size ≤ 2 ^ 31 - 1 := Nat.le_trans (Nat.le_add_right _ _) size
      have ends : f.Ends (f.print emitDouble) := print_ends (matched f List.mem_cons_self) double
      rcases ends with ⟨text, printed, -, exact_⟩ | ⟨-, large⟩
      · refine ⟨text ++ chars, ?_, fun pput c => ?_⟩
        · rw [List.length_append, length, exact_ (.inr small)]
          rfl
        · rw [printPieces, printed, Exec.returns_bind, Exec.run_append]
          exact congrArg _ (funext fun c => run pput c)
      · exact absurd (large (prints f List.mem_cons_self)) (Nat.not_lt.mpr small)
    | cut => exact absurd List.mem_cons_self whole

/-- What is printed to the sink that keeps it is printable, but for its size. -/
theorem printPieces_keep (matched : ∀ f, .field f ∈ pieces → f.Matched) (noDoubles : NoDoubles pieces)
    {out out' : List UInt8}
    (printed : printPieces emitDouble (fun out ch => .returns (out ++ [ch])) pieces out = .returns out') :
    .cut ∉ pieces ∧ (∀ f, .field f ∈ pieces → f.Prints) ∧
      (out'.length ≤ 2 ^ 31 - 1 → out'.length = out.length + (pieces.map Piece.size).sum) ∧
        out.length ≤ out'.length := by
  induction pieces generalizing out with
  | nil =>
    cases printed
    exact ⟨List.not_mem_nil, fun f member => absurd member List.not_mem_nil, fun _ => rfl, Nat.le_refl _⟩
  | cons piece pieces ih =>
    have matched' : ∀ f, .field f ∈ pieces → f.Matched := fun f member => matched f (List.mem_cons_of_mem _ member)
    have noDoubles' : NoDoubles pieces := fun f member => noDoubles f (List.mem_cons_of_mem _ member)
    rw [List.map_cons, List.sum_cons]
    cases piece with
    | literal ch =>
      obtain ⟨whole, prints, size, grows⟩ := ih matched' noDoubles' printed
      rw [List.length_append, List.length_singleton] at size grows
      refine ⟨fun member => ?_, fun f member => ?_, fun short => ?_, by omega⟩
      · rcases List.mem_cons.mp member with same | member
        · cases same
        · exact whole member
      · rcases List.mem_cons.mp member with same | member
        · cases same
        · exact prints f member
      · rw [size short, Nat.add_assoc]
        rfl
    | field f =>
      have double : caseOf f.cv.conv ≠ .double := fun case => noDoubles f List.mem_cons_self (caseOf_double case)
      have ends : f.Ends (f.print emitDouble) := print_ends (matched f List.mem_cons_self) double
      obtain ⟨text, printedText, printed⟩ := Exec.bind_eq_returns.mp printed
      rw [run_keep, Exec.returns_bind] at printed
      obtain ⟨whole, prints, size, grows⟩ := ih matched' noDoubles' printed
      rw [List.length_append] at size grows
      rcases ends with ⟨text', printed', printsThis, exact_⟩ | ⟨undefined_, -⟩
      · cases printedText.symm.trans printed'
        refine ⟨fun member => ?_, fun f' member => ?_, fun short => ?_, by omega⟩
        · rcases List.mem_cons.mp member with same | member
          · cases same
          · exact whole member
        · rcases List.mem_cons.mp member with same | member
          · cases same
            exact printsThis
          · exact prints f' member
        · rw [size short, exact_ (.inl (by omega)), Nat.add_assoc]
          rfl
      · cases printedText.symm.trans undefined_
    | cut => cases printed

/-! The buffer. -/

namespace Pctx

/-- The sink after some output. -/
def after (buf : Option (List UInt8)) (cap : UInt32) (out : List UInt8) : Pctx :=
  ⟨buf.map fun b => out.take (cap.toNat - 1) ++ b.drop (min out.length (cap.toNat - 1)), cap, UInt32.ofNat out.length⟩

theorem pput_after {buf : Option (List UInt8)} {cap : UInt32} (room : ∀ b, buf = some b → cap.toNat ≤ b.length)
    (out : List UInt8) (short : out.length + 1 < 2 ^ 32) (ch : UInt8) :
    (after buf cap out).pput ch = .returns (after buf cap (out ++ [ch])) := by
  have next : UInt32.ofNat out.length + 1 = UInt32.ofNat (out ++ [ch]).length := by
    rw [List.length_append, List.length_singleton]
    exact (UInt32.ofNat_add _ _).symm
  have pos : (UInt32.ofNat out.length).toNat = out.length := by
    rw [UInt32.toNat_ofNat', Nat.mod_eq_of_lt (by omega)]
  have pos' : (UInt32.ofNat (out ++ [ch]).length).toNat = out.length + 1 := by
    rw [List.length_append, List.length_singleton, UInt32.toNat_ofNat', Nat.mod_eq_of_lt short]
  cases buf with
  | none => exact congrArg (fun pos => Exec.returns (⟨none, cap, pos⟩ : Pctx)) next
  | some b =>
    have fits := room b rfl
    rw [pput, after, after]
    simp only [Option.map_some]
    rw [next]
    split
    · rename_i below
      rw [UInt32.lt_iff_toNat_lt, pos'] at below
      have front : out.take (cap.toNat - 1) = out := List.take_of_length_le (by omega)
      have front' : (out ++ [ch]).take (cap.toNat - 1) = out ++ [ch] := by
        refine List.take_of_length_le ?_
        rw [List.length_append, List.length_singleton]
        omega
      have stop : min out.length (cap.toNat - 1) = out.length := by omega
      have stop' : min (out ++ [ch]).length (cap.toNat - 1) = out.length + 1 := by
        rw [List.length_append, List.length_singleton]
        omega
      have behind : b.drop out.length = b[out.length] :: b.drop (out.length + 1) :=
        List.drop_eq_getElem_cons (by omega)
      have inside : out.length < (out ++ b.drop out.length).length := by
        rw [List.length_append, List.length_drop]
        omega
      rw [front, front', stop, stop', pos, if_pos inside, List.set_append_right _ _ (Nat.le_refl _), Nat.sub_self,
        behind, List.set_cons_zero, List.append_assoc, List.singleton_append]
    · rename_i above
      rw [UInt32.lt_iff_toNat_lt, pos'] at above
      have front : (out ++ [ch]).take (cap.toNat - 1) = out.take (cap.toNat - 1) :=
        List.take_append_of_le_length (by omega)
      have stop : min out.length (cap.toNat - 1) = cap.toNat - 1 := by omega
      have stop' : min (out ++ [ch]).length (cap.toNat - 1) = cap.toNat - 1 := by
        rw [List.length_append, List.length_singleton]
        omega
      rw [front, stop, stop']

theorem run_after {buf : Option (List UInt8)} {cap : UInt32} (room : ∀ b, buf = some b → cap.toNat ≤ b.length)
    (out chars : List UInt8) (short : out.length + chars.length < 2 ^ 32) :
    Exec.run pput (after buf cap out) chars = .returns (after buf cap (out ++ chars)) := by
  induction chars generalizing out with
  | nil => rw [Exec.run, List.append_nil]
  | cons ch chars ih =>
    rw [List.length_cons] at short
    rw [Exec.run, pput_after room out (by omega), Exec.returns_bind, ih, List.append_assoc, List.singleton_append]
    rw [List.length_append, List.length_singleton]
    omega

end Pctx

/-- A buffer that holds as much of an output as there is room for, with its NUL. -/
def stored (cap : UInt32) (out buf : List UInt8) : List UInt8 :=
  if cap = 0 then buf else out.take (cap.toNat - 1) ++ 0 :: buf.drop (min out.length (cap.toNat - 1) + 1)

/-- `vsnprintf` returns the length of the whole output and stores what there is room for. -/
def Consistent (emitDouble : Conversion → UInt64 → Exec (List UInt8)) (buf : Option (List UInt8)) (cap : UInt32)
    (text : List UInt8) (ap : List Arg) : Prop :=
  ∃ out, output emitDouble (text ++ [0]) ap = .returns out ∧
    vsnprintf emitDouble buf cap (text ++ [0]) ap = .returns (out.length, buf.map (stored cap out))

/-- The NUL goes behind what is stored. -/
theorem vsnprintf_after {buf : Option (List UInt8)} {cap : UInt32} {fmt : List UInt8} {ap : List Arg}
    (room : ∀ b, buf = some b → cap.toNat ≤ b.length) {out : List UInt8} (short : out.length ≤ 2 ^ 31 - 1)
    (ran : formatLoop emitDouble Pctx.pput fmt.length fmt ap ⟨buf, cap, 0⟩ = .returns (.after buf cap out)) :
    vsnprintf emitDouble buf cap fmt ap = .returns (out.length, buf.map (stored cap out)) := by
  have result := toInt_ofNat short
  rw [vsnprintf, ran, Exec.returns_bind]
  cases buf with
  | none => exact congrArg (fun n => Exec.returns (n, none)) result
  | some b =>
    have fits := room b rfl
    have pos : (UInt32.ofNat out.length).toNat = out.length := by
      rw [UInt32.toNat_ofNat', Nat.mod_eq_of_lt (by omega)]
    rw [Pctx.after, Option.map_some, Option.map_some, stored]
    simp only
    rw [result]
    by_cases empty : cap = 0
    · subst empty
      rw [if_neg (by decide), if_pos rfl]
      have zero : (0 : UInt32).toNat - 1 = 0 := rfl
      rw [zero, Nat.min_zero, List.take_zero, List.drop_zero, List.nil_append]
      rfl
    · have positive : 0 < cap.toNat := Nat.pos_of_ne_zero fun same => empty (UInt32.toNat_inj.mp same)
      have one : (1 : UInt32) ≤ cap := UInt32.le_iff_toNat_le.mpr positive
      have last : (if UInt32.ofNat out.length < cap then UInt32.ofNat out.length else cap - 1).toNat =
          min out.length (cap.toNat - 1) := by
        split
        · rename_i below
          rw [UInt32.lt_iff_toNat_lt, pos] at below
          omega
        · rename_i above
          rw [UInt32.lt_iff_toNat_lt, pos] at above
          rw [UInt32.toNat_sub_of_le _ _ one]
          exact (Nat.min_eq_right (by omega)).symm
      have front : (out.take (cap.toNat - 1)).length = min out.length (cap.toNat - 1) := by
        rw [List.length_take, Nat.min_comm]
      have below : min out.length (cap.toNat - 1) < b.length := by omega
      have inside : min out.length (cap.toNat - 1) <
          (out.take (cap.toNat - 1) ++ b.drop (min out.length (cap.toNat - 1))).length := by
        rw [List.length_append, List.length_drop, front]
        omega
      rw [if_pos (UInt32.lt_iff_toNat_lt.mpr (by exact positive)), if_neg empty, storeNul, last, if_pos inside,
        List.set_append_right _ _ (le_of_eq front), front, Nat.sub_self, List.drop_eq_getElem_cons below,
        List.set_cons_zero]
      rfl

/-- The result is an `int`. -/
theorem vsnprintf_le {buf buf' : Option (List UInt8)} {cap : UInt32} {fmt : List UInt8} {ap : List Arg} {n : Int}
    (ran : vsnprintf emitDouble buf cap fmt ap = .returns (n, buf')) : n ≤ intMax := by
  obtain ⟨c, -, ran⟩ := Exec.bind_eq_returns.mp ran
  split at ran
  · cases ran
    exact toInt_le_intMax c.pos
  · split at ran
    · obtain ⟨b', -, ran⟩ := Exec.bind_eq_returns.mp ran
      cases ran
      exact toInt_le_intMax c.pos
    · cases ran
      exact toInt_le_intMax c.pos

/-- Exactly the printable formats are printed as they should be. -/
theorem consistent_iff {text : List UInt8} {ap : List Arg} {buf : Option (List UInt8)} {cap : UInt32} (noNul : 0 ∉ text)
    (reads : Reads text ap pieces) (noDoubles : NoDoubles pieces) (room : ∀ b, buf = some b → cap.toNat ≤ b.length) :
    Consistent emitDouble buf cap text ap ↔ Printable pieces := by
  have enough : text.length < (text ++ [0]).length := by
    rw [List.length_append]
    exact Nat.lt_succ_self _
  constructor
  · rintro ⟨out, printed, ran⟩
    rw [output, formatLoop_reads reads noNul enough] at printed
    obtain ⟨whole, prints, size, -⟩ := printPieces_keep reads.matched noDoubles printed
    have short : out.length ≤ 2 ^ 31 - 1 := by
      have small := vsnprintf_le ran
      rw [intMax] at small
      omega
    refine ⟨whole, prints, ?_⟩
    rw [size short, List.length_nil, Nat.zero_add] at short
    exact short
  · intro printable
    obtain ⟨chars, length, run⟩ := printable.printed reads.matched noDoubles
    have short : chars.length ≤ 2 ^ 31 - 1 := length ▸ printable.size
    refine ⟨chars, ?_, vsnprintf_after room short ?_⟩
    · rw [output, formatLoop_reads reads noNul enough, run, run_keep, List.nil_append]
    · have start : (⟨buf, cap, 0⟩ : Pctx) = .after buf cap [] := by
        cases buf with
        | none => rfl
        | some b =>
          rw [Pctx.after, Option.map_some, List.take_nil, List.length_nil, Nat.zero_min]
          rfl
      rw [formatLoop_reads reads noNul enough, run, start]
      exact Pctx.run_after room [] chars (by rw [List.length_nil]; omega)

end

/-- `7` behind `%d`, in a buffer of two bytes. -/
theorem seven_fits : Consistent (fun _ _ => .spins) (some [1, 1]) 2 [0x25, 0x64] [.word 7] := by
  have reads : Reads [0x25, 0x64] [.word 7]
      [.field ⟨⟨⟨false, false, false, false, false⟩, 0, -1, 0x64⟩, some (.word 7)⟩] := .field rfl rfl .done
  have case : caseOf 0x64 = .int := rfl
  refine (consistent_iff (by decide) reads (fun f member => ?_) fun b same => ?_).mpr ⟨?_, fun f member => ?_, ?_⟩
  · cases List.mem_singleton.mp member
    decide
  · cases same
    decide
  · rw [List.mem_singleton]
    intro same
    cases same
  · cases List.mem_singleton.mp member
    refine ⟨by decide, by decide, fun _ => ⟨7, rfl, by decide, by decide, by decide⟩, fun _ _ _ other => ?_,
      fun s str => ?_⟩
    · cases case.symm.trans other
    · cases str
  · decide +kernel

/-- A format that ends with `%` is read beyond its NUL. -/
theorem percent_at_end : ¬ ∀ (emitDouble : Conversion → UInt64 → Exec (List UInt8)) (buf : Option (List UInt8))
    (cap : UInt32) (text : List UInt8) (ap : List Arg) (pieces : List Piece), 0 ∉ text → Reads text ap pieces → NoDoubles pieces →
      (∀ b, buf = some b → cap.toNat ≤ b.length) → Consistent emitDouble buf cap text ap := by
  intro all
  have noDoubles : NoDoubles [.cut] := fun f member => by cases List.mem_singleton.mp member
  obtain ⟨out, printed, -⟩ := all (fun _ _ => .spins) none 0 [0x25] [] [.cut] (by decide) (.cut rfl) noDoubles
    fun b same => by cases same
  have read : output (fun _ _ => .spins) [0x25, 0] [] = .outOfBounds := by decide +kernel
  cases read.symm.trans printed

end Vsnprintf
end Blyt
