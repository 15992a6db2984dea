import Blyt.Lib.JsonSyntax
import Blyt.Lib.Utf8
import Mathlib.Algebra.GroupWithZero.Nat

namespace JsonSyntax

/-- What a text of the grammar says: strings are what they decode to, and numbers are integers. -/
inductive Data where
  | word (w : Word)
  | number (n : Int)
  | string (s : List UInt8)
  | array (items : List Data)
  | object (fields : List (List UInt8 × Data))

mutual

def Value.data : Value → Option Data
  | .word w => some (.word w)
  | .number n => n.integer.map .number
  | .string s => some (.string (decode s))
  | .array _ elements => elements.data.map .array
  | .object _ members => members.data.map .object

def Elements.data : Elements → Option (List Data)
  | .nil => some []
  | .cons _ value _ rest => do return (← value.data) :: (← rest.data)

def Members.data : Members → Option (List (List UInt8 × Data))
  | .nil => some []
  | .cons _ name _ _ value _ rest => do return (decode name, ← value.data) :: (← rest.data)

end

/-- The text is JSON, in UTF-8, and says the data. -/
def Says (text : List UInt8) (d : Data) : Prop :=
  Utf8.Valid text ∧ ∃ (lead : List Space) (v : Value) (trail : List Space),
    text = blank lead ++ v.render ++ blank trail ∧ v.data = some d

/-- A byte that a string may hold as it is. -/
def Unescaped (b : UInt8) : Prop := 32 ≤ b ∧ b ≠ 34 ∧ b ≠ 92

def Bare (s : List UInt8) : Prop := ∀ b ∈ s, Unescaped b

/-- A string that needs no escape. -/
def Plain (s : List UInt8) : Prop := Bare s ∧ Utf8.Valid s

def decimalText (n : Int) : List UInt8 := (toString n).toList.map fun c => UInt8.ofNat c.toNat

/-- A string between quotes, its bytes as they are. -/
def quoted (s : List UInt8) : List UInt8 := 34 :: (s ++ [34])

namespace Data
mutual

/-- The data written without white space and without an escape. -/
def text : Data → List UInt8
  | word w => w.render
  | number n => decimalText n
  | string s => quoted s
  | array items => 91 :: (itemsText [] items ++ [93])
  | object fields => 123 :: (fieldsText [] fields ++ [125])

def itemsText (sep : List UInt8) : List Data → List UInt8
  | [] => []
  | d :: items => sep ++ d.text ++ itemsText [44] items

def fieldsText (sep : List UInt8) : List (List UInt8 × Data) → List UInt8
  | [] => []
  | (name, d) :: fields => sep ++ quoted name ++ [58] ++ d.text ++ fieldsText [44] fields

end

mutual

/-- All strings of the data, the names of fields among them, are so. -/
def All (P : List UInt8 → Prop) : Data → Prop
  | word _ => True
  | number _ => True
  | string s => P s
  | array items => AllItems P items
  | object fields => AllFields P fields

def AllItems (P : List UInt8 → Prop) : List Data → Prop
  | [] => True
  | d :: items => d.All P ∧ AllItems P items

def AllFields (P : List UInt8 → Prop) : List (List UInt8 × Data) → Prop
  | [] => True
  | (name, d) :: fields => P name ∧ d.All P ∧ AllFields P fields

end
end Data

/-! Numbers. -/

def asciiByte (c : Char) : UInt8 := UInt8.ofNat c.toNat

theorem decimalText_of_nonneg (n : Nat) : decimalText n = (Nat.toDigits 10 n).map asciiByte := by
  show (Nat.repr n).toList.map _ = _
  rw [Nat.toList_repr]
  rfl

theorem decimalText_of_neg (n : Nat) :
    decimalText (-(n + 1 : Nat)) = 45 :: (Nat.toDigits 10 (n + 1)).map asciiByte := by
  show ("-" ++ Nat.repr (n + 1)).toList.map _ = _
  rw [String.toList_append, Nat.toList_repr]
  rfl

theorem asciiByte_digitChar (d : Fin 10) : asciiByte (Nat.digitChar d) = digit d := by
  revert d
  decide

theorem digitsValue_cons (v : Nat) (d : Fin 10) (ds : List (Fin 10)) :
    digitsValue v (d :: ds) = digitsValue (v * 10 + d) ds := rfl

theorem digitsValue_snoc (v : Nat) (ds : List (Fin 10)) (d : Fin 10) :
    digitsValue v (ds ++ [d]) = digitsValue v ds * 10 + d := by
  induction ds generalizing v with
  | nil => rfl
  | cons c ds ih =>
    rw [List.cons_append, digitsValue_cons, digitsValue_cons]
    exact ih _

/-- The digits of a number, without a zero in front of others. -/
theorem exists_digits (n : Nat) : ∃ d : Digits, d.render = (Nat.toDigits 10 n).map asciiByte ∧
    digitsValue 0 (d.first :: d.rest) = n ∧ (d.first = 0 → d.rest = [] ∧ n = 0) := by
  induction n using Nat.strongRecOn with
  | ind n ih =>
    rw [Nat.toDigits_eq_if (by decide)]
    split
    · rename_i small
      refine ⟨⟨⟨n, small⟩, []⟩, ?_, Nat.zero_add n, fun zero => ⟨rfl, congrArg Fin.val zero⟩⟩
      rw [List.map_singleton, asciiByte_digitChar ⟨n, small⟩]
      rfl
    · rename_i large
      have last : n % 10 < 10 := Nat.mod_lt n (by decide)
      obtain ⟨d, render, value, first⟩ := ih (n / 10) (by omega)
      refine ⟨⟨d.first, d.rest ++ [⟨n % 10, last⟩]⟩, ?_, ?_, fun zero => ?_⟩
      · rw [List.map_append, ← render, List.map_singleton, asciiByte_digitChar ⟨n % 10, last⟩, Digits.render,
          List.map_append]
        rfl
      · rw [← List.cons_append, digitsValue_snoc, value]
        exact Nat.div_add_mod' n 10
      · have none := (first zero).2
        omega

theorem digitsValue_lt (v : Nat) (ds : List (Fin 10)) : digitsValue v ds < (v + 1) * 10 ^ ds.length := by
  induction ds generalizing v with
  | nil =>
    rw [List.length_nil, Nat.pow_zero, Nat.mul_one]
    exact Nat.lt_succ_self v
  | cons d ds ih =>
    have rest := ih (v * 10 + d)
    have digit := d.isLt
    calc digitsValue v (d :: ds) = digitsValue (v * 10 + d) ds := digitsValue_cons ..
      _ < (v * 10 + d + 1) * 10 ^ ds.length := rest
      _ ≤ ((v + 1) * 10) * 10 ^ ds.length := Nat.mul_le_mul_right _ (by omega)
      _ = (v + 1) * 10 ^ (d :: ds).length := by rw [List.length_cons, Nat.pow_succ, Nat.mul_assoc, Nat.mul_comm 10]

theorem toDigits_length_le (d : Digits) :
    (Nat.toDigits 10 (digitsValue 0 (d.first :: d.rest))).length ≤ d.render.length := by
  have small := digitsValue_lt 0 (d.first :: d.rest)
  rw [Nat.zero_add, Nat.one_mul] at small
  have same : (d.first :: d.rest).length = d.render.length := by
    rw [Digits.render, List.length_cons, List.length_cons, List.length_map]
  rw [← same]
  exact (Nat.length_toDigits_le_iff (by decide) (Nat.succ_pos _)).mpr small

theorem exists_number (n : Int) : ∃ number : Number, number.integer = some n ∧ number.render = decimalText n := by
  cases n with
  | ofNat n =>
    obtain ⟨d, render, value, first⟩ := exists_digits n
    refine ⟨⟨false, d, fun zero => (first zero).1, none, none⟩, ?_, ?_⟩
    · rw [Number.integer, if_pos ⟨rfl, rfl⟩]
      exact congrArg (fun v : Nat => some (v : Int)) value
    · show [] ++ d.render ++ [] ++ [] = decimalText n
      rw [List.append_nil, List.append_nil, List.nil_append, render, decimalText_of_nonneg]
  | negSucc n =>
    obtain ⟨d, render, value, first⟩ := exists_digits (n + 1)
    refine ⟨⟨true, d, fun zero => (first zero).1, none, none⟩, ?_, ?_⟩
    · rw [Number.integer, if_pos ⟨rfl, rfl⟩]
      exact congrArg (fun v : Nat => some (-(v : Int))) value
    · show [45] ++ d.render ++ [] ++ [] = decimalText (-(n + 1 : Nat))
      rw [List.append_nil, List.append_nil, render, decimalText_of_neg]
      rfl

/-- No spelling of an integer is shorter than the usual one. -/
theorem decimalText_length_le {number : Number} {n : Int} (integer : number.integer = some n) :
    (decimalText n).length ≤ number.render.length := by
  have digits := toDigits_length_le number.whole
  have render : (if number.negative then [45] else ([] : List UInt8)).length + number.whole.render.length ≤
      number.render.length := by
    rw [Number.render, List.length_append, List.length_append, List.length_append]
    omega
  refine Nat.le_trans ?_ render
  rw [Number.integer] at integer
  split at integer
  · generalize digitsValue 0 (number.whole.first :: number.whole.rest) = v at digits integer
    cases integer
    split
    · cases v with
      | zero =>
        show (decimalText (0 : Nat)).length ≤ _
        rw [decimalText_of_nonneg, List.length_map]
        exact Nat.le_add_left_of_le digits
      | succ v =>
        rw [decimalText_of_neg, List.length_cons, List.length_map, List.length_singleton]
        omega
    · rw [decimalText_of_nonneg, List.length_map]
      exact Nat.le_add_left_of_le digits
  · cases integer

theorem decimalText_ascii (n : Int) : ∀ c ∈ decimalText n, c < 128 := by
  have digit (n : Nat) : ∀ c ∈ (Nat.toDigits 10 n).map asciiByte, c < 128 := by
    obtain ⟨d, render, -, -⟩ := exists_digits n
    rw [← render]
    have all : ∀ d, digit d < 128 := by decide
    intro c member
    rcases List.mem_cons.mp member with rfl | member
    · exact all _
    · obtain ⟨d, -, rfl⟩ := List.mem_map.mp member
      exact all d
  cases n with
  | ofNat n => exact decimalText_of_nonneg n ▸ digit n
  | negSucc n =>
    intro c member
    rw [Int.negSucc_eq, ← Int.natCast_succ, decimalText_of_neg] at member
    rcases List.mem_cons.mp member with rfl | member
    · decide
    · exact digit (n + 1) c member

/-! Strings. -/

/-- `long` is no shorter than `short`, and of its length only where `P` holds. -/
structure Tight (short long : List UInt8) (P : Prop) : Prop where
  le : short.length ≤ long.length
  same : long.length ≤ short.length → P

theorem Tight.of_eq (text : List UInt8) {P : Prop} (holds : P) : Tight text text P :=
  ⟨Nat.le_refl _, fun _ => holds⟩

theorem Tight.mono {short long : List UInt8} {P Q : Prop} (tight : Tight short long P) (weaker : P → Q) :
    Tight short long Q := ⟨tight.le, fun same => weaker (tight.same same)⟩

theorem Tight.append {short long short' long' : List UInt8} {P Q : Prop} (first : Tight short long P)
    (second : Tight short' long' Q) : Tight (short ++ short') (long ++ long') (P ∧ Q) := by
  have le := first.le
  have le' := second.le
  refine ⟨?_, fun same => ?_⟩
  · rw [List.length_append, List.length_append]
    omega
  · rw [List.length_append, List.length_append] at same
    exact ⟨first.same (by omega), second.same (by omega)⟩

theorem Tight.cons {short long : List UInt8} {P : Prop} (c : UInt8) (tight : Tight short long P) :
    Tight (c :: short) (c :: long) P :=
  (Tight.append (Tight.of_eq [c] trivial) tight).mono And.right

/-- What is in `long` alone takes room. -/
theorem Tight.indent {short long : List UInt8} {P : Prop} (tight : Tight short long P) (before : List UInt8) :
    Tight short (before ++ long) P := by
  have le := tight.le
  refine ⟨?_, fun same => tight.same ?_⟩
  · rw [List.length_append]
    omega
  · rw [List.length_append] at same
    omega

theorem Tight.pad {short long : List UInt8} {P : Prop} (tight : Tight short long P) (before after : List UInt8) :
    Tight short (before ++ long ++ after) P := by
  have indented := tight.indent before
  have le := indented.le
  refine ⟨?_, fun same => indented.same ?_⟩
  · rw [List.length_append]
    omega
  · rw [List.length_append] at same
    omega

theorem Tight.of_lt {short long : List UInt8} {P : Prop} (less : short.length < long.length) : Tight short long P :=
  ⟨Nat.le_of_lt less, fun same => absurd less (Nat.not_lt.mpr same)⟩

theorem utf8_length_le (n : Nat) : (utf8 n).length ≤ 4 := by
  fun_cases utf8 n <;> exact Nat.le_of_ble_eq_true rfl

/-- A string is as long as what is between its quotes only if it has no escape. -/
theorem decode_tight (s : List Piece) :
    Tight (decode s) (s.flatMap Piece.render) (Bare (decode s)) := by
  induction s using decode.induct with
  | case1 => exact .of_eq _ fun b none => absurd none List.not_mem_nil
  | case2 b s ih => exact (ih.cons b.val).mono fun rest => List.forall_mem_cons.mpr ⟨b.property, rest⟩
  | case3 e s ih =>
    have le := ih.le
    refine .of_lt ?_
    show (decode s).length + 1 < (s.flatMap Piece.render).length + 2
    omega
  | case4 a b c d a' b' c' d' s high low pair ih =>
    have le := ih.le
    have few := utf8_length_le (0x10000 + (high - 0xd800) * 0x400 + (low - 0xdc00))
    refine .of_lt ?_
    rw [decode, if_pos pair, List.length_append]
    show (utf8 (0x10000 + (high - 0xd800) * 0x400 + (low - 0xdc00))).length + _ <
      (s.flatMap Piece.render).length + 6 + 6
    omega
  | case5 a b c d a' b' c' d' s high low alone ih =>
    have le := ih.le
    have few := utf8_length_le high
    refine .of_lt ?_
    rw [decode, if_neg alone, List.length_append]
    show (utf8 high).length + _ < ((Piece.unicode a' b' c' d' :: s).flatMap Piece.render).length + 6
    omega
  | case6 a b c d s alone ih =>
    have le := ih.le
    have few := utf8_length_le (codeUnit a b c d)
    refine .of_lt ?_
    rw [decode, List.length_append]
    · show _ < (s.flatMap Piece.render).length + 6
      omega
    · exact alone

theorem quoted_tight (s : List Piece) : Tight (quoted (decode s)) (renderString s) (Bare (decode s)) :=
  (((decode_tight s).append (Tight.of_eq [34] trivial)).cons 34).mono And.left

/-- The bytes of a string, each as a piece of its own. -/
theorem exists_pieces {s : List UInt8} (bare : Bare s) :
    ∃ pieces : List Piece, decode pieces = s ∧ renderString pieces = quoted s := by
  have pieces : ∃ pieces : List Piece, decode pieces = s ∧ pieces.flatMap Piece.render = s := by
    induction s with
    | nil => exact ⟨[], rfl, rfl⟩
    | cons b s ih =>
      obtain ⟨first, others⟩ := List.forall_mem_cons.mp bare
      obtain ⟨pieces, decoded, rendered⟩ := ih others
      refine ⟨.raw ⟨b, first⟩ :: pieces, ?_, ?_⟩
      · rw [decode, decoded]
      · rw [List.flatMap_cons, rendered]
        rfl
  obtain ⟨pieces, decoded, rendered⟩ := pieces
  exact ⟨pieces, decoded, by rw [renderString, rendered, quoted]⟩

/-! The data and its texts. -/

mutual

/-- No text that says the data is shorter than its dense one, nor as long if a string needs an escape. -/
theorem Value.tight : (v : Value) → (d : Data) → v.data = some d → Tight d.text v.render (d.All Bare)
  | .word w, d, data => by
    cases data
    exact .of_eq _ trivial
  | .number n, d, data => by
    obtain ⟨i, integer, rfl⟩ := Option.map_eq_some_iff.mp data
    exact ⟨decimalText_length_le integer, fun _ => trivial⟩
  | .string s, d, data => by
    cases data
    exact quoted_tight s
  | .array space elements, d, data => by
    rw [Value.data] at data
    obtain ⟨items, inner, rfl⟩ := Option.map_eq_some_iff.mp data
    have closed := ((elements.tight items inner []).indent (blank space)).append (Tight.of_eq [93] trivial)
    rw [Data.text, Value.render]
    exact (closed.cons 91).mono And.left
  | .object space members, d, data => by
    rw [Value.data] at data
    obtain ⟨fields, inner, rfl⟩ := Option.map_eq_some_iff.mp data
    have closed := ((members.tight fields inner []).indent (blank space)).append (Tight.of_eq [125] trivial)
    rw [Data.text, Value.render]
    exact (closed.cons 123).mono And.left

theorem Elements.tight : (elements : Elements) → (items : List Data) → elements.data = some items →
    (sep : List UInt8) → Tight (Data.itemsText sep items) (elements.render sep) (Data.AllItems Bare items)
  | .nil, items, data, sep => by
    cases data
    exact .of_eq _ trivial
  | .cons before value after rest, items, data, sep => by
    obtain ⟨d, first, data⟩ := Option.bind_eq_some_iff.mp data
    obtain ⟨items, others, data⟩ := Option.bind_eq_some_iff.mp data
    cases data
    have one := (value.tight d first).pad (blank before) (blank after)
    have both := (Tight.append (Tight.of_eq sep trivial) one).append (rest.tight items others [44])
    simp only [← List.append_assoc] at both
    exact both.mono (And.imp_left And.right)

theorem Members.tight : (members : Members) → (fields : List (List UInt8 × Data)) → members.data = some fields →
    (sep : List UInt8) →
    Tight (Data.fieldsText sep fields) (members.render sep) (Data.AllFields Bare fields)
  | .nil, fields, data, sep => by
    cases data
    exact .of_eq _ trivial
  | .cons before name mid lead value after rest, fields, data, sep => by
    obtain ⟨d, first, data⟩ := Option.bind_eq_some_iff.mp data
    obtain ⟨fields, others, data⟩ := Option.bind_eq_some_iff.mp data
    cases data
    have label := (quoted_tight name).pad (blank before) (blank mid)
    have one := (value.tight d first).pad (blank lead) (blank after)
    have front := Tight.append (Tight.of_eq sep trivial) label
    have field := (front.append (Tight.of_eq [58] trivial)).append one
    have both := field.append (rest.tight fields others [44])
    simp only [← List.append_assoc] at both
    refine both.mono fun all => ?_
    obtain ⟨⟨⟨⟨-, label⟩, -⟩, one⟩, others⟩ := all
    exact ⟨label, one, others⟩

end

mutual

/-- Where no string needs an escape, the dense text is one of the data. -/
theorem Data.exists_value : (d : Data) → (d.All Bare) →
    ∃ v : Value, v.data = some d ∧ v.render = d.text
  | .word w, _ => ⟨.word w, rfl, rfl⟩
  | .number n, _ => by
    obtain ⟨number, integer, render⟩ := exists_number n
    exact ⟨.number number, by rw [Value.data, integer, Option.map_some], render⟩
  | .string s, bare => by
    obtain ⟨pieces, decoded, render⟩ := exists_pieces bare
    exact ⟨.string pieces, by rw [Value.data, decoded], render⟩
  | .array items, bare => by
    obtain ⟨elements, data, render⟩ := exists_elements items bare
    refine ⟨.array [] elements, by rw [Value.data, data, Option.map_some], ?_⟩
    rw [Value.render, render, text]
    rfl
  | .object fields, bare => by
    obtain ⟨members, data, render⟩ := exists_members fields bare
    refine ⟨.object [] members, by rw [Value.data, data, Option.map_some], ?_⟩
    rw [Value.render, render, text]
    rfl

theorem Data.exists_elements : (items : List Data) → Data.AllItems Bare items →
    ∃ elements : Elements, elements.data = some items ∧ ∀ sep, elements.render sep = itemsText sep items
  | [], _ => ⟨.nil, rfl, fun _ => rfl⟩
  | d :: items, bare => by
    obtain ⟨value, data, render⟩ := d.exists_value bare.1
    obtain ⟨rest, others, more⟩ := exists_elements items bare.2
    refine ⟨.cons [] value [] rest, by rw [Elements.data, data, others]; rfl, fun sep => ?_⟩
    rw [Elements.render, render, more, itemsText]
    simp only [blank, List.map_nil, List.append_nil]

theorem Data.exists_members : (fields : List (List UInt8 × Data)) →
    Data.AllFields Bare fields →
    ∃ members : Members, members.data = some fields ∧ ∀ sep, members.render sep = fieldsText sep fields
  | [], _ => ⟨.nil, rfl, fun _ => rfl⟩
  | (name, d) :: fields, bare => by
    obtain ⟨pieces, decoded, label⟩ := exists_pieces bare.1
    obtain ⟨value, data, render⟩ := d.exists_value bare.2.1
    obtain ⟨rest, others, more⟩ := exists_members fields bare.2.2
    refine ⟨.cons [] pieces [] [] value [] rest, by rw [Members.data, data, others, decoded]; rfl, fun sep => ?_⟩
    rw [Members.render, render, label, more, fieldsText]
    simp only [blank, List.map_nil, List.append_nil]

end

theorem noBytes : ∀ c ∈ ([] : List UInt8), c < 128 := fun _ none => absurd none List.not_mem_nil

theorem comma : ∀ c ∈ ([44] : List UInt8), c < 128 := List.forall_mem_singleton.mpr (by decide)

theorem valid_quoted {s more : List UInt8} : Utf8.Valid (quoted s ++ more) ↔ Utf8.Valid s ∧ Utf8.Valid more := by
  show Utf8.Valid (34 :: (s ++ [34] ++ more)) ↔ _
  rw [Utf8.valid_cons (by decide), List.append_assoc]
  exact Utf8.valid_append_cons (by decide)

mutual

/-- What is between the strings of a dense text is ASCII. -/
theorem Data.valid_text : (d : Data) → (more : List UInt8) →
    (Utf8.Valid (d.text ++ more) ↔ d.All Utf8.Valid ∧ Utf8.Valid more)
  | .word w, more => by
    have letters : (w.render.all fun c => c < 128) = true := by cases w <;> rfl
    have small (c : UInt8) (member : c ∈ w.render) : c < 128 :=
      of_decide_eq_true (List.all_eq_true.mp letters c member)
    exact (Utf8.valid_append small).trans (and_iff_right trivial).symm
  | .number n, more => (Utf8.valid_append (decimalText_ascii n)).trans (and_iff_right trivial).symm
  | .string s, more => valid_quoted
  | .array items, more => by
    show Utf8.Valid (91 :: (itemsText [] items ++ [93] ++ more)) ↔ _
    rw [Utf8.valid_cons (by decide), List.append_assoc, valid_itemsText items [] noBytes, List.singleton_append,
      Utf8.valid_cons (by decide)]
    rfl
  | .object fields, more => by
    show Utf8.Valid (123 :: (fieldsText [] fields ++ [125] ++ more)) ↔ _
    rw [Utf8.valid_cons (by decide), List.append_assoc, valid_fieldsText fields [] noBytes, List.singleton_append,
      Utf8.valid_cons (by decide)]
    rfl

theorem Data.valid_itemsText : (items : List Data) → (sep : List UInt8) → (∀ c ∈ sep, c < 128) →
    (more : List UInt8) → (Utf8.Valid (itemsText sep items ++ more) ↔ AllItems Utf8.Valid items ∧ Utf8.Valid more)
  | [], _, _, more => (and_iff_right trivial).symm
  | d :: items, sep, ascii, more => by
    rw [itemsText, List.append_assoc, List.append_assoc, Utf8.valid_append ascii, d.valid_text,
      valid_itemsText items [44] comma, ← and_assoc]
    rfl

theorem Data.valid_fieldsText : (fields : List (List UInt8 × Data)) → (sep : List UInt8) → (∀ c ∈ sep, c < 128) →
    (more : List UInt8) → (Utf8.Valid (fieldsText sep fields ++ more) ↔ AllFields Utf8.Valid fields ∧ Utf8.Valid more)
  | [], _, _, more => (and_iff_right trivial).symm
  | (name, d) :: fields, sep, ascii, more => by
    simp only [fieldsText, List.append_assoc]
    rw [Utf8.valid_append ascii, valid_quoted, List.singleton_append, Utf8.valid_cons (by decide), d.valid_text,
      valid_fieldsText fields [44] comma, ← and_assoc, ← and_assoc, and_assoc (a := Utf8.Valid name)]
    rfl

end

mutual

theorem Data.all_and {P Q : List UInt8 → Prop} : (d : Data) → (d.All (fun s => P s ∧ Q s) ↔ d.All P ∧ d.All Q)
  | .word _ => (and_iff_left trivial).symm
  | .number _ => (and_iff_left trivial).symm
  | .string _ => Iff.rfl
  | .array items => allItems_and items
  | .object fields => allFields_and fields

theorem Data.allItems_and {P Q : List UInt8 → Prop} : (items : List Data) →
    (AllItems (fun s => P s ∧ Q s) items ↔ AllItems P items ∧ AllItems Q items)
  | [] => (and_iff_left trivial).symm
  | d :: items => (and_congr d.all_and (allItems_and items)).trans and_and_and_comm

theorem Data.allFields_and {P Q : List UInt8 → Prop} : (fields : List (List UInt8 × Data)) →
    (AllFields (fun s => P s ∧ Q s) fields ↔ AllFields P fields ∧ AllFields Q fields)
  | [] => (and_iff_left trivial).symm
  | (_, d) :: fields =>
    (and_congr_right' ((and_congr d.all_and (allFields_and fields)).trans and_and_and_comm)).trans and_and_and_comm

end

theorem Says.tight {text : List UInt8} {d : Data} (said : Says text d) : Tight d.text text (d.All Bare) := by
  obtain ⟨-, lead, v, trail, rfl, data⟩ := said
  exact (v.tight d data).pad (blank lead) (blank trail)

/-- The dense text says the data exactly if no string needs an escape. -/
theorem says_text_iff (d : Data) : Says d.text d ↔ d.All Plain := by
  have valid := d.valid_text []
  rw [List.append_nil, and_iff_left Utf8.valid_nil] at valid
  constructor
  · intro said
    exact d.all_and.mpr ⟨said.tight.same (Nat.le_refl _), valid.mp said.1⟩
  · intro plain
    obtain ⟨bare, utf8⟩ := d.all_and.mp plain
    obtain ⟨v, data, render⟩ := d.exists_value bare
    refine ⟨valid.mpr utf8, [], v, [], ?_, data⟩
    rw [render]
    exact (List.append_nil _).symm

theorem Data.itemsText_length_le {α : Type} {f g : α → Data} (le : ∀ a, (f a).text.length ≤ (g a).text.length)
    (as : List α) (sep : List UInt8) : (itemsText sep (as.map f)).length ≤ (itemsText sep (as.map g)).length := by
  induction as generalizing sep with
  | nil => exact Nat.le_refl _
  | cons a as ih =>
    have one := le a
    have rest := ih [44]
    simp only [List.map_cons, itemsText, List.length_append]
    omega

theorem Data.allItems_map {α : Type} {P : List UInt8 → Prop} {f : α → Data} (as : List α) :
    AllItems P (as.map f) ↔ ∀ a ∈ as, (f a).All P := by
  induction as with
  | nil => exact iff_of_true trivial fun a none => absurd none List.not_mem_nil
  | cons a as ih =>
    rw [List.forall_mem_cons]
    exact and_congr_right' ih

end JsonSyntax
