import Mathlib.Data.List.Basic

namespace JsonSyntax

/-- White space. A syntax tree of this grammar holds all that its text says, white space and
the spelling of strings and numbers included: every text is the rendering of a tree. -/
inductive Space where
  | space
  | tab
  | lineFeed
  | carriageReturn
  deriving DecidableEq

def Space.byte : Space → UInt8
  | space => 32
  | tab => 9
  | lineFeed => 10
  | carriageReturn => 13

def blank (spaces : List Space) : List UInt8 := spaces.map Space.byte

structure HexDigit where
  value : Fin 16
  upper : Bool

def HexDigit.byte (d : HexDigit) : UInt8 :=
  if d.value < 10 then 48 + UInt8.ofNat d.value
  else (if d.upper then 65 else 97) + UInt8.ofNat (d.value - 10)

/-- The escapes of one letter. -/
inductive Escape where
  | quote
  | backslash
  | slash
  | backspace
  | formFeed
  | lineFeed
  | carriageReturn
  | tab
  deriving DecidableEq

/-- The letter behind the backslash. -/
def Escape.letter : Escape → UInt8
  | quote => 34
  | backslash => 92
  | slash => 47
  | backspace => 98
  | formFeed => 102
  | lineFeed => 110
  | carriageReturn => 114
  | tab => 116

def Escape.byte : Escape → UInt8
  | quote => 34
  | backslash => 92
  | slash => 47
  | backspace => 8
  | formFeed => 12
  | lineFeed => 10
  | carriageReturn => 13
  | tab => 9

/-- A piece of a string: a byte as it is, an escape, or a code unit in four digits. -/
inductive Piece where
  | raw (b : { b : UInt8 // 32 ≤ b ∧ b ≠ 34 ∧ b ≠ 92 })
  | escape (e : Escape)
  | unicode (a b c d : HexDigit)

def Piece.render : Piece → List UInt8
  | raw b => [b]
  | escape e => [92, e.letter]
  | unicode a b c d => [92, 117, a.byte, b.byte, c.byte, d.byte]

def renderString (s : List Piece) : List UInt8 := 34 :: (s.flatMap Piece.render ++ [34])

def codeUnit (a b c d : HexDigit) : Nat := ((a.value.val * 16 + b.value) * 16 + c.value) * 16 + d.value

def utf8 (n : Nat) : List UInt8 :=
  if n < 0x80 then [UInt8.ofNat n]
  else if n < 0x800 then [UInt8.ofNat (0xc0 + n / 64), UInt8.ofNat (0x80 + n % 64)]
  else if n < 0x10000 then
    [UInt8.ofNat (0xe0 + n / 4096), UInt8.ofNat (0x80 + n / 64 % 64), UInt8.ofNat (0x80 + n % 64)]
  else
    [UInt8.ofNat (0xf0 + n / 262144), UInt8.ofNat (0x80 + n / 4096 % 64), UInt8.ofNat (0x80 + n / 64 % 64),
      UInt8.ofNat (0x80 + n % 64)]

/-- The string the pieces spell, with surrogate pairs put together. -/
def decode : List Piece → List UInt8
  | [] => []
  | .raw b :: s => b :: decode s
  | .escape e :: s => e.byte :: decode s
  | .unicode a b c d :: .unicode a' b' c' d' :: s =>
    let high := codeUnit a b c d
    let low := codeUnit a' b' c' d'
    if 0xd800 ≤ high ∧ high < 0xdc00 ∧ 0xdc00 ≤ low ∧ low < 0xe000 then
      utf8 (0x10000 + (high - 0xd800) * 0x400 + (low - 0xdc00)) ++ decode s
    else utf8 high ++ decode (.unicode a' b' c' d' :: s)
  | .unicode a b c d :: s => utf8 (codeUnit a b c d) ++ decode s

def digit (d : Fin 10) : UInt8 := 48 + UInt8.ofNat d

structure Digits where
  first : Fin 10
  rest : List (Fin 10)

def Digits.render (d : Digits) : List UInt8 := digit d.first :: d.rest.map digit

/-- The number that digits write, behind those already read. -/
def digitsValue (value : Nat) (digits : List (Fin 10)) : Nat := digits.foldl (fun v d => v * 10 + d) value

inductive Sign where
  | plus
  | minus

/-- An exponent: its letter in one of two cases, a sign or none, and digits. -/
structure Exponent where
  upper : Bool
  sign : Option Sign
  digits : Digits

/-- A number; a zero in front stands alone. -/
structure Number where
  negative : Bool
  whole : Digits
  plain : whole.first = 0 → whole.rest = []
  fraction : Option Digits
  exponent : Option Exponent

def Exponent.render (e : Exponent) : List UInt8 :=
  (if e.upper then 69 else 101) ::
    ((match e.sign with
      | some .plus => [43]
      | some .minus => [45]
      | none => []) ++ e.digits.render)

def Number.render (n : Number) : List UInt8 :=
  (if n.negative then [45] else []) ++ n.whole.render ++
    (match n.fraction with
      | some d => 46 :: d.render
      | none => []) ++
    match n.exponent with
      | some e => e.render
      | none => []

/-- The value of a number written without a fraction and an exponent. -/
def Number.integer (n : Number) : Option Int :=
  if n.fraction.isNone ∧ n.exponent.isNone then
    let value : Int := digitsValue 0 (n.whole.first :: n.whole.rest)
    some (if n.negative then -value else value)
  else none

inductive Word where
  | true
  | false
  | null

def Word.render : Word → List UInt8
  | true => [116, 114, 117, 101]
  | false => [102, 97, 108, 115, 101]
  | null => [110, 117, 108, 108]

mutual

inductive Value where
  | word (w : Word)
  | number (n : Number)
  | string (s : List Piece)
  | array (space : List Space) (elements : Elements)
  | object (space : List Space) (members : Members)

inductive Elements where
  | nil
  | cons (before : List Space) (value : Value) (after : List Space) (rest : Elements)

/-- The members of an object, each with the white space around its name and its value. -/
inductive Members where
  | nil
  | cons (before : List Space) (name : List Piece) (mid lead : List Space) (value : Value) (after : List Space)
    (rest : Members)

end

mutual

def Value.render : Value → List UInt8
  | .word w => w.render
  | .number n => n.render
  | .string s => renderString s
  | .array space elements => 91 :: (blank space ++ elements.render [] ++ [93])
  | .object space members => 123 :: (blank space ++ members.render [] ++ [125])

def Elements.render (sep : List UInt8) : Elements → List UInt8
  | .nil => []
  | .cons before value after rest => sep ++ blank before ++ value.render ++ blank after ++ rest.render [44]

def Members.render (sep : List UInt8) : Members → List UInt8
  | .nil => []
  | .cons before name mid lead value after rest =>
    sep ++ blank before ++ renderString name ++ blank mid ++ [58] ++ blank lead ++ value.render ++ blank after ++
      rest.render [44]

end

structure Member where
  name : List Piece
  mid : List Space
  lead : List Space
  value : Value
  after : List Space

def Member.render (m : Member) : List UInt8 :=
  renderString m.name ++ blank m.mid ++ [58] ++ blank m.lead ++ m.value.render ++ blank m.after

/-- Among the members, or in the objects they hold, the member at a path of names, with the text
that lies before it and behind it. -/
inductive MemberAt : List UInt8 → Members → List (List UInt8) → List UInt8 → Member → List UInt8 → Prop
  | here {sep before name mid lead value after rest} :
      MemberAt sep (.cons before name mid lead value after rest) [decode name] (sep ++ blank before)
        ⟨name, mid, lead, value, after⟩ (rest.render [44])
  | inside {sep before name mid lead space members after rest path pre m post} :
      MemberAt [] members path pre m post →
      MemberAt sep (.cons before name mid lead (.object space members) after rest) (decode name :: path)
        (sep ++ blank before ++ renderString name ++ blank mid ++ [58] ++ blank lead ++ 123 :: (blank space ++ pre)) m
        (post ++ [125] ++ blank after ++ rest.render [44])
  | later {sep before name mid lead value after rest path pre m post} :
      MemberAt [44] rest path pre m post →
      MemberAt sep (.cons before name mid lead value after rest) path
        (sep ++ blank before ++ renderString name ++ blank mid ++ [58] ++ blank lead ++ value.render ++ blank after ++
          pre) m post

theorem MemberAt.text {sep : List UInt8} {members : Members} {path : List (List UInt8)} {pre post : List UInt8}
    {m : Member} (at_ : MemberAt sep members path pre m post) : members.render sep = pre ++ m.render ++ post := by
  induction at_ with
  | here => simp only [Members.render, Member.render, List.append_assoc]
  | inside at_ ih => simp only [Members.render, Value.render, ih, List.append_assoc, List.cons_append]
  | later at_ ih => simp only [Members.render, ih, List.append_assoc]

/-- Behind a member comes the next one or the end of its object. -/
theorem MemberAt.behind {sep : List UInt8} {members : Members} {path : List (List UInt8)} {pre post : List UInt8}
    {m : Member} (at_ : MemberAt sep members path pre m post) :
    ∀ rest : List UInt8, ∃ c tail, post ++ 125 :: rest = c :: tail ∧ (c = 44 ∨ c = 125) := by
  induction at_ with
  | @here _ _ _ _ _ _ _ rest =>
    intro more
    cases rest with
    | nil => exact ⟨125, more, rfl, Or.inr rfl⟩
    | cons before name mid lead value after rest =>
      simp only [Members.render, List.append_assoc, List.singleton_append]
      exact ⟨44, _, rfl, Or.inl rfl⟩
  | inside at_ ih =>
    intro more
    rw [List.append_assoc, List.append_assoc, List.append_assoc, List.singleton_append]
    exact ih _
  | later at_ ih => exact ih

/-- The pieces that stand for the byte that the text shows last of them. -/
def Simple : Piece → Prop
  | .raw _ => True
  | .escape e => e = .quote ∨ e = .backslash ∨ e = .slash
  | .unicode .. => False

end JsonSyntax
