import Blyt.Lib.Exec
import Mathlib.Data.List.TakeWhile

namespace Blyt
namespace Vsnprintf

def intMax : Int := 0x7fffffff

def intMin : Int := -0x80000000

/-! The output sink. -/

/-- `pctx`. -/
structure Pctx where
  buf : Option (List UInt8)
  cap : UInt32
  pos : UInt32

def Pctx.pput (c : Pctx) (ch : UInt8) : Exec Pctx :=
  match c.buf with
  | none => .returns { c with pos := c.pos + 1 }
  | some buf =>
    if c.pos + 1 < c.cap then
      if c.pos.toNat < buf.length then .returns { c with buf := some (buf.set c.pos.toNat ch), pos := c.pos + 1 }
      else .outOfBounds
    else .returns { c with pos := c.pos + 1 }

/-! The integers; what `emit_uint` and `emit_int` hand to `pput`, in order. -/

def digit (upper : Bool) (d : Nat) : UInt8 :=
  UInt8.ofNat (if d < 10 then 0x30 + d else (if upper then 0x37 else 0x57) + d)

/-- `while (v)`: the digits go into a buffer in which `room` bytes are left, the last one pushed stands first. -/
def pushDigits (digs : Nat → UInt8) (base : Nat) : Nat → Nat → List UInt8 → Exec (List UInt8)
  | _, 0, tmp => .returns tmp
  | 0, _ + 1, _ => .outOfBounds
  | room + 1, v + 1, tmp => pushDigits digs base room ((v + 1) / base) (digs ((v + 1) % base) :: tmp)

/-- Zeros go into a buffer of `size` bytes, up to the precision. -/
def pushZeros (size : Nat) (prec : Int) (tmp : List UInt8) : Exec (List UInt8) :=
  if tmp.length + (prec - tmp.length).toNat ≤ size then
    .returns (List.replicate (prec - tmp.length).toNat 0x30 ++ tmp)
  else .outOfBounds

/-- `for (int i = 0; i < prec - n; i++) num[n++] = '0';` with `room` bytes left: the bound goes down as the number
grows, so the loop stops halfway. -/
def pushZerosInt (prec : Int) : Nat → Int → List UInt8 → Exec (List UInt8)
  | 0, i, num => if i < prec - num.length then .outOfBounds else .returns num
  | room + 1, i, num => if i < prec - num.length then pushZerosInt prec room (i + 1) (0x30 :: num) else .returns num

def emitUint (v : UInt32) (base : Nat) (upper : Bool) (width prec : Int) (flagZero flagLeft : Bool) :
    Exec (List UInt8) := do
  let tmp := if v = 0 ∧ prec ≠ 0 then [0x30] else []
  let tmp ← pushDigits (digit upper) base (33 - tmp.length) v.toNat tmp
  let tmp ← pushZeros 33 prec tmp
  let npad := (width - tmp.length).toNat
  return (if ! flagLeft && ! flagZero then List.replicate npad 0x20 else []) ++
    ((if ! flagLeft && flagZero && decide (prec < 0) then List.replicate npad 0x30 else []) ++
      (tmp ++ if flagLeft then List.replicate npad 0x20 else []))

/-- The sign in front of a number. -/
def signChars (neg flagPlus flagSpace : Bool) : List UInt8 :=
  if neg then [0x2d] else if flagPlus then [0x2b] else if flagSpace then [0x20] else []

/-- `signw`. -/
def signWidth (neg flagPlus flagSpace : Bool) : Int := if neg || flagPlus || flagSpace then 1 else 0

/-- The negation of the smallest `long` is undefined, and so is a width below the smallest `int`. -/
def emitInt (v : Int32) (width prec : Int) (flagZero flagLeft flagPlus flagSpace : Bool) : Exec (List UInt8) :=
  let neg := decide (v.toInt < 0)
  let u := UInt32.ofNat v.toInt.natAbs
  let sign := signChars neg flagPlus flagSpace
  let signw := signWidth neg flagPlus flagSpace
  if v.toInt = intMin ∨ width - signw < intMin then .outOfBounds
  else if flagZero && ! flagLeft && decide (prec < 0) then do
    return sign ++ (← emitUint u 10 false (max (width - signw) 0) prec true false)
  else do
    let num := if u = 0 ∧ prec ≠ 0 then [0x30] else []
    let num ← pushDigits (fun d => UInt8.ofNat (0x30 + d)) 10 (34 - num.length) u.toNat num
    let num ← (if (num.length : Int) < prec then pushZerosInt prec (34 - num.length) 0 num else .returns num)
    let pad := (width - (num.length + signw)).toNat
    return (if ! flagLeft then List.replicate pad 0x20 else []) ++
      (sign ++ (num ++ if flagLeft then List.replicate pad 0x20 else []))

/-! The arguments. -/

/-- A variable argument. `int`, `long` and the other integers of their size are a word. -/
inductive Arg where
  | word (w : UInt32)
  | dword (w : UInt64)
  | ptr (p : UInt32)
  | str (s : Option (List UInt8))
  | double (bits : UInt64)

def vaWord : List Arg → Exec (UInt32 × List Arg)
  | .word w :: ap => .returns (w, ap)
  | _ => .outOfBounds

def vaPtr : List Arg → Exec (UInt32 × List Arg)
  | .ptr p :: ap => .returns (p, ap)
  | _ => .outOfBounds

def vaStr : List Arg → Exec (Option (List UInt8) × List Arg)
  | .str s :: ap => .returns (s, ap)
  | _ => .outOfBounds

def vaDouble : List Arg → Exec (UInt64 × List Arg)
  | .double bits :: ap => .returns (bits, ap)
  | _ => .outOfBounds

/-! The scan of a conversion. -/

structure Flags where
  left : Bool
  plus : Bool
  zero : Bool
  space : Bool
  hash : Bool

def scanFlags (f : Flags) : List UInt8 → Exec (Flags × List UInt8)
  | [] => .outOfBounds
  | c :: fmt =>
    if c = 0x2d then scanFlags { f with left := true } fmt
    else if c = 0x2b then scanFlags { f with plus := true } fmt
    else if c = 0x30 then scanFlags { f with zero := true } fmt
    else if c = 0x20 then scanFlags { f with space := true } fmt
    else if c = 0x23 then scanFlags { f with hash := true } fmt
    else .returns (f, c :: fmt)

def isDigit (c : UInt8) : Bool := 0x30 ≤ c && c ≤ 0x39

/-- A number that no `int` holds is undefined. -/
def scanNumber (n : Int) : List UInt8 → Exec (Int × List UInt8)
  | [] => .outOfBounds
  | c :: fmt =>
    if isDigit c then
      if n * 10 + (c.toNat - 0x30) ≤ intMax then scanNumber (n * 10 + (c.toNat - 0x30)) fmt else .outOfBounds
    else .returns (n, c :: fmt)

/-- A width, or what is behind the point of a precision. -/
def scanAmount : List UInt8 → List Arg → Exec (Int × List UInt8 × List Arg)
  | 0x2a :: fmt, ap => do
    let (w, ap) ← vaWord ap
    return (w.toInt32.toInt, fmt, ap)
  | fmt, ap => do
    let (n, fmt) ← scanNumber 0 fmt
    return (n, fmt, ap)

def scanPrec : List UInt8 → List Arg → Exec (Int × List UInt8 × List Arg)
  | 0x2e :: fmt, ap => scanAmount fmt ap
  | [], _ => .outOfBounds
  | fmt, ap => .returns (-1, fmt, ap)

def isLength (c : UInt8) : Bool := c == 0x6c || c == 0x68 || c == 0x7a || c == 0x74 || c == 0x4c || c == 0x6a

/-- The length modifiers. `len_l` chooses between `int` and `long`, which are of one size. -/
def scanLength : List UInt8 → Exec (List UInt8)
  | [] => .outOfBounds
  | c :: fmt => if isLength c then scanLength fmt else .returns (c :: fmt)

structure Conversion where
  flags : Flags
  width : Int
  prec : Int
  conv : UInt8

/-- What is behind a `%`, up to the conversion character. -/
def scanConversion (fmt : List UInt8) (ap : List Arg) : Exec (Conversion × List UInt8 × List Arg) := do
  let (flags, fmt) ← scanFlags ⟨false, false, false, false, false⟩ fmt
  let (width, fmt, ap) ← scanAmount fmt ap
  let (prec, fmt, ap) ← scanPrec fmt ap
  match ← scanLength fmt with
  | [] => .outOfBounds
  | conv :: fmt => return (⟨flags, width, prec, conv⟩, fmt, ap)

/-! The conversions. -/

/-- The cases of the `switch`; `mark` is what `#` puts in front of a number. -/
inductive Case where
  | int
  | uint (base : Nat) (upper : Bool) (mark : List UInt8)
  | pointer
  | string
  | char
  | double
  | percent
  | other

def caseOf (conv : UInt8) : Case :=
  if conv = 0x64 ∨ conv = 0x69 then .int
  else if conv = 0x75 then .uint 10 false []
  else if conv = 0x78 then .uint 16 false [0x30, 0x78]
  else if conv = 0x58 then .uint 16 true [0x30, 0x58]
  else if conv = 0x6f then .uint 8 false []
  else if conv = 0x70 then .pointer
  else if conv = 0x73 then .string
  else if conv = 0x63 then .char
  else if conv ∈ [0x66, 0x46, 0x67, 0x47, 0x65, 0x45] then .double
  else if conv = 0x25 then .percent
  else .other

/-- `while (s[n] && (prec < 0 || n < prec)) n++`. -/
def strCount (prec : Int) (n : Nat) : List UInt8 → Exec Nat
  | [] => .outOfBounds
  | b :: s => if b ≠ 0 ∧ (prec < 0 ∨ (n : Int) < prec) then strCount prec (n + 1) s else .returns n

/-- `(null)`. -/
def nullText : List UInt8 := [0x28, 0x6e, 0x75, 0x6c, 0x6c, 0x29, 0]

def emitStr (s : Option (List UInt8)) (width prec : Int) (flagLeft : Bool) : Exec (List UInt8) := do
  let s := s.getD nullText
  let n ← strCount prec 0 s
  let len := (UInt32.ofNat n).toInt32.toInt
  if intMax < width - len then .outOfBounds
  else
    let pad := (width - len).toNat
    return (if ! flagLeft then List.replicate pad 0x20 else []) ++
      (s.take n ++ if flagLeft then List.replicate pad 0x20 else [])

def emitChar (ch : UInt32) (width : Int) (flagLeft : Bool) : List UInt8 :=
  let pad := (width - 1).toNat
  (if ! flagLeft then List.replicate pad 0x20 else []) ++
    (ch.toUInt8 :: if flagLeft then List.replicate pad 0x20 else [])

section
variable (emitDouble : Conversion → UInt64 → Exec (List UInt8))

/-- The `switch`. `emitDouble` stands for `emit_double_fixed` and `emit_double_g`. -/
def convert (cv : Conversion) (ap : List Arg) : Exec (List UInt8 × List Arg) :=
  match caseOf cv.conv with
  | .int => do
    let (w, ap) ← vaWord ap
    return (← emitInt w.toInt32 cv.width cv.prec cv.flags.zero cv.flags.left cv.flags.plus cv.flags.space, ap)
  | .uint base upper mark => do
    let (w, ap) ← vaWord ap
    return ((if cv.flags.hash ∧ w ≠ 0 then mark else []) ++
      (← emitUint w base upper cv.width cv.prec cv.flags.zero cv.flags.left), ap)
  | .pointer => do
    let (p, ap) ← vaPtr ap
    return (0x30 :: 0x78 :: (← emitUint p 16 false 0 8 true false), ap)
  | .string => do
    let (s, ap) ← vaStr ap
    return (← emitStr s cv.width cv.prec cv.flags.left, ap)
  | .char => do
    let (ch, ap) ← vaWord ap
    return (emitChar ch cv.width cv.flags.left, ap)
  | .double => do
    let (bits, ap) ← vaDouble ap
    return (← emitDouble cv bits, ap)
  | .percent => .returns ([0x25], ap)
  | .other => .returns ([0x25, cv.conv], ap)

variable {κ : Type} (pput : κ → UInt8 → Exec κ)

/-- The loop over the format, for any sink. -/
def formatLoop : Nat → List UInt8 → List Arg → κ → Exec κ
  | 0, _, _, _ => .spins
  | _ + 1, [], _, _ => .outOfBounds
  | n + 1, ch :: fmt, ap, c =>
    if ch = 0 then .returns c
    else if ch ≠ 0x25 then do formatLoop n fmt ap (← pput c ch)
    else do
      let (cv, fmt, ap) ← scanConversion fmt ap
      let (chars, ap) ← convert emitDouble cv ap
      formatLoop n fmt ap (← Exec.run pput c chars)

/-- A store at an index below `cap`. -/
def storeNul (buf : List UInt8) (i : UInt32) : Exec (List UInt8) :=
  if i.toNat < buf.length then .returns (buf.set i.toNat 0) else .outOfBounds

/-- `vsnprintf`: what it returns, and the buffer. -/
def vsnprintf (buf : Option (List UInt8)) (cap : UInt32) (fmt : List UInt8) (ap : List Arg) :
    Exec (Int × Option (List UInt8)) := do
  let c ← formatLoop emitDouble Pctx.pput fmt.length fmt ap ⟨buf, cap, 0⟩
  match c.buf with
  | none => return (c.pos.toInt32.toInt, none)
  | some buf =>
    if 0 < c.cap then
      return (c.pos.toInt32.toInt, some (← storeNul buf (if c.pos < c.cap then c.pos else c.cap - 1)))
    else return (c.pos.toInt32.toInt, some buf)

/-- The output as it is before anything is cut off. -/
def output (fmt : List UInt8) (ap : List Arg) : Exec (List UInt8) :=
  formatLoop emitDouble (fun out ch => .returns (out ++ [ch])) fmt.length fmt ap []

end

/-! What a format and its arguments mean: literal characters and conversions, and maybe one that the end cuts off. -/

def isFlag (c : UInt8) : Bool := c == 0x2d || c == 0x2b || c == 0x30 || c == 0x20 || c == 0x23

/-- The flags of a text, and others. -/
def Flags.add (f : Flags) (text : List UInt8) : Flags :=
  ⟨f.left || text.contains 0x2d, f.plus || text.contains 0x2b, f.zero || text.contains 0x30,
    f.space || text.contains 0x20, f.hash || text.contains 0x23⟩

/-- The number of some digits, behind others. -/
def numberFrom (n : Int) (digits : List UInt8) : Int := digits.foldl (fun n c => n * 10 + (c.toNat - 0x30)) n

inductive Amount where
  | star
  | number (digits : List UInt8)

def Amount.read : List UInt8 → Amount × List UInt8
  | 0x2a :: text => (.star, text)
  | text => (.number (text.takeWhile isDigit), text.dropWhile isDigit)

def readPrec : List UInt8 → Option Amount × List UInt8
  | 0x2e :: text => (some (Amount.read text).1, (Amount.read text).2)
  | text => (none, text)

/-- The text of a conversion. -/
structure Directive where
  flags : List UInt8
  width : Amount
  prec : Option Amount
  mods : List UInt8
  conv : UInt8

/-- The conversion in front of a text, and what is behind it. -/
def Directive.read (text : List UInt8) : Option (Directive × List UInt8) :=
  let width := Amount.read (text.dropWhile isFlag)
  let prec := readPrec width.2
  match prec.2.dropWhile isLength with
  | [] => none
  | conv :: rest => some (⟨text.takeWhile isFlag, width.1, prec.1, prec.2.takeWhile isLength, conv⟩, rest)

/-- A conversion with its argument. -/
structure Field where
  cv : Conversion
  arg : Option Arg

def Amount.value : Amount → List Arg → Option (Int × List Arg)
  | .star, .word w :: ap => some (w.toInt32.toInt, ap)
  | .star, _ => none
  | .number digits, ap => some (numberFrom 0 digits, ap)

/-- No precision is a negative one. -/
def precValue : Option Amount → List Arg → Option (Int × List Arg)
  | none, ap => some (-1, ap)
  | some amount, ap => amount.value ap

/-- `long long` and `intmax_t`. -/
def isWide (mods : List UInt8) : Bool := mods == [0x6c, 0x6c] || mods == [0x6a]

/-- The arguments of a case: strings that are cut off by a precision need no NUL. -/
def Case.takes (mods : List UInt8) (prec : Int) : Case → Arg → Bool
  | .int, .word _ | .uint .., .word _ => ! isWide mods
  | .int, .dword _ | .uint .., .dword _ => isWide mods
  | .pointer, .ptr _ | .char, .word _ | .double, .double _ | .string, .str none => true
  | .string, .str (some s) => s.contains 0 || decide (0 ≤ prec ∧ prec ≤ s.length)
  | _, _ => false

def Case.hasArg : Case → Bool
  | .percent | .other => false
  | _ => true

/-- A conversion takes its arguments. -/
def Directive.take (d : Directive) (ap : List Arg) : Option (Field × List Arg) := do
  let (width, ap) ← d.width.value ap
  let (prec, ap) ← precValue d.prec ap
  let cv : Conversion := ⟨Flags.add ⟨false, false, false, false, false⟩ d.flags, width, prec, d.conv⟩
  if (caseOf d.conv).hasArg then
    match ap with
    | [] => none
    | arg :: ap => if (caseOf d.conv).takes d.mods prec arg then some (⟨cv, some arg⟩, ap) else none
  else some (⟨cv, none⟩, ap)

inductive Piece where
  | literal (ch : UInt8)
  | field (f : Field)
  | cut

/-- A format, with arguments that match it, is these pieces. -/
inductive Reads : List UInt8 → List Arg → List Piece → Prop
  | done {ap : List Arg} : Reads [] ap []
  | literal {ch : UInt8} {text : List UInt8} {ap : List Arg} {pieces : List Piece} :
      ch ≠ 0x25 → Reads text ap pieces → Reads (ch :: text) ap (.literal ch :: pieces)
  | field {text rest : List UInt8} {ap ap' : List Arg} {d : Directive} {f : Field} {pieces : List Piece} :
      Directive.read text = some (d, rest) → d.take ap = some (f, ap') → Reads rest ap' pieces →
        Reads (0x25 :: text) ap (.field f :: pieces)
  | cut {text : List UInt8} {ap : List Arg} : Directive.read text = none → Reads (0x25 :: text) ap [.cut]

/-! The scans read what is meant. -/

theorem scanFlags_text (f : Flags) (text : List UInt8) :
    scanFlags f (text ++ [0]) = .returns (f.add (text.takeWhile isFlag), text.dropWhile isFlag ++ [0]) := by
  induction text generalizing f with
  | nil => simp [scanFlags, Flags.add]
  | cons c text ih =>
    rw [List.cons_append, scanFlags]
    cases flag : isFlag c with
    | true =>
      rw [List.takeWhile_cons_of_pos flag, List.dropWhile_cons_of_pos flag]
      simp only [isFlag, Bool.or_eq_true, beq_iff_eq] at flag
      rcases flag with (((rfl | rfl) | rfl) | rfl) | rfl <;> simp [ih, Flags.add]
    | false =>
      rw [List.takeWhile_cons_of_neg (by rw [flag]; exact Bool.false_ne_true),
        List.dropWhile_cons_of_neg (by rw [flag]; exact Bool.false_ne_true)]
      simp only [isFlag, Bool.or_eq_false_iff, beq_eq_false_iff_ne] at flag
      obtain ⟨⟨⟨⟨left, plus⟩, zero⟩, space⟩, hash⟩ := flag
      rw [if_neg left, if_neg plus, if_neg zero, if_neg space, if_neg hash]
      simp [Flags.add]

theorem digit_nonneg {c : UInt8} (isDigit_ : isDigit c = true) : 0 ≤ (c.toNat : Int) - 0x30 := by
  have low := (Bool.and_eq_true_iff.mp isDigit_).1
  have bound : (0x30 : UInt8).toNat ≤ c.toNat := UInt8.le_iff_toNat_le.mp (of_decide_eq_true low)
  have value : (0x30 : UInt8).toNat = 0x30 := rfl
  omega

theorem numberFrom_ge (digits : List UInt8) (allDigits : ∀ c ∈ digits, isDigit c = true) {n : Int} (positive : 0 ≤ n) :
    n ≤ numberFrom n digits := by
  induction digits generalizing n with
  | nil => exact Int.le_refl n
  | cons c digits ih =>
    obtain ⟨first, others⟩ := List.forall_mem_cons.mp allDigits
    have here := digit_nonneg first
    have rest : n * 10 + ((c.toNat : Int) - 0x30) ≤ numberFrom n (c :: digits) := ih others (by omega)
    omega

theorem scanNumber_text {n : Int} (positive : 0 ≤ n) (fits : n ≤ intMax) (text : List UInt8) :
    scanNumber n (text ++ [0]) = if numberFrom n (text.takeWhile isDigit) ≤ intMax then
      .returns (numberFrom n (text.takeWhile isDigit), text.dropWhile isDigit ++ [0]) else .outOfBounds := by
  induction text generalizing n with
  | nil => exact (if_pos fits).symm
  | cons c text ih =>
    rw [List.cons_append, scanNumber]
    cases isDigit_ : isDigit c with
    | true =>
      rw [if_pos rfl, List.takeWhile_cons_of_pos isDigit_, List.dropWhile_cons_of_pos isDigit_]
      have here := digit_nonneg isDigit_
      have next : 0 ≤ n * 10 + ((c.toNat : Int) - 0x30) := by omega
      have number : numberFrom n (c :: text.takeWhile isDigit) =
        numberFrom (n * 10 + (c.toNat - 0x30)) (text.takeWhile isDigit) := rfl
      rw [number]
      split
      · rename_i small
        exact ih next small
      · rename_i large
        have grows := numberFrom_ge (text.takeWhile isDigit) (fun c member => List.mem_takeWhile_imp member) next
        rw [if_neg (by omega)]
    | false =>
      rw [List.takeWhile_cons_of_neg (by rw [isDigit_]; exact Bool.false_ne_true),
        List.dropWhile_cons_of_neg (by rw [isDigit_]; exact Bool.false_ne_true)]
      exact (if_pos fits).symm

theorem scanLength_text (text : List UInt8) : scanLength (text ++ [0]) = .returns (text.dropWhile isLength ++ [0]) := by
  induction text with
  | nil => rfl
  | cons c text ih =>
    rw [List.cons_append, scanLength, List.dropWhile_cons]
    split
    · exact ih
    · rfl

theorem toInt_le_intMax (w : UInt32) : w.toInt32.toInt ≤ intMax := by
  have below := Int32.toInt_lt w.toInt32
  rw [intMax]
  omega

theorem read_not_star {text : List UInt8} (other : text.head? ≠ some 0x2a) :
    Amount.read text = (.number (text.takeWhile isDigit), text.dropWhile isDigit) := by
  rw [Amount.read]
  rintro rest rfl
  exact other rfl

theorem scanAmount_not_star {fmt : List UInt8} {ap : List Arg} (other : fmt.head? ≠ some 0x2a) :
    scanAmount fmt ap = scanNumber 0 fmt >>= fun read => .returns (read.1, read.2, ap) := by
  rw [scanAmount]
  · rfl
  · rintro rest rfl
    exact other rfl

theorem head?_text {text : List UInt8} {c : UInt8} (other : text.head? ≠ some c) (nonzero : c ≠ 0) :
    (text ++ [0]).head? ≠ some c := by
  cases text with
  | nil => exact fun same => nonzero (Option.some.inj same).symm
  | cons => exact other

theorem scanAmount_text {text : List UInt8} {ap ap' : List Arg} {n : Int}
    (value : (Amount.read text).1.value ap = some (n, ap')) :
    scanAmount (text ++ [0]) ap =
      if n ≤ intMax then .returns (n, (Amount.read text).2 ++ [0], ap') else .outOfBounds := by
  by_cases star : text.head? = some 0x2a
  · obtain ⟨rest, rfl⟩ := List.head?_eq_some_iff.mp star
    cases ap with
    | nil => cases value
    | cons arg ap =>
      cases arg with
      | word w =>
        cases value
        exact (if_pos (toInt_le_intMax w)).symm
      | dword | ptr | str | double => cases value
  · rw [read_not_star star] at value ⊢
    cases value
    rw [scanAmount_not_star (head?_text star (by decide)), scanNumber_text (Int.le_refl 0) (by decide)]
    split
    · rfl
    · rfl

/-- What is left of the format, whether the arguments match or not. -/
theorem scanAmount_rest {text fmt : List UInt8} {ap ap' : List Arg} {n : Int}
    (scanned : scanAmount (text ++ [0]) ap = .returns (n, fmt, ap')) : fmt = (Amount.read text).2 ++ [0] := by
  by_cases star : text.head? = some 0x2a
  · obtain ⟨rest, rfl⟩ := List.head?_eq_some_iff.mp star
    obtain ⟨⟨w, ap₁⟩, -, same⟩ := Exec.bind_eq_returns.mp scanned
    cases same
    rfl
  · rw [scanAmount_not_star (head?_text star (by decide)), scanNumber_text (Int.le_refl 0) (by decide)] at scanned
    rw [read_not_star star]
    split at scanned
    · cases scanned
      rfl
    · cases scanned

theorem readPrec_none {text : List UInt8} (other : text.head? ≠ some 0x2e) : readPrec text = (none, text) := by
  rw [readPrec]
  rintro rest rfl
  exact other rfl

theorem scanPrec_none {fmt : List UInt8} {ap : List Arg} (other : fmt.head? ≠ some 0x2e) (more : fmt ≠ []) :
    scanPrec fmt ap = .returns (-1, fmt, ap) := by
  rw [scanPrec]
  · rintro rest rfl
    exact other rfl
  · exact more

theorem scanPrec_text {text : List UInt8} {ap ap' : List Arg} {n : Int}
    (value : precValue (readPrec text).1 ap = some (n, ap')) :
    scanPrec (text ++ [0]) ap = if n ≤ intMax then .returns (n, (readPrec text).2 ++ [0], ap') else .outOfBounds := by
  by_cases point : text.head? = some 0x2e
  · obtain ⟨rest, rfl⟩ := List.head?_eq_some_iff.mp point
    exact scanAmount_text value
  · rw [readPrec_none point] at value ⊢
    cases value
    rw [scanPrec_none (head?_text point (by decide)) (List.append_ne_nil_of_right_ne_nil _ (List.cons_ne_nil _ _))]
    exact (if_pos (by decide)).symm

theorem scanPrec_rest {text fmt : List UInt8} {ap ap' : List Arg} {n : Int}
    (scanned : scanPrec (text ++ [0]) ap = .returns (n, fmt, ap')) : fmt = (readPrec text).2 ++ [0] := by
  by_cases point : text.head? = some 0x2e
  · obtain ⟨rest, rfl⟩ := List.head?_eq_some_iff.mp point
    exact scanAmount_rest scanned
  · rw [scanPrec_none (head?_text point (by decide)) (List.append_ne_nil_of_right_ne_nil _ (List.cons_ne_nil _ _))]
      at scanned
    cases scanned
    rw [readPrec_none point]

/-- What a conversion takes, in the order of the arguments. -/
theorem take_spec {d : Directive} {ap ap' : List Arg} {f : Field} (taken : d.take ap = some (f, ap')) :
    ∃ ap₁, d.width.value ap = some (f.cv.width, ap₁) ∧
      precValue d.prec ap₁ = some (f.cv.prec, f.arg.toList ++ ap') ∧
        f.cv.flags = Flags.add ⟨false, false, false, false, false⟩ d.flags ∧ f.cv.conv = d.conv ∧
          (∀ arg, f.arg = some arg → (caseOf d.conv).takes d.mods f.cv.prec arg = true) ∧
            (f.arg = none → (caseOf d.conv).hasArg = false) := by
  obtain ⟨⟨width, ap₁⟩, widthValue, taken⟩ := Option.bind_eq_some_iff.mp taken
  obtain ⟨⟨prec, ap₂⟩, precision, taken⟩ := Option.bind_eq_some_iff.mp taken
  refine ⟨ap₁, ?_⟩
  cases hasArg : (caseOf d.conv).hasArg with
  | false =>
    simp only [hasArg, Bool.false_eq_true, if_false] at taken
    cases taken
    refine ⟨widthValue, precision, rfl, rfl, fun arg none => ?_, fun _ => rfl⟩
    cases none
  | true =>
    simp only [hasArg, if_true] at taken
    cases ap₂ with
    | nil => cases taken
    | cons arg ap₂ =>
      simp only at taken
      split at taken
      · rename_i takes
        cases taken
        refine ⟨widthValue, precision, rfl, rfl, fun arg same => ?_, fun none => ?_⟩
        · cases same
          exact takes
        · cases none
      · cases taken

/-- A conversion is scanned unless a number is too large for an `int`. -/
theorem scanConversion_text {text rest : List UInt8} {ap ap' : List Arg} {d : Directive} {f : Field}
    (read : Directive.read text = some (d, rest)) (taken : d.take ap = some (f, ap')) :
    scanConversion (text ++ [0]) ap = if f.cv.width ≤ intMax ∧ f.cv.prec ≤ intMax then
      .returns (f.cv, rest ++ [0], f.arg.toList ++ ap') else .outOfBounds := by
  obtain ⟨ap₁, width, prec, flags, conv, -, -⟩ := take_spec taken
  rw [Directive.read] at read
  split at read
  · cases read
  · rename_i c behind last
    cases read
    simp only at width prec flags conv
    rw [scanConversion, scanFlags_text, Exec.returns_bind]
    simp only
    rw [scanAmount_text width]
    by_cases widthFits : f.cv.width ≤ intMax
    · rw [if_pos widthFits, Exec.returns_bind]
      simp only
      rw [scanPrec_text prec]
      by_cases precFits : f.cv.prec ≤ intMax
      · rw [if_pos precFits, if_pos ⟨widthFits, precFits⟩, Exec.returns_bind]
        simp only
        rw [scanLength_text, last, Exec.returns_bind, ← flags, ← conv]
        rfl
      · rw [if_neg precFits, if_neg fun both => precFits both.2]
        rfl
    · rw [if_neg widthFits, if_neg fun both => widthFits both.1]
      rfl

/-- A conversion that the end cuts off takes the NUL for its character. -/
theorem scanConversion_cut {text fmt : List UInt8} {ap ap' : List Arg} {cv : Conversion}
    (cut : Directive.read text = none) (scanned : scanConversion (text ++ [0]) ap = .returns (cv, fmt, ap')) :
    fmt = [] := by
  rw [Directive.read] at cut
  split at cut
  · rename_i last
    rw [scanConversion, scanFlags_text, Exec.returns_bind] at scanned
    obtain ⟨⟨width, fmt₁, ap₁⟩, first, scanned⟩ := Exec.bind_eq_returns.mp scanned
    obtain ⟨⟨prec, fmt₂, ap₂⟩, second, scanned⟩ := Exec.bind_eq_returns.mp scanned
    simp only at second scanned
    rw [scanAmount_rest first] at second
    rw [scanPrec_rest second, scanLength_text, last, Exec.returns_bind] at scanned
    cases scanned
    rfl
  · cases cut

theorem amount_suffix (text : List UInt8) : (Amount.read text).2 <:+ text := by
  by_cases star : text.head? = some 0x2a
  · obtain ⟨rest, rfl⟩ := List.head?_eq_some_iff.mp star
    exact List.suffix_cons 0x2a rest
  · rw [read_not_star star]
    exact List.dropWhile_suffix _

theorem prec_suffix (text : List UInt8) : (readPrec text).2 <:+ text := by
  by_cases point : text.head? = some 0x2e
  · obtain ⟨rest, rfl⟩ := List.head?_eq_some_iff.mp point
    exact (amount_suffix rest).trans (List.suffix_cons 0x2e rest)
  · exact (readPrec_none point).symm ▸ List.suffix_rfl

theorem read_suffix {text rest : List UInt8} {d : Directive} (read : Directive.read text = some (d, rest)) :
    rest <:+ text := by
  rw [Directive.read] at read
  split at read
  · cases read
  · rename_i c behind last
    cases read
    have mods : c :: rest <:+ _ := last ▸ List.dropWhile_suffix isLength
    exact (List.suffix_cons c rest).trans (mods.trans ((prec_suffix _).trans ((amount_suffix _).trans
      (List.dropWhile_suffix isFlag))))

theorem Case.exists_arg {case : Case} (hasArg : case.hasArg = true) (mods : List UInt8) :
    ∃ arg, ∀ prec, case.takes mods prec arg = true := by
  cases case with
  | int | uint =>
    cases wide : isWide mods with
    | true => exact ⟨.dword 0, fun prec => wide⟩
    | false => exact ⟨.word 0, fun prec => congrArg not wide⟩
  | pointer => exact ⟨.ptr 0, fun prec => rfl⟩
  | string => exact ⟨.str none, fun prec => rfl⟩
  | char => exact ⟨.word 0, fun prec => rfl⟩
  | double => exact ⟨.double 0, fun prec => rfl⟩
  | percent | other => cases hasArg

theorem Amount.exists_value (amount : Amount) (ap : List Arg) : ∃ ap₁ n, amount.value ap₁ = some (n, ap) := by
  cases amount with
  | star => exact ⟨.word 0 :: ap, _, rfl⟩
  | number digits => exact ⟨ap, _, rfl⟩

theorem exists_precValue (amount : Option Amount) (ap : List Arg) : ∃ ap₁ n, precValue amount ap₁ = some (n, ap) := by
  cases amount with
  | none => exact ⟨ap, _, rfl⟩
  | some amount => exact amount.exists_value ap

/-- Some arguments match a conversion. -/
theorem Directive.exists_take (d : Directive) (ap' : List Arg) : ∃ ap f, d.take ap = some (f, ap') := by
  cases hasArg : (caseOf d.conv).hasArg with
  | false =>
    obtain ⟨ap₁, prec, precision⟩ := exists_precValue d.prec ap'
    obtain ⟨ap, width, widthValue⟩ := d.width.exists_value ap₁
    refine ⟨ap, ⟨⟨Flags.add ⟨false, false, false, false, false⟩ d.flags, width, prec, d.conv⟩, none⟩,
      Option.bind_eq_some_iff.mpr ⟨_, widthValue, Option.bind_eq_some_iff.mpr ⟨_, precision, ?_⟩⟩⟩
    simp only [hasArg, Bool.false_eq_true, if_false]
  | true =>
    obtain ⟨arg, takes⟩ := Case.exists_arg hasArg d.mods
    obtain ⟨ap₁, prec, precision⟩ := exists_precValue d.prec (arg :: ap')
    obtain ⟨ap, width, widthValue⟩ := d.width.exists_value ap₁
    refine ⟨ap, ⟨⟨Flags.add ⟨false, false, false, false, false⟩ d.flags, width, prec, d.conv⟩, some arg⟩,
      Option.bind_eq_some_iff.mpr ⟨_, widthValue, Option.bind_eq_some_iff.mpr ⟨_, precision, ?_⟩⟩⟩
    simp only [hasArg, if_true, takes]

/-- Every format has arguments that match it. -/
theorem exists_reads (text : List UInt8) : ∃ ap pieces, Reads text ap pieces := by
  induction length : text.length using Nat.strongRecOn generalizing text with
  | ind n ih =>
    subst length
    cases text with
    | nil => exact ⟨[], _, .done⟩
    | cons ch text =>
      by_cases percent : ch = 0x25
      · subst percent
        cases read : Directive.read text with
        | none => exact ⟨[], _, .cut read⟩
        | some result =>
          obtain ⟨d, rest⟩ := result
          obtain ⟨ap', pieces, reads⟩ := ih rest.length (Nat.lt_succ_of_le (read_suffix read).length_le) rest rfl
          obtain ⟨ap, f, taken⟩ := d.exists_take ap'
          exact ⟨ap, _, .field read taken reads⟩
      · obtain ⟨ap, pieces, reads⟩ := ih text.length (Nat.lt_succ_self _) text rfl
        exact ⟨ap, _, .literal percent reads⟩

section
variable (emitDouble : Conversion → UInt64 → Exec (List UInt8))

/-- What a conversion prints; a number that no `int` holds is undefined. -/
def Field.print (f : Field) : Exec (List UInt8) :=
  if f.cv.width ≤ intMax ∧ f.cv.prec ≤ intMax then do
    let (chars, _) ← convert emitDouble f.cv f.arg.toList
    return chars
  else .outOfBounds

variable {κ : Type} (pput : κ → UInt8 → Exec κ)

/-- The pieces go to a sink, one after another. -/
def printPieces : List Piece → κ → Exec κ
  | [], c => .returns c
  | .literal ch :: pieces, c => do printPieces pieces (← pput c ch)
  | .field f :: pieces, c => do printPieces pieces (← Exec.run pput c (← f.print emitDouble))
  | .cut :: _, _ => .outOfBounds

end

section
variable {emitDouble : Conversion → UInt64 → Exec (List UInt8)} {κ : Type} {pput : κ → UInt8 → Exec κ}

theorem pair_behind {α : Type} (x : Exec α) (g : α → List UInt8) (ap : List Arg) :
    (x >>= fun a => .returns (g a, ap)) =
      (x >>= fun a => .returns (g a, ([] : List Arg))) >>= fun result => .returns (result.1, ap) := by
  rw [Exec.bind_assoc]
  rfl

/-- A conversion leaves the arguments behind its own. -/
theorem convert_arg {cv : Conversion} {arg : Option Arg} {mods : List UInt8} (ap : List Arg)
    (takes : ∀ a, arg = some a → (caseOf cv.conv).takes mods cv.prec a = true)
    (free : arg = none → (caseOf cv.conv).hasArg = false) :
    convert emitDouble cv (arg.toList ++ ap) =
      convert emitDouble cv arg.toList >>= fun result => .returns (result.1, ap) := by
  rw [convert, convert]
  cases arg with
  | none =>
    have noArg := free rfl
    generalize caseOf cv.conv = case at noArg ⊢
    cases case with
    | percent | other => rfl
    | int | uint | pointer | string | char | double => cases noArg
  | some arg =>
    have fits := takes arg rfl
    generalize caseOf cv.conv = case at fits ⊢
    cases case with
    | percent | other => cases fits
    | int =>
      cases arg with
      | word w =>
        exact pair_behind (emitInt w.toInt32 cv.width cv.prec cv.flags.zero cv.flags.left cv.flags.plus cv.flags.space)
          (fun chars => chars) ap
      | dword => rfl
      | ptr | str | double => cases fits
    | uint base upper mark =>
      cases arg with
      | word w =>
        exact pair_behind (emitUint w base upper cv.width cv.prec cv.flags.zero cv.flags.left)
          (fun chars => (if cv.flags.hash ∧ w ≠ 0 then mark else []) ++ chars) ap
      | dword => rfl
      | ptr | str | double => cases fits
    | pointer =>
      cases arg with
      | ptr p => exact pair_behind (emitUint p 16 false 0 8 true false) (fun chars => 0x30 :: 0x78 :: chars) ap
      | word | dword | str | double => cases fits
    | string =>
      cases arg with
      | str s => exact pair_behind (emitStr s cv.width cv.prec cv.flags.left) (fun chars => chars) ap
      | word | dword | ptr | double => cases fits
    | char =>
      cases arg with
      | word => rfl
      | dword | ptr | str | double => cases fits
    | double =>
      cases arg with
      | double bits => exact pair_behind (emitDouble cv bits) (fun chars => chars) ap
      | word | dword | ptr | str => cases fits

/-- One turn of the loop, for a conversion. -/
theorem formatLoop_field {text rest : List UInt8} {ap ap' : List Arg} {d : Directive} {f : Field} (n : Nat) (c : κ)
    (read : Directive.read text = some (d, rest)) (taken : d.take ap = some (f, ap')) :
    formatLoop emitDouble pput (n + 1) (0x25 :: text ++ [0]) ap c =
      f.print emitDouble >>= fun chars => Exec.run pput c chars >>= formatLoop emitDouble pput n (rest ++ [0]) ap' := by
  have percent : (0x25 : UInt8) ≠ 0 := by decide
  rw [List.cons_append, formatLoop, if_neg percent, if_neg (not_not.mpr rfl), scanConversion_text read taken,
    Field.print]
  by_cases fits : f.cv.width ≤ intMax ∧ f.cv.prec ≤ intMax
  · obtain ⟨-, -, -, -, conv, takes, free⟩ := take_spec taken
    rw [← conv] at takes free
    rw [if_pos fits, if_pos fits, Exec.returns_bind]
    simp only
    rw [convert_arg ap' takes free, Exec.bind_assoc, Exec.bind_assoc]
    rfl
  · rw [if_neg fits, if_neg fits]
    rfl

/-- The loop prints the pieces of a format. -/
theorem formatLoop_reads {text : List UInt8} {ap : List Arg} {pieces : List Piece} (reads : Reads text ap pieces)
    (noNul : 0 ∉ text) {n : Nat} (enough : text.length < n) {c c' : κ} :
    formatLoop emitDouble pput n (text ++ [0]) ap c = .returns c' ↔
      printPieces emitDouble pput pieces c = .returns c' := by
  induction reads generalizing n c with
  | done =>
    cases n with
    | zero => exact absurd enough (Nat.not_lt_zero _)
    | succ n => rfl
  | @literal ch text ap pieces other reads ih =>
    cases n with
    | zero => exact absurd enough (Nat.not_lt_zero _)
    | succ n =>
      obtain ⟨zero, noNul⟩ := not_or.mp (List.mem_cons.not.mp noNul)
      rw [List.cons_append, formatLoop, if_neg (Ne.symm zero), if_pos other, printPieces, Exec.bind_eq_returns,
        Exec.bind_eq_returns]
      exact exists_congr fun c₁ => and_congr_right fun _ => ih noNul (Nat.lt_of_succ_lt_succ enough)
  | @field text rest ap ap' d f pieces read taken reads ih =>
    cases n with
    | zero => exact absurd enough (Nat.not_lt_zero _)
    | succ n =>
      have suffix := read_suffix read
      have noNul' : 0 ∉ rest := fun member => noNul (List.mem_cons_of_mem _ (suffix.mem member))
      have enough' : rest.length < n := Nat.lt_of_le_of_lt suffix.length_le (Nat.lt_of_succ_lt_succ enough)
      rw [formatLoop_field n c read taken, printPieces, Exec.bind_eq_returns, Exec.bind_eq_returns]
      refine exists_congr fun chars => and_congr_right fun _ => ?_
      rw [Exec.bind_eq_returns, Exec.bind_eq_returns]
      exact exists_congr fun c₁ => and_congr_right fun _ => ih noNul' enough'
  | @cut text ap cut =>
    refine iff_of_false (fun ran => ?_) fun ran => by cases ran
    cases n with
    | zero => cases ran
    | succ n =>
      have percent : (0x25 : UInt8) ≠ 0 := by decide
      rw [List.cons_append, formatLoop, if_neg percent, if_neg (not_not.mpr rfl)] at ran
      obtain ⟨⟨cv, fmt, ap₁⟩, scanned, ran⟩ := Exec.bind_eq_returns.mp ran
      obtain ⟨⟨chars, ap₂⟩, -, ran⟩ := Exec.bind_eq_returns.mp ran
      obtain ⟨c₁, -, ran⟩ := Exec.bind_eq_returns.mp ran
      rw [scanConversion_cut cut scanned] at ran
      cases n with
      | zero => cases ran
      | succ n => cases ran

end

end Vsnprintf
end Blyt
