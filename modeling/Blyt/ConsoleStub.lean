import Blyt.Decimal
import Blyt.Lib.HexText
import Blyt.Lib.Window

/-! The text output of the console stubs of spikes O and P. -/

namespace Blyt
namespace ConsoleStub
open Window Packed

/-- `strlen_s`. A text without a NUL is read behind its end. -/
def strlenS : List UInt8 → Exec Nat
  | [] => .outOfBounds
  | c :: s => if c = 0 then .returns 0 else do
    let n ← strlenS s
    return n + 1

/-- What the host is handed to write. -/
def writeStr (s : List UInt8) : Exec (List UInt8) := do
  let len ← strlenS s
  return s.take len

def literal (s : String) : List UInt8 := ascii s ++ [0]

/-- `hex[v & 0xf]` -/
def hexChar (v : UInt32) : UInt8 := HexText.digit ⟨(v &&& 0xf).toNat % 16, Nat.mod_lt _ (by decide)⟩

/-- The loop of `write_hex8`, from index `i` down. -/
def hexLoop : Nat → UInt32 → List UInt8 → Exec (List UInt8)
  | 0, _, buf => .returns buf
  | i + 1, v, buf => do
    let buf ← writeAt buf i [hexChar v]
    hexLoop i (v >>> 4) buf

/-- `buf` is the local buffer, with what it holds before. -/
def writeHex8 (buf : List UInt8) (v : UInt32) : Exec (List UInt8) := do
  let buf ← hexLoop 8 v buf
  readAt buf 0 8

/-- `buf[--i] = c`: the new `i`, and the buffer. -/
def push (buf : List UInt8) (i : Int) (c : UInt8) : Exec (Int × List UInt8) :=
  if i - 1 < 0 then .outOfBounds else do
    let buf ← writeAt buf (i - 1).toNat [c]
    return (i - 1, buf)

/-- `while (v)` of `write_uint`. -/
def digitLoop (v : UInt32) (buf : List UInt8) (i : Int) : Exec (Int × List UInt8) :=
  if v = 0 then .returns (i, buf)
  else do
    let (i, buf) ← push buf i (48 + (v % 10).toUInt8)
    digitLoop (v / 10) buf i
  termination_by v.toNat
  decreasing_by
    have positive : 0 < v.toNat := Nat.pos_of_ne_zero fun zero => ‹¬v = 0› (UInt32.toNat_inj.mp zero)
    rw [UInt32.toNat_div]
    exact Nat.div_lt_self positive (by decide)

/-- The digits, from index `i` down. -/
def putDigits (v : UInt32) (buf : List UInt8) (i : Int) : Exec (Int × List UInt8) :=
  if v = 0 then push buf i 48 else digitLoop v buf i

/-- `buf` is `char buf[10]`, with what it holds before. -/
def writeUint (buf : List UInt8) (v : UInt32) : Exec (List UInt8) := do
  let buf ← writeAt buf 9 [0]
  let (i, buf) ← putDigits v buf 9
  writeStr (buf.drop i.toNat)

/-! The strings. -/

theorem strlenS_eq {text : List UInt8} (noNul : 0 ∉ text) (more : List UInt8) :
    strlenS (text ++ 0 :: more) = .returns text.length := by
  induction text with
  | nil => rfl
  | cons c text ih =>
    rw [List.mem_cons, not_or] at noNul
    rw [List.cons_append, strlenS, if_neg (Ne.symm noNul.1), ih noNul.2]
    rfl

theorem writeStr_eq {text : List UInt8} (noNul : 0 ∉ text) (more : List UInt8) :
    writeStr (text ++ 0 :: more) = .returns text := by
  rw [writeStr, strlenS_eq noNul, Exec.returns_bind, List.take_left' rfl]
  rfl

/-! The numbers. -/

theorem push_returns (front : List UInt8) (old c : UInt8) (text : List UInt8) :
    push (front ++ old :: text) (front.length + 1) c = .returns (front.length, front ++ c :: text) := by
  rw [push, Int.add_sub_cancel, if_neg (Int.not_lt.mpr (Int.natCast_nonneg _)), Int.toNat_natCast, writeAt_cell]
  rfl

/-- Below index 0 there is no buffer. -/
theorem push_overruns (buf : List UInt8) (c : UInt8) : push buf 0 c = .outOfBounds := if_pos (by decide)

theorem digit_eq (v : UInt32) : 48 + (v % 10).toUInt8 = UInt8.ofNat (48 + v.toNat % 10) := by
  rw [← UInt8.toNat_inj, digit_toNat, UInt8.toNat_add, UInt32.toNat_toUInt8, UInt32.toNat_mod]
  show (48 + v.toNat % 10 % 256) % 256 = _
  omega

/-- As long as there is room, the digits go in front of the text; the first that has none leaves the buffer. -/
theorem digitLoop_eq {fuel : Nat} {v : UInt32} (small : v.toNat < 10 ^ fuel) (front text : List UInt8) :
    digitLoop v (front ++ text) front.length =
      if (decimalTmp fuel v.toNat).length ≤ front.length then
        .returns ((front.length - (decimalTmp fuel v.toNat).length : Nat),
          front.take (front.length - (decimalTmp fuel v.toNat).length) ++ ((decimalTmp fuel v.toNat).reverse ++ text))
      else .outOfBounds := by
  induction fuel generalizing v front text with
  | zero =>
    have zero : v = 0 := UInt32.toNat_inj.mp (Nat.lt_one_iff.mp small)
    rw [digitLoop, if_pos zero, decimalTmp, List.length_nil, if_pos (Nat.zero_le _), Nat.sub_zero, List.take_length]
    rfl
  | succ fuel ih =>
    rw [digitLoop, decimalTmp]
    by_cases zero : v = 0
    · have none : v.toNat = 0 := UInt32.toNat_inj.mpr zero
      rw [if_pos zero, if_pos none, List.length_nil, if_pos (Nat.zero_le _), Nat.sub_zero, List.take_length]
      rfl
    · have some : v.toNat ≠ 0 := fun none => zero (UInt32.toNat_inj.mp none)
      have quotient : (v / 10).toNat = v.toNat / 10 := UInt32.toNat_div v 10
      rw [if_neg zero, if_neg some, digit_eq]
      rcases List.eq_nil_or_concat front with rfl | ⟨front, old, rfl⟩
      · exact (congrArg (· >>= _) (push_overruns _ _)).trans (if_neg (Nat.not_succ_le_zero _)).symm
      · have next := ih (quotient ▸ next_small small) front (UInt8.ofNat (48 + v.toNat % 10) :: text)
        have length : ((front ++ [old]).length : Int) = front.length + 1 := by
          rw [List.length_append, List.length_singleton, Int.natCast_succ]
        rw [quotient] at next
        rw [List.concat_eq_append, length, List.append_assoc, List.singleton_append, push_returns, Exec.returns_bind]
        dsimp only
        rw [next, List.length_append, List.length_singleton, List.length_cons, List.reverse_cons, List.append_assoc,
          List.singleton_append, Nat.add_sub_add_right, List.take_append_of_le_length (Nat.sub_le _ _)]
        simp only [Nat.succ_le_succ_iff]

theorem word_small (v : UInt32) : v.toNat < 10 ^ 24 := Nat.lt_trans v.toNat_lt (by decide)

theorem putDigits_eq (v : UInt32) {front : List UInt8} (some : 0 < front.length) (text : List UInt8) :
    putDigits v (front ++ text) front.length =
      if v.toNat < 10 ^ front.length then
        .returns ((front.length - (decimal v.toNat).length : Nat),
          front.take (front.length - (decimal v.toNat).length) ++ (decimal v.toNat ++ text))
      else .outOfBounds := by
  rw [putDigits]
  by_cases zero : v = 0
  · have none : v.toNat = 0 := UInt32.toNat_inj.mpr zero
    have digit : decimal 0 = [48] := rfl
    rcases List.eq_nil_or_concat front with rfl | ⟨front, old, rfl⟩
    · exact absurd some (Nat.lt_irrefl 0)
    · have length : (front ++ [old]).length = front.length + 1 := List.length_append
      rw [List.concat_eq_append, length, none, digit, if_pos zero, if_pos (Nat.pow_pos (by decide)),
        List.length_singleton, Nat.add_sub_cancel, List.take_left' rfl, List.append_assoc, List.singleton_append,
        Int.natCast_succ, push_returns]
      rfl
  · have positive : v.toNat ≠ 0 := fun none => zero (UInt32.toNat_inj.mp none)
    rw [decimal, if_neg zero, if_neg positive, digitLoop_eq (word_small v), List.length_reverse]
    exact if_congr (decimalTmp_length_le_iff (word_small v)) rfl rfl

/-- What `write_uint` prints has room for nine digits in front of its NUL. -/
theorem writeUint_eq {buf : List UInt8} (ten : buf.length = 10) (v : UInt32) :
    writeUint buf v = if v.toNat < 10 ^ 9 then .returns (decimal v.toNat) else .outOfBounds := by
  rcases List.eq_nil_or_concat buf with rfl | ⟨front, last, rfl⟩
  · cases ten
  rw [List.concat_eq_append] at ten ⊢
  have nine : front.length = 9 := by
    rw [List.length_append, List.length_singleton] at ten
    omega
  have stored := writeAt_cell front last 0 []
  have some : 0 < front.length := by omega
  have put := putDigits_eq v some [0]
  rw [nine] at stored put
  rw [writeUint, stored, Exec.returns_bind]
  by_cases small : v.toNat < 10 ^ 9
  · have index : (front.take (9 - (decimal v.toNat).length)).length = 9 - (decimal v.toNat).length := by
      rw [List.length_take, nine]
      exact Nat.min_eq_left (Nat.sub_le _ _)
    rw [if_pos small] at put ⊢
    refine (congrArg (· >>= _) put).trans ?_
    rw [Exec.returns_bind]
    dsimp only
    rw [Int.toNat_natCast, List.drop_left' index, writeStr_eq decimal_noNul]
  · rw [if_neg small] at put ⊢
    exact congrArg (· >>= _) put

/-- Whatever its buffer holds before, `write_uint` writes the digits of the number, with every store inside. -/
def WritesDigits (v : UInt32) : Prop :=
  ∀ buf : List UInt8, buf.length = 10 → writeUint buf v = .returns (ascii (toString v.toNat))

/-- Ten bytes hold nine digits and the NUL. -/
theorem writesDigits_iff (v : UInt32) : WritesDigits v ↔ v.toNat < 10 ^ 9 := by
  constructor
  · intro writes
    by_contra large
    have stray := writes (List.replicate 10 0) List.length_replicate
    rw [writeUint_eq List.length_replicate, if_neg large] at stray
    cases stray
  · intro small buf ten
    rw [writeUint_eq ten, if_pos small, decimal_eq_toString (word_small v)]

theorem tenDigits_stray : ¬WritesDigits 1000000000 := by
  intro writes
  have stray := writes (List.replicate 10 0) List.length_replicate
  rw [writeUint_eq List.length_replicate, if_neg (by decide)] at stray
  cases stray

/-- The last nibbles of a number as hexadecimal digits. -/
def hexDigits : Nat → UInt32 → List UInt8
  | 0, _ => []
  | i + 1, v => hexDigits i (v >>> 4) ++ [hexChar v]

theorem hexLoop_eq {i : Nat} (v : UInt32) {front : List UInt8} (text : List UInt8) (length : front.length = i) :
    hexLoop i v (front ++ text) = .returns (hexDigits i v ++ text) := by
  induction i generalizing v front text with
  | zero => rw [hexLoop, List.length_eq_zero_iff.mp length, hexDigits]
  | succ i ih =>
    rcases List.eq_nil_or_concat front with rfl | ⟨front, old, rfl⟩
    · cases length
    rw [List.concat_eq_append, List.length_append, List.length_singleton, Nat.add_right_cancel_iff] at length
    have stored := writeAt_cell front old (hexChar v) text
    rw [length] at stored
    rw [hexLoop, List.concat_eq_append, List.append_assoc, List.singleton_append, stored, Exec.returns_bind,
      ih (v >>> 4) _ length, hexDigits, List.append_assoc, List.singleton_append]

theorem shiftRight_four (v : UInt32) : (v >>> 4).toNat = v.toNat / 16 := by
  rw [UInt32.toNat_shiftRight]
  show v.toNat >>> 4 = _
  rw [Nat.shiftRight_eq_div_pow]

theorem nibble_toNat (v : UInt32) : (v &&& 0xf).toNat = v.toNat % 16 := by
  rw [UInt32.toNat_and]
  exact Nat.and_two_pow_sub_one_eq_mod v.toNat 4

/-- Two digits at a time, they are the bytes of the number, the highest first. -/
theorem hexDigits_eq (k : Nat) (v : UInt32) : hexDigits (2 * k) v = HexText.encode (leBytes k v.toNat).reverse := by
  induction k generalizing v with
  | zero => rfl
  | succ k ih =>
    have byte : (UInt8.ofNat (v.toNat % 256)).toNat = v.toNat % 256 := by
      rw [UInt8.toNat_ofNat', Nat.mod_eq_of_lt (by omega)]
    have high : hexChar (v >>> 4) = HexText.digit (HexText.high (UInt8.ofNat (v.toNat % 256))) := by
      refine congrArg HexText.digit (Fin.ext ?_)
      show (v >>> 4 &&& 0xf).toNat % 16 = (UInt8.ofNat (v.toNat % 256)).toNat / 16
      rw [nibble_toNat, shiftRight_four, byte]
      omega
    have low : hexChar v = HexText.digit (HexText.low (UInt8.ofNat (v.toNat % 256))) := by
      refine congrArg HexText.digit (Fin.ext ?_)
      show (v &&& 0xf).toNat % 16 = (UInt8.ofNat (v.toNat % 256)).toNat % 16
      rw [nibble_toNat, byte]
      omega
    have rest : (v >>> 4 >>> 4).toNat = v.toNat / 256 := by
      rw [shiftRight_four, shiftRight_four, Nat.div_div_eq_div_mul]
    rw [Nat.mul_succ, hexDigits, hexDigits, ih, rest, high, low, leBytes, List.reverse_cons, HexText.encode_append,
      List.append_assoc]
    rfl

/-- `%08x` -/
def hex8 (v : UInt32) : List UInt8 := HexText.encode (leBytes 4 v.toNat).reverse

theorem writeHex8_eq {buf : List UInt8} (eight : buf.length = 8) (v : UInt32) :
    writeHex8 buf v = .returns (hex8 v) := by
  have written := hexLoop_eq v [] eight
  rw [List.append_nil, List.append_nil, show hexDigits 8 v = hex8 v from hexDigits_eq 4 v] at written
  have length : (hex8 v).length = 8 := by
    rw [hex8, (HexText.spells_encode _).length, List.length_reverse, leBytes_length]
  rw [writeHex8, written, Exec.returns_bind, readAt_returns length.ge, List.drop_zero, List.take_of_length_le length.le]

/-! The callers. What they print goes to the host one piece after another. -/

/-- The local buffers of a call's `write_hex8` and `write_uint`, with what they hold before. -/
structure Frame where
  hex : List UInt8
  digits : List UInt8
  hexSize : hex.length = 8
  digitsSize : digits.length = 10

/-- `blyt32_image_blit` of spike O. -/
def imageBlit (f : Frame) (image : UInt32) (x y : Int32) (flags : UInt32) : Exec (List UInt8) := do
  let opening ← writeStr (literal "IMAGE_BLIT img=")
  let img ← writeHex8 f.hex image
  let toX ← writeStr (literal " x=")
  let x ← writeUint f.digits x.toUInt32
  let toY ← writeStr (literal " y=")
  let y ← writeUint f.digits y.toUInt32
  let toFlags ← writeStr (literal " fl=")
  let fl ← writeHex8 f.hex flags
  let newline ← writeStr (literal "\n")
  return opening ++ img ++ toX ++ x ++ toY ++ y ++ toFlags ++ fl ++ newline

/-- `blyt_emit_digest` of spike P, and the end of `frame_state_emit_digest_simple` of spike O. -/
def emitDigest (f : Frame) (frame hi lo : UInt32) : Exec (List UInt8) := do
  let opening ← writeStr (literal "DIGEST ")
  let frame ← writeUint f.digits frame
  let space ← writeStr (literal " ")
  let hi ← writeHex8 f.hex hi
  let lo ← writeHex8 f.hex lo
  let newline ← writeStr (literal "\n")
  return opening ++ frame ++ space ++ hi ++ lo ++ newline

theorem literal_written {text : String} (noNul : 0 ∉ ascii text) : writeStr (literal text) = .returns (ascii text) :=
  writeStr_eq noNul []

/-- The blit is echoed, unless a coordinate has more digits than `write_uint` has room for. -/
theorem imageBlit_eq (f : Frame) (image : UInt32) (x y : Int32) (flags : UInt32) :
    imageBlit f image x y flags =
      if x.toUInt32.toNat < 10 ^ 9 ∧ y.toUInt32.toNat < 10 ^ 9 then
        .returns (ascii "IMAGE_BLIT img=" ++ hex8 image ++ ascii " x=" ++ decimal x.toUInt32.toNat ++ ascii " y=" ++
          decimal y.toUInt32.toNat ++ ascii " fl=" ++ hex8 flags ++ ascii "\n")
      else .outOfBounds := by
  have opening : writeStr (literal "IMAGE_BLIT img=") = .returns (ascii "IMAGE_BLIT img=") :=
    literal_written (by decide)
  have toX : writeStr (literal " x=") = .returns (ascii " x=") := literal_written (by decide)
  have toY : writeStr (literal " y=") = .returns (ascii " y=") := literal_written (by decide)
  have toFlags : writeStr (literal " fl=") = .returns (ascii " fl=") := literal_written (by decide)
  have newline : writeStr (literal "\n") = .returns (ascii "\n") := literal_written (by decide)
  rw [imageBlit, opening, Exec.returns_bind, writeHex8_eq f.hexSize, Exec.returns_bind, toX, Exec.returns_bind,
    writeUint_eq f.digitsSize]
  by_cases small : x.toUInt32.toNat < 10 ^ 9
  · rw [if_pos small, Exec.returns_bind, toY, Exec.returns_bind, writeUint_eq f.digitsSize]
    by_cases small' : y.toUInt32.toNat < 10 ^ 9
    · rw [if_pos small', Exec.returns_bind, toFlags, Exec.returns_bind, writeHex8_eq f.hexSize, Exec.returns_bind,
        newline, if_pos ⟨small, small'⟩]
      rfl
    · rw [if_neg small', if_neg fun both => small' both.2]
      rfl
  · rw [if_neg small, if_neg fun both => small both.1]
    rfl

/-- A picture that begins left of the screen or above it is blitted with a store outside the buffer. -/
theorem imageBlit_negative (f : Frame) (image : UInt32) {x y : Int32} (flags : UInt32) (negative : x < 0 ∨ y < 0) :
    imageBlit f image x y flags = .outOfBounds := by
  have large : ∀ {z : Int32}, z < 0 → ¬z.toUInt32.toNat < 10 ^ 9 := by
    intro z below small
    have value : z.toInt =
        if 2 * z.toUInt32.toNat < 2 ^ 32 then (z.toUInt32.toNat : Int) else z.toUInt32.toNat - 2 ^ 32 :=
      BitVec.toInt_eq_toNat_cond z.toBitVec
    rw [Int32.lt_iff_toInt_lt, value, if_pos (by omega)] at below
    exact absurd below (Int.not_lt.mpr (Int.natCast_nonneg _))
  rw [imageBlit_eq, if_neg]
  rintro ⟨small, small'⟩
  rcases negative with left | above
  · exact large left small
  · exact large above small'

theorem emitDigest_eq (f : Frame) (frame hi lo : UInt32) :
    emitDigest f frame hi lo = if frame.toNat < 10 ^ 9 then
      .returns (ascii "DIGEST " ++ decimal frame.toNat ++ ascii " " ++ hex8 hi ++ hex8 lo ++ ascii "\n")
      else .outOfBounds := by
  have opening : writeStr (literal "DIGEST ") = .returns (ascii "DIGEST ") := literal_written (by decide)
  have space : writeStr (literal " ") = .returns (ascii " ") := literal_written (by decide)
  have newline : writeStr (literal "\n") = .returns (ascii "\n") := literal_written (by decide)
  rw [emitDigest, opening, Exec.returns_bind, writeUint_eq f.digitsSize]
  by_cases small : frame.toNat < 10 ^ 9
  · rw [if_pos small, if_pos small, Exec.returns_bind, space, Exec.returns_bind, writeHex8_eq f.hexSize,
      Exec.returns_bind, writeHex8_eq f.hexSize, Exec.returns_bind, newline]
    rfl
  · rw [if_neg small, if_neg small]
    rfl

end ConsoleStub
end Blyt
