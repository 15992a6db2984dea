import Blyt.Lib.HexText
import Blyt.SaveState
import Blyt.Decimal

namespace Blyt
namespace SaveIo
open Packed

/-- What `printf("%s", chars)` prints. -/
def printS (chars : List UInt8) : List UInt8 := chars.takeWhile (· ≠ 0)

/-- What the loop of `save_state_emit_hex` puts into `chunk` for `n` bytes of the buffer. -/
def hexChunk (src : List UInt8) : List UInt8 := HexText.encode src ++ [0]

/-- The loop of `save_state_emit_hex`, 256 bytes a turn. -/
def emitHexChunks (buf : List UInt8) : List UInt8 :=
  if buf = [] then [] else printS (hexChunk (buf.take 256)) ++ emitHexChunks (buf.drop 256)
  termination_by buf.length
  decreasing_by
    have positive := List.length_pos_iff.mpr ‹_›
    rw [List.length_drop]
    omega

/-- `save_state_emit_hex`: the text it prints. -/
def saveStateEmitHex (buf : ByteSpan) : Exec (List UInt8) :=
  if buf.bytes.length < saveStateHeader.size then .outOfBounds
  else
    .returns (ascii "BUFFER " ++ decimal (saveStateHeader.decode buf.bytes).frame.toNat ++ [32] ++
      emitHexChunks buf.bytes ++ [10])

/-- `hex_digit`; `none` is `-1`. -/
def hexDigit (c : UInt8) : Option Nat := HexText.value c

def isSpace (c : UInt8) : Bool := c == 32 || c == 9 || c == 10 || c == 13

def isDigit (c : UInt8) : Bool := 48 ≤ c && c ≤ 57

/-- What `save_io_parse_hex` leaves: the bytes in `dst`, and whether it returned their number or `-1`. -/
structure ParsedHex where
  written : List UInt8
  ok : Bool
  deriving DecidableEq, Repr

/-- The result; every byte takes two characters of `src`, so the cast to `long` keeps the number. -/
def ParsedHex.ret (r : ParsedHex) : Int := if r.ok then r.written.length else -1

/-- The leading white space and the `BUFFER <frame> ` prefix. -/
def skipBufferPrefix (src : List UInt8) : List UInt8 :=
  let src := src.dropWhile isSpace
  if 7 < src.length ∧ src.take 7 = ascii "BUFFER " then ((src.drop 7).dropWhile isDigit).dropWhile isSpace else src

/-- The last loop of `save_io_parse_hex`, on what is left of `src`. -/
def parseHexLoop (cap : Nat) : List UInt8 → List UInt8 → ParsedHex
  | [], dst => ⟨dst, true⟩
  | [c], dst => if isSpace c then ⟨dst, true⟩ else ⟨dst, false⟩
  | c :: d :: src, dst =>
    if isSpace c then parseHexLoop cap (d :: src) dst
    else match hexDigit c, hexDigit d with
      | some hi, some lo =>
        if dst.length ≥ cap then ⟨dst, false⟩ else parseHexLoop cap src (dst ++ [HexText.join hi lo])
      | _, _ => if isSpace c then parseHexLoop cap (d :: src) dst else ⟨dst, false⟩

/-- `save_io_parse_hex`. -/
def saveIoParseHex (src : List UInt8) (cap : Nat) : ParsedHex := parseHexLoop cap (skipBufferPrefix src) []

section
open HexText
variable {bs : List UInt8}

theorem isSpace_digit (n : Fin 16) : isSpace (digit n) = false := by
  revert n
  decide

theorem digit_ne_zero (n : Fin 16) : digit n ≠ 0 := by
  revert n
  decide

theorem printS_hexChunk (src : List UInt8) : printS (hexChunk src) = encode src := by
  have kept : ∀ c ∈ encode src, decide (c ≠ 0) = true := by
    intro c member
    obtain ⟨n, rfl⟩ := digit_of_mem_encode member
    exact decide_eq_true (digit_ne_zero n)
  rw [printS, hexChunk, List.takeWhile_append_of_pos kept]
  simp

/-- The chunks leave no trace in the text. -/
theorem emitHexChunks_eq (buf : List UInt8) : emitHexChunks buf = encode buf := by
  induction buf using emitHexChunks.induct with
  | case1 => simp [emitHexChunks]
  | case2 buf some ih =>
    rw [emitHexChunks, if_neg some, printS_hexChunk, ih, ← encode_append, List.take_append_drop]

theorem isDigit_decimal {v : Nat} {c : UInt8} (member : c ∈ decimal v) : isDigit c = true := by
  obtain ⟨low, high⟩ := decimal_digits c member
  rw [isDigit, decide_eq_true low, decide_eq_true high]
  rfl

/-- The prefix ends at the first digit of the buffer, whatever the frame. -/
theorem skipBufferPrefix_emitted (frame : Nat) (some : bs ≠ []) :
    skipBufferPrefix (ascii "BUFFER " ++ decimal frame ++ [32] ++ encode bs ++ [10]) = encode bs ++ [10] := by
  obtain ⟨b, rest, rfl⟩ := List.exists_cons_of_ne_nil some
  have text : ascii "BUFFER " ++ decimal frame ++ [32] ++ encode (b :: rest) ++ [10] =
      ascii "BUFFER " ++ (decimal frame ++ (32 :: (encode (b :: rest) ++ [10]))) := by
    simp only [List.append_assoc, List.cons_append, List.nil_append]
  have lead : (ascii "BUFFER " ++ (decimal frame ++ (32 :: (encode (b :: rest) ++ [10])))).dropWhile isSpace =
      ascii "BUFFER " ++ (decimal frame ++ (32 :: (encode (b :: rest) ++ [10]))) := rfl
  have digits : (decimal frame ++ (32 :: (encode (b :: rest) ++ [10]))).dropWhile isDigit =
      32 :: (encode (b :: rest) ++ [10]) := by
    rw [List.dropWhile_append_of_pos fun c member => isDigit_decimal member]
    rfl
  have space : (32 :: (encode (b :: rest) ++ [10])).dropWhile isSpace = encode (b :: rest) ++ [10] := by
    rw [encode_cons, List.dropWhile_cons_of_pos rfl, List.cons_append, List.dropWhile_cons_of_neg]
    rw [isSpace_digit]
    exact Bool.false_ne_true
  have seven : (ascii "BUFFER ").length = 7 := rfl
  rw [skipBufferPrefix, text, lead]
  have long : 7 < (ascii "BUFFER " ++ (decimal frame ++ (32 :: (encode (b :: rest) ++ [10])))).length := by
    simp only [List.length_append, List.length_cons, seven]
    omega
  rw [if_pos ⟨long, List.take_left' seven⟩, List.drop_left' seven, digits, space]

theorem parseHexLoop_encode {cap : Nat} (bs dst : List UInt8) (room : dst.length + bs.length ≤ cap) :
    parseHexLoop cap (encode bs ++ [10]) dst = ⟨dst ++ bs, true⟩ := by
  induction bs generalizing dst with
  | nil => simp [parseHexLoop, isSpace]
  | cons b bs ih =>
    rw [List.length_cons] at room
    have next : ¬dst.length ≥ cap := by omega
    rw [encode_cons, List.cons_append, List.cons_append, parseHexLoop, isSpace_digit, if_neg Bool.false_ne_true]
    simp only [hexDigit, value_digit, if_neg next, join_high_low]
    rw [ih _ (by rw [List.length_append, List.length_singleton]; omega), List.append_assoc, List.singleton_append]

/-- A buffer comes back from the text it was printed as. -/
theorem saveIoParseHex_saveStateEmitHex {buf : ByteSpan} (header : 24 ≤ buf.bytes.length) {cap : Nat}
    (room : buf.bytes.length ≤ cap) :
    ∃ text, saveStateEmitHex buf = .returns text ∧ (saveIoParseHex text cap).written = buf.bytes ∧
      (saveIoParseHex text cap).ret = buf.bytes.length := by
  have some : buf.bytes ≠ [] := List.length_pos_iff.mp (by omega)
  refine ⟨_, if_neg (Nat.not_lt.mpr header), ?_⟩
  have parsed : saveIoParseHex (ascii "BUFFER " ++ decimal (saveStateHeader.decode buf.bytes).frame.toNat ++ [32] ++
      emitHexChunks buf.bytes ++ [10]) cap = ⟨buf.bytes, true⟩ := by
    rw [saveIoParseHex, emitHexChunks_eq, skipBufferPrefix_emitted _ some, parseHexLoop_encode _ _ (by simpa using room),
      List.nil_append]
  rw [parsed]
  exact ⟨rfl, rfl⟩

/-- A header alone, of frame 0xabcdef: its number is printed in front of the digits `BUFFER` is skipped up to. -/
theorem saveIoParseHex_header : ∃ text, saveStateEmitHex ⟨List.replicate 16 0 ++ [0xef, 0xcd, 0xab, 0, 24, 0, 0, 0], by decide⟩ =
      .returns text ∧ (saveIoParseHex text 24).written = List.replicate 16 0 ++ [0xef, 0xcd, 0xab, 0, 24, 0, 0, 0] ∧
        (saveIoParseHex text 24).ret = 24 :=
  saveIoParseHex_saveStateEmitHex (by decide) (by decide)

end

end SaveIo
end Blyt
