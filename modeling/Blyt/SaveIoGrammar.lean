import Blyt.SaveIo
import Mathlib.Data.List.TakeWhile

namespace Blyt
namespace SaveIo
open Packed

/-- `src[i]`. -/
def readByte (src : List UInt8) (i : Nat) : Exec UInt8 :=
  match src[i]? with
  | some c => .returns c
  | none => .outOfBounds

/-- `dst[out++] = b`, where `dst[..out]` is written already. -/
def storeByte (cap : Nat) (dst : List UInt8) (b : UInt8) : Exec (List UInt8) :=
  if dst.length < cap then .returns (dst ++ [b]) else .outOfBounds

/-- `while (i < len && p(src[i])) i++`. -/
def skipWhile (p : UInt8 → Bool) (src : List UInt8) : (turns : Nat) → Nat → Exec Nat
  | 0, _ => .spins
  | turns + 1, i =>
    if i < src.length then do
      let c ← readByte src i
      if p c then skipWhile p src turns (i + 1) else return i
    else return i

/-- The characters of a literal from `i` on, up to the first that differs. -/
def matchesAt (src : List UInt8) : List UInt8 → Nat → Exec Bool
  | [], _ => return true
  | c :: literal, i => do
    let d ← readByte src i
    if d = c then matchesAt src literal (i + 1) else return false

/-- The last loop of `save_io_parse_hex`. -/
def parseHexTurns (src : List UInt8) (cap : Nat) : (turns : Nat) → Nat → List UInt8 → Exec ParsedHex
  | 0, _, _ => .spins
  | turns + 1, i, dst =>
    if i < src.length then do
      let c ← readByte src i
      if isSpace c then parseHexTurns src cap turns (i + 1) dst
      else if i + 1 ≥ src.length then return ⟨dst, false⟩
      else do
        let d ← readByte src (i + 1)
        match hexDigit c, hexDigit d with
        | some hi, some lo =>
          if dst.length ≥ cap then return ⟨dst, false⟩
          else do
            let dst ← storeByte cap dst (HexText.join hi lo)
            parseHexTurns src cap turns (i + 2) dst
        | _, _ => if isSpace c then parseHexTurns src cap turns (i + 1) dst else return ⟨dst, false⟩
    else return ⟨dst, true⟩

/-- The test for the `BUFFER ` prefix. -/
def matchesPrefix (src : List UInt8) (i : Nat) : Exec Bool :=
  if i + 7 < src.length then matchesAt src (ascii "BUFFER ") i else return false

/-- `save_io_parse_hex`, with every access to `src[..len]` and `dst[..cap]` checked. A loop that took more turns
than there are characters would not end. -/
def saveIoParseHexChecked (src : List UInt8) (cap : Nat) : Exec ParsedHex := do
  let turns := src.length + 1
  let i ← skipWhile isSpace src turns 0
  if ← matchesPrefix src i then do
    let i ← skipWhile isDigit src turns (i + 7)
    let i ← skipWhile isSpace src turns i
    parseHexTurns src cap turns i []
  else parseHexTurns src cap turns i []

section
variable {src : List UInt8} {i turns : Nat}

theorem readByte_returns (inside : i < src.length) : readByte src i = .returns src[i] := by
  rw [readByte, List.getElem?_eq_getElem inside]

/-- A loop that skips ends where the rest of the text says, and at the end of the text at the latest. -/
theorem skipWhile_returns (p : UInt8 → Bool) (start : i ≤ src.length) (enough : src.length - i < turns) :
    ∃ j, skipWhile p src turns i = .returns j ∧ j ≤ src.length ∧ src.drop j = (src.drop i).dropWhile p := by
  induction turns generalizing i with
  | zero => omega
  | succ turns ih =>
    rw [skipWhile]
    by_cases inside : i < src.length
    · rw [if_pos inside, readByte_returns inside, Exec.returns_bind, List.drop_eq_getElem_cons inside]
      by_cases skipped : p src[i] = true
      · rw [if_pos skipped, List.dropWhile_cons_of_pos skipped]
        exact ih inside (by omega)
      · rw [if_neg skipped, List.dropWhile_cons_of_neg skipped]
        exact ⟨i, rfl, start, List.drop_eq_getElem_cons inside⟩
    · rw [if_neg inside, List.drop_eq_nil_of_le (Nat.le_of_not_lt inside)]
      exact ⟨i, rfl, start, List.drop_eq_nil_of_le (Nat.le_of_not_lt inside)⟩

theorem matchesAt_returns (literal : List UInt8) (room : i + literal.length ≤ src.length) :
    matchesAt src literal i = .returns (decide ((src.drop i).take literal.length = literal)) := by
  induction literal generalizing i with
  | nil => simp [matchesAt]
  | cons c literal ih =>
    rw [List.length_cons] at room
    have inside : i < src.length := by omega
    rw [matchesAt, readByte_returns inside, Exec.returns_bind, List.drop_eq_getElem_cons inside, List.length_cons,
      List.take_succ_cons]
    by_cases same : src[i] = c
    · rw [if_pos same, ih (by omega)]
      simp [same]
    · rw [if_neg same]
      simp [same]

theorem parseHexTurns_returns {cap : Nat} {dst : List UInt8} (start : i ≤ src.length) (enough : src.length - i < turns) :
    parseHexTurns src cap turns i dst = .returns (parseHexLoop cap (src.drop i) dst) := by
  induction turns generalizing i dst with
  | zero => omega
  | succ turns ih =>
    rw [parseHexTurns]
    by_cases inside : i < src.length
    swap
    · rw [if_neg inside, List.drop_eq_nil_of_le (Nat.le_of_not_lt inside), parseHexLoop]
      rfl
    rw [if_pos inside, readByte_returns inside, Exec.returns_bind, List.drop_eq_getElem_cons inside]
    by_cases last : i + 1 ≥ src.length
    · rw [List.drop_eq_nil_of_le last, parseHexLoop]
      by_cases space : isSpace src[i] = true
      · rw [if_pos space, if_pos space, ih inside (by omega), List.drop_eq_nil_of_le last, parseHexLoop]
      · simp only [if_neg space, if_pos last, Exec.pure_eq]
    · have next : i + 1 < src.length := Nat.lt_of_not_le last
      rw [List.drop_eq_getElem_cons next, parseHexLoop]
      by_cases space : isSpace src[i] = true
      · rw [if_pos space, if_pos space, ih inside (by omega), List.drop_eq_getElem_cons next]
      · simp only [if_neg space, if_neg last, readByte_returns next, Exec.returns_bind]
        cases hexDigit src[i] with
        | none => rfl
        | some hi =>
          cases hexDigit src[i + 1] with
          | none => rfl
          | some lo =>
            dsimp only
            by_cases full : dst.length ≥ cap
            · rw [if_pos full, if_pos full]
              rfl
            · rw [if_neg full, if_neg full, storeByte, if_pos (Nat.lt_of_not_le full), Exec.returns_bind]
              refine ih ?_ ?_
              · omega
              · omega

/-- No access leaves `src[..len]` or `dst[..cap]`, and every loop ends. -/
theorem saveIoParseHexChecked_returns (src : List UInt8) (cap : Nat) :
    saveIoParseHexChecked src cap = .returns (saveIoParseHex src cap) := by
  obtain ⟨i, skipped, start, rest⟩ := skipWhile_returns isSpace (Nat.zero_le src.length)
    (by omega : src.length - 0 < src.length + 1)
  have seven : (ascii "BUFFER ").length = 7 := rfl
  have length := congrArg List.length rest
  rw [List.length_drop, List.drop_zero] at length
  rw [List.drop_zero] at rest
  rw [saveIoParseHexChecked, skipped, Exec.returns_bind, saveIoParseHex, skipBufferPrefix, matchesPrefix]
  by_cases room : i + 7 < src.length
  · rw [if_pos room, matchesAt_returns _ (by rw [seven]; omega), Exec.returns_bind, rest, seven]
    by_cases framed : (src.dropWhile isSpace).take 7 = ascii "BUFFER "
    · obtain ⟨j, digits, start', rest'⟩ := skipWhile_returns isDigit (Nat.le_of_lt room)
        (by omega : src.length - (i + 7) < src.length + 1)
      obtain ⟨k, spaces, start'', rest''⟩ := skipWhile_returns isSpace start' (by omega : src.length - j < src.length + 1)
      have long : 7 < (src.dropWhile isSpace).length := by omega
      rw [if_pos (decide_eq_true framed), digits, Exec.returns_bind, spaces, Exec.returns_bind,
        parseHexTurns_returns start'' (by omega), rest'', rest', ← List.drop_drop, rest,
        if_pos ⟨long, framed⟩]
    · rw [if_neg (by simpa using framed), parseHexTurns_returns start (by omega), rest,
        if_neg fun both => framed both.2]
  · rw [if_neg room, Exec.pure_eq, Exec.returns_bind, if_neg Bool.false_ne_true, parseHexTurns_returns start (by omega), rest,
      if_neg fun both => by omega]

end

/-- White space and adjacent pairs of digits, and the bytes that the pairs spell. -/
inductive HexBytes : List UInt8 → List UInt8 → Prop
  | nil : HexBytes [] []
  | space {c : UInt8} {text bytes : List UInt8} (blank : isSpace c = true) (rest : HexBytes text bytes) :
      HexBytes (c :: text) bytes
  | pair {c d : UInt8} {hi lo : Nat} {text bytes : List UInt8} (high : hexDigit c = some hi) (low : hexDigit d = some lo)
      (rest : HexBytes text bytes) : HexBytes (c :: d :: text) (HexText.join hi lo :: bytes)

/-- White space, then perhaps the prefix with a number and white space, and something behind the literal, then the
bytes. `ends` says what may come behind the number. -/
def IsHexFile (ends : List UInt8 → Prop) (src bytes : List UInt8) : Prop :=
  ∃ lead body, src = lead ++ body ∧ (∀ c ∈ lead, isSpace c = true) ∧
    (HexBytes body bytes ∨ ∃ number gap rest, body = ascii "BUFFER " ++ (number ++ (gap ++ rest)) ∧
      number ++ (gap ++ rest) ≠ [] ∧ (∀ c ∈ number, isDigit c = true) ∧ (∀ c ∈ gap, isSpace c = true) ∧ ends (gap ++ rest) ∧
        HexBytes rest bytes)

/-- The number is as long as can be: no digit comes behind it. -/
def NumberIsLongest (behind : List UInt8) : Prop := ∀ c, behind.head? = some c → isDigit c = false

/-- The parser takes what the grammar derives and fits, as those bytes, and returns -1 on everything else; it
reads and writes inside its buffers only. -/
def ParsesExactly (grammar : List UInt8 → List UInt8 → Prop) (src : List UInt8) (cap : Nat) : Prop :=
  ∃ r, saveIoParseHexChecked src cap = .returns r ∧ r.written.length ≤ cap ∧
    (∀ bytes, (r.ret = bytes.length ∧ r.written = bytes) ↔ grammar src bytes ∧ bytes.length ≤ cap) ∧
      ((¬∃ bytes, grammar src bytes ∧ bytes.length ≤ cap) → r.ret = -1)

theorem hexDigit_of_isSpace {c : UInt8} (blank : isSpace c = true) : hexDigit c = none := by
  simp only [isSpace, Bool.or_eq_true, beq_iff_eq] at blank
  rcases blank with ((rfl | rfl) | rfl) | rfl <;> decide

section
variable {text bytes : List UInt8} {c : UInt8}

theorem HexBytes.nil_iff : HexBytes [] bytes ↔ bytes = [] := by
  constructor
  · intro hex
    cases hex with
    | nil => rfl
  · rintro rfl
    exact .nil

theorem HexBytes.space_iff (blank : isSpace c = true) : HexBytes (c :: text) bytes ↔ HexBytes text bytes := by
  refine ⟨fun hex => ?_, .space blank⟩
  cases hex with
  | space _ rest => exact rest
  | pair high _ _ =>
    rw [hexDigit_of_isSpace blank] at high
    cases high

theorem HexBytes.pair_iff (solid : ¬isSpace c = true) :
    HexBytes (c :: text) bytes ↔ ∃ d hi lo rest more, text = d :: rest ∧ hexDigit c = some hi ∧ hexDigit d = some lo ∧
      bytes = HexText.join hi lo :: more ∧ HexBytes rest more := by
  constructor
  · intro hex
    cases hex with
    | space blank _ => exact absurd blank solid
    | pair high low rest => exact ⟨_, _, _, _, _, rfl, high, low, rfl, rest⟩
  · rintro ⟨d, hi, lo, rest, more, rfl, high, low, rfl, hex⟩
    exact .pair high low hex

theorem HexBytes.dropWhile_iff : HexBytes (text.dropWhile isSpace) bytes ↔ HexBytes text bytes := by
  induction text with
  | nil => exact Iff.rfl
  | cons c text ih =>
    by_cases blank : isSpace c = true
    · rw [List.dropWhile_cons_of_pos blank, ih, space_iff blank]
    · rw [List.dropWhile_cons_of_neg blank]

theorem HexBytes.append_iff {lead : List UInt8} (blanks : ∀ c ∈ lead, isSpace c = true) :
    HexBytes (lead ++ text) bytes ↔ HexBytes text bytes := by
  rw [← dropWhile_iff, List.dropWhile_append_of_pos blanks, dropWhile_iff]

/-- The literal is no hexadecimal text. -/
theorem HexBytes.not_prefix : ¬HexBytes (ascii "BUFFER " ++ text) bytes := by
  intro hex
  cases hex with
  | space blank _ => cases blank
  | pair _ low _ => cases low

end

section
variable {cap : Nat} {text dst out : List UInt8} {c d : UInt8}

theorem parseHexLoop_space (blank : isSpace c = true) : parseHexLoop cap (c :: text) dst = parseHexLoop cap text dst := by
  cases text with
  | nil => simp only [parseHexLoop, if_pos blank]
  | cons d text => rw [parseHexLoop, if_pos blank]

theorem parseHexLoop_nil_iff (room : dst.length ≤ cap) :
    parseHexLoop cap [] dst = ⟨out, true⟩ ↔ ∃ bytes, HexBytes [] bytes ∧ out = dst ++ bytes ∧ out.length ≤ cap := by
  rw [parseHexLoop, ParsedHex.mk.injEq, and_iff_left rfl]
  constructor
  · rintro rfl
    exact ⟨[], .nil, (List.append_nil _).symm, room⟩
  · rintro ⟨bytes, hex, rfl, -⟩
    rw [HexBytes.nil_iff.mp hex, List.append_nil]

theorem refused_ne : (⟨dst, false⟩ : ParsedHex) ≠ ⟨out, true⟩ := by
  intro same
  cases same

/-- The loop takes exactly the bytes that are spelled, if they fit. -/
theorem parseHexLoop_iff (text : List UInt8) (room : dst.length ≤ cap) :
    parseHexLoop cap text dst = ⟨out, true⟩ ↔ ∃ bytes, HexBytes text bytes ∧ out = dst ++ bytes ∧ out.length ≤ cap := by
  induction text, dst using parseHexLoop.induct cap with
  | case1 dst => exact parseHexLoop_nil_iff room
  | case2 c dst blank =>
    simp only [parseHexLoop_space blank, HexBytes.space_iff blank]
    exact parseHexLoop_nil_iff room
  | case3 c dst solid =>
    rw [parseHexLoop, if_neg solid]
    refine iff_of_false refused_ne ?_
    rintro ⟨bytes, hex, -⟩
    obtain ⟨_, _, _, _, _, nothing, -⟩ := (HexBytes.pair_iff solid).mp hex
    cases nothing
  | case4 c d text dst blank ih =>
    simp only [parseHexLoop_space blank, HexBytes.space_iff blank]
    exact ih room
  | case5 c d text dst solid hi lo low high full =>
    rw [parseHexLoop, if_neg solid]
    simp only [high, low, if_pos full]
    refine iff_of_false refused_ne ?_
    rintro ⟨bytes, hex, rfl, fits⟩
    obtain ⟨_, _, _, _, more, -, -, -, rfl, -⟩ := (HexBytes.pair_iff solid).mp hex
    rw [List.length_append, List.length_cons] at fits
    omega
  | case6 c d text dst solid hi lo low high full ih =>
    rw [parseHexLoop, if_neg solid]
    simp only [high, low, if_neg full]
    rw [ih (by rw [List.length_append, List.length_singleton]; omega)]
    constructor
    · rintro ⟨bytes, hex, rfl, fits⟩
      exact ⟨_, .pair high low hex, List.append_assoc .., fits⟩
    · rintro ⟨bytes, hex, rfl, fits⟩
      obtain ⟨_, _, _, _, more, same, high', low', rfl, rest⟩ := (HexBytes.pair_iff solid).mp hex
      cases same
      rw [high] at high'
      rw [low] at low'
      cases high'
      cases low'
      exact ⟨more, rest, by rw [List.append_assoc, List.singleton_append], fits⟩
  | case7 c d text dst solid blank => exact absurd blank solid
  | case8 c d text dst solid _ odd =>
    have stops : parseHexLoop cap (c :: d :: text) dst = ⟨dst, false⟩ := by
      rw [parseHexLoop, if_neg solid]
      split
      · rename_i hi lo high low
        exact absurd low (odd hi lo high)
      · rw [if_neg solid]
    rw [stops]
    refine iff_of_false refused_ne ?_
    rintro ⟨bytes, hex, -⟩
    obtain ⟨_, hi, lo, _, _, same, high, low, -⟩ := (HexBytes.pair_iff solid).mp hex
    cases same
    exact odd hi lo high low

/-- What is written fits, whatever comes of it. -/
theorem parseHexLoop_length_le (text : List UInt8) (room : dst.length ≤ cap) :
    (parseHexLoop cap text dst).written.length ≤ cap := by
  induction text, dst using parseHexLoop.induct cap with
  | case1 dst => exact room
  | case2 c dst blank =>
    rw [parseHexLoop, if_pos blank]
    exact room
  | case3 c dst solid =>
    rw [parseHexLoop, if_neg solid]
    exact room
  | case4 c d text dst blank ih =>
    rw [parseHexLoop, if_pos blank]
    exact ih room
  | case5 c d text dst solid hi lo low high full =>
    rw [parseHexLoop, if_neg solid]
    simp only [high, low, if_pos full]
    exact room
  | case6 c d text dst solid hi lo low high full ih =>
    rw [parseHexLoop, if_neg solid]
    simp only [high, low, if_neg full]
    exact ih (by rw [List.length_append, List.length_singleton]; omega)
  | case7 c d text dst solid blank => exact absurd blank solid
  | case8 c d text dst solid _ odd =>
    rw [parseHexLoop, if_neg solid]
    split
    · rename_i hi lo high low
      exact absurd low (odd hi lo high)
    · rw [if_neg solid]
      exact room

end

/-- Behind the prefix lies what the grammar leaves there. -/
theorem isHexFile_iff {src bytes : List UInt8} :
    IsHexFile NumberIsLongest src bytes ↔ HexBytes (skipBufferPrefix src) bytes := by
  have seven : (ascii "BUFFER ").length = 7 := rfl
  constructor
  · rintro ⟨lead, body, rfl, blanks, hex | ⟨number, gap, rest, rfl, some, digits, spaces, longest, hex⟩⟩
    · rw [skipBufferPrefix, List.dropWhile_append_of_pos blanks]
      rw [← HexBytes.dropWhile_iff] at hex
      split
      · rename_i framed
        rw [← List.take_append_drop 7 (body.dropWhile isSpace), framed.2] at hex
        exact absurd hex HexBytes.not_prefix
      · exact hex
    · have start : (lead ++ (ascii "BUFFER " ++ (number ++ (gap ++ rest)))).dropWhile isSpace =
          ascii "BUFFER " ++ (number ++ (gap ++ rest)) := by
        rw [List.dropWhile_append_of_pos blanks]
        rfl
      have long : 7 < (ascii "BUFFER " ++ (number ++ (gap ++ rest))).length := by
        have behind := List.length_pos_iff.mpr some
        rw [List.length_append, seven]
        omega
      have number_ends : (number ++ (gap ++ rest)).dropWhile isDigit = gap ++ rest := by
        rw [List.dropWhile_append_of_pos digits]
        cases at_ : gap ++ rest with
        | nil => rfl
        | cons c behind =>
          rw [at_] at longest
          rw [List.dropWhile_cons_of_neg]
          exact Bool.eq_false_iff.mp (longest c rfl)
      rw [skipBufferPrefix, start, if_pos ⟨long, List.take_left' seven⟩, List.drop_left' seven, number_ends, HexBytes.dropWhile_iff]
      exact (HexBytes.append_iff spaces).mpr hex
  · intro hex
    refine ⟨src.takeWhile isSpace, src.dropWhile isSpace, List.takeWhile_append_dropWhile.symm,
      fun c member => List.mem_takeWhile_imp member, ?_⟩
    rw [skipBufferPrefix] at hex
    split at hex
    · rename_i framed
      have behind : ((src.dropWhile isSpace).drop 7).takeWhile isDigit ++
          ((((src.dropWhile isSpace).drop 7).dropWhile isDigit).takeWhile isSpace ++
            (((src.dropWhile isSpace).drop 7).dropWhile isDigit).dropWhile isSpace) = (src.dropWhile isSpace).drop 7 := by
        rw [List.takeWhile_append_dropWhile, List.takeWhile_append_dropWhile]
      refine .inr ⟨((src.dropWhile isSpace).drop 7).takeWhile isDigit,
        (((src.dropWhile isSpace).drop 7).dropWhile isDigit).takeWhile isSpace, _, ?_, ?_,
        fun c member => List.mem_takeWhile_imp member, fun c member => List.mem_takeWhile_imp member, ?_, hex⟩
      · rw [behind, ← framed.2, List.take_append_drop]
      · rw [behind, ne_eq, List.drop_eq_nil_iff]
        exact Nat.not_le.mpr framed.1
      · rw [List.takeWhile_append_dropWhile]
        intro c first
        have stop := List.head?_dropWhile_not isDigit ((src.dropWhile isSpace).drop 7)
        rwa [first] at stop
    · exact .inl hex

/-- `save_io_parse_hex` accepts exactly its grammar, the number of the prefix being as long as can be. -/
theorem saveIoParseHex_grammar (src : List UInt8) (cap : Nat) : ParsesExactly (IsHexFile NumberIsLongest) src cap := by
  have accepts : ∀ bytes, saveIoParseHex src cap = ⟨bytes, true⟩ ↔
      IsHexFile NumberIsLongest src bytes ∧ bytes.length ≤ cap := by
    intro bytes
    rw [saveIoParseHex, parseHexLoop_iff _ (Nat.zero_le cap), isHexFile_iff]
    simp only [List.nil_append]
    constructor
    · rintro ⟨_, hex, rfl, fits⟩
      exact ⟨hex, fits⟩
    · rintro ⟨hex, fits⟩
      exact ⟨bytes, hex, rfl, fits⟩
  have returns : ∀ r : ParsedHex, ∀ bytes, (r.ret = bytes.length ∧ r.written = bytes) ↔ r = ⟨bytes, true⟩ := by
    rintro ⟨written, ok⟩ bytes
    cases ok with
    | false =>
      refine iff_of_false (fun both => ?_) refused_ne
      have negative : (-1 : Int) = bytes.length := both.1
      omega
    | true =>
      constructor
      · rintro ⟨-, rfl⟩
        rfl
      · rintro same
        cases same
        exact ⟨rfl, rfl⟩
  refine ⟨_, saveIoParseHexChecked_returns src cap, parseHexLoop_length_le _ (Nat.zero_le cap), fun bytes => ?_, fun none => ?_⟩
  · rw [returns, accepts]
  · have rejected : (saveIoParseHex src cap).ok = false := by
      by_contra taken
      rw [Bool.not_eq_false] at taken
      exact none ⟨_, (accepts (saveIoParseHex src cap).written).mp (by rw [← taken])⟩
    rw [ParsedHex.ret, rejected, if_neg Bool.false_ne_true]

/-- `BUFFER 1a`: the pair `1a` behind the prefix, with no number, is a file of the grammar, but the number takes
its first digit. -/
theorem saveIoParseHex_not_grammar :
    ¬∀ (src : List UInt8) (cap : Nat), ParsesExactly (IsHexFile fun _ => True) src cap := by
  intro parses
  obtain ⟨r, run, -, accepts, -⟩ := parses (ascii "BUFFER 1a") 1
  have rejected : saveIoParseHexChecked (ascii "BUFFER 1a") 1 = .returns ⟨[], false⟩ := by decide +kernel
  have derived : IsHexFile (fun _ => True) (ascii "BUFFER 1a") [0x1a] :=
    ⟨[], _, rfl, nofun, .inr ⟨[], [], [0x31, 0x61], rfl, List.cons_ne_nil _ _, nofun, nofun, trivial,
      .pair (by decide : hexDigit 0x31 = some 1) (by decide : hexDigit 0x61 = some 10) .nil⟩⟩
  have taken := (accepts [0x1a]).mpr ⟨derived, by decide⟩
  rw [rejected] at run
  cases run
  cases taken.2

end SaveIo
end Blyt
