import Blyt.StubPacker
import Blyt.Decimal
import Mathlib.Data.List.TakeWhile

/-! What the packer reads from the state file is what it saved there. -/

namespace Blyt
namespace StubPacker

/-- A line that `fgets` hands over at once: up to its newline, or 511 bytes of one that is longer. -/
def Whole (line : List UInt8) : Prop :=
  ∃ body last, line = body ++ [last] ∧ 10 ∉ body ∧ (last = 10 ∧ body.length ≤ 510 ∨ body.length = 510)

/-- A text of such lines, without a NUL. -/
def Readable (bytes : List UInt8) : Prop :=
  ∃ lines : List (List UInt8), bytes = lines.flatten ∧ ∀ line ∈ lines, Whole line ∧ 0 ∉ line

/-- A path that is not taken for another in the state file: it has no byte that ends the path or the line, and the line
is not divided within it. -/
structure InLine (src : List UInt8) : Prop where
  nonempty : src ≠ []
  few : src.length ≤ 511
  plain : ∀ c ∈ src, c ≠ 0 ∧ c ≠ 10 ∧ c ≠ 0x7c

/-- A value of the type. -/
def IsLong (n : Int) : Prop := -2 ^ 63 ≤ n ∧ n < 2 ^ 63

/-- A line, behind the path and its bar, without its newline. -/
def stamps (mtime size : Int) (sha : List UInt8) : List UInt8 :=
  ascii (toString mtime) ++ 0x7c :: (ascii (toString size) ++ 0x7c :: sha)

/-! Lines. -/

section Lines
variable {line body rest : List UInt8} {last : UInt8} {lines : List (List UInt8)}

theorem fgetsLines_begun (noNewline : 10 ∉ body) (fits : line.length + body.length ≤ 510)
    (ends : last = 10 ∨ line.length + body.length = 510) :
    fgetsLines line (body ++ last :: rest) = (line ++ body ++ [last]) :: fgetsLines [] rest := by
  induction body generalizing line with
  | nil =>
    rw [List.nil_append, fgetsLines, if_pos (by simpa using ends), List.append_nil]
  | cons c body ih =>
    rw [List.mem_cons, not_or] at noNewline
    rw [List.length_cons] at fits ends
    have more : ¬(c = 10 ∨ line.length = 510) := not_or.mpr ⟨Ne.symm noNewline.1, by omega⟩
    rw [List.cons_append, fgetsLines, if_neg more, ih noNewline.2]
    · simp
    · rw [List.length_append, List.length_singleton]
      omega
    · rw [List.length_append, List.length_singleton]
      exact ends.imp_right fun full => by omega

theorem fgetsLines_flatten (whole : ∀ line ∈ lines, Whole line) : fgetsLines [] lines.flatten = lines := by
  induction lines with
  | nil => rfl
  | cons line lines ih =>
    obtain ⟨body, last, rfl, noNewline, ends⟩ := whole line List.mem_cons_self
    rw [List.flatten_cons, List.append_assoc, List.singleton_append, fgetsLines_begun noNewline,
      ih fun line member => whole line (List.mem_cons_of_mem _ member)]
    · rfl
    · rw [List.length_nil]
      omega
    · rw [List.length_nil, Nat.zero_add]
      exact ends.imp_left And.left

theorem takeWhile_nonNul (plain : 0 ∉ line) : line.takeWhile (· ≠ 0) = line := by
  refine List.takeWhile_eq_self_iff.mpr fun c member => decide_eq_true ?_
  rintro rfl
  exact plain member

end Lines

/-! Numbers. -/

/-- The last digit stands behind the others. -/
theorem ascii_toString (n : Nat) :
    ascii (toString n) = (if n < 10 then [] else ascii (toString (n / 10))) ++ [UInt8.ofNat (48 + n % 10)] := by
  have text (n : Nat) : ascii (toString n) = (Nat.toDigits 10 n).map fun c => UInt8.ofNat c.toNat := by
    show (Nat.repr n).toList.map _ = _
    rw [Nat.toList_repr]
  have last := digitChar_ascii n
  rw [text, Nat.toDigits_eq_if (by decide)]
  split
  · rename_i low
    rw [Nat.mod_eq_of_lt low] at last
    rw [List.map_singleton, last, Nat.mod_eq_of_lt low, List.nil_append]
  · rw [List.map_append, List.map_singleton, last, text]

theorem toString_digits (n : Nat) : (∀ c ∈ ascii (toString n), isDigit c = true) ∧
    (ascii (toString n)).foldl (fun (v : Int) c => v * 10 + (c.toNat - 48)) 0 = n := by
  have digit : ∀ d : Fin 10, isDigit (UInt8.ofNat (48 + d)) = true ∧ ((UInt8.ofNat (48 + d)).toNat : Int) - 48 = d := by
    decide
  induction n using Nat.strongRecOn with
  | ind n ih =>
    obtain ⟨isDigit, value⟩ := digit ⟨n % 10, Nat.mod_lt _ (by decide)⟩
    dsimp only at isDigit value
    rw [ascii_toString, List.foldl_append, List.foldl_cons, List.foldl_nil, value]
    split
    · rename_i low
      refine ⟨fun c member => List.mem_singleton.mp member ▸ isDigit, ?_⟩
      rw [List.foldl_nil]
      omega
    · obtain ⟨digits, front⟩ := ih (n / 10) (by omega)
      refine ⟨fun c member => ?_, ?_⟩
      · rcases List.mem_append.mp member with before | last
        · exact digits c before
        · exact List.mem_singleton.mp last ▸ isDigit
      · rw [front]
        omega

theorem toString_ne_nil (n : Nat) : ascii (toString n) ≠ [] := by
  rw [ascii_toString]
  exact List.append_ne_nil_of_right_ne_nil _ (List.cons_ne_nil _ _)

theorem length_toString_le {n k : Nat} (small : n < 10 ^ (k + 1)) : (ascii (toString n)).length ≤ k + 1 := by
  induction k generalizing n with
  | zero =>
    have low : n < 10 := small
    rw [ascii_toString, if_pos low]
    exact Nat.le_refl 1
  | succ k ih =>
    rw [ascii_toString, List.length_append, List.length_singleton]
    split
    · exact Nat.le_add_left 1 _
    · exact Nat.succ_le_succ (ih (Nat.div_lt_of_lt_mul (by rwa [Nat.pow_succ, Nat.mul_comm] at small)))

/-- The text of a number: digits, behind a sign if it is negative. -/
theorem ascii_toString_int (n : Int) :
    ascii (toString n) = (if n < 0 then [0x2d] else []) ++ ascii (toString n.natAbs) := by
  cases n with
  | ofNat n => rfl
  | negSucc n =>
    show ("-" ++ Nat.repr (n + 1)).toList.map _ = _
    rw [String.toList_append, List.map_append, if_pos (Int.negSucc_lt_zero n)]
    rfl

theorem mem_toString {n : Int} {c : UInt8} (member : c ∈ ascii (toString n)) : c = 0x2d ∨ isDigit c = true := by
  rw [ascii_toString_int, List.mem_append] at member
  rcases member with sign | digit
  · split at sign
    · exact .inl (List.mem_singleton.mp sign)
    · exact absurd sign List.not_mem_nil
  · exact .inr ((toString_digits _).1 c digit)

theorem IsLong.length_le {n : Int} (long : IsLong n) : (ascii (toString n)).length ≤ 20 := by
  have digits : (ascii (toString n.natAbs)).length ≤ 18 + 1 := by
    refine length_toString_le ?_
    have := long.1
    have := long.2
    omega
  rw [ascii_toString_int, List.length_append]
  split
  · rw [List.length_singleton]
    omega
  · rw [List.length_nil]
    omega

theorem isDigit_range {c : UInt8} (digit : isDigit c = true) : 48 ≤ c.toNat ∧ c.toNat ≤ 57 := by
  rw [isDigit, Bool.and_eq_true, decide_eq_true_eq, decide_eq_true_eq] at digit
  exact ⟨UInt8.le_iff_toNat_le.mp digit.1, UInt8.le_iff_toNat_le.mp digit.2⟩

theorem digit_first {c : UInt8} (digit : isDigit c = true) : isSpace c = false ∧ c ≠ 0x2d ∧ c ≠ 0x2b := by
  obtain ⟨low, high⟩ := isDigit_range digit
  refine ⟨?_, ?_, ?_⟩
  · simp only [isSpace, Bool.or_eq_false_iff, Bool.and_eq_false_iff, beq_eq_false_iff_ne, decide_eq_false_iff_not,
      UInt8.le_iff_toNat_le]
    refine ⟨?_, .inr ?_⟩
    · rintro rfl
      exact absurd low (by decide)
    · exact fun small => absurd (Nat.le_trans low small) (by decide)
  · rintro rfl
    exact absurd low (by decide)
  · rintro rfl
    exact absurd low (by decide)

/-- A number that was printed is read, up to the bar behind it. -/
theorem scanLong_toString {n : Int} (long : IsLong n) (rest : List UInt8) :
    scanLong (ascii (toString n) ++ 0x7c :: rest) = some (n, 0x7c :: rest) := by
  have behind : ∀ c ∈ ascii (toString n.natAbs), isDigit c = true := (toString_digits _).1
  have taken : (ascii (toString n.natAbs) ++ 0x7c :: rest).takeWhile isDigit = ascii (toString n.natAbs) := by
    rw [List.takeWhile_append_of_pos behind, List.takeWhile_cons_of_neg (by decide), List.append_nil]
  have dropped : (ascii (toString n.natAbs) ++ 0x7c :: rest).dropWhile isDigit = 0x7c :: rest := by
    rw [List.dropWhile_append_of_pos behind, List.dropWhile_cons_of_neg (by decide)]
  obtain ⟨low, high⟩ := long
  rw [ascii_toString_int]
  by_cases negative : n < 0
  · rw [if_pos negative, List.append_assoc, List.singleton_append, scanLong]
    rw [List.dropWhile_cons_of_neg (by decide)]
    simp only [List.head?_cons, true_or, if_true, List.tail_cons, taken, dropped, if_neg (toString_ne_nil _),
      (toString_digits _).2]
    congr
    omega
  · obtain ⟨c, text, same⟩ := List.exists_cons_of_ne_nil (toString_ne_nil n.natAbs)
    obtain ⟨space, sign⟩ := digit_first (behind c (same ▸ List.mem_cons_self))
    have start : (ascii (toString n.natAbs) ++ 0x7c :: rest).head? = some c := by rw [same]; rfl
    have kept : (ascii (toString n.natAbs) ++ 0x7c :: rest).dropWhile isSpace =
        ascii (toString n.natAbs) ++ 0x7c :: rest := by
      rw [same, List.cons_append, List.dropWhile_cons_of_neg (by rw [space]; exact Bool.false_ne_true)]
    rw [if_neg negative, List.nil_append, scanLong]
    simp only [kept, start, Option.some.injEq, sign.1, sign.2, or_self, if_false, taken, dropped,
      if_neg (toString_ne_nil _), (toString_digits _).2]
    congr
    omega

/-! Entries. -/

section Entries
variable {p rest line src sha : List UInt8} {mtime size : Int} {e : PackerEntry}

theorem scanPath_some {path : List UInt8} (scanned : scanPath p = some (path, rest)) :
    p = path ++ rest ∧ path ≠ [] ∧ path.length ≤ 255 ∧ ∀ c ∈ path, c ≠ 0x7c := by
  rw [scanPath] at scanned
  split at scanned
  · cases scanned
  · rename_i some
    cases scanned
    have front : (p.take 255).takeWhile (· ≠ 0x7c) <+: p := (List.takeWhile_prefix _).trans (List.take_prefix ..)
    refine ⟨?_, some, ?_, fun c member => by simpa using List.mem_takeWhile_imp member⟩
    · conv_lhs => rw [← List.take_append_drop ((p.take 255).takeWhile (· ≠ 0x7c)).length p]
      rw [← List.prefix_iff_eq_take.mp front]
    · exact ((List.takeWhile_prefix _).length_le).trans (List.length_take_le ..)

theorem scanBar_some (scanned : scanBar p = some rest) : p = 0x7c :: rest := by
  rw [scanBar.eq_def] at scanned
  split at scanned
  · cases scanned
    rfl
  · cases scanned

theorem scanLong_some {n : Int} (scanned : scanLong p = some (n, rest)) : rest <:+ p := by
  rw [scanLong] at scanned
  dsimp only at scanned
  generalize skipped : p.dropWhile isSpace = q at scanned
  generalize signed : (if q.head? = some 0x2d ∨ q.head? = some 0x2b then q.tail else q) = digits at scanned
  have inLine : q <:+ p := skipped ▸ List.dropWhile_suffix _
  have behindSign : digits <:+ q := by
    rw [← signed]
    split
    · exact List.tail_suffix q
    · exact List.suffix_refl q
  split at scanned
  · cases scanned
  · cases scanned
    exact ((List.dropWhile_suffix _).trans behindSign).trans inLine

/-- A line with its four fields has three bars, and something in front of the first. -/
theorem scanEntry_some (scanned : scanEntry line = some e) :
    (∃ rest, scanPath (line.takeWhile (· ≠ 0)) = some (e.path, 0x7c :: rest)) ∧ 3 ≤ line.count 0x7c := by
  rw [scanEntry] at scanned
  obtain ⟨⟨path, p⟩, first, scanned⟩ := Option.bind_eq_some_iff.mp scanned
  obtain ⟨p₁, bar₁, scanned⟩ := Option.bind_eq_some_iff.mp scanned
  obtain ⟨⟨mtime, p₂⟩, second, scanned⟩ := Option.bind_eq_some_iff.mp scanned
  obtain ⟨p₃, bar₂, scanned⟩ := Option.bind_eq_some_iff.mp scanned
  obtain ⟨⟨size, p₄⟩, third, scanned⟩ := Option.bind_eq_some_iff.mp scanned
  obtain ⟨p₅, bar₃, scanned⟩ := Option.bind_eq_some_iff.mp scanned
  obtain ⟨sha, -, scanned⟩ := Option.bind_eq_some_iff.mp scanned
  cases scanned
  obtain rfl := scanBar_some bar₁
  obtain rfl := scanBar_some bar₂
  obtain rfl := scanBar_some bar₃
  refine ⟨⟨p₁, first⟩, ?_⟩
  have inThird := (scanLong_some third).sublist.count_le 0x7c
  have inSecond := (scanLong_some second).sublist.count_le 0x7c
  have inLine := (List.takeWhile_sublist (l := line) (· ≠ 0)).count_le 0x7c
  rw [(scanPath_some first).1, List.count_append, List.count_cons_self] at inLine
  rw [List.count_cons_self] at inSecond inThird
  omega

theorem scanEntry_path (scanned : scanEntry line = some e) : e.path.length ≤ 255 := by
  obtain ⟨⟨rest, first⟩, -⟩ := scanEntry_some scanned
  exact (scanPath_some first).2.2.1

end Entries

/-! What is saved. -/

/-- A hash as it is printed. -/
structure IsHash (sha : List UInt8) : Prop where
  length : sha.length = 64
  digits : ∀ c ∈ sha, ∃ d : Fin 16, c = HexText.digit d

theorem isHash_sha256 (content : List UInt8) : IsHash (sha256FileHex (some content)) := by
  refine ⟨?_, fun c member => HexText.digit_of_mem_encode member⟩
  rw [sha256FileHex, (HexText.spells_encode _).length, sha256]
  simp [beBytes]

section Saved
variable {src sha other : List UInt8} {mtime size : Int} {c : UInt8}

theorem IsHash.plain (hash : IsHash sha) (member : c ∈ sha) :
    c ≠ 0 ∧ c ≠ 10 ∧ c ≠ 0x7c ∧ isSpace c = false := by
  obtain ⟨d, rfl⟩ := hash.digits c member
  clear member
  revert d
  decide

theorem toString_plain {n : Int} (member : c ∈ ascii (toString n)) : c ≠ 0 ∧ c ≠ 10 ∧ c ≠ 0x7c := by
  rcases mem_toString member with rfl | digit
  · decide
  · obtain ⟨low, high⟩ := isDigit_range digit
    refine ⟨?_, ?_, ?_⟩
    all_goals
      rintro rfl
      revert low high
      decide

theorem mem_stamps (hash : IsHash sha) (member : c ∈ stamps mtime size sha) : c ≠ 0 ∧ c ≠ 10 := by
  simp only [stamps, List.mem_append, List.mem_cons] at member
  rcases member with inMtime | rfl | inSize | rfl | inSha
  · exact ⟨(toString_plain inMtime).1, (toString_plain inMtime).2.1⟩
  · decide
  · exact ⟨(toString_plain inSize).1, (toString_plain inSize).2.1⟩
  · decide
  · exact ⟨(hash.plain inSha).1, (hash.plain inSha).2.1⟩

theorem count_stamps (hash : IsHash sha) : (stamps mtime size sha).count 0x7c = 2 := by
  have number (n : Int) : (ascii (toString n)).count 0x7c = 0 :=
    List.count_eq_zero.mpr fun member => (toString_plain member).2.2 rfl
  have text : sha.count 0x7c = 0 := List.count_eq_zero.mpr fun member => (hash.plain member).2.2.1 rfl
  rw [stamps, List.count_append, List.count_cons_self, List.count_append, List.count_cons_self, number, number, text]

theorem length_stamps (hash : IsHash sha) (longMtime : IsLong mtime) (longSize : IsLong size) :
    (stamps mtime size sha).length ≤ 106 := by
  have first := longMtime.length_le
  have second := longSize.length_le
  rw [stamps, List.length_append, List.length_cons, List.length_append, List.length_cons, hash.length]
  omega

/-- The line of a path that fits its buffer is read as it was printed. -/
theorem scanEntry_saved (inLine : InLine src) (short : src.length ≤ 255) (longMtime : IsLong mtime)
    (longSize : IsLong size) (hash : IsHash sha) :
    scanEntry (src ++ 0x7c :: (stamps mtime size sha ++ [10])) = some ⟨src, mtime, size, sha⟩ := by
  have whole : (src ++ 0x7c :: (stamps mtime size sha ++ [10])).takeWhile (· ≠ 0) =
      src ++ 0x7c :: (stamps mtime size sha ++ [10]) := by
    refine takeWhile_nonNul fun member => ?_
    simp only [List.mem_append, List.mem_cons, List.not_mem_nil, or_false] at member
    rcases member with inSrc | bar | inStamps | newline
    · exact (inLine.plain 0 inSrc).1 rfl
    · exact absurd bar (by decide)
    · exact (mem_stamps hash inStamps).1 rfl
    · exact absurd newline (by decide)
  have path : scanPath (src ++ 0x7c :: (stamps mtime size sha ++ [10])) =
      some (src, 0x7c :: (stamps mtime size sha ++ [10])) := by
    have unbarred : ∀ c ∈ src, decide (c ≠ 0x7c) = true := fun c member => decide_eq_true (inLine.plain c member).2.2
    have front : ((src ++ 0x7c :: (stamps mtime size sha ++ [10])).take 255).takeWhile (· ≠ 0x7c) = src := by
      rw [List.take_append, List.take_of_length_le short, List.takeWhile_append_of_pos unbarred]
      cases 255 - src.length with
      | zero => rw [List.take_zero, List.takeWhile_nil, List.append_nil]
      | succ => rw [List.take_succ_cons, List.takeWhile_cons_of_neg (by decide), List.append_nil]
    rw [scanPath, front, if_neg inLine.nonempty, List.drop_left]
  have word : scanWord (sha ++ [10]) = some sha := by
    have visible : ∀ c ∈ sha, (! isSpace c) = true := by
      intro c member
      rw [(hash.plain member).2.2.2]
      rfl
    obtain ⟨first, others, text⟩ := List.exists_cons_of_length_pos (l := sha) (by rw [hash.length]; decide)
    have start : isSpace first = false := (hash.plain (text ▸ List.mem_cons_self)).2.2.2
    have kept : (sha ++ [10]).dropWhile isSpace = sha ++ [10] := by
      rw [text, List.cons_append, List.dropWhile_cons_of_neg (by rw [start]; exact Bool.false_ne_true)]
    have front : (sha ++ [10]).take 64 = sha := by rw [← hash.length, List.take_left]
    rw [scanWord, kept, front, List.takeWhile_eq_self_iff.mpr visible, if_neg]
    rw [text]
    exact List.cons_ne_nil _ _
  have tail : stamps mtime size sha ++ [10] =
      ascii (toString mtime) ++ 0x7c :: (ascii (toString size) ++ 0x7c :: (sha ++ [10])) := by
    simp [stamps]
  rw [scanEntry, whole, path]
  simp only [Option.bind_eq_bind, Option.bind_some, scanBar, tail, scanLong_toString longMtime,
    scanLong_toString longSize, word]
  rfl

/-- The line of a longer path is not read, and neither is what `fgets` leaves of it for the next time. -/
theorem scanEntry_long {line : List UInt8} (inLine : InLine src) (long : 255 < src.length) (hash : IsHash sha)
    (part : line <+: src ++ 0x7c :: (stamps mtime size sha ++ [10]) ∧ 255 < line.length ∨
      line = (src ++ 0x7c :: (stamps mtime size sha ++ [10])).drop 511) : scanEntry line = none := by
  refine Option.eq_none_iff_forall_ne_some.mpr fun e scanned => ?_
  obtain ⟨⟨rest, first⟩, bars⟩ := scanEntry_some scanned
  obtain ⟨text, nonempty, few, -⟩ := scanPath_some first
  rcases part with ⟨front, more⟩ | rfl
  · -- Behind as many bytes as the buffer takes there is still the path, and no bar.
    obtain ⟨tail, nul⟩ := List.takeWhile_prefix (l := line) (· ≠ 0)
    rw [text] at nul
    obtain ⟨rest', all⟩ := front
    have bar : (src ++ 0x7c :: (stamps mtime size sha ++ [10]))[e.path.length]? = some 0x7c := by
      rw [← all, ← nul]
      simp
    rw [List.getElem?_append_left (by omega)] at bar
    exact (inLine.plain 0x7c (List.mem_of_getElem? bar)).2.2 rfl
  · -- Two bars are left, or three and nothing in front of the first.
    have two : (stamps mtime size sha ++ [10]).count 0x7c = 2 := by
      rw [List.count_append, count_stamps hash]
      rfl
    by_cases full : src.length = 511
    · rw [← full, List.drop_left, List.takeWhile_cons_of_pos (by decide)] at text
      obtain ⟨c, path, same⟩ := List.exists_cons_of_ne_nil nonempty
      rw [same] at text
      have noBar := (scanPath_some first).2.2.2 c (same ▸ List.mem_cons_self)
      exact noBar (List.head_eq_of_cons_eq text).symm
    · have few := inLine.few
      have behind : (src ++ 0x7c :: (stamps mtime size sha ++ [10])).drop 511 <:+ stamps mtime size sha ++ [10] := by
        rw [List.drop_append, List.drop_eq_nil_of_le few, List.nil_append]
        obtain ⟨k, more⟩ : ∃ k, 511 - src.length = k + 1 := ⟨510 - src.length, by omega⟩
        rw [more, List.drop_succ_cons]
        exact List.drop_suffix ..
      have less := behind.sublist.count_le 0x7c
      omega

/-- A line that is longer than the buffer comes in two pieces. -/
theorem lines_of_body {body : List UInt8} (plain : ∀ c ∈ body, c ≠ 0 ∧ c ≠ 10) (few : body.length ≤ 1021) :
    ∃ lines : List (List UInt8), body ++ [10] = lines.flatten ∧ (∀ line ∈ lines, Whole line ∧ 0 ∉ line) ∧
      (body.length ≤ 510 ∧ lines = [body ++ [10]] ∨
        510 < body.length ∧ lines = [body.take 511, body.drop 511 ++ [10]]) := by
  have noNul : 0 ∉ body ++ [10] := by
    rw [List.mem_append, List.mem_singleton, not_or]
    exact ⟨fun member => (plain 0 member).1 rfl, by decide⟩
  have noNewline : 10 ∉ body := fun member => (plain 10 member).2 rfl
  by_cases one : body.length ≤ 510
  · refine ⟨[body ++ [10]], List.flatten_singleton.symm, fun line member => ?_, .inl ⟨one, rfl⟩⟩
    rw [List.mem_singleton.mp member]
    exact ⟨⟨body, 10, rfl, noNewline, .inl ⟨rfl, one⟩⟩, noNul⟩
  · have last : body.take 511 = body.take 510 ++ [body[510]] := (List.take_append_getElem (by omega)).symm
    refine ⟨[body.take 511, body.drop 511 ++ [10]], ?_, fun line member => ?_, .inr ⟨Nat.not_le.mp one, rfl⟩⟩
    · rw [List.flatten_cons, List.flatten_singleton, ← List.append_assoc, List.take_append_drop]
    · rcases List.mem_cons.mp member with rfl | member
      · refine ⟨⟨body.take 510, body[510], last, fun inBody => noNewline (List.mem_of_mem_take inBody), .inr ?_⟩,
          fun inBody => noNul (List.mem_append_left _ (List.mem_of_mem_take inBody))⟩
        rw [List.length_take]
        omega
      · rw [List.mem_singleton.mp member]
        refine ⟨⟨body.drop 511, 10, rfl, fun inBody => noNewline (List.mem_of_mem_drop inBody), .inl ⟨rfl, ?_⟩⟩,
          fun inLast => ?_⟩
        · rw [List.length_drop]
          omega
        · rcases List.mem_append.mp inLast with inBody | newline
          · exact noNul (List.mem_append_left _ (List.mem_of_mem_drop inBody))
          · exact absurd (List.mem_singleton.mp newline) (by decide)

/-- What is printed for a path comes as one line, or as two that are not read. -/
theorem saved_lines (inLine : InLine src) (longMtime : IsLong mtime) (longSize : IsLong size) (hash : IsHash sha) :
    ∃ lines : List (List UInt8), src ++ 0x7c :: (stamps mtime size sha ++ [10]) = lines.flatten ∧
      (∀ line ∈ lines, Whole line ∧ 0 ∉ line) ∧
      (src.length ≤ 255 ∧ lines = [src ++ 0x7c :: (stamps mtime size sha ++ [10])] ∨
        255 < src.length ∧ ∀ line ∈ lines, scanEntry line = none) := by
  have few := inLine.few
  have less := length_stamps hash longMtime longSize
  generalize printed : src ++ 0x7c :: stamps mtime size sha = body
  have text : src ++ 0x7c :: (stamps mtime size sha ++ [10]) = body ++ [10] := by rw [← printed]; simp
  have length : body.length = src.length + (stamps mtime size sha).length + 1 := by
    rw [← printed, List.length_append, List.length_cons]
    omega
  have plain : ∀ c ∈ body, c ≠ 0 ∧ c ≠ 10 := by
    intro c member
    rw [← printed, List.mem_append, List.mem_cons] at member
    rcases member with inSrc | rfl | inStamps
    · exact ⟨(inLine.plain c inSrc).1, (inLine.plain c inSrc).2.1⟩
    · decide
    · exact mem_stamps hash inStamps
  have unread {line : List UInt8} (long : 255 < src.length)
      (part : line <+: body ++ [10] ∧ 255 < line.length ∨ line = (body ++ [10]).drop 511) : scanEntry line = none :=
    scanEntry_long inLine long hash (text ▸ part)
  obtain ⟨lines, same, whole, ⟨one, rfl⟩ | ⟨more, rfl⟩⟩ := lines_of_body plain (by omega)
  · refine ⟨[body ++ [10]], text.trans same, whole, ?_⟩
    rw [text]
    by_cases short : src.length ≤ 255
    · exact .inl ⟨short, rfl⟩
    · refine .inr ⟨Nat.not_le.mp short, fun line member => ?_⟩
      rw [List.mem_singleton.mp member]
      refine unread (Nat.not_le.mp short) (.inl ⟨List.prefix_refl _, ?_⟩)
      rw [List.length_append]
      omega
  · have long : 255 < src.length := by omega
    refine ⟨_, text.trans same, whole, .inr ⟨long, fun line member => unread long ?_⟩⟩
    rcases List.mem_cons.mp member with rfl | member
    · refine .inl ⟨(List.take_prefix 511 body).trans (List.prefix_append body [10]), ?_⟩
      rw [List.length_take]
      omega
    · rw [List.mem_singleton.mp member]
      exact .inr (List.drop_append_of_le_length (by omega)).symm

end Saved

/-! The file. -/

section StateFile
variable {src other : List UInt8} {lines : List (List UInt8)}

/-- The record of a path in the lines of the state file. -/
def find (src : List UInt8) (line : List UInt8) : Option PackerEntry := (scanEntry line).filter fun e => e.path = src

theorem find_eq_some_iff {line : List UInt8} {e : PackerEntry} :
    find src line = some e ↔ scanEntry line = some e ∧ e.path = src := by
  rw [find, Option.filter_eq_some_iff, decide_eq_true_eq]

theorem stateLoad_flatten (whole : ∀ line ∈ lines, Whole line) :
    stateLoad (some lines.flatten) src = lines.findSome? (find src) := by
  show (fgetsLines [] lines.flatten).findSome? (find src) = _
  rw [fgetsLines_flatten whole]

theorem stateLoad_long {state : Option (List UInt8)} (long : 255 < src.length) : stateLoad state src = none := by
  cases state with
  | none => rfl
  | some bytes =>
    refine List.findSome?_eq_none_iff.mpr fun line _ => Option.eq_none_iff_forall_ne_some.mpr fun e found => ?_
    obtain ⟨scanned, same⟩ := find_eq_some_iff.mp found
    have few := scanEntry_path scanned
    rw [same] at few
    omega

/-- The lines that `state_save` writes again. -/
def keeps (src line : List UInt8) : Bool :=
  match scanPath (line.takeWhile (· ≠ 0)) with
  | some (path, _) => path ≠ src
  | none => false

/-- They are those of the other paths. -/
theorem findSome?_keeps : (lines.filter (keeps src)).findSome? (find other) =
    if other = src then none else lines.findSome? (find other) := by
  have kept {line : List UInt8} {e : PackerEntry} (scanned : scanEntry line = some e) :
      keeps src line = decide (e.path ≠ src) := by
    obtain ⟨⟨rest, first⟩, -⟩ := scanEntry_some scanned
    rw [keeps, first]
  induction lines with
  | nil => rw [List.filter_nil, List.findSome?_nil, ite_self]
  | cons line lines ih =>
    cases found : find other line with
    | none =>
      rw [List.findSome?_cons, found, List.filter_cons]
      split
      · rw [List.findSome?_cons, found]
        exact ih
      · exact ih
    | some e =>
      obtain ⟨scanned, path⟩ := find_eq_some_iff.mp found
      rw [List.findSome?_cons, found, List.filter_cons, kept scanned, path]
      by_cases same : other = src
      · rw [if_neg (by simpa using same), if_pos same, ih, if_pos same]
      · rw [if_pos (by simpa using same), List.findSome?_cons, found, if_neg same]

variable {state : Option (List UInt8)} {mtime size : Int} {sha : List UInt8}

/-- After `state_save` a path that fits has the record that was saved, and the other paths have theirs. -/
theorem stateLoad_stateSave (readable : Readable (state.getD [])) (inLine : InLine src) (longMtime : IsLong mtime)
    (longSize : IsLong size) (hash : IsHash sha) (other : List UInt8) :
    Readable (stateSave state src mtime size sha) ∧ stateLoad (some (stateSave state src mtime size sha)) other =
      if other = src ∧ src.length ≤ 255 then some ⟨src, mtime, size, sha⟩ else stateLoad state other := by
  obtain ⟨lines, bytes, whole⟩ := readable
  obtain ⟨added, text, whole', reads⟩ := saved_lines inLine longMtime longSize hash
  have lines' : fgetsLines [] (state.getD []) = lines := by
    rw [bytes, fgetsLines_flatten fun line member => (whole line member).1]
  have before : stateLoad state other = lines.findSome? (find other) := by
    cases state with
    | none =>
      rw [← lines']
      rfl
    | some bytes' => exact congrArg (List.findSome? (find other)) lines'
  have plain : (lines.filter (keeps src)).flatMap (fun line => line.takeWhile (· ≠ 0)) =
      (lines.filter (keeps src)).flatten := by
    rw [List.flatMap_def, List.map_congr_left (g := id), List.map_id]
    exact fun line member => takeWhile_nonNul (whole line (List.mem_of_mem_filter member)).2
  have tail : src ++ 0x7c :: (ascii (toString mtime) ++ 0x7c :: (ascii (toString size) ++ 0x7c :: (sha ++ [10]))) =
      src ++ 0x7c :: (stamps mtime size sha ++ [10]) := by
    simp [stamps]
  have saved : stateSave state src mtime size sha = (lines.filter (keeps src) ++ added).flatten := by
    rw [List.flatten_append, ← text, ← plain, ← lines', ← tail]
    rfl
  have all : ∀ line ∈ lines.filter (keeps src) ++ added, Whole line ∧ 0 ∉ line := by
    intro line member
    rcases List.mem_append.mp member with old | new
    · exact whole line (List.mem_of_mem_filter old)
    · exact whole' line new
  refine ⟨⟨_, saved, all⟩, ?_⟩
  rw [saved, stateLoad_flatten fun line member => (all line member).1, List.findSome?_append, findSome?_keeps, ← before]
  rcases reads with ⟨short, rfl⟩ | ⟨long, none⟩
  · rw [List.findSome?_singleton, find, scanEntry_saved inLine short longMtime longSize hash, Option.filter_some]
    by_cases same : other = src
    · simp [same, short]
    · simp [same, Ne.symm same]
  · have nothing : added.findSome? (find other) = Option.none :=
      List.findSome?_eq_none_iff.mpr fun line member => by rw [find, none line member, Option.filter_none]
    have unread : ¬(other = src ∧ src.length ≤ 255) := fun both => absurd both.2 (Nat.not_le.mpr long)
    rw [nothing, Option.or_none, if_neg unread]
    by_cases same : other = src
    · rw [if_pos same, same, stateLoad_long long]
    · rw [if_neg same]

end StateFile

end StubPacker
end Blyt
