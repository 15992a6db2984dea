import Blyt.DapJson
import Blyt.Lib.JsonSyntax

namespace Blyt
open JsonSyntax

/-- The message is the text of a JSON object, the member stands in it at the path, and the
quoted key occurs in the text first as the member's own name. -/
def OwnMember (msg : List UInt8) (path : List (List UInt8)) (key : List UInt8) (m : Member) : Prop :=
  ∃ (lead space : List Space) (members : Members) (pre post : List UInt8) (trail : List Space),
    msg = blank lead ++ (Value.object space members).render ++ blank trail ∧ MemberAt [] members path pre m post ∧
      renderString m.name = 34 :: (key ++ [34]) ∧
        ∀ k < (blank lead ++ 123 :: (blank space ++ pre)).length, ¬34 :: (key ++ [34]) <+: msg.drop k

/-- The member is a string that needs no escapes but of quotes and slashes, stands behind the
colon with blanks and tabs only, and fits a buffer. -/
structure PlainString (m : Member) (s : List Piece) (size : Nat) : Prop where
  string : m.value = .string s
  simple : ∀ p ∈ s, Simple p
  lead : ∀ c ∈ m.lead, c = .space ∨ c = .tab
  fits : (decode s).length < size

theorem blank_noColon (spaces : List Space) : (58 : UInt8) ∉ blank spaces := by
  intro member
  obtain ⟨c, -, byte⟩ := List.mem_map.mp member
  cases c <;> cases byte

theorem OwnMember.findValue {msg key : List UInt8} {path : List (List UInt8)} {m : Member}
    (own : OwnMember msg path key m) (short : key.length ≤ 61) (noColon : 58 ∉ key) :
    ∃ c behind, (c = 44 ∨ c = 125) ∧
      findValue msg key = some (skipBlanks (blank m.lead ++ (m.value.render ++ (blank m.after ++ c :: behind)))) := by
  obtain ⟨lead, space, members, pre, post, trail, rfl, at_, name, first⟩ := own
  obtain ⟨c, behind, next, ends⟩ := at_.behind (blank trail)
  have quoted : quotedKey key = 34 :: (key ++ [34]) := List.take_of_length_le (by simp; omega)
  have text : blank lead ++ (Value.object space members).render ++ blank trail =
      (blank lead ++ 123 :: (blank space ++ pre)) ++ ((34 :: (key ++ [34])) ++
        (blank m.mid ++ 58 :: (blank m.lead ++ (m.value.render ++ (blank m.after ++ c :: behind))))) := by
    rw [Value.render, at_.text, Member.render, name, ← next]
    simp only [List.append_assoc, List.cons_append, List.nil_append]
  have front : (58 : UInt8) ∉ 34 :: (key ++ [34]) ++ blank m.mid := by
    simp only [List.cons_append, List.append_assoc, List.mem_cons, List.mem_append, List.not_mem_nil]
    rintro (quote | inKey | quote | none | inBlank)
    · cases quote
    · exact noColon inKey
    · cases quote
    · exact none
    · exact blank_noColon _ inBlank
  rw [text] at first ⊢
  refine ⟨c, behind, ends, ?_⟩
  rw [Blyt.findValue, quoted, strstr_append first]
  show (strchr 58 _).bind _ = _
  rw [← List.append_assoc, strchr_append front]
  rfl

theorem skipBlanks_append {spaces : List Space} (blanks : ∀ c ∈ spaces, c = .space ∨ c = .tab) {c : UInt8}
    (other : (c == 32 || c == 9) = false) (p : List UInt8) : skipBlanks (blank spaces ++ c :: p) = c :: p := by
  have skipped : ∀ b ∈ blank spaces, (b == 32 || b == 9) = true := by
    intro b member
    obtain ⟨s, known, rfl⟩ := List.mem_map.mp member
    rcases blanks s known with rfl | rfl
    · rfl
    · rfl
  rw [skipBlanks, List.dropWhile_append_of_pos skipped, List.dropWhile_cons, other]
  rfl

/-- `atoi` passes over the white space that `json_get_int` leaves. -/
theorem dropSpaces_append (spaces : List Space) {c : UInt8} (other : isSpace c = false) (p : List UInt8) :
    (skipBlanks (blank spaces ++ c :: p)).dropWhile isSpace = c :: p := by
  have done : (c :: p).dropWhile isSpace = c :: p := by
    rw [List.dropWhile_cons, other]
    rfl
  induction spaces with
  | nil =>
    show (skipBlanks (c :: p)).dropWhile isSpace = c :: p
    rw [skipBlanks, List.dropWhile_cons]
    split
    · rename_i blank
      rw [isSpace, Bool.or_eq_false_iff] at other
      rw [other.1, Bool.false_or, beq_iff_eq] at blank
      subst blank
      cases other.2
    · exact done
  | cons s spaces ih =>
    have all : ∀ b ∈ blank (s :: spaces), isSpace b = true := by
      intro b member
      obtain ⟨s, -, rfl⟩ := List.mem_map.mp member
      cases s <;> rfl
    show (List.dropWhile _ (s.byte :: (blank spaces ++ c :: p))).dropWhile isSpace = c :: p
    rw [List.dropWhile_cons]
    split
    · exact ih
    · have dropped : (blank (s :: spaces) ++ c :: p).dropWhile isSpace = (c :: p).dropWhile isSpace :=
        List.dropWhile_append_of_pos all
      exact dropped.trans done

theorem copyString_pieces {s : List Piece} (simple : ∀ p ∈ s, Simple p) {room : Nat}
    (fits : (decode s).length ≤ room) (rest : List UInt8) :
    copyString room (s.flatMap Piece.render ++ 34 :: rest) = decode s := by
  induction s generalizing room with
  | nil =>
    cases room with
    | zero => rfl
    | succ room => rfl
  | cons p s ih =>
    have others : ∀ p ∈ s, Simple p := fun p member => simple p (List.mem_cons_of_mem _ member)
    have front := simple p List.mem_cons_self
    cases p with
    | unicode a b c d => exact front.elim
    | raw b =>
      have value : decode (.raw b :: s) = b.val :: decode s := rfl
      obtain ⟨-, noQuote, noSlash⟩ := b.property
      rw [value, List.length_cons] at fits
      rw [value]
      cases room with
      | zero => omega
      | succ room =>
        have tail := ih others (Nat.le_of_succ_le_succ fits)
        show copyString (room + 1) (b.val :: (s.flatMap Piece.render ++ 34 :: rest)) = b.val :: decode s
        cases text : s.flatMap Piece.render ++ 34 :: rest with
        | nil => simp at text
        | cons e more =>
          rw [text] at tail
          rw [copyString, if_neg noQuote, ← tail]
          exact if_neg noSlash
    | escape e =>
      have same : e.letter = e.byte := by
        rcases front with rfl | rfl | rfl
        · rfl
        · rfl
        · rfl
      have value : decode (.escape e :: s) = e.byte :: decode s := rfl
      rw [value, List.length_cons] at fits
      rw [value]
      cases room with
      | zero => omega
      | succ room =>
        have tail := ih others (Nat.le_of_succ_le_succ fits)
        show copyString (room + 1) (92 :: e.letter :: (s.flatMap Piece.render ++ 34 :: rest)) = e.byte :: decode s
        rw [copyString, if_neg (by decide), ← tail, same]
        exact if_pos rfl

/-- A string argument that is its own member is read as its value. -/
theorem jsonGetString_own {msg key : List UInt8} {path : List (List UInt8)} {m : Member} {s : List Piece} {n : Nat}
    (own : OwnMember msg path key m) (short : key.length ≤ 61) (noColon : 58 ∉ key) (plain : PlainString m s n) :
    jsonGetString msg key n = some (decode s) := by
  obtain ⟨c, behind, -, found⟩ := own.findValue short noColon
  have fits : (decode s).length ≤ n - 1 := Nat.le_sub_one_of_lt plain.fits
  rw [jsonGetString, found, plain.string, Value.render, renderString, List.cons_append,
    skipBlanks_append plain.lead rfl]
  show some (copyString (n - 1) _) = _
  rw [List.append_assoc, List.singleton_append, copyString_pieces plain.simple fits]

theorem digit_bounds (d : Fin 10) : 48 ≤ digit d ∧ digit d ≤ 57 ∧ (digit d).toNat - 48 = d.val := by
  revert d
  decide

theorem readDigits_append (v : Nat) (digits : List (Fin 10)) {c : UInt8} (stop : ¬(48 ≤ c ∧ c ≤ 57)) (more : List UInt8) :
    readDigits v (digits.map digit ++ c :: more) = digitsValue v digits := by
  induction digits generalizing v with
  | nil =>
    rw [List.map_nil, List.nil_append, readDigits, if_neg stop]
    rfl
  | cons d digits ih =>
    obtain ⟨low, high, value⟩ := digit_bounds d
    rw [List.map_cons, List.cons_append, readDigits, if_pos ⟨low, high⟩, value, ih]
    rfl

theorem blank_stops (spaces : List Space) {c : UInt8} (ends : c = 44 ∨ c = 125) (behind : List UInt8) :
    ∃ d more, blank spaces ++ c :: behind = d :: more ∧ ¬(48 ≤ d ∧ d ≤ 57) := by
  cases spaces with
  | nil =>
    refine ⟨c, behind, rfl, ?_⟩
    rcases ends with rfl | rfl
    · decide
    · decide
  | cons s spaces =>
    refine ⟨s.byte, blank spaces ++ c :: behind, rfl, ?_⟩
    cases s <;> decide

theorem atoi_number {x : Number} {n : Int} (integer : x.integer = some n) (spaces : List Space) {c : UInt8}
    (stop : ¬(48 ≤ c ∧ c ≤ 57)) (more : List UInt8) :
    atoi (skipBlanks (blank spaces ++ (x.render ++ c :: more))) = inInt n := by
  obtain ⟨negative, whole, plain, fraction, exponent⟩ := x
  rw [Number.integer] at integer
  split at integer
  swap
  · cases integer
  rename_i none
  obtain ⟨noFraction, noExponent⟩ := none
  obtain rfl := Option.isNone_iff_eq_none.mp noFraction
  obtain rfl := Option.isNone_iff_eq_none.mp noExponent
  cases integer
  have read := readDigits_append 0 (whole.first :: whole.rest) stop more
  obtain ⟨low, high, -⟩ := digit_bounds whole.first
  cases negative with
  | true =>
    have text : (Number.mk true whole plain none none).render ++ c :: more =
        45 :: ((whole.first :: whole.rest).map digit ++ c :: more) := by
      simp [Number.render, Digits.render]
    rw [text, atoi, dropSpaces_append spaces rfl]
    show inInt (-(readDigits 0 ((whole.first :: whole.rest).map digit ++ c :: more) : Int)) = _
    rw [read]
    rfl
  | false =>
    have text : (Number.mk false whole plain none none).render ++ c :: more =
        digit whole.first :: (whole.rest.map digit ++ c :: more) := by
      simp [Number.render, Digits.render]
    have noSpace : isSpace (digit whole.first) = false := by
      generalize whole.first = d
      revert d
      decide
    rw [text, atoi, dropSpaces_append spaces noSpace]
    split
    · rename_i minus
      have same := (List.cons.inj minus).1
      rw [same] at low
      exact absurd low (by decide)
    · rename_i plus
      have same := (List.cons.inj plus).1
      rw [same] at low
      exact absurd low (by decide)
    · rw [← List.cons_append, ← List.map_cons, read]
      rfl

/-- An integer that is its own member is read as its value. -/
theorem jsonGetInt_own {msg key : List UInt8} {path : List (List UInt8)} {m : Member} {x : Number} {n : Int}
    (own : OwnMember msg path key m) (short : key.length ≤ 61) (noColon : 58 ∉ key) (number : m.value = .number x)
    (integer : x.integer = some n) (range : -2 ^ 31 ≤ n ∧ n < 2 ^ 31) (default : Int) :
    jsonGetInt msg key default = .returns n := by
  obtain ⟨c, behind, ends, found⟩ := own.findValue short noColon
  obtain ⟨d, more, text, stop⟩ := blank_stops m.after ends behind
  rw [jsonGetInt, found, text, number, Value.render]
  show atoi _ = _
  rw [atoi_number integer m.lead stop more, inInt, if_pos range]

/-- Of a request in whose text each searched key is met first as its own member's name, the
command and the `seq` are those of the object, and the string arguments are their values. -/
theorem dispatch_own {msg : List UInt8} {c q : Member} {s : List Piece} {x : Number} {n : Int}
    (command : OwnMember msg [ascii "command"] (ascii "command") c) (text : PlainString c s 64)
    (seq : OwnMember msg [ascii "seq"] (ascii "seq") q) (number : q.value = .number x) (integer : x.integer = some n)
    (range : -2 ^ 31 ≤ n ∧ n < 2 ^ 31) :
    dispatch msg = .returns (some (dapHandler (decode s), n)) ∧
      ∀ key size, (key, size) ∈ stringArguments → ∀ path m s, OwnMember msg path key m → PlainString m s size →
        jsonGetString msg key size = some (decode s) := by
  constructor
  · rw [dispatch, jsonGetInt_own seq (by decide) (by decide) number integer range,
      jsonGetString_own command (by decide) (by decide) text]
    rfl
  · intro key size member path m s own plain
    simp only [stringArguments, List.mem_cons, List.not_mem_nil, or_false, Prod.mk.injEq] at member
    rcases member with ⟨rfl, rfl⟩ | ⟨rfl, rfl⟩ | ⟨rfl, rfl⟩
    · exact jsonGetString_own own (by decide) (by decide) plain
    · exact jsonGetString_own own (by decide) (by decide) plain
    · exact jsonGetString_own own (by decide) (by decide) plain

def spelled (text : List UInt8) : List Piece :=
  text.filterMap fun b => if plain : 32 ≤ b ∧ b ≠ 34 ∧ b ≠ 92 then some (.raw ⟨b, plain⟩) else none

def dense (name : String) (value : Value) (rest : Members) : Members :=
  .cons [] (spelled (ascii name)) [] [] value [] rest

def numberOne : Number := ⟨false, ⟨1, []⟩, by decide, none, none⟩

/-- `{"line":3}`. -/
def lineThree : Value := .object [] (dense "line" (.number ⟨false, ⟨3, []⟩, by decide, none, none⟩) .nil)

/-- `{"source":{"path":"/cart/main.lua"},"breakpoints":[{"line":3}]}`. -/
def breakpointArguments : Members :=
  dense "source" (.object [] (dense "path" (.string (spelled (ascii "/cart/main.lua"))) .nil))
    (dense "breakpoints" (.array [] (.cons [] lineThree [] .nil)) .nil)

/-- `{"command":"setBreakpoints","seq":1,"arguments":…}`. -/
def breakpointsRequest : Members :=
  dense "command" (.string (spelled (ascii "setBreakpoints")))
    (dense "seq" (.number numberOne) (dense "arguments" (.object [] breakpointArguments) .nil))

theorem spelled_simple {text : List UInt8} : ∀ p ∈ spelled text, Simple p := by
  intro p member
  obtain ⟨b, -, piece⟩ := List.mem_filterMap.mp member
  split at piece
  · cases piece
    trivial
  · cases piece

theorem dispatch_own_breakpoints :
    let msg := (Value.object [] breakpointsRequest).render
    dispatch msg = .returns (some (.handleSetBreakpoints, 1)) ∧
      jsonGetString msg (ascii "path") maxSourcePath = some (ascii "/cart/main.lua") := by
  intro msg
  have command : OwnMember msg [ascii "command"] (ascii "command")
      ⟨spelled (ascii "command"), [], [], .string (spelled (ascii "setBreakpoints")), []⟩ :=
    ⟨[], [], breakpointsRequest, _, _, [], (List.append_nil _).symm, .here, by decide, by decide⟩
  have seq : OwnMember msg [ascii "seq"] (ascii "seq") ⟨spelled (ascii "seq"), [], [], .number numberOne, []⟩ :=
    ⟨[], [], breakpointsRequest, _, _, [], (List.append_nil _).symm, .later .here, by decide, by decide +kernel⟩
  have path : OwnMember msg [ascii "arguments", ascii "source", ascii "path"] (ascii "path")
      ⟨spelled (ascii "path"), [], [], .string (spelled (ascii "/cart/main.lua")), []⟩ :=
    ⟨[], [], breakpointsRequest, _, _, [], (List.append_nil _).symm, .later (.later (.inside (.inside .here))), by decide,
      by decide +kernel⟩
  obtain ⟨handled, strings⟩ := dispatch_own command ⟨rfl, spelled_simple, nofun, by decide⟩ seq rfl rfl (by decide)
  exact ⟨handled, strings _ _ (by decide) _ _ _ path ⟨rfl, spelled_simple, nofun, by decide⟩⟩

/-- `{"arguments":{"command":"next"},"command":"continue","seq":1}`. -/
def nestedRequest : Members :=
  dense "arguments" (.object [] (dense "command" (.string (spelled (ascii "next"))) .nil))
    (dense "command" (.string (spelled (ascii "continue"))) (dense "seq" (.number numberOne) .nil))

/-- A member of the arguments that is called `command` and stands before the command is taken
for it. -/
theorem dispatch_nested_command :
    ¬∀ (space : List Space) (members : Members) (pre post pre' post' : List UInt8) (c q : Member) (s : List Piece)
      (x : Number) (n : Int), MemberAt [] members [ascii "command"] pre c post → c.value = .string s →
        MemberAt [] members [ascii "seq"] pre' q post' → q.value = .number x → x.integer = some n →
          dispatch (Value.object space members).render = .returns (some (dapHandler (decode s), n)) := by
  intro acts
  have continued := acts [] nestedRequest _ _ _ _ _ _ _ numberOne 1 (.later .here) rfl (.later (.later .here)) rfl rfl
  have stepped : dispatch (Value.object [] nestedRequest).render = .returns (some (.handleStep .over, 1)) := by decide +kernel
  rw [stepped] at continued
  exact absurd continued (by decide)

end Blyt
