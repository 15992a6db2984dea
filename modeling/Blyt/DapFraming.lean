import Blyt.DapOutput
import Blyt.HotReloadPayload
import Blyt.Decimal
import Blyt.Lib.Window

namespace Blyt
namespace DapFraming
open Window

/-! The messages on the wire. -/

/-- What `send_msg` sends of a body. -/
def framed (body : List UInt8) : List UInt8 :=
  ascii "Content-Length: " ++ decimal body.length ++ [13, 10, 13, 10] ++ body

theorem text_eq_framed (m : Numbered) : m.text = framed m.json := rfl

/-- A connection: the bytes that are still to come and, for each call of `recv`, how many are there by then. -/
structure Socket where
  stream : List UInt8
  arrived : Nat → Nat

/-- `recv` of at most so many bytes. It waits for the first; without any, the client has closed the connection. -/
def Socket.recv (s : Socket) (n : Nat) : List UInt8 × Socket :=
  (s.stream.take (min n (max 1 (s.arrived 0))),
    ⟨s.stream.drop (min n (max 1 (s.arrived 0))), fun call => s.arrived (call + 1)⟩)

/-- The loop over the header, with `hi` bytes read and so many more to read at most. -/
def readHeader : Nat → Socket → List UInt8 → Nat → Exec (Option (Nat × Socket × List UInt8))
  | 0, s, buf, hi => .returns (some (hi, s, buf))
  | room + 1, s, buf, hi =>
    if (s.recv 1).1 = [] then .returns none
    else do
      let buf ← writeAt buf hi (s.recv 1).1
      if 4 ≤ hi + 1 ∧ (buf.drop (hi + 1 - 4)).take 4 = [13, 10, 13, 10] then
        return some (hi + 1, (s.recv 1).2, buf)
      else readHeader room (s.recv 1).2 buf (hi + 1)

/-- The loop over the body. -/
def readBody (len got : Nat) (s : Socket) (buf : List UInt8) : Exec (Option (Socket × List UInt8)) :=
  if got < len then
    if (s.recv (len - got)).1 = [] then .returns none
    else do
      let buf ← writeAt buf got (s.recv (len - got)).1
      readBody len (got + (s.recv (len - got)).1.length) (s.recv (len - got)).2 buf
  else .returns (some (s, buf))
  termination_by len - got
  decreasing_by
    have some := List.length_pos_of_ne_nil ‹¬(s.recv (len - got)).1 = []›
    omega

/-- `read_msg`; `none` is its `-1`. -/
def readMsg (s : Socket) (buf : List UInt8) : Exec (Option (Nat × Socket × List UInt8)) := do
  match ← readHeader (buf.length - 3) s buf 0 with
  | none => return none
  | some (hi, s, buf) =>
    let buf ← writeAt buf hi [0]
    match strstr (ascii "Content-Length:") (buf.takeWhile (· ≠ 0)) with
    | none => return none
    | some cl =>
      let len ← atoi (cl.drop 15)
      if len < 0 ∨ (buf.length : Int) < len + 1 then return none
      else
        match ← readBody len.toNat 0 s buf with
        | none => return none
        | some (s, buf) => return some (len.toNat, s, ← writeAt buf len.toNat [0])

/-- The loop of `dap_thread_main` over a connection, while the server runs: what `dispatch` is called with. -/
def serve : Nat → Socket → List UInt8 → Exec (List (List UInt8))
  | 0, _, _ => .spins
  | turns + 1, s, buf => do
    match ← readMsg s buf with
    | none => return []
    | some (n, s, buf) => if n = 0 then return [] else return buf.takeWhile (· ≠ 0) :: (← serve turns s buf)

/-! The header. -/

theorem readDigits_decimalTmp {fuel v : Nat} (small : v < 10 ^ fuel) (more : List UInt8) :
    readDigits 0 ((decimalTmp fuel v).reverse ++ more) = readDigits v more := by
  induction fuel generalizing v more with
  | zero =>
    rw [Nat.lt_one_iff.mp small]
    rfl
  | succ fuel ih =>
    rw [decimalTmp]
    split
    · rename_i zero
      rw [zero]
      rfl
    · have digit := digit_toNat v
      have low : (48 : UInt8) ≤ UInt8.ofNat (48 + v % 10) := by
        rw [UInt8.le_iff_toNat_le, digit]
        exact Nat.le_add_right 48 _
      have high : UInt8.ofNat (48 + v % 10) ≤ (57 : UInt8) := by
        rw [UInt8.le_iff_toNat_le, digit]
        show 48 + v % 10 ≤ 57
        omega
      rw [List.reverse_cons, List.append_assoc, List.singleton_append, ih (next_small small), readDigits, if_pos ⟨low, high⟩, digit,
        Nat.add_sub_cancel_left, Nat.div_add_mod']

theorem readDigits_decimal {n : Nat} (small : n < 2 ^ 31) (more : List UInt8) :
    readDigits 0 (decimal n ++ 13 :: more) = n := by
  rw [decimal]
  split
  · rename_i zero
    rw [zero]
    rfl
  · have bound : (2 : Nat) ^ 31 < 10 ^ 24 := by decide
    rw [readDigits_decimalTmp (Nat.lt_trans small bound), readDigits, if_neg (by decide)]

theorem atoi_decimal {n : Nat} (small : n < 2 ^ 31) (more : List UInt8) :
    atoi (32 :: (decimal n ++ 13 :: more)) = .returns n := by
  have value := readDigits_decimal small more
  have digits := decimal_digits (v := n)
  have some := (decimal_length n).1
  generalize decimal n = text at value digits some ⊢
  cases text with
  | nil => exact absurd some (Nat.lt_irrefl 0)
  | cons d text =>
    obtain ⟨low, high⟩ := digits d List.mem_cons_self
    have noSpace : isSpace d = false := by
      have above : ¬d ≤ 13 := fun le => absurd (UInt8.le_trans low le) (by decide)
      have other : d ≠ 32 := fun same => absurd (same ▸ low) (by decide)
      rw [isSpace, beq_eq_false_iff_ne.mpr other, decide_eq_false above, Bool.and_false]
      rfl
    have dropped : (32 :: (d :: text ++ 13 :: more)).dropWhile isSpace = d :: (text ++ 13 :: more) := by
      rw [List.dropWhile_cons_of_pos rfl, List.cons_append, List.dropWhile_cons, noSpace]
      rfl
    rw [atoi, dropped]
    split
    · rename_i minus
      rw [(List.cons.inj minus).1] at low
      exact absurd low (by decide)
    · rename_i plus
      rw [(List.cons.inj plus).1] at low
      exact absurd low (by decide)
    · rw [← List.cons_append, value, inInt, if_pos]
      exact ⟨by omega, by omega⟩

/-- The text of a header. -/
def header (n : Nat) : List UInt8 := ascii "Content-Length: " ++ decimal n ++ [13, 10, 13, 10]

theorem header_noNul (n : Nat) : 0 ∉ header n := by
  intro member
  rcases List.mem_append.mp member with front | back
  · rcases List.mem_append.mp front with label | digits
    · exact absurd label (by decide)
    · exact absurd (decimal_digits 0 digits).1 (by decide)
  · exact absurd back (by decide)

/-- The blank line ends the header and no shorter part of it. -/
theorem header_ends {n : Nat} {part : List UInt8} (front : part <+: header n) (ends : [13, 10, 13, 10] <:+ part) :
    part = header n := by
  obtain ⟨before, rfl⟩ := ends
  have noCr : (13 : UInt8) ∉ ascii "Content-Length: " ++ decimal n := by
    intro member
    rcases List.mem_append.mp member with label | digits
    · exact absurd label (by decide)
    · exact absurd (decimal_digits 13 digits).1 (by decide)
  rw [header] at front ⊢
  generalize ascii "Content-Length: " ++ decimal n = text at front noCr ⊢
  have length := front.length_le
  rw [List.length_append, List.length_append] at length
  by_cases short : before.length < text.length
  · obtain ⟨more, same⟩ := front
    have left : (before ++ [13, 10, 13, 10] ++ more)[before.length]? = some 13 := by
      rw [List.append_assoc, List.getElem?_append_right (Nat.le_refl _), Nat.sub_self]
      rfl
    rw [same, List.getElem?_append_left short] at left
    exact absurd (List.mem_of_getElem? left) noCr
  · refine front.eq_of_length ?_
    rw [List.length_append, List.length_append]
    omega

theorem recv_one (c : UInt8) (stream : List UInt8) (arrived : Nat → Nat) :
    (⟨c :: stream, arrived⟩ : Socket).recv 1 = ([c], ⟨stream, fun call => arrived (call + 1)⟩) := by
  have one : min 1 (max 1 (arrived 0)) = 1 := by omega
  rw [Socket.recv, one]
  rfl

/-- The test for the blank line looks at the end of what has been read. -/
theorem window_iff (text tail : List UInt8) :
    4 ≤ text.length ∧ ((text ++ tail).drop (text.length - 4)).take 4 = [13, 10, 13, 10] ↔
      [13, 10, 13, 10] <:+ text := by
  rw [List.suffix_iff_eq_drop]
  constructor
  · rintro ⟨long, same⟩
    rw [List.drop_append_of_le_length (Nat.sub_le _ _), List.take_append_of_le_length] at same
    · rw [List.take_of_length_le (by rw [List.length_drop]; omega)] at same
      exact same.symm
    · rw [List.length_drop]
      omega
  · intro same
    have length := congrArg List.length same
    rw [List.length_drop] at length
    have four : [(13 : UInt8), 10, 13, 10].length = 4 := rfl
    rw [four] at length same
    refine ⟨by omega, ?_⟩
    rw [List.drop_append_of_le_length (Nat.sub_le _ _), ← same]
    rfl

/-- The header loop stops behind the first part of the stream that ends with a blank line. -/
theorem readHeader_spec {done rest : List UInt8} {todo : List UInt8} (some : todo ≠ [])
    (ends : [13, 10, 13, 10] <:+ done ++ todo)
    (first : ∀ part, part <+: done ++ todo → [13, 10, 13, 10] <:+ part → part = done ++ todo) {room : Nat}
    (enough : todo.length ≤ room) {tail : List UInt8} (space : todo.length ≤ tail.length) (arrived : Nat → Nat) :
    ∃ arrived', readHeader room ⟨todo ++ rest, arrived⟩ (done ++ tail) done.length =
      .returns (Option.some ((done ++ todo).length, ⟨rest, arrived'⟩, done ++ todo ++ tail.drop todo.length)) := by
  induction todo generalizing done room tail arrived with
  | nil => exact absurd rfl some
  | cons c todo ih =>
    cases room with
    | zero => exact absurd enough (Nat.not_succ_le_zero _)
    | succ room =>
      rw [List.length_cons] at enough space
      have whole : done ++ c :: todo = done ++ [c] ++ todo := by rw [List.append_assoc, List.singleton_append]
      have length : (done ++ [c]).length = done.length + 1 := by rw [List.length_append, List.length_singleton]
      have window := window_iff (done ++ [c]) (tail.drop 1)
      rw [length] at window
      rw [List.cons_append, readHeader, recv_one, if_neg (List.cons_ne_nil _ _),
        writeAt_behind (by rw [List.length_singleton]; omega), Exec.returns_bind, List.length_singleton]
      by_cases last : todo = []
      · subst last
        refine ⟨fun call => arrived (call + 1), (if_pos (window.mpr ends)).trans ?_⟩
        rw [length]
        rfl
      · have more : ¬[13, 10, 13, 10] <:+ done ++ [c] := by
          intro early
          have same := first (done ++ [c]) (whole ▸ List.prefix_append _ _) early
          rw [whole] at same
          exact last (List.self_eq_append_right.mp same)
        rw [whole] at ends first
        have space' : todo.length ≤ (tail.drop 1).length := by
          rw [List.length_drop]
          omega
        obtain ⟨arrived', read⟩ := ih last ends first (Nat.le_of_succ_le_succ enough) space'
          (fun call => arrived (call + 1))
        refine ⟨arrived', (if_neg fun met => more (window.mp met)).trans ?_⟩
        rw [length, List.drop_drop, Nat.add_comm 1] at read
        rw [whole]
        exact read

/-! The body. -/

/-- The body loop stores what is announced, however it arrives. -/
theorem readBody_spec {done todo rest tail : List UInt8} (space : todo.length ≤ tail.length) (arrived : Nat → Nat) :
    ∃ arrived', readBody (done.length + todo.length) done.length ⟨todo ++ rest, arrived⟩ (done ++ tail) =
      .returns (some (⟨rest, arrived'⟩, done ++ todo ++ tail.drop todo.length)) := by
  induction left : todo.length using Nat.strongRecOn generalizing done todo tail arrived with
  | ind n ih =>
    subst left
    by_cases none : todo = []
    · subst none
      refine ⟨arrived, ?_⟩
      rw [readBody, List.length_nil, Nat.add_zero, if_neg (Nat.lt_irrefl _), List.append_nil]
      rfl
    · have positive : 0 < todo.length := List.length_pos_of_ne_nil none
      have asked : done.length + todo.length - done.length = todo.length := Nat.add_sub_cancel_left _ _
      generalize portion : min todo.length (max 1 (arrived 0)) = k
      have within : 1 ≤ k ∧ k ≤ todo.length := by omega
      have received : (⟨todo ++ rest, arrived⟩ : Socket).recv todo.length =
          (todo.take k, ⟨todo.drop k ++ rest, fun call => arrived (call + 1)⟩) := by
        rw [Socket.recv, portion, List.take_append_of_le_length within.2, List.drop_append_of_le_length within.2]
      have length : (todo.take k).length = k := by
        rw [List.length_take]
        omega
      have some : ¬todo.take k = [] := by
        intro empty
        rw [empty, List.length_nil] at length
        omega
      have shorter : (todo.drop k).length < todo.length := by
        rw [List.length_drop]
        omega
      have space' : (todo.drop k).length ≤ (tail.drop k).length := by
        rw [List.length_drop, List.length_drop]
        omega
      obtain ⟨arrived', read⟩ := @ih _ shorter (done ++ todo.take k) _ _ space' (fun call => arrived (call + 1)) rfl
      refine ⟨arrived', ?_⟩
      rw [readBody, if_pos (Nat.lt_add_of_pos_right positive), asked, received, if_neg some,
        writeAt_behind (by rw [length]; omega), Exec.returns_bind, length]
      have whole : done ++ todo.take k ++ todo.drop k = done ++ todo := by
        rw [List.append_assoc, List.take_append_drop]
      have sum : done.length + k + (todo.drop k).length = done.length + todo.length := by
        rw [List.length_drop]
        omega
      have behind : (tail.drop k).drop (todo.drop k).length = tail.drop todo.length := by
        rw [List.drop_drop, List.length_drop, Nat.add_sub_cancel' within.2]
      rw [List.length_append, length, sum, whole, behind] at read
      exact read

/-! The messages. -/

theorem takeWhile_nul {text : List UInt8} (noNul : 0 ∉ text) (tail : List UInt8) :
    (text ++ [0] ++ tail).takeWhile (· ≠ 0) = text := by
  have nonzero : ∀ c ∈ text, decide (c ≠ 0) = true := by
    rintro c member
    rw [decide_eq_true_iff]
    rintro rfl
    exact noNul member
  rw [List.append_assoc, List.takeWhile_append_of_pos nonzero]
  exact List.append_nil _

/-- A framed body is read whole, up to the next frame. -/
theorem readMsg_framed {body buf : List UInt8} (rest : List UInt8) (noNul : 0 ∉ body) (short : body.length < maxMsg)
    (size : buf.length = maxMsg) (arrived : Nat → Nat) :
    ∃ arrived' buf', readMsg ⟨framed body ++ rest, arrived⟩ buf =
      .returns (some (body.length, ⟨rest, arrived'⟩, buf')) ∧ buf'.length = maxMsg ∧
        buf'.takeWhile (· ≠ 0) = body := by
  have frame : framed body ++ rest = header body.length ++ (body ++ rest) := by
    rw [framed, header, List.append_assoc]
  have number : (header body.length).drop 15 = 32 :: (decimal body.length ++ 13 :: [10, 13, 10]) := by
    rw [header, List.append_assoc]
    rfl
  have headerLength : (header body.length).length ≤ 44 := by
    have digits := (decimal_length body.length).2
    have label : (ascii "Content-Length: ").length = 16 := rfl
    rw [header, List.length_append, List.length_append, label, List.length_cons, List.length_cons, List.length_cons,
      List.length_singleton]
    omega
  have large : 44 < maxMsg - 3 := by decide
  have int : maxMsg ≤ 2 ^ 31 := by decide
  have some : header body.length ≠ [] := List.append_ne_nil_of_right_ne_nil _ (List.cons_ne_nil _ _)
  obtain ⟨arrived₁, headerRead⟩ := @readHeader_spec [] (body ++ rest) _ some (List.suffix_append _ _)
    (fun part front ends => header_ends front ends) (maxMsg - 3) (by omega) buf (by omega) arrived
  rw [List.nil_append, List.nil_append, List.length_nil] at headerRead
  have behind : [(0 : UInt8)].length ≤ (buf.drop (header body.length).length).length := by
    rw [List.length_singleton, List.length_drop]
    omega
  generalize stored : header body.length ++ [0] ++ (buf.drop (header body.length).length).drop 1 = buf₁
  have size₁ : buf₁.length = maxMsg := by
    rw [← stored, List.length_append, List.length_append, List.length_drop, List.length_drop, List.length_singleton]
    omega
  have text₁ : buf₁.takeWhile (· ≠ 0) = header body.length := by
    rw [← stored]
    exact takeWhile_nul (header_noNul _) _
  obtain ⟨arrived₂, bodyRead⟩ := @readBody_spec [] body rest buf₁ (by omega) arrived₁
  rw [List.nil_append, List.nil_append, List.length_nil, Nat.zero_add] at bodyRead
  have behind₂ : [(0 : UInt8)].length ≤ (buf₁.drop body.length).length := by
    rw [List.length_singleton, List.length_drop]
    omega
  refine ⟨arrived₂, body ++ [0] ++ (buf₁.drop body.length).drop 1, ?_, ?_, takeWhile_nul noNul _⟩
  · have found : strstr (ascii "Content-Length:") (header body.length) = Option.some (header body.length) :=
      strstr_of_prefix rfl
    rw [readMsg, size, frame, headerRead, Exec.returns_bind]
    simp only
    rw [writeAt_behind behind, List.length_singleton, stored, Exec.returns_bind, text₁, found]
    simp only
    rw [number, atoi_decimal (Nat.lt_of_lt_of_le short int), Exec.returns_bind, if_neg (by omega), Int.toNat_natCast,
      bodyRead, Exec.returns_bind]
    simp only
    rw [writeAt_behind behind₂]
    rfl
  · rw [List.length_append, List.length_append, List.length_drop, List.length_drop, List.length_singleton]
    omega

/-- A connection that the client has closed. -/
theorem readMsg_closed (arrived : Nat → Nat) {buf : List UInt8} (size : buf.length = maxMsg) :
    readMsg ⟨[], arrived⟩ buf = .returns none := by
  have room : maxMsg - 3 = maxMsg - 4 + 1 := by decide
  have nothing : ((⟨[], arrived⟩ : Socket).recv 1).1 = [] := List.take_nil
  rw [readMsg, size, room, readHeader, if_pos nothing]
  rfl

/-- Through any chunking, the bodies that are framed are dispatched, in order, and nothing else. -/
theorem serve_framed {bodies : List (List UInt8)}
    (plain : ∀ body ∈ bodies, body ≠ [] ∧ 0 ∉ body ∧ body.length < maxMsg) (arrived : Nat → Nat) {buf : List UInt8}
    (size : buf.length = maxMsg) {turns : Nat} (enough : bodies.length < turns) :
    serve turns ⟨bodies.flatMap framed, arrived⟩ buf = .returns bodies := by
  induction bodies generalizing arrived buf turns with
  | nil =>
    cases turns with
    | zero => exact absurd enough (Nat.not_lt_zero _)
    | succ turns =>
      rw [List.flatMap_nil, serve, readMsg_closed arrived size]
      rfl
  | cons body bodies ih =>
    cases turns with
    | zero => exact absurd enough (Nat.not_lt_zero _)
    | succ turns =>
      obtain ⟨⟨nonempty, noNul, short⟩, plain⟩ := List.forall_mem_cons.mp plain
      obtain ⟨arrived', buf', read, size', text⟩ := readMsg_framed (bodies.flatMap framed) noNul short size arrived
      rw [List.flatMap_cons, serve, read, Exec.returns_bind]
      simp only
      have some : body.length ≠ 0 := (List.length_pos_of_ne_nil nonempty).ne'
      rw [if_neg some, ih plain arrived' size' (Nat.lt_of_succ_lt_succ enough), text]
      rfl

theorem braces_dispatched :
    serve 3 ⟨[[0x7b, 0x7d], [0x7b]].flatMap framed, fun call => call⟩ (List.replicate maxMsg 0) =
      .returns [[0x7b, 0x7d], [0x7b]] :=
  serve_framed (by decide) _ List.length_replicate (by decide)

end DapFraming
end Blyt
