import Blyt.DapDispatch
import Blyt.HotReload
import Blyt.Lib.HexText

namespace Blyt
open JsonSyntax HexText

def maxMsg : Nat := 2 ^ 20

/-- `decode_hex`: the buffer and `*out_size`. `malloc` tells which sizes can be had. -/
def decodeHex (malloc : Nat → Bool) (hex : List UInt8) : Option (List UInt8 × UInt32) :=
  if hex.length % 2 = 1 then none
  else if malloc (hex.length / 2) then (hexBytes hex).map fun buf => (buf, UInt32.ofNat (hex.length / 2))
  else none

/-- The strings `handle_hot_reload` reads from its arguments, which are the whole message. -/
def hotReloadSource (msg : List UInt8) : Option (List UInt8) := jsonGetString msg (ascii "source") maxSourcePath

def hotReloadHex (msg : List UInt8) : Option (List UInt8) := jsonGetString msg (ascii "bytecodeHex") maxMsg

namespace ReloadHost
variable {S : Type}

/-- `handle_hot_reload` on a message. -/
def serveHotReload (h : ReloadHost S) (impl : ReloadImpl) (s_L : Option S) (seq : Int) (msg : List UInt8) :
    Exec (Option S × List DapMessage) :=
  h.handleHotReload impl s_L seq (hotReloadSource msg) (hotReloadHex msg)

/-- The bytes a message has handed to `fc_consolelua_synthetic_reload`. -/
def handed (h : ReloadHost S) (msg : List UInt8) : Option (List UInt8) :=
  match hotReloadSource msg, hotReloadHex msg with
  | some _, some hex => if h.hexBuf then (decodeHex (fun _ => h.decodeBuf) hex).map Prod.fst else none
  | _, _ => none

end ReloadHost

/-- A request in whose text the payload is found as its own member, a JSON string. -/
structure PayloadRequest where
  msg : List UInt8
  path : List (List UInt8)
  member : Member
  own : OwnMember msg path (ascii "bytecodeHex") member
  payload : List Piece
  string : member.value = .string payload

/-- What `json_get_string` makes of a piece: the letter of an escape stands for itself. -/
def copiedPiece : Piece → List UInt8
  | .raw b => [b]
  | .escape e => [e.letter]
  | .unicode a b c d => [117, a.byte, b.byte, c.byte, d.byte]

def copied (s : List Piece) : List UInt8 := s.flatMap copiedPiece

/-- The piece is a hexadecimal digit, written as it is. -/
def RawDigit : Piece → Prop
  | .raw b => (value b).isSome = true
  | .escape _ | .unicode .. => False

namespace PayloadRequest
variable {S : Type}

/-- The loader is handed nothing but the bytes that the payload spells, and nothing where the payload is too long for
`hex_buf`. -/
structure HandsEncoded (r : PayloadRequest) (h : ReloadHost S) : Prop where
  encoded : ∀ data, h.handed r.msg = some data → Spells (decode r.payload) data
  whole : maxMsg ≤ (decode r.payload).length → ∀ impl s_L seq,
    ReloadHost.Rejected seq s_L (h.serveHotReload impl s_L seq r.msg)

/-- Where the payload is read, it consists of digits, or an odd number of characters or too many are read. -/
def DigitsOrOdd (r : PayloadRequest) (h : ReloadHost S) : Prop :=
  (h.hexBuf && h.decodeBuf) = true → (hotReloadSource r.msg).isSome = true →
    (∀ c ∈ r.member.lead, c = .space ∨ c = .tab) →
      (copied r.payload).length % 2 = 1 ∨ maxMsg ≤ (copied r.payload).length ∨ ∀ p ∈ r.payload, RawDigit p

end PayloadRequest

/-! What `decode_hex` makes of a string. -/

theorem hexBytes_eq_none_iff (hex : List UInt8) : hexBytes hex = none ↔ hex.length % 2 = 1 := by
  induction hex using hexBytes.induct with
  | case1 => exact iff_of_false (Option.some_ne_none _) (by decide)
  | case2 => exact iff_of_true rfl rfl
  | case3 c1 c2 hex ih =>
    rw [hexBytes, Option.map_eq_none_iff, ih, List.length_cons, List.length_cons]
    omega

theorem hexBytes_length {hex bytes : List UInt8} (decodes : hexBytes hex = some bytes) :
    hex.length = 2 * bytes.length := by
  induction hex using hexBytes.induct generalizing bytes with
  | case1 =>
    cases decodes
    rfl
  | case2 => cases decodes
  | case3 c1 c2 hex ih =>
    obtain ⟨rest, tail, rfl⟩ := Option.map_eq_some_iff.mp decodes
    rw [List.length_cons, List.length_cons, List.length_cons, ih tail]
    omega

theorem hexDigit_of_value {c : UInt8} {n : Nat} (digit : value c = some n) : n < 16 ∧ hexDigit c = UInt8.ofNat n := by
  have all : ∀ i : Fin 256, ∀ n ∈ value (UInt8.ofNat i), n < 16 ∧ hexDigit (UInt8.ofNat i) = UInt8.ofNat n := by
    decide +kernel
  have here := all ⟨c.toNat, c.toNat_lt⟩ n
  rw [UInt8.ofNat_toNat] at here
  exact here digit

theorem hexBytes_of_spells {text bytes : List UInt8} (spells : Spells text bytes) : hexBytes text = some bytes := by
  induction spells with
  | nil => rfl
  | @cons c d hi lo text bytes high low _ ih =>
    obtain ⟨-, first⟩ := hexDigit_of_value high
    obtain ⟨-, second⟩ := hexDigit_of_value low
    rw [hexBytes, ih, first, second, join, UInt8.ofNat_or, UInt8.ofNat_shiftLeft _ _ (by decide)]
    rfl

theorem spells_of_digits {text : List UInt8} (even : text.length % 2 = 0)
    (digits : ∀ c ∈ text, (value c).isSome = true) : ∃ bytes, Spells text bytes := by
  induction text using hexBytes.induct with
  | case1 => exact ⟨[], .nil⟩
  | case2 => cases even
  | case3 c d text ih =>
    have shorter : text.length % 2 = 0 := by
      rw [List.length_cons, List.length_cons] at even
      omega
    obtain ⟨bytes, spells⟩ := ih shorter fun c member => digits c (by simp [member])
    obtain ⟨hi, high⟩ := Option.isSome_iff_exists.mp (digits c (by simp))
    obtain ⟨lo, low⟩ := Option.isSome_iff_exists.mp (digits d (by simp))
    exact ⟨_, .cons high low spells⟩

theorem decodeHex_eq_some {malloc : Nat → Bool} {hex bytes : List UInt8} {size : UInt32}
    (decodes : decodeHex malloc hex = some (bytes, size)) :
    hex.length % 2 = 0 ∧ hexBytes hex = some bytes ∧ size = UInt32.ofNat bytes.length := by
  rw [decodeHex] at decodes
  split at decodes
  · cases decodes
  · rename_i even
    split at decodes
    · obtain ⟨buf, here, same⟩ := Option.map_eq_some_iff.mp decodes
      cases same
      have length := hexBytes_length here
      refine ⟨by omega, here, ?_⟩
      rw [length, Nat.mul_div_cancel_left _ (by decide)]
    · cases decodes

theorem decodeHex_of_bytes {malloc : Nat → Bool} {hex bytes : List UInt8} (here : hexBytes hex = some bytes)
    (room : malloc (hex.length / 2) = true) : decodeHex malloc hex = some (bytes, UInt32.ofNat bytes.length) := by
  have length := hexBytes_length here
  rw [decodeHex, if_neg (by omega), if_pos room, here, length, Nat.mul_div_cancel_left _ (by decide)]
  rfl

/-- With memory, what `decode_hex` accepts are digits exactly if they are, or if their number is odd. -/
theorem decodeHex_strict_iff (malloc : Nat → Bool) (hex : List UInt8) :
    (∀ result, decodeHex malloc hex = some result → hex.length % 2 = 0 ∧ ∀ c ∈ hex, (value c).isSome = true) ↔
      (malloc (hex.length / 2) = true → hex.length % 2 = 1 ∨ ∀ c ∈ hex, (value c).isSome = true) := by
  constructor
  · intro strict room
    cases decodes : hexBytes hex with
    | none => exact .inl ((hexBytes_eq_none_iff hex).mp decodes)
    | some bytes => exact .inr (strict _ (decodeHex_of_bytes decodes room)).2
  · rintro condition ⟨bytes, size⟩ decodes
    have room : malloc (hex.length / 2) = true := by
      by_contra none
      rw [decodeHex, if_neg none, ite_self] at decodes
      cases decodes
    obtain ⟨even, -⟩ := decodeHex_eq_some decodes
    refine ⟨even, (condition room).resolve_left ?_⟩
    omega

/-- The text of some bytes is mapped back to them exactly if `*out_size` can tell how many they are. -/
theorem decodeHex_back_iff {malloc : Nat → Bool} {text bytes : List UInt8} (spells : Spells text bytes)
    (room : malloc bytes.length = true) :
    (decodeHex malloc text).map (fun result => result.1.take result.2.toNat) = some bytes ↔ bytes.length < 2 ^ 32 := by
  have half : malloc (text.length / 2) = true := by
    rwa [spells.length, Nat.mul_div_cancel_left _ (by decide)]
  rw [decodeHex_of_bytes (hexBytes_of_spells spells) half, Option.map_some, Option.some.injEq, UInt32.toNat_ofNat']
  constructor
  · intro kept
    have length := congrArg List.length kept
    rw [List.length_take] at length
    omega
  · intro below
    exact List.take_of_length_le (Nat.mod_eq_of_lt below).ge

/-! What `json_get_string` reads of a payload. -/

theorem copyString_plain {room : Nat} {c : UInt8} {p : List UInt8} (quote : c ≠ 34) (backslash : c ≠ 92) :
    copyString (room + 1) (c :: p) = c :: copyString room p := by
  cases p with
  | nil =>
    rw [copyString, if_neg quote]
    cases room with
    | zero => rfl
    | succ room => rfl
  | cons e rest =>
    rw [copyString, if_neg quote]
    exact if_neg backslash

theorem copyString_escape (room : Nat) (e : UInt8) (p : List UInt8) :
    copyString (room + 1) (92 :: e :: p) = e :: copyString room p := by
  rw [copyString, if_neg (by decide)]
  exact if_pos rfl

theorem copyString_front {front p q : List UInt8} (plain : ∀ c ∈ front, c ≠ 34 ∧ c ≠ 92)
    (behind : ∀ room, copyString room p = q.take room) (room : Nat) :
    copyString room (front ++ p) = (front ++ q).take room := by
  induction front generalizing room with
  | nil => exact behind room
  | cons c front ih =>
    cases room with
    | zero => rfl
    | succ room =>
      obtain ⟨quote, backslash⟩ := plain c List.mem_cons_self
      rw [List.cons_append, List.cons_append, copyString_plain quote backslash, List.take_succ_cons,
        ih fun c member => plain c (List.mem_cons_of_mem _ member)]

theorem hexDigit_plain (d : HexDigit) : d.byte ≠ 34 ∧ d.byte ≠ 92 := by
  obtain ⟨v, upper⟩ := d
  revert v upper
  decide

/-- The characters of the literal, as many as there is room for. -/
theorem copyString_literal (s : List Piece) (room : Nat) (rest : List UInt8) :
    copyString room (s.flatMap Piece.render ++ 34 :: rest) = (copied s).take room := by
  induction s generalizing room with
  | nil =>
    cases room with
    | zero => rfl
    | succ room => exact if_pos rfl
  | cons piece s ih =>
    have text : (piece :: s).flatMap Piece.render ++ 34 :: rest =
        piece.render ++ (s.flatMap Piece.render ++ 34 :: rest) := by
      rw [List.flatMap_cons, List.append_assoc]
    have read : copied (piece :: s) = copiedPiece piece ++ copied s := List.flatMap_cons
    rw [text, read]
    cases piece with
    | raw b =>
      obtain ⟨-, quote, backslash⟩ := b.property
      refine copyString_front (fun c member => ?_) ih room
      rw [Piece.render, List.mem_singleton] at member
      rw [member]
      exact ⟨quote, backslash⟩
    | escape e =>
      cases room with
      | zero => rfl
      | succ room =>
        show copyString (room + 1) (92 :: e.letter :: (s.flatMap Piece.render ++ 34 :: rest)) = _
        rw [copyString_escape, ih room]
        rfl
    | unicode a b c d =>
      cases room with
      | zero => rfl
      | succ room =>
        have digits : ∀ x ∈ [a.byte, b.byte, c.byte, d.byte], x ≠ 34 ∧ x ≠ 92 := by
          simp only [List.mem_cons, List.not_mem_nil, or_false]
          rintro x (rfl | rfl | rfl | rfl)
          · exact hexDigit_plain a
          · exact hexDigit_plain b
          · exact hexDigit_plain c
          · exact hexDigit_plain d
        show copyString (room + 1) (92 :: 117 :: ([a.byte, b.byte, c.byte, d.byte] ++ _)) = _
        rw [copyString_escape, copyString_front digits ih room]
        rfl

/-- A payload behind a line break is not found. -/
theorem skipBlanks_stops {spaces : List Space} (other : ¬∀ c ∈ spaces, c = .space ∨ c = .tab) (p : List UInt8) :
    ∃ c q, skipBlanks (blank spaces ++ p) = c :: q ∧ c ≠ 34 := by
  induction spaces with
  | nil => exact absurd (fun c member => absurd member List.not_mem_nil) other
  | cons s spaces ih =>
    rw [List.forall_mem_cons, not_and_or] at other
    show ∃ c q, List.dropWhile _ (s.byte :: (blank spaces ++ p)) = c :: q ∧ c ≠ 34
    rw [List.dropWhile_cons]
    cases s with
    | space | tab => exact ih (other.resolve_left (by decide))
    | lineFeed => exact ⟨10, _, rfl, by decide⟩
    | carriageReturn => exact ⟨13, _, rfl, by decide⟩

theorem PayloadRequest.hotReloadHex (r : PayloadRequest) (lead : ∀ c ∈ r.member.lead, c = .space ∨ c = .tab) :
    hotReloadHex r.msg = some ((copied r.payload).take (maxMsg - 1)) := by
  obtain ⟨c, behind, -, found⟩ := r.own.findValue (by decide) (by decide)
  rw [Blyt.hotReloadHex, jsonGetString, found, r.string, Value.render, renderString, List.cons_append,
    skipBlanks_append lead rfl]
  show some (copyString (maxMsg - 1) _) = _
  rw [List.append_assoc, List.singleton_append, copyString_literal]

theorem PayloadRequest.hotReloadHex_none (r : PayloadRequest) (lead : ¬∀ c ∈ r.member.lead, c = .space ∨ c = .tab) :
    Blyt.hotReloadHex r.msg = none := by
  obtain ⟨c, behind, -, found⟩ := r.own.findValue (by decide) (by decide)
  obtain ⟨d, q, text, other⟩ := skipBlanks_stops lead (r.member.value.render ++ (blank r.member.after ++ c :: behind))
  rw [Blyt.hotReloadHex, jsonGetString, found, text]
  split
  · rename_i same
    cases same
    exact absurd rfl other
  · rfl

def Unicode : Piece → Bool
  | .unicode .. => true
  | .raw _ | .escape _ => false

theorem utf8_length (n : Nat) : (utf8 n).length ≤ 4 := by
  rw [utf8]
  split
  · simp
  · split
    · simp
    · split
      · simp
      · simp

/-- A code unit is read as more characters than it spells bytes. -/
theorem decode_length (s : List Piece) : (decode s).length + s.countP Unicode ≤ (copied s).length := by
  induction s using decode.induct with
  | case1 => exact le_refl 0
  | case2 b s ih =>
    show (decode s).length + 1 + s.countP Unicode ≤ (copied s).length + 1
    omega
  | case3 e s ih =>
    show (decode s).length + 1 + s.countP Unicode ≤ (copied s).length + 1
    omega
  | case4 a b c d a' b' c' d' s high low pair ih =>
    rw [decode, if_pos pair, List.length_append]
    have short := utf8_length (0x10000 + (codeUnit a b c d - 0xd800) * 0x400 + (codeUnit a' b' c' d' - 0xdc00))
    have units : (Piece.unicode a b c d :: .unicode a' b' c' d' :: s).countP Unicode = s.countP Unicode + 1 + 1 := by
      rw [List.countP_cons_of_pos rfl, List.countP_cons_of_pos rfl]
    have read : (copied (.unicode a b c d :: .unicode a' b' c' d' :: s)).length = (copied s).length + 5 + 5 := rfl
    omega
  | case5 a b c d a' b' c' d' s high low pair ih =>
    rw [decode, if_neg pair, List.length_append]
    have short := utf8_length (codeUnit a b c d)
    have units : (Piece.unicode a b c d :: .unicode a' b' c' d' :: s).countP Unicode =
        (Piece.unicode a' b' c' d' :: s).countP Unicode + 1 := List.countP_cons_of_pos rfl
    have read : (copied (.unicode a b c d :: .unicode a' b' c' d' :: s)).length =
        (copied (.unicode a' b' c' d' :: s)).length + 5 := rfl
    omega
  | case6 a b c d s other ih =>
    rw [decode.eq_5 _ _ _ _ _ other, List.length_append]
    have short := utf8_length (codeUnit a b c d)
    have units : (Piece.unicode a b c d :: s).countP Unicode = s.countP Unicode + 1 := List.countP_cons_of_pos rfl
    have read : (copied (.unicode a b c d :: s)).length = (copied s).length + 5 := rfl
    omega

theorem rawDigits_of_digits {s : List Piece} (plain : s.countP Unicode = 0)
    (digits : ∀ c ∈ decode s, (value c).isSome = true) : ∀ p ∈ s, RawDigit p := by
  induction s with
  | nil => exact fun p member => absurd member List.not_mem_nil
  | cons p s ih =>
    cases p with
    | unicode a b c d =>
      rw [List.countP_cons_of_pos rfl] at plain
      omega
    | raw b =>
      obtain ⟨first, rest⟩ := List.forall_mem_cons.mp (show ∀ c ∈ b.val :: decode s, _ from digits)
      exact List.forall_mem_cons.mpr ⟨first, ih plain rest⟩
    | escape e =>
      obtain ⟨first, -⟩ := List.forall_mem_cons.mp (show ∀ c ∈ e.byte :: decode s, _ from digits)
      cases e <;> cases first

theorem decode_rawDigits {s : List Piece} (raw : ∀ p ∈ s, RawDigit p) :
    decode s = copied s ∧ ∀ c ∈ copied s, (value c).isSome = true := by
  induction s with
  | nil => exact ⟨rfl, fun c member => absurd member List.not_mem_nil⟩
  | cons p s ih =>
    obtain ⟨digit, rest⟩ := List.forall_mem_cons.mp raw
    obtain ⟨same, digits⟩ := ih rest
    cases p with
    | raw b => exact ⟨congrArg (b.val :: ·) same, List.forall_mem_cons.mpr ⟨digit, digits⟩⟩
    | escape e => exact digit.elim
    | unicode a b c d => exact digit.elim

section
variable {S : Type} {h : ReloadHost S} {msg data : List UInt8}

theorem ReloadHost.handed_eq_some : h.handed msg = some data ↔ (hotReloadSource msg).isSome = true ∧
    (h.hexBuf && h.decodeBuf) = true ∧ ∃ hex, hotReloadHex msg = some hex ∧ hexBytes hex = some data := by
  rw [handed, Bool.and_eq_true]
  cases hotReloadSource msg with
  | none => exact iff_of_false (Option.some_ne_none data).symm fun all => Bool.false_ne_true all.1
  | some source =>
    cases hotReloadHex msg with
    | none =>
      refine iff_of_false (Option.some_ne_none data).symm ?_
      rintro ⟨-, -, hex, same, -⟩
      cases same
    | some hex =>
      cases hexBuf : h.hexBuf with
      | false =>
        refine iff_of_false ?_ fun all => Bool.false_ne_true all.2.1.1
        exact (Option.some_ne_none data).symm
      | true =>
        show (decodeHex (fun _ => h.decodeBuf) hex).map Prod.fst = some data ↔ _
        rw [Option.map_eq_some_iff]
        constructor
        · rintro ⟨⟨bytes, size⟩, decodes, same⟩
          cases same
          obtain ⟨-, here, -⟩ := decodeHex_eq_some decodes
          refine ⟨rfl, ⟨rfl, ?_⟩, hex, rfl, here⟩
          by_contra none
          rw [decodeHex, if_neg none, ite_self] at decodes
          cases decodes
        · rintro ⟨-, ⟨-, decodeBuf⟩, hex, same, here⟩
          cases same
          exact ⟨_, decodeHex_of_bytes here decodeBuf, rfl⟩

/-- What the handler does with the bytes it hands over. -/
theorem ReloadHost.serve_handed (handed : h.handed msg = some data) (impl : ReloadImpl) (s_L : Option S) (seq : Int) :
    ∃ src, hotReloadSource msg = some src ∧ h.serveHotReload impl s_L seq msg = (do
      let s_L ← h.syntheticReload s_L data impl
      return (s_L, [.response seq "hot_reload" true "\x7b\x7d", .loadedSource src])) := by
  obtain ⟨found, buffers, hex, read, here⟩ := handed_eq_some.mp handed
  obtain ⟨src, source⟩ := Option.isSome_iff_exists.mp found
  refine ⟨src, source, ?_⟩
  rw [serveHotReload, source, read]
  exact handle_reaches here buffers

theorem ReloadHost.serve_rejects (nothing : h.handed msg = none) (impl : ReloadImpl) (s_L : Option S) (seq : Int) :
    Rejected seq s_L (h.serveHotReload impl s_L seq msg) := by
  rw [serveHotReload]
  cases source : hotReloadSource msg with
  | none => exact ⟨rfl, _, rfl⟩
  | some src =>
    cases read : hotReloadHex msg with
    | none =>
      cases hexBuf : h.hexBuf with
      | false =>
        rw [handleHotReload, hexBuf]
        exact ⟨rfl, _, rfl⟩
      | true =>
        rw [handleHotReload, hexBuf]
        exact ⟨rfl, _, rfl⟩
    | some hex =>
      cases hexBuf : h.hexBuf with
      | false =>
        rw [handleHotReload, hexBuf]
        exact ⟨rfl, _, rfl⟩
      | true =>
        rw [handleHotReload, hexBuf]
        simp only [if_true]
        cases decodes : if h.decodeBuf = true then hexBytes hex else none with
        | none => exact ⟨rfl, _, rfl⟩
        | some bytes =>
          rw [Option.ite_none_right_eq_some] at decodes
          have handed : h.handed msg = some bytes := by
            refine handed_eq_some.mpr ⟨?_, ?_, hex, read, decodes.2⟩
            · rw [source]
              rfl
            · rw [hexBuf, decodes.1]
              rfl
          rw [handed] at nothing
          cases nothing

end

/-- A payload of which a prefix is read has an odd number of characters read. -/
theorem whole_of_decodes {text data : List UInt8} (decodes : hexBytes (text.take (maxMsg - 1)) = some data) :
    text.take (maxMsg - 1) = text ∧ text.length = 2 * data.length ∧ text.length < maxMsg := by
  have length := hexBytes_length decodes
  rw [List.length_take, maxMsg] at length
  have short : text.length ≤ maxMsg - 1 := by
    rw [maxMsg]
    omega
  refine ⟨List.take_of_length_le short, ?_, ?_⟩
  · omega
  · rw [maxMsg]
    omega

namespace PayloadRequest
variable {S : Type} {h : ReloadHost S} {r : PayloadRequest} {data : List UInt8}

/-- What is handed over was read from the whole payload. -/
theorem of_handed (handed : h.handed r.msg = some data) :
    (hotReloadSource r.msg).isSome = true ∧ (h.hexBuf && h.decodeBuf) = true ∧
      (∀ c ∈ r.member.lead, c = .space ∨ c = .tab) ∧ hexBytes (copied r.payload) = some data ∧
        (copied r.payload).length = 2 * data.length ∧ (copied r.payload).length < maxMsg := by
  obtain ⟨source, buffers, hex, read, here⟩ := ReloadHost.handed_eq_some.mp handed
  by_cases lead : ∀ c ∈ r.member.lead, c = .space ∨ c = .tab
  · rw [r.hotReloadHex lead, Option.some.injEq] at read
    subst read
    obtain ⟨same, length, short⟩ := whole_of_decodes here
    rw [same] at here
    exact ⟨source, buffers, lead, here, length, short⟩
  · rw [r.hotReloadHex_none lead] at read
    cases read

theorem handsEncoded_iff (r : PayloadRequest) (h : ReloadHost S) : r.HandsEncoded h ↔ r.DigitsOrOdd h := by
  constructor
  · intro hands buffers source lead
    by_cases odd : (copied r.payload).length % 2 = 1
    · exact .inl odd
    · by_cases long : maxMsg ≤ (copied r.payload).length
      · exact .inr (.inl long)
      · cases decodes : hexBytes (copied r.payload) with
        | none => exact absurd ((hexBytes_eq_none_iff _).mp decodes) odd
        | some data =>
          have read : Blyt.hotReloadHex r.msg = some (copied r.payload) := by
            rw [r.hotReloadHex lead, List.take_of_length_le (by omega)]
          have spells := hands.encoded data (ReloadHost.handed_eq_some.mpr ⟨source, buffers, _, read, decodes⟩)
          have spelled := spells.length
          have length := hexBytes_length decodes
          have bound := decode_length r.payload
          exact .inr (.inr (rawDigits_of_digits (by omega) spells.digits))
  · intro condition
    refine ⟨fun data handed => ?_, fun long impl s_L seq => ?_⟩
    · obtain ⟨source, buffers, lead, here, length, short⟩ := of_handed handed
      rcases condition buffers source lead with odd | long | raw
      · omega
      · omega
      · obtain ⟨same, digits⟩ := decode_rawDigits raw
        obtain ⟨bytes, spells⟩ := spells_of_digits (by omega) digits
        rw [hexBytes_of_spells spells, Option.some.injEq] at here
        rw [same, ← here]
        exact spells
    · refine ReloadHost.serve_rejects ?_ impl s_L seq
      cases handed : h.handed r.msg with
      | none => rfl
      | some data =>
        obtain ⟨-, -, -, -, -, short⟩ := of_handed handed
        have bound := decode_length r.payload
        omega

end PayloadRequest

/-- `decode_hex` takes nothing but digits where there is nothing else or their number is odd, and it maps what spells
some bytes back to them; the handler hands over what was encoded where the payload is so. -/
theorem hot_reload_payload_iff {S : Type} (h : ReloadHost S) :
    (∀ malloc hex, (∀ result, decodeHex malloc hex = some result →
      hex.length % 2 = 0 ∧ ∀ c ∈ hex, (value c).isSome = true) ↔
        (malloc (hex.length / 2) = true → hex.length % 2 = 1 ∨ ∀ c ∈ hex, (value c).isSome = true)) ∧
    (∀ malloc bytes, malloc bytes.length = true → ∀ text ∈ [encode bytes, (encode bytes).map upper],
      ((decodeHex malloc text).map (fun result => result.1.take result.2.toNat) = some bytes ↔
        bytes.length < 2 ^ 32)) ∧
    ∀ r : PayloadRequest, r.HandsEncoded h ↔ r.DigitsOrOdd h := by
  refine ⟨decodeHex_strict_iff, fun malloc bytes room text either => ?_, fun r => r.handsEncoded_iff h⟩
  simp only [List.mem_cons, List.not_mem_nil, or_false] at either
  rcases either with rfl | rfl
  · exact decodeHex_back_iff (spells_encode bytes) room
  · exact decodeHex_back_iff (spells_upper bytes) room

/-- `{"command":"hot_reload","arguments":{"source":"a","bytecodeHex":"zz"}}`. -/
def zzMembers : Members :=
  dense "command" (.string (spelled (ascii "hot_reload")))
    (dense "arguments" (.object [] (dense "source" (.string (spelled (ascii "a")))
      (dense "bytecodeHex" (.string (spelled (ascii "zz"))) .nil))) .nil)

theorem zzMembers_own : OwnMember (Value.object [] zzMembers).render [ascii "arguments", ascii "bytecodeHex"]
    (ascii "bytecodeHex") ⟨spelled (ascii "bytecodeHex"), [], [], .string (spelled (ascii "zz")), []⟩ :=
  ⟨[], [], zzMembers, _, _, [], (List.append_nil _).symm, .later (.inside (.later .here)), by decide, by decide +kernel⟩

def zzRequest : PayloadRequest := ⟨_, _, _, zzMembers_own, spelled (ascii "zz"), rfl⟩

/-- A host on which everything succeeds. -/
def readyHost : ReloadHost Unit := ⟨true, true, true, true, (), id, fun _ L => (true, L), fun L => .returns (true, L)⟩

/-- What is no hexadecimal digit is decoded and reaches the loader. -/
theorem zz_reaches_loader : decodeHex (fun _ => true) (ascii "zz") = some ([0x33], 1) ∧
    readyHost.handed zzRequest.msg = some [0x33] ∧ ¬ zzRequest.HandsEncoded readyHost := by
  refine ⟨by decide, by decide +kernel, fun hands => ?_⟩
  have handed : readyHost.handed zzRequest.msg = some [0x33] := by decide +kernel
  have digits := (hands.encoded _ handed).digits 0x7a (by decide)
  cases digits

end Blyt
