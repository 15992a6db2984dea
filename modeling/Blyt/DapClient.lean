import Mathlib.Data.List.TakeWhile
import Blyt.Lib.Incremental
import Blyt.Lib.Utf8
import Blyt.DapFraming

namespace Blyt
namespace DapClient
open Incremental Run

/-- `\s` of a regular expression. -/
def isSpace (c : Char) : Bool :=
  let n := c.toNat
  (9 ≤ n && n ≤ 13) || n == 0x20 || n == 0xa0 || n == 0x1680 || (0x2000 ≤ n && n ≤ 0x200a) || n == 0x2028 || n == 0x2029 ||
    n == 0x202f || n == 0x205f || n == 0x3000 || n == 0xfeff

/-- `\d` of a regular expression. -/
def isDigit (c : Char) : Bool := 48 ≤ c.toNat && c.toNat ≤ 57

/-- `parseInt` of digits. -/
def number (digits : List Char) : Nat := digits.foldl (fun v c => v * 10 + (c.toNat - 48)) 0

/-- `/Content-Length:\s*(\d+)/i` at the front of a text. -/
def lengthAt (s : List Char) : Option Nat :=
  if (s.take 15).map Char.toUpper = "CONTENT-LENGTH:".toList then
    let digits := ((s.drop 15).dropWhile isSpace).takeWhile isDigit
    if digits = [] then none else some (number digits)
  else none

/-- `/Content-Length:\s*(\d+)/i.exec`. -/
def contentLength : List Char → Option Nat
  | [] => none
  | c :: rest => (lengthAt (c :: rest)).or (contentLength rest)

/-- `buffer.indexOf('\r\n\r\n')`: what is in front of it and what is behind. -/
def cutHeader : List UInt8 → Option (List UInt8 × List UInt8)
  | [] => none
  | b :: rest =>
    if [13, 10, 13, 10] <+: b :: rest then some ([], rest.drop 3)
    else (cutHeader rest).map fun (header, behind) => (b :: header, behind)

/-- A turn of the loop of `feed`: the body that `JSON.parse` is handed, none behind a header without a length. -/
def next (buffer : List UInt8) : Option (Option (List Char) × List UInt8) :=
  match cutHeader buffer with
  | none => none
  | some (hdr, behind) =>
    match contentLength (Utf8.decode hdr) with
    | none => some (none, behind)
    | some len => if behind.length < len then none else some (some (Utf8.decode (behind.take len)), behind.drop len)

theorem cutHeader_parts {buffer header behind : List UInt8} (cut : cutHeader buffer = some (header, behind)) :
    buffer = header ++ [13, 10, 13, 10] ++ behind := by
  induction buffer generalizing header behind with
  | nil => cases cut
  | cons b rest ih =>
    rw [cutHeader] at cut
    split at cut
    · rename_i here
      obtain ⟨tail, split⟩ := here
      obtain ⟨rfl, rfl⟩ := List.cons.inj split
      cases cut
      rfl
    · obtain ⟨⟨header', behind'⟩, cut', same⟩ := Option.map_eq_some_iff.mp cut
      cases same
      rw [ih cut', List.cons_append, List.cons_append]

/-- The first blank line stays the first. -/
theorem cutHeader_append {buffer header behind : List UInt8} (cut : cutHeader buffer = some (header, behind))
    (more : List UInt8) : cutHeader (buffer ++ more) = some (header, behind ++ more) := by
  induction buffer generalizing header behind with
  | nil => cases cut
  | cons b rest ih =>
    have long : 4 ≤ (b :: rest).length := by
      rw [cutHeader_parts cut]
      simp only [List.length_append, List.length_cons]
      omega
    have same : [13, 10, 13, 10] <+: b :: (rest ++ more) ↔ [13, 10, 13, 10] <+: b :: rest :=
      ⟨fun here => List.prefix_of_prefix_length_le here (List.prefix_append (b :: rest) more) long,
        fun here => here.trans (List.prefix_append (b :: rest) more)⟩
    rw [cutHeader] at cut
    rw [List.cons_append, cutHeader]
    split at cut
    · rename_i here
      cases cut
      rw [if_pos (same.mpr here), List.drop_append_of_le_length (Nat.le_of_succ_le_succ long)]
    · rename_i away
      obtain ⟨⟨header', behind'⟩, cut', parts⟩ := Option.map_eq_some_iff.mp cut
      cases parts
      rw [if_neg fun here => away (same.mp here), ih cut']
      rfl

/-- The loop of `feed` as a reader of a stream. -/
def framing : Framing UInt8 (Option (List Char)) where
  next := next
  shorter := by
    intro buffer x rest met
    rw [next] at met
    cases cut : cutHeader buffer with
    | none =>
      rw [cut] at met
      cases met
    | some parts =>
      obtain ⟨hdr, behind⟩ := parts
      have length := congrArg List.length (cutHeader_parts cut)
      simp only [List.length_append, List.length_cons] at length
      rw [cut] at met
      dsimp only at met
      split at met
      · cases met
        omega
      · split at met
        · cases met
        · cases met
          rw [List.length_drop]
          omega
  stable := by
    intro buffer x rest met more
    rw [next] at met ⊢
    cases cut : cutHeader buffer with
    | none =>
      rw [cut] at met
      cases met
    | some parts =>
      obtain ⟨hdr, behind⟩ := parts
      rw [cut] at met
      rw [cutHeader_append cut]
      dsimp only at met ⊢
      split at met
      · cases met
        rfl
      · split at met
        · cases met
        · rename_i enough
          have room := Nat.le_of_not_lt enough
          cases met
          rw [if_neg (by rw [List.length_append]; omega), List.take_append_of_le_length room,
            List.drop_append_of_le_length room]

/-- `feed`, with the bodies that were handed to `JSON.parse` and the buffer. -/
def feed : List (Option (List Char)) × List UInt8 → List UInt8 → List (Option (List Char)) × List UInt8 := framing.feed

/-- Whatever is on the wire, what the client reads is the same however the socket cuts it. -/
theorem feed_cuts (chunks : List (List UInt8)) : chunks.foldl feed ([], []) = feed ([], []) chunks.flatten :=
  framing.foldl_feed_flatten rfl chunks

theorem cutHeader_header {text : List UInt8} (noCr : 13 ∉ text) (behind : List UInt8) :
    cutHeader (text ++ [13, 10, 13, 10] ++ behind) = some (text, behind) := by
  induction text with
  | nil => exact if_pos (List.prefix_append [13, 10, 13, 10] behind)
  | cons c text ih =>
    rw [List.mem_cons, not_or] at noCr
    have away : ¬[13, 10, 13, 10] <+: c :: (text ++ [13, 10, 13, 10] ++ behind) := by
      rintro ⟨tail, same⟩
      exact noCr.1 (List.cons.inj same).1
    rw [List.cons_append, List.cons_append, cutHeader, if_neg away, ih noCr.2]
    rfl

theorem ofNat_toNat {n : Nat} (small : n < 0xd800) : (Char.ofNat n).toNat = n := by
  rw [Char.ofNat, dif_pos (.inl small)]
  rfl

theorem digitChars {v : Nat} : ∀ c ∈ (decimal v).map fun b => Char.ofNat b.toNat, 48 ≤ c.toNat ∧ c.toNat ≤ 57 := by
  intro c member
  obtain ⟨b, digit, rfl⟩ := List.mem_map.mp member
  obtain ⟨low, high⟩ := decimal_digits b digit
  have small := b.toNat_lt
  rw [ofNat_toNat (by omega)]
  exact ⟨low, high⟩

theorem number_digits {digits : List UInt8} :
    number (digits.map fun c => Char.ofNat c.toNat) = digits.foldl (fun v c => v * 10 + (c.toNat - 48)) 0 := by
  rw [number, List.foldl_map]
  congr 1
  funext v c
  have small := c.toNat_lt
  rw [ofNat_toNat (by omega)]

theorem number_decimal {v : Nat} (small : v < 10 ^ 24) : number ((decimal v).map fun c => Char.ofNat c.toNat) = v := by
  rw [number_digits, decimal]
  split
  · rename_i zero
    exact zero.symm
  · have value := decimalTmp_value small
    rw [← List.foldl_reverse] at value
    simp only [Nat.mul_comm 10] at value
    exact value

theorem header_ascii (n : Nat) : ∀ c ∈ ascii "Content-Length: " ++ decimal n, c < 128 := by
  have label : (ascii "Content-Length: ").all (· < 128) := by decide
  intro c member
  rcases List.mem_append.mp member with front | digit
  · exact of_decide_eq_true (List.all_eq_true.mp label c front)
  · exact UInt8.lt_of_le_of_lt (decimal_digits c digit).2 (by decide)

theorem lengthAt_digits {text : List Char} (any : text ≠ []) (digits : ∀ c ∈ text, 48 ≤ c.toNat ∧ c.toNat ≤ 57) :
    lengthAt ("Content-Length: ".toList ++ text) = some (number text) := by
  have front : (("Content-Length: ".toList ++ text).take 15).map Char.toUpper = "CONTENT-LENGTH:".toList := by
    rw [List.take_append_of_le_length (by decide)]
    decide
  have behind : ("Content-Length: ".toList ++ text).drop 15 = ' ' :: text := by
    rw [List.drop_append_of_le_length (by decide)]
    rfl
  have spaces : (' ' :: text).dropWhile isSpace = text := by
    obtain ⟨c, others, rfl⟩ := List.exists_cons_of_ne_nil any
    obtain ⟨low, high⟩ := digits c List.mem_cons_self
    have digit : isSpace c = false := by
      simp only [isSpace, Bool.or_eq_false_iff, Bool.and_eq_false_iff, decide_eq_false_iff_not, beq_eq_false_iff_ne]
      omega
    rw [List.dropWhile_cons_of_pos (by decide), List.dropWhile_cons_of_neg (by rw [digit]; decide)]
  have all : text.takeWhile isDigit = text := by
    refine List.takeWhile_eq_self_iff.mpr fun c member => ?_
    obtain ⟨low, high⟩ := digits c member
    rw [isDigit, decide_eq_true low, decide_eq_true high]
    rfl
  rw [lengthAt, if_pos front, behind, spaces, all]
  exact if_neg any

theorem contentLength_of_lengthAt {s : List Char} {n : Nat} (here : lengthAt s = some n) : contentLength s = some n := by
  cases s with
  | nil => cases here
  | cons c rest => rw [contentLength, here, Option.some_or]

/-- The header of `send_msg` tells the client its number. -/
theorem contentLength_header {n : Nat} (small : n < 10 ^ 24) :
    contentLength (Utf8.decode (ascii "Content-Length: " ++ decimal n)) = some n := by
  have any : (decimal n).map (fun b => Char.ofNat b.toNat) ≠ [] := by
    intro none
    exact List.ne_nil_of_length_pos (decimal_length n).1 (List.map_eq_nil_iff.mp none)
  have label : (ascii "Content-Length: ").map (fun b => Char.ofNat b.toNat) = "Content-Length: ".toList := by decide
  have here := lengthAt_digits any digitChars
  rw [number_decimal small] at here
  rw [Utf8.decode_ascii (header_ascii n), List.map_append, label]
  exact contentLength_of_lengthAt here

theorem json_short (m : Numbered) : m.json.length < 2 ^ 20 := by
  rcases m with ⟨seq, message⟩
  unfold Numbered.json WireMessage.json
  split <;> rw [List.length_take] <;> omega

/-- A whole message is read as its body, whatever is behind it. -/
theorem next_text (m : Numbered) (more : List UInt8) :
    framing.next (m.text ++ more) = some (some (Utf8.decode m.json), more) := by
  have noCr : 13 ∉ ascii "Content-Length: " ++ decimal m.json.length := by
    intro member
    rcases List.mem_append.mp member with label | digits
    · exact absurd label (by decide)
    · exact absurd (decimal_digits 13 digits).1 (by decide)
  have short := json_short m
  have known := contentLength_header (show m.json.length < 10 ^ 24 from Nat.lt_trans short (by decide))
  show next _ = _
  rw [next, Numbered.text, Numbered.header, List.append_assoc _ m.json, cutHeader_header noCr]
  dsimp only
  rw [known]
  dsimp only
  rw [if_neg (by rw [List.length_append]; omega), List.take_left, List.drop_left]

end DapClient

open Incremental Run DapClient

namespace DapOutput
variable {R : Int → Int → Prop} {o o' : DapOutput}

/-- What is on a connection is a beginning of the texts of some messages, each with the writes of its own. -/
theorem Exclusive.texts (inv : o.Exclusive R) (none : o.failed = []) (c : Nat) : ∃ ts : List Transmission,
    o.wire c = ts.flatMap Transmission.writes ∧ (∀ t ∈ ts, t.Begun) ∧
      (o.wire c).flatMap Sent.bytes <+: ts.flatMap fun t => t.m.text := by
  obtain ⟨ts, cur, fin⟩ := inv.finished c
  have whole : ts.flatMap (fun t => t.writes.flatMap Sent.bytes) = ts.flatMap fun t => t.m.text := by
    refine List.flatMap_congr fun t member => ?_
    rcases (fin.whole t member).whole with lost | all
    · rw [none] at lost
      exact absurd lost List.not_mem_nil
    · exact all
  have done : (ts.flatMap Transmission.writes).flatMap Sent.bytes = ts.flatMap fun t => t.m.text := by
    rw [List.flatMap_assoc, whole]
  by_cases nothing : cur = []
  · refine ⟨ts, ?_, fun t member => (fin.whole t member).toBegun, ?_⟩
    · rw [fin.wire, nothing, List.append_nil]
    · have same : (o.wire c).flatMap Sent.bytes = ts.flatMap fun t => t.m.text := by
        rw [fin.wire, nothing, List.append_nil, done]
      exact same ▸ List.prefix_rfl
  · cases held : o.mu with
    | none => exact absurd (fin.free held) nothing
    | some who =>
      obtain ⟨m, inBody, rest, sends⟩ := (inv.mutex who).mp held
      obtain ⟨-, own, text⟩ := fin.busy who m inBody rest sends
      split at text
      · have begun : (⟨m, cur⟩ : Transmission).Begun := ⟨own, _, text⟩
        refine ⟨ts ++ [⟨m, cur⟩], ?_, ?_, ?_⟩
        · rw [fin.wire, List.flatMap_append, List.flatMap_singleton]
        · intro t member
          rcases List.mem_append.mp member with old | new
          · exact (fin.whole t old).toBegun
          · rw [List.mem_singleton] at new
            exact new ▸ begun
        · rw [fin.wire, List.flatMap_append, List.flatMap_append, done, List.flatMap_singleton]
          exact (List.prefix_append_right_inj _).mpr begun.within
      · exact absurd text nothing

/-- However much of a connection has arrived and however it was cut, the client has handed on the bodies of the
messages that are whole, and keeps what there is of the next. -/
def ReadByClient (o : DapOutput) (c : Nat) : Prop :=
  ∃ ts : List Transmission, o.wire c = ts.flatMap Transmission.writes ∧ (∀ t ∈ ts, t.Begun) ∧
    ∀ chunks : List (List UInt8), chunks.flatten <+: (o.wire c).flatMap Sent.bytes → ∃ k rest,
      chunks.foldl feed ([], []) = ((ts.take k).map fun t => some (Utf8.decode t.m.json), rest) ∧
      chunks.flatten = ((ts.take k).flatMap fun t => t.m.text) ++ rest ∧
      (k = ts.length ∧ rest = [] ∨ ∃ t, ts[k]? = some t ∧ rest <+: t.m.text ∧ rest ≠ t.m.text)

theorem Exclusive.readByClient (inv : o.Exclusive R) (none : o.failed = []) (c : Nat) : o.ReadByClient c := by
  obtain ⟨ts, wire, begun, texts⟩ := inv.texts none c
  refine ⟨ts, wire, begun, fun chunks arrived => ?_⟩
  have whole : ∀ (t : Transmission) (more : List UInt8),
      framing.next (t.m.text ++ more) = some (some (Utf8.decode t.m.json), more) := fun t more => next_text t.m more
  obtain ⟨k, rest, split, drained, alternative⟩ := Framing.drain_prefix rfl whole (arrived.trans texts)
  exact ⟨k, rest, (framing.foldl_feed_flatten rfl chunks).trans drained, split, alternative⟩

/-- In every order of the two threads' steps, as long as no `send` has failed. -/
theorem messages_readByClient (es : List OutputAction) :
    Throughout Step (fun _ _ o' => o'.failed = [] → ∀ c, o'.ReadByClient c) start es := by
  refine .of_steps (Exclusive fun _ _ => True) (fun _ _ _ inv step => ?_) (start_exclusive _) es
  have inv' := inv.step step fun _ _ _ _ _ _ _ => trivial
  exact ⟨inv', fun none c => inv'.readByClient none c⟩

end DapOutput
end Blyt
