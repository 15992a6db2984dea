import Mathlib.Data.List.Basic

namespace Utf8

/-- The text is the encodings of some characters, one behind the other. -/
def Valid (text : List UInt8) : Prop := ∃ chars : List Char, chars.flatMap String.utf8EncodeChar = text

/-- A byte below 128 is a character of its own; those of all others are above. -/
theorem utf8EncodeChar_cases (c : Char) :
    (∃ b, String.utf8EncodeChar c = [b] ∧ b < 128) ∨ ∀ b ∈ String.utf8EncodeChar c, 128 ≤ b := by
  have high (n : Nat) (low : 128 ≤ n) (small : n < 256) : (128 : UInt8) ≤ UInt8.ofNat n := by
    rw [UInt8.le_iff_toNat_le, UInt8.toNat_ofNat', Nat.mod_eq_of_lt small]
    exact low
  fun_cases String.utf8EncodeChar c with
  | case1 v one =>
    refine .inl ⟨UInt8.ofNat v, rfl, ?_⟩
    rw [UInt8.lt_iff_toNat_lt, UInt8.toNat_ofNat', Nat.mod_eq_of_lt (by omega)]
    exact Nat.lt_succ_of_le one
  | case2 v _ two =>
    refine .inr fun b member => ?_
    simp only [List.mem_cons, List.not_mem_nil, or_false] at member
    rcases member with rfl | rfl
    all_goals exact high _ (by omega) (by omega)
  | case3 v _ _ three =>
    refine .inr fun b member => ?_
    simp only [List.mem_cons, List.not_mem_nil, or_false] at member
    rcases member with rfl | rfl | rfl
    all_goals exact high _ (by omega) (by omega)
  | case4 v _ _ four =>
    refine .inr fun b member => ?_
    simp only [List.mem_cons, List.not_mem_nil, or_false] at member
    rcases member with rfl | rfl | rfl | rfl
    all_goals exact high _ (by omega) (by omega)

theorem encode_of_ascii {c : UInt8} (ascii : c < 128) : ∃ char, String.utf8EncodeChar char = [c] := by
  have all : ∀ i : Fin 128, String.utf8EncodeChar (Char.ofNat i) = [UInt8.ofNat i] := by decide +kernel
  refine ⟨_, (all ⟨c.toNat, UInt8.lt_iff_toNat_lt.mp ascii⟩).trans ?_⟩
  rw [UInt8.ofNat_toNat]

theorem valid_nil : Valid [] := ⟨[], rfl⟩

theorem Valid.append {a b : List UInt8} (front : Valid a) (back : Valid b) : Valid (a ++ b) := by
  obtain ⟨first, rfl⟩ := front
  obtain ⟨second, rfl⟩ := back
  exact ⟨first ++ second, List.flatMap_append⟩

/-- No character reaches over a byte below 128. -/
theorem valid_append_cons {c : UInt8} (ascii : c < 128) {a b : List UInt8} :
    Valid (a ++ c :: b) ↔ Valid a ∧ Valid b := by
  constructor
  · rintro ⟨chars, text⟩
    induction chars generalizing a with
    | nil => exact absurd text.symm (List.append_ne_nil_of_right_ne_nil _ (List.cons_ne_nil _ _))
    | cons char chars ih =>
      rw [List.flatMap_cons] at text
      rcases List.append_eq_append_iff.mp text with ⟨a', rfl, rest⟩ | ⟨c', whole, rest⟩
      · obtain ⟨front, back⟩ := ih rest
        exact ⟨.append ⟨[char], List.flatMap_singleton ..⟩ front, back⟩
      · -- the byte is within the first character, or right behind it
        cases c' with
        | nil =>
          obtain ⟨front, back⟩ := ih (a := []) rest.symm
          rw [List.append_nil] at whole
          exact ⟨⟨[char], (List.flatMap_singleton ..).trans whole⟩, back⟩
        | cons d c' =>
          obtain ⟨rfl, rfl⟩ := List.cons.inj rest
          rcases utf8EncodeChar_cases char with ⟨d, single, _⟩ | large
          · rw [single] at whole
            cases a with
            | nil =>
              obtain ⟨-, rfl⟩ := List.cons.inj whole
              exact ⟨valid_nil, chars, rfl⟩
            | cons _ a =>
              have none := (List.cons.inj whole).2
              exact absurd none.symm (List.append_ne_nil_of_right_ne_nil _ (List.cons_ne_nil _ _))
          · have high := large c (whole ▸ List.mem_append_right _ List.mem_cons_self)
            exact absurd ascii (UInt8.not_lt.mpr high)
  · rintro ⟨front, back⟩
    obtain ⟨char, single⟩ := encode_of_ascii ascii
    have one : Valid [c] := ⟨[char], (List.flatMap_singleton ..).trans single⟩
    exact front.append (one.append back)

theorem valid_cons {c : UInt8} (ascii : c < 128) {b : List UInt8} : Valid (c :: b) ↔ Valid b := by
  have split := valid_append_cons ascii (a := []) (b := b)
  rw [List.nil_append] at split
  exact split.trans (and_iff_right valid_nil)

theorem valid_append {front : List UInt8} (ascii : ∀ c ∈ front, c < 128) {b : List UInt8} :
    Valid (front ++ b) ↔ Valid b := by
  induction front with
  | nil => exact Iff.rfl
  | cons c front ih =>
    obtain ⟨first, others⟩ := List.forall_mem_cons.mp ascii
    exact (valid_cons first).trans (ih others)

theorem valid_of_ascii {text : List UInt8} (ascii : ∀ c ∈ text, c < 128) : Valid text := by
  have whole := (valid_append ascii).mpr valid_nil
  rwa [List.append_nil] at whole

/-! Decoding, with U+FFFD for what is not valid. -/

/-- A character of which so many bytes are missing. The next has to be in the range. -/
structure Pending where
  needed : Nat
  codePoint : Nat
  lower : UInt8
  upper : UInt8

/-- The first byte of a character. -/
def lead (b : UInt8) : List Char × Option Pending :=
  if b < 0x80 then ([Char.ofNat b.toNat], none)
  else if 0xc2 ≤ b ∧ b ≤ 0xdf then ([], some ⟨1, b.toNat % 32, 0x80, 0xbf⟩)
  else if 0xe0 ≤ b ∧ b ≤ 0xef then
    ([], some ⟨2, b.toNat % 16, if b = 0xe0 then 0xa0 else 0x80, if b = 0xed then 0x9f else 0xbf⟩)
  else if 0xf0 ≤ b ∧ b ≤ 0xf4 then
    ([], some ⟨3, b.toNat % 8, if b = 0xf0 then 0x90 else 0x80, if b = 0xf4 then 0x8f else 0xbf⟩)
  else ([Char.ofNat 0xfffd], none)

def next : Option Pending → UInt8 → List Char × Option Pending
  | none, b => lead b
  | some p, b =>
    if p.lower ≤ b ∧ b ≤ p.upper then
      if p.needed = 1 then ([Char.ofNat (p.codePoint * 64 + b.toNat % 64)], none)
      else ([], some ⟨p.needed - 1, p.codePoint * 64 + b.toNat % 64, 0x80, 0xbf⟩)
    else (Char.ofNat 0xfffd :: (lead b).1, (lead b).2)

def decodeFrom : Option Pending → List UInt8 → List Char
  | none, [] => []
  | some _, [] => [Char.ofNat 0xfffd]
  | p, b :: bs => (next p b).1 ++ decodeFrom (next p b).2 bs

def decode (text : List UInt8) : List Char := decodeFrom none text

theorem decode_ascii {text : List UInt8} (ascii : ∀ c ∈ text, c < 128) :
    decode text = text.map fun c => Char.ofNat c.toNat := by
  induction text with
  | nil => rfl
  | cons c text ih =>
    obtain ⟨first, others⟩ := List.forall_mem_cons.mp ascii
    have one : lead c = ([Char.ofNat c.toNat], none) := if_pos first
    rw [List.map_cons, ← ih others, decode, decodeFrom, next, one]
    rfl

end Utf8
