import Mathlib.Data.Fin.Basic
import Mathlib.Data.List.Basic

/-! Bytes written as two hexadecimal digits each, the high half first. -/

namespace HexText

/-- The lower-case digit. -/
def digit (n : Fin 16) : UInt8 :=
  [0x30, 0x31, 0x32, 0x33, 0x34, 0x35, 0x36, 0x37, 0x38, 0x39, 0x61, 0x62, 0x63, 0x64, 0x65, 0x66].get n

/-- What a digit of either case stands for. -/
def value (c : UInt8) : Option Nat :=
  if 0x30 ≤ c ∧ c ≤ 0x39 then some (c.toNat - 0x30)
  else if 0x61 ≤ c ∧ c ≤ 0x66 then some (c.toNat - 0x61 + 10)
  else if 0x41 ≤ c ∧ c ≤ 0x46 then some (c.toNat - 0x41 + 10)
  else none

def high (b : UInt8) : Fin 16 := ⟨b.toNat / 16, Nat.div_lt_of_lt_mul b.toNat_lt⟩

def low (b : UInt8) : Fin 16 := ⟨b.toNat % 16, Nat.mod_lt _ (by decide)⟩

def pair (b : UInt8) : List UInt8 := [digit (high b), digit (low b)]

def encode (bs : List UInt8) : List UInt8 := bs.flatMap pair

/-- The byte of two values, as C puts it together. -/
def join (hi lo : Nat) : UInt8 := UInt8.ofNat (hi <<< 4 ||| lo)

/-- The text spells the bytes, with digits of either case. -/
inductive Spells : List UInt8 → List UInt8 → Prop
  | nil : Spells [] []
  | cons {c d : UInt8} {hi lo : Nat} {text bytes : List UInt8} : value c = some hi → value d = some lo →
      Spells text bytes → Spells (c :: d :: text) (join hi lo :: bytes)

/-- A digit, in upper case. -/
def upper (c : UInt8) : UInt8 := if 0x61 ≤ c ∧ c ≤ 0x66 then c - 0x20 else c

@[simp] theorem value_digit (n : Fin 16) : value (digit n) = some n.val := by
  revert n
  decide

@[simp] theorem join_high_low (b : UInt8) : join (high b) (low b) = b := by
  have small : b.toNat % 16 < 2 ^ 4 := Nat.mod_lt _ (by decide)
  have whole : (b.toNat / 16) <<< 4 + b.toNat % 16 = b.toNat := by
    rw [Nat.shiftLeft_eq]
    omega
  rw [join, high, low, ← Nat.shiftLeft_add_eq_or_of_lt small, whole, UInt8.ofNat_toNat]

@[simp] theorem encode_nil : encode [] = [] := rfl

@[simp] theorem encode_cons (b : UInt8) (bs : List UInt8) :
    encode (b :: bs) = digit (high b) :: digit (low b) :: encode bs := rfl

theorem encode_append (as bs : List UInt8) : encode (as ++ bs) = encode as ++ encode bs := List.flatMap_append

theorem digit_of_mem_encode {bs : List UInt8} {c : UInt8} (member : c ∈ encode bs) : ∃ n : Fin 16, c = digit n := by
  obtain ⟨b, -, inPair⟩ := List.mem_flatMap.mp member
  rcases List.mem_cons.mp inPair with rfl | last
  · exact ⟨high b, rfl⟩
  · rw [List.mem_singleton] at last
    exact ⟨low b, last⟩

theorem Spells.length {text bytes : List UInt8} (spells : Spells text bytes) : text.length = 2 * bytes.length := by
  induction spells with
  | nil => rfl
  | cons _ _ _ ih =>
    rw [List.length_cons, List.length_cons, List.length_cons, ih]
    omega

theorem Spells.digits {text bytes : List UInt8} (spells : Spells text bytes) :
    ∀ c ∈ text, (value c).isSome = true := by
  induction spells with
  | nil => exact fun c member => absurd member List.not_mem_nil
  | cons high low _ ih =>
    intro c member
    rcases List.mem_cons.mp member with rfl | member
    · rw [high]
      rfl
    · rcases List.mem_cons.mp member with rfl | member
      · rw [low]
        rfl
      · exact ih c member

theorem spells_encode (bs : List UInt8) : Spells (encode bs) bs := by
  induction bs with
  | nil => exact .nil
  | cons b bs ih =>
    have spells := Spells.cons (value_digit (high b)) (value_digit (low b)) ih
    rwa [join_high_low] at spells

theorem value_upper (n : Fin 16) : value (upper (digit n)) = some n.val := by
  revert n
  decide

theorem spells_upper (bs : List UInt8) : Spells ((encode bs).map upper) bs := by
  induction bs with
  | nil => exact .nil
  | cons b bs ih =>
    have spells := Spells.cons (value_upper (high b)) (value_upper (low b)) ih
    rwa [join_high_low] at spells

/-- A number in digits, no more than it needs. -/
def number (n : Nat) : List UInt8 :=
  if small : n < 16 then [digit ⟨n, small⟩] else number (n / 16) ++ [digit ⟨n % 16, Nat.mod_lt _ (by decide)⟩]

theorem digit_of_mem_number {n : Nat} {c : UInt8} (member : c ∈ number n) : ∃ d : Fin 16, c = digit d := by
  induction n using number.induct with
  | case1 n small =>
    rw [number, dif_pos small, List.mem_singleton] at member
    exact ⟨_, member⟩
  | case2 n large ih =>
    rw [number, dif_neg large, List.mem_append, List.mem_singleton] at member
    rcases member with front | last
    · exact ih front
    · exact ⟨_, last⟩

theorem number_ne_nil (n : Nat) : number n ≠ [] := by
  rw [number]
  split
  · exact List.cons_ne_nil _ _
  · exact List.append_ne_nil_of_right_ne_nil _ (List.cons_ne_nil _ _)

/-- The digits of a number, put together from the left. -/
theorem foldl_number (n : Nat) : (number n).foldl (fun v c => v * 16 + (value c).getD 0) 0 = n := by
  induction n using number.induct with
  | case1 n small =>
    rw [number, dif_pos small, List.foldl_cons, List.foldl_nil, value_digit]
    exact Nat.zero_add n
  | case2 n large ih =>
    rw [number, dif_neg large, List.foldl_append, ih, List.foldl_cons, List.foldl_nil, value_digit]
    exact Nat.div_add_mod' n 16

end HexText
