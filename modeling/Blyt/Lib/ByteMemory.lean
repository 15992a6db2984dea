import Blyt.Lib.Packed

/-! Memory as its bytes, with the 32-bit little-endian words in it. -/

namespace ByteMemory
open Packed

def write (m : Nat → UInt8) (p : Nat) (bs : List UInt8) : Nat → UInt8 :=
  fun a => if p ≤ a then bs[a - p]?.getD (m a) else m a

def fill (m : Nat → UInt8) (p n : Nat) (b : UInt8) : Nat → UInt8 := fun a => if p ≤ a ∧ a < p + n then b else m a

/-- A copy between ranges that do not overlap. -/
def copy (m : Nat → UInt8) (p q n : Nat) : Nat → UInt8 := fun a => if p ≤ a ∧ a < p + n then m (q + (a - p)) else m a

def word (m : Nat → UInt8) (p : Nat) : Nat := leNat [m p, m (p + 1), m (p + 2), m (p + 3)]

def setWord (m : Nat → UInt8) (p v : Nat) : Nat → UInt8 := write m p (leBytes 4 v)

variable {m m' : Nat → UInt8} {p a : Nat}

theorem write_outside {bs : List UInt8} (outside : a < p ∨ p + bs.length ≤ a) : write m p bs a = m a := by
  rw [write]
  split
  · rw [List.getElem?_eq_none (by omega), Option.getD_none]
  · rfl

theorem fill_outside {n : Nat} {b : UInt8} (outside : a < p ∨ p + n ≤ a) : fill m p n b a = m a :=
  if_neg fun within => by omega

theorem fill_inside {n i : Nat} {b : UInt8} (inside : i < n) : fill m p n b (p + i) = b :=
  if_pos ⟨Nat.le_add_right p i, Nat.add_lt_add_left inside p⟩

theorem copy_outside {q n : Nat} (outside : a < p ∨ p + n ≤ a) : copy m p q n a = m a :=
  if_neg fun within => by omega

theorem copy_inside {q n i : Nat} (inside : i < n) : copy m p q n (p + i) = m (q + i) := by
  rw [copy, if_pos ⟨Nat.le_add_right p i, Nat.add_lt_add_left inside p⟩, Nat.add_sub_cancel_left]

theorem setWord_outside {v : Nat} (outside : a < p ∨ p + 4 ≤ a) : setWord m p v a = m a :=
  write_outside (by rwa [leBytes_length])

theorem word_congr (same : ∀ i < 4, m (p + i) = m' (p + i)) : word m p = word m' p := by
  have first := same 0 (by omega)
  simp only [word, Nat.add_zero] at first ⊢
  rw [first, same 1 (by omega), same 2 (by omega), same 3 (by omega)]

theorem word_setWord {v : Nat} (fits : v < 2 ^ 32) : word (setWord m p v) p = v := by
  have bytes : [setWord m p v p, setWord m p v (p + 1), setWord m p v (p + 2), setWord m p v (p + 3)] = leBytes 4 v := by
    simp [setWord, write, leBytes]
  rw [word, bytes, leNat_leBytes, show (256 : Nat) ^ 4 = 2 ^ 32 by norm_num]
  exact Nat.mod_eq_of_lt fits

theorem word_setWord_apart {q v : Nat} (apart : p + 4 ≤ q ∨ q + 4 ≤ p) : word (setWord m q v) p = word m p :=
  word_congr fun i small => setWord_outside (by omega)

theorem word_lt (m : Nat → UInt8) (p : Nat) : word m p < 2 ^ 32 := by
  have small := leNat_lt [m p, m (p + 1), m (p + 2), m (p + 3)]
  exact lt_of_lt_of_eq small (by norm_num)

end ByteMemory
