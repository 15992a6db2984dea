import Mathlib.Logic.Equiv.Basic
import Mathlib.Tactic.Ring

namespace Packed
universe u v

/-- Little-endian bytes of `n`, least significant first, cut to `k` bytes. -/
def leBytes : Nat → Nat → List UInt8
  | 0, _ => []
  | k + 1, n => UInt8.ofNat (n % 256) :: leBytes k (n / 256)

/-- The number a little-endian byte string stands for. -/
def leNat : List UInt8 → Nat
  | [] => 0
  | b :: bs => b.toNat + 256 * leNat bs

@[simp] theorem leBytes_length (k n : Nat) : (leBytes k n).length = k := by
  induction k generalizing n with
  | zero => rfl
  | succ k ih => simp [leBytes, ih]

theorem leNat_lt (bs : List UInt8) : leNat bs < 256 ^ bs.length := by
  induction bs with
  | nil => simp [leNat]
  | cons b bs ih =>
    have byte := b.toNat_lt
    simp only [leNat, List.length_cons, pow_succ]
    omega

theorem leNat_leBytes (k n : Nat) : leNat (leBytes k n) = n % 256 ^ k := by
  induction k generalizing n with
  | zero => simp [leBytes, leNat, Nat.mod_one]
  | succ k ih =>
    have low : (UInt8.ofNat (n % 256)).toNat = n % 256 := by
      simp [UInt8.toNat_ofNat']
    rw [leBytes, leNat, low, ih, pow_succ, Nat.mul_comm (256 ^ k) 256, Nat.mod_mul]

theorem leBytes_leNat (bs : List UInt8) : leBytes bs.length (leNat bs) = bs := by
  induction bs with
  | nil => rfl
  | cons b bs ih =>
    have byte := b.toNat_lt
    have low : (b.toNat + 256 * leNat bs) % 256 = b.toNat := by omega
    have high : (b.toNat + 256 * leNat bs) / 256 = leNat bs := by omega
    simp only [List.length_cons, leBytes, leNat, low, high, ih, UInt8.ofNat_toNat]

theorem leBytes_mod (k n : Nat) : leBytes k (n % 256 ^ k) = leBytes k n := by
  have value := leNat_leBytes k n
  rw [← value]
  simpa using leBytes_leNat (leBytes k n)

theorem leBytes_add (k j n : Nat) : leBytes (k + j) n = leBytes k n ++ leBytes j (n / 256 ^ k) := by
  induction k generalizing n with
  | zero => simp [leBytes]
  | succ k ih =>
    rw [Nat.add_right_comm, leBytes, ih, Nat.div_div_eq_div_mul, ← pow_succ']
    rfl

/-- A packed layout of `α`: every value is exactly `size` bytes, and every
string of that length is the bytes of one value. -/
structure Codec (α : Type u) where
  size : Nat
  encode : α → List UInt8
  decode : List UInt8 → α
  length_encode : ∀ a, (encode a).length = size
  decode_encode : ∀ a, decode (encode a) = a
  encode_decode : ∀ bs, bs.length = size → encode (decode bs) = bs

attribute [simp] Codec.length_encode Codec.decode_encode

namespace Codec
variable {α : Type u} {β : Type v}

def u8 : Codec UInt8 where
  size := 1
  encode b := [b]
  decode bs := bs.headD 0
  length_encode _ := rfl
  decode_encode _ := rfl
  encode_decode bs length := by
    obtain ⟨b, rfl⟩ := List.length_eq_one_iff.mp length
    rfl

/-- A machine word of `k` bytes, least significant byte first. -/
def word (k : Nat) (toNat : α → Nat) (ofNat : Nat → α) (toNat_lt : ∀ a, toNat a < 256 ^ k)
    (ofNat_toNat : ∀ a, ofNat (toNat a) = a) (toNat_ofNat : ∀ n < 256 ^ k, toNat (ofNat n) = n) :
    Codec α where
  size := k
  encode a := leBytes k (toNat a)
  decode bs := ofNat (leNat bs)
  length_encode _ := leBytes_length _ _
  decode_encode a := by rw [leNat_leBytes, Nat.mod_eq_of_lt (toNat_lt a), ofNat_toNat]
  encode_decode bs length := by
    subst length
    rw [toNat_ofNat _ (leNat_lt bs), leBytes_leNat]

def u16 : Codec UInt16 :=
  word 2 UInt16.toNat UInt16.ofNat UInt16.toNat_lt (fun _ => UInt16.ofNat_toNat)
    fun _ bound => UInt16.toNat_ofNat_of_lt bound

def u32 : Codec UInt32 :=
  word 4 UInt32.toNat UInt32.ofNat UInt32.toNat_lt (fun _ => UInt32.ofNat_toNat)
    fun _ bound => UInt32.toNat_ofNat_of_lt bound

def u64 : Codec UInt64 :=
  word 8 UInt64.toNat UInt64.ofNat UInt64.toNat_lt (fun _ => UInt64.ofNat_toNat)
    fun _ bound => UInt64.toNat_ofNat_of_lt bound

/-- Two members one after the other, with nothing between them. -/
def prod (c : Codec α) (d : Codec β) : Codec (α × β) where
  size := c.size + d.size
  encode p := c.encode p.1 ++ d.encode p.2
  decode bs := (c.decode (bs.take c.size), d.decode (bs.drop c.size))
  length_encode p := by simp
  decode_encode p := by
    rw [List.take_left' (c.length_encode _), List.drop_left' (c.length_encode _)]
    simp
  encode_decode bs length := by
    have head : (bs.take c.size).length = c.size := by rw [List.length_take]; omega
    have tail : (bs.drop c.size).length = d.size := by rw [List.length_drop]; omega
    rw [c.encode_decode _ head, d.encode_decode _ tail, List.take_append_drop]

/-- The same bytes read as another type. -/
def map (c : Codec α) (e : α ≃ β) : Codec β where
  size := c.size
  encode b := c.encode (e.symm b)
  decode bs := e (c.decode bs)
  length_encode _ := c.length_encode _
  decode_encode b := by simp
  encode_decode bs length := by simp [c.encode_decode bs length]

def arrayEncode (c : Codec α) : (n : Nat) → (Fin n → α) → List UInt8
  | 0, _ => []
  | n + 1, xs => c.encode (xs 0) ++ arrayEncode c n fun i => xs i.succ

def arrayDecode (c : Codec α) (n : Nat) (bs : List UInt8) (i : Fin n) : α :=
  c.decode ((bs.drop (i * c.size)).take c.size)

theorem arrayEncode_length (c : Codec α) (n : Nat) (xs : Fin n → α) :
    (arrayEncode c n xs).length = n * c.size := by
  induction n with
  | zero => simp [arrayEncode]
  | succ n ih => simp [arrayEncode, ih, Nat.succ_mul, Nat.add_comm]

theorem arrayDecode_arrayEncode (c : Codec α) (n : Nat) (xs : Fin n → α) :
    arrayDecode c n (arrayEncode c n xs) = xs := by
  induction n with
  | zero => exact funext fun i => i.elim0
  | succ n ih =>
    funext i
    refine Fin.cases ?_ (fun j => ?_) i
    · simp [arrayDecode, arrayEncode, List.take_left' (c.length_encode _)]
    · have offset : (j.val + 1) * c.size = c.size + j.val * c.size := by ring
      have rest := congrFun (ih fun k => xs k.succ) j
      simp only [arrayDecode, arrayEncode, Fin.val_succ, offset] at rest ⊢
      rw [← List.drop_drop, List.drop_left' (c.length_encode _)]
      exact rest

theorem arrayEncode_arrayDecode (c : Codec α) (n : Nat) (bs : List UInt8)
    (length : bs.length = n * c.size) : arrayEncode c n (arrayDecode c n bs) = bs := by
  induction n generalizing bs with
  | zero => simpa [arrayEncode, eq_comm] using length
  | succ n ih =>
    rw [Nat.succ_mul] at length
    have head : (bs.take c.size).length = c.size := by rw [List.length_take]; omega
    have tail : (bs.drop c.size).length = n * c.size := by rw [List.length_drop]; omega
    have shifted : (fun i : Fin n => arrayDecode c (n + 1) bs i.succ) =
        arrayDecode c n (bs.drop c.size) := by
      funext j
      simp only [arrayDecode, Fin.val_succ, List.drop_drop]
      congr 3
      ring
    rw [arrayEncode, shifted, ih _ tail]
    simp only [arrayDecode, Fin.val_zero, Nat.zero_mul, List.drop_zero]
    rw [c.encode_decode _ head, List.take_append_drop]

def array (c : Codec α) (n : Nat) : Codec (Fin n → α) where
  size := n * c.size
  encode := arrayEncode c n
  decode := arrayDecode c n
  length_encode := arrayEncode_length c n
  decode_encode := arrayDecode_arrayEncode c n
  encode_decode := arrayEncode_arrayDecode c n

end Codec
end Packed
