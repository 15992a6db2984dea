import Mathlib.Data.List.AList
import Mathlib.Algebra.GroupWithZero.Nat

namespace Blyt

/-- The bit pattern of an `f64`. -/
abbrev F64 := UInt64

def canonicalQnan64Bits : F64 := 0x7ff8000000000000

/-- `canonicalize_nan64`, on bit patterns. -/
def canonicalizeNan64 (x : F64) : F64 :=
  let expBits := (x >>> 52) &&& 0x7ff
  let frac := x &&& 0xfffffffffffff
  if expBits = 0x7ff ∧ frac ≠ 0 then canonicalQnan64Bits else x

/-- All exponent bits set and a nonzero fraction. -/
def IsNan64 (x : F64) : Prop := (x >>> 52) &&& 0x7ff = 0x7ff ∧ x &&& 0xfffffffffffff ≠ 0

instance (x : F64) : Decidable (IsNan64 x) := inferInstanceAs (Decidable (_ ∧ _))

theorem canonicalizeNan64_eq (x : F64) :
    canonicalizeNan64 x = if IsNan64 x then canonicalQnan64Bits else x := rfl

/-- The two number types Lua was built with, and the casts between them and
the `int64_t` and `double` of the C code. A cast there and back loses nothing,
except that a NaN may come back as another NaN. -/
structure LuaConf where
  Integer : Type
  Number : Type
  toInt64 : Integer → UInt64
  ofInt64 : UInt64 → Integer
  toDouble : Number → F64
  ofDouble : F64 → Number
  ofInt64_toInt64 : ∀ v, ofInt64 (toInt64 v) = v
  ofDouble_toDouble : ∀ x, ¬IsNan64 (toDouble x) → ofDouble (toDouble x) = x
  isNan64_canonical : IsNan64 (toDouble (ofDouble canonicalQnan64Bits))

attribute [simp] LuaConf.ofInt64_toInt64

/-- Lua as it comes: 64-bit integers, and `double` for a number. -/
def luaConf64 : LuaConf where
  Integer := Int64
  Number := F64
  toInt64 v := v.toUInt64
  ofInt64 u := u.toInt64
  toDouble x := x
  ofDouble x := x
  ofInt64_toInt64 _ := rfl
  ofDouble_toDouble _ _ := rfl
  isNan64_canonical := by decide

/-- A value a field or an array element can hold on its own. -/
inductive LuaScalar (C : LuaConf) where
  | boolean (b : Bool)
  | integer (v : C.Integer)
  | number (x : C.Number)
  | string (bytes : List UInt8)

namespace LuaScalar
variable {C : LuaConf}

/-- The value with every NaN replaced by the canonical one. -/
def canonical : LuaScalar C → LuaScalar C
  | .number x => .number (if IsNan64 (C.toDouble x) then C.ofDouble canonicalQnan64Bits else x)
  | v => v

theorem canonical_number (x : C.Number) :
    canonical (.number x) = .number (C.ofDouble (canonicalizeNan64 (C.toDouble x))) := by
  rw [canonical, canonicalizeNan64_eq]
  split
  · rfl
  · rename_i value
    rw [C.ofDouble_toDouble x value]

/-- What reaches the other end of the wire: a NaN as the canonical one, and of a string as
many bytes as the `u32` before it still counts. -/
def received : LuaScalar C → LuaScalar C
  | .string bytes => .string (bytes.take (bytes.length % 2 ^ 32))
  | v => v.canonical

/-- The string is shorter than `bound`; the other scalars are short. -/
def Short (bound : Nat) : LuaScalar C → Prop
  | .string bytes => bytes.length < bound
  | _ => True

theorem received_of_short {v : LuaScalar C} (short : v.Short (2 ^ 32)) : v.received = v.canonical := by
  cases v with
  | string bytes =>
    have whole : bytes.length % 2 ^ 32 = bytes.length := Nat.mod_eq_of_lt short
    rw [received, canonical, whole, List.take_length]
    nofun
  | _ => rfl

theorem Short.mono {v : LuaScalar C} {n m : Nat} (le : n ≤ m) (short : v.Short n) : v.Short m := by
  cases v with
  | string bytes => exact Nat.lt_of_lt_of_le short le
  | _ => trivial

end LuaScalar

/-- A key of a table. Lua has other keys than strings and integers (booleans,
floats, tables), told apart here by a number. -/
inductive LuaKey where
  | string (bytes : List UInt8)
  | integer (i : Int)
  | other (id : Nat)
  deriving DecidableEq

/-- A table, its entries in the order in which `lua_next` meets them. Lua keeps
fewer than `2 ^ 32` entries in one table. -/
structure LuaTable (V : Type) where
  pairs : AList fun _ : LuaKey => V
  small : pairs.entries.length < 2 ^ 32

namespace LuaTable
variable {V : Type}

def entries (t : LuaTable V) : List (Sigma fun _ : LuaKey => V) := t.pairs.entries

def size (t : LuaTable V) : Nat := t.entries.length

/-- `lua_rawget`, `lua_rawgeti`. -/
def get? (t : LuaTable V) (k : LuaKey) : Option V := t.pairs.lookup k

theorem empty_small : (∅ : AList fun _ : LuaKey => V).entries.length < 2 ^ 32 := by
  rw [AList.empty_entries, List.length_nil]
  exact Nat.two_pow_pos 32

/-- `lua_createtable`. -/
def empty : LuaTable V := ⟨∅, empty_small⟩

/-- `lua_rawset`, `lua_rawseti`. A table that would grow too large is left as it is:
Lua raises an error then. -/
def set (t : LuaTable V) (k : LuaKey) (v : V) : LuaTable V :=
  if room : (t.pairs.insert k v).entries.length < 2 ^ 32 then ⟨t.pairs.insert k v, room⟩ else t

theorem size_lt (t : LuaTable V) : t.size < 2 ^ 32 := t.small

@[simp] theorem get?_empty (k : LuaKey) : (empty : LuaTable V).get? k = none := AList.lookup_empty k

@[simp] theorem size_empty : (empty : LuaTable V).size = 0 := rfl

theorem mem_entries_iff {t : LuaTable V} {k : LuaKey} {v : V} : ⟨k, v⟩ ∈ t.entries ↔ t.get? k = some v :=
  AList.mem_lookup_iff.symm

theorem keys_nodup (t : LuaTable V) : (t.entries.map Sigma.fst).Nodup := t.pairs.keys_nodup

theorem mem_keys_iff {t : LuaTable V} {k : LuaKey} : k ∈ t.entries.map Sigma.fst ↔ ∃ v, t.get? k = some v := by
  simp only [List.mem_map, Sigma.exists, mem_entries_iff, exists_and_right, exists_eq_right]

theorem length_insert_le (t : LuaTable V) (k : LuaKey) (v : V) :
    (t.pairs.insert k v).entries.length ≤ t.size + 1 := by
  rw [AList.entries_insert, List.length_cons]
  exact Nat.succ_le_succ (List.kerase_sublist k t.pairs.entries).length_le

theorem get?_set {t : LuaTable V} (room : t.size + 1 < 2 ^ 32) (k k' : LuaKey) (v : V) :
    (t.set k v).get? k' = if k' = k then some v else t.get? k' := by
  have grown := t.length_insert_le k v
  rw [set, dif_pos (by omega)]
  split
  · rename_i same
    rw [same]
    exact AList.lookup_insert t.pairs
  · rename_i differ
    exact AList.lookup_insert_ne differ

theorem size_set_le (t : LuaTable V) (k : LuaKey) (v : V) : (t.set k v).size ≤ t.size + 1 := by
  unfold set
  split
  · exact t.length_insert_le k v
  · exact Nat.le_succ _

/-- Two tables that `lua_next` meets in another order, or that differ in their values, have
the same keys when each lookup finds something in both or in neither. -/
theorem keys_perm {W : Type} {t : LuaTable V} {u : LuaTable W}
    (same : ∀ k, (t.get? k).isSome = (u.get? k).isSome) :
    (t.entries.map Sigma.fst).Perm (u.entries.map Sigma.fst) := by
  rw [List.perm_ext_iff_of_nodup t.keys_nodup u.keys_nodup]
  intro k
  rw [mem_keys_iff, mem_keys_iff, ← Option.isSome_iff_exists, ← Option.isSome_iff_exists, same]

theorem size_eq {W : Type} {t : LuaTable V} {u : LuaTable W}
    (same : ∀ k, (t.get? k).isSome = (u.get? k).isSome) : t.size = u.size := by
  have length := (keys_perm same).length_eq
  rwa [List.length_map, List.length_map] at length

end LuaTable

/-- An element of a nested table; `other` is everything that is not a scalar. -/
inductive LuaElem (C : LuaConf) where
  | scalar (v : LuaScalar C)
  | other

/-- A field of the table to be flattened. -/
inductive LuaField (C : LuaConf) where
  | scalar (v : LuaScalar C)
  | table (a : LuaTable (LuaElem C))
  | other

/-- A value on the Lua stack that is to be flattened. -/
inductive LuaArg (C : LuaConf) where
  | table (t : LuaTable (LuaField C))
  | other

end Blyt
