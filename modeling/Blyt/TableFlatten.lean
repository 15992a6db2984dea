import Blyt.Lib.Exec
import Blyt.LuaTable

namespace Blyt

/-- The `LTF_*` result codes. -/
inductive Ltf where
  | ok
  | overflow
  | unsupportedType
  | nonStringKey
  | keyTooLong
  | arrayMixedTypes
  | arrayNonSequence
  deriving DecidableEq, Repr

def Ltf.code : Ltf → Int
  | ok => 0
  | overflow => -1
  | unsupportedType => -2
  | nonStringKey => -3
  | keyTooLong => -4
  | arrayMixedTypes => -5
  | arrayNonSequence => -6

theorem Ltf.code_neg {rc : Ltf} (failed : rc ≠ .ok) : rc.code < 0 := by
  cases rc with
  | ok => exact absurd rfl failed
  | _ => decide

def ltfTagBoolean : UInt8 := 1
def ltfTagInteger : UInt8 := 2
def ltfTagFloat : UInt8 := 3
def ltfTagString : UInt8 := 4
def ltfTagArray : UInt8 := 5

def ltfMaxKeyLen : Nat := 64
def ltfMaxFields : Nat := 32

/-- `sink_t` over a buffer of `cap` bytes. `out` are the bytes `dst[..pos]`; `stray`
says that a byte was stored at `dst[cap]` or behind it. -/
structure Sink (cap : UInt32) where
  out : List UInt8
  overflowed : Bool
  stray : Bool
  fits : stray = false → out.length ≤ cap.toNat
  deriving DecidableEq

namespace Sink
variable {cap : UInt32}

def start (cap : UInt32) : Sink cap := ⟨[], false, false, fun _ => Nat.zero_le _⟩

def pos (s : Sink cap) : UInt32 := UInt32.ofNat s.out.length

/-- Stores that the bounds check let through. -/
def store (s : Sink cap) (bytes : List UInt8) : Sink cap where
  out := s.out ++ bytes
  overflowed := s.overflowed
  stray := s.stray || decide (cap.toNat < (s.out ++ bytes).length)
  fits inside := by simpa using (Bool.or_eq_false_iff.mp inside).2

def putU8 (s : Sink cap) (v : UInt8) : Sink cap :=
  if s.pos + 1 > cap then { s with overflowed := true } else s.store [v]

def putU16 (s : Sink cap) (v : UInt16) : Sink cap :=
  (s.putU8 (v &&& 0xff).toUInt8).putU8 ((v >>> 8) &&& 0xff).toUInt8

def putU32 (s : Sink cap) (v : UInt32) : Sink cap :=
  (((s.putU8 (v &&& 0xff).toUInt8).putU8 ((v >>> 8) &&& 0xff).toUInt8).putU8
    ((v >>> 16) &&& 0xff).toUInt8).putU8 ((v >>> 24) &&& 0xff).toUInt8

def putU64 (s : Sink cap) (v : UInt64) : Sink cap :=
  (s.putU32 (v &&& 0xffffffff).toUInt32).putU32 ((v >>> 32) &&& 0xffffffff).toUInt32

/-- `put_bytes`, of the first `n` bytes of `src`. -/
def putBytes (s : Sink cap) (src : List UInt8) (n : UInt32) : Sink cap :=
  if s.pos + n > cap then { s with overflowed := true } else s.store (src.take n.toNat)

end Sink

/-- `key_cmp`. The common first bytes are dropped on both sides, so that what is
left decides the tie. -/
def keyCmp : List UInt8 → List UInt8 → Int
  | a :: as, b :: bs => if a ≠ b then (a.toNat : Int) - b.toNat else keyCmp as bs
  | as, bs => (as.length : Int) - bs.length

/-- The inner loop of `key_sort`: the keys already sorted, last one first, make
room for `cur`. -/
def keyInsert (cur : List UInt8) : List (List UInt8) → List (List UInt8)
  | [] => [cur]
  | key :: keys => if keyCmp key cur > 0 then key :: keyInsert cur keys else cur :: key :: keys

def keySort (keys : List (List UInt8)) : List (List UInt8) :=
  (keys.foldl (fun sorted cur => keyInsert cur sorted) []).reverse

section
variable {C : LuaConf} {cap : UInt32}

def LuaScalar.tag : LuaScalar C → UInt8
  | .boolean _ => ltfTagBoolean
  | .integer _ => ltfTagInteger
  | .number _ => ltfTagFloat
  | .string _ => ltfTagString

/-- The loop of `detect_array` over the keys `1, 2, …`, of which `n` are behind it. `left` is
how far `n` is from the value at which the loop gives up. -/
def detectLoop (a : LuaTable (LuaElem C)) (tag : UInt8) (n : Nat) : (left : Nat) → Except Ltf (UInt8 × Nat)
  | 0 => .error .overflow
  | left + 1 =>
    match a.get? (.integer (n + 1)) with
    | none => .ok (tag, n)
    | some .other => .error .unsupportedType
    | some (.scalar v) =>
      if n = 0 then detectLoop a v.tag (n + 1) left
      else if v.tag ≠ tag then .error .arrayMixedTypes
      else detectLoop a tag (n + 1) left

/-- `detect_array`: the element tag and the length of a sequence. -/
def detectArray (a : LuaTable (LuaElem C)) : Except Ltf (UInt8 × Nat) :=
  match detectLoop a 0 0 0xffffffff with
  | .error rc => .error rc
  | .ok (tag, n) => if a.size ≠ n then .error .arrayNonSequence else .ok (tag, n)

/-- The value of one scalar, without its tag. -/
def emitPayload (v : LuaScalar C) (out : Sink cap) : Sink cap :=
  match v with
  | .boolean b => out.putU8 (if b then 1 else 0)
  | .integer v => out.putU64 (C.toInt64 v)
  | .number x => out.putU64 (canonicalizeNan64 (C.toDouble x))
  | .string bytes => (out.putU32 (UInt32.ofNat bytes.length)).putBytes bytes (UInt32.ofNat bytes.length)

/-- One turn of the loop of `emit_array`. Every element it meets is a scalar with
the tag that `detect_array` found. -/
def emitElem (a : LuaTable (LuaElem C)) (out : Sink cap) (i : Nat) : Sink cap :=
  match a.get? (.integer (i + 1)) with
  | some (.scalar v) => emitPayload v out
  | _ => out

def emitArray (a : LuaTable (LuaElem C)) (out : Sink cap) : Ltf × Sink cap :=
  match detectArray a with
  | .error rc => (rc, out)
  | .ok (elemTag, n) =>
    (.ok, (List.range n).foldl (emitElem a)
      (((out.putU8 ltfTagArray).putU8 elemTag).putU32 (UInt32.ofNat n)))

/-- `emit_value`; `none` is nil. -/
def emitValue (v : Option (LuaField C)) (out : Sink cap) : Ltf × Sink cap :=
  match v with
  | some (.scalar v) => (.ok, emitPayload v (out.putU8 v.tag))
  | some (.table a) => emitArray a out
  | _ => (.unsupportedType, out)

/-- Phase 1 of `lua_table_flatten`: the keys in the order of `lua_next`. -/
def collectKeys : List (Sigma fun _ : LuaKey => LuaField C) → List (List UInt8) → Except Ltf (List (List UInt8))
  | [], keys => .ok keys
  | ⟨.string bytes, _⟩ :: rest, keys =>
    if keys.length ≥ ltfMaxFields then .error .overflow
    else if bytes.length > ltfMaxKeyLen then .error .keyTooLong
    else collectKeys rest (keys ++ [bytes])
  | _ :: _, _ => .error .nonStringKey

/-- Phase 3 of `lua_table_flatten`: the fields in the order of the sorted keys. -/
def emitFields (t : LuaTable (LuaField C)) : List (List UInt8) → Sink cap → Ltf × Sink cap
  | [], out => (.ok, out)
  | key :: keys, out =>
    let keyed := (out.putU16 (UInt16.ofNat key.length)).putBytes key (UInt32.ofNat key.length)
    match emitValue (t.get? (.string key)) keyed with
    | (.ok, out) => if out.overflowed then (.overflow, out) else emitFields t keys out
    | (rc, out) => (rc, out)

/-- What the caller of `lua_table_flatten` sees: the result code, `*out_len`, and
`dst` as far as it was written. -/
structure Flattened where
  rc : Ltf
  outLen : UInt32
  written : List UInt8
  deriving DecidableEq, Repr

def luaTableFlatten (v : LuaArg C) (cap : UInt32) : Exec Flattened :=
  match v with
  | .other => .returns ⟨.unsupportedType, 0, []⟩
  | .table t =>
    match collectKeys t.entries [] with
    | .error rc => .returns ⟨rc, 0, []⟩
    | .ok keys =>
      let (rc, out) := emitFields t (keySort keys) ((Sink.start cap).putU32 (UInt32.ofNat keys.length))
      if out.stray then .outOfBounds
      else if rc ≠ .ok then .returns ⟨rc, 0, out.out⟩
      else if out.overflowed then .returns ⟨.overflow, 0, out.out⟩
      else .returns ⟨.ok, out.pos, out.out⟩

end

end Blyt
