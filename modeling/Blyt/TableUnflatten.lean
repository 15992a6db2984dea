import Blyt.Lib.Reader
import Blyt.TableFlatten

namespace Blyt

open Reader (Read)

/-- `take_u8`. The flag is `underflowed`. -/
def takeU8 (underflowed : Bool) : Read (UInt8 × Bool) := do
  match ← Reader.take 1 with
  | none => pure (0, true)
  | some piece => pure (piece.headD 0, underflowed)

def takeU16 (underflowed : Bool) : Read (UInt16 × Bool) := do
  let a ← takeU8 underflowed
  let b ← takeU8 a.2
  pure (a.1.toUInt16 ||| (b.1.toUInt16 <<< 8), b.2)

def takeU32 (underflowed : Bool) : Read (UInt32 × Bool) := do
  let a ← takeU8 underflowed
  let b ← takeU8 a.2
  let c ← takeU8 b.2
  let d ← takeU8 c.2
  pure (a.1.toUInt32 ||| (b.1.toUInt32 <<< 8) ||| (c.1.toUInt32 <<< 16) ||| (d.1.toUInt32 <<< 24), d.2)

def takeU64 (underflowed : Bool) : Read (UInt64 × Bool) := do
  let lo ← takeU32 underflowed
  let hi ← takeU32 lo.2
  pure (lo.1.toUInt64 ||| (hi.1.toUInt64 <<< 32), hi.2)

section
variable {C : LuaConf}

inductive LuaObj (C : LuaConf) where
  | nil
  | scalar (v : LuaScalar C)
  | array (a : LuaTable (LuaElem C))
  | record (t : LuaTable (LuaField C))

/-- `lua_rawset(L, -3)` on a record. -/
def rawSet : List (LuaObj C) → List (LuaObj C)
  | .scalar v :: .scalar (.string key) :: .record t :: stack => .record (t.set (.string key) (.scalar v)) :: stack
  | .array a :: .scalar (.string key) :: .record t :: stack => .record (t.set (.string key) (.table a)) :: stack
  | stack => stack

/-- `lua_rawseti(L, -2, i)` on an array. -/
def rawSetI (i : Int) : List (LuaObj C) → List (LuaObj C)
  | .scalar v :: .array a :: stack => .array (a.set (.integer i) (.scalar v)) :: stack
  | stack => stack

/-- What the two switches over a tag come to: a value, a string that is not all
there, or a tag they do not know. -/
inductive Taken (C : LuaConf) where
  | value (v : LuaScalar C)
  | short
  | badTag

/-- The four scalar cases of the switch over a tag. -/
def takeScalar (tag : UInt8) (underflowed : Bool) : Read (Taken C × Bool) :=
  if tag = ltfTagBoolean then do
    let b ← takeU8 underflowed
    pure (.value (.boolean (b.1 != 0)), b.2)
  else if tag = ltfTagInteger then do
    let v ← takeU64 underflowed
    pure (.value (.integer (C.ofInt64 v.1)), v.2)
  else if tag = ltfTagFloat then do
    let v ← takeU64 underflowed
    pure (.value (.number (C.ofDouble v.1)), v.2)
  else if tag = ltfTagString then do
    let sl ← takeU32 underflowed
    match ← Reader.take sl.1 with
    | none => pure (.short, true)
    | some piece => pure (.value (.string piece), sl.2)
  else pure (.badTag, underflowed)

/-- The state a step of the decoder leaves: its result code, the flag, and the Lua
stack, topmost value first. -/
structure Unflattened (C : LuaConf) where
  rc : Ltf
  underflowed : Bool
  stack : List (LuaObj C)

/-- The loop of `unflatten_array`: `left` elements after the first `i`. -/
def unflattenElems (elemTag : UInt8) :
    (left i : Nat) → (underflowed : Bool) → List (LuaObj C) → Read (Unflattened C)
  | 0, _, underflowed, stack => pure ⟨.ok, underflowed, stack⟩
  | left + 1, i, underflowed, stack => do
    match ← takeScalar elemTag underflowed with
    | (.short, underflowed) => pure ⟨.overflow, underflowed, stack.drop 1⟩
    | (.badTag, underflowed) => pure ⟨.unsupportedType, underflowed, stack.drop 1⟩
    | (.value v, underflowed) =>
      let stack := .scalar v :: stack
      if underflowed then pure ⟨.overflow, underflowed, stack.drop 2⟩
      else unflattenElems elemTag left (i + 1) underflowed (rawSetI (i + 1) stack)

def unflattenArray (underflowed : Bool) (stack : List (LuaObj C)) : Read (Unflattened C) := do
  let elemTag ← takeU8 underflowed
  let n ← takeU32 elemTag.2
  if n.2 then pure ⟨.overflow, n.2, stack⟩
  else unflattenElems elemTag.1 n.1.toNat 0 n.2 (.array .empty :: stack)

def unflattenValue (underflowed : Bool) (stack : List (LuaObj C)) : Read (Unflattened C) := do
  let tag ← takeU8 underflowed
  if tag.2 then pure ⟨.overflow, tag.2, stack⟩
  else if tag.1 = ltfTagArray then unflattenArray tag.2 stack
  else match ← takeScalar tag.1 tag.2 with
    | (.short, underflowed) => pure ⟨.overflow, underflowed, stack⟩
    | (.badTag, underflowed) => pure ⟨.unsupportedType, underflowed, stack⟩
    | (.value v, underflowed) => pure ⟨.ok, underflowed, .scalar v :: stack⟩

/-- The loop of `lua_table_unflatten`, `left` fields before its end, and the check
after it. -/
def unflattenFields : (left : Nat) → (underflowed : Bool) → List (LuaObj C) → Read (Unflattened C)
  | 0, underflowed, stack =>
    if underflowed then pure ⟨.overflow, underflowed, .nil :: stack.drop 1⟩ else pure ⟨.ok, underflowed, stack⟩
  | left + 1, underflowed, stack => do
    let kl ← takeU16 underflowed
    if kl.2 ∨ kl.1.toNat > ltfMaxKeyLen then pure ⟨.overflow, kl.2, .nil :: stack.drop 1⟩
    else match ← Reader.take kl.1.toUInt32 with
      | none => pure ⟨.overflow, kl.2, .nil :: stack.drop 1⟩
      | some key =>
        let value ← unflattenValue kl.2 (.scalar (.string key) :: stack)
        if value.rc ≠ .ok then pure ⟨value.rc, value.underflowed, .nil :: value.stack.drop 2⟩
        else unflattenFields left value.underflowed (rawSet value.stack)

/-- The body of `lua_table_unflatten`. -/
def unflattenTable (stack : List (LuaObj C)) : Read (Unflattened C) := do
  let nkeys ← takeU32 false
  if nkeys.2 then pure ⟨.overflow, nkeys.2, .nil :: stack⟩
  else if nkeys.1.toNat > ltfMaxFields then pure ⟨.overflow, nkeys.2, .nil :: stack⟩
  else unflattenFields nkeys.1.toNat nkeys.2 (.record .empty :: stack)

/-- `lua_table_unflatten(L, src, n)`: the result code and the stack, with the pieces
of `src` that it read. -/
def luaTableUnflatten (src : List UInt8) (stack : List (LuaObj C)) : Reader.Outcome (Unflattened C) :=
  Reader.exec Reader.wrap32 src (unflattenTable stack) 0

end

end Blyt
