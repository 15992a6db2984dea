import Blyt.TableRoundTrip
import Blyt.UnflattenSafety

namespace Blyt
open Reader (Read Holds)

section
variable {C : LuaConf}

/-- What a step of the decoder comes to when no stack is kept: the value or the result code, and the flag. -/
abbrev Decoded (α : Type) := Except Ltf α × Bool

def decodeElems (elemTag : UInt8) :
    (left i : Nat) → (underflowed : Bool) → LuaTable (LuaElem C) → Read (Decoded (LuaTable (LuaElem C)))
  | 0, _, underflowed, a => pure (.ok a, underflowed)
  | left + 1, i, underflowed, a => do
    match ← takeScalar elemTag underflowed with
    | (.short, underflowed) => pure (.error .overflow, underflowed)
    | (.badTag, underflowed) => pure (.error .unsupportedType, underflowed)
    | (.value v, underflowed) =>
      if underflowed then pure (.error .overflow, underflowed)
      else decodeElems elemTag left (i + 1) underflowed (a.set (.integer (i + 1)) (.scalar v))

def decodeArray (underflowed : Bool) : Read (Decoded (LuaTable (LuaElem C))) := do
  let elemTag ← takeU8 underflowed
  let n ← takeU32 elemTag.2
  if n.2 then pure (.error .overflow, n.2) else decodeElems elemTag.1 n.1.toNat 0 n.2 .empty

def decodeValue (underflowed : Bool) : Read (Decoded (LuaField C)) := do
  let tag ← takeU8 underflowed
  if tag.2 then pure (.error .overflow, tag.2)
  else if tag.1 = ltfTagArray then do
    let a ← decodeArray tag.2
    pure (a.1.map .table, a.2)
  else match ← takeScalar tag.1 tag.2 with
    | (.short, underflowed) => pure (.error .overflow, underflowed)
    | (.badTag, underflowed) => pure (.error .unsupportedType, underflowed)
    | (.value v, underflowed) => pure (.ok (.scalar v), underflowed)

def decodeFields : (left : Nat) → (underflowed : Bool) → LuaTable (LuaField C) → Read (Decoded (LuaTable (LuaField C)))
  | 0, underflowed, t => pure (if underflowed then .error .overflow else .ok t, underflowed)
  | left + 1, underflowed, t => do
    let kl ← takeU16 underflowed
    if kl.2 ∨ kl.1.toNat > ltfMaxKeyLen then pure (.error .overflow, kl.2)
    else match ← Reader.take kl.1.toUInt32 with
      | none => pure (.error .overflow, kl.2)
      | some key =>
        match ← decodeValue kl.2 with
        | (.error rc, underflowed) => pure (.error rc, underflowed)
        | (.ok f, underflowed) => decodeFields left underflowed (t.set (.string key) f)

/-- The table that bytes spell, read without a stack. -/
def decodeTable : Read (Decoded (LuaTable (LuaField C))) := do
  let nkeys ← takeU32 false
  if nkeys.2 then pure (.error .overflow, nkeys.2)
  else if nkeys.1.toNat > ltfMaxFields then pure (.error .overflow, nkeys.2)
  else decodeFields nkeys.1.toNat nkeys.2 .empty

def luaTableDecode (src : List UInt8) : Except Ltf (LuaTable (LuaField C)) :=
  (Reader.exec Reader.wrap32 src decodeTable 0).value.1

/-- A value pushed on the stack, or the stack left as it was. -/
def Decoded.pushed {α : Type} (obj : α → LuaObj C) (stack : List (LuaObj C)) : Decoded α → Unflattened C
  | (.ok a, underflowed) => ⟨.ok, underflowed, obj a :: stack⟩
  | (.error rc, underflowed) => ⟨rc, underflowed, stack⟩

/-- A table pushed on the stack, or nil in its place. -/
def Decoded.settled (stack : List (LuaObj C)) : Decoded (LuaTable (LuaField C)) → Unflattened C
  | (.ok t, underflowed) => ⟨.ok, underflowed, .record t :: stack⟩
  | (.error rc, underflowed) => ⟨rc, underflowed, .nil :: stack⟩

theorem unflattenElems_eq (tag : UInt8) (left i : Nat) (underflowed : Bool) (a : LuaTable (LuaElem C))
    (stack : List (LuaObj C)) :
    unflattenElems tag left i underflowed (.array a :: stack) =
      decodeElems tag left i underflowed a >>= fun r => pure (r.pushed .array stack) := by
  induction left generalizing i underflowed a with
  | zero => rfl
  | succ left ih =>
    rw [unflattenElems, decodeElems, bind_assoc]
    refine bind_congr ?_
    rintro ⟨taken, underflowed⟩
    cases taken with
    | short => rfl
    | badTag => rfl
    | value v =>
      cases underflowed with
      | true => rfl
      | false => exact ih (i + 1) false (a.set (.integer (i + 1)) (.scalar v))

theorem unflattenArray_eq (underflowed : Bool) (stack : List (LuaObj C)) :
    unflattenArray underflowed stack = decodeArray underflowed >>= fun r => pure (r.pushed .array stack) := by
  rw [unflattenArray, decodeArray, bind_assoc]
  refine bind_congr fun elemTag => ?_
  rw [bind_assoc]
  refine bind_congr ?_
  rintro ⟨n, underflowed⟩
  cases underflowed with
  | true => rfl
  | false => exact unflattenElems_eq elemTag.1 n.toNat 0 false .empty stack

theorem unflattenValue_eq (underflowed : Bool) (stack : List (LuaObj C)) :
    unflattenValue underflowed stack = decodeValue underflowed >>= fun r => pure (r.pushed LuaField.obj stack) := by
  rw [unflattenValue, decodeValue, bind_assoc]
  refine bind_congr ?_
  rintro ⟨tag, underflowed⟩
  cases underflowed with
  | true => rfl
  | false =>
    dsimp only
    rw [if_neg Bool.false_ne_true, if_neg Bool.false_ne_true]
    split
    · rw [unflattenArray_eq, bind_assoc]
      refine bind_congr ?_
      rintro ⟨a | a, underflowed⟩
      · rfl
      · rfl
    · rw [bind_assoc]
      refine bind_congr ?_
      rintro ⟨taken, underflowed⟩
      cases taken with
      | short => rfl
      | badTag => rfl
      | value v => rfl

/-- What a table is set to is a scalar or an array. -/
def LuaField.IsValue (f : LuaField C) : Prop := f ≠ .other

theorem rawSet_value {f : LuaField C} (value : f.IsValue) (key : List UInt8) (t : LuaTable (LuaField C))
    (stack : List (LuaObj C)) :
    rawSet (f.obj :: .scalar (.string key) :: .record t :: stack) = .record (t.set (.string key) f) :: stack := by
  cases f with
  | scalar v => rfl
  | table a => rfl
  | other => exact absurd rfl value

/-- A value for a table, or an error. -/
def Decoded.IsAnswer (r : Decoded (LuaField C)) : Prop :=
  match r.1 with
  | .ok f => f.IsValue
  | .error rc => rc ≠ .ok

theorem decodeValue_isAnswer (underflowed : Bool) :
    Holds (fun r : Decoded (LuaField C) => r.IsAnswer) (decodeValue underflowed) := by
  have pushes := unflattenValue_pushes underflowed ([] : List (LuaObj C))
  rw [unflattenValue_eq] at pushes
  refine pushes.of_bind.mono ?_
  rintro ⟨rc | f, underflowed⟩ (⟨-, o, kind, same⟩ | ⟨failed, same⟩)
  · cases same
  · exact failed
  · cases same
    rintro rfl
    rcases kind with ⟨v, same⟩ | ⟨a, same⟩
    · cases same
    · cases same
  · cases same

theorem unflattenFields_eq (left : Nat) (underflowed : Bool) (t : LuaTable (LuaField C)) (stack : List (LuaObj C)) :
    unflattenFields left underflowed (.record t :: stack) =
      decodeFields left underflowed t >>= fun r => pure (r.settled stack) := by
  induction left generalizing underflowed t with
  | zero => cases underflowed <;> rfl
  | succ left ih =>
    rw [unflattenFields, decodeFields, bind_assoc]
    refine bind_congr fun kl => ?_
    split
    · rfl
    · rw [bind_assoc]
      refine bind_congr fun piece => ?_
      cases piece with
      | none => rfl
      | some key =>
        dsimp only
        rw [unflattenValue_eq, bind_assoc, bind_assoc]
        refine (decodeValue_isAnswer kl.2).bind_congr ?_
        rintro ⟨rc | f, underflowed⟩ answer
        · have failed : rc ≠ .ok := answer
          rw [pure_bind, Decoded.pushed, if_pos failed]
          rfl
        · rw [pure_bind, Decoded.pushed, if_neg (not_not.mpr rfl), rawSet_value answer]
          exact ih underflowed (t.set (.string key) f)

/-- The decoder with the stack is the decoder without it, its table or nil pushed at the end. -/
theorem unflattenTable_eq (stack : List (LuaObj C)) :
    unflattenTable stack = decodeTable >>= fun r => pure (r.settled stack) := by
  rw [unflattenTable, decodeTable, bind_assoc]
  refine bind_congr ?_
  rintro ⟨nkeys, underflowed⟩
  cases underflowed with
  | true => rfl
  | false =>
    dsimp only
    rw [if_neg Bool.false_ne_true, if_neg Bool.false_ne_true]
    split
    · rfl
    · exact unflattenFields_eq nkeys.toNat false .empty stack

/-- The stack discipline of `lua_table_unflatten`: on the stack it found, untouched, lies the table that the
bytes spell or, with the error they run into, nil. -/
theorem luaTableUnflatten_stack (src : List UInt8) (stack : List (LuaObj C)) :
    match luaTableDecode (C := C) src with
    | .ok t => (luaTableUnflatten src stack).value.rc = .ok ∧ (luaTableUnflatten src stack).value.stack = .record t :: stack
    | .error rc => (luaTableUnflatten src stack).value.rc = rc ∧ rc.code < 0 ∧
        (luaTableUnflatten src stack).value.stack = .nil :: stack := by
  have settled := luaTableUnflatten_settled src stack
  have same : (luaTableUnflatten src stack).value =
      (Reader.exec Reader.wrap32 src (decodeTable (C := C)) 0).value.settled stack := by
    rw [luaTableUnflatten, unflattenTable_eq, Reader.exec_bind]
    rfl
  rw [luaTableDecode]
  rw [same] at settled ⊢
  generalize (Reader.exec Reader.wrap32 src (decodeTable (C := C)) 0).value = decoded at settled ⊢
  obtain ⟨rc | t, underflowed⟩ := decoded
  · rcases settled with ⟨-, t, pushed⟩ | ⟨failed, -⟩
    · cases pushed
    · exact ⟨rfl, failed, rfl⟩
  · exact ⟨rfl, rfl⟩

end
end Blyt
