import Blyt.TableUnflatten

namespace Blyt

open Reader (Holds)

section
variable {C : LuaConf}

/-- A step either succeeds and leaves one more value, of the given kind, or fails
and leaves the stack below as it was. -/
def Unflattened.Pushes (kind : LuaObj C → Prop) (stack : List (LuaObj C)) (r : Unflattened C) : Prop :=
  (r.rc = .ok ∧ ∃ o, kind o ∧ r.stack = o :: stack) ∨ (r.rc ≠ .ok ∧ r.stack = stack)

def LuaObj.IsArray (o : LuaObj C) : Prop := ∃ a, o = .array a

def LuaObj.IsFieldValue (o : LuaObj C) : Prop := (∃ v, o = .scalar v) ∨ o.IsArray

theorem unflattenElems_pushes (tag : UInt8) (left i : Nat) (underflowed : Bool) (a : LuaTable (LuaElem C))
    (stack : List (LuaObj C)) :
    Holds (Unflattened.Pushes LuaObj.IsArray stack) (unflattenElems tag left i underflowed (.array a :: stack)) := by
  induction left generalizing i underflowed a with
  | zero => exact Or.inl ⟨rfl, _, ⟨a, rfl⟩, rfl⟩
  | succ left ih =>
    refine (Holds.trivial (takeScalar tag underflowed)).bind ?_
    rintro ⟨taken, underflowed⟩ -
    cases taken with
    | short => exact Or.inr ⟨Ltf.noConfusion, rfl⟩
    | badTag => exact Or.inr ⟨Ltf.noConfusion, rfl⟩
    | value v =>
      cases underflowed with
      | true => exact Or.inr ⟨Ltf.noConfusion, rfl⟩
      | false => exact ih (i + 1) false (a.set (.integer (i + 1)) (.scalar v))

theorem unflattenArray_pushes (underflowed : Bool) (stack : List (LuaObj C)) :
    Holds (Unflattened.Pushes LuaObj.IsArray stack) (unflattenArray underflowed stack) := by
  refine (Holds.trivial (takeU8 underflowed)).bind fun elemTag _ => ?_
  refine (Holds.trivial (takeU32 elemTag.2)).bind ?_
  rintro ⟨n, underflowed⟩ -
  cases underflowed with
  | true => exact Or.inr ⟨Ltf.noConfusion, rfl⟩
  | false => exact unflattenElems_pushes elemTag.1 n.toNat 0 false .empty stack

theorem unflattenValue_pushes (underflowed : Bool) (stack : List (LuaObj C)) :
    Holds (Unflattened.Pushes LuaObj.IsFieldValue stack) (unflattenValue underflowed stack) := by
  refine (Holds.trivial (takeU8 underflowed)).bind ?_
  rintro ⟨tag, underflowed⟩ -
  cases underflowed with
  | true => exact Or.inr ⟨Ltf.noConfusion, rfl⟩
  | false =>
    dsimp only
    rw [if_neg Bool.false_ne_true]
    split
    · refine (unflattenArray_pushes false stack).mono ?_
      rintro r (⟨ok, o, array, same⟩ | failed)
      · exact Or.inl ⟨ok, o, Or.inr array, same⟩
      · exact Or.inr failed
    · refine (Holds.trivial (takeScalar tag false)).bind ?_
      rintro ⟨taken, underflowed⟩ -
      cases taken with
      | short => exact Or.inr ⟨Ltf.noConfusion, rfl⟩
      | badTag => exact Or.inr ⟨Ltf.noConfusion, rfl⟩
      | value v => exact Or.inl ⟨rfl, _, Or.inl ⟨v, rfl⟩, rfl⟩

/-- The call returned `LTF_OK` with a table, or an error with nil. -/
def Unflattened.Settled (stack : List (LuaObj C)) (r : Unflattened C) : Prop :=
  (r.rc = .ok ∧ ∃ t, r.stack = .record t :: stack) ∨ (r.rc.code < 0 ∧ r.stack = .nil :: stack)

theorem Unflattened.Settled.failed {rc : Ltf} (failed : rc ≠ .ok) (underflowed : Bool) (stack : List (LuaObj C)) :
    Unflattened.Settled stack ⟨rc, underflowed, .nil :: stack⟩ :=
  Or.inr ⟨Ltf.code_neg failed, rfl⟩

theorem unflattenFields_settled (left : Nat) (underflowed : Bool) (t : LuaTable (LuaField C))
    (stack : List (LuaObj C)) :
    Holds (Unflattened.Settled stack) (unflattenFields left underflowed (.record t :: stack)) := by
  induction left generalizing underflowed t with
  | zero =>
    cases underflowed with
    | true => exact .failed Ltf.noConfusion _ _
    | false => exact Or.inl ⟨rfl, t, rfl⟩
  | succ left ih =>
    refine (Holds.trivial (takeU16 underflowed)).bind fun kl _ => ?_
    split
    · exact .failed Ltf.noConfusion _ _
    · refine (Holds.trivial (Reader.take kl.1.toUInt32)).bind fun piece _ => ?_
      cases piece with
      | none => exact .failed Ltf.noConfusion _ _
      | some key =>
        refine (unflattenValue_pushes kl.2 (.scalar (.string key) :: .record t :: stack)).bind fun value pushed => ?_
        rcases pushed with ⟨ok, o, (⟨v, rfl⟩ | ⟨a, rfl⟩), same⟩ | ⟨failed, same⟩
        · rw [if_neg (not_not.mpr ok), same]
          exact ih value.underflowed (t.set (.string key) (.scalar v))
        · rw [if_neg (not_not.mpr ok), same]
          exact ih value.underflowed (t.set (.string key) (.table a))
        · rw [if_pos failed, same]
          exact .failed failed _ _

theorem unflattenTable_settled (stack : List (LuaObj C)) :
    Holds (Unflattened.Settled stack) (unflattenTable stack) := by
  refine (Holds.trivial (takeU32 false)).bind ?_
  rintro ⟨nkeys, underflowed⟩ -
  cases underflowed with
  | true => exact .failed Ltf.noConfusion _ _
  | false =>
    dsimp only
    rw [if_neg Bool.false_ne_true]
    split
    · exact .failed Ltf.noConfusion _ _
    · exact unflattenFields_settled nkeys.toNat false .empty stack

theorem luaTableUnflatten_settled (src : List UInt8) (stack : List (LuaObj C)) :
    (luaTableUnflatten src stack).value.Settled stack :=
  (unflattenTable_settled stack).exec Reader.wrap32 src 0

/-- The call reads only bytes of `src`, its position neither goes back nor leaves
`src`, and it settles. -/
structure UnflattenSafe (C : LuaConf) (src : List UInt8) (stack : List (LuaObj C)) : Prop where
  reads : ∀ g ∈ (luaTableUnflatten src stack).grants, g.pos + g.len ≤ src.length
  advances : ∀ g ∈ (luaTableUnflatten src stack).grants, g.pos ≤ g.next
  inside : ∀ g ∈ (luaTableUnflatten src stack).grants, g.next ≤ src.length
  settled : (luaTableUnflatten src stack).value.Settled stack

/-- The decoder is safe on exactly those bytes which declare no piece, wherever positions are
counted without wrapping, that ends at `2 ^ 32` or later. -/
theorem unflattenSafe_iff {src : List UInt8} (word : src.length < 2 ^ 32) (stack : List (LuaObj C)) :
    UnflattenSafe C src stack ↔ ∀ e ∈ Reader.ends src (unflattenTable stack) 0, e < 2 ^ 32 := by
  rw [← Reader.exec_wrap32_sound_iff word (unflattenTable stack) (Nat.zero_le _)]
  constructor
  · intro safe g granted
    exact ⟨safe.reads g granted, safe.advances g granted, safe.inside g granted⟩
  · intro sound
    exact ⟨fun g granted => (sound g granted).1, fun g granted => (sound g granted).2.1,
      fun g granted => (sound g granted).2.2, luaTableUnflatten_settled src stack⟩

end

theorem unflattenSafe_one_field : UnflattenSafe luaConf64 [1, 0, 0, 0, 1, 0, 0x61, 4, 2, 0, 0, 0, 0x6f, 0x6b] [] :=
  (unflattenSafe_iff (by decide) []).mpr (by decide +kernel)

/-- One field with an empty key and a string of `0xfffffff5` bytes: its end wraps to
the start of the buffer. -/
def wrappingBlob : List UInt8 := [1, 0, 0, 0, 0, 0, 4, 0xf5, 0xff, 0xff, 0xff]

theorem wrappingBlob_not_safe : ¬∀ src : List UInt8, src.length < 2 ^ 32 → UnflattenSafe luaConf64 src [] := by
  intro safe
  have piece : (⟨11, 0xfffffff5, 0⟩ : Reader.Grant) ∈ (luaTableUnflatten (C := luaConf64) wrappingBlob []).grants := by
    decide +kernel
  have back := (safe wrappingBlob (by decide)).reads _ piece
  exact absurd back (by decide)

end Blyt
