import Blyt.FlattenDeterminism
import Blyt.TableRoundTrip
import Blyt.TrackedRegions

namespace Blyt

section
variable {C : LuaConf}

/-- `console.lua_table_flatten(ctx)`: the bytes, or the code behind the error text. -/
def consoleTableFlatten (ctx : LuaTable (LuaField C)) : Exec (Except Ltf (List UInt8)) := do
  let r ← luaTableFlatten (.table ctx) (UInt32.ofNat persistentScriptSlotBytes)
  if r.rc.code < 0 then return .error r.rc
  return .ok (r.written.take r.outLen.toNat)

/-- `console.lua_table_unflatten(bytes)`. The length of the string is handed on as a
`uint32_t`; a read outside the string leaves nothing known. -/
def consoleTableUnflatten (C : LuaConf) (bytes : List UInt8) : Exec (Except Ltf (LuaTable (LuaField C))) :=
  let src := bytes.take (bytes.length % 2 ^ 32)
  let out := luaTableUnflatten src []
  if ∀ g ∈ out.grants, g.Sound src then
    match out.value.stack with
    | .record t :: _ => .returns (.ok t)
    | _ => .returns (.error out.value.rc)
  else .outOfBounds

theorem canonicalizeNan64_received (x : C.Number) :
    canonicalizeNan64 (C.toDouble (if IsNan64 (C.toDouble x) then C.ofDouble canonicalQnan64Bits else x)) =
      canonicalizeNan64 (C.toDouble x) := by
  split
  · rename_i nan
    rw [canonicalizeNan64_eq, if_pos C.isNan64_canonical, canonicalizeNan64_eq, if_pos nan]
  · rfl

/-- What the wire kept of a scalar is written like the scalar. -/
theorem LuaScalar.alike_received (v : LuaScalar C) : v.Alike v.received := by
  cases v with
  | boolean b => exact .refl _
  | integer v => exact .refl _
  | number x =>
    refine ⟨rfl, fun out => ?_⟩
    exact congrArg out.putU64 (canonicalizeNan64_received x).symm
  | string bytes =>
    refine ⟨rfl, fun out => ?_⟩
    have length : (bytes.take (bytes.length % 2 ^ 32)).length = bytes.length % 2 ^ 32 := by
      rw [List.length_take]
      exact min_eq_left (Nat.mod_le ..)
    have word : UInt32.ofNat (bytes.length % 2 ^ 32) = UInt32.ofNat bytes.length := by
      rw [← UInt32.toNat_inj, UInt32.toNat_ofNat', UInt32.toNat_ofNat', Nat.mod_mod]
    have whole : (bytes.take (bytes.length % 2 ^ 32)).take (UInt32.ofNat bytes.length).toNat =
        bytes.take (UInt32.ofNat bytes.length).toNat := by
      rw [UInt32.toNat_ofNat', List.take_take, Nat.min_self]
    simp only [emitPayload, received, Sink.putBytes, length, word, whole]

theorem LuaField.Maps.alike {f f' : LuaField C} (maps : f.Maps LuaScalar.received f') : f.Alike f' := by
  cases maps with
  | scalar v => exact .scalar v.alike_received
  | @array a a' same =>
    refine .table fun k => ?_
    rw [same]
    cases a.get? k with
    | none => exact .none
    | some e =>
      cases e with
      | other => exact .some .other
      | scalar v => exact .some (.scalar v.alike_received)

/-- Bytes that `console.lua_table_flatten` hands out. -/
def IsBlob (C : LuaConf) (bytes : List UInt8) : Prop :=
  ∃ ctx : LuaTable (LuaField C), consoleTableFlatten ctx = .returns (.ok bytes)

theorem consoleTableFlatten_ok {ctx : LuaTable (LuaField C)} {bytes : List UInt8}
    (run : consoleTableFlatten ctx = .returns (.ok bytes)) :
    ∃ r, luaTableFlatten (.table ctx) 256 = .returns r ∧ r.rc = .ok ∧ r.written = bytes := by
  obtain ⟨r, flat, rest⟩ := Exec.bind_eq_returns.mp run
  split at rest
  · cases rest
  · rename_i nonneg
    have ok : r.rc = .ok := by
      by_contra failed
      exact nonneg (Ltf.code_neg failed)
    obtain ⟨-, -, -, -, -, -, -, -, length⟩ := luaTableFlatten_ok flat ok
    rw [length, List.take_length] at rest
    cases rest
    exact ⟨r, flat, ok, rfl⟩

theorem IsBlob.wire {bytes : List UInt8} (blob : IsBlob C bytes) :
    ∃ (ctx : LuaTable (LuaField C)) (keys names : List (List UInt8)), consoleTableFlatten ctx = .returns (.ok bytes) ∧
      collectKeys ctx.entries [] = .ok names ∧ WireTable ctx keys bytes ∧ bytes.length ≤ 256 := by
  obtain ⟨ctx, run⟩ := blob
  obtain ⟨r, flat, ok, rfl⟩ := consoleTableFlatten_ok run
  obtain ⟨t, names, out, same, collected, emitted, clean, written, -⟩ := luaTableFlatten_ok flat ok
  obtain ⟨keys, wire⟩ := luaTableFlatten_wire flat ok
  cases same
  refine ⟨ctx, keys, names, run, collected, wire, ?_⟩
  rw [written]
  exact out.fits clean.2

theorem IsBlob.ne_nil {bytes : List UInt8} (blob : IsBlob C bytes) : bytes ≠ [] := by
  obtain ⟨ctx, keys, names, -, -, wire, -⟩ := blob.wire
  obtain ⟨more, -, rfl⟩ := wire.fields
  exact List.cons_ne_nil _ _

/-- A blob is read as a table that gives the blob again. -/
theorem IsBlob.restores {bytes : List UInt8} (blob : IsBlob C bytes) :
    ∃ ctx, consoleTableUnflatten C bytes = .returns (.ok ctx) ∧ consoleTableFlatten ctx = .returns (.ok bytes) := by
  obtain ⟨ctx, keys, names, run, collected, wire, bound⟩ := blob.wire
  obtain ⟨ctx', value, sound, related⟩ := luaTableUnflatten_wire wire (by omega) []
  have whole : bytes.take (bytes.length % 2 ^ 32) = bytes := by
    rw [Nat.mod_eq_of_lt (by omega), List.take_length]
  have alike : ∀ k, Option.Rel LuaField.Alike (ctx.get? k) (ctx'.get? k) := fun k =>
    rel_of_rel (related k) fun f f' _ maps => maps.alike
  have perm := LuaTable.keys_perm fun k => isSome_eq_of_rel (alike k)
  refine ⟨ctx', ?_, ?_⟩
  · simp only [consoleTableUnflatten, whole, if_pos sound, value]
  · rcases collectKeys_perm perm (Unambiguous.of_ok collected) with ⟨rc, failed, -⟩ | ⟨names', names'', first, second, same⟩
    · rw [collected] at failed
      cases failed
    · rw [← run, consoleTableFlatten, consoleTableFlatten, luaTableFlatten_congr alike first second same]

end
end Blyt
