import Blyt.MigrateFields

namespace Blyt
open Packed Window

/-- `lua_cart_state_layout_v0` to `lua_cart_state_layout_v4`. -/
def luaCartStateLayout : LuaStateVersion → MLayout
  | .v0 => ⟨[⟨cstr "score", .i32, 0, 4⟩, ⟨cstr "step", .i32, 4, 4⟩, ⟨cstr "combo", .i32, 8, 4⟩], 12⟩
  | .v2 => ⟨[⟨cstr "score", .i32, 0, 4⟩, ⟨cstr "step", .i32, 4, 4⟩, ⟨cstr "combo", .i32, 8, 4⟩,
      ⟨cstr "bonus", .i32, 12, 4⟩], 16⟩
  | .v3 => ⟨[⟨cstr "score", .i32, 0, 4⟩, ⟨cstr "step", .i32, 4, 4⟩, ⟨cstr "combo", .i32, 8, 4⟩], 12⟩
  | .v4 => ⟨[⟨cstr "score", .i32, 0, 4⟩, ⟨cstr "step", .i32, 4, 4⟩, ⟨cstr "combo_mult", .f32, 8, 4⟩], 12⟩

/-- `(float)v * 0.1f`, as bits: `+0.0f` for 0, and for every other value a float at least `0.1f` from zero. -/
structure ComboScale where
  mult : Int32 → UInt32
  mult_eq_zero : ∀ v, mult v = 0 ↔ v = 0

/-- `lua_cart_state_retype_combo_to_mult`. -/
def luaCartStateRetypeComboToMult (scale : ComboScale) : MretypeFn where
  run oldField oldType newField newType :=
    if oldType ≠ .i32 ∨ newType ≠ .f32 then (false, newField)
    else
      let mult := scale.mult (Codec.u32.decode (oldField.take 4)).toInt32
      (true, (Codec.u32.encode mult ++ newField.drop 4).take newField.length)
  length_run oldField oldType newField newType := by
    split
    · rfl
    · exact length_stored (Codec.length_encode ..)

theorem luaCartState_noNul : 0 ∉ ascii "lua_cart_state" := by decide

def migrateLuaL2 : MigrateRegion where
  name := some (cstr "lua_cart_state" luaCartState_noNul)
  oldSize := 12
  oldLayout := some (luaCartStateLayout .v0)
  newLayout := some (luaCartStateLayout .v2)
  onRetype := none

def migrateLuaL3 : MigrateRegion where
  name := some (cstr "lua_cart_state" luaCartState_noNul)
  oldSize := 16
  oldLayout := some (luaCartStateLayout .v2)
  newLayout := some (luaCartStateLayout .v3)
  onRetype := none

def migrateLuaL4 (scale : ComboScale) : MigrateRegion where
  name := some (cstr "lua_cart_state" luaCartState_noNul)
  oldSize := 12
  oldLayout := some (luaCartStateLayout .v3)
  newLayout := some (luaCartStateLayout .v4)
  onRetype := some (luaCartStateRetypeComboToMult scale)

/-- The edits that change the struct, `LUA_EDIT_NUM` 2 to 4. -/
inductive LuaEdit where
  | l2 | l3 | l4

/-- The version compiled into the saving and into the loading program. -/
def LuaEdit.before : LuaEdit → LuaStateVersion
  | l2 => .v0
  | l3 => .v2
  | l4 => .v3

def LuaEdit.after : LuaEdit → LuaStateVersion
  | l2 => .v2
  | l3 => .v3
  | l4 => .v4

def LuaEdit.descriptor (scale : ComboScale) : LuaEdit → MigrateRegion
  | l2 => migrateLuaL2
  | l3 => migrateLuaL3
  | l4 => migrateLuaL4 scale

section
variable (scale : ComboScale)

theorem luaCartStateRetypeComboToMult_dropsCleanly : (luaCartStateRetypeComboToMult scale).DropsCleanly :=
  .of_guard fun _ _ _ _ => rfl

/-- Each edit carries over what has its name and type in both versions, and zeroes what is new. -/
theorem LuaEdit.migrates (e : LuaEdit) {prior old : List UInt8} (prior_length : prior.length = e.after.size)
    (length : old.length = e.before.size) :
    ∃ out, migrateRegionBytes prior (luaCartStateLayout e.after) old (luaCartStateLayout e.before)
        (e.descriptor scale).onRetype = .returns (true, out) ∧
      Migrated (luaCartStateLayout e.after) old (luaCartStateLayout e.before) (e.descriptor scale).onRetype prior out := by
  have names : (luaCartStateLayout e.before).DistinctNames := by cases e <;> decide
  have newRange : (luaCartStateLayout e.after).InRange := by cases e <;> decide
  have oldRange : (luaCartStateLayout e.before).InRange := by cases e <;> decide
  have apart : (luaCartStateLayout e.after).fields.Pairwise fun f g => f.offset.toNat + f.size.toNat ≤ g.offset.toNat := by
    cases e <;> decide
  have sizes : (luaCartStateLayout e.after).totalSize.toNat = e.after.size ∧
      (luaCartStateLayout e.before).totalSize.toNat = e.before.size := by cases e <;> exact ⟨rfl, rfl⟩
  refine migrateRegionBytes_migrated names newRange oldRange (apart.imp MfieldDesc.apart_of_le) (fun callback same => ?_)
    (by rw [sizes.1, prior_length]) (by rw [sizes.2, length])
  cases e with
  | l2 => cases same
  | l3 => cases same
  | l4 =>
    cases same
    exact luaCartStateRetypeComboToMult_dropsCleanly scale

def comboField : MfieldDesc := ⟨cstr "combo", .i32, 8, 4⟩

def comboMultField : MfieldDesc := ⟨cstr "combo_mult", .f32, 8, 4⟩

/-- The combo in the bytes of a v3 region. -/
def comboOf (old : List UInt8) : Int32 := (Codec.u32.decode (comboField.bytes old)).toInt32

/-- Edit l4 turns the combo into what the callback makes of it, and carries the fields over that survive. -/
def CarriesCombo (old : List UInt8) : Prop :=
  ∀ prior : List UInt8, prior.length = LuaStateVersion.v4.size →
    ∃ out, migrateRegionBytes prior (luaCartStateLayout .v4) old (luaCartStateLayout .v3) (migrateLuaL4 scale).onRetype =
        .returns (true, out) ∧
      comboMultField.bytes out = ((luaCartStateRetypeComboToMult scale).run (comboField.bytes old) .i32 (zeros 4) .f32).2 ∧
      ∀ f ∈ (luaCartStateLayout .v4).fields, f ∈ (luaCartStateLayout .v3).fields → f.bytes out = f.bytes old

/-- No field of v3 is called `combo_mult`, so that the callback is never asked: the multiplier is zero, which is
what it should be exactly where the combo was. -/
theorem carriesCombo_iff {old : List UInt8} (length : old.length = LuaStateVersion.v3.size) :
    CarriesCombo scale old ↔ comboOf old = 0 := by
  have stranger : ∀ f ∈ (luaCartStateLayout .v3).fields, f.name ≠ comboMultField.name := by decide
  have migrates := fun (prior : List UInt8) (prior_length : prior.length = LuaStateVersion.v4.size) =>
    LuaEdit.l4.migrates scale prior_length length
  have width : (comboField.bytes old).length = 4 := readAt_length (by rw [length]; decide)
  have asked : ((luaCartStateRetypeComboToMult scale).run (comboField.bytes old) .i32 (zeros 4) .f32).2 =
      Codec.u32.encode (scale.mult (comboOf old)) := by
    have whole : (comboField.bytes old).take 4 = comboField.bytes old := List.take_of_length_le (Nat.le_of_eq width)
    show (Codec.u32.encode (scale.mult (Codec.u32.decode ((comboField.bytes old).take 4)).toInt32) ++ []).take 4 = _
    rw [whole, List.append_nil]
    exact List.take_of_length_le (Nat.le_of_eq (Codec.u32.length_encode _))
  have zero_iff : zeros 4 = Codec.u32.encode (scale.mult (comboOf old)) ↔ comboOf old = 0 := by
    rw [← scale.mult_eq_zero]
    constructor
    · intro same
      rw [← Codec.u32.decode_encode (scale.mult (comboOf old)), ← same]
      rfl
    · intro zero
      rw [zero]
      rfl
  rw [← zero_iff, CarriesCombo, asked]
  constructor
  · intro carries
    obtain ⟨out, run, migrated⟩ := migrates (List.replicate 12 0) rfl
    obtain ⟨out', run', mult, -⟩ := carries (List.replicate 12 0) rfl
    obtain rfl : out' = out := by
      have same := run'.symm.trans run
      cases same
      rfl
    exact (migrated.added comboMultField (by decide) stranger).symm.trans mult
  · intro zero prior prior_length
    obtain ⟨out, run, migrated⟩ := migrates prior prior_length
    exact ⟨out, run, (migrated.added comboMultField (by decide) stranger).trans zero,
      fun f member known => migrated.kept f member f known rfl ⟨rfl, rfl⟩⟩

end

/-- The scale where a test needs it: ten tenths round to `1.0f`. -/
def scaleTen : ComboScale where
  mult v := if v = 10 then 0x3f800000 else v.toUInt32
  mult_eq_zero v := by
    split
    · rename_i ten
      rw [ten]
      decide
    · exact ⟨fun zero => congrArg UInt32.toInt32 zero, fun zero => by rw [zero]; rfl⟩

theorem carriesCombo_zero : CarriesCombo scaleTen [7, 0, 0, 0, 3, 0, 0, 0, 0, 0, 0, 0] :=
  (carriesCombo_iff scaleTen rfl).mpr (by decide)

/-- A combo of ten comes back as a multiplier of zero. -/
theorem not_carriesCombo :
    ¬∀ (scale : ComboScale) (old : List UInt8), old.length = LuaStateVersion.v3.size → CarriesCombo scale old := by
  intro carries
  obtain ⟨out, run, mult, -⟩ := carries scaleTen [7, 0, 0, 0, 3, 0, 0, 0, 10, 0, 0, 0] rfl (List.replicate 12 0) rfl
  have lost : migrateRegionBytes (List.replicate 12 0) (luaCartStateLayout .v4) [7, 0, 0, 0, 3, 0, 0, 0, 10, 0, 0, 0]
      (luaCartStateLayout .v3) (migrateLuaL4 scaleTen).onRetype = .returns (true, [7, 0, 0, 0, 3, 0, 0, 0, 0, 0, 0, 0]) := by
    decide +kernel
  rw [lost] at run
  cases run
  exact absurd mult (by decide +kernel)

end Blyt
