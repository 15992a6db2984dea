import Blyt.CartRuntimeLoad
import Blyt.MigrateEndToEnd
import Blyt.SaveStateRoundTrip

namespace Blyt
open Packed

/-- `native_state_layout_v0` to `native_state_layout_v6`. -/
def nativeStateLayout : NativeStateVersion → MLayout
  | .v0 => ⟨[⟨cstr "frame_count", .i32, 0, 4⟩, ⟨cstr "some_value", .i32, 4, 4⟩,
      ⟨cstr "unused_count", .i32, 8, 4⟩], 12⟩
  | .v3 => ⟨[⟨cstr "frame_count", .i32, 0, 4⟩, ⟨cstr "some_value", .i32, 4, 4⟩,
      ⟨cstr "unused_count", .i32, 8, 4⟩, ⟨cstr "last_score", .i32, 12, 4⟩], 16⟩
  | .v4 => ⟨[⟨cstr "frame_count", .i32, 0, 4⟩, ⟨cstr "some_value", .i32, 4, 4⟩,
      ⟨cstr "last_score", .i32, 8, 4⟩], 12⟩
  | .v5 => ⟨[⟨cstr "frame_count", .i64, 0, 8⟩, ⟨cstr "some_value", .i32, 8, 4⟩,
      ⟨cstr "last_score", .i32, 12, 4⟩], 16⟩
  | .v6 => ⟨[⟨cstr "some_value", .i32, 0, 4⟩, ⟨cstr "last_score", .i32, 4, 4⟩,
      ⟨cstr "frame_count", .i64, 8, 8⟩], 16⟩

/-- `native_state_retype_i32_to_i64`: sign extension, the eight bytes stored at
the front of the new field. -/
def nativeStateRetypeI32ToI64 : MretypeFn where
  run oldField oldType newField newType :=
    if oldType ≠ .i32 ∨ newType ≠ .i64 then (false, newField)
    else
      let v64 := (Codec.u32.decode (oldField.take 4)).toInt32.toInt64.toUInt64
      (true, (Codec.u64.encode v64 ++ newField.drop 8).take newField.length)
  length_run oldField oldType newField newType := by
    split
    · rfl
    · exact length_stored (Codec.length_encode ..)

theorem nativeState_noNul : 0 ∉ ascii "native_state" := by decide

def migrateNativeN3 : MigrateRegion where
  name := some (cstr "native_state" nativeState_noNul)
  oldSize := 12
  oldLayout := some (nativeStateLayout .v0)
  newLayout := some (nativeStateLayout .v3)
  onRetype := none

def migrateNativeN4 : MigrateRegion where
  name := some (cstr "native_state" nativeState_noNul)
  oldSize := 16
  oldLayout := some (nativeStateLayout .v3)
  newLayout := some (nativeStateLayout .v4)
  onRetype := none

def migrateNativeN5 : MigrateRegion where
  name := some (cstr "native_state" nativeState_noNul)
  oldSize := 12
  oldLayout := some (nativeStateLayout .v4)
  newLayout := some (nativeStateLayout .v5)
  onRetype := some nativeStateRetypeI32ToI64

def migrateNativeN6 : MigrateRegion where
  name := some (cstr "native_state" nativeState_noNul)
  oldSize := 16
  oldLayout := some (nativeStateLayout .v5)
  newLayout := some (nativeStateLayout .v6)
  onRetype := none

/-- The edits that change the struct, `EDIT_NUM` 3 to 6. -/
inductive NativeEdit where
  | n3 | n4 | n5 | n6

/-- The version compiled into the saving and into the loading program. -/
def NativeEdit.before : NativeEdit → NativeStateVersion
  | n3 => .v0
  | n4 => .v3
  | n5 => .v4
  | n6 => .v5

def NativeEdit.after : NativeEdit → NativeStateVersion
  | n3 => .v3
  | n4 => .v4
  | n5 => .v5
  | n6 => .v6

def NativeEdit.descriptor : NativeEdit → MigrateRegion
  | n3 => migrateNativeN3
  | n4 => migrateNativeN4
  | n5 => migrateNativeN5
  | n6 => migrateNativeN6

/-- `migrate_regions` of the loading program. -/
def NativeEdit.migrateRegions (e : NativeEdit) : MigrateTable := [some e.descriptor]

/-- `runtime_tracked_regions` of the native edit carts. -/
def nativeEditRegions (v : NativeStateVersion) : Registry Bool where
  regions := [regionFrameState false, regionNativeState v true]
  distinct := by simp [regionFrameState, regionNativeState, packedRegion]

theorem nativeStateLayout_inRange (v : NativeStateVersion) : (nativeStateLayout v).InRange := by
  cases v <;> decide

theorem nativeStateLayout_totalSize (v : NativeStateVersion) :
    (nativeStateLayout v).totalSize = UInt32.ofNat v.size := by
  cases v <;> rfl

/-- Every region but the voice queue takes any bytes of its size. -/
theorem CartRuntimeRegion.accepts {ι : Type} {r : RuntimeTrackedRegion ι} (known : CartRuntimeRegion r)
    (other : r.name ≠ cstr "voice_end_queue") (src cell : List UInt8) (length : src.length = r.size.toNat) :
    r.load src cell = (true, src) := by
  have good : ¬BadQueue (r, src) := fun bad => other bad.1
  rw [known.load_eq length, decide_eq_true good]

theorem regionNativeState_size (v : NativeStateVersion) (g : Bool) :
    (regionNativeState v g).size = UInt32.ofNat v.size := by
  cases v <;> rfl

theorem NativeEdit.findMigrateDesc_frame (e : NativeEdit) :
    findMigrateDesc e.migrateRegions (cstr "frame_state") = none := by
  cases e <;> rfl

theorem NativeEdit.findMigrateDesc_native (e : NativeEdit) :
    findMigrateDesc e.migrateRegions (cstr "native_state") = some e.descriptor := by
  cases e <;> rfl

theorem NativeEdit.descriptor_layouts (e : NativeEdit) :
    e.descriptor.oldLayout = some (nativeStateLayout e.before) ∧
      e.descriptor.newLayout = some (nativeStateLayout e.after) ∧
        e.descriptor.oldSize = UInt32.ofNat e.before.size := by
  cases e <;> exact ⟨rfl, rfl, rfl⟩

/-- The descriptor of an edit is right about every old struct of the declared
size, whichever version it is. -/
theorem NativeEdit.consistent (e : NativeEdit) {v : NativeStateVersion} (size : v.size = e.before.size) :
    List.Forall₂ (Consistent e.migrateRegions) (nativeEditRegions v).regions (nativeEditRegions e.after).regions := by
  obtain ⟨old, new, oldSize⟩ := e.descriptor_layouts
  refine .cons ⟨rfl, fun m found => ?_, fun _ => rfl, ?_⟩ (.cons ⟨rfl, fun m found => ?_, fun missing => ?_, ?_⟩ .nil)
  · cases e.findMigrateDesc_frame.symm.trans found
  · exact (CartRuntimeRegion.frameState false).accepts (show cstr "frame_state" ≠ _ by decide)
  · obtain rfl : e.descriptor = m := Option.some.inj (e.findMigrateDesc_native.symm.trans found)
    refine ⟨_, _, old, new, ?_, ?_, ?_, ?_, nativeStateLayout_inRange _, nativeStateLayout_inRange _⟩
    · rw [oldSize, regionNativeState_size, size]
    · rw [nativeStateLayout_totalSize, regionNativeState_size, size]
    · rw [nativeStateLayout_totalSize, regionNativeState_size]
    · rw [regionNativeState_size]
      cases e <;> decide
  · cases e.findMigrateDesc_native.symm.trans missing
  · exact (CartRuntimeRegion.nativeState e.after true).accepts (show cstr "native_state" ≠ _ by decide)

theorem nativeEditRegions_described (v : NativeStateVersion) : Describable (nativeEditRegions v) := by
  rw [describable_iff]
  cases v <;> decide +kernel

theorem nativeEditRegions_hash_ne {v : NativeStateVersion} (other : v ≠ .v5) :
    registryHash (nativeEditRegions v) ≠ registryHash (nativeEditRegions .v5) := by
  rw [(nativeEditRegions_described v).registryHash_eq, (nativeEditRegions_described .v5).registryHash_eq]
  cases v with
  | v5 => exact absurd rfl other
  | v0 => decide +kernel
  | v3 => decide +kernel
  | v4 => decide +kernel
  | v6 => decide +kernel

/-- A program whose frame counter is at `-2`, saved at frame 7. -/
def savingNative (v : NativeStateVersion) : Runtime (nativeEditRegions v) :=
  .started (nativeEditRegions_described v) fun native =>
    if native then [0xfe, 0xff, 0xff, 0xff] ++ List.replicate (v.size - 4) 1 else List.replicate 1316 1

/-- The process the edited program is reloaded into. -/
def loadingNative (v : NativeStateVersion) : MigrateRuntime (nativeEditRegions v) where
  toRuntime := .started (nativeEditRegions_described v) fun native =>
    if native then List.replicate v.size 0 else List.replicate 1316 0
  scratch := ⟨List.replicate 4096 0, scratch_length⟩

theorem nativeEditRegions_saves (v : NativeStateVersion) :
    ∃ saved : SaveResult (nativeEditRegions v), ∃ buf : ByteSpan,
      saveStateSave (savingNative v) (saveStateBufferCapacity (nativeEditRegions v)) 7 = .returns saved ∧
        saved.ret ≠ 0 ∧ buf.bytes = saved.written ∧ headerOf buf = ⟨saveStateMagic, saveStateVersion,
          registryHash (nativeEditRegions v), 7, saveStateBufferCapacity (nativeEditRegions v)⟩ := by
  have described := nativeEditRegions_described v
  have exact : (saveStateBufferCapacity (nativeEditRegions v)).toNat = 24 + bodySize (nativeEditRegions v).regions := by
    cases v <;> rfl
  obtain ⟨saved, run, ret, written, _⟩ := saveStateSave_again (savingNative v) 7 described exact
    (UInt32.le_refl _) fun _ _ => rfl
  have length := saveImage_length (nativeEditRegions v) (savingNative v).store 7
  have bound := (saveStateBufferCapacity (nativeEditRegions v)).toNat_lt
  let buf : ByteSpan := ⟨saved.written, by rw [written]; omega⟩
  refine ⟨saved, buf, run, fun zero => ?_, rfl, headerOf_append written⟩
  have value := congrArg UInt32.toNat (ret.symm.trans zero)
  rw [exact] at value
  simp at value

theorem nativeEditRegions_foreign {v : NativeStateVersion} (other : v ≠ .v5) {buf : ByteSpan} {frame total : UInt32}
    (header : headerOf buf = ⟨saveStateMagic, saveStateVersion, registryHash (nativeEditRegions v), frame, total⟩) :
    (headerOf buf).layoutHash ≠ (loadingNative .v5).layoutHash := by
  have hash := (loadingNative .v5).layoutHash_eq rfl
  have own : (headerOf buf).layoutHash = registryHash (nativeEditRegions v) := by rw [header]
  exact fun same => nativeEditRegions_hash_ne other (own.symm.trans (same.trans hash))

/-- The n5 edit, `frame_count` widened from `i32` to `i64`. -/
theorem saveState_migrates_n5 : ∃ saved : SaveResult (nativeEditRegions .v4), ∃ buf rt',
    saveStateSave (savingNative .v4) (saveStateBufferCapacity (nativeEditRegions .v4)) 7 = .returns saved ∧
      buf.bytes = saved.written ∧
      saveStateLoadMigrate NativeEdit.n5.migrateRegions (loadingNative .v5) buf = .returns (true, rt') ∧
      List.Forall₂ (fun o r => Carried NativeEdit.n5.migrateRegions
          (o.save ((savingNative .v4).store o.storage)).1 r (rt'.store r.storage))
        (nativeEditRegions .v4).regions (nativeEditRegions .v5).regions := by
  obtain ⟨saved, buf, run, written, bytes, header⟩ := nativeEditRegions_saves .v4
  obtain ⟨rt', load, carried⟩ := saveState_migrates (NativeEdit.n5.consistent rfl) run written bytes
    (loadingNative .v5) (nativeEditRegions_foreign (by decide) header)
  exact ⟨saved, buf, rt', run, bytes, load, carried⟩

end Blyt
