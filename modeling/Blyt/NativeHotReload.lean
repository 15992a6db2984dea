import Blyt.FrameWorkload
import Blyt.Lib.SignedOverflow
import Blyt.NativeStateMigration

namespace Blyt
open Packed SaveIo FrameWorkload

/-- `EDIT_NUM`: the edits of the code alone, and those of the struct. -/
inductive NativeCartEdit where
  | n1 | n2
  | struct (e : NativeEdit)

/-- `EDIT_SIDE`: the program that saves is compiled before the edit, the one that loads after it. -/
inductive EditSide where
  | pre | post

/-- `NATIVE_STATE_VERSION` of the two programs of an edit. -/
def NativeCartEdit.version : NativeCartEdit → EditSide → NativeStateVersion
  | .n1, _ => .v0
  | .n2, _ => .v0
  | .struct e, .pre => e.before
  | .struct e, .post => e.after

/-- `migrate_regions` of the program that loads. -/
def NativeCartEdit.table : NativeCartEdit → MigrateTable
  | .n1 => []
  | .n2 => []
  | .struct e => e.migrateRegions

/-- An `int32_t` in memory. -/
def i32 : Codec Int32 :=
  Codec.u32.map
    { toFun := UInt32.toInt32
      invFun := Int32.toUInt32
      left_inv := UInt32.toUInt32_toInt32
      right_inv := Int32.toInt32_toUInt32 }

def i64 : Codec Int64 :=
  Codec.u64.map
    { toFun := UInt64.toInt64
      invFun := Int64.toUInt64
      left_inv := UInt64.toUInt64_toInt64
      right_inv := Int64.toInt64_toUInt64 }

structure NativeStateV0 where
  frameCount : Int32
  someValue : Int32
  unusedCount : Int32

structure NativeStateV3 where
  frameCount : Int32
  someValue : Int32
  unusedCount : Int32
  lastScore : Int32

structure NativeStateV4 where
  frameCount : Int32
  someValue : Int32
  lastScore : Int32

structure NativeStateV5 where
  frameCount : Int64
  someValue : Int32
  lastScore : Int32

structure NativeStateV6 where
  someValue : Int32
  lastScore : Int32
  frameCount : Int64

/-- `native_cart_state_t`. -/
def NativeCartState : NativeStateVersion → Type
  | .v0 => NativeStateV0
  | .v3 => NativeStateV3
  | .v4 => NativeStateV4
  | .v5 => NativeStateV5
  | .v6 => NativeStateV6

/-- The struct is packed in every version. -/
def nativeCartState : (v : NativeStateVersion) → Codec (NativeCartState v)
  | .v0 => (i32.prod (i32.prod i32)).map
      { toFun := fun ⟨frameCount, someValue, unusedCount⟩ => (⟨frameCount, someValue, unusedCount⟩ : NativeStateV0)
        invFun := fun s => (s.frameCount, s.someValue, s.unusedCount)
        left_inv := fun _ => rfl
        right_inv := fun _ => rfl }
  | .v3 => (i32.prod (i32.prod (i32.prod i32))).map
      { toFun := fun ⟨frameCount, someValue, unusedCount, lastScore⟩ =>
          (⟨frameCount, someValue, unusedCount, lastScore⟩ : NativeStateV3)
        invFun := fun s => (s.frameCount, s.someValue, s.unusedCount, s.lastScore)
        left_inv := fun _ => rfl
        right_inv := fun _ => rfl }
  | .v4 => (i32.prod (i32.prod i32)).map
      { toFun := fun ⟨frameCount, someValue, lastScore⟩ => (⟨frameCount, someValue, lastScore⟩ : NativeStateV4)
        invFun := fun s => (s.frameCount, s.someValue, s.lastScore)
        left_inv := fun _ => rfl
        right_inv := fun _ => rfl }
  | .v5 => (i64.prod (i32.prod i32)).map
      { toFun := fun ⟨frameCount, someValue, lastScore⟩ => (⟨frameCount, someValue, lastScore⟩ : NativeStateV5)
        invFun := fun s => (s.frameCount, s.someValue, s.lastScore)
        left_inv := fun _ => rfl
        right_inv := fun _ => rfl }
  | .v6 => (i32.prod (i32.prod i64)).map
      { toFun := fun ⟨someValue, lastScore, frameCount⟩ => (⟨someValue, lastScore, frameCount⟩ : NativeStateV6)
        invFun := fun s => (s.someValue, s.lastScore, s.frameCount)
        left_inv := fun _ => rfl
        right_inv := fun _ => rfl }

namespace NativeCartState

/-- `frame_count`, whatever its width. -/
def frameCount : {v : NativeStateVersion} → NativeCartState v → Int
  | .v0, s => (show NativeStateV0 from s).frameCount.toInt
  | .v3, s => (show NativeStateV3 from s).frameCount.toInt
  | .v4, s => (show NativeStateV4 from s).frameCount.toInt
  | .v5, s => (show NativeStateV5 from s).frameCount.toInt
  | .v6, s => (show NativeStateV6 from s).frameCount.toInt

def someValue : {v : NativeStateVersion} → NativeCartState v → Int32
  | .v0, s => (show NativeStateV0 from s).someValue
  | .v3, s => (show NativeStateV3 from s).someValue
  | .v4, s => (show NativeStateV4 from s).someValue
  | .v5, s => (show NativeStateV5 from s).someValue
  | .v6, s => (show NativeStateV6 from s).someValue

end NativeCartState

/-- A signed result of 32 bits. -/
def int32 (x : Int) : Exec Int32 := do
  let value ← SignedOverflow.result false 32 x
  return Int32.ofInt value

def int64 (x : Int) : Exec Int64 := do
  let value ← SignedOverflow.result false 64 x
  return Int64.ofInt value

/-- The assignments of `native_cart_update` to version 0, with what the edits add to two of them. -/
def NativeStateV0.update (s : NativeStateV0) (frame valueMore unusedMore : Int) : Exec NativeStateV0 := do
  let frameCount ← int32 (s.frameCount.toInt + 1)
  let product ← int32 (frame * 3)
  let someValue ← int32 (product.toInt + valueMore)
  let product ← int32 (frame * 7)
  let unusedCount ← int32 (product.toInt + unusedMore)
  return ⟨frameCount, someValue, unusedCount⟩

def NativeStateV3.update (s : NativeStateV3) (frame : Int) : Exec NativeStateV3 := do
  let frameCount ← int32 (s.frameCount.toInt + 1)
  let someValue ← int32 (frame * 3)
  let unusedCount ← int32 (frame * 7)
  let lastScore ← int32 (frame * 2)
  return ⟨frameCount, someValue, unusedCount, lastScore⟩

def NativeStateV4.update (s : NativeStateV4) (frame : Int) : Exec NativeStateV4 := do
  let frameCount ← int32 (s.frameCount.toInt + 1)
  let someValue ← int32 (frame * 3)
  let lastScore ← int32 (frame * 2)
  return ⟨frameCount, someValue, lastScore⟩

def NativeStateV5.update (s : NativeStateV5) (frame : Int) : Exec NativeStateV5 := do
  let frameCount ← int64 (s.frameCount.toInt + 1)
  let someValue ← int32 (frame * 3)
  let lastScore ← int32 (frame * 2)
  return ⟨frameCount, someValue, lastScore⟩

def NativeStateV6.update (s : NativeStateV6) (frame : Int) : Exec NativeStateV6 := do
  let frameCount ← int64 (s.frameCount.toInt + 1)
  let someValue ← int32 (frame * 3)
  let lastScore ← int32 (frame * 2)
  return ⟨someValue, lastScore, frameCount⟩

def mylibHelper (frame : Int) : Int := frame.tmod 5

/-- `native_cart_update` on the struct. -/
def nativeCartUpdate (frame : Int) : (e : NativeCartEdit) → (side : EditSide) → NativeCartState (e.version side) →
    Exec (NativeCartState (e.version side))
  | .n1, .pre, s => NativeStateV0.update s frame 0 0
  | .n1, .post, s => NativeStateV0.update s frame 1 0
  | .n2, .pre, s => NativeStateV0.update s frame 0 0
  | .n2, .post, s => NativeStateV0.update s frame 0 (mylibHelper frame)
  | .struct .n3, .pre, s => NativeStateV0.update s frame 0 0
  | .struct .n3, .post, s => NativeStateV3.update s frame
  | .struct .n4, .pre, s => NativeStateV3.update s frame
  | .struct .n4, .post, s => NativeStateV4.update s frame
  | .struct .n5, .pre, s => NativeStateV4.update s frame
  | .struct .n5, .post, s => NativeStateV5.update s frame
  | .struct .n6, .pre, s => NativeStateV5.update s frame
  | .struct .n6, .post, s => NativeStateV6.update s frame

/-- What the programs are compiled with, the conversion and the addition being those of the host. -/
structure NativeRun where
  nframes : Nat
  ofI32 : Int32 → F32
  add : F32 → F32 → F32

abbrev NativeObjects (e : NativeCartEdit) (side : EditSide) := FrameState × NativeCartState (e.version side)

/-- What a driver prints, and its objects in the end. -/
structure NativeOutcome (e : NativeCartEdit) (side : EditSide) where
  buffer : Option (List UInt8)
  digests : List Digest
  objects : NativeObjects e side

/-- `for (int f = start; f < stop; f++)`. -/
def intFrames (start stop : Int) : List Int := (List.range (stop - start).toNat).map fun k : Nat => start + (k : Int)

namespace NativeRun
variable (w : NativeRun) (e : NativeCartEdit) (side : EditSide)

/-- A turn of the frame loop of a driver: `native_cart_update`, `native_cart_emit_digest`, and the next number. -/
def turn (s : NativeObjects e side) (f : Int) : Exec (NativeObjects e side × Digest) := do
  let native ← nativeCartUpdate f e side s.2
  let shown := frameStateEmitDigest { s.1 with accumMisc := w.add s.1.accumMisc (w.ofI32 native.someValue) }
  return (({ shown.1 with frame := UInt32.ofInt (f + 1) }, native), shown.2)

def frames (s : NativeObjects e side) : List Int → Exec (NativeObjects e side × List Digest)
  | [] => return (s, [])
  | f :: later => do
    let (s, digest) ← w.turn e side s f
    let (s, digests) ← frames s later
    return (s, digest :: digests)

end NativeRun

section
variable (e : NativeCartEdit) (side : EditSide)

/-- The objects as the regions of a process hold them. -/
def NativeObjects.store {e : NativeCartEdit} {side : EditSide} (s : NativeObjects e side) : Bool → List UInt8
  | false => frameState.encode s.1
  | true => (nativeCartState (e.version side)).encode s.2

def nativeObjects (store : Bool → List UInt8) : NativeObjects e side :=
  (frameState.decode (store false), (nativeCartState (e.version side)).decode (store true))

/-- The objects of a fresh process. -/
def nativeStart : NativeObjects e side :=
  (AudioBranch.zeroFrameState, (nativeCartState (e.version side)).decode (List.replicate (e.version side).size 0))

/-- A process behind `save_state_init`. -/
def nativeBoot : Exec (Runtime (nativeEditRegions (e.version side))) :=
  saveStateInit (.boot (nativeEditRegions (e.version side)) (nativeStart e side).store)

end

/-- Saving, and the line that is printed of it. -/
def saveAndPrint {R : Registry Bool} (rt : Runtime R) (frame : UInt32) : Exec (Option (List UInt8) × Runtime R) := do
  let saved ← saveStateSave rt 32768 frame
  if saved.ret = 0 then return (none, saved.rt)
  else do
    let text ← saveStateEmitHex (← spanOf saved.written)
    return (some text, saved.rt)

namespace NativeRun
variable (w : NativeRun) (e : NativeCartEdit)

/-- `main` of `n_native_driver_full.c`. -/
def fullMain (side : EditSide) : Exec (NativeOutcome e side) := do
  let _ ← nativeBoot e side
  let (s, digests) ← w.frames e side (nativeStart e side) (intFrames 0 w.nframes)
  return ⟨none, digests, s⟩

/-- `main` of `n_native_driver_save.c`; without a buffer it panics. -/
def saveMain (saveFrame : Int32) : Exec (NativeOutcome e .pre) := do
  let rt ← nativeBoot e .pre
  let (s, digests) ← w.frames e .pre (nativeStart e .pre) (intFrames 0 (saveFrame.toInt + 1))
  let (buffer, rt) ← saveAndPrint (rt.withStore s.store) saveFrame.toUInt32
  return ⟨buffer, digests, nativeObjects e .pre rt.store⟩

/-- `main` of `n_native_driver_load.c`. -/
def loadMain (given : Nat → Nat) (file : Option (List UInt8)) : Exec (Except LoadPanic (NativeOutcome e .post)) := do
  let rt ← nativeBoot e .post
  match saveIoReadFile file given 131071 with
  | none => return .error .cannotRead
  | some hexbuf =>
    let parsed := saveIoParseHex hexbuf 32768
    if parsed.ret < 0 then return .error .parseFailed
    else do
      let bin ← spanOf parsed.written
      let (ok, rt) ← saveStateLoadMigrate e.table ⟨rt, ⟨List.replicate 4096 0, scratch_length⟩⟩ bin
      if ok then do
        let (buffer, rt) ← saveAndPrint rt.toRuntime (headerOf bin).frame
        let s := nativeObjects e .post rt.store
        let (s, digests) ← w.frames e .post s (intFrames s.1.frame.toInt32.toInt w.nframes)
        return .ok ⟨buffer, digests, s⟩
      else return .error .rejected

end NativeRun

/-- What an edit is to make of the struct. -/
def NativeCartEdit.carried : (e : NativeCartEdit) → NativeCartState (e.version .pre) → NativeCartState (e.version .post)
  | .n1, s => s
  | .n2, s => s
  | .struct .n3, (s : NativeStateV0) => (⟨s.frameCount, s.someValue, s.unusedCount, 0⟩ : NativeStateV3)
  | .struct .n4, (s : NativeStateV3) => (⟨s.frameCount, s.someValue, s.lastScore⟩ : NativeStateV4)
  | .struct .n5, (s : NativeStateV4) => (⟨s.frameCount.toInt64, s.someValue, s.lastScore⟩ : NativeStateV5)
  | .struct .n6, (s : NativeStateV5) => (⟨s.someValue, s.lastScore, s.frameCount⟩ : NativeStateV6)

/-- The same on the objects, which leaves `frame_state` alone. -/
def NativeCartEdit.carry (e : NativeCartEdit) (s : NativeObjects e .pre) : NativeObjects e .post := (s.1, e.carried s.2)

/-! One update and one frame. -/

theorem int32_returns {x : Int} (low : 0 ≤ x) (high : x < 2 ^ 31) : int32 x = .returns (Int32.ofInt x) := by
  have fits : x.bmod (2 ^ 32) = x := Int.bmod_eq_of_le (by omega) (by omega)
  rw [int32, SignedOverflow.result_of_fits fits]
  rfl

theorem int64_returns {x : Int} (low : 0 ≤ x) (high : x < 2 ^ 31) : int64 x = .returns (Int64.ofInt x) := by
  have fits : x.bmod (2 ^ 64) = x := Int.bmod_eq_of_le (by omega) (by omega)
  rw [int64, SignedOverflow.result_of_fits fits]
  rfl

theorem toInt_int32 {x : Int} (low : 0 ≤ x) (high : x < 2 ^ 31) : (Int32.ofInt x).toInt = x :=
  Int32.toInt_ofInt_of_le (by omega) high

theorem toInt_int64 {x : Int} (low : 0 ≤ x) (high : x < 2 ^ 31) : (Int64.ofInt x).toInt = x :=
  Int64.toInt_ofInt_of_le (by omega) (by omega)

/-- What a frame makes of the struct: it counts, `some_value` is `value`, and nothing but the counter is left of what
was there. -/
def NativeCartState.Updates {v : NativeStateVersion} (f value : Int)
    (update : NativeCartState v → Exec (NativeCartState v)) : Prop :=
  ∃ next : NativeCartState v, next.frameCount = f + 1 ∧ next.someValue = Int32.ofInt value ∧
    ∀ s : NativeCartState v, s.frameCount = f → update s = .returns next

section
open NativeCartState
variable {f : Int}

theorem NativeStateV0.updates (from_ : 0 ≤ f) (fits : 7 * (f + 1) ≤ 2 ^ 31) {valueMore unusedMore : Int}
    (value : 0 ≤ valueMore ∧ valueMore < 7) (unused : 0 ≤ unusedMore ∧ unusedMore < 7) :
    Updates (v := .v0) f (f * 3 + valueMore) fun s => NativeStateV0.update s f valueMore unusedMore := by
  refine ⟨(⟨Int32.ofInt (f + 1), Int32.ofInt (f * 3 + valueMore), Int32.ofInt (f * 7 + unusedMore)⟩ : NativeStateV0),
    toInt_int32 (by omega) (by omega), rfl, fun s count => ?_⟩
  have count : (NativeStateV0.frameCount s).toInt = f := count
  simp only [update, count]
  rw [int32_returns (by omega) (by omega), Exec.returns_bind, int32_returns (by omega) (by omega), Exec.returns_bind,
    toInt_int32 (by omega) (by omega), int32_returns (by omega) (by omega), Exec.returns_bind,
    int32_returns (by omega) (by omega), Exec.returns_bind, toInt_int32 (by omega) (by omega),
    int32_returns (by omega) (by omega)]
  rfl

theorem NativeStateV3.updates (from_ : 0 ≤ f) (fits : 7 * (f + 1) ≤ 2 ^ 31) :
    Updates (v := .v3) f (f * 3) fun s => NativeStateV3.update s f := by
  refine ⟨(⟨Int32.ofInt (f + 1), Int32.ofInt (f * 3), Int32.ofInt (f * 7), Int32.ofInt (f * 2)⟩ : NativeStateV3),
    toInt_int32 (by omega) (by omega), rfl, fun s count => ?_⟩
  have count : (NativeStateV3.frameCount s).toInt = f := count
  simp only [update, count]
  rw [int32_returns (by omega) (by omega), Exec.returns_bind, int32_returns (by omega) (by omega), Exec.returns_bind,
    int32_returns (by omega) (by omega), Exec.returns_bind, int32_returns (by omega) (by omega)]
  rfl

theorem NativeStateV4.updates (from_ : 0 ≤ f) (fits : 7 * (f + 1) ≤ 2 ^ 31) :
    Updates (v := .v4) f (f * 3) fun s => NativeStateV4.update s f := by
  refine ⟨(⟨Int32.ofInt (f + 1), Int32.ofInt (f * 3), Int32.ofInt (f * 2)⟩ : NativeStateV4),
    toInt_int32 (by omega) (by omega), rfl, fun s count => ?_⟩
  have count : (NativeStateV4.frameCount s).toInt = f := count
  simp only [update, count]
  rw [int32_returns (by omega) (by omega), Exec.returns_bind, int32_returns (by omega) (by omega), Exec.returns_bind,
    int32_returns (by omega) (by omega)]
  rfl

theorem NativeStateV5.updates (from_ : 0 ≤ f) (fits : 7 * (f + 1) ≤ 2 ^ 31) :
    Updates (v := .v5) f (f * 3) fun s => NativeStateV5.update s f := by
  refine ⟨(⟨Int64.ofInt (f + 1), Int32.ofInt (f * 3), Int32.ofInt (f * 2)⟩ : NativeStateV5),
    toInt_int64 (by omega) (by omega), rfl, fun s count => ?_⟩
  have count : (NativeStateV5.frameCount s).toInt = f := count
  simp only [update, count]
  rw [int64_returns (by omega) (by omega), Exec.returns_bind, int32_returns (by omega) (by omega), Exec.returns_bind,
    int32_returns (by omega) (by omega)]
  rfl

theorem NativeStateV6.updates (from_ : 0 ≤ f) (fits : 7 * (f + 1) ≤ 2 ^ 31) :
    Updates (v := .v6) f (f * 3) fun s => NativeStateV6.update s f := by
  refine ⟨(⟨Int32.ofInt (f * 3), Int32.ofInt (f * 2), Int64.ofInt (f + 1)⟩ : NativeStateV6),
    toInt_int64 (by omega) (by omega), rfl, fun s count => ?_⟩
  have count : (NativeStateV6.frameCount s).toInt = f := count
  simp only [update, count]
  rw [int64_returns (by omega) (by omega), Exec.returns_bind, int32_returns (by omega) (by omega), Exec.returns_bind,
    int32_returns (by omega) (by omega)]
  rfl

theorem mylibHelper_bounds (from_ : 0 ≤ f) : 0 ≤ mylibHelper f ∧ mylibHelper f < 7 := by
  have high := Int.tmod_lt_of_pos f (show (0 : Int) < 5 by decide)
  exact ⟨Int.tmod_nonneg 5 from_, by rw [mylibHelper]; omega⟩

end

/-- What a frame puts into `some_value`. -/
def NativeCartEdit.value : NativeCartEdit → EditSide → Int → Int
  | .n1, .post, f => f * 3 + 1
  | _, _, f => f * 3

theorem nativeCartUpdate_updates (e : NativeCartEdit) (side : EditSide) {f : Int} (from_ : 0 ≤ f)
    (fits : 7 * (f + 1) ≤ 2 ^ 31) : NativeCartState.Updates f (e.value side f) (nativeCartUpdate f e side) := by
  have none : (0 : Int) ≤ 0 ∧ (0 : Int) < 7 := ⟨by decide, by decide⟩
  have one : (0 : Int) ≤ 1 ∧ (1 : Int) < 7 := ⟨by decide, by decide⟩
  have sum : f * 3 + 0 = f * 3 := Int.add_zero _
  have plain := sum ▸ NativeStateV0.updates from_ fits none none
  cases e with
  | n1 =>
    cases side with
    | pre => exact plain
    | post => exact NativeStateV0.updates from_ fits one none
  | n2 =>
    cases side with
    | pre => exact plain
    | post =>
      have helped := NativeStateV0.updates from_ fits none (mylibHelper_bounds from_)
      rw [sum] at helped
      exact helped
  | struct e =>
    cases e with
    | n3 =>
      cases side with
      | pre => exact plain
      | post => exact NativeStateV3.updates from_ fits
    | n4 =>
      cases side with
      | pre => exact NativeStateV3.updates from_ fits
      | post => exact NativeStateV4.updates from_ fits
    | n5 =>
      cases side with
      | pre => exact NativeStateV4.updates from_ fits
      | post => exact NativeStateV5.updates from_ fits
    | n6 =>
      cases side with
      | pre => exact NativeStateV5.updates from_ fits
      | post => exact NativeStateV6.updates from_ fits

theorem intFrames_nil {start stop : Int} (past : stop ≤ start) : intFrames start stop = [] := by
  rw [intFrames, Int.toNat_of_nonpos (by omega)]
  rfl

theorem intFrames_cons {start stop : Int} (before : start < stop) :
    intFrames start stop = start :: intFrames (start + 1) stop := by
  have split : (stop - start).toNat = (stop - (start + 1)).toNat + 1 := by omega
  rw [intFrames, intFrames, split, List.range_succ_eq_map, List.map_cons, List.map_map]
  refine congrArg₂ List.cons (by simp) (List.map_congr_left fun k _ => ?_)
  show start + ((k + 1 : Nat) : Int) = start + 1 + k
  omega

theorem intFrames_append {start middle stop : Int} (before : start ≤ middle) (behind : middle ≤ stop) :
    intFrames start stop = intFrames start middle ++ intFrames middle stop := by
  generalize length : (middle - start).toNat = k
  induction k generalizing start with
  | zero =>
    obtain rfl : start = middle := by omega
    rw [intFrames_nil le_rfl, List.nil_append]
  | succ k ih =>
    rw [intFrames_cons (show start < stop by omega), intFrames_cons (show start < middle by omega), List.cons_append,
      ih (by omega) (by omega)]

theorem intFrames_length (start stop : Int) : (intFrames start stop).length = (stop - start).toNat := by
  rw [intFrames, List.length_map, List.length_range]

/-- A digest leaves no NaN that a save would replace. -/
theorem FrameState.canonicalize_numbered (fs : FrameState) (frame : UInt32) :
    { fs.canonicalize with frame := frame }.canonicalize = { fs.canonicalize with frame := frame } := by
  have again := FrameState.mk.injEq .. ▸ FrameState.canonicalize_idem fs
  obtain ⟨-, -, -, sin, cos, sqrt, misc, mobs⟩ := again
  exact FrameState.mk.injEq .. ▸ ⟨rfl, rfl, rfl, sin, cos, sqrt, misc, mobs⟩

namespace NativeRun
variable (w : NativeRun)

/-- The frames as `frame_state` has them, where `value` is what they put into `some_value`. -/
def shown (value : Int → Int) (fs : FrameState) : List Int → FrameState × List Digest
  | [] => (fs, [])
  | f :: later =>
    let emitted := frameStateEmitDigest { fs with accumMisc := w.add fs.accumMisc (w.ofI32 (Int32.ofInt (value f))) }
    let rest := shown value { emitted.1 with frame := UInt32.ofInt (f + 1) } later
    (rest.1, emitted.2 :: rest.2)

variable {w}

theorem shown_append (value : Int → Int) (fs : FrameState) (earlier later : List Int) :
    w.shown value fs (earlier ++ later) = ((w.shown value (w.shown value fs earlier).1 later).1,
      (w.shown value fs earlier).2 ++ (w.shown value (w.shown value fs earlier).1 later).2) := by
  induction earlier generalizing fs with
  | nil => rfl
  | cons f earlier ih =>
    rw [List.cons_append, shown, shown, ih]
    rfl

theorem shown_length (value : Int → Int) (fs : FrameState) (l : List Int) :
    (w.shown value fs l).2.length = l.length := by
  induction l generalizing fs with
  | nil => rfl
  | cons f l ih => rw [shown, List.length_cons, List.length_cons, ih]

theorem shown_canonical (value : Int → Int) {fs : FrameState} (canonical : fs.canonicalize = fs) (l : List Int) :
    (w.shown value fs l).1.canonicalize = (w.shown value fs l).1 := by
  induction l generalizing fs with
  | nil => exact canonical
  | cons f l ih => exact ih (FrameState.canonicalize_numbered _ _)

theorem shown_frame (value : Int → Int) {fs : FrameState} {start stop : Int} (number : fs.frame = UInt32.ofInt start)
    (before : start ≤ stop) : (w.shown value fs (intFrames start stop)).1.frame = UInt32.ofInt stop := by
  generalize length : (stop - start).toNat = k
  induction k generalizing start fs with
  | zero =>
    obtain rfl : start = stop := by omega
    rw [intFrames_nil le_rfl]
    exact number
  | succ k ih =>
    rw [intFrames_cons (by omega)]
    exact ih rfl (by omega) (by omega)

variable {e : NativeCartEdit} {side : EditSide}

theorem turn_returns {s : NativeObjects e side} {f : Int} (from_ : 0 ≤ f) (fits : 7 * (f + 1) ≤ 2 ^ 31) :
    ∃ next : NativeCartState (e.version side), next.frameCount = f + 1 ∧ ∀ t : NativeObjects e side,
      t.1 = s.1 → t.2.frameCount = f → w.turn e side t f =
        .returns (((w.shown (e.value side) s.1 [f]).1, next), (frameStateEmitDigest
          { s.1 with accumMisc := w.add s.1.accumMisc (w.ofI32 (Int32.ofInt (e.value side f))) }).2) := by
  obtain ⟨next, counted, value, updates⟩ := nativeCartUpdate_updates e side from_ fits
  refine ⟨next, counted, fun t same count => ?_⟩
  rw [turn, updates t.2 count, Exec.returns_bind, value, same]
  rfl

/-- What a driver's frames do: to `frame_state` and the digests what `shown` tells, and the frame counter counts. -/
theorem frames_returns {s : NativeObjects e side} {start stop : Int} (from_ : 0 ≤ start) (before : start ≤ stop)
    (fits : 7 * stop ≤ 2 ^ 31) (count : s.2.frameCount = start) :
    ∃ native : NativeCartState (e.version side), native.frameCount = stop ∧ w.frames e side s (intFrames start stop) =
      .returns (((w.shown (e.value side) s.1 (intFrames start stop)).1, native),
        (w.shown (e.value side) s.1 (intFrames start stop)).2) := by
  generalize length : (stop - start).toNat = k
  induction k generalizing start s with
  | zero =>
    obtain rfl : start = stop := by omega
    rw [intFrames_nil le_rfl]
    exact ⟨s.2, count, rfl⟩
  | succ k ih =>
    obtain ⟨next, counted, turns⟩ := turn_returns (w := w) (s := s) from_ (by omega)
    obtain ⟨native, last, later⟩ := ih (s := ((w.shown (e.value side) s.1 [start]).1, next)) (by omega) (by omega)
      counted (by omega)
    refine ⟨native, last, ?_⟩
    rw [intFrames_cons (by omega), frames, turns s rfl count, Exec.returns_bind]
    dsimp only
    rw [later, Exec.returns_bind]
    rfl

theorem frames_append {s t : NativeObjects e side} {earlier : List Int} {digests : List Digest}
    (ran : w.frames e side s earlier = .returns (t, digests)) (later : List Int) :
    w.frames e side s (earlier ++ later) = w.frames e side t later >>= fun r => .returns (r.1, digests ++ r.2) := by
  induction earlier generalizing s digests with
  | nil =>
    cases ran
    rw [List.nil_append]
    cases w.frames e side t later <;> rfl
  | cons f earlier ih =>
    obtain ⟨⟨next, digest⟩, turned, rest⟩ := Exec.bind_eq_returns.mp ran
    obtain ⟨⟨last, digests'⟩, walked, result⟩ := Exec.bind_eq_returns.mp rest
    cases result
    rw [List.cons_append, frames, turned, Exec.returns_bind]
    dsimp only
    rw [ih walked]
    cases w.frames e side t later <;> rfl

/-- Behind a frame nothing is left of the struct before it but the counter. -/
theorem frames_congr {s t : NativeObjects e side} {start stop : Int} (from_ : 0 ≤ start) (before : start < stop)
    (fits : 7 * stop ≤ 2 ^ 31) (count : s.2.frameCount = start) (same : t.1 = s.1) (counts : t.2.frameCount = start) :
    w.frames e side t (intFrames start stop) = w.frames e side s (intFrames start stop) := by
  obtain ⟨next, -, turns⟩ := turn_returns (w := w) (s := s) from_ (by omega)
  rw [intFrames_cons before, frames, frames, turns t same counts, turns s rfl count]

end NativeRun

/-! What is saved is taken back, as the edit wants it. -/

section
variable {v : NativeStateVersion}

theorem nativeCartState_size (v : NativeStateVersion) : (nativeCartState v).size = v.size := by
  cases v <;> rfl

theorem regionNativeState_image (v : NativeStateVersion) (s : NativeCartState v) :
    ((regionNativeState v true).save ((nativeCartState v).encode s)) =
      ((nativeCartState v).encode s, (nativeCartState v).encode s) := by
  have length := ((nativeCartState v).length_encode s).trans (nativeCartState_size v)
  have same : (rawBytes v.size).encode (id ((rawBytes v.size).decode ((nativeCartState v).encode s))) = _ :=
    (rawBytes v.size).encode_decode _ (length.trans (Nat.mul_one _).symm)
  show (_, _) = _
  rw [same]

end

namespace NativeObjects
variable {e : NativeCartEdit} {side : EditSide} {s : NativeObjects e side}

theorem nativeObjects_store (s : NativeObjects e side) : nativeObjects e side s.store = s := by
  show (frameState.decode (frameState.encode s.1), (nativeCartState _).decode ((nativeCartState _).encode s.2)) = s
  rw [Codec.decode_encode, Codec.decode_encode]

/-- A save of objects without a NaN to replace writes them as they are, and leaves them. -/
theorem save_cell (canonical : s.1.canonicalize = s.1) :
    ∀ r ∈ (nativeEditRegions (e.version side)).regions,
      r.save (s.store r.storage) = (s.store r.storage, s.store r.storage) := by
  refine List.forall_mem_cons.mpr ⟨?_, List.forall_mem_singleton.mpr (regionNativeState_image _ s.2)⟩
  show (frameState.encode (frameState.decode (frameState.encode s.1)).canonicalize,
    frameState.encode (frameState.decode (frameState.encode s.1)).canonicalize) =
      (frameState.encode s.1, frameState.encode s.1)
  rw [Codec.decode_encode, canonical]

theorem bodySize_native (v : NativeStateVersion) : bodySize (nativeEditRegions v).regions = 1316 + v.size := by
  cases v <;> rfl

/-- What a driver saves and prints. -/
theorem saveAndPrint_returns (canonical : s.1.canonicalize = s.1) {rt : Runtime (nativeEditRegions (e.version side))}
    (own : rt.store = s.store) (frame : UInt32) : ∃ text saved,
      saveStateSave rt 32768 frame = .returns saved ∧ saved.ret ≠ 0 ∧
      saved.written = saveImage (nativeEditRegions (e.version side)) s.store frame ∧ saved.rt.store = s.store ∧
      saveAndPrint rt frame = .returns (some text, saved.rt) ∧ text.length ≤ 131071 ∧
      saveIoParseHex text 32768 = ⟨saved.written, true⟩ := by
  have described := nativeEditRegions_described (e.version side)
  have exact : (saveStateBufferCapacity (nativeEditRegions (e.version side))).toNat =
      24 + bodySize (nativeEditRegions (e.version side)).regions := by
    cases e.version side <;> rfl
  have small : (e.version side).size ≤ 16 := by cases e.version side <;> decide
  have room : saveStateBufferCapacity (nativeEditRegions (e.version side)) ≤ 32768 := by
    rw [UInt32.le_iff_toNat_le, exact, bodySize_native]
    exact Nat.le_trans (Nat.add_le_add_left (Nat.add_le_add_left small _) _) (by decide)
  have same : ∀ r ∈ (nativeEditRegions (e.version side)).regions,
      (r.save (rt.store r.storage)).1 = (r.save (s.store r.storage)).1 := fun r _ => by rw [own]
  obtain ⟨saved, save, ret, written, left⟩ := saveStateSave_again rt frame described exact room same
  have length : saved.written.length = 24 + (1316 + (e.version side).size) := by
    rw [written, saveImage_length, bodySize_native]
  have span : spanOf saved.written = .returns ⟨saved.written, by omega⟩ := dif_pos (by omega)
  have nonzero : ¬saved.ret = 0 := by
    intro zero
    have none := congrArg UInt32.toNat (ret.symm.trans zero)
    rw [exact, show (0 : UInt32).toNat = 0 from rfl] at none
    omega
  have stays : saved.rt.store = s.store := by
    obtain ⟨-, cells, others⟩ := saveRegions_spec rt.store (nativeEditRegions (e.version side)).distinct
    rw [left]
    funext storage
    rw [own] at cells ⊢
    have same := fun r member => (cells r member).trans (congrArg Prod.snd (save_cell canonical r member))
    cases storage with
    | false => exact same (regionFrameState false) List.mem_cons_self
    | true => exact same (regionNativeState _ true) (List.mem_cons_of_mem _ List.mem_cons_self)
  have within : saved.written.length ≤ 32768 := by omega
  obtain ⟨text, emitted, short, parsed⟩ := saveIoParseHex_emitted ⟨saved.written, by omega⟩
    (show 24 ≤ saved.written.length by omega) within
  refine ⟨text, saved, save, nonzero, written, stays, ?_, ?_, parsed⟩
  · rw [saveAndPrint, save, Exec.returns_bind, if_neg nonzero, span, Exec.returns_bind, emitted]
    rfl
  · have short : text.length ≤ 2 * saved.written.length + 33 := short
    omega

end NativeObjects

/-- The edit that widens the counter, on the bytes of the two members behind it. -/
theorem migrate_widened (a b c d : UInt8) (someValue lastScore : Int32) :
    migrateRegionBytes (List.replicate 16 0) (nativeStateLayout .v5)
      ([a, b, c, d] ++ (i32.encode someValue ++ i32.encode lastScore)) (nativeStateLayout .v4)
        (some nativeStateRetypeI32ToI64) = .returns (true, Codec.u64.encode
          (Codec.u32.decode [a, b, c, d]).toInt32.toInt64.toUInt64 ++
            (i32.encode someValue ++ i32.encode lastScore)) := by
  with_unfolding_all rfl

theorem i32_encode (x : Int32) : ∃ a b c d, i32.encode x = [a, b, c, d] := ⟨_, _, _, _, rfl⟩

/-- `migrate_region_bytes` of each edit of the struct, on a whole struct. -/
theorem NativeEdit.migrates (e : NativeEdit) (s : NativeCartState e.before) :
    migrateRegionBytes (List.replicate e.after.size 0) (nativeStateLayout e.after) ((nativeCartState e.before).encode s)
      (nativeStateLayout e.before) e.descriptor.onRetype =
        .returns (true, (nativeCartState e.after).encode (NativeCartEdit.carried (.struct e) s)) := by
  cases e with
  | n3 => with_unfolding_all rfl
  | n4 => with_unfolding_all rfl
  | n5 =>
    obtain ⟨frameCount, someValue, lastScore⟩ := (s : NativeStateV4)
    obtain ⟨a, b, c, d, bytes⟩ := i32_encode frameCount
    have value : (Codec.u32.decode [a, b, c, d]).toInt32 = frameCount := bytes ▸ i32.decode_encode frameCount
    have widened := migrate_widened a b c d someValue lastScore
    rw [← bytes] at widened
    rw [← bytes] at value
    rw [value] at widened
    exact widened
  | n6 => with_unfolding_all rfl

theorem nativeEditRegions_accepts (v : NativeStateVersion) :
    ∀ r ∈ (nativeEditRegions v).regions, ∀ src cell, src.length = r.size.toNat → r.load src cell = (true, src) :=
  List.forall_mem_cons.mpr ⟨(CartRuntimeRegion.frameState false).accepts (show cstr "frame_state" ≠ _ by decide),
    List.forall_mem_singleton.mpr
      ((CartRuntimeRegion.nativeState v true).accepts (show cstr "native_state" ≠ _ by decide))⟩

/-- The edits of the struct change the hash. -/
theorem NativeEdit.hash_ne (e : NativeEdit) :
    registryHash (nativeEditRegions e.before) ≠ registryHash (nativeEditRegions e.after) := by
  rw [(nativeEditRegions_described e.before).registryHash_eq, (nativeEditRegions_described e.after).registryHash_eq]
  cases e with
  | n3 => decide +kernel
  | n4 => decide +kernel
  | n5 => decide +kernel
  | n6 => decide +kernel

/-- Without a change of the struct the load is the ordinary one. -/
theorem saveStateLoadMigrate_same {v : NativeStateVersion} {st : Bool → List UInt8} {frame : UInt32} {buf : ByteSpan}
    (settled : ∀ r ∈ (nativeEditRegions v).regions, r.save (st r.storage) = (st r.storage, st r.storage))
    (image : buf.bytes = saveImage (nativeEditRegions v) st frame) (table : MigrateTable)
    (rt : MigrateRuntime (nativeEditRegions v)) (started : rt.initialized = true) :
    ∃ rt', saveStateLoadMigrate table rt buf = .returns (true, rt') ∧ rt'.store = st := by
  have described := nativeEditRegions_described v
  have accepted := HeaderAccepted.saveImage described image
  have same : (headerOf buf).layoutHash = rt.layoutHash := accepted.layout.trans (rt.layoutHash_eq started).symm
  have takes : ∀ r ∈ (nativeEditRegions v).regions, ∀ cell, r.load (r.save (st r.storage)).1 cell =
      (true, st r.storage) := by
    intro r member cell
    rw [nativeEditRegions_accepts v r member _ cell (r.save_length _), settled r member]
  obtain ⟨loaded, load, cells⟩ := saveStateLoad_saveImage described image rt.toRuntime fun r member => by
    rw [takes r member]
  rcases saveStateLoadMigrate_cases table rt buf with ⟨-, -, run⟩ | ⟨walks, -⟩ | ⟨gates, -, -⟩
  · refine ⟨{ rt with toRuntime := loaded }, by rw [run, load]; rfl, funext fun storage => ?_⟩
    have held := fun r member => (cells r member).trans (congrArg Prod.snd (takes r member _))
    cases storage with
    | false => exact held (regionFrameState false) List.mem_cons_self
    | true => exact held (regionNativeState v true) (List.mem_cons_of_mem _ List.mem_cons_self)
  · exact absurd same walks.mismatch
  · rcases gates with header | other
    · exact absurd accepted.header header
    · exact absurd same other

theorem NativeCartEdit.frameCount_carried (e : NativeCartEdit) (s : NativeCartState (e.version .pre)) :
    (e.carried s).frameCount = s.frameCount := by
  cases e with
  | n1 => rfl
  | n2 => rfl
  | struct e =>
    cases e with
    | n3 => rfl
    | n4 => rfl
    | n5 => exact Int32.toInt_toInt64 _
    | n6 => rfl

/-- What the program before the edit saved, the program behind it takes: `frame_state` as it is, the struct as the edit
wants it. -/
theorem NativeCartEdit.loads (e : NativeCartEdit) {s : NativeObjects e .pre} (canonical : s.1.canonicalize = s.1)
    {frame : UInt32} {rtOld : Runtime (nativeEditRegions (e.version .pre))} (own : rtOld.store = s.store)
    {saved : SaveResult (nativeEditRegions (e.version .pre))} (run : saveStateSave rtOld 32768 frame = .returns saved)
    (nonzero : saved.ret ≠ 0) (image : saved.written = saveImage (nativeEditRegions (e.version .pre)) s.store frame)
    {buf : ByteSpan} (bytes : buf.bytes = saved.written) (rt : MigrateRuntime (nativeEditRegions (e.version .post)))
    (started : rt.initialized = true) : ∃ rt', saveStateLoadMigrate e.table rt buf = .returns (true, rt') ∧
      rt'.store = (e.carry s).store := by
  have settled := NativeObjects.save_cell canonical
  cases e with
  | n1 =>
    exact saveStateLoadMigrate_same settled (bytes.trans image) [] rt started
  | n2 =>
    exact saveStateLoadMigrate_same settled (bytes.trans image) [] rt started
  | struct e =>
    have header := headerOf_append (bytes.trans image)
    have differs : (headerOf buf).layoutHash ≠ rt.layoutHash := by
      rw [rt.layoutHash_eq started, header]
      exact e.hash_ne
    obtain ⟨rt', blocks, load, regions, cells, each⟩ :=
      saveStateLoadMigrate_consistent (e.consistent rfl) run nonzero bytes rt differs
    rw [own] at each
    refine ⟨rt', load, ?_⟩
    obtain ⟨frameBlock, nativeBlock, rfl⟩ := List.length_eq_two.mp
      ((List.length_map Prod.fst).symm.trans (congrArg List.length regions))
    obtain ⟨frameRegion, others⟩ := List.cons_eq_cons.mp regions
    obtain ⟨nativeRegion, -⟩ := List.cons_eq_cons.mp others
    obtain ⟨frameCarried, others⟩ := List.forall₂_cons.mp each
    obtain ⟨nativeCarried, -⟩ := List.forall₂_cons.mp others
    have frameCell := cells frameBlock List.mem_cons_self
    have nativeCell := cells nativeBlock (List.mem_cons_of_mem _ List.mem_cons_self)
    rw [frameRegion] at frameCarried frameCell
    rw [nativeRegion] at nativeCarried nativeCell
    have frameBytes : frameBlock.2 = frameState.encode s.1 := by
      have name : (regionFrameState false : RuntimeTrackedRegion Bool).name = cstr "frame_state" := rfl
      rw [Carried, name, e.findMigrateDesc_frame] at frameCarried
      exact frameCarried.trans (congrArg Prod.fst (settled _ List.mem_cons_self))
    have nativeBytes : nativeBlock.2 = (nativeCartState e.after).encode (carried (.struct e) s.2) := by
      have name : (regionNativeState e.after true : RuntimeTrackedRegion Bool).name = cstr "native_state" := rfl
      obtain ⟨old, new, -⟩ := e.descriptor_layouts
      rw [Carried, name, e.findMigrateDesc_native] at nativeCarried
      have migrated := nativeCarried _ _ old new (List.replicate e.after.size 0)
        (by rw [List.length_replicate]; cases e <;> rfl)
      have saved : ((regionNativeState e.before true).save (s.store true)).1 = (nativeCartState e.before).encode s.2 :=
        congrArg Prod.fst (settled _ (List.mem_cons_of_mem _ List.mem_cons_self))
      have block := migrated.symm.trans ((congrArg (migrateRegionBytes _ _ · _ _) saved).trans (e.migrates s.2))
      exact congrArg Prod.snd (Exec.returns.inj block)
    funext storage
    cases storage with
    | false => exact frameCell.trans frameBytes
    | true => exact nativeCell.trans nativeBytes

theorem nativeBoot_returns (e : NativeCartEdit) (side : EditSide) :
    ∃ rt, nativeBoot e side = .returns rt ∧ rt.initialized = true := by
  obtain ⟨rt, run, -, started⟩ := saveStateInit_returns (.boot _ (nativeStart e side).store)
    (nativeEditRegions_described (e.version side))
  exact ⟨rt, run, started⟩

theorem nativeStart_frameCount (e : NativeCartEdit) (side : EditSide) : (nativeStart e side).2.frameCount = 0 := by
  show NativeCartState.frameCount
    ((nativeCartState (e.version side)).decode (List.replicate (e.version side).size 0)) = 0
  cases e.version side <;> rfl

theorem zeroFrameState_canonical : AudioBranch.zeroFrameState.canonicalize = AudioBranch.zeroFrameState := by
  have zero : canonicalizeNanf 0 = 0 := by decide
  simp only [AudioBranch.zeroFrameState, FrameState.canonicalize, FrameStateMob.canonicalize, zero]

/-- A negative number saves before the first frame. -/
theorem intFrames_through (S : Int) : intFrames 0 (S + 1) = intFrames 0 (S + 1).toNat := by
  rcases Int.lt_or_le S 0 with negative | some
  · rw [intFrames_nil (by omega), intFrames_nil (by omega)]
  · rw [Int.toNat_of_nonneg (by omega)]

theorem frame_toInt {n : Nat} (bound : n < 2 ^ 31) : (UInt32.ofInt (n : Int)).toInt32.toInt = n := by
  have number : (UInt32.ofInt (n : Int)).toNat = n := by
    have reduced : ((n : Int) % 2 ^ 32).toNat = n := by omega
    exact (UInt32.toNat_ofNat_of_lt' (by rw [reduced]; exact Nat.lt_trans bound (by decide))).trans reduced
  show (UInt32.ofInt (n : Int)).toBitVec.toInt = n
  rw [BitVec.toInt_eq_toNat_of_lt (by rw [UInt32.toNat_toBitVec, number]; omega), UInt32.toNat_toBitVec, number]

namespace NativeRun
variable {w : NativeRun} {e : NativeCartEdit} {S : Int32} {n : Nat}

/-- What the program before the edit leaves behind `n` frames: its objects, and the line that is put into the file. -/
structure Saves (w : NativeRun) (e : NativeCartEdit) (S : Int32) (n : Nat) (saved : NativeOutcome e .pre)
    (text : List UInt8) (rt : Runtime (nativeEditRegions (e.version .pre)))
    (result : SaveResult (nativeEditRegions (e.version .pre))) : Prop where
  ran : w.saveMain e S = .returns saved
  buffer : saved.buffer = some text
  short : text.length ≤ 131071
  parsed : saveIoParseHex text 32768 = ⟨result.written, true⟩
  own : rt.store = saved.objects.store
  save : saveStateSave rt 32768 S.toUInt32 = .returns result
  nonzero : result.ret ≠ 0
  image : result.written = saveImage (nativeEditRegions (e.version .pre)) saved.objects.store S.toUInt32
  frames : saved.objects.1 = (w.shown (e.value .pre) AudioBranch.zeroFrameState (intFrames 0 n)).1
  count : saved.objects.2.frameCount = n

theorem saveMain_saves (fits : 7 * (n : Int) ≤ 2 ^ 31) (through : intFrames 0 (S.toInt + 1) = intFrames 0 n) :
    ∃ saved text rt result, Saves w e S n saved text rt result := by
  obtain ⟨rt, booted, -⟩ := nativeBoot_returns e .pre
  obtain ⟨native, count, ran⟩ := frames_returns (w := w) le_rfl (Int.natCast_nonneg n) fits
    (nativeStart_frameCount e .pre)
  generalize objects : w.shown (e.value .pre) (nativeStart e .pre).1 (intFrames 0 n) = played at ran
  have canonical : played.1.canonicalize = played.1 := objects ▸ shown_canonical _ zeroFrameState_canonical _
  let s : NativeObjects e .pre := (played.1, native)
  obtain ⟨text, result, save, nonzero, image, left, printed, short, parsed⟩ :=
    NativeObjects.saveAndPrint_returns (s := s) canonical (show (rt.withStore s.store).store = s.store from rfl) S.toUInt32
  refine ⟨⟨some text, played.2, s⟩, text, rt.withStore s.store, result, ?_, rfl, short, parsed, rfl, save, nonzero,
    image, congrArg Prod.fst objects.symm, count⟩
  rw [saveMain, booted, Exec.returns_bind, through, ran, Exec.returns_bind]
  dsimp only
  rw [printed, Exec.returns_bind]
  dsimp only
  rw [left, NativeObjects.nativeObjects_store]
  rfl

/-- The program behind the edit on that file. -/
theorem Saves.loadMain {saved : NativeOutcome e .pre} {text : List UInt8}
    {rtOld : Runtime (nativeEditRegions (e.version .pre))} {result : SaveResult (nativeEditRegions (e.version .pre))}
    (saves : Saves w e S n saved text rtOld result) (within : n ≤ w.nframes) (fits : 7 * (w.nframes : Int) ≤ 2 ^ 31)
    (given : Nat → Nat) : ∃ again native, w.loadMain e given (some text) = .returns (.ok ⟨some again,
        (w.shown (e.value .post) saved.objects.1 (intFrames n w.nframes)).2,
        ((w.shown (e.value .post) saved.objects.1 (intFrames n w.nframes)).1, native)⟩) ∧
      saveIoParseHex again 32768 =
        ⟨saveImage (nativeEditRegions (e.version .post)) (e.carry saved.objects).store S.toUInt32, true⟩ ∧
      w.frames e .post (e.carry saved.objects) (intFrames n w.nframes) = .returns
        (((w.shown (e.value .post) saved.objects.1 (intFrames n w.nframes)).1, native),
          (w.shown (e.value .post) saved.objects.1 (intFrames n w.nframes)).2) := by
  obtain ⟨rt, booted, started⟩ := nativeBoot_returns e .post
  have canonical : saved.objects.1.canonicalize = saved.objects.1 := by
    rw [saves.frames]
    exact shown_canonical _ zeroFrameState_canonical _
  have number : saved.objects.1.frame.toInt32.toInt = n := by
    have start : AudioBranch.zeroFrameState.frame = UInt32.ofInt 0 := rfl
    rw [saves.frames, shown_frame _ start (Int.natCast_nonneg n)]
    exact frame_toInt (by omega)
  have fits32 : result.written.length < 2 ^ 32 := by
    have small : (e.version .pre).size ≤ 16 := by cases e.version .pre <;> decide
    rw [saves.image, saveImage_length, NativeObjects.bodySize_native]
    omega
  let bin : ByteSpan := ⟨result.written, fits32⟩
  have span : spanOf result.written = .returns bin := dif_pos fits32
  have accepted : ¬(saveIoParseHex text 32768).ret < 0 := by
    rw [saves.parsed]
    exact Int.not_lt.mpr (Int.natCast_nonneg _)
  obtain ⟨rt', load, store⟩ := e.loads canonical saves.own saves.save saves.nonzero saves.image
    (show bin.bytes = result.written from rfl)
    ⟨rt, ⟨List.replicate 4096 0, scratch_length⟩⟩ started
  have frame : (headerOf bin).frame = S.toUInt32 := by
    rw [headerOf_append (show bin.bytes = _ from saves.image)]
  obtain ⟨again, result', -, -, image, left, printed, -, parsed⟩ :=
    NativeObjects.saveAndPrint_returns (s := e.carry saved.objects) canonical store S.toUInt32
  obtain ⟨native, -, ran⟩ := frames_returns (w := w) (s := e.carry saved.objects) (Int.natCast_nonneg n)
    (Int.ofNat_le.mpr within) fits ((e.frameCount_carried saved.objects.2).trans saves.count)
  refine ⟨again, native, ?_, parsed.trans (by rw [image]), ran⟩
  have next : (e.carry saved.objects).1.frame.toInt32.toInt = n := number
  rw [NativeRun.loadMain, booted, Exec.returns_bind, saveIoReadFile_short saves.short]
  dsimp only
  rw [if_neg accepted, saves.parsed, span, Exec.returns_bind, load, Exec.returns_bind]
  dsimp only
  rw [if_pos rfl, frame, printed, Exec.returns_bind]
  dsimp only
  rw [left, NativeObjects.nativeObjects_store, next, ran, Exec.returns_bind]
  rfl

/-- The edit on a saved process: the program behind the edit takes what the one before it saved, saves it again as the
edit wants it, and goes on from there. Where the edit leaves `some_value` alone its digests are those it would have had
from the start, and so are its objects as soon as a frame has run. -/
theorem edit_resumes (w : NativeRun) (e : NativeCartEdit) (fits : 7 * w.nframes ≤ 2 ^ 31) {S : Int32}
    (before : S.toInt < w.nframes) (given : Nat → Nat) : ∃ saved text loaded full,
      w.saveMain e S = .returns saved ∧ saved.buffer = some text ∧ w.fullMain e .post = .returns full ∧
      w.loadMain e given (some text) = .returns (.ok loaded) ∧
      (∃ again, loaded.buffer = some again ∧ saveIoParseHex again 32768 =
        ⟨saveImage (nativeEditRegions (e.version .post)) (e.carry saved.objects).store S.toUInt32, true⟩) ∧
      w.frames e .post (e.carry saved.objects) (intFrames (S.toInt + 1).toNat w.nframes) =
        .returns (loaded.objects, loaded.digests) ∧
      (e ≠ .n1 → loaded.digests = full.digests.drop (S.toInt + 1).toNat ∧
        ((S.toInt + 1).toNat < w.nframes → loaded.objects = full.objects)) := by
  have through := intFrames_through S.toInt
  have within : (S.toInt + 1).toNat ≤ w.nframes := by omega
  generalize (S.toInt + 1).toNat = n at through within ⊢
  have bound : 7 * (w.nframes : Int) ≤ 2 ^ 31 := by omega
  have split := intFrames_append (Int.natCast_nonneg n) (Int.ofNat_le.mpr within)
  obtain ⟨saved, text, rt, result, saves⟩ := saveMain_saves (w := w) (e := e) (by omega) through
  obtain ⟨again, native, loaded, buffer, goesOn⟩ := saves.loadMain within bound given
  -- the program behind the edit, from the start
  obtain ⟨rtNew, booted, -⟩ := nativeBoot_returns e .post
  obtain ⟨nativeAll, -, ranAll⟩ := frames_returns (w := w) le_rfl (Int.natCast_nonneg w.nframes) bound
    (nativeStart_frameCount e .post)
  have full : w.fullMain e .post = .returns ⟨none,
      (w.shown (e.value .post) (nativeStart e .post).1 (intFrames 0 w.nframes)).2,
      ((w.shown (e.value .post) (nativeStart e .post).1 (intFrames 0 w.nframes)).1, nativeAll)⟩ := by
    rw [fullMain, booted, Exec.returns_bind, ranAll]
    rfl
  refine ⟨saved, text, _, _, saves.ran, saves.buffer, full, loaded, ⟨again, rfl, buffer⟩, goesOn, fun other => ?_⟩
  have values : e.value .pre = e.value .post := by
    cases e with
    | n1 => exact absurd rfl other
    | n2 => rfl
    | struct e => rfl
  have middle : saved.objects.1 = (w.shown (e.value .post) (nativeStart e .post).1 (intFrames 0 n)).1 :=
    values ▸ saves.frames
  refine ⟨?_, fun later => ?_⟩
  · have skipped : (w.shown (e.value .post) (nativeStart e .post).1 (intFrames 0 n)).2.length = n := by
      rw [shown_length, intFrames_length]
      omega
    dsimp only
    rw [split, shown_append, ← middle, List.drop_append_of_le_length (Nat.le_of_eq skipped.symm),
      List.drop_eq_nil_of_le (Nat.le_of_eq skipped), List.nil_append]
  · obtain ⟨nativeMiddle, countMiddle, ranMiddle⟩ := frames_returns (w := w) le_rfl (Int.natCast_nonneg n) (by omega)
      (nativeStart_frameCount e .post)
    have same := frames_congr (w := w) (s := e.carry saved.objects)
      (t := ((w.shown (e.value .post) (nativeStart e .post).1 (intFrames 0 n)).1, nativeMiddle)) (Int.natCast_nonneg n)
      (Int.ofNat_lt.mpr later) bound ((e.frameCount_carried saved.objects.2).trans saves.count) middle.symm countMiddle
    have straight := frames_append ranMiddle (intFrames n w.nframes)
    rw [← split, ranAll, same, goesOn] at straight
    exact (congrArg Prod.fst (Exec.returns.inj straight)).symm

end NativeRun

/-- Two frames, with the conversion and the sum of their operands. -/
def NativeRun.two : NativeRun where
  nframes := 2
  ofI32 n := if n = 3 then 0x40400000 else 0
  add := tabulated [((0, 0x40400000), 0x40400000)]

/-- The edit that widens the frame counter, saved behind the first frame. -/
theorem NativeRun.edit_resumes_two : ∃ saved text loaded full,
    NativeRun.two.saveMain (.struct .n5) 0 = .returns saved ∧ saved.buffer = some text ∧
      NativeRun.two.fullMain (.struct .n5) .post = .returns full ∧
        NativeRun.two.loadMain (.struct .n5) (fun _ => 4096) (some text) = .returns (.ok loaded) ∧
          loaded.digests = full.digests.drop 1 ∧ loaded.objects = full.objects := by
  obtain ⟨saved, text, loaded, full, ran, buffer, straight, resumed, -, -, same⟩ :=
    NativeRun.two.edit_resumes (.struct .n5) (by decide) (S := 0) (by decide) fun _ => 4096
  obtain ⟨digests, objects⟩ := same NativeCartEdit.noConfusion
  exact ⟨saved, text, loaded, full, ran, buffer, straight, resumed, digests, objects (by decide)⟩

end Blyt
