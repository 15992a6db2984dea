import Blyt.NanCanon
import Blyt.RuntimeTracked

namespace Blyt
open Packed

structure FrameStateMob where
  x : F32
  y : F32
  vx : F32
  vy : F32
  state : UInt32
  deriving DecidableEq

def frameStateMob : Codec FrameStateMob :=
  (Codec.u32.prod (Codec.u32.prod (Codec.u32.prod (Codec.u32.prod Codec.u32)))).map
    { toFun := fun ⟨x, y, vx, vy, state⟩ => ⟨x, y, vx, vy, state⟩
      invFun := fun m => (m.x, m.y, m.vx, m.vy, m.state)
      left_inv := fun _ => rfl
      right_inv := fun _ => rfl }

def frameStateMaxMobs : Nat := 64

structure FrameState where
  frame : UInt32
  rngState : UInt64
  rngInc : UInt64
  accumSin : F32
  accumCos : F32
  accumSqrt : F32
  accumMisc : F32
  mobs : Fin frameStateMaxMobs → FrameStateMob

def frameState : Codec FrameState :=
  (Codec.u32.prod (Codec.u64.prod (Codec.u64.prod (Codec.u32.prod (Codec.u32.prod (Codec.u32.prod
    (Codec.u32.prod (frameStateMob.array frameStateMaxMobs)))))))).map
    { toFun := fun ⟨frame, rngState, rngInc, accumSin, accumCos, accumSqrt, accumMisc, mobs⟩ =>
        ⟨frame, rngState, rngInc, accumSin, accumCos, accumSqrt, accumMisc, mobs⟩
      invFun := fun fs => (fs.frame, fs.rngState, fs.rngInc, fs.accumSin, fs.accumCos, fs.accumSqrt,
        fs.accumMisc, fs.mobs)
      left_inv := fun _ => rfl
      right_inv := fun _ => rfl }

theorem frameState_size : frameState.size = 1316 := rfl

theorem frameState_fits : frameState.size < 2 ^ 32 := by
  rw [frameState_size]
  decide

def FrameStateMob.canonicalize (m : FrameStateMob) : FrameStateMob :=
  { m with
    x := canonicalizeNanf m.x
    y := canonicalizeNanf m.y
    vx := canonicalizeNanf m.vx
    vy := canonicalizeNanf m.vy }

/-- What `save` does to the object before it copies it. -/
def FrameState.canonicalize (fs : FrameState) : FrameState :=
  { fs with
    accumSin := canonicalizeNanf fs.accumSin
    accumCos := canonicalizeNanf fs.accumCos
    accumSqrt := canonicalizeNanf fs.accumSqrt
    accumMisc := canonicalizeNanf fs.accumMisc
    mobs := fun i => (fs.mobs i).canonicalize }

@[simp] theorem FrameStateMob.canonicalize_idem (m : FrameStateMob) :
    m.canonicalize.canonicalize = m.canonicalize := by
  simp [FrameStateMob.canonicalize]

@[simp] theorem FrameState.canonicalize_idem (fs : FrameState) :
    fs.canonicalize.canonicalize = fs.canonicalize := by
  simp [FrameState.canonicalize]

structure VoiceEndEvent where
  frame : UInt32
  handle : UInt8
  kind : UInt8
  deriving DecidableEq

def voiceEndEvent : Codec VoiceEndEvent :=
  (Codec.u32.prod (Codec.u8.prod Codec.u8)).map
    { toFun := fun ⟨frame, handle, kind⟩ => ⟨frame, handle, kind⟩
      invFun := fun e => (e.frame, e.handle, e.kind)
      left_inv := fun _ => rfl
      right_inv := fun _ => rfl }

def voiceEndPendingMax : Nat := 8

/-- `runtime_voice_end_queue_t`. -/
structure VoiceEndQueue where
  logicalViewBits : UInt64
  pendingCount : UInt8
  pending : Fin voiceEndPendingMax → VoiceEndEvent

def voiceEndQueue : Codec VoiceEndQueue :=
  (Codec.u64.prod (Codec.u8.prod (voiceEndEvent.array voiceEndPendingMax))).map
    { toFun := fun ⟨bits, count, pending⟩ => ⟨bits, count, pending⟩
      invFun := fun q => (q.logicalViewBits, q.pendingCount, q.pending)
      left_inv := fun _ => rfl
      right_inv := fun _ => rfl }

theorem voiceEndQueue_size : voiceEndQueue.size = 57 := rfl

theorem voiceEndQueue_fits : voiceEndQueue.size < 2 ^ 32 := by
  rw [voiceEndQueue_size]
  decide

/-- One row of `cart_state_lua_simple_t`. -/
structure LuaSimpleEntity where
  x : F32
  y : F32
  a : F32
  deriving DecidableEq

def luaSimpleEntity : Codec LuaSimpleEntity :=
  (Codec.u32.prod (Codec.u32.prod Codec.u32)).map
    { toFun := fun ⟨x, y, a⟩ => ⟨x, y, a⟩
      invFun := fun e => (e.x, e.y, e.a)
      left_inv := fun _ => rfl
      right_inv := fun _ => rfl }

def luaSimpleNumEntities : Nat := 8

/-- `cart_state_lua_simple_t`: the packed struct is its one array. -/
abbrev CartStateLuaSimple := Fin luaSimpleNumEntities → LuaSimpleEntity

def cartStateLuaSimple : Codec CartStateLuaSimple := luaSimpleEntity.array luaSimpleNumEntities

def CartStateLuaSimple.canonicalize (cs : CartStateLuaSimple) : CartStateLuaSimple := fun i =>
  { x := canonicalizeNanf (cs i).x, y := canonicalizeNanf (cs i).y, a := canonicalizeNanf (cs i).a }

structure CartStateWhetstone where
  a : F32
  b : F32
  c : F32
  d : F32
  e1 : Fin 4 → F32
  t : F32
  u : F32

def cartStateWhetstone : Codec CartStateWhetstone :=
  (Codec.u32.prod (Codec.u32.prod (Codec.u32.prod (Codec.u32.prod ((Codec.u32.array 4).prod
    (Codec.u32.prod Codec.u32)))))).map
    { toFun := fun ⟨a, b, c, d, e1, t, u⟩ => ⟨a, b, c, d, e1, t, u⟩
      invFun := fun s => (s.a, s.b, s.c, s.d, s.e1, s.t, s.u)
      left_inv := fun _ => rfl
      right_inv := fun _ => rfl }

def CartStateWhetstone.canonicalize (s : CartStateWhetstone) : CartStateWhetstone :=
  { a := canonicalizeNanf s.a
    b := canonicalizeNanf s.b
    c := canonicalizeNanf s.c
    d := canonicalizeNanf s.d
    e1 := fun i => canonicalizeNanf (s.e1 i)
    t := canonicalizeNanf s.t
    u := canonicalizeNanf s.u }

/-- `runtime_screen_shake_t`; the two `i32` fields are held as bit patterns. -/
structure ScreenShake where
  remainingFrames : UInt32
  intensity : F32
  decay : F32
  seed : UInt32
  deriving DecidableEq

def screenShake : Codec ScreenShake :=
  (Codec.u32.prod (Codec.u32.prod (Codec.u32.prod Codec.u32))).map
    { toFun := fun ⟨frames, intensity, decay, seed⟩ => ⟨frames, intensity, decay, seed⟩
      invFun := fun s => (s.remainingFrames, s.intensity, s.decay, s.seed)
      left_inv := fun _ => rfl
      right_inv := fun _ => rfl }

def ScreenShake.canonicalize (s : ScreenShake) : ScreenShake :=
  { s with intensity := canonicalizeNanf s.intensity, decay := canonicalizeNanf s.decay }

/-- `runtime_coroutine_save_blob_t`. -/
structure CoroutineSaveBlob where
  activeSlotsBits : UInt32
  slots : Fin 4 → Fin 32 → UInt8

def coroutineSaveBlob : Codec CoroutineSaveBlob :=
  (Codec.u32.prod ((Codec.u8.array 32).array 4)).map
    { toFun := fun ⟨bits, slots⟩ => ⟨bits, slots⟩
      invFun := fun s => (s.activeSlotsBits, s.slots)
      left_inv := fun _ => rfl
      right_inv := fun _ => rfl }

def maxPersistentScripts : Nat := 64
def persistentScriptSlotBytes : Nat := 256

/-- `runtime_persistent_scripts_t`. -/
structure PersistentScripts where
  activeBits : Fin 2 → UInt32
  slotLens : Fin maxPersistentScripts → UInt16
  slots : Fin maxPersistentScripts → Fin persistentScriptSlotBytes → UInt8

def persistentScripts : Codec PersistentScripts :=
  ((Codec.u32.array 2).prod ((Codec.u16.array maxPersistentScripts).prod
    ((Codec.u8.array persistentScriptSlotBytes).array maxPersistentScripts))).map
    { toFun := fun ⟨active, lens, slots⟩ => ⟨active, lens, slots⟩
      invFun := fun p => (p.activeBits, p.slotLens, p.slots)
      left_inv := fun _ => rfl
      right_inv := fun _ => rfl }

/-- `NATIVE_STATE_VERSION`: the shapes `native_cart_state_t` is compiled in. -/
inductive NativeStateVersion where
  | v0 | v3 | v4 | v5 | v6
  deriving DecidableEq

/-- `sizeof(native_cart_state_t)`. -/
def NativeStateVersion.size : NativeStateVersion → Nat
  | v0 => 12
  | v3 => 16
  | v4 => 12
  | v5 => 16
  | v6 => 16

/-- `LUA_STATE_VERSION`: the shapes `lua_cart_state_t` is compiled in. -/
inductive LuaStateVersion where
  | v0 | v2 | v3 | v4
  deriving DecidableEq

/-- `sizeof(lua_cart_state_t)`. -/
def LuaStateVersion.size : LuaStateVersion → Nat
  | v0 => 12
  | v2 => 16
  | v3 => 12
  | v4 => 12

/-- A struct no callback looks into, as its bytes. -/
def rawBytes (n : Nat) : Codec (Fin n → UInt8) := Codec.u8.array n

variable {ι : Type} {α : Type}

/-- The callbacks every tracked region shares. `save` canonicalizes the object
in place and copies it out; `load` checks the length, copies `src` over the
object and only then looks at what it copied. -/
def packedRegion (name : CString) (codec : Codec α) (fits : codec.size < 2 ^ 32)
    (describe : List UInt8) (canonicalize : α → α) (accept : α → Bool) (storage : ι) :
    RuntimeTrackedRegion ι where
  name := name
  size := UInt32.ofNat codec.size
  describe := some describe
  storage := storage
  save cell :=
    let image := codec.encode (canonicalize (codec.decode cell))
    (image, image)
  load src cell := if src.length ≠ codec.size then (false, cell) else (accept (codec.decode src), src)
  save_length _ := (codec.length_encode _).trans (UInt32.toNat_ofNat_of_lt' fits).symm

/-- `name:type@` and the offset of each field, separated by commas. -/
def describeFields (fields : List (String × Nat)) : List UInt8 :=
  (fields.map fun f => ascii f.1 ++ decimal f.2).intersperse [44] |>.flatten

/-- The spike-n form, with a comma behind the last field too. -/
def describeFieldsComma (fields : List (String × Nat)) : List UInt8 :=
  fields.flatMap fun f => ascii f.1 ++ decimal f.2 ++ [44]

def regionFrameState (g_fs : ι) : RuntimeTrackedRegion ι :=
  packedRegion (cstr "frame_state") frameState frameState_fits
    (describeFields [("frame:u32@", 0), ("rng_state:u64@", 4), ("rng_inc:u64@", 12), ("accum_sin:f32@", 20),
      ("accum_cos:f32@", 24), ("accum_sqrt:f32@", 28), ("accum_misc:f32@", 32),
      ("mobs[64]={x:f32,y:f32,vx:f32,vy:f32,state:u32}@", 36)])
    FrameState.canonicalize (fun _ => true) g_fs

/-- The only `load` that inspects what it copied. -/
def regionVoiceEndQueue (g_q : ι) : RuntimeTrackedRegion ι :=
  packedRegion (cstr "voice_end_queue") voiceEndQueue voiceEndQueue_fits
    (describeFields [("logical_view_bits:u64@", 0), ("pending_count:u8@", 8),
      ("pending[8]={frame:u32,handle:u8,kind:u8}@", 9)])
    id (fun q => decide (q.pendingCount.toNat ≤ voiceEndPendingMax)) g_q

def regionCartStateLuaSimple (g_state : ι) : RuntimeTrackedRegion ι :=
  packedRegion (cstr "cart_state_lua_simple") cartStateLuaSimple (by decide)
    (describeFields [("entities[8]={x:f32@0,y:f32@4,a:f32@8}@", 0)])
    CartStateLuaSimple.canonicalize (fun _ => true) g_state

def regionCartStateWhetstone (g_state : ι) : RuntimeTrackedRegion ι :=
  packedRegion (cstr "cart_state_whetstone") cartStateWhetstone (by decide)
    (describeFields [("a:f32@", 0), ("b:f32@", 4), ("c:f32@", 8), ("d:f32@", 12), ("e1[4]:f32@", 16),
      ("t:f32@", 32), ("u:f32@", 36)])
    CartStateWhetstone.canonicalize (fun _ => true) g_state

def regionScreenShake (g_shake : ι) : RuntimeTrackedRegion ι :=
  packedRegion (cstr "screen_shake") screenShake (by decide)
    (describeFields [("remaining_frames:i32@", 0), ("intensity:f32@", 4), ("decay:f32@", 8), ("seed:i32@", 12)])
    ScreenShake.canonicalize (fun _ => true) g_shake

def regionCoroutineSaveBlob (g_blob : ι) : RuntimeTrackedRegion ι :=
  packedRegion (cstr "coroutine_save_blob") coroutineSaveBlob (by decide)
    (describeFields [("active_slots_bits:u32@", 0), ("slots[4][32]:u8@", 4)]) id (fun _ => true) g_blob

def regionPersistentScripts (g_region : ι) : RuntimeTrackedRegion ι :=
  packedRegion (cstr "persistent_scripts") persistentScripts (by decide)
    (describeFields [("active_bits[2]:u32@", 0), ("slot_lens[64]:u16@", 8), ("slots[64][256]:u8@", 136)])
    id (fun _ => true) g_region

def NativeStateVersion.describe : NativeStateVersion → List UInt8
  | v0 => describeFieldsComma [("frame_count:i32@", 0), ("some_value:i32@", 4), ("unused_count:i32@", 8)]
  | v3 => describeFieldsComma [("frame_count:i32@", 0), ("some_value:i32@", 4), ("unused_count:i32@", 8),
      ("last_score:i32@", 12)]
  | v4 => describeFieldsComma [("frame_count:i32@", 0), ("some_value:i32@", 4), ("last_score:i32@", 8)]
  | v5 => describeFieldsComma [("frame_count:i64@", 0), ("some_value:i32@", 8), ("last_score:i32@", 12)]
  | v6 => describeFieldsComma [("some_value:i32@", 0), ("last_score:i32@", 4), ("frame_count:i64@", 8)]

def regionNativeState (v : NativeStateVersion) (g_state : ι) : RuntimeTrackedRegion ι :=
  packedRegion (cstr "native_state") (rawBytes v.size) (by cases v <;> decide) v.describe id
    (fun _ => true) g_state

def LuaStateVersion.describe : LuaStateVersion → List UInt8
  | v0 => describeFieldsComma [("score:i32@", 0), ("step:i32@", 4), ("combo:i32@", 8)]
  | v2 => describeFieldsComma [("score:i32@", 0), ("step:i32@", 4), ("combo:i32@", 8), ("bonus:i32@", 12)]
  | v3 => describeFieldsComma [("score:i32@", 0), ("step:i32@", 4), ("combo:i32@", 8)]
  | v4 => describeFieldsComma [("score:i32@", 0), ("step:i32@", 4), ("combo_mult:f32@", 8)]

def regionLuaCartState (v : LuaStateVersion) (g_lua_state : ι) : RuntimeTrackedRegion ι :=
  packedRegion (cstr "lua_cart_state") (rawBytes v.size) (by cases v <;> decide) v.describe id
    (fun _ => true) g_lua_state

/-- The tracked regions of the three `cart_runtime` directories. -/
inductive CartRuntimeRegion : RuntimeTrackedRegion ι → Prop
  | frameState (g : ι) : CartRuntimeRegion (regionFrameState g)
  | voiceEndQueue (g : ι) : CartRuntimeRegion (regionVoiceEndQueue g)
  | cartStateLuaSimple (g : ι) : CartRuntimeRegion (regionCartStateLuaSimple g)
  | cartStateWhetstone (g : ι) : CartRuntimeRegion (regionCartStateWhetstone g)
  | screenShake (g : ι) : CartRuntimeRegion (regionScreenShake g)
  | coroutineSaveBlob (g : ι) : CartRuntimeRegion (regionCoroutineSaveBlob g)
  | persistentScripts (g : ι) : CartRuntimeRegion (regionPersistentScripts g)
  | nativeState (v : NativeStateVersion) (g : ι) : CartRuntimeRegion (regionNativeState v g)
  | luaCartState (v : LuaStateVersion) (g : ι) : CartRuntimeRegion (regionLuaCartState v g)

end Blyt
