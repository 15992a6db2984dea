import Blyt.Lib.UsedPrefix
import Blyt.SaveState

namespace Blyt.Facade
open Packed UsedPrefix

def fbWidth : Nat := 320
def fbHeight : Nat := 240
def fbBytes : Nat := fbWidth * fbHeight

/-- `cart_state_t`, without `BLYT_FACADE_ALT_LAYOUT`. -/
structure CartState where
  frame : UInt32
  rectX : Int32
  rectY : Int32
  rectColor : UInt8
  pad : Fin 3 → UInt8
  buttonMask : UInt32
  accelCount : UInt32

def i32 : Codec Int32 :=
  Codec.u32.map
    { toFun := UInt32.toInt32
      invFun := Int32.toUInt32
      left_inv := UInt32.toUInt32_toInt32
      right_inv := Int32.toInt32_toUInt32 }

def cartState : Codec CartState :=
  (Codec.u32.prod (i32.prod (i32.prod (Codec.u8.prod ((Codec.u8.array 3).prod (Codec.u32.prod Codec.u32)))))).map
    { toFun := fun ⟨frame, rectX, rectY, rectColor, pad, buttonMask, accelCount⟩ =>
        ⟨frame, rectX, rectY, rectColor, pad, buttonMask, accelCount⟩
      invFun := fun c => (c.frame, c.rectX, c.rectY, c.rectColor, c.pad, c.buttonMask, c.accelCount)
      left_inv := fun _ => rfl
      right_inv := fun _ => rfl }

theorem cartState_size : cartState.size = 24 := rfl

/-- An element of `pending`. -/
structure PendingEnd where
  frameN : UInt32
  voiceHandle : UInt8
  pad : Fin 3 → UInt8

def pendingEnd : Codec PendingEnd :=
  (Codec.u32.prod (Codec.u8.prod (Codec.u8.array 3))).map
    { toFun := fun ⟨frameN, voiceHandle, pad⟩ => ⟨frameN, voiceHandle, pad⟩
      invFun := fun e => (e.frameN, e.voiceHandle, e.pad)
      left_inv := fun _ => rfl
      right_inv := fun _ => rfl }

structure VoiceEndQueue where
  pendingCount : UInt32
  pending : Fin 16 → PendingEnd

def voiceEndQueue : Codec VoiceEndQueue :=
  (Codec.u32.prod (pendingEnd.array 16)).map
    { toFun := fun ⟨pendingCount, pending⟩ => ⟨pendingCount, pending⟩
      invFun := fun q => (q.pendingCount, q.pending)
      left_inv := fun _ => rfl
      right_inv := fun _ => rfl }

theorem voiceEndQueue_size : voiceEndQueue.size = 132 := rfl

structure ScreenShake where
  frameCount : UInt32
  seed : UInt32
  intensity : UInt32
  remainingFrames : UInt32

def screenShake : Codec ScreenShake :=
  (Codec.u32.prod (Codec.u32.prod (Codec.u32.prod Codec.u32))).map
    { toFun := fun ⟨frameCount, seed, intensity, remainingFrames⟩ => ⟨frameCount, seed, intensity, remainingFrames⟩
      invFun := fun s => (s.frameCount, s.seed, s.intensity, s.remainingFrames)
      left_inv := fun _ => rfl
      right_inv := fun _ => rfl }

theorem screenShake_size : screenShake.size = 16 := rfl

/-- The string literal with its embedded NULs, and the one behind it that `sizeof` counts. -/
def layoutDesc : List UInt8 :=
  ascii "cart_state|24|frame:u32:0,rect_x:i32:4,rect_y:i32:8,rect_color:u8:12," ++
    ascii "button_mask:u32:16,accel_count:u32:20" ++ [0] ++
    ascii "voice_end_queue|132|pending_count:u32:0,pending[16]:rec:4" ++ [0] ++
    ascii "screen_shake|16|frame_count:u32:0,seed:u32:4,intensity:u32:8,remaining_frames:u32:12" ++ [0, 0]

def computeLayoutHash : UInt64 := fnv1a64Bytes layoutDesc

abbrev Framebuffer := Fin fbBytes → UInt8

/-- `struct blyt_runtime`. What `blyt_runtime_create` computes once no call changes. -/
structure BlytRuntime where
  cart : CartState
  voiceQ : VoiceEndQueue
  shake : ScreenShake
  framebuffer : Framebuffer
  palette : Fin 256 → UInt32
  buttonMask : Fin 2 → UInt16
  audioPhaseHi : UInt32
  audioPhaseLo : UInt32
  audioTotalFramesEmitted : UInt32
  layoutHash : UInt64
  slotsLocked : Bool
  saveUpperBound : UInt32
  layoutHash_eq : layoutHash = computeLayoutHash
  saveUpperBound_eq : saveUpperBound = 196

/-- A row of `synthetic_schedule`. -/
structure MixerEvent where
  handle : UInt8
  endsAtFrame : UInt32

def syntheticSchedule : List MixerEvent := [⟨1, 150⟩, ⟨2, 150⟩]

def VoiceEndQueue.record (q : VoiceEndQueue) (frame : UInt32) (handle : UInt8) : VoiceEndQueue :=
  if h : q.pendingCount.toNat < 16 then
    { pendingCount := q.pendingCount + 1
      pending := store q.pending q.pendingCount.toNat ⟨frame, handle, (q.pending ⟨q.pendingCount.toNat, h⟩).pad⟩ }
  else q

def mixerReportEndOfFrame (rt : BlytRuntime) (frame : UInt32) : BlytRuntime :=
  { rt with
    voiceQ := syntheticSchedule.foldl (fun q e => if e.endsAtFrame = frame then q.record frame e.handle else q)
      rt.voiceQ }

def initPalette (i : Fin 256) : UInt32 :=
  let r := (i.val / 32 % 8) * 255 / 7
  let g := (i.val / 4 % 8) * 255 / 7
  let b := (i.val % 4) * 255 / 3
  0xff000000 ||| UInt32.ofNat (r * 2 ^ 16) ||| UInt32.ofNat (g * 2 ^ 8) ||| UInt32.ofNat b

def CartState.zero : CartState := ⟨0, 0, 0, 0, fun _ => 0, 0, 0⟩
def VoiceEndQueue.zero : VoiceEndQueue := ⟨0, fun _ => ⟨0, 0, fun _ => 0⟩⟩

def cartInit (rt : BlytRuntime) : BlytRuntime :=
  { rt with
    cart := { CartState.zero with rectX := 32, rectY := 32, rectColor := 0xe3 }
    voiceQ := .zero
    shake := ⟨0, 0x600d5eed, 0, 0⟩
    audioPhaseHi := 0
    audioPhaseLo := 0
    audioTotalFramesEmitted := 0 }

def blytRuntimeCreate : BlytRuntime :=
  cartInit
    { cart := .zero
      voiceQ := .zero
      shake := ⟨0, 0, 0, 0⟩
      framebuffer := fun _ => 0
      palette := initPalette
      buttonMask := fun _ => 0
      audioPhaseHi := 0
      audioPhaseLo := 0
      audioTotalFramesEmitted := 0
      layoutHash := computeLayoutHash
      slotsLocked := true
      saveUpperBound := 24 + 24 + 132 + 16
      layoutHash_eq := rfl
      saveUpperBound_eq := rfl }

def blytRuntimeReset (rt : BlytRuntime) : BlytRuntime := cartInit rt

def buttonUp : UInt16 := 0x01
def buttonDown : UInt16 := 0x02
def buttonLeft : UInt16 := 0x04
def buttonRight : UInt16 := 0x08
def buttonA : UInt16 := 0x10

def pressed (mask button : UInt16) : Bool := mask &&& button != 0

/-- A sum that no `int32_t` holds is undefined. -/
def addInt (x : Int32) (d : Int) : Exec Int32 :=
  if -2 ^ 31 ≤ x.toInt + d ∧ x.toInt + d < 2 ^ 31 then .returns (.ofInt (x.toInt + d)) else .outOfBounds

/-- `if (x < 0) x = 0; if (x > bound) x = bound;`. -/
def keepWithin (bound x : Int32) : Int32 :=
  let x := if x < 0 then 0 else x
  if bound < x then bound else x

def moveIf (pressed : Bool) (x : Int32) (d : Int) : Exec Int32 := if pressed then addInt x d else .returns x

def moveX (mask : UInt16) (x : Int32) : Exec Int32 := do
  let x ← addInt x (if pressed mask buttonRight then 4 else 1)
  let x ← moveIf (pressed mask buttonLeft) x (-4)
  return keepWithin (.ofNat (fbWidth - 64)) x

def moveY (mask : UInt16) (y : Int32) : Exec Int32 := do
  let y ← moveIf (pressed mask buttonDown) y 4
  let y ← moveIf (pressed mask buttonUp) y (-4)
  return keepWithin (.ofNat (fbHeight - 32)) y

def tickCart (mask : UInt16) (cart : CartState) : CartState :=
  let cart := { cart with frame := cart.frame + 1, buttonMask := mask.toUInt32 }
  if pressed mask buttonA then { cart with frame := cart.frame + 1, accelCount := cart.accelCount + 1 } else cart

def updateCart (mask : UInt16) (cart : CartState) : Exec CartState := do
  let cart := tickCart mask cart
  let x ← moveX mask cart.rectX
  let y ← moveY mask cart.rectY
  return { cart with rectX := x, rectY := y }

def blytRuntimeUpdate (rt : BlytRuntime) : Exec BlytRuntime := do
  let cart ← updateCart (rt.buttonMask 0) rt.cart
  return mixerReportEndOfFrame { rt with cart := cart } cart.frame

/-- A negative length is a huge one. -/
def memset (fb : Framebuffer) (off len : Int) (v : UInt8) : Exec Framebuffer :=
  if 0 ≤ off ∧ 0 ≤ len ∧ off + len ≤ fbBytes then
    .returns fun i => if off ≤ i.val ∧ i.val < off + len then v else fb i
  else .outOfBounds

/-- The rows of the background. -/
def drawBackground (frame : UInt32) : List Nat → Framebuffer → Exec Framebuffer
  | [], fb => .returns fb
  | y :: ys, fb => do
    let base := UInt8.ofNat (y * 256 / fbHeight) ^^^ (frame &&& 7).toUInt8
    let fb ← memset fb (y * fbWidth) fbWidth base
    drawBackground frame ys fb

/-- `n` rows of the rectangle, from row `y` on. -/
def drawRect (color : UInt8) (x0 x1 : Int) : Nat → Int → Framebuffer → Exec Framebuffer
  | 0, _, fb => .returns fb
  | n + 1, y, fb => do
    let fb ← memset fb (y * fbWidth + x0) (x1 - x0) color
    drawRect color x0 x1 n (y + 1) fb

def drawFrame (cart : CartState) (fb : Framebuffer) : Exec Framebuffer := do
  let fb ← drawBackground cart.frame (List.range fbHeight) fb
  let x1 ← addInt cart.rectX 64
  let y1 ← addInt cart.rectY 32
  let y0 := cart.rectY.toInt
  drawRect cart.rectColor cart.rectX.toInt (min x1.toInt fbWidth) (min y1.toInt fbHeight - y0).toNat y0 fb

def blytRuntimeDraw (rt : BlytRuntime) : Exec BlytRuntime := do
  let fb ← drawFrame rt.cart rt.framebuffer
  return { rt with framebuffer := fb }

/-- What `blyt_runtime_pull_audio` does to the runtime when it emits `frames` samples. -/
def blytRuntimePullAudio (rt : BlytRuntime) (frames : Int) : BlytRuntime :=
  if frames ≤ 0 then rt
  else
    let count := UInt32.ofInt frames
    let incHi := UInt32.ofNat (440 * 2 ^ 32 / 48000)
    let incLo := UInt32.ofNat (660 * 2 ^ 32 / 48000)
    { rt with
      audioPhaseHi := if 30 ≤ rt.cart.frame ∧ rt.cart.frame < 150 then rt.audioPhaseHi + count * incHi else rt.audioPhaseHi
      audioPhaseLo := if 90 ≤ rt.cart.frame ∧ rt.cart.frame < 150 then rt.audioPhaseLo + count * incLo else rt.audioPhaseLo
      audioTotalFramesEmitted := rt.audioTotalFramesEmitted + count }

def blytRuntimeSetButtonState (rt : BlytRuntime) (player : Int) (mask : UInt16) : BlytRuntime :=
  if player < 0 ∨ 1 < player then rt
  else { rt with buttonMask := fun p => if (p.val : Int) = player then mask else rt.buttonMask p }

/-- The result and what was written to a buffer of `cap` bytes. -/
def blytRuntimeSave (rt : BlytRuntime) (cap : UInt32) : UInt32 × List UInt8 :=
  if cap < rt.saveUpperBound then (0, [])
  else
    (rt.saveUpperBound,
      saveStateHeader.encode ⟨saveStateMagic, saveStateVersion, rt.layoutHash, rt.cart.frame, rt.saveUpperBound⟩ ++
        cartState.encode rt.cart ++ voiceEndQueue.encode rt.voiceQ ++ screenShake.encode rt.shake)

/-- With `size` at most the number of bytes there are. -/
def blytRuntimeLoad (rt : BlytRuntime) (buf : List UInt8) (size : UInt32) : Bool × BlytRuntime :=
  if size < 24 then (false, rt)
  else
    let h := saveStateHeader.decode (buf.take 24)
    if h.magic ≠ saveStateMagic then (false, rt)
    else if h.version ≠ saveStateVersion then (false, rt)
    else if h.layoutHash ≠ rt.layoutHash then (false, rt)
    else if size < h.totalSize then (false, rt)
    else if h.totalSize ≠ rt.saveUpperBound then (false, rt)
    else
      let p := buf.drop 24
      (true, { rt with
        cart := cartState.decode (p.take 24)
        voiceQ := voiceEndQueue.decode ((p.drop 24).take 132)
        shake := screenShake.decode ((p.drop 156).take 16) })

/-- The rectangle stays inside the framebuffer. -/
structure CartState.Within (c : CartState) : Prop where
  left : 0 ≤ c.rectX.toInt
  right : c.rectX.toInt + 64 ≤ fbWidth
  top : 0 ≤ c.rectY.toInt
  bottom : c.rectY.toInt + 32 ≤ fbHeight

theorem addInt_returns {x : Int32} {d : Int} (low : -2 ^ 31 ≤ x.toInt + d) (high : x.toInt + d < 2 ^ 31) :
    ∃ y, addInt x d = .returns y ∧ y.toInt = x.toInt + d :=
  ⟨_, if_pos ⟨low, high⟩, Int32.toInt_ofInt_of_le low high⟩

theorem keepWithin_bounds (bound : Int32) (nonneg : 0 ≤ bound.toInt) (x : Int32) :
    0 ≤ (keepWithin bound x).toInt ∧ (keepWithin bound x).toInt ≤ bound.toInt := by
  have zero : (0 : Int32).toInt = 0 := rfl
  simp only [keepWithin, Int32.lt_iff_toInt_lt]
  split <;> split <;> omega

theorem moveIf_returns {x : Int32} {d : Int} (b : Bool) (low : -2 ^ 31 ≤ x.toInt + d) (high : x.toInt + d < 2 ^ 31) :
    ∃ y, moveIf b x d = .returns y ∧ min x.toInt (x.toInt + d) ≤ y.toInt := by
  cases b with
  | false => exact ⟨x, rfl, Int.min_le_left _ _⟩
  | true =>
    obtain ⟨y, run, value⟩ := addInt_returns low high
    exact ⟨y, run, value ▸ Int.min_le_right _ _⟩

theorem moveX_within {x : Int32} (mask : UInt16) (left : 0 ≤ x.toInt) (right : x.toInt + 64 ≤ fbWidth) :
    ∃ x', moveX mask x = .returns x' ∧ 0 ≤ x'.toInt ∧ x'.toInt + 64 ≤ fbWidth := by
  have width : (fbWidth : Int) = 320 := rfl
  have bound : (Int32.ofNat (fbWidth - 64)).toInt = 256 := rfl
  obtain ⟨pace, at_, slow, fast⟩ : ∃ d : Int, (if pressed mask buttonRight then 4 else 1) = d ∧ 0 < d ∧ d ≤ 4 :=
    ⟨_, rfl, by split <;> omega, by split <;> omega⟩
  obtain ⟨right', run, value⟩ := addInt_returns (x := x) (d := pace) (by omega) (by omega)
  obtain ⟨left', run', -⟩ := moveIf_returns (x := right') (d := -4) (pressed mask buttonLeft) (by omega) (by omega)
  have kept := keepWithin_bounds (.ofNat (fbWidth - 64)) (by omega) left'
  refine ⟨keepWithin (.ofNat (fbWidth - 64)) left', ?_, kept.1, by omega⟩
  rw [moveX, at_, run, Exec.returns_bind, run']
  rfl

theorem moveY_within {y : Int32} (mask : UInt16) (top : 0 ≤ y.toInt) (bottom : y.toInt + 32 ≤ fbHeight) :
    ∃ y', moveY mask y = .returns y' ∧ 0 ≤ y'.toInt ∧ y'.toInt + 32 ≤ fbHeight := by
  have height : (fbHeight : Int) = 240 := rfl
  have bound : (Int32.ofNat (fbHeight - 32)).toInt = 208 := rfl
  obtain ⟨down, run, below⟩ := moveIf_returns (x := y) (d := 4) (pressed mask buttonDown) (by omega) (by omega)
  have small := down.toInt_lt
  obtain ⟨up, run', -⟩ := moveIf_returns (x := down) (d := -4) (pressed mask buttonUp) (by omega) (by omega)
  have kept := keepWithin_bounds (.ofNat (fbHeight - 32)) (by omega) up
  refine ⟨keepWithin (.ofNat (fbHeight - 32)) up, ?_, kept.1, by omega⟩
  rw [moveY, run, Exec.returns_bind, run']
  rfl

theorem tickCart_rect (mask : UInt16) (c : CartState) :
    (tickCart mask c).rectX = c.rectX ∧ (tickCart mask c).rectY = c.rectY := by
  unfold tickCart
  dsimp only
  split <;> exact ⟨rfl, rfl⟩

/-- From a rectangle inside the framebuffer an update returns, and moves it nowhere else. -/
theorem updateCart_within {c : CartState} (within : c.Within) (mask : UInt16) :
    ∃ c', updateCart mask c = .returns c' ∧ c'.Within ∧ c'.frame = (tickCart mask c).frame := by
  obtain ⟨atX, atY⟩ := tickCart_rect mask c
  obtain ⟨x, runX, left, right⟩ := moveX_within mask within.left within.right
  obtain ⟨y, runY, top, bottom⟩ := moveY_within mask within.top within.bottom
  refine ⟨{ tickCart mask c with rectX := x, rectY := y }, ?_, ⟨left, right, top, bottom⟩, rfl⟩
  simp only [updateCart, atX, atY, runX, runY, Exec.returns_bind]
  rfl

theorem blytRuntimeReset_within (rt : BlytRuntime) : (blytRuntimeReset rt).cart.Within := by
  have start : (32 : Int32).toInt = 32 := rfl
  constructor <;> show _ ≤ _ <;> simp only [blytRuntimeReset, cartInit, start] <;> decide

theorem fbBytes_eq : fbBytes = 76800 := rfl

theorem memset_returns (fb : Framebuffer) {off len : Nat} (fits : off + len ≤ fbBytes) (v : UInt8) :
    memset fb off len v = .returns fun i => if off ≤ i.val ∧ i.val < off + len then v else fb i := by
  rw [memset, if_pos (by omega)]
  refine congrArg Exec.returns (funext fun i => ?_)
  norm_cast

theorem memset_row {fb : Framebuffer} {y : Nat} (fits : y * 320 + 320 ≤ fbBytes) (v : UInt8) :
    memset fb (y * fbWidth) fbWidth v =
      .returns fun i => if y * 320 ≤ i.val ∧ i.val < y * 320 + 320 then v else fb i := by
  have row := memset_returns fb fits v
  rw [Nat.cast_mul] at row
  exact row

/-- Below a pixel the two look alike. -/
def AgreeBelow (k : Nat) (fb fb' : Framebuffer) : Prop := ∀ i, i.val < k → fb i = fb' i

theorem drawBackground_agree (frame : UInt32) (fb fb' : Framebuffer) (n k : Nat) (rows : k + n ≤ 240)
    (agree : AgreeBelow (k * 320) fb fb') :
    ∃ g g', drawBackground frame (List.range' k n) fb = .returns g ∧
      drawBackground frame (List.range' k n) fb' = .returns g' ∧ AgreeBelow ((k + n) * 320) g g' := by
  induction n generalizing k fb fb' with
  | zero => exact ⟨fb, fb', rfl, rfl, agree⟩
  | succ n ih =>
    have fits : k * 320 + 320 ≤ fbBytes := by
      rw [fbBytes_eq]
      omega
    rw [List.range'_succ, drawBackground, drawBackground, memset_row fits, memset_row fits, Exec.returns_bind,
      Exec.returns_bind]
    rw [show k + (n + 1) = (k + 1) + n by omega]
    refine ih _ _ (k + 1) (by omega) fun i below => ?_
    rw [Nat.succ_mul] at below
    split
    · rfl
    · rename_i outside
      exact agree i (Nat.lt_of_not_le fun low => outside ⟨low, below⟩)

theorem drawRect_returns (color : UInt8) {x0 x1 : Int} (left : 0 ≤ x0) (ordered : x0 ≤ x1) (right : x1 ≤ fbWidth)
    (n : Nat) {y : Int} (top : 0 ≤ y) (bottom : y + n ≤ fbHeight) (fb : Framebuffer) :
    ∃ g, drawRect color x0 x1 n y fb = .returns g := by
  induction n generalizing y fb with
  | zero => exact ⟨fb, rfl⟩
  | succ n ih =>
    rw [show (fbWidth : Int) = 320 from rfl] at right
    rw [show (fbHeight : Int) = 240 from rfl] at bottom
    have inside : 0 ≤ y * fbWidth + x0 ∧ 0 ≤ x1 - x0 ∧ y * fbWidth + x0 + (x1 - x0) ≤ fbBytes := by
      rw [show (fbWidth : Int) = 320 from rfl, fbBytes_eq]
      omega
    rw [drawRect, memset, if_pos inside, Exec.returns_bind]
    exact ih (by omega) (by rw [show (fbHeight : Int) = 240 from rfl]; omega) _

/-- A frame depends on the cart alone: it is drawn over whatever was there. -/
theorem drawFrame_fresh {c : CartState} (within : c.Within) (fb fb' : Framebuffer) :
    ∃ g, drawFrame c fb = .returns g ∧ drawFrame c fb' = .returns g := by
  obtain ⟨g, g', run, run', agree⟩ := drawBackground_agree c.frame fb fb' 240 0 (by omega) fun i below => by omega
  have same : g = g' := funext fun i => agree i i.isLt
  subst same
  have width : (fbWidth : Int) = 320 := rfl
  have height : (fbHeight : Int) = 240 := rfl
  obtain ⟨left, right, top, bottom⟩ := within
  obtain ⟨x1, runX, atX⟩ := addInt_returns (x := c.rectX) (d := 64) (by omega) (by omega)
  obtain ⟨y1, runY, atY⟩ := addInt_returns (x := c.rectY) (d := 32) (by omega) (by omega)
  obtain ⟨frame, drawn⟩ := drawRect_returns c.rectColor left (by omega : _ ≤ min x1.toInt fbWidth)
    (by omega) (min y1.toInt fbHeight - c.rectY.toInt).toNat top (by omega) g
  have draws {fb : Framebuffer} (background : drawBackground c.frame (List.range' 0 240) fb = .returns g) :
      drawFrame c fb = .returns frame := by
    rw [← List.range_eq_range'] at background
    rw [drawFrame, show fbHeight = 240 from rfl, background, Exec.returns_bind, runX, Exec.returns_bind, runY,
      Exec.returns_bind]
    exact drawn
  exact ⟨frame, draws run, draws run'⟩

end Blyt.Facade
