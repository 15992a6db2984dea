import Blyt.BlytFacade

namespace Blyt.Facade
open Packed

def tickNs : UInt64 := 1000000000 / 60
def maxAudioFramesPerRun : Int := 4096

/-- The statics of the adapter. `rt` is `NULL` while no game is loaded. -/
structure RetroCore where
  rt : Option BlytRuntime
  serializeUpperBound : UInt32
  fbXrgb8888 : Fin fbBytes → UInt32
  lastRunNs : UInt64
  accumulatorNs : UInt64
  totalAudioPushed : UInt64
  totalRunCalls : UInt64
  forceTickPerRun : Bool

def adapterComputeAudioFrames (sampleRate declaredFps : UInt32) (totalPushed totalRunCalls : UInt64) : Int :=
  if declaredFps = 0 then 0
  else
    let idealAfter := (totalRunCalls + 1) * sampleRate.toUInt64 / declaredFps.toUInt64
    if idealAfter ≤ totalPushed then 0 else (idealAfter - totalPushed).toUInt32.toInt32.toInt

def adapterExpandPalette (src : Framebuffer) (palette : Fin 256 → UInt32) : Fin fbBytes → UInt32 := fun i =>
  palette ⟨(src i).toNat, (src i).toNat_lt⟩

/-- The loop over the ticks that are due, at most `n` of them: how many there are, and what is
left in the accumulator. -/
def ticksDue : Nat → UInt64 → Nat × UInt64
  | 0, acc => (0, acc)
  | n + 1, acc =>
    if tickNs ≤ acc then ((ticksDue n (acc - tickNs)).1 + 1, (ticksDue n (acc - tickNs)).2) else (0, acc)

/-- How many updates a run at `now` makes, and the accumulator behind it. -/
def RetroCore.catchUps (core : RetroCore) (now : UInt64) : Nat × UInt64 :=
  if core.forceTickPerRun then (1, 0)
  else
    let (ticks, acc) := ticksDue 3 (core.accumulatorNs + (now - core.lastRunNs))
    (ticks, if tickNs ≤ acc then tickNs - 1 else acc)

def runTicks (buttons : UInt16) : Nat → BlytRuntime → Exec BlytRuntime
  | 0, rt => .returns rt
  | n + 1, rt => do
    let rt ← blytRuntimeUpdate (blytRuntimeSetButtonState rt 0 buttons)
    runTicks buttons n rt

/-- How many samples a run asks for. -/
def RetroCore.audioDue (core : RetroCore) : Int :=
  let target := adapterComputeAudioFrames 48000 60 core.totalAudioPushed core.totalRunCalls
  if maxAudioFramesPerRun < target then maxAudioFramesPerRun else target

/-- `buttons` is what `adapter_poll_button_mask` returns. -/
def retroRun (core : RetroCore) (buttons : UInt16) (now : UInt64) : Exec RetroCore :=
  match core.rt with
  | none => .returns core
  | some rt => do
    let (ticks, acc) := core.catchUps now
    let rt ← runTicks buttons ticks rt
    let rt ← blytRuntimeDraw rt
    return { core with
      rt := some (blytRuntimePullAudio rt core.audioDue)
      fbXrgb8888 := adapterExpandPalette rt.framebuffer rt.palette
      lastRunNs := now
      accumulatorNs := acc
      totalAudioPushed := core.totalAudioPushed + UInt64.ofInt (max core.audioDue 0)
      totalRunCalls := core.totalRunCalls + 1 }

/-- The result and what the buffer holds then; its size is that of `data`. -/
def retroSerialize (core : RetroCore) (data : Option (List UInt8)) : Bool × Option (List UInt8) :=
  match core.rt, data with
  | some rt, some data =>
    if data.length < core.serializeUpperBound.toNat then (false, some data)
    else
      let (n, written) := blytRuntimeSave rt (.ofNat data.length)
      (n ≠ 0 ∧ n.toNat ≤ data.length, some (written ++ data.drop written.length))
  | _, _ => (false, data)

def retroUnserialize (core : RetroCore) (data : Option (List UInt8)) : Bool × RetroCore :=
  match core.rt, data with
  | some rt, some data =>
    let (loaded, rt) := blytRuntimeLoad (blytRuntimeReset rt) data (.ofNat data.length)
    (loaded, { core with rt := some rt })
  | _, _ => (false, core)

theorem blytRuntimeLoad_false {rt : BlytRuntime} {buf : List UInt8} {size : UInt32}
    (rejected : (blytRuntimeLoad rt buf size).1 = false) : (blytRuntimeLoad rt buf size).2 = rt := by
  unfold blytRuntimeLoad at rejected ⊢
  split
  · rfl
  dsimp only at rejected ⊢
  split
  · rfl
  split
  · rfl
  split
  · rfl
  split
  · rfl
  split
  · rfl
  · simp_all

/-- Without a runtime or a buffer nothing changes, and a buffer that is rejected leaves the runtime as
a reset does. -/
theorem retroUnserialize_rejected {core : RetroCore} {data : Option (List UInt8)}
    (failed : (retroUnserialize core data).1 = false) :
    (core.rt = none ∨ data = none) ∧ (retroUnserialize core data).2 = core ∨
      ∃ rt, core.rt = some rt ∧ (retroUnserialize core data).2 = { core with rt := some (blytRuntimeReset rt) } := by
  unfold retroUnserialize at failed ⊢
  split
  · rename_i rt data atRt
    rw [atRt] at failed
    exact .inr ⟨rt, atRt, congrArg (fun rt => { core with rt := some rt }) (blytRuntimeLoad_false failed)⟩
  · rename_i missing
    refine .inl ⟨?_, rfl⟩
    by_contra present
    obtain ⟨noRt, noData⟩ := not_or.mp present
    obtain ⟨rt, atRt⟩ := Option.ne_none_iff_exists'.mp noRt
    obtain ⟨bytes, atData⟩ := Option.ne_none_iff_exists'.mp noData
    exact missing rt bytes atRt atData

/-- A game in its first frame. -/
def playing : RetroCore where
  rt := some { blytRuntimeCreate with cart := { blytRuntimeCreate.cart with frame := 1 } }
  serializeUpperBound := 196
  fbXrgb8888 := fun _ => 0
  lastRunNs := 0
  accumulatorNs := 0
  totalAudioPushed := 0
  totalRunCalls := 0
  forceTickPerRun := true

theorem retroUnserialize_rejected_empty :
    (retroUnserialize playing (some [])).2.rt.map (·.cart.frame) = some 0 := by
  rcases retroUnserialize_rejected (show (retroUnserialize playing (some [])).1 = false from rfl) with
    ⟨missing | missing, -⟩ | ⟨rt, -, reset⟩
  · cases missing
  · cases missing
  · rw [reset]
    rfl

/-- The frame counter is back at 0 after an empty buffer was rejected. -/
theorem retroUnserialize_not_atomic :
    ¬∀ core data, (retroUnserialize core data).1 = false →
      (retroUnserialize core data).2.rt.map (·.cart.frame) = core.rt.map (·.cart.frame) := by
  intro atomic
  cases atomic playing (some []) rfl

end Blyt.Facade
