import Blyt.FrameWorkload

namespace Blyt
open Packed SettledLoop

/-! The persistent state of a coroutine, in a slot of the save blob. -/

namespace CoroutineSaveBlob

/-- `coroutine_blob_activate`. -/
def activate (b : CoroutineSaveBlob) (slot : UInt8) : CoroutineSaveBlob :=
  if 4 ≤ slot then b else { b with activeSlotsBits := b.activeSlotsBits ||| (1 <<< slot.toUInt32) }

/-- `coroutine_blob_is_active`. -/
def isActive (b : CoroutineSaveBlob) (slot : UInt8) : Bool :=
  if 4 ≤ slot then false else b.activeSlotsBits &&& (1 <<< slot.toUInt32) ≠ 0

/-- `coroutine_blob_write`. -/
def write (b : CoroutineSaveBlob) (slot : UInt8) (src : List UInt8) : CoroutineSaveBlob :=
  { b with slots := fun k i => if k.val = slot.toNat then src.getD i.val (b.slots k i) else b.slots k i }

/-- `coroutine_blob_read`, with what it copies; `none` where it returns 0. -/
def read (b : CoroutineSaveBlob) (slot : UInt8) (n : Nat) : Option (List UInt8) :=
  if inside : slot.toNat < 4 then
    if b.activeSlotsBits &&& (1 <<< slot.toUInt32) = 0 then none
    else some ((List.ofFn (b.slots ⟨slot.toNat, inside⟩)).take n)
  else none

theorem read_write {b : CoroutineSaveBlob} {slot : UInt8} (active : b.isActive slot) {src : List UInt8}
    (fits : src.length ≤ 32) : (b.write slot src).read slot src.length = some src := by
  rw [isActive] at active
  split at active
  · cases active
  · rename_i within
    have inside : slot.toNat < 4 := Nat.lt_of_not_le fun outside => within (UInt8.le_iff_toNat_le.mpr outside)
    have bit : ¬(b.write slot src).activeSlotsBits &&& (1 <<< slot.toUInt32) = 0 := of_decide_eq_true active
    rw [read, dif_pos inside, if_neg bit]
    refine congrArg some (List.ext_getElem? fun i => ?_)
    by_cases front : i < src.length
    · rw [List.getElem?_take_of_lt front, List.getElem?_ofFn, dif_pos (by omega), List.getElem?_eq_getElem front]
      show some (if slot.toNat = slot.toNat then src.getD i _ else _) = _
      rw [if_pos rfl, List.getD_eq_getElem _ _ front]
    · rw [List.getElem?_take_eq_none (by omega), List.getElem?_eq_none (by omega)]

end CoroutineSaveBlob

/-- `cutscene_state_t`. -/
structure CutsceneState where
  step : UInt32
  angle : F32
  deriving DecidableEq

def cutsceneState : Codec CutsceneState :=
  (Codec.u32.prod Codec.u32).map
    { toFun := fun ⟨step, angle⟩ => ⟨step, angle⟩
      invFun := fun s => (s.step, s.angle)
      left_inv := fun _ => rfl
      right_inv := fun _ => rfl }

/-- What `det_cutscene` is compiled with and for. `stack` is what is in `s` at a frame, or where the load program prints
its line, when the slot is not active. -/
structure DetCutscene where
  host : HostF32
  nframes : UInt32
  stack : Option UInt32 → List UInt8

namespace DetCutscene

def zeroBlob : CoroutineSaveBlob := ⟨0, fun _ _ => 0⟩

/-- `cutscene_init`. -/
def init : CoroutineSaveBlob := (zeroBlob.activate 0).write 0 (cutsceneState.encode ⟨0, 0⟩)

/-- `cutscene_step` and the frame number. -/
def frame (w : DetCutscene) (s : FrameState × CoroutineSaveBlob) (f : UInt32) : FrameState × CoroutineSaveBlob :=
  let c := cutsceneState.decode ((s.2.read 0 cutsceneState.size).getD (w.stack (some f)))
  let step := c.step + 1
  let angle := w.host.ofU32 ((step * 17) % 360)
  let sum := w.host.add (w.host.ofU32 step) (w.host.mul angle 0x3a83126f) -- 0.001f
  ({ s.1 with accumMisc := w.host.add s.1.accumMisc sum, frame := f }, s.2.write 0 (cutsceneState.encode ⟨step, angle⟩))

/-- The line `CUTSCENE`. -/
def report (w : DetCutscene) (b : CoroutineSaveBlob) : CutsceneState :=
  cutsceneState.decode ((b.read 0 cutsceneState.size).getD (w.stack none))

theorem name_noNul : 0 ∉ ascii "coroutine_save_blob" := by decide

theorem codec_small : coroutineSaveBlob.size ≤ 4096 := by decide

def workload (w : DetCutscene) : FrameWorkload CoroutineSaveBlob CutsceneState where
  name := cstr "coroutine_save_blob" name_noNul
  codec := coroutineSaveBlob
  text := describeFields [("active_slots_bits:u32@", 0), ("slots[4][32]:u8@", 4)]
  small := codec_small
  canonicalize := id
  zero := zeroBlob
  start := init
  frame := w.frame
  resumeFrame := w.frame
  report := w.report
  nframes := w.nframes

theorem workload_region (w : DetCutscene) : w.workload.region = regionCoroutineSaveBlob true := rfl

theorem sound (w : DetCutscene) : w.workload.Sound fun s => s.2.isActive 0 where
  turn := by
    intro s f active
    exact active
  agrees := by
    intro s f _
    refine FrameWorkload.shows_congr ?_ rfl
    show ({ s.1.canonicalize with accumMisc := w.host.add (canonicalizeNanf s.1.accumMisc) _, frame := f } :
      FrameState).canonicalize = ({ s.1 with accumMisc := w.host.add s.1.accumMisc _, frame := f } : FrameState).canonicalize
    simp only [FrameState.canonicalize, HostF32.canonicalizeNanf_add, canonicalizeNanf_idem,
      FrameStateMob.canonicalize_idem]
    rfl
  described := by
    have text : layoutText w.workload.registry =
        layoutText ⟨[regionFrameState false, regionCoroutineSaveBlob true], by decide⟩ := rfl
    rw [describable_iff, text]
    decide +kernel
  first := show init.isActive 0 = true by decide
  settled _ _ := rfl
  numbered _ _ := rfl

/-- The cutscene behind so many frames. -/
def after (w : DetCutscene) (n : Nat) : CutsceneState :=
  ⟨UInt32.ofNat n, if n = 0 then 0 else w.host.ofU32 ((UInt32.ofNat n * 17) % 360)⟩

/-- The slot holds the cutscene behind the frames that were played. -/
theorem play_blob (w : DetCutscene) (n : Nat) :
    (w.workload.loop.play w.workload.first ((List.range n).map UInt32.ofNat)).2.isActive 0 = true ∧
      (w.workload.loop.play w.workload.first ((List.range n).map UInt32.ofNat)).2.read 0 cutsceneState.size =
        some (cutsceneState.encode (w.after n)) := by
  induction n with
  | zero => exact show init.isActive 0 = true ∧ init.read 0 cutsceneState.size = some (cutsceneState.encode ⟨0, 0⟩) by decide
  | succ n ih =>
    obtain ⟨active, slot⟩ := ih
    rw [List.range_succ, List.map_append, List.map_singleton, Loop.play, List.foldl_append, List.foldl_cons, List.foldl_nil]
    rw [Loop.play] at active slot
    generalize ((List.range n).map UInt32.ofNat).foldl w.workload.loop.turn w.workload.first = s at active slot ⊢
    have step : UInt32.ofNat n + 1 = UInt32.ofNat (n + 1) := (UInt32.ofNat_add n 1).symm
    have wrote : (w.workload.loop.turn s (UInt32.ofNat n)).2 = s.2.write 0 (cutsceneState.encode (w.after (n + 1))) := by
      show (w.frame s (UInt32.ofNat n)).2 = _
      rw [frame, slot, Option.getD_some, Codec.decode_encode, after, after, if_neg (Nat.succ_ne_zero n), step]
    have length : (cutsceneState.encode (w.after (n + 1))).length = cutsceneState.size := cutsceneState.length_encode _
    rw [wrote]
    refine ⟨active, ?_⟩
    rw [← length]
    exact CoroutineSaveBlob.read_write active (by rw [length]; decide)

/-- Saving the cutscene at a frame and going on with it in another process: the load program has the step and the angle
of that frame, and its digests are those of the straight run behind it. -/
theorem cutscene_resumes (w : DetCutscene) {S : UInt32} (before : S < w.nframes) (given : Nat → Nat) :
    ∃ text digests, w.workload.saveMain S = .returns (some text) ∧ w.workload.fullMain = .returns digests ∧
      w.workload.loadMain given (some text) =
        .returns (.ok (⟨S + 1, w.host.ofU32 (((S + 1) * 17) % 360)⟩, digests.drop (S.toNat + 1))) := by
  obtain ⟨text, digests, saved, full, loaded⟩ := w.sound.resumes before (fun _ _ _ _ => rfl) given
  have next : UInt32.ofNat (S.toNat + 1) = S + 1 := by
    rw [UInt32.ofNat_add, UInt32.ofNat_toNat]
    rfl
  have reported : w.workload.report (w.workload.savePoint S).2 = ⟨S + 1, w.host.ofU32 (((S + 1) * 17) % 360)⟩ := by
    have slot := (w.play_blob (S.toNat + 1)).2
    show w.report (w.workload.loop.play w.workload.first _).2 = _
    rw [report, AudioBranch.framesThrough, slot, Option.getD_some, Codec.decode_encode, after,
      if_neg (Nat.succ_ne_zero S.toNat), next]
  exact ⟨text, digests, saved, full, reported ▸ loaded⟩

/-- Two frames, with the arithmetic of their operands. -/
def twoFrames : DetCutscene where
  host := .known
    [((0x3f800000, 0x3c8b4396), 0x3f822d0e), ((0, 0x3f822d0e), 0x3f822d0e), ((0x40000000, 0x3d0b4396), 0x40022d0e),
      ((0x3f822d0e, 0x40022d0e), 0x40434395)]
    [] [((0x41880000, 0x3a83126f), 0x3c8b4396), ((0x42080000, 0x3a83126f), 0x3d0b4396)]
    [(1, 0x3f800000), (2, 0x40000000), (17, 0x41880000), (34, 0x42080000)] (by decide) (by decide)
  nframes := 2
  stack _ := []

theorem cutscene_resumes_twoFrames : ∃ text digests, twoFrames.workload.saveMain 0 = .returns (some text) ∧
    twoFrames.workload.fullMain = .returns digests ∧
      twoFrames.workload.loadMain (fun _ => 4096) (some text) = .returns (.ok (⟨1, 0x41880000⟩, digests.drop 1)) :=
  twoFrames.cutscene_resumes (S := 0) (by decide) fun _ => 4096

end DetCutscene
/-! The screen shake. -/

/-- A byte of `hash3`. -/
def hashByte (h : UInt32) (b : UInt8) : UInt32 := (h ^^^ b.toUInt32) * 0x01000193

/-- `hash3`. -/
def hash3 (a b c : UInt32) : UInt32 :=
  (Codec.u32.encode a ++ Codec.u32.encode b ++ Codec.u32.encode c).foldl hashByte 0x811c9dc5

/-- `hash_to_unit_signed`. -/
def hashToUnitSigned (host : HostF32) (h : UInt32) : F32 :=
  host.sub (host.mul (host.ofU32 (h >>> 8)) 0x33800000) 0x3f000000 -- 2^-24 and 0.5f

/-- The `decay` of `blyt_screen_shake`, `0.95f`. -/
def shakeDecay : F32 := 0x3f733333

/-- `blyt_screen_shake`. -/
def blytScreenShake (frames : UInt32) (intensity : F32) : ScreenShake where
  remainingFrames := frames
  intensity := intensity
  decay := shakeDecay
  seed := intensity ^^^ frames * 0x9e3779b1

/-- `screen_shake_tick`: `dx`, `dy` and the object behind it. -/
def screenShakeTick (host : HostF32) (frame : UInt32) (s : ScreenShake) : F32 × F32 × ScreenShake :=
  if s.remainingFrames.toInt32 ≤ 0 then (0, 0, s)
  else
    (host.mul (hashToUnitSigned host (hash3 frame s.seed 0)) s.intensity,
      host.mul (hashToUnitSigned host (hash3 frame s.seed 1)) s.intensity,
      { s with intensity := host.mul s.intensity s.decay, remainingFrames := s.remainingFrames - 1 })

/-- `fold_offset_into_digest`. -/
def foldOffsetIntoDigest (host : HostF32) (dx dy : F32) (fs : FrameState) : FrameState :=
  { fs with
    accumMisc := host.add fs.accumMisc (host.add (host.mul dx 0x3fc00000) (host.mul dy 0x40200000)) -- 1.5f and 2.5f
    accumSin := host.add fs.accumSin (host.mul (host.ofU32 ((dx >>> 8) &&& 0xff)) 0x3b000000) -- 2^-9
    accumCos := host.add fs.accumCos (host.mul (host.ofU32 ((dy >>> 8) &&& 0xff)) 0x3b000000) }

/-- What `det_shake` is compiled with and for: `SHAKE_TRIGGER_FRAME`, `SHAKE_FRAMES` and `SHAKE_INTENSITY`. -/
structure DetShake where
  host : HostF32
  nframes : UInt32
  triggerFrame : UInt32
  frames : UInt32
  intensity : F32
  number : ¬IsNan32 intensity

namespace DetShake

/-- A turn of the frame loop. -/
def frame (w : DetShake) (s : FrameState × ScreenShake) (f : UInt32) : FrameState × ScreenShake :=
  let shake := if f = w.triggerFrame then blytScreenShake w.frames w.intensity else s.2
  let (dx, dy, shake) := screenShakeTick w.host f shake
  ({ foldOffsetIntoDigest w.host dx dy s.1 with frame := f }, shake)

/-- The turns of the load program trigger no shake. -/
def loadFrame (w : DetShake) (s : FrameState × ScreenShake) (f : UInt32) : FrameState × ScreenShake :=
  let (dx, dy, shake) := screenShakeTick w.host f s.2
  ({ foldOffsetIntoDigest w.host dx dy s.1 with frame := f }, shake)

def zeroShake : ScreenShake := ⟨0, 0, 0, 0⟩

theorem name_noNul : 0 ∉ ascii "screen_shake" := by decide

theorem codec_small : screenShake.size ≤ 4096 := by decide

def workload (w : DetShake) : FrameWorkload ScreenShake ScreenShake where
  name := cstr "screen_shake" name_noNul
  codec := screenShake
  text := describeFields [("remaining_frames:i32@", 0), ("intensity:f32@", 4), ("decay:f32@", 8), ("seed:i32@", 12)]
  small := codec_small
  canonicalize := ScreenShake.canonicalize
  zero := zeroShake
  start := zeroShake
  frame := w.frame
  resumeFrame := w.loadFrame
  report := id
  nframes := w.nframes

theorem workload_region (w : DetShake) : w.workload.region = regionScreenShake true := rfl

/-- A shake without a NaN, that decays while it goes on. -/
structure Decays (s : ScreenShake) : Prop where
  intensity : ¬IsNan32 s.intensity
  decay : s.decay = shakeDecay ∨ s.decay = 0 ∧ s.remainingFrames = 0

theorem Decays.tick {host : HostF32} {s : ScreenShake} (decays : Decays s) (f : UInt32) :
    Decays (screenShakeTick host f s).2.2 := by
  rw [screenShakeTick]
  split
  · exact decays
  · rename_i goes
    have factor : s.decay = shakeDecay := by
      refine decays.decay.resolve_right fun still => goes ?_
      rw [still.2]
      decide
    refine ⟨?_, .inl factor⟩
    show ¬IsNan32 (host.mul s.intensity s.decay)
    rw [factor]
    exact host.mul_number _ _ decays.intensity ⟨by decide, by decide⟩

theorem Decays.canonical {s : ScreenShake} (decays : Decays s) : s.canonicalize = s := by
  have decay : ¬IsNan32 s.decay := by
    rcases decays.decay with goes | ⟨still, -⟩
    · rw [goes]
      decide
    · rw [still]
      decide
  rw [ScreenShake.canonicalize, canonicalizeNanf_eq, canonicalizeNanf_eq, if_neg decays.intensity, if_neg decay]

/-- The NaNs of the state before do not show behind canonicalization. -/
theorem foldOffsetIntoDigest_canonicalize (host : HostF32) (dx dy : F32) (fs : FrameState) (f : UInt32) :
    ({ foldOffsetIntoDigest host dx dy fs.canonicalize with frame := f } : FrameState).canonicalize =
      ({ foldOffsetIntoDigest host dx dy fs with frame := f } : FrameState).canonicalize := by
  simp only [foldOffsetIntoDigest, FrameState.canonicalize, HostF32.canonicalizeNanf_add, canonicalizeNanf_idem,
    FrameStateMob.canonicalize_idem]

theorem sound (w : DetShake) : w.workload.Sound fun s => Decays s.2 where
  turn := by
    intro s f decays
    have shake : Decays (if f = w.triggerFrame then blytScreenShake w.frames w.intensity else s.2) := by
      split
      · exact ⟨w.number, .inl rfl⟩
      · exact decays
    exact shake.tick f
  agrees := by
    intro s f _
    refine FrameWorkload.shows_congr ?_ rfl
    exact foldOffsetIntoDigest_canonicalize w.host _ _ s.1 f
  described := by
    have text : layoutText w.workload.registry =
        layoutText ⟨[regionFrameState false, regionScreenShake true], by decide⟩ := rfl
    rw [describable_iff, text]
    decide +kernel
  first := show Decays zeroShake from ⟨by decide, .inr ⟨rfl, rfl⟩⟩
  settled _ decays := decays.canonical
  numbered _ _ := rfl

/-- Saving in the middle of a shake, or where none comes any more, and going on in another process. A shake that the
straight run triggers later the load program does not have. -/
theorem shake_resumes (w : DetShake) {S : UInt32} (before : S < w.nframes)
    (triggered : w.triggerFrame ≤ S ∨ w.nframes ≤ w.triggerFrame) (given : Nat → Nat) :
    ∃ text digests, w.workload.saveMain S = .returns (some text) ∧ w.workload.fullMain = .returns digests ∧
      w.workload.loadMain given (some text) =
        .returns (.ok ((w.workload.savePoint S).2, digests.drop (S.toNat + 1))) := by
  refine w.sound.resumes before (fun f behind within s => ?_) given
  have later : ¬f = w.triggerFrame := by
    rintro rfl
    rcases triggered with past | never
    · exact UInt32.not_lt.mpr past behind
    · exact UInt32.not_lt.mpr never within
  show w.loadFrame s f = w.frame s f
  rw [loadFrame, frame, if_neg later]

/-- Two frames of a shake of twenty, with the arithmetic of their operands. -/
def shaken : DetShake where
  host := .known
    [((0xbfbafdc2, 0x408ddef6), 0x403e3f0b), ((0, 0x403e3f0b), 0x403e3f0b), ((0, 0x3e240000), 0x3e240000),
      ((0, 0x3efe0000), 0x3efe0000), ((0xbf2e0dbf, 0x3febc6b6), 0x3f94bfd6), ((0x403e3f0b, 0x3f94bfd6), 0x40844f7b),
      ((0x3e240000, 0x3d100000), 0x3e480000), ((0x3efe0000, 0x3e9e0000), 0x3f4e0000)]
    [((0x3e8356d4, 0x3f000000), 0xbe795258), ((0x3f717f2b, 0x3f000000), 0x3ee2fe56),
      ((0x3ec2edb4, 0x3f000000), 0xbdf44930), ((0x3f31a319, 0x3f000000), 0x3e468c64)]
    [((0x4a8356d4, 0x33800000), 0x3e8356d4), ((0xbe795258, 0x40800000), 0xbf795258),
      ((0x4b717f2b, 0x33800000), 0x3f717f2b), ((0x3ee2fe56, 0x40800000), 0x3fe2fe56),
      ((0x40800000, 0x3f733333), 0x40733333), ((0xbf795258, 0x3fc00000), 0xbfbafdc2),
      ((0x3fe2fe56, 0x40200000), 0x408ddef6), ((0x42a40000, 0x3b000000), 0x3e240000),
      ((0x437e0000, 0x3b000000), 0x3efe0000), ((0x4ac2edb4, 0x33800000), 0x3ec2edb4),
      ((0xbdf44930, 0x40733333), 0xbee81254), ((0x4b31a319, 0x33800000), 0x3f31a319),
      ((0x3e468c64, 0x40733333), 0x3f3c9ef8), ((0x40733333, 0x3f733333), 0x40670a3d),
      ((0xbee81254, 0x3fc00000), 0xbf2e0dbf), ((0x3f3c9ef8, 0x40200000), 0x3febc6b6),
      ((0x41900000, 0x3b000000), 0x3d100000), ((0x431e0000, 0x3b000000), 0x3e9e0000)]
    [(4303722, 0x4a8356d4), (15826731, 0x4b717f2b), (82, 0x42a40000), (254, 0x437e0000), (6387418, 0x4ac2edb4),
      (11641625, 0x4b31a319), (18, 0x41900000), (158, 0x431e0000)] (by decide) (by decide)
  nframes := 2
  triggerFrame := 0
  frames := 20
  intensity := 0x40800000
  number := by decide

theorem shake_resumes_shaken : ∃ text digests, shaken.workload.saveMain 0 = .returns (some text) ∧
    shaken.workload.fullMain = .returns digests ∧ shaken.workload.loadMain (fun _ => 4096) (some text) =
      .returns (.ok (⟨19, 0x40733333, shakeDecay, 0x1cd581d4⟩, digests.drop 1)) := by
  have saved : (shaken.workload.savePoint 0).2 = ⟨19, 0x40733333, shakeDecay, 0x1cd581d4⟩ := by decide +kernel
  exact saved ▸ shaken.shake_resumes (S := 0) (by decide) (.inl (by decide)) fun _ => 4096

end DetShake
end Blyt
