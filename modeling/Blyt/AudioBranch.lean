import Blyt.FrameDigest
import Blyt.SaveStateRoundTrip
import Blyt.VoiceEndQueue

namespace Blyt
open Packed VoiceEndQueue

/-- A voice of the workload: its handle, and what a frame adds while it plays and when not. -/
structure AudioVoice where
  handle : { h : UInt8 // h < 64 }
  playing : F32
  silent : F32

/-- What the workload is compiled with: the voices, the mixer's schedule and the frame count.
`add` is the `f32` addition of the host. -/
structure AudioBranch where
  voices : List AudioVoice
  schedule : List SyntheticMixerEvent
  nframes : UInt32
  add : F32 → F32 → F32

/-- The objects the workload works on. -/
structure AudioState where
  fs : FrameState
  q : VoiceEndQueue

namespace AudioBranch
variable (w : AudioBranch)

/-- What a voice adds to a frame. -/
def contribution (q : VoiceEndQueue) (v : AudioVoice) : F32 := if voiceIsPlaying q v.handle then v.playing else v.silent

def accumulate (s : AudioState) : AudioState :=
  { s with fs := { s.fs with
      accumMisc := w.voices.foldl (fun sum v => w.add sum (contribution s.q v)) s.fs.accumMisc } }

/-- A turn of the frame loop, up to the digest. -/
def frame (s : AudioState) (f : UInt32) : AudioState :=
  let s := w.accumulate { s with q := voiceEndApplyPending s.q }
  { fs := { s.fs with frame := f }, q := syntheticMixerReportEndOfFrame w.schedule f s.q }

/-- The frame loop of the save program, which emits nothing. -/
def play (s : AudioState) (frames : List UInt32) : AudioState := frames.foldl w.frame s

/-- The frame loop of the programs that emit a digest for each frame. -/
def emit (s : AudioState) : List UInt32 → List Digest
  | [] => []
  | f :: frames =>
    let s := w.frame s f
    (frameStateEmitDigest s.fs).2 :: emit ⟨(frameStateEmitDigest s.fs).1, s.q⟩ frames

/-- `for (uint32_t f = first; f < bound; f++)`. -/
def frames (first bound : UInt32) : List UInt32 :=
  (List.range' first.toNat (bound.toNat - first.toNat)).map UInt32.ofNat

/-- `for (uint32_t f = 0; f <= save_frame; f++)`, for a `save_frame` below `UINT32_MAX`. -/
def framesThrough (save_frame : UInt32) : List UInt32 := (List.range (save_frame.toNat + 1)).map UInt32.ofNat

def zeroFrameState : FrameState := ⟨0, 0, 0, 0, 0, 0, 0, fun _ => ⟨0, 0, 0, 0, 0⟩⟩

/-- The objects before the first frame, every voice started. -/
def start : AudioState :=
  ⟨zeroFrameState, w.voices.foldl (fun q v => voiceStart q v.handle) .zero⟩

/-- `det_audio_branch_full`: the digests of the straight run. -/
def fullDigests : List Digest := w.emit w.start (frames 0 w.nframes)

/-- `det_audio_branch_save`: the objects when it saves at frame `S`. -/
def savePoint (S : UInt32) : AudioState := w.play w.start (framesThrough S)

/-- `det_audio_branch_load` behind the load: the digests from the next frame on. -/
def loadDigests (s : AudioState) : List Digest := w.emit s (frames (s.fs.frame + 1) w.nframes)

end AudioBranch

/-- The objects as the regions of a process hold them. -/
def AudioState.store (s : AudioState) : Bool → List UInt8
  | false => frameState.encode s.fs
  | true => voiceEndQueue.encode s.q

def audioState (store : Bool → List UInt8) : AudioState :=
  ⟨frameState.decode (store false), voiceEndQueue.decode (store true)⟩

/-- A state without a NaN to canonicalize, and a queue within bounds. -/
structure AudioState.Clean (s : AudioState) : Prop where
  canonical : s.fs.canonicalize = s.fs
  number : ¬IsNan32 s.fs.accumMisc
  fits : s.q.pendingCount.toNat ≤ voiceEndPendingMax

theorem FrameState.canonicalize_accumMisc {fs : FrameState} (canonical : fs.canonicalize = fs) {x : F32}
    (number : ¬IsNan32 x) (f : UInt32) :
    { fs with accumMisc := x, frame := f }.canonicalize = { fs with accumMisc := x, frame := f } := by
  have same : canonicalizeNanf x = x := by rw [canonicalizeNanf_eq, if_neg number]
  have fields := FrameState.mk.injEq .. ▸ canonical
  obtain ⟨-, -, -, sin, cos, sqrt, -, mobs⟩ := fields
  simp only [FrameState.canonicalize, same, sin, cos, sqrt, mobs]

namespace AudioBranch
variable {w : AudioBranch}

/-- The host's addition makes no NaN out of what the voices contribute. -/
def NoNan (w : AudioBranch) : Prop :=
  ∀ x, ¬IsNan32 x → ∀ v ∈ w.voices, ¬IsNan32 (w.add x v.playing) ∧ ¬IsNan32 (w.add x v.silent)

theorem contribution_number (noNan : w.NoNan) (q : VoiceEndQueue) {voices : List AudioVoice}
    (known : ∀ v ∈ voices, v ∈ w.voices) {x : F32} (number : ¬IsNan32 x) :
    ¬IsNan32 (voices.foldl (fun sum v => w.add sum (contribution q v)) x) := by
  induction voices generalizing x with
  | nil => exact number
  | cons v voices ih =>
    refine ih (fun v' member => known v' (List.mem_cons_of_mem _ member)) ?_
    obtain ⟨playing, silent⟩ := noNan x number v (known v List.mem_cons_self)
    show ¬IsNan32 (w.add x (if voiceIsPlaying q v.handle then v.playing else v.silent))
    split
    · exact playing
    · exact silent

theorem Clean.frame (noNan : w.NoNan) {s : AudioState} (clean : s.Clean) (f : UInt32) : (w.frame s f).Clean := by
  have number := contribution_number noNan (voiceEndApplyPending s.q) (fun _ member => member) clean.number
  exact ⟨FrameState.canonicalize_accumMisc clean.canonical number f, number, fits_report (Nat.zero_le _) f⟩

theorem clean_start (w : AudioBranch) : w.start.Clean := by
  have started : ∀ (voices : List AudioVoice) (q : VoiceEndQueue), q.pendingCount.toNat ≤ voiceEndPendingMax →
      (voices.foldl (fun q v => voiceStart q v.handle) q).pendingCount.toNat ≤ voiceEndPendingMax := by
    intro voices
    induction voices with
    | nil => exact fun q fits => fits
    | cons v voices ih => exact fun q fits => ih _ (fits_voiceStart fits v.handle)
  have number : ¬IsNan32 0 := by decide
  refine ⟨?_, number, started w.voices .zero (Nat.zero_le _)⟩
  have zero : canonicalizeNanf 0 = 0 := by decide
  simp only [start, zeroFrameState, FrameState.canonicalize, FrameStateMob.canonicalize, zero]

theorem Clean.play (noNan : w.NoNan) {s : AudioState} (clean : s.Clean) (fs : List UInt32) : (w.play s fs).Clean := by
  induction fs generalizing s with
  | nil => exact clean
  | cons f fs ih => exact ih (Clean.frame noNan clean f)

/-- Without a NaN, emitting a digest changes nothing, and a run can be taken up in the middle. -/
theorem emit_append (noNan : w.NoNan) {s : AudioState} (clean : s.Clean) (before after : List UInt32) :
    w.emit s (before ++ after) = w.emit s before ++ w.emit (w.play s before) after := by
  induction before generalizing s with
  | nil => rfl
  | cons f before ih =>
    have next := Clean.frame noNan clean f
    have same : (frameStateEmitDigest (w.frame s f).fs).1 = (w.frame s f).fs := next.canonical
    rw [List.cons_append, emit, emit, same, ih next, List.cons_append]
    rfl

theorem emit_length (s : AudioState) (fs : List UInt32) : (w.emit s fs).length = fs.length := by
  induction fs generalizing s with
  | nil => rfl
  | cons f fs ih => rw [emit, List.length_cons, List.length_cons, ih]

theorem play_frame (s : AudioState) {fs : List UInt32} {f : UInt32} (last : fs.getLast? = some f) :
    (w.play s fs).fs.frame = f := by
  obtain ⟨before, rfl⟩ := List.getLast?_eq_some_iff.mp last
  rw [play, List.foldl_append]
  rfl

end AudioBranch

section
open AudioBranch
variable {w : AudioBranch}

/-- The digests of the straight run after frame `S` are those of a process that starts from
the objects at the save point. -/
theorem fullDigests_drop (noNan : w.NoNan) {S : UInt32} (before : S < w.nframes) :
    w.fullDigests.drop (S.toNat + 1) = w.loadDigests (w.savePoint S) := by
  have inside : S.toNat < w.nframes.toNat := UInt32.lt_iff_toNat_lt.mp before
  have bound := w.nframes.toNat_lt
  have next : (S + 1).toNat = S.toNat + 1 := by
    rw [UInt32.toNat_add]
    exact Nat.mod_eq_of_lt (show S.toNat + 1 < 2 ^ 32 by omega)
  have cut : frames 0 w.nframes = framesThrough S ++ frames (S + 1) w.nframes := by
    have split : w.nframes.toNat - 0 = (S.toNat + 1) + (w.nframes.toNat - (S.toNat + 1)) := by omega
    rw [frames, frames, framesThrough, next, ← List.map_append, List.range_eq_range']
    show (List.range' 0 (w.nframes.toNat - 0)).map _ = _
    rw [split, ← List.range'_append]
    simp
  have last : (framesThrough S).getLast? = some S := by
    rw [framesThrough, List.range_succ, List.map_append]
    simp
  rw [fullDigests, cut, emit_append noNan (clean_start w), List.drop_append_of_le_length, List.drop_eq_nil_of_le,
    List.nil_append, loadDigests, savePoint, play_frame _ last]
  · rw [emit_length, framesThrough, List.length_map, List.length_range]
  · rw [emit_length, framesThrough, List.length_map, List.length_range]

/-- Saving after frame `S` and going on in another process emits the digests the straight run
emits after frame `S`. -/
theorem audioBranch_resumes (noNan : w.NoNan) {S : UInt32} (before : S < w.nframes) {rt : Runtime frameAndQueue}
    (objects : rt.store = (w.savePoint S).store) :
    ∃ saved : SaveResult frameAndQueue, saveStateSave rt 8192 S = .returns saved ∧ saved.ret ≠ 0 ∧
      ∀ buf : ByteSpan, buf.bytes = saved.written → ∀ other : Runtime frameAndQueue, ∃ loaded : Runtime frameAndQueue,
        saveStateLoad other buf = .returns (true, loaded) ∧
          w.loadDigests (audioState loaded.store) = w.fullDigests.drop (S.toNat + 1) := by
  have clean : (w.savePoint S).Clean := Clean.play noNan (clean_start w) _
  have described : Describable frameAndQueue := describable_iff.mpr (by decide +kernel)
  have styled : ∀ r ∈ frameAndQueue.regions, StyledRegion r := by
    intro r member
    simp only [frameAndQueue, List.mem_cons, List.not_mem_nil, or_false] at member
    rcases member with rfl | rfl
    · exact .frame _ _ _
    · exact .queue _ _ _
  have valid : QueuesInRange frameAndQueue rt.store := by
    intro name text g member
    simp only [frameAndQueue, List.mem_cons, List.not_mem_nil, or_false] at member
    rcases member with frame | queue
    · exact absurd frame (voiceEndQueueStyle_ne_frameState _ _ _ _)
    · obtain rfl : g = true := congrArg RuntimeTrackedRegion.storage queue
      rw [objects, AudioState.store, Codec.decode_encode]
      exact clean.fits
  have exact := described.capacity_exact fun r member => (styled r member).size_le
  have settles := fun r member => (styled r member).settles member valid
  have room : saveStateBufferCapacity frameAndQueue ≤ 8192 := by decide
  obtain ⟨saved, save, ret, written, -⟩ := saveStateSave_again rt S described exact room fun r _ => rfl
  refine ⟨saved, save, by rw [ret]; decide, fun buf bytes other => ?_⟩
  rw [written] at bytes
  obtain ⟨loaded, load, cells⟩ := saveStateLoad_saveImage described bytes other fun r member => by
    rw [(settles r member _).1]
  have images : ∀ r ∈ frameAndQueue.regions, loaded.store r.storage = (r.save (rt.store r.storage)).1 := by
    intro r member
    rw [cells r member, (settles r member _).1]
  refine ⟨loaded, load, ?_⟩
  have frameCell : loaded.store false = frameState.encode (frameState.decode (rt.store false)).canonicalize :=
    images (regionFrameState false) (List.mem_cons_self ..)
  have queueCell : loaded.store true = voiceEndQueue.encode (voiceEndQueue.decode (rt.store true)) :=
    images (regionVoiceEndQueue true) (List.mem_cons_of_mem _ (List.mem_cons_self ..))
  have same : audioState loaded.store = w.savePoint S := by
    rw [audioState, frameCell, queueCell, objects, AudioState.store, AudioState.store]
    simp only [Codec.decode_encode, clean.canonical]
  rw [same, fullDigests_drop noNan before]

end

/-- An operation that is known for some operands; for others it keeps the first. -/
def tabulated (table : List ((F32 × F32) × F32)) (x y : F32) : F32 := (table.lookup (x, y)).getD x

theorem tabulated_cases (table : List ((F32 × F32) × F32)) (x y : F32) :
    tabulated table x y = x ∨ ((x, y), tabulated table x y) ∈ table := by
  rw [tabulated]
  cases found : table.lookup (x, y) with
  | none => exact .inl rfl
  | some v =>
    obtain ⟨before, after, parts, -⟩ := List.lookup_eq_some_iff.mp found
    exact .inr (parts ▸ List.mem_append_right _ List.mem_cons_self)

/-- Where the known results are numbers, a number gives a number. -/
theorem tabulated_number {table : List ((F32 × F32) × F32)} (numbers : table.all fun e => ¬IsNan32 e.2) {x : F32}
    (number : ¬IsNan32 x) (y : F32) : ¬IsNan32 (tabulated table x y) := by
  rcases tabulated_cases table x y with same | entry
  · rwa [same]
  · have number := List.all_eq_true.mp numbers _ entry
    rwa [decide_eq_true_eq] at number

/-- A whole number below 2 ^ 24. -/
def wholeF32 (n : Nat) : F32 :=
  if n = 0 then 0 else UInt32.ofNat ((127 + n.log2) * 2 ^ 23 + (n * 2 ^ (23 - n.log2) - 2 ^ 23))

/-- The sums that come up when numbers are added to one. -/
def sums : Nat → List Nat → List ((F32 × F32) × F32)
  | _, [] => []
  | s, n :: ns => ((wholeF32 s, wholeF32 n), wholeF32 (s + n)) :: sums (s + n) ns

/-- The workload of the three programs, with the sums of its run: both voices play up to frame 5, one up to frame 12. -/
def twoVoices : AudioBranch where
  voices := [⟨⟨1, by decide⟩, 0x3f800000, 0x41200000⟩, ⟨⟨2, by decide⟩, 0x42c80000, 0x447a0000⟩]
  schedule := [⟨1, 5⟩, ⟨2, 12⟩]
  nframes := 30
  add := tabulated (sums 0 ((List.replicate 6 [1, 100] ++ List.replicate 7 [10, 100] ++ List.replicate 17 [10, 1000]).flatten))

/-- 6 * 101 + 7 * 110 + 17 * 1010. -/
example : (twoVoices.savePoint 29).fs.accumMisc = wholeF32 18546 := by decide +kernel

theorem audioBranch_resumes_twoVoices :
    let rt : Runtime frameAndQueue := .boot _ (twoVoices.savePoint 5).store
    (twoVoices.savePoint 5).q.pendingCount = 1 ∧
      ∃ saved : SaveResult frameAndQueue, saveStateSave rt 8192 5 = .returns saved ∧ saved.ret ≠ 0 ∧
        ∀ buf : ByteSpan, buf.bytes = saved.written → ∀ other : Runtime frameAndQueue,
          ∃ loaded : Runtime frameAndQueue, saveStateLoad other buf = .returns (true, loaded) ∧
            twoVoices.loadDigests (audioState loaded.store) = twoVoices.fullDigests.drop 6 := by
  intro rt
  have pending : (twoVoices.savePoint 5).q.pendingCount = 1 := by decide +kernel
  have numbers (x : F32) (number : ¬IsNan32 x) (y : F32) : ¬IsNan32 (twoVoices.add x y) :=
    tabulated_number (by decide +kernel) number y
  exact ⟨pending, audioBranch_resumes (w := twoVoices) (fun x number v _ => ⟨numbers x number _, numbers x number _⟩) (S := 5)
    (by decide) rfl⟩

end Blyt
