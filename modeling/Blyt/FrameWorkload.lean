import Blyt.Lib.SettledLoop
import Blyt.AudioBranch
import Blyt.SaveIo

namespace Blyt
open Packed SettledLoop SaveIo

/-- What the full, the save and the load program of a workload share: the region it has behind `frame_state`, its
object in a fresh process and before the first frame, a turn of the frame loop up to the digest, the same in the load
program, and what that prints of the object. -/
structure FrameWorkload (τ ρ : Type) where
  name : CString
  codec : Codec τ
  text : List UInt8
  small : codec.size ≤ 4096
  canonicalize : τ → τ
  zero : τ
  start : τ
  frame : FrameState × τ → UInt32 → FrameState × τ
  resumeFrame : FrameState × τ → UInt32 → FrameState × τ
  report : τ → ρ
  nframes : UInt32

/-- What a load program stops with. -/
inductive LoadPanic where
  | cannotRead
  | parseFailed
  | rejected
  deriving DecidableEq, Repr

/-- The loop of `save_io_read_file`; `given` tells how much each `read` hands out. -/
def readLoop (cap : Nat) (given : Nat → Nat) (file done : List UInt8) : List UInt8 :=
  if done.length < cap ∧ file ≠ [] then
    let n := min (min (cap - done.length) 4096) (max 1 (given 0))
    readLoop cap (fun call => given (call + 1)) (file.drop n) (done ++ file.take n)
  else done
  termination_by cap - done.length
  decreasing_by
    have some := List.length_pos_of_ne_nil ‹_ ∧ file ≠ []›.2
    rw [List.length_append, List.length_take]
    omega

/-- `save_io_read_file`; `none` is `-1`, of a file that does not open. -/
def saveIoReadFile (file : Option (List UInt8)) (given : Nat → Nat) (cap : Nat) : Option (List UInt8) :=
  file.map fun bytes => readLoop cap given bytes []

/-- A buffer that is handed on with its length. -/
def spanOf (bytes : List UInt8) : Exec ByteSpan :=
  if small : bytes.length < 2 ^ 32 then .returns ⟨bytes, small⟩ else .outOfBounds

/-- The text of a saved buffer is read back. -/
theorem saveIoParseHex_emitted {cap : Nat} (buf : ByteSpan) (header : 24 ≤ buf.bytes.length)
    (room : buf.bytes.length ≤ cap) :
    ∃ text, saveStateEmitHex buf = .returns text ∧ text.length ≤ 2 * buf.bytes.length + 33 ∧
      saveIoParseHex text cap = ⟨buf.bytes, true⟩ := by
  have some : buf.bytes ≠ [] := List.length_pos_iff.mp (by omega)
  refine ⟨_, if_neg (Nat.not_lt.mpr header), ?_, ?_⟩
  · have digits := (decimal_length (saveStateHeader.decode buf.bytes).frame.toNat).2
    have label : (ascii "BUFFER ").length = 7 := rfl
    have pairs := (HexText.spells_encode buf.bytes).length
    rw [emitHexChunks_eq]
    simp only [List.length_append, label, List.length_singleton, pairs]
    omega
  · rw [saveIoParseHex, emitHexChunks_eq, skipBufferPrefix_emitted _ some,
      parseHexLoop_encode _ _ (by rw [List.length_nil]; omega), List.nil_append]

namespace FrameWorkload
variable {τ ρ : Type} (w : FrameWorkload τ ρ)

theorem fits : w.codec.size < 2 ^ 32 := Nat.lt_of_le_of_lt w.small (by decide)

def region : RuntimeTrackedRegion Bool := packedRegion w.name w.codec w.fits w.text w.canonicalize (fun _ => true) true

/-- `runtime_tracked_regions`. -/
def registry : Registry Bool :=
  ⟨[regionFrameState false, w.region], show [false, true].Nodup by decide⟩

/-- The objects as the regions of a process hold them. -/
def store (s : FrameState × τ) : Bool → List UInt8
  | false => frameState.encode s.1
  | true => w.codec.encode s.2

def objects (store : Bool → List UInt8) : FrameState × τ := (frameState.decode (store false), w.codec.decode (store true))

/-- The frame loop; `frame_state_emit_digest` canonicalizes in place. -/
def loop : Loop (FrameState × τ) UInt32 Digest where
  turn := w.frame
  shows s := (((frameStateEmitDigest s.1).1, s.2), (frameStateEmitDigest s.1).2)

def first : FrameState × τ := (AudioBranch.zeroFrameState, w.start)

/-- A process behind `save_state_init`, its objects zero. -/
def boot : Exec (Runtime w.registry) := saveStateInit (.boot w.registry (w.store (AudioBranch.zeroFrameState, w.zero)))

/-- `main` of the full program: the digests it prints. -/
def fullMain : Exec (List Digest) := do
  let _ ← w.boot
  return w.loop.emit w.first (AudioBranch.frames 0 w.nframes)

/-- The objects where the save program saves. -/
def savePoint (S : UInt32) : FrameState × τ := w.loop.play w.first (AudioBranch.framesThrough S)

/-- `main` of the save program: the text it prints, none behind a panic. -/
def saveMain (S : UInt32) : Exec (Option (List UInt8)) := do
  let rt ← w.boot
  -- `f <= save_frame` holds of every `uint32_t`
  if S = 0xffffffff then .spins
  else do
    let saved ← saveStateSave (rt.withStore (w.store (w.savePoint S))) 8192 S
    if saved.ret = 0 then return none
    else do
      let text ← saveStateEmitHex (← spanOf saved.written)
      return some text

/-- `main` of the load program behind the load: what it prints. -/
def resume (rt : Runtime w.registry) : ρ × List Digest :=
  let s := w.objects rt.store
  (w.report s.2, { w.loop with turn := w.resumeFrame }.emit s (AudioBranch.frames (s.1.frame + 1) w.nframes))

/-- `main` of the load program. -/
def loadMain (given : Nat → Nat) (file : Option (List UInt8)) : Exec (Except LoadPanic (ρ × List Digest)) := do
  let rt ← w.boot
  match saveIoReadFile file given 16383 with
  | none => return .error .cannotRead
  | some hexbuf =>
    let parsed := saveIoParseHex hexbuf 8192
    if parsed.ret < 0 then return .error .parseFailed
    else do
      let (ok, rt) ← saveStateLoad rt (← spanOf parsed.written)
      if ok then return .ok (w.resume rt) else return .error .rejected

/-- The states of a run: a turn leaves their numbers where the digest has them, and the object has no NaN that a save
would replace. -/
structure Sound (w : FrameWorkload τ ρ) (Good : FrameState × τ → Prop) : Prop extends Steady w.loop Good where
  described : Describable w.registry
  first : Good w.first
  settled : ∀ s, Good s → w.canonicalize s.2 = s.2
  numbered : ∀ s f, (w.frame s f).1.frame = f

variable {w}

/-- However a file is handed out, the beginning that fits is read. -/
theorem readLoop_eq (cap : Nat) (given : Nat → Nat) (file done : List UInt8) :
    readLoop cap given file done = done ++ file.take (cap - done.length) := by
  fun_induction readLoop cap given file done with
  | case1 given file done more n ih =>
    have within : n ≤ cap - done.length := (Nat.min_le_left _ _).trans (Nat.min_le_left _ _)
    have split : file.take (cap - done.length) = file.take n ++ (file.drop n).take (cap - done.length - n) := by
      rw [← List.take_add, Nat.add_sub_cancel' within]
    rw [ih, List.append_assoc, split]
    congr 2
    by_cases short : file.length ≤ n
    · rw [List.drop_of_length_le short, List.take_nil, List.take_nil]
    · rw [List.length_append, List.length_take, Nat.min_eq_left (by omega), Nat.sub_add_eq]
  | case2 given file done stop =>
    rcases Nat.lt_or_ge done.length cap with room | full
    · have empty : file = [] := by
        by_contra some
        exact stop ⟨room, some⟩
      rw [empty, List.take_nil, List.append_nil]
    · rw [Nat.sub_eq_zero_of_le full, List.take_zero, List.append_nil]

theorem saveIoReadFile_short {file : List UInt8} {cap : Nat} (short : file.length ≤ cap) (given : Nat → Nat) :
    saveIoReadFile (some file) given cap = some file := by
  show some (readLoop cap given file []) = _
  rw [readLoop_eq, List.nil_append, List.length_nil, Nat.sub_zero, List.take_of_length_le short]

/-- The frames of the straight run are those of the save program and those of the load program. -/
theorem frames_split {S nframes : UInt32} (before : S < nframes) :
    AudioBranch.frames 0 nframes = AudioBranch.framesThrough S ++ AudioBranch.frames (S + 1) nframes := by
  have inside : S.toNat < nframes.toNat := UInt32.lt_iff_toNat_lt.mp before
  have bound := nframes.toNat_lt
  have next : (S + 1).toNat = S.toNat + 1 := by
    rw [UInt32.toNat_add]
    exact Nat.mod_eq_of_lt (show S.toNat + 1 < 2 ^ 32 by omega)
  have split : nframes.toNat - 0 = (S.toNat + 1) + (nframes.toNat - (S.toNat + 1)) := by omega
  rw [AudioBranch.frames, AudioBranch.frames, AudioBranch.framesThrough, next, ← List.map_append, List.range_eq_range']
  show (List.range' 0 (nframes.toNat - 0)).map _ = _
  rw [split, ← List.range'_append, Nat.zero_add, Nat.one_mul]

theorem framesThrough_length (S : UInt32) : (AudioBranch.framesThrough S).length = S.toNat + 1 := by
  rw [AudioBranch.framesThrough, List.length_map, List.length_range]

variable {Good : FrameState × τ → Prop}

theorem Sound.savePoint (sound : w.Sound Good) (S : UInt32) : Good (w.savePoint S) :=
  sound.toSteady.play sound.first _

/-- The last turn of the save program was that of frame `S`. -/
theorem Sound.savePoint_frame (sound : w.Sound Good) (S : UInt32) : (w.savePoint S).1.frame = S := by
  have last : AudioBranch.framesThrough S = (List.range S.toNat).map UInt32.ofNat ++ [S] := by
    rw [AudioBranch.framesThrough, List.range_succ, List.map_append, List.map_singleton, UInt32.ofNat_toNat]
  rw [FrameWorkload.savePoint, Loop.play, last, List.foldl_append]
  exact sound.numbered _ S

theorem bodySize_registry : bodySize w.registry.regions = 1316 + w.codec.size := by
  show (regionFrameState false : RuntimeTrackedRegion Bool).size.toNat + (w.region.size.toNat + 0) = _
  rw [regionFrameState, region, packedRegion_size, packedRegion_size, frameState_size, Nat.add_zero]

theorem region_size_le (r : RuntimeTrackedRegion Bool) (member : r ∈ w.registry.regions) : r.size.toNat ≤ 16520 := by
  have small := w.small
  rcases List.mem_cons.mp member with rfl | last
  · rw [regionFrameState, packedRegion_size, frameState_size]
    decide
  · rw [List.mem_singleton.mp last, region, packedRegion_size]
    omega

theorem Sound.boot (sound : w.Sound Good) : ∃ rt : Runtime w.registry, w.boot = .returns rt := by
  obtain ⟨rt, run, -, -⟩ := saveStateInit_returns (.boot w.registry (w.store (AudioBranch.zeroFrameState, w.zero)))
    sound.described
  exact ⟨rt, run⟩

/-- What is shown of a state is its canonical `frame_state`. -/
theorem shows_congr {s t : FrameState × τ} (frames : s.1.canonicalize = t.1.canonicalize) (objects : s.2 = t.2) :
    w.loop.shows s = w.loop.shows t := by
  simp only [loop, frameStateEmitDigest, frames, objects]

/-- What the save program prints. -/
theorem Sound.saveMain (sound : w.Sound Good) {S : UInt32} (last : S ≠ 0xffffffff) : ∃ text buf,
    w.saveMain S = .returns (some text) ∧ text.length ≤ 16383 ∧ saveIoParseHex text 8192 = ⟨buf, true⟩ ∧
      buf = saveImage w.registry (w.store (w.savePoint S)) S := by
  obtain ⟨rt, booted⟩ := sound.boot
  have small := w.small
  have exact := sound.described.capacity_exact region_size_le
  rw [bodySize_registry] at exact
  have room : saveStateBufferCapacity w.registry ≤ 8192 := by
    rw [UInt32.le_iff_toNat_le, exact]
    exact Nat.le_trans (Nat.add_le_add_left (Nat.add_le_add_left small _) _) (by decide)
  obtain ⟨saved, save, ret, written, -⟩ := saveStateSave_again (rt.withStore (w.store (w.savePoint S))) S sound.described
    (exact.trans (by rw [bodySize_registry])) room fun r _ => rfl
  have length : saved.written.length = 24 + (1316 + w.codec.size) := by
    rw [written, saveImage_length, bodySize_registry]
  have span : spanOf saved.written = .returns ⟨saved.written, by omega⟩ := dif_pos (by omega)
  have nonzero : ¬saved.ret = 0 := by
    intro zero
    have none := congrArg UInt32.toNat (ret.symm.trans zero)
    rw [exact, show (0 : UInt32).toNat = 0 from rfl] at none
    omega
  obtain ⟨text, emitted, short, parsed⟩ := saveIoParseHex_emitted ⟨saved.written, by omega⟩
    (show 24 ≤ saved.written.length by omega) (show saved.written.length ≤ 8192 by omega)
  refine ⟨text, saved.written, ?_, ?_, parsed, written⟩
  · rw [FrameWorkload.saveMain, booted, Exec.returns_bind, if_neg last, save, Exec.returns_bind, if_neg nonzero, span,
      Exec.returns_bind, emitted]
    rfl
  · have short : text.length ≤ 2 * saved.written.length + 33 := short
    omega

/-- A saved process is taken back as a digest would have left it. -/
theorem Sound.load (sound : w.Sound Good) {s : FrameState × τ} (good : Good s) {buf : ByteSpan} {S : UInt32}
    (image : buf.bytes = saveImage w.registry (w.store s) S) (rt : Runtime w.registry) :
    ∃ loaded : Runtime w.registry, saveStateLoad rt buf = .returns (true, loaded) ∧
      w.objects loaded.store = (w.loop.shows s).1 := by
  have blocks : ∀ r ∈ w.registry.regions, ∀ cell, r.load (r.save (w.store s r.storage)).1 cell =
      (true, (r.save (w.store s r.storage)).1) := by
    intro r member cell
    rcases List.mem_cons.mp member with rfl | other
    · exact packedRegion_load (frameState.length_encode _) cell
    · rw [List.mem_singleton.mp other]
      exact packedRegion_load (w.codec.length_encode _) cell
  obtain ⟨loaded, load, cells⟩ := saveStateLoad_saveImage sound.described image rt fun r member => by rw [blocks r member]
  have images : ∀ r ∈ w.registry.regions, loaded.store r.storage = (r.save (w.store s r.storage)).1 := by
    intro r member
    rw [cells r member, blocks r member]
  have frameCell : loaded.store false = frameState.encode s.1.canonicalize :=
    (images (regionFrameState false) List.mem_cons_self).trans (packedRegion_save _)
  have ownCell : loaded.store true = w.codec.encode (w.canonicalize s.2) :=
    (images w.region (List.mem_cons_of_mem _ List.mem_cons_self)).trans (packedRegion_save _)
  refine ⟨loaded, load, ?_⟩
  rw [objects, frameCell, ownCell, Codec.decode_encode, Codec.decode_encode, sound.settled s good]
  rfl

/-- The frames of the load program. -/
theorem mem_frames {S f nframes : UInt32} (before : S < nframes) (member : f ∈ AudioBranch.frames (S + 1) nframes) :
    S < f ∧ f < nframes := by
  have inside : S.toNat < nframes.toNat := UInt32.lt_iff_toNat_lt.mp before
  have bound := nframes.toNat_lt
  have next : (S + 1).toNat = S.toNat + 1 := by
    rw [UInt32.toNat_add]
    exact Nat.mod_eq_of_lt (show S.toNat + 1 < 2 ^ 32 by omega)
  obtain ⟨n, range, rfl⟩ := List.mem_map.mp member
  obtain ⟨low, high⟩ := List.mem_range'_1.mp range
  rw [next] at low high
  have number : (UInt32.ofNat n).toNat = n := UInt32.toNat_ofNat_of_lt' (show n < 2 ^ 32 by omega)
  rw [UInt32.lt_iff_toNat_lt, UInt32.lt_iff_toNat_lt, number]
  omega

/-- Saving at a frame of the run and going on in another process, whatever the reads hand out of the file, prints what
the straight run prints behind that frame, if the turns from there on are the same. -/
theorem Sound.resumes (sound : w.Sound Good) {S : UInt32} (before : S < w.nframes)
    (turns : ∀ f, S < f → f < w.nframes → ∀ s, w.resumeFrame s f = w.frame s f) (given : Nat → Nat) :
    ∃ text digests, w.saveMain S = .returns (some text) ∧ w.fullMain = .returns digests ∧
      w.loadMain given (some text) = .returns (.ok (w.report (w.savePoint S).2, digests.drop (S.toNat + 1))) := by
  have last : S ≠ 0xffffffff := by
    rintro rfl
    have bound := w.nframes.toNat_lt
    have inside := UInt32.lt_iff_toNat_lt.mp before
    have most : (0xffffffff : UInt32).toNat = 2 ^ 32 - 1 := rfl
    omega
  obtain ⟨text, buf, saved, short, parsed, written⟩ := sound.saveMain last
  obtain ⟨rt, booted⟩ := sound.boot
  have good := sound.savePoint S
  have small := w.small
  have fits : buf.length < 2 ^ 32 := by
    rw [written, saveImage_length, bodySize_registry]
    omega
  let image : ByteSpan := ⟨buf, fits⟩
  have span : spanOf buf = .returns image := dif_pos fits
  obtain ⟨loaded, load, same⟩ := sound.load good (show image.bytes = _ from written) rt
  have rest : w.resume loaded = (w.report (w.savePoint S).2,
      (w.loop.emit w.first (AudioBranch.frames 0 w.nframes)).drop (S.toNat + 1)) := by
    have number : (w.loop.shows (w.savePoint S)).1.1.frame = S := sound.savePoint_frame S
    have emitted : { w.loop with turn := w.resumeFrame }.emit (w.loop.shows (w.savePoint S)).1
        (AudioBranch.frames (S + 1) w.nframes) = w.loop.emit (w.loop.shows (w.savePoint S)).1
          (AudioBranch.frames (S + 1) w.nframes) := by
      refine Loop.emit_congr (fun f member => ?_) _
      obtain ⟨behind, within⟩ := mem_frames before member
      exact turns f behind within
    rw [resume, same, number, emitted, frames_split before, ← framesThrough_length,
      sound.toSteady.emit_drop sound.first]
    rfl
  have accepted : ¬(saveIoParseHex text 8192).ret < 0 := by
    rw [parsed]
    exact Int.not_lt.mpr (Int.natCast_nonneg _)
  refine ⟨text, _, saved, by rw [fullMain, booted]; rfl, ?_⟩
  rw [loadMain, booted, Exec.returns_bind, saveIoReadFile_short short]
  dsimp only
  rw [if_neg accepted, parsed, span, Exec.returns_bind, load, Exec.returns_bind]
  dsimp only
  rw [if_pos rfl, rest]
  rfl

end FrameWorkload

/-- A finite number that is not zero. -/
def IsNonzeroFinite32 (x : F32) : Prop := (x >>> 23) &&& 0xff ≠ 0xff ∧ x &&& 0x7fffffff ≠ 0

/-- The `f32` arithmetic of the host on bit patterns. A sum with a NaN is a NaN, and a number times a finite number that
is not zero is a number. -/
structure HostF32 where
  add : F32 → F32 → F32
  sub : F32 → F32 → F32
  mul : F32 → F32 → F32
  ofU32 : UInt32 → F32
  add_nan : ∀ x y, IsNan32 x → IsNan32 (add x y)
  mul_number : ∀ x y, ¬IsNan32 x → IsNonzeroFinite32 y → ¬IsNan32 (mul x y)

theorem IsNan32.canonicalizeNanf {x : F32} (nan : IsNan32 x) : Blyt.canonicalizeNanf x = canonicalQnanBits := by
  rw [canonicalizeNanf_eq, if_pos nan]

/-- Which NaN is added to does not show behind canonicalization. -/
@[simp] theorem HostF32.canonicalizeNanf_add (h : HostF32) (x y : F32) :
    canonicalizeNanf (h.add (canonicalizeNanf x) y) = canonicalizeNanf (h.add x y) := by
  by_cases nan : IsNan32 x
  · have canonical : IsNan32 canonicalQnanBits := by decide
    rw [nan.canonicalizeNanf, (h.add_nan _ y canonical).canonicalizeNanf, (h.add_nan x y nan).canonicalizeNanf]
  · rw [canonicalizeNanf_eq x, if_neg nan]

/-- An arithmetic that is known for the operands of some run. -/
def HostF32.known (adds subs muls : List ((F32 × F32) × F32)) (ofs : List (UInt32 × F32))
    (addends : adds.all fun e => ¬IsNan32 e.1.1) (products : muls.all fun e => ¬IsNan32 e.2) : HostF32 where
  add := tabulated adds
  sub := tabulated subs
  mul := tabulated muls
  ofU32 n := (ofs.lookup n).getD 0
  add_nan x y nan := by
    rcases tabulated_cases adds x y with same | entry
    · rwa [same]
    · have number := List.all_eq_true.mp addends _ entry
      rw [decide_eq_true_eq] at number
      exact absurd nan number
  mul_number x y number _ := tabulated_number products number y

end Blyt
