import Blyt.RetroCore

namespace Blyt.Facade
open Packed

/-- What a run of the core is given: the buttons, and how many updates are due. That number is an input, as
`retro_unserialize` does not restore the `accumulator_ns` that the core computes it from. -/
structure RunInput where
  buttons : UInt16
  ticks : Nat

/-- What `retro_run` does to the runtime when it asks for `audio` samples. -/
def runtimeFrame (rt : BlytRuntime) (input : RunInput) (audio : Int) : Exec BlytRuntime := do
  let rt ← runTicks input.buttons input.ticks rt
  let rt ← blytRuntimeDraw rt
  return blytRuntimePullAudio rt audio

/-- The core's runtime goes through such a frame, with as many updates as the clock grants. -/
theorem retroRun_rt {core : RetroCore} {rt : BlytRuntime} (at_ : core.rt = some rt) (buttons : UInt16) (now : UInt64) :
    (retroRun core buttons now >>= fun next => Exec.returns next.rt) =
      runtimeFrame rt ⟨buttons, (core.catchUps now).1⟩ core.audioDue >>= fun rt => Exec.returns (some rt) := by
  simp only [retroRun, at_, runtimeFrame, Exec.bind_assoc]
  rfl

/-- What can be seen of the runtime between two runs. -/
structure Observed where
  cart : CartState
  voiceQ : VoiceEndQueue
  shake : ScreenShake
  saved : List UInt8
  framebuffer : Framebuffer

def BlytRuntime.observed (rt : BlytRuntime) : Observed :=
  ⟨rt.cart, rt.voiceQ, rt.shake, (blytRuntimeSave rt rt.saveUpperBound).2, rt.framebuffer⟩

/-- The runtime after a sequence of runs, each with its input and the samples it asks for. -/
def play : BlytRuntime → List (RunInput × Int) → Exec BlytRuntime
  | rt, [] => .returns rt
  | rt, (input, audio) :: runs => do
    let rt ← runtimeFrame rt input audio
    play rt runs

/-- What is seen after each run. -/
def trace : BlytRuntime → List (RunInput × Int) → Exec (List Observed)
  | _, [] => .returns []
  | rt, (input, audio) :: runs => do
    let rt ← runtimeFrame rt input audio
    let rest ← trace rt runs
    return rt.observed :: rest

/-- The tracked regions are the same. -/
structure SameRegions (rt rt' : BlytRuntime) : Prop where
  cart : rt.cart = rt'.cart
  voiceQ : rt.voiceQ = rt'.voiceQ
  shake : rt.shake = rt'.shake

theorem SameRegions.saved {rt rt' : BlytRuntime} (same : SameRegions rt rt') (cap : UInt32) :
    blytRuntimeSave rt cap = blytRuntimeSave rt' cap := by
  unfold blytRuntimeSave
  rw [same.cart, same.voiceQ, same.shake, rt.layoutHash_eq, rt'.layoutHash_eq, rt.saveUpperBound_eq,
    rt'.saveUpperBound_eq]

theorem SameRegions.observed {rt rt' : BlytRuntime} (same : SameRegions rt rt')
    (shown : rt.framebuffer = rt'.framebuffer) : rt.observed = rt'.observed := by
  rw [BlytRuntime.observed, BlytRuntime.observed, same.saved, rt.saveUpperBound_eq, rt'.saveUpperBound_eq,
    same.cart, same.voiceQ, same.shake, shown]

/-- An update reads the buttons it was given and the tracked regions only. -/
theorem SameRegions.update {rt rt' : BlytRuntime} (same : SameRegions rt rt') (within : rt.cart.Within)
    (buttons : rt.buttonMask 0 = rt'.buttonMask 0) :
    ∃ next next', blytRuntimeUpdate rt = .returns next ∧ blytRuntimeUpdate rt' = .returns next' ∧
      SameRegions next next' ∧ next.cart.Within := by
  obtain ⟨cart, run, within', -⟩ := updateCart_within within (rt.buttonMask 0)
  refine ⟨mixerReportEndOfFrame { rt with cart := cart } cart.frame,
    mixerReportEndOfFrame { rt' with cart := cart } cart.frame, ?_, ?_, ⟨rfl, ?_, same.shake⟩, within'⟩
  · rw [blytRuntimeUpdate, run]
    rfl
  · rw [blytRuntimeUpdate, ← buttons, ← same.cart, run]
    rfl
  · simp only [mixerReportEndOfFrame, same.voiceQ]

theorem SameRegions.runTicks {rt rt' : BlytRuntime} (same : SameRegions rt rt') (within : rt.cart.Within)
    (buttons : UInt16) (ticks : Nat) :
    ∃ next next', runTicks buttons ticks rt = .returns next ∧ runTicks buttons ticks rt' = .returns next' ∧
      SameRegions next next' ∧ next.cart.Within := by
  induction ticks generalizing rt rt' with
  | zero => exact ⟨rt, rt', rfl, rfl, same, within⟩
  | succ ticks ih =>
    have pressed (rt : BlytRuntime) : (blytRuntimeSetButtonState rt 0 buttons).buttonMask 0 = buttons := rfl
    have latched : SameRegions (blytRuntimeSetButtonState rt 0 buttons) (blytRuntimeSetButtonState rt' 0 buttons) :=
      ⟨same.cart, same.voiceQ, same.shake⟩
    obtain ⟨next, next', run, run', same', within'⟩ :=
      latched.update within ((pressed rt).trans (pressed rt').symm)
    rw [Facade.runTicks, Facade.runTicks, run, run', Exec.returns_bind, Exec.returns_bind]
    exact ih same' within'

theorem pullAudio_regions (rt : BlytRuntime) (audio : Int) :
    SameRegions (blytRuntimePullAudio rt audio) rt ∧
      (blytRuntimePullAudio rt audio).framebuffer = rt.framebuffer := by
  unfold blytRuntimePullAudio
  split <;> exact ⟨⟨rfl, rfl, rfl⟩, rfl⟩

/-- One run keeps the two runtimes alike, whatever audio each of them pulls. -/
theorem SameRegions.runtimeFrame {rt rt' : BlytRuntime} (same : SameRegions rt rt') (within : rt.cart.Within)
    (input : RunInput) (audio audio' : Int) :
    ∃ next next', runtimeFrame rt input audio = .returns next ∧ runtimeFrame rt' input audio' = .returns next' ∧
      SameRegions next next' ∧ next.cart.Within ∧ next.observed = next'.observed := by
  obtain ⟨mid, mid', run, run', same', within'⟩ := same.runTicks within input.buttons input.ticks
  obtain ⟨fb, drawn, drawn'⟩ := drawFrame_fresh within' mid.framebuffer mid'.framebuffer
  have draws : blytRuntimeDraw mid = .returns { mid with framebuffer := fb } := by rw [blytRuntimeDraw, drawn]; rfl
  have draws' : blytRuntimeDraw mid' = .returns { mid' with framebuffer := fb } := by
    rw [blytRuntimeDraw, ← same'.cart, drawn']
    rfl
  obtain ⟨regions, shown⟩ := pullAudio_regions { mid with framebuffer := fb } audio
  obtain ⟨regions', shown'⟩ := pullAudio_regions { mid' with framebuffer := fb } audio'
  have after : SameRegions (blytRuntimePullAudio { mid with framebuffer := fb } audio)
      (blytRuntimePullAudio { mid' with framebuffer := fb } audio') :=
    ⟨regions.cart.trans (same'.cart.trans regions'.cart.symm), regions.voiceQ.trans (same'.voiceQ.trans regions'.voiceQ.symm),
      regions.shake.trans (same'.shake.trans regions'.shake.symm)⟩
  refine ⟨_, _, ?_, ?_, after, ?_, after.observed (shown.trans shown'.symm)⟩
  · rw [Facade.runtimeFrame, run, Exec.returns_bind, draws]
    rfl
  · rw [Facade.runtimeFrame, run', Exec.returns_bind, draws']
    rfl
  · rw [regions.cart]
    exact within'

theorem SameRegions.trace {rt rt' : BlytRuntime} (same : SameRegions rt rt') (within : rt.cart.Within)
    {runs runs' : List (RunInput × Int)} (inputs : runs.map Prod.fst = runs'.map Prod.fst) :
    ∃ seen, trace rt runs = .returns seen ∧ trace rt' runs' = .returns seen := by
  induction runs generalizing rt rt' runs' with
  | nil =>
    obtain rfl : runs' = [] := List.map_eq_nil_iff.mp inputs.symm
    exact ⟨[], rfl, rfl⟩
  | cons first runs ih =>
    obtain ⟨first', runs', rfl, input, inputs⟩ := List.map_eq_cons_iff.mp inputs.symm
    obtain ⟨next, next', run, run', same', within', observed⟩ :=
      same.runtimeFrame within first.1 first.2 first'.2
    obtain ⟨seen, rest, rest'⟩ := ih same' within' inputs.symm
    refine ⟨next.observed :: seen, ?_, ?_⟩
    · rw [Facade.trace, run, Exec.returns_bind, rest]
      rfl
    · rw [Facade.trace, input, run', Exec.returns_bind, rest', observed]
      rfl

theorem play_within {rt : BlytRuntime} (within : rt.cart.Within) (runs : List (RunInput × Int)) :
    ∃ last, play rt runs = .returns last ∧ last.cart.Within := by
  induction runs generalizing rt with
  | nil => exact ⟨rt, rfl, within⟩
  | cons first runs ih =>
    obtain ⟨next, -, run, -, -, within', -⟩ :=
      (⟨rfl, rfl, rfl⟩ : SameRegions rt rt).runtimeFrame within first.1 first.2 first.2
    obtain ⟨last, rest, kept⟩ := ih within'
    exact ⟨last, by rw [play, run, Exec.returns_bind, rest], kept⟩

/-- The buffer of a save is loaded, and brings back the tracked regions. -/
theorem blytRuntimeLoad_saved (rt rt' : BlytRuntime) {cap size : UInt32} (room : ¬cap < 196) (whole : ¬size < 196)
    (tail : List UInt8) :
    blytRuntimeLoad rt' ((blytRuntimeSave rt cap).2 ++ tail) size =
      (true, { rt' with cart := rt.cart, voiceQ := rt.voiceQ, shake := rt.shake }) := by
  have header := saveStateHeader.length_encode
    ⟨saveStateMagic, saveStateVersion, rt.layoutHash, rt.cart.frame, rt.saveUpperBound⟩
  have cart := cartState.length_encode rt.cart
  have voices := voiceEndQueue.length_encode rt.voiceQ
  have shake := screenShake.length_encode rt.shake
  rw [saveStateHeader_size] at header
  rw [cartState_size] at cart
  rw [voiceEndQueue_size] at voices
  rw [screenShake_size] at shake
  have long : ¬size < 24 := fun short => whole (UInt32.lt_trans short (by decide))
  rw [blytRuntimeSave, if_neg (rt.saveUpperBound_eq ▸ room), blytRuntimeLoad, if_neg long]
  simp only [List.append_assoc, List.take_left' header, List.drop_left' header, Codec.decode_encode]
  rw [if_neg (not_not.mpr rfl), if_neg (not_not.mpr rfl), if_neg (not_not.mpr (rt.layoutHash_eq.trans rt'.layoutHash_eq.symm)),
    if_neg (rt.saveUpperBound_eq ▸ whole), if_neg (not_not.mpr (rt.saveUpperBound_eq.trans rt'.saveUpperBound_eq.symm))]
  have voicesAt : (voiceEndQueue.encode rt.voiceQ ++ (screenShake.encode rt.shake ++ tail)).take 132 = _ :=
    List.take_left' voices
  have shakeAt : (cartState.encode rt.cart ++ (voiceEndQueue.encode rt.voiceQ ++ (screenShake.encode rt.shake ++ tail))).drop
      156 = screenShake.encode rt.shake ++ tail := by
    rw [show 156 = 24 + 132 from rfl, ← List.drop_drop, List.drop_left' cart, List.drop_left' voices]
  rw [List.take_left' cart, List.drop_left' cart, voicesAt, shakeAt, List.take_left' shake]
  simp only [Codec.decode_encode]

theorem blytRuntimeSave_length (rt : BlytRuntime) {cap : UInt32} (room : ¬cap < 196) :
    (blytRuntimeSave rt cap).2.length = 196 := by
  rw [blytRuntimeSave, if_neg (rt.saveUpperBound_eq ▸ room)]
  simp only [List.length_append, Codec.length_encode, saveStateHeader_size, cartState_size, voiceEndQueue_size,
    screenShake_size]

/-- A buffer that was filled begins with the save. -/
theorem retroSerialize_true {core : RetroCore} {rt : BlytRuntime} (at_ : core.rt = some rt) {data saved : List UInt8}
    (serialized : retroSerialize core (some data) = (true, some saved)) :
    ¬UInt32.ofNat saved.length < 196 ∧ ∃ cap tail, ¬cap < 196 ∧ saved = (blytRuntimeSave rt cap).2 ++ tail := by
  simp only [retroSerialize, at_] at serialized
  split at serialized
  · cases serialized
  obtain ⟨accepted, written⟩ := Prod.mk.injEq .. ▸ serialized
  obtain ⟨nonzero, within⟩ := of_decide_eq_true accepted
  have room : ¬UInt32.ofNat data.length < 196 := by
    intro short
    rw [blytRuntimeSave, if_pos (rt.saveUpperBound_eq ▸ short)] at nonzero
    exact nonzero rfl
  have length := blytRuntimeSave_length rt room
  have size : (blytRuntimeSave rt (.ofNat data.length)).1.toNat = 196 := by
    rw [blytRuntimeSave, if_neg (rt.saveUpperBound_eq ▸ room)]
    exact congrArg UInt32.toNat rt.saveUpperBound_eq
  have whole : saved.length = data.length := by
    rw [← Option.some.inj written, List.length_append, List.length_drop]
    omega
  exact ⟨whole ▸ room, _, _, room, (Option.some.inj written).symm⟩

/-- A state reached from a reset is saved, and loaded into a core in any state after a reset: the same
inputs then show the same, run by run. -/
theorem rewind_deterministic {fresh rt rt' : BlytRuntime} {played : List (RunInput × Int)} {core core' : RetroCore}
    {data saved : List UInt8} (reached : play (blytRuntimeReset fresh) played = .returns rt) (at_ : core.rt = some rt)
    (at' : core'.rt = some rt') (serialized : retroSerialize core (some data) = (true, some saved)) :
    ∃ restored, retroUnserialize core' (some saved) = (true, { core' with rt := some restored }) ∧
      ∀ later later' : List (RunInput × Int), later.map Prod.fst = later'.map Prod.fst →
        ∃ seen, trace rt later = .returns seen ∧ trace restored later' = .returns seen := by
  obtain ⟨whole, cap, tail, room, rfl⟩ := retroSerialize_true at_ serialized
  have loaded := blytRuntimeLoad_saved rt (blytRuntimeReset rt') room whole tail
  obtain ⟨last, run, within⟩ := play_within (blytRuntimeReset_within fresh) played
  cases reached.symm.trans run
  have same : SameRegions rt { blytRuntimeReset rt' with cart := rt.cart, voiceQ := rt.voiceQ, shake := rt.shake } :=
    ⟨rfl, rfl, rfl⟩
  refine ⟨_, ?_, fun later later' inputs => same.trace within inputs⟩
  simp only [retroUnserialize, at', loaded]

theorem retroSerialize_fits {core : RetroCore} {rt : BlytRuntime} (at_ : core.rt = some rt)
    (bound : core.serializeUpperBound = 196) {data : List UInt8} (exact : data.length = 196) :
    retroSerialize core (some data) = (true, some (blytRuntimeSave rt 196).2) := by
  have room : ¬(196 : UInt32) < 196 := by decide
  have length := blytRuntimeSave_length rt room
  have size : (blytRuntimeSave rt 196).1 = 196 := by
    rw [blytRuntimeSave, if_neg (rt.saveUpperBound_eq ▸ room)]
    exact rt.saveUpperBound_eq
  have behind : data.drop 196 = [] := List.drop_eq_nil_of_le (Nat.le_of_eq exact)
  simp only [retroSerialize, at_, bound, exact]
  rw [if_neg (by decide)]
  show (decide ((blytRuntimeSave rt 196).1 ≠ 0 ∧ (blytRuntimeSave rt 196).1.toNat ≤ 196),
    some ((blytRuntimeSave rt 196).2 ++ data.drop (blytRuntimeSave rt 196).2.length)) = _
  rw [size, length, behind, List.append_nil]
  rfl

/-- Saved behind two runs with the button A down and up, and rewound by a core that has played on. -/
theorem rewind_deterministic_played :
    ∃ rt saved restored, play (blytRuntimeReset blytRuntimeCreate) [(⟨0x10, 1⟩, 800), (⟨0, 2⟩, 0)] = .returns rt ∧
      rt.cart.frame = 4 ∧ retroUnserialize playing (some saved) = (true, { playing with rt := some restored }) ∧
        ∃ seen, trace rt [(⟨0x10, 1⟩, 800), (⟨0, 1⟩, 800)] = .returns seen ∧
          trace restored [(⟨0x10, 1⟩, 801), (⟨0, 1⟩, 0)] = .returns seen := by
  have frames : BlytRuntime.cart <$> play (blytRuntimeReset blytRuntimeCreate) [(⟨0x10, 1⟩, 800), (⟨0, 2⟩, 0)] >>=
      (fun cart => Exec.returns cart.frame) = .returns 4 := by decide +kernel
  obtain ⟨cart, mapped, frame⟩ := Exec.bind_eq_returns.mp frames
  obtain ⟨rt, reached, rfl⟩ := Exec.map_eq_returns.mp mapped
  obtain ⟨restored, load, same⟩ := rewind_deterministic reached
    (show { playing with rt := some rt }.rt = _ from rfl) (show playing.rt = _ from rfl)
    (retroSerialize_fits rfl rfl (List.length_replicate : (List.replicate 196 (0 : UInt8)).length = 196))
  exact ⟨rt, _, restored, reached, Exec.returns.inj frame, load, same _ _ rfl⟩

end Blyt.Facade
