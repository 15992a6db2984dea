import Blyt.CartRuntimeLoad
import Blyt.SaveStateSave

namespace Blyt
open Packed CommitWalk
variable {ι : Type} {R : Registry ι}

/-- A `frame_state` style region: the struct and the callbacks of
`region_frame_state.c` under any name and description. -/
def frameStateStyle (name : CString) (text : List UInt8) (g : ι) : RuntimeTrackedRegion ι :=
  packedRegion name frameState frameState_fits text FrameState.canonicalize (fun _ => true) g

def voiceEndQueueStyle (name : CString) (text : List UInt8) (g : ι) : RuntimeTrackedRegion ι :=
  packedRegion name voiceEndQueue voiceEndQueue_fits text id
    (fun q => decide (q.pendingCount.toNat ≤ voiceEndPendingMax)) g

inductive StyledRegion : RuntimeTrackedRegion ι → Prop
  | frame (name : CString) (text : List UInt8) (g : ι) : StyledRegion (frameStateStyle name text g)
  | queue (name : CString) (text : List UInt8) (g : ι) : StyledRegion (voiceEndQueueStyle name text g)

/-- Every `f32` field of the struct. -/
def FrameState.f32Fields (fs : FrameState) : List F32 :=
  [fs.accumSin, fs.accumCos, fs.accumSqrt, fs.accumMisc] ++
    (List.ofFn fs.mobs).flatMap fun m => [m.x, m.y, m.vx, m.vy]

theorem FrameState.f32Fields_canonicalize (fs : FrameState) :
    fs.canonicalize.f32Fields = fs.f32Fields.map canonicalizeNanf := by
  have mobs : List.ofFn fs.canonicalize.mobs = (List.ofFn fs.mobs).map FrameStateMob.canonicalize := by
    rw [List.map_ofFn]
    rfl
  rw [f32Fields, mobs, f32Fields, List.map_append, List.map_flatMap, List.flatMap_map]
  rfl

theorem FrameState.canonicalize_f32Fields {fs : FrameState} {x : F32}
    (member : x ∈ fs.canonicalize.f32Fields) (nan : IsNan32 x) : x = canonicalQnanBits := by
  rw [f32Fields_canonicalize] at member
  obtain ⟨y, _, rfl⟩ := List.mem_map.mp member
  exact canonicalizeNanf_of_isNan nan

/-- No queue of the registry holds more events than it has room for. -/
def QueuesInRange (R : Registry ι) (st : ι → List UInt8) : Prop :=
  ∀ name text g, voiceEndQueueStyle name text g ∈ R.regions →
    (voiceEndQueue.decode (st g)).pendingCount.toNat ≤ voiceEndPendingMax

/-- `st'` holds what `st` held, the NaNs of the simulation states replaced. -/
def Restored (R : Registry ι) (st st' : ι → List UInt8) : Prop :=
  (∀ name text g, frameStateStyle name text g ∈ R.regions →
      st' g = frameState.encode (frameState.decode (st g)).canonicalize) ∧
    ∀ name text g, voiceEndQueueStyle name text g ∈ R.regions → st' g = st g

/-- What a region of either style writes is taken back as it is, and is what
it writes again. -/
theorem StyledRegion.settles {r : RuntimeTrackedRegion ι} (styled : StyledRegion r) (member : r ∈ R.regions)
    {st : ι → List UInt8} (valid : QueuesInRange R st) (cell : List UInt8) :
    r.load (r.save (st r.storage)).1 cell = (true, (r.save (st r.storage)).1) ∧
      (r.save (r.save (st r.storage)).1).1 = (r.save (st r.storage)).1 ∧
        (r.save (st r.storage)).2 = (r.save (st r.storage)).1 := by
  rcases styled with ⟨name, text, g⟩ | ⟨name, text, g⟩
  · refine ⟨packedRegion_load (frameState.length_encode _) cell, ?_, rfl⟩
    show frameState.encode (frameState.decode (frameState.encode _)).canonicalize = frameState.encode _
    rw [Codec.decode_encode, FrameState.canonicalize_idem]
  · have inRange := valid name text g member
    have image : ((voiceEndQueueStyle name text g).save (st g)).1 =
        voiceEndQueue.encode (voiceEndQueue.decode (st g)) := rfl
    have storage : (voiceEndQueueStyle name text g).storage = g := rfl
    rw [storage, image]
    refine ⟨?_, ?_, rfl⟩
    · refine (packedRegion_load (voiceEndQueue.length_encode _) cell).trans ?_
      simp only [Codec.decode_encode, inRange, decide_true]
    · show voiceEndQueue.encode (voiceEndQueue.decode (voiceEndQueue.encode _)) = _
      rw [Codec.decode_encode]

theorem StyledRegion.size_le {r : RuntimeTrackedRegion ι} (styled : StyledRegion r) : r.size.toNat ≤ 16520 := by
  rcases styled with ⟨name, text, g⟩ | ⟨name, text, g⟩
  · rw [frameStateStyle, packedRegion_size]; decide
  · rw [voiceEndQueueStyle, packedRegion_size]; decide

theorem voiceEndQueueStyle_ne_frameState (name : CString) (text : List UInt8) (g h : ι) :
    voiceEndQueueStyle name text g ≠ regionFrameState h := by
  intro same
  have size := congrArg (fun r => r.size.toNat) same
  simp only [voiceEndQueueStyle, regionFrameState, packedRegion_size] at size
  exact absurd size (by decide)

section
variable [DecidableEq ι]

omit [DecidableEq ι] in
theorem loadItems_saveImage {buf : ByteSpan} {st : ι → List UInt8} {frame : UInt32} (described : Describable R)
    (image : buf.bytes = saveImage R st frame) :
    loadItems buf.bytes (headerOf buf).totalSize.toNat R.regions 24 =
      R.regions.map fun r => loadItem (r, (r.save (st r.storage)).1) := by
  have gates := HeaderAccepted.saveImage described image
  have total : 24 + bodySize R.regions = (headerOf buf).totalSize.toNat := by
    have fits := buf.size_lt
    rw [image, saveImage_length] at fits
    rw [gates.exact, saveStateBufferCapacity_toNat, Nat.mod_eq_of_lt fits]
  have blocks := bodyBlocks_saveImage R st frame
  rw [← image] at blocks
  rw [loadItems_exact buf.bytes total, blocks, List.map_map]
  rfl

/-- A save whose regions take back what they wrote is loaded from any state. -/
theorem saveStateLoad_saveImage {buf : ByteSpan} {st : ι → List UInt8} {frame : UInt32}
    (described : Describable R) (image : buf.bytes = saveImage R st frame) (rt : Runtime R)
    (accepts : ∀ r ∈ R.regions, (r.load (r.save (st r.storage)).1 (rt.store r.storage)).1 = true) :
    ∃ loaded : Runtime R, saveStateLoad rt buf = .returns (true, loaded) ∧ ∀ r ∈ R.regions,
      loaded.store r.storage = (r.load (r.save (st r.storage)).1 (rt.store r.storage)).2 := by
  rcases saveStateLoad_cases rt buf with ⟨_, loaded, store, _, run⟩ | ⟨rejected, _⟩
  swap
  · exact absurd (HeaderAccepted.saveImage described image) rejected
  have distinct := loadItems_distinct R buf.bytes (headerOf buf).totalSize.toNat 24
  have walked := loadRegions_eq_walk buf.bytes (headerOf buf).totalSize.toNat R.regions 24 rt.store
  rw [loadItems_saveImage described image] at distinct walked
  have done := walk_accepted rt.store distinct (by
    intro i member
    obtain ⟨r, known, rfl⟩ := List.mem_map.mp member
    exact accepts r known)
  rw [done] at walked
  have result := Exec.returns.inj walked
  refine ⟨loaded, by rw [run, ← result], fun r member => ?_⟩
  rw [store, ← result]
  exact overlay_attempt distinct (List.mem_map_of_mem member)

/-- A save that was loaded left every region what it made of its own image. -/
theorem saveStateLoad_true {buf : ByteSpan} {st : ι → List UInt8} {frame : UInt32} (described : Describable R)
    (image : buf.bytes = saveImage R st frame) {rt loaded : Runtime R}
    (load : saveStateLoad rt buf = .returns (true, loaded)) {r : RuntimeTrackedRegion ι} (member : r ∈ R.regions) :
    loaded.store r.storage = (r.load (r.save (st r.storage)).1 (rt.store r.storage)).2 := by
  have accepts : ∀ r ∈ R.regions, (r.load (r.save (st r.storage)).1 (rt.store r.storage)).1 = true := by
    intro r known
    rcases saveStateLoad_cases rt buf with ⟨_, rt', _, _, run⟩ | ⟨rejected, _⟩
    swap
    · exact absurd (HeaderAccepted.saveImage described image) rejected
    rw [load] at run
    have flag := congrArg Prod.fst (Exec.returns.inj run)
    have distinct := loadItems_distinct R buf.bytes (headerOf buf).totalSize.toNat 24
    have walked := loadRegions_eq_walk buf.bytes (headerOf buf).totalSize.toNat R.regions 24 rt.store
    rw [loadItems_saveImage described image] at distinct walked
    rcases walk_returns distinct walked with ⟨_, all⟩ | ⟨refused, _⟩
    · exact all _ (List.mem_map_of_mem known)
    · rw [← flag] at refused
      cases refused
  obtain ⟨loaded', again, cells⟩ := saveStateLoad_saveImage described image rt accepts
  rw [load] at again
  cases again
  exact cells r member

/-- A save from a state with the same images writes the same bytes. -/
theorem saveStateSave_again {cap : UInt32} {st : ι → List UInt8} (rt : Runtime R) (frame : UInt32)
    (described : Describable R) (exact : (saveStateBufferCapacity R).toNat = 24 + bodySize R.regions)
    (room : saveStateBufferCapacity R ≤ cap)
    (same : ∀ r ∈ R.regions, (r.save (rt.store r.storage)).1 = (r.save (st r.storage)).1) :
    ∃ s : SaveResult R, saveStateSave rt cap frame = .returns s ∧ s.ret = saveStateBufferCapacity R ∧
      s.written = saveImage R st frame ∧ s.rt.store = (saveRegions R.regions rt.store).2 := by
  have images : saveImage R rt.store frame = saveImage R st frame := by
    rw [saveImage, saveImage, bodyImage, List.flatMap_congr same]
    rfl
  have fits : 24 + bodySize R.regions ≤ cap.toNat := exact ▸ UInt32.le_iff_toNat_le.mp room
  rcases saveStateSave_cases rt cap frame with
    ⟨excess, _⟩ | ⟨_, rt', _, ⟨short, _⟩ | ⟨_, excess, _⟩ | ⟨_, _, store, run⟩⟩
  · exact absurd described excess
  · exact absurd short (UInt32.not_lt.mpr room)
  · omega
  · exact ⟨_, run, rfl, images, store⟩

/-- Saving `frame_state` and `voice_end_queue` style regions and loading the
result elsewhere. -/
theorem saveState_round_trip (styled : ∀ r ∈ R.regions, StyledRegion r) (described : Describable R)
    (rt : Runtime R) (sized : ∀ r ∈ R.regions, (rt.store r.storage).length = r.size.toNat)
    (valid : QueuesInRange R rt.store) (cap frame : UInt32) (room : saveStateBufferCapacity R ≤ cap) :
    ∃ saved : SaveResult R, saveStateSave rt cap frame = .returns saved ∧
      saved.ret = saveStateBufferCapacity R ∧ saved.written.length = saved.ret.toNat ∧
      (∀ buf : ByteSpan, buf.bytes = saved.written → ∀ other : Runtime R, ∃ loaded : Runtime R,
        saveStateLoad other buf = .returns (true, loaded) ∧ Restored R rt.store loaded.store ∧
        ∃ again : SaveResult R, saveStateSave loaded cap frame = .returns again ∧
          again.ret = saved.ret ∧ again.written = saved.written) ∧
      (∃ again : SaveResult R, saveStateSave saved.rt cap frame = .returns again ∧
        again.ret = saved.ret ∧ again.written = saved.written) ∧
      ∀ name text g block, (frameStateStyle name text g, block) ∈ bodyBlocks saved.written R.regions 24 →
        ∀ x ∈ (frameState.decode block).f32Fields, IsNan32 x → x = canonicalQnanBits := by
  have exact := described.capacity_exact fun r member => (styled r member).size_le
  have settles := fun r member => (styled r member).settles member valid
  obtain ⟨saved, run, ret, written, store⟩ := saveStateSave_again rt frame described exact room
    fun r _ => rfl
  refine ⟨saved, run, ret, ?_, fun buf bytes other => ?_, ?_, ?_⟩
  · rw [written, saveImage_length, ret, exact]
  · rw [written] at bytes
    obtain ⟨loaded, load, cells⟩ := saveStateLoad_saveImage described bytes other fun r member => by
      rw [(settles r member _).1]
    have images : ∀ r ∈ R.regions, loaded.store r.storage = (r.save (rt.store r.storage)).1 := by
      intro r member
      rw [cells r member, (settles r member _).1]
    obtain ⟨again, second, secondRet, secondWritten, _⟩ := saveStateSave_again loaded frame
      described exact room fun r member => by rw [images r member, (settles r member []).2.1]
    refine ⟨loaded, load, ⟨fun name text g member => images _ member, fun name text g member => ?_⟩, again,
      second, secondRet.trans ret.symm, secondWritten.trans written.symm⟩
    have size := (sized _ member).trans packedRegion_size
    exact (images _ member).trans (voiceEndQueue.encode_decode _ size)
  · obtain ⟨again, second, secondRet, secondWritten, _⟩ := saveStateSave_again saved.rt frame
      described exact room fun r member => by
        rw [store, (saveRegions_spec rt.store R.distinct).2.1 r member, (settles r member []).2.2,
          (settles r member []).2.1]
    exact ⟨again, second, secondRet.trans ret.symm, secondWritten.trans written.symm⟩
  · intro name text g block member x field nan
    rw [written, bodyBlocks_saveImage] at member
    obtain ⟨r, _, same⟩ := List.mem_map.mp member
    obtain ⟨rfl, rfl⟩ := Prod.mk.inj same
    have image : ((frameStateStyle name text g).save (rt.store g)).1 =
        frameState.encode (frameState.decode (rt.store g)).canonicalize := rfl
    rw [show (frameStateStyle name text g).storage = g from rfl, image, Codec.decode_encode] at field
    exact FrameState.canonicalize_f32Fields field nan

/-- A simulation state and a queue, the process in the middle of a run. -/
def frameAndQueue : Registry Bool := ⟨[regionFrameState false, regionVoiceEndQueue true], by decide⟩

def runningFrameAndQueue : Runtime frameAndQueue :=
  .boot _ fun queue => if queue then List.replicate 57 0 else List.replicate 1316 1

theorem saveState_round_trip_frameAndQueue :
    ∃ saved : SaveResult frameAndQueue, saveStateSave runningFrameAndQueue 1397 7 = .returns saved ∧
      saved.ret = saveStateBufferCapacity frameAndQueue ∧ saved.written.length = saved.ret.toNat ∧
      (∀ buf : ByteSpan, buf.bytes = saved.written → ∀ other : Runtime frameAndQueue,
        ∃ loaded : Runtime frameAndQueue, saveStateLoad other buf = .returns (true, loaded) ∧
          Restored frameAndQueue runningFrameAndQueue.store loaded.store ∧
          ∃ again : SaveResult frameAndQueue, saveStateSave loaded 1397 7 = .returns again ∧
            again.ret = saved.ret ∧ again.written = saved.written) ∧
      (∃ again : SaveResult frameAndQueue, saveStateSave saved.rt 1397 7 = .returns again ∧
        again.ret = saved.ret ∧ again.written = saved.written) ∧
      ∀ name text g block, (frameStateStyle name text g, block) ∈ bodyBlocks saved.written frameAndQueue.regions 24 →
        ∀ x ∈ (frameState.decode block).f32Fields, IsNan32 x → x = canonicalQnanBits := by
  refine saveState_round_trip (fun r member => ?_) (describable_iff.mpr (by decide +kernel))
    runningFrameAndQueue (fun r member => ?_) (fun name text g member => ?_) 1397 7 (by decide)
  · simp only [frameAndQueue, List.mem_cons, List.not_mem_nil, or_false] at member
    rcases member with rfl | rfl
    · exact .frame _ _ _
    · exact .queue _ _ _
  · simp only [frameAndQueue, List.mem_cons, List.not_mem_nil, or_false] at member
    rcases member with rfl | rfl
    · exact List.length_replicate
    · exact List.length_replicate
  · simp only [frameAndQueue, List.mem_cons, List.not_mem_nil, or_false] at member
    rcases member with frame | queue
    · exact absurd frame (voiceEndQueueStyle_ne_frameState _ _ _ _)
    · obtain rfl : g = true := congrArg RuntimeTrackedRegion.storage queue
      decide

/-- Twenty-three simulation states, each with an object of its own. -/
def crowdedRegistry : Registry (Fin 23) := ⟨List.ofFn regionFrameState, by decide⟩

/-- Their description does not fit the scratch buffer, and no save returns. -/
theorem saveStateSave_not_total :
    ¬∀ (ι : Type) (_ : DecidableEq ι) (R : Registry ι) (_ : ∀ r ∈ R.regions, StyledRegion r) (rt : Runtime R)
      (cap frame : UInt32), QueuesInRange R rt.store → saveStateBufferCapacity R ≤ cap →
        ∃ saved : SaveResult R, saveStateSave rt cap frame = .returns saved := by
  intro total
  have excess : ¬Describable crowdedRegistry := by
    rw [describable_iff]
    decide +kernel
  have styled : ∀ r ∈ crowdedRegistry.regions, StyledRegion r := by
    intro r member
    obtain ⟨i, rfl⟩ := List.mem_ofFn.mp member
    exact .frame _ _ _
  have valid : QueuesInRange crowdedRegistry fun _ => List.replicate 1316 0 := by
    intro name text g member
    obtain ⟨i, frame⟩ := List.mem_ofFn.mp member
    exact absurd frame.symm (voiceEndQueueStyle_ne_frameState _ _ _ _)
  let rt : Runtime crowdedRegistry := .boot _ fun _ => List.replicate 1316 0
  obtain ⟨saved, run⟩ := total (Fin 23) inferInstance crowdedRegistry styled rt
    (saveStateBufferCapacity crowdedRegistry) 0 valid (UInt32.le_refl _)
  rcases saveStateSave_cases rt (saveStateBufferCapacity crowdedRegistry) 0 with ⟨_, spins⟩ | ⟨fits, _⟩
  · rw [run] at spins
    cases spins
  · exact excess fits

end
end Blyt
