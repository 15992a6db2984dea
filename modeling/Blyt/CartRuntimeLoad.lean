import Blyt.SaveStateLoad

namespace Blyt
open Packed CommitWalk
variable {ι : Type} {α : Type} {R : Registry ι}

section
variable {name : CString} {codec : Codec α} {fits : codec.size < 2 ^ 32} {text : List UInt8}
  {canonicalize : α → α} {accept : α → Bool} {storage : ι}

theorem packedRegion_size :
    (packedRegion name codec fits text canonicalize accept storage).size.toNat = codec.size :=
  UInt32.toNat_ofNat_of_lt' fits

/-- Of a full block every byte is stored, accepted or not. -/
theorem packedRegion_load {block : List UInt8} (length : block.length = codec.size) (cell : List UInt8) :
    (packedRegion name codec fits text canonicalize accept storage).load block cell =
      (accept (codec.decode block), block) := by
  simp only [packedRegion, length, ne_eq, not_true, if_false]

/-- The block that a region saves of an object. -/
theorem packedRegion_save (x : α) :
    ((packedRegion name codec fits text canonicalize accept storage).save (codec.encode x)).1 =
      codec.encode (canonicalize x) := by
  show codec.encode (canonicalize (codec.decode (codec.encode x))) = _
  rw [Codec.decode_encode]
end

theorem voiceEndQueue_noNul : 0 ∉ ascii "voice_end_queue" := by decide

/-- A block for the voice queue that claims more pending events than there is
room for. -/
def BadQueue (b : RegionBlock ι) : Prop :=
  b.1.name = cstr "voice_end_queue" voiceEndQueue_noNul ∧ voiceEndPendingMax < (voiceEndQueue.decode b.2).pendingCount.toNat

instance (b : RegionBlock ι) : Decidable (BadQueue b) := inferInstanceAs (Decidable (_ ∧ _))

theorem packedRegion_load_plain {name : CString} {codec : Codec α} {fits : codec.size < 2 ^ 32}
    {text : List UInt8} {canonicalize : α → α} {storage : ι} (other : name ≠ cstr "voice_end_queue")
    {block : List UInt8} (length : block.length = codec.size) (cell : List UInt8) :
    (packedRegion name codec fits text canonicalize (fun _ => true) storage).load block cell =
      (decide ¬BadQueue (packedRegion name codec fits text canonicalize (fun _ => true) storage, block),
        block) := by
  have good : ¬BadQueue (packedRegion name codec fits text canonicalize (fun _ => true) storage, block) :=
    fun bad => other bad.1
  rw [packedRegion_load length, decide_eq_true good]

/-- What a tracked region makes of a block of its size. -/
theorem CartRuntimeRegion.load_eq {r : RuntimeTrackedRegion ι} (known : CartRuntimeRegion r)
    {block : List UInt8} (length : block.length = r.size.toNat) (cell : List UInt8) :
    r.load block cell = (decide ¬BadQueue (r, block), block) := by
  cases known with
  | voiceEndQueue g =>
    have same : (regionVoiceEndQueue g).name = cstr "voice_end_queue" := rfl
    have verdict : ¬BadQueue (regionVoiceEndQueue g, block) ↔
        (Blyt.voiceEndQueue.decode block).pendingCount.toNat ≤ voiceEndPendingMax := by
      simp only [BadQueue, same, true_and, not_lt]
    rw [decide_eq_decide.mpr verdict]
    exact packedRegion_load (length.trans packedRegion_size) cell
  | frameState g => exact packedRegion_load_plain (by decide) (length.trans packedRegion_size) cell
  | cartStateLuaSimple g => exact packedRegion_load_plain (by decide) (length.trans packedRegion_size) cell
  | cartStateWhetstone g => exact packedRegion_load_plain (by decide) (length.trans packedRegion_size) cell
  | screenShake g => exact packedRegion_load_plain (by decide) (length.trans packedRegion_size) cell
  | coroutineSaveBlob g => exact packedRegion_load_plain (by decide) (length.trans packedRegion_size) cell
  | persistentScripts g => exact packedRegion_load_plain (by decide) (length.trans packedRegion_size) cell
  | nativeState v g => exact packedRegion_load_plain (by decide) (length.trans packedRegion_size) cell
  | luaCartState v g => exact packedRegion_load_plain (by decide) (length.trans packedRegion_size) cell

/-- `persistent_scripts` is the largest of them. -/
theorem CartRuntimeRegion.size_le {r : RuntimeTrackedRegion ι} (known : CartRuntimeRegion r) :
    r.size.toNat ≤ 16520 := by
  cases known with
  | nativeState v g => rw [regionNativeState, packedRegion_size]; cases v <;> decide
  | luaCartState v g => rw [regionLuaCartState, packedRegion_size]; cases v <;> decide
  | frameState g => rw [regionFrameState, packedRegion_size]; decide
  | voiceEndQueue g => rw [regionVoiceEndQueue, packedRegion_size]; decide
  | cartStateLuaSimple g => rw [regionCartStateLuaSimple, packedRegion_size]; decide
  | cartStateWhetstone g => rw [regionCartStateWhetstone, packedRegion_size]; decide
  | screenShake g => rw [regionScreenShake, packedRegion_size]; decide
  | coroutineSaveBlob g => rw [regionCoroutineSaveBlob, packedRegion_size]; decide
  | persistentScripts g => rw [regionPersistentScripts, packedRegion_size]; decide

/-- Behind an accepted header the walk goes through the blocks of the body. -/
theorem HeaderAccepted.loadItems_eq {buf : ByteSpan} (accepted : HeaderAccepted R buf)
    (built : ∀ r ∈ R.regions, CartRuntimeRegion r) :
    loadItems buf.bytes (headerOf buf).totalSize.toNat R.regions 24 =
        (bodyBlocks buf.bytes R.regions 24).map loadItem ∧
      ∀ b ∈ bodyBlocks buf.bytes R.regions 24, CartRuntimeRegion b.1 ∧ b.2.length = b.1.size.toNat := by
  have total : 24 + bodySize R.regions = (headerOf buf).totalSize.toNat := by
    rw [accepted.exact, accepted.described.capacity_exact fun r member => (built r member).size_le]
  refine ⟨loadItems_exact _ total, fun b member => ?_⟩
  obtain ⟨known, length⟩ := bodyBlocks_length (total ▸ accepted.within) member
  exact ⟨built _ known, length⟩

section
variable [DecidableEq ι]

/-- A failing load leaves every region alone exactly when a refused queue
block finds itself, and every block before it, already in place. -/
theorem saveStateLoad_atomic_iff (built : ∀ r ∈ R.regions, CartRuntimeRegion r) (rt : Runtime R)
    (buf : ByteSpan) :
    (∀ rt', saveStateLoad rt buf = .returns (false, rt') → SameRegions R rt.store rt'.store) ↔
      (HeaderAccepted R buf → ∀ pre b post, bodyBlocks buf.bytes R.regions 24 = pre ++ b :: post →
        (∀ c ∈ pre, ¬BadQueue c) → BadQueue b → ∀ c ∈ pre ++ [b], c.2 = rt.store c.1.storage) := by
  rw [saveStateLoad_failure_iff]
  refine forall_congr' fun accepted => ?_
  obtain ⟨items, blocks⟩ := accepted.loadItems_eq built
  rw [items]
  -- every block of this body is one `load` attempt, decided by `BadQueue` alone
  have verdict : ∀ b ∈ bodyBlocks buf.bytes R.regions 24,
      (Accepts rt.store (loadItem b) ↔ ¬BadQueue b) ∧ (Refuses rt.store (loadItem b) ↔ BadQueue b) ∧
        (Keeps rt.store (loadItem b) ↔ b.2 = rt.store b.1.storage) := by
    intro b member
    obtain ⟨known, length⟩ := blocks b member
    simp only [Accepts, Refuses, Keeps, loadItem, known.load_eq length, decide_eq_true_eq,
      decide_eq_false_iff_not, not_not, and_self]
  rw [quietRefusal_map_iff]
  constructor
  · intro keeps pre b post split good bad c member
    have inBody : ∀ c ∈ pre ++ b :: post, c ∈ bodyBlocks buf.bytes R.regions 24 := fun c member => split ▸ member
    have here : c ∈ bodyBlocks buf.bytes R.regions 24 := inBody c (by simp at member ⊢; tauto)
    refine (verdict c here).2.2.mp (keeps pre b post split (fun d early => ?_) ?_ c member)
    · exact (verdict d (inBody d (List.mem_append_left _ early))).1.mpr (good d early)
    · exact (verdict b (inBody b (by simp))).2.1.mpr bad
  · intro stays pre b post split accepted refused c member
    have inBody : ∀ c ∈ pre ++ b :: post, c ∈ bodyBlocks buf.bytes R.regions 24 := fun c member => split ▸ member
    refine (verdict c (inBody c (by simp at member ⊢; tauto))).2.2.mpr
      (stays pre b post split (fun d before => ?_) ?_ c member)
    · exact (verdict d (inBody d (List.mem_append_left _ before))).1.mp (accepted d before)
    · exact (verdict b (inBody b (by simp))).2.1.mp refused
end

/-- A screen shake in front of a voice queue. -/
def shakeAndQueue : Registry Bool := ⟨[regionScreenShake false, regionVoiceEndQueue true], by decide⟩

theorem shakeAndQueue_built : ∀ r ∈ shakeAndQueue.regions, CartRuntimeRegion r := by
  intro r member
  simp only [shakeAndQueue, List.mem_cons, List.not_mem_nil, or_false] at member
  rcases member with rfl | rfl
  · exact .screenShake false
  · exact .voiceEndQueue true

/-- An all-zero save in which the queue claims nine pending events. -/
def nineEventSave : ByteSpan where
  bytes := saveStateHeader.encode ⟨saveStateMagic, saveStateVersion, registryHash shakeAndQueue, 0, 97⟩ ++
    List.replicate 16 0 ++ voiceEndQueue.encode ⟨0, 9, fun _ => ⟨0, 0, 0⟩⟩
  size_lt := by
    have header : saveStateHeader.size = 24 := rfl
    have queue : voiceEndQueue.size = 57 := rfl
    simp only [List.length_append, Codec.length_encode, List.length_replicate, header, queue]
    decide

/-- The process in the middle of a run, its objects holding other bytes. -/
def runningShakeAndQueue : Runtime shakeAndQueue :=
  .boot _ fun queue => if queue then List.replicate 57 0 else List.replicate 16 1

theorem saveStateLoad_atomic_iff_shakeAndQueue :
    (∀ rt', saveStateLoad runningShakeAndQueue nineEventSave = .returns (false, rt') →
        SameRegions shakeAndQueue runningShakeAndQueue.store rt'.store) ↔
      (HeaderAccepted shakeAndQueue nineEventSave → ∀ pre b post,
        bodyBlocks nineEventSave.bytes shakeAndQueue.regions 24 = pre ++ b :: post →
        (∀ c ∈ pre, ¬BadQueue c) → BadQueue b →
          ∀ c ∈ pre ++ [b], c.2 = runningShakeAndQueue.store c.1.storage) :=
  saveStateLoad_atomic_iff shakeAndQueue_built runningShakeAndQueue nineEventSave

/-- The refused buffer has already replaced the screen shake. -/
theorem saveStateLoad_not_atomic :
    ¬∀ (ι : Type) (_ : DecidableEq ι) (R : Registry ι) (_ : ∀ r ∈ R.regions, CartRuntimeRegion r)
      (rt rt' : Runtime R) (buf : ByteSpan), saveStateLoad rt buf = .returns (false, rt') →
        SameRegions R rt.store rt'.store := by
  intro atomic
  have header : headerOf nineEventSave = ⟨saveStateMagic, saveStateVersion, registryHash shakeAndQueue, 0, 97⟩ :=
    headerOf_append (List.append_assoc ..)
  have length : nineEventSave.bytes.length = 97 := by decide
  have gates : HeaderAccepted shakeAndQueue nineEventSave :=
    { long := by omega
      magic := by rw [header]
      version := by rw [header]
      described := describable_iff.mpr (by decide +kernel)
      layout := by rw [header]
      within := by rw [header, length]; decide
      exact := by rw [header]; decide }
  rcases saveStateLoad_cases runningShakeAndQueue nineEventSave with ⟨_, rt', store, _, run⟩ | ⟨rejected, _⟩
  swap
  · exact rejected gates
  rw [header] at store run
  have refused : (loadRegions nineEventSave.bytes 97 shakeAndQueue.regions 24 runningShakeAndQueue.store).1 = false := by
    decide +kernel
  have overwritten : (loadRegions nineEventSave.bytes 97 shakeAndQueue.regions 24
      runningShakeAndQueue.store).2 false = List.replicate 16 0 := by decide +kernel
  have kept := atomic Bool inferInstance shakeAndQueue shakeAndQueue_built runningShakeAndQueue rt' nineEventSave
    (by rw [run]; exact congrArg Exec.returns (Prod.ext refused rfl)) (regionScreenShake false) List.mem_cons_self
  rw [store] at kept
  have zeros : List.replicate 16 (0 : UInt8) = List.replicate 16 1 := overwritten.symm.trans kept
  revert zeros
  decide

end Blyt
