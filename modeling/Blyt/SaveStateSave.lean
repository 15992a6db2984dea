import Blyt.SaveStateLoad

namespace Blyt
open Packed
variable {ι : Type} {R : Registry ι}

/-- The bytes the regions write for the body of a save. -/
def bodyImage (rs : List (RuntimeTrackedRegion ι)) (st : ι → List UInt8) : List UInt8 :=
  rs.flatMap fun r => (r.save (st r.storage)).1

theorem bodyImage_length (rs : List (RuntimeTrackedRegion ι)) (st : ι → List UInt8) :
    (bodyImage rs st).length = bodySize rs := by
  unfold bodyImage
  induction rs with
  | nil => rfl
  | cons r rs ih => rw [List.flatMap_cons, List.length_append, ih, r.save_length, bodySize_cons]

/-- What a save of `st` consists of. -/
def saveImage (R : Registry ι) (st : ι → List UInt8) (frame : UInt32) : List UInt8 :=
  saveStateHeader.encode
    ⟨saveStateMagic, saveStateVersion, registryHash R, frame, saveStateBufferCapacity R⟩ ++ bodyImage R.regions st

theorem saveImage_length (R : Registry ι) (st : ι → List UInt8) (frame : UInt32) :
    (saveImage R st frame).length = 24 + bodySize R.regions := by
  rw [saveImage, List.length_append, saveStateHeader.length_encode, saveStateHeader_size, bodyImage_length]

theorem bodyBlocks_append (rs : List (RuntimeTrackedRegion ι)) (st : ι → List UInt8) (pre post : List UInt8) :
    bodyBlocks (pre ++ (bodyImage rs st ++ post)) rs pre.length = rs.map fun r => (r, (r.save (st r.storage)).1) := by
  induction rs generalizing pre with
  | nil => rfl
  | cons r rs ih =>
    have length := r.save_length (st r.storage)
    have shifted := ih (pre ++ (r.save (st r.storage)).1)
    rw [List.length_append, length, List.append_assoc, ← List.append_assoc _ _ post] at shifted
    have cut : bodyImage (r :: rs) st = (r.save (st r.storage)).1 ++ bodyImage rs st := rfl
    rw [bodyBlocks, cut, shifted, List.drop_left, List.append_assoc, List.take_left' length, List.map_cons]

theorem bodyBlocks_saveImage (R : Registry ι) (st : ι → List UInt8) (frame : UInt32) :
    bodyBlocks (saveImage R st frame) R.regions 24 = R.regions.map fun r => (r, (r.save (st r.storage)).1) := by
  have blocks := bodyBlocks_append R.regions st (saveStateHeader.encode
    ⟨saveStateMagic, saveStateVersion, registryHash R, frame, saveStateBufferCapacity R⟩) []
  rw [List.append_nil, saveStateHeader.length_encode, saveStateHeader_size] at blocks
  exact blocks

/-- An unwrapped image passes every gate of the registry that wrote it. -/
theorem HeaderAccepted.saveImage {buf : ByteSpan} {st : ι → List UInt8} {frame : UInt32}
    (described : Describable R) (image : buf.bytes = saveImage R st frame) : HeaderAccepted R buf := by
  have header := headerOf_append image
  have length := saveImage_length R st frame
  have fits := buf.size_lt
  rw [← image] at length
  have exact := saveStateBufferCapacity_toNat R
  rw [length] at fits
  rw [Nat.mod_eq_of_lt fits] at exact
  exact
    { long := by omega
      magic := by rw [header]
      version := by rw [header]
      described
      layout := by rw [header]
      within := by rw [header]; show (saveStateBufferCapacity R).toNat ≤ _; omega
      exact := by rw [header] }

section
variable [DecidableEq ι]

/-- Regions of their own object each save what it held when the loop began, and
leave it as canonicalized. -/
theorem saveRegions_spec {rs : List (RuntimeTrackedRegion ι)} (st : ι → List UInt8)
    (distinct : (rs.map RuntimeTrackedRegion.storage).Nodup) :
    (saveRegions rs st).1 = bodyImage rs st ∧
      (∀ r ∈ rs, (saveRegions rs st).2 r.storage = (r.save (st r.storage)).2) ∧
        ∀ c ∉ rs.map RuntimeTrackedRegion.storage, (saveRegions rs st).2 c = st c := by
  induction rs generalizing st with
  | nil => exact ⟨rfl, by simp, fun _ _ => rfl⟩
  | cons r rs ih =>
    rw [List.map_cons, List.nodup_cons] at distinct
    obtain ⟨image, cells, frame⟩ := ih (Function.update st r.storage (r.save (st r.storage)).2) distinct.2
    have untouched : ∀ s ∈ rs, Function.update st r.storage (r.save (st r.storage)).2 s.storage = st s.storage := by
      intro s member
      refine Function.update_of_ne (fun same => distinct.1 ?_) ..
      exact same ▸ List.mem_map_of_mem member
    refine ⟨?_, fun s member => ?_, fun c other => ?_⟩
    · have rest : bodyImage rs (Function.update st r.storage (r.save (st r.storage)).2) = bodyImage rs st := by
        unfold bodyImage
        exact List.flatMap_congr fun s member => by rw [untouched s member]
      show (r.save (st r.storage)).1 ++ (saveRegions rs _).1 = _
      rw [image, rest]
      rfl
    · rcases List.mem_cons.mp member with rfl | later
      · exact (frame _ distinct.1).trans (Function.update_self ..)
      · exact (cells s later).trans (by rw [untouched s later])
    · rw [List.map_cons, List.mem_cons, not_or] at other
      exact (frame c other.2).trans (Function.update_of_ne other.1 ..)

/-- The ways out of `save_state_save`: no hash, no room, a body longer than the
wrapped capacity told, or the image of the state. -/
theorem saveStateSave_cases (rt : Runtime R) (cap frame : UInt32) :
    (¬Describable R ∧ saveStateSave rt cap frame = .spins) ∨
      (Describable R ∧ ∃ rt' : Runtime R, rt'.initialized = true ∧
        ((cap < saveStateBufferCapacity R ∧ rt'.store = rt.store ∧
            saveStateSave rt cap frame = .returns ⟨0, [], rt'⟩) ∨
          (¬cap < saveStateBufferCapacity R ∧ 24 + bodySize R.regions > cap.toNat ∧
            saveStateSave rt cap frame = .outOfBounds) ∨
          (¬cap < saveStateBufferCapacity R ∧ 24 + bodySize R.regions ≤ cap.toNat ∧
            rt'.store = (saveRegions R.regions rt.store).2 ∧ saveStateSave rt cap frame =
              .returns ⟨saveStateBufferCapacity R, saveImage R rt.store frame, rt'⟩))) := by
  unfold saveStateSave
  rcases ensureInit_cases rt with ⟨fits, rt', run, store, started, hash⟩ | ⟨excess, _, run⟩
  swap
  · rw [run]
    exact Or.inl ⟨excess, rfl⟩
  rw [run, Exec.returns_bind]
  refine Or.inr ⟨fits, ?_⟩
  by_cases short : cap < saveStateBufferCapacity R
  · exact ⟨rt', started, Or.inl ⟨short, store, by rw [if_pos short]; rfl⟩⟩
  have image : saveStateHeader.encode
        ⟨saveStateMagic, saveStateVersion, rt'.layoutHash, frame, saveStateBufferCapacity R⟩ ++
      (saveRegions R.regions rt'.store).1 = saveImage R rt.store frame := by
    rw [(saveRegions_spec _ R.distinct).1, hash, store]
    rfl
  have length := saveImage_length R rt.store frame
  rw [if_neg short, ← store] at *
  by_cases excess : 24 + bodySize R.regions > cap.toNat
  · refine ⟨rt', started, Or.inr (Or.inl ⟨short, excess, ?_⟩)⟩
    simp only [image, length, excess, if_true]
  · refine ⟨rt'.withStore (saveRegions R.regions rt'.store).2, started,
      Or.inr (Or.inr ⟨short, by omega, rfl, ?_⟩)⟩
    simp only [image, length, excess, if_false]
    rfl

/-- A save that wrote something holds all of its body. -/
theorem saveStateSave_returns {rt : Runtime R} {cap frame : UInt32} {s : SaveResult R}
    (run : saveStateSave rt cap frame = .returns s) (written : s.ret ≠ 0) :
    Describable R ∧ s.ret = saveStateBufferCapacity R ∧ s.written = saveImage R rt.store frame ∧
      24 + bodySize R.regions ≤ cap.toNat ∧ s.rt.store = (saveRegions R.regions rt.store).2 ∧
        s.rt.initialized = true := by
  rcases saveStateSave_cases rt cap frame with
    ⟨_, other⟩ | ⟨fits, rt', started, ⟨_, _, other⟩ | ⟨_, _, other⟩ | ⟨_, room, store, saved⟩⟩
  · rw [run] at other; cases other
  · rw [run] at other
    cases other
    exact absurd rfl written
  · rw [run] at other; cases other
  · rw [run] at saved
    cases saved
    exact ⟨fits, rfl, rfl, room, store, started⟩
end

end Blyt
