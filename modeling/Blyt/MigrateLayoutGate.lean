import Blyt.NativeStateMigration

namespace Blyt
open Window CommitWalk
variable {κ ι : Type} {table : MigrateTable}

/-- The bytes the declared old sizes take, without wrapping. -/
def oldBodySize (table : MigrateTable) (rs : List (RuntimeTrackedRegion ι)) : Nat :=
  (rs.map fun r => (oldSize table r).toNat).sum

theorem oldBodySize_cons (r : RuntimeTrackedRegion ι) (rs : List (RuntimeTrackedRegion ι)) :
    oldBodySize table (r :: rs) = (oldSize table r).toNat + oldBodySize table rs := rfl

theorem coversRegions_bound {stop p : Nat} {rs : List (RuntimeTrackedRegion ι)} (start : p ≤ stop)
    (covered : coversRegions table stop rs p = true) : p + oldBodySize table rs ≤ stop := by
  induction rs generalizing p with
  | nil => exact start
  | cons r rs ih =>
    rw [coversRegions] at covered
    split at covered
    · cases covered
    · have rest := ih (by omega) covered
      rw [oldBodySize_cons]
      omega

/-- The old and new regions pair off under one name and one declared size. -/
abbrev SameOldBody (table : MigrateTable) (olds : List (RuntimeTrackedRegion κ))
    (news : List (RuntimeTrackedRegion ι)) : Prop :=
  List.Forall₂ (fun o r => o.name = r.name ∧ oldSize table r = o.size) olds news

theorem SameOldBody.split {olds : List (RuntimeTrackedRegion κ)} {pre post : List (RuntimeTrackedRegion ι)}
    {r : RuntimeTrackedRegion ι} (same : SameOldBody table olds (pre ++ r :: post)) :
    ∃ preO o postO, olds = preO ++ o :: postO ∧ o.name = r.name ∧ oldSize table r = o.size ∧
      bodySize preO = oldBodySize table pre := by
  induction pre generalizing olds with
  | nil =>
    obtain ⟨o, postO, ⟨name, size⟩, _, rfl⟩ := List.forall₂_cons_right_iff.mp same
    exact ⟨[], o, postO, rfl, name, size, rfl⟩
  | cons s pre ih =>
    obtain ⟨first, olds, ⟨_, size⟩, rest, rfl⟩ := List.forall₂_cons_right_iff.mp same
    obtain ⟨preO, o, postO, rfl, name, own, bytes⟩ := ih rest
    refine ⟨first :: preO, o, postO, rfl, name, own, ?_⟩
    rw [bodySize_cons, oldBodySize_cons, size, bytes]

theorem saveImage_block {R : Registry κ} {preO postO : List (RuntimeTrackedRegion κ)} {o : RuntimeTrackedRegion κ}
    (regions : R.regions = preO ++ o :: postO) (st : κ → List UInt8) (frame : UInt32) :
    ((saveImage R st frame).drop (24 + bodySize preO)).take o.size.toNat = (o.save (st o.storage)).1 := by
  have front : (saveStateHeader.encode
      ⟨saveStateMagic, saveStateVersion, registryHash R, frame, saveStateBufferCapacity R⟩ ++
        bodyImage preO st).length = 24 + bodySize preO := by
    rw [List.length_append, saveStateHeader.length_encode, saveStateHeader_size, bodyImage_length]
  have image : saveImage R st frame = (saveStateHeader.encode
      ⟨saveStateMagic, saveStateVersion, registryHash R, frame, saveStateBufferCapacity R⟩ ++
        bodyImage preO st) ++ ((o.save (st o.storage)).1 ++ bodyImage postO st) := by
    rw [saveImage, regions, List.append_assoc]
    unfold bodyImage
    rw [List.flatMap_append, List.flatMap_cons]
  rw [image, List.drop_left' front, List.take_left' (o.save_length _)]

section
variable [DecidableEq ι] {Rnew : Registry ι}

/-- What an accepted migration did with a region: it was handed the block that the table makes of the bytes that begin
with its own old ones and run on into those of the regions behind, and took it. -/
structure Consumed (table : MigrateTable) (r : RuntimeTrackedRegion ι) (own behind scratch cell cell' : List UInt8) :
    Prop where
  servable : Servable table r
  reachable : Reachable table r (own ++ behind).length
  taken : r.load (servedBlock table r (own ++ behind) scratch) cell = (true, cell')
  alone : OwnOnly table r → servedBlock table r (own ++ behind) scratch = servedBlock table r own []

/-- In a phase 3 that went through, every region took the block made at the sum of the old sizes before it. -/
theorem applyRegions_true {buf : List UInt8} {rs : List (RuntimeTrackedRegion ι)} {p : Nat}
    {scratch scratch' : Scratch} {st st' : ι → List UInt8}
    (distinct : (rs.map RuntimeTrackedRegion.storage).Nodup)
    (run : applyRegions table buf rs p scratch st = .returns (true, st', scratch')) :
    ∀ pre r post, rs = pre ++ r :: post →
      Servable table r ∧ Reachable table r (buf.drop (p + oldBodySize table pre)).length ∧
        r.load (servedBlock table r (buf.drop (p + oldBodySize table pre))
          (scratchBehind table buf pre p scratch.bytes)) (st r.storage) = (true, st' r.storage) := by
  induction rs generalizing p scratch st with
  | nil => intro pre r post split; simp at split
  | cons s rs ih =>
    rw [List.map_cons, List.nodup_cons] at distinct
    obtain ⟨⟨prepared, mid⟩, prepare, rest⟩ := Exec.bind_eq_returns.mp run
    cases prepared with
    | none => cases rest
    | some block =>
      obtain ⟨servable, reachable, rfl, bytes⟩ := prepareRegion_some prepare
      dsimp only at rest
      split at rest
      swap
      · cases rest
      rename_i accepted
      intro pre r post split
      cases pre with
      | nil =>
        obtain ⟨rfl, rfl⟩ := List.cons.inj split
        have kept : st' s.storage = _ := applyRegions_frame distinct.1 rest
        rw [Function.update_self] at kept
        exact ⟨servable, reachable, Prod.ext accepted kept.symm⟩
      | cons first pre =>
        obtain ⟨rfl, rfl⟩ := List.cons.inj split
        obtain ⟨servable, reachable, taken⟩ := ih distinct.2 rest pre r post rfl
        have other : r.storage ≠ s.storage := by
          intro same
          exact distinct.1 (same ▸ List.mem_map_of_mem (by simp))
        rw [Function.update_of_ne other, bytes] at taken
        rw [Nat.add_assoc] at reachable taken
        exact ⟨servable, reachable, taken⟩

end

/-- Its block of the native state is made from the old bytes of that region alone. -/
example : OwnOnly NativeEdit.n5.migrateRegions (regionNativeState .v5 true) := by decide +kernel

/-- The struct layout every region of a registry is compiled with. -/
structure Layouts (R : Registry ι) where
  layout : RuntimeTrackedRegion ι → MLayout
  sized : ∀ r ∈ R.regions, (layout r).totalSize = r.size

/-- The gate a migration would need: every region is served by its namesake, and
that one was compiled with the layout the table decodes it under. -/
def LayoutGate {Rold : Registry κ} {Rnew : Registry ι} (old : Layouts Rold) (new : Layouts Rnew)
    (table : MigrateTable) : Prop :=
  ∀ pre r post, Rnew.regions = pre ++ r :: post → ∃ preO o postO, Rold.regions = preO ++ o :: postO ∧
    o.name = r.name ∧ bodySize preO = oldBodySize table pre ∧ o.size = oldSize table r ∧
      old.layout o = match findMigrateDesc table r.name with
        | some m => m.oldLayout.getD (new.layout r)
        | none => new.layout r

/-- The scalar fields of `frame_state_t`; descriptors have no array types. -/
def frameStateLayout : MLayout where
  fields := [⟨cstr "frame", .u32, 0, 4⟩, ⟨cstr "rng_state", .u64, 4, 8⟩, ⟨cstr "rng_inc", .u64, 12, 8⟩,
    ⟨cstr "accum_sin", .f32, 20, 4⟩, ⟨cstr "accum_cos", .f32, 24, 4⟩, ⟨cstr "accum_sqrt", .f32, 28, 4⟩,
    ⟨cstr "accum_misc", .f32, 32, 4⟩]
  totalSize := 1316

theorem frameState_noNul : 0 ∉ ascii "frame_state" := by decide

def nativeEditLayouts (v : NativeStateVersion) : Layouts (nativeEditRegions v) where
  layout r := if r.name = cstr "frame_state" frameState_noNul then frameStateLayout else nativeStateLayout v
  sized r member := by
    simp only [nativeEditRegions, List.mem_cons, List.not_mem_nil, or_false] at member
    rcases member with rfl | rfl
    · rfl
    · rw [regionNativeState_size, ← nativeStateLayout_totalSize]
      rfl

end Blyt
