import Blyt.MigrateAtomicity
import Blyt.SaveStateSave
import Mathlib.Data.List.Forall2

namespace Blyt
open Window CommitWalk
variable {κ ι : Type} {table : MigrateTable}

/-- A region of the old program beside the region of its name in the new one,
and a table that is right about the two. -/
structure Consistent (table : MigrateTable) (o : RuntimeTrackedRegion κ) (r : RuntimeTrackedRegion ι) :
    Prop where
  name : o.name = r.name
  described : ∀ m, findMigrateDesc table r.name = some m → ∃ oldLayout newLayout,
    m.oldLayout = some oldLayout ∧ m.newLayout = some newLayout ∧ m.oldSize = o.size ∧
      oldLayout.totalSize = o.size ∧ newLayout.totalSize = r.size ∧ r.size ≤ 4096 ∧
        oldLayout.InRange ∧ newLayout.InRange
  undescribed : findMigrateDesc table r.name = none → r.size = o.size
  accepts : ∀ src cell, src.length = r.size.toNat → r.load src cell = (true, src)

/-- What the migration makes of the bytes `old` of a region: with a descriptor
`migrate_region_bytes` of them, into whatever destination; without one the
bytes themselves. -/
def Carried (table : MigrateTable) (old : List UInt8) (r : RuntimeTrackedRegion ι) (out : List UInt8) : Prop :=
  match findMigrateDesc table r.name with
  | none => out = old
  | some m => ∀ oldLayout newLayout, m.oldLayout = some oldLayout → m.newLayout = some newLayout →
      ∀ prior, prior.length = r.size.toNat →
        migrateRegionBytes prior newLayout old oldLayout m.onRetype = .returns (true, out)

section
variable {o : RuntimeTrackedRegion κ} {r : RuntimeTrackedRegion ι}

theorem Consistent.oldSize (pair : Consistent table o r) : oldSize table r = o.size := by
  unfold Blyt.oldSize
  cases found : findMigrateDesc table r.name with
  | none => exact pair.undescribed found
  | some m =>
    obtain ⟨_, _, _, _, size, _⟩ := pair.described m found
    exact size

/-- The bytes a consistent region is handed come from its own old block: the
rest of the buffer and the stale scratch do not show. -/
theorem Consistent.prepare (pair : Consistent table o r) {block : List UInt8}
    (length : block.length = o.size.toNat) (pre rest : List UInt8) (scratch : Scratch) :
    ∃ out scratch', prepareRegion table (pre ++ (block ++ rest)) pre.length r scratch =
        .returns (some out, scratch') ∧ out.length = r.size.toNat ∧ Carried table block r out := by
  unfold prepareRegion Carried
  cases found : findMigrateDesc table r.name with
  | none =>
    have same := pair.undescribed found
    have fits : pre.length + r.size.toNat ≤ (pre ++ (block ++ rest)).length := by
      rw [List.length_append, List.length_append, length, same]
      omega
    have own : ((pre ++ (block ++ rest)).drop pre.length).take r.size.toNat = block := by
      rw [List.drop_left, same, ← length, List.take_left]
    refine ⟨block, scratch, ?_, by rw [length, same], rfl⟩
    simp only [Option.any_none, Option.bind_none, Bool.false_eq_true, if_false, pair.oldSize, same, ne_eq, not_true]
    rw [← same, readAt_returns fits, own]
    rfl
  | some m =>
    obtain ⟨oldLayout, newLayout, old, new, _, oldTotal, newTotal, small, oldRange, newRange⟩ :=
      pair.described m found
    have named := findMigrateDesc_isFor found
    obtain ⟨out, size, run⟩ := migrateRegionBytes_window m.onRetype newRange oldRange
      (length.trans (by rw [oldTotal]))
    have room : r.size.toNat ≤ scratch.bytes.length := by
      rw [scratch.length_eq]
      exact UInt32.le_iff_toNat_le.mp small
    have cut : (scratch.bytes.take r.size.toNat).length = newLayout.totalSize.toNat := by
      rw [List.length_take, newTotal]
      exact min_eq_left room
    have inScratch := run (scratch.bytes.take r.size.toNat) rest (scratch.bytes.drop r.size.toNat) cut
    rw [List.take_append_drop] at inScratch
    obtain ⟨scratch', migrated, bytes⟩ := migrateScratch_returns inScratch
    rw [newTotal] at size
    refine ⟨out, scratch', ?_, size, fun oldLayout' newLayout' old' new' prior fits => ?_⟩
    · have bound : ¬r.size > 4096 := UInt32.not_lt.mpr small
      simp only [Option.any_some, named, Bool.not_true, Bool.false_eq_true, if_false, Option.bind_some, old, new,
        Option.map_some, bound, List.drop_left, migrated, Exec.returns_bind, if_true]
      rw [bytes, List.take_left' size]
      rfl
    · obtain rfl : oldLayout = oldLayout' := Option.some.inj (old.symm.trans old')
      obtain rfl : newLayout = newLayout' := Option.some.inj (new.symm.trans new')
      have alone := run prior [] [] (fits.trans (by rw [newTotal]))
      rw [List.append_nil, List.append_nil, List.append_nil] at alone
      exact alone
end

theorem coversRegions_consistent {olds : List (RuntimeTrackedRegion κ)} {news : List (RuntimeTrackedRegion ι)}
    (pairs : List.Forall₂ (fun o r => oldSize table r = o.size) olds news) {stop p : Nat}
    (fits : p + bodySize olds ≤ stop) : coversRegions table stop news p = true := by
  induction pairs generalizing p with
  | nil => rfl
  | cons size _ ih =>
    rw [bodySize_cons] at fits
    rw [coversRegions, size, if_neg (by omega)]
    exact ih (by omega)

/-- The walk over the bytes the old regions wrote: read offset, scratch and the
blocks already handed out stay in step, whatever the mix of regions. -/
theorem migrateItems_consistent {olds : List (RuntimeTrackedRegion κ)} {news : List (RuntimeTrackedRegion ι)}
    (pairs : List.Forall₂ (Consistent table) olds news) (st : κ → List UInt8) (pre rest : List UInt8)
    (scratch : Scratch) :
    ∃ blocks : List (RegionBlock ι), blocks.map Prod.fst = news ∧
      migrateItems table (pre ++ (bodyImage olds st ++ rest)) news pre.length scratch = blocks.map loadItem ∧
      (∀ b ∈ blocks, ∀ cell, b.1.load b.2 cell = (true, b.2)) ∧
        List.Forall₂ (fun o b => Carried table (o.save (st o.storage)).1 b.1 b.2) olds blocks := by
  induction pairs generalizing pre scratch with
  | nil => exact ⟨[], rfl, rfl, by simp, .nil⟩
  | @cons o r olds news pair _ ih =>
    have own := o.save_length (st o.storage)
    obtain ⟨out, scratch', prepared, size, carried⟩ := pair.prepare own pre (bodyImage olds st ++ rest) scratch
    obtain ⟨blocks, regions, items, loads, each⟩ := ih (pre ++ (o.save (st o.storage)).1) scratch'
    have image : pre ++ (bodyImage (o :: olds) st ++ rest) =
        pre ++ ((o.save (st o.storage)).1 ++ (bodyImage olds st ++ rest)) := by
      rw [bodyImage, List.flatMap_cons, List.append_assoc]
      rfl
    refine ⟨(r, out) :: blocks, ?_, ?_, ?_, .cons carried each⟩
    · rw [List.map_cons, regions]
    · rw [image, migrateItems, prepared]
      rw [List.append_assoc, List.length_append, own] at items
      rw [List.map_cons, ← items, pair.oldSize]
    · intro b member cell
      rcases List.mem_cons.mp member with rfl | later
      · exact pair.accepts out cell size
      · exact loads b later cell

section
variable [DecidableEq κ] {Rold : Registry κ} {Rnew : Registry ι}

/-- The header of a save from another layout passes every test before the walk. -/
theorem MigrateAccepted.saved {rtOld : Runtime Rold} {cap frame : UInt32} {saved : SaveResult Rold}
    (run : saveStateSave rtOld cap frame = .returns saved) (written : saved.ret ≠ 0) {buf : ByteSpan}
    (bytes : buf.bytes = saved.written) {layoutHash : UInt64} (differs : (headerOf buf).layoutHash ≠ layoutHash)
    (sizes : List.Forall₂ (fun o r => oldSize table r = o.size) Rold.regions Rnew.regions) :
    MigrateAccepted Rnew table layoutHash buf := by
  obtain ⟨_, _, image, room, _, _⟩ := saveStateSave_returns run written
  rw [image] at bytes
  have header := headerOf_append bytes
  have length := saveImage_length Rold rtOld.store frame
  rw [← bytes] at length
  have total : (saveStateBufferCapacity Rold).toNat = 24 + bodySize Rold.regions := by
    have bound := cap.toNat_lt
    rw [saveStateBufferCapacity_toNat, Nat.mod_eq_of_lt (by omega)]
  exact
    { long := by omega
      magic := by rw [header]
      version := by rw [header]
      within := by rw [header]; show (saveStateBufferCapacity Rold).toNat ≤ _; omega
      mismatch := differs
      covered := coversRegions_consistent sizes (by rw [header]; show _ ≤ (saveStateBufferCapacity Rold).toNat; omega) }

/-- A save of the old program is taken by the new one. -/
theorem saveStateLoadMigrate_consistent [DecidableEq ι]
    (consistent : List.Forall₂ (Consistent table) Rold.regions Rnew.regions)
    {rtOld : Runtime Rold} {cap frame : UInt32} {saved : SaveResult Rold}
    (run : saveStateSave rtOld cap frame = .returns saved) (written : saved.ret ≠ 0) {buf : ByteSpan}
    (bytes : buf.bytes = saved.written) (rt : MigrateRuntime Rnew)
    (differs : (headerOf buf).layoutHash ≠ rt.layoutHash) :
    ∃ rt' blocks, saveStateLoadMigrate table rt buf = .returns (true, rt') ∧
      blocks.map Prod.fst = Rnew.regions ∧ (∀ b ∈ blocks, rt'.store b.1.storage = b.2) ∧
        List.Forall₂ (fun o b => Carried table (o.save (rtOld.store o.storage)).1 b.1 b.2) Rold.regions blocks := by
  have accepted : MigrateAccepted Rnew table rt.layoutHash buf :=
    .saved run written bytes differs (consistent.imp fun _ _ pair => pair.oldSize)
  obtain ⟨_, _, image, _, _, _⟩ := saveStateSave_returns run written
  have layout : buf.bytes = saveStateHeader.encode
      ⟨saveStateMagic, saveStateVersion, registryHash Rold, frame, saveStateBufferCapacity Rold⟩ ++
        (bodyImage Rold.regions rtOld.store ++ []) := by
    rw [bytes, image, List.append_nil]
    rfl
  obtain ⟨blocks, regions, items, loads, each⟩ := migrateItems_consistent consistent rtOld.store
    (saveStateHeader.encode
      ⟨saveStateMagic, saveStateVersion, registryHash Rold, frame, saveStateBufferCapacity Rold⟩) [] rt.scratch
  rw [← layout, saveStateHeader.length_encode, saveStateHeader_size] at items
  have distinct := migrateItems_distinct Rnew table buf.bytes 24 rt.scratch
  rw [items] at distinct
  have walked := applyRegions_eq_walk table buf.bytes Rnew.regions 24 rt.scratch rt.store
  rw [items, walk_accepted rt.store distinct fun i member => by
    obtain ⟨b, known, rfl⟩ := List.mem_map.mp member
    exact congrArg Prod.fst (loads b known _)] at walked
  obtain ⟨⟨ok, store, scratch⟩, applied, result⟩ := Exec.bind_eq_returns.mp walked
  obtain ⟨rfl, rfl⟩ := Prod.mk.inj (Exec.returns.inj result)
  rcases saveStateLoadMigrate_cases table rt buf with ⟨_, same, _⟩ | ⟨_, migrated⟩ | ⟨_, rejected, _⟩
  · exact absurd same differs
  · refine ⟨_, blocks, by rw [migrated, applied]; rfl, regions, fun b member => ?_, each⟩
    exact (overlay_attempt distinct (List.mem_map_of_mem member)).trans (congrArg Prod.snd (loads b member _))
  · exact absurd accepted rejected

/-- A save of the old program is taken by the new one, and each region holds
what its descriptor makes of its own old bytes. -/
theorem saveState_migrates [DecidableEq ι]
    (consistent : List.Forall₂ (Consistent table) Rold.regions Rnew.regions)
    {rtOld : Runtime Rold} {cap frame : UInt32} {saved : SaveResult Rold}
    (run : saveStateSave rtOld cap frame = .returns saved) (written : saved.ret ≠ 0) {buf : ByteSpan}
    (bytes : buf.bytes = saved.written) (rt : MigrateRuntime Rnew)
    (differs : (headerOf buf).layoutHash ≠ rt.layoutHash) :
    ∃ rt', saveStateLoadMigrate table rt buf = .returns (true, rt') ∧
      List.Forall₂ (fun o r => Carried table (o.save (rtOld.store o.storage)).1 r (rt'.store r.storage))
        Rold.regions Rnew.regions := by
  obtain ⟨rt', blocks, load, regions, cells, each⟩ :=
    saveStateLoadMigrate_consistent consistent run written bytes rt differs
  refine ⟨rt', load, ?_⟩
  obtain ⟨length, zipped⟩ := List.forall₂_iff_zip.mp each
  rw [← regions, List.forall₂_map_right_iff]
  refine List.forall₂_iff_zip.mpr ⟨length, fun {o b} member => ?_⟩
  rw [cells b (List.of_mem_zip member).2]
  exact zipped member

end
end Blyt
