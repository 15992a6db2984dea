import Blyt.MigrateAtomicity

namespace Blyt
open Window CommitWalk
variable {ι : Type} {R : Registry ι}

/-- Without a table every region is handed its own block of the body. -/
theorem prepareRegion_empty {buf : List UInt8} {p : Nat} {r : RuntimeTrackedRegion ι}
    (fits : p + r.size.toNat ≤ buf.length) (scratch : Scratch) :
    prepareRegion [] buf p r scratch = .returns (some ((buf.drop p).take r.size.toNat), scratch) := by
  have size : oldSize [] r = r.size := rfl
  unfold prepareRegion
  rw [readAt_returns fits, if_neg (by simp [findMigrateDesc])]
  show (if oldSize [] r ≠ r.size then _ else _) = _
  rw [size, if_neg (not_not.mpr rfl)]
  rfl

theorem migrateItems_empty {buf : List UInt8} {stop : Nat} (within : stop ≤ buf.length)
    {rs : List (RuntimeTrackedRegion ι)} {p : Nat} (covered : coversRegions [] stop rs p = true) (scratch : Scratch) :
    migrateItems [] buf rs p scratch = (bodyBlocks buf rs p).map loadItem := by
  induction rs generalizing p with
  | nil => rfl
  | cons r rs ih =>
    have size : oldSize [] r = r.size := rfl
    rw [coversRegions, size] at covered
    split at covered
    · cases covered
    · rename_i fits
      rw [migrateItems, prepareRegion_empty (by omega)]
      dsimp only
      rw [size, ih covered, bodyBlocks, List.map_cons]

/-- Some region refuses its block, and it and all before it hold afterwards what
they held. -/
def RefusedInPlace (st : ι → List UInt8) (blocks : List (RegionBlock ι)) : Prop :=
  ∃ pre b post, blocks = pre ++ b :: post ∧ (∀ c ∈ pre, (c.1.load c.2 (st c.1.storage)).1 = true) ∧
    (b.1.load b.2 (st b.1.storage)).1 = false ∧
      ∀ c ∈ pre ++ [b], (c.1.load c.2 (st c.1.storage)).2 = st c.1.storage

theorem refusedInPlace_iff {st : ι → List UInt8} {blocks : List (RegionBlock ι)} :
    RefusedInPlace st blocks ↔ ∃ pre item post, blocks.map loadItem = pre ++ item :: post ∧
      (∀ i ∈ pre, Accepts st i) ∧ Refuses st item ∧ ∀ i ∈ pre ++ [item], Keeps st i := by
  constructor
  · rintro ⟨pre, b, post, rfl, accepted, refused, kept⟩
    refine ⟨pre.map loadItem, loadItem b, post.map loadItem, by simp, fun i member => ?_, refused, fun i member => ?_⟩
    · obtain ⟨c, early, rfl⟩ := List.mem_map.mp member
      exact accepted c early
    · rw [← List.map_singleton, ← List.map_append] at member
      obtain ⟨c, early, rfl⟩ := List.mem_map.mp member
      exact kept c early
  · rintro ⟨pre, item, post, split, accepted, refused, kept⟩
    obtain ⟨blocks₁, rest, rfl, rfl, tail⟩ := List.map_eq_append_iff.mp split
    obtain ⟨b, blocks₂, rfl, rfl, rfl⟩ := List.map_eq_cons_iff.mp tail
    rw [← List.map_singleton, ← List.map_append] at kept
    exact ⟨blocks₁, b, blocks₂, rfl, fun c early => accepted _ (List.mem_map_of_mem early), refused,
      fun c early => kept _ (List.mem_map_of_mem early)⟩

section
variable [DecidableEq ι]

/-- Past its first call the loader always returns. -/
theorem saveStateLoad_started (rt : Runtime R) (started : rt.initialized = true) (buf : ByteSpan) :
    (HeaderAccepted R buf ∧ ∃ done, saveStateLoad rt buf = .returns done) ∨
      (¬HeaderAccepted R buf ∧ ∃ rt', rt'.store = rt.store ∧ saveStateLoad rt buf = .returns (false, rt')) := by
  rcases saveStateLoad_cases rt buf with ⟨accepted, rt', _, _, run⟩ | ⟨rejected, ⟨cold, _⟩ | quiet⟩
  · exact Or.inl ⟨accepted, _, run⟩
  · exact absurd (started.symm.trans cold) (by decide)
  · exact Or.inr ⟨rejected, quiet⟩

/-- The two loads return the same result and leave the same regions. -/
def LoadsAgree (rt : MigrateRuntime R) (buf : ByteSpan) : Prop :=
  ∃ ok base rt', saveStateLoad rt.toRuntime buf = .returns (ok, base) ∧
    saveStateLoadMigrate [] rt buf = .returns (ok, rt') ∧ SameRegions R base.store rt'.store

/-- With an empty table the migrating load agrees with the ordinary one exactly
when it does not reach its walk, or some region turns the walk down quietly. -/
theorem saveStateLoadMigrate_empty_iff {rt : MigrateRuntime R} (started : rt.initialized = true) (buf : ByteSpan) :
    LoadsAgree rt buf ↔ ¬MigrateAccepted R [] rt.layoutHash buf ∨
      RefusedInPlace rt.store (bodyBlocks buf.bytes R.regions 24) := by
  have hash := rt.toRuntime.layoutHash_eq started
  rcases saveStateLoadMigrate_cases [] rt buf with ⟨_, layout, run⟩ | ⟨accepted, run⟩ | ⟨gates, rejected, run⟩
  · refine iff_of_true ?_ (Or.inl fun accepted => accepted.mismatch layout)
    have returned : ∃ done, saveStateLoad rt.toRuntime buf = .returns done := by
      rcases saveStateLoad_started rt.toRuntime started buf with ⟨_, returned⟩ | ⟨_, base, _, done⟩
      · exact returned
      · exact ⟨_, done⟩
    obtain ⟨⟨ok, base⟩, done⟩ := returned
    exact ⟨ok, base, { rt with toRuntime := base }, done, by rw [run, done]; rfl, fun _ _ => rfl⟩
  · have foreign : ¬HeaderAccepted R buf := fun header => accepted.mismatch (header.layout.trans hash.symm)
    rcases saveStateLoad_started rt.toRuntime started buf with ⟨header, _⟩ | ⟨_, base, store, done⟩
    · exact absurd header foreign
    have walked := applyRegions_eq_walk [] buf.bytes R.regions 24 rt.scratch rt.store
    rw [migrateItems_empty accepted.within accepted.covered] at walked
    have distinct := migrateItems_distinct R [] buf.bytes 24 rt.scratch
    rw [migrateItems_empty accepted.within accepted.covered] at distinct
    simp only [accepted, not_true, false_or]
    rw [refusedInPlace_iff, ← walk_false_self_iff rt.store distinct, ← walked]
    constructor
    · rintro ⟨ok, base', rt', ordinary, migrating, same⟩
      rw [done] at ordinary
      cases ordinary
      rw [run] at migrating
      obtain ⟨⟨ok, final, scratch⟩, applied, result⟩ := Exec.bind_eq_returns.mp migrating
      obtain ⟨rfl, rfl⟩ := Prod.mk.inj (Exec.returns.inj result)
      rw [applied, Exec.returns_bind]
      refine congrArg Exec.returns (Prod.ext rfl (funext fun c => ?_))
      by_cases owned : c ∈ R.regions.map RuntimeTrackedRegion.storage
      · obtain ⟨r, member, rfl⟩ := List.mem_map.mp owned
        exact (same r member).trans (congrFun store _)
      · exact applyRegions_frame owned applied
    · intro final
      obtain ⟨⟨ok, after, scratch⟩, applied, result⟩ := Exec.bind_eq_returns.mp final
      obtain ⟨rfl, rfl⟩ := Prod.mk.inj (Exec.returns.inj result)
      exact ⟨false, base, ⟨rt.withStore rt.store, scratch⟩, done, by rw [run, applied]; rfl,
        fun r _ => (congrFun store r.storage).symm⟩
  · refine iff_of_true ?_ (Or.inl rejected)
    rcases saveStateLoad_started rt.toRuntime started buf with ⟨header, _⟩ | ⟨_, base, store, done⟩
    · rcases gates with gates | mismatch
      · exact absurd header.header gates
      · exact absurd (header.layout.trans hash.symm) mismatch
    · exact ⟨false, base, rt, done, run, fun r _ => (congrFun store r.storage).symm⟩

theorem saveStateLoadMigrate_empty_iff_shakeAndQueue :
    LoadsAgree startedShakeAndQueue (foreignSave 9) ↔
      ¬MigrateAccepted shakeAndQueue [] startedShakeAndQueue.layoutHash (foreignSave 9) ∨
        RefusedInPlace startedShakeAndQueue.store (bodyBlocks (foreignSave 9).bytes shakeAndQueue.regions 24) :=
  saveStateLoadMigrate_empty_iff rfl (foreignSave 9)

/-- A foreign save of the right sizes is taken by the migrating load alone. -/
theorem saveStateLoadMigrate_empty_disagrees :
    ¬∀ (ι : Type) (_ : DecidableEq ι) (R : Registry ι) (rt : MigrateRuntime R) (buf : ByteSpan),
      rt.initialized = true → LoadsAgree rt buf := by
  intro agrees
  obtain ⟨ok, base, rt', ordinary, migrating, _⟩ :=
    agrees Bool inferInstance shakeAndQueue startedShakeAndQueue (foreignSave 0) rfl
  have applied : (applyRegions [] (foreignSave 0).bytes shakeAndQueue.regions 24 startedShakeAndQueue.scratch
      startedShakeAndQueue.store >>= fun done => .returns done.1) = .returns true := by decide +kernel
  obtain ⟨⟨_, store, scratch⟩, walked, final⟩ := Exec.bind_eq_returns.mp applied
  cases Exec.returns.inj final
  have accepted := foreignSave_accepted 0
  rcases saveStateLoadMigrate_cases [] startedShakeAndQueue (foreignSave 0) with
    ⟨_, layout, _⟩ | ⟨_, run⟩ | ⟨_, rejected, _⟩
  · exact accepted.mismatch layout
  · rw [walked, Exec.returns_bind, migrating] at run
    cases Exec.returns.inj run
    rcases saveStateLoad_started startedShakeAndQueue.toRuntime rfl (foreignSave 0) with
      ⟨header, _⟩ | ⟨_, _, _, done⟩
    · exact accepted.mismatch (header.layout.trans (startedShakeAndQueue.layoutHash_eq rfl).symm)
    · rw [done] at ordinary
      cases ordinary
  · exact rejected accepted

end
end Blyt
