import Blyt.CartRuntimeLoad
import Blyt.MigrateServings

namespace Blyt
open Packed Window CommitWalk
variable {ι : Type} {R : Registry ι}

/-- The tests both loads open with. -/
structure MigrateHeader (buf : ByteSpan) : Prop where
  long : 24 ≤ buf.bytes.length
  magic : (headerOf buf).magic = saveStateMagic
  version : (headerOf buf).version = saveStateVersion
  within : (headerOf buf).totalSize.toNat ≤ buf.bytes.length

theorem HeaderAccepted.header {buf : ByteSpan} (accepted : HeaderAccepted R buf) : MigrateHeader buf :=
  ⟨accepted.long, accepted.magic, accepted.version, accepted.within⟩

section
variable [DecidableEq ι]

/-- The three ways through `save_state_load_migrate`: the ordinary load, the
walk of phase 3, or a rejection before either. -/
theorem saveStateLoadMigrate_cases (table : MigrateTable) (rt : MigrateRuntime R) (buf : ByteSpan) :
    (MigrateHeader buf ∧ (headerOf buf).layoutHash = rt.layoutHash ∧
        saveStateLoadMigrate table rt buf =
          saveStateLoad rt.toRuntime buf >>= fun done => .returns (done.1, { rt with toRuntime := done.2 })) ∨
      (MigrateAccepted R table rt.layoutHash buf ∧
        saveStateLoadMigrate table rt buf =
          applyRegions table buf.bytes R.regions 24 rt.scratch rt.store >>= fun done =>
            .returns (done.1, ⟨rt.withStore done.2.1, done.2.2⟩)) ∨
      ((¬MigrateHeader buf ∨ (headerOf buf).layoutHash ≠ rt.layoutHash) ∧
        ¬MigrateAccepted R table rt.layoutHash buf ∧
          saveStateLoadMigrate table rt buf = .returns (false, rt)) := by
  unfold saveStateLoadMigrate
  by_cases long : buf.bytes.length < 24
  · rw [if_pos long]
    refine Or.inr (Or.inr ⟨Or.inl fun header => ?_, fun accepted => ?_, rfl⟩)
    · exact absurd header.long (by omega)
    · exact absurd accepted.long (by omega)
  rw [if_neg long]
  by_cases magic : (headerOf buf).magic = saveStateMagic
  swap
  · rw [if_pos magic]
    exact Or.inr (Or.inr ⟨Or.inl fun header => magic header.magic, fun accepted => magic accepted.magic, rfl⟩)
  rw [if_neg (not_not.mpr magic)]
  by_cases version : (headerOf buf).version = saveStateVersion
  swap
  · rw [if_pos version]
    exact Or.inr (Or.inr ⟨Or.inl fun header => version header.version,
      fun accepted => version accepted.version, rfl⟩)
  rw [if_neg (not_not.mpr version)]
  by_cases within : (headerOf buf).totalSize.toNat > buf.bytes.length
  · rw [if_pos within]
    refine Or.inr (Or.inr ⟨Or.inl fun header => ?_, fun accepted => ?_, rfl⟩)
    · exact absurd header.within (by omega)
    · exact absurd accepted.within (by omega)
  rw [if_neg within]
  have header : MigrateHeader buf := ⟨by omega, magic, version, by omega⟩
  by_cases layout : (headerOf buf).layoutHash = rt.layoutHash
  · rw [if_pos layout]
    exact Or.inl ⟨header, layout, rfl⟩
  rw [if_neg layout]
  by_cases covered : coversRegions table (headerOf buf).totalSize.toNat R.regions 24 = true
  · rw [if_pos covered]
    exact Or.inr (Or.inl ⟨⟨header.long, magic, version, header.within, layout, covered⟩, rfl⟩)
  · rw [if_neg covered]
    exact Or.inr (Or.inr ⟨Or.inr layout, fun accepted => covered accepted.covered, rfl⟩)

theorem applyRegions_frame {table : MigrateTable} {buf : List UInt8} {rs : List (RuntimeTrackedRegion ι)} {p : Nat}
    {scratch : Scratch} {st : ι → List UInt8} {done : Bool × (ι → List UInt8) × Scratch} {c : ι}
    (other : c ∉ rs.map RuntimeTrackedRegion.storage)
    (run : applyRegions table buf rs p scratch st = .returns done) : done.2.1 c = st c := by
  induction rs generalizing p scratch st with
  | nil => cases run; rfl
  | cons r rs ih =>
    rw [List.map_cons, List.mem_cons, not_or] at other
    obtain ⟨⟨prepared, scratch'⟩, _, rest⟩ := Exec.bind_eq_returns.mp run
    cases prepared with
    | none => cases rest; rfl
    | some block =>
      dsimp only at rest
      split at rest
      · rw [ih other.2 rest, Function.update_of_ne other.1]
      · cases rest
        exact Function.update_of_ne other.1 ..

/-- A failing phase 3 leaves every region alone exactly when its refusal is quiet. -/
theorem applyRegions_failure_iff (table : MigrateTable) (buf : List UInt8) (p : Nat) (scratch : Scratch)
    (st : ι → List UInt8) :
    (∀ done, applyRegions table buf R.regions p scratch st = .returns done → done.1 = false →
        SameRegions R st done.2.1) ↔
      ∀ pre s post, servings table buf R.regions p scratch.bytes = pre ++ s :: post →
        (∀ t ∈ pre ++ [s], Reachable table t.region t.old.length) →
          QuietAt st (pre.map (Serving.offer table)) (s.offer table) := by
  have distinct := (servings_cells table buf R.regions p scratch.bytes).nodup R.distinct
  rw [← quietServings_iff, ← walk_false_unchanged_iff st distinct, ← applyRegions_eq_servings]
  constructor
  · intro same st' run
    obtain ⟨done, walked, final⟩ := Exec.bind_eq_returns.mp run
    obtain ⟨failed, rfl⟩ := Prod.mk.inj (Exec.returns.inj final)
    funext c
    by_cases owned : c ∈ R.regions.map RuntimeTrackedRegion.storage
    · obtain ⟨r, member, rfl⟩ := List.mem_map.mp owned
      exact same done walked failed r member
    · exact applyRegions_frame owned walked
  · intro same done walked failed r _
    have run := same done.2.1 (by rw [walked, Exec.returns_bind, failed])
    rw [run]

/-- So does a failing `save_state_load`, behind an accepted header. -/
theorem saveStateLoad_failure_offers (rt : Runtime R) (buf : ByteSpan) :
    (∀ rt', saveStateLoad rt buf = .returns (false, rt') → SameRegions R rt.store rt'.store) ↔
      (HeaderAccepted R buf → ∀ pre o post,
        bodyOffers buf.bytes (headerOf buf).totalSize.toNat R.regions 24 = pre ++ o :: post → QuietAt rt.store pre o) := by
  rw [saveStateLoad_failure_iff]
  refine forall_congr' fun accepted => ?_
  have distinct := (bodyOffers_cells buf.bytes (headerOf buf).totalSize.toNat R.regions 24).nodup R.distinct
  have total : (24 + bodySize R.regions) % 2 ^ 32 = (headerOf buf).totalSize.toNat := by
    rw [accepted.exact, saveStateBufferCapacity_toNat]
  have start : R.regions = [] → 24 ≤ (headerOf buf).totalSize.toNat := by
    intro none
    rw [none, bodySize_nil] at total
    omega
  rw [← quietOffers_iff, ← walk_false_unchanged_iff rt.store distinct,
    ← walk_false_unchanged_iff rt.store (loadItems_distinct R buf.bytes (headerOf buf).totalSize.toNat 24),
    loadRegions_eq_walk, loadRegions_eq_offers buf.bytes (headerOf buf).totalSize.toNat_lt start total]

/-- A save of `shakeAndQueue` under another layout hash, its queue block claiming
`pending` events. -/
def foreignSave (pending : UInt8) : ByteSpan where
  bytes := saveStateHeader.encode ⟨saveStateMagic, saveStateVersion, registryHash shakeAndQueue + 1, 0, 97⟩ ++
    (List.replicate 16 0 ++ voiceEndQueue.encode ⟨0, pending, fun _ => ⟨0, 0, 0⟩⟩)
  size_lt := by
    have header : saveStateHeader.size = 24 := rfl
    have queue : voiceEndQueue.size = 57 := rfl
    simp only [List.length_append, Codec.length_encode, List.length_replicate, header, queue]
    decide

theorem shakeAndQueue_described : Describable shakeAndQueue := describable_iff.mpr (by decide +kernel)

theorem scratch_length : (List.replicate 4096 (0 : UInt8)).length = 4096 := List.length_replicate

/-- The process of `runningShakeAndQueue` after `save_state_init`. -/
def startedShakeAndQueue : MigrateRuntime shakeAndQueue where
  toRuntime := .started shakeAndQueue_described runningShakeAndQueue.store
  scratch := ⟨List.replicate 4096 0, scratch_length⟩

theorem hash_succ_ne (hash : UInt64) : hash + 1 ≠ hash := by
  intro same
  have value := congrArg UInt64.toNat same
  have one : (1 : UInt64).toNat = 1 := rfl
  have bound := hash.toNat_lt
  rw [UInt64.toNat_add, one] at value
  omega

theorem foreignSave_accepted (pending : UInt8) :
    MigrateAccepted shakeAndQueue [] startedShakeAndQueue.layoutHash (foreignSave pending) := by
  have header : headerOf (foreignSave pending) = ⟨saveStateMagic, saveStateVersion, registryHash shakeAndQueue + 1, 0, 97⟩ :=
    headerOf_append rfl
  have length : (foreignSave pending).bytes.length = 97 := rfl
  have hash := startedShakeAndQueue.layoutHash_eq rfl
  exact
    { long := by omega
      magic := by rw [header]
      version := by rw [header]
      within := by rw [header, length]; decide
      mismatch := by rw [header, hash]; exact hash_succ_ne _
      covered := by rw [header]; decide }

end
end Blyt
