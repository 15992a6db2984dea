import Blyt.MigrateBounds
import Blyt.SaveStateMigrate
import Mathlib.Data.List.TakeWhile

namespace Blyt
open Window CommitWalk
variable {ι : Type}

/-! What becomes of a struct, told from the two layouts and the old bytes. -/

instance (newLayout oldLayout : MLayout) (nf : MfieldDesc) : Decidable (GoesOn newLayout oldLayout nf) :=
  inferInstanceAs (Decidable (newLayout.Passes nf ∧ ∀ f ∈ oldFieldOf oldLayout nf, oldLayout.Passes f))

/-- The bytes that are touched for a field are there, of `old` that can be read and `new` that can be written. -/
def InBounds (oldLayout : MLayout) (onRetype : Option MretypeFn) (old new : Nat) (nf : MfieldDesc) : Prop :=
  ∀ f ∈ oldFieldOf oldLayout nf, (f.type = nf.type ∧ f.size = nf.size) ∨ onRetype.isSome = true →
    (f.size.toNat ≠ 0 → f.offset.toNat + f.size.toNat ≤ old) ∧
      (nf.size.toNat ≠ 0 → nf.offset.toNat + nf.size.toNat ≤ new)

instance (oldLayout : MLayout) (onRetype : Option MretypeFn) (old new : Nat) (nf : MfieldDesc) :
    Decidable (InBounds oldLayout onRetype old new nf) :=
  inferInstanceAs (Decidable (∀ f ∈ oldFieldOf oldLayout nf, _ → _))

/-- The fields that the walk fills: up to one that stops it. -/
def passedFields (newLayout oldLayout : MLayout) (fields : List MfieldDesc) : List MfieldDesc :=
  fields.takeWhile fun nf => GoesOn newLayout oldLayout nf

/-- A field takes what its old namesake holds, as it is or as the callback has it. -/
def fillField (oldLayout : MLayout) (onRetype : Option MretypeFn) (oldBytes new : List UInt8) (nf : MfieldDesc) :
    List UInt8 :=
  match oldFieldOf oldLayout nf with
  | none => new
  | some f =>
    if f.type = nf.type ∧ f.size = nf.size then
      overwrite new nf.offset.toNat (window oldBytes f.offset.toNat f.size.toNat)
    else match onRetype with
      | none => new
      | some callback => overwrite new nf.offset.toNat
          (callback.run (window oldBytes f.offset.toNat f.size.toNat) f.type
            (window new nf.offset.toNat nf.size.toNat) nf.type).2

/-- The new struct: zero, and then field by field from the old bytes. -/
def decodeStruct (newLayout oldLayout : MLayout) (onRetype : Option MretypeFn) (oldBytes : List UInt8) : List UInt8 :=
  newLayout.fields.foldl (fillField oldLayout onRetype oldBytes) (List.replicate newLayout.totalSize.toNat 0)

section
variable {newLayout oldLayout : MLayout} {onRetype : Option MretypeFn} {oldBytes new tail : List UInt8} {nf : MfieldDesc}

/-- A field that passes its check and is written inside an object of that size lies in the struct. -/
theorem MLayout.Passes.inside {layout : MLayout} {f : MfieldDesc} {n : Nat} (passes : layout.Passes f)
    (word : n < 2 ^ 32) (fits : f.size.toNat ≠ 0 → f.offset.toNat + f.size.toNat ≤ n) :
    f.offset.toNat + f.size.toNat ≤ layout.totalSize.toNat := by
  have below := f.offset.toNat_lt
  refine passes.fits_iff.mpr fun wraps => ?_
  have some := wraps.size_ne_zero
  have inside := fits some
  rw [MfieldDesc.Wraps] at wraps
  omega

/-- One round: the struct in front of the rest of its object is filled, or the walk stops, or it leaves the bytes. -/
theorem migrateField_eq (length : new.length = newLayout.totalSize.toNat) (word : (new ++ tail).length < 2 ^ 32)
    (nf : MfieldDesc) :
    migrateField newLayout oldBytes oldLayout onRetype nf (new ++ tail) =
      if GoesOn newLayout oldLayout nf then
        if InBounds oldLayout onRetype oldBytes.length (new ++ tail).length nf then
          .returns (true, fillField oldLayout onRetype oldBytes new nf ++ tail)
        else .outOfBounds
      else .returns (false, new ++ tail) := by
  rw [migrateField]
  by_cases passes : newLayout.Passes nf
  swap
  · rw [if_pos (not_not.mp passes), if_neg fun on => passes on.1]
    rfl
  rw [if_neg passes]
  cases found : oldFieldOf oldLayout nf with
  | none =>
    have on : GoesOn newLayout oldLayout nf := ⟨passes, fun f some => by rw [found] at some; cases some⟩
    have inside : InBounds oldLayout onRetype oldBytes.length (new ++ tail).length nf := fun f some => by
      rw [found] at some
      cases some
    rw [if_pos on, if_pos inside, fillField, found]
    rfl
  | some f =>
    by_cases oldPasses : oldLayout.Passes f
    swap
    · have stops : ¬GoesOn newLayout oldLayout nf := fun on => oldPasses (on.2 f found)
      dsimp only
      rw [if_pos (not_not.mp oldPasses), if_neg stops]
      rfl
    have on : GoesOn newLayout oldLayout nf := by
      refine ⟨passes, fun g some => ?_⟩
      rw [found] at some
      cases some
      exact oldPasses
    have inBounds_iff : InBounds oldLayout onRetype oldBytes.length (new ++ tail).length nf ↔
        ((f.type = nf.type ∧ f.size = nf.size) ∨ onRetype.isSome = true →
          (f.size.toNat ≠ 0 → f.offset.toNat + f.size.toNat ≤ oldBytes.length) ∧
            (nf.size.toNat ≠ 0 → nf.offset.toNat + nf.size.toNat ≤ (new ++ tail).length)) := by
      refine ⟨fun inside => inside f found, fun inside g some => ?_⟩
      cases found.symm.trans some
      exact inside
    have front (writable : nf.size.toNat ≠ 0 → nf.offset.toNat + nf.size.toNat ≤ (new ++ tail).length) :
        nf.offset.toNat + nf.size.toNat ≤ new.length := length ▸ passes.inside word writable
    dsimp only
    rw [if_neg oldPasses, if_pos on, fillField, found]
    dsimp only
    by_cases matching : f.type = nf.type ∧ f.size = nf.size
    · rw [if_pos matching, if_pos matching, matching.2]
      refine (copy_append front _).trans (if_congr (Iff.trans ?_ inBounds_iff.symm) rfl rfl)
      rw [matching.2]
      exact (imp_iff_right (.inl ⟨matching.1, rfl⟩)).symm
    · rw [if_neg matching, if_neg matching]
      cases onRetype with
      | none =>
        refine (if_pos (inBounds_iff.mpr fun touched => ?_)).symm
        rcases touched with same | callback
        · exact absurd same matching
        · cases callback
      | some callback =>
        refine (remake_append (fun old new => callback.length_run ..) front _).trans
          (if_congr (Iff.trans ?_ inBounds_iff.symm) rfl rfl)
        exact (imp_iff_right (.inr rfl)).symm

theorem length_fillField (length : new.length = newLayout.totalSize.toNat) {n m : Nat} (word : m < 2 ^ 32)
    (on : GoesOn newLayout oldLayout nf) (inside : InBounds oldLayout onRetype n m nf) (old : n = oldBytes.length) :
    (fillField oldLayout onRetype oldBytes new nf).length = new.length := by
  subst old
  rw [fillField]
  cases found : oldFieldOf oldLayout nf with
  | none => rfl
  | some f =>
    dsimp only
    split
    · rename_i matching
      obtain ⟨readable, writable⟩ := inside f found (.inl matching)
      refine length_overwrite ?_
      rw [length_window readable, matching.2, length]
      exact on.1.inside word writable
    · rename_i other
      cases onRetype with
      | none => rfl
      | some callback =>
        have fits := on.1.inside word (inside f found (.inr rfl)).2
        rw [← length] at fits
        refine length_overwrite ?_
        rw [callback.length_run, length_window fun _ => fits]
        exact fits

theorem passedFields_cons_pos (on : GoesOn newLayout oldLayout nf) (fields : List MfieldDesc) :
    passedFields newLayout oldLayout (nf :: fields) = nf :: passedFields newLayout oldLayout fields :=
  List.takeWhile_cons_of_pos (decide_eq_true on)

theorem passedFields_cons_neg (stops : ¬GoesOn newLayout oldLayout nf) (fields : List MfieldDesc) :
    passedFields newLayout oldLayout (nf :: fields) = [] :=
  List.takeWhile_cons_of_neg fun on => stops (of_decide_eq_true on)

/-- The walk fills field after field, up to one that stops it. -/
theorem migrateFields_eq (length : new.length = newLayout.totalSize.toNat) (word : (new ++ tail).length < 2 ^ 32)
    (fields : List MfieldDesc) :
    migrateFields newLayout oldBytes oldLayout onRetype fields (new ++ tail) =
      if ∀ nf ∈ passedFields newLayout oldLayout fields,
          InBounds oldLayout onRetype oldBytes.length (new ++ tail).length nf then
        .returns (decide (∀ nf ∈ fields, GoesOn newLayout oldLayout nf),
          (passedFields newLayout oldLayout fields).foldl (fillField oldLayout onRetype oldBytes) new ++ tail)
      else .outOfBounds := by
  induction fields generalizing new with
  | nil => rfl
  | cons nf fields ih =>
    rw [migrateFields, migrateField_eq length word]
    by_cases on : GoesOn newLayout oldLayout nf
    · rw [if_pos on, passedFields_cons_pos on]
      by_cases inside : InBounds oldLayout onRetype oldBytes.length (new ++ tail).length nf
      · have next : (fillField oldLayout onRetype oldBytes new nf).length = new.length :=
          length_fillField length word on inside rfl
        have whole : (fillField oldLayout onRetype oldBytes new nf ++ tail).length = (new ++ tail).length := by
          rw [List.length_append, List.length_append, next]
        have rest := ih (next.trans length) (whole ▸ word)
        rw [whole] at rest
        rw [if_pos inside, Exec.returns_bind]
        dsimp only
        rw [if_pos rfl, rest]
        simp only [List.forall_mem_cons, inside, on, true_and, List.foldl_cons]
      · rw [if_neg inside, if_neg fun all => inside (all nf List.mem_cons_self)]
        rfl
    · rw [if_neg on, passedFields_cons_neg on, if_pos (List.forall_mem_nil _),
        decide_eq_false fun all => on (all nf List.mem_cons_self)]
      rfl

/-- `migrate_region_bytes` on all layouts and objects. -/
theorem migrateRegionBytes_eq {newBytes : List UInt8} (word : newBytes.length < 2 ^ 32) (newLayout oldLayout : MLayout)
    (onRetype : Option MretypeFn) (oldBytes : List UInt8) :
    migrateRegionBytes newBytes newLayout oldBytes oldLayout onRetype =
      if newLayout.totalSize.toNat ≤ newBytes.length ∧
          ∀ nf ∈ passedFields newLayout oldLayout newLayout.fields,
            InBounds oldLayout onRetype oldBytes.length newBytes.length nf then
        .returns (decide (∀ nf ∈ newLayout.fields, GoesOn newLayout oldLayout nf),
          (passedFields newLayout oldLayout newLayout.fields).foldl (fillField oldLayout onRetype oldBytes)
            (List.replicate newLayout.totalSize.toNat 0) ++ newBytes.drop newLayout.totalSize.toNat)
      else .outOfBounds := by
  have zeros : (List.replicate newLayout.totalSize.toNat (0 : UInt8)).length = newLayout.totalSize.toNat :=
    List.length_replicate
  rw [migrateRegionBytes, zeroFill, writeAt_eq, zeros, Nat.zero_add]
  by_cases room : newLayout.totalSize.toNat ≤ newBytes.length
  · have whole : (List.replicate newLayout.totalSize.toNat (0 : UInt8) ++
        newBytes.drop newLayout.totalSize.toNat).length = newBytes.length := by
      rw [List.length_append, zeros, List.length_drop]
      omega
    have walked := @migrateFields_eq newLayout oldLayout onRetype oldBytes _ (newBytes.drop newLayout.totalSize.toNat)
      zeros (whole ▸ word) newLayout.fields
    rw [whole] at walked
    rw [if_pos fun _ => room, Exec.returns_bind, overwrite, zeros, Nat.zero_add, List.take_zero, List.nil_append, walked]
    exact if_congr (and_iff_right room).symm rfl rfl
  · rw [if_neg fun fits => room (fits (by omega)), if_neg fun both => room both.1]
    rfl

end

/-! What a region is served, told from the table, the buffer and the scratch. -/

/-- A descriptor that has both layouts. -/
structure Migration where
  oldLayout : MLayout
  newLayout : MLayout
  onRetype : Option MretypeFn

def migrationOf (table : MigrateTable) (r : RuntimeTrackedRegion ι) : Option Migration :=
  (findMigrateDesc table r.name).bind fun m => m.oldLayout.bind fun old => m.newLayout.map fun new =>
    ⟨old, new, m.onRetype⟩

/-- A block can be made for the region: without layouts its size is the declared one; with them the region fits into
the scratch, and every field that the walk comes to passes its checks. -/
def Servable (table : MigrateTable) (r : RuntimeTrackedRegion ι) : Prop :=
  (∀ m ∈ migrationOf table r, r.size ≤ 4096 ∧ ∀ nf ∈ m.newLayout.fields, GoesOn m.newLayout m.oldLayout nf) ∧
    ((migrationOf table r).isNone = true → oldSize table r = r.size)

instance (table : MigrateTable) (r : RuntimeTrackedRegion ι) : Decidable (Servable table r) :=
  inferInstanceAs (Decidable (_ ∧ (_ → _)))

/-- What is touched to make the block is there, of `n` bytes from the old block on and of the scratch. -/
def Reachable (table : MigrateTable) (r : RuntimeTrackedRegion ι) (n : Nat) : Prop :=
  (∀ m ∈ migrationOf table r, r.size ≤ 4096 → m.newLayout.totalSize.toNat ≤ 4096 ∧
      ∀ nf ∈ passedFields m.newLayout m.oldLayout m.newLayout.fields, InBounds m.oldLayout m.onRetype n 4096 nf) ∧
    ((migrationOf table r).isNone = true → oldSize table r = r.size → r.size.toNat ≤ n)

instance (table : MigrateTable) (r : RuntimeTrackedRegion ι) (n : Nat) : Decidable (Reachable table r n) :=
  inferInstanceAs (Decidable (_ ∧ (_ → _ → _)))

/-- The scratch behind a region; `old` is the buffer from the region's old block on. -/
def scratchAfter (table : MigrateTable) (r : RuntimeTrackedRegion ι) (old scratch : List UInt8) : List UInt8 :=
  match migrationOf table r with
  | none => scratch
  | some m => decodeStruct m.newLayout m.oldLayout m.onRetype old ++ scratch.drop m.newLayout.totalSize.toNat

/-- The block that a region is handed: its old bytes, or the new struct, behind which the scratch shows. -/
def servedBlock (table : MigrateTable) (r : RuntimeTrackedRegion ι) (old scratch : List UInt8) : List UInt8 :=
  match migrationOf table r with
  | none => old.take r.size.toNat
  | some m => (decodeStruct m.newLayout m.oldLayout m.onRetype old ++
      scratch.drop m.newLayout.totalSize.toNat).take r.size.toNat

/-- The block of a region is made from its own old bytes: the old layout is read inside the declared old size, and the
new layout leaves no byte of the region to the scratch. -/
def OwnOnly (table : MigrateTable) (r : RuntimeTrackedRegion ι) : Prop :=
  ∀ m ∈ migrationOf table r, r.size ≤ m.newLayout.totalSize ∧
    ∀ nf ∈ m.newLayout.fields, InBounds m.oldLayout m.onRetype (oldSize table r).toNat 4096 nf

instance (table : MigrateTable) (r : RuntimeTrackedRegion ι) : Decidable (OwnOnly table r) :=
  inferInstanceAs (Decidable (∀ m ∈ migrationOf table r, _))

theorem findMigrateDesc_isFor {table : MigrateTable} {name : CString} {m : MigrateRegion}
    (found : findMigrateDesc table name = some m) : m.isFor name = true := by
  obtain ⟨entry, _, same⟩ := List.exists_of_findSome?_eq_some found
  exact (Option.filter_eq_some_iff.mp same).2

theorem migrateScratch_returns {scratch : Scratch} {newLayout oldLayout : MLayout} {oldBytes out : List UInt8}
    {onRetype : Option MretypeFn} {ok : Bool}
    (run : migrateRegionBytes scratch.bytes newLayout oldBytes oldLayout onRetype = .returns (ok, out)) :
    ∃ scratch', migrateScratch scratch newLayout oldBytes oldLayout onRetype = .returns (ok, scratch') ∧
      scratch'.bytes = out := by
  unfold migrateScratch
  split
  · rename_i result
    rw [run] at result
    cases result
    exact ⟨_, rfl, rfl⟩
  · rename_i spins
    rw [run] at spins
    cases spins
  · rename_i outside
    rw [run] at outside
    cases outside

/-- Bytes behind those that are touched do not show. -/
theorem fillField_append {oldLayout : MLayout} {onRetype : Option MretypeFn} {own new : List UInt8} {m : Nat}
    {nf : MfieldDesc} (inside : InBounds oldLayout onRetype own.length m nf) (behind : List UInt8) :
    fillField oldLayout onRetype (own ++ behind) new nf = fillField oldLayout onRetype own new nf := by
  rw [fillField, fillField]
  cases found : oldFieldOf oldLayout nf with
  | none => rfl
  | some f =>
    dsimp only
    split
    · rename_i matching
      rw [window_append (inside f found (.inl matching)).1]
    · cases onRetype with
      | none => rfl
      | some callback =>
        dsimp only
        rw [window_append (inside f found (.inr rfl)).1]

theorem decodeStruct_append {newLayout oldLayout : MLayout} {onRetype : Option MretypeFn} {own : List UInt8} {m : Nat}
    (inside : ∀ nf ∈ newLayout.fields, InBounds oldLayout onRetype own.length m nf) (behind : List UInt8) :
    decodeStruct newLayout oldLayout onRetype (own ++ behind) = decodeStruct newLayout oldLayout onRetype own := by
  rw [decodeStruct, decodeStruct]
  exact List.foldl_ext _ _ _ fun new nf member => fillField_append (inside nf member) behind

theorem length_decodeStruct {newLayout oldLayout : MLayout} {onRetype : Option MretypeFn} {oldBytes : List UInt8}
    {m : Nat} (word : m < 2 ^ 32) (on : ∀ nf ∈ newLayout.fields, GoesOn newLayout oldLayout nf)
    (inside : ∀ nf ∈ newLayout.fields, InBounds oldLayout onRetype oldBytes.length m nf) :
    (decodeStruct newLayout oldLayout onRetype oldBytes).length = newLayout.totalSize.toNat := by
  have filled : ∀ fields : List MfieldDesc, (∀ nf ∈ fields, nf ∈ newLayout.fields) → ∀ new : List UInt8,
      new.length = newLayout.totalSize.toNat →
        (fields.foldl (fillField oldLayout onRetype oldBytes) new).length = newLayout.totalSize.toNat := by
    intro fields
    induction fields with
    | nil => exact fun _ new length => length
    | cons nf fields ih =>
      intro known new length
      have member := known nf List.mem_cons_self
      exact ih (fun f later => known f (List.mem_cons_of_mem _ later)) _
        ((length_fillField length word (on nf member) (inside nf member) rfl).trans length)
  exact filled _ (fun nf member => member) _ List.length_replicate

/-- A block that is made from own bytes alone. -/
theorem servedBlock_own {table : MigrateTable} {r : RuntimeTrackedRegion ι} {own : List UInt8}
    (servable : Servable table r) (ownOnly : OwnOnly table r) (length : own.length = (oldSize table r).toNat)
    (behind scratch : List UInt8) :
    servedBlock table r (own ++ behind) scratch = servedBlock table r own [] := by
  rw [servedBlock, servedBlock]
  cases kind : migrationOf table r with
  | none =>
    have same : oldSize table r = r.size := servable.2 (by rw [kind]; rfl)
    rw [same] at length
    dsimp only
    rw [List.take_append_of_le_length length.ge]
  | some m =>
    obtain ⟨covered, inside⟩ := ownOnly m kind
    obtain ⟨-, on⟩ := servable.1 m kind
    rw [← length] at inside
    have size := length_decodeStruct (by decide) on inside
    have within : r.size.toNat ≤ (decodeStruct m.newLayout m.oldLayout m.onRetype own).length := by
      rw [size]
      exact UInt32.le_iff_toNat_le.mp covered
    dsimp only
    rw [decodeStruct_append inside, List.take_append_of_le_length within, List.take_append_of_le_length within]

/-- `migrate_region_bytes` into the scratch. -/
theorem migrateScratch_eq (scratch : Scratch) (newLayout oldLayout : MLayout) (onRetype : Option MretypeFn)
    (oldBytes : List UInt8) :
    if newLayout.totalSize.toNat ≤ 4096 ∧ ∀ nf ∈ passedFields newLayout oldLayout newLayout.fields,
        InBounds oldLayout onRetype oldBytes.length 4096 nf then
      ∃ after, migrateScratch scratch newLayout oldBytes oldLayout onRetype =
          .returns (decide (∀ nf ∈ newLayout.fields, GoesOn newLayout oldLayout nf), after) ∧
        ((∀ nf ∈ newLayout.fields, GoesOn newLayout oldLayout nf) → after.bytes =
          decodeStruct newLayout oldLayout onRetype oldBytes ++ scratch.bytes.drop newLayout.totalSize.toNat)
    else migrateScratch scratch newLayout oldBytes oldLayout onRetype = .outOfBounds := by
  have word : scratch.bytes.length < 2 ^ 32 := by
    rw [scratch.length_eq]
    decide
  have run := migrateRegionBytes_eq word newLayout oldLayout onRetype oldBytes
  rw [scratch.length_eq] at run
  split
  · rename_i inside
    rw [if_pos inside] at run
    obtain ⟨after, migrated, bytes⟩ := migrateScratch_returns run
    refine ⟨after, migrated, fun all => ?_⟩
    have whole : passedFields newLayout oldLayout newLayout.fields = newLayout.fields :=
      List.takeWhile_eq_self_iff.mpr fun nf member => decide_eq_true (all nf member)
    rw [bytes, whole]
    rfl
  · rename_i outside
    rw [if_neg outside] at run
    unfold migrateScratch
    split
    · rename_i result
      cases run.symm.trans result
    · rename_i spins
      cases run.symm.trans spins
    · rfl

theorem migrationOf_eq (table : MigrateTable) (r : RuntimeTrackedRegion ι) :
    migrationOf table r = ((findMigrateDesc table r.name).bind fun m => m.oldLayout.bind fun old =>
      m.newLayout.map fun new => (m, old, new)).map fun found => ⟨found.2.1, found.2.2, found.1.onRetype⟩ := by
  rw [migrationOf]
  cases findMigrateDesc table r.name with
  | none => rfl
  | some m =>
    rw [Option.bind_some, Option.bind_some]
    cases m.oldLayout with
    | none => rfl
    | some old =>
      rw [Option.bind_some, Option.bind_some, Option.map_map]
      rfl

/-- A region without two layouts is handed its bytes as they are. -/
theorem migrationOf_none {table : MigrateTable} {r : RuntimeTrackedRegion ι} (raw : migrationOf table r = none) :
    (Servable table r ↔ oldSize table r = r.size) ∧
      ∀ n, (Reachable table r n ↔ (oldSize table r = r.size → r.size.toNat ≤ n)) := by
  simp [Servable, Reachable, raw]

/-- A region with two layouts is decoded in the scratch. -/
theorem migrationOf_some {table : MigrateTable} {r : RuntimeTrackedRegion ι} {m : Migration}
    (found : migrationOf table r = some m) :
    (Servable table r ↔ r.size ≤ 4096 ∧ ∀ nf ∈ m.newLayout.fields, GoesOn m.newLayout m.oldLayout nf) ∧
      ∀ n, (Reachable table r n ↔ (r.size ≤ 4096 → m.newLayout.totalSize.toNat ≤ 4096 ∧
        ∀ nf ∈ passedFields m.newLayout m.oldLayout m.newLayout.fields, InBounds m.oldLayout m.onRetype n 4096 nf)) := by
  simp [Servable, Reachable, found]

/-- The loop body of phase 3 up to `r->load`. -/
theorem prepareRegion_eq (table : MigrateTable) (buf : List UInt8) (p : Nat) (r : RuntimeTrackedRegion ι)
    (scratch : Scratch) :
    if Reachable table r (buf.drop p).length then
      ∃ after, if Servable table r then
          prepareRegion table buf p r scratch =
              .returns (some (servedBlock table r (buf.drop p) scratch.bytes), after) ∧
            after.bytes = scratchAfter table r (buf.drop p) scratch.bytes
        else prepareRegion table buf p r scratch = .returns (none, after)
    else prepareRegion table buf p r scratch = .outOfBounds := by
  have named : ¬((findMigrateDesc table r.name).any fun m => !m.isFor r.name) = true := by
    cases found : findMigrateDesc table r.name with
    | none => exact Bool.false_ne_true
    | some m =>
      rw [Option.any_some, findMigrateDesc_isFor found]
      exact Bool.false_ne_true
  have kind := migrationOf_eq table r
  rw [prepareRegion]
  simp only
  rw [if_neg named]
  generalize ((findMigrateDesc table r.name).bind fun m => m.oldLayout.bind fun old =>
    m.newLayout.map fun new => (m, old, new)) = found at kind ⊢
  cases found with
  | none =>
    rw [Option.map_none] at kind
    simp only [(migrationOf_none kind).1, (migrationOf_none kind).2, servedBlock, scratchAfter, kind]
    by_cases same : oldSize table r = r.size
    · rw [if_neg (not_not.mpr same), readAt_eq]
      simp only [same, true_implies, if_true]
      rw [List.length_drop]
      by_cases fits : r.size.toNat ≤ buf.length - p
      · rw [if_pos fits, if_pos (by omega)]
        exact ⟨scratch, rfl, rfl⟩
      · rw [if_neg fits, if_neg (by omega)]
        rfl
    · rw [if_pos same]
      simp only [same, false_implies, if_true, if_false]
      exact ⟨scratch, rfl⟩
  | some found =>
    obtain ⟨m, oldLayout, newLayout⟩ := found
    rw [Option.map_some] at kind
    simp only [(migrationOf_some kind).1, (migrationOf_some kind).2, servedBlock, scratchAfter, kind]
    by_cases small : r.size ≤ 4096
    · have run := migrateScratch_eq scratch newLayout oldLayout m.onRetype (buf.drop p)
      rw [if_neg (UInt32.not_lt.mpr small)]
      simp only [small, true_implies, true_and]
      split
      · rename_i inside
        rw [if_pos inside] at run
        obtain ⟨after, migrated, bytes⟩ := run
        refine ⟨after, ?_⟩
        rw [migrated, Exec.returns_bind]
        dsimp only
        by_cases all : ∀ nf ∈ newLayout.fields, GoesOn newLayout oldLayout nf
        · rw [if_pos all, if_pos (decide_eq_true all), bytes all]
          exact ⟨rfl, rfl⟩
        · rw [if_neg all, if_neg fun done => all (of_decide_eq_true done)]
          rfl
      · rename_i outside
        rw [if_neg outside] at run
        rw [run]
        rfl
    · rw [if_pos (UInt32.not_le.mp small)]
      simp only [small, false_implies, false_and, if_true, if_false]
      exact ⟨scratch, rfl⟩

/-- What a region was handed that phase 3 goes on to load. -/
theorem prepareRegion_some {table : MigrateTable} {buf block : List UInt8} {p : Nat} {r : RuntimeTrackedRegion ι}
    {scratch scratch' : Scratch} (run : prepareRegion table buf p r scratch = .returns (some block, scratch')) :
    Servable table r ∧ Reachable table r (buf.drop p).length ∧
      block = servedBlock table r (buf.drop p) scratch.bytes ∧
        scratch'.bytes = scratchAfter table r (buf.drop p) scratch.bytes := by
  have whole := prepareRegion_eq table buf p r scratch
  split at whole
  · rename_i reachable
    obtain ⟨after, whole⟩ := whole
    split at whole
    · rename_i servable
      obtain ⟨made, bytes⟩ := whole
      cases run.symm.trans made
      exact ⟨servable, reachable, rfl, bytes⟩
    · cases run.symm.trans whole
  · cases run.symm.trans whole

/-- A region before its turn in phase 3: the buffer from its old block on, and the scratch as it is. -/
structure Serving (ι : Type) where
  region : RuntimeTrackedRegion ι
  old : List UInt8
  scratch : List UInt8

/-- The regions as phase 3 comes to them, from offset `p` on. -/
def servings (table : MigrateTable) (buf : List UInt8) :
    List (RuntimeTrackedRegion ι) → Nat → List UInt8 → List (Serving ι)
  | [], _, _ => []
  | r :: rs, p, scratch =>
    ⟨r, buf.drop p, scratch⟩ ::
      servings table buf rs (p + (oldSize table r).toNat) (scratchAfter table r (buf.drop p) scratch)

/-- The scratch as it is behind some regions. -/
def scratchBehind (table : MigrateTable) (buf : List UInt8) : List (RuntimeTrackedRegion ι) → Nat → List UInt8 → List UInt8
  | [], _, scratch => scratch
  | r :: rs, p, scratch =>
    scratchBehind table buf rs (p + (oldSize table r).toNat) (scratchAfter table r (buf.drop p) scratch)

/-- What a region is offered: a block, or nothing, and the call fails. -/
structure Offer (ι : Type) where
  region : RuntimeTrackedRegion ι
  block : Option (List UInt8)

def Serving.offer (table : MigrateTable) (s : Serving ι) : Offer ι :=
  ⟨s.region, if Servable table s.region then some (servedBlock table s.region s.old s.scratch) else none⟩

/-- The blocks of the body as `save_state_load` offers them: none that ends behind `stop`. -/
def bodyOffers (buf : List UInt8) (stop : Nat) : List (RuntimeTrackedRegion ι) → Nat → List (Offer ι)
  | [], _ => []
  | r :: rs, p =>
    ⟨r, if p + r.size.toNat ≤ stop then some ((buf.drop p).take r.size.toNat) else none⟩ ::
      bodyOffers buf stop rs (p + r.size.toNat)

/-- The region has a block, and its `load` accepts it. -/
def Offer.Taken (st : ι → List UInt8) (o : Offer ι) : Prop :=
  ∃ block, o.block = some block ∧ (o.region.load block (st o.region.storage)).1 = true

/-- What the region's `load` leaves behind is what the region held. -/
def Offer.Kept (st : ι → List UInt8) (o : Offer ι) : Prop :=
  ∀ block, o.block = some block → (o.region.load block (st o.region.storage)).2 = st o.region.storage

/-- If the offers of `pre` are taken and the next is not, none of these regions changes. -/
def QuietAt (st : ι → List UInt8) (pre : List (Offer ι)) (o : Offer ι) : Prop :=
  (∀ c ∈ pre, c.Taken st) → ¬o.Taken st → ∀ c ∈ pre ++ [o], c.Kept st

/-- An offer as an item of a commit pass. -/
def Offer.item (o : Offer ι) : Item ι (List UInt8) :=
  .returns (o.block.map fun block => ⟨o.region.storage, o.region.load block⟩)

/-- A serving as an item: where bytes are touched that are not there, the call is undefined. -/
def Serving.item (table : MigrateTable) (s : Serving ι) : Item ι (List UInt8) :=
  if Reachable table s.region s.old.length then (s.offer table).item else .outOfBounds

theorem Offer.item_verdict (st : ι → List UInt8) (o : Offer ι) :
    (Accepts st o.item ↔ o.Taken st) ∧ (Refuses st o.item ↔ ¬o.Taken st) ∧ (Keeps st o.item ↔ o.Kept st) := by
  obtain ⟨r, block⟩ := o
  cases block with
  | none =>
    have untaken : ¬(⟨r, none⟩ : Offer ι).Taken st := by
      rintro ⟨block, same, -⟩
      cases same
    refine ⟨iff_of_false id untaken, iff_of_true trivial untaken, iff_of_true trivial fun block same => ?_⟩
    cases same
  | some block =>
    have taken_iff : (⟨r, some block⟩ : Offer ι).Taken st ↔ (r.load block (st r.storage)).1 = true := by
      constructor
      · rintro ⟨block', same, taken⟩
        cases same
        exact taken
      · exact fun taken => ⟨block, rfl, taken⟩
    refine ⟨taken_iff.symm, ?_, ?_⟩
    · rw [taken_iff, Bool.not_eq_true]
      rfl
    · constructor
      · intro kept block' same
        cases same
        exact kept
      · exact fun kept => kept block rfl

theorem quietOffers_iff {st : ι → List UInt8} {offers : List (Offer ι)} :
    QuietRefusal st (offers.map Offer.item) ↔ ∀ pre o post, offers = pre ++ o :: post → QuietAt st pre o := by
  rw [quietRefusal_map_iff]
  simp only [QuietAt, fun o : Offer ι => (o.item_verdict st).1, fun o : Offer ι => (o.item_verdict st).2.1,
    fun o : Offer ι => (o.item_verdict st).2.2]

/-- A region that takes or refuses what it is offered has been reached. -/
theorem Serving.item_verdict (table : MigrateTable) (st : ι → List UInt8) (s : Serving ι) :
    (Accepts st (s.item table) ↔ Reachable table s.region s.old.length ∧ (s.offer table).Taken st) ∧
      (Refuses st (s.item table) ↔ Reachable table s.region s.old.length ∧ ¬(s.offer table).Taken st) ∧
        (Reachable table s.region s.old.length → (Keeps st (s.item table) ↔ (s.offer table).Kept st)) := by
  obtain ⟨accepts, refuses, keeps⟩ := (s.offer table).item_verdict st
  rw [Serving.item]
  by_cases reachable : Reachable table s.region s.old.length
  · rw [if_pos reachable, and_iff_right reachable, and_iff_right reachable]
    exact ⟨accepts, refuses, fun _ => keeps⟩
  · rw [if_neg reachable]
    exact ⟨iff_of_false id fun both => reachable both.1, iff_of_false id fun both => reachable both.1,
      fun there => absurd there reachable⟩

theorem quietServings_iff {table : MigrateTable} {st : ι → List UInt8} {served : List (Serving ι)} :
    QuietRefusal st (served.map (Serving.item table)) ↔ ∀ pre s post, served = pre ++ s :: post →
      (∀ t ∈ pre ++ [s], Reachable table t.region t.old.length) →
        QuietAt st (pre.map (Serving.offer table)) (s.offer table) := by
  rw [quietRefusal_map_iff]
  constructor
  · intro quiet pre s post split reachable taken untaken o member
    rw [← List.map_singleton, ← List.map_append] at member
    obtain ⟨t, early, rfl⟩ := List.mem_map.mp member
    refine ((t.item_verdict table st).2.2 (reachable t early)).mp (quiet pre s post split (fun u before => ?_) ?_ t early)
    · exact (u.item_verdict table st).1.mpr
        ⟨reachable u (List.mem_append_left _ before), taken _ (List.mem_map_of_mem before)⟩
    · exact (s.item_verdict table st).2.1.mpr ⟨reachable s (List.mem_append_right _ List.mem_cons_self), untaken⟩
  · intro quiet pre s post split accepted refused t member
    have here := (s.item_verdict table st).2.1.mp refused
    have before : ∀ u ∈ pre, _ := fun u early => (u.item_verdict table st).1.mp (accepted u early)
    have reachable : ∀ u ∈ pre ++ [s], Reachable table u.region u.old.length := by
      intro u among
      rcases List.mem_append.mp among with early | last
      · exact (before u early).1
      · obtain rfl := List.mem_singleton.mp last
        exact here.1
    refine ((t.item_verdict table st).2.2 (reachable t member)).mpr
      (quiet pre s post split reachable (fun o taken => ?_) here.2 (t.offer table) ?_)
    · obtain ⟨u, early, rfl⟩ := List.mem_map.mp taken
      exact (before u early).2
    · rw [← List.map_singleton, ← List.map_append]
      exact List.mem_map_of_mem member

theorem servings_cells (table : MigrateTable) (buf : List UInt8) (rs : List (RuntimeTrackedRegion ι)) (p : Nat)
    (scratch : List UInt8) : (cells ((servings table buf rs p scratch).map (Serving.item table))).Sublist
      (rs.map RuntimeTrackedRegion.storage) := by
  induction rs generalizing p scratch with
  | nil => exact List.Sublist.slnil
  | cons r rs ih =>
    rw [servings, List.map_cons, List.map_cons, Serving.item]
    split
    · rw [Offer.item]
      cases ((⟨r, buf.drop p, scratch⟩ : Serving ι).offer table).block with
      | none => exact (ih _ _).cons _
      | some block => exact (ih _ _).cons_cons r.storage
    · exact (ih _ _).cons _

theorem bodyOffers_cells (buf : List UInt8) (stop : Nat) (rs : List (RuntimeTrackedRegion ι)) (p : Nat) :
    (cells ((bodyOffers buf stop rs p).map Offer.item)).Sublist (rs.map RuntimeTrackedRegion.storage) := by
  induction rs generalizing p with
  | nil => exact List.Sublist.slnil
  | cons r rs ih =>
    rw [bodyOffers, List.map_cons, List.map_cons, Offer.item]
    split
    · exact (ih _).cons_cons r.storage
    · exact (ih _).cons _

section
variable [DecidableEq ι]

/-- Phase 3 goes through the servings. -/
theorem applyRegions_eq_servings (table : MigrateTable) (buf : List UInt8) (rs : List (RuntimeTrackedRegion ι))
    (p : Nat) (scratch : Scratch) (st : ι → List UInt8) :
    (applyRegions table buf rs p scratch st >>= fun done => .returns (done.1, done.2.1)) =
      walk ((servings table buf rs p scratch.bytes).map (Serving.item table)) st := by
  induction rs generalizing p scratch st with
  | nil => rfl
  | cons r rs ih =>
    have prepared := prepareRegion_eq table buf p r scratch
    rw [servings, List.map_cons, Serving.item, applyRegions]
    dsimp only
    by_cases reachable : Reachable table r (buf.drop p).length
    · rw [if_pos reachable] at prepared ⊢
      obtain ⟨after, prepared⟩ := prepared
      rw [Serving.offer, Offer.item]
      dsimp only
      by_cases servable : Servable table r
      · rw [if_pos servable] at prepared ⊢
        obtain ⟨prepared, bytes⟩ := prepared
        rw [prepared, Exec.returns_bind, Option.map_some]
        dsimp only
        rw [walk]
        dsimp only
        rw [← bytes]
        split
        · exact ih _ _ _
        · rfl
      · rw [if_neg servable] at prepared ⊢
        rw [prepared, Exec.returns_bind, Option.map_none, walk]
        rfl
    · rw [if_neg reachable] at prepared ⊢
      rw [prepared]
      rfl

/-- A walk over the body ends with its last region. -/
theorem loadRegions_eq_offers (buf : List UInt8) {stop : Nat} (word : stop < 2 ^ 32)
    {rs : List (RuntimeTrackedRegion ι)} {p : Nat} (start : rs = [] → p ≤ stop) (exact : (p + bodySize rs) % 2 ^ 32 = stop)
    (st : ι → List UInt8) :
    walk ((bodyOffers buf stop rs p).map Offer.item) st = .returns (loadRegions buf stop rs p st) := by
  induction rs generalizing p st with
  | nil =>
    have ended : p = stop := by
      have low := start rfl
      rw [bodySize_nil] at exact
      omega
    rw [loadRegions, beq_iff_eq.mpr ended]
    rfl
  | cons r rs ih =>
    rw [bodySize_cons] at exact
    rw [bodyOffers, List.map_cons, loadRegions, Offer.item]
    by_cases fits : p + r.size.toNat ≤ stop
    · rw [if_pos fits, if_neg (Nat.not_lt.mpr fits), Option.map_some, walk]
      dsimp only
      rw [ih (fun _ => fits) (by rw [Nat.add_assoc]; exact exact)]
      split <;> rfl
    · rw [if_neg fits, if_pos (Nat.not_le.mp fits), Option.map_none, walk]

end

end Blyt
