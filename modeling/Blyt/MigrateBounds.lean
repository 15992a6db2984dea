import Blyt.Migrate

namespace Blyt
open Window

/-- The range check of a field, which adds in 32 bits. -/
def MLayout.Passes (layout : MLayout) (f : MfieldDesc) : Prop := ¬f.offset + f.size > layout.totalSize

instance (layout : MLayout) (f : MfieldDesc) : Decidable (layout.Passes f) := inferInstanceAs (Decidable ¬_)

/-- The end of the field does not fit 32 bits. -/
def MfieldDesc.Wraps (f : MfieldDesc) : Prop := 2 ^ 32 ≤ f.offset.toNat + f.size.toNat

instance (f : MfieldDesc) : Decidable f.Wraps := inferInstanceAs (Decidable (_ ≤ _))

/-- The walk goes on behind a new field: it passes its check, and so does its old namesake. -/
def GoesOn (newLayout oldLayout : MLayout) (nf : MfieldDesc) : Prop :=
  newLayout.Passes nf ∧ ∀ f, oldFieldOf oldLayout nf = some f → oldLayout.Passes f

/-- The bytes of the new field and of its old namesake are touched: they are copied, or handed to the callback. -/
def Touches (oldLayout : MLayout) (onRetype : Option MretypeFn) (nf f : MfieldDesc) : Prop :=
  oldFieldOf oldLayout nf = some f ∧ (f.type = nf.type ∧ f.size = nf.size ∨ onRetype ≠ none)

/-- Two fields that pass their checks are touched, and the end of one does not fit 32 bits. -/
def Strays (newLayout oldLayout : MLayout) (onRetype : Option MretypeFn) (nf : MfieldDesc) : Prop :=
  GoesOn newLayout oldLayout nf ∧ ∃ f, Touches oldLayout onRetype nf f ∧ (nf.Wraps ∨ f.Wraps)

section
variable {layout newLayout oldLayout : MLayout} {onRetype : Option MretypeFn} {oldBytes new : List UInt8} {f nf : MfieldDesc}

/-- A field that passes its check lies in the struct, or its end wraps and it does not. -/
theorem MLayout.Passes.fits_iff (passes : layout.Passes f) :
    f.offset.toNat + f.size.toNat ≤ layout.totalSize.toNat ↔ ¬f.Wraps := by
  have total := layout.totalSize.toNat_lt
  have sum : (f.offset + f.size).toNat = (f.offset.toNat + f.size.toNat) % 2 ^ 32 := UInt32.toNat_add ..
  rw [Passes, gt_iff_lt, UInt32.lt_iff_toNat_lt, sum] at passes
  rw [MfieldDesc.Wraps]
  omega

/-- The end of an empty field fits. -/
theorem MfieldDesc.Wraps.size_ne_zero (wraps : f.Wraps) : f.size.toNat ≠ 0 := by
  have below := f.offset.toNat_lt
  rw [MfieldDesc.Wraps] at wraps
  omega

theorem readAt_wraps {object : List UInt8} (length : object.length < 2 ^ 32) (wraps : f.Wraps) :
    readAt object f.offset.toNat f.size.toNat = .outOfBounds := by
  have some := wraps.size_ne_zero
  rw [MfieldDesc.Wraps] at wraps
  rw [readAt, if_pos ⟨some, by omega⟩]

theorem writeAt_wraps {object field : List UInt8} (length : object.length < 2 ^ 32) (wraps : f.Wraps)
    (width : field.length = f.size.toNat) : writeAt object f.offset.toNat field = .outOfBounds := by
  have some := wraps.size_ne_zero
  rw [MfieldDesc.Wraps] at wraps
  rw [writeAt, width, if_pos ⟨some, by omega⟩]

/-- The copy of a field of one type and size stays in the buffers unless the end of one of the two wraps. -/
theorem copied_bounds (old : oldBytes.length = oldLayout.totalSize.toNat) (length : new.length = newLayout.totalSize.toNat)
    (passes : newLayout.Passes nf) (oldPasses : oldLayout.Passes f) (asked : nf.size.toNat = f.size.toNat) :
    let run : Exec (Bool × List UInt8) := do
      let field ← readAt oldBytes f.offset.toNat nf.size.toNat
      let out ← writeAt new nf.offset.toNat field
      return (true, out)
    (nf.Wraps ∨ f.Wraps → run = .outOfBounds) ∧ (¬(nf.Wraps ∨ f.Wraps) → ∃ out, run = .returns (true, out)) := by
  have oldWord : oldBytes.length < 2 ^ 32 := old ▸ oldLayout.totalSize.toNat_lt
  have newWord : new.length < 2 ^ 32 := length ▸ newLayout.totalSize.toNat_lt
  dsimp only
  rw [asked]
  by_cases oldWraps : f.Wraps
  · rw [readAt_wraps oldWord oldWraps]
    exact ⟨fun _ => rfl, fun none => absurd (.inr oldWraps) none⟩
  · have oldFits := old ▸ oldPasses.fits_iff.mpr oldWraps
    have width := readAt_length oldFits
    rw [readAt_returns oldFits, Exec.returns_bind]
    by_cases wraps : nf.Wraps
    · rw [writeAt_wraps newWord wraps (width.trans asked.symm)]
      exact ⟨fun _ => rfl, fun none => absurd (.inl wraps) none⟩
    · have fits := length ▸ passes.fits_iff.mpr wraps
      rw [writeAt_returns (by rw [width, ← asked]; exact fits)]
      exact ⟨fun some => absurd some (not_or.mpr ⟨wraps, oldWraps⟩), fun _ => ⟨_, rfl⟩⟩

/-- So does what the callback makes of a field of another type or size. -/
theorem retyped_bounds (old : oldBytes.length = oldLayout.totalSize.toNat) (length : new.length = newLayout.totalSize.toNat)
    (passes : newLayout.Passes nf) (oldPasses : oldLayout.Passes f) (callback : MretypeFn) :
    let run : Exec (Bool × List UInt8) := do
      let field ← readAt oldBytes f.offset.toNat f.size.toNat
      let now ← readAt new nf.offset.toNat nf.size.toNat
      let out ← writeAt new nf.offset.toNat (callback.run field f.type now nf.type).2
      return (true, out)
    (nf.Wraps ∨ f.Wraps → run = .outOfBounds) ∧ (¬(nf.Wraps ∨ f.Wraps) → ∃ out, run = .returns (true, out)) := by
  have oldWord : oldBytes.length < 2 ^ 32 := old ▸ oldLayout.totalSize.toNat_lt
  have newWord : new.length < 2 ^ 32 := length ▸ newLayout.totalSize.toNat_lt
  dsimp only
  by_cases oldWraps : f.Wraps
  · rw [readAt_wraps oldWord oldWraps]
    exact ⟨fun _ => rfl, fun none => absurd (.inr oldWraps) none⟩
  · rw [readAt_returns (old ▸ oldPasses.fits_iff.mpr oldWraps), Exec.returns_bind]
    by_cases wraps : nf.Wraps
    · rw [readAt_wraps newWord wraps]
      exact ⟨fun _ => rfl, fun none => absurd (.inl wraps) none⟩
    · have fits := length ▸ passes.fits_iff.mpr wraps
      rw [readAt_returns fits, Exec.returns_bind,
        writeAt_returns (by rw [callback.length_run, readAt_length fits]; exact fits)]
      exact ⟨fun some => absurd some (not_or.mpr ⟨wraps, oldWraps⟩), fun _ => ⟨_, rfl⟩⟩

/-- One round leaves the buffers, or succeeds as far as the checks do. -/
theorem migrateField_bounds (old : oldBytes.length = oldLayout.totalSize.toNat) (length : new.length = newLayout.totalSize.toNat)
    (nf : MfieldDesc) :
    (Strays newLayout oldLayout onRetype nf → migrateField newLayout oldBytes oldLayout onRetype nf new = .outOfBounds) ∧
      (¬Strays newLayout oldLayout onRetype nf → ∃ ok out,
        migrateField newLayout oldBytes oldLayout onRetype nf new = .returns (ok, out) ∧
          (ok = true ↔ GoesOn newLayout oldLayout nf)) := by
  rw [migrateField]
  by_cases passes : newLayout.Passes nf
  swap
  · rw [if_pos (not_not.mp passes)]
    exact ⟨fun strays => absurd strays.1.1 passes, fun _ => ⟨false, new, rfl, iff_of_false Bool.false_ne_true fun on => passes on.1⟩⟩
  rw [if_neg passes]
  cases found : oldFieldOf oldLayout nf with
  | none =>
    have on : GoesOn newLayout oldLayout nf := ⟨passes, fun f some => by rw [found] at some; cases some⟩
    refine ⟨?_, fun _ => ⟨true, new, rfl, iff_of_true rfl on⟩⟩
    rintro ⟨-, f, ⟨some, -⟩, -⟩
    rw [found] at some
    cases some
  | some f =>
    by_cases oldPasses : oldLayout.Passes f
    swap
    · have stops : ¬GoesOn newLayout oldLayout nf := fun on => oldPasses (on.2 f found)
      dsimp only
      rw [if_pos (not_not.mp oldPasses)]
      exact ⟨fun strays => absurd strays.1 stops, fun _ => ⟨false, new, rfl, iff_of_false Bool.false_ne_true stops⟩⟩
    have on : GoesOn newLayout oldLayout nf := by
      refine ⟨passes, fun g some => ?_⟩
      rw [found] at some
      cases some
      exact oldPasses
    have strays_iff : Strays newLayout oldLayout onRetype nf ↔
        (f.type = nf.type ∧ f.size = nf.size ∨ onRetype ≠ none) ∧ (nf.Wraps ∨ f.Wraps) := by
      constructor
      · rintro ⟨-, g, ⟨some, touched⟩, wraps⟩
        rw [found] at some
        cases some
        exact ⟨touched, wraps⟩
      · rintro ⟨touched, wraps⟩
        exact ⟨on, f, ⟨found, touched⟩, wraps⟩
    rw [strays_iff]
    dsimp only
    rw [if_neg oldPasses]
    by_cases matching : f.type = nf.type ∧ f.size = nf.size
    · obtain ⟨strays, stays⟩ := copied_bounds old length passes oldPasses (congrArg UInt32.toNat matching.2.symm)
      have touched : f.type = nf.type ∧ f.size = nf.size ∨ onRetype ≠ none := .inl matching
      rw [if_pos matching, and_iff_right touched]
      refine ⟨strays, fun neither => ?_⟩
      obtain ⟨out, ran⟩ := stays neither
      exact ⟨true, out, ran, iff_of_true rfl on⟩
    · rw [if_neg matching]
      cases onRetype with
      | none => exact ⟨fun strays => absurd rfl (strays.1.resolve_left matching), fun _ => ⟨true, new, rfl, iff_of_true rfl on⟩⟩
      | some callback =>
        obtain ⟨strays, stays⟩ := retyped_bounds old length passes oldPasses callback
        have touched : f.type = nf.type ∧ f.size = nf.size ∨ some callback ≠ none := .inr (Option.some_ne_none callback)
        rw [and_iff_right touched]
        refine ⟨strays, fun neither => ?_⟩
        obtain ⟨out, ran⟩ := stays neither
        exact ⟨true, out, ran, iff_of_true rfl on⟩

/-- The walk stays in the buffers as long as no field it comes to strays. -/
theorem migrateFields_bounds (old : oldBytes.length = oldLayout.totalSize.toNat) {fields : List MfieldDesc}
    (length : new.length = newLayout.totalSize.toNat) :
    (∃ r, migrateFields newLayout oldBytes oldLayout onRetype fields new = .returns r) ↔
      ∀ before nf after, fields = before ++ nf :: after → (∀ g ∈ before, GoesOn newLayout oldLayout g) →
        ¬Strays newLayout oldLayout onRetype nf := by
  induction fields generalizing new with
  | nil => exact iff_of_true ⟨_, rfl⟩ fun before nf after cut => absurd cut.symm (by simp)
  | cons nf fields ih =>
    obtain ⟨leaves, stays⟩ : (Strays newLayout oldLayout onRetype nf → _) ∧ _ := migrateField_bounds old length nf
    by_cases strays : Strays newLayout oldLayout onRetype nf
    · rw [migrateFields, leaves strays]
      refine iff_of_false ?_ fun none => none [] nf fields rfl (List.forall_mem_nil _) strays
      rintro ⟨r, returned⟩
      cases returned
    · obtain ⟨ok, out, round, passes⟩ := stays strays
      rw [migrateFields, round, Exec.returns_bind]
      by_cases on : GoesOn newLayout oldLayout nf
      · obtain rfl := passes.mpr on
        dsimp only
        rw [if_pos rfl, ih ((migrateField_length round).trans length)]
        constructor
        · intro none before nf' after cut goesOn
          cases before with
          | nil =>
            obtain ⟨rfl, -⟩ := List.cons.inj cut
            exact strays
          | cons first before =>
            obtain ⟨-, rfl⟩ := List.cons.inj cut
            exact none before nf' after rfl fun g member => goesOn g (List.mem_cons_of_mem _ member)
        · intro none before nf' after cut goesOn
          exact none (nf :: before) nf' after (cut ▸ rfl) (List.forall_mem_cons.mpr ⟨on, goesOn⟩)
      · have stopped : ok = false := Bool.eq_false_iff.mpr fun fine => on (passes.mp fine)
        rw [stopped]
        refine iff_of_true ⟨_, rfl⟩ fun before nf' after cut goesOn => ?_
        cases before with
        | nil =>
          obtain ⟨rfl, -⟩ := List.cons.inj cut
          exact strays
        | cons first before =>
          obtain ⟨rfl, -⟩ := List.cons.inj cut
          exact absurd (goesOn _ List.mem_cons_self) on

/-- `migrate_region_bytes` reads and writes inside the two structs exactly when every field that it comes to and
touches, and the old namesake of that field, has an end that fits 32 bits. -/
theorem migrateRegionBytes_inBounds_iff {newBytes : List UInt8} (newLayout oldLayout : MLayout) (onRetype : Option MretypeFn)
    (length : newBytes.length = newLayout.totalSize.toNat) (old : oldBytes.length = oldLayout.totalSize.toNat) :
    (∃ r, migrateRegionBytes newBytes newLayout oldBytes oldLayout onRetype = .returns r) ↔
      ∀ before nf after f, newLayout.fields = before ++ nf :: after → (∀ g ∈ before, GoesOn newLayout oldLayout g) →
        GoesOn newLayout oldLayout nf → Touches oldLayout onRetype nf f → ¬nf.Wraps ∧ ¬f.Wraps := by
  have fits : 0 + (List.replicate newLayout.totalSize.toNat (0 : UInt8)).length ≤ newBytes.length := by
    rw [List.length_replicate, length]
    omega
  have filled := writeAt_returns fits
  have zeroed := (writeAt_length filled).trans length
  rw [migrateRegionBytes, zeroFill, filled, Exec.returns_bind, migrateFields_bounds old zeroed]
  constructor
  · intro none before nf after f cut goesOn on touches
    rw [← not_or]
    exact fun wraps => none before nf after cut goesOn ⟨on, f, touches, wraps⟩
  · rintro none before nf after cut goesOn ⟨on, f, touches, wraps⟩
    exact not_or.mpr (none before nf after f cut goesOn on touches) wraps

end

/-- A `u32` is added behind another: no end comes near the word. -/
theorem migrateRegionBytes_inBounds_added :
    ∃ r, migrateRegionBytes (List.replicate 8 0) ⟨[⟨cstr "a", .u32, 0, 4⟩, ⟨cstr "b", .u32, 4, 4⟩], 8⟩ [1, 2, 3, 4]
      ⟨[⟨cstr "a", .u32, 0, 4⟩], 4⟩ none = .returns r := by
  refine (migrateRegionBytes_inBounds_iff _ _ _ rfl rfl).mpr fun before nf after f cut _ _ touches => ⟨?_, ?_⟩
  · have near : ∀ g ∈ [(⟨cstr "a", .u32, 0, 4⟩ : MfieldDesc), ⟨cstr "b", .u32, 4, 4⟩], ¬g.Wraps := by decide
    have member : nf ∈ before ++ nf :: after := List.mem_append_right _ List.mem_cons_self
    rw [← cut] at member
    exact near nf member
  · have near : ∀ g ∈ [(⟨cstr "a", .u32, 0, 4⟩ : MfieldDesc)], ¬g.Wraps := by decide
    exact near f (List.mem_of_find?_eq_some touches.1)

/-- Eight bytes at `0xfffffffc` end at 4, as the check counts. -/
def wrappedField : MfieldDesc := ⟨cstr "x", .u64, 0xfffffffc, 8⟩

theorem migrateRegionBytes_not_inBounds :
    ¬∀ (newLayout oldLayout : MLayout) (onRetype : Option MretypeFn) (newBytes oldBytes : List UInt8),
      newBytes.length = newLayout.totalSize.toNat → oldBytes.length = oldLayout.totalSize.toNat →
        ∃ r, migrateRegionBytes newBytes newLayout oldBytes oldLayout onRetype = .returns r := by
  intro inside
  obtain ⟨r, run⟩ := inside ⟨[wrappedField], 16⟩ ⟨[wrappedField], 16⟩ none (List.replicate 16 0) (List.replicate 16 0) rfl rfl
  have leaves : migrateRegionBytes (List.replicate 16 0) ⟨[wrappedField], 16⟩ (List.replicate 16 0) ⟨[wrappedField], 16⟩ none =
      .outOfBounds := by decide +kernel
  rw [leaves] at run
  cases run

end Blyt
