import Blyt.NativeStateMigration

namespace Blyt
open Window

/-- The bytes of a field. -/
def MfieldDesc.bytes (f : MfieldDesc) (object : List UInt8) : List UInt8 := window object f.offset.toNat f.size.toNat

def MfieldDesc.Covers (f : MfieldDesc) (i : Nat) : Prop := f.offset.toNat ≤ i ∧ i < f.offset.toNat + f.size.toNat

instance (f : MfieldDesc) (i : Nat) : Decidable (f.Covers i) := inferInstanceAs (Decidable (_ ∧ _))

def MfieldDesc.Apart (f g : MfieldDesc) : Prop := ∀ i, f.Covers i → ¬g.Covers i

/-- No two fields have the same name. -/
def MLayout.DistinctNames (layout : MLayout) : Prop := (layout.fields.map MfieldDesc.name).Nodup

instance (layout : MLayout) : Decidable layout.DistinctNames := inferInstanceAs (Decidable (List.Nodup _))

/-- No two fields share a byte. -/
def MLayout.Disjoint (layout : MLayout) : Prop := layout.fields.Pairwise MfieldDesc.Apart

/-- A callback that returns 0 has written nothing. -/
def MretypeFn.DropsCleanly (callback : MretypeFn) : Prop :=
  ∀ oldField oldType newField newType, (callback.run oldField oldType newField newType).1 = false →
    (callback.run oldField oldType newField newType).2 = newField

/-- The same fields in another order. -/
structure MLayout.Reordered (layout layout' : MLayout) : Prop where
  fields : layout.fields.Perm layout'.fields
  totalSize : layout.totalSize = layout'.totalSize

def zeros (n : UInt32) : List UInt8 := List.replicate n.toNat 0

/-- What becomes of a field whose old namesake has another type or size: what the callback makes of it, or zero. -/
def retyped (onRetype : Option MretypeFn) (oldBytes : List UInt8) (f nf : MfieldDesc) : List UInt8 :=
  match onRetype with
  | none => zeros nf.size
  | some callback =>
    if (callback.run (f.bytes oldBytes) f.type (zeros nf.size) nf.type).1 then
      (callback.run (f.bytes oldBytes) f.type (zeros nf.size) nf.type).2
    else zeros nf.size

/-- What a migration makes of a region: the four cases of a field, zero between the fields, and nothing behind
the struct. -/
structure Migrated (newLayout : MLayout) (oldBytes : List UInt8) (oldLayout : MLayout) (onRetype : Option MretypeFn)
    (newBytes out : List UInt8) : Prop where
  kept : ∀ nf ∈ newLayout.fields, ∀ f ∈ oldLayout.fields, f.name = nf.name → f.type = nf.type ∧ f.size = nf.size →
    nf.bytes out = f.bytes oldBytes
  retyped : ∀ nf ∈ newLayout.fields, ∀ f ∈ oldLayout.fields, f.name = nf.name → ¬(f.type = nf.type ∧ f.size = nf.size) →
    nf.bytes out = Blyt.retyped onRetype oldBytes f nf
  added : ∀ nf ∈ newLayout.fields, (∀ f ∈ oldLayout.fields, f.name ≠ nf.name) → nf.bytes out = zeros nf.size
  between : ∀ i < newLayout.totalSize.toNat, (∀ nf ∈ newLayout.fields, ¬nf.Covers i) → out[i]? = some 0
  behind : ∀ i ≥ newLayout.totalSize.toNat, out[i]? = newBytes[i]?

section
variable {newLayout oldLayout newLayout' oldLayout' : MLayout} {oldBytes newBytes : List UInt8} {onRetype : Option MretypeFn}

theorem Migrated.reordered {out : List UInt8} (migrated : Migrated newLayout oldBytes oldLayout onRetype newBytes out)
    (new : newLayout.Reordered newLayout') (old : oldLayout.Reordered oldLayout') :
    Migrated newLayout' oldBytes oldLayout' onRetype newBytes out := by
  have newMem : ∀ {nf}, nf ∈ newLayout'.fields → nf ∈ newLayout.fields := fun member => new.fields.mem_iff.mpr member
  have oldMem : ∀ {f}, f ∈ oldLayout'.fields → f ∈ oldLayout.fields := fun member => old.fields.mem_iff.mpr member
  refine ⟨fun nf member f known => migrated.kept nf (newMem member) f (oldMem known),
    fun nf member f known => migrated.retyped nf (newMem member) f (oldMem known), fun nf member none => ?_,
    fun i inside none => ?_, fun i behind => migrated.behind i (new.totalSize ▸ behind)⟩
  · exact migrated.added nf (newMem member) fun f known => none f (old.fields.mem_iff.mp known)
  · exact migrated.between i (new.totalSize ▸ inside) fun nf known => none nf (new.fields.mem_iff.mp known)

/-- The cases leave no byte open. -/
theorem Migrated.unique {out out' : List UInt8} (migrated : Migrated newLayout oldBytes oldLayout onRetype newBytes out)
    (migrated' : Migrated newLayout oldBytes oldLayout onRetype newBytes out') : out = out' := by
  have same : ∀ nf ∈ newLayout.fields, nf.bytes out = nf.bytes out' := by
    intro nf member
    by_cases namesake : ∃ f ∈ oldLayout.fields, f.name = nf.name
    · obtain ⟨f, known, name⟩ := namesake
      by_cases matching : f.type = nf.type ∧ f.size = nf.size
      · rw [migrated.kept nf member f known name matching, migrated'.kept nf member f known name matching]
      · rw [migrated.retyped nf member f known name matching, migrated'.retyped nf member f known name matching]
    · have none : ∀ f ∈ oldLayout.fields, f.name ≠ nf.name := fun f known name => namesake ⟨f, known, name⟩
      rw [migrated.added nf member none, migrated'.added nf member none]
  refine List.ext_getElem? fun i => ?_
  rcases Nat.lt_or_ge i newLayout.totalSize.toNat with inside | behind
  · by_cases covered : ∃ nf ∈ newLayout.fields, nf.Covers i
    · obtain ⟨nf, member, from_, below⟩ := covered
      have byte := congrArg (·[i - nf.offset.toNat]?) (same nf member)
      simp only [MfieldDesc.bytes] at byte
      rwa [getElem?_window (by omega), getElem?_window (by omega), Nat.add_sub_of_le from_] at byte
    · have none : ∀ nf ∈ newLayout.fields, ¬nf.Covers i := fun nf member covers => covered ⟨nf, member, covers⟩
      rw [migrated.between i inside none, migrated'.between i inside none]
  · rw [migrated.behind i behind, migrated'.behind i behind]

/-- The bytes that a round of the walk puts into its field. -/
def migratedField (oldBytes : List UInt8) (oldLayout : MLayout) (onRetype : Option MretypeFn) (nf : MfieldDesc) : List UInt8 :=
  match oldFieldOf oldLayout nf with
  | none => zeros nf.size
  | some f => if f.type = nf.type ∧ f.size = nf.size then f.bytes oldBytes else retyped onRetype oldBytes f nf

theorem oldFieldOf_eq_some (names : oldLayout.DistinctNames) {nf f : MfieldDesc} (known : f ∈ oldLayout.fields)
    (name : f.name = nf.name) : oldFieldOf oldLayout nf = some f := by
  cases found : oldFieldOf oldLayout nf with
  | none =>
    have other := List.find?_eq_none.mp found f known
    exact absurd (strEq_iff.mpr name.symm) other
  | some g =>
    have first := List.find?_some found
    have same : g.name = f.name := (strEq_iff.mp first).symm.trans name.symm
    rw [List.inj_on_of_nodup_map names (List.mem_of_find?_eq_some found) known same]

theorem oldFieldOf_eq_none {nf : MfieldDesc} (none : ∀ f ∈ oldLayout.fields, f.name ≠ nf.name) :
    oldFieldOf oldLayout nf = .none := by
  rw [oldFieldOf, List.find?_eq_none]
  intro f known same
  exact none f known (strEq_iff.mp same).symm

theorem length_zeros (n : UInt32) : (zeros n).length = n.toNat := List.length_replicate

theorem length_retyped (f nf : MfieldDesc) : (retyped onRetype oldBytes f nf).length = nf.size.toNat := by
  cases onRetype with
  | none => exact length_zeros nf.size
  | some callback =>
    rw [retyped]
    split
    · exact (callback.length_run ..).trans (length_zeros nf.size)
    · exact length_zeros nf.size

theorem length_migratedField (oldRange : oldLayout.InRange) (old : oldLayout.totalSize.toNat ≤ oldBytes.length)
    (nf : MfieldDesc) : (migratedField oldBytes oldLayout onRetype nf).length = nf.size.toNat := by
  rw [migratedField]
  split
  · exact length_zeros nf.size
  · rename_i f found
    have fits := oldRange f (List.mem_of_find?_eq_some found)
    split
    · rename_i matching
      rw [← matching.2]
      exact readAt_length (by omega)
    · exact length_retyped f nf

/-- One round over a field that still is zero. -/
theorem migrateField_zeros (newRange : newLayout.InRange) (oldRange : oldLayout.InRange)
    (drops : ∀ callback, onRetype = some callback → callback.DropsCleanly)
    (old : oldLayout.totalSize.toNat ≤ oldBytes.length) {nf : MfieldDesc} (member : nf ∈ newLayout.fields)
    {new : List UInt8} (length : newLayout.totalSize.toNat ≤ new.length) (zero : nf.bytes new = zeros nf.size) :
    migrateField newLayout oldBytes oldLayout onRetype nf new =
      .returns (true, overwrite new nf.offset.toNat (migratedField oldBytes oldLayout onRetype nf)) := by
  have newFits : nf.offset.toNat + nf.size.toNat ≤ new.length := Nat.le_trans (newRange nf member) length
  have stays : overwrite new nf.offset.toNat (zeros nf.size) = new := by
    rw [← zero]
    exact overwrite_window newFits
  rw [migrateField, if_neg (newRange.check member), migratedField]
  cases found : oldFieldOf oldLayout nf with
  | none => exact congrArg (fun out => Exec.returns (true, out)) stays.symm
  | some f =>
    have known : f ∈ oldLayout.fields := List.mem_of_find?_eq_some found
    have oldFits : f.offset.toNat + f.size.toNat ≤ oldBytes.length := Nat.le_trans (oldRange f known) old
    dsimp only
    rw [if_neg (oldRange.check known)]
    split
    · rename_i matching
      rw [← matching.2] at newFits ⊢
      rw [readAt_returns oldFits, Exec.returns_bind, writeAt_returns (by rw [readAt_length oldFits]; exact newFits)]
      rfl
    · cases onRetype with
      | none => exact congrArg (fun out => Exec.returns (true, out)) stays.symm
      | some callback =>
        have made : retyped (some callback) oldBytes f nf =
            (callback.run (f.bytes oldBytes) f.type (zeros nf.size) nf.type).2 := by
          rw [retyped]
          split
          · rfl
          · rename_i refused
            exact (drops callback rfl _ _ _ _ (Bool.eq_false_iff.mpr refused)).symm
        have width : (retyped (some callback) oldBytes f nf).length = nf.size.toNat := length_retyped f nf
        have reads : readAt new nf.offset.toNat nf.size.toNat = .returns (zeros nf.size) :=
          (readAt_returns newFits).trans (congrArg _ zero)
        have stores : writeAt new nf.offset.toNat (retyped (some callback) oldBytes f nf) =
            .returns (overwrite new nf.offset.toNat (retyped (some callback) oldBytes f nf)) :=
          writeAt_returns (width ▸ newFits)
        dsimp only
        rw [readAt_returns oldFits, Exec.returns_bind, reads, Exec.returns_bind]
        rw [made] at stores ⊢
        exact congrArg (· >>= fun out => Exec.returns (true, out)) stores

/-- The walk so far: the fields behind it hold what they should, and nothing else has changed. -/
structure Walked (oldBytes : List UInt8) (oldLayout : MLayout) (onRetype : Option MretypeFn) (before : List UInt8)
    (walked : List MfieldDesc) (new : List UInt8) : Prop where
  length : new.length = before.length
  filled : ∀ nf ∈ walked, nf.bytes new = migratedField oldBytes oldLayout onRetype nf
  frame : ∀ i, (∀ nf ∈ walked, ¬nf.Covers i) → new[i]? = before[i]?

theorem migrateFields_walked (newRange : newLayout.InRange) (oldRange : oldLayout.InRange)
    (drops : ∀ callback, onRetype = some callback → callback.DropsCleanly)
    (old : oldLayout.totalSize.toNat ≤ oldBytes.length) {before : List UInt8}
    (length : newLayout.totalSize.toNat ≤ before.length)
    (zero : ∀ i < newLayout.totalSize.toNat, before[i]? = some 0) {walked fields : List MfieldDesc} {new : List UInt8}
    (known : ∀ nf ∈ fields, nf ∈ newLayout.fields) (apart : (walked ++ fields).Pairwise MfieldDesc.Apart)
    (now : Walked oldBytes oldLayout onRetype before walked new) :
    ∃ out, migrateFields newLayout oldBytes oldLayout onRetype fields new = .returns (true, out) ∧
      Walked oldBytes oldLayout onRetype before (walked ++ fields) out := by
  induction fields generalizing walked new with
  | nil => exact ⟨new, rfl, by rwa [List.append_nil]⟩
  | cons nf fields ih =>
    have member := known nf List.mem_cons_self
    have room := newRange nf member
    have width : (migratedField oldBytes oldLayout onRetype nf).length = nf.size.toNat :=
      length_migratedField oldRange old nf
    have fits : nf.offset.toNat + (migratedField oldBytes oldLayout onRetype nf).length ≤ new.length := by
      rw [width, now.length]
      exact Nat.le_trans room length
    have clear : ∀ other ∈ walked, other.Apart nf := fun other seen =>
      (List.pairwise_append.mp apart).2.2 other seen nf List.mem_cons_self
    have fresh : nf.bytes new = zeros nf.size := by
      refine List.ext_getElem? fun i => ?_
      rcases Nat.lt_or_ge i nf.size.toNat with inside | behind
      · rw [MfieldDesc.bytes, getElem?_window inside, now.frame, zero _ (by omega), zeros, List.getElem?_replicate_of_lt inside]
        exact fun other seen covers => clear other seen _ covers ⟨Nat.le_add_right .., by omega⟩
      · rw [MfieldDesc.bytes, window, List.getElem?_take_eq_none behind, List.getElem?_eq_none (by rwa [length_zeros])]
    have round := migrateField_zeros newRange oldRange drops old member (now.length ▸ length) fresh
    have next : Walked oldBytes oldLayout onRetype before (walked ++ [nf])
        (overwrite new nf.offset.toNat (migratedField oldBytes oldLayout onRetype nf)) := by
      refine ⟨(length_overwrite fits).trans now.length, fun other seen => ?_, fun i none => ?_⟩
      · rcases List.mem_append.mp seen with earlier | last
        · rw [← now.filled other earlier]
          refine window_overwrite_apart fits fun i from_ below covers => ?_
          rw [width] at covers
          exact clear other earlier i ⟨from_, below⟩ covers
        · obtain rfl := List.mem_singleton.mp last
          have written := window_overwrite fits
          rwa [width] at written
      · rw [getElem?_overwrite_outside fits, now.frame i fun other seen => none other (List.mem_append_left _ seen)]
        rw [width]
        exact none nf (List.mem_append_right _ (List.mem_singleton_self nf))
    obtain ⟨out, run, done⟩ := ih (fun f later => known f (List.mem_cons_of_mem _ later))
      (by rwa [List.append_assoc, List.singleton_append]) next
    rw [List.append_assoc, List.singleton_append] at done
    refine ⟨out, ?_, done⟩
    rw [migrateFields, round, Exec.returns_bind]
    exact run

/-- On layouts with distinct names and fields in range that do not overlap, each field comes to what its case
says. -/
theorem migrateRegionBytes_migrated (oldNames : oldLayout.DistinctNames)
    (newRange : newLayout.InRange) (oldRange : oldLayout.InRange) (disjoint : newLayout.Disjoint)
    (drops : ∀ callback, onRetype = some callback → callback.DropsCleanly)
    (new : newLayout.totalSize.toNat ≤ newBytes.length) (old : oldLayout.totalSize.toNat ≤ oldBytes.length) :
    ∃ out, migrateRegionBytes newBytes newLayout oldBytes oldLayout onRetype = .returns (true, out) ∧
      Migrated newLayout oldBytes oldLayout onRetype newBytes out := by
  have fits : 0 + (zeros newLayout.totalSize).length ≤ newBytes.length := by
    rw [length_zeros, Nat.zero_add]
    exact new
  have filled : zeroFill newBytes newLayout.totalSize = .returns (overwrite newBytes 0 (zeros newLayout.totalSize)) :=
    writeAt_returns fits
  have zero : ∀ i < newLayout.totalSize.toNat, (overwrite newBytes 0 (zeros newLayout.totalSize))[i]? = some 0 := by
    intro i inside
    have byte := getElem?_overwrite_inside fits (by rwa [length_zeros] : i < _)
    rwa [Nat.zero_add, zeros, List.getElem?_replicate_of_lt inside] at byte
  have start : Walked oldBytes oldLayout onRetype (overwrite newBytes 0 (zeros newLayout.totalSize)) []
      (overwrite newBytes 0 (zeros newLayout.totalSize)) := ⟨rfl, nofun, fun _ _ => rfl⟩
  have apart : ([] ++ newLayout.fields).Pairwise MfieldDesc.Apart := disjoint
  obtain ⟨out, run, done⟩ := migrateFields_walked newRange oldRange drops old
    (by rw [length_overwrite fits]; exact new) zero (fun _ member => member) apart start
  rw [List.nil_append] at done
  refine ⟨out, ?_, ⟨fun nf member f known name matching => ?_, fun nf member f known name differ => ?_,
    fun nf member none => ?_, fun i inside none => ?_, fun i behind => ?_⟩⟩
  · rw [migrateRegionBytes, filled, Exec.returns_bind]
    exact run
  · rw [done.filled nf member, migratedField, oldFieldOf_eq_some oldNames known name]
    exact if_pos matching
  · rw [done.filled nf member, migratedField, oldFieldOf_eq_some oldNames known name]
    exact if_neg differ
  · rw [done.filled nf member, migratedField, oldFieldOf_eq_none none]
  · rw [done.frame i none, zero i inside]
  · have beyond : ∀ nf ∈ newLayout.fields, ¬nf.Covers i := by
      rintro nf member ⟨-, below⟩
      have room := newRange nf member
      omega
    rw [done.frame i beyond, getElem?_overwrite_outside fits]
    rw [length_zeros]
    omega

theorem MfieldDesc.Apart.symm {f g : MfieldDesc} (apart : f.Apart g) : g.Apart f := fun i covers covers' =>
  apart i covers' covers

theorem MLayout.Reordered.inRange (same : newLayout.Reordered newLayout') (range : newLayout.InRange) :
    newLayout'.InRange := by
  intro f member
  rw [← same.totalSize]
  exact range f (same.fields.mem_iff.mpr member)

/-- `migrate_region_bytes` on layouts with distinct old names and fields in range, the new ones apart, and a callback
that writes nothing when it drops a field: it returns 1, each field comes to what its case says, and the order in
which either layout lists its fields does not matter. -/
theorem migrateRegionBytes_spec (oldNames : oldLayout.DistinctNames)
    (newRange : newLayout.InRange) (oldRange : oldLayout.InRange) (disjoint : newLayout.Disjoint)
    (drops : ∀ callback, onRetype = some callback → callback.DropsCleanly)
    (new : newLayout.totalSize.toNat ≤ newBytes.length) (old : oldLayout.totalSize.toNat ≤ oldBytes.length) :
    ∃ out, migrateRegionBytes newBytes newLayout oldBytes oldLayout onRetype = .returns (true, out) ∧
      Migrated newLayout oldBytes oldLayout onRetype newBytes out ∧
      ∀ newLayout' oldLayout', newLayout.Reordered newLayout' → oldLayout.Reordered oldLayout' →
        migrateRegionBytes newBytes newLayout' oldBytes oldLayout' onRetype = .returns (true, out) := by
  obtain ⟨out, run, migrated⟩ := migrateRegionBytes_migrated oldNames newRange oldRange disjoint drops new old
  refine ⟨out, run, migrated, fun newLayout' oldLayout' newSame oldSame => ?_⟩
  have disjoint' : newLayout'.Disjoint := disjoint.perm newSame.fields MfieldDesc.Apart.symm
  have oldNames' : oldLayout'.DistinctNames := (oldSame.fields.map MfieldDesc.name).nodup_iff.mp oldNames
  obtain ⟨out', run', migrated'⟩ := migrateRegionBytes_migrated oldNames' (newSame.inRange newRange)
    (oldSame.inRange oldRange) disjoint' drops (newSame.totalSize ▸ new) (oldSame.totalSize ▸ old)
  rw [run', migrated'.unique (migrated.reordered newSame oldSame)]

end

/-- A callback that looks at the two types first, and refuses them before it writes. -/
theorem MretypeFn.DropsCleanly.of_guard {callback : MretypeFn} {refuses : MfieldType → MfieldType → Prop}
    [∀ oldType newType, Decidable (refuses oldType newType)] {stored : List UInt8 → List UInt8 → List UInt8}
    (run : ∀ oldField oldType newField newType, callback.run oldField oldType newField newType =
      if refuses oldType newType then (false, newField) else (true, stored oldField newField)) :
    callback.DropsCleanly := by
  intro oldField oldType newField newType dropped
  rw [run] at dropped ⊢
  by_cases refused : refuses oldType newType
  · rw [if_pos refused]
  · rw [if_neg refused] at dropped
    cases dropped

theorem nativeStateRetypeI32ToI64_dropsCleanly : nativeStateRetypeI32ToI64.DropsCleanly :=
  .of_guard fun _ _ _ _ => rfl

theorem MfieldDesc.apart_of_le {f g : MfieldDesc} (before : f.offset.toNat + f.size.toNat ≤ g.offset.toNat) : f.Apart g := by
  rintro i ⟨-, below⟩ ⟨from_, -⟩
  omega

/-- Edit n5: `frame_count` grows to eight bytes, and `last_score` moves behind it. -/
theorem migrateRegionBytes_spec_n5 :
    ∃ out, migrateRegionBytes (List.replicate 16 0xff) (nativeStateLayout .v5) [1, 0, 0, 0, 2, 0, 0, 0, 3, 0, 0, 0]
        (nativeStateLayout .v4) (some nativeStateRetypeI32ToI64) = .returns (true, out) ∧
      window out 0 8 = [1, 0, 0, 0, 0, 0, 0, 0] ∧ window out 12 4 = [3, 0, 0, 0] := by
  have apart : (nativeStateLayout .v5).fields.Pairwise fun f g => f.offset.toNat + f.size.toNat ≤ g.offset.toNat := by decide
  obtain ⟨out, run, migrated, -⟩ := @migrateRegionBytes_spec (nativeStateLayout .v5) (nativeStateLayout .v4)
    [1, 0, 0, 0, 2, 0, 0, 0, 3, 0, 0, 0] (List.replicate 16 0xff) (some nativeStateRetypeI32ToI64) (by decide)
    (nativeStateLayout_inRange .v5) (nativeStateLayout_inRange .v4) (apart.imp MfieldDesc.apart_of_le)
    (fun callback same => by cases same; exact nativeStateRetypeI32ToI64_dropsCleanly) (by decide) (by decide)
  refine ⟨out, run, ?_, ?_⟩
  · exact (migrated.retyped ⟨cstr "frame_count", .i64, 0, 8⟩ (by decide) ⟨cstr "frame_count", .i32, 0, 4⟩ (by decide) rfl
      (by decide)).trans (by decide)
  · exact (migrated.kept ⟨cstr "last_score", .i32, 12, 4⟩ (by decide) ⟨cstr "last_score", .i32, 8, 4⟩ (by decide) rfl
      (by decide)).trans (by decide)

end Blyt
