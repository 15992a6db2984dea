import Blyt.Lib.Window
import Blyt.RuntimeTracked

namespace Blyt
open Window

inductive MfieldType where
  | u8 | u32 | i32 | u64 | i64 | f32 | f64
  deriving DecidableEq

structure MfieldDesc where
  name : CString
  type : MfieldType
  offset : UInt32
  size : UInt32
  deriving DecidableEq

structure MLayout where
  fields : List MfieldDesc
  totalSize : UInt32
  deriving DecidableEq

/-- `mretype_fn_t`. The callback is handed exactly the bytes of the two fields
and leaves as many behind. -/
structure MretypeFn where
  run : List UInt8 → MfieldType → List UInt8 → MfieldType → Bool × List UInt8
  length_run : ∀ oldField oldType newField newType,
    (run oldField oldType newField newType).2.length = newField.length

/-- A value stored at the front of a field leaves it as long as it was. -/
theorem length_stored {value field : List UInt8} {n : Nat} (width : value.length = n) :
    ((value ++ field.drop n).take field.length).length = field.length := by
  rw [List.length_take, List.length_append, List.length_drop, width]
  omega

def zeroFill (p : List UInt8) (n : UInt32) : Exec (List UInt8) := writeAt p 0 (List.replicate n.toNat 0)

/-- The lookup of a new field in the old layout: the first of its name. -/
def oldFieldOf (oldLayout : MLayout) (nf : MfieldDesc) : Option MfieldDesc :=
  oldLayout.fields.find? fun f => strEq nf.name f.name

/-- One round of the walk. The range checks add in 32 bits. -/
def migrateField (newLayout : MLayout) (oldBytes : List UInt8) (oldLayout : MLayout)
    (onRetype : Option MretypeFn) (nf : MfieldDesc) (newBytes : List UInt8) : Exec (Bool × List UInt8) :=
  if nf.offset + nf.size > newLayout.totalSize then return (false, newBytes)
  else match oldFieldOf oldLayout nf with
    | none => return (true, newBytes)
    | some f =>
      if f.offset + f.size > oldLayout.totalSize then return (false, newBytes)
      else if f.type = nf.type ∧ f.size = nf.size then do
        let field ← readAt oldBytes f.offset.toNat nf.size.toNat
        let out ← writeAt newBytes nf.offset.toNat field
        return (true, out)
      else match onRetype with
        | none => return (true, newBytes)
        | some callback => do
          let old ← readAt oldBytes f.offset.toNat f.size.toNat
          let new ← readAt newBytes nf.offset.toNat nf.size.toNat
          -- a refusal is only reported; what the callback wrote stays
          let out ← writeAt newBytes nf.offset.toNat (callback.run old f.type new nf.type).2
          return (true, out)

def migrateFields (newLayout : MLayout) (oldBytes : List UInt8) (oldLayout : MLayout)
    (onRetype : Option MretypeFn) : List MfieldDesc → List UInt8 → Exec (Bool × List UInt8)
  | [], newBytes => return (true, newBytes)
  | nf :: fields, newBytes => do
    let (ok, newBytes) ← migrateField newLayout oldBytes oldLayout onRetype nf newBytes
    if ok then migrateFields newLayout oldBytes oldLayout onRetype fields newBytes
    else return (false, newBytes)

/-- `migrate_region_bytes`. `newBytes` is the object written to and `oldBytes`
everything readable from `old_bytes` on. -/
def migrateRegionBytes (newBytes : List UInt8) (newLayout : MLayout) (oldBytes : List UInt8)
    (oldLayout : MLayout) (onRetype : Option MretypeFn) : Exec (Bool × List UInt8) := do
  let newBytes ← zeroFill newBytes newLayout.totalSize
  migrateFields newLayout oldBytes oldLayout onRetype newLayout.fields newBytes

theorem migrateField_length {newBytes oldBytes out : List UInt8} {newLayout oldLayout : MLayout}
    {onRetype : Option MretypeFn} {nf : MfieldDesc} {ok : Bool}
    (run : migrateField newLayout oldBytes oldLayout onRetype nf newBytes = .returns (ok, out)) :
    out.length = newBytes.length := by
  unfold migrateField at run
  split at run
  · cases run; rfl
  · split at run
    · cases run; rfl
    · split at run
      · cases run; rfl
      · split at run
        · obtain ⟨field, _, rest⟩ := Exec.bind_eq_returns.mp run
          obtain ⟨stored, write, done⟩ := Exec.bind_eq_returns.mp rest
          cases done
          exact writeAt_length write
        · split at run
          · cases run; rfl
          · obtain ⟨old, _, rest⟩ := Exec.bind_eq_returns.mp run
            obtain ⟨new, _, rest⟩ := Exec.bind_eq_returns.mp rest
            obtain ⟨stored, write, done⟩ := Exec.bind_eq_returns.mp rest
            cases done
            exact writeAt_length write

theorem migrateFields_length {newBytes oldBytes out : List UInt8} {newLayout oldLayout : MLayout}
    {onRetype : Option MretypeFn} {fields : List MfieldDesc} {ok : Bool}
    (run : migrateFields newLayout oldBytes oldLayout onRetype fields newBytes = .returns (ok, out)) :
    out.length = newBytes.length := by
  induction fields generalizing newBytes with
  | nil => cases run; rfl
  | cons nf fields ih =>
    obtain ⟨⟨fine, mid⟩, step, rest⟩ := Exec.bind_eq_returns.mp run
    rw [← migrateField_length step]
    cases fine with
    | true => exact ih rest
    | false => cases rest; rfl

theorem migrateRegionBytes_length {newBytes oldBytes out : List UInt8} {newLayout oldLayout : MLayout}
    {onRetype : Option MretypeFn} {ok : Bool}
    (run : migrateRegionBytes newBytes newLayout oldBytes oldLayout onRetype = .returns (ok, out)) :
    out.length = newBytes.length := by
  obtain ⟨zeroed, fill, walk⟩ := Exec.bind_eq_returns.mp run
  exact (migrateFields_length walk).trans (writeAt_length fill)

/-- Every field lies inside its struct, the end computed without wrapping. -/
def MLayout.InRange (layout : MLayout) : Prop :=
  ∀ f ∈ layout.fields, f.offset.toNat + f.size.toNat ≤ layout.totalSize.toNat

instance (layout : MLayout) : Decidable layout.InRange := inferInstanceAs (Decidable (∀ f ∈ layout.fields, _))

theorem MLayout.InRange.check {layout : MLayout} (range : layout.InRange) {f : MfieldDesc}
    (member : f ∈ layout.fields) : ¬f.offset + f.size > layout.totalSize := by
  have fits := range f member
  have total := layout.totalSize.toNat_lt
  have sum : (f.offset + f.size).toNat = f.offset.toNat + f.size.toNat := by
    rw [UInt32.toNat_add]
    omega
  rw [gt_iff_lt, UInt32.lt_iff_toNat_lt, sum]
  omega

section
variable {newLayout oldLayout : MLayout} {block : List UInt8}

/-- One round between layouts in range: it succeeds, keeps the size of the
destination, and sees nothing behind either struct. -/
theorem migrateField_window (onRetype : Option MretypeFn) (newRange : newLayout.InRange) (oldRange : oldLayout.InRange)
    (old : block.length = oldLayout.totalSize.toNat) {nf : MfieldDesc} (member : nf ∈ newLayout.fields)
    {new : List UInt8} (length : new.length = newLayout.totalSize.toNat) :
    ∃ out, out.length = new.length ∧ ∀ rest tail,
      migrateField newLayout (block ++ rest) oldLayout onRetype nf (new ++ tail) =
        .returns (true, out ++ tail) := by
  unfold migrateField
  simp only [if_neg (newRange.check member)]
  have newFits := newRange nf member
  rw [← length] at newFits
  cases found : oldFieldOf oldLayout nf with
  | none => exact ⟨new, rfl, fun _ _ => rfl⟩
  | some f =>
    have known : f ∈ oldLayout.fields := List.mem_of_find?_eq_some found
    have oldFits := oldRange f known
    rw [← old] at oldFits
    simp only [if_neg (oldRange.check known)]
    by_cases matching : f.type = nf.type ∧ f.size = nf.size
    · rw [matching.2] at oldFits
      obtain ⟨out, write, size⟩ := writeAt_window new nf.offset.toNat
        ((block.drop f.offset.toNat).take nf.size.toNat) (by rw [readAt_length oldFits]; exact newFits)
      refine ⟨out, size, fun rest tail => ?_⟩
      rw [if_pos matching, readAt_append oldFits, readAt_returns oldFits, Exec.returns_bind,
        writeAt_append (by rw [readAt_length oldFits]; exact newFits), write]
      rfl
    · cases onRetype with
      | none =>
        refine ⟨new, rfl, fun _ _ => ?_⟩
        rw [if_neg matching]
        rfl
      | some callback =>
        let value := (callback.run ((block.drop f.offset.toNat).take f.size.toNat) f.type
          ((new.drop nf.offset.toNat).take nf.size.toNat) nf.type).2
        have width : value.length = nf.size.toNat := (callback.length_run ..).trans (readAt_length newFits)
        obtain ⟨out, write, size⟩ := writeAt_window new nf.offset.toNat value
          (by rw [width]; exact newFits)
        refine ⟨out, size, fun rest tail => ?_⟩
        rw [if_neg matching, readAt_append oldFits, readAt_returns oldFits]
        dsimp only [Exec.returns_bind]
        rw [readAt_append newFits, readAt_returns newFits, Exec.returns_bind]
        show (writeAt (new ++ tail) nf.offset.toNat value >>= _) = _
        rw [writeAt_append (by rw [width]; exact newFits), write]
        rfl

theorem migrateFields_window (onRetype : Option MretypeFn) (newRange : newLayout.InRange) (oldRange : oldLayout.InRange)
    (old : block.length = oldLayout.totalSize.toNat) {fields : List MfieldDesc}
    (known : ∀ nf ∈ fields, nf ∈ newLayout.fields) {new : List UInt8}
    (length : new.length = newLayout.totalSize.toNat) :
    ∃ out, out.length = new.length ∧ ∀ rest tail,
      migrateFields newLayout (block ++ rest) oldLayout onRetype fields (new ++ tail) =
        .returns (true, out ++ tail) := by
  induction fields generalizing new with
  | nil => exact ⟨new, rfl, fun _ _ => rfl⟩
  | cons nf fields ih =>
    obtain ⟨mid, size, step⟩ := migrateField_window onRetype newRange oldRange old
      (known nf List.mem_cons_self) length
    obtain ⟨out, rest, run⟩ := ih (fun f member => known f (List.mem_cons_of_mem _ member)) (size.trans length)
    refine ⟨out, rest.trans size, fun after tail => ?_⟩
    rw [migrateFields, step, Exec.returns_bind]
    exact run after tail

/-- Between layouts in range the walk succeeds, and what it makes of a region
depends on that region's old bytes alone: not on what the destination held, nor
on the bytes behind either of the two. -/
theorem migrateRegionBytes_window (onRetype : Option MretypeFn) (newRange : newLayout.InRange) (oldRange : oldLayout.InRange)
    (old : block.length = oldLayout.totalSize.toNat) :
    ∃ out, out.length = newLayout.totalSize.toNat ∧ ∀ prior rest tail,
      prior.length = newLayout.totalSize.toNat →
        migrateRegionBytes (prior ++ tail) newLayout (block ++ rest) oldLayout onRetype =
          .returns (true, out ++ tail) := by
  obtain ⟨out, size, run⟩ := migrateFields_window onRetype newRange oldRange old
    (fun _ member => member) (List.length_replicate : (List.replicate newLayout.totalSize.toNat (0 : UInt8)).length = _)
  refine ⟨out, size.trans List.length_replicate, fun prior rest tail length => ?_⟩
  have zeroed : zeroFill (prior ++ tail) newLayout.totalSize =
      .returns (List.replicate newLayout.totalSize.toNat 0 ++ tail) := by
    have fits : 0 + (List.replicate newLayout.totalSize.toNat (0 : UInt8)).length ≤ (prior ++ tail).length := by
      rw [List.length_replicate, List.length_append]
      omega
    rw [zeroFill, writeAt_returns fits, List.length_replicate, Nat.zero_add, ← length, List.drop_left]
    rfl
  rw [migrateRegionBytes, zeroed, Exec.returns_bind]
  exact run rest tail

end

end Blyt
