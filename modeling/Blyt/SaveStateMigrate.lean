import Blyt.Migrate
import Blyt.SaveStateLoad

namespace Blyt
open Window CommitWalk
variable {ι : Type} {R : Registry ι}

/-- `migrate_region_t`. Absent members are NULL pointers. -/
structure MigrateRegion where
  name : Option CString
  oldSize : UInt32
  oldLayout : Option MLayout
  newLayout : Option MLayout
  onRetype : Option MretypeFn

/-- `migrate_regions[0 .. migrate_region_count)`. The weak defaults are the empty list. -/
abbrev MigrateTable := List (Option MigrateRegion)

/-- The descriptor is for a region of this name. -/
def MigrateRegion.isFor (m : MigrateRegion) (name : CString) : Bool := m.name.any fun n => strEq n name

def findMigrateDesc (table : MigrateTable) (name : CString) : Option MigrateRegion :=
  table.findSome? fun m => m.filter fun m => m.isFor name

/-- `old_sz`: what the descriptor declares, or the current size without one. -/
def oldSize (table : MigrateTable) (r : RuntimeTrackedRegion ι) : UInt32 :=
  match findMigrateDesc table r.name with
  | some m => m.oldSize
  | none => r.size

/-- `static uint8_t scratch[4096]`. It is never cleared between regions or calls. -/
structure Scratch where
  bytes : List UInt8
  length_eq : bytes.length = 4096

structure MigrateRuntime (R : Registry ι) extends Runtime R where
  scratch : Scratch

/-- Phase 2 from offset `p`: the declared old sizes stay inside `stop`. -/
def coversRegions (table : MigrateTable) (stop : Nat) : List (RuntimeTrackedRegion ι) → Nat → Bool
  | [], _ => true
  | r :: rs, p =>
    if p + (oldSize table r).toNat > stop then false
    else coversRegions table stop rs (p + (oldSize table r).toNat)

/-- `migrate_region_bytes(scratch, ...)`. -/
def migrateScratch (scratch : Scratch) (newLayout : MLayout) (oldBytes : List UInt8) (oldLayout : MLayout)
    (onRetype : Option MretypeFn) : Exec (Bool × Scratch) :=
  match run : migrateRegionBytes scratch.bytes newLayout oldBytes oldLayout onRetype with
  | .returns (ok, out) => .returns (ok, ⟨out, (migrateRegionBytes_length run).trans scratch.length_eq⟩)
  | .spins => .spins
  | .outOfBounds => .outOfBounds

/-- The loop body of phase 3 up to `r->load`: the bytes `load` is handed, or
none when the call fails before it. -/
def prepareRegion (table : MigrateTable) (buf : List UInt8) (p : Nat) (r : RuntimeTrackedRegion ι)
    (scratch : Scratch) : Exec (Option (List UInt8) × Scratch) :=
  let m := findMigrateDesc table r.name
  if m.any fun m => !m.isFor r.name then return (none, scratch)
  else match m.bind fun m => m.oldLayout.bind fun old => m.newLayout.map fun new => (m, old, new) with
    | some (m, oldLayout, newLayout) =>
      if r.size > 4096 then return (none, scratch)
      else do
        let (ok, scratch) ← migrateScratch scratch newLayout (buf.drop p) oldLayout m.onRetype
        if ok then return (some (scratch.bytes.take r.size.toNat), scratch) else return (none, scratch)
    | none =>
      if oldSize table r ≠ r.size then return (none, scratch)
      else do
        let block ← readAt buf p r.size.toNat
        return (some block, scratch)

/-- Phase 3 from offset `p`. -/
def applyRegions [DecidableEq ι] (table : MigrateTable) (buf : List UInt8) :
    List (RuntimeTrackedRegion ι) → Nat → Scratch → (ι → List UInt8) → Exec (Bool × (ι → List UInt8) × Scratch)
  | [], _, scratch, st => return (true, st, scratch)
  | r :: rs, p, scratch, st => do
    let (prepared, scratch) ← prepareRegion table buf p r scratch
    match prepared with
    | none => return (false, st, scratch)
    | some block =>
      let (ok, cell) := r.load block (st r.storage)
      let st := Function.update st r.storage cell
      if ok then applyRegions table buf rs (p + (oldSize table r).toNat) scratch st
      else return (false, st, scratch)

def saveStateLoadMigrate [DecidableEq ι] (table : MigrateTable) (rt : MigrateRuntime R) (buf : ByteSpan) :
    Exec (Bool × MigrateRuntime R) := do
  if buf.bytes.length < 24 then return (false, rt)
  let h := headerOf buf
  if h.magic ≠ saveStateMagic then return (false, rt)
  if h.version ≠ saveStateVersion then return (false, rt)
  if h.totalSize.toNat > buf.bytes.length then return (false, rt)
  if h.layoutHash = rt.layoutHash then
    let (ok, base) ← saveStateLoad rt.toRuntime buf
    return (ok, { rt with toRuntime := base })
  if coversRegions table h.totalSize.toNat R.regions 24 then
    let (ok, store, scratch) ← applyRegions table buf.bytes R.regions 24 rt.scratch rt.store
    return (ok, ⟨rt.withStore store, scratch⟩)
  else return (false, rt)

/-- Everything `save_state_load_migrate` tests before it touches a region of a
buffer with another layout hash. -/
structure MigrateAccepted (R : Registry ι) (table : MigrateTable) (layoutHash : UInt64) (buf : ByteSpan) :
    Prop where
  long : 24 ≤ buf.bytes.length
  magic : (headerOf buf).magic = saveStateMagic
  version : (headerOf buf).version = saveStateVersion
  within : (headerOf buf).totalSize.toNat ≤ buf.bytes.length
  mismatch : (headerOf buf).layoutHash ≠ layoutHash
  covered : coversRegions table (headerOf buf).totalSize.toNat R.regions 24 = true

/-- Phase 3 as a commit pass. -/
def migrateItems (table : MigrateTable) (buf : List UInt8) :
    List (RuntimeTrackedRegion ι) → Nat → Scratch → List (Item ι (List UInt8))
  | [], _, _ => []
  | r :: rs, p, scratch =>
    match prepareRegion table buf p r scratch with
    | .spins => [.spins]
    | .outOfBounds => [.outOfBounds]
    | .returns (none, _) => [.returns none]
    | .returns (some block, scratch) =>
      loadItem (r, block) :: migrateItems table buf rs (p + (oldSize table r).toNat) scratch

theorem migrateItems_cells (table : MigrateTable) (buf : List UInt8) (rs : List (RuntimeTrackedRegion ι)) (p : Nat)
    (scratch : Scratch) :
    (cells (migrateItems table buf rs p scratch)).Sublist (rs.map RuntimeTrackedRegion.storage) := by
  induction rs generalizing p scratch with
  | nil => exact List.Sublist.slnil
  | cons r rs ih =>
    unfold migrateItems
    split
    · exact List.nil_sublist _
    · exact List.nil_sublist _
    · exact List.nil_sublist _
    · exact (ih _ _).cons_cons r.storage

theorem migrateItems_distinct (R : Registry ι) (table : MigrateTable) (buf : List UInt8) (p : Nat)
    (scratch : Scratch) : (cells (migrateItems table buf R.regions p scratch)).Nodup :=
  (migrateItems_cells table buf R.regions p scratch).nodup R.distinct

section
variable [DecidableEq ι]

theorem applyRegions_eq_walk (table : MigrateTable) (buf : List UInt8) (rs : List (RuntimeTrackedRegion ι))
    (p : Nat) (scratch : Scratch) (st : ι → List UInt8) :
    (applyRegions table buf rs p scratch st >>= fun done => .returns (done.1, done.2.1)) =
      walk (migrateItems table buf rs p scratch) st := by
  induction rs generalizing p scratch st with
  | nil => rfl
  | cons r rs ih =>
    unfold applyRegions migrateItems
    rcases prepareRegion table buf p r scratch with ⟨_ | block, scratch'⟩ | _ | _
    · rfl
    · simp only [Exec.returns_bind, loadItem, walk]
      by_cases ok : (r.load block (st r.storage)).1 = true
      · simp only [ok, if_true]
        exact ih _ _ _
      · simp only [ok]
        rfl
    · rfl
    · rfl

end
end Blyt
