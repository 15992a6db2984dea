import Blyt.Lib.FirstFit
import Blyt.TrackedRegions

namespace Blyt
namespace PersistentScripts

def wordOf (slot : Fin maxPersistentScripts) : Fin 2 := ⟨slot / 32, Nat.div_lt_of_lt_mul slot.isLt⟩

def maskOf (slot : Fin maxPersistentScripts) : UInt32 := 1 <<< UInt32.ofNat (slot % 32)

def bitGet (p : PersistentScripts) (slot : Fin maxPersistentScripts) : Bool :=
  (p.activeBits (wordOf slot) >>> UInt32.ofNat (slot % 32)) &&& 1 != 0

def bitSet (p : PersistentScripts) (slot : Fin maxPersistentScripts) : PersistentScripts :=
  { p with activeBits := Function.update p.activeBits (wordOf slot) (p.activeBits (wordOf slot) ||| maskOf slot) }

def bitClear (p : PersistentScripts) (slot : Fin maxPersistentScripts) : PersistentScripts :=
  { p with activeBits := Function.update p.activeBits (wordOf slot) (p.activeBits (wordOf slot) &&& ~~~maskOf slot) }

/-- `slot_in_range`: the slot a C `int` stands for. -/
def slotInRange (slot : Int) : Option (Fin maxPersistentScripts) :=
  if inside : 0 ≤ slot ∧ slot < maxPersistentScripts then some ⟨slot.toNat, by omega⟩ else none

/-- `persistent_scripts_reset`. -/
def reset : PersistentScripts := ⟨fun _ => 0, fun _ => 0, fun _ _ => 0⟩

/-- `persistent_scripts_unmark_all`. -/
def unmarkAll (p : PersistentScripts) : PersistentScripts := { p with activeBits := fun _ => 0 }

/-- `persistent_scripts_alloc`. -/
def alloc (p : PersistentScripts) : PersistentScripts × Int :=
  match FirstFit.firstFree p.bitGet with
  | some slot => (p.bitSet slot, slot)
  | none => (p, -1)

/-- `persistent_scripts_free`. -/
def free (p : PersistentScripts) (slot : Int) : PersistentScripts :=
  match slotInRange slot with
  | none => p
  | some s =>
    if !p.bitGet s then p
    else
      { p.bitClear s with
        slotLens := Function.update p.slotLens s 0
        slots := Function.update p.slots s fun _ => 0 }

/-- `persistent_scripts_write`; the length of `src` comes as a `uint32_t`. -/
def write (p : PersistentScripts) (slot : Int) (src : List UInt8) : PersistentScripts × Bool :=
  match slotInRange slot with
  | none => (p, false)
  | some s =>
    let n := src.length % 2 ^ 32
    if !p.bitGet s then (p, false)
    else if n > persistentScriptSlotBytes then (p, false)
    else
      ({ p with
        slotLens := Function.update p.slotLens s (UInt16.ofNat n)
        slots := Function.update p.slots s fun i => if i.val < n then src.getD i 0 else 0 }, true)

/-- The valid bytes of a slot. -/
def blob (p : PersistentScripts) (slot : Fin maxPersistentScripts) : List UInt8 :=
  (List.ofFn (p.slots slot)).take (p.slotLens slot).toNat

/-- `persistent_scripts_read`, into `cap` bytes; `none` is `-1`. -/
def read (p : PersistentScripts) (slot : Int) (cap : Nat) : Option (List UInt8) :=
  match slotInRange slot with
  | none => none
  | some s =>
    if !p.bitGet s then none
    else if (p.slotLens s).toNat > cap then none
    else some (p.blob s)

def isActive (p : PersistentScripts) (slot : Int) : Bool :=
  match slotInRange slot with
  | none => false
  | some s => p.bitGet s

theorem bitGet_eq (p : PersistentScripts) (slot : Fin maxPersistentScripts) :
    p.bitGet slot = (p.activeBits (wordOf slot)).toNat.testBit (slot % 32) := by
  rw [bitGet, Nat.testBit, Nat.and_comm, bne, bne, Bool.eq_iff_iff]
  simp [← UInt32.toNat_inj]

theorem maskOf_toNat (slot : Fin maxPersistentScripts) : (maskOf slot).toNat = 2 ^ (slot.val % 32) := by
  have bound : 2 ^ (slot.val % 32) < 2 ^ 32 := Nat.pow_lt_pow_right (by decide) (by omega)
  have shift : (UInt32.ofNat (slot % 32)).toNat % 32 = slot % 32 := by
    rw [UInt32.toNat_ofNat']
    omega
  rw [maskOf, UInt32.toNat_shiftLeft, shift, Nat.shiftLeft_eq]
  simpa using bound

theorem slot_eq_iff {s t : Fin maxPersistentScripts} : s = t ↔ wordOf s = wordOf t ∧ s.val % 32 = t.val % 32 := by
  rw [Fin.ext_iff, Fin.ext_iff]
  show s.val = t.val ↔ s.val / 32 = t.val / 32 ∧ _
  omega

theorem bitGet_bitSet (p : PersistentScripts) (s : Fin maxPersistentScripts) :
    (p.bitSet s).bitGet = Function.update p.bitGet s true := by
  funext t
  rw [bitGet_eq, bitSet]
  dsimp only
  by_cases word : wordOf t = wordOf s
  · rw [word, Function.update_self, UInt32.toNat_or, maskOf_toNat, Nat.testBit_or, Nat.testBit_two_pow, ← word,
      ← bitGet_eq]
    by_cases same : t = s
    · simp [same]
    · have apart : ¬s.val % 32 = t.val % 32 := fun eq => same (slot_eq_iff.mpr ⟨word, eq.symm⟩)
      simp [Function.update_of_ne same, apart]
  · rw [Function.update_of_ne word, ← bitGet_eq, Function.update_of_ne fun same => word (by rw [same])]

theorem bitGet_bitClear (p : PersistentScripts) (s : Fin maxPersistentScripts) :
    (p.bitClear s).bitGet = Function.update p.bitGet s false := by
  funext t
  rw [bitGet_eq, bitClear]
  dsimp only
  by_cases word : wordOf t = wordOf s
  · have bound := (maskOf s).toNat_lt
    have mask : (~~~maskOf s).toNat = 2 ^ 32 - (2 ^ (s.val % 32) + 1) := by
      rw [UInt32.toNat_not, maskOf_toNat, UInt32.size]
      omega
    rw [maskOf_toNat] at bound
    rw [word, Function.update_self, UInt32.toNat_and, mask, Nat.testBit_and, Nat.testBit_two_pow_sub_succ bound,
      Nat.testBit_two_pow, ← word, ← bitGet_eq]
    by_cases same : t = s
    · simp [same]
    · have apart : ¬s.val % 32 = t.val % 32 := fun eq => same (slot_eq_iff.mpr ⟨word, eq.symm⟩)
      have inside : t.val % 32 < 32 := Nat.mod_lt _ (by decide)
      simp [Function.update_of_ne same, apart, inside]
  · rw [Function.update_of_ne word, ← bitGet_eq, Function.update_of_ne fun same => word (by rw [same])]

@[simp] theorem bitGet_unmarkAll (p : PersistentScripts) : p.unmarkAll.bitGet = fun _ => false := by
  funext s
  rw [bitGet_eq]
  exact Nat.zero_testBit _

theorem bitGet_reset (s : Fin maxPersistentScripts) : reset.bitGet s = false := by
  rw [bitGet_eq]
  exact Nat.zero_testBit _

theorem blob_reset (s : Fin maxPersistentScripts) : reset.blob s = [] := rfl

@[simp] theorem slotInRange_coe (s : Fin maxPersistentScripts) : slotInRange s = some s := by
  have inside : (0 : Int) ≤ (s.val : Int) ∧ (s.val : Int) < maxPersistentScripts := by
    have := s.isLt
    omega
  rw [slotInRange, dif_pos inside]
  simp

/-- What `persistent_scripts_alloc` does: it takes the first free slot, or says that
there is none. -/
theorem alloc_cases (p : PersistentScripts) :
    (∃ s, FirstFit.firstFree p.bitGet = some s ∧ p.alloc = (p.bitSet s, (s : Int))) ∨
      (FirstFit.firstFree p.bitGet = none ∧ p.alloc = (p, -1)) := by
  unfold alloc
  cases FirstFit.firstFree p.bitGet with
  | none => exact Or.inr ⟨rfl, rfl⟩
  | some s => exact Or.inl ⟨s, rfl, rfl⟩

theorem slotInRange_eq_some {slot : Int} {s : Fin maxPersistentScripts} : slotInRange slot = some s ↔ slot = s := by
  constructor
  · intro found
    unfold slotInRange at found
    split at found
    · cases found
      simp only
      omega
    · cases found
  · rintro rfl
    exact slotInRange_coe s

/-- What `persistent_scripts_free` does: nothing, where no slot is active, or the slot is free
and empty. -/
theorem free_cases (p : PersistentScripts) (slot : Int) :
    (p.free slot = p ∧ ∀ s : Fin maxPersistentScripts, slot = s → p.bitGet s = false) ∨
      ∃ s : Fin maxPersistentScripts, slot = s ∧ p.bitGet s = true ∧
        (p.free slot).bitGet = Function.update p.bitGet s false ∧
        (p.free slot).blob = Function.update p.blob s [] := by
  unfold free
  cases range : slotInRange slot with
  | none =>
    refine Or.inl ⟨rfl, fun s same => ?_⟩
    rw [slotInRange_eq_some.mpr same] at range
    cases range
  | some s =>
    dsimp only
    split
    · rename_i idle
      refine Or.inl ⟨rfl, fun t same => ?_⟩
      rw [slotInRange_eq_some.mpr same] at range
      cases range
      simpa using idle
    · rename_i active
      refine Or.inr ⟨s, slotInRange_eq_some.mp range, by simpa using active, p.bitGet_bitClear s, funext fun t => ?_⟩
      by_cases same : t = s
      · subst same
        simp [blob]
      · simp [blob, Function.update_of_ne same]

theorem take_ofFn_padded {k : Nat} (src : List UInt8) (fits : src.length ≤ k) :
    (List.ofFn fun i : Fin k => if i.val < src.length then src.getD i 0 else 0).take src.length = src := by
  refine List.ext_getElem (by simpa using fits) fun i before inside => ?_
  rw [List.getElem_take, List.getElem_ofFn, if_pos inside]
  simp [inside]

/-- What `persistent_scripts_write` does: it refuses, or the bytes are those of the slot. -/
theorem write_cases (p : PersistentScripts) (slot : Int) (src : List UInt8) :
    p.write slot src = (p, false) ∨ ∃ s : Fin maxPersistentScripts, slotInRange slot = some s ∧
      p.bitGet s = true ∧ (p.write slot src).2 = true ∧ (p.write slot src).1.bitGet = p.bitGet ∧
        (src.length ≤ persistentScriptSlotBytes →
          (p.write slot src).1.blob = Function.update p.blob s src) := by
  unfold write
  cases slotInRange slot with
  | none => exact Or.inl rfl
  | some s =>
    dsimp only
    split
    · exact Or.inl rfl
    · rename_i active
      split
      · exact Or.inl rfl
      · refine Or.inr ⟨s, rfl, by simpa using active, rfl, rfl, fun fits => funext fun t => ?_⟩
        have whole : src.length % 2 ^ 32 = src.length := Nat.mod_eq_of_lt (Nat.lt_of_le_of_lt fits (by decide))
        by_cases same : t = s
        · subst same
          have half : (UInt16.ofNat src.length).toNat = src.length :=
            UInt16.toNat_ofNat_of_lt' (Nat.lt_of_le_of_lt fits (by decide))
          simp only [blob, Function.update_self, whole, half]
          exact take_ofFn_padded src fits
        · simp [blob, Function.update_of_ne same]

@[simp] theorem bitGet_write (p : PersistentScripts) (slot : Int) (src : List UInt8) :
    (p.write slot src).1.bitGet = p.bitGet := by
  rcases write_cases p slot src with refused | ⟨s, -, -, -, same, -⟩
  · rw [refused]
  · exact same

theorem write_active {p : PersistentScripts} {s : Fin maxPersistentScripts} {src : List UInt8}
    (active : p.bitGet s = true) (fits : src.length ≤ persistentScriptSlotBytes) :
    (p.write s src).2 = true ∧ (p.write s src).1.bitGet = p.bitGet ∧
      (p.write s src).1.blob = Function.update p.blob s src := by
  have short : ¬src.length % 2 ^ 32 > persistentScriptSlotBytes := Nat.not_lt.mpr ((Nat.mod_le ..).trans fits)
  rcases write_cases p s src with refused | ⟨t, same, -, done, bits, blob⟩
  · have accepted : (p.write s src).2 = true := by
      simp only [write, slotInRange_coe, active, Bool.not_true, Bool.false_eq_true, if_false, if_neg short]
    rw [refused] at accepted
    cases accepted
  · rw [slotInRange_coe, Option.some.injEq] at same
    subst same
    exact ⟨done, bits, blob fits⟩

/-- No slot claims more bytes than it has. -/
def LensFit (p : PersistentScripts) : Prop := ∀ s, (p.slotLens s).toNat ≤ persistentScriptSlotBytes

theorem lensFit_reset : LensFit reset := fun _ => Nat.zero_le _

theorem LensFit.bitSet {p : PersistentScripts} (fit : LensFit p) (s : Fin maxPersistentScripts) :
    LensFit (p.bitSet s) := fun t => fit t

theorem LensFit.update {p : PersistentScripts} (fit : LensFit p) (s : Fin maxPersistentScripts) {n : UInt16}
    (short : n.toNat ≤ persistentScriptSlotBytes) (t : Fin maxPersistentScripts) :
    (Function.update p.slotLens s n t).toNat ≤ persistentScriptSlotBytes := by
  by_cases same : t = s
  · rwa [same, Function.update_self]
  · rw [Function.update_of_ne same]
    exact fit t

theorem LensFit.free {p : PersistentScripts} (fit : LensFit p) (slot : Int) : LensFit (p.free slot) := by
  unfold PersistentScripts.free
  cases slotInRange slot with
  | none => exact fit
  | some s =>
    dsimp only
    split
    · exact fit
    · exact fit.update s (Nat.zero_le _)

theorem LensFit.write {p : PersistentScripts} (fit : LensFit p) (slot : Int) (src : List UInt8) :
    LensFit (p.write slot src).1 := by
  unfold PersistentScripts.write
  cases slotInRange slot with
  | none => exact fit
  | some s =>
    dsimp only
    split
    · exact fit
    · split
      · exact fit
      · rename_i short
        have half : (UInt16.ofNat (src.length % 2 ^ 32)).toNat ≤ src.length % 2 ^ 32 := by
          rw [UInt16.toNat_ofNat']
          exact Nat.mod_le _ _
        exact fit.update s (half.trans (Nat.le_of_not_gt short))

theorem read_of_active {p : PersistentScripts} {s : Fin maxPersistentScripts} (active : p.bitGet s = true) (cap : Nat) :
    p.read s cap = if (p.slotLens s).toNat > cap then none else some (p.blob s) := by
  simp only [read, slotInRange_coe, active, Bool.not_true, Bool.false_eq_true, if_false]

theorem read_active {p : PersistentScripts} (fit : LensFit p) {s : Fin maxPersistentScripts}
    (active : p.bitGet s = true) : p.read s persistentScriptSlotBytes = some (p.blob s) := by
  rw [read_of_active active, if_neg (Nat.not_lt.mpr (fit s))]

end PersistentScripts
end Blyt
