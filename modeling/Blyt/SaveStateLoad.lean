import Blyt.Lib.CommitWalk
import Blyt.SaveState
import Blyt.TrackedRegions

namespace Blyt
open Packed CommitWalk
variable {ι : Type} {R : Registry ι}

/-- A region together with the bytes of the body that fall to it. -/
abbrev RegionBlock (ι : Type) := RuntimeTrackedRegion ι × List UInt8

/-- The body from offset `p` on, cut into the regions' blocks. -/
def bodyBlocks (buf : List UInt8) : List (RuntimeTrackedRegion ι) → Nat → List (RegionBlock ι)
  | [], _ => []
  | r :: rs, p => (r, (buf.drop p).take r.size.toNat) :: bodyBlocks buf rs (p + r.size.toNat)

/-- A block handed to its region's `load`. -/
def loadItem (b : RegionBlock ι) : Item ι (List UInt8) := .returns (some ⟨b.1.storage, b.1.load b.2⟩)

/-- The body walk of `save_state_load` as a commit pass: the two offset tests
turn it down without touching a region. -/
def loadItems (buf : List UInt8) (stop : Nat) :
    List (RuntimeTrackedRegion ι) → Nat → List (Item ι (List UInt8))
  | [], p => if p = stop then [] else [.returns none]
  | r :: rs, p =>
    if p + r.size.toNat > stop then [.returns none]
    else loadItem (r, (buf.drop p).take r.size.toNat) :: loadItems buf stop rs (p + r.size.toNat)

theorem loadItems_cells (buf : List UInt8) (stop : Nat) (rs : List (RuntimeTrackedRegion ι)) (p : Nat) :
    (cells (loadItems buf stop rs p)).Sublist (rs.map RuntimeTrackedRegion.storage) := by
  induction rs generalizing p with
  | nil =>
    unfold loadItems
    split <;> exact List.Sublist.slnil
  | cons r rs ih =>
    unfold loadItems
    split
    · exact List.nil_sublist _
    · exact (ih _).cons_cons r.storage

theorem loadItems_distinct (R : Registry ι) (buf : List UInt8) (stop p : Nat) :
    (cells (loadItems buf stop R.regions p)).Nodup :=
  (loadItems_cells buf stop R.regions p).nodup R.distinct

theorem loadItems_exact (buf : List UInt8) {rs : List (RuntimeTrackedRegion ι)} {p stop : Nat}
    (exact : p + bodySize rs = stop) : loadItems buf stop rs p = (bodyBlocks buf rs p).map loadItem := by
  induction rs generalizing p with
  | nil =>
    rw [bodySize_nil, Nat.add_zero] at exact
    rw [loadItems, if_pos exact]
    rfl
  | cons r rs ih =>
    rw [bodySize_cons] at exact
    have fits : ¬p + r.size.toNat > stop := by omega
    rw [loadItems, if_neg fits, ih (by omega)]
    rfl

theorem bodyBlocks_length {buf : List UInt8} {rs : List (RuntimeTrackedRegion ι)} {p : Nat}
    (within : p + bodySize rs ≤ buf.length) {b : RegionBlock ι} (member : b ∈ bodyBlocks buf rs p) :
    b.1 ∈ rs ∧ b.2.length = b.1.size.toNat := by
  induction rs generalizing p with
  | nil => simp [bodyBlocks] at member
  | cons r rs ih =>
    rw [bodySize_cons] at within
    rcases List.mem_cons.mp member with rfl | later
    · refine ⟨List.mem_cons_self, ?_⟩
      rw [List.length_take, List.length_drop]
      exact min_eq_left (by omega)
    · obtain ⟨known, length⟩ := ih (by omega) later
      exact ⟨List.mem_cons_of_mem _ known, length⟩

section
variable [DecidableEq ι]

theorem loadRegions_eq_walk (buf : List UInt8) (stop : Nat) (rs : List (RuntimeTrackedRegion ι)) (p : Nat)
    (st : ι → List UInt8) :
    walk (loadItems buf stop rs p) st = .returns (loadRegions buf stop rs p st) := by
  induction rs generalizing p st with
  | nil =>
    unfold loadItems loadRegions
    by_cases done : p = stop <;> simp [done, walk]
  | cons r rs ih =>
    unfold loadItems loadRegions
    by_cases long : p + r.size.toNat > stop
    · rw [if_pos long, if_pos long]
      rfl
    · rw [if_neg long, if_neg long]
      simp only [loadItem, walk, ih]
      split <;> rfl

theorem loadRegions_frame (buf : List UInt8) (stop : Nat) (rs : List (RuntimeTrackedRegion ι)) (p : Nat)
    (st : ι → List UInt8) {c : ι} (other : c ∉ rs.map RuntimeTrackedRegion.storage) :
    (loadRegions buf stop rs p st).2 c = st c := by
  induction rs generalizing p st with
  | nil => rfl
  | cons r rs ih =>
    rw [List.map_cons, List.mem_cons, not_or] at other
    unfold loadRegions
    by_cases long : p + r.size.toNat > stop
    · rw [if_pos long]
    · rw [if_neg long]
      dsimp only
      split
      · rw [ih _ _ other.2, Function.update_of_ne other.1]
      · exact Function.update_of_ne other.1 ..

/-- The regions of a registry hold the same bytes in two states. -/
def SameRegions (R : Registry ι) (st st' : ι → List UInt8) : Prop :=
  ∀ r ∈ R.regions, st' r.storage = st r.storage

theorem loadRegions_same_iff {buf : List UInt8} {stop p : Nat} {st : ι → List UInt8} :
    SameRegions R st (loadRegions buf stop R.regions p st).2 ↔
      (loadRegions buf stop R.regions p st).2 = st := by
  constructor
  · intro same
    funext c
    by_cases owned : c ∈ R.regions.map RuntimeTrackedRegion.storage
    · obtain ⟨r, member, rfl⟩ := List.mem_map.mp owned
      exact same r member
    · exact loadRegions_frame _ _ _ _ _ owned
  · intro same r _
    exact congrFun same r.storage

/-- A failing `save_state_load` leaves every region alone exactly when, behind
an accepted header, the body walk refuses quietly if at all. -/
theorem saveStateLoad_failure_iff (rt : Runtime R) (buf : ByteSpan) :
    (∀ rt', saveStateLoad rt buf = .returns (false, rt') → SameRegions R rt.store rt'.store) ↔
      (HeaderAccepted R buf →
        QuietRefusal rt.store (loadItems buf.bytes (headerOf buf).totalSize.toNat R.regions 24)) := by
  rcases saveStateLoad_cases rt buf with ⟨accepted, rt', store, _, run⟩ | ⟨rejected, quiet⟩
  · rw [run]
    have outcome := walk_false_unchanged_iff rt.store
      (loadItems_distinct R buf.bytes (headerOf buf).totalSize.toNat 24)
    rw [loadRegions_eq_walk] at outcome
    simp only [accepted, true_implies]
    rw [← outcome]
    constructor
    · intro same st' done
      have both := Exec.returns.inj done
      have state : _ = st' := congrArg Prod.snd both
      rw [← state]
      refine loadRegions_same_iff.mp ?_
      rw [← store]
      exact same rt' (by rw [both])
    · intro same rt'' done
      obtain ⟨flag, rfl⟩ := Prod.mk.inj (Exec.returns.inj done)
      rw [store]
      exact loadRegions_same_iff.mpr (same _ (congrArg Exec.returns (Prod.ext flag rfl)))
  · refine iff_of_true ?_ fun accepted => absurd accepted rejected
    intro rt' done
    rcases quiet with ⟨_, spins⟩ | ⟨rt'', store, run⟩
    · rw [spins] at done
      cases done
    · rw [run] at done
      cases done
      exact fun r _ => congrFun store r.storage
end

end Blyt
