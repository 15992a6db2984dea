import Mathlib.Data.List.FinRange

namespace FirstFit
variable {n : Nat}

def firstFree (busy : Fin n → Bool) : Option (Fin n) := (List.finRange n).find? fun s => !busy s

def busySlots (busy : Fin n → Bool) : List (Fin n) := (List.finRange n).filter busy

/-- No free slot lies below a busy one. -/
def Dense (busy : Fin n → Bool) : Prop := ∀ s t, s ≤ t → busy t = true → busy s = true

/-- The first `k` slots are busy and no others. -/
def Filled (busy : Fin n → Bool) (k : Nat) : Prop := ∀ s, busy s = decide (s.val < k)

instance (busy : Fin n → Bool) : Decidable (Dense busy) := by
  unfold Dense
  infer_instance

theorem mem_busySlots {busy : Fin n → Bool} {s : Fin n} : s ∈ busySlots busy ↔ busy s = true := by
  simp [busySlots]

theorem firstFree_of_filled {busy : Fin n → Bool} {k : Nat} (filled : Filled busy k) (room : k < n) :
    firstFree busy = some ⟨k, room⟩ := by
  rw [firstFree, List.find?_eq_some_iff_getElem]
  refine ⟨by simp [filled _], k, by simpa using room, by simp, fun j below => ?_⟩
  simp [filled _, below]

theorem firstFree_eq_none_iff {busy : Fin n → Bool} : firstFree busy = none ↔ ∀ s, busy s = true := by
  rw [firstFree, List.find?_eq_none]
  simp

/-- The first free slot is free, and there is none below it. -/
theorem firstFree_eq_some {busy : Fin n → Bool} {s : Fin n} (first : firstFree busy = some s) :
    busy s = false ∧ ∀ t, busy t = false → s ≤ t := by
  rw [firstFree, List.find?_eq_some_iff_getElem] at first
  obtain ⟨free, i, inside, here, below⟩ := first
  have index : i = s.val := by simpa using congrArg Fin.val here
  refine ⟨by simpa using free, fun t freeToo => ?_⟩
  by_contra above
  have taken := below t.val (by omega)
  simp [freeToo] at taken

theorem filled_zero : Filled (fun _ : Fin n => false) 0 := fun s => by simp

theorem Filled.next {busy : Fin n → Bool} {k : Nat} (filled : Filled busy k) (room : k < n) :
    Filled (Function.update busy ⟨k, room⟩ true) (k + 1) := by
  intro s
  by_cases same : s = ⟨k, room⟩
  · subst same
    simp
  · have apart : s.val ≠ k := fun eq => same (Fin.ext eq)
    rw [Function.update_of_ne same, filled]
    simp only [decide_eq_decide]
    omega

/-- A filter keeps a prefix exactly when nothing it drops comes before something it keeps. -/
theorem filter_prefix_iff {α : Type*} (p : α → Bool) (l : List α) :
    l.filter p <+: l ↔ l.Pairwise fun a b => p b = true → p a = true := by
  induction l with
  | nil => simp
  | cons a l ih =>
    rw [List.pairwise_cons]
    by_cases keep : p a = true
    · rw [List.filter_cons_of_pos keep, List.cons_prefix_cons, ih]
      simp [keep]
    · rw [List.filter_cons_of_neg keep]
      constructor
      · intro front
        have none : l.filter p = [] := by
          cases kept : l.filter p with
          | nil => rfl
          | cons b rest =>
            rw [kept, List.cons_prefix_cons] at front
            have member : b ∈ l.filter p := kept ▸ List.mem_cons_self
            exact absurd (front.1 ▸ (List.mem_filter.mp member).2) keep
        rw [none] at ih
        exact ⟨fun b member holds => absurd holds (List.filter_eq_nil_iff.mp none b member),
          ih.mp (List.nil_prefix)⟩
      · rintro ⟨first, -⟩
        have none : l.filter p = [] := List.filter_eq_nil_iff.mpr fun b member holds => keep (first b member holds)
        rw [none]
        exact List.nil_prefix

theorem busySlots_prefix_iff (busy : Fin n → Bool) : busySlots busy <+: List.finRange n ↔ Dense busy := by
  rw [busySlots, filter_prefix_iff, List.pairwise_iff_getElem]
  constructor
  · intro ordered s t le holds
    rcases Nat.lt_or_eq_of_le le with below | same
    · simpa using ordered s.val t.val (by simp) (by simp) below (by simpa using holds)
    · rwa [Fin.ext same]
  · intro dense i j hi hj below holds
    simp only [List.getElem_finRange] at holds ⊢
    exact dense _ _ (Fin.mk_le_mk.mpr (by simpa using below.le)) holds

theorem busySlots_eq_range_iff (busy : Fin n → Bool) :
    (busySlots busy).map Fin.val = List.range (busySlots busy).length ↔ Dense busy := by
  have bound : (busySlots busy).length ≤ n := (List.length_filter_le _ _).trans_eq List.length_finRange
  rw [← busySlots_prefix_iff, ← List.prefix_map_iff_of_injective Fin.val_injective, List.map_coe_finRange_eq_range,
    List.prefix_iff_eq_take, List.length_map, List.take_range, min_eq_left bound]

end FirstFit
