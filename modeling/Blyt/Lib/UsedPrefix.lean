import Mathlib.Data.List.FinRange

namespace UsedPrefix
universe u
variable {α : Type u} {n : Nat}

/-- The first `k` elements of an array, the ones in use. -/
def used (a : Fin n → α) (k : Nat) : List α := (List.ofFn a).take k

/-- `a[k] = x`. -/
def store (a : Fin n → α) (k : Nat) (x : α) : Fin n → α := fun j => if j.val = k then x else a j

/-- One turn of the loop that moves what it keeps to the front: `a[out++] = a[i]`. -/
def compactStep (keep : α → Bool) (s : (Fin n → α) × Nat) (i : Fin n) : (Fin n → α) × Nat :=
  if keep (s.1 i) then (store s.1 s.2 (s.1 i), s.2 + 1) else s

/-- The first `k` elements compacted in place, and how many were kept. What lies behind them
stays. -/
def compact (keep : α → Bool) (a : Fin n → α) (k : Nat) : (Fin n → α) × Nat :=
  ((List.finRange n).take k).foldl (compactStep keep) (a, 0)

theorem used_length {a : Fin n → α} {k : Nat} (within : k ≤ n) : (used a k).length = k := by
  simpa [used] using within

theorem used_succ (a : Fin n → α) {k : Nat} (room : k < n) : used a (k + 1) = used a k ++ [a ⟨k, room⟩] := by
  rw [used, used, List.take_succ_eq_append_getElem (by simpa using room)]
  simp

theorem used_store_of_le {a : Fin n → α} {k j : Nat} (x : α) (behind : j ≤ k) : used (store a k x) j = used a j := by
  refine List.ext_getElem (by simp [used]) fun i here inside => ?_
  have before : i ≠ k := by
    simp only [used, List.length_take, List.length_ofFn] at here
    omega
  simp [used, store, before]

theorem used_store (a : Fin n → α) {k : Nat} (x : α) (room : k < n) :
    used (store a k x) (k + 1) = used a k ++ [x] := by
  rw [used_succ _ room, used_store_of_le x (le_refl k)]
  simp [store]

/-- After `k` turns: what is kept lies in front, and nothing from `k` on has changed. -/
theorem compact_turns (keep : α → Bool) (a : Fin n → α) {k : Nat} (within : k ≤ n) :
    (compact keep a k).2 ≤ k ∧ (∀ j : Fin n, k ≤ j.val → (compact keep a k).1 j = a j) ∧
      used (compact keep a k).1 (compact keep a k).2 = (used a k).filter keep := by
  induction k with
  | zero => exact ⟨le_refl 0, fun _ _ => rfl, rfl⟩
  | succ k ih =>
    obtain ⟨bound, behind, front⟩ := ih (by omega)
    have room : k < (List.finRange n).length := by
      rw [List.length_finRange]
      omega
    have turn : compact keep a (k + 1) = compactStep keep (compact keep a k) ⟨k, within⟩ := by
      rw [compact, List.take_succ_eq_append_getElem room, List.foldl_append]
      simp [compact]
    have here : (compact keep a k).1 ⟨k, within⟩ = a ⟨k, within⟩ := behind _ (le_refl k)
    rw [turn, compactStep, here, used_succ a within, List.filter_append]
    by_cases kept : keep (a ⟨k, within⟩) = true
    · rw [if_pos kept, used_store _ _ (by omega), front]
      refine ⟨by dsimp only; omega, fun j above => ?_, by simp [kept]⟩
      have apart : j.val ≠ (compact keep a k).2 := by omega
      exact (if_neg apart).trans (behind j (by omega))
    · rw [if_neg kept, front]
      exact ⟨by omega, fun j above => behind j (by omega), by simp [kept]⟩

theorem used_compact (keep : α → Bool) (a : Fin n → α) {k : Nat} (within : k ≤ n) :
    used (compact keep a k).1 (compact keep a k).2 = (used a k).filter keep :=
  (compact_turns keep a within).2.2

theorem compact_le (keep : α → Bool) (a : Fin n → α) {k : Nat} (within : k ≤ n) : (compact keep a k).2 ≤ k :=
  (compact_turns keep a within).1

end UsedPrefix
