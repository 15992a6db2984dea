import Mathlib.Data.List.TakeWhile

/-! Lists walked run by run, a run being neighbours with the same key. -/

namespace Runs
variable {κ : Type*}

/-- Equal keys stand together. -/
def Together (keys : List κ) : Prop :=
  ∀ (i j k : Nat) (x : κ), i ≤ j → j ≤ k → keys[i]? = some x → keys[k]? = some x → keys[j]? = some x

theorem Together.behind {front keys : List κ} (together : Together (front ++ keys)) : Together keys := by
  intro i j k x lower upper first last
  have shift : ∀ n, (front ++ keys)[front.length + n]? = keys[n]? := fun n => by
    rw [List.getElem?_append_right (Nat.le_add_right ..), Nat.add_sub_cancel_left]
  rw [← shift] at first last ⊢
  exact together _ _ _ x (by omega) (by omega) first last

theorem together_replicate (n : Nat) (x : κ) : Together (List.replicate n x) := by
  intro i j k y _ upper first last
  rw [List.getElem?_replicate] at first last ⊢
  split at first
  · split at last
    · rwa [if_pos (by omega)]
    · cases last
  · cases first

/-- Behind a run its key does not come again. -/
theorem Together.not_mem_later [DecidableEq κ] {x : κ} {keys : List κ} (together : Together (x :: keys)) :
    x ∉ keys.dropWhile (· = x) := by
  cases later : keys.dropWhile (· = x) with
  | nil => exact List.not_mem_nil
  | cons y rest =>
    have other : y ≠ x := by
      have head := List.head?_dropWhile_not (· = x) keys
      rw [later] at head
      simpa using head
    have whole : keys = keys.takeWhile (· = x) ++ y :: rest := by rw [← later, List.takeWhile_append_dropWhile]
    intro member
    obtain ⟨k, inside, here⟩ := List.mem_iff_getElem.mp ((List.mem_cons.mp member).resolve_left (Ne.symm other))
    rw [whole, ← List.cons_append] at together
    have at_y : (x :: keys.takeWhile (· = x) ++ y :: rest)[(keys.takeWhile (· = x)).length + 1]? = some y := by
      rw [List.getElem?_append_right (by simp)]
      simp
    have at_k : (x :: keys.takeWhile (· = x) ++ y :: rest)[(keys.takeWhile (· = x)).length + 1 + (k + 1)]? = some x := by
      rw [List.getElem?_append_right (by simp), List.length_cons, Nat.add_sub_cancel_left, List.getElem?_cons_succ,
        List.getElem?_eq_getElem inside, here]
    have same := together 0 _ _ x (Nat.zero_le _) (Nat.le_add_right ..) rfl at_k
    rw [at_y, Option.some.injEq] at same
    exact other same

end Runs
