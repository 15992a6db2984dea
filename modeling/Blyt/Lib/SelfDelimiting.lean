import Mathlib.Data.List.Basic

/-! Texts that tell where they end. -/

universe u v w x

namespace SelfDelimiting
variable {α : Type u} {β : Type v} {κ : Type w} {μ : Type x}

/-- Whatever stands behind the text of a `P`, the `key` can be read off it, and so can what stands behind. -/
def Reads (P : α → Prop) (text : α → List β) (key : α → κ) : Prop :=
  ∀ a b us vs, P a → P b → text a ++ us = text b ++ vs → key a = key b ∧ us = vs

variable {P : α → Prop} {text text' : α → List β} {key : α → κ} {key' : α → μ}

theorem Reads.fixed (mark : List β) : Reads P (fun _ => mark) fun _ => () :=
  fun _ _ _ _ _ _ same => ⟨rfl, List.append_cancel_left same⟩

/-- The first separator is where the text in front of it ends. -/
theorem separated_cut {sep : β} {xs ys us vs : List β} (left : sep ∉ xs) (right : sep ∉ ys)
    (same : xs ++ sep :: us = ys ++ sep :: vs) : xs = ys ∧ us = vs := by
  induction xs generalizing ys with
  | nil =>
    cases ys with
    | nil => exact ⟨rfl, (List.cons.inj same).2⟩
    | cons y ys => exact absurd (List.mem_cons.mpr (.inl (List.cons.inj same).1)) right
  | cons x xs ih =>
    cases ys with
    | nil => exact absurd (List.mem_cons.mpr (.inl (List.cons.inj same).1.symm)) left
    | cons y ys =>
      obtain ⟨rfl, behind⟩ := List.cons.inj same
      rw [List.mem_cons, not_or] at left right
      obtain ⟨rfl, rest⟩ := ih left.2 right.2 behind
      exact ⟨rfl, rest⟩

/-- A separator that stands nowhere in the text ends it. -/
theorem Reads.separated {sep : β} (apart : ∀ a, P a → sep ∉ text a)
    (injective : ∀ a b, text a = text b → key a = key b) : Reads P (fun a => text a ++ [sep]) key := by
  intro a b us vs left right same
  rw [List.append_assoc, List.append_assoc] at same
  obtain ⟨texts, rest⟩ := separated_cut (apart a left) (apart b right) same
  exact ⟨injective a b texts, rest⟩

theorem Reads.append (first : Reads P text key) (second : Reads P text' key') :
    Reads P (fun a => text a ++ text' a) fun a => (key a, key' a) := by
  intro a b us vs left right same
  rw [List.append_assoc, List.append_assoc] at same
  obtain ⟨keys, behind⟩ := first a b _ _ left right same
  obtain ⟨keys', rest⟩ := second a b us vs left right behind
  exact ⟨Prod.ext keys keys', rest⟩

/-- A sequence of texts that are not empty determines the keys. -/
theorem Reads.sequence (reads : Reads P text key) (some : ∀ a, text a ≠ []) {as bs : List α} (left : ∀ a ∈ as, P a)
    (right : ∀ b ∈ bs, P b) (same : as.flatMap text = bs.flatMap text) : as.map key = bs.map key := by
  induction as generalizing bs with
  | nil =>
    cases bs with
    | nil => rfl
    | cons b bs => exact absurd (List.append_eq_nil_iff.mp same.symm).1 (some b)
  | cons a as ih =>
    cases bs with
    | nil => exact absurd (List.append_eq_nil_iff.mp same).1 (some a)
    | cons b bs =>
      obtain ⟨first, left⟩ := List.forall_mem_cons.mp left
      obtain ⟨first', right⟩ := List.forall_mem_cons.mp right
      obtain ⟨keys, rest⟩ := reads a b _ _ first first' same
      rw [List.map_cons, List.map_cons, keys, ih left right rest]

end SelfDelimiting
