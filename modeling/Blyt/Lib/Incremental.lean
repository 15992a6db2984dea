import Mathlib.Data.List.Basic

/-! Messages read off a stream that comes in pieces. -/

namespace Incremental
universe u v w
variable {α : Type u} {β : Type v} {γ : Type w}

/-- What takes a message off the front of a buffer, once it is there. More behind it makes no difference. -/
structure Framing (α : Type u) (β : Type v) where
  next : List α → Option (β × List α)
  shorter : ∀ {b x rest}, next b = some (x, rest) → rest.length < b.length
  stable : ∀ {b x rest}, next b = some (x, rest) → ∀ more, next (b ++ more) = some (x, rest ++ more)

namespace Framing
variable {r : Framing α β} {b : List α}

/-- All messages of a buffer, and what is left. -/
def drain (r : Framing α β) (b : List α) : List β × List α :=
  match _met : r.next b with
  | none => ([], b)
  | some (x, rest) => (x :: (r.drain rest).1, (r.drain rest).2)
  termination_by b.length
  decreasing_by all_goals exact r.shorter ‹_›

theorem drain_none (none : r.next b = none) : r.drain b = ([], b) := by
  rw [drain]
  split
  · rfl
  · rename_i met
    cases none.symm.trans met

theorem drain_some {x : β} {rest : List α} (met : r.next b = some (x, rest)) :
    r.drain b = (x :: (r.drain rest).1, (r.drain rest).2) := by
  rw [drain]
  split
  · rename_i none
    cases none.symm.trans met
  · rename_i met'
    cases met.symm.trans met'
    rfl

/-- What arrives behind a buffer is read with what is left of it. -/
theorem drain_append (b more : List α) :
    r.drain (b ++ more) =
      ((r.drain b).1 ++ (r.drain ((r.drain b).2 ++ more)).1, (r.drain ((r.drain b).2 ++ more)).2) := by
  cases met : r.next b with
  | none => rw [drain_none met, List.nil_append]
  | some found =>
    obtain ⟨x, rest⟩ := found
    have decreasing := r.shorter met
    have behind := drain_append rest more
    rw [drain_some met, drain_some (r.stable met more), behind, List.cons_append]
  termination_by b.length

/-- A piece is put behind what was left, and what is there by now is read. -/
def feed (r : Framing α β) (s : List β × List α) (piece : List α) : List β × List α :=
  (s.1 ++ (r.drain (s.2 ++ piece)).1, (r.drain (s.2 ++ piece)).2)

theorem foldl_feed (b : List α) (pieces : List (List α)) :
    pieces.foldl r.feed (r.drain b) = r.drain (b ++ pieces.flatten) := by
  induction pieces generalizing b with
  | nil => rw [List.flatten_nil, List.append_nil, List.foldl_nil]
  | cons piece pieces ih =>
    have first : r.feed (r.drain b) piece = r.drain (b ++ piece) := (drain_append b piece).symm
    rw [List.foldl_cons, first, ih, List.flatten_cons, List.append_assoc]

/-- How the stream is cut makes no difference. -/
theorem foldl_feed_flatten (empty : r.next [] = none) (pieces : List (List α)) :
    pieces.foldl r.feed ([], []) = r.drain pieces.flatten := by
  have start : ([], []) = r.drain [] := (drain_none empty).symm
  rw [start, foldl_feed, List.nil_append]

variable {text : γ → List α} {value : γ → β}

/-- Texts that are whole, and what is behind them. -/
theorem drain_flatMap (whole : ∀ m more, r.next (text m ++ more) = some (value m, more)) (ms : List γ) (tail : List α) :
    r.drain (ms.flatMap text ++ tail) = (ms.map value ++ (r.drain tail).1, (r.drain tail).2) := by
  induction ms with
  | nil => rfl
  | cons m ms ih =>
    rw [List.flatMap_cons, List.append_assoc, drain_some (whole m _), ih]
    rfl

/-- A text that is not whole yet is waited for. -/
theorem next_partial (whole : ∀ m more, r.next (text m ++ more) = some (value m, more)) {m : γ} {tail : List α}
    (front : tail <+: text m) (short : tail ≠ text m) : r.next tail = none := by
  obtain ⟨missing, split⟩ := front
  cases met : r.next tail with
  | none => rfl
  | some found =>
    obtain ⟨x, rest⟩ := found
    have extended := r.stable met missing
    have all := whole m []
    rw [List.append_nil, ← split, extended] at all
    obtain ⟨-, nothing⟩ := Prod.mk.inj (Option.some.inj all)
    obtain ⟨-, rfl⟩ := List.append_eq_nil_iff.mp nothing
    exact absurd ((List.append_nil tail).symm.trans split) short

end Framing

/-- A beginning of some texts: those that are whole, and a part of the next. -/
theorem prefix_flatMap {text : γ → List α} {ms : List γ} {part : List α} (front : part <+: ms.flatMap text) :
    ∃ k tail, part = (ms.take k).flatMap text ++ tail ∧
      (k = ms.length ∧ tail = [] ∨ ∃ m, ms[k]? = some m ∧ tail <+: text m ∧ tail ≠ text m) := by
  induction ms generalizing part with
  | nil => exact ⟨0, [], List.prefix_nil.mp front, .inl ⟨rfl, rfl⟩⟩
  | cons m ms ih =>
    rw [List.flatMap_cons] at front
    by_cases here : text m <+: part
    · obtain ⟨behind, rfl⟩ := here
      obtain ⟨k, tail, rfl, alternative⟩ := ih ((List.prefix_append_right_inj _).mp front)
      refine ⟨k + 1, tail, ?_, alternative.imp_left fun whole => ⟨congrArg Nat.succ whole.1, whole.2⟩⟩
      rw [List.take_succ_cons, List.flatMap_cons, List.append_assoc]
    · have within : part <+: text m := by
        rcases List.prefix_or_prefix_of_prefix front (List.prefix_append (text m) _) with within | longer
        · exact within
        · exact absurd longer here
      exact ⟨0, part, rfl, .inr ⟨m, rfl, within, fun same => here (same ▸ List.prefix_rfl)⟩⟩

/-- Of a beginning of some texts, the messages that are whole come out, and the part of the next is kept. -/
theorem Framing.drain_prefix {r : Framing α β} {text : γ → List α} {value : γ → β} (empty : r.next [] = none)
    (whole : ∀ m more, r.next (text m ++ more) = some (value m, more)) {ms : List γ} {part : List α}
    (front : part <+: ms.flatMap text) :
    ∃ k tail, part = (ms.take k).flatMap text ++ tail ∧ r.drain part = ((ms.take k).map value, tail) ∧
      (k = ms.length ∧ tail = [] ∨ ∃ m, ms[k]? = some m ∧ tail <+: text m ∧ tail ≠ text m) := by
  obtain ⟨k, tail, rfl, alternative⟩ := prefix_flatMap front
  have waits : r.next tail = none := by
    rcases alternative with ⟨-, rfl⟩ | ⟨m, -, within, short⟩
    · exact empty
    · exact next_partial whole within short
  refine ⟨k, tail, rfl, ?_, alternative⟩
  rw [drain_flatMap whole, drain_none waits, List.append_nil]

end Incremental
