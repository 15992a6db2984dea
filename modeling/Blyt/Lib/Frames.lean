import Mathlib.Data.List.Forall2
import Mathlib.Data.List.TakeWhile

/-! Frames in a stream, and a reader with a bounded buffer. -/

universe u v

namespace Frames

/-- A frame is a start mark, a payload, a stop mark and a trailer of fixed length. A reader stores at
most `room` elements of the payload. -/
structure Format (α : Type u) where
  start : α
  stop : α
  room : Nat
  trailer : Nat

namespace Format
variable {α : Type u} [DecidableEq α] (f : Format α)

/-- What is stored of the stream behind a start mark. -/
def stored (s : List α) : List α := (s.take f.room).takeWhile (· ≠ f.stop)

/-- How much is taken for it, the stop mark included where it is met. -/
def taken (s : List α) : Nat := min (s.idxOf f.stop + 1) f.room

def read (s : List α) : Option (List α × List α) :=
  match s.dropWhile (· ≠ f.start) with
  | [] => none
  | _ :: s => if f.taken s + f.trailer ≤ s.length then some (f.stored s, s.drop (f.taken s + f.trailer)) else none

theorem read_shorter {s stored rest : List α} (done : f.read s = some (stored, rest)) : rest.length < s.length := by
  have suffix := (List.dropWhile_sublist (· ≠ f.start) (l := s)).length_le
  rw [read] at done
  split at done
  · cases done
  · rename_i mark behind found
    rw [found, List.length_cons] at suffix
    split at done
    · cases done
      rw [List.length_drop]
      omega
    · cases done

/-- What is read until the stream ends. -/
def readAll (s : List α) : List (List α) :=
  match _done : f.read s with
  | none => []
  | some (stored, rest) => stored :: readAll rest
  termination_by s.length
  decreasing_by exact f.read_shorter _done

def frame (payload trailer : List α) : List α := f.start :: (payload ++ f.stop :: trailer)

variable {f} {s payload trailer more : List α}

theorem readAll_of_none (ended : f.read s = none) : f.readAll s = [] := by
  rw [readAll]
  split
  · rfl
  · rename_i found
    rw [ended] at found
    cases found

theorem readAll_of_some {stored rest : List α} (done : f.read s = some (stored, rest)) :
    f.readAll s = stored :: f.readAll rest := by
  rw [readAll]
  split
  · rename_i ended
    rw [done] at ended
    cases ended
  · rename_i found
    rw [done] at found
    cases found
    rfl

theorem taken_of_no_room (full : f.room = 0) : f.taken s = 0 := by rw [taken, full, Nat.min_zero]

theorem stored_of_no_room (full : f.room = 0) : f.stored s = [] := by rw [stored, full, List.take_zero, List.takeWhile_nil]

theorem taken_cons_stop (space : 0 < f.room) : f.taken (f.stop :: s) = 1 := by
  rw [taken, List.idxOf_cons_self]
  omega

theorem stored_cons_stop : f.stored (f.stop :: s) = [] := by
  rw [stored]
  cases f.room with
  | zero => rfl
  | succ room => rw [List.take_succ_cons, List.takeWhile_cons_of_neg (by simp)]

theorem taken_cons_of_ne {c : α} (other : c ≠ f.stop) (space : 0 < f.room) :
    f.taken (c :: s) = taken { f with room := f.room - 1 } s + 1 := by
  rw [taken, taken, List.idxOf_cons_ne _ other]
  simp only
  omega

theorem stored_cons_of_ne {c : α} (other : c ≠ f.stop) (space : 0 < f.room) :
    f.stored (c :: s) = c :: stored { f with room := f.room - 1 } s := by
  obtain ⟨room, succ⟩ : ∃ room, f.room = room + 1 := ⟨f.room - 1, by omega⟩
  rw [stored, stored, succ, List.take_succ_cons, List.takeWhile_cons_of_pos (by simpa using other)]
  rfl

theorem read_append_of_not_mem {junk : List α} (none : f.start ∉ junk) : f.read (junk ++ s) = f.read s := by
  have skipped : (junk ++ s).dropWhile (· ≠ f.start) = s.dropWhile (· ≠ f.start) := by
    refine List.dropWhile_append_of_pos fun c inside => ?_
    rw [decide_eq_true_eq]
    rintro rfl
    exact none inside
  rw [read, read, skipped]

theorem readAll_append_of_not_mem {junk : List α} (none : f.start ∉ junk) : f.readAll (junk ++ s) = f.readAll s := by
  cases next : f.read s with
  | none => rw [readAll_of_none next, readAll_of_none ((read_append_of_not_mem none).trans next)]
  | some result => rw [readAll_of_some next, readAll_of_some ((read_append_of_not_mem none).trans next)]

theorem readAll_of_not_mem (none : f.start ∉ s) : f.readAll s = [] := by
  have nothing := readAll_append_of_not_mem (s := []) none
  rw [List.append_nil] at nothing
  rw [nothing, readAll_of_none rfl]

/-- Behind the payload comes the stop mark, so the payload alone tells how much is taken. -/
theorem taken_payload : f.taken (payload ++ f.stop :: more) = f.taken payload := by
  rw [taken, taken, List.idxOf_append]
  split
  · rfl
  · rename_i absent
    rw [List.idxOf_cons_self, List.idxOf_of_notMem absent, Nat.zero_add]

theorem stored_payload : f.stored (payload ++ f.stop :: more) = f.stored payload := by
  induction payload generalizing f with
  | nil => exact stored_cons_stop.trans (by simp [stored])
  | cons c payload ih =>
    rcases Nat.eq_zero_or_pos f.room with full | space
    · rw [stored_of_no_room full, stored_of_no_room full]
    by_cases stop : c = f.stop
    · subst stop
      rw [List.cons_append, stored_cons_stop, stored_cons_stop]
    · rw [List.cons_append, stored_cons_of_ne stop space, stored_cons_of_ne stop space]
      exact congrArg (c :: ·) (ih (f := { f with room := f.room - 1 }))

theorem taken_le (payload : List α) : f.taken payload ≤ payload.length + 1 := by
  have found := List.idxOf_le_length (a := f.stop) (l := payload)
  rw [taken]
  omega

/-- What the first read leaves of a frame. -/
def remains (f : Format α) (payload trailer : List α) : List α :=
  (payload ++ f.stop :: trailer).drop (f.taken payload + f.trailer)

theorem read_frame (payload more : List α) (sized : trailer.length = f.trailer) :
    f.read (f.frame payload trailer ++ more) = some (f.stored payload, f.remains payload trailer ++ more) := by
  have whole : f.frame payload trailer ++ more = f.start :: (payload ++ f.stop :: (trailer ++ more)) := by
    simp [frame]
  have inside := taken_le (f := f) payload
  have fits : f.taken payload + f.trailer ≤ (payload ++ f.stop :: trailer).length := by
    rw [List.length_append, List.length_cons, sized]
    omega
  have within : f.taken payload + f.trailer ≤ (payload ++ f.stop :: (trailer ++ more)).length := by
    simp only [List.length_append, List.length_cons] at fits ⊢
    omega
  have left : (payload ++ f.stop :: (trailer ++ more)).drop (f.taken payload + f.trailer) =
      f.remains payload trailer ++ more := by
    rw [remains, ← List.drop_append_of_le_length fits]
    simp
  rw [whole, read, List.dropWhile_cons_of_neg (by simp)]
  simp only [taken_payload, stored_payload, if_pos within, left]

/-- Where what is left of a frame has a start mark, it ends in a shorter frame. -/
theorem remains_cases (payload : List α) (marks : f.start ∉ f.stop :: trailer) :
    (f.start ∉ payload.drop (f.taken payload + f.trailer) ∧ f.start ∉ f.remains payload trailer) ∨
      f.start ∈ payload.drop (f.taken payload + f.trailer) ∧ ∃ junk shorter, f.start ∉ junk ∧
        shorter.length < payload.length ∧ f.remains payload trailer = junk ++ f.frame shorter trailer := by
  have split : f.remains payload trailer = payload.drop (f.taken payload + f.trailer) ++
      (f.stop :: trailer).drop (f.taken payload + f.trailer - payload.length) := List.drop_append
  by_cases inside : f.start ∈ payload.drop (f.taken payload + f.trailer)
  · right
    obtain ⟨junk, shorter, parts, none⟩ := List.eq_append_cons_of_mem inside
    have sizes := congrArg List.length parts
    rw [List.length_drop, List.length_append, List.length_cons] at sizes
    have all : f.taken payload + f.trailer - payload.length = 0 := by omega
    refine ⟨inside, junk, shorter, none, by omega, ?_⟩
    rw [split, parts, all, List.drop_zero, frame, List.append_assoc, List.cons_append]
  · left
    refine ⟨inside, ?_⟩
    rw [split, List.mem_append, not_or]
    exact ⟨inside, fun member => marks (List.mem_of_mem_drop member)⟩

/-- The reader comes to the end of every frame, whatever it has read of it. -/
theorem readAll_frame_append (sized : trailer.length = f.trailer) (marks : f.start ∉ f.stop :: trailer) :
    f.readAll (f.frame payload trailer ++ more) = f.readAll (f.frame payload trailer) ++ f.readAll more := by
  induction size : payload.length using Nat.strong_induction_on generalizing payload
  rename_i ih
  have first := read_frame payload more sized
  have alone := read_frame payload [] sized
  rw [List.append_nil, List.append_nil] at alone
  rw [readAll_of_some first, readAll_of_some alone, List.cons_append]
  refine congrArg (f.stored payload :: ·) ?_
  rcases remains_cases payload marks with ⟨-, none⟩ | ⟨-, junk, shorter, none, less, rest⟩
  · rw [readAll_append_of_not_mem none, readAll_of_not_mem none, List.nil_append]
  · rw [rest, List.append_assoc, readAll_append_of_not_mem none, readAll_append_of_not_mem none]
    exact ih shorter.length (size ▸ less) rfl

theorem readAll_frame (sized : trailer.length = f.trailer) (marks : f.start ∉ f.stop :: trailer) :
    ∃ spurious, f.readAll (f.frame payload trailer) = f.stored payload :: spurious ∧
      (spurious = [] ↔ f.start ∉ payload.drop (f.taken payload + f.trailer)) := by
  have alone := read_frame payload [] sized
  rw [List.append_nil, List.append_nil] at alone
  refine ⟨_, readAll_of_some alone, ?_⟩
  rcases remains_cases payload marks with ⟨clean, none⟩ | ⟨dirty, junk, shorter, none, -, rest⟩
  · exact iff_of_true (readAll_of_not_mem none) clean
  · refine iff_of_false ?_ (not_not_intro dirty)
    rw [rest, readAll_append_of_not_mem none, ← List.append_nil (f.frame shorter trailer),
      readAll_of_some (read_frame shorter [] sized)]
    exact List.cons_ne_nil _ _

theorem stored_eq_self_iff : f.stored payload = payload ↔ f.stop ∉ payload ∧ payload.length ≤ f.room := by
  rw [stored]
  constructor
  · intro whole
    have sizes := (List.takeWhile_sublist (· ≠ f.stop) (l := payload.take f.room)).length_le
    rw [whole, List.length_take] at sizes
    refine ⟨fun member => ?_, by omega⟩
    rw [← whole] at member
    simpa using List.mem_takeWhile_imp member
  · rintro ⟨none, fits⟩
    rw [List.take_of_length_le fits, List.takeWhile_eq_self_iff]
    intro c member
    rw [decide_eq_true_eq]
    rintro rfl
    exact none member

end Format

/-- Answers to each of some requests, one behind the other, are one to each where each request has
some answer. -/
theorem forall₂_flatMap_iff {α : Type u} {β : Type v} {R : α → β → Prop} {answers : α → List β}
    (some : ∀ a, answers a ≠ []) {as : List α} :
    List.Forall₂ R as (as.flatMap answers) ↔ ∀ a ∈ as, ∃ b, answers a = [b] ∧ R a b := by
  have many : ∀ as : List α, as.length ≤ (as.flatMap answers).length := by
    intro as
    induction as with
    | nil => exact Nat.le_refl _
    | cons a as ih =>
      have positive := List.length_pos_iff.mpr (some a)
      rw [List.flatMap_cons, List.length_append, List.length_cons]
      omega
  induction as with
  | nil => simp
  | cons a as ih =>
    obtain ⟨b, bs, answered⟩ := List.exists_cons_of_ne_nil (some a)
    rw [List.flatMap_cons, answered, List.cons_append, List.forall₂_cons, List.forall_mem_cons, answered]
    constructor
    · rintro ⟨first, rest⟩
      have sizes := rest.length_eq
      rw [List.length_append] at sizes
      have least := many as
      have single : bs = [] := List.eq_nil_of_length_eq_zero (by omega)
      subst single
      exact ⟨⟨b, rfl, first⟩, ih.mp rest⟩
    · rintro ⟨⟨b', single, first⟩, rest⟩
      cases single
      exact ⟨first, ih.mpr rest⟩

end Frames
