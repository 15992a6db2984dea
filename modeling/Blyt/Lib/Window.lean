import Blyt.Lib.Exec
import Mathlib.Data.List.TakeDrop

namespace Window
universe u
variable {α : Type u}

/-- Read `n` elements from offset `off` of an object. Nothing is touched when
`n` is zero, whatever the offset. -/
def readAt (object : List α) (off n : Nat) : Exec (List α) :=
  if n ≠ 0 ∧ off + n > object.length then .outOfBounds else .returns ((object.drop off).take n)

/-- Store `field` at offset `off` of an object. -/
def writeAt (object : List α) (off : Nat) (field : List α) : Exec (List α) :=
  if field.length ≠ 0 ∧ off + field.length > object.length then .outOfBounds
  else .returns (object.take off ++ field ++ object.drop (off + field.length))

theorem readAt_returns {object : List α} {off n : Nat} (fits : off + n ≤ object.length) :
    readAt object off n = .returns ((object.drop off).take n) := by
  rw [readAt, if_neg (by omega)]

theorem writeAt_returns {object : List α} {off : Nat} {field : List α}
    (fits : off + field.length ≤ object.length) :
    writeAt object off field = .returns (object.take off ++ field ++ object.drop (off + field.length)) := by
  rw [writeAt, if_neg (by omega)]

theorem readAt_length {object : List α} {off n : Nat} (fits : off + n ≤ object.length) :
    ((object.drop off).take n).length = n := by
  rw [List.length_take, List.length_drop]
  omega

theorem writeAt_length {object object' : List α} {off : Nat} {field : List α}
    (run : writeAt object off field = .returns object') : object'.length = object.length := by
  unfold writeAt at run
  split at run
  · cases run
  · rename_i fits
    cases run
    simp only [List.length_append, List.length_take, List.length_drop]
    by_cases empty : field.length = 0
    · omega
    · omega

theorem writeAt_window (object : List α) (off : Nat) (field : List α)
    (fits : off + field.length ≤ object.length) :
    ∃ object', writeAt object off field = .returns object' ∧ object'.length = object.length := by
  have run := writeAt_returns fits
  exact ⟨_, run, writeAt_length run⟩

/-- A store behind what is in an object. -/
theorem writeAt_behind {done tail field : List α} (space : field.length ≤ tail.length) :
    writeAt (done ++ tail) done.length field = .returns (done ++ field ++ tail.drop field.length) := by
  rw [writeAt_returns (by rw [List.length_append]; omega), List.take_left, List.drop_append, Nat.add_sub_cancel_left,
    List.drop_of_length_le (Nat.le_add_right _ _), List.nil_append]

/-- One element is stored. -/
theorem writeAt_cell (done : List α) (old new : α) (tail : List α) :
    writeAt (done ++ old :: tail) done.length [new] = .returns (done ++ new :: tail) := by
  have space : [new].length ≤ (old :: tail).length := Nat.succ_le_succ (Nat.zero_le _)
  rw [writeAt_behind space, List.append_assoc]
  rfl

theorem writeAt_outside {object : List α} {off : Nat} (outside : object.length ≤ off) (new : α) :
    writeAt object off [new] = .outOfBounds :=
  if_pos ⟨Nat.one_ne_zero, Nat.lt_succ_of_le outside⟩

/-- The `n` elements from `off` on. -/
def window (object : List α) (off n : Nat) : List α := (object.drop off).take n

/-- The object with `field` in its place from `off` on. -/
def overwrite (object : List α) (off : Nat) (field : List α) : List α :=
  object.take off ++ field ++ object.drop (off + field.length)

section
variable {object object' field : List α} {off off' n i : Nat}

theorem getElem?_window (inside : i < n) : (window object off n)[i]? = object[off + i]? := by
  rw [window, List.getElem?_take_of_lt inside, List.getElem?_drop]

theorem drop_eq_window_append (object : List α) (off n : Nat) :
    object.drop off = window object off n ++ object.drop (off + n) := by
  rw [window, ← List.drop_drop, List.take_append_drop]

theorem readAt_eq (object : List α) (off n : Nat) :
    readAt object off n = if n ≠ 0 → off + n ≤ object.length then .returns (window object off n) else .outOfBounds := by
  rw [readAt]
  by_cases fits : n ≠ 0 → off + n ≤ object.length
  · rw [if_pos fits, if_neg fun both => absurd (fits both.1) (Nat.not_le.mpr both.2)]
    rfl
  · rw [if_neg fits, if_pos ⟨(Classical.not_imp.mp fits).1, Nat.not_le.mp (Classical.not_imp.mp fits).2⟩]

theorem writeAt_eq (object : List α) (off : Nat) (field : List α) :
    writeAt object off field = if field.length ≠ 0 → off + field.length ≤ object.length then
      .returns (overwrite object off field) else .outOfBounds := by
  rw [writeAt]
  by_cases fits : field.length ≠ 0 → off + field.length ≤ object.length
  · rw [if_pos fits, if_neg fun both => absurd (fits both.1) (Nat.not_le.mpr both.2)]
    rfl
  · rw [if_neg fits, if_pos ⟨(Classical.not_imp.mp fits).1, Nat.not_le.mp (Classical.not_imp.mp fits).2⟩]

theorem length_window (fits : n ≠ 0 → off + n ≤ object.length) : (window object off n).length = n := by
  rw [window, List.length_take, List.length_drop]
  by_cases empty : n = 0
  · omega
  · have inside := fits empty
    omega

theorem window_append (fits : n ≠ 0 → off + n ≤ object.length) (tail : List α) :
    window (object ++ tail) off n = window object off n := by
  by_cases empty : n = 0
  · rw [empty, window, window, List.take_zero, List.take_zero]
  · have inside := fits empty
    rw [window, window, List.drop_append_of_le_length (by omega),
      List.take_append_of_le_length (by rw [List.length_drop]; omega)]

theorem overwrite_append (fits : off + field.length ≤ object.length) (tail : List α) :
    overwrite (object ++ tail) off field = overwrite object off field ++ tail := by
  rw [overwrite, overwrite, List.take_append_of_le_length (by omega), List.drop_append_of_le_length fits,
    List.append_assoc _ _ tail]

theorem window_congr (same : ∀ i < n, object[off + i]? = object'[off' + i]?) :
    window object off n = window object' off' n := by
  refine List.ext_getElem? fun i => ?_
  rcases Nat.lt_or_ge i n with inside | behind
  · rw [getElem?_window inside, getElem?_window inside, same i inside]
  · rw [window, window, List.getElem?_take_eq_none behind, List.getElem?_take_eq_none behind]

theorem length_overwrite (fits : off + field.length ≤ object.length) : (overwrite object off field).length = object.length := by
  simp only [overwrite, List.length_append, List.length_take, List.length_drop]
  omega

theorem getElem?_overwrite_inside (fits : off + field.length ≤ object.length) (inside : i < field.length) :
    (overwrite object off field)[off + i]? = field[i]? := by
  have front : (object.take off).length = off := List.length_take_of_le (by omega)
  rw [overwrite, List.append_assoc, List.getElem?_append_right (by omega), front, Nat.add_sub_cancel_left,
    List.getElem?_append_left inside]

theorem getElem?_overwrite_outside (fits : off + field.length ≤ object.length)
    (outside : ¬(off ≤ i ∧ i < off + field.length)) : (overwrite object off field)[i]? = object[i]? := by
  have front : (object.take off).length = off := List.length_take_of_le (by omega)
  rcases Nat.lt_or_ge i off with before | behind
  · rw [overwrite, List.append_assoc, List.getElem?_append_left (by omega), List.getElem?_take_of_lt before]
  · have past : (object.take off ++ field).length ≤ i := by
      rw [List.length_append]
      omega
    rw [overwrite, List.getElem?_append_right past, List.getElem?_drop, List.length_append, front]
    congr 1
    omega

theorem window_overwrite (fits : off + field.length ≤ object.length) :
    window (overwrite object off field) off field.length = field := by
  refine List.ext_getElem? fun i => ?_
  rcases Nat.lt_or_ge i field.length with inside | behind
  · rw [getElem?_window inside, getElem?_overwrite_inside fits inside]
  · rw [window, List.getElem?_take_eq_none behind, List.getElem?_eq_none behind]

/-- What is there already may be written again. -/
theorem overwrite_window (fits : off + n ≤ object.length) : overwrite object off (window object off n) = object := by
  have length : (window object off n).length = n := by
    rw [window, List.length_take, List.length_drop]
    omega
  rw [overwrite, length, window, List.append_assoc, ← List.drop_drop, List.take_append_drop, List.take_append_drop]

/-- What is not written to stays. -/
theorem window_overwrite_apart (fits : off + field.length ≤ object.length)
    (apart : ∀ i, off' ≤ i → i < off' + n → ¬(off ≤ i ∧ i < off + field.length)) :
    window (overwrite object off field) off' n = window object off' n :=
  window_congr fun i inside => getElem?_overwrite_outside fits (apart (off' + i) (Nat.le_add_right ..) (by omega))

end

theorem readAt_append {object : List α} {off n : Nat} (fits : off + n ≤ object.length) (tail : List α) :
    readAt (object ++ tail) off n = readAt object off n := by
  have longer : off + n ≤ (object ++ tail).length := by rw [List.length_append]; omega
  rw [readAt_returns fits, readAt_returns longer, List.drop_append_of_le_length (by omega),
    List.take_append_of_le_length (by rw [List.length_drop]; omega)]

theorem writeAt_append {object : List α} {off : Nat} {field : List α}
    (fits : off + field.length ≤ object.length) (tail : List α) :
    writeAt (object ++ tail) off field = writeAt object off field >>= fun out => .returns (out ++ tail) := by
  have longer : off + field.length ≤ (object ++ tail).length := by rw [List.length_append]; omega
  rw [writeAt_returns fits, writeAt_returns longer, Exec.returns_bind,
    List.take_append_of_le_length (by omega), List.drop_append_of_le_length (by omega), List.append_assoc _ _ tail]

section
variable {β : Type u} {source object tail : List α} {off off' n : Nat}

/-- A field is copied from one object into the front of another. -/
theorem copy_append (front : (n ≠ 0 → off' + n ≤ (object ++ tail).length) → off' + n ≤ object.length)
    (k : List α → Exec β) :
    (readAt source off n >>= fun field => writeAt (object ++ tail) off' field >>= k) =
      if (n ≠ 0 → off + n ≤ source.length) ∧ (n ≠ 0 → off' + n ≤ (object ++ tail).length) then
        k (overwrite object off' (window source off n) ++ tail)
      else .outOfBounds := by
  rw [readAt_eq]
  by_cases readable : n ≠ 0 → off + n ≤ source.length
  · have width := length_window readable
    rw [if_pos readable, Exec.returns_bind, writeAt_eq, width]
    by_cases writable : n ≠ 0 → off' + n ≤ (object ++ tail).length
    · rw [if_pos writable, if_pos ⟨readable, writable⟩, Exec.returns_bind,
        overwrite_append (by rw [width]; exact front writable)]
    · rw [if_neg writable, if_neg fun both => writable both.2]
      rfl
  · rw [if_neg readable, if_neg fun both => readable both.1]
    rfl

/-- A field in the front of an object is made anew from what it holds and what another object has. -/
theorem remake_append {m : Nat} {make : List α → List α → List α} (width : ∀ old new, (make old new).length = new.length)
    (front : (m ≠ 0 → off' + m ≤ (object ++ tail).length) → off' + m ≤ object.length) (k : List α → Exec β) :
    (readAt source off n >>= fun old => readAt (object ++ tail) off' m >>= fun new =>
        writeAt (object ++ tail) off' (make old new) >>= k) =
      if (n ≠ 0 → off + n ≤ source.length) ∧ (m ≠ 0 → off' + m ≤ (object ++ tail).length) then
        k (overwrite object off' (make (window source off n) (window object off' m)) ++ tail)
      else .outOfBounds := by
  rw [readAt_eq]
  by_cases readable : n ≠ 0 → off + n ≤ source.length
  · rw [if_pos readable, Exec.returns_bind, readAt_eq]
    by_cases writable : m ≠ 0 → off' + m ≤ (object ++ tail).length
    · have fits := front writable
      have made : (make (window source off n) (window object off' m)).length = m :=
        (width _ _).trans (length_window fun _ => fits)
      rw [if_pos writable, if_pos ⟨readable, writable⟩, Exec.returns_bind, window_append fun _ => fits, writeAt_eq, made,
        if_pos writable, Exec.returns_bind, overwrite_append (by rw [made]; exact fits)]
    · rw [if_neg writable, if_neg fun both => writable both.2]
      rfl
  · rw [if_neg readable, if_neg fun both => readable both.1]
    rfl

end

end Window
