import Blyt.Lib.Exec
import Mathlib.Logic.Function.Basic
import Mathlib.Data.List.Nodup

namespace CommitWalk
universe u
variable {ι β : Type u}

/-- One item of a commit pass: the cell it owns and what its attempt makes of
that cell's content. The content it leaves stays, accepted or not. -/
structure Attempt (ι β : Type u) where
  cell : ι
  run : β → Bool × β

/-- An item as the pass meets it. It may end the call, be turned down before
it touches anything, or be attempted. -/
abbrev Item (ι β : Type u) := Exec (Option (Attempt ι β))

def cells (items : List (Item ι β)) : List ι :=
  items.filterMap fun
    | .returns (some a) => some a.cell
    | _ => none

/-- The item is attempted on `st` and accepts. -/
def Accepts (st : ι → β) : Item ι β → Prop
  | .returns (some a) => (a.run (st a.cell)).1 = true
  | _ => False

/-- The item turns down the pass, before or in its attempt on `st`. -/
def Refuses (st : ι → β) : Item ι β → Prop
  | .returns none => True
  | .returns (some a) => (a.run (st a.cell)).1 = false
  | _ => False

/-- The item's attempt leaves its cell of `st` as it was. -/
def Keeps (st : ι → β) : Item ι β → Prop
  | .returns (some a) => (a.run (st a.cell)).2 = st a.cell
  | _ => True

/-- Where the pass meets its first refusal, the refusing attempt and all before
it leave their cells as they were. -/
def QuietRefusal (st : ι → β) (items : List (Item ι β)) : Prop :=
  ∀ pre item post, items = pre ++ item :: post → (∀ i ∈ pre, Accepts st i) → Refuses st item →
    ∀ i ∈ pre ++ [item], Keeps st i

/-- A quiet refusal, told of what the items are made from. -/
theorem quietRefusal_map_iff {α : Type u} {st : ι → β} {f : α → Item ι β} {xs : List α} :
    QuietRefusal st (xs.map f) ↔ ∀ pre x post, xs = pre ++ x :: post → (∀ y ∈ pre, Accepts st (f y)) →
      Refuses st (f x) → ∀ y ∈ pre ++ [x], Keeps st (f y) := by
  constructor
  · rintro quiet pre x post rfl accepted refused y member
    refine quiet (pre.map f) (f x) (post.map f) (by rw [List.map_append, List.map_cons]) (fun i attempted => ?_) refused
      (f y) ?_
    · obtain ⟨z, early, rfl⟩ := List.mem_map.mp attempted
      exact accepted z early
    · rw [← List.map_singleton, ← List.map_append]
      exact List.mem_map_of_mem member
  · intro quiet pre item post split accepted refused i member
    obtain ⟨pre, rest, rfl, rfl, tail⟩ := List.map_eq_append_iff.mp split
    obtain ⟨x, post, rfl, rfl, rfl⟩ := List.map_eq_cons_iff.mp tail
    rw [← List.map_singleton, ← List.map_append] at member
    obtain ⟨y, early, rfl⟩ := List.mem_map.mp member
    exact quiet pre x post rfl (fun z before => accepted _ (List.mem_map_of_mem before)) refused y early

theorem cells_cons_attempt (a : Attempt ι β) (items : List (Item ι β)) :
    cells (.returns (some a) :: items) = a.cell :: cells items := rfl

theorem cells_append (xs ys : List (Item ι β)) : cells (xs ++ ys) = cells xs ++ cells ys :=
  List.filterMap_append

theorem mem_cells {items : List (Item ι β)} {a : Attempt ι β}
    (member : Exec.returns (some a) ∈ items) : a.cell ∈ cells items :=
  List.mem_filterMap.mpr ⟨_, member, rfl⟩

theorem prefix_distinct {pre post : List (Item ι β)} {item : Item ι β}
    (distinct : (cells (pre ++ item :: post)).Nodup) : (cells (pre ++ [item])).Nodup := by
  rw [List.append_cons, cells_append] at distinct
  exact (List.nodup_append.mp distinct).1

variable [DecidableEq ι]

/-- Commit the items one after another and stop at the first refusal. -/
def walk : List (Item ι β) → (ι → β) → Exec (Bool × (ι → β))
  | [], st => .returns (true, st)
  | .spins :: _, _ => .spins
  | .outOfBounds :: _, _ => .outOfBounds
  | .returns none :: _, st => .returns (false, st)
  | .returns (some a) :: rest, st =>
    let st' := Function.update st a.cell (a.run (st a.cell)).2
    if (a.run (st a.cell)).1 then walk rest st' else .returns (false, st')

/-- `st` after every attempt in `items` was made on its own cell. -/
def overlay : List (Item ι β) → (ι → β) → ι → β
  | [], st => st
  | .returns (some a) :: rest, st => overlay rest (Function.update st a.cell (a.run (st a.cell)).2)
  | _ :: rest, st => overlay rest st

theorem item_update {st : ι → β} {c : ι} {b : β} {items : List (Item ι β)} (fresh : c ∉ cells items)
    {item : Item ι β} (member : item ∈ items) :
    (Accepts (Function.update st c b) item ↔ Accepts st item) ∧
      (Refuses (Function.update st c b) item ↔ Refuses st item) ∧
      (Keeps (Function.update st c b) item ↔ Keeps st item) := by
  match item with
  | .spins => exact ⟨Iff.rfl, Iff.rfl, Iff.rfl⟩
  | .outOfBounds => exact ⟨Iff.rfl, Iff.rfl, Iff.rfl⟩
  | .returns none => exact ⟨Iff.rfl, Iff.rfl, Iff.rfl⟩
  | .returns (some a) =>
    have other : a.cell ≠ c := fun same => fresh (same ▸ mem_cells member)
    simp only [Accepts, Refuses, Keeps, Function.update_of_ne other, and_self]

theorem overlay_frame {items : List (Item ι β)} {st : ι → β} {c : ι} (fresh : c ∉ cells items) :
    overlay items st c = st c := by
  induction items generalizing st with
  | nil => rfl
  | cons item rest ih =>
    match item with
    | .spins => exact ih fresh
    | .outOfBounds => exact ih fresh
    | .returns none => exact ih fresh
    | .returns (some a) =>
      rw [cells_cons_attempt, List.mem_cons, not_or] at fresh
      rw [overlay, ih fresh.2, Function.update_of_ne fresh.1]

/-- With distinct cells every attempt is made on the content the cell had at
the start, and what it leaves is there at the end. -/
theorem overlay_attempt {items : List (Item ι β)} {st : ι → β} {a : Attempt ι β}
    (distinct : (cells items).Nodup) (member : Exec.returns (some a) ∈ items) :
    overlay items st a.cell = (a.run (st a.cell)).2 := by
  induction items generalizing st with
  | nil => simp at member
  | cons item rest ih =>
    match item with
    | .spins => exact ih distinct (by simpa using member)
    | .outOfBounds => exact ih distinct (by simpa using member)
    | .returns none => exact ih distinct (by simpa using member)
    | .returns (some b) =>
      rw [cells_cons_attempt, List.nodup_cons] at distinct
      rcases List.mem_cons.mp member with same | later
      · cases same
        rw [overlay, overlay_frame distinct.1, Function.update_self]
      · have other : a.cell ≠ b.cell := fun same => distinct.1 (same ▸ mem_cells later)
        rw [overlay, ih distinct.2 later, Function.update_of_ne other]

/-- The overlay is the start exactly when every attempt leaves its cell alone. -/
theorem overlay_eq_self_iff {items : List (Item ι β)} {st : ι → β}
    (distinct : (cells items).Nodup) : overlay items st = st ↔ ∀ item ∈ items, Keeps st item := by
  constructor
  · intro same item member
    match item with
    | .spins => trivial
    | .outOfBounds => trivial
    | .returns none => trivial
    | .returns (some a) => exact (overlay_attempt distinct member).symm.trans (congrFun same a.cell)
  · intro keeps
    funext c
    by_cases owned : c ∈ cells items
    · obtain ⟨item, member, cell⟩ := List.mem_filterMap.mp owned
      match item with
      | .returns (some a) =>
        cases cell
        exact (overlay_attempt distinct member).trans (keeps _ member)
      | .returns none => cases cell
      | .spins => cases cell
      | .outOfBounds => cases cell
    · exact overlay_frame owned

theorem walk_refused {pre post : List (Item ι β)} {item : Item ι β} {st : ι → β}
    (distinct : (cells (pre ++ item :: post)).Nodup) (accepted : ∀ i ∈ pre, Accepts st i)
    (refused : Refuses st item) :
    walk (pre ++ item :: post) st = .returns (false, overlay (pre ++ [item]) st) := by
  induction pre generalizing st with
  | nil =>
    match item with
    | .returns none => rfl
    | .returns (some a) =>
      simp only [Refuses] at refused
      simp [walk, overlay, refused]
  | cons first pre ih =>
    have now := accepted first List.mem_cons_self
    match first with
    | .returns (some a) =>
      rw [List.cons_append, cells_cons_attempt, List.nodup_cons] at distinct
      simp only [Accepts] at now
      simp only [List.cons_append, walk, overlay, now, if_true]
      refine ih distinct.2 (fun i member => ?_) ?_
      · exact (item_update distinct.1 (List.mem_append_left _ member)).1.mpr
          (accepted i (List.mem_cons_of_mem _ member))
      · exact (item_update distinct.1 (by simp)).2.1.mpr refused

theorem walk_accepted {items : List (Item ι β)} (st : ι → β) (distinct : (cells items).Nodup)
    (accepted : ∀ i ∈ items, Accepts st i) : walk items st = .returns (true, overlay items st) := by
  induction items generalizing st with
  | nil => rfl
  | cons first rest ih =>
    have now := accepted first List.mem_cons_self
    match first with
    | .returns (some a) =>
      rw [cells_cons_attempt, List.nodup_cons] at distinct
      simp only [Accepts] at now
      simp only [walk, overlay, now, if_true]
      exact ih _ distinct.2 fun i member =>
        (item_update distinct.1 member).1.mpr (accepted i (List.mem_cons_of_mem _ member))

/-- What a returning pass did: all items accepted, or a first one refused. -/
theorem walk_returns {items : List (Item ι β)} {st st' : ι → β} {ok : Bool}
    (distinct : (cells items).Nodup) (run : walk items st = .returns (ok, st')) :
    (ok = true ∧ (∀ i ∈ items, Accepts st i)) ∨
      (ok = false ∧ ∃ pre item post, items = pre ++ item :: post ∧
        (∀ i ∈ pre, Accepts st i) ∧ Refuses st item) := by
  induction items generalizing st with
  | nil =>
    cases run
    exact Or.inl ⟨rfl, by simp⟩
  | cons first rest ih =>
    match first with
    | .spins => cases run
    | .outOfBounds => cases run
    | .returns none =>
      cases run
      exact Or.inr ⟨rfl, [], _, rest, rfl, by simp, trivial⟩
    | .returns (some a) =>
      rw [cells_cons_attempt, List.nodup_cons] at distinct
      cases now : (a.run (st a.cell)).1 with
      | false =>
        simp only [walk, now, Bool.false_eq_true, if_false, Exec.returns.injEq, Prod.mk.injEq] at run
        exact Or.inr ⟨run.1.symm, [], _, rest, rfl, by simp, now⟩
      | true =>
        simp only [walk, now, if_true] at run
        have atStart : ∀ i ∈ rest, (Accepts (Function.update st a.cell (a.run (st a.cell)).2) i ↔ Accepts st i) ∧
            (Refuses (Function.update st a.cell (a.run (st a.cell)).2) i ↔ Refuses st i) := fun i member =>
          ⟨(item_update distinct.1 member).1, (item_update distinct.1 member).2.1⟩
        rcases ih distinct.2 run with ⟨all, accepted⟩ | ⟨refusal, pre, item, post, split, accepted, refused⟩
        · refine Or.inl ⟨all, fun i member => ?_⟩
          rcases List.mem_cons.mp member with rfl | later
          · exact now
          · exact (atStart i later).1.mp (accepted i later)
        · subst split
          refine Or.inr ⟨refusal, _ :: pre, item, post, rfl, fun i member => ?_, ?_⟩
          · rcases List.mem_cons.mp member with rfl | later
            · exact now
            · exact (atStart i (List.mem_append_left _ later)).1.mp (accepted i later)
          · exact (atStart item (by simp)).2.mp refused

/-- A failing pass leaves everything as it was exactly when its refusal is quiet. -/
theorem walk_false_unchanged_iff {items : List (Item ι β)} (st : ι → β)
    (distinct : (cells items).Nodup) :
    (∀ st', walk items st = .returns (false, st') → st' = st) ↔ QuietRefusal st items := by
  constructor
  · intro unchanged pre item post split accepted refused
    subst split
    exact (overlay_eq_self_iff (prefix_distinct distinct)).mp
      (unchanged _ (walk_refused distinct accepted refused))
  · intro keeps st' run
    rcases walk_returns distinct run with ⟨impossible, _⟩ | ⟨_, pre, item, post, rfl, accepted, refused⟩
    · cases impossible
    · rw [walk_refused distinct accepted refused] at run
      cases run
      exact (overlay_eq_self_iff (prefix_distinct distinct)).mpr (keeps _ _ _ rfl accepted refused)

/-- A pass fails and changes nothing exactly when it meets a quiet refusal. -/
theorem walk_false_self_iff {items : List (Item ι β)} (st : ι → β) (distinct : (cells items).Nodup) :
    walk items st = .returns (false, st) ↔ ∃ pre item post, items = pre ++ item :: post ∧
      (∀ i ∈ pre, Accepts st i) ∧ Refuses st item ∧ ∀ i ∈ pre ++ [item], Keeps st i := by
  constructor
  · intro run
    rcases walk_returns distinct run with ⟨impossible, _⟩ | ⟨_, pre, item, post, rfl, accepted, refused⟩
    · cases impossible
    · rw [walk_refused distinct accepted refused] at run
      have same := congrArg Prod.snd (Exec.returns.inj run)
      exact ⟨pre, item, post, rfl, accepted, refused,
        (overlay_eq_self_iff (prefix_distinct distinct)).mp same⟩
  · rintro ⟨pre, item, post, rfl, accepted, refused, keeps⟩
    rw [walk_refused distinct accepted refused,
      (overlay_eq_self_iff (prefix_distinct distinct)).mpr keeps]

end CommitWalk
