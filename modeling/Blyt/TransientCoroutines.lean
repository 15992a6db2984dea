import Blyt.Lib.Run
import Mathlib.Data.List.Basic
import Mathlib.Logic.Function.Basic

namespace Blyt

/-- How a coroutine came to be: by `coroutine.create`, by `coroutine.wrap`, or for a script by
the raw `create` behind `blyt32.coroutine.create`. -/
inductive CoroutineMade where
  | create
  | wrap
  | script
  deriving DecidableEq

inductive CoroutineStatus where
  | running
  | normal
  | suspended
  | dead
  deriving DecidableEq

/-- What `_live` holds for a coroutine: `true` or `"boundary-crossed"`. -/
inductive LiveMark where
  | live
  | boundaryCrossed
  deriving DecidableEq

/-- The coroutines of a Lua state, told apart by the order in which they were made, and the
registry of the module. `resuming` are those that were resumed and have not given control
back, the running one first. -/
structure Coroutines where
  made : List CoroutineMade
  resuming : List Nat
  ended : List Nat
  live : Nat → Option LiveMark

inductive Resumption where
  | enters
  | refused
  | raises (message : String)
  deriving DecidableEq

/-- What the running code does with coroutines. `close` is `coroutine.close`, `marks` is
`mark_boundary_crossed`, and a coroutine ends when its body returns or raises. -/
inductive CoroutineEvent where
  | create
  | wrap
  | scriptCreate
  | resume (co : Nat)
  | callWrapped (co : Nat)
  | scriptResume (co : Nat)
  | yields
  | ends
  | close (co : Nat)
  | invalidate
  | marks (co : Nat)

def boundaryCrossedError : String :=
  "RuntimeError: coroutine crossed a save/restore boundary. " ++
    "Use blyt32.coroutine.create() if this coroutine needs to survive saves."

namespace Coroutines

def start : Coroutines := ⟨[], [], [], fun _ => none⟩

def status (s : Coroutines) (co : Nat) : CoroutineStatus :=
  if s.resuming.head? = some co then .running
  else if co ∈ s.resuming then .normal
  else if co ∈ s.ended then .dead
  else .suspended

def rawCreate (s : Coroutines) (how : CoroutineMade) : Coroutines := { s with made := s.made ++ [how] }

/-- The wrapper around `coroutine.create`, which enters the new coroutine in `_live`. -/
def create (s : Coroutines) : Coroutines :=
  { s.rawCreate .create with live := Function.update s.live s.made.length (some .live) }

/-- `_raw_resume`, which is also what a function made by `coroutine.wrap` does. -/
def rawResume (s : Coroutines) (co : Nat) : Coroutines × Resumption :=
  if s.status co = .suspended then ({ s with resuming := co :: s.resuming }, .enters) else (s, .refused)

/-- The wrapper around `coroutine.resume`. -/
def resume (s : Coroutines) (co : Nat) : Coroutines × Resumption :=
  if s.live co = some .boundaryCrossed then (s, .raises boundaryCrossedError) else s.rawResume co

def invalidateTransients (s : Coroutines) : Coroutines :=
  { s with live := fun co =>
      if (s.live co).isSome ∧ s.status co = .suspended then some .boundaryCrossed else s.live co }

/-- `coroutine.yield`; the main program cannot. -/
def yields (s : Coroutines) : Coroutines := { s with resuming := s.resuming.tail }

/-- The running body returns or raises. -/
def ends (s : Coroutines) : Coroutines :=
  match s.resuming with
  | [] => s
  | co :: resuming => { s with resuming := resuming, ended := co :: s.ended }

/-- `coroutine.close`, which raises on a coroutine that runs or waits for another. -/
def close (s : Coroutines) (co : Nat) : Coroutines :=
  if s.status co = .suspended then { s with ended := co :: s.ended } else s

/-- One event, with the coroutine it attempts to resume, if any. Only what was made as such can
be called as a wrapped function or resumed as a script. -/
def step (s : Coroutines) : CoroutineEvent → Coroutines × Option (Nat × Resumption)
  | .create => (s.create, none)
  | .wrap => (s.rawCreate .wrap, none)
  | .scriptCreate => (s.rawCreate .script, none)
  | .resume co => if co < s.made.length then ((s.resume co).1, some (co, (s.resume co).2)) else (s, none)
  | .callWrapped co =>
    if s.made[co]? = some .wrap then ((s.rawResume co).1, some (co, (s.rawResume co).2)) else (s, none)
  | .scriptResume co =>
    if s.made[co]? = some .script then ((s.rawResume co).1, some (co, (s.rawResume co).2)) else (s, none)
  | .yields => (s.yields, none)
  | .ends => (s.ends, none)
  | .close co => (s.close co, none)
  | .invalidate => (s.invalidateTransients, none)
  | .marks co => ({ s with live := Function.update s.live co (some .boundaryCrossed) }, none)

def run (s : Coroutines) (events : List CoroutineEvent) : Coroutines := events.foldl (fun s e => (s.step e).1) s

def Steps (s : Coroutines) (e : CoroutineEvent) (s' : Coroutines) : Prop := s' = (s.step e).1

/-- What `coroutine.create` made is in the registry. -/
def Registered (s : Coroutines) : Prop := ∀ co, s.made[co]? = some .create → s.live co ≠ none

/-- A coroutine that `coroutine.create` made and a boundary has marked. -/
structure Crossed (s : Coroutines) (co : Nat) : Prop where
  made : s.made[co]? = some .create
  mark : s.live co = some .boundaryCrossed

variable {s : Coroutines} {co : Nat}

theorem rawResume_made : (s.rawResume co).1.made = s.made := by
  unfold rawResume
  split
  · rfl
  · rfl

theorem rawResume_live : (s.rawResume co).1.live = s.live := by
  unfold rawResume
  split
  · rfl
  · rfl

theorem resume_made : (s.resume co).1.made = s.made := by
  unfold resume
  split
  · rfl
  · exact rawResume_made

theorem resume_live : (s.resume co).1.live = s.live := by
  unfold resume
  split
  · rfl
  · exact rawResume_live

/-- What an event does to the coroutines made and to the registry. -/
theorem step_cases (s : Coroutines) (e : CoroutineEvent) :
    ((s.step e).1.made = s.made ∧ (s.step e).1.live = s.live) ∨
      (∃ how, how ≠ .create ∧ (s.step e).1.made = s.made ++ [how] ∧ (s.step e).1.live = s.live) ∨
      ((s.step e).1.made = s.made ++ [.create] ∧
        (s.step e).1.live = Function.update s.live s.made.length (some .live)) ∨
      ((s.step e).1.made = s.made ∧
        ∀ co, (s.step e).1.live co = s.live co ∨ (s.step e).1.live co = some .boundaryCrossed) := by
  cases e with
  | create => exact Or.inr (Or.inr (Or.inl ⟨rfl, rfl⟩))
  | wrap => exact Or.inr (Or.inl ⟨.wrap, nofun, rfl, rfl⟩)
  | scriptCreate => exact Or.inr (Or.inl ⟨.script, nofun, rfl, rfl⟩)
  | resume co =>
    left
    rw [step]
    split
    · exact ⟨resume_made, resume_live⟩
    · exact ⟨rfl, rfl⟩
  | callWrapped co =>
    left
    rw [step]
    split
    · exact ⟨rawResume_made, rawResume_live⟩
    · exact ⟨rfl, rfl⟩
  | scriptResume co =>
    left
    rw [step]
    split
    · exact ⟨rawResume_made, rawResume_live⟩
    · exact ⟨rfl, rfl⟩
  | yields => exact Or.inl ⟨rfl, rfl⟩
  | ends =>
    left
    rw [step, ends]
    split
    · exact ⟨rfl, rfl⟩
    · exact ⟨rfl, rfl⟩
  | close co =>
    left
    rw [step, close]
    split
    · exact ⟨rfl, rfl⟩
    · exact ⟨rfl, rfl⟩
  | invalidate =>
    refine Or.inr (Or.inr (Or.inr ⟨rfl, fun co => ?_⟩))
    rw [step, invalidateTransients]
    dsimp only
    split
    · exact Or.inr rfl
    · exact Or.inl rfl
  | marks co =>
    refine Or.inr (Or.inr (Or.inr ⟨rfl, fun other => ?_⟩))
    rw [step]
    by_cases same : other = co
    · subst same
      exact Or.inr (Function.update_self ..)
    · exact Or.inl (Function.update_of_ne same ..)

theorem Registered.step (registered : s.Registered) (e : CoroutineEvent) : (s.step e).1.Registered := by
  intro co create
  rcases step_cases s e with ⟨made, live⟩ | ⟨how, other, made, live⟩ | ⟨made, live⟩ | ⟨made, live⟩
  · rw [made] at create
    rw [live]
    exact registered co create
  · rw [made, List.getElem?_append] at create
    rw [live]
    split at create
    · exact registered co create
    · obtain ⟨_, eq⟩ := List.getElem?_eq_some_iff.mp create
      rw [List.getElem_singleton] at eq
      exact absurd eq other
  · rw [live]
    by_cases new : co = s.made.length
    · subst new
      rw [Function.update_self]
      exact nofun
    · rw [made, List.getElem?_append] at create
      rw [Function.update_of_ne new]
      split at create
      · exact registered co create
      · obtain ⟨small, _⟩ := List.getElem?_eq_some_iff.mp create
        rw [List.length_singleton] at small
        omega
  · rw [made] at create
    rcases live co with same | crossed
    · rw [same]
      exact registered co create
    · rw [crossed]
      exact nofun

theorem registered_run (events : List CoroutineEvent) : (start.run events).Registered := by
  have keeps : ∀ (events : List CoroutineEvent) (s : Coroutines), s.Registered → (s.run events).Registered := by
    intro events
    induction events with
    | nil => exact fun _ registered => registered
    | cons e events ih => exact fun s registered => ih _ (registered.step e)
  exact keeps events start nofun

theorem Crossed.step (crossed : s.Crossed co) (e : CoroutineEvent) : (s.step e).1.Crossed co := by
  obtain ⟨create, mark⟩ := crossed
  obtain ⟨small, _⟩ := List.getElem?_eq_some_iff.mp create
  rcases step_cases s e with ⟨made, live⟩ | ⟨how, -, made, live⟩ | ⟨made, live⟩ | ⟨made, live⟩
  · exact ⟨made ▸ create, live ▸ mark⟩
  · exact ⟨by rw [made, List.getElem?_append_left small, create], live ▸ mark⟩
  · refine ⟨by rw [made, List.getElem?_append_left small, create], ?_⟩
    rw [live, Function.update_of_ne (by omega), mark]
  · refine ⟨made ▸ create, ?_⟩
    rcases live co with same | crossed
    · rw [same, mark]
    · exact crossed

/-- A marked coroutine is not entered: only `coroutine.resume` can be called on it, and raises. -/
theorem Crossed.raises (crossed : s.Crossed co) {e : CoroutineEvent} {r : Resumption}
    (attempt : (s.step e).2 = some (co, r)) : r = .raises boundaryCrossedError := by
  obtain ⟨create, mark⟩ := crossed
  cases e with
  | resume other =>
    rw [Coroutines.step] at attempt
    split at attempt
    · obtain ⟨rfl, rfl⟩ := Prod.mk.inj (Option.some.inj attempt)
      rw [Coroutines.resume, if_pos mark]
    · cases attempt
  | callWrapped other =>
    rw [Coroutines.step] at attempt
    split at attempt
    · rename_i wrap
      obtain ⟨rfl, rfl⟩ := Prod.mk.inj (Option.some.inj attempt)
      rw [create] at wrap
      cases wrap
    · cases attempt
  | scriptResume other =>
    rw [Coroutines.step] at attempt
    split at attempt
    · rename_i script
      obtain ⟨rfl, rfl⟩ := Prod.mk.inj (Option.some.inj attempt)
      rw [create] at script
      cases script
    · cases attempt
  | create | wrap | scriptCreate | yields | ends | close | invalidate | marks => cases attempt

/-- What `coroutine.create` made and a boundary finds suspended is never resumed again: every
attempt raises the error. -/
theorem suspended_never_resumed (before after : List CoroutineEvent) {co : Nat}
    (create : (start.run before).made[co]? = some .create) (suspended : (start.run before).status co = .suspended) :
    Run.Throughout Steps (fun s e _ => ∀ r, (s.step e).2 = some (co, r) → r = .raises boundaryCrossedError)
      (start.run before).invalidateTransients after := by
  have crossed : (start.run before).invalidateTransients.Crossed co := by
    refine ⟨create, if_pos ⟨?_, suspended⟩⟩
    exact Option.isSome_iff_ne_none.mpr (registered_run before co create)
  refine Run.Throughout.of_steps (fun s => s.Crossed co) (fun s e s' crossed steps => ?_) crossed after
  subst steps
  exact ⟨crossed.step e, fun r attempt => crossed.raises attempt⟩

/-- A transient made before the boundary and resumed behind it. -/
theorem suspended_never_resumed_generator :
    Run.Throughout Steps (fun s e _ => ∀ r, (s.step e).2 = some (0, r) → r = .raises boundaryCrossedError)
      (start.run [.create, .resume 0, .yields]).invalidateTransients [.resume 0, .close 0, .resume 0] :=
  suspended_never_resumed [.create, .resume 0, .yields] [.resume 0, .close 0, .resume 0] rfl rfl

/-- A transient that takes the boundary itself runs at that point, is not marked, and is resumed
after its next yield as if nothing had happened. -/
theorem transient_crosses_boundary :
    ¬∀ (before after : List CoroutineEvent) (co : Nat),
      ((start.run before).made[co]? = some .create ∨ (start.run before).made[co]? = some .wrap) →
        (start.run before).status co ≠ .dead →
          Run.Throughout Steps (fun s e _ => (s.step e).2 ≠ some (co, .enters))
            (start.run before).invalidateTransients after := by
  intro never
  have along := never [.create, .resume 0] [.yields, .resume 0] 0 (Or.inl rfl) (by decide)
  exact (along _ rfl).2 _ rfl |>.1 rfl

end Coroutines
end Blyt
