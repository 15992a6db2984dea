import Blyt.PersistentScripts
import Blyt.ScriptBlob

namespace Blyt

/-- `lua_table_flatten_strerror`. -/
def Ltf.strerror : Ltf → String
  | ok => "ok"
  | overflow => "BLYT_ERR_FLATTEN_OVERFLOW"
  | unsupportedType => "BLYT_ERR_FLATTEN_UNSUPPORTED_TYPE"
  | nonStringKey => "BLYT_ERR_FLATTEN_NON_STRING_KEY"
  | keyTooLong => "BLYT_ERR_FLATTEN_KEY_TOO_LONG"
  | arrayMixedTypes => "BLYT_ERR_FLATTEN_ARRAY_MIXED_TYPES"
  | arrayNonSequence => "BLYT_ERR_FLATTEN_ARRAY_NON_SEQUENCE"

inductive ScriptError where
  | slotExhausted
  | slotBlobOverflow
  | flatten (rc : Ltf)
  | unflatten (rc : Ltf)
  deriving DecidableEq

def ScriptError.message : ScriptError → String
  | slotExhausted => "BLYT_ERR_SLOT_EXHAUSTED"
  | slotBlobOverflow => "BLYT_ERR_SLOT_BLOB_OVERFLOW"
  | flatten rc => "BLYT_ERR_FLATTEN: " ++ rc.strerror
  | unflatten rc => "BLYT_ERR_UNFLATTEN: " ++ rc.strerror

variable {C : LuaConf}

/-- A record of the module: its `ctx`, and whether its coroutine is dead. -/
structure Script (C : LuaConf) where
  ctx : LuaTable (LuaField C)
  dead : Bool

/-- The state of `blyt32_coroutine.lua` over its slot table. Records are told apart by the
order of their creation, `fresh` being the next one; `slots` is the local table of that
name; `resuming` are the calls of `resume` that wait for a body, innermost first, with
the slot they were called on. -/
structure ScriptModule (C : LuaConf) where
  region : PersistentScripts
  loadResume : Bool
  scripts : Nat → Script C
  fresh : Nat
  slots : Int → Option Nat
  resuming : List (Int × Nat)

/-- What `resume` hands back: its first result and the `ctx` behind it, if any, or an error. -/
inductive Resumed (C : LuaConf) where
  | returned (ok : Bool) (ctx : Option (LuaTable (LuaField C)))
  | raised (e : ScriptError)

/-- How the innermost body gives control back. -/
inductive BodyEnd where
  | yields
  | returns
  | raises

namespace ScriptModule

/-- The module freshly loaded over a slot table. -/
def start (region : PersistentScripts) (loadResume : Bool) : ScriptModule C where
  region := region
  loadResume := loadResume
  scripts _ := ⟨.empty, true⟩
  fresh := 0
  slots _ := none
  resuming := []

/-- `flatten_and_persist`; `none` is a normal return. -/
def flattenAndPersist (m : ScriptModule C) (slot : Int) (ctx : LuaTable (LuaField C)) :
    Exec (ScriptModule C × Option ScriptError) := do
  match ← consoleTableFlatten ctx with
  | .error rc => return (m, some (.flatten rc))
  | .ok bytes =>
    let (region, ok) := m.region.write slot bytes
    return ({ m with region := region }, if ok then none else some .slotBlobOverflow)

/-- `console.script_read_blob`; `none` is nil. -/
def readBlob (m : ScriptModule C) (slot : Int) : Option (List UInt8) :=
  if m.region.isActive slot then m.region.read slot persistentScriptSlotBytes else none

/-- The `ctx` a script starts with: the seed, or on a load run what its slot holds. -/
def initialCtx (m : ScriptModule C) (slot : Int) (seed : LuaTable (LuaField C)) :
    Exec (Except ScriptError (LuaTable (LuaField C))) :=
  if m.loadResume then
    match m.readBlob slot with
    | some bytes =>
      if bytes.length > 0 then do
        match ← consoleTableUnflatten C bytes with
        | .ok restored => return .ok restored
        | .error rc => return .error (.unflatten rc)
      else .returns (.ok seed)
    | none => .returns (.ok seed)
  else .returns (.ok seed)

/-- `slots[slot] = { body = body, lua_co = lua_co, ctx = ctx }`, the coroutine being new. -/
def enter (m : ScriptModule C) (slot : Int) (ctx : LuaTable (LuaField C)) : ScriptModule C :=
  { m with
    scripts := Function.update m.scripts m.fresh ⟨ctx, false⟩
    fresh := m.fresh + 1
    slots := Function.update m.slots slot (some m.fresh) }

/-- `M.create`, of a function and a table. -/
def create (m : ScriptModule C) (seed : LuaTable (LuaField C)) :
    Exec (ScriptModule C × Except ScriptError Int) := do
  let (region, slot) := m.region.alloc
  let m := { m with region := region }
  if slot < 0 then return (m, .error .slotExhausted)
  match ← m.initialCtx slot seed with
  | .error e => return (m, .error e)
  | .ok ctx =>
    let (m, failed) ← (m.enter slot ctx).flattenAndPersist slot ctx
    return (m, match failed with
      | none => .ok slot
      | some e => .error e)

/-- `slots[slot] = nil; console.script_free(slot)`. -/
def release (m : ScriptModule C) (slot : Int) : ScriptModule C :=
  { m with slots := Function.update m.slots slot none, region := m.region.free slot }

def destroy (m : ScriptModule C) (slot : Int) : ScriptModule C :=
  match m.slots slot with
  | none => m
  | some _ => m.release slot

/-- The end of `M.resume` when the coroutine is not dead. -/
def persistAfter (m : ScriptModule C) (slot : Int) (ok : Bool) (ctx : LuaTable (LuaField C)) :
    Exec (ScriptModule C × Resumed C) := do
  let (m, failed) ← m.flattenAndPersist slot ctx
  return (m, match failed with
    | none => .returned ok (some ctx)
    | some e => .raised e)

/-- `M.resume` up to the body; `none` is a body that now runs. A coroutine that runs, or
waits for another, is refused by Lua and not dead. -/
def resume (m : ScriptModule C) (slot : Int) : Exec (ScriptModule C × Option (Resumed C)) :=
  match m.slots slot with
  | none => .returns (m, some (.returned false none))
  | some id =>
    if (m.scripts id).dead then .returns (m.release slot, some (.returned false none))
    else if id ∈ m.resuming.map Prod.snd then do
      let (m, result) ← m.persistAfter slot false (m.scripts id).ctx
      return (m, some result)
    else .returns ({ m with resuming := (slot, id) :: m.resuming }, none)

/-- `M.resume` from where the innermost body gives control back. -/
def leave (m : ScriptModule C) (ending : BodyEnd) : Exec (ScriptModule C × Option (Resumed C)) :=
  match m.resuming with
  | [] => .returns (m, none)
  | (slot, id) :: outer =>
    let m := { m with resuming := outer }
    let ended := { m with scripts := Function.update m.scripts id ⟨(m.scripts id).ctx, true⟩ }
    match ending with
    | .yields => do
      let (m, result) ← m.persistAfter slot true (m.scripts id).ctx
      return (m, some result)
    | .returns => .returns (ended.release slot, some (.returned true (some (m.scripts id).ctx)))
    | .raises => .returns (ended.release slot, some (.returned false none))

/-- A table that some script holds as its `ctx` is changed, by a body or by the cart. -/
def mutate (m : ScriptModule C) (id : Nat) (ctx : LuaTable (LuaField C)) : ScriptModule C :=
  { m with scripts := Function.update m.scripts id ⟨ctx, (m.scripts id).dead⟩ }

/-- What can happen to the module while the cart runs. Calls made by a body come between the
`resume` that entered it and its `leave`. -/
inductive Event (C : LuaConf) where
  | create (seed : LuaTable (LuaField C))
  | resume (slot : Int)
  | leave (ending : BodyEnd)
  | destroy (slot : Int)
  | mutate (id : Nat) (ctx : LuaTable (LuaField C))

def step (m : ScriptModule C) : Event C → Exec (ScriptModule C)
  | .create seed => Prod.fst <$> m.create seed
  | .resume slot => Prod.fst <$> m.resume slot
  | .leave ending => Prod.fst <$> m.leave ending
  | .destroy slot => .returns (m.destroy slot)
  | .mutate id ctx => .returns (m.mutate id ctx)

def createAll (m : ScriptModule C) : List (LuaTable (LuaField C)) →
    Exec (ScriptModule C × List (Except ScriptError Int))
  | [] => .returns (m, [])
  | seed :: seeds => do
    let (m, result) ← m.create seed
    let (m, results) ← m.createAll seeds
    return (m, result :: results)

/-- The `ctx` of the script in a slot. -/
def ctx? (m : ScriptModule C) (slot : Int) : Option (LuaTable (LuaField C)) :=
  (m.slots slot).map fun id => (m.scripts id).ctx

/-- What `flatten_and_persist` does: the bytes go to the slot's `write`, or nothing happens. -/
theorem flattenAndPersist_cases {m m' : ScriptModule C} {slot : Int} {ctx : LuaTable (LuaField C)}
    {failed : Option ScriptError} (run : m.flattenAndPersist slot ctx = .returns (m', failed)) :
    (∃ bytes, consoleTableFlatten ctx = .returns (.ok bytes) ∧
        m' = { m with region := (m.region.write slot bytes).1 } ∧
        failed = if (m.region.write slot bytes).2 then none else some .slotBlobOverflow) ∨
      ∃ rc, consoleTableFlatten ctx = .returns (.error rc) ∧ m' = m ∧ failed = some (.flatten rc) := by
  obtain ⟨result, flat, rest⟩ := Exec.bind_eq_returns.mp run
  cases result with
  | error rc =>
    cases rest
    exact Or.inr ⟨rc, flat, rfl, rfl⟩
  | ok bytes =>
    cases rest
    exact Or.inl ⟨bytes, flat, rfl, rfl⟩

/-- What `M.create` does: it finds every slot taken, or takes the first free one, and then
has no `ctx` to start with, or enters the script and persists it. -/
theorem create_cases {m m' : ScriptModule C} {seed : LuaTable (LuaField C)} {result : Except ScriptError Int}
    (run : m.create seed = .returns (m', result)) :
    (FirstFit.firstFree m.region.bitGet = none ∧ m' = m ∧ result = .error .slotExhausted) ∨
      ∃ s, FirstFit.firstFree m.region.bitGet = some s ∧
        ((∃ e, { m with region := m.region.bitSet s }.initialCtx s seed = .returns (.error e) ∧
            m' = { m with region := m.region.bitSet s } ∧ result = .error e) ∨
          ∃ ctx failed, { m with region := m.region.bitSet s }.initialCtx s seed = .returns (.ok ctx) ∧
            ({ m with region := m.region.bitSet s }.enter s ctx).flattenAndPersist s ctx = .returns (m', failed) ∧
            result = match failed with
              | none => .ok s
              | some e => .error e) := by
  unfold create at run
  rcases m.region.alloc_cases with ⟨s, first, taken⟩ | ⟨full, taken⟩
  · have free : ¬(s.val : Int) < 0 := by omega
    simp only [taken, if_neg free] at run
    obtain ⟨ctx, initial, rest⟩ := Exec.bind_eq_returns.mp run
    refine Or.inr ⟨s, first, ?_⟩
    cases ctx with
    | error e =>
      cases rest
      exact Or.inl ⟨e, initial, rfl, rfl⟩
    | ok ctx =>
      obtain ⟨⟨settled, failed⟩, persisted, done⟩ := Exec.bind_eq_returns.mp rest
      cases done
      exact Or.inr ⟨ctx, failed, initial, persisted, rfl⟩
  · simp only [taken] at run
    cases run
    exact Or.inl ⟨full, rfl, rfl⟩

/-- What `M.resume` does before a body runs: it knows no such script, reclaims a dead one,
persists one that is already running, or enters the body. -/
theorem resume_cases {m m' : ScriptModule C} {slot : Int} {result : Option (Resumed C)}
    (run : m.resume slot = .returns (m', result)) :
    (m.slots slot = none ∧ m' = m) ∨
      ∃ id, m.slots slot = some id ∧
        (((m.scripts id).dead = true ∧ m' = m.release slot) ∨
          ((m.scripts id).dead = false ∧ id ∈ m.resuming.map Prod.snd ∧
            ∃ failed, m.flattenAndPersist slot (m.scripts id).ctx = .returns (m', failed)) ∨
          ((m.scripts id).dead = false ∧ id ∉ m.resuming.map Prod.snd ∧
            m' = { m with resuming := (slot, id) :: m.resuming })) := by
  unfold resume at run
  cases occupant : m.slots slot with
  | none =>
    rw [occupant] at run
    cases run
    exact Or.inl ⟨rfl, rfl⟩
  | some id =>
    rw [occupant] at run
    refine Or.inr ⟨id, rfl, ?_⟩
    dsimp only at run
    split at run
    · rename_i dead
      cases run
      exact Or.inl ⟨dead, rfl⟩
    · rename_i alive
      rw [Bool.not_eq_true] at alive
      split at run
      · rename_i running
        obtain ⟨⟨resumed, result'⟩, after, done⟩ := Exec.bind_eq_returns.mp run
        obtain ⟨⟨settled, failed⟩, persisted, returned⟩ := Exec.bind_eq_returns.mp after
        cases done
        cases returned
        exact Or.inr (Or.inl ⟨alive, running, failed, persisted⟩)
      · rename_i idle
        cases run
        exact Or.inr (Or.inr ⟨alive, idle, rfl⟩)

/-- What giving back control does: nothing when no body runs; else the innermost call
persists its script, or reclaims the slot of one that is over. -/
theorem leave_cases {m m' : ScriptModule C} {ending : BodyEnd} {result : Option (Resumed C)}
    (run : m.leave ending = .returns (m', result)) :
    (m.resuming = [] ∧ m' = m) ∨
      ∃ slot id outer, m.resuming = (slot, id) :: outer ∧
        ((ending = .yields ∧ ∃ failed,
            { m with resuming := outer }.flattenAndPersist slot (m.scripts id).ctx = .returns (m', failed)) ∨
          (ending ≠ .yields ∧ m' = { m with
            resuming := outer
            scripts := Function.update m.scripts id ⟨(m.scripts id).ctx, true⟩ }.release slot)) := by
  unfold leave at run
  cases stack : m.resuming with
  | nil =>
    rw [stack] at run
    cases run
    exact Or.inl ⟨rfl, rfl⟩
  | cons call outer =>
    obtain ⟨slot, id⟩ := call
    rw [stack] at run
    refine Or.inr ⟨slot, id, outer, rfl, ?_⟩
    cases ending with
    | yields =>
      obtain ⟨⟨resumed, result'⟩, after, done⟩ := Exec.bind_eq_returns.mp run
      obtain ⟨⟨settled, failed⟩, persisted, returned⟩ := Exec.bind_eq_returns.mp after
      cases done
      cases returned
      exact Or.inl ⟨rfl, failed, persisted⟩
    | returns =>
      cases run
      exact Or.inr ⟨nofun, rfl⟩
    | raises =>
      cases run
      exact Or.inr ⟨nofun, rfl⟩

theorem enter_region (m : ScriptModule C) (slot : Int) (ctx : LuaTable (LuaField C)) :
    (m.enter slot ctx).region = m.region := rfl

/-- A slot is free, there is a `ctx` to start with, and it is persisted. -/
theorem create_entered {m m' : ScriptModule C} {s : Fin maxPersistentScripts} {seed ctx : LuaTable (LuaField C)}
    (first : FirstFit.firstFree m.region.bitGet = some s)
    (initial : { m with region := m.region.bitSet s }.initialCtx s seed = .returns (.ok ctx))
    (persisted : ({ m with region := m.region.bitSet s }.enter s ctx).flattenAndPersist s ctx = .returns (m', none)) :
    m.create seed = .returns (m', .ok s) := by
  have taken : m.region.alloc = (m.region.bitSet s, (s : Int)) := by rw [PersistentScripts.alloc, first]
  have free : ¬(s.val : Int) < 0 := by omega
  unfold create
  simp only [taken, if_neg free]
  rw [initial, Exec.returns_bind]
  dsimp only
  rw [persisted]
  rfl

theorem flattenAndPersist_active {m : ScriptModule C} {s : Fin maxPersistentScripts} {ctx : LuaTable (LuaField C)}
    {bytes : List UInt8} (flat : consoleTableFlatten ctx = .returns (.ok bytes)) (active : m.region.bitGet s = true)
    (fits : bytes.length ≤ persistentScriptSlotBytes) :
    m.flattenAndPersist s ctx = .returns ({ m with region := (m.region.write s bytes).1 }, none) := by
  obtain ⟨written, -, -⟩ := PersistentScripts.write_active active fits
  rw [flattenAndPersist, flat, Exec.returns_bind]
  dsimp only
  rw [written]
  rfl

theorem destroy_cases (m : ScriptModule C) (slot : Int) :
    (m.slots slot = none ∧ m.destroy slot = m) ∨ ∃ id, m.slots slot = some id ∧ m.destroy slot = m.release slot := by
  unfold destroy
  cases m.slots slot with
  | none => exact Or.inl ⟨rfl, rfl⟩
  | some id => exact Or.inr ⟨id, rfl, rfl⟩

/-- The slot that an event takes. -/
def slotFor (m : ScriptModule C) : Event C → Option (Fin maxPersistentScripts)
  | .create _ => FirstFit.firstFree m.region.bitGet
  | _ => none

theorem flattenAndPersist_region {m m' : ScriptModule C} {slot : Int} {ctx : LuaTable (LuaField C)}
    {failed : Option ScriptError} (run : m.flattenAndPersist slot ctx = .returns (m', failed)) :
    m'.region = m.region ∨ ∃ bytes, IsBlob C bytes ∧ m'.region = (m.region.write slot bytes).1 := by
  rcases flattenAndPersist_cases run with ⟨bytes, flat, rfl, -⟩ | ⟨rc, -, rfl, -⟩
  · exact Or.inr ⟨bytes, ⟨ctx, flat⟩, rfl⟩
  · exact Or.inl rfl

/-- What a step does to the slot table: it takes a slot, and may write what the new script
starts with; or it takes none, and leaves the table, frees a slot or writes one. -/
theorem step_region {m m' : ScriptModule C} {e : Event C} (stepped : m.step e = .returns m') :
    (∃ s, m.slotFor e = some s ∧ (m'.region = m.region.bitSet s ∨
        ∃ bytes, IsBlob C bytes ∧ m'.region = ((m.region.bitSet s).write s bytes).1)) ∨
      m.slotFor e = none ∧ (m'.region = m.region ∨ (∃ slot, m'.region = m.region.free slot) ∨
        ∃ slot bytes, IsBlob C bytes ∧ m'.region = (m.region.write slot bytes).1) := by
  cases e with
  | create seed =>
    obtain ⟨⟨after, result⟩, run, rfl⟩ := Exec.map_eq_returns.mp stepped
    rcases create_cases run with ⟨full, rfl, -⟩ | ⟨s, first, ⟨e, -, rfl, -⟩ | ⟨ctx, failed, -, persisted, -⟩⟩
    · exact Or.inr ⟨full, Or.inl rfl⟩
    · exact Or.inl ⟨s, first, Or.inl rfl⟩
    · exact Or.inl ⟨s, first, flattenAndPersist_region persisted⟩
  | resume slot =>
    obtain ⟨⟨after, result⟩, run, rfl⟩ := Exec.map_eq_returns.mp stepped
    refine Or.inr ⟨rfl, ?_⟩
    rcases resume_cases run with ⟨-, rfl⟩ | ⟨id, -, ⟨-, rfl⟩ | ⟨-, -, failed, persisted⟩ | ⟨-, -, rfl⟩⟩
    · exact Or.inl rfl
    · exact Or.inr (Or.inl ⟨slot, rfl⟩)
    · exact (flattenAndPersist_region persisted).imp_right fun written => Or.inr ⟨slot, written⟩
    · exact Or.inl rfl
  | leave ending =>
    obtain ⟨⟨after, result⟩, run, rfl⟩ := Exec.map_eq_returns.mp stepped
    refine Or.inr ⟨rfl, ?_⟩
    rcases leave_cases run with ⟨-, rfl⟩ | ⟨slot, id, outer, -, ⟨-, failed, persisted⟩ | ⟨-, rfl⟩⟩
    · exact Or.inl rfl
    · exact (flattenAndPersist_region persisted).imp_right fun written => Or.inr ⟨slot, written⟩
    · exact Or.inr (Or.inl ⟨slot, rfl⟩)
  | destroy slot =>
    cases stepped
    refine Or.inr ⟨rfl, ?_⟩
    rcases m.destroy_cases slot with ⟨-, same⟩ | ⟨id, -, same⟩
    · exact Or.inl (congrArg region same)
    · exact Or.inr (Or.inl ⟨slot, congrArg region same⟩)
  | mutate id ctx =>
    cases stepped
    exact Or.inr ⟨rfl, Or.inl rfl⟩

end ScriptModule
end Blyt
