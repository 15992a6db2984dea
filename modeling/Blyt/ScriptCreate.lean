import Blyt.ScriptIdentity

namespace Blyt
variable {C : LuaConf}

/-- The second argument of `M.create`: nil, `false` or none; a table; or another value. -/
inductive SeedArg (C : LuaConf) where
  | absent
  | table (t : LuaTable (LuaField C))
  | other

/-- The table behind `seed = seed or {}`, if it is one. -/
def SeedArg.table? : SeedArg C → Option (LuaTable (LuaField C))
  | absent => some .empty
  | table t => some t
  | other => none

inductive CreateError where
  | body
  | seed
  | script (e : ScriptError)
  deriving DecidableEq

def CreateError.message : CreateError → String
  | body => "blyt32.coroutine.create: body must be a function"
  | seed => "blyt32.coroutine.create: seed must be a table or nil"
  | script e => e.message

namespace ScriptModule
open PersistentScripts FirstFit
variable {m m' : ScriptModule C} {seed : LuaTable (LuaField C)} {s : Fin maxPersistentScripts}

/-- `M.create`, of any two values. -/
def createCall (m : ScriptModule C) (bodyIsFunction : Bool) (seed : SeedArg C) :
    Exec (ScriptModule C × Except CreateError Int) :=
  if !bodyIsFunction then .returns (m, .error .body)
  else match seed.table? with
    | none => .returns (m, .error .seed)
    | some t => do
      let (m, result) ← m.create t
      return (m, result.mapError .script)

/-- The call ends, and if it raises it leaves the slot table, on both sides, as it was. -/
def AllOrNothing (m : ScriptModule C) (bodyIsFunction : Bool) (seed : SeedArg C) : Prop :=
  ∃ m' result, m.createCall bodyIsFunction seed = .returns (m', result) ∧
    ∀ e, result = .error e → m'.region = m.region ∧ m'.slots = m.slots

/-- The bytes a script starts from that gets the free slot `s`; none where it starts from its seed. -/
def startBytes (m : ScriptModule C) (s : Fin maxPersistentScripts) : List UInt8 :=
  if m.loadResume = true ∧ (m.region.slotLens s).toNat ≤ persistentScriptSlotBytes then m.region.blob s else []

/-- A table of the constrained shape that is not too large for a slot. -/
def AcceptedCtx (ctx : LuaTable (LuaField C)) : Prop := ∃ bytes, consoleTableFlatten ctx = .returns (.ok bytes)

/-- What a script would start with on slot `s` can be read, and flattened again. -/
def Startable (m : ScriptModule C) (s : Fin maxPersistentScripts) (seed : LuaTable (LuaField C)) : Prop :=
  if m.startBytes s = [] then AcceptedCtx seed
  else ∃ ctx, consoleTableUnflatten C (m.startBytes s) = .returns (.ok ctx) ∧ AcceptedCtx ctx

/-- The arguments are refused, no slot is free, or nothing is wrong with what the script starts with. -/
def CreateSettled (m : ScriptModule C) (bodyIsFunction : Bool) (seed : SeedArg C) : Prop :=
  bodyIsFunction = true → ∀ t, seed.table? = some t → ∀ s, firstFree m.region.bitGet = some s → m.Startable s t

/-- The `ctx` on a slot just taken, by the bytes it holds. -/
theorem initialCtx_taken (m : ScriptModule C) (s : Fin maxPersistentScripts) (seed : LuaTable (LuaField C)) :
    { m with region := m.region.bitSet s }.initialCtx s seed =
      if m.startBytes s = [] then .returns (.ok seed)
      else Except.mapError ScriptError.unflatten <$> consoleTableUnflatten C (m.startBytes s) := by
  have taken : (m.region.bitSet s).bitGet s = true := by rw [bitGet_bitSet, Function.update_self]
  have inside : (m.region.bitSet s).isActive s = true := by rwa [isActive, slotInRange_coe]
  have bytes : { m with region := m.region.bitSet s }.readBlob s =
      if (m.region.slotLens s).toNat > persistentScriptSlotBytes then none else some (m.region.blob s) := by
    rw [readBlob, if_pos inside]
    exact read_of_active taken _
  rw [initialCtx, bytes]
  by_cases loading : m.loadResume = true
  swap
  · simp [startBytes, loading]
  by_cases fit : (m.region.slotLens s).toNat ≤ persistentScriptSlotBytes
  swap
  · have none : m.startBytes s = [] := if_neg fun both => fit both.2
    rw [if_pos loading, if_pos (Nat.lt_of_not_le fit), none, if_pos rfl]
  have whole : m.startBytes s = m.region.blob s := if_pos ⟨loading, fit⟩
  rw [if_pos loading, if_neg (Nat.not_lt.mpr fit), whole]
  dsimp only
  by_cases empty : m.region.blob s = []
  · simp [empty]
  rw [if_pos (List.length_pos_of_ne_nil empty), if_neg empty]
  cases consoleTableUnflatten C (m.region.blob s) with
  | returns result => cases result <;> rfl
  | spins => rfl
  | outOfBounds => rfl

theorem bitGet_flattenAndPersist {slot : Int} {ctx : LuaTable (LuaField C)} {failed : Option ScriptError}
    (run : m.flattenAndPersist slot ctx = .returns (m', failed)) : m'.region.bitGet = m.region.bitGet := by
  rcases flattenAndPersist_cases run with ⟨bytes, -, rfl, -⟩ | ⟨rc, -, rfl, -⟩
  · exact bitGet_write ..
  · rfl

/-- Whatever becomes of a call that finds a free slot, the slot is taken afterwards. -/
theorem bitGet_create (first : firstFree m.region.bitGet = some s) {result : Except ScriptError Int}
    (run : m.create seed = .returns (m', result)) : m'.region.bitGet = Function.update m.region.bitGet s true := by
  rcases create_cases run with ⟨full, -⟩ | ⟨t, found, outcome⟩
  · rw [first] at full
    cases full
  rw [first, Option.some.injEq] at found
  subst found
  rcases outcome with ⟨e, -, rfl, -⟩ | ⟨ctx, failed, -, persisted, -⟩
  · exact bitGet_bitSet ..
  · exact (bitGet_flattenAndPersist persisted).trans (bitGet_bitSet ..)

theorem startable_iff (s : Fin maxPersistentScripts) : m.Startable s seed ↔
    ∃ ctx, { m with region := m.region.bitSet s }.initialCtx s seed = .returns (.ok ctx) ∧ AcceptedCtx ctx := by
  rw [initialCtx_taken, Startable]
  by_cases empty : m.startBytes s = []
  · simp only [if_pos empty, Exec.returns.injEq, Except.ok.injEq, exists_eq_left']
  · simp only [if_neg empty, Exec.map_eq_returns]
    refine exists_congr fun ctx => and_congr_left fun _ => ⟨fun unflat => ⟨_, unflat, rfl⟩, ?_⟩
    rintro ⟨result, unflat, same⟩
    cases result with
    | error rc => cases same
    | ok table =>
      cases same
      exact unflat

/-- Behind the slot it takes the call does not raise exactly when the script has something good to start with. -/
theorem create_ok_iff (first : firstFree m.region.bitGet = some s) :
    (∃ m' slot, m.create seed = .returns (m', .ok slot)) ↔ m.Startable s seed := by
  rw [startable_iff]
  constructor
  · rintro ⟨m', slot, run⟩
    rcases create_cases run with ⟨-, -, raised⟩ | ⟨t, found, outcome⟩
    · cases raised
    obtain rfl : s = t := Option.some.inj (first.symm.trans found)
    rcases outcome with ⟨e, -, -, raised⟩ | ⟨ctx, failed, initial, persisted, answer⟩
    · cases raised
    refine ⟨ctx, initial, ?_⟩
    rcases flattenAndPersist_cases persisted with ⟨bytes, flat, -, -⟩ | ⟨rc, -, -, rfl⟩
    · exact ⟨bytes, flat⟩
    · cases answer
  · rintro ⟨ctx, initial, bytes, flat⟩
    have taken : m.region.alloc = (m.region.bitSet s, (s : Int)) := by rw [alloc, first]
    have free : ¬(s.val : Int) < 0 := by omega
    have active : ({ m with region := m.region.bitSet s }.enter s ctx).region.bitGet s = true := by
      rw [enter_region, bitGet_bitSet, Function.update_self]
    obtain ⟨-, -, -, -, -, -, fits⟩ := (show IsBlob C bytes from ⟨ctx, flat⟩).wire
    refine ⟨{ ({ m with region := m.region.bitSet s }.enter s ctx) with
      region := (({ m with region := m.region.bitSet s }.enter s ctx).region.write s bytes).1 }, s, ?_⟩
    unfold create
    simp only [taken, if_neg free]
    rw [initial, Exec.returns_bind]
    dsimp only
    rw [flattenAndPersist, flat, Exec.returns_bind]
    dsimp only
    rw [(write_active active fits).1]
    rfl

theorem create_full (full : firstFree m.region.bitGet = none) (seed : LuaTable (LuaField C)) :
    m.create seed = .returns (m, .error .slotExhausted) := by
  have taken : m.region.alloc = (m.region, -1) := by rw [alloc, full]
  rw [create, taken]
  rfl

/-- A call with good arguments is the `create` of the model. -/
theorem createCall_create {t : LuaTable (LuaField C)} {arg : SeedArg C} (table : arg.table? = some t) :
    m.createCall true arg = m.create t >>= fun r => .returns (r.1, r.2.mapError .script) := by
  rw [createCall, table]
  rfl

/-- The call ends and takes nothing if it raises, exactly when nothing goes wrong behind the slot it takes. -/
theorem allOrNothing_iff (m : ScriptModule C) (body : Bool) (arg : SeedArg C) :
    m.AllOrNothing body arg ↔ m.CreateSettled body arg := by
  constructor
  · rintro ⟨m', result, call, atomic⟩ rfl t table s first
    rw [createCall_create table] at call
    obtain ⟨⟨after, answer⟩, run, done⟩ := Exec.bind_eq_returns.mp call
    cases done
    cases answer with
    | ok slot => exact (create_ok_iff first).mp ⟨after, slot, run⟩
    | error e =>
      obtain ⟨region, -⟩ := atomic _ rfl
      have taken : after.region.bitGet s = true := by rw [bitGet_create first run, Function.update_self]
      rw [region, (firstFree_eq_some first).1] at taken
      cases taken
  · intro settled
    cases body with
    | false => exact ⟨m, .error .body, rfl, fun _ _ => ⟨rfl, rfl⟩⟩
    | true =>
      cases table : arg.table? with
      | none => exact ⟨m, .error .seed, by rw [createCall, table]; rfl, fun _ _ => ⟨rfl, rfl⟩⟩
      | some t =>
        rw [AllOrNothing, createCall_create table]
        cases first : firstFree m.region.bitGet with
        | none =>
          have run : m.create t = .returns (m, .error .slotExhausted) := create_full first t
          exact ⟨m, _, by rw [run]; rfl, fun _ _ => ⟨rfl, rfl⟩⟩
        | some s =>
          obtain ⟨m', slot, run⟩ := (create_ok_iff first).mpr (settled rfl t table s first)
          exact ⟨m', .ok slot, by rw [run]; rfl, fun e raised => by cases raised⟩

/-- A seed with a function in it, on fresh slots: the call raises, and slot 0 is taken. -/
theorem create_not_allOrNothing :
    ¬(start .reset false : ScriptModule luaConf64).AllOrNothing true (.table (LuaTable.empty.set (.string [102]) .other)) := by
  intro atomic
  have taken : (fun out : ScriptModule luaConf64 × Except CreateError Int => (out.2, out.1.region.bitGet ⟨0, by decide⟩)) <$>
      (start .reset false : ScriptModule luaConf64).createCall true (.table (LuaTable.empty.set (.string [102]) .other)) =
        .returns (.error (.script (.flatten .unsupportedType)), true) := by decide +kernel
  obtain ⟨⟨m', result⟩, run, seen⟩ := Exec.map_eq_returns.mp taken
  obtain ⟨raised, busy⟩ := Prod.mk.inj seen
  dsimp only at raised busy
  subst raised
  obtain ⟨other, answer, call, kept⟩ := atomic
  cases run.symm.trans call
  obtain ⟨region, -⟩ := kept _ rfl
  rw [region] at busy
  exact absurd busy (by decide)

/-- Calls over emptied slots take one slot each, whatever they return. -/
theorem createAll_fills {k : Nat} {seeds : List (LuaTable (LuaField C))} {results : List (Except ScriptError Int)}
    (filled : Filled m.region.bitGet k) (room : k + seeds.length ≤ maxPersistentScripts)
    (run : m.createAll seeds = .returns (m', results)) : Filled m'.region.bitGet (k + seeds.length) := by
  induction seeds generalizing m k results with
  | nil =>
    cases run
    exact filled
  | cons seed seeds ih =>
    rw [List.length_cons] at room ⊢
    obtain ⟨⟨m₁, result⟩, one, rest⟩ := Exec.bind_eq_returns.mp run
    obtain ⟨⟨m₂, later⟩, all, done⟩ := Exec.bind_eq_returns.mp rest
    cases done
    have next := ih (create_filled filled (by omega) one).1 (by omega) all
    rwa [show k + 1 + seeds.length = k + (seeds.length + 1) by omega] at next

/-- Sixty-four calls that raise leave no slot for one that would not. -/
theorem create_exhausted {p : PersistentScripts} {loadResume : Bool} {seeds : List (LuaTable (LuaField C))}
    {results : List (Except ScriptError Int)} (all : seeds.length = maxPersistentScripts)
    (run : (start p.unmarkAll loadResume).createAll seeds = .returns (m', results)) (seed : LuaTable (LuaField C)) :
    m'.create seed = .returns (m', .error .slotExhausted) := by
  have zero : Filled (start p.unmarkAll loadResume : ScriptModule C).region.bitGet 0 := by
    show Filled p.unmarkAll.bitGet 0
    rw [bitGet_unmarkAll]
    exact filled_zero
  have filled := createAll_fills zero (by omega) run
  have full : firstFree m'.region.bitGet = none := firstFree_eq_none_iff.mpr fun s => by
    rw [filled s, decide_eq_true_iff, all]
    exact s.isLt.trans_eq (Nat.zero_add _).symm
  exact create_full full seed

end ScriptModule
end Blyt
