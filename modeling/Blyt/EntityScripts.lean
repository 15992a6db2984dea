import Blyt.SteadyWorkloads

namespace Blyt
variable {E : Type} {C : LuaConf}

/-- What `luaL_checkinteger` and `luaL_checknumber` make of numbers; as a float none is a NaN but the canonical one. -/
structure BindingHost.TakesNumbers (host : BindingHost (LuaValue C) E) : Prop where
  integer : ∀ k n, n < 2 ^ 31 → host.checkInteger k (some (.scalar (luaInt n))) = .ok n
  number : ∀ k x, ∃ f, host.checkNumber k (some (.scalar (.number x))) = .ok f
  quiet : ∀ k v f, host.checkNumber k v = .ok f → IsNan32 f → f = canonicalQnanBits

namespace DetScriptsWithEntities

/-- A number as it is written in the workload, by the bits of its `double`. -/
def literal (bits : F64) : LuaScalar C := .number (C.ofDouble bits)

/-- What a body does to the fields of its entity, where `none` is an error. -/
abbrev Nudge (C : LuaConf) := List (LuaValue C) → Option (LuaValue C × LuaValue C × LuaValue C)

section
variable (host : BindingHost (LuaValue C) E) (arith : LuaArith C) (ofFloat : F32 → C.Number)

/-- `x = x + 1.0`. -/
def moverX : Nudge C
  | [x, y, a] => (arith.add x (literal 0x3ff0000000000000)).map fun x => (some (.scalar x), y, a)
  | _ => none

/-- `y = y + 0.5`. -/
def moverY : Nudge C
  | [x, y, a] => (arith.add y (literal 0x3fe0000000000000)).map fun y => (x, some (.scalar y), a)
  | _ => none

/-- `a = a + 0.1`. -/
def rotator : Nudge C
  | [x, y, a] => (arith.add a (literal 0x3fb999999999999a)).map fun a => (x, y, some (.scalar a))
  | _ => none

/-- A result of a binding on the stack. -/
def pushed : LuaResult → LuaValue C
  | .integer bits => some (.scalar (luaInt bits.toNat))
  | .number f => some (.scalar (.number (ofFloat f)))
  | .nil => none

/-- `get_entity`, the nudge and `set_entity`: the objects behind them, and whether none raised. -/
def moveEntity (nudge : Nudge C) (s : BindingState) (idx : LuaValue C) : BindingState × Bool :=
  match (host.lGetEntity s idx).toOption.bind fun results => nudge (results.map (pushed ofFloat)) with
  | none => (s, false)
  | some (x, y, a) =>
    match host.lSetEntity s idx x y a with
    | (s, .error _) => (s, false)
    | (s, .ok _) => (s, true)

/-- The block of a body, up to its `yield`. -/
def block (nudge : Nudge C) (s : BindingState) (ctx : ScriptCtx C) : BindingState × ScriptCtx C × BodyStop BodyPlace :=
  match moveEntity host ofFloat nudge s (ctx.field "entity") with
  | (s, false) => (s, ctx, .raises)
  | (s, true) => (s, ctx.assign "step" (arith.add (ctx.field "step") (luaInt 1)) fun ctx =>
      (ctx.put "pc" (.string (ascii "after")), .yields .afterA))

/-- `while ctx.step < 30`. -/
def whileStep (s : BindingState) (ctx : ScriptCtx C) (inside : BindingState × ScriptCtx C × BodyStop BodyPlace) :
    BindingState × ScriptCtx C × BodyStop BodyPlace :=
  match arith.lt (ctx.field "step") (luaInt 30) with
  | none => (s, ctx, .raises)
  | some true => inside
  | some false => (s, ctx, .returns)

def bottom (nudge : Nudge C) (s : BindingState) (ctx : ScriptCtx C) : BindingState × ScriptCtx C × BodyStop BodyPlace :=
  let ctx := ctx.put "pc" (.string (ascii "loop_top"))
  -- the mark is `loop_top` now, so the next round enters the block
  whileStep arith s ctx (block host arith ofFloat nudge s ctx)

def turn (nudge : Nudge C) : BodyPlace → BindingState → ScriptCtx C → BindingState × ScriptCtx C × BodyStop BodyPlace
  | .top, s, ctx =>
    whileStep arith s ctx <|
      if ctx.atTop then block host arith ofFloat nudge s ctx else bottom host arith ofFloat nudge s ctx
  | _, s, ctx => bottom host arith ofFloat nudge s ctx

def body (nudge : Nudge C) : ScriptBody BodyPlace C := ⟨.top, turn host arith ofFloat nudge⟩

theorem first_inside : 0 < luaSimpleNumEntities := by decide
theorem second_inside : 1 < luaSimpleNumEntities := by decide

/-- `set_entity` of literals. -/
def place (s : BindingState) (idx : Nat) (x y a : F64) : BindingState :=
  (host.lSetEntity s (some (.scalar (luaInt idx))) (some (.scalar (literal x))) (some (.scalar (literal y)))
    (some (.scalar (literal a)))).1

/-- The cart. `get_entity` of a literal index does not raise. -/
def cart : ManagedCart BodyPlace C where
  opening s :=
    place host (place host s 0 0x4059000000000000 0x4059000000000000 0) 1 0x4049000000000000 0x4049000000000000 0
  scripts :=
    [(body host arith ofFloat (moverX arith), luaTable [("entity", luaInt 0), ("step", luaInt 0)]),
      (body host arith ofFloat (moverY arith), luaTable [("entity", luaInt 0), ("step", luaInt 0)]),
      (body host arith ofFloat (rotator arith), luaTable [("entity", luaInt 1), ("step", luaInt 0)])]
  report s _ :=
    let first := s.cs ⟨0, first_inside⟩
    let second := s.cs ⟨1, second_inside⟩
    [first.x, first.y, second.x, second.y, second.a].map fun f => some (.scalar (.number (ofFloat f)))

end
end DetScriptsWithEntities

namespace BindingHost
variable {host : BindingHost (LuaValue C) E}

theorem storeNumbers_ok {i : Fin luaSimpleNumEntities}
    {stores : List (Nat × LuaValue C × (F32 → LuaSimpleEntity → LuaSimpleEntity))}
    (numbers : ∀ store ∈ stores, ∃ f, host.checkNumber store.1 store.2.1 = .ok f) (s : BindingState) :
    ∃ s', host.storeNumbers i s stores = (s', .ok []) ∧ s'.fs = s.fs := by
  induction stores generalizing s with
  | nil => exact ⟨s, rfl, rfl⟩
  | cons store stores ih =>
    obtain ⟨n, v, put⟩ := store
    obtain ⟨⟨f, number⟩, others⟩ := List.forall_mem_cons.mp numbers
    obtain ⟨s', stored, frame⟩ := ih others { s with cs := Function.update s.cs i (put f (s.cs i)) }
    refine ⟨s', ?_, frame⟩
    rw [storeNumbers, number]
    exact stored

/-- `set_entity` of an integer and three numbers. -/
theorem TakesNumbers.lSetEntity_ok (takes : host.TakesNumbers) {n : Nat} (small : n < 2 ^ 31) (x y a : C.Number)
    (s : BindingState) : ∃ s', host.lSetEntity s (some (.scalar (luaInt n))) (some (.scalar (.number x)))
        (some (.scalar (.number y))) (some (.scalar (.number a))) = (s', .ok []) ∧
      s'.fs = s.fs ∧ ((∀ j, (s.cs j).Canonical) → ∀ j, (s'.cs j).Canonical) := by
  have stored : ∃ s', host.lSetEntity s (some (.scalar (luaInt n))) (some (.scalar (.number x)))
      (some (.scalar (.number y))) (some (.scalar (.number a))) = (s', .ok []) ∧ s'.fs = s.fs := by
    rw [lSetEntity, takes.integer 1 n small]
    dsimp only
    split
    · refine storeNumbers_ok ?_ s
      exact List.forall_mem_cons.mpr ⟨takes.number 2 x, List.forall_mem_cons.mpr ⟨takes.number 3 y,
        List.forall_mem_singleton.mpr (takes.number 4 a)⟩⟩
    · exact ⟨s, rfl, rfl⟩
  obtain ⟨s', run, frame⟩ := stored
  refine ⟨s', run, frame, fun canonical => ?_⟩
  have passed : (BindingCall.setEntity (some (.scalar (luaInt n))) (some (.scalar (.number x)))
      (some (.scalar (.number y))) (some (.scalar (.number a)))).Canonical host :=
    fun p _ f check nan => takes.quiet p.1 p.2 f check nan
  have kept := setEntity_canonical passed canonical
  rwa [run] at kept

end BindingHost

namespace DetScriptsWithEntities
variable {host : BindingHost (LuaValue C) E} (arith : LuaArith C) (ofFloat : F32 → C.Number) {nudge : Nudge C}

/-- Of numbers the nudge makes numbers. -/
def Nudges (nudge : Nudge C) : Prop := ∀ x y a : C.Number, ∃ x' y' a' : C.Number,
  nudge [some (.scalar (.number x)), some (.scalar (.number y)), some (.scalar (.number a))] =
    some (some (.scalar (.number x')), some (.scalar (.number y')), some (.scalar (.number a')))

theorem moveEntity_moves (takes : host.TakesNumbers) (nudges : Nudges nudge) {i : Nat} (inside : i < 8)
    (s : BindingState) : ∃ s', moveEntity host ofFloat nudge s (some (.scalar (luaInt i))) = (s', true) ∧
      s'.fs = s.fs ∧ ((∀ j, (s.cs j).Canonical) → ∀ j, (s'.cs j).Canonical) := by
  have row : ∃ x y a, host.lGetEntity s (some (.scalar (luaInt i))) = .ok [.number x, .number y, .number a] := by
    rw [BindingHost.lGetEntity, takes.integer 1 i (by omega)]
    dsimp only
    rw [dif_pos ⟨by omega, by omega⟩]
    exact ⟨_, _, _, rfl⟩
  obtain ⟨x, y, a, got⟩ := row
  obtain ⟨x', y', a', nudged⟩ := nudges (ofFloat x) (ofFloat y) (ofFloat a)
  obtain ⟨s', set, frame, canonical⟩ := takes.lSetEntity_ok (n := i) (by omega) x' y' a' s
  have moved : ((host.lGetEntity s (some (.scalar (luaInt i)))).toOption.bind fun results =>
      nudge (results.map (pushed ofFloat))) = some (some (.scalar (.number x')), some (.scalar (.number y')),
        some (.scalar (.number a'))) := by
    rw [got]
    exact nudged
  refine ⟨s', ?_, frame, canonical⟩
  rw [moveEntity, moved]
  dsimp only
  rw [set]

/-- The fields of a body whose entity is `i`. -/
def fields (i : Nat) : Nat → List (List UInt8 × LuaScalar C) := DetTwoScripts.fields "step" "entity" fun _ => luaInt i

/-- The state of a body after each number of turns. -/
def inv (i : Nat) : Nat → BodyPlace → ScriptCtx C → Prop := DetTwoScripts.inv "step" "entity" fun _ => luaInt i

theorem block_holds (takes : host.TakesNumbers) (nudges : Nudges nudge) {i n : Nat} (inside : i < 8) (before : n < 30)
    (s : BindingState) : ∃ s', s'.fs = s.fs ∧ ((∀ j, (s.cs j).Canonical) → ∀ j, (s'.cs j).Canonical) ∧
      ∀ ctx others, others.length < 8 →
        ScriptCtx.Holds ctx ((ascii "entity", luaInt i) :: (ascii "step", luaInt n) :: others) →
          ∃ ctx', ScriptCtx.Holds ctx' ((ascii "entity", luaInt i) :: (ascii "step", luaInt (n + 1)) :: others) ∧
            block host arith ofFloat nudge s ctx = (s', ctx'.put "pc" (.string (ascii "after")), .yields .afterA) := by
  obtain ⟨s', moved, frame, canonical⟩ := moveEntity_moves ofFloat takes nudges inside s
  refine ⟨s', frame, canonical, fun ctx others few holds => ?_⟩
  have counted := holds.put_at [_] others (by rw [List.length_singleton]; omega) (luaInt (n + 1))
  refine ⟨_, counted, ?_⟩
  rw [block, holds.field_at [] (_ :: others), moved]
  dsimp only
  rw [holds.field_at [_] others, arith.add_int n 1 (by omega)]
  rfl

theorem whileStep_inside {n : Nat} (before : n < 30) {ctx : ScriptCtx C}
    (counted : ctx.field "step" = some (.scalar (luaInt n))) (s : BindingState)
    (inside : BindingState × ScriptCtx C × BodyStop BodyPlace) : whileStep arith s ctx inside = inside := by
  rw [whileStep, counted, arith.lt_int n 30 (by omega) (by decide), decide_eq_true before]

theorem steady (takes : host.TakesNumbers) (nudges : Nudges nudge) {i N : Nat} (inside : i < 8) (bound : N ≤ 30) :
    (body host arith ofFloat nudge).Steady (inv i) N := by
  have slots : ∀ n, SlotFields (fields i n : List (List UInt8 × LuaScalar C)) :=
    DetTwoScripts.slots (by decide) fun _ => compact_int (by decide) i
  refine ScriptBody.steady_of_fields slots fun n before s => ?_
  have before : n < 30 := before.trans_le bound
  obtain ⟨s', frame, canonical, run⟩ := block_holds arith ofFloat takes nudges inside before s
  refine ⟨s', congrArg FrameState.frame frame, canonical, fun ctx holds => ?_⟩
  cases n with
  | zero =>
    obtain ⟨ctx', next, ran⟩ := run ctx [] (show 0 < 8 by decide) holds
    have apart : ascii "pc" ∉ [ascii "entity", ascii "step"] := by decide
    have unmarked : ctx.field "pc" = none := holds.absent apart
    have round : turn host arith ofFloat nudge .top s ctx =
        (s', ctx'.put "pc" (.string (ascii "after")), .yields .afterA) := by
      rw [turn, whileStep_inside arith before (holds.field_at [_] []), ScriptCtx.atTop_of_absent unmarked, if_pos rfl,
        ran]
    exact ⟨_, next.put_new apart (show 2 < 256 by decide) _, round, round⟩
  | succ n =>
    have marked := holds.field_at [_, _] []
    have looped := holds.put_at [_, _] [] (show 2 < 256 by decide) (.string (ascii "loop_top"))
    obtain ⟨ctx', next, ran⟩ := run _ [_] (show 1 < 8 by decide) looped
    have round : bottom host arith ofFloat nudge s ctx =
        (s', ctx'.put "pc" (.string (ascii "after")), .yields .afterA) := by
      rw [bottom, whileStep_inside arith before (looped.field_at [_] [_]), ran]
    have again : turn host arith ofFloat nudge .top s ctx = bottom host arith ofFloat nudge s ctx := by
      have later : ctx.atTop = false := ScriptCtx.atTop_of_marked marked
      rw [turn, whileStep_inside arith before (holds.field_at [_] [_]), later, if_neg Bool.false_ne_true]
    exact ⟨_, next.put_at [_, _] [] (show 2 < 256 by decide) _, round, again.trans round⟩

/-- The sum of two numbers is a number. -/
def Adds (arith : LuaArith C) : Prop :=
  ∀ x y : C.Number, ∃ z, arith.add (some (.scalar (.number x))) (.number y) = some (.number z)

variable {arith}

theorem moverX_nudges (adds : Adds arith) : Nudges (moverX arith) := by
  intro x y a
  obtain ⟨z, sum⟩ := adds x (C.ofDouble 0x3ff0000000000000)
  refine ⟨z, y, a, ?_⟩
  rw [moverX, literal, sum]
  rfl

theorem moverY_nudges (adds : Adds arith) : Nudges (moverY arith) := by
  intro x y a
  obtain ⟨z, sum⟩ := adds y (C.ofDouble 0x3fe0000000000000)
  refine ⟨x, z, a, ?_⟩
  rw [moverY, literal, sum]
  rfl

theorem rotator_nudges (adds : Adds arith) : Nudges (rotator arith) := by
  intro x y a
  obtain ⟨z, sum⟩ := adds a (C.ofDouble 0x3fb999999999999a)
  refine ⟨x, y, z, ?_⟩
  rw [rotator, literal, sum]
  rfl

theorem place_keeps (takes : host.TakesNumbers) (s : BindingState) {idx : Nat} (small : idx < 2 ^ 31) (x y a : F64) :
    (place host s idx x y a).fs = s.fs ∧
      ((∀ j, (s.cs j).Canonical) → ∀ j, ((place host s idx x y a).cs j).Canonical) := by
  obtain ⟨s', run, kept⟩ := takes.lSetEntity_ok small (C.ofDouble x) (C.ofDouble y) (C.ofDouble a) s
  have placed : place host s idx x y a = s' := congrArg Prod.fst run
  rwa [placed]

/-- A seed of the entity `i`. -/
theorem seed_holds (i : Nat) : ScriptCtx.Holds (luaTable [("entity", luaInt i), ("step", luaInt 0)] : ScriptCtx C)
    (fields i 0) :=
  (ManagedWorkload.seed_holds (by decide) (luaInt i) (luaInt 0)).perm (List.Perm.swap _ _ _)

/-- The states of the three scripts after each number of frames. -/
def invs : List (Nat → BodyPlace → ScriptCtx C → Prop) := [inv 0, inv 0, inv 1]

theorem cart_steady (takes : host.TakesNumbers) (adds : Adds arith) {N : Nat} (bound : N ≤ 30) :
    (cart host arith ofFloat).Steady host N invs where
  room := show 3 ≤ 64 by decide
  scripts :=
    .cons ⟨steady arith ofFloat takes (moverX_nudges adds) (by decide) bound, And.intro rfl (seed_holds 0)⟩
      (.cons ⟨steady arith ofFloat takes (moverY_nudges adds) (by decide) bound, And.intro rfl (seed_holds 0)⟩
        (.cons ⟨steady arith ofFloat takes (rotator_nudges adds) (by decide) bound, And.intro rfl (seed_holds 1)⟩ .nil))
  opening := by
    obtain ⟨frame, canonical⟩ := place_keeps takes freshBindings (show 0 < 2 ^ 31 by decide)
      0x4059000000000000 0x4059000000000000 0
    obtain ⟨frame', canonical'⟩ := place_keeps takes
      (place host freshBindings 0 0x4059000000000000 0x4059000000000000 0) (show 1 < 2 ^ 31 by decide)
      0x4049000000000000 0x4049000000000000 0
    exact ⟨congrArg FrameState.frame (frame'.trans frame),
      canonical' (canonical ManagedWorkload.freshBindings_canonical)⟩
  reports _ _ _ _ := rfl
  numbers _ s _ _ v member := by
    obtain ⟨f, -, rfl⟩ := List.mem_map.mp member
    exact takes.number 1 (ofFloat f)

/-- A zero or a normal float as a `double`. -/
def widen (f : F32) : F64 :=
  if f = 0 then 0
  else ((f >>> 31).toUInt64 <<< 63) ||| ((((f >>> 23) &&& 0xff).toUInt64 + 896) <<< 52) |||
    ((f &&& 0x7fffff).toUInt64 <<< 29)

/-- The sums of the first two frames. -/
def sum (x y : F64) : F64 :=
  ([((0x4059000000000000, 0x3ff0000000000000), 0x4059400000000000),
    ((0x4059000000000000, 0x3fe0000000000000), 0x4059200000000000),
    ((0, 0x3fb999999999999a), 0x3fb999999999999a),
    ((0x4059400000000000, 0x3ff0000000000000), 0x4059800000000000),
    ((0x4059200000000000, 0x3fe0000000000000), 0x4059400000000000),
    ((0x3fb99999a0000000, 0x3fb999999999999a), 0x3fc999999ccccccd)].lookup (x, y)).getD x

/-- The floats of the first two frames. -/
def narrow (x : F64) : F32 :=
  ([(0x4059000000000000, 0x42c80000), (0x4049000000000000, 0x42480000), (0x4059400000000000, 0x42ca0000),
    (0x4059200000000000, 0x42c90000), (0x3fb999999999999a, 0x3dcccccd), (0x3fb99999a0000000, 0x3dcccccd),
    (0x4059800000000000, 0x42cc0000), (0x3fc999999ccccccd, 0x3e4ccccd),
    (0x3fc99999a0000000, 0x3e4ccccd)].lookup x).getD 0

def addNumbers (v : LuaValue luaConf64) (d : LuaScalar luaConf64) : Option (LuaScalar luaConf64) :=
  match v, d with
  | some (.scalar (.number x)), .number y => some (.number (sum x y))
  | v, d => LuaArith64.add v d

theorem addNumbers_int (n m : Nat) (small : n + m < 2 ^ 31) :
    addNumbers (some (.scalar (luaInt n))) (luaInt m) = some (luaInt (n + m)) := LuaArith64.add_int n m small

/-- Lua's operations with those sums. -/
def numberArith : LuaArith luaConf64 where
  lt := LuaArith64.lt
  le := LuaArith64.le
  eq := LuaArith64.eq
  add := addNumbers
  mul := LuaArith64.mul
  mod := LuaArith64.mod
  lt_int := LuaArith64.lt_int
  le_int := LuaArith64.le_int
  eq_int := LuaArith64.eq_int
  add_int := addNumbers_int
  mul_int := LuaArith64.mul_int
  mod_int := LuaArith64.mod_int

/-- A host for the first two frames. -/
def numberHost : BindingHost (LuaValue luaConf64) Unit where
  checkInteger _ v := (int64Of v).elim (.error ()) fun i => .ok i.toInt
  checkNumber _ v :=
    match v with
    | some (.scalar (.number x)) => .ok (canonicalizeNanf (narrow x))
    | _ => .error ()
  scale _ := 0
  add := tabulated [((0, 0x42ca0000), 0x42ca0000), ((0x42ca0000, 0x42c90000), 0x43498000),
    ((0x43498000, 0x42480000), 0x437b8000), ((0x437b8000, 0x42480000), 0x4396c000),
    ((0x4396c000, 0x3dcccccd), 0x4396cccd), ((0x4396cccd, 0x42cc0000), 0x43c9cccd),
    ((0x43c9cccd, 0x42ca0000), 0x43fc4ccd), ((0x43fc4ccd, 0x42480000), 0x440aa666),
    ((0x440aa666, 0x42480000), 0x44172666), ((0x44172666, 0x3e4ccccd), 0x44173333)]

theorem numberHost_takes : numberHost.TakesNumbers where
  integer _ n small := congrArg Except.ok (toInt_luaInt small)
  number _ x := ⟨canonicalizeNanf (narrow x), rfl⟩
  quiet k v f taken nan := by
    have number : ∃ y, f = canonicalizeNanf y := by
      cases v with
      | none => cases taken
      | some field =>
        cases field with
        | scalar value =>
          cases value with
          | number x => exact ⟨narrow x, (Except.ok.inj taken).symm⟩
          | _ => cases taken
        | _ => cases taken
    obtain ⟨y, rfl⟩ := number
    rw [canonicalizeNanf_eq] at nan ⊢
    split
    · rfl
    · rename_i quiet
      rw [if_neg quiet] at nan
      exact absurd nan quiet

theorem numberArith_adds : Adds numberArith := fun x y => ⟨sum x y, rfl⟩

end DetScriptsWithEntities
end Blyt
