import Blyt.ManagedCartResume

namespace Blyt
variable {C : LuaConf}

/-- An integer that Lua holds whatever its width. -/
def luaInt (n : Nat) : LuaScalar C := .integer (C.ofInt64 (UInt64.ofNat n))

/-- What the bodies take from Lua: comparisons and sums of values, where `none` is an error. On integers that fit in 31
bits they are those of the numbers. -/
structure LuaArith (C : LuaConf) where
  lt : LuaValue C → LuaScalar C → Option Bool
  le : LuaScalar C → LuaScalar C → Option Bool
  eq : LuaValue C → LuaScalar C → Bool
  add : LuaValue C → LuaScalar C → Option (LuaScalar C)
  mul : LuaValue C → LuaScalar C → Option (LuaScalar C)
  mod : LuaValue C → LuaScalar C → Option (LuaScalar C)
  lt_int : ∀ n m, n < 2 ^ 31 → m < 2 ^ 31 → lt (some (.scalar (luaInt n))) (luaInt m) = some (decide (n < m))
  le_int : ∀ n m, n < 2 ^ 31 → m < 2 ^ 31 → le (luaInt n) (luaInt m) = some (decide (n ≤ m))
  eq_int : ∀ n m, n < 2 ^ 31 → m < 2 ^ 31 → eq (some (.scalar (luaInt n))) (luaInt m) = decide (n = m)
  add_int : ∀ n m, n + m < 2 ^ 31 → add (some (.scalar (luaInt n))) (luaInt m) = some (luaInt (n + m))
  mul_int : ∀ n m, n < 2 ^ 31 → m < 2 ^ 31 → n * m < 2 ^ 31 →
    mul (some (.scalar (luaInt n))) (luaInt m) = some (luaInt (n * m))
  mod_int : ∀ n m, n < 2 ^ 31 → m < 2 ^ 31 → 0 < m → mod (some (.scalar (luaInt n))) (luaInt m) = some (luaInt (n % m))

namespace LuaValue

/-- What `and`, `or` and `if` make of a value. -/
def truthy : LuaValue C → Bool
  | none => false
  | some (.scalar (.boolean b)) => b
  | some _ => true

/-- `v or d`. -/
def or (v : LuaValue C) (d : LuaScalar C) : LuaValue C := if truthy v then v else some (.scalar d)

/-- `v == text`, of a string. -/
def isText (v : LuaValue C) (text : String) : Bool :=
  match v with
  | some (.scalar (.string bytes)) => bytes == ascii text
  | _ => false

end LuaValue

namespace ScriptCtx

/-- `ctx.name`. -/
def field (ctx : ScriptCtx C) (name : String) : LuaValue C := ctx.get? (.string (ascii name))

/-- `ctx.name = v`. -/
def put (ctx : ScriptCtx C) (name : String) (v : LuaScalar C) : ScriptCtx C := ctx.set (.string (ascii name)) (.scalar v)

/-- `ctx.name = v`, of an expression that may raise, and what comes behind it. -/
def assign {P : Type} (ctx : ScriptCtx C) (name : String) (v : Option (LuaScalar C))
    (rest : ScriptCtx C → ScriptCtx C × BodyStop P) : ScriptCtx C × BodyStop P :=
  match v with
  | none => (ctx, .raises)
  | some v => rest (ctx.put name v)

/-- `while` with a test that may raise; behind the loop the body ends. -/
def whileTest {P : Type} (ctx : ScriptCtx C) (test : Option Bool) (inside : ScriptCtx C × BodyStop P) :
    ScriptCtx C × BodyStop P :=
  match test with
  | none => (ctx, .raises)
  | some true => inside
  | some false => (ctx, .returns)

/-- `(ctx.pc or "loop_top") == "loop_top"`. -/
def atTop (ctx : ScriptCtx C) : Bool := ((ctx.field "pc").or (.string (ascii "loop_top"))).isText "loop_top"

end ScriptCtx

/-- Where the bodies of the workloads stand: at the first line, or behind one of the yields. -/
inductive BodyPlace where
  | top
  | afterA
  | afterB
  | afterC
  deriving DecidableEq

/-- A body that touches nothing but its `ctx`. -/
def ScriptBody.ofCtx {P : Type} (entry : P) (turn : P → ScriptCtx C → ScriptCtx C × BodyStop P) : ScriptBody P C where
  entry := entry
  turn place s ctx := (s, turn place ctx)

section
variable (arith : LuaArith C)

/-- `ctx.step = ctx.step + 1; ctx.angle = (ctx.step * 17) % 360`. -/
def advance {P : Type} (ctx : ScriptCtx C) (rest : ScriptCtx C → ScriptCtx C × BodyStop P) : ScriptCtx C × BodyStop P :=
  ctx.assign "step" (arith.add (ctx.field "step") (luaInt 1)) fun ctx =>
    ctx.assign "angle" ((arith.mul (ctx.field "step") (luaInt 17)).bind fun v => arith.mod (some (.scalar v)) (luaInt 360)) rest

/-- `ctx.tics = ctx.tics + 1; ctx.chasing = (ctx.tics % 6) >= 3`. -/
def patrol {P : Type} (ctx : ScriptCtx C) (rest : ScriptCtx C → ScriptCtx C × BodyStop P) : ScriptCtx C × BodyStop P :=
  ctx.assign "tics" (arith.add (ctx.field "tics") (luaInt 1)) fun ctx =>
    ctx.assign "chasing" ((arith.mod (ctx.field "tics") (luaInt 6)).bind fun v => (arith.le (luaInt 3) v).map .boolean) rest

namespace DetCutsceneLinear

def turn (ctx : ScriptCtx C) : ScriptCtx C × BodyStop BodyPlace :=
  ctx.whileTest (arith.lt (ctx.field "step") (luaInt 30)) (advance arith ctx fun ctx => (ctx, .yields .afterA))

/-- Behind the yield the loop is at its test, as at the first line. -/
def body : ScriptBody BodyPlace C := .ofCtx .top fun _ => turn arith

end DetCutsceneLinear

namespace DetCutsceneBranched

def phaseA (ctx : ScriptCtx C) : ScriptCtx C × BodyStop BodyPlace :=
  advance arith ctx fun ctx => (ctx.put "pc" (.string (ascii "after_a")), .yields .afterA)

def phaseB (ctx : ScriptCtx C) : ScriptCtx C × BodyStop BodyPlace :=
  ctx.assign "bonus" (arith.add ((ctx.field "bonus").or (luaInt 0)) (luaInt 5)) fun ctx =>
    (ctx.put "pc" (.string (ascii "after_b")), .yields .afterB)

def phaseC (ctx : ScriptCtx C) : ScriptCtx C × BodyStop BodyPlace :=
  ctx.assign "bonus" (arith.add (ctx.field "bonus") (luaInt 1)) fun ctx =>
    (ctx.put "pc" (.string (ascii "after_c")), .yields .afterC)

/-- The end of the loop's body, and its next round. -/
def bottom (ctx : ScriptCtx C) : ScriptCtx C × BodyStop BodyPlace :=
  let ctx := ctx.put "pc" (.string (ascii "loop_top"))
  -- the mark is `loop_top` now, so the next round begins with phase A
  ctx.whileTest (arith.lt (ctx.field "step") (luaInt 30)) (phaseA arith ctx)

/-- From behind the block of phase B. -/
def behindB (ctx : ScriptCtx C) : ScriptCtx C × BodyStop BodyPlace :=
  if (ctx.field "pc").isText "after_b" then phaseC arith ctx else bottom arith ctx

/-- From behind the block of phase A. -/
def behindA (ctx : ScriptCtx C) : ScriptCtx C × BodyStop BodyPlace :=
  if arith.eq (ctx.field "step") (luaInt 12) then
    if (ctx.field "pc").isText "after_a" then phaseB arith ctx else behindB arith ctx
  else bottom arith ctx

def turn : BodyPlace → ScriptCtx C → ScriptCtx C × BodyStop BodyPlace
  | .top, ctx => ctx.whileTest (arith.lt (ctx.field "step") (luaInt 30)) <|
    if ctx.atTop then phaseA arith ctx else behindA arith ctx
  | .afterA, ctx => behindA arith ctx
  | .afterB, ctx => behindB arith ctx
  | .afterC, ctx => bottom arith ctx

def body : ScriptBody BodyPlace C := .ofCtx .top (turn arith)

end DetCutsceneBranched

namespace DetTwoScripts

/-- The loop of both bodies, where `work` is what a round does up to its mark. -/
def turn (counter : String) (work : ScriptCtx C → (ScriptCtx C → ScriptCtx C × BodyStop BodyPlace) →
    ScriptCtx C × BodyStop BodyPlace) : BodyPlace → ScriptCtx C → ScriptCtx C × BodyStop BodyPlace :=
  let block (ctx : ScriptCtx C) := work ctx fun ctx => (ctx.put "pc" (.string (ascii "after")), .yields .afterA)
  let bottom (ctx : ScriptCtx C) :=
    let ctx := ctx.put "pc" (.string (ascii "loop_top"))
    -- the mark is `loop_top` now, so the next round enters the block
    ctx.whileTest (arith.lt (ctx.field counter) (luaInt 30)) (block ctx)
  fun place ctx =>
    match place with
    | .top => ctx.whileTest (arith.lt (ctx.field counter) (luaInt 30)) (if ctx.atTop then block ctx else bottom ctx)
    | _ => bottom ctx

def cutscene : ScriptBody BodyPlace C := .ofCtx .top (turn arith "step" (advance arith))
def ai : ScriptBody BodyPlace C := .ofCtx .top (turn arith "tics" (patrol arith))

end DetTwoScripts
end

/-- A table of the workload's text, its fields stored in order. -/
def luaTable (fields : List (String × LuaScalar C)) : ScriptCtx C :=
  fields.foldl (fun ctx f => ctx.put f.1 f.2) LuaTable.empty

/-- The workloads whose scripts live as long as the cart. -/
inductive ManagedWorkload where
  | detCutsceneLinear
  | detCutsceneBranched
  | detTwoScripts

namespace ManagedWorkload
variable (arith : LuaArith C)

def scripts : ManagedWorkload → List (ScriptBody BodyPlace C × ScriptCtx C)
  | detCutsceneLinear => [(DetCutsceneLinear.body arith, luaTable [("step", luaInt 0), ("angle", luaInt 0)])]
  | detCutsceneBranched => [(DetCutsceneBranched.body arith, luaTable [("step", luaInt 0), ("angle", luaInt 0)])]
  | detTwoScripts =>
    [(DetTwoScripts.cutscene arith, luaTable [("step", luaInt 0), ("angle", luaInt 0)]),
      (DetTwoScripts.ai arith, luaTable [("tics", luaInt 0), ("chasing", .boolean false)])]

/-- What the frame loop hands to `add_misc`. -/
def report : ManagedWorkload → List (Bool × Option (ScriptCtx C)) → List (LuaValue C)
  | detCutsceneLinear, [(true, some ctx)] => [ctx.field "step", ctx.field "angle"]
  | detCutsceneBranched, [(true, some ctx)] =>
    [ctx.field "step", ctx.field "angle"] ++ if (ctx.field "bonus").truthy then [ctx.field "bonus"] else []
  | detTwoScripts, [(_, cs), (_, ai)] =>
    (cs.elim [] fun ctx => [ctx.field "step", ctx.field "angle"]) ++
      ai.elim [] fun ctx =>
        [ctx.field "tics", some (.scalar (luaInt (if (ctx.field "chasing").truthy then 1 else 0)))]
  | _, _ => []

def cart (w : ManagedWorkload) : ManagedCart BodyPlace C where
  opening := id
  scripts := w.scripts arith
  report _ := w.report

end ManagedWorkload
end Blyt
