import Blyt.FrameWorkload
import Blyt.LuaBindingsResume
import Blyt.ScriptCtx
import Blyt.ScriptIdentity

namespace Blyt
open Packed SaveIo

/-- How a body gives control back: at a `yield`, behind which it goes on, or for good. -/
inductive BodyStop (P : Type) where
  | yields (place : P)
  | returns
  | raises

def BodyStop.ending {P : Type} : BodyStop P → BodyEnd
  | .yields _ => .yields
  | .returns => .returns
  | .raises => .raises

/-- The body of a managed coroutine: what it does from a place where it stands up to its next stop, to the objects
behind the bindings and to its `ctx`. -/
structure ScriptBody (P : Type) (C : LuaConf) where
  entry : P
  turn : P → BindingState → ScriptCtx C → BindingState × ScriptCtx C × BodyStop P

/-- A coroutine of the module, and where its body stands. -/
structure ManagedCoroutine (P : Type) (C : LuaConf) where
  body : ScriptBody P C
  place : P

/-- A process that runs a cart: the objects of the bindings, the module, and the coroutine of each of its records. -/
structure ManagedProcess (P : Type) (C : LuaConf) where
  bindings : BindingState
  module : ScriptModule C
  coroutines : Nat → Option (ManagedCoroutine P C)

/-- What ends a cart before its last frame. -/
inductive CartError (E : Type) where
  | script (e : ScriptError)
  | host (e : E)

namespace ManagedProcess
variable {P : Type} {C : LuaConf}

/-- The process behind `cart_det_init`. -/
def fresh : ManagedProcess P C := ⟨freshBindings, .start .reset false, fun _ => none⟩

/-- `blyt32.coroutine.create(body, seed)`. -/
def create (p : ManagedProcess P C) (body : ScriptBody P C) (seed : ScriptCtx C) :
    Exec (ManagedProcess P C × Except ScriptError Int) := do
  let (m, result) ← p.module.create seed
  return ({ p with
    module := m
    coroutines := Function.update p.coroutines p.module.fresh (some ⟨body, body.entry⟩) }, result)

/-- The creates of a cart, one after the other, up to one that raises: the handles. -/
def createAll (p : ManagedProcess P C) : List (ScriptBody P C × ScriptCtx C) →
    Exec (ManagedProcess P C × Except ScriptError (List Int))
  | [] => .returns (p, .ok [])
  | (body, seed) :: scripts => do
    let (p, result) ← p.create body seed
    match result with
    | .error e => return (p, .error e)
    | .ok handle =>
      let (p, handles) ← p.createAll scripts
      return (p, handles.map (handle :: ·))

/-- `blyt32.coroutine.resume(handle)`; the body it enters runs up to its next stop. -/
def resume (p : ManagedProcess P C) (handle : Int) : Exec (ManagedProcess P C × Resumed C) := do
  let (m, answer) ← p.module.resume handle
  let entered := m.resuming.head?.bind fun call => (p.coroutines call.2).map (Prod.mk call.2)
  match answer, entered with
  | none, some (id, co) =>
    let (bindings, ctx, stop) := co.body.turn co.place p.bindings (m.scripts id).ctx
    let (m, answer) ← (m.mutate id ctx).leave stop.ending
    let place := match stop with
      | .yields place => place
      | _ => co.place
    return (⟨bindings, m, Function.update p.coroutines id (some ⟨co.body, place⟩)⟩, answer.getD (.returned false none))
  | answer, _ => return ({ p with module := m }, answer.getD (.returned false none))

/-- The resumes of a frame, up to one that raises: the results. -/
def resumeAll (p : ManagedProcess P C) :
    List Int → Exec (ManagedProcess P C × Except ScriptError (List (Bool × Option (ScriptCtx C))))
  | [] => .returns (p, .ok [])
  | handle :: handles => do
    let (p, answer) ← p.resume handle
    match answer with
    | .raised e => return (p, .error e)
    | .returned ok ctx =>
      let (p, answers) ← p.resumeAll handles
      return (p, answers.map ((ok, ctx) :: ·))

end ManagedProcess

/-- `console.add_misc` of each of the values, up to an error. -/
def BindingHost.addAll {V E : Type} (host : BindingHost V E) (s : BindingState) : List V → BindingState × Option E
  | [] => (s, none)
  | v :: values =>
    match host.lAddMisc s v with
    | (s, .error e) => (s, some e)
    | (s, .ok _) => host.addAll s values

/-- A cart of managed coroutines: what it does to the objects when it is not resumed, its scripts in the order of
their creation, and what it folds into the digest behind the resumes of a frame. -/
structure ManagedCart (P : Type) (C : LuaConf) where
  opening : BindingState → BindingState
  scripts : List (ScriptBody P C × ScriptCtx C)
  report : BindingState → List (Bool × Option (ScriptCtx C)) → List (LuaValue C)

namespace ManagedCart
variable {P E : Type} {C : LuaConf} (cart : ManagedCart P C) (host : BindingHost (LuaValue C) E)

/-- A round of the frame loop. -/
def frame (handles : List Int) (p : ManagedProcess P C) :
    Exec (ManagedProcess P C × Except (CartError E) Digest) := do
  let (p, answers) ← p.resumeAll handles
  match answers with
  | .error e => return (p, .error (.script e))
  | .ok answers =>
    match host.addAll p.bindings (cart.report p.bindings answers) with
    | (bindings, some e) => return ({ p with bindings := bindings }, .error (.host e))
    | (bindings, none) =>
      let (bindings, digest) := BindingHost.lCommitFrame bindings
      return ({ p with bindings := bindings }, .ok digest)

/-- The frame loop: the digests it prints, and what ends it early. -/
def frames (handles : List Int) : Nat → ManagedProcess P C →
    Exec (ManagedProcess P C × List Digest × Option (CartError E))
  | 0, p => .returns (p, [], none)
  | n + 1, p => do
    let (p, result) ← cart.frame host handles p
    match result with
    | .error e => return (p, [], some e)
    | .ok digest =>
      let (p, digests, ended) ← frames handles n p
      return (p, digest :: digests, ended)

/-- The workload, in a process that has the module loaded. -/
def workload (numFrames : Int) (p : ManagedProcess P C) :
    Exec (ManagedProcess P C × List Digest × Option (CartError E)) := do
  let p := if p.module.loadResume then p else { p with bindings := cart.opening p.bindings }
  let (p, handles) ← p.createAll cart.scripts
  match handles with
  | .error e => return (p, [], some (.script e))
  | .ok handles => cart.frames host handles (numFrames - p.bindings.fs.frame.toNat).toNat p

end ManagedCart

/-- The objects behind the regions of these carts. -/
inductive ManagedObject where
  | frameState
  | cartState
  | scripts
  deriving DecidableEq

theorem managedObjects_distinct : [ManagedObject.frameState, .cartState, .scripts].Nodup := by decide

/-- `runtime_tracked_regions` of these carts. -/
def managedRegistry : Registry ManagedObject :=
  ⟨[regionFrameState .frameState, regionCartStateLuaSimple .cartState, regionPersistentScripts .scripts],
    managedObjects_distinct⟩

namespace ManagedProcess
variable {P : Type} {C : LuaConf}

/-- The objects as the regions of a process hold them. -/
def store (p : ManagedProcess P C) : ManagedObject → List UInt8
  | .frameState => Blyt.frameState.encode p.bindings.fs
  | .cartState => cartStateLuaSimple.encode p.bindings.cs
  | .scripts => persistentScripts.encode p.module.region

/-- The process of the load program behind `cart_det_set_load_resume`. -/
def loaded (rng : Pcg32) (store : ManagedObject → List UInt8) : ManagedProcess P C where
  bindings := cartDetResyncRngFromFs (bindingState rng store .frameState .cartState)
  module := .start (persistentScripts.decode (store .scripts)).unmarkAll true
  coroutines _ := none

end ManagedProcess

/-- What the save program stops with. -/
inductive SavePanic (E : Type) where
  | cart (e : CartError E)
  | returnedZero

namespace ManagedCart
variable {P E : Type} {C : LuaConf} (cart : ManagedCart P C) (host : BindingHost (LuaValue C) E)

/-- A process behind `save_state_init` and `cart_det_init`. -/
def boot : Exec (Runtime managedRegistry) :=
  saveStateInit (.boot managedRegistry (ManagedProcess.fresh : ManagedProcess P C).store)

/-- `main` of the full program: the digests, and what ends them early. -/
def fullMain (nframes : Nat) : Exec (List Digest × Option (CartError E)) := do
  let _ ← boot (P := P) (C := C)
  let (_, digests, ended) ← cart.workload host nframes .fresh
  return (digests, ended)

/-- `(int)save_frame + 1`. -/
def saveFrames (S : UInt32) : Exec Int :=
  if S = 0x7fffffff then .outOfBounds else .returns (S.toInt32.toInt + 1)

/-- `main` of the save program: the digests, and the text behind them. -/
def saveMain (S : UInt32) : Exec (List Digest × Except (SavePanic E) (List UInt8)) := do
  let rt ← boot (P := P) (C := C)
  let (p, digests, ended) ← cart.workload host (← saveFrames S) .fresh
  match ended with
  | some e => return (digests, .error (.cart e))
  | none =>
    let saved ← saveStateSave (rt.withStore p.store) 32768 S
    if saved.ret = 0 then return (digests, .error .returnedZero)
    else
      let text ← saveStateEmitHex (← spanOf saved.written)
      return (digests, .ok text)

/-- `main` of the load program. -/
def loadMain (nframes : Nat) (given : Nat → Nat) (file : Option (List UInt8)) :
    Exec (Except LoadPanic (List Digest × Option (CartError E))) := do
  let rt ← boot (P := P) (C := C)
  match saveIoReadFile file given 131071 with
  | none => return .error .cannotRead
  | some hexbuf =>
    let parsed := saveIoParseHex hexbuf 32768
    if parsed.ret < 0 then return .error .parseFailed
    else
      let (ok, rt) ← saveStateLoad rt (← spanOf parsed.written)
      if ok then
        let (_, digests, ended) ← cart.workload host nframes (.loaded freshBindings.rng rt.store)
        return .ok (digests, ended)
      else return .error .rejected

end ManagedCart
end Blyt
