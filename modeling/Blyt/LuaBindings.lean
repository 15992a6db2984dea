import Blyt.FrameDigest
import Mathlib.Logic.Function.Basic

namespace Blyt

structure Pcg32 where
  state : UInt64
  inc : UInt64

def pcg32Seed (state inc : UInt64) : Pcg32 :=
  let inc := (inc <<< 1) ||| 1
  let mixed := 0 * 6364136223846793005 + inc + state
  ⟨mixed * 6364136223846793005 + inc, inc⟩

def pcg32Next (r : Pcg32) : Pcg32 × UInt32 :=
  let old := r.state
  let xorshifted := (((old >>> 18) ^^^ old) >>> 27).toUInt32
  let rot := (old >>> 59).toUInt32
  (⟨old * 6364136223846793005 + r.inc, r.inc⟩, (xorshifted >>> rot) ||| (xorshifted <<< (-rot &&& 31)))

def pcgDefaultState : UInt64 := 0xfc320001
def pcgDefaultInc : UInt64 := 0x14057b7ef767814f

/-- What the bindings work on: `g_rng` and the objects of the two regions. -/
structure BindingState where
  rng : Pcg32
  fs : FrameState
  cs : CartStateLuaSimple

def cartDetInit (fs : FrameState) (cs : CartStateLuaSimple) : BindingState :=
  let rng := pcg32Seed pcgDefaultState pcgDefaultInc
  ⟨rng, { fs with rngState := rng.state, rngInc := rng.inc }, cs⟩

def cartDetResyncRngFromFs (s : BindingState) : BindingState := { s with rng := ⟨s.fs.rngState, s.fs.rngInc⟩ }

/-- The process after `cart_det_init`, its static objects zeroed before. -/
def freshBindings : BindingState :=
  cartDetInit ⟨0, 0, 0, 0, 0, 0, 0, fun _ => ⟨0, 0, 0, 0, 0⟩⟩ fun _ => ⟨0, 0, 0⟩

/-- What a binding hands back to Lua; an integer is held as its bit pattern. -/
inductive LuaResult where
  | integer (bits : UInt32)
  | number (bits : F32)
  | nil
  deriving DecidableEq

/-- A call through the `console` table with the arguments it reads. -/
inductive BindingCall (V : Type) where
  | rng
  | unitFloat
  | addMisc (x : V)
  | frame
  | commitFrame
  | setEntity (idx x y a : V)
  | getEntity (idx : V)

/-- What a cart sees of a call: its results or the error it raised, and the digest emitted. -/
structure Observed (E : Type) where
  result : Except E (List LuaResult)
  digest : Option Digest

/-- What the bindings take from Lua and from the float unit: the argument checks at an index
of the stack, `(float)u * 2^-24` and the addition. -/
structure BindingHost (V E : Type) where
  checkInteger : Nat → V → Except E Int
  checkNumber : Nat → V → Except E F32
  scale : UInt32 → F32
  add : F32 → F32 → F32

namespace BindingHost
variable {V E : Type} (host : BindingHost V E)

/-- `entities[i].field = (float)luaL_checknumber(L, n)`, one after the other; the writes
before an error stand. -/
def storeNumbers (i : Fin luaSimpleNumEntities) (s : BindingState) :
    List (Nat × V × (F32 → LuaSimpleEntity → LuaSimpleEntity)) → BindingState × Except E (List LuaResult)
  | [] => (s, .ok [])
  | (n, v, put) :: rest =>
    match host.checkNumber n v with
    | .error e => (s, .error e)
    | .ok f => storeNumbers i { s with cs := Function.update s.cs i (put f (s.cs i)) } rest

def lSetEntity (s : BindingState) (idx x y a : V) : BindingState × Except E (List LuaResult) :=
  match host.checkInteger 1 idx with
  | .error e => (s, .error e)
  | .ok i =>
    if inside : 0 ≤ i ∧ i < 8 then
      host.storeNumbers ⟨i.toNat, by unfold luaSimpleNumEntities; omega⟩ s
        [(2, x, fun f row => { row with x := f }), (3, y, fun f row => { row with y := f }),
          (4, a, fun f row => { row with a := f })]
    else (s, .ok [])

def lGetEntity (s : BindingState) (idx : V) : Except E (List LuaResult) :=
  match host.checkInteger 1 idx with
  | .error e => .error e
  | .ok i =>
    if inside : 0 ≤ i ∧ i < 8 then
      let row := s.cs ⟨i.toNat, by unfold luaSimpleNumEntities; omega⟩
      .ok [.number row.x, .number row.y, .number row.a]
    else .ok [.nil, .nil, .nil]

def lAddMisc (s : BindingState) (x : V) : BindingState × Except E (List LuaResult) :=
  match host.checkNumber 1 x with
  | .error e => (s, .error e)
  | .ok f => ({ s with fs := { s.fs with accumMisc := host.add s.fs.accumMisc f } }, .ok [])

/-- `l_commit_frame`, with the digest it prints. -/
def lCommitFrame (s : BindingState) : BindingState × Digest :=
  let (fs, digest) := frameStateEmitDigest { s.fs with rngState := s.rng.state, rngInc := s.rng.inc }
  ({ s with fs := { fs with frame := fs.frame + 1 } }, digest)

def call (s : BindingState) : BindingCall V → BindingState × Observed E
  | .rng =>
    let (rng, v) := pcg32Next s.rng
    ({ s with rng := rng }, ⟨.ok [.integer v], none⟩)
  | .unitFloat =>
    let (rng, v) := pcg32Next s.rng
    ({ s with rng := rng }, ⟨.ok [.number (host.scale (v >>> 8))], none⟩)
  | .addMisc x =>
    let (s, result) := host.lAddMisc s x
    (s, ⟨result, none⟩)
  | .frame => (s, ⟨.ok [.integer s.fs.frame], none⟩)
  | .commitFrame =>
    let (s, digest) := lCommitFrame s
    (s, ⟨.ok [], some digest⟩)
  | .setEntity idx x y a =>
    let (s, result) := host.lSetEntity s idx x y a
    (s, ⟨result, none⟩)
  | .getEntity idx => (s, ⟨host.lGetEntity s idx, none⟩)

def perform (s : BindingState) (calls : List (BindingCall V)) : BindingState :=
  calls.foldl (fun s c => (host.call s c).1) s

/-- What is observed of at most `n` further calls, each chosen by `next` from the results
returned so far. -/
def follow (next : List (Except E (List LuaResult)) → Option (BindingCall V)) :
    Nat → List (Except E (List LuaResult)) → BindingState → List (Observed E)
  | 0, _, _ => []
  | n + 1, seen, s =>
    match next seen with
    | none => []
    | some c =>
      let (s, observed) := host.call s c
      observed :: follow next n (seen ++ [observed.result]) s

end BindingHost
end Blyt
