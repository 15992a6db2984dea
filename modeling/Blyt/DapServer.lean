import Blyt.Breakpoints
import Blyt.Lib.Run

namespace Blyt

inductive DapStepMode where
  | none
  | over
  | in
  | out
  | pause
  deriving DecidableEq

/-- What a hook reads of its activation record: whether it is a line event, the depth of the
call stack, the source and the current line. -/
structure HookEvent where
  isLine : Bool
  depth : Nat
  source : Option (List UInt8)
  currentline : Int

/-- What the two threads share: `g_dap`, with `connected` for a `client_fd` that is not -1,
and the debugger's part of `fc_master_hook_cfg`. Lua states are told apart by the order in
which they were made. -/
structure DapState where
  running : Bool
  connected : Bool
  configurationDone : Bool
  table : BreakpointTable
  pausedL : Option Nat
  paused : Bool
  continuePending : Bool
  stepMode : DapStepMode
  stepBaseDepth : Nat
  pendingPause : Bool

namespace DapState

/-- After `fc_consolelua_dap_listen`. -/
def listening : DapState := ⟨true, false, false, .empty, none, false, false, .none, 0, false⟩

def handleContinue (g : DapState) : DapState :=
  { g with continuePending := true, stepMode := .none, pendingPause := false }

/-- `handle_step`. The stack it walks is that of the paused state, `depth` deep. -/
def handleStep (g : DapState) (mode : DapStepMode) (depth : Nat) : DapState :=
  { g with
    stepMode := mode
    stepBaseDepth := if g.pausedL.isSome then depth else 0
    pendingPause := false
    continuePending := true }

def handlePause (g : DapState) : DapState := { g with pendingPause := true }

/-- `handle_disconnect`, which serves `terminate` too. -/
def handleDisconnect (g : DapState) : DapState :=
  { g with continuePending := true, stepMode := .none, pendingPause := false }

/-- The first section of `fc_dap_pause_loop`. -/
def enterPause (g : DapState) (L : Nat) : DapState :=
  { g with pausedL := some L, paused := true, continuePending := false }

/-- The last section of `fc_dap_pause_loop`. -/
def leavePause (g : DapState) : DapState :=
  { g with paused := false, pausedL := none, continuePending := false }

/-- The switch of `dap_dispatch`. -/
def stepPauses (g : DapState) (depth : Nat) : Bool :=
  match g.stepMode with
  | .in => true
  | .over => depth ≤ g.stepBaseDepth
  | .out => depth < g.stepBaseDepth
  | .none | .pause => false

end DapState

/-- Where a thread is in the Lua code it runs on a state: in the code itself, at one of the
three questions of `dap_dispatch` behind the first, about to pause, in the wait loop of
`fc_dap_pause_loop`, or behind it. -/
inductive Activity where
  | code (L : Nat)
  | askStep (L : Nat) (ar : HookEvent)
  | askClient (L : Nat) (ar : HookEvent)
  | askTable (L : Nat) (ar : HookEvent)
  | breaking (L : Nat)
  | waiting (L : Nat)
  | leaving (L : Nat)

namespace Activity

def state : Activity → Nat
  | code L | askStep L _ | askClient L _ | askTable L _ | breaking L | waiting L | leaving L => L

/-- The hook fires: `dap_dispatch` looks at `dap_pending_pause` first. -/
def hook (g : DapState) (L : Nat) (ar : HookEvent) : Activity := if g.pendingPause then breaking L else askStep L ar

/-- What the thread does next on its own. The mutex is held for each part that writes. -/
def next (g : DapState) : Activity → DapState × Activity
  | code L => (g, code L)
  | askStep L ar =>
    if ar.isLine && g.stepPauses ar.depth then ({ g with stepMode := .none }, breaking L)
    else (g, if ar.isLine then askClient L ar else code L)
  | askClient L ar => (g, if g.connected then askTable L ar else code L)
  | askTable L ar => (g, if g.table.shouldBreak true ar.source ar.currentline then breaking L else code L)
  | breaking L => (g.enterPause L, waiting L)
  | waiting L => (g, if g.running && !g.continuePending then waiting L else leaving L)
  | leaving L => (g.leavePause, code L)

end Activity

/-- The main thread of `dap_lua_host.c`: before `build_state`, in Lua code, between two calls
of it, or behind `fc_consolelua_dap_shutdown`. -/
inductive CartThread where
  | starting
  | inLua (a : Activity)
  | between
  | finished

/-- `dap_thread_main`: in `accept`, in `read_msg`, in a reload before and behind the
`lua_close`, in the chunk of the state it built, or returned. -/
inductive DapThread where
  | accepting
  | reading
  | reloading
  | rebuilding
  | inLua (a : Activity)
  | exited

inductive DapThreadId where
  | cart
  | dap
  deriving DecidableEq

structure DapWorld where
  g : DapState
  sL : Option Nat
  made : Nat
  cart : CartThread
  dap : DapThread

/-- A request, as its handler sees it. `hotReload` carries whether a source and a payload that
decodes were found; `other` are the requests that change nothing shared. -/
inductive DapRequest where
  | configurationDone
  | setBreakpoints (r : SetBreakpoints)
  | continue
  | step (mode : DapStepMode) (depth : Nat)
  | pause
  | disconnect
  | hotReload (decodes : Bool)
  | other

inductive DapAction where
  | connects
  | loses
  | exits
  | requests (r : DapRequest)
  | closes
  | rebuilds (built : Bool)
  | builds
  | calls
  | shutsDown
  | hooks (who : DapThreadId) (ar : HookEvent)
  | proceeds (who : DapThreadId)
  | returns (who : DapThreadId)

/-- What a request does to the shared state, `hot_reload` apart; `none` is an overflow. -/
def DapState.handle (g : DapState) : DapRequest → Option DapState
  | .configurationDone => some { g with configurationDone := true }
  | .setBreakpoints r =>
    match g.table.serve r with
    | .returns t => some { g with table := t }
    | _ => none
  | .continue => some g.handleContinue
  | .step mode depth => some (g.handleStep mode depth)
  | .pause => some g.handlePause
  | .disconnect => some g.handleDisconnect
  | .hotReload _ | .other => some g

namespace DapWorld

def start : DapWorld := ⟨.listening, none, 0, .starting, .accepting⟩

/-- Where a thread is in its Lua code, if it is in any. -/
def activity (w : DapWorld) : DapThreadId → Option Activity
  | .cart =>
    match w.cart with
    | .inLua a => some a
    | _ => none
  | .dap =>
    match w.dap with
    | .inLua a => some a
    | _ => none

def withActivity (w : DapWorld) : DapThreadId → Activity → DapWorld
  | .cart, a => { w with cart := .inLua a }
  | .dap, a => { w with dap := .inLua a }

/-- The thread's Lua code is done: the cart's call, or the chunk of the reload, which is
answered. -/
def withoutActivity (w : DapWorld) : DapThreadId → DapWorld
  | .cart => { w with cart := .between }
  | .dap => { w with dap := .reading }

/-- One step of one thread. With `waits`, the cart waits for `configurationDone` first. -/
inductive Step (waits : Bool) : DapWorld → DapAction → DapWorld → Prop
  | connects {w} : w.dap = .accepting →
      Step waits w .connects { w with g := { w.g with connected := true }, dap := .reading }
  /-- `read_msg` fails, or the server was asked to stop. -/
  | loses {w} : w.dap = .reading →
      Step waits w .loses { w with g := { w.g with connected := false }, dap := .accepting }
  | exits {w} : w.dap = .accepting → w.g.running = false → Step waits w .exits { w with dap := .exited }
  | requests {w r g} : w.dap = .reading → r ≠ .hotReload true → w.g.handle r = some g →
      Step waits w (.requests r) { w with g := g }
  | reload {w} : w.dap = .reading → Step waits w (.requests (.hotReload true)) { w with dap := .reloading }
  /-- `if (s_L) { lua_close(s_L); s_L = NULL; }`. What a thread that is still in
  the closed state does next is undefined; here it goes on. -/
  | closes {w} : w.dap = .reloading → Step waits w .closes { w with sL := none, dap := .rebuilding }
  /-- No memory for the payload or the state. -/
  | unbuilt {w} : w.dap = .rebuilding → Step waits w (.rebuilds false) { w with dap := .reading }
  | rebuilt {w} : w.dap = .rebuilding →
      Step waits w (.rebuilds true) { w with sL := some w.made, made := w.made + 1, dap := .inLua (.code w.made) }
  | builds {w} : w.cart = .starting → (waits = true → w.g.configurationDone = true) →
      Step waits w .builds { w with sL := some w.made, made := w.made + 1, cart := .inLua (.code w.made) }
  | calls {w L} : w.cart = .between → w.sL = some L → Step waits w .calls { w with cart := .inLua (.code L) }
  | shutsDown {w} : w.cart = .between →
      Step waits w .shutsDown { w with g := { w.g with running := false }, cart := .finished }
  | hooks {w who L ar} : w.activity who = some (.code L) →
      Step waits w (.hooks who ar) (w.withActivity who (.hook w.g L ar))
  | proceeds {w who a} : w.activity who = some a →
      Step waits w (.proceeds who) ({ w with g := (a.next w.g).1 }.withActivity who (a.next w.g).2)
  | returns {w who L} : w.activity who = some (.code L) → Step waits w (.returns who) (w.withoutActivity who)

variable {w : DapWorld} {a : Activity}

theorem activity_cart : w.activity .cart = some a ↔ w.cart = .inLua a := by
  rw [activity]
  split
  · rename_i b at_
    rw [at_, Option.some.injEq, CartThread.inLua.injEq]
  · rename_i away
    exact iff_of_false nofun fun at_ => away a at_

theorem activity_dap : w.activity .dap = some a ↔ w.dap = .inLua a := by
  rw [activity]
  split
  · rename_i b at_
    rw [at_, Option.some.injEq, DapThread.inLua.injEq]
  · rename_i away
    exact iff_of_false nofun fun at_ => away a at_

end DapWorld
end Blyt
