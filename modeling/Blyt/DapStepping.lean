import Blyt.DapPause
import Mathlib.Logic.Relation

namespace Blyt

/-- An event the hook was called for, whether the client had asked for a pause before it and
whether its line was one of a breakpoint then. -/
structure DebugEvent where
  ar : HookEvent
  asked : Bool
  breakpoint : Bool

/-- What a client that watches the cart knows: its last command and the depth it gave that at,
whether it asked for a pause since, how deep the stack was at the last event, and the events
since that command. -/
structure DebugClient where
  command : DapStepMode
  base : Nat
  asked : Bool
  depth : Nat
  events : List DebugEvent

namespace DebugClient

def start : DebugClient := ⟨.none, 0, false, 0, []⟩

/-- Where the last command lets a line event stop the cart; `continue` lets none. -/
def StepMet (c : DebugClient) (depth : Nat) : Prop :=
  match c.command with
  | .over => depth ≤ c.base
  | .in => True
  | .out => depth < c.base
  | .none | .pause => False

/-- The cart is to stop at the event. -/
def Stops (c : DebugClient) (e : DebugEvent) : Prop :=
  e.asked = true ∨ e.ar.isLine = true ∧ (c.StepMet e.ar.depth ∨ e.breakpoint = true)

def Passes (c : DebugClient) : Prop := ∀ e ∈ c.events, ¬c.Stops e

/-- The last event is the first since the command that the cart is to stop at. -/
def Halts (c : DebugClient) : Prop :=
  ∃ earlier e, c.events = earlier ++ [e] ∧ c.Stops e ∧ ∀ x ∈ earlier, ¬c.Stops x

def resumes (c : DebugClient) (command : DapStepMode) : DebugClient := ⟨command, c.depth, false, c.depth, []⟩

def sees (c : DebugClient) (g : DapState) (ar : HookEvent) : DebugClient :=
  { c with
    depth := ar.depth
    events := c.events ++ [⟨ar, c.asked, g.table.shouldBreak g.connected ar.source ar.currentline⟩] }

def observe (c : DebugClient) (g : DapState) : DapAction → DebugClient
  | .requests .continue => c.resumes .none
  | .requests (.step mode _) => c.resumes mode
  | .requests .pause => { c with asked := true }
  | .hooks .cart ar => c.sees g ar
  | _ => c

end DebugClient

/-- How many of the questions of `dap_dispatch` the thread has yet to ask about its event. -/
def Activity.questions : Activity → Nat
  | askStep _ _ => 3
  | askClient _ _ => 2
  | askTable _ _ => 1
  | code _ | breaking _ | waiting _ | leaving _ => 0

namespace DapWorld

def questions (w : DapWorld) : Nat :=
  match w.activity .cart with
  | some a => a.questions
  | none => 0

/-- The cart has stopped, and no command has told it to go on. -/
def halted (w : DapWorld) : Bool :=
  match w.activity .cart with
  | some (.breaking _) => true
  | some (.waiting _) => !w.g.continuePending
  | _ => false

end DapWorld

structure DebugSession where
  w : DapWorld
  client : DebugClient

namespace DebugSession

def start : DebugSession := ⟨.start, .start⟩

/-- The client resumes the cart only while it is paused, and the stack that `handle_step` walks
is then the one of the last event. Breakpoints are set, and clients come and go, between two
events. There are no reloads, so the cart's is the only Lua thread. -/
def Permits (s : DebugSession) : DapAction → Prop
  | .requests .continue => s.w.g.paused = true
  | .requests (.step _ depth) => s.w.g.paused = true ∧ depth = s.client.depth
  | .requests (.setBreakpoints _) | .connects | .loses => s.w.questions = 0
  | .requests .disconnect | .requests (.hotReload true) => False
  | _ => True

inductive Step (waits : Bool) : DebugSession → DapAction → DebugSession → Prop
  | takes {s a w} : s.Permits a → s.w.Step waits a w → Step waits s a ⟨w, s.client.observe s.w.g a⟩

end DebugSession

namespace DebugClient
variable {c : DebugClient} {g : DapState} {ar : HookEvent} {b : CartThread}

/-- The flags say where the last command lets a line event stop the cart. -/
def InForce (c : DebugClient) (g : DapState) : Prop := ∀ depth, g.stepPauses depth = true ↔ c.StepMet depth

def Runs (c : DebugClient) (g : DapState) : Prop := g.paused = false ∧ c.InForce g ∧ c.Passes

/-- The last event is being handled, no pause was asked for before it, and the cart was not to
stop at any other. -/
def Handles (c : DebugClient) (g : DapState) (ar : HookEvent) : Prop :=
  g.paused = false ∧ c.InForce g ∧ ∃ earlier,
    c.events = earlier ++ [⟨ar, false, g.table.shouldBreak g.connected ar.source ar.currentline⟩] ∧
      ∀ x ∈ earlier, ¬c.Stops x

def Leaves (c : DebugClient) (g : DapState) : Prop := c.InForce g ∧ c.events = []

/-- What the flags and the events have to do with each other, by where the cart thread is. -/
def Phase (c : DebugClient) (g : DapState) : CartThread → Prop
  | .starting | .between | .finished | .inLua (.code _) => c.Runs g
  | .inLua (.askStep _ ar) => c.Handles g ar
  | .inLua (.askClient _ ar) => c.Handles g ar ∧ ar.isLine = true ∧ ¬c.StepMet ar.depth
  | .inLua (.askTable _ ar) => c.Handles g ar ∧ ar.isLine = true ∧ ¬c.StepMet ar.depth ∧ g.connected = true
  | .inLua (.breaking _) => g.paused = false ∧ c.Halts
  | .inLua (.waiting _) => g.pausedL.isSome = true ∧ if g.continuePending = true then c.Leaves g else c.Halts
  | .inLua (.leaving _) => g.pausedL.isSome = true ∧ c.Leaves g

theorem Handles.halts {breakpoint : Bool} (handles : c.Handles g ar)
    (shown : g.table.shouldBreak g.connected ar.source ar.currentline = breakpoint)
    (stops : c.Stops ⟨ar, false, breakpoint⟩) : c.Halts := by
  obtain ⟨-, -, earlier, events, passed⟩ := handles
  rw [shown] at events
  exact ⟨earlier, _, events, stops, passed⟩

theorem Handles.runs {breakpoint : Bool} (handles : c.Handles g ar)
    (shown : g.table.shouldBreak g.connected ar.source ar.currentline = breakpoint)
    (goesOn : ¬c.Stops ⟨ar, false, breakpoint⟩) : c.Runs g := by
  obtain ⟨running, inForce, earlier, events, passed⟩ := handles
  rw [shown] at events
  refine ⟨running, inForce, fun x member => ?_⟩
  rw [events, List.mem_append, List.mem_singleton] at member
  rcases member with old | rfl
  · exact passed x old
  · exact goesOn

theorem Handles.unseen (handles : c.Handles g ar) (unmet : ¬c.StepMet ar.depth)
    (unseen : g.table.shouldBreak g.connected ar.source ar.currentline = false) : c.Runs g := by
  refine handles.runs unseen ?_
  rintro (asked | ⟨-, met | hit⟩)
  · cases asked
  · exact unmet met
  · cases hit

theorem Leaves.passes (leaves : c.Leaves g) : c.Passes := by
  intro e member
  rw [leaves.2] at member
  cases member

/-- What the thread does on its own keeps the phase, as long as the server runs. -/
theorem Phase.next {act : Activity} (phase : c.Phase g (.inLua act)) (up : g.running = true) :
    c.Phase (act.next g).1 (.inLua (act.next g).2) := by
  cases act with
  | code L => exact phase
  | askStep L ar =>
    have handles : c.Handles g ar := phase
    have ⟨running, inForce, _⟩ := handles
    rw [Activity.next]
    split
    · rename_i pauses
      obtain ⟨isLine, pauses⟩ := Bool.and_eq_true_iff.mp pauses
      have met := (inForce ar.depth).mp pauses
      exact ⟨running, handles.halts rfl (Or.inr ⟨isLine, Or.inl met⟩)⟩
    · rename_i goesOn
      dsimp only
      split
      · rename_i isLine
        refine ⟨handles, isLine, fun met => goesOn ?_⟩
        rw [isLine, (inForce ar.depth).mpr met, Bool.and_self]
      · rename_i other
        refine handles.runs rfl ?_
        rintro (asked | ⟨isLine, -⟩)
        · cases asked
        · exact other isLine
  | askClient L ar =>
    obtain ⟨handles, isLine, unmet⟩ := phase
    rw [Activity.next]
    dsimp only
    split
    · rename_i connected
      exact ⟨handles, isLine, unmet, connected⟩
    · rename_i alone
      exact handles.unseen unmet (if_neg alone)
  | askTable L ar =>
    obtain ⟨handles, isLine, unmet, connected⟩ := phase
    rw [Activity.next]
    dsimp only
    split
    · rename_i hit
      refine ⟨handles.1, handles.halts ?_ (Or.inr ⟨isLine, Or.inr rfl⟩)⟩
      rw [connected]
      exact hit
    · rename_i missed
      have unseen : g.table.shouldBreak g.connected ar.source ar.currentline = false := by
        rw [connected]
        exact Bool.eq_false_of_not_eq_true missed
      exact handles.unseen unmet unseen
  | breaking L => exact ⟨rfl, phase.2⟩
  | waiting L =>
    obtain ⟨pausedL, going⟩ := phase
    rw [Activity.next, up, Bool.true_and]
    dsimp only
    cases pending : g.continuePending with
    | true =>
      rw [if_pos pending] at going
      exact ⟨pausedL, going⟩
    | false =>
      refine ⟨pausedL, ?_⟩
      rw [if_neg (by rw [pending]; exact Bool.false_ne_true)] at going ⊢
      exact going
  | leaving L => exact ⟨rfl, phase.2.1, phase.2.passes⟩

theorem Runs.hook {L : Nat} (runs : c.Runs g) (pending : g.pendingPause = c.asked) :
    (c.sees g ar).Phase g (.inLua (Activity.hook g L ar)) := by
  obtain ⟨running, inForce, passed⟩ := runs
  rw [Activity.hook]
  split
  · rename_i asked
    exact ⟨running, c.events, _, rfl, Or.inl (pending.symm.trans asked), passed⟩
  · rename_i unasked
    have unasked : c.asked = false := pending.symm.trans (Bool.eq_false_of_not_eq_true unasked)
    refine ⟨running, inForce, c.events, ?_, passed⟩
    rw [sees, unasked]

theorem Phase.paused (phase : c.Phase g b) (paused : g.paused = true) :
    g.pausedL.isSome = true ∧ ∃ L, b = .inLua (.waiting L) ∨ b = .inLua (.leaving L) := by
  have away {P : Prop} (running : g.paused = false) : P := by
    rw [paused] at running
    cases running
  cases b with
  | starting | between | finished => exact away phase.1
  | inLua act =>
    cases act with
    | code | askStep | breaking => exact away phase.1
    | askClient | askTable => exact away phase.1.1
    | waiting L => exact ⟨phase.1, L, Or.inl rfl⟩
    | leaving L => exact ⟨phase.1, L, Or.inr rfl⟩

/-- A command that resumes the cart replaces what the flags said before it. -/
theorem Phase.resumes {g' : DapState} {command : DapStepMode} (phase : c.Phase g b) (paused : g.paused = true)
    (inForce : (c.resumes command).InForce g') (same : g'.pausedL = g.pausedL)
    (goesOn : g'.continuePending = true) : (c.resumes command).Phase g' b := by
  obtain ⟨pausedL, L, rfl | rfl⟩ := phase.paused paused
  · refine ⟨same ▸ pausedL, ?_⟩
    rw [if_pos goesOn]
    exact ⟨inForce, rfl⟩
  · exact ⟨same ▸ pausedL, inForce, rfl⟩

theorem inForce_handleContinue (c : DebugClient) (g : DapState) : (c.resumes .none).InForce g.handleContinue :=
  fun _ => iff_of_false nofun nofun

theorem inForce_handleStep (c : DebugClient) (mode : DapStepMode) (pausedL : g.pausedL.isSome = true) :
    (c.resumes mode).InForce (g.handleStep mode c.depth) := by
  intro depth
  rw [DapState.stepPauses, DapState.handleStep, if_pos pausedL]
  match mode with
  | .none | .pause => exact iff_of_false nofun nofun
  | .over | .out => exact decide_eq_true_iff
  | .in => exact iff_of_true rfl trivial

/-- A pause that is asked for is for the events to come. -/
theorem Phase.asks (phase : c.Phase g b) : Phase { c with asked := true } g.handlePause b := phase

/-- Between two events, the table and the connection may change. -/
theorem Phase.between {table : BreakpointTable} {connected : Bool} (phase : c.Phase g b)
    (settled : ∀ act, b = .inLua act → act.questions = 0) :
    c.Phase { g with table := table, connected := connected } b := by
  cases b with
  | starting | between | finished => exact phase
  | inLua act =>
    have settled := settled act rfl
    cases act with
    | askStep | askClient | askTable => cases settled
    | code | breaking | waiting | leaving => exact phase

end DebugClient

theorem Activity.questions_next {g : DapState} {a : Activity} (asking : a.questions ≠ 0) :
    (a.next g).2.questions < a.questions := by
  cases a with
  | code | breaking | waiting | leaving => exact absurd rfl asking
  | askStep L ar =>
    rw [next]
    split
    · exact Nat.zero_lt_succ 2
    · dsimp only
      split
      · exact Nat.lt_succ_self 2
      · exact Nat.zero_lt_succ 2
  | askClient L ar =>
    rw [next]
    dsimp only
    split
    · exact Nat.lt_succ_self 1
    · exact Nat.zero_lt_succ 1
  | askTable L ar =>
    rw [next]
    dsimp only
    split
    · exact Nat.zero_lt_succ 0
    · exact Nat.zero_lt_succ 0

namespace DapWorld
variable {w : DapWorld}

theorem questions_inLua {act : Activity} (at_ : w.cart = .inLua act) : w.questions = act.questions := by
  rw [questions, activity_cart.mpr at_]

theorem settled_of_questions (settled : w.questions = 0) : ∀ act, w.cart = .inLua act → act.questions = 0 :=
  fun _ at_ => (questions_inLua at_).symm.trans settled

theorem questions_ne_zero (asking : w.questions ≠ 0) : ∃ act, w.cart = .inLua act ∧ act.questions ≠ 0 := by
  rw [questions] at asking
  split at asking
  · rename_i act at_
    exact ⟨act, activity_cart.mp at_, asking⟩
  · exact absurd rfl asking

theorem halted_cases (halted : w.halted = true) :
    ∃ L, w.cart = .inLua (.breaking L) ∨ w.cart = .inLua (.waiting L) ∧ w.g.continuePending = false := by
  rw [DapWorld.halted] at halted
  split at halted
  · rename_i L at_
    exact ⟨L, Or.inl (activity_cart.mp at_)⟩
  · rename_i L at_
    exact ⟨L, Or.inr ⟨activity_cart.mp at_, by simpa using halted⟩⟩
  · cases halted

theorem questions_of_halted (halted : w.halted = true) : w.questions = 0 := by
  obtain ⟨L, at_ | ⟨at_, -⟩⟩ := halted_cases halted
  · exact questions_inLua at_
  · exact questions_inLua at_

end DapWorld

namespace DebugSession
variable {waits : Bool} {s s' : DebugSession} {a : DapAction}

/-- What holds in every state of a session: no reload is under way, and the server is up while the
cart runs. -/
structure Inv (s : DebugSession) : Prop where
  phase : s.client.Phase s.w.g s.w.cart
  pending : s.w.g.pendingPause = s.client.asked
  serves : s.w.dap = .accepting ∨ s.w.dap = .reading ∨ s.w.dap = .exited
  up : s.w.cart ≠ .finished → s.w.g.running = true

theorem Inv.not_serving {P : Prop} {b : DapThread} (inv : s.Inv) (at_ : s.w.dap = b) (accepts : b ≠ .accepting)
    (reads : b ≠ .reading) (runs : b ≠ .exited) : P := by
  rcases inv.serves with here | here | here
  · exact absurd (at_.symm.trans here) accepts
  · exact absurd (at_.symm.trans here) reads
  · exact absurd (at_.symm.trans here) runs

theorem Inv.not_in_lua {P : Prop} {act : Activity} (inv : s.Inv) (at_ : s.w.activity .dap = some act) : P :=
  inv.not_serving (DapWorld.activity_dap.mp at_) nofun nofun nofun

theorem Inv.phase_at {b : CartThread} (inv : s.Inv) (at_ : s.w.cart = b) : s.client.Phase s.w.g b := by
  rw [← at_]
  exact inv.phase

theorem Inv.running {b : CartThread} (inv : s.Inv) (at_ : s.w.cart = b) (alive : b ≠ .finished) :
    s.w.g.running = true := by
  refine inv.up ?_
  rw [at_]
  exact alive

theorem Inv.requests {r : DapRequest} {g : DapState} (inv : s.Inv) (permitted : s.Permits (.requests r))
    (handled : s.w.g.handle r = some g) :
    Inv ⟨{ s.w with g := g }, s.client.observe s.w.g (.requests r)⟩ := by
  match r, permitted, handled with
  | .configurationDone, _, rfl | .other, _, rfl | .hotReload false, _, rfl =>
    exact ⟨inv.phase, inv.pending, inv.serves, inv.up⟩
  | .pause, _, rfl => exact ⟨inv.phase.asks, rfl, inv.serves, inv.up⟩
  | .continue, paused, rfl =>
    have inForce := DebugClient.inForce_handleContinue s.client s.w.g
    exact ⟨inv.phase.resumes paused inForce rfl rfl, rfl, inv.serves, inv.up⟩
  | .step mode _, ⟨paused, rfl⟩, rfl =>
    have inForce := DebugClient.inForce_handleStep s.client mode (inv.phase.paused paused).1
    exact ⟨inv.phase.resumes paused inForce rfl rfl, rfl, inv.serves, inv.up⟩
  | .setBreakpoints r, between, handled =>
    rw [DapState.handle] at handled
    split at handled
    · cases handled
      exact ⟨inv.phase.between (DapWorld.settled_of_questions between), inv.pending, inv.serves, inv.up⟩
    · cases handled

theorem Inv.step (inv : s.Inv) (step : Step waits s a s') : s'.Inv := by
  obtain ⟨permitted, step⟩ := step
  cases step with
  | connects at_ =>
    have settled := DapWorld.settled_of_questions permitted
    exact ⟨inv.phase.between settled, inv.pending, Or.inr (Or.inl rfl), inv.up⟩
  | loses at_ =>
    have settled := DapWorld.settled_of_questions permitted
    exact ⟨inv.phase.between settled, inv.pending, Or.inl rfl, inv.up⟩
  | exits at_ stop => exact ⟨inv.phase, inv.pending, Or.inr (Or.inr rfl), inv.up⟩
  | requests at_ plain handled => exact inv.requests permitted handled
  | reload at_ => cases permitted
  | closes at_ | unbuilt at_ | rebuilt at_ => exact inv.not_serving at_ nofun nofun nofun
  | builds at_ ready =>
    have runs : s.client.Runs s.w.g := inv.phase_at at_
    exact ⟨runs, inv.pending, inv.serves, fun _ => inv.running at_ nofun⟩
  | calls at_ state =>
    have runs : s.client.Runs s.w.g := inv.phase_at at_
    exact ⟨runs, inv.pending, inv.serves, fun _ => inv.running at_ nofun⟩
  | shutsDown at_ =>
    have runs : s.client.Runs s.w.g := inv.phase_at at_
    exact ⟨runs, inv.pending, inv.serves, fun alive => absurd rfl alive⟩
  | @hooks who L ar at_ =>
    cases who with
    | cart =>
      have at_ := DapWorld.activity_cart.mp at_
      have runs : s.client.Runs s.w.g := inv.phase_at at_
      exact ⟨runs.hook inv.pending, inv.pending, inv.serves, fun _ => inv.running at_ nofun⟩
    | dap => exact inv.not_in_lua at_
  | @proceeds who act at_ =>
    cases who with
    | cart =>
      have at_ := DapWorld.activity_cart.mp at_
      have up := inv.running at_ nofun
      exact ⟨(inv.phase_at at_).next up, (DapWorld.next_pendingPause s.w.g act).trans inv.pending, inv.serves,
        fun _ => (DapWorld.next_running s.w.g act).trans up⟩
    | dap => exact inv.not_in_lua at_
  | @returns who L at_ =>
    cases who with
    | cart =>
      have at_ := DapWorld.activity_cart.mp at_
      have runs : s.client.Runs s.w.g := inv.phase_at at_
      exact ⟨runs, inv.pending, inv.serves, fun _ => inv.running at_ nofun⟩
    | dap => exact inv.not_in_lua at_

/-- The phase of a thread that has no question left tells whether it has stopped. -/
theorem Inv.halts_or_passes (inv : s.Inv) (settled : s.w.questions = 0) :
    s.w.halted = true ∧ s.client.Halts ∨ s.w.halted = false ∧ s.client.Passes := by
  rw [DapWorld.halted, DapWorld.activity]
  cases at_ : s.w.cart with
  | starting | between | finished => exact Or.inr ⟨rfl, (inv.phase_at at_).2.2⟩
  | inLua act =>
    have settled := DapWorld.settled_of_questions settled act at_
    have phase := inv.phase_at at_
    cases act with
    | askStep | askClient | askTable => cases settled
    | code L => exact Or.inr ⟨rfl, phase.2.2⟩
    | breaking L => exact Or.inl ⟨rfl, phase.2⟩
    | waiting L =>
      have going := phase.2
      dsimp only
      cases pending : s.w.g.continuePending with
      | false =>
        rw [if_neg (by rw [pending]; exact Bool.false_ne_true)] at going
        exact Or.inl ⟨rfl, going⟩
      | true =>
        rw [if_pos pending] at going
        exact Or.inr ⟨rfl, going.passes⟩
    | leaving L => exact Or.inr ⟨rfl, phase.2.passes⟩

/-- The cart thread answers its questions on its own. -/
theorem Inv.settles (waits : Bool) (inv : s.Inv) :
    ∃ w, Relation.ReflTransGen (fun w w' => w.Step waits (.proceeds .cart) w') s.w w ∧ w.questions = 0 ∧
      Inv ⟨w, s.client⟩ := by
  induction left : s.w.questions using Nat.strongRecOn generalizing s with
  | ind n ih =>
    by_cases settled : s.w.questions = 0
    · exact ⟨s.w, .refl, settled, inv⟩
    obtain ⟨act, at_, asking⟩ := DapWorld.questions_ne_zero settled
    have taken : s.w.Step waits (.proceeds .cart) _ := .proceeds (DapWorld.activity_cart.mpr at_)
    have permitted : s.Permits (.proceeds .cart) := trivial
    have inv' : Inv ⟨_, s.client⟩ := inv.step (.takes permitted taken)
    have fewer := Activity.questions_next (g := s.w.g) asking
    rw [← DapWorld.questions_inLua at_, left] at fewer
    obtain ⟨w, way, done, inv''⟩ := ih _ fewer inv' (DapWorld.questions_inLua rfl)
    exact ⟨w, .head taken way, done, inv''⟩

theorem Inv.handled (inv : s.Inv) (asking : s.w.questions ≠ 0) :
    ∃ earlier e, s.client.events = earlier ++ [e] ∧ ∀ x ∈ earlier, ¬s.client.Stops x := by
  obtain ⟨act, at_, asking⟩ := DapWorld.questions_ne_zero asking
  have phase := inv.phase_at at_
  cases act with
  | code | breaking | waiting | leaving => exact absurd rfl asking
  | askStep L ar =>
    obtain ⟨-, -, earlier, events, passed⟩ := phase
    exact ⟨earlier, _, events, passed⟩
  | askClient L ar | askTable L ar =>
    obtain ⟨⟨-, -, earlier, events, passed⟩, -⟩ := phase
    exact ⟨earlier, _, events, passed⟩

/-- A cart that has stopped stays until a command resumes it. -/
theorem Inv.stays (inv : s.Inv) (step : Step waits s a s') (halted : s.w.halted = true) :
    s'.w.halted = true ∨ a = .requests .continue ∨ ∃ mode depth, a = .requests (.step mode depth) := by
  obtain ⟨permitted, step⟩ := step
  have away (b : CartThread) (at_ : s.w.cart = b)
      (other : ∀ L, b ≠ .inLua (.breaking L) ∧ b ≠ .inLua (.waiting L)) {P : Prop} : P := by
    obtain ⟨L, stopped | ⟨stopped, -⟩⟩ := DapWorld.halted_cases halted
    · exact absurd (at_.symm.trans stopped) (other L).1
    · exact absurd (at_.symm.trans stopped) (other L).2
  cases step with
  | connects | loses | exits => exact Or.inl halted
  | @requests r g at_ plain handled =>
    match r, handled with
    | .continue, _ => exact Or.inr (Or.inl rfl)
    | .step mode depth, _ => exact Or.inr (Or.inr ⟨mode, depth, rfl⟩)
    | .configurationDone, rfl | .other, rfl | .hotReload _, rfl | .pause, rfl => exact Or.inl halted
    | .disconnect, _ => cases permitted
    | .setBreakpoints r, handled =>
      rw [DapState.handle] at handled
      split at handled
      · cases handled
        exact Or.inl halted
      · cases handled
  | reload at_ => cases permitted
  | closes at_ | unbuilt at_ | rebuilt at_ => exact inv.not_serving at_ nofun nofun nofun
  | builds at_ ready => exact away _ at_ fun _ => ⟨nofun, nofun⟩
  | calls at_ state => exact away _ at_ fun _ => ⟨nofun, nofun⟩
  | shutsDown at_ => exact away _ at_ fun _ => ⟨nofun, nofun⟩
  | @hooks who L ar at_ =>
    cases who with
    | cart => exact away _ (DapWorld.activity_cart.mp at_) fun _ => ⟨nofun, nofun⟩
    | dap => exact inv.not_in_lua at_
  | @returns who L at_ =>
    cases who with
    | cart => exact away _ (DapWorld.activity_cart.mp at_) fun _ => ⟨nofun, nofun⟩
    | dap => exact inv.not_in_lua at_
  | @proceeds who act at_ =>
    cases who with
    | cart =>
      have at_ := DapWorld.activity_cart.mp at_
      have up := inv.running at_ nofun
      obtain ⟨L, stopped | ⟨stopped, idle⟩⟩ := DapWorld.halted_cases halted
      · cases at_.symm.trans stopped
        exact Or.inl rfl
      · cases at_.symm.trans stopped
        refine Or.inl ?_
        simp [Activity.next, up, idle, DapWorld.halted, DapWorld.withActivity, DapWorld.activity]
    | dap => exact inv.not_in_lua at_

/-- The cart has stopped only at the first event since the last command that it was to stop at, it
has passed no such event, and what it does about the event it is handling is what it was to do. -/
structure StopsRight (waits : Bool) (s : DebugSession) (a : DapAction) (s' : DebugSession) : Prop where
  halts : s'.w.halted = true → s'.client.Halts
  passes : s'.w.halted = false → s'.w.questions = 0 → s'.client.Passes
  decides : s'.w.questions ≠ 0 → ∃ earlier e, s'.client.events = earlier ++ [e] ∧
    (∀ x ∈ earlier, ¬s'.client.Stops x) ∧
      ∃ w, Relation.ReflTransGen (fun w w' => w.Step waits (.proceeds .cart) w') s'.w w ∧ w.questions = 0 ∧
        (w.halted = true ↔ s'.client.Stops e)
  stays : s.w.halted = true →
    s'.w.halted = true ∨ a = .requests .continue ∨ ∃ mode depth, a = .requests (.step mode depth)
  continued : s'.client.command = .none → s'.w.halted = true → ∃ earlier e, s'.client.events = earlier ++ [e] ∧
    (e.asked = true ∨ e.ar.isLine = true ∧ e.breakpoint = true)

theorem Inv.stopsRight (inv : s.Inv) (step : Step waits s a s') : StopsRight waits s a s' := by
  have inv' := inv.step step
  have halts (halted : s'.w.halted = true) : s'.client.Halts := by
    have settled : s'.w.questions = 0 := DapWorld.questions_of_halted halted
    rcases inv'.halts_or_passes settled with ⟨-, halts⟩ | ⟨going, -⟩
    · exact halts
    · rw [halted] at going
      cases going
  refine ⟨halts, fun going settled => ?_, fun asking => ?_, inv.stays step, fun continued halted => ?_⟩
  · rcases inv'.halts_or_passes settled with ⟨halted, -⟩ | ⟨-, passes⟩
    · rw [going] at halted
      cases halted
    · exact passes
  · obtain ⟨earlier, e, events, passed⟩ := inv'.handled asking
    obtain ⟨w, way, settled, inv''⟩ := inv'.settles waits
    refine ⟨earlier, e, events, passed, w, way, settled, ?_⟩
    rcases inv''.halts_or_passes settled with ⟨halted, earlier', e', events', stops, -⟩ | ⟨going, passes⟩
    · have same : e = e' := List.singleton_inj.mp (List.append_inj_right' (events.symm.trans events') rfl)
      exact iff_of_true halted (same ▸ stops)
    · refine iff_of_false (by rw [going]; exact Bool.false_ne_true) (passes e ?_)
      rw [events]
      exact List.mem_append_right earlier List.mem_cons_self
  · obtain ⟨earlier, e, events, stops, -⟩ := halts halted
    refine ⟨earlier, e, events, stops.imp_right fun ⟨isLine, why⟩ => ⟨isLine, why.resolve_left ?_⟩⟩
    rw [DebugClient.StepMet, continued]
    exact id

end DebugSession
end Blyt
