import Blyt.DapServer

namespace Blyt
namespace DapWorld
variable {waits : Bool} {w w' : DapWorld} {a : DapAction}

/-- The cart thread is in the wait loop, and nothing will let it go on. -/
structure Held (w : DapWorld) : Prop where
  waiting : ∃ L, w.cart = .inLua (.waiting L)
  idle : w.g.continuePending = false
  up : w.g.running = true

/-- It is held with no client connected. -/
def Stranded (w : DapWorld) : Prop := w.Held ∧ w.g.connected = false

/-- The connection is not lost while the cart is held, and the cart does not enter the pause
loop while no client is connected, unless the server is to stop. -/
def Attended (w : DapWorld) : DapAction → Prop
  | .loses => ¬w.Held
  | .proceeds .cart => (∃ L, w.cart = .inLua (.breaking L)) → w.g.connected = true ∨ w.g.running = false
  | _ => True

/-- While the server thread reads or handles a request, a client is connected. -/
def Serving (w : DapWorld) : Prop := w.dap = .accepting ∨ w.dap = .exited ∨ w.g.connected = true

theorem handle_connected {g g' : DapState} {r : DapRequest} (handled : g.handle r = some g') :
    g'.connected = g.connected := by
  unfold DapState.handle at handled
  split at handled
  case h_2 r =>
    split at handled
    · cases handled
      rfl
    · cases handled
  all_goals
    cases handled
    rfl

/-- What a thread does on its own touches the flags of the pause and the step mode only. -/
theorem next_frame (g : DapState) (a : Activity) :
    ∃ pausedL paused continuePending stepMode, (a.next g).1 =
      { g with pausedL := pausedL, paused := paused, continuePending := continuePending, stepMode := stepMode } := by
  cases a with
  | askStep L ar =>
    rw [Activity.next]
    split
    · exact ⟨_, _, _, .none, rfl⟩
    · exact ⟨_, _, _, _, rfl⟩
  | breaking L => exact ⟨some L, true, false, _, rfl⟩
  | leaving L => exact ⟨none, false, false, _, rfl⟩
  | code | askClient | askTable | waiting => exact ⟨_, _, _, _, rfl⟩

theorem next_connected (g : DapState) (a : Activity) : (a.next g).1.connected = g.connected := by
  obtain ⟨_, _, _, _, shared⟩ := next_frame g a
  rw [shared]

theorem next_running (g : DapState) (a : Activity) : (a.next g).1.running = g.running := by
  obtain ⟨_, _, _, _, shared⟩ := next_frame g a
  rw [shared]

theorem next_pendingPause (g : DapState) (a : Activity) : (a.next g).1.pendingPause = g.pendingPause := by
  obtain ⟨_, _, _, _, shared⟩ := next_frame g a
  rw [shared]

/-- A thread waits after a step of its own only if it waited before or has just entered. -/
theorem next_waiting {g : DapState} {a : Activity} {L : Nat} (waiting : (a.next g).2 = .waiting L) :
    (a = .waiting L ∧ (a.next g).1 = g) ∨ (a = .breaking L ∧ (a.next g).1 = g.enterPause L) := by
  cases a with
  | code L' => cases waiting
  | askStep L' ar =>
    rw [Activity.next] at waiting
    split at waiting
    · cases waiting
    · dsimp only at waiting
      split at waiting
      · cases waiting
      · cases waiting
  | askClient L' ar =>
    simp only [Activity.next] at waiting
    split at waiting
    · cases waiting
    · cases waiting
  | askTable L' ar =>
    simp only [Activity.next] at waiting
    split at waiting
    · cases waiting
    · cases waiting
  | breaking L' =>
    cases waiting
    exact Or.inr ⟨rfl, rfl⟩
  | waiting L' =>
    simp only [Activity.next] at waiting
    split at waiting
    · cases waiting
      exact Or.inl ⟨rfl, rfl⟩
    · cases waiting
  | leaving L' => cases waiting

theorem Serving.connected {b : DapThread} (serving : w.Serving) (at_ : w.dap = b) (accepts : b ≠ .accepting)
    (up : b ≠ .exited) : w.g.connected = true := by
  rcases serving with accepting | exited | connected
  · exact absurd (at_.symm.trans accepting) accepts
  · exact absurd (at_.symm.trans exited) up
  · exact connected

theorem Serving.step (serving : w.Serving) (step : Step waits w a w') : w'.Serving := by
  cases step with
  | connects at_ => exact Or.inr (Or.inr rfl)
  | loses at_ => exact Or.inl rfl
  | exits at_ stop => exact Or.inr (Or.inl rfl)
  | requests at_ plain handled =>
    have connected := serving.connected at_ nofun nofun
    exact Or.inr (Or.inr ((handle_connected handled).trans connected))
  | reload at_ | closes at_ | unbuilt at_ | rebuilt at_ =>
    exact Or.inr (Or.inr (serving.connected at_ nofun nofun))
  | builds at_ ready => exact serving
  | calls at_ state => exact serving
  | shutsDown at_ => exact serving
  | @hooks who L ar at_ =>
    cases who with
    | cart => exact serving
    | dap =>
      have at_ := activity_dap.mp at_
      exact Or.inr (Or.inr (serving.connected at_ nofun nofun))
  | @proceeds who act at_ =>
    cases who with
    | cart =>
      rcases serving with accepting | exited | connected
      · exact Or.inl accepting
      · exact Or.inr (Or.inl exited)
      · exact Or.inr (Or.inr ((next_connected w.g act).trans connected))
    | dap =>
      have at_ := activity_dap.mp at_
      have connected := serving.connected at_ nofun nofun
      exact Or.inr (Or.inr ((next_connected w.g act).trans connected))
  | @returns who L at_ =>
    cases who with
    | cart => exact serving
    | dap =>
      have at_ := activity_dap.mp at_
      exact Or.inr (Or.inr (serving.connected at_ nofun nofun))

theorem not_stranded_of_connected (connected : w.g.connected = true) : ¬w.Stranded := by
  rintro ⟨-, lost⟩
  rw [connected] at lost
  cases lost

theorem not_stranded_of_cart {b : CartThread} (at_ : w.cart = b) (away : ∀ L, b ≠ .inLua (.waiting L)) :
    ¬w.Stranded := by
  rintro ⟨⟨⟨L, waiting⟩, -, -⟩, -⟩
  exact away L (at_.symm.trans waiting)

theorem hook_ne_waiting (g : DapState) (L L' : Nat) (ar : HookEvent) : Activity.hook g L ar ≠ .waiting L' := by
  rw [Activity.hook]
  split
  · nofun
  · nofun

theorem stranded_proceeds {act : Activity} (at_ : w.cart = .inLua act) (fine : ¬w.Stranded) :
    ({ w with g := (act.next w.g).1, cart := .inLua (act.next w.g).2 } : DapWorld).Stranded ↔
      (∃ L, act = .breaking L) ∧ w.g.connected = false ∧ w.g.running = true := by
  constructor
  · rintro ⟨⟨⟨L, waiting⟩, idle, up⟩, lost⟩
    rcases next_waiting (CartThread.inLua.inj waiting) with ⟨rfl, same⟩ | ⟨rfl, entered⟩
    · dsimp only at idle up lost
      rw [same] at idle up lost
      exact absurd ⟨⟨⟨L, at_⟩, idle, up⟩, lost⟩ fine
    · exact ⟨⟨L, rfl⟩, (next_connected w.g _).symm.trans lost, (next_running w.g _).symm.trans up⟩
  · rintro ⟨⟨L, rfl⟩, lost, up⟩
    exact ⟨⟨⟨L, rfl⟩, rfl, up⟩, lost⟩

/-- On one step the condition is exact. -/
theorem attended_iff (serving : w.Serving) (fine : ¬w.Stranded) (step : Step waits w a w') :
    w.Attended a ↔ ¬w'.Stranded := by
  cases step with
  | connects at_ => exact iff_of_true trivial (not_stranded_of_connected rfl)
  | loses at_ =>
    refine not_congr ⟨fun held => ?_, fun stranded => ?_⟩
    · exact ⟨⟨held.waiting, held.idle, held.up⟩, rfl⟩
    · exact ⟨stranded.1.waiting, stranded.1.idle, stranded.1.up⟩
  | exits at_ stop =>
    refine iff_of_true trivial fun stranded => fine ?_
    exact ⟨⟨stranded.1.waiting, stranded.1.idle, stranded.1.up⟩, stranded.2⟩
  | requests at_ plain handled =>
    have connected := serving.connected at_ nofun nofun
    exact iff_of_true trivial (not_stranded_of_connected ((handle_connected handled).trans connected))
  | reload at_ | closes at_ | unbuilt at_ | rebuilt at_ =>
    have connected := serving.connected at_ nofun nofun
    exact iff_of_true trivial (not_stranded_of_connected connected)
  | builds at_ ready => exact iff_of_true trivial (not_stranded_of_cart rfl nofun)
  | calls at_ state => exact iff_of_true trivial (not_stranded_of_cart rfl nofun)
  | shutsDown at_ => exact iff_of_true trivial (not_stranded_of_cart rfl nofun)
  | @hooks who L ar at_ =>
    refine iff_of_true trivial ?_
    cases who with
    | cart => exact not_stranded_of_cart rfl fun L' waiting => hook_ne_waiting _ _ _ _ (CartThread.inLua.inj waiting)
    | dap =>
      have at_ := activity_dap.mp at_
      exact not_stranded_of_connected (serving.connected at_ nofun nofun)
  | @proceeds who act at_ =>
    cases who with
    | cart =>
      have at_ := activity_cart.mp at_
      have stranded := stranded_proceeds at_ fine
      refine Iff.trans ?_ (not_congr stranded).symm
      rw [Attended, at_]
      simp only [CartThread.inLua.injEq, not_and, Bool.not_eq_true]
      constructor
      · intro entered breaking lost
        rcases entered breaking with connected | down
        · rw [connected] at lost
          cases lost
        · exact down
      · intro entered breaking
        cases connected : w.g.connected with
        | true => exact Or.inl rfl
        | false => exact Or.inr (entered breaking connected)
    | dap =>
      have at_ := activity_dap.mp at_
      have connected := serving.connected at_ nofun nofun
      exact iff_of_true trivial (not_stranded_of_connected ((next_connected w.g act).trans connected))
  | @returns who L at_ =>
    refine iff_of_true trivial ?_
    cases who with
    | cart => exact not_stranded_of_cart rfl nofun
    | dap =>
      have at_ := activity_dap.mp at_
      exact not_stranded_of_connected (serving.connected at_ nofun nofun)

/-- In a run of the server and the cart, the cart is never left in the pause loop without a
debugger exactly when the connection is never lost while it is held there and it never
enters while no client is connected. -/
theorem never_stranded_iff (waits : Bool) (actions : List DapAction) :
    Run.Throughout (Step waits) (fun w a _ => w.Attended a) start actions ↔
      Run.Throughout (Step waits) (fun _ _ w' => ¬w'.Stranded) start actions := by
  have begun : start.Serving ∧ ¬start.Stranded := ⟨Or.inl rfl, not_stranded_of_cart rfl nofun⟩
  refine Run.throughout_iff (fun w => w.Serving ∧ ¬w.Stranded) (fun w a w' inv step => ?_)
    (fun w a w' inv step fine => ?_) begun actions
  · exact attended_iff inv.1 inv.2 step
  · exact ⟨inv.1.step step, fine⟩

/-- A client asks for a pause and its connection breaks: the cart stops at the next event and
stays there. -/
theorem stranded_after_loss :
    ¬∀ actions, Run.Throughout (Step false) (fun _ _ w' => ¬w'.Stranded) start actions := by
  intro never
  have along := never [.builds, .connects, .requests .pause, .hooks .cart ⟨true, 1, none, 1⟩, .proceeds .cart, .loses]
  obtain ⟨-, along⟩ := along _ (.builds rfl nofun)
  obtain ⟨-, along⟩ := along _ (.connects rfl)
  obtain ⟨-, along⟩ := along _ (.requests rfl nofun rfl)
  obtain ⟨-, along⟩ := along _ (.hooks rfl)
  obtain ⟨-, along⟩ := along _ (.proceeds rfl)
  obtain ⟨fine, -⟩ := along _ (.loses rfl)
  exact fine ⟨⟨⟨0, rfl⟩, rfl, rfl⟩, rfl⟩

end DapWorld
end Blyt
