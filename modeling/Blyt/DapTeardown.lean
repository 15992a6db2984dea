import Blyt.DapServer

namespace Blyt
namespace DapWorld
variable {waits : Bool} {w w' : DapWorld} {a : DapAction}

/-- The thread that applies `lua_close` in a step, and the state it closes. The only call is in
`fc_consolelua_synthetic_reload`, which `handle_hot_reload` runs on the server's thread. -/
def tornDown (w : DapWorld) : DapAction → Option (DapThreadId × Nat)
  | .closes => w.sL.map fun L => (.dap, L)
  | _ => none

/-- A state is torn down by the cart thread only, and not while it executes or is paused in it. -/
def TornDownRight (w : DapWorld) (a : DapAction) : Prop :=
  ∀ who L, w.tornDown a = some (who, L) → who = .cart ∧ ∀ act, w.cart = .inLua act → act.state ≠ L

/-- A reload with a source and a payload that decodes finds no state to close. -/
def NothingToClose (w : DapWorld) : DapAction → Prop
  | .closes => w.sL = none
  | _ => True

theorem nothingToClose_iff (w : DapWorld) (a : DapAction) : w.NothingToClose a ↔ w.TornDownRight a := by
  cases a with
  | closes =>
    show w.sL = none ↔ w.TornDownRight .closes
    cases state : w.sL with
    | none =>
      refine iff_of_true rfl fun who L torn => ?_
      rw [tornDown, state] at torn
      cases torn
    | some L =>
      refine iff_of_false nofun fun right => ?_
      have torn : w.tornDown .closes = some (.dap, L) := by rw [tornDown, state, Option.map_some]
      exact absurd (right .dap L torn).1 (by decide)
  | connects | loses | exits | requests | rebuilds | builds | calls | shutsDown | hooks | proceeds | returns =>
    exact iff_of_true trivial nofun

/-- In a run of the server and the cart, states are torn down as they should exactly when every
reload that is carried out finds `s_L` null. -/
theorem torn_down_right_iff (waits : Bool) (actions : List DapAction) :
    Run.Throughout (Step waits) (fun w a _ => w.NothingToClose a) start actions ↔
      Run.Throughout (Step waits) (fun w a _ => w.TornDownRight a) start actions :=
  Run.throughout_iff (fun _ => True) (fun w a _ _ _ => nothingToClose_iff w a) (fun _ _ _ _ _ _ => trivial)
    trivial actions

/-- A reload that arrives while the cart is paused closes the state it is paused in. -/
theorem paused_state_torn_down :
    ¬∀ actions, Run.Throughout (Step false) (fun w a _ => w.TornDownRight a) start actions := by
  intro right
  have along := right [.builds, .connects, .requests .pause, .hooks .cart ⟨true, 1, none, 1⟩, .proceeds .cart,
    .requests (.hotReload true), .closes]
  obtain ⟨-, along⟩ := along _ (.builds rfl nofun)
  obtain ⟨-, along⟩ := along _ (.connects rfl)
  obtain ⟨-, along⟩ := along _ (.requests rfl nofun rfl)
  obtain ⟨-, along⟩ := along _ (.hooks rfl)
  obtain ⟨-, along⟩ := along _ (.proceeds rfl)
  obtain ⟨-, along⟩ := along _ (.reload rfl)
  obtain ⟨closed, -⟩ := along _ (.closes rfl)
  exact (closed .dap 0 rfl).2 (.waiting 0) rfl rfl

end DapWorld
end Blyt
