import Blyt.DapServer

namespace Blyt
open Run

/-- `ar->event`, as far as `fc_consolelua_master_hook` tells its values apart. -/
inductive HookKind where
  | count
  | line
  | other
  deriving DecidableEq

/-- The part of `fc_master_hook_cfg` that is not the debugger's. -/
structure HookConfig where
  budgetEnabled : Bool
  throttleEnabled : Bool
  dapEnabled : Bool
  budgetNs : UInt64
  budgetTicStartNs : UInt64
  throttleStartNs : UInt64
  throttleTargetNs : UInt64
  throttleDelayNs : UInt64

namespace HookConfig

/-- A configuration with the budget and the debugger enabled, before the first rearm. -/
def debugged (budgetNs : UInt64) (throttleEnabled : Bool) (throttleDelayNs : UInt64) : HookConfig :=
  ⟨true, throttleEnabled, true, budgetNs, 0, 0, 0, throttleDelayNs⟩

/-- `apply_default_config` of `dap_lua_host.c`. -/
def applyDefaultConfig : HookConfig := debugged 16667000 false 0

/-- `fc_consolelua_master_hook_rearm`, which reads the clock as `now`. -/
def rearm (cfg : HookConfig) (now : UInt64) : HookConfig :=
  { cfg with
    budgetTicStartNs := if cfg.budgetEnabled then now else cfg.budgetTicStartNs
    throttleStartNs := if cfg.throttleEnabled then 0 else cfg.throttleStartNs
    throttleTargetNs := if cfg.throttleEnabled then 0 else cfg.throttleTargetNs }

/-- `budget_check`, which reads the clock as `now`: whether it raises. -/
def budgetCheck (cfg : HookConfig) (now : UInt64) : Bool := cfg.budgetNs < now - cfg.budgetTicStartNs

/-- The master hook calls `budget_check`, and it raises. -/
def raises (cfg : HookConfig) (kind : HookKind) (now : UInt64) : Bool :=
  cfg.budgetEnabled && kind == .count && cfg.budgetCheck now

/-- The readings of the loop at the end of `throttle_step`: the last one is its first that has
reached the deadline. -/
def spins (deadline : UInt64) : List UInt64 → Bool
  | [] => false
  | [now] => deadline ≤ now
  | now :: readings => now < deadline && spins deadline readings

/-- `throttle_step` with its readings of the clock; `none` if it does not make these. -/
def throttleStep (cfg : HookConfig) (readings : List UInt64) : Option HookConfig :=
  let target := cfg.throttleTargetNs + cfg.throttleDelayNs
  if cfg.throttleStartNs = 0 then
    match readings with
    | [] => none
    | start :: readings =>
      if spins (start + target) readings then
        some { cfg with throttleStartNs := start, throttleTargetNs := target } else none
  else if spins (cfg.throttleStartNs + target) readings then some { cfg with throttleTargetNs := target } else none

/-- The throttle's part of `fc_consolelua_master_hook`. -/
def throttle (cfg : HookConfig) (kind : HookKind) (readings : List UInt64) : Option HookConfig :=
  if cfg.throttleEnabled && kind == .line then cfg.throttleStep readings
  else if readings.isEmpty then some cfg else none

end HookConfig

/-- The thread is inside `fc_dap_pause_loop`. -/
def Activity.inPauseLoop : Activity → Bool
  | breaking _ | waiting _ | leaving _ => true
  | code _ | askStep _ _ | askClient _ _ | askTable _ _ => false

def DapWorld.cartPaused (w : DapWorld) : Bool :=
  match w.activity .cart with
  | some a => a.inPauseLoop
  | none => false

/-- The two threads with the clock: what it last read, whether a tic has begun, and how long in
this tic the cart has run and how long it has been inside `fc_dap_pause_loop`. -/
structure HookWorld where
  w : DapWorld
  cfg : HookConfig
  now : UInt64
  inTic : Bool
  ran : Nat
  paused : Nat

/-- What happens next and when. A hook that calls `budget_check` reads the clock at `t`; then come
the readings of the throttle. -/
inductive HookAction where
  | rearms (t : UInt64)
  | hooks (who : DapThreadId) (kind : HookKind) (ar : HookEvent) (t : UInt64) (readings : List UInt64)
  | does (a : DapAction) (t : UInt64)

namespace HookWorld

def start (cfg : HookConfig) : HookWorld := ⟨.start, cfg, 0, false, 0, 0⟩

def ranAt (h : HookWorld) (t : UInt64) : Nat := h.ran + if h.w.cartPaused then 0 else t.toNat - h.now.toNat

def pausedAt (h : HookWorld) (t : UInt64) : Nat := h.paused + if h.w.cartPaused then t.toNat - h.now.toNat else 0

def tick (h : HookWorld) (t : UInt64) : HookWorld := { h with now := t, ran := h.ranAt t, paused := h.pausedAt t }

/-- The call that a rearm goes with is `rearm_then_call`'s. What the hook does behind the budget
check and the throttle is what `dap_dispatch` does. -/
inductive Step (waits : Bool) : HookWorld → HookAction → HookWorld → Prop
  | rearms {h t w} : h.now ≤ t → h.w.Step waits .calls w →
      Step waits h (.rearms t) ⟨w, h.cfg.rearm t, t, true, 0, 0⟩
  | raises {h who L kind ar t} : h.now ≤ t → h.w.activity who = some (.code L) → h.cfg.raises kind t = true →
      Step waits h (.hooks who kind ar t []) (h.tick t)
  | hooks {h who L kind ar t readings cfg w} : (h.now :: t :: readings).Pairwise (· ≤ ·) →
      h.w.activity who = some (.code L) → h.cfg.raises kind t = false →
      h.cfg.throttle kind readings = some cfg → ar.isLine = (kind == .line) →
      (if cfg.dapEnabled then h.w.Step waits (.hooks who ar) w else w = h.w) →
      Step waits h (.hooks who kind ar t readings)
        { h.tick ((t :: readings).getLast (List.cons_ne_nil _ _)) with w := w, cfg := cfg }
  | does {h a t w} : h.now ≤ t → a ≠ .calls → (∀ who ar, a ≠ .hooks who ar) → h.w.Step waits a w →
      Step waits h (.does a t) { h.tick t with w := w }

/-- A check at which the cart has not run longer than its budget in this tic does not raise. -/
def ChargesRunning (h : HookWorld) : HookAction → HookWorld → Prop
  | .hooks _ kind _ t _, _ => h.inTic = true → h.ranAt t ≤ h.cfg.budgetNs.toNat → h.cfg.raises kind t = false
  | _, _ => True

/-- At a count event at which the cart has not run longer than its budget, the pauses of the tic
fit in what is left of it. -/
def PausesFit (h : HookWorld) : HookAction → HookWorld → Prop
  | .hooks _ kind _ t _, _ => h.inTic = true → kind = .count → h.ranAt t ≤ h.cfg.budgetNs.toNat →
      h.pausedAt t ≤ h.cfg.budgetNs.toNat - h.ranAt t
  | _, _ => True

/-- Between the rearm and now, the time since the timestamp is what the cart ran and what it was
paused. -/
structure Timed (h : HookWorld) : Prop where
  enabled : h.cfg.budgetEnabled = true
  elapsed : h.inTic = true → h.cfg.budgetTicStartNs.toNat + h.ran + h.paused = h.now.toNat

variable {h h' : HookWorld} {t : UInt64}

theorem Timed.tick (timed : h.Timed) (later : h.now ≤ t) : (h.tick t).Timed := by
  refine ⟨timed.enabled, fun inTic => ?_⟩
  have elapsed := timed.elapsed inTic
  have later := UInt64.le_iff_toNat_le.mp later
  simp only [HookWorld.tick, ranAt, pausedAt]
  split <;> omega

theorem Timed.budgetCheck_iff (timed : h.Timed) (inTic : h.inTic = true) (later : h.now ≤ t) :
    h.cfg.budgetCheck t = true ↔ h.cfg.budgetNs.toNat < h.ranAt t + h.pausedAt t := by
  have ticked := (timed.tick later).elapsed inTic
  simp only [HookWorld.tick] at ticked
  have started : h.cfg.budgetTicStartNs ≤ t := UInt64.le_iff_toNat_le.mpr (by omega)
  rw [HookConfig.budgetCheck, decide_eq_true_eq, UInt64.lt_iff_toNat_lt, UInt64.toNat_sub_of_le _ _ started]
  omega

end HookWorld

theorem HookConfig.throttle_budget {cfg cfg' : HookConfig} {kind : HookKind} {readings : List UInt64}
    (throttled : cfg.throttle kind readings = some cfg') :
    cfg'.budgetEnabled = cfg.budgetEnabled ∧ cfg'.budgetNs = cfg.budgetNs ∧
      cfg'.budgetTicStartNs = cfg.budgetTicStartNs := by
  simp only [throttle, throttleStep] at throttled
  repeat' split at throttled
  all_goals cases throttled
  all_goals exact ⟨rfl, rfl, rfl⟩

namespace HookWorld
variable {waits : Bool} {h h' : HookWorld} {e : HookAction}

theorem Timed.step (timed : h.Timed) (step : h.Step waits e h') : h'.Timed := by
  cases step with
  | rearms later called =>
    refine ⟨timed.enabled, fun _ => ?_⟩
    simp only [HookConfig.rearm, timed.enabled, if_true, Nat.add_zero]
  | raises later _ _ => exact timed.tick later
  | @hooks who L kind ar t readings cfg w ordered _ _ throttled _ _ =>
    have later : h.now ≤ (t :: readings).getLast (List.cons_ne_nil _ _) :=
      (List.pairwise_cons.mp ordered).1 _ (List.getLast_mem _)
    obtain ⟨enabled, -, stamp⟩ := HookConfig.throttle_budget throttled
    have ticked := timed.tick later
    refine ⟨enabled.trans ticked.enabled, fun inTic => ?_⟩
    have elapsed := ticked.elapsed inTic
    rw [← elapsed]
    exact congrArg (fun s : UInt64 => s.toNat + _ + _) stamp
  | does later _ _ _ => exact ⟨timed.enabled, (timed.tick later).elapsed⟩

theorem Step.check_later {who : DapThreadId} {kind : HookKind} {ar : HookEvent} {t : UInt64} {readings : List UInt64}
    (step : h.Step waits (.hooks who kind ar t readings) h') : h.now ≤ t := by
  cases step with
  | raises later _ _ => exact later
  | hooks ordered _ _ _ _ _ => exact (List.pairwise_cons.mp ordered).1 t List.mem_cons_self

theorem pausesFit_iff (timed : h.Timed) (step : h.Step waits e h') : h.PausesFit e h' ↔ h.ChargesRunning e h' := by
  cases e with
  | rearms t => exact Iff.rfl
  | does a t => exact Iff.rfl
  | hooks who kind ar t readings =>
    refine forall_congr' fun inTic => ?_
    have check := timed.budgetCheck_iff inTic step.check_later
    constructor
    · intro fit within
      by_contra raised
      simp only [HookConfig.raises, Bool.and_eq_true, beq_iff_eq, Bool.not_eq_false] at raised
      have fit := fit raised.1.2 within
      have charged := check.mp raised.2
      omega
    · rintro charges rfl within
      by_contra overrun
      have raised := check.mpr (by omega)
      have spared := charges within
      simp [HookConfig.raises, timed.enabled, raised] at spared

/-- A debugged cart is charged no more than it ran, in every run, exactly as long as its pauses fit in
the rest of its budget. -/
theorem budgetCheck_chargesRunning_iff (waits : Bool) (budgetNs : UInt64) (throttleEnabled : Bool)
    (throttleDelayNs : UInt64) (es : List HookAction) :
    Throughout (Step waits) PausesFit (start (.debugged budgetNs throttleEnabled throttleDelayNs)) es ↔
      Throughout (Step waits) ChargesRunning (start (.debugged budgetNs throttleEnabled throttleDelayNs)) es :=
  throughout_iff Timed (fun _ _ _ timed step => pausesFit_iff timed step) (fun _ _ _ timed step _ => timed.step step)
    ⟨rfl, fun inTic => by cases inTic⟩ es

/-- The cart runs for 2 µs, the client looks at it for 20 ms, and the count event behind that raises. -/
theorem budgetCheck_chargesPause :
    ¬ Throughout (Step false) ChargesRunning (start .applyDefaultConfig)
      [.does .connects 0, .does .builds 0, .does (.returns .cart) 0, .rearms 0, .does (.requests .pause) 1000,
        .hooks .cart .line ⟨true, 1, none, 1⟩ 2000 [], .does (.proceeds .cart) 2000,
        .does (.requests .continue) 20000000, .does (.proceeds .cart) 20000000, .does (.proceeds .cart) 20000000,
        .hooks .cart .count ⟨false, 1, none, 1⟩ 20000100 []] := by
  intro met
  have connected := (met _ (.does (by decide) nofun nofun (.connects rfl))).2
  have built := (connected _ (.does (by decide) nofun nofun (.builds rfl nofun))).2
  have returned := (built _ (.does (by decide) nofun nofun (.returns rfl))).2
  have inTic := (returned _ (.rearms (by decide) (.calls rfl rfl))).2
  have asked := (inTic _ (.does (by decide) nofun nofun (.requests rfl nofun rfl))).2
  have hooked := (asked _ (.hooks (by decide) rfl (by decide) rfl rfl (.hooks rfl))).2
  have paused := (hooked _ (.does (by decide) nofun nofun (.proceeds rfl))).2
  have continued := (paused _ (.does (by decide) nofun nofun (.requests rfl nofun rfl))).2
  have woken := (continued _ (.does (by decide) nofun nofun (.proceeds rfl))).2
  have resumed := (woken _ (.does (by decide) nofun nofun (.proceeds rfl))).2
  have spared := (resumed _ (.raises (by decide) rfl (by decide))).1 rfl (by decide)
  exact absurd spared (by decide)

end HookWorld
end Blyt
