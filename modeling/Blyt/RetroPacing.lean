import Blyt.Lib.Run
import Blyt.Rewind

namespace Blyt.Facade
open Run

/-- `retro_init`, which reads the clock as `now` and the environment for `BLYT_FORCE_TICK_PER_RUN`. -/
def retroInit (core : RetroCore) (now : UInt64) (forceTickPerRun : Bool) : RetroCore :=
  { core with
    lastRunNs := now
    accumulatorNs := 0
    totalAudioPushed := 0
    totalRunCalls := 0
    forceTickPerRun := forceTickPerRun }

/-- `retro_load_game`: the frontend takes the pixel format or not, and `blyt_runtime_create` finds the
memory it needs or not. -/
def retroLoadGame (core : RetroCore) (format created : Bool) (now : UInt64) : Bool × RetroCore :=
  if !format then (false, core)
  else if !created then (false, { core with rt := none })
  else
    (true, { core with
      rt := some blytRuntimeCreate
      serializeUpperBound := blytRuntimeCreate.saveUpperBound
      lastRunNs := now
      accumulatorNs := 0 })

/-- A core that `retro_init` and `retro_load_game` have made ready at `now`. -/
def retroStart (core : RetroCore) (now : UInt64) (forceTickPerRun : Bool) : RetroCore :=
  (retroLoadGame (retroInit core now forceTickPerRun) true true now).2

/-- A call of `retro_run`: the buttons it polls, and its reading of the clock. -/
structure RunCall where
  buttons : UInt16
  now : UInt64

/-- A core with the ticks its calls have run and the deltas they have seen, both since the start. -/
structure PacedCore where
  core : RetroCore
  ticks : Nat
  elapsed : Nat

namespace PacedCore

def start (core : RetroCore) : PacedCore := ⟨core, 0, 0⟩

/-- Without a game the call comes back before it reads the clock. -/
def run (p : PacedCore) (call : RunCall) : Exec PacedCore :=
  match p.core.rt with
  | none => .returns p
  | some _ => do
    let core ← retroRun p.core call.buttons call.now
    return ⟨core, p.ticks + (p.core.catchUps call.now).1, p.elapsed + (call.now - p.core.lastRunNs).toNat⟩

def Step (p : PacedCore) (call : RunCall) (p' : PacedCore) : Prop := p.run call = .returns p'

/-- The clock has not gone back since the last call, and behind the ticks of this one there is nothing
to drop. -/
def WithinCap (p : PacedCore) (call : RunCall) : Prop :=
  p.core.lastRunNs ≤ call.now ∧
    (ticksDue 3 (p.core.accumulatorNs + (call.now - p.core.lastRunNs))).2 < tickNs

/-- No time is lost, and none is counted twice. -/
def OnTime (p : PacedCore) : Prop := p.ticks = p.elapsed / tickNs.toNat

/-- What holds as long as no time is lost, the clock having stood at `begun` at the start. -/
structure Exact (begun : UInt64) (p : PacedCore) : Prop where
  wall : p.core.forceTickPerRun = false
  below : p.core.accumulatorNs < tickNs
  counted : p.ticks * tickNs.toNat + p.core.accumulatorNs.toNat = p.elapsed
  clock : begun.toNat + p.elapsed = p.core.lastRunNs.toNat

end PacedCore

/-- The loop takes at most `n` ticks out of the accumulator, and stops early only below one. -/
theorem ticksDue_spec (n : Nat) (acc : UInt64) :
    (ticksDue n acc).1 ≤ n ∧ (ticksDue n acc).1 * tickNs.toNat + (ticksDue n acc).2.toNat = acc.toNat := by
  induction n generalizing acc with
  | zero =>
    simp only [ticksDue]
    omega
  | succ n ih =>
    simp only [ticksDue]
    split
    · rename_i due
      obtain ⟨few, left⟩ := ih (acc - tickNs)
      rw [UInt64.toNat_sub_of_le _ _ due] at left
      have due := UInt64.le_iff_toNat_le.mp due
      refine ⟨Nat.succ_le_succ few, ?_⟩
      dsimp only
      rw [Nat.succ_mul]
      omega
    · dsimp only
      omega

theorem RetroCore.catchUps_spec (core : RetroCore) (now : UInt64) :
    (core.catchUps now).1 ≤ 3 ∧ (core.catchUps now).2 < tickNs := by
  rw [catchUps]
  split
  · exact ⟨by omega, by decide⟩
  · refine ⟨(ticksDue_spec 3 _).1, ?_⟩
    dsimp only
    split
    · decide
    · rename_i below
      exact UInt64.not_le.mp below

theorem retroRun_clock {core next : RetroCore} {rt : BlytRuntime} (at_ : core.rt = some rt) {buttons : UInt16}
    {now : UInt64} (ran : retroRun core buttons now = .returns next) :
    next.lastRunNs = now ∧ next.accumulatorNs = (core.catchUps now).2 ∧
      next.forceTickPerRun = core.forceTickPerRun := by
  simp only [retroRun, at_] at ran
  obtain ⟨_, -, ran⟩ := Exec.bind_eq_returns.mp ran
  obtain ⟨_, -, ran⟩ := Exec.bind_eq_returns.mp ran
  cases ran
  exact ⟨rfl, rfl, rfl⟩

namespace PacedCore
variable {p p' : PacedCore} {call : RunCall} {begun : UInt64}

/-- What a call does to the pacing, with a game and without. -/
theorem step_cases (step : p.Step call p') :
    (p.core.rt = none ∧ p' = p) ∨
      (p.core.rt ≠ none ∧ p'.core.lastRunNs = call.now ∧ p'.core.accumulatorNs = (p.core.catchUps call.now).2 ∧
        p'.core.forceTickPerRun = p.core.forceTickPerRun ∧ p'.ticks = p.ticks + (p.core.catchUps call.now).1 ∧
        p'.elapsed = p.elapsed + (call.now - p.core.lastRunNs).toNat) := by
  rw [Step, run] at step
  cases at_ : p.core.rt with
  | none =>
    simp only [at_] at step
    cases step
    exact Or.inl ⟨rfl, rfl⟩
  | some rt =>
    simp only [at_] at step
    obtain ⟨next, ran, step⟩ := Exec.bind_eq_returns.mp step
    obtain ⟨clock, left, forced⟩ := retroRun_clock at_ ran
    cases step
    exact Or.inr ⟨Option.some_ne_none rt, clock, left, forced, rfl, rfl⟩

/-- A call takes up to three ticks and leaves less than one behind. -/
theorem step_bounded (step : p.Step call p') (below : p.core.accumulatorNs < tickNs) :
    p'.core.accumulatorNs < tickNs ∧ p'.ticks ≤ p.ticks + 3 := by
  rcases step_cases step with ⟨-, rfl⟩ | ⟨-, -, left, -, ticks, -⟩
  · exact ⟨below, Nat.le_add_right ..⟩
  · obtain ⟨few, short⟩ := p.core.catchUps_spec call.now
    exact ⟨left ▸ short, by omega⟩

theorem Exact.onTime (exact : p.Exact begun) : p.OnTime := by
  have below := UInt64.lt_iff_toNat_lt.mp exact.below
  have counted := exact.counted
  rw [OnTime, ← counted, Nat.mul_comm, Nat.mul_add_div (by decide), Nat.div_eq_of_lt below, Nat.add_zero]

/-- The accumulator holds no more than has passed, so that the next delta does not wrap it around. -/
theorem Exact.sum (exact : p.Exact begun) (later : p.core.lastRunNs ≤ call.now) :
    (p.core.accumulatorNs + (call.now - p.core.lastRunNs)).toNat =
      p.core.accumulatorNs.toNat + (call.now - p.core.lastRunNs).toNat := by
  have delta := UInt64.toNat_sub_of_le _ _ later
  have later := UInt64.le_iff_toNat_le.mp later
  have bound := call.now.toNat_lt
  have counted := exact.counted
  have clock := exact.clock
  rw [UInt64.toNat_add, delta]
  exact Nat.mod_eq_of_lt (by omega)

theorem Exact.step (exact : p.Exact begun) (step : p.Step call p') (within : p.WithinCap call) : p'.Exact begun := by
  rcases step_cases step with ⟨-, rfl⟩ | ⟨-, last, left, forced, ticks, elapsed⟩
  · exact exact
  obtain ⟨later, spared⟩ := within
  have sum := exact.sum later
  have due := (ticksDue_spec 3 (p.core.accumulatorNs + (call.now - p.core.lastRunNs))).2
  have taken : p.core.catchUps call.now = ticksDue 3 (p.core.accumulatorNs + (call.now - p.core.lastRunNs)) := by
    simp only [RetroCore.catchUps, exact.wall, Bool.false_eq_true, if_false, if_neg (UInt64.not_le.mpr spared)]
  rw [taken] at left ticks
  have counted := exact.counted
  have clock := exact.clock
  have delta := UInt64.toNat_sub_of_le _ _ later
  have later := UInt64.le_iff_toNat_le.mp later
  refine ⟨forced.trans exact.wall, left ▸ spared, ?_, ?_⟩
  · rw [ticks, elapsed, left, Nat.add_mul]
    omega
  · rw [last, elapsed, delta]
    omega

/-- Every call runs at most three ticks and leaves less than one in the accumulator. Where the clock
decides, the ticks of calls that drop nothing are those of the time that has passed; where a tick is
forced, every call of a loaded core runs one. -/
theorem retroRun_paced {core : RetroCore} (fresh : core.accumulatorNs = 0) (calls : List RunCall) :
    Throughout Step (fun p _ p' => p'.ticks ≤ p.ticks + 3 ∧ p'.core.accumulatorNs < tickNs) (start core) calls ∧
      (core.forceTickPerRun = false → Throughout Step (fun p call _ => p.WithinCap call) (start core) calls →
        Throughout Step (fun _ _ p' => p'.OnTime) (start core) calls) ∧
      (core.forceTickPerRun = true →
        Throughout Step (fun p _ p' => p.core.rt ≠ none → p'.ticks = p.ticks + 1 ∧ p'.core.accumulatorNs = 0)
          (start core) calls) := by
  have empty : core.accumulatorNs < tickNs := by
    rw [fresh]
    decide
  refine ⟨?_, fun wall within => ?_, fun forced => ?_⟩
  · refine .of_steps (fun p => p.core.accumulatorNs < tickNs) (fun p call p' below step => ?_) empty calls
    obtain ⟨short, few⟩ := step_bounded step below
    exact ⟨short, few, short⟩
  · have begun : (start core).Exact core.lastRunNs := by
      refine ⟨wall, empty, ?_, Nat.add_zero _⟩
      show 0 * tickNs.toNat + core.accumulatorNs.toNat = 0
      rw [fresh, Nat.zero_mul]
      rfl
    refine within.of_invariant (Exact core.lastRunNs) (fun p call p' exact step within => ?_) begun
    have exact' := exact.step step within
    exact ⟨exact', exact'.onTime⟩
  · refine .of_steps (fun p => p.core.forceTickPerRun = true) (fun p call p' forced step => ?_) forced calls
    rcases step_cases step with ⟨none, rfl⟩ | ⟨-, -, left, same, ticks, -⟩
    · exact ⟨forced, fun some => absurd none some⟩
    · rw [RetroCore.catchUps, if_pos forced] at left ticks
      exact ⟨same.trans forced, fun _ => ⟨ticks, left⟩⟩

/-- A call after 50 ms. -/
theorem retroRun_paced_start :
    Throughout Step (fun _ _ p' => p'.OnTime) (start (retroStart playing 0 false)) [⟨0, 50000000⟩] :=
  (@retroRun_paced (retroStart playing 0 false) rfl _).2.1 rfl fun _ _ => ⟨⟨by decide, by decide⟩, trivial⟩

theorem run_returns (within : ∀ rt, p.core.rt = some rt → rt.cart.Within) (call : RunCall) :
    ∃ p', p.Step call p' := by
  cases at_ : p.core.rt with
  | none => exact ⟨p, by rw [Step, run, at_]⟩
  | some rt =>
    obtain ⟨_, _, played, -⟩ := (⟨rfl, rfl, rfl⟩ : SameRegions rt rt).runtimeFrame (within rt at_)
      ⟨call.buttons, (p.core.catchUps call.now).1⟩ p.core.audioDue 0
    have frame := retroRun_rt at_ call.buttons call.now
    rw [played] at frame
    obtain ⟨next, ran, -⟩ := Exec.bind_eq_returns.mp frame
    exact ⟨_, by rw [Step, run, at_, ran]; rfl⟩

/-- A forced tick after one nanosecond. -/
theorem retroRun_not_paced :
    ¬∀ (core : RetroCore) (calls : List RunCall), core.accumulatorNs = 0 →
      Throughout Step (fun p call _ => p.WithinCap call) (start core) calls →
        Throughout Step (fun _ _ p' => p'.OnTime) (start core) calls := by
  intro paced
  have within : ∀ rt, (start (retroStart playing 0 true)).core.rt = some rt → rt.cart.Within := by
    intro rt made
    cases made
    exact blytRuntimeReset_within _
  obtain ⟨p', step⟩ := run_returns within ⟨0, 1⟩
  have onTime : p'.OnTime :=
    (paced (retroStart playing 0 true) [⟨0, 1⟩] rfl (fun _ _ => ⟨⟨by decide, by decide⟩, trivial⟩) p' step).1
  rcases step_cases step with ⟨none, -⟩ | ⟨-, -, -, -, ticks, elapsed⟩
  · cases none
  · rw [OnTime, ticks, elapsed] at onTime
    revert onTime
    decide

end PacedCore
end Blyt.Facade
