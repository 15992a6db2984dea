import Blyt.ScriptCast

namespace Blyt
variable {P E : Type} {C : LuaConf}

/-- For `N` turns the body yields, and leaves in its `ctx` all it needs: begun at its first line it does what it would
have done where it stands. `inv` tells how place and `ctx` hang together after each number of turns. -/
structure ScriptBody.Steady (body : ScriptBody P C) (inv : Nat → P → ScriptCtx C → Prop) (N : Nat) : Prop where
  yields : ∀ n place ctx, inv n place ctx → n < N → ∀ s, ∃ s' ctx' place',
    body.turn place s ctx = (s', ctx', .yields place') ∧ inv (n + 1) place' ctx' ∧ s'.fs.frame = s.fs.frame ∧
      ((∀ j, (s.cs j).Canonical) → ∀ j, (s'.cs j).Canonical)
  reentrant : ∀ n place ctx, inv n place ctx → n < N → ∀ s, body.turn body.entry s ctx = body.turn place s ctx
  stable : ∀ n place ctx, inv n place ctx → ∀ ctx', ctx.Same ctx' → inv n place ctx'
  same : ∀ n place ctx, inv n place ctx → n < N → ∀ ctx', ctx.Same ctx' → ∀ s s' ctx₁ place',
    body.turn place s ctx = (s', ctx₁, .yields place') →
      ∃ ctx₁', body.turn place s ctx' = (s', ctx₁', .yields place') ∧ ctx₁.Same ctx₁'
  fits : ∀ n place ctx, inv n place ctx → ScriptCtx.Fits ctx
  plain : ∀ n place ctx, inv n place ctx → ScriptCtx.Plain ctx

namespace Cast

/-- The scripts after `n` turns. -/
def Running (N : Nat) (invs : List (Nat → P → ScriptCtx C → Prop)) (n : Nat) (cast : Cast P C) : Prop :=
  List.Forall₂ (fun inv e => e.1.body.Steady inv N ∧ inv n e.1.place e.2) invs cast

/-- The scripts of a load run next to those they come from: each stands where the other does, or at its first line. -/
def Reentered (cast back : Cast P C) : Prop :=
  List.Forall₂ (fun e e' => e'.1.body = e.1.body ∧ (e'.1.place = e.1.place ∨ e'.1.place = e.1.body.entry) ∧
    e.2.Same e'.2) cast back

variable {N n : Nat} {invs : List (Nat → P → ScriptCtx C → Prop)} {cast back : Cast P C}

theorem Running.turn (running : Running N invs n cast) (before : n < N) (s : BindingState) :
    ∃ s' cast', cast.turn s = some (s', cast') ∧ Running N invs (n + 1) cast' ∧ s'.fs.frame = s.fs.frame ∧
      ((∀ j, (s.cs j).Canonical) → ∀ j, (s'.cs j).Canonical) := by
  induction running generalizing s with
  | nil => exact ⟨s, [], rfl, .nil, rfl, id⟩
  | @cons inv e invs cast good _ ih =>
    obtain ⟨co, ctx⟩ := e
    obtain ⟨steady, holds⟩ := good
    obtain ⟨s₁, ctx', place, ran, next, frame, canonical⟩ := steady.yields n co.place ctx holds before s
    obtain ⟨s₂, cast', rest, others, frame', canonical'⟩ := ih s₁
    refine ⟨s₂, (⟨co.body, place⟩, ctx') :: cast', ?_, .cons ⟨steady, next⟩ others, frame'.trans frame, canonical' ∘ canonical⟩
    rw [Cast.turn, ran]
    dsimp only
    rw [rest]
    rfl

/-- A turn of the re-entered scripts. -/
theorem Running.turn_reentered (running : Running N invs n cast) (before : n < N) (again : Reentered cast back)
    {s s' : BindingState} {cast' : Cast P C} (turned : cast.turn s = some (s', cast')) :
    ∃ back', back.turn s = some (s', back') ∧ Reentered cast' back' := by
  induction running generalizing back s s' cast' with
  | nil =>
    cases again
    cases turned
    exact ⟨[], rfl, .nil⟩
  | @cons inv e invs cast good _ ih =>
    obtain ⟨co, ctx⟩ := e
    obtain ⟨steady, holds⟩ := good
    cases again with
    | @cons _ e' _ back' pair others =>
      obtain ⟨co', ctx'⟩ := e'
      obtain ⟨body, place', same⟩ := pair
      dsimp only at steady holds body place' same
      obtain ⟨s₁, ctx₁, place, ran, -⟩ := steady.yields n co.place ctx holds before s
      obtain ⟨ctx₁', ran', same'⟩ := steady.same n co.place ctx holds before ctx' same s s₁ ctx₁ place ran
      rw [Cast.turn, ran] at turned
      obtain ⟨⟨t, later⟩, rest, is⟩ := Option.map_eq_some_iff.mp turned
      cases is
      obtain ⟨back₁, rest', pairs⟩ := ih others rest
      have entered : co'.body.turn co'.place s ctx' = (s₁, ctx₁', .yields place) := by
        rw [body]
        rcases place' with here | entry
        · rw [here, ran']
        · rw [entry, steady.reentrant n co.place ctx' (steady.stable n co.place ctx holds ctx' same) before s, ran']
      refine ⟨(⟨co'.body, place⟩, ctx₁') :: back₁, ?_, .cons ⟨body, .inl rfl, same'⟩ pairs⟩
      rw [Cast.turn, entered]
      dsimp only
      rw [rest']
      rfl

theorem Running.forall_mem (running : Running N invs n cast) {Q : ScriptCtx C → Prop}
    (each : ∀ inv (e : ManagedCoroutine P C × ScriptCtx C), e.1.body.Steady inv N → inv n e.1.place e.2 → Q e.2) :
    ∀ e ∈ cast, Q e.2 := by
  induction running with
  | nil => exact List.forall_mem_nil _
  | cons good _ ih => exact List.forall_mem_cons.mpr ⟨each _ _ good.1 good.2, ih⟩

theorem Running.fits (running : Running N invs n cast) : ∀ e ∈ cast, ScriptCtx.Fits e.2 :=
  running.forall_mem fun _ e steady holds => steady.fits n e.1.place e.2 holds

theorem Running.plain (running : Running N invs n cast) : ∀ e ∈ cast, ScriptCtx.Plain e.2 :=
  running.forall_mem fun _ e steady holds => steady.plain n e.1.place e.2 holds

theorem Reentered.fits (again : Reentered cast back) (fits : ∀ e ∈ cast, ScriptCtx.Fits e.2) :
    ∀ e ∈ back, ScriptCtx.Fits e.2 := by
  induction again with
  | nil => exact fits
  | cons pair _ ih =>
    obtain ⟨first, others⟩ := List.forall_mem_cons.mp fits
    exact List.forall_mem_cons.mpr ⟨first.same pair.2.2, ih others⟩

end Cast

/-- A cart whose scripts are steady for `N` turns, that reports the contents of their tables and reports numbers. -/
structure ManagedCart.Steady (cart : ManagedCart P C) (host : BindingHost (LuaValue C) E) (N : Nat)
    (invs : List (Nat → P → ScriptCtx C → Prop)) : Prop where
  room : cart.scripts.length ≤ maxPersistentScripts
  scripts : Cast.Running N invs 0 (cart.scripts.map fun x => (⟨x.1, x.1.entry⟩, x.2))
  opening : (cart.opening freshBindings).fs.frame = 0 ∧ ∀ j, ((cart.opening freshBindings).cs j).Canonical
  reports : ∀ s (ctxs ctxs' : List (ScriptCtx C)), List.Forall₂ LuaTable.Same ctxs ctxs' →
    cart.report s (ctxs.map fun ctx => (true, some ctx)) = cart.report s (ctxs'.map fun ctx => (true, some ctx))
  numbers : ∀ n s cast, Cast.Running N invs n cast →
    ∀ v ∈ cart.report s (Cast.answers cast), ∃ f, host.checkNumber 1 v = .ok f

theorem BindingHost.addAll_keeps {V : Type} (host : BindingHost V E) (s : BindingState) (values : List V) :
    (host.addAll s values).1.cs = s.cs ∧ (host.addAll s values).1.fs.frame = s.fs.frame := by
  induction values generalizing s with
  | nil => exact ⟨rfl, rfl⟩
  | cons v values ih =>
    rw [addAll, lAddMisc]
    cases host.checkNumber 1 v with
    | error e => exact ⟨rfl, rfl⟩
    | ok f => exact ih _

theorem BindingHost.addAll_numbers {V : Type} (host : BindingHost V E) (s : BindingState) {values : List V}
    (numbers : ∀ v ∈ values, ∃ f, host.checkNumber 1 v = .ok f) : (host.addAll s values).2 = none := by
  induction values generalizing s with
  | nil => rfl
  | cons v values ih =>
    obtain ⟨⟨f, number⟩, others⟩ := List.forall_mem_cons.mp numbers
    rw [addAll, lAddMisc, number]
    exact ih _ others

namespace Cast
variable {N n k : Nat} {invs : List (Nat → P → ScriptCtx C → Prop)} {cart : ManagedCart P C}
  {host : BindingHost (LuaValue C) E} {cast back : Cast P C} {s : BindingState}

/-- Behind some frames of a steady cart. -/
structure Behind (N : Nat) (invs : List (Nat → P → ScriptCtx C → Prop)) (n : Nat) (s : BindingState) (cast : Cast P C) :
    Prop where
  running : Running N invs n cast
  frame : s.fs.frame.toNat = n
  canonical : ∀ j, (s.cs j).Canonical

/-- Steady scripts run through as many frames as they are steady for. -/
theorem Behind.runs (steady : cart.Steady host N invs) (bound : N < 2 ^ 32) (behind : Behind N invs n s cast)
    (within : n + k ≤ N) : ∃ s' cast' digests, cast.Runs cart host k s s' cast' digests ∧
      Behind N invs (n + k) s' cast' ∧ (0 < k → s'.Settled) := by
  induction k generalizing n s cast with
  | zero => exact ⟨s, cast, [], .done s cast, behind, fun none => absurd none (Nat.lt_irrefl 0)⟩
  | succ k ih =>
    obtain ⟨s₁, cast₁, turned, running, frame, canonical⟩ := behind.running.turn (by omega) s
    obtain ⟨cells, number⟩ := host.addAll_keeps s₁ (cart.report s₁ cast₁.answers)
    have added := host.addAll_numbers s₁ (steady.numbers (n + 1) s₁ cast₁ running)
    generalize sum : host.addAll s₁ (cart.report s₁ cast₁.answers) = r at cells number added
    obtain ⟨s₂, ended⟩ := r
    dsimp only at cells number added
    subst added
    have stays : ∀ j, (s₂.cs j).Canonical := cells ▸ canonical behind.canonical
    have settled := BindingHost.lCommitFrame_settled stays
    have next : Behind N invs (n + 1) (BindingHost.lCommitFrame s₂).1 cast₁ := by
      refine ⟨running, ?_, stays⟩
      show (s₂.fs.frame + 1).toNat = n + 1
      rw [number, frame, UInt32.toNat_add, behind.frame]
      exact Nat.mod_eq_of_lt (show n + 1 < 2 ^ 32 by omega)
    obtain ⟨s', cast', digests, rest, last, later⟩ := ih next (by omega)
    refine ⟨s', cast', _, .frame turned running.fits sum rest, ?_, fun _ => ?_⟩
    · rwa [Nat.add_assoc, Nat.add_comm 1] at last
    · cases k with
      | zero =>
        cases rest
        exact settled
      | succ k => exact later (Nat.succ_pos k)

/-- The re-entered scripts show what those show that they come from. -/
theorem Runs.reentered (steady : cart.Steady host N invs) {s' : BindingState} {cast' : Cast P C} {digests : List Digest}
    (runs : cast.Runs cart host k s s' cast' digests) (running : Running N invs n cast) (within : n + k ≤ N)
    (again : Reentered cast back) : ∃ back', back.Runs cart host k s s' back' digests := by
  induction runs generalizing n back with
  | done s cast => exact ⟨back, .done s back⟩
  | @frame k s s₁ s₂ s' cast cast₁ cast' digests turned fits added rest ih =>
    obtain ⟨back₁, turned', again'⟩ := running.turn_reentered (by omega) again turned
    obtain ⟨t, cast₁', turned₁, running', -⟩ := running.turn (by omega) s
    rw [turned] at turned₁
    cases turned₁
    have alike : List.Forall₂ LuaTable.Same (cast₁.map Prod.snd) (back₁.map Prod.snd) := by
      rw [List.forall₂_map_left_iff, List.forall₂_map_right_iff]
      exact again'.imp fun _ _ pair => pair.2.2
    have reported := steady.reports s₁ _ _ alike
    rw [List.map_map, List.map_map] at reported
    have added' : host.addAll s₁ (cart.report s₁ back₁.answers) = (s₂, none) := by
      rw [← added]
      exact congrArg (host.addAll s₁) reported.symm
    obtain ⟨back', rest'⟩ := ih running' (by omega) again'
    exact ⟨back', .frame turned' (again'.fits fits) added' rest'⟩

end Cast
end Blyt
