import Blyt.ManagedCart

namespace Blyt
variable {P E : Type} {C : LuaConf}

/-- The scripts of a cart as they are meant: coroutines that each keep a `ctx`. There are no slots and no bytes. -/
abbrev Cast (P : Type) (C : LuaConf) := List (ManagedCoroutine P C × ScriptCtx C)

namespace Cast

/-- Every script runs to its next `yield`, one after the other. -/
def turn : BindingState → Cast P C → Option (BindingState × Cast P C)
  | s, [] => some (s, [])
  | s, (co, ctx) :: cast =>
    match co.body.turn co.place s ctx with
    | (s, ctx, .yields place) => (turn s cast).map (Prod.map id (List.cons (⟨co.body, place⟩, ctx)))
    | _ => none

/-- What the resumes of a frame give back. -/
def answers (cast : Cast P C) : List (Bool × Option (ScriptCtx C)) := cast.map fun e => (true, some e.2)

/-- Frames in which every script yields and fits its slot, and what they show. -/
inductive Runs (cart : ManagedCart P C) (host : BindingHost (LuaValue C) E) :
    Nat → BindingState → Cast P C → BindingState → Cast P C → List Digest → Prop
  | done (s : BindingState) (cast : Cast P C) : Runs cart host 0 s cast s cast []
  | frame {n : Nat} {s s₁ s₂ s' : BindingState} {cast cast₁ cast' : Cast P C} {digests : List Digest}
      (turned : cast.turn s = some (s₁, cast₁)) (fits : ∀ e ∈ cast₁, ScriptCtx.Fits e.2)
      (added : host.addAll s₁ (cart.report s₁ cast₁.answers) = (s₂, none))
      (rest : Runs cart host n (BindingHost.lCommitFrame s₂).1 cast₁ s' cast' digests) :
      Runs cart host (n + 1) s cast s' cast' ((BindingHost.lCommitFrame s₂).2 :: digests)

/-- A turn leaves each coroutine its body. -/
theorem turn_bodies {s s' : BindingState} {cast cast' : Cast P C} (turned : cast.turn s = some (s', cast')) :
    cast'.map (fun e => e.1.body) = cast.map fun e => e.1.body := by
  induction cast generalizing s s' cast' with
  | nil =>
    cases turned
    rfl
  | cons e cast ih =>
    obtain ⟨co, ctx⟩ := e
    rw [turn] at turned
    split at turned
    · obtain ⟨⟨t, later⟩, run, is⟩ := Option.map_eq_some_iff.mp turned
      cases is
      exact congrArg (List.cons co.body) (ih run)
    · cases turned

theorem turn_length {s s' : BindingState} {cast cast' : Cast P C} (turned : cast.turn s = some (s', cast')) :
    cast'.length = cast.length := by
  have bodies := congrArg List.length (turn_bodies turned)
  rwa [List.length_map, List.length_map] at bodies

variable {cart : ManagedCart P C} {host : BindingHost (LuaValue C) E} {s s' : BindingState} {cast cast' : Cast P C}
  {digests : List Digest}

theorem Runs.bodies {n : Nat} (runs : Runs cart host n s cast s' cast' digests) :
    cast'.map (fun e => e.1.body) = cast.map fun e => e.1.body := by
  induction runs with
  | done => rfl
  | frame turned fits added rest ih => exact ih.trans (turn_bodies turned)

theorem Runs.length {n : Nat} (runs : Runs cart host n s cast s' cast' digests) : digests.length = n := by
  induction runs with
  | done => rfl
  | frame turned fits added rest ih => rw [List.length_cons, ih]

theorem Runs.append {n m : Nat} {t : BindingState} {middle : Cast P C} {earlier later : List Digest}
    (first : cast.Runs cart host n s t middle earlier) (second : middle.Runs cart host m t s' cast' later) :
    cast.Runs cart host (n + m) s s' cast' (earlier ++ later) := by
  induction first with
  | done s cast =>
    rw [Nat.zero_add]
    exact second
  | frame turned fits added _ ih =>
    rw [Nat.succ_add]
    exact .frame turned fits added (ih second)

end Cast

/-- The process has the scripts in the first slots, in order, and in each slot the blob of its script. -/
structure ManagedProcess.Seats (p : ManagedProcess P C) (cast : Cast P C) : Prop where
  room : cast.length ≤ maxPersistentScripts
  filled : FirstFit.Filled p.module.region.bitGet cast.length
  fit : p.module.region.LensFit
  fresh : p.module.fresh = cast.length
  idle : p.module.resuming = []
  seated : ∀ (s : Fin maxPersistentScripts) co ctx, cast[s.val]? = some (co, ctx) →
    p.module.slots s = some s.val ∧ p.module.scripts s = ⟨ctx, false⟩ ∧ p.coroutines s = some co ∧
      consoleTableFlatten ctx = .returns (.ok (p.module.region.blob s))

namespace ManagedProcess
open PersistentScripts FirstFit
variable {p : ManagedProcess P C} {cast : Cast P C}

theorem flat_short {ctx : ScriptCtx C} {bytes : List UInt8} (flat : consoleTableFlatten ctx = .returns (.ok bytes)) :
    bytes.length ≤ persistentScriptSlotBytes := by
  have blob : IsBlob C bytes := ⟨ctx, flat⟩
  obtain ⟨-, -, -, -, -, -, short⟩ := blob.wire
  exact short

/-- A script whose `ctx` is known from the start is created in the next slot. -/
theorem Seats.create (seats : p.Seats cast) (body : ScriptBody P C) {seed ctx : ScriptCtx C} {bytes : List UInt8}
    (s : Fin maxPersistentScripts) (next : s.val = cast.length)
    (initial : { p.module with region := p.module.region.bitSet s }.initialCtx s seed = .returns (.ok ctx))
    (flat : consoleTableFlatten ctx = .returns (.ok bytes)) :
    ∃ p', p.create body seed = .returns (p', .ok s) ∧ p'.Seats (cast ++ [(⟨body, body.entry⟩, ctx)]) ∧
      p'.bindings = p.bindings ∧ p'.module.loadResume = p.module.loadResume ∧
      p'.module.region.blob = Function.update p.module.region.blob s bytes := by
  have fits := flat_short flat
  have first : firstFree p.module.region.bitGet = some s := by
    have room : cast.length < maxPersistentScripts := next ▸ s.isLt
    rw [firstFree_of_filled seats.filled room]
    exact congrArg some (Fin.ext next.symm)
  have active : (p.module.region.bitSet s).bitGet s = true := by rw [bitGet_bitSet, Function.update_self]
  let m : ScriptModule C := ScriptModule.enter { p.module with region := p.module.region.bitSet s } s ctx
  have persisted : m.flattenAndPersist s ctx = .returns ({ m with region := (m.region.write s bytes).1 }, none) :=
    ScriptModule.flattenAndPersist_active flat active fits
  have created := ScriptModule.create_entered first initial persisted
  obtain ⟨-, bits, blobs⟩ := write_active active fits
  let p' : ManagedProcess P C := { p with
    module := { m with region := (m.region.write s bytes).1 }
    coroutines := Function.update p.coroutines p.module.fresh (some ⟨body, body.entry⟩) }
  have returned : p.create body seed = .returns (p', .ok s) := by
    rw [ManagedProcess.create, created]
    rfl
  have blobs : p'.module.region.blob = Function.update p.module.region.blob s bytes := blobs
  refine ⟨p', returned, ⟨?_, ?_, (seats.fit.bitSet s).write s _, ?_, seats.idle, fun t co ctx' here => ?_⟩, rfl, rfl, blobs⟩
  · rw [List.length_append, List.length_singleton, ← next]
    exact s.isLt
  · have filled := seats.filled.next (next ▸ s.isLt)
    have same : p'.module.region.bitGet = Function.update p.module.region.bitGet ⟨cast.length, next ▸ s.isLt⟩ true := by
      rw [show (⟨cast.length, next ▸ s.isLt⟩ : Fin maxPersistentScripts) = s from Fin.ext next.symm, ← bitGet_bitSet]
      exact bits
    rw [List.length_append, List.length_singleton, same]
    exact filled
  · show p.module.fresh + 1 = _
    rw [seats.fresh, List.length_append, List.length_singleton]
  · have fresh : p.module.fresh = s.val := seats.fresh.trans next.symm
    show Function.update p.module.slots (s : Int) (some p.module.fresh) t = some t.val ∧
      Function.update p.module.scripts p.module.fresh ⟨ctx, false⟩ t = ⟨ctx', false⟩ ∧
      Function.update p.coroutines p.module.fresh (some ⟨body, body.entry⟩) t = some co ∧
      consoleTableFlatten ctx' = .returns (.ok (p'.module.region.blob t))
    rw [blobs, fresh]
    by_cases last : t = s
    · subst last
      rw [List.getElem?_append_right next.ge, next, Nat.sub_self, List.getElem?_cons_zero] at here
      cases here
      exact ⟨Function.update_self .., Function.update_self .., Function.update_self .., by rwa [Function.update_self]⟩
    · have apart : t.val ≠ s.val := fun eq => last (Fin.ext eq)
      have earlier : t.val < cast.length := by
        have inside := (List.getElem?_eq_some_iff.mp here).1
        rw [List.length_append, List.length_singleton] at inside
        omega
      rw [List.getElem?_append_left earlier] at here
      rw [Function.update_of_ne (by omega : (t : Int) ≠ s), Function.update_of_ne apart, Function.update_of_ne apart,
        Function.update_of_ne last]
      exact seats.seated t co ctx' here

/-- A script that yields, with a `ctx` that fits its slot, is resumed. -/
theorem Seats.resume (seats : p.Seats cast) {s : Fin maxPersistentScripts} {co : ManagedCoroutine P C}
    {ctx ctx' : ScriptCtx C} (here : cast[s.val]? = some (co, ctx)) {b : BindingState} {place : P}
    (turned : co.body.turn co.place p.bindings ctx = (b, ctx', .yields place)) (fits : ScriptCtx.Fits ctx') :
    ∃ p', p.resume s = .returns (p', .returned true (some ctx')) ∧ p'.bindings = b ∧
      p'.Seats (cast.set s (⟨co.body, place⟩, ctx')) := by
  obtain ⟨bytes, flat⟩ := fits
  obtain ⟨slot, script, running, -⟩ := seats.seated s co ctx here
  have inside : s.val < cast.length := (List.getElem?_eq_some_iff.mp here).1
  have active : p.module.region.bitGet s = true := by
    rw [seats.filled s]
    exact decide_eq_true inside
  have short := flat_short flat
  obtain ⟨-, bits, blobs⟩ := write_active active short
  let entered : ScriptModule C := { p.module with resuming := [((s : Int), s.val)] }
  have resumed : p.module.resume s = .returns (entered, none) := by
    have alive : ¬(p.module.scripts s.val).dead = true := by
      rw [script]
      exact Bool.false_ne_true
    have idle : s.val ∉ p.module.resuming.map Prod.snd := by
      rw [seats.idle]
      exact List.not_mem_nil
    rw [ScriptModule.resume, slot]
    dsimp only
    rw [if_neg alive, if_neg idle, seats.idle]
  let changed : ScriptModule C := { entered.mutate s.val ctx' with resuming := [] }
  have kept : changed.scripts s.val = ⟨ctx', false⟩ := by
    show Function.update p.module.scripts s.val ⟨ctx', (p.module.scripts s.val).dead⟩ s.val = _
    rw [Function.update_self, script]
  have persisted : changed.flattenAndPersist s ctx' =
      .returns ({ changed with region := (changed.region.write s bytes).1 }, none) :=
    ScriptModule.flattenAndPersist_active flat active short
  have after : changed.persistAfter s true ctx' =
      .returns ({ changed with region := (changed.region.write s bytes).1 }, .returned true (some ctx')) := by
    rw [ScriptModule.persistAfter, persisted]
    rfl
  have left : (entered.mutate s.val ctx').leave .yields =
      .returns ({ changed with region := (changed.region.write s bytes).1 }, some (.returned true (some ctx'))) := by
    have last : (entered.mutate s.val ctx').scripts s.val = ⟨ctx', false⟩ := kept
    have run : (entered.mutate s.val ctx').leave .yields =
        changed.persistAfter s true ((entered.mutate s.val ctx').scripts s.val).ctx >>= fun r => pure (r.1, some r.2) := rfl
    rw [run, last, after]
    rfl
  let p' : ManagedProcess P C := ⟨b, { changed with region := (changed.region.write s bytes).1 },
    Function.update p.coroutines s.val (some ⟨co.body, place⟩)⟩
  have returned : p.resume s = .returns (p', .returned true (some ctx')) := by
    have known : (entered.scripts s.val).ctx = ctx := congrArg Script.ctx script
    have head : (entered.resuming.head?.bind fun call => (p.coroutines call.2).map (Prod.mk call.2)) =
        some (s.val, co) := by
      show (p.coroutines s.val).map (Prod.mk s.val) = _
      rw [running]
      rfl
    rw [ManagedProcess.resume, resumed, Exec.returns_bind]
    simp only [head, known, turned, BodyStop.ending]
    rw [left]
    rfl
  have cells : p'.module.region.blob = Function.update p.module.region.blob s bytes := blobs
  refine ⟨p', returned, rfl, ?_, ?_, seats.fit.write s _, ?_, rfl, fun t co' ctx₁ there => ?_⟩
  · rw [List.length_set]
    exact seats.room
  · rw [List.length_set]
    exact bits ▸ seats.filled
  · rw [List.length_set]
    exact seats.fresh
  · show p.module.slots t = some t.val ∧
      Function.update p.module.scripts s.val ⟨ctx', (p.module.scripts s.val).dead⟩ t = ⟨ctx₁, false⟩ ∧
      Function.update p.coroutines s.val (some ⟨co.body, place⟩) t = some co' ∧
      consoleTableFlatten ctx₁ = .returns (.ok (p'.module.region.blob t))
    rw [cells, script]
    by_cases own : t = s
    · subst own
      rw [List.getElem?_set_self inside] at there
      cases there
      exact ⟨slot, Function.update_self .., Function.update_self .., by rwa [Function.update_self]⟩
    · have apart : t.val ≠ s.val := fun eq => own (Fin.ext eq)
      rw [List.getElem?_set_ne apart.symm] at there
      rw [Function.update_of_ne apart, Function.update_of_ne apart, Function.update_of_ne own]
      exact seats.seated t co' ctx₁ there

/-- The resumes of a frame do to the seated scripts what is meant. -/
theorem Seats.resumeAll {done todo todo' : Cast P C} {s' : BindingState} (seats : p.Seats (done ++ todo))
    (turned : todo.turn p.bindings = some (s', todo')) (fits : ∀ e ∈ todo', ScriptCtx.Fits e.2) :
    ∃ p', p.resumeAll ((List.range' done.length todo.length).map Nat.cast) = .returns (p', .ok todo'.answers) ∧
      p'.bindings = s' ∧ p'.Seats (done ++ todo') := by
  induction todo generalizing p done todo' with
  | nil =>
    cases turned
    exact ⟨p, rfl, rfl, seats⟩
  | cons e todo ih =>
    obtain ⟨co, ctx⟩ := e
    rw [Cast.turn] at turned
    split at turned
    · rename_i b ctx' place ran
      obtain ⟨⟨t, later⟩, rest, is⟩ := Option.map_eq_some_iff.mp turned
      cases is
      obtain ⟨first, others⟩ := List.forall_mem_cons.mp fits
      have room := seats.room
      rw [List.length_append, List.length_cons] at room
      let s : Fin maxPersistentScripts := ⟨done.length, by omega⟩
      have here : (done ++ (co, ctx) :: todo)[s.val]? = some (co, ctx) := by
        show (done ++ (co, ctx) :: todo)[done.length]? = _
        rw [List.getElem?_append_right (Nat.le_refl _), Nat.sub_self, List.getElem?_cons_zero]
      obtain ⟨p₁, resumed, bindings, next⟩ := seats.resume here ran first
      have moved : (done ++ (co, ctx) :: todo).set s.val (⟨co.body, place⟩, ctx') =
          (done ++ [(⟨co.body, place⟩, ctx')]) ++ todo := by
        rw [List.set_append_right _ _ (Nat.le_refl _)]
        simp
      rw [moved] at next
      obtain ⟨p₂, all, last, final⟩ := ih next (bindings ▸ rest) others
      refine ⟨p₂, ?_, last, ?_⟩
      · rw [List.length_append, List.length_singleton] at all
        rw [List.length_cons, List.range'_succ, List.map_cons, ManagedProcess.resumeAll]
        have same : p.resume ((done.length : Nat) : Int) = _ := resumed
        rw [same, Exec.returns_bind]
        dsimp only
        rw [all, Exec.returns_bind]
        rfl
      · rwa [List.append_assoc] at final
    · cases turned

/-- The frame loop of a process with seated scripts shows what their run shows. -/
theorem Seats.frames {cart : ManagedCart P C} {host : BindingHost (LuaValue C) E} {n : Nat} {s' : BindingState}
    {cast' : Cast P C} {digests : List Digest} (seats : p.Seats cast)
    (runs : cast.Runs cart host n p.bindings s' cast' digests) :
    ∃ p', cart.frames host ((List.range' 0 cast.length).map Nat.cast) n p = .returns (p', digests, none) ∧
      p'.bindings = s' ∧ p'.Seats cast' := by
  generalize start : p.bindings = s at runs
  induction runs generalizing p with
  | done s cast => exact ⟨p, rfl, start, seats⟩
  | @frame n s s₁ s₂ s' cast cast₁ cast' digests turned fits added rest ih =>
    have whole : p.Seats ([] ++ cast) := seats
    obtain ⟨p₁, resumed, bindings, next⟩ := whole.resumeAll (start ▸ turned) fits
    obtain ⟨p₂, later, last, final⟩ := ih (p := { p₁ with bindings := (BindingHost.lCommitFrame s₂).1 })
      ⟨next.room, next.filled, next.fit, next.fresh, next.idle, next.seated⟩ rfl
    refine ⟨p₂, ?_, last, final⟩
    rw [Cast.turn_length turned] at later
    have all : p.resumeAll ((List.range' 0 cast.length).map Nat.cast) = .returns (p₁, .ok cast₁.answers) := resumed
    rw [ManagedCart.frames, ManagedCart.frame, all]
    simp only [Exec.returns_bind, bindings, added]
    rw [show (pure (({ p₁ with bindings := (BindingHost.lCommitFrame s₂).1 } : ManagedProcess P C),
      (.ok (BindingHost.lCommitFrame s₂).2 : Except (CartError E) Digest)) : Exec _) = .returns _ from rfl,
      Exec.returns_bind]
    dsimp only
    rw [later]
    rfl

end ManagedProcess
end Blyt
