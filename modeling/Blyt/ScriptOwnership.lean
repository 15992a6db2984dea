import Blyt.Lib.Run
import Blyt.ScriptModule

namespace Blyt
open PersistentScripts ScriptModule
variable {C : LuaConf}

/-- The module, and beside it the `ctx` each script had when it was created or last yielded. -/
structure WatchedModule (C : LuaConf) where
  module : ScriptModule C
  last : Nat → LuaTable (LuaField C)

namespace WatchedModule

/-- What an event that led to `after` adds to the notes. -/
def note (w : WatchedModule C) (after : ScriptModule C) : Event C → Nat → LuaTable (LuaField C)
  | .create _ => Function.update w.last w.module.fresh (after.scripts w.module.fresh).ctx
  | .leave .yields =>
    match w.module.resuming with
    | [] => w.last
    | (_, id) :: _ => Function.update w.last id (w.module.scripts id).ctx
  | _ => w.last

def Step (w : WatchedModule C) (e : Event C) (w' : WatchedModule C) : Prop :=
  w.module.step e = .returns w'.module ∧ w'.last = w.note w'.module e

/-- Each active slot has an occupant, and its blob is the flattening of the occupant's `ctx`
as of its creation or last yield. -/
def BlobsCurrent (w : WatchedModule C) : Prop :=
  ∀ s : Fin maxPersistentScripts, w.module.region.bitGet s = true → ∃ id, w.module.slots s = some id ∧
    consoleTableFlatten (w.last id) = .returns (.ok (w.module.region.blob s))

/-- A body that gives control back leaves alone a slot that is another script's by now. -/
def OccupantKept (w : WatchedModule C) (e : Event C) (w' : WatchedModule C) : Prop :=
  ∀ ending slot id outer other, e = .leave ending → w.module.resuming = (slot, id) :: outer →
    w.module.slots slot = some other → other ≠ id → w'.module.slots slot = some other ∧
      ∀ s : Fin maxPersistentScripts, slot = s → w'.module.region.bitGet s = w.module.region.bitGet s ∧
        w'.module.region.blob s = w.module.region.blob s

end WatchedModule

/-- What keeps a step of the module clear of the defect: a `create` that gets a slot also gets
a `ctx` and flattens it; a script resumed from its own body still flattens to its blob; and a
body that gives control back finds its slot free or its own, and then a `ctx` it yields
flattens. In another's slot it may only yield, and nothing but the bytes that are there. -/
def ScriptModule.Minds (m : ScriptModule C) : Event C → Prop
  | .create seed => ∀ s, FirstFit.firstFree m.region.bitGet = some s → ∃ ctx bytes,
      { m with region := m.region.bitSet s }.initialCtx s seed = .returns (.ok ctx) ∧
        consoleTableFlatten ctx = .returns (.ok bytes)
  | .resume slot => ∀ (s : Fin maxPersistentScripts) id, slot = s → m.slots s = some id →
      id ∈ m.resuming.map Prod.snd → ∀ bytes, consoleTableFlatten (m.scripts id).ctx = .returns (.ok bytes) →
        bytes = m.region.blob s
  | .leave ending => ∀ slot id outer holder, m.resuming = (slot, id) :: outer → m.slots slot = some holder →
      (holder = id ∧ (ending = .yields → ∃ bytes, consoleTableFlatten (m.scripts id).ctx = .returns (.ok bytes))) ∨
        (holder ≠ id ∧ ending = .yields ∧ ∀ (s : Fin maxPersistentScripts) bytes, slot = s →
          consoleTableFlatten (m.scripts id).ctx = .returns (.ok bytes) → bytes = m.region.blob s)
  | .destroy _ => True
  | .mutate _ _ => True

/-- Every script is known by one slot, its `home`: in the local table, where the slot is
active, and in the calls of `resume` that wait for its body. -/
structure Housed (home : Nat → Int) (m : ScriptModule C) : Prop where
  active : ∀ slot id, m.slots slot = some id → ∃ s : Fin maxPersistentScripts, slot = s ∧ m.region.bitGet s = true
  known : ∀ slot id, m.slots slot = some id → id < m.fresh ∧ home id = slot
  waiting : ∀ slot id, (slot, id) ∈ m.resuming → id < m.fresh ∧ home id = slot

namespace Housed
variable {home : Nat → Int} {m : ScriptModule C}

theorem region (housed : Housed home m) {q : PersistentScripts} (same : q.bitGet = m.region.bitGet) :
    Housed home { m with region := q } := by
  refine ⟨fun slot id holds => ?_, housed.known, housed.waiting⟩
  obtain ⟨s, at_, busy⟩ := housed.active slot id holds
  exact ⟨s, at_, (congrFun same s).trans busy⟩

theorem outer (housed : Housed home m) {call : Int × Nat} {outer : List (Int × Nat)} (stack : m.resuming = call :: outer) :
    Housed home { m with resuming := outer } := by
  refine ⟨housed.active, housed.known, fun slot id member => housed.waiting slot id ?_⟩
  rw [stack]
  exact List.mem_cons_of_mem _ member

theorem idle {last : Nat → LuaTable (LuaField C)} (current : WatchedModule.BlobsCurrent ⟨m, last⟩)
    {s : Fin maxPersistentScripts} (vacant : m.slots s = none) : m.region.bitGet s = false := by
  by_contra busy
  obtain ⟨id, holds, -⟩ := current s (by simpa using busy)
  rw [vacant] at holds
  cases holds

theorem persisted (housed : Housed home m) {last : Nat → LuaTable (LuaField C)} {s : Fin maxPersistentScripts}
    {id : Nat} {ctx : LuaTable (LuaField C)} {bytes : List UInt8} (holds : m.slots s = some id)
    (flat : consoleTableFlatten ctx = .returns (.ok bytes))
    (others : ∀ t, t ≠ s → m.region.bitGet t = true → ∃ id', m.slots t = some id' ∧
      consoleTableFlatten (last id') = .returns (.ok (m.region.blob t))) :
    Housed home { m with region := (m.region.write s bytes).1 } ∧
      WatchedModule.BlobsCurrent ⟨{ m with region := (m.region.write s bytes).1 }, Function.update last id ctx⟩ := by
  obtain ⟨t, same, busy⟩ := housed.active s id holds
  obtain rfl : s = t := by
    ext
    omega
  obtain ⟨-, -, -, -, -, -, fits⟩ := (show IsBlob C bytes from ⟨ctx, flat⟩).wire
  obtain ⟨-, bits, blobs⟩ := write_active busy fits
  refine ⟨housed.region bits, fun t busyNow => ?_⟩
  dsimp only
  rw [blobs]
  by_cases same : t = s
  · subst same
    exact ⟨id, holds, by rw [Function.update_self, Function.update_self]; exact flat⟩
  · have busyBefore : m.region.bitGet t = true := (congrFun bits t).symm.trans busyNow
    obtain ⟨id', holds', flat'⟩ := others t same busyBefore
    refine ⟨id', holds', ?_⟩
    have apart : id' ≠ id := by
      rintro rfl
      have first := (housed.known t id' holds').2
      rw [(housed.known s id' holds).2] at first
      exact same (Fin.ext (by omega))
    rw [Function.update_of_ne same, Function.update_of_ne apart]
    exact flat'

theorem release (housed : Housed home m) {last : Nat → LuaTable (LuaField C)}
    (current : WatchedModule.BlobsCurrent ⟨m, last⟩) (slot : Int) :
    Housed home (m.release slot) ∧ WatchedModule.BlobsCurrent ⟨m.release slot, last⟩ := by
  have elsewhere : ∀ slot' id, (m.release slot).slots slot' = some id → slot' ≠ slot ∧ m.slots slot' = some id := by
    intro slot' id holds
    change Function.update m.slots slot none slot' = some id at holds
    by_cases same : slot' = slot
    · rw [same, Function.update_self] at holds
      cases holds
    · rw [Function.update_of_ne same] at holds
      exact ⟨same, holds⟩
  -- what the reclaimed slot's bits and bytes were, the others keep
  have others : ∀ t : Fin maxPersistentScripts, (t : Int) ≠ slot →
      (m.region.free slot).bitGet t = m.region.bitGet t ∧ (m.region.free slot).blob t = m.region.blob t := by
    intro t apart
    rcases free_cases m.region slot with ⟨same, -⟩ | ⟨s, rfl, -, bits, blobs⟩
    · rw [same]
      exact ⟨rfl, rfl⟩
    · have ne : t ≠ s := fun eq => apart (by rw [eq])
      rw [bits, blobs, Function.update_of_ne ne, Function.update_of_ne ne]
      exact ⟨rfl, rfl⟩
  refine ⟨⟨fun slot' id holds => ?_, fun slot' id holds => ?_, housed.waiting⟩, fun t busyNow => ?_⟩
  · obtain ⟨apart, held⟩ := elsewhere slot' id holds
    obtain ⟨t, rfl, busy⟩ := housed.active slot' id held
    exact ⟨t, rfl, (others t apart).1.trans busy⟩
  · exact housed.known slot' id (elsewhere slot' id holds).2
  · change (m.region.free slot).bitGet t = true at busyNow
    have apart : (t : Int) ≠ slot := by
      rintro rfl
      rcases free_cases m.region t with ⟨same, idle⟩ | ⟨s, at_, -, bits, -⟩
      · rw [same, idle t rfl] at busyNow
        cases busyNow
      · obtain rfl : t = s := by
          ext
          omega
        rw [bits, Function.update_self] at busyNow
        cases busyNow
    obtain ⟨id, holds, flat⟩ := current t ((others t apart).1.symm.trans busyNow)
    refine ⟨id, (Function.update_of_ne apart ..).trans holds, ?_⟩
    show consoleTableFlatten (last id) = .returns (.ok ((m.region.free slot).blob t))
    rw [(others t apart).2]
    exact flat

theorem enter (housed : Housed home m) (s : Fin maxPersistentScripts) (ctx : LuaTable (LuaField C)) :
    Housed (Function.update home m.fresh s) ({ m with region := m.region.bitSet s }.enter s ctx) := by
  have keeps : ∀ id, id < m.fresh → Function.update home m.fresh (s : Int) id = home id := fun id older =>
    Function.update_of_ne (Nat.ne_of_lt older) ..
  have slots : ∀ (slot : Int) id, ({ m with region := m.region.bitSet s }.enter s ctx).slots slot = some id →
      (slot = s ∧ id = m.fresh) ∨ (slot ≠ s ∧ m.slots slot = some id) := by
    intro slot id holds
    change Function.update m.slots (s : Int) (some m.fresh) slot = some id at holds
    by_cases same : slot = (s : Int)
    · rw [same, Function.update_self, Option.some.injEq] at holds
      exact Or.inl ⟨same, holds.symm⟩
    · rw [Function.update_of_ne same] at holds
      exact Or.inr ⟨same, holds⟩
  have bits : ∀ t, m.region.bitGet t = true ∨ t = s → (m.region.bitSet s).bitGet t = true := by
    intro t busy
    rw [bitGet_bitSet]
    by_cases same : t = s
    · rw [same, Function.update_self]
    · rw [Function.update_of_ne same]
      exact busy.resolve_right same
  refine ⟨fun slot id holds => ?_, fun slot id holds => ?_, fun slot id member => ?_⟩
  · rcases slots slot id holds with ⟨rfl, -⟩ | ⟨-, older⟩
    · exact ⟨s, rfl, bits s (Or.inr rfl)⟩
    · obtain ⟨t, at_, busy⟩ := housed.active slot id older
      exact ⟨t, at_, bits t (Or.inl busy)⟩
  · rcases slots slot id holds with ⟨rfl, rfl⟩ | ⟨-, older⟩
    · exact ⟨Nat.lt_succ_self _, Function.update_self ..⟩
    · obtain ⟨before, home⟩ := housed.known slot id older
      exact ⟨Nat.lt_succ_of_lt before, (keeps id before).trans home⟩
  · obtain ⟨before, home⟩ := housed.waiting slot id member
    exact ⟨Nat.lt_succ_of_lt before, (keeps id before).trans home⟩

end Housed

/-- The invariant: some `home` for the scripts, and current blobs. -/
def Owned (w : WatchedModule C) : Prop := ∃ home, Housed home w.module ∧ w.BlobsCurrent

section
variable {m m' : ScriptModule C} {last : Nat → LuaTable (LuaField C)}

theorem create_owned (owned : Owned ⟨m, last⟩) {seed : LuaTable (LuaField C)} {result : Except ScriptError Int}
    (run : m.create seed = .returns (m', result)) (minds : m.Minds (.create seed)) :
    Owned ⟨m', Function.update last m.fresh (m'.scripts m.fresh).ctx⟩ := by
  obtain ⟨home, housed, current⟩ := owned
  rcases create_cases run with ⟨-, rfl, -⟩ | ⟨s, first, outcome⟩
  · refine ⟨home, housed, fun s busy => ?_⟩
    obtain ⟨id, holds, flat⟩ := current s busy
    have older := (housed.known s id holds).1
    refine ⟨id, holds, ?_⟩
    dsimp only
    rw [Function.update_of_ne (Nat.ne_of_lt older)]
    exact flat
  · obtain ⟨ctx, bytes, initial, flat⟩ := minds s first
    rcases outcome with ⟨e, failed, -⟩ | ⟨ctx', failed, initial', persist, -⟩
    · rw [initial] at failed
      cases failed
    rw [initial] at initial'
    cases initial'
    have entered := housed.enter s ctx
    rcases flattenAndPersist_cases persist with ⟨bytes', flat', rfl, -⟩ | ⟨rc, flat', -⟩
    swap
    · rw [flat] at flat'
      cases flat'
    rw [flat] at flat'
    cases flat'
    have newest : ({ m with region := m.region.bitSet s }.enter s ctx).slots s = some m.fresh :=
      Function.update_self ..
    have ctxIs : (({ m with region := m.region.bitSet s }.enter s ctx).scripts m.fresh).ctx = ctx := by
      simp only [ScriptModule.enter, Function.update_self]
    dsimp only at entered ⊢
    rw [ctxIs]
    refine ⟨_, entered.persisted newest flat fun t apart busy => ?_⟩
    change (m.region.bitSet s).bitGet t = true at busy
    rw [bitGet_bitSet, Function.update_of_ne apart] at busy
    obtain ⟨id, holds, flat⟩ := current t busy
    have other : (t : Int) ≠ (s : Int) := fun eq => apart (Fin.ext (by omega))
    exact ⟨id, (Function.update_of_ne other ..).trans holds, flat⟩

theorem resume_owned (owned : Owned ⟨m, last⟩) {slot : Int} {result : Option (Resumed C)}
    (run : m.resume slot = .returns (m', result)) (minds : m.Minds (.resume slot)) : Owned ⟨m', last⟩ := by
  obtain ⟨home, housed, current⟩ := owned
  rcases resume_cases run with ⟨-, rfl⟩ | ⟨id, holds, ⟨-, rfl⟩ | ⟨-, running, failed, persist⟩ | ⟨-, -, rfl⟩⟩
  · exact ⟨home, housed, current⟩
  · exact ⟨home, housed.release current slot⟩
  · rcases flattenAndPersist_cases persist with ⟨bytes, flat, rfl, -⟩ | ⟨rc, -, rfl, -⟩
    · obtain ⟨s, rfl, busy⟩ := housed.active slot id holds
      have same := minds s id rfl holds running bytes flat
      obtain ⟨id', holds', flat'⟩ := current s busy
      rw [holds, Option.some.injEq] at holds'
      subst holds'
      rw [← same] at flat'
      have written := housed.persisted holds flat' fun t _ busy => current t busy
      dsimp only at written
      rw [Function.update_eq_self] at written
      exact ⟨home, written⟩
    · exact ⟨home, housed, current⟩
  · refine ⟨home, ⟨housed.active, housed.known, fun slot' id' member => ?_⟩, current⟩
    rcases List.mem_cons.mp member with same | waiting
    · cases same
      exact housed.known slot id holds
    · exact housed.waiting slot' id' waiting

/-- The notes of a script that is in no slot but its own do not matter elsewhere. -/
theorem Housed.flattens_elsewhere {home : Nat → Int} (housed : Housed home m) (current : WatchedModule.BlobsCurrent ⟨m, last⟩)
    {slot : Int} {id : Nat} (homed : home id = slot) (ctx : LuaTable (LuaField C)) {t : Fin maxPersistentScripts}
    (away : m.slots slot ≠ some id ∨ (t : Int) ≠ slot) (busy : m.region.bitGet t = true) :
    ∃ id', m.slots t = some id' ∧
      consoleTableFlatten (Function.update last id ctx id') = .returns (.ok (m.region.blob t)) := by
  obtain ⟨id', holds, flat⟩ := current t busy
  refine ⟨id', holds, ?_⟩
  have apart : id' ≠ id := by
    rintro rfl
    have here : (t : Int) = slot := (housed.known t id' holds).2.symm.trans homed
    rw [← here] at away
    exact away.elim (fun ne => ne holds) fun ne => ne rfl
  rw [Function.update_of_ne apart]
  exact flat

/-- A body yields: its slot is nobody's, its own, or another's that holds the very bytes. -/
theorem yields_owned {home : Nat → Int} {slot : Int} {id : Nat} {outer : List (Int × Nat)} {failed : Option ScriptError}
    (housed : Housed home m) (current : WatchedModule.BlobsCurrent ⟨m, last⟩) (stack : m.resuming = (slot, id) :: outer)
    (persist : { m with resuming := outer }.flattenAndPersist slot (m.scripts id).ctx = .returns (m', failed))
    (minds : m.Minds (.leave .yields)) : Owned ⟨m', Function.update last id (m.scripts id).ctx⟩ := by
  have back := housed.outer stack
  have homed : home id = slot := (housed.waiting slot id (by rw [stack]; exact List.mem_cons_self)).2
  rcases flattenAndPersist_cases persist with ⟨bytes, flat, rfl, -⟩ | ⟨rc, failed, rfl, -⟩
  · cases occupant : m.slots slot with
    | none =>
      -- nobody's slot is not written to
      have refused : (m.region.write slot bytes).1 = m.region := by
        rcases write_cases m.region slot bytes with refused | ⟨s, range, busy, -⟩
        · rw [refused]
        · rw [slotInRange_eq_some.mp range] at occupant
          rw [Housed.idle current occupant] at busy
          cases busy
      rw [refused]
      exact ⟨home, back, fun t busy =>
        housed.flattens_elsewhere current homed _ (Or.inl (by rw [occupant]; exact nofun)) busy⟩
    | some holder =>
      obtain ⟨s, rfl, busy⟩ := housed.active slot holder occupant
      rcases minds _ _ _ _ stack occupant with ⟨rfl, -⟩ | ⟨other, -, same⟩
      · exact ⟨home, back.persisted occupant flat fun t apart busy => current t busy⟩
      · have blob := same s bytes rfl flat
        obtain ⟨id', holds, flat'⟩ := current s busy
        rw [occupant, Option.some.injEq] at holds
        subst holds
        rw [← blob] at flat'
        have notOwn : m.slots s ≠ some id := by
          rw [occupant]
          exact fun eq => other (Option.some.inj eq)
        have written := back.persisted occupant flat' fun t _ busy =>
          housed.flattens_elsewhere current homed (m.scripts id).ctx (Or.inl notOwn) busy
        rw [Function.update_comm (Ne.symm other), Function.update_eq_self] at written
        exact ⟨home, written⟩
  · cases occupant : m.slots slot with
    | none =>
      exact ⟨home, back, fun t busy =>
        housed.flattens_elsewhere current homed _ (Or.inl (by rw [occupant]; exact nofun)) busy⟩
    | some holder =>
      rcases minds _ _ _ _ stack occupant with ⟨rfl, flattens⟩ | ⟨other, -, -⟩
      · obtain ⟨bytes, flat⟩ := flattens rfl
        rw [failed] at flat
        cases flat
      · refine ⟨home, back, fun t busy => housed.flattens_elsewhere current homed _ (Or.inl ?_) busy⟩
        rw [occupant]
        exact fun eq => other (Option.some.inj eq)

/-- What a body leaves behind when it gives control back under the condition. -/
theorem leave_owned (owned : Owned ⟨m, last⟩) {ending : BodyEnd} {result : Option (Resumed C)}
    (run : m.leave ending = .returns (m', result)) (minds : m.Minds (.leave ending)) :
    Owned ⟨m', WatchedModule.note ⟨m, last⟩ m' (.leave ending)⟩ := by
  obtain ⟨home, housed, current⟩ := owned
  rcases leave_cases run with ⟨empty, rfl⟩ | ⟨slot, id, outer, stack, ⟨rfl, failed, persist⟩ | ⟨finished, rfl⟩⟩
  · have same : WatchedModule.note ⟨m', last⟩ m' (.leave ending) = last := by
      cases ending <;> simp only [WatchedModule.note, empty]
    rw [same]
    exact ⟨home, housed, current⟩
  · have noted : WatchedModule.note ⟨m, last⟩ m' (.leave .yields) = Function.update last id (m.scripts id).ctx := by
      simp only [WatchedModule.note, stack]
    rw [noted]
    exact yields_owned housed current stack persist minds
  · have back := housed.outer stack
    have noted : WatchedModule.note ⟨m, last⟩ ({ m with
        resuming := outer
        scripts := Function.update m.scripts id ⟨(m.scripts id).ctx, true⟩ }.release slot) (.leave ending) = last := by
      cases ending with
      | yields => exact absurd rfl finished
      | returns => rfl
      | raises => rfl
    rw [noted]
    have ended : Housed home { m with
        resuming := outer
        scripts := Function.update m.scripts id ⟨(m.scripts id).ctx, true⟩ } := ⟨back.active, back.known, back.waiting⟩
    exact ⟨home, ended.release current slot⟩

/-- A body that gives control back under the condition leaves another's slot alone. -/
theorem leave_keeps_occupant {ending : BodyEnd} {result : Option (Resumed C)} (owned : Owned ⟨m, last⟩)
    (run : m.leave ending = .returns (m', result)) (minds : m.Minds (.leave ending)) {slot : Int} {id other : Nat}
    {outer : List (Int × Nat)} (stack : m.resuming = (slot, id) :: outer) (holds : m.slots slot = some other)
    (apart : other ≠ id) : m'.slots slot = some other ∧ ∀ s : Fin maxPersistentScripts, slot = s →
      m'.region.bitGet s = m.region.bitGet s ∧ m'.region.blob s = m.region.blob s := by
  obtain ⟨home, housed, -⟩ := owned
  rcases minds slot id outer other stack holds with ⟨same, -⟩ | ⟨-, yields, same⟩
  · exact absurd same apart
  subst yields
  rcases leave_cases run with ⟨empty, -⟩ | ⟨slot', id', outer', stack', outcome⟩
  · rw [stack] at empty
    cases empty
  rw [stack] at stack'
  cases stack'
  rcases outcome with ⟨-, failed, persist⟩ | ⟨finished, -⟩
  swap
  · exact absurd rfl finished
  rcases flattenAndPersist_cases persist with ⟨bytes, flat, rfl, -⟩ | ⟨rc, -, rfl, -⟩
  swap
  · exact ⟨holds, fun s _ => ⟨rfl, rfl⟩⟩
  refine ⟨holds, fun s here => ?_⟩
  subst here
  obtain ⟨t, at_, busy⟩ := housed.active s other holds
  obtain rfl : s = t := by
    ext
    omega
  obtain ⟨-, -, -, -, -, -, fits⟩ := (show IsBlob C bytes from ⟨_, flat⟩).wire
  obtain ⟨-, bits, blobs⟩ := write_active busy fits
  refine ⟨congrFun bits s, ?_⟩
  rw [← same s bytes rfl flat] at *
  exact (congrFun blobs s).trans (Function.update_self ..)

theorem destroy_owned (owned : Owned ⟨m, last⟩) (slot : Int) : Owned ⟨m.destroy slot, last⟩ := by
  obtain ⟨home, housed, current⟩ := owned
  rcases m.destroy_cases slot with ⟨-, same⟩ | ⟨id, -, same⟩
  · rw [same]
    exact ⟨home, housed, current⟩
  · rw [same]
    exact ⟨home, housed.release current slot⟩

end

/-- A step that meets the condition keeps the slots with their scripts. -/
theorem WatchedModule.Step.owned {w w' : WatchedModule C} {e : Event C} (owned : Owned w) (step : w.Step e w')
    (minds : w.module.Minds e) : Owned w' ∧ w.OccupantKept e w' := by
  obtain ⟨m, last⟩ := w
  obtain ⟨m', last'⟩ := w'
  obtain ⟨run, noted⟩ := step
  dsimp only at run noted minds
  subst noted
  cases e with
  | create seed =>
    obtain ⟨⟨after, result⟩, call, rfl⟩ := Exec.map_eq_returns.mp run
    exact ⟨create_owned owned call minds, nofun⟩
  | resume slot =>
    obtain ⟨⟨after, result⟩, call, rfl⟩ := Exec.map_eq_returns.mp run
    exact ⟨resume_owned owned call minds, nofun⟩
  | leave ending =>
    obtain ⟨⟨after, result⟩, call, rfl⟩ := Exec.map_eq_returns.mp run
    refine ⟨leave_owned owned call minds, fun ending' slot id outer other same stack holds apart => ?_⟩
    exact leave_keeps_occupant owned call minds stack holds apart
  | destroy slot =>
    cases run
    exact ⟨destroy_owned owned slot, nofun⟩
  | mutate id ctx =>
    cases run
    obtain ⟨home, housed, current⟩ := owned
    exact ⟨⟨home, ⟨housed.active, housed.known, housed.waiting⟩, current⟩, nofun⟩

/-- The module freshly loaded over an emptied slot table. -/
def WatchedModule.begin (p : PersistentScripts) (loadResume : Bool) : WatchedModule C :=
  ⟨.start p.unmarkAll loadResume, fun _ => .empty⟩

/-- A step leaves every active slot with its occupant's blob, and what it gives back control
from leaves alone the slots of others. -/
def WatchedModule.Sound (w : WatchedModule C) (e : Event C) (w' : WatchedModule C) : Prop :=
  w'.BlobsCurrent ∧ w.OccupantKept e w'

/-- In every run whose steps all meet the condition, re-entrant or not, each active slot holds
what its occupant last left, and no script touches the slot of another. -/
theorem slots_owned {p : PersistentScripts} {loadResume : Bool} {events : List (Event C)}
    (minds : Run.Throughout WatchedModule.Step (fun w e _ => w.module.Minds e) (.begin p loadResume) events) :
    Run.Throughout WatchedModule.Step WatchedModule.Sound (.begin p loadResume : WatchedModule C) events := by
  refine minds.of_invariant Owned (fun w e w' owned step minds => ?_) ?_
  · obtain ⟨owned', kept⟩ := step.owned owned minds
    have current : w'.BlobsCurrent := by
      obtain ⟨_, -, current⟩ := owned'
      exact current
    exact ⟨owned', current, kept⟩
  · refine ⟨fun _ => 0, ⟨nofun, nofun, nofun⟩, fun s busy => ?_⟩
    change p.unmarkAll.bitGet s = true at busy
    rw [bitGet_unmarkAll] at busy
    cases busy

/-- A run of the module takes the watched one along. -/
theorem WatchedModule.follow {P : WatchedModule C → Event C → WatchedModule C → Prop} {w : WatchedModule C}
    (events : List (Event C)) {rest : List (Event C)} {m : ScriptModule C} (ran : Exec.run ScriptModule.step w.module events = .returns m)
    (along : Run.Throughout WatchedModule.Step P w (events ++ rest)) :
    ∃ last, Run.Throughout WatchedModule.Step P ⟨m, last⟩ rest := by
  induction events generalizing w with
  | nil =>
    cases ran
    exact ⟨w.last, along⟩
  | cons e events ih =>
    obtain ⟨m', stepped, later⟩ := Exec.bind_eq_returns.mp ran
    have next : w.Step e ⟨m', w.note m' e⟩ := ⟨stepped, rfl⟩
    exact ih later (along _ next).2

/-- A body that destroys its own script and returns, with the slot still free. -/
theorem slots_owned_self_destroyed :
    Run.Throughout WatchedModule.Step WatchedModule.Sound (.begin .reset false : WatchedModule luaConf64)
      [.create .empty, .resume 0, .destroy 0, .leave .returns] := by
  have created : (fun m : ScriptModule luaConf64 => m.resuming) <$>
      Exec.run ScriptModule.step (start .reset false) [.create .empty] = .returns [] := by decide +kernel
  have destroyed : (fun m : ScriptModule luaConf64 => (m.resuming, m.slots 0)) <$>
      Exec.run ScriptModule.step (start .reset false) [.create .empty, .resume 0, .destroy 0] =
        .returns ([(0, 0)], none) := by decide +kernel
  refine slots_owned fun w₁ one => ⟨fun s _ => ⟨.empty, [0, 0, 0, 0], rfl, rfl⟩, fun w₂ two => ⟨?_, fun w₃ three =>
    ⟨trivial, fun w₄ four => ⟨?_, trivial⟩⟩⟩⟩
  · intro s id _ _ running
    have ran : Exec.run ScriptModule.step (start .reset false) [.create .empty] = .returns w₁.module := by
      rw [Exec.run]
      exact Exec.bind_eq_returns.mpr ⟨_, one.1, rfl⟩
    rw [ran] at created
    have idle : w₁.module.resuming = [] := Exec.returns.inj created
    rw [idle] at running
    cases running
  · intro slot id outer holder stack holds
    have ran : Exec.run ScriptModule.step (start .reset false) [.create .empty, .resume 0, .destroy 0] =
        .returns w₃.module :=
      Exec.bind_eq_returns.mpr ⟨_, one.1, Exec.bind_eq_returns.mpr ⟨_, two.1,
        Exec.bind_eq_returns.mpr ⟨_, three.1, rfl⟩⟩⟩
    rw [ran] at destroyed
    obtain ⟨waiting, vacant⟩ := Prod.mk.inj (Exec.returns.inj destroyed)
    rw [waiting] at stack
    cases stack
    rw [vacant] at holds
    cases holds

/-- A body destroys its own script, creates another, which gets the slot, and returns: the
return reclaims the slot of the other. -/
theorem slots_not_owned :
    ¬Run.Throughout WatchedModule.Step WatchedModule.Sound (.begin .reset false : WatchedModule luaConf64)
      [.create .empty, .resume 0, .destroy 0, .create .empty, .leave .returns] := by
  intro along
  have before : (fun m : ScriptModule luaConf64 => (m.resuming, m.slots 0)) <$>
      Exec.run ScriptModule.step (WatchedModule.begin .reset false).module
        [.create .empty, .resume 0, .destroy 0, .create .empty] = .returns ([(0, 0)], some 1) := by decide +kernel
  have after : (fun m : ScriptModule luaConf64 => m.slots 0) <$>
      Exec.run ScriptModule.step (WatchedModule.begin .reset false).module
        [.create .empty, .resume 0, .destroy 0, .create .empty, .leave .returns] = .returns none := by decide +kernel
  obtain ⟨m, ran, state⟩ := Exec.map_eq_returns.mp before
  obtain ⟨waiting, occupant⟩ := Prod.mk.inj state
  obtain ⟨last, rest⟩ := WatchedModule.follow [.create .empty, .resume 0, .destroy 0, .create .empty] ran along
  obtain ⟨m', ran', vacant⟩ := Exec.map_eq_returns.mp after
  have whole := Exec.run_append ScriptModule.step (WatchedModule.begin .reset false : WatchedModule luaConf64).module
    [.create .empty, .resume 0, .destroy 0, .create .empty] [.leave .returns]
  rw [ran, Exec.returns_bind] at whole
  obtain ⟨m'', stepped, done⟩ := Exec.bind_eq_returns.mp (whole.symm.trans ran')
  cases done
  obtain ⟨-, kept⟩ := (rest ⟨m', last⟩ ⟨stepped, rfl⟩).1
  have still := (kept .returns 0 0 [] 1 rfl waiting occupant (by decide)).1
  rw [show m'.slots 0 = none from vacant] at still
  cases still

end Blyt
