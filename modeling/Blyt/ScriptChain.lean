import Blyt.Lib.Run
import Blyt.ScriptCreate

namespace Blyt
variable {C : LuaConf}
open FirstFit Packed PersistentScripts ScriptModule

/-- A run in a chain of runs. `loaded` is the slot table of the save it started from; `before`
are the slots that the creates of the run which wrote that save took, `taken` those that the
creates of this run took, and `used` those whose bytes a script of this run started from. -/
structure ScriptChain (C : LuaConf) where
  module : ScriptModule C
  loaded : PersistentScripts
  before : List (Fin maxPersistentScripts)
  taken : List (Fin maxPersistentScripts)
  used : List (Fin maxPersistentScripts)

/-- What the cart does, or the end of its run: a save, and a load of it in a new run. -/
inductive ChainEvent (C : LuaConf) where
  | call (e : Event C)
  | reload

namespace ScriptChain

/-- The first run, over the slot table the runtime starts with. -/
def boot : ScriptChain C := ⟨.start .reset false, .reset, [], [], []⟩

/-- What is known of the run after a step of the module. -/
def note (c : ScriptChain C) (e : Event C) (m : ScriptModule C) : ScriptChain C :=
  match c.module.slotFor e with
  | none => { c with module := m }
  | some s => { c with
      module := m
      taken := s :: c.taken
      used := if c.module.startBytes s = [] then c.used else s :: c.used }

/-- The run that loads `saved`. -/
def resumed (c : ScriptChain C) (saved : PersistentScripts) : ScriptChain C where
  module := .start saved.unmarkAll true
  loaded := saved
  before := c.taken
  taken := []
  used := []

/-- One step of the chain. Between two runs are `save_state_save`, `save_state_load` of what it
wrote, and `persistent_scripts_unmark_all`. -/
inductive Step {ι : Type} [DecidableEq ι] (R : Registry ι) (g : ι) :
    ScriptChain C → ChainEvent C → ScriptChain C → Prop
  | call {c : ScriptChain C} {e : Event C} {m : ScriptModule C} :
      c.module.step e = .returns m → Step R g c (.call e) (c.note e m)
  | reload {c : ScriptChain C} {rt other loaded : Runtime R} {saved : SaveResult R} {buf : ByteSpan} {cap frame : UInt32} :
      rt.store g = persistentScripts.encode c.module.region → saveStateSave rt cap frame = .returns saved →
      saved.ret ≠ 0 → buf.bytes = saved.written → saveStateLoad other buf = .returns (true, loaded) →
      Step R g c .reload (c.resumed (persistentScripts.decode (loaded.store g)))

/-- A script that a step makes starts with its seed, or with what the loaded save held for an
active script whose bytes no other script of the run got. -/
def Genuine (c : ScriptChain C) (e : ChainEvent C) (c' : ScriptChain C) : Prop :=
  ∀ seed, e = .call (.create seed) → c'.module.fresh ≠ c.module.fresh →
    (c'.used = c.used ∧ (c'.module.scripts c.module.fresh).ctx = seed) ∨
      ∃ s, c.loaded.bitGet s = true ∧ s ∉ c.used ∧ c'.used = s :: c.used ∧
        consoleTableUnflatten C (c.loaded.blob s) = .returns (.ok (c'.module.scripts c.module.fresh).ctx)

/-- A free slot that holds bytes was taken by the run that wrote the save. -/
def Backed (c : ScriptChain C) (e : ChainEvent C) (_ : ScriptChain C) : Prop :=
  ∀ seed s, e = .call (.create seed) → firstFree c.module.region.bitGet = some s → c.module.startBytes s ≠ [] →
    s ∈ c.before

/-- The slots that no create of the run took are free and as they were loaded; of the others,
the free ones are empty. -/
structure Tracks (loaded : PersistentScripts) (taken : List (Fin maxPersistentScripts)) (p : PersistentScripts) : Prop where
  untaken : ∀ s ∉ taken, p.bitGet s = false ∧ p.blob s = loaded.blob s
  freed : ∀ s ∈ taken, p.bitGet s = false → p.blob s = []

structure Sound (c : ScriptChain C) : Prop where
  held : SlotsHoldBlobs C c.module.region
  tracks : Tracks c.loaded c.taken c.module.region
  kept : ∀ s ∈ c.before, c.loaded.bitGet s = false → c.loaded.blob s = []
  others : ∀ s ∉ c.before, c.loaded.bitGet s = false
  used : c.used ⊆ c.taken

namespace Tracks
variable {loaded p : PersistentScripts} {taken : List (Fin maxPersistentScripts)} {s : Fin maxPersistentScripts}

theorem busy (tracks : Tracks loaded taken p) (active : p.bitGet s = true) : s ∈ taken := by
  by_contra untaken
  rw [(tracks.untaken s untaken).1] at active
  cases active

theorem unmarked (loaded : PersistentScripts) : Tracks loaded [] loaded.unmarkAll :=
  ⟨fun s _ => ⟨by rw [bitGet_unmarkAll], rfl⟩, nofun⟩

theorem bitSet (tracks : Tracks loaded taken p) (s : Fin maxPersistentScripts) : Tracks loaded (s :: taken) (p.bitSet s) := by
  refine ⟨fun t untaken => ?_, fun t member idle => ?_⟩
  · rw [List.mem_cons, not_or] at untaken
    rw [bitGet_bitSet, Function.update_of_ne untaken.1]
    exact tracks.untaken t untaken.2
  · rw [bitGet_bitSet] at idle
    have apart : t ≠ s := by
      rintro rfl
      rw [Function.update_self] at idle
      cases idle
    rw [Function.update_of_ne apart] at idle
    exact tracks.freed t ((List.mem_cons.mp member).resolve_left apart) idle

theorem free (tracks : Tracks loaded taken p) (slot : Int) : Tracks loaded taken (p.free slot) := by
  rcases free_cases p slot with ⟨same, -⟩ | ⟨s, -, active, bits, blobs⟩
  · rw [same]
    exact tracks
  have member := tracks.busy active
  refine ⟨fun t untaken => ?_, fun t taken idle => ?_⟩
  · have apart : t ≠ s := fun same => untaken (same ▸ member)
    rw [bits, blobs, Function.update_of_ne apart, Function.update_of_ne apart]
    exact tracks.untaken t untaken
  · rw [blobs]
    by_cases same : t = s
    · rw [same, Function.update_self]
    · rw [bits, Function.update_of_ne same] at idle
      rw [Function.update_of_ne same]
      exact tracks.freed t taken idle

theorem write (tracks : Tracks loaded taken p) (slot : Int) {bytes : List UInt8}
    (fits : bytes.length ≤ persistentScriptSlotBytes) : Tracks loaded taken (p.write slot bytes).1 := by
  rcases write_cases p slot bytes with refused | ⟨s, -, active, -, bits, blobs⟩
  · rw [refused]
    exact tracks
  have blobs := blobs fits
  have member := tracks.busy active
  refine ⟨fun t untaken => ?_, fun t taken idle => ?_⟩
  · have apart : t ≠ s := fun same => untaken (same ▸ member)
    rw [bits, blobs, Function.update_of_ne apart]
    exact tracks.untaken t untaken
  · rw [bits] at idle
    have apart : t ≠ s := by
      rintro rfl
      rw [active] at idle
      cases idle
    rw [blobs, Function.update_of_ne apart]
    exact tracks.freed t taken idle

end Tracks
/-- A call takes the slot that the chain notes. -/
theorem Sound.call {c : ScriptChain C} (sound : c.Sound) {e : Event C} {m : ScriptModule C}
    (stepped : c.module.step e = .returns m) : (c.note e m).Sound := by
  have held := sound.held.step stepped
  have fits : ∀ {bytes}, IsBlob C bytes → bytes.length ≤ persistentScriptSlotBytes := by
    intro bytes good
    obtain ⟨-, -, -, -, -, -, fits⟩ := good.wire
    exact fits
  rcases step_region stepped with ⟨s, takes, region⟩ | ⟨takes, region⟩
  · have noted : c.note e m = { c with
        module := m
        taken := s :: c.taken
        used := if c.module.startBytes s = [] then c.used else s :: c.used } := by rw [note, takes]
    rw [noted]
    refine ⟨held, ?_, sound.kept, sound.others, ?_⟩
    · show Tracks c.loaded (s :: c.taken) m.region
      rcases region with same | ⟨bytes, good, same⟩
      · rw [same]
        exact sound.tracks.bitSet s
      · rw [same]
        exact (sound.tracks.bitSet s).write s (fits good)
    · show (if c.module.startBytes s = [] then c.used else s :: c.used) ⊆ s :: c.taken
      split
      · exact fun t member => List.mem_cons_of_mem s (sound.used member)
      · exact List.cons_subset_cons s sound.used
  · have noted : c.note e m = { c with module := m } := by rw [note, takes]
    rw [noted]
    refine ⟨held, ?_, sound.kept, sound.others, sound.used⟩
    show Tracks c.loaded c.taken m.region
    rcases region with same | ⟨slot, same⟩ | ⟨slot, bytes, good, same⟩
    · rw [same]
      exact sound.tracks
    · rw [same]
      exact sound.tracks.free slot
    · rw [same]
      exact sound.tracks.write slot (fits good)

/-- The next run starts from the slots that this one leaves. -/
theorem Sound.resumed {c : ScriptChain C} (sound : c.Sound) : (c.resumed c.module.region).Sound where
  held := ⟨sound.held.fit, sound.held.blobs⟩
  tracks := .unmarked _
  kept := sound.tracks.freed
  others s untaken := (sound.tracks.untaken s untaken).1
  used := List.Subset.refl _

theorem boot_sound : (boot : ScriptChain C).Sound where
  held := .reset
  tracks := ⟨fun s _ => ⟨bitGet_reset s, rfl⟩, nofun⟩
  kept := nofun
  others s _ := bitGet_reset s
  used := List.Subset.refl _

section
variable {ι : Type} [DecidableEq ι] {R : Registry ι} {g : ι}

/-- A reload hands on the slot table of the run. -/
theorem Step.reloaded (tracked : regionPersistentScripts g ∈ R.regions) {c c' : ScriptChain C}
    (step : Step R g c .reload c') : c' = c.resumed c.module.region := by
  cases step with
  | reload object save written bytes load =>
    have same := persistentScripts_loaded tracked save written bytes load
    rw [object, Codec.decode_encode] at same
    rw [same]

theorem Step.sound (tracked : regionPersistentScripts g ∈ R.regions) {c c' : ScriptChain C} {e : ChainEvent C}
    (sound : c.Sound) (step : Step R g c e c') : c'.Sound := by
  cases e with
  | call e =>
    cases step with
    | call stepped => exact sound.call stepped
  | reload =>
    rw [step.reloaded tracked]
    exact sound.resumed

end

/-- A `create` that has a `ctx` to start with makes a script of it. -/
theorem create_makes {m m' : ScriptModule C} {seed ctx : LuaTable (LuaField C)} {result : Except ScriptError Int}
    {s : Fin maxPersistentScripts} (run : m.create seed = .returns (m', result))
    (first : firstFree m.region.bitGet = some s)
    (initial : { m with region := m.region.bitSet s }.initialCtx s seed = .returns (.ok ctx)) :
    m'.fresh = m.fresh + 1 ∧ (m'.scripts m.fresh).ctx = ctx := by
  rcases create_cases run with ⟨full, -⟩ | ⟨t, found, outcome⟩
  · rw [first] at full
    cases full
  rw [first, Option.some.injEq] at found
  subst found
  rcases outcome with ⟨e, failed, -⟩ | ⟨ctx', failed, same, persisted, -⟩
  · rw [initial] at failed
    cases failed
  rw [initial] at same
  cases same
  have entered : (({ m with region := m.region.bitSet s }.enter s ctx).scripts m.fresh).ctx = ctx := by
    simp [enter]
  rcases flattenAndPersist_cases persisted with ⟨bytes, -, rfl, -⟩ | ⟨rc, -, rfl, -⟩
  · exact ⟨rfl, entered⟩
  · exact ⟨rfl, entered⟩

/-- On sound slots a free slot that holds bytes holds those of the save, and they unflatten. -/
theorem Sound.startBytes {c : ScriptChain C} (sound : c.Sound) {s : Fin maxPersistentScripts}
    (first : firstFree c.module.region.bitGet = some s) (some : c.module.startBytes s ≠ []) :
    s ∉ c.taken ∧ c.module.startBytes s = c.loaded.blob s ∧ IsBlob C (c.loaded.blob s) := by
  have free := (firstFree_eq_some first).1
  have whole : c.module.startBytes s = c.module.region.blob s := by
    unfold ScriptModule.startBytes at some ⊢
    split at some
    · rename_i both
      rw [if_pos both]
    · exact absurd rfl some
  rw [whole] at some ⊢
  have untaken : s ∉ c.taken := fun member => some (sound.tracks.freed s member free)
  have same := (sound.tracks.untaken s untaken).2
  rw [same] at some ⊢
  refine ⟨untaken, rfl, ?_⟩
  rw [← same] at some ⊢
  exact (sound.held.blobs s).resolve_left some

theorem note_create (c : ScriptChain C) {s : Fin maxPersistentScripts} (first : firstFree c.module.region.bitGet = some s)
    (seed : LuaTable (LuaField C)) (m : ScriptModule C) :
    (c.note (.create seed) m).module = m ∧ (c.note (.create seed) m).used =
      if c.module.startBytes s = [] then c.used else s :: c.used := by
  have takes : c.module.slotFor (.create seed) = some s := first
  rw [note, takes]
  exact ⟨rfl, rfl⟩

/-- A `create` that finds no slot free makes no script. -/
theorem note_create_full {c : ScriptChain C} {after : ScriptModule C} {seed : LuaTable (LuaField C)}
    {result : Except ScriptError Int} (run : c.module.create seed = .returns (after, result))
    (full : firstFree c.module.region.bitGet = none) : (c.note (.create seed) after).module = c.module := by
  have same : after = c.module := by
    rcases create_cases run with ⟨-, same, -⟩ | ⟨s, found, -⟩
    · exact same
    · rw [full] at found
      cases found
  have takes : c.module.slotFor (.create seed) = none := full
  rw [note, takes]
  exact same

/-- A `create` on sound slots that finds bytes restores them, which is genuine exactly when the slot
was taken in the run that saved. -/
theorem Sound.create_restored_iff {c : ScriptChain C} (sound : c.Sound) {after : ScriptModule C}
    {seed : LuaTable (LuaField C)} {result : Except ScriptError Int} {s : Fin maxPersistentScripts}
    (run : c.module.create seed = .returns (after, result)) (first : firstFree c.module.region.bitGet = some s)
    (some : c.module.startBytes s ≠ []) :
    Backed c (.call (.create seed)) (c.note (.create seed) after) ↔
      Genuine c (.call (.create seed)) (c.note (.create seed) after) := by
  obtain ⟨module, used⟩ := c.note_create first seed after
  have initial := c.module.initialCtx_taken s seed
  rw [if_neg some] at initial used
  obtain ⟨untaken, bytes, blob⟩ := sound.startBytes first some
  obtain ⟨ctx, unflat, -⟩ := blob.restores
  rw [bytes, unflat] at initial
  obtain ⟨fresh, made⟩ := create_makes run first initial
  constructor
  · intro backed seed' same _
    cases same
    have member := backed seed s rfl first some
    have active : c.loaded.bitGet s = true := by
      by_contra idle
      rw [Bool.not_eq_true] at idle
      exact some (bytes.trans (sound.kept s member idle))
    refine Or.inr ⟨s, active, fun again => untaken (sound.used again), used, ?_⟩
    rw [module, made]
    exact unflat
  · intro genuine seed' t same found _
    cases same
    rw [first, Option.some.injEq] at found
    subst found
    by_contra other
    have idle := sound.others s other
    have new : (c.note (.create seed) after).module.fresh ≠ c.module.fresh := by
      rw [module, fresh]
      exact Nat.succ_ne_self _
    rcases genuine seed rfl new with ⟨same, -⟩ | ⟨t, active, -, same, -⟩
    · rw [used] at same
      exact List.cons_ne_self s _ same
    · rw [used] at same
      cases same
      rw [idle] at active
      cases active

/-- A `create` on sound slots is genuine exactly when the bytes it finds, if any, are backed. -/
theorem Sound.create_genuine_iff {c : ScriptChain C} (sound : c.Sound) {m : ScriptModule C}
    {seed : LuaTable (LuaField C)} (stepped : c.module.step (.create seed) = .returns m) :
    Backed c (.call (.create seed)) (c.note (.create seed) m) ↔
      Genuine c (.call (.create seed)) (c.note (.create seed) m) := by
  obtain ⟨⟨after, result⟩, run, rfl⟩ := Exec.map_eq_returns.mp stepped
  cases first : firstFree c.module.region.bitGet with
  | none =>
    refine iff_of_true (fun _ s _ found => ?_) fun _ _ made => absurd ?_ made
    · rw [first] at found
      cases found
    · rw [note_create_full run first]
  | some s =>
    by_cases empty : c.module.startBytes s = []
    · obtain ⟨module, used⟩ := c.note_create first seed after
      have initial := c.module.initialCtx_taken s seed
      rw [if_pos empty] at initial used
      obtain ⟨-, ctx⟩ := create_makes run first initial
      refine iff_of_true (fun _ t _ found bytes => ?_) fun seed' same _ => Or.inl ⟨used, ?_⟩
      · rw [first, Option.some.injEq] at found
        exact absurd (found ▸ empty) bytes
      · cases same
        rw [module]
        exact ctx
    · exact sound.create_restored_iff run first empty

theorem Sound.genuine_iff {ι : Type} [DecidableEq ι] {R : Registry ι} {g : ι} {c c' : ScriptChain C}
    {e : ChainEvent C} (sound : c.Sound) (step : Step R g c e c') : Backed c e c' ↔ Genuine c e c' := by
  cases step with
  | @call e m stepped =>
    cases e with
    | create seed => exact sound.create_genuine_iff stepped
    | resume slot => exact iff_of_true (fun _ _ same => nomatch same) fun _ same => nomatch same
    | leave ending => exact iff_of_true (fun _ _ same => nomatch same) fun _ same => nomatch same
    | destroy slot => exact iff_of_true (fun _ _ same => nomatch same) fun _ same => nomatch same
    | mutate id ctx => exact iff_of_true (fun _ _ same => nomatch same) fun _ same => nomatch same
  | reload => exact iff_of_true (fun _ _ same => nomatch same) fun _ same => nomatch same

/-- Over a chain of runs every script starts with its seed or with what it was saved with
exactly when no create meets bytes in a slot that the run before had left alone. -/
theorem genuine_iff_backed {ι : Type} [DecidableEq ι] {R : Registry ι} {g : ι}
    (tracked : regionPersistentScripts g ∈ R.regions) (events : List (ChainEvent C)) :
    Run.Throughout (Step R g) Backed boot events ↔ Run.Throughout (Step R g) Genuine boot events :=
  Run.throughout_iff Sound (fun _ _ _ sound step => sound.genuine_iff step)
    (fun _ _ _ sound step _ => step.sound tracked sound) boot_sound events

/-- A run of one script, and one that restores it. -/
theorem genuine_restored :
    Run.Throughout (Step scriptsRegistry ()) Genuine (boot : ScriptChain luaConf64)
      [.call (.create .empty), .reload, .call (.create .empty)] := by
  have tracked : regionPersistentScripts () ∈ scriptsRegistry.regions := List.mem_singleton.mpr rfl
  have zero : ∀ p : PersistentScripts, firstFree p.unmarkAll.bitGet = some ⟨0, by decide⟩ := by
    intro p
    rw [bitGet_unmarkAll]
    exact firstFree_of_filled filled_zero (by decide)
  refine (genuine_iff_backed tracked _).mp fun c₁ one => ⟨fun _ s _ _ bytes => absurd rfl bytes, fun c₂ two =>
    ⟨fun _ _ same => (nomatch same), fun c₃ three => ⟨fun _ s _ first _ => ?_, trivial⟩⟩⟩
  rw [two.reloaded tracked] at first ⊢
  cases one with
  | @call e m stepped =>
    have taken : (boot.note (.create .empty) m).taken = [⟨0, by decide⟩] := rfl
    show s ∈ (boot.note (.create .empty) m).taken
    rw [taken, List.mem_singleton]
    exact (Option.some.inj ((zero _).symm.trans first)).symm

/-- What a step leaves when every save and load works. -/
def drive (c : ScriptChain C) : ChainEvent C → Exec (ScriptChain C)
  | .call e => c.note e <$> c.module.step e
  | .reload => .returns (c.resumed c.module.region)

theorem step_of_drive (c : ScriptChain C) (e : ChainEvent C) (c' : ScriptChain C) (driven : c.drive e = .returns c') :
    Step scriptsRegistry () c e c' := by
  cases e with
  | call e =>
    obtain ⟨m, stepped, rfl⟩ := Exec.map_eq_returns.mp driven
    exact .call stepped
  | reload =>
    cases driven
    obtain ⟨rt, other, loaded, saved, buf, object, save, written, image, load⟩ := scriptsRegistry_saves c.module.region
    have same := persistentScripts_loaded (List.mem_singleton.mpr rfl) save written image load
    rw [object, Codec.decode_encode] at same
    rw [← same]
    exact .reload object save written image load

/-- A table with one field. -/
def ghostCtx : LuaTable (LuaField luaConf64) := LuaTable.empty.set (.string [103]) (.scalar (.boolean true))

/-- Two scripts; a run that restores only the first; and one that restores the first. -/
def ghostEvents : List (ChainEvent luaConf64) :=
  [.call (.create .empty), .call (.create ghostCtx), .reload, .call (.create .empty), .reload, .call (.create .empty)]

/-- One more `create` then starts with what the second script of the first run left. -/
theorem not_genuine :
    ¬Run.Throughout (Step scriptsRegistry ()) Genuine boot (ghostEvents ++ [.call (.create .empty)]) := by
  intro along
  have before : (fun c : ScriptChain luaConf64 => (c.used, c.loaded.bitGet ⟨1, by decide⟩, c.module.fresh)) <$>
      Exec.run drive boot ghostEvents = .returns ([⟨0, by decide⟩], false, 1) := by decide +kernel
  have after : (fun c : ScriptChain luaConf64 => (c.used, c.module.fresh)) <$>
      Exec.run drive boot (ghostEvents ++ [.call (.create .empty)]) =
        .returns ([⟨1, by decide⟩, ⟨0, by decide⟩], 2) := by decide +kernel
  obtain ⟨c, ran, state⟩ := Exec.map_eq_returns.mp before
  obtain ⟨used, idle, fresh⟩ : _ ∧ _ ∧ _ := by simpa using state
  obtain ⟨c', ran', state'⟩ := Exec.map_eq_returns.mp after
  obtain ⟨used', fresh'⟩ := Prod.mk.inj state'
  rw [Exec.run_append, ran, Exec.returns_bind] at ran'
  obtain ⟨c'', stepped, done⟩ := Exec.bind_eq_returns.mp ran'
  cases done
  have genuine := (along.behind step_of_drive ran c' (step_of_drive _ _ _ stepped)).1 .empty rfl
    (by rw [fresh, fresh']; decide)
  rw [used, used'] at genuine
  rcases genuine with ⟨same, -⟩ | ⟨s, active, -, same, -⟩
  · cases same
  · cases same
    rw [idle] at active
    cases active

end ScriptChain
end Blyt
