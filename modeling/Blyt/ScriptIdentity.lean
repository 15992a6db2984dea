import Blyt.SaveStateRoundTrip
import Blyt.ScriptModule

namespace Blyt
variable {C : LuaConf}

/-- Every slot is empty or holds a flattened table. -/
structure SlotsHoldBlobs (C : LuaConf) (p : PersistentScripts) : Prop where
  fit : p.LensFit
  blobs : ∀ s, p.blob s = [] ∨ IsBlob C (p.blob s)

namespace SlotsHoldBlobs
open PersistentScripts
variable {p : PersistentScripts}

theorem reset : SlotsHoldBlobs C .reset := ⟨lensFit_reset, fun s => Or.inl (blob_reset s)⟩

theorem update {q : PersistentScripts} (held : SlotsHoldBlobs C p) (fit : q.LensFit) {s : Fin maxPersistentScripts}
    {bytes : List UInt8} (good : bytes = [] ∨ IsBlob C bytes) (blob : q.blob = Function.update p.blob s bytes) :
    SlotsHoldBlobs C q := by
  refine ⟨fit, fun t => ?_⟩
  rw [blob]
  by_cases same : t = s
  · rw [same, Function.update_self]
    exact good
  · rw [Function.update_of_ne same]
    exact held.blobs t

theorem free (held : SlotsHoldBlobs C p) (slot : Int) : SlotsHoldBlobs C (p.free slot) := by
  rcases free_cases p slot with ⟨same, -⟩ | ⟨s, -, -, -, blob⟩
  · rw [same]
    exact held
  · exact held.update (held.fit.free slot) (Or.inl rfl) blob

theorem write (held : SlotsHoldBlobs C p) (slot : Int) {bytes : List UInt8} (good : IsBlob C bytes) :
    SlotsHoldBlobs C (p.write slot bytes).1 := by
  obtain ⟨-, -, -, -, -, -, fits⟩ := good.wire
  rcases write_cases p slot bytes with refused | ⟨s, -, -, -, -, blob⟩
  · rw [refused]
    exact held
  · exact held.update (held.fit.write slot bytes) (Or.inr good) (blob fits)

theorem bitSet (held : SlotsHoldBlobs C p) (s : Fin maxPersistentScripts) : SlotsHoldBlobs C (p.bitSet s) :=
  ⟨held.fit.bitSet s, held.blobs⟩

theorem step {m m' : ScriptModule C} {e : ScriptModule.Event C} (held : SlotsHoldBlobs C m.region)
    (stepped : m.step e = .returns m') : SlotsHoldBlobs C m'.region := by
  rcases ScriptModule.step_region stepped with
    ⟨s, -, same | ⟨bytes, good, same⟩⟩ | ⟨-, same | ⟨slot, same⟩ | ⟨slot, bytes, good, same⟩⟩
  · rw [same]
    exact held.bitSet s
  · rw [same]
    exact (held.bitSet s).write s good
  · rw [same]
    exact held
  · rw [same]
    exact held.free slot
  · rw [same]
    exact held.write slot good

theorem run {events : List (ScriptModule.Event C)} {m : ScriptModule C}
    (ran : Exec.run ScriptModule.step (.start .reset false) events = .returns m) : SlotsHoldBlobs C m.region :=
  Exec.run_keeps (P := fun m => SlotsHoldBlobs C m.region) (fun _ _ _ held stepped => held.step stepped) ran .reset

end SlotsHoldBlobs

namespace ScriptModule
open PersistentScripts FirstFit
variable {saved : PersistentScripts}

/-- Whatever becomes of a `create` over the first `k` slots, slot `k` is taken then. -/
theorem create_filled {m m' : ScriptModule C} {k : Nat} {seed : LuaTable (LuaField C)}
    {result : Except ScriptError Int} (filled : Filled m.region.bitGet k) (room : k < maxPersistentScripts)
    (run : m.create seed = .returns (m', result)) :
    Filled m'.region.bitGet (k + 1) ∧ ∀ slot, result = .ok slot → slot = k := by
  have first := firstFree_of_filled filled room
  have next := filled.next room
  rw [← bitGet_bitSet] at next
  rcases create_cases run with ⟨full, -⟩ | ⟨s, found, ⟨e, -, rfl, rfl⟩ | ⟨ctx, failed, -, persisted, rfl⟩⟩
  · rw [first] at full
    cases full
  · rw [first, Option.some.injEq] at found
    subst found
    exact ⟨next, nofun⟩
  · rw [first, Option.some.injEq] at found
    subst found
    refine ⟨?_, fun slot returned => ?_⟩
    · rcases flattenAndPersist_cases persisted with ⟨bytes, -, rfl, -⟩ | ⟨rc, -, rfl, -⟩
      · show Filled ((m.region.bitSet ⟨k, room⟩).write _ bytes).1.bitGet (k + 1)
        rwa [bitGet_write]
      · exact next
    · cases failed with
      | none =>
        cases returned
        rfl
      | some e => cases returned

/-- A module over emptied slots hands them out in order. -/
theorem createAll_filled {m m' : ScriptModule C} {k : Nat} {seeds : List (LuaTable (LuaField C))}
    {results : List (Except ScriptError Int)} (filled : Filled m.region.bitGet k)
    (room : k + seeds.length ≤ maxPersistentScripts) (run : m.createAll seeds = .returns (m', results))
    {i : Nat} {slot : Int} (returned : results[i]? = some (.ok slot)) : slot = (k + i : Nat) := by
  induction seeds generalizing m k results i with
  | nil =>
    cases run
    simp at returned
  | cons seed seeds ih =>
    rw [List.length_cons] at room
    obtain ⟨⟨m₁, result⟩, one, rest⟩ := Exec.bind_eq_returns.mp run
    obtain ⟨⟨m₂, later⟩, all, done⟩ := Exec.bind_eq_returns.mp rest
    cases done
    obtain ⟨next, ordered⟩ := create_filled filled (by omega) one
    cases i with
    | zero =>
      rw [List.getElem?_cons_zero, Option.some.injEq] at returned
      exact ordered slot returned
    | succ i =>
      rw [List.getElem?_cons_succ] at returned
      rw [ih next (by omega) all returned]
      omega

/-- A load run after `k` creates: they got the first `k` slots, the blobs are those of the
save, and each script has the `ctx` its slot held. -/
structure LoadRun (saved : PersistentScripts) (k : Nat) (m : ScriptModule C) : Prop where
  loading : m.loadResume = true
  filled : Filled m.region.bitGet k
  fit : m.region.LensFit
  blobs : m.region.blob = saved.blob
  older : ∀ slot id, m.slots slot = some id → id < m.fresh
  restored : ∀ s : Fin maxPersistentScripts, s.val < k →
    ∃ ctx, m.ctx? s = some ctx ∧ consoleTableUnflatten C (saved.blob s) = .returns (.ok ctx)

theorem LoadRun.start (fit : saved.LensFit) : LoadRun saved 0 (.start saved.unmarkAll true : ScriptModule C) where
  loading := rfl
  filled := by
    show Filled saved.unmarkAll.bitGet 0
    rw [bitGet_unmarkAll]
    exact filled_zero
  fit := fit
  blobs := rfl
  older := nofun
  restored := fun _ below => absurd below (Nat.not_lt_zero _)

/-- A slot that holds a blob is read, on a load run, as the `ctx` of its script. -/
theorem initialCtx_restored {m : ScriptModule C} {s : Fin maxPersistentScripts} {ctx : LuaTable (LuaField C)}
    (loading : m.loadResume = true) (fit : m.region.LensFit) (active : m.region.bitGet s = true)
    (blob : IsBlob C (m.region.blob s)) (unflat : consoleTableUnflatten C (m.region.blob s) = .returns (.ok ctx))
    (seed : LuaTable (LuaField C)) : m.initialCtx s seed = .returns (.ok ctx) := by
  have inside : m.region.isActive s = true := by rwa [isActive, slotInRange_coe]
  have bytes : m.readBlob s = some (m.region.blob s) := by rw [readBlob, if_pos inside, read_active fit active]
  have long : (m.region.blob s).length > 0 := List.length_pos_of_ne_nil blob.ne_nil
  rw [initialCtx, if_pos loading, bytes]
  dsimp only
  rw [if_pos long, unflat]
  rfl

/-- The next script of a load run, entered over a slot table that still holds the blobs. -/
theorem LoadRun.entered {s : Fin maxPersistentScripts} {m : ScriptModule C} (run : LoadRun saved s m)
    {ctx : LuaTable (LuaField C)} (unflat : consoleTableUnflatten C (saved.blob s) = .returns (.ok ctx))
    {p q : PersistentScripts} (bits : q.bitGet = Function.update m.region.bitGet s true) (fit : q.LensFit)
    (blobs : q.blob = saved.blob) :
    LoadRun saved (s + 1) { { m with region := p }.enter s ctx with region := q } where
  loading := run.loading
  filled := by
    dsimp only
    rw [bits]
    exact run.filled.next s.isLt
  fit := fit
  blobs := blobs
  older := by
    intro slot id found
    show id < m.fresh + 1
    change Function.update m.slots (s : Int) (some m.fresh) slot = some id at found
    by_cases same : slot = (s : Int)
    · rw [same, Function.update_self, Option.some.injEq] at found
      omega
    · rw [Function.update_of_ne same] at found
      exact Nat.lt_succ_of_lt (run.older slot id found)
  restored := by
    intro t below
    by_cases same : t = s
    · subst same
      refine ⟨ctx, ?_, unflat⟩
      simp [ctx?, enter]
    · have earlier : t.val < s.val := by
        have apart : t.val ≠ s.val := fun eq => same (Fin.ext eq)
        omega
      obtain ⟨old, was, unflat⟩ := run.restored t earlier
      refine ⟨old, ?_, unflat⟩
      obtain ⟨id, found, kept⟩ := Option.map_eq_some_iff.mp was
      have apart : (t : Int) ≠ (s : Int) := by omega
      have older : id ≠ m.fresh := Nat.ne_of_lt (run.older t id found)
      simp [ctx?, enter, Function.update_of_ne apart, found, Function.update_of_ne older, kept]

/-- One more `create` of a load run gets the next slot and what it holds. -/
theorem LoadRun.create {s : Fin maxPersistentScripts} {m : ScriptModule C} (run : LoadRun saved s m)
    (blob : IsBlob C (saved.blob s)) (seed : LuaTable (LuaField C)) :
    ∃ m', m.create seed = .returns (m', .ok s) ∧ LoadRun saved (s + 1) m' := by
  obtain ⟨ctx, unflat, flat⟩ := blob.restores
  obtain ⟨-, -, -, -, -, -, fits⟩ := blob.wire
  have active : (m.region.bitSet s).bitGet s = true := by
    rw [bitGet_bitSet, Function.update_self]
  have held : (m.region.bitSet s).blob = saved.blob := run.blobs
  have restored : { m with region := m.region.bitSet s }.initialCtx s seed = .returns (.ok ctx) := by
    rw [← held] at blob unflat
    exact initialCtx_restored (m := { m with region := m.region.bitSet s }) run.loading (run.fit.bitSet s) active blob
      unflat seed
  have entered : ({ m with region := m.region.bitSet s }.enter s ctx).region.bitGet s = true := by
    rw [enter_region]
    exact active
  have persisted := flattenAndPersist_active flat entered fits
  obtain ⟨-, bits, blobs⟩ := write_active active fits
  have first : firstFree m.region.bitGet = some s := firstFree_of_filled run.filled s.isLt
  refine ⟨_, create_entered first restored persisted, ?_⟩
  refine run.entered unflat ?_ ((run.fit.bitSet s).write s _) ?_
  · rw [← bitGet_bitSet]
    exact bits
  · refine Eq.trans blobs ?_
    rw [held, Function.update_eq_self]

/-- As many creates as there are blobs, in order, restore them all. -/
theorem LoadRun.createAll {k : Nat} {m : ScriptModule C} (run : LoadRun saved k m)
    {seeds : List (LuaTable (LuaField C))} (room : k + seeds.length ≤ maxPersistentScripts)
    (blobs : ∀ s : Fin maxPersistentScripts, k ≤ s.val → s.val < k + seeds.length → IsBlob C (saved.blob s)) :
    ∃ m', m.createAll seeds = .returns (m', (List.range' k seeds.length).map fun s : Nat => .ok s) ∧
      LoadRun saved (k + seeds.length) m' := by
  induction seeds generalizing k m with
  | nil => exact ⟨m, rfl, run⟩
  | cons seed seeds ih =>
    rw [List.length_cons] at room blobs
    have first : k < maxPersistentScripts := by omega
    obtain ⟨m₁, one, next⟩ := LoadRun.create (s := ⟨k, first⟩) run
      (blobs ⟨k, first⟩ (Nat.le_refl k) (by dsimp only; omega)) seed
    dsimp only at one next
    obtain ⟨m₂, all, last⟩ := ih next (by omega) fun s above below => blobs s (by omega) (by omega)
    refine ⟨m₂, ?_, ?_⟩
    · rw [ScriptModule.createAll, one, Exec.returns_bind]
      dsimp only
      rw [all, Exec.returns_bind]
      rfl
    · rw [List.length_cons, Nat.add_comm seeds.length 1, ← Nat.add_assoc]
      exact last

/-- The `k` creates of a load run over the slot table `loaded` give the active slots of
`saved`, in order, and each script what its slot was saved with. -/
def ScriptsSurvive (C : LuaConf) (saved loaded : PersistentScripts) : Prop :=
  ∀ seeds : List (LuaTable (LuaField C)), seeds.length = (busySlots saved.bitGet).length →
    ∃ m, (start loaded.unmarkAll true).createAll seeds =
        .returns (m, (busySlots saved.bitGet).map fun s : Fin maxPersistentScripts => .ok s) ∧
      ∀ s ∈ busySlots saved.bitGet, ∃ ctx, m.ctx? s = some ctx ∧
        consoleTableUnflatten C (saved.blob s) = .returns (.ok ctx)

theorem busySlots_length_le (p : PersistentScripts) : (busySlots p.bitGet).length ≤ maxPersistentScripts :=
  (List.length_filter_le _ _).trans_eq List.length_finRange

/-- Slots that survive were handed out in order, so no free one lies below them. -/
theorem ScriptsSurvive.dense {loaded : PersistentScripts} (survive : ScriptsSurvive C saved loaded) :
    Dense saved.bitGet := by
  obtain ⟨m, run, -⟩ := survive (List.replicate (busySlots saved.bitGet).length .empty) List.length_replicate
  have filled : Filled (start loaded.unmarkAll true : ScriptModule C).region.bitGet 0 := by
    show Filled loaded.unmarkAll.bitGet 0
    rw [bitGet_unmarkAll]
    exact filled_zero
  have room : 0 + (List.replicate (busySlots saved.bitGet).length (.empty : LuaTable (LuaField C))).length ≤
      maxPersistentScripts := by
    rw [List.length_replicate, Nat.zero_add]
    exact busySlots_length_le saved
  refine (busySlots_eq_range_iff _).mp (List.ext_getElem (by simp) fun i here inside => ?_)
  rw [List.length_map] at here
  have ith : ((busySlots saved.bitGet).map fun s : Fin maxPersistentScripts =>
      (.ok s : Except ScriptError Int))[i]? = some (.ok ((busySlots saved.bitGet)[i] : Fin _)) := by
    simp [List.getElem?_eq_getElem here]
  have returned := createAll_filled filled room run ith
  rw [List.getElem_map, List.getElem_range]
  omega

theorem ScriptsSurvive.ne_nil {loaded : PersistentScripts} (survive : ScriptsSurvive C saved loaded)
    {s : Fin maxPersistentScripts} (active : saved.bitGet s = true) : saved.blob s ≠ [] := by
  intro empty
  obtain ⟨m, -, kept⟩ := survive (List.replicate (busySlots saved.bitGet).length .empty) List.length_replicate
  obtain ⟨ctx, -, unflat⟩ := kept s (mem_busySlots.mpr active)
  rw [empty] at unflat
  have refused : consoleTableUnflatten C [] = .returns (.error .overflow) := rfl
  rw [refused] at unflat
  cases unflat

/-- Over slots that hold blobs, the scripts survive exactly when no free slot lies below an
active one and no active slot is empty. -/
theorem scriptsSurvive_self_iff (held : SlotsHoldBlobs C saved) :
    ScriptsSurvive C saved saved ↔
      Dense saved.bitGet ∧ ∀ s, saved.bitGet s = true → saved.blob s ≠ [] := by
  refine ⟨fun survive => ⟨survive.dense, fun s active => survive.ne_nil active⟩, ?_⟩
  rintro ⟨dense, full⟩ seeds length
  have numbered := (busySlots_eq_range_iff _).mpr dense
  have bound := busySlots_length_le saved
  have active_iff : ∀ s : Fin maxPersistentScripts,
      s ∈ busySlots saved.bitGet ↔ s.val < (busySlots saved.bitGet).length := by
    intro s
    rw [← List.mem_range, ← numbered, List.mem_map_of_injective Fin.val_injective]
  have room : 0 + seeds.length ≤ maxPersistentScripts := by omega
  obtain ⟨m, run, done⟩ := (LoadRun.start held.fit).createAll room fun s _ below => by
    have active := mem_busySlots.mp ((active_iff s).mpr (by omega))
    exact (held.blobs s).resolve_left (full s active)
  refine ⟨m, ?_, fun s member => ?_⟩
  · rw [run, length, ← List.range_eq_range', ← numbered, List.map_map]
    rfl
  · have below := (active_iff s).mp member
    exact done.restored s (by omega)

end ScriptModule

section
open Packed ScriptModule FirstFit
variable {ι : Type} [DecidableEq ι] {R : Registry ι} {g : ι}

/-- A load of a save brings back the slot table that was saved. -/
theorem persistentScripts_loaded (tracked : regionPersistentScripts g ∈ R.regions) {rt other loaded : Runtime R}
    {cap frame : UInt32} {saved : SaveResult R} (save : saveStateSave rt cap frame = .returns saved)
    (written : saved.ret ≠ 0) {buf : ByteSpan} (bytes : buf.bytes = saved.written)
    (load : saveStateLoad other buf = .returns (true, loaded)) :
    persistentScripts.decode (loaded.store g) = persistentScripts.decode (rt.store g) := by
  obtain ⟨described, -, image, -⟩ := saveStateSave_returns save written
  have cell := saveStateLoad_true described (bytes.trans image) load tracked
  have stored : loaded.store g = persistentScripts.encode (persistentScripts.decode (rt.store g)) := by
    refine cell.trans (congrArg Prod.snd (packedRegion_load ?_ _))
    exact persistentScripts.length_encode _
  rw [stored, Codec.decode_encode]

def scriptsRegistry : Registry Unit := ⟨[regionPersistentScripts ()], by decide⟩

/-- Every slot table is saved, and its save is loaded. -/
theorem scriptsRegistry_saves (p : PersistentScripts) :
    ∃ (rt other loaded : Runtime scriptsRegistry) (saved : SaveResult scriptsRegistry) (buf : ByteSpan),
      rt.store () = persistentScripts.encode p ∧ saveStateSave rt 16544 0 = .returns saved ∧ saved.ret ≠ 0 ∧
        buf.bytes = saved.written ∧ saveStateLoad other buf = .returns (true, loaded) := by
  have described : Describable scriptsRegistry := describable_iff.mpr (by decide +kernel)
  have only : ∀ r ∈ scriptsRegistry.regions, r = regionPersistentScripts () := fun r => List.mem_singleton.mp
  have exact := described.capacity_exact fun r member => by
    rw [only r member, regionPersistentScripts, packedRegion_size]
    decide
  let rt : Runtime scriptsRegistry := .boot _ fun _ => persistentScripts.encode p
  have room : saveStateBufferCapacity scriptsRegistry ≤ 16544 := by decide
  obtain ⟨saved, save, ret, written, -⟩ := saveStateSave_again rt 0 described exact room fun r _ => rfl
  have small : saved.written.length < 2 ^ 32 := by
    rw [written, saveImage_length]
    decide
  let buf : ByteSpan := ⟨saved.written, small⟩
  have image : buf.bytes = saveImage scriptsRegistry rt.store 0 := written
  obtain ⟨loaded, load, -⟩ := saveStateLoad_saveImage described image rt fun r member => by
    obtain rfl := only r member
    exact congrArg Prod.fst (packedRegion_load (persistentScripts.length_encode _) _)
  exact ⟨rt, rt, loaded, saved, buf, rfl, save, by rw [ret]; decide, rfl, load⟩

/-- After a run, a save of it and a load of the save, the creates of the load run bring the
scripts back in place exactly when no free slot lies below an active one and every active
slot holds bytes. -/
theorem scripts_survive_iff (tracked : regionPersistentScripts g ∈ R.regions) {events : List (Event C)}
    {m : ScriptModule C} (ran : Exec.run step (.start .reset false) events = .returns m) {rt other loaded : Runtime R}
    (object : rt.store g = persistentScripts.encode m.region) {cap frame : UInt32} {saved : SaveResult R}
    (save : saveStateSave rt cap frame = .returns saved) (written : saved.ret ≠ 0) {buf : ByteSpan}
    (bytes : buf.bytes = saved.written) (load : saveStateLoad other buf = .returns (true, loaded)) :
    ScriptsSurvive C m.region (persistentScripts.decode (loaded.store g)) ↔
      Dense m.region.bitGet ∧ ∀ s, m.region.bitGet s = true → m.region.blob s ≠ [] := by
  have same := persistentScripts_loaded tracked save written bytes load
  rw [object, Codec.decode_encode] at same
  rw [same]
  exact scriptsSurvive_self_iff (.run ran)

/-- One script without data. -/
theorem scripts_survive_one :
    ∃ (m : ScriptModule luaConf64) (rt other loaded : Runtime scriptsRegistry) (saved : SaveResult scriptsRegistry)
      (buf : ByteSpan), Exec.run step (.start .reset false) [.create .empty] = .returns m ∧
        rt.store () = persistentScripts.encode m.region ∧ saveStateSave rt 16544 0 = .returns saved ∧
        buf.bytes = saved.written ∧ saveStateLoad other buf = .returns (true, loaded) ∧
        ScriptsSurvive luaConf64 m.region (persistentScripts.decode (loaded.store ())) := by
  let first : Fin maxPersistentScripts := ⟨0, by decide⟩
  have outcome : (fun m : ScriptModule luaConf64 => (busySlots m.region.bitGet, m.region.blob first)) <$>
      Exec.run step (.start .reset false) [.create .empty] = .returns ([first], [0, 0, 0, 0]) := by decide +kernel
  obtain ⟨m, ran, state⟩ := Exec.map_eq_returns.mp outcome
  obtain ⟨active, bytes⟩ := Prod.mk.inj state
  obtain ⟨rt, other, loaded, saved, buf, object, save, written, image, load⟩ := scriptsRegistry_saves m.region
  refine ⟨m, rt, other, loaded, saved, buf, ran, object, save, image, load, ?_⟩
  refine (scripts_survive_iff (List.mem_singleton.mpr rfl) ran object save written image load).mpr ⟨?_, fun s busy => ?_⟩
  · rw [← busySlots_eq_range_iff, active]
    rfl
  · rw [← mem_busySlots, active, List.mem_singleton] at busy
    rw [busy, bytes]
    decide

/-- Two scripts, the first destroyed before the save: the other does not come back in slot 1. -/
theorem scripts_survive_not_always :
    ∃ (m : ScriptModule luaConf64) (rt other loaded : Runtime scriptsRegistry) (saved : SaveResult scriptsRegistry)
      (buf : ByteSpan),
      Exec.run step (.start .reset false) [.create .empty, .create .empty, .destroy 0] = .returns m ∧
        rt.store () = persistentScripts.encode m.region ∧ saveStateSave rt 16544 0 = .returns saved ∧
        buf.bytes = saved.written ∧ saveStateLoad other buf = .returns (true, loaded) ∧
        ¬ScriptsSurvive luaConf64 m.region (persistentScripts.decode (loaded.store ())) := by
  have outcome : (fun m : ScriptModule luaConf64 => (busySlots m.region.bitGet).map Fin.val) <$>
      Exec.run step (.start .reset false) [.create .empty, .create .empty, .destroy 0] = .returns [1] := by
    decide +kernel
  obtain ⟨m, ran, active⟩ := Exec.map_eq_returns.mp outcome
  obtain ⟨rt, other, loaded, saved, buf, object, save, -, image, load⟩ := scriptsRegistry_saves m.region
  refine ⟨m, rt, other, loaded, saved, buf, ran, object, save, image, load, fun survive => ?_⟩
  have ordered := (busySlots_eq_range_iff _).mpr survive.dense
  have count := congrArg List.length active
  rw [List.length_map] at count
  rw [active, count] at ordered
  cases ordered

end
end Blyt
