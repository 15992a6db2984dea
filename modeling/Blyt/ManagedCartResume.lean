import Blyt.SteadyScripts

namespace Blyt
open Packed PersistentScripts SaveIo
variable {P E : Type} {C : LuaConf}

namespace ManagedProcess
variable {p : ManagedProcess P C} {cast : Cast P C}

/-- Where the slot holds `bytes`, the script starts with `ctx`. -/
def StartsWith (loadResume : Bool) (bytes : List UInt8) (s : Fin maxPersistentScripts) (seed ctx : ScriptCtx C) : Prop :=
  ScriptCtx.Fits ctx ∧ ∀ m : ScriptModule C, m.loadResume = loadResume → m.region.LensFit → m.region.bitGet s = true →
    m.region.blob s = bytes → m.initialCtx s seed = .returns (.ok ctx)

theorem startsWith_seed {seed : ScriptCtx C} (fits : ScriptCtx.Fits seed) (bytes : List UInt8)
    (s : Fin maxPersistentScripts) : StartsWith false bytes s seed seed := by
  refine ⟨fits, fun m fresh _ _ _ => ?_⟩
  rw [ScriptModule.initialCtx, fresh]
  rfl

theorem startsWith_blob {ctx ctx' : ScriptCtx C} {bytes : List UInt8} (flat : consoleTableFlatten ctx = .returns (.ok bytes))
    (unflat : consoleTableUnflatten C bytes = .returns (.ok ctx')) (same : ctx.Same ctx') (s : Fin maxPersistentScripts)
    (seed : ScriptCtx C) : StartsWith true bytes s seed ctx' := by
  refine ⟨⟨bytes, ScriptCtx.flatten_same same flat⟩, fun m loading fit active held => ?_⟩
  subst held
  exact ScriptModule.initialCtx_restored loading fit active ⟨ctx, flat⟩ unflat seed

/-- The creates of a cart take the next slots, in order. -/
theorem Seats.createAll {loadResume : Bool} (seats : p.Seats cast) (bytes : Fin maxPersistentScripts → List UInt8)
    (loading : p.module.loadResume = loadResume)
    (blobs : ∀ s : Fin maxPersistentScripts, cast.length ≤ s.val → p.module.region.blob s = bytes s)
    {scripts : List (ScriptBody P C × ScriptCtx C × ScriptCtx C)} (room : cast.length + scripts.length ≤ maxPersistentScripts)
    (starts : ∀ i body seed ctx, scripts[i]? = some (body, seed, ctx) → ∀ s : Fin maxPersistentScripts,
      s.val = cast.length + i → StartsWith loadResume (bytes s) s seed ctx) :
    ∃ p', p.createAll (scripts.map fun x => (x.1, x.2.1)) =
        .returns (p', .ok ((List.range' cast.length scripts.length).map Nat.cast)) ∧
      p'.Seats (cast ++ scripts.map fun x => (⟨x.1, x.1.entry⟩, x.2.2)) ∧ p'.bindings = p.bindings := by
  induction scripts generalizing p cast with
  | nil => exact ⟨p, rfl, by rwa [List.map_nil, List.append_nil], rfl⟩
  | cons x scripts ih =>
    obtain ⟨body, seed, ctx⟩ := x
    rw [List.length_cons] at room
    let s : Fin maxPersistentScripts := ⟨cast.length, by omega⟩
    obtain ⟨⟨own, flat⟩, initial⟩ := starts 0 body seed ctx rfl s rfl
    have active : (p.module.region.bitSet s).bitGet s = true := by rw [bitGet_bitSet, Function.update_self]
    obtain ⟨p₁, created, next, bindings, kept, cells⟩ := seats.create body s rfl
      (initial { p.module with region := p.module.region.bitSet s } loading (seats.fit.bitSet s) active
        (blobs s (Nat.le_refl _))) flat
    have length : (cast ++ [((⟨body, body.entry⟩ : ManagedCoroutine P C), ctx)]).length = cast.length + 1 := List.length_append
    have cells' : ∀ t : Fin maxPersistentScripts, cast.length + 1 ≤ t.val → p₁.module.region.blob t = bytes t := by
      intro t behind
      have apart : t ≠ s := fun eq => absurd (congrArg Fin.val eq) (by show t.val ≠ cast.length; omega)
      rw [cells, Function.update_of_ne apart]
      exact blobs t (by omega)
    rw [← length] at cells'
    obtain ⟨p₂, later, final, last⟩ := ih next (kept.trans loading) cells' (by omega) fun i b sd c here t place =>
      starts (i + 1) b sd c (by rwa [List.getElem?_cons_succ]) t (by omega)
    refine ⟨p₂, ?_, ?_, last.trans bindings⟩
    · rw [length] at later
      have same : p.create body seed = .returns (p₁, .ok ((cast.length : Nat) : Int)) := created
      rw [List.map_cons, ManagedProcess.createAll, same, Exec.returns_bind]
      dsimp only
      rw [later, Exec.returns_bind]
      rfl
    · rwa [List.append_assoc] at final

/-- A module over a slot table nobody has claimed yet. -/
theorem seats_start {region : PersistentScripts} (fit : region.LensFit) (free : region.bitGet = fun _ => false)
    (loadResume : Bool) (s : BindingState) :
    (⟨s, .start region loadResume, fun _ => none⟩ : ManagedProcess P C).Seats [] where
  room := Nat.zero_le _
  filled := by
    show FirstFit.Filled region.bitGet 0
    rw [free]
    exact FirstFit.filled_zero
  fit := fit
  fresh := rfl
  idle := rfl
  seated s co ctx none := by simp at none

/-- The scripts of a save, begun again with the tables their slots hold. -/
def reload (restored : ManagedCoroutine P C × ScriptCtx C → ScriptCtx C) (cast : Cast P C) : Cast P C :=
  cast.map fun e => (⟨e.1.body, e.1.body.entry⟩, restored e)

/-- The creates of a cart, next to the scripts of its save. -/
def paired (restored : ManagedCoroutine P C × ScriptCtx C → ScriptCtx C)
    (scripts : List (ScriptBody P C × ScriptCtx C)) (cast : Cast P C) :
    List (ScriptBody P C × ScriptCtx C × ScriptCtx C) :=
  List.zipWith (fun x e => (x.1, x.2, restored e)) scripts cast

theorem paired_maps (restored : ManagedCoroutine P C × ScriptCtx C → ScriptCtx C)
    {scripts : List (ScriptBody P C × ScriptCtx C)} {cast : Cast P C}
    (bodies : cast.map (fun e => e.1.body) = scripts.map Prod.fst) :
    (paired restored scripts cast).map (fun x => (x.1, x.2.1)) = scripts ∧
      (paired restored scripts cast).map (fun x => ((⟨x.1, x.1.entry⟩ : ManagedCoroutine P C), x.2.2)) =
        reload restored cast := by
  induction scripts generalizing cast with
  | nil =>
    rw [List.map_nil, List.map_eq_nil_iff] at bodies
    subst bodies
    exact ⟨rfl, rfl⟩
  | cons x scripts ih =>
    obtain ⟨e, others, rfl, body, rest⟩ := List.map_eq_cons_iff.mp bodies
    obtain ⟨first, second⟩ := ih rest
    refine ⟨congrArg (List.cons x) first, congrArg₂ List.cons ?_ second⟩
    show ((⟨x.1, x.1.entry⟩ : ManagedCoroutine P C), restored e) = (⟨e.1.body, e.1.body.entry⟩, restored e)
    rw [body]

end ManagedProcess

namespace ManagedCart
open ManagedProcess
variable {cart : ManagedCart P C} {host : BindingHost (LuaValue C) E} {N k : Nat}
  {invs : List (Nat → P → ScriptCtx C → Prop)} {s s' : BindingState} {cast cast' : Cast P C} {digests : List Digest}

/-- The scripts where they are created first. -/
def firstCast (cart : ManagedCart P C) : Cast P C := cart.scripts.map fun x => (⟨x.1, x.1.entry⟩, x.2)

/-- The workload of a process whose scripts have been seated. -/
theorem workload_seated {p p₁ : ManagedProcess P C} {numFrames : Int} {handles : List Int}
    {result : ManagedProcess P C × List Digest × Option (CartError E)}
    (created : (if p.module.loadResume then p else { p with bindings := cart.opening p.bindings }).createAll cart.scripts =
      .returns (p₁, .ok handles)) (count : (numFrames - p₁.bindings.fs.frame.toNat).toNat = k)
    (ran : cart.frames host handles k p₁ = .returns result) : cart.workload host numFrames p = .returns result := by
  rw [workload, created, Exec.returns_bind]
  dsimp only
  rw [count, ran]

/-- A fresh process runs the scripts from their seeds. -/
theorem Steady.workload_fresh (steady : cart.Steady host N invs)
    (runs : cart.firstCast.Runs cart host k (cart.opening freshBindings) s' cast' digests) :
    ∃ p', cart.workload host k .fresh = .returns (p', digests, none) ∧ p'.bindings = s' ∧ p'.Seats cast' := by
  have free : PersistentScripts.reset.bitGet = fun _ => false := funext bitGet_reset
  have seats : (⟨cart.opening freshBindings, .start .reset false, fun _ => none⟩ : ManagedProcess P C).Seats [] :=
    seats_start lensFit_reset free false _
  have fits : ∀ x ∈ cart.scripts, ScriptCtx.Fits x.2 := fun x member =>
    steady.scripts.fits _ (List.mem_map_of_mem member)
  have room : ([] : Cast P C).length + (cart.scripts.map fun x => (x.1, x.2, x.2)).length ≤ maxPersistentScripts := by
    rw [List.length_map]
    exact (Nat.zero_add _).trans_le steady.room
  obtain ⟨p₁, created, seated, bindings⟩ := seats.createAll (fun _ => []) rfl (fun t _ => blob_reset t) room
    fun i body seed ctx here t _ => by
      rw [List.getElem?_map] at here
      obtain ⟨x, at_, is⟩ := Option.map_eq_some_iff.mp here
      cases is
      exact startsWith_seed (fits x (List.mem_of_getElem? at_)) _ _
  have same : cart.scripts.map ((fun x : ScriptBody P C × ScriptCtx C × ScriptCtx C => (x.1, x.2.1)) ∘
      fun x => (x.1, x.2, x.2)) = cart.scripts := List.map_id _
  have length : cart.firstCast.length = cart.scripts.length := List.length_map _
  rw [List.map_map, List.length_map, same, ← length] at created
  rw [List.map_map] at seated
  dsimp only at bindings
  rw [← bindings] at runs
  have seated : p₁.Seats cart.firstCast := seated
  obtain ⟨p₂, ran, last, final⟩ := seated.frames runs
  refine ⟨p₂, workload_seated created ?_ ran, last, final⟩
  rw [bindings, steady.opening.1]
  exact Int.toNat_natCast k

/-- A load process runs the scripts on from where they were saved. -/
theorem Steady.workload_loaded (steady : cart.Steady host N invs) {p : ManagedProcess P C} {n : Nat}
    (seats : p.Seats cast) (behind : Cast.Behind N invs n s cast)
    (bodies : cast.map (fun e => e.1.body) = cart.scripts.map Prod.fst) (within : n + k ≤ N)
    (runs : cast.Runs cart host k s s' cast' digests) : ∃ p', cart.workload host (n + k : Nat)
      ⟨s, .start p.module.region.unmarkAll true, fun _ => none⟩ = .returns (p', digests, none) := by
  have empty : Nonempty (ScriptCtx C) := ⟨LuaTable.empty⟩
  have restored : ∀ e ∈ cast, ∃ ctx, ∃ bytes, consoleTableFlatten e.2 = .returns (.ok bytes) ∧
      consoleTableUnflatten C bytes = .returns (.ok ctx) ∧ e.2.Same ctx := by
    intro e member
    obtain ⟨bytes, flat⟩ := behind.running.fits e member
    obtain ⟨ctx, unflat, same⟩ := (behind.running.plain e member).restored flat
    exact ⟨ctx, bytes, flat, unflat, same⟩
  choose! back known using restored
  obtain ⟨scripts, reloaded⟩ := paired_maps back bodies
  have fit : p.module.region.unmarkAll.LensFit := seats.fit
  have start : (⟨s, .start p.module.region.unmarkAll true, fun _ => none⟩ : ManagedProcess P C).Seats [] :=
    seats_start fit (bitGet_unmarkAll _) true s
  have length : cart.scripts.length = cast.length := by
    have same := congrArg List.length bodies
    rwa [List.length_map, List.length_map, eq_comm] at same
  have count : (paired back cart.scripts cast).length = cast.length := by
    rw [paired, List.length_zipWith, length, Nat.min_self]
  have room : ([] : Cast P C).length + (paired back cart.scripts cast).length ≤ maxPersistentScripts := by
    rw [count]
    exact (Nat.zero_add _).trans_le seats.room
  have kept : p.module.region.unmarkAll.blob = p.module.region.blob := rfl
  have starts : ∀ i body seed ctx, (paired back cart.scripts cast)[i]? = some (body, seed, ctx) →
      ∀ t : Fin maxPersistentScripts, t.val = ([] : Cast P C).length + i →
        StartsWith true (p.module.region.blob t) t seed ctx := by
    intro i body seed ctx here t place
    obtain ⟨x, e, atX, atE, is⟩ := List.getElem?_zipWith_eq_some.mp here
    cases is
    obtain ⟨bytes, flat, unflat, same⟩ := known e (List.mem_of_getElem? atE)
    have own : t.val = i := place.trans (Nat.zero_add i)
    obtain ⟨-, -, -, held⟩ := seats.seated t e.1 e.2 (own ▸ atE)
    rw [flat] at held
    cases held
    exact startsWith_blob flat unflat same t x.2
  obtain ⟨p₁, created, seated, bindings⟩ := start.createAll p.module.region.blob rfl
    (fun t _ => congrFun kept t) room starts
  rw [scripts, count] at created
  rw [reloaded, List.nil_append] at seated
  dsimp only at bindings
  have again : Cast.Reentered cast (reload back cast) := by
    rw [Cast.Reentered, reload, List.forall₂_map_right_iff, List.forall₂_same]
    intro e member
    obtain ⟨-, -, -, same⟩ := known e member
    exact ⟨rfl, .inr rfl, same⟩
  obtain ⟨back', later⟩ := runs.reentered steady behind.running within again
  have entered : (reload back cast).length = cast.length := List.length_map _
  rw [← bindings] at later
  obtain ⟨p₂, ran, -, -⟩ := seated.frames later
  rw [entered] at ran
  refine ⟨p₂, workload_seated created ?_ ran⟩
  rw [bindings, behind.frame]
  omega

end ManagedCart

theorem managedRegistry_described : Describable managedRegistry := describable_iff.mpr (by decide +kernel)

theorem bodySize_managed : bodySize managedRegistry.regions = 17932 := rfl

theorem managedRegistry_sizes : ∀ r ∈ managedRegistry.regions, r.size.toNat ≤ 16520 := by
  have sizes : managedRegistry.regions.map (fun r => r.size.toNat) = [1316, 96, 16520] := rfl
  intro r member
  have listed := List.mem_map_of_mem (f := fun r : RuntimeTrackedRegion ManagedObject => r.size.toNat) member
  rw [sizes] at listed
  simp only [List.mem_cons, List.not_mem_nil, or_false] at listed
  omega

namespace ManagedProcess

/-- What the save program prints of a process. -/
theorem save_returns (p : ManagedProcess P C) (rt : Runtime managedRegistry) (S : UInt32) :
    ∃ (saved : SaveResult managedRegistry) (text : List UInt8) (buf : ByteSpan),
      saveStateSave (rt.withStore p.store) 32768 S = .returns saved ∧ saved.ret ≠ 0 ∧
      spanOf saved.written = .returns buf ∧ saveStateEmitHex buf = .returns text ∧ text.length ≤ 131071 ∧
      saveIoParseHex text 32768 = ⟨buf.bytes, true⟩ ∧ buf.bytes = saveImage managedRegistry p.store S := by
  have exact := managedRegistry_described.capacity_exact managedRegistry_sizes
  rw [bodySize_managed] at exact
  have room : saveStateBufferCapacity managedRegistry ≤ 32768 := by
    rw [UInt32.le_iff_toNat_le, exact]
    decide
  obtain ⟨saved, save, ret, written, -⟩ := saveStateSave_again (rt.withStore p.store) S managedRegistry_described
    (exact.trans (by rw [bodySize_managed])) room fun r _ => rfl
  have length : saved.written.length = 17956 := by rw [written, saveImage_length, bodySize_managed]
  have nonzero : saved.ret ≠ 0 := by
    intro zero
    have none := congrArg UInt32.toNat (ret.symm.trans zero)
    rw [exact, show (0 : UInt32).toNat = 0 from rfl] at none
    omega
  have small : saved.written.length < 2 ^ 32 := by omega
  let buf : ByteSpan := ⟨saved.written, small⟩
  obtain ⟨text, emitted, short, parsed⟩ := saveIoParseHex_emitted buf
    (show 24 ≤ saved.written.length by omega) (show saved.written.length ≤ 32768 by omega)
  have short : text.length ≤ 2 * saved.written.length + 33 := short
  exact ⟨saved, text, buf, save, nonzero, dif_pos small, emitted, by omega, parsed, written⟩

/-- A process saved behind a frame is loaded as it was, up to the bitmap and what the module knew. -/
theorem load_returns {p : ManagedProcess P C} (settled : p.bindings.Settled) {buf : ByteSpan} {S : UInt32}
    (image : buf.bytes = saveImage managedRegistry p.store S) (rt : Runtime managedRegistry) (rng : Pcg32) :
    ∃ rt' : Runtime managedRegistry, saveStateLoad rt buf = .returns (true, rt') ∧
      (loaded rng rt'.store : ManagedProcess P C) =
        ⟨p.bindings, .start p.module.region.unmarkAll true, fun _ => none⟩ := by
  have blocks : ∀ r ∈ managedRegistry.regions, ∀ cell, r.load (r.save (p.store r.storage)).1 cell =
      (true, (r.save (p.store r.storage)).1) := by
    refine List.forall_mem_cons.mpr ⟨?_, List.forall_mem_cons.mpr ⟨?_, List.forall_mem_singleton.mpr ?_⟩⟩
    · exact packedRegion_load (frameState.length_encode _)
    · exact packedRegion_load (cartStateLuaSimple.length_encode _)
    · exact packedRegion_load (persistentScripts.length_encode _)
  obtain ⟨rt', load, cells⟩ := saveStateLoad_saveImage managedRegistry_described image rt fun r member => by
    rw [blocks r member]
  have images : ∀ r ∈ managedRegistry.regions, rt'.store r.storage = (r.save (p.store r.storage)).1 := by
    intro r member
    rw [cells r member, blocks r member]
  obtain ⟨frameCell, others⟩ := List.forall_mem_cons.mp images
  obtain ⟨cartCell, last⟩ := List.forall_mem_cons.mp others
  have scriptsCell := List.forall_mem_singleton.mp last
  have frame : rt'.store .frameState = frameState.encode p.bindings.fs.canonicalize :=
    frameCell.trans (packedRegion_save _)
  have cart : rt'.store .cartState = cartStateLuaSimple.encode p.bindings.cs.canonicalize :=
    cartCell.trans (packedRegion_save _)
  have scripts : persistentScripts.decode (rt'.store .scripts) = p.module.region := by
    have cell : rt'.store .scripts = persistentScripts.encode p.module.region := scriptsCell.trans (packedRegion_save _)
    rw [cell, Codec.decode_encode]
  refine ⟨rt', load, ?_⟩
  rw [loaded, settled.resync frame cart, scripts]

end ManagedProcess

namespace ManagedCart
open ManagedProcess
variable {cart : ManagedCart P C} {host : BindingHost (LuaValue C) E} {N : Nat}
  {invs : List (Nat → P → ScriptCtx C → Prop)}

theorem boot_returns : ∃ rt, boot (P := P) (C := C) = .returns rt := by
  obtain ⟨rt, run, -, -⟩ := saveStateInit_returns
    (.boot managedRegistry (ManagedProcess.fresh : ManagedProcess P C).store) managedRegistry_described
  exact ⟨rt, run⟩

theorem saveFrames_returns {S : UInt32} (small : S.toNat + 1 < 2 ^ 31) : saveFrames S = .returns (S.toNat + 1 : Nat) := by
  have last : S ≠ 0x7fffffff := by
    rintro rfl
    exact absurd small (by decide)
  have number : S.toInt32.toInt = S.toNat :=
    BitVec.toInt_eq_toNat_of_lt (show 2 * S.toNat < 2 ^ 32 by omega)
  rw [saveFrames, if_neg last, number]
  rfl

/-- The full run of a steady cart shows its frames; a save behind any of them shows the frames up to there, and the load
of what it prints shows the others. -/
theorem Steady.resumes (steady : cart.Steady host N invs) (bound : N < 2 ^ 31) {S : UInt32} (before : S.toNat < N)
    (given : Nat → Nat) : ∃ text digests, digests.length = N ∧ cart.fullMain host N = .returns (digests, none) ∧
      cart.saveMain host S = .returns (digests.take (S.toNat + 1), .ok text) ∧
      cart.loadMain host N given (some text) = .returns (.ok (digests.drop (S.toNat + 1), none)) := by
  have start : Cast.Behind N invs 0 (cart.opening freshBindings) cart.firstCast :=
    ⟨steady.scripts, by rw [steady.opening.1]; rfl, steady.opening.2⟩
  obtain ⟨s, cast, earlier, first, middle, settled⟩ := start.runs steady (by omega) (k := S.toNat + 1) (by omega)
  rw [Nat.zero_add] at middle
  obtain ⟨s', cast', later, second, -, -⟩ := middle.runs steady (by omega) (k := N - (S.toNat + 1)) (by omega)
  have split : S.toNat + 1 + (N - (S.toNat + 1)) = N := by omega
  have whole := first.append second
  rw [split] at whole
  obtain ⟨rt, booted⟩ := boot_returns (P := P) (C := C)
  obtain ⟨_, full, -, -⟩ := steady.workload_fresh whole
  obtain ⟨p, saving, rfl, seats⟩ := steady.workload_fresh first
  obtain ⟨saved, text, buf, save, nonzero, span, emitted, short, parsed, image⟩ := p.save_returns rt S
  obtain ⟨rt', load, back⟩ := load_returns (settled (Nat.succ_pos _)) image rt freshBindings.rng
  have bodies : cast.map (fun e => e.1.body) = cart.scripts.map Prod.fst := by
    rw [first.bodies, firstCast, List.map_map]
    rfl
  obtain ⟨_, going⟩ := steady.workload_loaded seats middle bodies (by omega) second
  rw [split] at going
  have taken : (earlier ++ later).take (S.toNat + 1) = earlier := List.take_left' first.length
  have dropped : (earlier ++ later).drop (S.toNat + 1) = later := List.drop_left' first.length
  refine ⟨text, earlier ++ later, whole.length, ?_, ?_, ?_⟩
  · rw [fullMain, booted, Exec.returns_bind, full]
    rfl
  · rw [saveMain, booted, Exec.returns_bind, saveFrames_returns (by omega), Exec.returns_bind, saving, Exec.returns_bind]
    dsimp only
    rw [save, Exec.returns_bind, if_neg nonzero, span, Exec.returns_bind, emitted, taken]
    rfl
  · have accepted : ¬(saveIoParseHex text 32768).ret < 0 := by
      rw [parsed]
      exact Int.not_lt.mpr (Int.natCast_nonneg _)
    have whole : spanOf buf.bytes = .returns buf := dif_pos buf.size_lt
    rw [loadMain, booted, Exec.returns_bind, FrameWorkload.saveIoReadFile_short short]
    dsimp only
    rw [if_neg accepted, parsed, whole, Exec.returns_bind, load, Exec.returns_bind]
    dsimp only
    rw [if_pos rfl, back, going, dropped]
    rfl

end ManagedCart
end Blyt
