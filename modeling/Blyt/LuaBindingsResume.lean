import Blyt.LuaBindings
import Blyt.SaveStateRoundTrip

namespace Blyt
open Packed
variable {V E : Type} {host : BindingHost V E}

/-- No NaN of the entity is other than the canonical one. -/
def LuaSimpleEntity.Canonical (row : LuaSimpleEntity) : Prop :=
  canonicalizeNanf row.x = row.x ∧ canonicalizeNanf row.y = row.y ∧ canonicalizeNanf row.a = row.a

theorem CartStateLuaSimple.canonicalize_eq {cs : CartStateLuaSimple} (canonical : ∀ i, (cs i).Canonical) :
    cs.canonicalize = cs := by
  funext i
  obtain ⟨x, y, a⟩ := canonical i
  simp only [CartStateLuaSimple.canonicalize, x, y, a]

/-- A call hands no NaN other than the canonical one to `set_entity`. -/
def BindingCall.Canonical (host : BindingHost V E) : BindingCall V → Prop
  | .setEntity _ x y a => ∀ p ∈ [(2, x), (3, y), (4, a)], ∀ f,
      host.checkNumber p.1 p.2 = .ok f → IsNan32 f → f = canonicalQnanBits
  | .rng | .unitFloat | .addMisc _ | .frame | .commitFrame | .getEntity _ => True

namespace BindingHost

theorem storeNumbers_canonical {i : Fin luaSimpleNumEntities} {s : BindingState}
    {stores : List (Nat × V × (F32 → LuaSimpleEntity → LuaSimpleEntity))}
    (keeps : ∀ store ∈ stores, ∀ f, host.checkNumber store.1 store.2.1 = .ok f →
      ∀ row : LuaSimpleEntity, row.Canonical → (store.2.2 f row).Canonical)
    (canonical : ∀ j, (s.cs j).Canonical) : ∀ j, ((host.storeNumbers i s stores).1.cs j).Canonical := by
  induction stores generalizing s with
  | nil => exact canonical
  | cons store stores ih =>
    obtain ⟨n, v, put⟩ := store
    rw [storeNumbers]
    cases check : host.checkNumber n v with
    | error e => exact canonical
    | ok f =>
      refine ih (fun store' member => keeps store' (List.mem_cons_of_mem _ member)) fun j => ?_
      dsimp only
      by_cases same : j = i
      · subst same
        rw [Function.update_self]
        exact keeps _ List.mem_cons_self f check _ (canonical j)
      · rw [Function.update_of_ne same]
        exact canonical j

theorem setEntity_canonical {s : BindingState} {idx x y a : V}
    (passed : (BindingCall.setEntity idx x y a).Canonical host) (canonical : ∀ j, (s.cs j).Canonical) :
    ∀ j, ((host.lSetEntity s idx x y a).1.cs j).Canonical := by
  have kept : ∀ p ∈ [(2, x), (3, y), (4, a)], ∀ f, host.checkNumber p.1 p.2 = .ok f → canonicalizeNanf f = f := by
    intro p member f check
    rw [canonicalizeNanf_eq]
    split
    · rename_i nan
      exact (passed p member f check nan).symm
    · rfl
  unfold lSetEntity
  cases host.checkInteger 1 idx with
  | error e => exact canonical
  | ok i =>
    dsimp only
    split
    swap
    · exact canonical
    refine storeNumbers_canonical (fun store member f check row ⟨rowX, rowY, rowA⟩ => ?_) canonical
    simp only [List.mem_cons, List.not_mem_nil, or_false] at member
    rcases member with rfl | rfl | rfl
    · exact ⟨kept (2, x) (by simp) f check, rowY, rowA⟩
    · exact ⟨rowX, kept (3, y) (by simp) f check, rowA⟩
    · exact ⟨rowX, rowY, kept (4, a) (by simp) f check⟩

theorem call_canonical {s : BindingState} {c : BindingCall V} (passed : c.Canonical host)
    (canonical : ∀ j, (s.cs j).Canonical) : ∀ j, ((host.call s c).1.cs j).Canonical := by
  cases c with
  | setEntity idx x y a => exact setEntity_canonical passed canonical
  | addMisc x =>
    show ∀ j, ((host.lAddMisc s x).1.cs j).Canonical
    unfold lAddMisc
    split
    · exact canonical
    · exact canonical
  | rng => exact canonical
  | unitFloat => exact canonical
  | frame => exact canonical
  | commitFrame => exact canonical
  | getEntity idx => exact canonical

theorem perform_canonical {s : BindingState} {calls : List (BindingCall V)} (passed : ∀ c ∈ calls, c.Canonical host)
    (canonical : ∀ j, (s.cs j).Canonical) : ∀ j, ((host.perform s calls).cs j).Canonical := by
  induction calls generalizing s with
  | nil => exact canonical
  | cons c calls ih =>
    exact ih (fun c' member => passed c' (List.mem_cons_of_mem _ member))
      (call_canonical (passed c List.mem_cons_self) canonical)

end BindingHost

/-- What holds of the objects at a frame boundary: the generator is the one in the state, and
a save finds no NaN to replace. -/
structure BindingState.Settled (s : BindingState) : Prop where
  rng : s.rng = ⟨s.fs.rngState, s.fs.rngInc⟩
  frame : s.fs.canonicalize = s.fs
  cart : s.cs.canonicalize = s.cs

theorem BindingHost.lCommitFrame_settled {s : BindingState} (canonical : ∀ j, (s.cs j).Canonical) :
    (BindingHost.lCommitFrame s).1.Settled where
  rng := rfl
  frame := by
    have again := FrameState.canonicalize_idem { s.fs with rngState := s.rng.state, rngInc := s.rng.inc }
    have fields := FrameState.mk.injEq .. ▸ again
    obtain ⟨-, -, -, sin, cos, sqrt, misc, mobs⟩ := fields
    simp only [BindingHost.lCommitFrame, frameStateEmitDigest]
    exact FrameState.mk.injEq .. ▸ ⟨rfl, rfl, rfl, sin, cos, sqrt, misc, mobs⟩
  cart := CartStateLuaSimple.canonicalize_eq canonical

section
variable {ι : Type} [DecidableEq ι] {R : Registry ι}

def bindingState (rng : Pcg32) (store : ι → List UInt8) (g_fs g_state : ι) : BindingState :=
  ⟨rng, frameState.decode (store g_fs), cartStateLuaSimple.decode (store g_state)⟩

omit [DecidableEq ι] in
/-- At a frame boundary, the regions' images and a resynced generator are the whole state. -/
theorem BindingState.Settled.resync {s : BindingState} (settled : s.Settled) {store : ι → List UInt8} {g_fs g_state : ι}
    (frame : store g_fs = frameState.encode s.fs.canonicalize)
    (cart : store g_state = cartStateLuaSimple.encode s.cs.canonicalize) (rng : Pcg32) :
    cartDetResyncRngFromFs (bindingState rng store g_fs g_state) = s := by
  rw [settled.frame] at frame
  rw [settled.cart] at cart
  rw [bindingState, frame, cart, Codec.decode_encode, Codec.decode_encode, cartDetResyncRngFromFs]
  dsimp only
  rw [← settled.rng]

/-- What a cart does after a save at a frame boundary has the results and the digests it has
after a load into another process. -/
theorem bindings_resume {g_fs g_state : ι} (frameRegistered : regionFrameState g_fs ∈ R.regions)
    (cartRegistered : regionCartStateLuaSimple g_state ∈ R.regions) {calls : List (BindingCall V)}
    (passed : ∀ c ∈ calls, c.Canonical host) {s : BindingState}
    (committed : host.perform freshBindings (calls ++ [.commitFrame]) = s) {rt : Runtime R}
    (fsObject : rt.store g_fs = frameState.encode s.fs) (csObject : rt.store g_state = cartStateLuaSimple.encode s.cs)
    {cap frame : UInt32} {saved : SaveResult R} (save : saveStateSave rt cap frame = .returns saved)
    (nonzero : saved.ret ≠ 0) {buf : ByteSpan} (bytes : buf.bytes = saved.written) {other : Runtime R} :
    ((∀ r ∈ R.regions, r = regionFrameState g_fs ∨ r = regionCartStateLuaSimple g_state ∨
        ∀ cell, (r.load (r.save (rt.store r.storage)).1 cell).1 = true) →
      ∃ loaded : Runtime R, saveStateLoad other buf = .returns (true, loaded)) ∧
      ∀ loaded : Runtime R, saveStateLoad other buf = .returns (true, loaded) → ∀ rng next n,
        host.follow next n [] (cartDetResyncRngFromFs (bindingState rng loaded.store g_fs g_state)) =
          host.follow next n [] s := by
  obtain ⟨described, image⟩ : Describable R ∧ saved.written = saveImage R rt.store frame := by
    rcases saveStateSave_cases rt cap frame with
      ⟨_, spins⟩ | ⟨described, rt', _, ⟨_, _, run⟩ | ⟨_, _, excess⟩ | ⟨_, _, _, run⟩⟩
    · rw [save] at spins
      cases spins
    · rw [save] at run
      cases run
      exact absurd rfl nonzero
    · rw [save] at excess
      cases excess
    · rw [save] at run
      cases run
      exact ⟨described, rfl⟩
  rw [image] at bytes
  have settled : s.Settled := by
    rw [BindingHost.perform, List.foldl_append] at committed
    subst committed
    have zero : canonicalizeNanf 0 = 0 := by decide
    exact BindingHost.lCommitFrame_settled (BindingHost.perform_canonical passed fun _ => ⟨zero, zero, zero⟩)
  have frameImage : ∀ cell, (regionFrameState g_fs).load ((regionFrameState g_fs).save (rt.store g_fs)).1 cell =
      (true, frameState.encode s.fs.canonicalize) := by
    intro cell
    rw [fsObject]
    refine (packedRegion_load (frameState.length_encode _) cell).trans ?_
    rw [Codec.decode_encode]
  have cartImage : ∀ cell, (regionCartStateLuaSimple g_state).load
      ((regionCartStateLuaSimple g_state).save (rt.store g_state)).1 cell =
        (true, cartStateLuaSimple.encode s.cs.canonicalize) := by
    intro cell
    rw [csObject]
    refine (packedRegion_load (cartStateLuaSimple.length_encode _) cell).trans ?_
    rw [Codec.decode_encode]
  refine ⟨fun accepts => ?_, fun loaded load rng next n => ?_⟩
  · obtain ⟨loaded, load, -⟩ := saveStateLoad_saveImage described bytes other fun r member => by
      rcases accepts r member with rfl | rfl | takes
      · exact congrArg Prod.fst (frameImage _)
      · exact congrArg Prod.fst (cartImage _)
      · exact takes _
    exact ⟨loaded, load⟩
  · have frameCell : loaded.store g_fs = frameState.encode s.fs.canonicalize :=
      (saveStateLoad_true described bytes load frameRegistered).trans (congrArg Prod.snd (frameImage _))
    have cartCell : loaded.store g_state = cartStateLuaSimple.encode s.cs.canonicalize :=
      (saveStateLoad_true described bytes load cartRegistered).trans (congrArg Prod.snd (cartImage _))
    rw [settled.resync frameCell cartCell]

end

/-- A host that reads every argument as entity 0 and as `1.0`. -/
def constantHost : BindingHost Unit Unit := ⟨fun _ _ => .ok 0, fun _ _ => .ok 0x3f800000, id, fun x _ => x⟩

/-- The regions of the Lua workload, as spike-k registers them. -/
def luaSimpleRegistry : Registry Bool := ⟨[regionFrameState false, regionCartStateLuaSimple true], by decide⟩

def luaSimpleStore (s : BindingState) : Bool → List UInt8
  | false => frameState.encode s.fs
  | true => cartStateLuaSimple.encode s.cs

theorem bindings_resume_luaSimple :
    let s := constantHost.perform freshBindings ([.rng, .setEntity () () () ()] ++ [.commitFrame])
    let rt : Runtime luaSimpleRegistry := .boot _ (luaSimpleStore s)
    ∃ saved : SaveResult luaSimpleRegistry, saveStateSave rt 8192 0 = .returns saved ∧
      ∀ buf : ByteSpan, buf.bytes = saved.written → ∀ other : Runtime luaSimpleRegistry,
        ∃ loaded : Runtime luaSimpleRegistry, saveStateLoad other buf = .returns (true, loaded) ∧ ∀ rng next n,
          constantHost.follow next n [] (cartDetResyncRngFromFs (bindingState rng loaded.store false true)) =
            constantHost.follow next n [] s := by
  intro s rt
  have described : Describable luaSimpleRegistry := describable_iff.mpr (by decide +kernel)
  have exact : (saveStateBufferCapacity luaSimpleRegistry).toNat = 24 + bodySize luaSimpleRegistry.regions := by decide
  have room : saveStateBufferCapacity luaSimpleRegistry ≤ 8192 := by decide
  obtain ⟨saved, save, ret, -⟩ := saveStateSave_again rt 0 described exact room fun _ _ => rfl
  refine ⟨saved, save, fun buf bytes other => ?_⟩
  have nonzero : saved.ret ≠ 0 := by
    rw [ret]
    decide
  have frameRegistered : regionFrameState false ∈ luaSimpleRegistry.regions := List.mem_cons_self ..
  have cartRegistered : regionCartStateLuaSimple true ∈ luaSimpleRegistry.regions :=
    List.mem_cons_of_mem _ (List.mem_cons_self ..)
  have passed : ∀ c ∈ [BindingCall.rng, .setEntity () () () ()], c.Canonical constantHost := by
    intro c member
    simp only [List.mem_cons, List.not_mem_nil, or_false] at member
    rcases member with rfl | rfl
    · trivial
    · intro p _ f check nan
      cases check
      exact absurd nan (by decide)
  have fsObject : rt.store false = frameState.encode s.fs := rfl
  have csObject : rt.store true = cartStateLuaSimple.encode s.cs := rfl
  obtain ⟨loads, same⟩ :=
    bindings_resume frameRegistered cartRegistered passed rfl fsObject csObject save nonzero bytes
  obtain ⟨loaded, load⟩ := loads fun r member => by
    simp only [luaSimpleRegistry, List.mem_cons, List.not_mem_nil, or_false] at member
    rcases member with rfl | rfl
    · exact Or.inl rfl
    · exact Or.inr (Or.inl rfl)
  exact ⟨loaded, load, same loaded load⟩

end Blyt
