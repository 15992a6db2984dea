import Blyt.ConsoleStub
import Blyt.SaveState

namespace Blyt
namespace AllocCart

abbrev StateStore := Fin 256 → UInt32

/-- `state_store[idx]` of a slot and a field. -/
def stateIdx (slot field : UInt32) : UInt32 := (slot &&& 0x0f) * 16 + (field &&& 0x0f)

/-- `blyt32_state_get_u32`. -/
def getU32 (store : StateStore) (slot field : UInt32) : UInt32 :=
  if inside : (stateIdx slot field).toNat < 256 then store ⟨(stateIdx slot field).toNat, inside⟩ else 0

/-- `blyt32_state_set_u32`. -/
def setU32 (store : StateStore) (slot field val : UInt32) : StateStore :=
  if inside : (stateIdx slot field).toNat < 256 then Function.update store ⟨(stateIdx slot field).toNat, inside⟩ val
  else store

def slot : UInt32 := 0
def sCtr : UInt32 := 0x0001
def sArcInner : UInt32 := 0x0002

/-- The `AtomicU32` behind an `Arc`, and how many `Arc`s share it. -/
structure ArcCounter where
  inner : UInt32
  strong : Nat
  deriving DecidableEq

/-- `save_file_t`. -/
structure SaveFile where
  frame : UInt32
  state : StateStore

/-- A process: the state buffer, the statics of the cart, and the save file. -/
structure Cart where
  store : StateStore
  resourceLookup : Option (List UInt32)
  stateVec : Option (List UInt32)
  arcCounter : Option ArcCounter
  growVec : Option (List UInt32)
  saveFile : Option SaveFile

/-- The frames at which the process ends and at which it saves. -/
structure Frames where
  nframes : UInt32
  saveAtSCtr : UInt32

/-- The `DIGEST` line of a frame: its number, and what `fnv1a64` is taken over. -/
structure DigestLine where
  frame : UInt32
  newSCtr : UInt32
  rlLen : UInt32
  rl0 : UInt32
  arcInner : UInt32
  gvLen : UInt32
  gvSum : UInt32
  deriving DecidableEq

/-- `fnv1a64`, over the bytes of the words. -/
def fnv1a64 (data : List UInt32) : UInt64 := fnv1a64Bytes (data.flatMap fun v => Packed.leBytes 4 v.toNat)

def DigestLine.hash (d : DigestLine) : UInt64 := fnv1a64 [d.newSCtr, d.rlLen, d.rl0, d.arcInner, d.gvLen, d.gvSum]

/-- What a frame prints: the two numbers of the `STATE_VEC` line, and the digest with its text. -/
structure FrameOut where
  svLen : UInt32
  sv0 : UInt32
  digest : DigestLine
  text : List UInt8

inductive Process where
  | running (c : Cart)
  | exited
  | panicked

/-- The push that `fc_cart_on_load` and `fc_cart_update` share. -/
def growStep (gv : List UInt32) (newSCtr : UInt32) : List UInt32 :=
  if newSCtr % 4 = 0 ∧ gv.length < 32 then gv ++ [newSCtr] else gv

/-- The loop of `fc_cart_on_load` over `1..=s_ctr`. -/
def replay (sCtr : Nat) : List UInt32 := (List.range' 1 sCtr).foldl (fun gv n => growStep gv (UInt32.ofNat n)) []

def resource : List UInt32 := List.replicate 16 0x12345678

def onLoad (c : Cart) : Cart :=
  let ctr := getU32 c.store slot sCtr
  { c with
    resourceLookup := some (c.resourceLookup.getD resource)
    stateVec := some (List.replicate (ctr.toNat % 16 + 1) ctr)
    arcCounter := some ⟨getU32 c.store slot sArcInner, 1⟩
    growVec := some (replay ctr.toNat) }

def init (c : Cart) : Cart := onLoad { c with resourceLookup := some resource }

/-- The clone, the `fetch_add` and the drop of `fc_cart_update`, with its two assertions. -/
def bumpArc (arc : ArcCounter) : Option (UInt32 × ArcCounter) :=
  let arc2 : ArcCounter := ⟨arc.inner + 1, arc.strong + 1⟩
  if arc2.strong ≠ 2 then none
  else
    let dropped : ArcCounter := ⟨arc2.inner, arc2.strong - 1⟩
    if dropped.strong ≠ 1 then none else some (arc.inner + 1, dropped)

/-- `fc_cart_update` up to what it prints; `none` is a panic. -/
def collect? (frames : Frames) (c : Cart) : Option ((UInt32 × UInt32) × DigestLine × Cart) := do
  let ctr := getU32 c.store slot sCtr
  let saveFile := if ctr = frames.saveAtSCtr then some ⟨ctr, c.store⟩ else c.saveFile
  let newSCtr := ctr + 1
  let store := setU32 c.store slot sCtr newSCtr
  let (newArcInner, arc) ← bumpArc (← c.arcCounter)
  let store := setU32 store slot sArcInner newArcInner
  let growVec := c.growVec.map fun gv => growStep gv newSCtr
  let rl ← c.resourceLookup
  let rl0 ← rl[0]?
  let sv ← match c.stateVec with
    | some sv => sv[0]?.map fun first => (UInt32.ofNat sv.length, first)
    | none => some (0, 0)
  let gv := growVec.getD []
  let digest : DigestLine :=
    { frame := ctr
      newSCtr := newSCtr
      rlLen := UInt32.ofNat rl.length
      rl0 := rl0
      arcInner := getU32 store slot sArcInner
      gvLen := UInt32.ofNat gv.length
      gvSum := gv.foldl (· + ·) 0 }
  return (sv, digest, { c with store := store, arcCounter := some arc, growVec := growVec, saveFile := saveFile })

section
variable (locals : Cart → ConsoleStub.Frame)

/-- `blyt_emit_digest(s_ctr, hi, lo)`. -/
def printDigest (c : Cart) (d : DigestLine) : Exec (List UInt8) :=
  ConsoleStub.emitDigest (locals c) d.frame (d.hash >>> 32).toUInt32 d.hash.toUInt32

/-- `fc_cart_update`; `locals` is what the buffers of the call hold before. -/
def update? (frames : Frames) (c : Cart) : Exec (Option (FrameOut × Cart)) :=
  match collect? frames c with
  | none => .returns none
  | some ((svLen, sv0), digest, c') => do
    let text ← printDigest locals c digest
    return some (⟨svLen, sv0, digest, text⟩, c')

/-- One turn of the main loop: what the frame prints, and the process behind it. -/
def turn (frames : Frames) (c : Cart) : Exec (List FrameOut × Process) := do
  match ← update? locals frames c with
  | none => return ([], .panicked)
  | some (out, c') => return ([out], if out.digest.newSCtr ≥ frames.nframes then .exited else .running c')

/-- `n` turns of the main loop, fewer if the process ends. -/
def turns (frames : Frames) : Nat → Process → Exec (List FrameOut × Process)
  | n + 1, .running c => do
    let (out, p) ← turn locals frames c
    let (outs, p) ← turns frames n p
    return (out ++ outs, p)
  | _, p => .returns ([], p)

end

/-- A fresh process, all of its statics empty. -/
def fresh (saveFile : Option SaveFile) : Cart := ⟨fun _ => 0, none, none, none, none, saveFile⟩

/-- `fc_console_main` up to its loop. -/
def fcConsoleMain (saveFile : Option SaveFile) : Process :=
  match saveFile with
  | some saved => .running (onLoad { fresh saveFile with store := saved.state })
  | none => .running (init (fresh none))

/-- The digest of the frame behind `k` updates. -/
def lineAt (k : Nat) : DigestLine where
  frame := UInt32.ofNat k
  newSCtr := UInt32.ofNat (k + 1)
  rlLen := 16
  rl0 := 0x12345678
  arcInner := UInt32.ofNat (k + 1)
  gvLen := UInt32.ofNat (replay (k + 1)).length
  gvSum := (replay (k + 1)).foldl (· + ·) 0

/-- The state buffer and the heap agree on `k` updates. -/
structure At (k : Nat) (c : Cart) : Prop where
  counter : getU32 c.store slot sCtr = UInt32.ofNat k
  arcWord : getU32 c.store slot sArcInner = UInt32.ofNat k
  lookup : c.resourceLookup = some resource
  stateVec : ∃ first rest, c.stateVec = some (first :: rest)
  arc : c.arcCounter = some ⟨UInt32.ofNat k, 1⟩
  grown : c.growVec = some (replay k)

theorem getU32_setU32 (store : StateStore) (val : UInt32) :
    (getU32 (setU32 store slot sCtr val) slot sCtr = val ∧
        getU32 (setU32 store slot sCtr val) slot sArcInner = getU32 store slot sArcInner) ∧
      (getU32 (setU32 store slot sArcInner val) slot sArcInner = val ∧
        getU32 (setU32 store slot sArcInner val) slot sCtr = getU32 store slot sCtr) := by
  have one : (stateIdx slot sCtr).toNat = 1 := rfl
  have two : (stateIdx slot sArcInner).toNat = 2 := rfl
  simp [getU32, setU32, one, two]

/-- One update more pushes one number more, or none. -/
theorem replay_succ (k : Nat) : replay (k + 1) = growStep (replay k) (UInt32.ofNat (k + 1)) := by
  rw [replay, List.range'_concat, List.foldl_append, List.foldl_cons, List.foldl_nil, ← replay, Nat.one_mul,
    Nat.add_comm 1 k]

/-- What a state buffer rebuilds is what its updates had built. -/
theorem onLoad_at {k : Nat} (small : k < 2 ^ 32) {c : Cart} (counter : getU32 c.store slot sCtr = UInt32.ofNat k)
    (arcWord : getU32 c.store slot sArcInner = UInt32.ofNat k)
    (lookup : c.resourceLookup = none ∨ c.resourceLookup = some resource) : At k (onLoad c) where
  counter := counter
  arcWord := arcWord
  lookup := by
    rcases lookup with none | some
    · simp [onLoad, none]
    · simp [onLoad, some]
  stateVec := ⟨_, _, rfl⟩
  arc := by simp [onLoad, arcWord]
  grown := by
    have count : (UInt32.ofNat k).toNat = k := UInt32.toNat_ofNat_of_lt' small
    simp [onLoad, counter, count]

theorem init_at : At 0 (init (fresh none)) := onLoad_at (by decide) rfl rfl (Or.inr rfl)

/-- An update keeps the agreement, and its digest depends on the number of updates alone. -/
theorem At.collect {k : Nat} {c : Cart} (at_k : At k c) (frames : Frames) :
    ∃ sv c', collect? frames c = some (sv, lineAt k, c') ∧ At (k + 1) c' := by
  obtain ⟨counter, arcWord, lookup, ⟨first, rest, stateVec⟩, arc, grown⟩ := at_k
  have next : UInt32.ofNat k + 1 = UInt32.ofNat (k + 1) := (UInt32.ofNat_add k 1).symm
  have bumped : bumpArc ⟨UInt32.ofNat k, 1⟩ = some (UInt32.ofNat (k + 1), ⟨UInt32.ofNat (k + 1), 1⟩) := by
    rw [← next]
    rfl
  let store := setU32 (setU32 c.store slot sCtr (UInt32.ofNat (k + 1))) slot sArcInner (UInt32.ofNat (k + 1))
  have arcWord' : getU32 store slot sArcInner = UInt32.ofNat (k + 1) := (getU32_setU32 _ _).2.1
  have counter' : getU32 store slot sCtr = UInt32.ofNat (k + 1) :=
    (getU32_setU32 _ _).2.2.trans (getU32_setU32 _ _).1.1
  have head : resource[0]? = some 0x12345678 := rfl
  have out : collect? frames c = some ((UInt32.ofNat (first :: rest).length, first), lineAt k, { c with
      store := store
      arcCounter := some ⟨UInt32.ofNat (k + 1), 1⟩
      growVec := some (replay (k + 1))
      saveFile := if UInt32.ofNat k = frames.saveAtSCtr then some ⟨UInt32.ofNat k, c.store⟩ else c.saveFile }) := by
    simp only [collect?, counter, next, arc, bumped, lookup, head, stateVec, grown, Option.map_some, Option.getD_some,
      ← replay_succ, Option.bind_eq_bind, Option.bind_some]
    rw [arcWord']
    rfl
  exact ⟨_, _, out, counter', arcWord', lookup, ⟨first, rest, stateVec⟩, rfl, rfl⟩

/-- The frame number has room for nine digits. -/
def digestFrames : Nat := 10 ^ 9

section
variable (locals : Cart → ConsoleStub.Frame) {frames : Frames} {k m : Nat} {c : Cart}

theorem printDigest_eq (small : k < 2 ^ 32) :
    if k < digestFrames then ∃ text, printDigest locals c (lineAt k) = .returns text
    else printDigest locals c (lineAt k) = .outOfBounds := by
  have frame : (lineAt k).frame.toNat = k := UInt32.toNat_ofNat_of_lt' small
  rw [printDigest, ConsoleStub.emitDigest_eq, frame, digestFrames]
  split
  · exact ⟨_, rfl⟩
  · rfl

/-- A turn prints the digest that is due, and ends the process at the last frame. -/
theorem At.turn (at_k : At k c) (frames : Frames) (small : k < digestFrames) :
    ∃ out p, turn locals frames c = .returns ([out], p) ∧ out.digest = lineAt k ∧
      if frames.nframes ≤ UInt32.ofNat (k + 1) then p = .exited else ∃ c', p = .running c' ∧ At (k + 1) c' := by
  obtain ⟨sv, c', collected, next⟩ := at_k.collect frames
  have printed := printDigest_eq locals (c := c) (Nat.lt_trans small (by decide))
  rw [if_pos small] at printed
  obtain ⟨text, printed⟩ := printed
  refine ⟨⟨sv.1, sv.2, lineAt k, text⟩,
    if frames.nframes ≤ UInt32.ofNat (k + 1) then .exited else .running c', ?_, rfl, ?_⟩
  · rw [AllocCart.turn, update?, collected]
    dsimp only
    rw [printed]
    rfl
  · split
    · rfl
    · exact ⟨c', rfl, next⟩

/-- From ten digits on the frame number leaves its buffer. -/
theorem At.turn_stray (at_k : At k c) (frames : Frames) (small : k < 2 ^ 32) (large : ¬k < digestFrames) :
    AllocCart.turn locals frames c = .outOfBounds := by
  obtain ⟨sv, c', collected, -⟩ := at_k.collect frames
  have printed := printDigest_eq locals (c := c) small
  rw [if_neg large] at printed
  rw [AllocCart.turn, update?, collected]
  dsimp only
  rw [printed]
  rfl

/-- The number of frames that a process has in all; the first is drawn in any case. -/
def Frames.last (frames : Frames) : Nat := max 1 frames.nframes.toNat

/-- A process goes on up to its last frame. -/
theorem nframes_le_iff (small : k < frames.last) (word : k < digestFrames) :
    frames.nframes ≤ UInt32.ofNat (k + 1) ↔ frames.last = k + 1 := by
  have count : (UInt32.ofNat (k + 1)).toNat = k + 1 :=
    UInt32.toNat_ofNat_of_lt' (Nat.lt_of_le_of_lt (Nat.succ_le_of_lt word) (by decide))
  rw [UInt32.le_iff_toNat_le, count]
  rw [Frames.last] at small ⊢
  omega

theorem turns_succ (frames : Frames) (n : Nat) (c : Cart) :
    turns locals frames (n + 1) (.running c) = AllocCart.turn locals frames c >>= fun first =>
      turns locals frames n first.2 >>= fun rest => .returns (first.1 ++ rest.1, rest.2) := rfl

theorem turns_exited (frames : Frames) (n : Nat) : turns locals frames n .exited = .returns ([], .exited) := by
  cases n <;> rfl

/-- Behind `k` updates the process prints one digest after another, up to its last frame. -/
theorem At.turns (at_k : At k c) (alive : k < frames.last) (within : min (k + m) frames.last ≤ digestFrames) :
    ∃ outs p, turns locals frames m (.running c) = .returns (outs, p) ∧
      outs.map FrameOut.digest = (List.range' k (min m (frames.last - k))).map lineAt ∧
        (k + m < frames.last → ∃ c', p = .running c' ∧ At (k + m) c') := by
  induction m generalizing k c with
  | zero => exact ⟨[], .running c, rfl, by rw [Nat.zero_min]; rfl, fun _ => ⟨c, rfl, at_k⟩⟩
  | succ m ih =>
    have small : k < digestFrames := by omega
    obtain ⟨out, p, ran, line, after⟩ := at_k.turn locals frames small
    have one : min (m + 1) (frames.last - k) = min m (frames.last - (k + 1)) + 1 := by omega
    rw [turns_succ, ran, Exec.returns_bind]
    split at after
    · rename_i ended
      have ended := (nframes_le_iff alive small).mp ended
      have none : min m (frames.last - (k + 1)) = 0 := by omega
      rw [after, turns_exited]
      refine ⟨[out], .exited, rfl, ?_, fun more => by omega⟩
      rw [one, none, List.map_singleton, line]
      rfl
    · rename_i more
      have more := (nframes_le_iff alive small).not.mp more
      obtain ⟨c', rfl, next⟩ := after
      obtain ⟨outs, p, rest, lines, stays⟩ := ih next (by omega) (by omega)
      rw [rest]
      refine ⟨out :: outs, p, rfl, ?_, fun further => ?_⟩
      · rw [one, List.map_cons, line, lines, List.range'_succ, List.map_cons]
      · obtain ⟨c'', running, last⟩ := stays (by omega)
        exact ⟨c'', running, by rwa [show k + (m + 1) = k + 1 + m by omega]⟩

/-- A process that draws more frames leaves the buffer of the frame number. -/
theorem At.turns_stray (at_k : At k c) (before : k ≤ digestFrames) (more : digestFrames < k + m)
    (alive : digestFrames < frames.last) : AllocCart.turns locals frames m (.running c) = .outOfBounds := by
  induction m generalizing k c with
  | zero => omega
  | succ m ih =>
    have limit : digestFrames < 2 ^ 32 := by decide
    rw [turns_succ]
    by_cases small : k < digestFrames
    · obtain ⟨out, p, ran, -, after⟩ := at_k.turn locals frames small
      rw [if_neg ((nframes_le_iff (by omega) small).not.mpr (by omega))] at after
      obtain ⟨c', rfl, next⟩ := after
      rw [ran, Exec.returns_bind, ih next (by omega) (by omega)]
      rfl
    · rw [at_k.turn_stray locals frames (by omega) small]
      rfl

/-- A process that is restored from the state buffer behind `k` updates prints the digests that
the saved one goes on to print, and prints one for every frame that is left. -/
def Resumes (frames : Frames) (k m : Nat) (frame : UInt32) : Prop :=
  ∃ before c whole p after q, turns locals frames k (fcConsoleMain none) = .returns (before, .running c) ∧
    turns locals frames (k + m) (fcConsoleMain none) = .returns (whole, p) ∧
      turns locals frames m (fcConsoleMain (some ⟨frame, c.store⟩)) = .returns (after, q) ∧
        after.map FrameOut.digest = (whole.map FrameOut.digest).drop k ∧
          (k + m ≤ frames.nframes.toNat → after.length = m)

variable {locals} in
/-- Where both processes return, they have no frame number of ten digits. -/
theorem Resumes.within {frame : UInt32} (resumes : Resumes locals frames k m frame) :
    k + m ≤ digestFrames ∨ frames.nframes.toNat ≤ digestFrames := by
  obtain ⟨before, c, whole, p, after, q, -, ran, -⟩ := resumes
  by_contra beyond
  rw [not_or, Nat.not_le, Nat.not_le] at beyond
  have alive : digestFrames < frames.last := by
    rw [Frames.last]
    omega
  have stray := init_at.turns_stray locals (m := k + m) (Nat.zero_le _) (by omega) alive
  cases ran.symm.trans stray

/-- What a state buffer rebuilds goes on exactly where no frame number has ten digits. -/
theorem onLoad_resumes_iff (frames : Frames) (k m : Nat)
    (alive : k = 0 ∨ k < frames.nframes.toNat) (frame : UInt32) :
    Resumes locals frames k m frame ↔ k + m ≤ digestFrames ∨ frames.nframes.toNat ≤ digestFrames := by
  refine ⟨Resumes.within, fun within => ?_⟩
  have alive' : k < frames.last := by
    rw [Frames.last]
    omega
  have within' : min (k + m) frames.last ≤ digestFrames := by
    have one : 1 ≤ digestFrames := by decide
    rw [Frames.last]
    omega
  obtain ⟨before, p, ran, -, stays⟩ := init_at.turns locals (m := k) (by omega : 0 < frames.last) (by omega)
  obtain ⟨c, rfl, at_k⟩ := stays (by omega)
  rw [Nat.zero_add] at at_k
  obtain ⟨whole, p, ranWhole, lines, -⟩ :=
    init_at.turns locals (m := k + m) (by omega : 0 < frames.last) (by omega)
  have small : k < 2 ^ 32 := by
    have := frames.nframes.toNat_lt
    omega
  let loaded : Cart := { fresh (some ⟨frame, c.store⟩) with store := c.store }
  have restored : At k (onLoad loaded) := onLoad_at small at_k.counter at_k.arcWord (Or.inl rfl)
  obtain ⟨after, q, ranAfter, lines', -⟩ := restored.turns locals alive' within'
  refine ⟨before, c, whole, p, after, q, ran, ranWhole, ranAfter, ?_, fun left => ?_⟩
  · have rest : min (k + m) frames.last - k = min m (frames.last - k) := by omega
    rw [lines', lines, ← List.map_drop, List.drop_range', Nat.sub_zero, rest]
    congr 2
    omega
  · have count := congrArg List.length lines'
    rw [List.length_map, List.length_map, List.length_range', Frames.last] at count
    omega

end

/-- Buffers of zeros. -/
def zeroed : ConsoleStub.Frame :=
  ⟨List.replicate 8 0, List.replicate 10 0, List.length_replicate, List.length_replicate⟩

/-- The frames of the source: a save behind 5 updates, of 30. -/
theorem onLoad_resumes_iff_five : Resumes (fun _ => zeroed) ⟨30, 5⟩ 5 25 5 :=
  (onLoad_resumes_iff (fun _ => zeroed) ⟨30, 5⟩ 5 25 (by decide) 5).mpr (by decide)

/-- Of a thousand million frames and one, the last leaves the buffer. -/
theorem onLoad_not_resumes : ¬ ∀ (locals : Cart → ConsoleStub.Frame) (frames : Frames) (k m : Nat) (frame : UInt32),
    k = 0 ∨ k < frames.nframes.toNat → Resumes locals frames k m frame := by
  intro all
  have within := (all (fun _ => zeroed) ⟨1000000001, 5⟩ 5 999999996 5 (by decide)).within
  revert within
  decide

end AllocCart
end Blyt
