import Blyt.Lib.Exec
import Blyt.RuntimeTracked
import Mathlib.Logic.Function.Basic

namespace Blyt
open Packed
variable {ι : Type}

def fnv1a64Offset : UInt64 := 0xcbf29ce484222325
def fnv1a64Prime : UInt64 := 0x00000100000001b3

def fnv1a64Bytes (bs : List UInt8) : UInt64 :=
  bs.foldl (fun h b => (h ^^^ b.toUInt64) * fnv1a64Prime) fnv1a64Offset

def saveStateMagic : UInt32 := 0x46433253
def saveStateVersion : UInt32 := 1

structure SaveStateHeader where
  magic : UInt32
  version : UInt32
  layoutHash : UInt64
  frame : UInt32
  totalSize : UInt32
  deriving DecidableEq

def saveStateHeader : Codec SaveStateHeader :=
  (Codec.u32.prod (Codec.u32.prod (Codec.u64.prod (Codec.u32.prod Codec.u32)))).map
    { toFun := fun ⟨magic, version, layoutHash, frame, totalSize⟩ =>
        ⟨magic, version, layoutHash, frame, totalSize⟩
      invFun := fun h => (h.magic, h.version, h.layoutHash, h.frame, h.totalSize)
      left_inv := fun _ => rfl
      right_inv := fun _ => rfl }

theorem saveStateHeader_size : saveStateHeader.size = 24 := rfl

/-- The bytes `buf[0..size)` a caller hands over with a 32-bit size. -/
structure ByteSpan where
  bytes : List UInt8
  size_lt : bytes.length < 2 ^ 32

/-- The sink `save_state_init` describes the registry into: 4096 bytes of scratch. -/
def describeSink (R : Registry ι) : StringSink := runtimeTrackedDescribe R ⟨[], 4096, false⟩

/-- The process-wide state: the static objects of the regions and the cached
layout hash, which is the hash of this registry's description once set. -/
structure Runtime (R : Registry ι) where
  store : ι → List UInt8
  layoutHash : UInt64
  initialized : Bool
  cached : initialized = true →
    (describeSink R).overflowed = false ∧ layoutHash = fnv1a64Bytes (describeSink R).buf

variable {R : Registry ι}

/-- The same process with other region contents. -/
def Runtime.withStore (rt : Runtime R) (store : ι → List UInt8) : Runtime R := { rt with store := store }

def Runtime.boot (R : Registry ι) (store : ι → List UInt8) : Runtime R :=
  ⟨store, 0, false, nofun⟩

/-- `save_state_init`. A description that does not fit stops in the panic loop. -/
def saveStateInit (rt : Runtime R) : Exec (Runtime R) :=
  if fits : (describeSink R).overflowed = false then
    .returns { rt with
      layoutHash := fnv1a64Bytes (describeSink R).buf
      initialized := true
      cached := fun _ => ⟨fits, rfl⟩ }
  else .spins

/-- `if (!g_initialized) save_state_init();` -/
def ensureInit (rt : Runtime R) : Exec (Runtime R) :=
  if rt.initialized then .returns rt else saveStateInit rt

def saveStateBufferCapacity (R : Registry ι) : UInt32 := 24 + runtimeTrackedTotalSize R

/-- The loop of `save_state_save`: each region canonicalizes its object and
writes its bytes behind those of the region before it. -/
def saveRegions [DecidableEq ι] : List (RuntimeTrackedRegion ι) → (ι → List UInt8) →
    List UInt8 × (ι → List UInt8)
  | [], st => ([], st)
  | r :: rs, st =>
    let (image, cell) := r.save (st r.storage)
    let (body, st) := saveRegions rs (Function.update st r.storage cell)
    (image ++ body, st)

/-- What a returning `save_state_save` leaves: its result, the bytes it wrote
from `buf` on, and the state. -/
structure SaveResult (R : Registry ι) where
  ret : UInt32
  written : List UInt8
  rt : Runtime R

def saveStateSave [DecidableEq ι] (rt : Runtime R) (cap frame : UInt32) : Exec (SaveResult R) := do
  let rt ← ensureInit rt
  let need := saveStateBufferCapacity R
  if cap < need then return ⟨0, [], rt⟩
  let header := saveStateHeader.encode ⟨saveStateMagic, saveStateVersion, rt.layoutHash, frame, need⟩
  let (body, store) := saveRegions R.regions rt.store
  -- `need` is a 32-bit sum, so a larger body would run past the caller's `cap` bytes
  if (header ++ body).length > cap.toNat then .outOfBounds
  else return ⟨need, header ++ body, rt.withStore store⟩

/-- The loop of `save_state_load` from offset `p`; `stop` is the offset of `end`. -/
def loadRegions [DecidableEq ι] (buf : List UInt8) (stop : Nat) :
    List (RuntimeTrackedRegion ι) → Nat → (ι → List UInt8) → Bool × (ι → List UInt8)
  | [], p, st => (p == stop, st)
  | r :: rs, p, st =>
    if p + r.size.toNat > stop then (false, st)
    else
      let (ok, cell) := r.load ((buf.drop p).take r.size.toNat) (st r.storage)
      let st := Function.update st r.storage cell
      if ok then loadRegions buf stop rs (p + r.size.toNat) st else (false, st)

def headerOf (buf : ByteSpan) : SaveStateHeader := saveStateHeader.decode (buf.bytes.take 24)

theorem headerOf_append {buf : ByteSpan} {h : SaveStateHeader} {body : List UInt8}
    (bytes : buf.bytes = saveStateHeader.encode h ++ body) : headerOf buf = h := by
  have header := saveStateHeader.length_encode h
  rw [saveStateHeader_size] at header
  rw [headerOf, bytes, List.take_left' header]
  exact saveStateHeader.decode_encode h

def saveStateLoad [DecidableEq ι] (rt : Runtime R) (buf : ByteSpan) : Exec (Bool × Runtime R) := do
  if buf.bytes.length < 24 then return (false, rt)
  let h := headerOf buf
  if h.magic ≠ saveStateMagic then return (false, rt)
  if h.version ≠ saveStateVersion then return (false, rt)
  let rt ← ensureInit rt
  if h.layoutHash ≠ rt.layoutHash then return (false, rt)
  if h.totalSize.toNat > buf.bytes.length then return (false, rt)
  if h.totalSize ≠ saveStateBufferCapacity R then return (false, rt)
  let (ok, store) := loadRegions buf.bytes h.totalSize.toNat R.regions 24 rt.store
  return (ok, rt.withStore store)

/-- The layout hash of a registry, as `save_state_init` computes it. -/
def registryHash (R : Registry ι) : UInt64 := fnv1a64Bytes (describeSink R).buf

theorem Runtime.layoutHash_eq (rt : Runtime R) (started : rt.initialized = true) :
    rt.layoutHash = registryHash R := (rt.cached started).2

/-- The description fits the scratch buffer of `save_state_init`. -/
def Describable (R : Registry ι) : Prop := (describeSink R).overflowed = false

theorem describable_iff : Describable R ↔ (layoutText R).length ≤ 4096 := by
  have spec := stringSinkPuts_spec ⟨[], 4096, false⟩ (layoutText R) (Nat.zero_le _)
  rw [Describable, describeSink, runtimeTrackedDescribe_eq, spec]
  simp

theorem Describable.registryHash_eq (fits : Describable R) : registryHash R = fnv1a64Bytes (layoutText R) := by
  have spec := stringSinkPuts_spec ⟨[], 4096, false⟩ (layoutText R) (Nat.zero_le _)
  have whole : (layoutText R).take 4096 = layoutText R := List.take_of_length_le (describable_iff.mp fits)
  rw [registryHash, describeSink, runtimeTrackedDescribe_eq, spec]
  exact congrArg fnv1a64Bytes whole

theorem Describable.length_le (fits : Describable R) : R.regions.length ≤ 256 := by
  have text := layoutText_length R
  have bound := describable_iff.mp fits
  omega

theorem bodySize_le {rs : List (RuntimeTrackedRegion ι)} {k : Nat}
    (bound : ∀ r ∈ rs, r.size.toNat ≤ k) : bodySize rs ≤ rs.length * k := by
  induction rs with
  | nil => simp
  | cons r rs ih =>
    have first := bound r List.mem_cons_self
    have rest := ih fun r member => bound r (List.mem_cons_of_mem _ member)
    rw [bodySize_cons, List.length_cons, Nat.succ_mul]
    omega

theorem saveStateBufferCapacity_toNat (R : Registry ι) :
    (saveStateBufferCapacity R).toNat = (24 + bodySize R.regions) % 2 ^ 32 := by
  have header : (24 : UInt32).toNat = 24 := rfl
  rw [saveStateBufferCapacity, UInt32.toNat_add, runtimeTrackedTotalSize_toNat, header]
  omega

/-- The sizes of the regions of this repository cannot wrap the 32-bit sum of
a registry whose description fits. -/
theorem Describable.capacity_exact (fits : Describable R) (bound : ∀ r ∈ R.regions, r.size.toNat ≤ 16520) :
    (saveStateBufferCapacity R).toNat = 24 + bodySize R.regions := by
  have count := fits.length_le
  have body := bodySize_le bound
  have few := Nat.mul_le_mul_right 16520 count
  rw [saveStateBufferCapacity_toNat]
  omega

/-- The process after a `save_state_init` that found room. -/
def Runtime.started (fits : Describable R) (store : ι → List UInt8) : Runtime R :=
  ⟨store, registryHash R, true, fun _ => ⟨fits, rfl⟩⟩

theorem saveStateInit_returns (rt : Runtime R) (fits : Describable R) :
    ∃ rt', saveStateInit rt = .returns rt' ∧ rt'.store = rt.store ∧ rt'.initialized = true := by
  rw [Describable] at fits
  rw [saveStateInit, dif_pos fits]
  exact ⟨_, rfl, rfl, rfl⟩

theorem saveStateInit_spins (rt : Runtime R) (excess : ¬Describable R) : saveStateInit rt = .spins := by
  rw [Describable] at excess
  rw [saveStateInit, dif_neg excess]

/-- The guard every entry point opens with: the cached state, or a first initialisation. -/
theorem ensureInit_cases (rt : Runtime R) :
    (Describable R ∧ ∃ rt' : Runtime R, ensureInit rt = .returns rt' ∧
        rt'.store = rt.store ∧ rt'.initialized = true ∧ rt'.layoutHash = registryHash R) ∨
      (¬Describable R ∧ rt.initialized = false ∧ ensureInit rt = .spins) := by
  unfold ensureInit
  cases started : rt.initialized with
  | true =>
    obtain ⟨fits, hash⟩ := rt.cached started
    exact Or.inl ⟨fits, rt, rfl, rfl, started, hash⟩
  | false =>
    by_cases fits : Describable R
    · obtain ⟨rt', run, store, done⟩ := saveStateInit_returns rt fits
      exact Or.inl ⟨fits, rt', run, store, done, (rt'.cached done).2⟩
    · exact Or.inr ⟨fits, rfl, saveStateInit_spins rt fits⟩

/-- Every gate of `save_state_load` before the body. -/
structure HeaderAccepted (R : Registry ι) (buf : ByteSpan) : Prop where
  long : 24 ≤ buf.bytes.length
  magic : (headerOf buf).magic = saveStateMagic
  version : (headerOf buf).version = saveStateVersion
  described : Describable R
  layout : (headerOf buf).layoutHash = registryHash R
  within : (headerOf buf).totalSize.toNat ≤ buf.bytes.length
  exact : (headerOf buf).totalSize = saveStateBufferCapacity R

/-- The two ways through `save_state_load`: behind an accepted header the body
walk decides, and nothing before it touches a region. -/
theorem saveStateLoad_cases [DecidableEq ι] (rt : Runtime R) (buf : ByteSpan) :
    (HeaderAccepted R buf ∧ ∃ rt' : Runtime R,
        rt'.store = (loadRegions buf.bytes (headerOf buf).totalSize.toNat R.regions 24 rt.store).2 ∧
        rt'.initialized = true ∧
        saveStateLoad rt buf = .returns
          ((loadRegions buf.bytes (headerOf buf).totalSize.toNat R.regions 24 rt.store).1, rt')) ∨
      (¬HeaderAccepted R buf ∧ ((rt.initialized = false ∧ saveStateLoad rt buf = .spins) ∨
        ∃ rt' : Runtime R, rt'.store = rt.store ∧ saveStateLoad rt buf = .returns (false, rt'))) := by
  unfold saveStateLoad
  by_cases long : buf.bytes.length < 24
  · rw [if_pos long]
    exact Or.inr ⟨fun accepted => absurd accepted.long (by omega), Or.inr ⟨rt, rfl, rfl⟩⟩
  rw [if_neg long]
  by_cases magic : (headerOf buf).magic = saveStateMagic
  swap
  · rw [if_pos magic]
    exact Or.inr ⟨fun accepted => magic accepted.magic, Or.inr ⟨rt, rfl, rfl⟩⟩
  rw [if_neg (not_not.mpr magic)]
  by_cases version : (headerOf buf).version = saveStateVersion
  swap
  · rw [if_pos version]
    exact Or.inr ⟨fun accepted => version accepted.version, Or.inr ⟨rt, rfl, rfl⟩⟩
  rw [if_neg (not_not.mpr version)]
  rcases ensureInit_cases rt with ⟨fits, rt', run, store, started, hash⟩ | ⟨excess, cold, run⟩
  swap
  · rw [run]
    exact Or.inr ⟨fun accepted => excess accepted.described, Or.inl ⟨cold, rfl⟩⟩
  rw [run, Exec.returns_bind, ← store]
  by_cases layout : (headerOf buf).layoutHash = rt'.layoutHash
  swap
  · rw [if_pos layout]
    exact Or.inr ⟨fun accepted => layout (accepted.layout.trans hash.symm), Or.inr ⟨rt', rfl, rfl⟩⟩
  rw [if_neg (not_not.mpr layout)]
  by_cases within : (headerOf buf).totalSize.toNat > buf.bytes.length
  · rw [if_pos within]
    exact Or.inr ⟨fun accepted => absurd accepted.within (by omega), Or.inr ⟨rt', rfl, rfl⟩⟩
  rw [if_neg within]
  by_cases exact : (headerOf buf).totalSize = saveStateBufferCapacity R
  swap
  · rw [if_pos exact]
    exact Or.inr ⟨fun accepted => exact accepted.exact, Or.inr ⟨rt', rfl, rfl⟩⟩
  rw [if_neg (not_not.mpr exact)]
  exact Or.inl ⟨⟨by omega, magic, version, fits, layout.trans hash, by omega, exact⟩, rt'.withStore _, rfl, started, rfl⟩

end Blyt
