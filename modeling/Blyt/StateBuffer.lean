import Blyt.Lib.Latest
import Blyt.Lib.Run
import Mathlib.Data.List.Induction

namespace Blyt
namespace StateBuffer
open Latest Run

def stateSlots : Nat := 256

/-- `state_store`. -/
abbrev StateStore := Vector UInt32 stateSlots

/-- `state_store[idx]`. -/
def load (store : StateStore) (idx : UInt32) : Exec UInt32 :=
  if inside : idx.toNat < stateSlots then .returns (store.get ⟨idx.toNat, inside⟩) else .outOfBounds

/-- `state_store[idx] = val`. -/
def save (store : StateStore) (idx val : UInt32) : Exec StateStore :=
  if inside : idx.toNat < stateSlots then .returns (store.set idx.toNat val inside) else .outOfBounds

/-! `libconsole_stub_ext.c`. -/
namespace SpikeO

def idx (slot field : UInt32) : UInt32 := (slot &&& 0xff) * 16 + (field &&& 0xff)

def blyt32StateGetU32 (store : StateStore) (slot field : UInt32) : Exec UInt32 := load store (idx slot field)

def blyt32StateSetU32 (store : StateStore) (slot field val : UInt32) : Exec StateStore :=
  save store (idx slot field) val

end SpikeO

/-! `console_spike_p.c`. -/
namespace SpikeP

def idx (slot field : UInt32) : UInt32 := (slot &&& 0x0f) * 16 + (field &&& 0x0f)

def blyt32StateGetU32 (store : StateStore) (slot field : UInt32) : Exec UInt32 :=
  if (idx slot field).toNat ≥ stateSlots then .returns 0 else load store (idx slot field)

def blyt32StateSetU32 (store : StateStore) (slot field val : UInt32) : Exec StateStore :=
  if (idx slot field).toNat < stateSlots then save store (idx slot field) val else .returns store

end SpikeP

/-- The two libraries a cart can be linked with. -/
inductive Console where
  | spikeO
  | spikeP
  deriving DecidableEq, Repr

namespace Console

def idx : Console → UInt32 → UInt32 → UInt32
  | spikeO => SpikeO.idx
  | spikeP => SpikeP.idx

def blyt32StateGetU32 : Console → StateStore → UInt32 → UInt32 → Exec UInt32
  | spikeO => SpikeO.blyt32StateGetU32
  | spikeP => SpikeP.blyt32StateGetU32

def blyt32StateSetU32 : Console → StateStore → UInt32 → UInt32 → UInt32 → Exec StateStore
  | spikeO => SpikeO.blyt32StateSetU32
  | spikeP => SpikeP.blyt32StateSetU32

end Console

inductive Call where
  | get (slot field : UInt32)
  | set (slot field val : UInt32)
  deriving DecidableEq, Repr

namespace Call

def slot : Call → UInt32
  | get slot _ => slot
  | set slot _ _ => slot

def field : Call → UInt32
  | get _ field => field
  | set _ field _ => field

/-- The value that a call sets for a pair. -/
def sets : Call → UInt32 × UInt32 → Option UInt32
  | get _ _, _ => none
  | set slot field val, pair => if (slot, field) = pair then some val else none

/-- The value that a call stores at an index. -/
def stores (c : Console) : Call → UInt32 → Option UInt32
  | get _ _, _ => none
  | set slot field val, i => if c.idx slot field = i then some val else none

end Call

/-- The array, and the calls so far. -/
structure Session where
  store : StateStore
  log : List Call

namespace Session

def start : Session := ⟨Vector.replicate stateSlots 0, []⟩

def call (c : Console) (s : Session) : Call → Exec Session
  | .get slot field => do
    let _ ← c.blyt32StateGetU32 s.store slot field
    return ⟨s.store, s.log ++ [.get slot field]⟩
  | .set slot field val => do
    let store ← c.blyt32StateSetU32 s.store slot field val
    return ⟨store, s.log ++ [.set slot field val]⟩

/-- What was last set for a pair. -/
def lastSet (s : Session) (slot field : UInt32) : UInt32 := (latest Call.sets s.log (slot, field)).getD 0

/-- What was last stored at an index, for whatever pair. -/
def lastStored (c : Console) (s : Session) (i : UInt32) : UInt32 := (latest (Call.stores c) s.log i).getD 0

end Session

def Step (c : Console) (x : Exec Session) (call : Call) (x' : Exec Session) : Prop :=
  ∃ s, x = .returns s ∧ x' = s.call c call

/-- The call stays in the array, and a `get` returns what was last set for its pair. -/
def ReadsOwn (c : Console) (x : Exec Session) (call : Call) (x' : Exec Session) : Prop :=
  ∀ s, x = .returns s → (∃ s', x' = .returns s') ∧ match call with
    | .get slot field => c.blyt32StateGetU32 s.store slot field = .returns (s.lastSet slot field)
    | .set _ _ _ => True

/-- The index is one of the array, and for a `get` no other pair with this index was set to another value since the
pair was set itself. -/
def Unshared (c : Console) (x : Exec Session) (call : Call) (_ : Exec Session) : Prop :=
  ∀ s, x = .returns s → (c.idx call.slot call.field).toNat < stateSlots ∧ match call with
    | .get slot field => s.lastStored c (c.idx slot field) = s.lastSet slot field
    | .set _ _ _ => True

/-- Every word of the array is what was last stored there. -/
def Tracks (c : Console) (s : Session) : Prop :=
  ∀ i, load s.store i = if i.toNat < stateSlots then .returns (s.lastStored c i) else .outOfBounds

section
variable {c : Console} {s : Session} {slot field val : UInt32}

theorem spikeP_idx_lt (slot field : UInt32) : (SpikeP.idx slot field).toNat < stateSlots := by
  have low : ∀ x : UInt32, (x &&& 0x0f).toNat ≤ 15 := by
    intro x
    rw [UInt32.toNat_and]
    exact Nat.and_le_right
  have slots := low slot
  have fields := low field
  have sixteen : UInt32.toNat 16 = 16 := rfl
  rw [SpikeP.idx, UInt32.toNat_add, UInt32.toNat_mul, stateSlots, sixteen]
  omega

/-- The guards of `console_spike_p.c` are always passed. -/
theorem get_eq_load (c : Console) (store : StateStore) (slot field : UInt32) :
    c.blyt32StateGetU32 store slot field = load store (c.idx slot field) := by
  cases c with
  | spikeO => rfl
  | spikeP => exact if_neg (Nat.not_le.mpr (spikeP_idx_lt slot field))

theorem set_eq_save (c : Console) (store : StateStore) (slot field val : UInt32) :
    c.blyt32StateSetU32 store slot field val = save store (c.idx slot field) val := by
  cases c with
  | spikeO => rfl
  | spikeP => exact if_pos (spikeP_idx_lt slot field)

theorem Tracks.start (c : Console) : Tracks c .start := by
  intro i
  rw [load]
  split
  · exact congrArg Exec.returns (Vector.getElem_replicate _)
  · rfl

theorem load_save {store store' : StateStore} {i : UInt32} (saved : save store i val = .returns store') (j : UInt32) :
    load store' j = if i = j then .returns val else load store j := by
  rw [save] at saved
  split at saved
  · rename_i inside
    cases saved
    rw [load]
    by_cases same : i = j
    · subst same
      rw [dif_pos inside, if_pos rfl]
      exact congrArg Exec.returns (Vector.getElem_set_self _)
    · have apart : i.toNat ≠ j.toNat := fun equal => same (UInt32.toNat_inj.mp equal)
      rw [if_neg same, load]
      split
      · exact congrArg Exec.returns (Vector.getElem_set_ne _ _ apart)
      · rfl
  · cases saved

/-- What a call does, by the word at its index. -/
inductive CallStep (c : Console) (s : Session) : Call → Exec Session → Prop
  | get {slot field : UInt32} (store : StateStore) : s.store = store → (c.idx slot field).toNat < stateSlots →
      CallStep c s (.get slot field) (.returns ⟨store, s.log ++ [.get slot field]⟩)
  | set {slot field val : UInt32} (store : StateStore) : save s.store (c.idx slot field) val = .returns store →
      (c.idx slot field).toNat < stateSlots →
      CallStep c s (.set slot field val) (.returns ⟨store, s.log ++ [.set slot field val]⟩)
  | beyond {call : Call} : stateSlots ≤ (c.idx call.slot call.field).toNat → CallStep c s call .outOfBounds

theorem call_step (c : Console) (s : Session) (call : Call) : CallStep c s call (s.call c call) := by
  cases call with
  | get slot field =>
    rw [Session.call, get_eq_load, load]
    split
    · rename_i inside
      exact .get s.store rfl inside
    · rename_i beyond
      exact .beyond (Nat.not_lt.mp beyond)
  | set slot field val =>
    rw [Session.call, set_eq_save]
    by_cases inside : (c.idx slot field).toNat < stateSlots
    · rw [save, dif_pos inside]
      exact .set _ (dif_pos inside) inside
    · rw [save, dif_neg inside]
      exact .beyond (Nat.not_lt.mp inside)

theorem lastStored_snoc (store : StateStore) (log : List Call) (call : Call) (i : UInt32) :
    Session.lastStored c ⟨store, log ++ [call]⟩ i = ((call.stores c i).or (latest (Call.stores c) log i)).getD 0 := by
  rw [Session.lastStored, latest_snoc]

theorem Tracks.call {call : Call} {s' : Session} (tracks : Tracks c s) (ran : s.call c call = .returns s') :
    Tracks c s' := by
  have step := call_step c s call
  rw [ran] at step
  cases step with
  | get store same inside =>
    subst same
    intro j
    rw [lastStored_snoc]
    exact tracks j
  | @set slot field val store saved inside =>
    intro j
    rw [load_save saved, tracks j, lastStored_snoc, Call.stores]
    by_cases same : c.idx slot field = j
    · subst same
      rw [if_pos rfl, if_pos rfl, if_pos inside]
      rfl
    · rw [if_neg same, if_neg same]
      rfl

theorem Tracks.get_iff (tracks : Tracks c s) (inside : (c.idx slot field).toNat < stateSlots) :
    c.blyt32StateGetU32 s.store slot field = .returns (s.lastSet slot field) ↔
      s.lastStored c (c.idx slot field) = s.lastSet slot field := by
  rw [get_eq_load, tracks, if_pos inside, Exec.returns.injEq]

theorem Tracks.call_iff {call : Call} (tracks : Tracks c s) :
    Unshared c (.returns s) call (s.call c call) ↔ ReadsOwn c (.returns s) call (s.call c call) := by
  have step := call_step c s call
  constructor
  · rintro unshared _ ⟨⟩
    obtain ⟨inside, own⟩ := unshared s rfl
    generalize s.call c call = x' at step ⊢
    cases step with
    | get => exact ⟨⟨_, rfl⟩, (tracks.get_iff inside).mpr own⟩
    | set => exact ⟨⟨_, rfl⟩, trivial⟩
    | beyond behind => omega
  · rintro reads _ ⟨⟩
    obtain ⟨⟨s', ran⟩, own⟩ := reads s rfl
    rw [ran] at step
    cases step with
    | get _ _ inside => exact ⟨inside, (tracks.get_iff inside).mp own⟩
    | set _ _ inside => exact ⟨inside, trivial⟩

/-- In every run every call stays in the array and reads its own pair exactly if no index leaves the array and no
`get` meets another pair's value at its index. -/
theorem reads_own_iff (c : Console) (calls : List Call) :
    Throughout (Step c) (Unshared c) (.returns .start) calls ↔
      Throughout (Step c) (ReadsOwn c) (.returns .start) calls := by
  refine throughout_iff (fun x => ∃ s, x = .returns s ∧ Tracks c s) ?_ ?_ ⟨_, rfl, .start c⟩ calls
  · rintro _ call _ ⟨s, rfl, tracks⟩ ⟨_, same, rfl⟩
    cases same
    exact tracks.call_iff
  · rintro _ call _ ⟨s, rfl, tracks⟩ ⟨_, same, rfl⟩ reads
    cases same
    obtain ⟨⟨s', ran⟩, -⟩ := reads s rfl
    exact ⟨s', ran, tracks.call ran⟩

end

/-- Both numbers are below 16, as the comments on `state_store` have it of the fields. -/
def Call.Small (call : Call) : Prop := call.slot.toNat < 16 ∧ call.field.toNat < 16

section
variable {c : Console} {slot field slot' field' : UInt32}

theorem idx_toNat (c : Console) (small : slot.toNat < 16 ∧ field.toNat < 16) :
    (c.idx slot field).toNat = slot.toNat * 16 + field.toNat := by
  have sixteen : UInt32.toNat 16 = 16 := rfl
  have byte : ∀ x : UInt32, x.toNat < 16 → (x &&& 0xff).toNat = x.toNat := by
    intro x below
    have mask : UInt32.toNat 0xff = 2 ^ 8 - 1 := rfl
    rw [UInt32.toNat_and, mask, Nat.and_two_pow_sub_one_eq_mod]
    omega
  have nibble : ∀ x : UInt32, x.toNat < 16 → (x &&& 0x0f).toNat = x.toNat := by
    intro x below
    have mask : UInt32.toNat 0x0f = 2 ^ 4 - 1 := rfl
    rw [UInt32.toNat_and, mask, Nat.and_two_pow_sub_one_eq_mod]
    omega
  cases c with
  | spikeO =>
    rw [Console.idx, SpikeO.idx, UInt32.toNat_add, UInt32.toNat_mul, byte slot small.1, byte field small.2, sixteen]
    omega
  | spikeP =>
    rw [Console.idx, SpikeP.idx, UInt32.toNat_add, UInt32.toNat_mul, nibble slot small.1, nibble field small.2, sixteen]
    omega

theorem idx_inj (c : Console) (small : slot.toNat < 16 ∧ field.toNat < 16)
    (small' : slot'.toNat < 16 ∧ field'.toNat < 16) :
    c.idx slot field = c.idx slot' field' ↔ (slot, field) = (slot', field') := by
  rw [← UInt32.toNat_inj, idx_toNat c small, idx_toNat c small', Prod.mk.injEq, ← UInt32.toNat_inj, ← UInt32.toNat_inj]
  omega

theorem stores_eq_sets {call : Call} (c : Console) (small : slot.toNat < 16 ∧ field.toNat < 16) (callSmall : call.Small) :
    call.stores c (c.idx slot field) = call.sets (slot, field) := by
  cases call with
  | get _ _ => rfl
  | set slot' field' val => exact if_congr (idx_inj c callSmall small) rfl rfl

theorem lastStored_eq_lastSet {s : Session} (c : Console) (small : slot.toNat < 16 ∧ field.toNat < 16)
    (log : ∀ call ∈ s.log, call.Small) : s.lastStored c (c.idx slot field) = s.lastSet slot field := by
  rw [Session.lastStored, Session.lastSet]
  congr 1
  generalize s.log = calls at log ⊢
  induction calls using List.reverseRecOn with
  | nil => rfl
  | append_singleton calls call ih =>
    rw [latest_snoc, latest_snoc, stores_eq_sets c small (log call (by simp)),
      ih fun earlier member => log earlier (List.mem_append_left _ member)]

/-- Where slots and fields are below 16, no call goes wrong. -/
theorem reads_own_of_small {calls : List Call}
    (small : Throughout (Step c) (fun _ call _ => call.Small) (.returns .start) calls) :
    Throughout (Step c) (ReadsOwn c) (.returns .start) calls := by
  refine (reads_own_iff c calls).mp ?_
  refine small.of_invariant (fun x => ∃ s, x = .returns s ∧ ∀ call ∈ s.log, call.Small) ?_ ⟨_, rfl, nofun⟩
  rintro _ call _ ⟨s, rfl, log⟩ ⟨_, same, rfl⟩ callSmall
  cases same
  have inside : (c.idx call.slot call.field).toNat < stateSlots := by
    have bounds := callSmall
    rw [Call.Small] at bounds
    rw [idx_toNat c callSmall, stateSlots]
    omega
  have after : ∀ earlier ∈ s.log ++ [call], earlier.Small := by
    intro earlier member
    rcases List.mem_append.mp member with old | new
    · exact log earlier old
    · rw [List.mem_singleton.mp new]
      exact callSmall
  have step := call_step c s call
  generalize s.call c call = x' at step ⊢
  refine ⟨?_, ?_⟩
  · cases step with
    | get | set => exact ⟨_, rfl, after⟩
    | beyond behind => omega
  · rintro _ ⟨⟩
    refine ⟨inside, ?_⟩
    cases call with
    | get slot field => exact lastStored_eq_lastSet c callSmall log
    | set _ _ _ => trivial

end

/-- One library leaves the array; in the other a field of slot 0 reads what was set in another field. -/
theorem reads_not_own : ¬ Throughout (Step .spikeO) (ReadsOwn .spikeO) (.returns .start) [.set 255 255 1] ∧
    ¬ Throughout (Step .spikeP) (ReadsOwn .spikeP) (.returns .start) [.set 0 0 1, .get 0 16] := by
  constructor
  · intro met
    obtain ⟨⟨s', ran⟩, -⟩ := (met _ ⟨_, rfl, rfl⟩).1 _ rfl
    cases ran
  · intro met
    obtain ⟨-, rest⟩ := met _ ⟨_, rfl, rfl⟩
    obtain ⟨-, own⟩ := (rest _ ⟨_, rfl, rfl⟩).1 _ rfl
    have read : (Exec.returns 1 : Exec UInt32) = .returns 0 := own
    cases read

end StateBuffer
end Blyt
