import Mathlib.Data.Finset.Max
import Mathlib.Data.Fintype.Basic
import Mathlib.Data.Nat.Bitwise
import Blyt.PersistentScripts
import Blyt.SaveState

namespace Blyt

/-- What a caller does to the slot table. -/
inductive SlotCall where
  | alloc
  | free (slot : Int)
  | write (slot : Int) (src : ByteSpan)
  | read (slot : Int) (cap : UInt32)

/-- What it gets: a slot or `-1`, nothing, whether the bytes were taken, or the bytes unless `-1`. -/
inductive SlotReply where
  | slot (s : Int)
  | done
  | ok (b : Bool)
  | bytes (bs : Option (List UInt8))
  deriving DecidableEq

/-- What the slot table is for: of every slot, the bytes it holds, if it is active. -/
abbrev ScriptSlots : Type :=
  Fin maxPersistentScripts → Option {bytes : List UInt8 // bytes.length ≤ persistentScriptSlotBytes}

namespace ScriptSlots

def empty : ScriptSlots := fun _ => none

/-- The slots that are not active. -/
def idle (m : ScriptSlots) : Finset (Fin maxPersistentScripts) := Finset.univ.filter fun s => (m s).isNone

/-- The active slot of that number. -/
def active (m : ScriptSlots) (slot : Int) : Option (Fin maxPersistentScripts) :=
  (PersistentScripts.slotInRange slot).filter fun s => (m s).isSome

def bytes (m : ScriptSlots) (s : Fin maxPersistentScripts) : List UInt8 := ((m s).map Subtype.val).getD []

/-- The least idle slot becomes active, a slot is made idle, and what is written is what is read. -/
def serve (m : ScriptSlots) : SlotCall → ScriptSlots × SlotReply
  | .alloc =>
    if room : m.idle.Nonempty then
      (Function.update m (m.idle.min' room) (some ⟨[], Nat.zero_le _⟩), .slot (m.idle.min' room).val)
    else (m, .slot (-1))
  | .free slot =>
    match m.active slot with
    | some s => (Function.update m s none, .done)
    | none => (m, .done)
  | .write slot src =>
    match m.active slot with
    | some s =>
      if fits : src.bytes.length ≤ persistentScriptSlotBytes then (Function.update m s (some ⟨src.bytes, fits⟩), .ok true)
      else (m, .ok false)
    | none => (m, .ok false)
  | .read slot cap =>
    match m.active slot with
    | some s => (m, .bytes (if (m.bytes s).length ≤ cap.toNat then some (m.bytes s) else none))
    | none => (m, .bytes none)

def serveAll (m : ScriptSlots) : List SlotCall → ScriptSlots × List SlotReply
  | [] => (m, [])
  | call :: calls =>
    let (m, reply) := m.serve call
    let (m, replies) := m.serveAll calls
    (m, reply :: replies)

end ScriptSlots

namespace PersistentScripts

def serve (p : PersistentScripts) : SlotCall → PersistentScripts × SlotReply
  | .alloc => (p.alloc.1, .slot p.alloc.2)
  | .free slot => (p.free slot, .done)
  | .write slot src => ((p.write slot src.bytes).1, .ok (p.write slot src.bytes).2)
  | .read slot cap => (p, .bytes (p.read slot cap.toNat))

def serveAll (p : PersistentScripts) : List SlotCall → PersistentScripts × List SlotReply
  | [] => (p, [])
  | call :: calls =>
    let (p, reply) := p.serve call
    let (p, replies) := p.serveAll calls
    (p, reply :: replies)

/-- The one table that stands for the slots: what is not in use is zero. -/
def ofSlots (m : ScriptSlots) : PersistentScripts where
  activeBits w := UInt32.ofNat (Nat.ofBits fun i : Fin 32 => (m ⟨32 * w + i, by show _ < 64; omega⟩).isSome)
  slotLens s := UInt16.ofNat (m.bytes s).length
  slots s i := (m.bytes s).getD i 0

variable {p : PersistentScripts} {m : ScriptSlots} {s : Fin maxPersistentScripts}

theorem activeBits_eq (p : PersistentScripts) (w : Fin 2) :
    p.activeBits w = UInt32.ofNat (Nat.ofBits fun i : Fin 32 => p.bitGet ⟨32 * w + i, by show _ < 64; omega⟩) := by
  have bits : (fun i : Fin 32 => p.bitGet ⟨32 * w + i, by show _ < 64; omega⟩) =
      fun i : Fin 32 => (p.activeBits w).toNat.testBit i := by
    funext i
    have word : wordOf ⟨32 * w + i, by show _ < 64; omega⟩ = w := by
      ext
      show (32 * w.val + i.val) / 32 = w.val
      omega
    rw [bitGet_eq, word]
    congr 1
    show (32 * w.val + i.val) % 32 = i.val
    omega
  rw [bits, Nat.ofBits_testBit, ← UInt32.toNat_inj, UInt32.toNat_ofNat', Nat.mod_mod]
  exact (Nat.mod_eq_of_lt (p.activeBits w).toNat_lt).symm

/-- A table is what its bits, its lengths and its bytes are. -/
theorem eq_ofSlots (bits : ∀ s, p.bitGet s = (m s).isSome) (lens : ∀ s, p.slotLens s = UInt16.ofNat (m.bytes s).length)
    (slots : ∀ s i, p.slots s i = (m.bytes s).getD i 0) : p = ofSlots m := by
  cases p with
  | mk activeBits slotLens slotBytes =>
    rw [ofSlots, mk.injEq]
    refine ⟨funext fun w => ?_, funext lens, funext fun s => funext (slots s)⟩
    have own := activeBits_eq ⟨activeBits, slotLens, slotBytes⟩ w
    simp only [bits] at own
    exact own

@[simp] theorem bitGet_ofSlots (m : ScriptSlots) (s : Fin maxPersistentScripts) : (ofSlots m).bitGet s = (m s).isSome := by
  have inside : s.val % 32 < 32 := Nat.mod_lt _ (by decide)
  have same : (⟨32 * (wordOf s).val + s.val % 32, by show _ < 64; omega⟩ : Fin maxPersistentScripts) = s :=
    Fin.ext (Nat.div_add_mod s.val 32)
  rw [bitGet_eq, ofSlots]
  simp only
  rw [UInt32.toNat_ofNat_of_lt' (Nat.ofBits_lt_two_pow _), Nat.testBit_ofBits_lt _ _ inside]
  simp only [same]

end PersistentScripts

namespace ScriptSlots
variable {m : ScriptSlots} {s : Fin maxPersistentScripts} {slot : Int}

theorem bytes_length_le (m : ScriptSlots) (s : Fin maxPersistentScripts) :
    (m.bytes s).length ≤ persistentScriptSlotBytes := by
  rw [bytes]
  cases m s with
  | none => exact Nat.zero_le _
  | some b => exact b.property

theorem bytes_update (m : ScriptSlots) (s : Fin maxPersistentScripts)
    (b : Option {bytes : List UInt8 // bytes.length ≤ persistentScriptSlotBytes}) :
    bytes (Function.update m s b) = Function.update m.bytes s ((b.map Subtype.val).getD []) := by
  funext t
  by_cases same : t = s
  · rw [same, bytes, Function.update_self, Function.update_self]
  · rw [bytes, Function.update_of_ne same, Function.update_of_ne same, bytes]

theorem isSome_update (m : ScriptSlots) (s : Fin maxPersistentScripts)
    (b : Option {bytes : List UInt8 // bytes.length ≤ persistentScriptSlotBytes}) :
    (fun t => (Function.update m s b t).isSome) = Function.update (fun t => (m t).isSome) s b.isSome := by
  funext t
  by_cases same : t = s
  · rw [same, Function.update_self, Function.update_self]
  · rw [Function.update_of_ne same, Function.update_of_ne same]

theorem mem_idle : s ∈ m.idle ↔ m s = none := by
  rw [idle, Finset.mem_filter, Option.isNone_iff_eq_none]
  exact and_iff_right (Finset.mem_univ s)

theorem active_eq_some : m.active slot = some s ↔ slot = s ∧ (m s).isSome := by
  rw [active, Option.filter_eq_some_iff, PersistentScripts.slotInRange_eq_some]

end ScriptSlots

namespace PersistentScripts
variable {m : ScriptSlots} {s : Fin maxPersistentScripts}

theorem reset_eq_ofSlots : reset = ofSlots .empty :=
  eq_ofSlots (fun s => by rw [bitGet_eq]; exact Nat.zero_testBit _) (fun _ => rfl) fun _ _ => rfl

theorem slotLens_ofSlots (m : ScriptSlots) (s : Fin maxPersistentScripts) :
    ((ofSlots m).slotLens s).toNat = (m.bytes s).length :=
  UInt16.toNat_ofNat_of_lt' (Nat.lt_of_le_of_lt (m.bytes_length_le s) (by decide))

theorem blob_ofSlots (m : ScriptSlots) (s : Fin maxPersistentScripts) : (ofSlots m).blob s = m.bytes s := by
  rw [blob, slotLens_ofSlots]
  refine List.ext_getElem (by simpa using m.bytes_length_le s) fun i before inside => ?_
  rw [List.getElem_take, List.getElem_ofFn]
  exact List.getD_eq_getElem _ 0 inside

theorem slotInRange_active {slot : Int} (active : m.active slot = some s) :
    slotInRange slot = some s ∧ (ofSlots m).bitGet s = true := by
  obtain ⟨rfl, holds⟩ := ScriptSlots.active_eq_some.mp active
  exact ⟨slotInRange_coe s, (bitGet_ofSlots m s).trans holds⟩

/-- No slot of that number is active. -/
theorem slotInRange_idle {slot : Int} (missing : m.active slot = none) :
    slotInRange slot = none ∨ ∃ s, slotInRange slot = some s ∧ (ofSlots m).bitGet s = false := by
  cases range : slotInRange slot with
  | none => exact .inl rfl
  | some s =>
    refine .inr ⟨s, rfl, Bool.eq_false_iff.mpr fun busy => ?_⟩
    rw [bitGet_ofSlots] at busy
    rw [ScriptSlots.active_eq_some.mpr ⟨slotInRange_eq_some.mp range, busy⟩] at missing
    cases missing

theorem eq_ofSlots_update {p : PersistentScripts} (b : Option {bytes : List UInt8 // bytes.length ≤ persistentScriptSlotBytes})
    (bits : p.bitGet = Function.update (ofSlots m).bitGet s b.isSome)
    (lens : p.slotLens = Function.update (ofSlots m).slotLens s (UInt16.ofNat ((b.map Subtype.val).getD []).length))
    (slots : p.slots = Function.update (ofSlots m).slots s fun i => ((b.map Subtype.val).getD []).getD i 0) :
    p = ofSlots (Function.update m s b) := by
  refine eq_ofSlots (fun t => ?_) (fun t => ?_) fun t i => ?_
  · rw [bits, funext (bitGet_ofSlots m)]
    exact (congrFun (ScriptSlots.isSome_update m s b) t).symm
  · rw [lens, ScriptSlots.bytes_update]
    by_cases same : t = s
    · rw [same, Function.update_self, Function.update_self]
    · rw [Function.update_of_ne same, Function.update_of_ne same]
      rfl
  · rw [slots, ScriptSlots.bytes_update]
    by_cases same : t = s
    · rw [same, Function.update_self, Function.update_self]
    · rw [Function.update_of_ne same, Function.update_of_ne same]
      rfl

theorem alloc_ofSlots (m : ScriptSlots) :
    (ofSlots m).serve .alloc = (ofSlots (m.serve .alloc).1, (m.serve .alloc).2) := by
  rw [serve, ScriptSlots.serve]
  rcases alloc_cases (ofSlots m) with ⟨s, first, ran⟩ | ⟨full, ran⟩
  · obtain ⟨free, least⟩ := FirstFit.firstFree_eq_some first
    rw [bitGet_ofSlots, Option.isSome_eq_false_iff, Option.isNone_iff_eq_none] at free
    have member : s ∈ m.idle := ScriptSlots.mem_idle.mpr free
    have lowest : m.idle.min' ⟨s, member⟩ = s := by
      have idle := ScriptSlots.mem_idle.mp (m.idle.min'_mem ⟨s, member⟩)
      refine le_antisymm (m.idle.min'_le _ member) (least _ ?_)
      rw [bitGet_ofSlots, idle, Option.isSome_none]
    have nothing : m.bytes s = [] := by rw [ScriptSlots.bytes, free, Option.map_none, Option.getD_none]
    rw [dif_pos ⟨s, member⟩, lowest, ran]
    refine Prod.ext (eq_ofSlots_update _ (bitGet_bitSet _ _) (Function.eq_update_self_iff.mpr ?_)
      (Function.eq_update_self_iff.mpr ?_)) rfl
    · show UInt16.ofNat (m.bytes s).length = _
      rw [nothing]
      rfl
    · show (fun i : Fin persistentScriptSlotBytes => (m.bytes s).getD i 0) = _
      rw [nothing]
      rfl
  · have full' : ¬m.idle.Nonempty := by
      rintro ⟨s, member⟩
      have busy := FirstFit.firstFree_eq_none_iff.mp full s
      rw [bitGet_ofSlots, ScriptSlots.mem_idle.mp member] at busy
      cases busy
    rw [dif_neg full', ran]

theorem free_ofSlots (m : ScriptSlots) (slot : Int) :
    (ofSlots m).serve (.free slot) = (ofSlots (m.serve (.free slot)).1, (m.serve (.free slot)).2) := by
  rw [serve, ScriptSlots.serve, free]
  cases found : m.active slot with
  | none =>
    rcases slotInRange_idle found with out | ⟨s, range, idle⟩
    · rw [out]
    · simp only [range, idle, Bool.not_false, if_true]
  | some s =>
    obtain ⟨range, busy⟩ := slotInRange_active found
    simp only [range, busy, Bool.not_true, Bool.false_eq_true, if_false]
    exact Prod.ext (eq_ofSlots_update none (bitGet_bitClear _ _) rfl rfl) rfl

theorem write_ofSlots (m : ScriptSlots) (slot : Int) (src : ByteSpan) :
    (ofSlots m).serve (.write slot src) = (ofSlots (m.serve (.write slot src)).1, (m.serve (.write slot src)).2) := by
  rw [serve, ScriptSlots.serve, write]
  cases found : m.active slot with
  | none =>
    rcases slotInRange_idle found with out | ⟨s, range, idle⟩
    · rw [out]
    · simp only [range, idle, Bool.not_false, if_true]
  | some s =>
    obtain ⟨range, busy⟩ := slotInRange_active found
    simp only [range, busy, Bool.not_true, Bool.false_eq_true, if_false, Nat.mod_eq_of_lt src.size_lt]
    by_cases fits : src.bytes.length ≤ persistentScriptSlotBytes
    · rw [dif_pos fits, if_neg (Nat.not_lt.mpr fits)]
      refine Prod.ext (eq_ofSlots_update (some ⟨src.bytes, fits⟩) ?_ rfl ?_) rfl
      · exact (Function.update_eq_self_iff.mpr busy.symm).symm
      · refine congrArg (Function.update _ s) (funext fun i => ?_)
        show (if i.val < src.bytes.length then src.bytes.getD i 0 else 0) = src.bytes.getD i 0
        by_cases inside : i.val < src.bytes.length
        · rw [if_pos inside]
        · rw [if_neg inside, List.getD_eq_default _ _ (Nat.le_of_not_lt inside)]
    · rw [dif_neg fits, if_pos (Nat.lt_of_not_le fits)]

theorem read_ofSlots (m : ScriptSlots) (slot : Int) (cap : UInt32) :
    (ofSlots m).serve (.read slot cap) = (ofSlots (m.serve (.read slot cap)).1, (m.serve (.read slot cap)).2) := by
  rw [serve, ScriptSlots.serve, read]
  cases found : m.active slot with
  | none =>
    rcases slotInRange_idle found with out | ⟨s, range, idle⟩
    · rw [out]
    · simp only [range, idle, Bool.not_false, if_true]
  | some s =>
    obtain ⟨range, busy⟩ := slotInRange_active found
    simp only [range, busy, Bool.not_true, Bool.false_eq_true, if_false, slotLens_ofSlots, blob_ofSlots]
    by_cases room : (m.bytes s).length ≤ cap.toNat
    · rw [if_pos room, if_neg (Nat.not_lt.mpr room)]
    · rw [if_neg room, if_pos (Nat.lt_of_not_le room)]

theorem serve_ofSlots (m : ScriptSlots) (call : SlotCall) :
    (ofSlots m).serve call = (ofSlots (m.serve call).1, (m.serve call).2) := by
  cases call with
  | alloc => exact alloc_ofSlots m
  | free slot => exact free_ofSlots m slot
  | write slot src => exact write_ofSlots m slot src
  | read slot cap => exact read_ofSlots m slot cap

theorem serveAll_ofSlots (m : ScriptSlots) (calls : List SlotCall) :
    (ofSlots m).serveAll calls = (ofSlots (m.serveAll calls).1, (m.serveAll calls).2) := by
  induction calls generalizing m with
  | nil => rfl
  | cons call calls ih =>
    rw [serveAll, ScriptSlots.serveAll, serve_ofSlots]
    simp only [ih]

variable {ι : Type}

/-- From the reset table every sequence of calls is answered as the slots answer it, and what is
saved is a function of the slots. -/
theorem serveAll_refines (calls : List SlotCall) (g_region : ι) :
    (reset.serveAll calls).2 = (ScriptSlots.empty.serveAll calls).2 ∧
      ((regionPersistentScripts g_region).save (persistentScripts.encode (reset.serveAll calls).1)).1 =
        persistentScripts.encode (ofSlots (ScriptSlots.empty.serveAll calls).1) := by
  rw [reset_eq_ofSlots, serveAll_ofSlots]
  refine ⟨rfl, ?_⟩
  show persistentScripts.encode (persistentScripts.decode (persistentScripts.encode _)) = _
  rw [Packed.Codec.decode_encode]

end PersistentScripts
end Blyt
