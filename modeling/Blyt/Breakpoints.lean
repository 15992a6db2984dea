import Blyt.Lib.Exec
import Blyt.Lib.UsedPrefix

namespace Blyt
open UsedPrefix

def maxBreakpoints : Nat := 256
def maxSourcePath : Nat := 1024

structure DapBreakpoint where
  source : List UInt8
  line : Int
  verified : Bool
  id : Nat
  deriving DecidableEq

/-- The breakpoint table of `dap_state_t`. -/
structure BreakpointTable where
  bps : Fin maxBreakpoints → DapBreakpoint
  nBps : Nat
  fits : nBps ≤ maxBreakpoints
  nextBpId : Nat

structure SetBreakpoints where
  path : List UInt8
  lines : List Int

/-- What `json_get_string` leaves of the path. -/
def SetBreakpoints.source (r : SetBreakpoints) : List UInt8 := r.path.take (maxSourcePath - 1)

/-- What `json_get_int_array` reads of the lines. -/
def SetBreakpoints.asked (r : SetBreakpoints) : List Int := r.lines.take maxBreakpoints

structure BreakpointReply where
  id : Nat
  verified : Bool
  line : Int
  deriving DecidableEq

def verifyBreakpoint (_source : List UInt8) (line : Int) : Bool := decide (0 < line)

/-- `basename_of`: `b` is what lies behind the last slash seen. -/
def basenameFrom (b : List UInt8) : List UInt8 → List UInt8
  | [] => b
  | c :: q => basenameFrom (if c = 47 then q else b) q

def basenameOf (p : List UInt8) : List UInt8 := basenameFrom p p

/-- The path in a chunk name: without the `@` in front. -/
def chunkPath : List UInt8 → List UInt8
  | 64 :: path => path
  | source => source

namespace BreakpointTable

def empty : BreakpointTable := ⟨fun _ => ⟨[], 0, false, 0⟩, 0, Nat.zero_le _, 0⟩

def entries (t : BreakpointTable) : List DapBreakpoint := used t.bps t.nBps

def dropSource (t : BreakpointTable) (source : List UInt8) : BreakpointTable where
  bps := (compact (fun b => b.source != source) t.bps t.nBps).1
  nBps := (compact (fun b => b.source != source) t.bps t.nBps).2
  fits := (compact_le _ _ t.fits).trans t.fits
  nextBpId := t.nextBpId

/-- One more entry, with the next id. -/
def push (t : BreakpointTable) (source : List UInt8) (line : Int) (room : t.nBps < maxBreakpoints) :
    BreakpointTable where
  bps := store t.bps t.nBps ⟨source, line, verifyBreakpoint source line, t.nextBpId + 1⟩
  nBps := t.nBps + 1
  fits := room
  nextBpId := t.nextBpId + 1

/-- Add the new set, up to the capacity. `next_bp_id` is an `int`, whose overflow is undefined. -/
def addLines (t : BreakpointTable) (source : List UInt8) : List Int → Exec BreakpointTable
  | [] => .returns t
  | line :: lines =>
    if room : t.nBps < maxBreakpoints then
      if t.nextBpId + 1 < 2 ^ 31 then addLines (t.push source line room) source lines else .outOfBounds
    else .returns t

def reply (t : BreakpointTable) (source : List UInt8) (line : Int) : BreakpointReply :=
  match t.entries.find? fun b => b.source == source && b.line == line with
  | some b => ⟨b.id, b.verified, line⟩
  | none => ⟨0, false, line⟩

def handleSetBreakpoints (t : BreakpointTable) (r : SetBreakpoints) :
    Exec (BreakpointTable × List BreakpointReply) := do
  let t ← (t.dropSource r.source).addLines r.source r.asked
  return (t, r.asked.map (t.reply r.source))

def serve (t : BreakpointTable) (r : SetBreakpoints) : Exec BreakpointTable :=
  Prod.fst <$> t.handleSetBreakpoints r

/-- `fc_dap_should_break`, on the `source` and the `currentline` of the activation. -/
def shouldBreak (t : BreakpointTable) (connected : Bool) (source : Option (List UInt8)) (currentline : Int) : Bool :=
  if connected then
    t.entries.any fun b =>
      b.verified && b.line == currentline && basenameOf b.source == basenameOf (chunkPath (source.getD []))
  else false

def linesOf (t : BreakpointTable) (source : List UInt8) : List Int :=
  (t.entries.filter fun b => b.source == source).map DapBreakpoint.line

def others (t : BreakpointTable) (source : List UInt8) : List DapBreakpoint :=
  t.entries.filter fun b => b.source != source

/-- Every entry is verified as its line says, and no id was given twice. -/
structure Valid (t : BreakpointTable) : Prop where
  verified : ∀ b ∈ t.entries, b.verified = verifyBreakpoint b.source b.line
  given : ∀ b ∈ t.entries, b.id ≤ t.nextBpId
  distinct : (t.entries.map DapBreakpoint.id).Nodup

variable {t : BreakpointTable} {source : List UInt8}

theorem entries_length (t : BreakpointTable) : t.entries.length = t.nBps := used_length t.fits

theorem Valid.empty : empty.Valid := ⟨nofun, nofun, List.nodup_nil⟩

theorem entries_dropSource : (t.dropSource source).entries = t.others source :=
  used_compact _ t.bps t.fits

theorem entries_push {line : Int} (room : t.nBps < maxBreakpoints) :
    (t.push source line room).entries =
      t.entries ++ [⟨source, line, verifyBreakpoint source line, t.nextBpId + 1⟩] :=
  used_store t.bps _ room

theorem Valid.dropSource (valid : t.Valid) (source : List UInt8) : (t.dropSource source).Valid := by
  have kept : (t.dropSource source).entries.Sublist t.entries := entries_dropSource ▸ List.filter_sublist
  exact ⟨fun b member => valid.verified b (kept.subset member), fun b member => valid.given b (kept.subset member),
    valid.distinct.sublist (kept.map _)⟩

theorem Valid.push (valid : t.Valid) (source : List UInt8) (line : Int) (room : t.nBps < maxBreakpoints) :
    (t.push source line room).Valid := by
  constructor
  · intro b member
    rw [entries_push, List.mem_append, List.mem_singleton] at member
    rcases member with old | rfl
    · exact valid.verified b old
    · rfl
  · intro b member
    rw [entries_push, List.mem_append, List.mem_singleton] at member
    rcases member with old | rfl
    · exact (valid.given b old).trans (Nat.le_succ _)
    · exact le_refl _
  · rw [entries_push, List.map_append, List.map_cons, List.map_nil, List.nodup_append]
    refine ⟨valid.distinct, List.nodup_singleton _, fun id old id' new => ?_⟩
    obtain ⟨b, member, rfl⟩ := List.mem_map.mp old
    rw [List.mem_singleton] at new
    subst new
    exact (Nat.lt_succ_of_le (valid.given b member)).ne

/-- Adding lines appends an entry for each, as long as there is room. -/
theorem addLines_spec {lines : List Int} (valid : t.Valid) (ids : t.nextBpId + lines.length < 2 ^ 31) :
    ∃ t' added, t.addLines source lines = .returns t' ∧ t'.Valid ∧ t'.nextBpId ≤ t.nextBpId + lines.length ∧
      t'.entries = t.entries ++ added ∧ (∀ b ∈ added, b.source = source) ∧
        added.map DapBreakpoint.line = lines.take (maxBreakpoints - t.entries.length) := by
  induction lines generalizing t with
  | nil => exact ⟨t, [], rfl, valid, le_refl _, (List.append_nil _).symm, nofun, List.take_nil.symm⟩
  | cons line lines ih =>
    rw [List.length_cons] at ids ⊢
    rw [addLines]
    by_cases room : t.nBps < maxBreakpoints
    swap
    · have full : maxBreakpoints - t.entries.length = 0 := by
        rw [entries_length]
        omega
      rw [dif_neg room, full]
      exact ⟨t, [], rfl, valid, by omega, (List.append_nil _).symm, nofun, rfl⟩
    have inRange : t.nextBpId + 1 < 2 ^ 31 := by omega
    have next : (t.push source line room).nextBpId = t.nextBpId + 1 := rfl
    obtain ⟨t', added, run, valid', bound, grown, own, held⟩ :=
      ih (valid.push source line room) (by rw [next]; omega)
    rw [entries_push] at grown
    rw [dif_pos room, if_pos inRange]
    refine ⟨t', ⟨source, line, verifyBreakpoint source line, t.nextBpId + 1⟩ :: added, run, valid',
      by rw [next] at bound; omega, ?_, ?_, ?_⟩
    · rw [grown, List.append_assoc, List.singleton_append]
    · intro b member
      rcases List.mem_cons.mp member with rfl | member
      · rfl
      · exact own b member
    · have left : maxBreakpoints - t.entries.length =
          maxBreakpoints - (t.push source line room).entries.length + 1 := by
        rw [entries_length, entries_length]
        show _ = maxBreakpoints - (t.nBps + 1) + 1
        omega
      rw [left, List.take_succ_cons, List.map_cons, held]

theorem Valid.reply_verified (valid : t.Valid) (source : List UInt8) (line : Int) :
    (t.reply source line).verified = true ↔ 0 < line ∧ line ∈ t.linesOf source := by
  have held : line ∈ t.linesOf source ↔ ∃ b ∈ t.entries, b.source = source ∧ b.line = line := by
    simp only [linesOf, List.mem_map, List.mem_filter, beq_iff_eq, and_assoc]
  rw [held, reply]
  cases found : t.entries.find? fun b => b.source == source && b.line == line with
  | some b =>
    have member := List.mem_of_find?_eq_some found
    have same := List.find?_some found
    rw [Bool.and_eq_true, beq_iff_eq, beq_iff_eq] at same
    obtain ⟨rfl, rfl⟩ := same
    show b.verified = true ↔ _
    rw [valid.verified b member, verifyBreakpoint, decide_eq_true_iff]
    exact ⟨fun positive => ⟨positive, b, member, rfl, rfl⟩, fun both => both.1⟩
  | none =>
    refine iff_of_false nofun ?_
    rintro ⟨-, b, member, rfl, rfl⟩
    have missed := List.find?_eq_none.mp found b member
    simp at missed

theorem Valid.shouldBreak_iff (valid : t.Valid) {chunkname : Option (List UInt8)} {line : Int} :
    t.shouldBreak true chunkname line = true ↔ 0 < line ∧ ∃ source,
      basenameOf source = basenameOf (chunkPath (chunkname.getD [])) ∧ line ∈ t.linesOf source := by
  rw [shouldBreak, if_pos rfl, List.any_eq_true]
  constructor
  · rintro ⟨b, member, hit⟩
    rw [valid.verified b member, verifyBreakpoint, Bool.and_eq_true, Bool.and_eq_true, decide_eq_true_iff,
      beq_iff_eq, beq_iff_eq] at hit
    obtain ⟨⟨positive, rfl⟩, base⟩ := hit
    refine ⟨positive, b.source, base, List.mem_map_of_mem (List.mem_filter.mpr ⟨member, beq_self_eq_true _⟩)⟩
  · rintro ⟨positive, source, base, held⟩
    obtain ⟨b, selected, rfl⟩ := List.mem_map.mp held
    obtain ⟨member, same⟩ := List.mem_filter.mp selected
    obtain rfl := beq_iff_eq.mp same
    refine ⟨b, member, ?_⟩
    rw [valid.verified b member, verifyBreakpoint, Bool.and_eq_true, Bool.and_eq_true, decide_eq_true_iff,
      beq_iff_eq, beq_iff_eq]
    exact ⟨⟨positive, rfl⟩, base⟩

end BreakpointTable
end Blyt
