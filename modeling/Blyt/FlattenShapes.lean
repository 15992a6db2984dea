import Blyt.FlattenAccepts

namespace Blyt
open ChunkWalk

/-- The codes that say that a value has not the constrained shape. -/
def Ltf.isShape : Ltf → Bool
  | .unsupportedType => true
  | .nonStringKey => true
  | .keyTooLong => true
  | .arrayMixedTypes => true
  | .arrayNonSequence => true
  | .ok => false
  | .overflow => false

/-- What `dst` holds after the call. -/
def Flattened.dst (r : Flattened) (before : List UInt8) : List UInt8 := r.written ++ before.drop r.written.length

section
variable {C : LuaConf} {cap : UInt32}

/-- A call that reports a violation of the shape leaves `dst` as it was. -/
def ShapeErrorKeepsDst (v : LuaArg C) (cap : UInt32) : Prop :=
  ∀ r, luaTableFlatten v cap = .returns r → r.rc.isShape = true → ∀ dst : List UInt8, dst.length = cap.toNat → r.dst dst = dst

/-- The code that `emit_value` refuses a value with. -/
def refusal : Option (LuaField C) → Option Ltf
  | some (.scalar _) => none
  | some (.table a) =>
    match detectArray a with
    | .error rc => some rc
    | .ok _ => none
  | _ => some .unsupportedType

def LuaElem.wireSize : LuaElem C → Nat
  | .scalar v => (wirePayload v).length
  | .other => 0

/-- The size of a value that is not refused; a string counts with as many bytes as a `u32` can say. -/
def LuaField.wireSize : LuaField C → Nat
  | .scalar v => 1 + (wirePayload v).length
  | .table a => 6 + ((List.range a.size).map fun i : Nat => (a.get? (.integer (i + 1))).elim 0 LuaElem.wireSize).sum
  | .other => 0

/-- The size of a field with its key. -/
def fieldSize (t : LuaTable (LuaField C)) (key : List UInt8) : Nat :=
  2 + key.length + (t.get? (.string key)).elim 0 LuaField.wireSize

/-- Of the fields under `keys`, put from `pos` on, one with a refused shape comes after fields that pass and
fit; the pieces of its key end in the word. -/
def MeetsMisshapen (cap : UInt32) (t : LuaTable (LuaField C)) (pos : Nat) (keys : List (List UInt8)) : Prop :=
  ∃ before key after rc, keys = before ++ key :: after ∧ (∀ k ∈ before, refusal (t.get? (.string k)) = none) ∧
    refusal (t.get? (.string key)) = some rc ∧ rc.isShape = true ∧
    (before = [] ∨ pos + (before.map (fieldSize t)).sum ≤ cap.toNat) ∧
    inWord cap.toNat (2 ^ 32) (pos + (before.map (fieldSize t)).sum) [1, 1, key.length] = true

/-- The fields, behind the four bytes of their number and in the order of the sorted keys, meet one with a
refused shape. -/
def LuaArg.MeetsMisshapen (v : LuaArg C) (cap : UInt32) : Prop :=
  ∃ t names, v = .table t ∧ collectKeys t.entries [] = .ok names ∧ Blyt.MeetsMisshapen cap t 4 (keySort names)

namespace Sink
variable {s s' : Sink cap} {sizes : List Nat}

/-- The first `n` bytes of `src` are one piece. -/
theorem putBytes_puts_take (s : Sink cap) {src : List UInt8} {n : UInt32} (le : n.toNat ≤ src.length) :
    s.Puts [(src.take n.toNat).length] (s.putBytes src n) := by
  have length : (src.take n.toNat).length = n.toNat := List.length_take_of_le le
  have same : s.putBytes src n = s.put (src.take n.toNat) := by
    rw [putBytes, put, length, UInt32.ofNat_toNat]
  have short : (src.take n.toNat).length < 2 ^ 32 := by
    rw [length]
    exact n.toNat_lt
  rw [same]
  exact .one short

/-- What is in the buffer stays there. -/
theorem Puts.extends (puts : s.Puts sizes s') : s.out <+: s'.out := by
  obtain ⟨chunks, -, -, rfl⟩ := puts
  induction chunks generalizing s with
  | nil => exact List.prefix_rfl
  | cons chunk chunks ih =>
    have first : s.out <+: (s.put chunk).out := by
      unfold put
      split
      · exact List.prefix_rfl
      · exact List.prefix_append ..
    exact first.trans ih

/-- Where a byte fits, the first byte of the header is stored. -/
theorem header_stored {v : UInt32} (room : cap ≠ 0) : ((start cap).putU32 v).out ≠ [] := by
  have first : ((start cap).putU8 (v &&& 0xff).toUInt8).out = [(v &&& 0xff).toUInt8] := by
    have fits : ¬(start cap).pos + 1 > cap := by
      rw [gt_iff_lt, UInt32.lt_iff_toNat_lt]
      have some : cap.toNat ≠ 0 := fun none => room (UInt32.toNat_inj.mp none)
      show ¬cap.toNat < 1
      omega
    rw [putU8, if_neg fits]
    rfl
  have rest := (((start cap).putU8 (v &&& 0xff).toUInt8).putU8_puts ((v >>> 8) &&& 0xff).toUInt8).trans
    ((putU8_puts _ ((v >>> 16) &&& 0xff).toUInt8).trans (putU8_puts _ ((v >>> 24) &&& 0xff).toUInt8))
  have kept := rest.extends
  rw [first] at kept
  intro none
  rw [putU32] at none
  rw [none] at kept
  cases List.prefix_nil.mp kept

end Sink

theorem emitPayload_size (v : LuaScalar C) (out : Sink cap) :
    ∃ sizes, out.Puts sizes (emitPayload v out) ∧ sizes.sum = (wirePayload v).length := by
  cases v with
  | boolean b => exact ⟨_, out.putU8_puts _, rfl⟩
  | integer v => exact ⟨_, out.putU64_puts _, (Packed.leBytes_length ..).symm⟩
  | number x => exact ⟨_, out.putU64_puts _, (Packed.leBytes_length ..).symm⟩
  | string bytes =>
    have le : (UInt32.ofNat bytes.length).toNat ≤ bytes.length := by
      rw [UInt32.toNat_ofNat']
      exact Nat.mod_le ..
    refine ⟨_, (out.putU32_puts _).trans (Sink.putBytes_puts_take _ le), ?_⟩
    rw [wirePayload, List.length_append, Packed.leBytes_length, UInt32.toNat_ofNat']
    simp only [List.sum_append, List.sum_cons, List.sum_nil]
    omega

theorem emitElems_size (a : LuaTable (LuaElem C)) (n : Nat) (out : Sink cap) :
    ∃ sizes, out.Puts sizes ((List.range n).foldl (emitElem a) out) ∧
      sizes.sum = ((List.range n).map fun i : Nat => (a.get? (.integer (i + 1))).elim 0 LuaElem.wireSize).sum := by
  induction n with
  | zero => exact ⟨[], .refl out, rfl⟩
  | succ n ih =>
    obtain ⟨sizes, puts, sum⟩ := ih
    rw [List.range_succ, List.foldl_append, List.map_append, List.sum_append, ← sum, List.foldl_cons, List.foldl_nil,
      emitElem]
    cases here : a.get? (.integer (n + 1)) with
    | none => exact ⟨sizes, puts, by simp [here]⟩
    | some e =>
      cases e with
      | other => exact ⟨sizes, puts, by simp [here, LuaElem.wireSize]⟩
      | scalar v =>
        obtain ⟨more, later, sum'⟩ := emitPayload_size v ((List.range n).foldl (emitElem a) out)
        exact ⟨_, puts.trans later, by simp [here, LuaElem.wireSize, sum']⟩

/-- A value is put, or refused before any of its bytes. -/
theorem emitValue_size (f : Option (LuaField C)) (out : Sink cap) :
    match refusal f with
    | none => (emitValue f out).1 = .ok ∧ ∃ sizes, out.Puts sizes (emitValue f out).2 ∧ sizes.sum = f.elim 0 LuaField.wireSize
    | some rc => rc ≠ .ok ∧ emitValue f out = (rc, out) := by
  match f with
  | none => exact ⟨Ltf.noConfusion, rfl⟩
  | some .other => exact ⟨Ltf.noConfusion, rfl⟩
  | some (.scalar v) =>
    obtain ⟨sizes, puts, sum⟩ := emitPayload_size v (out.putU8 v.tag)
    refine ⟨rfl, _, (out.putU8_puts _).trans puts, ?_⟩
    rw [List.sum_append, sum]
    rfl
  | some (.table a) =>
    rw [refusal, emitValue, emitArray]
    cases detected : detectArray a with
    | error rc => exact ⟨detectArray_error detected, rfl⟩
    | ok found =>
      obtain ⟨tag, n⟩ := found
      obtain ⟨elems, sequence, length, -⟩ := detectArray_ok detected
      obtain ⟨sizes, puts, sum⟩ := emitElems_size a n (((out.putU8 ltfTagArray).putU8 tag).putU32 (UInt32.ofNat n))
      refine ⟨rfl, _, (((out.putU8_puts _).trans (Sink.putU8_puts _ _)).trans (Sink.putU32_puts _ _)).trans puts, ?_⟩
      rw [List.sum_append, sum, Option.elim_some, LuaField.wireSize, sequence.size, length]
      rfl

/-- The key of the first field, its value if that is not refused, and then the others. -/
theorem emitFields_first {t : LuaTable (LuaField C)} {key : List UInt8} (brief : key.length ≤ ltfMaxKeyLen)
    (keys : List (List UInt8)) (out : Sink cap) :
    ∃ (done : Ltf × Sink cap) (sizes : List Nat), out.Puts ([1, 1, key.length] ++ sizes) done.2 ∧
      (match refusal (t.get? (.string key)) with
        | none => done.1 = .ok ∧ ([1, 1, key.length] ++ sizes).sum = fieldSize t key
        | some rc => rc ≠ .ok ∧ done.1 = rc ∧ sizes = []) ∧
      emitFields t (key :: keys) out =
        if done.1 = .ok ∧ done.2.overflowed = false then emitFields t keys done.2
        else (if done.1 = .ok then .overflow else done.1, done.2) := by
  have small : key.length < 2 ^ 32 := Nat.lt_of_le_of_lt brief (by decide)
  have header := (out.putU16_puts (UInt16.ofNat key.length)).trans (Sink.putBytes_puts _ small)
  have value := emitValue_size (t.get? (.string key))
    ((out.putU16 (UInt16.ofNat key.length)).putBytes key (UInt32.ofNat key.length))
  obtain ⟨done, same, emitted⟩ := emitFields_cons t key keys out
  rw [← same] at value
  cases refused : refusal (t.get? (.string key)) with
  | none =>
    rw [refused] at value
    obtain ⟨ok, sizes, puts, sum⟩ := value
    refine ⟨done, sizes, header.trans puts, ⟨ok, ?_⟩, emitted⟩
    simp only [List.sum_append, List.sum_cons, List.sum_nil, sum, fieldSize]
    omega
  | some rc =>
    rw [refused] at value
    refine ⟨done, [], ?_, ⟨value.1, congrArg Prod.fst value.2, rfl⟩, emitted⟩
    rw [value.2]
    exact header

theorem emitFields_size {t : LuaTable (LuaField C)} {keys : List (List UInt8)}
    (brief : ∀ key ∈ keys, key.length ≤ ltfMaxKeyLen) (out : Sink cap) :
    ∃ sizes, out.Puts sizes (emitFields t keys out).2 := by
  induction keys generalizing out with
  | nil => exact ⟨[], .refl out⟩
  | cons key keys ih =>
    rw [List.forall_mem_cons] at brief
    obtain ⟨done, sizes, puts, -, emitted⟩ := emitFields_first (t := t) brief.1 keys out
    rw [emitted]
    split
    · obtain ⟨more, later⟩ := ih brief.2 done.2
      exact ⟨_, puts.trans later⟩
    · exact ⟨_, puts⟩

section
variable {t : LuaTable (LuaField C)} {key : List UInt8} {keys : List (List UInt8)} {pos : Nat}

theorem not_meetsMisshapen_nil : ¬MeetsMisshapen cap t pos [] := by
  rintro ⟨before, key, after, -, cut, -⟩
  exact absurd cut.symm (List.append_ne_nil_of_right_ne_nil _ (List.cons_ne_nil _ _))

/-- A first field that is refused is the one met. -/
theorem meetsMisshapen_refused {rc : Ltf} (refused : refusal (t.get? (.string key)) = some rc) :
    MeetsMisshapen cap t pos (key :: keys) ↔
      rc.isShape = true ∧ inWord cap.toNat (2 ^ 32) pos [1, 1, key.length] = true := by
  constructor
  · rintro ⟨before, key', after, rc', cut, passes, refused', shape, -, word⟩
    cases before with
    | nil =>
      obtain ⟨rfl, rfl⟩ := List.cons.inj cut
      rw [refused] at refused'
      cases refused'
      exact ⟨shape, word⟩
    | cons first before =>
      obtain ⟨rfl, -⟩ := List.cons.inj cut
      rw [passes _ List.mem_cons_self] at refused
      cases refused
  · rintro ⟨shape, word⟩
    exact ⟨[], key, keys, rc, rfl, nofun, refused, shape, .inl rfl, word⟩

/-- Behind a first field that passes the walk goes on if the field fits. -/
theorem meetsMisshapen_passed (passed : refusal (t.get? (.string key)) = none) :
    MeetsMisshapen cap t pos (key :: keys) ↔
      pos + fieldSize t key ≤ cap.toNat ∧ MeetsMisshapen cap t (pos + fieldSize t key) keys := by
  constructor
  · rintro ⟨before, key', after, rc, cut, passes, refused, shape, fits, word⟩
    cases before with
    | nil =>
      obtain ⟨rfl, -⟩ := List.cons.inj cut
      rw [passed] at refused
      cases refused
    | cons first before =>
      obtain ⟨rfl, rfl⟩ := List.cons.inj cut
      rw [List.map_cons, List.sum_cons, ← Nat.add_assoc] at fits word
      have room := fits.resolve_left (List.cons_ne_nil _ _)
      exact ⟨by omega, before, key', after, rc, rfl, fun k member => passes k (List.mem_cons_of_mem _ member), refused, shape,
        .inr room, word⟩
  · rintro ⟨room, before, key', after, rc, rfl, passes, refused, shape, fits, word⟩
    refine ⟨key :: before, key', after, rc, rfl, List.forall_mem_cons.mpr ⟨passed, passes⟩, refused, shape, .inr ?_, ?_⟩
    · rw [List.map_cons, List.sum_cons, ← Nat.add_assoc]
      rcases fits with rfl | fits
      · exact room
      · exact fits
    · rw [List.map_cons, List.sum_cons, ← Nat.add_assoc]
      exact word

/-- The fields end with a violation of the shape, nothing being stored outside, exactly when they meet one. -/
theorem emitFields_shape_iff {out : Sink cap} (brief : ∀ key ∈ keys, key.length ≤ ltfMaxKeyLen)
    (inside : out.stray = false) (clean : out.overflowed = false) :
    ((emitFields t keys out).2.stray = false ∧ (emitFields t keys out).1.isShape = true) ↔
      MeetsMisshapen cap t out.out.length keys := by
  induction keys generalizing out with
  | nil => exact iff_of_false (fun both => Bool.false_ne_true both.2) not_meetsMisshapen_nil
  | cons key keys ih =>
    rw [List.forall_mem_cons] at brief
    obtain ⟨done, sizes, puts, value, emitted⟩ := emitFields_first (t := t) brief.1 keys out
    have field := puts.outcome inside
    cases refused : refusal (t.get? (.string key)) with
    | some rc =>
      rw [refused] at value
      obtain ⟨failed, rfl, rfl⟩ := value
      rw [meetsMisshapen_refused refused, emitted, if_neg fun both => failed both.1, if_neg failed]
      rw [List.append_nil] at field
      by_cases word : inWord cap.toNat (2 ^ 32) out.out.length [1, 1, key.length] = true
      · rw [if_pos word] at field
        simp only [field.1, word, true_and, and_true]
      · rw [if_neg word] at field
        refine iff_of_false (fun both => ?_) fun both => word both.2
        rw [field] at both
        cases both.1
    | none =>
      rw [refused] at value
      obtain ⟨ok, sum⟩ := value
      rw [sum] at field
      rw [meetsMisshapen_passed refused, emitted]
      by_cases fits : out.out.length + fieldSize t key ≤ cap.toNat
      · have word : inWord cap.toNat (2 ^ 32) out.out.length ([1, 1, key.length] ++ sizes) = true :=
          inWord_of_sum_lt (sum ▸ Nat.lt_of_le_of_lt fits cap.toNat_lt)
        rw [if_pos word] at field
        obtain ⟨stays, all, -⟩ := field
        obtain ⟨length, overflowed⟩ := all fits
        rw [clean] at overflowed
        rw [if_pos ⟨ok, overflowed⟩, ih brief.2 stays overflowed, length]
        exact (and_iff_right fits).symm
      · refine iff_of_false (fun both => ?_) fun both => fits both.1
        by_cases word : inWord cap.toNat (2 ^ 32) out.out.length ([1, 1, key.length] ++ sizes) = true
        · rw [if_pos word] at field
          have overflowed := field.2.2 (Nat.lt_of_not_le fits)
          rw [overflowed, if_neg fun holds => Bool.noConfusion holds.2, if_pos ok] at both
          cases both.2
        · rw [if_neg word] at field
          split at both
          · obtain ⟨_, later⟩ := emitFields_size (t := t) brief.2 done.2
            rw [later.keeps.1 field] at both
            cases both.1
          · rw [field] at both
            cases both.1

/-- Behind a header that did not fit only the first field is looked at. -/
theorem emitFields_shape_iff_of_narrow {out : Sink cap} (brief : ∀ key ∈ keys, key.length ≤ ltfMaxKeyLen)
    (inside : out.stray = false) (marked : out.overflowed = true) (narrow : cap.toNat < 4) :
    ((emitFields t keys out).2.stray = false ∧ (emitFields t keys out).1.isShape = true) ↔ MeetsMisshapen cap t 4 keys := by
  cases keys with
  | nil => exact iff_of_false (fun both => Bool.false_ne_true both.2) not_meetsMisshapen_nil
  | cons key keys =>
    rw [List.forall_mem_cons] at brief
    obtain ⟨done, sizes, puts, value, emitted⟩ := emitFields_first (t := t) brief.1 keys out
    have overflowed := puts.keeps.2 marked
    have small : key.length ≤ 64 := brief.1
    have start := out.fits inside
    have field := puts.outcome inside
    rw [emitted, overflowed, if_neg fun both => Bool.noConfusion both.2]
    cases refused : refusal (t.get? (.string key)) with
    | some rc =>
      rw [refused] at value
      obtain ⟨failed, rfl, rfl⟩ := value
      have word : ∀ pos ≤ 4, inWord cap.toNat (2 ^ 32) pos [1, 1, key.length] = true := fun pos low =>
        inWord_of_sum_lt (by simp only [List.sum_cons, List.sum_nil]; omega)
      rw [List.append_nil, if_pos (word _ (by omega))] at field
      rw [meetsMisshapen_refused refused, if_neg failed, and_iff_right field.1, and_iff_left (word 4 (Nat.le_refl 4))]
    | none =>
      rw [refused] at value
      rw [meetsMisshapen_passed refused, if_pos value.1]
      exact iff_of_false (fun both => Bool.false_ne_true both.2) fun both => by omega

end

/-- The fields that `lua_table_flatten` emits end with a violation of the shape exactly when they meet one. -/
theorem flattened_shape_iff {t : LuaTable (LuaField C)} {names : List (List UInt8)}
    (collected : collectKeys t.entries [] = .ok names) (cap : UInt32) :
    (∃ r, luaTableFlatten (.table t) cap = .returns r ∧ r.rc.isShape = true ∧ r.written ≠ []) ↔
      cap ≠ 0 ∧ MeetsMisshapen cap t 4 (keySort names) := by
  have brief := keySort_brief collected
  obtain ⟨inside, wide, narrow⟩ := Sink.header_outcome cap (UInt32.ofNat names.length)
  obtain ⟨done, same, run⟩ := luaTableFlatten_collected collected cap
  have shape : (done.2.stray = false ∧ done.1.isShape = true) ↔ MeetsMisshapen cap t 4 (keySort names) := by
    rw [same]
    rcases Nat.lt_or_ge cap.toNat 4 with small | large
    · exact emitFields_shape_iff_of_narrow brief inside (narrow small) small
    · obtain ⟨length, clean⟩ := wide large
      rw [emitFields_shape_iff brief inside clean, length]
  constructor
  · rintro ⟨r, returned, misshapen, stored⟩
    rw [run] at returned
    by_cases stray : done.2.stray = true
    · rw [if_pos stray] at returned
      cases returned
    · rw [if_neg stray] at returned
      by_cases failed : done.1 ≠ .ok
      · rw [if_pos failed] at returned
        cases returned
        refine ⟨?_, shape.mp ⟨Bool.eq_false_iff.mpr stray, misshapen⟩⟩
        rintro rfl
        exact stored (List.length_eq_zero_iff.mp (Nat.le_zero.mp (done.2.fits (Bool.eq_false_iff.mpr stray))))
      · rw [if_neg failed] at returned
        split at returned
        · cases returned
          cases misshapen
        · cases returned
          cases misshapen
  · rintro ⟨room, meets⟩
    obtain ⟨stays, misshapen⟩ := shape.mpr meets
    have failed : done.1 ≠ .ok := by
      intro ok
      rw [ok] at misshapen
      cases misshapen
    rw [stays, if_neg Bool.false_ne_true, if_pos failed] at run
    refine ⟨_, run, misshapen, fun (none : done.2.out = []) => ?_⟩
    obtain ⟨sizes, puts⟩ := emitFields_size (t := t) brief ((Sink.start cap).putU32 (UInt32.ofNat names.length))
    have kept := puts.extends
    rw [← same, none] at kept
    exact Sink.header_stored room (List.prefix_nil.mp kept)

/-- A call that returns has stored in the buffer only. -/
theorem luaTableFlatten_inside {v : LuaArg C} {r : Flattened} (run : luaTableFlatten v cap = .returns r) :
    r.written.length ≤ cap.toNat := by
  cases v with
  | other =>
    cases run
    exact Nat.zero_le _
  | table t =>
    cases collected : collectKeys t.entries [] with
    | error rc =>
      rw [luaTableFlatten_error collected] at run
      cases run
      exact Nat.zero_le _
    | ok names =>
      obtain ⟨done, -, same⟩ := luaTableFlatten_collected collected cap
      rw [same] at run
      by_cases stray : done.2.stray = true
      · rw [if_pos stray] at run
        cases run
      · have fits := done.2.fits (Bool.eq_false_iff.mpr stray)
        rw [if_neg stray] at run
        split at run
        · cases run
          exact fits
        · split at run
          · cases run
            exact fits
          · cases run
            exact fits

/-- Bytes that were stored show, whatever they are, against some buffer. -/
theorem dst_eq_self_iff {r : Flattened} (inside : r.written.length ≤ cap.toNat) :
    (∀ dst : List UInt8, dst.length = cap.toNat → r.dst dst = dst) ↔ r.written = [] := by
  constructor
  · intro same
    by_contra stored
    obtain ⟨b, more, written⟩ := List.exists_cons_of_ne_nil stored
    have kept := same (List.replicate cap.toNat (b + 1)) List.length_replicate
    have room : cap.toNat = (cap.toNat - 1) + 1 := by
      rw [written, List.length_cons] at inside
      omega
    rw [Flattened.dst, written, room, List.replicate_succ, List.cons_append, List.cons.injEq] at kept
    have next : b + 1 ≠ b := by
      intro same
      have byte := congrArg UInt8.toNat same
      have bound := b.toNat_lt
      rw [UInt8.toNat_add] at byte
      have one : (1 : UInt8).toNat = 1 := rfl
      omega
    exact next kept.1.symm
  · intro nothing dst _
    rw [Flattened.dst, nothing]
    rfl

/-- What is refused before the fields is refused without a byte. -/
theorem LuaArg.meetsMisshapen_iff (v : LuaArg C) (cap : UInt32) :
    (∃ r, luaTableFlatten v cap = .returns r ∧ r.rc.isShape = true ∧ r.written ≠ []) ↔ cap ≠ 0 ∧ v.MeetsMisshapen cap := by
  cases v with
  | other =>
    constructor
    · rintro ⟨r, returned, -, stored⟩
      cases returned
      exact absurd rfl stored
    · rintro ⟨-, t, names, same, -⟩
      cases same
  | table t =>
    cases collected : collectKeys t.entries [] with
    | error rc =>
      constructor
      · rintro ⟨r, returned, -, stored⟩
        rw [luaTableFlatten_error collected] at returned
        cases returned
        exact absurd rfl stored
      · rintro ⟨-, t', names, same, ok, -⟩
        cases same
        rw [collected] at ok
        cases ok
    | ok names =>
      rw [flattened_shape_iff collected]
      refine and_congr_right fun _ => ⟨fun meets => ⟨t, names, rfl, collected, meets⟩, ?_⟩
      rintro ⟨t', names', same, ok, meets⟩
      cases same
      rw [collected] at ok
      cases ok
      exact meets

/-- A violation of the shape leaves the buffer alone exactly when the buffer has no room at all or the fields in
front of the first misshapen one do not all fit. -/
theorem shapeErrorKeepsDst_iff (v : LuaArg C) (cap : UInt32) :
    ShapeErrorKeepsDst v cap ↔ cap = 0 ∨ ¬v.MeetsMisshapen cap := by
  have keeps : ShapeErrorKeepsDst v cap ↔
      ¬∃ r, luaTableFlatten v cap = .returns r ∧ r.rc.isShape = true ∧ r.written ≠ [] := by
    constructor
    · rintro holds ⟨r, returned, misshapen, stored⟩
      exact stored ((dst_eq_self_iff (luaTableFlatten_inside returned)).mp (holds r returned misshapen))
    · intro none r returned misshapen
      refine (dst_eq_self_iff (luaTableFlatten_inside returned)).mpr ?_
      by_contra stored
      exact none ⟨r, returned, misshapen, stored⟩
  rw [keeps, v.meetsMisshapen_iff, not_and_or, not_ne_iff]

end

/-- A function under `bad_fn`. -/
def functionTable : LuaTable (LuaField luaConf64) :=
  LuaTable.empty.set (.string [0x62, 0x61, 0x64, 0x5f, 0x66, 0x6e]) .other

/-- The number of fields and the key are in the buffer before the function is refused. -/
theorem not_shapeErrorKeepsDst : ¬∀ (v : LuaArg luaConf64) (cap : UInt32), ShapeErrorKeepsDst v cap := by
  intro keeps
  have run : luaTableFlatten (.table functionTable) 16 =
      .returns ⟨.unsupportedType, 0, [1, 0, 0, 0, 6, 0, 0x62, 0x61, 0x64, 0x5f, 0x66, 0x6e]⟩ := by decide +kernel
  have kept := keeps (.table functionTable) 16 _ run rfl (List.replicate 16 0xff) rfl
  exact absurd kept (by decide)

end Blyt
