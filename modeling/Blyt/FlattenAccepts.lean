import Blyt.FlattenDeterminism
import Blyt.Lib.ChunkWalk
import Blyt.TableRoundTrip

namespace Blyt
open ChunkWalk

namespace Sink
variable {cap : UInt32} {s s' s'' : Sink cap} {chunk : List UInt8} {sizes more : List Nat}

/-- What `put_u8` and `put_bytes` have in common. -/
def put (s : Sink cap) (chunk : List UInt8) : Sink cap :=
  if s.pos + UInt32.ofNat chunk.length > cap then { s with overflowed := true } else s.store chunk

/-- `s'` comes from `s` by putting pieces of these sizes. -/
def Puts (s : Sink cap) (sizes : List Nat) (s' : Sink cap) : Prop :=
  ∃ chunks : List (List UInt8), chunks.map List.length = sizes ∧ (∀ chunk ∈ chunks, chunk.length < 2 ^ 32) ∧
    s' = chunks.foldl put s

theorem Puts.refl (s : Sink cap) : s.Puts [] s := ⟨[], rfl, nofun, rfl⟩

theorem Puts.trans (first : s.Puts sizes s') (second : s'.Puts more s'') : s.Puts (sizes ++ more) s'' := by
  obtain ⟨chunks, rfl, short, rfl⟩ := first
  obtain ⟨chunks', rfl, short', rfl⟩ := second
  refine ⟨chunks ++ chunks', List.map_append, ?_, (List.foldl_append).symm⟩
  exact List.forall_mem_append.mpr ⟨short, short'⟩

theorem Puts.one (short : chunk.length < 2 ^ 32) : s.Puts [chunk.length] (s.put chunk) :=
  ⟨[chunk], rfl, List.forall_mem_singleton.mpr short, rfl⟩

theorem putU8_puts (s : Sink cap) (v : UInt8) : s.Puts [1] (s.putU8 v) := by
  have one : [v].length < 2 ^ 32 := by
    rw [List.length_singleton]
    decide
  exact .one one

theorem putU16_puts (s : Sink cap) (v : UInt16) : s.Puts [1, 1] (s.putU16 v) := (putU8_puts s _).trans (putU8_puts _ _)

theorem putU32_puts (s : Sink cap) (v : UInt32) : s.Puts [1, 1, 1, 1] (s.putU32 v) :=
  (((putU8_puts s _).trans (putU8_puts _ _)).trans (putU8_puts _ _)).trans (putU8_puts _ _)

theorem putU64_puts (s : Sink cap) (v : UInt64) : s.Puts (List.replicate 8 1) (s.putU64 v) :=
  (putU32_puts s _).trans (putU32_puts _ _)

theorem putBytes_puts (s : Sink cap) (short : chunk.length < 2 ^ 32) :
    s.Puts [chunk.length] (s.putBytes chunk (UInt32.ofNat chunk.length)) := by
  have word : (UInt32.ofNat chunk.length).toNat = chunk.length := UInt32.toNat_ofNat_of_lt' short
  have same : s.putBytes chunk (UInt32.ofNat chunk.length) = s.put chunk := by
    rw [putBytes, put, word, List.take_length]
  rw [same]
  exact .one short

theorem store_stray (s : Sink cap) (bytes : List UInt8) :
    (s.store bytes).stray = (s.stray || decide (cap.toNat < (s.out ++ bytes).length)) := rfl

/-- What one put does to a buffer that is still intact: it fits, or is refused, or its end
does not fit the word, so that the bounds check lets through what does not fit. -/
theorem put_cases (inside : s.stray = false) (short : chunk.length < 2 ^ 32) :
    (s.out.length + chunk.length ≤ cap.toNat ∧ (s.put chunk).out.length = s.out.length + chunk.length ∧
        (s.put chunk).overflowed = s.overflowed ∧ (s.put chunk).stray = false) ∨
      (cap.toNat < s.out.length + chunk.length ∧ s.out.length + chunk.length < 2 ^ 32 ∧
        s.put chunk = { s with overflowed := true }) ∨
      (2 ^ 32 ≤ s.out.length + chunk.length ∧ (s.put chunk).stray = true) := by
  have room := s.fits inside
  have word := cap.toNat_lt
  have ends : (s.pos + UInt32.ofNat chunk.length).toNat = (s.out.length + chunk.length) % 2 ^ 32 := by
    rw [UInt32.toNat_add, pos, UInt32.toNat_ofNat', UInt32.toNat_ofNat', Nat.add_mod_mod, Nat.mod_add_mod]
  have stored : (s.store chunk).stray = decide (cap.toNat < s.out.length + chunk.length) := by
    rw [store_stray, inside, Bool.false_or, List.length_append]
  have refused : s.pos + UInt32.ofNat chunk.length > cap ↔ cap.toNat < (s.out.length + chunk.length) % 2 ^ 32 := by
    rw [gt_iff_lt, UInt32.lt_iff_toNat_lt, ends]
  rcases Nat.lt_or_ge (s.out.length + chunk.length) (2 ^ 32) with low | high
  · rw [Nat.mod_eq_of_lt low] at refused
    rcases Nat.lt_or_ge cap.toNat (s.out.length + chunk.length) with large | fits
    · exact Or.inr (Or.inl ⟨large, low, if_pos (refused.mpr large)⟩)
    · have put : s.put chunk = s.store chunk := if_neg fun beyond => Nat.not_lt.mpr fits (refused.mp beyond)
      rw [put, stored]
      exact Or.inl ⟨fits, List.length_append, rfl, decide_eq_false (Nat.not_lt.mpr fits)⟩
  · rw [Nat.mod_eq_sub_mod high, Nat.mod_eq_of_lt (by omega)] at refused
    have put : s.put chunk = s.store chunk := if_neg fun beyond => by
      have := refused.mp beyond
      omega
    rw [put, stored]
    exact Or.inr (Or.inr ⟨high, decide_eq_true (by omega)⟩)

theorem put_keeps (s : Sink cap) (chunk : List UInt8) :
    (s.stray = true → (s.put chunk).stray = true) ∧ (s.overflowed = true → (s.put chunk).overflowed = true) := by
  unfold put
  split
  · exact ⟨id, fun _ => rfl⟩
  · exact ⟨fun stray => by rw [store_stray, stray, Bool.true_or], id⟩

/-- A refused piece is remembered, and so is one stored outside. -/
theorem Puts.keeps (puts : s.Puts sizes s') :
    (s.stray = true → s'.stray = true) ∧ (s.overflowed = true → s'.overflowed = true) := by
  obtain ⟨chunks, -, -, rfl⟩ := puts
  induction chunks generalizing s with
  | nil => exact ⟨id, id⟩
  | cons chunk chunks ih =>
    obtain ⟨stray, overflowed⟩ := s.put_keeps chunk
    obtain ⟨stray', overflowed'⟩ := ih (s := s.put chunk)
    exact ⟨fun holds => stray' (stray holds), fun holds => overflowed' (overflowed holds)⟩

/-- What pieces do to an intact buffer: all of them are stored if they fit together, one is
refused if they do not, and one is stored outside once the word is too small. -/
theorem Puts.outcome (puts : s.Puts sizes s') (inside : s.stray = false) :
    if inWord cap.toNat (2 ^ 32) s.out.length sizes then
      s'.stray = false ∧
        (s.out.length + sizes.sum ≤ cap.toNat →
          s'.out.length = s.out.length + sizes.sum ∧ s'.overflowed = s.overflowed) ∧
        (cap.toNat < s.out.length + sizes.sum → s'.overflowed = true)
    else s'.stray = true := by
  obtain ⟨chunks, rfl, short, rfl⟩ := puts
  have room := s.fits inside
  induction chunks generalizing s with
  | nil => exact ⟨inside, fun _ => ⟨rfl, rfl⟩, fun beyond => absurd beyond (Nat.not_lt.mpr room)⟩
  | cons chunk chunks ih =>
    rw [List.forall_mem_cons] at short
    have later : (s.put chunk).Puts (chunks.map List.length) (chunks.foldl put (s.put chunk)) := ⟨chunks, rfl, short.2, rfl⟩
    rw [List.map_cons, List.foldl_cons, inWord, List.sum_cons, ← Nat.add_assoc]
    rcases put_cases inside short.1 with ⟨fits, length, overflowed, inside'⟩ | ⟨large, low, refused⟩ | ⟨high, stray⟩
    · have next := ih inside' short.2 ((s.put chunk).fits inside')
      rw [length] at next
      rw [advance_of_fits fits, decide_eq_true (Nat.lt_of_le_of_lt fits cap.toNat_lt), Bool.true_and]
      split
      · rename_i word
        rw [if_pos word] at next
        obtain ⟨stays, all, beyond⟩ := next
        exact ⟨stays, fun fits => ⟨(all fits).1, (all fits).2.trans overflowed⟩, beyond⟩
      · rename_i word
        rwa [if_neg word] at next
    · have next := ih (s := s.put chunk) (by rw [refused]; exact inside) short.2 (by rw [refused]; exact room)
      have length : (s.put chunk).out.length = s.out.length := by rw [refused]
      have marked : (s.put chunk).overflowed = true := by rw [refused]
      rw [length] at next
      rw [advance_of_not_fits large, decide_eq_true low, Bool.true_and]
      split
      · rename_i word
        rw [if_pos word] at next
        exact ⟨next.1, fun fits => by omega, fun _ => later.keeps.2 marked⟩
      · rename_i word
        rwa [if_neg word] at next
    · rw [decide_eq_false (Nat.not_lt.mpr high), Bool.false_and, if_neg Bool.false_ne_true]
      exact later.keeps.1 stray

end Sink

section
variable {C : LuaConf} {cap : UInt32}

/-- The size of a scalar on the wire, without its tag. -/
def LuaScalar.payloadSize : LuaScalar C → Nat
  | .boolean _ => 1
  | .integer _ => 8
  | .number _ => 8
  | .string bytes => 4 + bytes.length

/-- The size of an element of a sequence on the wire. -/
def LuaElem.encodedSize : LuaElem C → Nat
  | .scalar v => v.payloadSize
  | .other => 0

/-- The size of a field's value on the wire. -/
def LuaField.encodedSize : LuaField C → Nat
  | .scalar v => 1 + v.payloadSize
  | .table a => 6 + ((List.range a.size).map fun i : Nat => (a.get? (.integer (i + 1))).elim 0 LuaElem.encodedSize).sum
  | .other => 0

/-- The size of a table with string keys on the wire. -/
def LuaTable.encodedSize (t : LuaTable (LuaField C)) : Nat :=
  4 + (t.entries.map fun e => match e.1 with
    | .string key => 2 + key.length + e.2.encodedSize
    | _ => 0).sum

/-- A scalar, or a pure sequence of scalars of one kind. -/
def LuaField.Flat : LuaField C → Prop
  | .scalar _ => True
  | .table a => ∃ (elems : List (LuaScalar C)) (tag : UInt8), IsSequence a elems ∧ ∀ v ∈ elems, v.tag = tag
  | .other => False

/-- The constrained shape, of a table whose encoding fits. -/
structure Accepted (t : LuaTable (LuaField C)) (cap : UInt32) : Prop where
  count : t.size ≤ ltfMaxFields
  keys : ∀ e ∈ t.entries, ∃ key, e.1 = .string key ∧ key.length ≤ ltfMaxKeyLen
  values : ∀ e ∈ t.entries, e.2.Flat
  fits : t.encodedSize ≤ cap.toNat

/-- The call returns, having stored inside the buffer only; it accepts the constrained shape and
nothing else, and reports the size of the encoding, or 0. -/
def FlattenExact (v : LuaArg C) (cap : UInt32) : Prop :=
  ∃ r, luaTableFlatten v cap = .returns r ∧ r.written.length ≤ cap.toNat ∧
    (r.rc = .ok ↔ ∃ t, v = .table t ∧ Accepted t cap) ∧
    (r.rc = .ok → ∀ t, v = .table t → r.outLen.toNat = t.encodedSize) ∧ (r.rc ≠ .ok → r.outLen = 0)

/-- The sizes of the pieces in which a scalar is put. -/
def payloadPieces : LuaScalar C → List Nat
  | .boolean _ => [1]
  | .integer _ => List.replicate 8 1
  | .number _ => List.replicate 8 1
  | .string bytes => [1, 1, 1, 1, bytes.length]

def elemPieces (a : LuaTable (LuaElem C)) (i : Nat) : List Nat :=
  match a.get? (.integer (i + 1)) with
  | some (.scalar v) => payloadPieces v
  | _ => []

/-- The pieces of a value, tag included; `none` is a value that is refused. -/
def valuePieces : Option (LuaField C) → Option (List Nat)
  | some (.scalar v) => some (1 :: payloadPieces v)
  | some (.table a) =>
    match detectArray a with
    | .error _ => none
    | .ok (_, n) => some ([1, 1, 1, 1, 1, 1] ++ (List.range n).flatMap (elemPieces a))
  | _ => none

/-- The pieces of a field: the length of the key, the key, and its value. -/
def fieldPieces (t : LuaTable (LuaField C)) (key : List UInt8) : List Nat :=
  [1, 1, key.length] ++ (valuePieces (t.get? (.string key))).getD []

/-- Over the fields that are put, no piece would end behind the last byte a `uint32_t` counts.
The fields behind one that is refused, or does not fit, are not put. -/
def fieldsInWord (cap : UInt32) (t : LuaTable (LuaField C)) : Nat → List (List UInt8) → Bool
  | _, [] => true
  | pos, key :: keys =>
    inWord cap.toNat (2 ^ 32) pos (fieldPieces t key) &&
      if (valuePieces (t.get? (.string key))).isSome ∧ pos + (fieldPieces t key).sum ≤ cap.toNat then
        fieldsInWord cap t (pos + (fieldPieces t key).sum) keys
      else true

theorem emitPayload_puts {v : LuaScalar C} (short : v.Short (2 ^ 32)) (out : Sink cap) :
    out.Puts (payloadPieces v) (emitPayload v out) := by
  cases v with
  | boolean b => exact out.putU8_puts _
  | integer v => exact out.putU64_puts _
  | number x => exact out.putU64_puts _
  | string bytes => exact (out.putU32_puts _).trans (Sink.putBytes_puts _ short)

theorem emitElems_puts {a : LuaTable (LuaElem C)} (short : (LuaField.table a).Short (2 ^ 32)) (n : Nat)
    (out : Sink cap) : out.Puts ((List.range n).flatMap (elemPieces a)) ((List.range n).foldl (emitElem a) out) := by
  induction n with
  | zero => exact .refl out
  | succ n ih =>
    rw [List.range_succ, List.flatMap_append, List.foldl_append]
    refine ih.trans ?_
    rw [List.flatMap_singleton, List.foldl_cons, List.foldl_nil, elemPieces, emitElem]
    cases here : a.get? (.integer (n + 1)) with
    | none => exact .refl _
    | some e =>
      cases e with
      | other => exact .refl _
      | scalar v => exact emitPayload_puts (short _ v here) _

/-- What becomes of a value: it is put in its pieces, or refused before any. -/
theorem emitValue_puts {f : Option (LuaField C)} (short : ∀ g, f = some g → g.Short (2 ^ 32)) (out : Sink cap) :
    match valuePieces f with
    | some sizes => (emitValue f out).1 = .ok ∧ out.Puts sizes (emitValue f out).2
    | none => (emitValue f out).1 ≠ .ok ∧ (emitValue f out).2 = out := by
  match f with
  | none => exact ⟨Ltf.noConfusion, rfl⟩
  | some .other => exact ⟨Ltf.noConfusion, rfl⟩
  | some (.scalar v) => exact ⟨rfl, (out.putU8_puts _).trans (emitPayload_puts (short _ rfl) _)⟩
  | some (.table a) =>
    rw [valuePieces, emitValue, emitArray]
    cases detected : detectArray a with
    | error rc => exact ⟨detectArray_error detected, rfl⟩
    | ok found =>
      obtain ⟨tag, n⟩ := found
      refine ⟨rfl, ?_⟩
      exact (((out.putU8_puts _).trans (Sink.putU8_puts _ _)).trans (Sink.putU32_puts _ _)).trans
        (emitElems_puts (short _ rfl) n _)

theorem payloadPieces_small {v : LuaScalar C} (short : v.Short (2 ^ 31)) : ∀ n ∈ payloadPieces v, n < 2 ^ 31 := by
  cases v with
  | string bytes =>
    change bytes.length < 2 ^ 31 at short
    simpa [payloadPieces] using short
  | _ => simp [payloadPieces]

theorem fieldPieces_small {t : LuaTable (LuaField C)} {key : List UInt8} (brief : key.length ≤ ltfMaxKeyLen)
    (short : ∀ f, t.get? (.string key) = some f → f.Short (2 ^ 31)) : ∀ n ∈ fieldPieces t key, n < 2 ^ 31 := by
  have small : key.length < 2 ^ 31 := Nat.lt_of_le_of_lt brief (by decide)
  refine List.forall_mem_append.mpr ⟨by simpa using small, ?_⟩
  cases here : t.get? (.string key) with
  | none => exact nofun
  | some f =>
    have field := short f here
    cases f with
    | other => exact nofun
    | scalar v => exact List.forall_mem_cons.mpr ⟨by decide, payloadPieces_small field⟩
    | table a =>
      rw [valuePieces]
      cases detectArray a with
      | error rc => exact nofun
      | ok found =>
        refine List.forall_mem_append.mpr ⟨by simp, fun n member => ?_⟩
        obtain ⟨i, -, piece⟩ := List.mem_flatMap.mp member
        rw [elemPieces] at piece
        split at piece
        · rename_i v present
          exact payloadPieces_small (field _ v present) n piece
        · cases piece

/-- The values of all these fields have the constrained shape. -/
def ShapesPass (t : LuaTable (LuaField C)) (keys : List (List UInt8)) : Prop :=
  ∀ key ∈ keys, (valuePieces (t.get? (.string key))).isSome = true

def fieldsSize (t : LuaTable (LuaField C)) (keys : List (List UInt8)) : Nat :=
  (keys.map fun key => (fieldPieces t key).sum).sum

/-- The key of a field and what becomes of its value. -/
theorem emitField_puts {t : LuaTable (LuaField C)} {key : List UInt8} (brief : key.length ≤ ltfMaxKeyLen)
    (short : ∀ f, t.get? (.string key) = some f → f.Short (2 ^ 32)) (out : Sink cap) :
    out.Puts (fieldPieces t key) (emitValue (t.get? (.string key))
        ((out.putU16 (UInt16.ofNat key.length)).putBytes key (UInt32.ofNat key.length))).2 ∧
      ((emitValue (t.get? (.string key))
        ((out.putU16 (UInt16.ofNat key.length)).putBytes key (UInt32.ofNat key.length))).1 = .ok ↔
          (valuePieces (t.get? (.string key))).isSome = true) := by
  have small : key.length < 2 ^ 32 := Nat.lt_of_le_of_lt brief (by decide)
  have header := (out.putU16_puts (UInt16.ofNat key.length)).trans (Sink.putBytes_puts _ small)
  have value := emitValue_puts short ((out.putU16 (UInt16.ofNat key.length)).putBytes key (UInt32.ofNat key.length))
  rw [fieldPieces]
  cases pieces : valuePieces (t.get? (.string key)) with
  | none =>
    rw [pieces] at value
    obtain ⟨refused, same⟩ := value
    rw [same]
    exact ⟨header, iff_of_false refused Bool.false_ne_true⟩
  | some sizes =>
    rw [pieces] at value
    exact ⟨header.trans value.2, iff_of_true value.1 rfl⟩

/-- The first field, and then the others if it passed and fitted. -/
theorem emitFields_cons (t : LuaTable (LuaField C)) (key : List UInt8) (keys : List (List UInt8)) (out : Sink cap) :
    ∃ done, done = emitValue (t.get? (.string key))
        ((out.putU16 (UInt16.ofNat key.length)).putBytes key (UInt32.ofNat key.length)) ∧
      emitFields t (key :: keys) out =
        if done.1 = .ok ∧ done.2.overflowed = false then emitFields t keys done.2
        else (if done.1 = .ok then .overflow else done.1, done.2) := by
  refine ⟨_, rfl, ?_⟩
  rw [emitFields]
  generalize emitValue (t.get? (.string key))
    ((out.putU16 (UInt16.ofNat key.length)).putBytes key (UInt32.ofNat key.length)) = done
  obtain ⟨rc, out'⟩ := done
  cases rc with
  | ok => cases overflowed : out'.overflowed <;> simp [overflowed]
  | _ => simp

/-- The fields are put in pieces, as far as they come. -/
theorem emitFields_puts {t : LuaTable (LuaField C)} {keys : List (List UInt8)}
    (brief : ∀ key ∈ keys, key.length ≤ ltfMaxKeyLen) (short : ∀ k f, t.get? k = some f → f.Short (2 ^ 31))
    (out : Sink cap) : ∃ sizes, out.Puts sizes (emitFields t keys out).2 ∧ ∀ n ∈ sizes, n < 2 ^ 31 := by
  induction keys generalizing out with
  | nil => exact ⟨[], .refl out, nofun⟩
  | cons key keys ih =>
    rw [List.forall_mem_cons] at brief
    obtain ⟨puts, -⟩ := emitField_puts brief.1 (fun f here => (short (.string key) f here).mono (by decide)) out
    obtain ⟨done, same, emitted⟩ := emitFields_cons t key keys out
    have small := fieldPieces_small brief.1 (short (.string key))
    rw [← same] at puts
    rw [emitted]
    split
    · obtain ⟨sizes, later, small'⟩ := ih brief.2 done.2
      exact ⟨_, puts.trans later, List.forall_mem_append.mpr ⟨small, small'⟩⟩
    · exact ⟨_, puts, small⟩

/-- What becomes of the fields: outside the word a byte goes astray; inside it they succeed
exactly when every value has its shape and all fit together. -/
theorem emitFields_outcome {t : LuaTable (LuaField C)} {keys : List (List UInt8)} {out : Sink cap}
    (brief : ∀ key ∈ keys, key.length ≤ ltfMaxKeyLen) (short : ∀ k f, t.get? k = some f → f.Short (2 ^ 31))
    (inside : out.stray = false) (clean : out.overflowed = false) :
    if fieldsInWord cap t out.out.length keys then
      (emitFields t keys out).2.stray = false ∧
        ((emitFields t keys out).1 = .ok ↔
          ShapesPass t keys ∧ out.out.length + fieldsSize t keys ≤ cap.toNat) ∧
        ((emitFields t keys out).1 = .ok → (emitFields t keys out).2.overflowed = false ∧
          (emitFields t keys out).2.out.length = out.out.length + fieldsSize t keys)
    else (emitFields t keys out).2.stray = true := by
  induction keys generalizing out with
  | nil => exact ⟨inside, iff_of_true rfl ⟨nofun, out.fits inside⟩, fun _ => ⟨clean, rfl⟩⟩
  | cons key keys ih =>
    rw [List.forall_mem_cons] at brief
    obtain ⟨puts, passes⟩ := emitField_puts brief.1 (fun f here => (short (.string key) f here).mono (by decide)) out
    obtain ⟨done, same, emitted⟩ := emitFields_cons t key keys out
    rw [← same] at puts passes
    have field := puts.outcome inside
    have size : fieldsSize t (key :: keys) = (fieldPieces t key).sum + fieldsSize t keys := by
      rw [fieldsSize, List.map_cons, List.sum_cons, fieldsSize]
    have shapes : ShapesPass t (key :: keys) ↔ done.1 = .ok ∧ ShapesPass t keys := by
      rw [ShapesPass, List.forall_mem_cons, passes, ShapesPass]
    have walk : fieldsInWord cap t out.out.length (key :: keys) =
        (inWord cap.toNat (2 ^ 32) out.out.length (fieldPieces t key) &&
          if done.1 = .ok ∧ out.out.length + (fieldPieces t key).sum ≤ cap.toNat then
            fieldsInWord cap t (out.out.length + (fieldPieces t key).sum) keys
          else true) := by
      simp only [fieldsInWord, passes]
    rw [shapes, size, ← Nat.add_assoc]
    by_cases word : inWord cap.toNat (2 ^ 32) out.out.length (fieldPieces t key) = true
    swap
    · rw [if_neg word] at field
      rw [walk, Bool.eq_false_iff.mpr word, Bool.false_and, if_neg Bool.false_ne_true, emitted]
      split
      · obtain ⟨_, later, -⟩ := emitFields_puts brief.2 short done.2
        exact later.keeps.1 field
      · exact field
    rw [if_pos word] at field
    obtain ⟨stays, all, beyond⟩ := field
    rw [word, Bool.true_and] at walk
    by_cases passed : done.1 = .ok
    swap
    · rw [if_neg fun both => passed both.1] at emitted walk
      rw [if_neg passed] at emitted
      rw [walk, if_pos rfl, emitted]
      exact ⟨stays, iff_of_false passed fun both => passed both.1.1, fun ok => absurd ok passed⟩
    by_cases fits : out.out.length + (fieldPieces t key).sum ≤ cap.toNat
    · obtain ⟨length, overflowed⟩ := all fits
      rw [clean] at overflowed
      have next := ih brief.2 stays overflowed
      rw [length] at next
      rw [if_pos ⟨passed, overflowed⟩] at emitted
      rw [if_pos ⟨passed, fits⟩] at walk
      rw [walk, emitted]
      simpa only [passed, true_and] using next
    · have overflowed := beyond (Nat.lt_of_not_le fits)
      have refused : ¬(done.1 = .ok ∧ done.2.overflowed = false) := fun both => by
        rw [overflowed] at both
        cases both.2
      rw [if_neg refused, if_pos passed] at emitted
      rw [if_neg fun both => fits both.2] at walk
      rw [walk, if_pos rfl, emitted]
      refine ⟨stays, iff_of_false Ltf.noConfusion fun both => ?_, Ltf.noConfusion⟩
      omega

theorem IsSequence.size {a : LuaTable (LuaElem C)} {elems : List (LuaScalar C)} (sequence : IsSequence a elems) :
    a.size = elems.length := by
  have indices : ((List.range elems.length).map fun i : Nat => LuaKey.integer (i + 1)).Nodup :=
    List.nodup_range.map fun i j same => by simpa using same
  have perm : (a.entries.map Sigma.fst).Perm ((List.range elems.length).map fun i : Nat => LuaKey.integer (i + 1)) := by
    refine (List.perm_ext_iff_of_nodup a.keys_nodup indices).mpr fun k => ?_
    rw [LuaTable.mem_keys_iff, List.mem_map]
    constructor
    · rintro ⟨e, here⟩
      rw [sequence] at here
      cases k with
      | string bytes => cases here
      | other id => cases here
      | integer j =>
        rw [sequenceAt] at here
        split at here
        · obtain ⟨v, there, -⟩ := Option.map_eq_some_iff.mp here
          have inside := (List.getElem?_eq_some_iff.mp there).1
          refine ⟨(j - 1).toNat, List.mem_range.mpr inside, ?_⟩
          rw [LuaKey.integer.injEq]
          omega
        · cases here
    · rintro ⟨i, member, rfl⟩
      rw [List.mem_range] at member
      exact ⟨_, by rw [sequence, sequenceAt_succ, List.getElem?_eq_getElem member]; rfl⟩
  have length := perm.length_eq
  rwa [List.length_map, List.length_map, List.length_range] at length

/-- The loop passes the elements of a sequence of one kind, of which `n` are behind it. -/
theorem detectLoop_sequence {a : LuaTable (LuaElem C)} {elems : List (LuaScalar C)} {tag : UInt8}
    (sequence : IsSequence a elems) (tags : ∀ v ∈ elems, v.tag = tag) {n left : Nat} {found : UInt8}
    (behind : n ≤ elems.length) (room : elems.length < n + left) (known : 0 < n → found = tag) :
    ∃ tag', detectLoop a found n left = .ok (tag', elems.length) := by
  induction left generalizing n found with
  | zero => omega
  | succ left ih =>
    have here : a.get? (.integer (n + 1)) = (elems[n]?).map .scalar := by rw [sequence, sequenceAt_succ]
    rw [detectLoop, here]
    rcases Nat.lt_or_eq_of_le behind with inside | last
    · rw [List.getElem?_eq_getElem inside]
      have tagged : elems[n].tag = tag := tags _ (List.getElem_mem inside)
      dsimp only [Option.map_some]
      split
      · exact ih inside (by omega) fun _ => tagged
      · rename_i later
        have same := known (Nat.pos_of_ne_zero later)
        rw [if_neg (by rw [tagged, same]; exact fun differ => differ rfl)]
        exact ih inside (by omega) fun _ => same
    · rw [last, List.getElem?_eq_none (Nat.le_refl _)]
      exact ⟨found, rfl⟩

/-- A table that `detect_array` passes is a sequence of scalars of one kind, and not too long. -/
theorem detectArray_iff {a : LuaTable (LuaElem C)} :
    (∃ found, detectArray a = .ok found) ↔
      ∃ (elems : List (LuaScalar C)) (tag : UInt8), IsSequence a elems ∧ (∀ v ∈ elems, v.tag = tag) ∧
        elems.length < 0xffffffff := by
  constructor
  · rintro ⟨⟨tag, n⟩, detected⟩
    obtain ⟨elems, sequence, length, count, tags⟩ := detectArray_ok detected
    exact ⟨elems, tag, sequence, tags, length ▸ count⟩
  · rintro ⟨elems, tag, sequence, tags, count⟩
    have passes : ∃ tag', detectLoop a 0 0 0xffffffff = .ok (tag', elems.length) :=
      detectLoop_sequence sequence tags (Nat.zero_le _) (by omega) fun positive => absurd positive (Nat.lt_irrefl 0)
    obtain ⟨tag', looped⟩ := passes
    refine ⟨(tag', elems.length), ?_⟩
    rw [detectArray, looped]
    dsimp only
    rw [if_neg (not_not.mpr sequence.size)]

theorem sum_payloadPieces (v : LuaScalar C) : (payloadPieces v).sum = v.payloadSize := by
  cases v with
  | string bytes =>
    simp only [payloadPieces, LuaScalar.payloadSize, List.sum_cons, List.sum_nil]
    omega
  | _ => rfl

theorem sum_flatMap_range (f : Nat → List Nat) (n : Nat) :
    ((List.range n).flatMap f).sum = ((List.range n).map fun i => (f i).sum).sum := by
  rw [List.flatMap_def, List.sum_flatten, List.map_map]
  rfl

/-- The pieces of a value make up its encoding. -/
theorem sum_valuePieces {f : LuaField C} {sizes : List Nat} (pieces : valuePieces (some f) = some sizes) :
    sizes.sum = f.encodedSize := by
  cases f with
  | other => cases pieces
  | scalar v =>
    cases pieces
    rw [List.sum_cons, sum_payloadPieces, LuaField.encodedSize]
  | table a =>
    rw [valuePieces] at pieces
    cases detected : detectArray a with
    | error rc =>
      rw [detected] at pieces
      cases pieces
    | ok found =>
      obtain ⟨tag, n⟩ := found
      obtain ⟨elems, sequence, length, -⟩ := detectArray_ok detected
      rw [detected] at pieces
      cases pieces
      rw [List.sum_append, sum_flatMap_range, LuaField.encodedSize, sequence.size, ← length]
      congr 2
      refine List.map_congr_left fun i _ => ?_
      rw [elemPieces]
      cases a.get? (.integer (i + 1)) with
      | none => rfl
      | some e =>
        cases e with
        | other => rfl
        | scalar v => exact sum_payloadPieces v

theorem payloadSize_pos (v : LuaScalar C) : 1 ≤ v.payloadSize := by
  cases v with
  | boolean b => exact Nat.le_refl 1
  | integer v => exact Nat.le_add_left 1 7
  | number x => exact Nat.le_add_left 1 7
  | string bytes => exact (Nat.le_add_left 1 3).trans (Nat.le_add_right ..)

/-- Every element takes a byte. -/
theorem IsSequence.le_encodedSize {a : LuaTable (LuaElem C)} {elems : List (LuaScalar C)}
    (sequence : IsSequence a elems) : elems.length + 6 ≤ (LuaField.table a).encodedSize := by
  have each : ∀ size ∈ (List.range a.size).map fun i : Nat => (a.get? (.integer (i + 1))).elim 0 LuaElem.encodedSize,
      1 ≤ size := by
    intro size member
    obtain ⟨i, inside, rfl⟩ := List.mem_map.mp member
    rw [List.mem_range, sequence.size] at inside
    rw [sequence, sequenceAt_succ, List.getElem?_eq_getElem inside]
    exact payloadSize_pos _
  have sum := List.length_le_sum_of_one_le _ each
  rw [List.length_map, List.length_range, sequence.size] at sum
  rw [LuaField.encodedSize, sequence.size]
  omega

/-- The values that pass are the flat ones, but for a sequence that no buffer could hold. -/
theorem isSome_valuePieces_iff {f : LuaField C} (bound : f.encodedSize < 2 ^ 32) :
    (valuePieces (some f)).isSome = true ↔ f.Flat := by
  cases f with
  | other => exact iff_of_false Bool.false_ne_true id
  | scalar v => exact iff_of_true rfl trivial
  | table a =>
    have passes : (valuePieces (some (.table a))).isSome = true ↔ ∃ found, detectArray a = .ok found := by
      rw [valuePieces]
      cases detectArray a with
      | error rc => exact iff_of_false Bool.false_ne_true nofun
      | ok found => exact iff_of_true rfl ⟨found, rfl⟩
    rw [passes, detectArray_iff]
    constructor
    · rintro ⟨elems, tag, sequence, tags, -⟩
      exact ⟨elems, tag, sequence, tags⟩
    · rintro ⟨elems, tag, sequence, tags⟩
      have size := sequence.le_encodedSize
      exact ⟨elems, tag, sequence, tags, by omega⟩

/-- The keys of a table in the constrained shape are collected. -/
theorem Accepted.collected {t : LuaTable (LuaField C)} (accepted : Accepted t cap) :
    ∃ names, collectKeys t.entries [] = .ok names := by
  cases run : collectKeys t.entries [] with
  | ok names => exact ⟨names, rfl⟩
  | error rc =>
    have foreign : (t.entries.map Sigma.fst).countP LuaKey.isForeign = 0 := by
      rw [List.countP_eq_zero, List.forall_mem_map]
      intro e member
      obtain ⟨key, is, -⟩ := accepted.keys e member
      rw [is]
      exact Bool.false_ne_true
    have long : (t.entries.map Sigma.fst).countP LuaKey.isLong = 0 := by
      rw [List.countP_eq_zero, List.forall_mem_map]
      intro e member
      obtain ⟨key, is, brief⟩ := accepted.keys e member
      rw [is, LuaKey.isLong, decide_eq_true_iff]
      exact Nat.not_lt.mpr brief
    have many : (t.entries.map Sigma.fst).countP LuaKey.isFitting ≤ ltfMaxFields := by
      refine List.countP_le_length.trans ?_
      rw [List.length_map]
      exact accepted.count
    have possible := collectKeys_error_of run
    rw [List.length_nil, Nat.zero_add] at possible
    omega

section
variable {t : LuaTable (LuaField C)} {names : List (List UInt8)}

theorem mem_names_iff (collected : collectKeys t.entries [] = .ok names) {key : List UInt8} :
    key ∈ names ↔ ∃ f, t.get? (.string key) = some f := by
  have all := (collectKeys_ok collected (Nat.zero_le _) (by simp)).1
  rw [List.map_nil, List.nil_append] at all
  rw [← LuaTable.mem_keys_iff, ← all, List.mem_map_of_injective fun _ _ => LuaKey.string.inj]

/-- The entries are the fields under the collected keys. -/
theorem forall_entries_iff (collected : collectKeys t.entries [] = .ok names) {P : LuaField C → Prop} :
    (∀ e ∈ t.entries, P e.2) ↔ ∀ key ∈ names, ∀ f, t.get? (.string key) = some f → P f := by
  have all := (collectKeys_ok collected (Nat.zero_le _) (by simp)).1
  rw [List.map_nil, List.nil_append] at all
  constructor
  · intro holds key _ f here
    exact holds ⟨_, f⟩ (LuaTable.mem_entries_iff.mpr here)
  · rintro holds ⟨k, f⟩ member
    have known : k ∈ names.map LuaKey.string := all ▸ List.mem_map_of_mem member
    obtain ⟨key, inside, rfl⟩ := List.mem_map.mp known
    exact holds key inside f (LuaTable.mem_entries_iff.mp member)

/-- The pieces of all fields make up the encoding. -/
theorem fieldsSize_eq (collected : collectKeys t.entries [] = .ok names) (pass : ShapesPass t names) :
    4 + fieldsSize t names = t.encodedSize := by
  have all := (collectKeys_ok collected (Nat.zero_le _) (by simp)).1
  rw [List.map_nil, List.nil_append] at all
  let pieces : LuaKey → Nat := fun k => match k with
    | .string key => (fieldPieces t key).sum
    | _ => 0
  have sizes : names.map (fun key => (fieldPieces t key).sum) = t.entries.map fun e => pieces e.1 := by
    have both := congrArg (List.map pieces) all
    rwa [List.map_map, List.map_map] at both
  rw [fieldsSize, sizes, LuaTable.encodedSize]
  congr 2
  refine List.map_congr_left fun e member => ?_
  obtain ⟨k, f⟩ := e
  have known : k ∈ names.map LuaKey.string := all ▸ List.mem_map_of_mem member
  obtain ⟨key, inside, rfl⟩ := List.mem_map.mp known
  have here := LuaTable.mem_entries_iff.mp member
  obtain ⟨value, is⟩ := Option.isSome_iff_exists.mp (pass key inside)
  show (fieldPieces t key).sum = 2 + key.length + f.encodedSize
  rw [here] at is
  rw [fieldPieces, here, is, Option.getD_some, List.sum_append, sum_valuePieces is]
  simp only [List.sum_cons, List.sum_nil]
  omega

/-- No value is larger than the encoding it is part of. -/
theorem encodedSize_le {key : List UInt8} {f : LuaField C}
    (here : t.get? (.string key) = some f) : f.encodedSize ≤ t.encodedSize := by
  have member : 2 + key.length + f.encodedSize ∈ t.entries.map fun e => match e.1 with
      | .string key => 2 + key.length + e.2.encodedSize
      | _ => 0 := List.mem_map.mpr ⟨⟨_, f⟩, LuaTable.mem_entries_iff.mpr here, rfl⟩
  have le := List.single_le_sum (fun _ _ => Nat.zero_le _) _ member
  rw [LuaTable.encodedSize]
  omega

/-- All values pass and fit exactly when the table has the constrained shape and fits. -/
theorem shapesPass_iff (collected : collectKeys t.entries [] = .ok names) (cap : UInt32) :
    (ShapesPass t names ∧ 4 + fieldsSize t names ≤ cap.toNat) ↔ Accepted t cap := by
  obtain ⟨all, count, lengths⟩ := collectKeys_ok collected (Nat.zero_le _) (by simp)
  rw [List.map_nil, List.nil_append] at all
  have word := cap.toNat_lt
  have flat : t.encodedSize ≤ cap.toNat → (ShapesPass t names ↔ ∀ e ∈ t.entries, e.2.Flat) := by
    intro fits
    rw [forall_entries_iff collected]
    refine forall₂_congr fun key inside => ?_
    obtain ⟨f, here⟩ := (mem_names_iff collected).mp inside
    have bound := encodedSize_le here
    rw [here, isSome_valuePieces_iff (by omega)]
    simp
  constructor
  · rintro ⟨pass, fits⟩
    rw [fieldsSize_eq collected pass] at fits
    refine ⟨?_, fun e member => ?_, (flat fits).mp pass, fits⟩
    · have length := congrArg List.length all
      rw [List.length_map, List.length_map] at length
      exact length.symm.trans_le count
    · have known : e.1 ∈ names.map LuaKey.string := all ▸ List.mem_map_of_mem member
      obtain ⟨key, inside, is⟩ := List.mem_map.mp known
      exact ⟨key, is.symm, lengths key inside⟩
  · intro accepted
    have pass := (flat accepted.fits).mpr accepted.values
    exact ⟨pass, (fieldsSize_eq collected pass).trans_le accepted.fits⟩

end

/-- Of the header and the fields no piece that is put would end behind the last byte a `uint32_t`
counts. Where not even the header fits, nothing long is put. -/
def LuaArg.inWord (v : LuaArg C) (cap : UInt32) : Bool :=
  match v with
  | .other => true
  | .table t =>
    match collectKeys t.entries [] with
    | .error _ => true
    | .ok names => decide (cap.toNat < 4) || fieldsInWord cap t 4 (keySort names)

theorem Sink.header_outcome (cap : UInt32) (v : UInt32) :
    ((Sink.start cap).putU32 v).stray = false ∧
      (4 ≤ cap.toNat → ((Sink.start cap).putU32 v).out.length = 4 ∧ ((Sink.start cap).putU32 v).overflowed = false) ∧
      (cap.toNat < 4 → ((Sink.start cap).putU32 v).overflowed = true) := by
  have puts := (Sink.start cap).putU32_puts v
  have header := puts.outcome rfl
  have word : (Sink.start cap).out.length + [1, 1, 1, 1].sum < 2 ^ 32 := (by decide : 4 < 2 ^ 32)
  rw [if_pos (inWord_of_sum_lt word)] at header
  exact header

theorem luaTableFlatten_collected {t : LuaTable (LuaField C)} {names : List (List UInt8)}
    (collected : collectKeys t.entries [] = .ok names) (cap : UInt32) :
    ∃ done, done = emitFields t (keySort names) ((Sink.start cap).putU32 (UInt32.ofNat names.length)) ∧
      luaTableFlatten (.table t) cap =
        if done.2.stray then .outOfBounds
        else if done.1 ≠ .ok then .returns ⟨done.1, 0, done.2.out⟩
        else if done.2.overflowed then .returns ⟨.overflow, 0, done.2.out⟩
        else .returns ⟨.ok, done.2.pos, done.2.out⟩ := by
  refine ⟨_, rfl, ?_⟩
  simp only [luaTableFlatten, collected]

/-- A refused table: nothing is reported. -/
theorem FlattenExact.refused {v : LuaArg C} {rc : Ltf} {written : List UInt8}
    (run : luaTableFlatten v cap = .returns ⟨rc, 0, written⟩) (failed : rc ≠ .ok) (inside : written.length ≤ cap.toNat)
    (bad : ¬∃ t, v = .table t ∧ Accepted t cap) : FlattenExact v cap :=
  ⟨_, run, inside, iff_of_false failed bad, fun ok => absurd ok failed, fun _ => rfl⟩

theorem exists_accepted_iff {t : LuaTable (LuaField C)} {cap : UInt32} :
    (∃ u, LuaArg.table t = .table u ∧ Accepted u cap) ↔ Accepted t cap := by
  constructor
  · rintro ⟨_, same, accepted⟩
    cases same
    exact accepted
  · exact fun accepted => ⟨t, rfl, accepted⟩

theorem flattenExact_of_keys_refused {t : LuaTable (LuaField C)} {rc : Ltf} (collected : collectKeys t.entries [] = .error rc)
    (cap : UInt32) : FlattenExact (.table t) cap := by
  refine .refused (luaTableFlatten_error collected cap) (collectKeys_error collected) (Nat.zero_le _) fun accepted => ?_
  obtain ⟨names, ok⟩ := (exists_accepted_iff.mp accepted).collected
  rw [collected] at ok
  cases ok

section
variable {t : LuaTable (LuaField C)} {names : List (List UInt8)}

theorem keySort_brief (collected : collectKeys t.entries [] = .ok names) :
    ∀ key ∈ keySort names, key.length ≤ ltfMaxKeyLen := fun key member =>
  (collectKeys_ok collected (Nat.zero_le _) (by simp)).2.2 key ((keySort_perm names).subset member)

/-- A buffer too small for the header: what comes behind it is too short to wrap around. -/
theorem flattenExact_of_no_header (collected : collectKeys t.entries [] = .ok names)
    (short : ∀ k f, t.get? k = some f → f.Short (2 ^ 31)) (header : cap.toNat < 4) : FlattenExact (.table t) cap := by
  obtain ⟨inside, -, narrow⟩ := Sink.header_outcome cap (UInt32.ofNat names.length)
  obtain ⟨done, same, run⟩ := luaTableFlatten_collected collected cap
  obtain ⟨sizes, puts, small⟩ := emitFields_puts (keySort_brief collected) short
    ((Sink.start cap).putU32 (UInt32.ofNat names.length))
  have fields := puts.outcome inside
  rw [if_pos (inWord_of_le (by omega : cap.toNat + 2 ^ 31 < 2 ^ 32) (Sink.fits _ inside)
    fun n member => (small n member).le), ← same] at fields
  have overflowed := puts.keeps.2 (narrow header)
  rw [← same] at overflowed
  rw [fields.1, if_neg Bool.false_ne_true, overflowed, if_pos rfl] at run
  have bad : ¬∃ u, LuaArg.table t = .table u ∧ Accepted u cap := by
    intro accepted
    have fits := ((shapesPass_iff collected cap).mpr (exists_accepted_iff.mp accepted)).2
    omega
  split at run
  · rename_i failed
    exact .refused run failed (done.2.fits fields.1) bad
  · exact .refused run Ltf.noConfusion (done.2.fits fields.1) bad

theorem flattenExact_of_header (collected : collectKeys t.entries [] = .ok names)
    (short : ∀ k f, t.get? k = some f → f.Short (2 ^ 31)) (header : 4 ≤ cap.toNat) :
    FlattenExact (.table t) cap ↔ fieldsInWord cap t 4 (keySort names) = true := by
  have pass : ShapesPass t (keySort names) ↔ ShapesPass t names :=
    ⟨fun holds key member => holds key ((keySort_perm names).symm.subset member),
      fun holds key member => holds key ((keySort_perm names).subset member)⟩
  have size : fieldsSize t (keySort names) = fieldsSize t names := ((keySort_perm names).map _).sum_nat
  have shape := shapesPass_iff collected cap
  obtain ⟨inside, wide, -⟩ := Sink.header_outcome cap (UInt32.ofNat names.length)
  obtain ⟨done, same, run⟩ := luaTableFlatten_collected collected cap
  obtain ⟨length, clean⟩ := wide header
  have fields := emitFields_outcome (keySort_brief collected) short inside clean
  rw [length, pass, size, shape, ← same] at fields
  by_cases word : fieldsInWord cap t 4 (keySort names) = true
  swap
  · rw [if_neg word] at fields
    rw [fields, if_pos rfl] at run
    refine iff_of_false ?_ word
    rintro ⟨r, returned, -⟩
    rw [run] at returned
    cases returned
  rw [if_pos word] at fields
  obtain ⟨stays, ok_iff, reports⟩ := fields
  refine iff_of_true ?_ word
  rw [stays, if_neg Bool.false_ne_true] at run
  have accepts : done.1 = .ok ↔ ∃ u, LuaArg.table t = .table u ∧ Accepted u cap := by
    rw [ok_iff, exists_accepted_iff]
  by_cases ok : done.1 = .ok
  · obtain ⟨unmarked, whole⟩ := reports ok
    have passed := (shape.mpr (ok_iff.mp ok)).1
    rw [if_neg (not_not.mpr ok), unmarked, if_neg Bool.false_ne_true] at run
    refine ⟨_, run, done.2.fits stays, iff_of_true rfl (accepts.mp ok), fun _ _ is => ?_, fun failed => absurd rfl failed⟩
    cases is
    have room := done.2.fits stays
    have counted : done.2.pos.toNat = done.2.out.length :=
      UInt32.toNat_ofNat_of_lt' (Nat.lt_of_le_of_lt room cap.toNat_lt)
    exact counted.trans (whole.trans (fieldsSize_eq collected passed))
  · rw [if_pos ok] at run
    exact .refused run ok (done.2.fits stays) fun accepted => ok (accepts.mpr accepted)

end

/-- `lua_table_flatten` accepts exactly the constrained shape, reports its size and stays in its
buffer, as long as no end of a piece wraps around. -/
theorem flattenExact_iff (v : LuaArg C) (cap : UInt32)
    (short : ∀ t, v = .table t → ∀ k f, t.get? k = some f → f.Short (2 ^ 31)) :
    FlattenExact v cap ↔ v.inWord cap = true := by
  cases v with
  | other =>
    refine iff_of_true (.refused rfl Ltf.noConfusion (Nat.zero_le _) ?_) rfl
    rintro ⟨t, same, -⟩
    cases same
  | table t =>
    have short := short t rfl
    cases collected : collectKeys t.entries [] with
    | error rc =>
      rw [LuaArg.inWord, collected]
      exact iff_of_true (flattenExact_of_keys_refused collected cap) rfl
    | ok names =>
      rw [LuaArg.inWord, collected]
      dsimp only
      by_cases header : cap.toNat < 4
      · rw [decide_eq_true header, Bool.true_or]
        exact iff_of_true (flattenExact_of_no_header collected short header) rfl
      · rw [decide_eq_false header, Bool.false_or]
        exact flattenExact_of_header collected short (Nat.le_of_not_lt header)

theorem fieldsInWord_of_half {t : LuaTable (LuaField C)} {keys : List (List UInt8)} {pos : Nat} (half : cap.toNat < 2 ^ 31)
    (brief : ∀ key ∈ keys, key.length ≤ ltfMaxKeyLen) (short : ∀ k f, t.get? k = some f → f.Short (2 ^ 31))
    (start : pos ≤ cap.toNat) : fieldsInWord cap t pos keys = true := by
  induction keys generalizing pos with
  | nil => rfl
  | cons key keys ih =>
    rw [List.forall_mem_cons] at brief
    have small := fieldPieces_small brief.1 (short (.string key))
    rw [fieldsInWord, ChunkWalk.inWord_of_le (by omega : cap.toNat + 2 ^ 31 < 2 ^ 32) start fun n member =>
      (small n member).le, Bool.true_and]
    split
    · rename_i both
      exact ih brief.2 both.2
    · rfl

end

/-- An array of one NaN and a string. -/
theorem flattenExact_nanTable : FlattenExact (.table nanTable) 256 :=
  (flattenExact_iff (.table nanTable) 256 fun t same k f here => by cases same; exact nanTable_short k f here).mpr
    (by decide +kernel)

/-- Two strings, under `a` and `b`. -/
def twoStrings (first second : List UInt8) : LuaTable (LuaField luaConf64) :=
  (LuaTable.empty.set (.string [97]) (.scalar (.string first))).set (.string [98]) (.scalar (.string second))

/-- Behind a string of `2 ^ 31 - 1` bytes a second one ends behind `2 ^ 32`. -/
theorem flatten_twoStrings {first second : List UInt8} (length : first.length = 2147483647)
    (length' : second.length = 2147483647) :
    luaTableFlatten (.table (twoStrings first second)) 0xffffffff = .outOfBounds := by
  have collected : collectKeys (twoStrings first second).entries [] = .ok [[98], [97]] := rfl
  have sorted : keySort [[98], [97]] = [[97], [98]] := rfl
  have short : ∀ k f, (twoStrings first second).get? k = some f → f.Short (2 ^ 31) := by
    intro k f here
    have one : (LuaTable.empty.set (.string [97]) (.scalar (.string first)) : LuaTable (LuaField luaConf64)).size + 1 <
        2 ^ 32 := Nat.lt_of_le_of_lt (Nat.succ_le_succ (LuaTable.size_set_le ..)) (by rw [LuaTable.size_empty]; decide)
    rw [twoStrings, LuaTable.get?_set one] at here
    split at here
    · cases here
      exact length'.trans_lt (by decide)
    · rw [LuaTable.get?_set (by decide)] at here
      split at here
      · cases here
        exact length.trans_lt (by decide)
      · cases here
  have pieces : fieldPieces (twoStrings first second) [97] = [1, 1, 1, 1, 1, 1, 1, 1, 2147483647] := by
    rw [← length]
    rfl
  have pieces' : fieldPieces (twoStrings first second) [98] = [1, 1, 1, 1, 1, 1, 1, 1, 2147483647] := by
    rw [← length']
    rfl
  have passes : (valuePieces ((twoStrings first second).get? (.string [97]))).isSome = true := rfl
  have second_wraps : inWord (0xffffffff : UInt32).toNat (2 ^ 32) (4 + [1, 1, 1, 1, 1, 1, 1, 1, 2147483647].sum)
      [1, 1, 1, 1, 1, 1, 1, 1, 2147483647] = false := by decide
  have wraps : fieldsInWord 0xffffffff (twoStrings first second) 4 [[97], [98]] = false := by
    rw [fieldsInWord, fieldsInWord, pieces, pieces', second_wraps, Bool.false_and,
      if_pos ⟨passes, by decide⟩, Bool.and_false]
  obtain ⟨inside, wide, -⟩ := Sink.header_outcome 0xffffffff 2
  obtain ⟨header, clean⟩ := wide (by decide)
  obtain ⟨done, same, run⟩ := luaTableFlatten_collected collected 0xffffffff
  have fields := emitFields_outcome (by decide : ∀ key ∈ [[97], [98]], (key : List UInt8).length ≤ ltfMaxKeyLen) short inside clean
  rw [header, wraps, if_neg Bool.false_ne_true] at fields
  rw [sorted] at same
  rw [same] at run
  exact run.trans (if_pos fields)

/-- Two strings of `2 ^ 31 - 1` bytes, into a buffer that the second does not fit. -/
theorem not_flattenExact :
    ¬FlattenExact (.table (twoStrings (List.replicate 2147483647 0) (List.replicate 2147483647 0))) 0xffffffff := by
  rintro ⟨r, run, -⟩
  rw [flatten_twoStrings List.length_replicate List.length_replicate] at run
  cases run

end Blyt
