import Mathlib.Data.List.Sort
import Blyt.Lib.Packed
import Blyt.TableFlatten

namespace Blyt

open Packed (leBytes)

/-- `key_cmp` orders keys as byte strings are ordered, a prefix first. -/
theorem keyCmp_nonpos_iff (a b : List UInt8) : keyCmp a b ≤ 0 ↔ a ≤ b := by
  induction a generalizing b with
  | nil => cases b <;> simp [keyCmp]
  | cons x xs ih =>
    cases b with
    | nil => simp [keyCmp]
    | cons y ys =>
      rw [keyCmp, List.cons_le_cons_iff]
      split
      · rename_i differ
        have order : x < y ∨ y < x := by
          rcases Nat.lt_or_gt_of_ne fun same => differ (UInt8.toNat_inj.mp same) with less | greater
          · exact Or.inl (UInt8.lt_iff_toNat_lt.mpr less)
          · exact Or.inr (UInt8.lt_iff_toNat_lt.mpr greater)
        simp only [differ, false_and, or_false, UInt8.lt_iff_toNat_lt] at order ⊢
        omega
      · rename_i same
        rw [ne_eq, not_not] at same
        rw [ih, same]
        simp only [true_and, UInt8.lt_irrefl, false_or]

theorem keyInsert_eq (cur : List UInt8) (sorted : List (List UInt8)) :
    keyInsert cur sorted = sorted.orderedInsert (· ≥ ·) cur := by
  induction sorted with
  | nil => rfl
  | cons key keys ih =>
    rw [keyInsert, List.orderedInsert_cons, ih]
    by_cases before : key ≤ cur
    · rw [if_neg (by rw [gt_iff_lt, Int.not_lt]; exact (keyCmp_nonpos_iff key cur).mpr before), if_pos before]
    · have above : keyCmp key cur > 0 := by
        by_contra below
        exact before ((keyCmp_nonpos_iff key cur).mp (Int.not_lt.mp below))
      rw [if_pos above, if_neg before]

theorem keySort_eq (keys : List (List UInt8)) :
    keySort keys = (keys.reverse.insertionSort (· ≥ ·)).reverse := by
  rw [keySort, List.insertionSort, List.foldr_reverse]
  simp only [keyInsert_eq]

theorem keySort_perm (keys : List (List UInt8)) : (keySort keys).Perm keys := by
  rw [keySort_eq]
  exact (List.reverse_perm _).trans ((List.perm_insertionSort _ _).trans (List.reverse_perm _))

theorem keySort_sorted (keys : List (List UInt8)) : (keySort keys).Pairwise (· ≤ ·) := by
  rw [keySort_eq, List.pairwise_reverse]
  exact List.pairwise_insertionSort (· ≥ ·) _

/-- The order in which the keys were collected does not show after the sort. -/
theorem keySort_eq_of_perm {u v : List (List UInt8)} (perm : u.Perm v) : keySort u = keySort v :=
  ((keySort_perm u).trans (perm.trans (keySort_perm v).symm)).eq_of_pairwise' (keySort_sorted u) (keySort_sorted v)

namespace Sink
variable {cap : UInt32}

/-- Nothing was refused and nothing was stored outside the buffer. -/
def Clean (s : Sink cap) : Prop := s.overflowed = false ∧ s.stray = false

/-- `s'` comes from `s` by writing `bytes`, if all went well. -/
def Wrote (s : Sink cap) (bytes : List UInt8) (s' : Sink cap) : Prop :=
  s'.Clean → s.Clean ∧ s'.out = s.out ++ bytes

theorem Wrote.refl (s : Sink cap) : s.Wrote [] s := fun clean => ⟨clean, (List.append_nil _).symm⟩

theorem Wrote.trans {s s' s'' : Sink cap} {bytes more : List UInt8} (first : s.Wrote bytes s')
    (second : s'.Wrote more s'') : s.Wrote (bytes ++ more) s'' := by
  intro clean
  obtain ⟨clean', out'⟩ := second clean
  obtain ⟨clean, out⟩ := first clean'
  exact ⟨clean, by rw [out', out, List.append_assoc]⟩

theorem store_wrote (s : Sink cap) (bytes : List UInt8) : s.Wrote bytes (s.store bytes) := by
  intro clean
  exact ⟨⟨clean.1, (Bool.or_eq_false_iff.mp clean.2).1⟩, rfl⟩

theorem putU8_wrote (s : Sink cap) (v : UInt8) : s.Wrote [v] (s.putU8 v) := by
  unfold putU8
  split
  · exact fun clean => absurd clean.1 Bool.true_eq_false.mp
  · exact s.store_wrote [v]

theorem putBytes_wrote (s : Sink cap) (src : List UInt8) (n : UInt32) :
    s.Wrote (src.take n.toNat) (s.putBytes src n) := by
  unfold putBytes
  split
  · exact fun clean => absurd clean.1 Bool.true_eq_false.mp
  · exact s.store_wrote _

theorem and_255 (n : Nat) : n &&& 255 = n % 256 := Nat.and_two_pow_sub_one_eq_mod n 8

theorem putU16_wrote (s : Sink cap) (v : UInt16) : s.Wrote (leBytes 2 v.toNat) (s.putU16 v) := by
  have bytes : leBytes 2 v.toNat = [(v &&& 0xff).toUInt8] ++ [((v >>> 8) &&& 0xff).toUInt8] := by
    simp [leBytes, ← UInt8.toNat_inj, and_255, Nat.shiftRight_eq_div_pow]
  rw [bytes]
  exact (putU8_wrote _ _).trans (putU8_wrote _ _)

theorem putU32_wrote (s : Sink cap) (v : UInt32) : s.Wrote (leBytes 4 v.toNat) (s.putU32 v) := by
  have bytes : leBytes 4 v.toNat = [(v &&& 0xff).toUInt8] ++ [((v >>> 8) &&& 0xff).toUInt8] ++
      [((v >>> 16) &&& 0xff).toUInt8] ++ [((v >>> 24) &&& 0xff).toUInt8] := by
    simp [leBytes, ← UInt8.toNat_inj, and_255, Nat.shiftRight_eq_div_pow, Nat.div_div_eq_div_mul]
  rw [bytes]
  exact (((putU8_wrote _ _).trans (putU8_wrote _ _)).trans (putU8_wrote _ _)).trans (putU8_wrote _ _)

theorem putU64_wrote (s : Sink cap) (v : UInt64) : s.Wrote (leBytes 8 v.toNat) (s.putU64 v) := by
  have low : ((v &&& 0xffffffff).toUInt32).toNat = v.toNat % 2 ^ 32 := by
    rw [UInt64.toNat_toUInt32, UInt64.toNat_and]
    exact (congrArg (· % 2 ^ 32) (Nat.and_two_pow_sub_one_eq_mod v.toNat 32)).trans (Nat.mod_mod _ _)
  have high : (((v >>> 32) &&& 0xffffffff).toUInt32).toNat = v.toNat / 2 ^ 32 % 2 ^ 32 := by
    rw [UInt64.toNat_toUInt32, UInt64.toNat_and, UInt64.toNat_shiftRight, ← Nat.shiftRight_eq_div_pow]
    exact (congrArg (· % 2 ^ 32) (Nat.and_two_pow_sub_one_eq_mod (v.toNat >>> 32) 32)).trans (Nat.mod_mod _ _)
  have bytes : leBytes 8 v.toNat = leBytes 4 (v.toNat % 2 ^ 32) ++ leBytes 4 (v.toNat / 2 ^ 32 % 2 ^ 32) := by
    rw [show 2 ^ 32 = 256 ^ 4 by decide, Packed.leBytes_mod, Packed.leBytes_mod]
    exact Packed.leBytes_add 4 4 v.toNat
  rw [bytes, ← low, ← high]
  exact (putU32_wrote _ _).trans (putU32_wrote _ _)

end Sink

/-- The entry of a sequence at a key: the elements sit at `1, 2, …` and nothing
sits elsewhere. -/
def sequenceAt {α : Type} (elems : List α) : LuaKey → Option α
  | .integer i => if 1 ≤ i then elems[(i - 1).toNat]? else none
  | _ => none

theorem sequenceAt_succ {α : Type} (elems : List α) (i : Nat) :
    sequenceAt elems (.integer (i + 1)) = elems[i]? := by
  rw [sequenceAt, if_pos (by omega)]
  congr 1
  omega

section
variable {C : LuaConf} {cap : UInt32}

/-- The table is the pure sequence of these scalars. -/
def IsSequence (a : LuaTable (LuaElem C)) (elems : List (LuaScalar C)) : Prop :=
  ∀ k, a.get? k = (sequenceAt elems k).map .scalar

/-- The payload of a scalar on the wire; the length of a string is cut to 32 bits. -/
def wirePayload : LuaScalar C → List UInt8
  | .boolean b => [if b then 1 else 0]
  | .integer v => leBytes 8 (C.toInt64 v).toNat
  | .number x => leBytes 8 (canonicalizeNan64 (C.toDouble x)).toNat
  | .string bytes => leBytes 4 bytes.length ++ bytes.take (bytes.length % 2 ^ 32)

/-- The wire format of a field's value, tag included. -/
inductive Wire : LuaField C → List UInt8 → Prop
  | scalar (v : LuaScalar C) : Wire (.scalar v) (v.tag :: wirePayload v)
  | array {a : LuaTable (LuaElem C)} {elems : List (LuaScalar C)} {tag : UInt8} (sequence : IsSequence a elems)
      (count : elems.length < 0xffffffff) (tags : ∀ v ∈ elems, v.tag = tag) :
      Wire (.table a) (ltfTagArray :: tag :: leBytes 4 elems.length ++ elems.flatMap wirePayload)

theorem emitPayload_wrote (v : LuaScalar C) (out : Sink cap) : out.Wrote (wirePayload v) (emitPayload v out) := by
  cases v with
  | boolean b => exact out.putU8_wrote _
  | integer v => exact out.putU64_wrote _
  | number x => exact out.putU64_wrote _
  | string bytes =>
    have counted := out.putU32_wrote (UInt32.ofNat bytes.length)
    have kept := (out.putU32 (UInt32.ofNat bytes.length)).putBytes_wrote bytes (UInt32.ofNat bytes.length)
    rw [UInt32.toNat_ofNat'] at counted kept
    rw [show 2 ^ 32 = 256 ^ 4 by decide, Packed.leBytes_mod] at counted
    exact counted.trans kept

/-- A table whose first entries are `elems` and which holds no more entries holds
them at no other key. -/
theorem isSequence_of_present {a : LuaTable (LuaElem C)} {elems : List (LuaScalar C)}
    (present : ∀ i, i < elems.length → a.get? (.integer (i + 1)) = (elems[i]?).map .scalar)
    (size : a.size = elems.length) : IsSequence a elems := by
  have indices : ((List.range elems.length).map fun i : Nat => LuaKey.integer (i + 1)).Nodup :=
    List.nodup_range.map fun i j same => by simpa using same
  have found : ((List.range elems.length).map fun i : Nat => LuaKey.integer (i + 1)) ⊆ a.entries.map Sigma.fst := by
    intro k member
    obtain ⟨i, inside, rfl⟩ := List.mem_map.mp member
    rw [List.mem_range] at inside
    exact LuaTable.mem_keys_iff.mpr ⟨_, by rw [present i inside, List.getElem?_eq_getElem inside]; rfl⟩
  have all := (List.subperm_of_subset indices found).perm_of_length_le
    (by rw [List.length_map, List.length_map, List.length_range]; exact size.le)
  intro k
  cases here : a.get? k with
  | some e =>
    have member := all.symm.subset (LuaTable.mem_keys_iff.mpr ⟨e, here⟩)
    obtain ⟨i, inside, rfl⟩ := List.mem_map.mp member
    rw [← here, present i (List.mem_range.mp inside), sequenceAt_succ]
  | none =>
    cases k with
    | string bytes => rfl
    | other id => rfl
    | integer j =>
      rw [sequenceAt]
      split
      · rename_i positive
        cases there : elems[(j - 1).toNat]? with
        | none => rfl
        | some v =>
          have inside := (List.getElem?_eq_some_iff.mp there).1
          have held := present _ inside
          rw [show ((j - 1).toNat : Int) + 1 = j by omega, here, there] at held
          cases held
      · rfl

/-- What the loop has found when it ends, `elems` being behind it at the start. -/
theorem detectLoop_ok {a : LuaTable (LuaElem C)} {tag tag' : UInt8} {elems : List (LuaScalar C)} {left m : Nat}
    (run : detectLoop a tag elems.length left = .ok (tag', m))
    (present : ∀ i, i < elems.length → a.get? (.integer (i + 1)) = (elems[i]?).map .scalar)
    (tags : ∀ v ∈ elems, v.tag = tag) :
    ∃ all : List (LuaScalar C), m = all.length ∧ m < elems.length + left ∧ (∀ v ∈ all, v.tag = tag') ∧
      ∀ i, i < all.length → a.get? (.integer (i + 1)) = (all[i]?).map .scalar := by
  induction left generalizing elems tag with
  | zero => cases run
  | succ left ih =>
    rw [detectLoop] at run
    cases next : a.get? (.integer (elems.length + 1)) with
    | none =>
      simp only [next, Except.ok.injEq, Prod.mk.injEq] at run
      obtain ⟨rfl, rfl⟩ := run
      exact ⟨elems, rfl, by omega, tags, present⟩
    | some e =>
      cases e with
      | other => simp [next] at run
      | scalar v =>
        have longer : (elems ++ [v]).length = elems.length + 1 := by simp
        have present' : ∀ i, i < (elems ++ [v]).length →
            a.get? (.integer (i + 1)) = ((elems ++ [v])[i]?).map .scalar := by
          intro i inside
          rcases Nat.lt_or_ge i elems.length with before | last
          · rw [List.getElem?_append_left before]
            exact present i before
          · rw [show i = elems.length by omega, next, List.getElem?_concat_length]
            rfl
        obtain ⟨run', tags'⟩ : detectLoop a v.tag (elems.length + 1) left = .ok (tag', m) ∧
            ∀ w ∈ elems, w.tag = v.tag := by
          simp only [next] at run
          split at run
          · rename_i first
            rw [List.length_eq_zero_iff.mp first]
            exact ⟨List.length_eq_zero_iff.mp first ▸ run, by simp⟩
          · split at run
            · cases run
            · rename_i same
              rw [not_not.mp same]
              exact ⟨run, tags⟩
        obtain ⟨all, length, bound, all_tags, all_present⟩ := ih (longer.symm ▸ run') present'
          (List.forall_mem_append.mpr ⟨tags', List.forall_mem_singleton.mpr rfl⟩)
        exact ⟨all, length, by omega, all_tags, all_present⟩

theorem detectLoop_error {a : LuaTable (LuaElem C)} {tag : UInt8} {n left : Nat} {rc : Ltf}
    (run : detectLoop a tag n left = .error rc) : rc ≠ .ok := by
  induction left generalizing n tag with
  | zero =>
    cases run
    exact Ltf.noConfusion
  | succ left ih =>
    rw [detectLoop] at run
    split at run
    · cases run
    · cases run
      exact Ltf.noConfusion
    · split at run
      · exact ih run
      · split at run
        · cases run
          exact Ltf.noConfusion
        · exact ih run

theorem detectArray_error {a : LuaTable (LuaElem C)} {rc : Ltf} (run : detectArray a = .error rc) : rc ≠ .ok := by
  unfold detectArray at run
  split at run
  · cases run
    exact detectLoop_error ‹_›
  · split at run
    · cases run
      exact Ltf.noConfusion
    · cases run

theorem detectArray_ok {a : LuaTable (LuaElem C)} {tag : UInt8} {n : Nat} (run : detectArray a = .ok (tag, n)) :
    ∃ elems : List (LuaScalar C), IsSequence a elems ∧ n = elems.length ∧ n < 0xffffffff ∧
      ∀ v ∈ elems, v.tag = tag := by
  unfold detectArray at run
  split at run
  · cases run
  · rename_i tag' m looped
    split at run
    · cases run
    · rename_i whole
      cases run
      have started : detectLoop a 0 ([] : List (LuaScalar C)).length 0xffffffff = .ok (tag, n) := looped
      obtain ⟨elems, length, bound, tags, present⟩ := detectLoop_ok started (by simp) (by simp)
      exact ⟨elems, isSequence_of_present present (by rw [not_not.mp whole, length]), length,
        by simpa using bound, tags⟩

theorem emitElems_wrote {a : LuaTable (LuaElem C)} {elems : List (LuaScalar C)} (sequence : IsSequence a elems)
    (out : Sink cap) :
    out.Wrote (elems.flatMap wirePayload) ((List.range elems.length).foldl (emitElem a) out) := by
  have upTo : ∀ n, n ≤ elems.length →
      out.Wrote ((elems.take n).flatMap wirePayload) ((List.range n).foldl (emitElem a) out) := by
    intro n inside
    induction n with
    | zero => exact .refl out
    | succ n ih =>
      have here : elems[n]? = some elems[n] := List.getElem?_eq_getElem inside
      rw [List.range_succ, List.foldl_append, List.foldl_cons, List.foldl_nil, List.take_add_one, here,
        List.flatMap_append]
      refine (ih (by omega)).trans ?_
      rw [emitElem, sequence, sequenceAt_succ, here]
      simpa using emitPayload_wrote _ _
  simpa using upTo elems.length le_rfl

theorem emitArray_wrote {a : LuaTable (LuaElem C)} {out out' : Sink cap} (run : emitArray a out = (.ok, out')) :
    ∃ bytes, Wire (.table a) bytes ∧ out.Wrote bytes out' := by
  unfold emitArray at run
  split at run
  · rename_i rc failed
    cases run
    exact absurd rfl (detectArray_error failed)
  · rename_i tag n detected
    obtain ⟨elems, sequence, length, count, tags⟩ := detectArray_ok detected
    cases run
    refine ⟨_, .array sequence (length ▸ count) tags, ?_⟩
    have word : (UInt32.ofNat n).toNat = elems.length := by
      rw [← length]
      exact UInt32.toNat_ofNat_of_lt' (by show n < 2 ^ 32; omega)
    have counted := Sink.putU32_wrote ((out.putU8 ltfTagArray).putU8 tag) (UInt32.ofNat n)
    rw [word] at counted
    rw [length] at counted ⊢
    exact (((out.putU8_wrote _).trans (Sink.putU8_wrote _ _)).trans counted).trans
      (emitElems_wrote sequence _)

theorem emitValue_wrote {field : Option (LuaField C)} {out out' : Sink cap} (run : emitValue field out = (.ok, out')) :
    ∃ f bytes, field = some f ∧ Wire f bytes ∧ out.Wrote bytes out' := by
  unfold emitValue at run
  split at run
  · rename_i v
    cases run
    exact ⟨_, _, rfl, .scalar v, (out.putU8_wrote v.tag).trans (emitPayload_wrote v _)⟩
  · rename_i a
    obtain ⟨bytes, wire, wrote⟩ := emitArray_wrote run
    exact ⟨_, bytes, rfl, wire, wrote⟩
  · cases run

/-- The wire format of the fields under the given keys, in their order. -/
inductive WireFields (t : LuaTable (LuaField C)) : List (List UInt8) → List UInt8 → Prop
  | nil : WireFields t [] []
  | cons {key : List UInt8} {keys : List (List UInt8)} {f : LuaField C} {bytes more : List UInt8}
      (here : t.get? (.string key) = some f) (wire : Wire f bytes) (rest : WireFields t keys more) :
      WireFields t (key :: keys) (leBytes 2 key.length ++ key ++ bytes ++ more)

theorem emitFields_wrote {t : LuaTable (LuaField C)} {keys : List (List UInt8)} {out out' : Sink cap}
    (run : emitFields t keys out = (.ok, out')) (keys_short : ∀ key ∈ keys, key.length ≤ ltfMaxKeyLen) :
    ∃ bytes, WireFields t keys bytes ∧ out.Wrote bytes out' := by
  induction keys generalizing out with
  | nil =>
    cases run
    exact ⟨[], .nil, .refl _⟩
  | cons key keys ih =>
    rw [emitFields] at run
    have bound : key.length ≤ 64 := keys_short key List.mem_cons_self
    have header : out.Wrote (leBytes 2 key.length ++ key)
        ((out.putU16 (UInt16.ofNat key.length)).putBytes key (UInt32.ofNat key.length)) := by
      have length : (UInt16.ofNat key.length).toNat = key.length := UInt16.toNat_ofNat_of_lt' (by show _ < 2 ^ 16; omega)
      have word : (UInt32.ofNat key.length).toNat = key.length := UInt32.toNat_ofNat_of_lt' (by show _ < 2 ^ 32; omega)
      have prefixed := out.putU16_wrote (UInt16.ofNat key.length)
      rw [length] at prefixed
      have kept := (out.putU16 (UInt16.ofNat key.length)).putBytes_wrote key (UInt32.ofNat key.length)
      rw [word, List.take_length] at kept
      exact prefixed.trans kept
    split at run
    · rename_i out₁ emitted
      split at run
      · cases run
      · obtain ⟨f, bytes, here, wire, wrote⟩ := emitValue_wrote emitted
        obtain ⟨more, rest, wrote'⟩ := ih run fun key member => keys_short key (List.mem_cons_of_mem _ member)
        exact ⟨_, .cons here wire rest, (header.trans wrote).trans wrote'⟩
    · rename_i rc out₁ failed emitted
      cases run
      exact absurd rfl failed

theorem collectKeys_ok {entries : List (Sigma fun _ : LuaKey => LuaField C)} {seen keys : List (List UInt8)}
    (run : collectKeys entries seen = .ok keys) (count : seen.length ≤ ltfMaxFields)
    (lengths : ∀ key ∈ seen, key.length ≤ ltfMaxKeyLen) :
    keys.map LuaKey.string = seen.map LuaKey.string ++ entries.map Sigma.fst ∧ keys.length ≤ ltfMaxFields ∧
      ∀ key ∈ keys, key.length ≤ ltfMaxKeyLen := by
  induction entries generalizing seen with
  | nil =>
    cases run
    exact ⟨by simp, count, lengths⟩
  | cons entry rest ih =>
    obtain ⟨k, f⟩ := entry
    cases k with
    | integer i => cases run
    | other id => cases run
    | string bytes =>
      rw [collectKeys] at run
      split at run
      · cases run
      · split at run
        · cases run
        · rename_i room brief
          obtain ⟨all, count', lengths'⟩ := ih run (by rw [List.length_append]; simp; omega)
            (List.forall_mem_append.mpr ⟨lengths, List.forall_mem_singleton.mpr (Nat.le_of_not_gt brief)⟩)
          exact ⟨by rw [all]; simp, count', lengths'⟩

theorem collectKeys_error {entries : List (Sigma fun _ : LuaKey => LuaField C)} {seen : List (List UInt8)} {rc : Ltf}
    (run : collectKeys entries seen = .error rc) : rc ≠ .ok := by
  induction entries generalizing seen with
  | nil => cases run
  | cons entry rest ih =>
    obtain ⟨k, f⟩ := entry
    cases k with
    | string bytes =>
      rw [collectKeys] at run
      split at run
      · cases run
        exact Ltf.noConfusion
      · split at run
        · cases run
          exact Ltf.noConfusion
        · exact ih run
    | integer i =>
      cases run
      exact Ltf.noConfusion
    | other id =>
      cases run
      exact Ltf.noConfusion

/-- A call that reports success went through all three phases, and nothing was
refused or stored outside the buffer. -/
theorem luaTableFlatten_ok {v : LuaArg C} {r : Flattened} (run : luaTableFlatten v cap = .returns r)
    (ok : r.rc = .ok) :
    ∃ t keys out, v = .table t ∧ collectKeys t.entries [] = .ok keys ∧
      emitFields t (keySort keys) ((Sink.start cap).putU32 (UInt32.ofNat keys.length)) = (.ok, out) ∧
      out.Clean ∧ r.written = out.out ∧ r.outLen.toNat = r.written.length := by
  unfold luaTableFlatten at run
  split at run
  · cases run
    cases ok
  · rename_i t
    split at run
    · rename_i rc failed
      cases run
      exact absurd ok (collectKeys_error failed)
    · rename_i keys collected
      dsimp only at run
      split at run
      · cases run
      · rename_i inside
        split at run
        · rename_i failed
          cases run
          exact absurd ok failed
        · rename_i succeeded
          split at run
          · cases run
            cases ok
          · rename_i complete
            cases run
            have clean : (emitFields t (keySort keys) ((Sink.start cap).putU32 (UInt32.ofNat keys.length))).2.Clean :=
              ⟨Bool.eq_false_iff.mpr complete, Bool.eq_false_iff.mpr inside⟩
            refine ⟨t, keys, _, rfl, collected, Prod.ext (not_not.mp succeeded) rfl, clean, rfl, ?_⟩
            have fits := Sink.fits _ clean.2
            exact UInt32.toNat_ofNat_of_lt' (Nat.lt_of_le_of_lt fits (UInt32.toNat_lt _))

/-- The whole wire format: the number of fields, and the fields in the order of
their keys. -/
structure WireTable (t : LuaTable (LuaField C)) (keys : List (List UInt8)) (bytes : List UInt8) : Prop where
  all : (keys.map LuaKey.string).Perm (t.entries.map Sigma.fst)
  sorted : keys.Pairwise (· ≤ ·)
  count : keys.length ≤ ltfMaxFields
  lengths : ∀ key ∈ keys, key.length ≤ ltfMaxKeyLen
  fields : ∃ more, WireFields t keys more ∧ bytes = leBytes 4 keys.length ++ more

/-- What `lua_table_flatten` writes when it reports success is the table's wire format. -/
theorem luaTableFlatten_wire {t : LuaTable (LuaField C)} {r : Flattened}
    (run : luaTableFlatten (.table t) cap = .returns r) (ok : r.rc = .ok) : ∃ keys, WireTable t keys r.written := by
  obtain ⟨_, keys, out, same, collected, emitted, clean, written, -⟩ := luaTableFlatten_ok run ok
  cases same
  obtain ⟨all, count, lengths⟩ := collectKeys_ok collected (Nat.zero_le _) (by simp)
  have perm := keySort_perm keys
  have lengths' : ∀ key ∈ keySort keys, key.length ≤ ltfMaxKeyLen := fun key member =>
    lengths key (perm.subset member)
  obtain ⟨more, fields, wrote⟩ := emitFields_wrote emitted lengths'
  have word : (UInt32.ofNat keys.length).toNat = keys.length :=
    UInt32.toNat_ofNat_of_lt' (Nat.lt_of_le_of_lt count (by decide))
  have header := (Sink.start cap).putU32_wrote (UInt32.ofNat keys.length)
  rw [word] at header
  refine ⟨keySort keys, ?_, keySort_sorted keys, perm.length_eq ▸ count, lengths', more, fields, ?_⟩
  · rw [List.map_nil, List.nil_append] at all
    rw [← all]
    exact perm.map _
  · rw [written, perm.length_eq]
    exact ((header.trans wrote) clean).2

end
end Blyt
